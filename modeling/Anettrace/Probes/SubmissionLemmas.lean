import Anettrace.Probes.Submission

/-!
# What the probes on calls and packets change

For each function of `Probes.Submission`, the maps that it leaves alone, and what one probe on a
function, on the beginning or on the end of a system call does and reports.
-/

namespace Anettrace.Probes

open Library Export

namespace CallMaps

/-! ## What each function leaves alone -/

theorem perfettoIoExit_eq (func : ProbeFunc) (task : UInt64) (maps : CallMaps) :
    ∃ io, maps.perfettoIoExit func task = { maps with io := io } := by
  unfold perfettoIoExit
  split
  case isTrue => exact ⟨maps.io, rfl⟩
  case isFalse =>
    cases maps.io task with
    | none => exact ⟨maps.io, rfl⟩
    | some io =>
        dsimp only
        split <;> exact ⟨_, rfl⟩

theorem perfettoIoEnter_eq (sk : UInt64) (probe : CallProbe) (maps : CallMaps) :
    ∃ sockets io, maps.perfettoIoEnter sk probe = { maps with sockets := sockets, io := io } := by
  unfold perfettoIoEnter
  dsimp only
  split
  case h_1 => exact ⟨_, _, rfl⟩
  case h_2 =>
    split
    case isTrue => exact ⟨maps.sockets, _, rfl⟩
    case isFalse => exact ⟨_, _, rfl⟩

theorem enterCall_eq (sk : UInt64) (probe : CallProbe) (maps : CallMaps) :
    ∃ sockets io, maps.enterCall sk probe = { maps with sockets := sockets, io := io } := by
  unfold enterCall
  split
  case isTrue => exact maps.perfettoIoEnter_eq sk probe
  case isFalse => exact ⟨maps.sockets, maps.io, rfl⟩

theorem leaveCall_eq (probe : CallProbe) (maps : CallMaps) :
    ∃ io, maps.leaveCall probe = { maps with io := io } := by
  unfold leaveCall
  split
  case isTrue => exact maps.perfettoIoExit_eq ..
  case isFalse => exact ⟨maps.io, rfl⟩

theorem networkSyscallBind_eq (sk : UInt64) (probe : CallProbe) (maps : CallMaps) :
    ∃ sockets syscalls,
      maps.networkSyscallBind sk probe =
        { maps with sockets := sockets, syscalls := syscalls } := by
  unfold networkSyscallBind
  split
  case isTrue => exact ⟨maps.sockets, maps.syscalls, rfl⟩
  case isFalse =>
    split
    case h_1 => exact ⟨maps.sockets, maps.syscalls, rfl⟩
    case h_2 => exact ⟨_, _, rfl⟩

theorem getRet_eq (probe : CallProbe) (maps : CallMaps) :
    ∃ returns, maps.getRet probe = { maps with returns := returns } := by
  unfold getRet
  split
  case isTrue => exact ⟨maps.returns, rfl⟩
  case isFalse =>
    dsimp only
    split <;> exact ⟨_, rfl⟩

theorem putRet_eq (current : Task) (func : ProbeFunc) (ret : Bool) (maps : CallMaps) :
    ∃ returns, (maps.putRet current func ret).1 = { maps with returns := returns } := by
  unfold putRet
  split
  case isTrue => exact ⟨maps.returns, rfl⟩
  case isFalse =>
    dsimp only
    split
    case h_1 => exact ⟨maps.returns, rfl⟩
    case h_2 => split <;> exact ⟨_, rfl⟩

/-- `handle_exit` counts the return off, and may leave the call. -/
theorem handleExit_eq (args : CallArgs) (current : Task) (func : ProbeFunc) (ret : Bool)
    (maps : CallMaps) :
    ∃ io returns, (maps.handleExit args current func ret).1 =
      { maps with io := io, returns := returns } := by
  obtain ⟨returns, hput⟩ := maps.putRet_eq current func ret
  unfold handleExit
  dsimp only
  split
  case isTrue => exact ⟨maps.io, maps.returns, rfl⟩
  case isFalse =>
    split
    case isTrue => exact ⟨maps.io, returns, hput⟩
    case isFalse =>
      dsimp only
      split
      case isTrue =>
        obtain ⟨io, hexit⟩ :=
          (maps.putRet current func ret).1.perfettoIoExit_eq func current.pidTgid
        exact ⟨io, returns, by rw [hexit, hput]⟩
      case isFalse => exact ⟨maps.io, returns, hput⟩

/-- The probes on system calls leave the packets and the sockets alone. -/
theorem networkSysEnter_eq (args : CallArgs) (entry : SyscallEntry) (maps : CallMaps) :
    ∃ io syscalls, (maps.networkSysEnter args entry).1 =
      { maps with io := io, syscalls := syscalls } := by
  unfold networkSysEnter
  dsimp only
  split
  case isTrue => exact ⟨maps.io, maps.syscalls, rfl⟩
  case isFalse =>
    split
    case h_1 => exact ⟨_, _, rfl⟩
    case h_2 => split <;> exact ⟨_, _, rfl⟩

theorem networkSysExit_frame (args : CallArgs) (exit : SyscallExit) (maps : CallMaps) :
    ∃ io syscalls, (maps.networkSysExit args exit).1 =
      { maps with io := io, syscalls := syscalls } := by
  unfold networkSysExit
  dsimp only
  split
  case isTrue => exact ⟨maps.io, maps.syscalls, rfl⟩
  case isFalse => split <;> exact ⟨_, _, rfl⟩

theorem perfettoPacketGeneration_eq (skb head : UInt64) (users : UInt32)
    (release udpConsume : Bool) (maps : CallMaps) :
    ∃ packets counter, (maps.perfettoPacketGeneration skb head users release udpConsume).1 =
      { maps with packets := packets, packetCounter := counter } := by
  unfold perfettoPacketGeneration
  by_cases hbegins : maps.begins skb head release
  all_goals
    simp only [hbegins, if_true, Bool.false_eq_true, if_false]
    split
    case h_1 => exact ⟨_, _, rfl⟩
    case h_2 => split <;> exact ⟨_, _, rfl⟩

theorem packetIdentity_eq (probe : CallProbe) (udpConsume : Bool) (maps : CallMaps) :
    ∃ packets counter, (maps.packetIdentity probe udpConsume).1 =
      { maps with packets := packets, packetCounter := counter } := by
  unfold packetIdentity
  split
  case isTrue => exact ⟨maps.packets, maps.packetCounter, rfl⟩
  case isFalse => exact maps.perfettoPacketGeneration_eq ..

theorem perfettoRetirePacket_eq (skb : UInt64) (maps : CallMaps) :
    ∃ packets, maps.perfettoRetirePacket skb = { maps with packets := packets } := by
  unfold perfettoRetirePacket
  split <;> exact ⟨_, rfl⟩

theorem retireFreed_eq (probe : CallProbe) (maps : CallMaps) :
    ∃ packets, maps.retireFreed probe = { maps with packets := packets } := by
  unfold retireFreed
  split
  case isTrue => exact maps.perfettoRetirePacket_eq probe.skb
  case isFalse => exact ⟨maps.packets, rfl⟩

theorem handleEntryFinish_eq (probe : CallProbe) (maps : CallMaps) :
    ∃ packets, maps.handleEntryFinish probe = { maps with packets := packets } := by
  unfold handleEntryFinish
  split
  case isTrue => exact maps.perfettoRetirePacket_eq probe.skb
  case isFalse => exact ⟨maps.packets, rfl⟩

theorem functionProbe_rejected {args : CallArgs} {probe : CallProbe} (maps : CallMaps)
    (h : rejects args probe = true) :
    maps.functionProbe args probe = (maps.perfettoRecordSubmission args probe, none) :=
  if_pos h

theorem functionProbe_admitted {args : CallArgs} {probe : CallProbe} (maps : CallMaps)
    (h : rejects args probe = false) :
    maps.functionProbe args probe =
      let found :=
  ((maps.perfettoRecordSubmission args probe).retireFreed probe).handleEntry args probe
      (found.1.handleEntryFinish probe, found.2) :=
  if_neg (by rw [h]; exact Bool.false_ne_true)

theorem networkSysEnter_cases (args : CallArgs) (entry : SyscallEntry) (maps : CallMaps)
    (h : watches args entry.current = true) :
    (maps.networkSysEnter args entry).1.io = maps.io.remove entry.current.pidTgid ∧
      ((maps.networkSysEnter args entry).1.syscalls = maps.syscalls.remove entry.current.pidTgid ∧
          (maps.networkSysEnter args entry).2 = [] ∨
        ∃ call, (maps.networkSysEnter args entry).1.syscalls =
            maps.syscalls.put entry.current.pidTgid (entry.record args call) ∧
          (maps.networkSysEnter args entry).2 = [(entry.record args call).toSyscallEvent]) := by
  unfold networkSysEnter
  simp only [h, Bool.not_true, Bool.false_eq_true, if_false]
  cases entry.networkCall args with
  | none => exact ⟨rfl, .inl ⟨rfl, rfl⟩⟩
  | some call =>
      dsimp only
      split
      case isTrue => exact ⟨rfl, .inl ⟨rfl, rfl⟩⟩
      case isFalse => exact ⟨rfl, .inr ⟨call, Keyed.put_remove .., rfl⟩⟩

theorem networkSysEnter_unwatched {args : CallArgs} {entry : SyscallEntry} (maps : CallMaps)
    (h : watches args entry.current = false) : maps.networkSysEnter args entry = (maps, []) :=
  if_pos (by rw [h]; rfl)

def endOf (exit : SyscallExit) (maps : CallMaps) : List SyscallEvent :=
  match maps.syscalls exit.current.pidTgid with
  | none => []
  | some record =>
      if record.syscallNr.toUInt64 = exit.nr.toUInt64 then
        [(record.finish exit).toSyscallEvent] else []

theorem networkSysExit_eq (args : CallArgs) (exit : SyscallExit) (maps : CallMaps)
    (h : (args.ready && args.perfetto) = true) :
    (maps.networkSysExit args exit).1.io = maps.io.remove exit.current.pidTgid ∧
      (maps.networkSysExit args exit).1.syscalls = maps.syscalls.remove exit.current.pidTgid ∧
      (maps.networkSysExit args exit).2 = maps.endOf exit := by
  rw [Bool.and_eq_true] at h
  unfold networkSysExit endOf
  simp only [h.1, h.2, Bool.not_true, Bool.or_self, Bool.false_eq_true, if_false]
  change _ ∧ _ ∧ _ = match maps.syscalls exit.current.pidTgid with
    | none => []
    | some record =>
        if record.syscallNr.toUInt64 = exit.nr.toUInt64 then [(record.finish exit).toSyscallEvent]
        else []
  cases hcall : maps.syscalls exit.current.pidTgid with
  | none =>
      have hsame : maps.syscalls.remove exit.current.pidTgid = maps.syscalls := by
        refine Keyed.ext fun thread => ?_
        by_cases hthread : thread = exit.current.pidTgid
        · rw [hthread, Keyed.remove_same, hcall]
        · exact Keyed.remove_other _ hthread
      simp [perfettoIoSyscallBoundary, hcall, hsame]
  | some record => simp [perfettoIoSyscallBoundary, hcall]

theorem networkSysExit_unwatched {args : CallArgs} {exit : SyscallExit} (maps : CallMaps)
    (h : (args.ready && args.perfetto) = false) : maps.networkSysExit args exit = (maps, []) :=
  if_pos (by rw [← Bool.not_and, h]; rfl)

theorem perfettoPacketGeneration_packet (maps : CallMaps) (skb head : UInt64)
    (users : UInt32) (release udpConsume : Bool) :
    ∃ packet, (maps.perfettoPacketGeneration skb head users release udpConsume).1.packets skb =
        some packet ∧
      packet.generation = (maps.perfettoPacketGeneration skb head users release udpConsume).2 := by
  have hthere : ∃ packet, (if maps.begins skb head release then maps.beginInstance skb head
      else maps).packets skb = some packet := by
    split
    case isTrue => exact ⟨_, Keyed.put_same _ _ _⟩
    case isFalse hbegins =>
      unfold begins at hbegins
      cases hpacket : maps.packets skb with
      | none => rw [hpacket] at hbegins; exact absurd rfl hbegins
      | some packet => exact ⟨packet, rfl⟩
  obtain ⟨packet, hpacket⟩ := hthere
  unfold perfettoPacketGeneration
  dsimp only
  rw [hpacket]
  dsimp only
  split
  case isTrue => exact ⟨_, Keyed.put_same _ _ _, rfl⟩
  case isFalse => exact ⟨packet, hpacket, rfl⟩

/-- `handle_entry` fails, or reports an event after the owner is found. -/
theorem handleEntry_cases (args : CallArgs) (probe : CallProbe) (maps : CallMaps) :
    (∃ sockets, maps.handleEntry args probe =
      ({ maps with sockets := sockets }.handleEntryErr probe, none)) ∨
    ∃ sockets owner direction, maps.handleEntry args probe =
      let out := { maps with sockets := sockets }.handleEntryOut args (maps.eventSocket probe) owner
        direction probe
      (out.1, some out.2) := by
  unfold handleEntry
  dsimp only
  split
  case isTrue => exact .inl ⟨maps.sockets, rfl⟩
  case isFalse =>
    generalize hhandled : perfettoHandleOwner args.toBpfArgs
      (probe.socketProbe (maps.eventSocket probe)) maps.sockets = handled
    obtain ⟨sockets, handled⟩ := handled
    cases handled with
    | none => exact .inl ⟨sockets, rfl⟩
    | some owner => exact .inr ⟨sockets, owner, _, rfl⟩

theorem perfettoRecordSubmission_eq (args : CallArgs) (probe : CallProbe) (maps : CallMaps) :
    ∃ packets counter, maps.perfettoRecordSubmission args probe =
      { maps with packets := packets, packetCounter := counter } := by
  unfold perfettoRecordSubmission
  split
  case h_1 => exact ⟨_, _, rfl⟩
  case h_2 =>
    obtain ⟨packets, counter, h⟩ :=
      maps.perfettoPacketGeneration_eq probe.skb probe.head probe.users false false
    dsimp only
    rw [h]
    split
    case isTrue => exact ⟨_, _, rfl⟩
    case isFalse => split <;> exact ⟨_, _, rfl⟩

/-- What `handle_entry` reports, and what it does beyond the identity of the event. -/
theorem handleEntryOut_eq (args : CallArgs) (sk : UInt64) (owner : Option PerfettoOwner)
    (direction : PacketDirection) (probe : CallProbe) (maps : CallMaps) :
    let identity :=
  (maps.networkSyscallBind sk probe).perfettoRecordIdentity sk owner direction probe
    let out := maps.handleEntryOut args sk owner direction probe
    (∃ sockets returns, out.1 = { identity.1 with sockets := sockets, returns := returns }) ∧
      ∃ generation, (probe.skb ≠ 0 → generation = identity.2.1) ∧
        out.2 = ⟨probe.func, probe.ts, probe.current.tid, probe.current.tgid, probe.skb,
          if probe.skb ≠ 0 then probe.skb else sk, generation, direction, owner, identity.2.2⟩ := by
  unfold handleEntryOut
  dsimp only
  constructor
  · split
    case isTrue => exact ⟨_, _, rfl⟩
    case isFalse =>
      obtain ⟨returns, hret⟩ := getRet_eq probe _
      rw [hret]
      exact ⟨_, _, rfl⟩
  · refine ⟨_, fun hskb => ?_, rfl⟩
    rw [if_neg fun h => hskb h.2]

/-- The end of a packet depends on the packets alone. -/
theorem handleEntryFinish_packets (probe : CallProbe) {maps other : CallMaps}
    (h : other.packets = maps.packets) :
    (other.handleEntryFinish probe).packets = (maps.handleEntryFinish probe).packets := by
  unfold handleEntryFinish perfettoRetirePacket
  rw [h]
  split
  case isTrue =>
    split
    case h_1 => exact h
    case h_2 => rfl
  case isFalse => exact h

theorem handleEntryFinish_packet (probe : CallProbe) {maps : CallMaps} {skb : UInt64}
    {packet : PacketInstance} (h : maps.packets skb = some packet) :
    ∃ released, (maps.handleEntryFinish probe).packets skb =
      some { packet with released := released } := by
  unfold handleEntryFinish perfettoRetirePacket
  split
  case isTrue =>
    split
    case h_1 => exact ⟨packet.released, h⟩
    case h_2 retired hretired =>
      by_cases hsame : skb = probe.skb
      · subst hsame
        obtain rfl := Option.some.inj (h.symm.trans hretired)
        exact ⟨true, Keyed.put_same _ _ _⟩
      · exact ⟨packet.released, (Keyed.put_other _ hsame _).trans h⟩
  case isFalse => exact ⟨packet.released, h⟩

theorem handleEntryFinish_counter (probe : CallProbe) (maps : CallMaps) :
    (maps.handleEntryFinish probe).packetCounter = maps.packetCounter := by
  obtain ⟨packets, h⟩ := handleEntryFinish_eq probe maps
  rw [h]

theorem functionProbe_report {args : CallArgs} {probe : CallProbe} {maps : CallMaps}
    {report : CallReport} (h : (maps.functionProbe args probe).2 = some report) :
    rejects args probe = false ∧ ∃ found : CallMaps, found.io = maps.io ∧
      found.packets = ((maps.perfettoRecordSubmission args probe).retireFreed probe).packets ∧
      found.packetCounter = (maps.perfettoRecordSubmission args probe).packetCounter ∧
      ∃ identity, identity = found.perfettoRecordIdentity (maps.eventSocket probe) report.owner
          report.direction probe ∧
        (maps.functionProbe args probe).1.io = identity.1.io ∧
        (maps.functionProbe args probe).1.packets = (identity.1.handleEntryFinish probe).packets ∧
        (maps.functionProbe args probe).1.packetCounter = identity.1.packetCounter ∧
        (probe.skb ≠ 0 → report.keyGeneration = identity.2.1) ∧
        report.evidence = identity.2.2 ∧ report.skb = probe.skb := by
  cases hrejects : rejects args probe with
  | true =>
      rw [functionProbe_rejected maps hrejects] at h
      cases h
  | false =>
      refine ⟨rfl, ?_⟩
      obtain ⟨packets, counter, hsubmitted⟩ := maps.perfettoRecordSubmission_eq args probe
      obtain ⟨retired, hretired⟩ := (maps.perfettoRecordSubmission args probe).retireFreed_eq probe
      rw [functionProbe_admitted maps hrejects] at h ⊢
      generalize (maps.perfettoRecordSubmission args probe).retireFreed probe =
        passed at hretired h ⊢
      have hio : passed.io = maps.io := by rw [hretired, hsubmitted]
      have hcounter : passed.packetCounter =
          (maps.perfettoRecordSubmission args probe).packetCounter := by
        rw [hretired]
      have hsocket : passed.eventSocket probe = maps.eventSocket probe := by
        unfold eventSocket
        rw [hio]
      obtain ⟨sockets, hfailed⟩ | ⟨sockets, owner, direction, hout⟩ :=
        passed.handleEntry_cases args probe
      · rw [hfailed] at h
        cases h
      · rw [hout] at h ⊢
        dsimp only at h ⊢
        generalize hmaps : { passed with sockets := sockets } = current at h ⊢
        obtain ⟨bound, syscalls, hbind⟩ :=
          current.networkSyscallBind_eq (passed.eventSocket probe) probe
        obtain ⟨⟨named, returns, hafter⟩, generation, hgeneration, hreport⟩ :=
          current.handleEntryOut_eq args (passed.eventSocket probe) owner direction probe
        obtain rfl := hreport.symm.trans (Option.some.inj h)
        have hcurrent : current.io = maps.io ∧ current.packets = passed.packets ∧
            current.packetCounter = passed.packetCounter := by
          subst hmaps
          exact ⟨hio, rfl, rfl⟩
        refine ⟨current.networkSyscallBind (passed.eventSocket probe) probe, ?_, ?_, ?_, _,
          ?_, ?_, ?_, ?_,
          hgeneration, rfl, rfl⟩
        · rw [hbind, hcurrent.1]
        · rw [hbind, hcurrent.2.1]
        · rw [hbind, hcurrent.2.2, hcounter]
        · rw [← hsocket]
        · obtain ⟨finished, hfinish⟩ := handleEntryFinish_eq probe
            (current.handleEntryOut args (passed.eventSocket probe) owner direction probe).1
          rw [hfinish, hafter]
        · exact handleEntryFinish_packets probe (by rw [hafter])
        · rw [handleEntryFinish_counter, hafter]

/-- A record after its socket was bound: the call is the same. -/
def Bound (old new : SyscallRecord) : Prop :=
  new = { old with
    socketKey := new.socketKey
    socketGeneration := new.socketGeneration
    requestedBytes := new.requestedBytes
    requestedValid := new.requestedValid }

theorem Bound.refl (record : SyscallRecord) : Bound record record := rfl

theorem Bound.trans {first second third : SyscallRecord} (h : Bound first second)
    (h' : Bound second third) : Bound first third := by
  unfold Bound at h h' ⊢
  rw [h', h]

theorem Bound.startTs {old new : SyscallRecord} (h : Bound old new) :
    new.startTs = old.startTs := by
  rw [h]

theorem Bound.starts {old new : Option SyscallRecord} (h : Option.Rel Bound old new) :
    (new.map fun call => call.startTs) = old.map fun call => call.startTs := by
  cases h with
  | none => rfl
  | some h => exact congrArg some h.startTs

/-- Binding the socket of a call leaves the calls that are tracked as they are. -/
theorem networkSyscallBind_bound (sk : UInt64) (probe : CallProbe) (maps : CallMaps)
    (thread : UInt64) :
    Option.Rel Bound (maps.syscalls thread)
      ((maps.networkSyscallBind sk probe).syscalls thread) := by
  have hsame : Option.Rel Bound (maps.syscalls thread) (maps.syscalls thread) := by
    cases maps.syscalls thread with
    | none => exact .none
    | some record => exact .some (Bound.refl record)
  unfold networkSyscallBind
  split
  case isTrue => exact hsame
  case isFalse =>
    split
    case h_1 => exact hsame
    case h_2 pending hpending =>
      by_cases hthread : thread = probe.current.pidTgid
      case neg =>
        dsimp only
        rw [Keyed.put_other _ hthread]
        exact hsame
      case pos =>
        subst hthread
        dsimp only
        rw [Keyed.put_same, hpending]
        refine .some ?_
        split <;> rfl

theorem perfettoRecordIdentity_syscalls (sk : UInt64) (owner : Option PerfettoOwner)
    (direction : PacketDirection) (probe : CallProbe) (maps : CallMaps) :
    (maps.perfettoRecordIdentity sk owner direction probe).1.syscalls = maps.syscalls := by
  obtain ⟨sockets, io, hentered⟩ := maps.enterCall_eq sk probe
  unfold perfettoRecordIdentity
  dsimp only
  split
  case isTrue =>
    obtain ⟨packets, counter, hpacket⟩ := maps.packetIdentity_eq probe false
    rw [hpacket]
  case isFalse =>
    obtain ⟨packets, counter, hpacket⟩ :=
      (maps.enterCall sk probe).packetIdentity_eq probe (probe.func = .skbConsumeUdp)
    obtain ⟨left, hleft⟩ := ((maps.enterCall sk probe).packetIdentity probe
      (probe.func = .skbConsumeUdp)).1.leaveCall_eq probe
    dsimp only
    rw [hleft, hpacket, hentered]

theorem handleEntryOut_syscalls (args : CallArgs) (sk : UInt64) (owner : Option PerfettoOwner)
    (direction : PacketDirection) (probe : CallProbe) (maps : CallMaps) :
    (maps.handleEntryOut args sk owner direction probe).1.syscalls =
      (maps.networkSyscallBind sk probe).syscalls := by
  unfold handleEntryOut
  dsimp only
  split
  case isTrue => exact perfettoRecordIdentity_syscalls ..
  case isFalse =>
    obtain ⟨returns, hret⟩ := getRet_eq probe _
    rw [hret]
    exact perfettoRecordIdentity_syscalls ..

/-- A probe on a function does not change which system calls are tracked. -/
theorem functionProbe_bound (args : CallArgs) (probe : CallProbe) (maps : CallMaps)
    (thread : UInt64) :
    Option.Rel Bound (maps.syscalls thread)
      ((maps.functionProbe args probe).1.syscalls thread) := by
  have hsame : Option.Rel Bound (maps.syscalls thread) (maps.syscalls thread) := by
    cases maps.syscalls thread with
    | none => exact .none
    | some record => exact .some (Bound.refl record)
  obtain ⟨packets, counter, hsubmitted⟩ := maps.perfettoRecordSubmission_eq args probe
  cases hrejects : rejects args probe with
  | true =>
      rw [functionProbe_rejected maps hrejects, hsubmitted]
      exact hsame
  | false =>
      obtain ⟨retired, hretired⟩ := (maps.perfettoRecordSubmission args probe).retireFreed_eq probe
      rw [functionProbe_admitted maps hrejects]
      generalize (maps.perfettoRecordSubmission args probe).retireFreed probe = found at hretired ⊢
      have hcalls : found.syscalls = maps.syscalls := by rw [hretired, hsubmitted]
      dsimp only
      obtain ⟨finished, hfinish⟩ := handleEntryFinish_eq probe (found.handleEntry args probe).1
      rw [hfinish]
      obtain ⟨sockets, hfailed⟩ | ⟨sockets, owner, direction, hout⟩ :=
        found.handleEntry_cases args probe
      · rw [hfailed]
        unfold handleEntryErr
        obtain ⟨freed, hfreed⟩ := { found with sockets := sockets }.retireFreed_eq probe
        obtain ⟨io, hleft⟩ :=
          ({ found with sockets := sockets }.retireFreed probe).leaveCall_eq probe
        dsimp only
        rw [hleft, hfreed, hcalls]
        exact hsame
      · rw [hout]
        dsimp only
        rw [handleEntryOut_syscalls, ← hcalls]
        exact networkSyscallBind_bound _ _ { found with sockets := sockets } thread

end CallMaps

end Anettrace.Probes
