import Anettrace.Probes.CallContexts

/-!
# The calls that submit a packet

The record that the probes keep of a packet is of constant size; what it says is a summary of all
the calls that handed this instance of the packet down. `packet_evidence` states the summary: an
event of a sent packet names the call if it was one, says that there were several if they differ,
and else says only what its own task is doing.
-/

namespace Anettrace.Probes

open Library

/-- A call that hands a packet down: the instance of the packet, the task, and its context. -/
structure Submission where
  skb : UInt64
  generation : UInt32
  task : UInt64
  io : PerfettoIo
  deriving DecidableEq, Repr, Inhabited

def CallStep.submitted (args : CallArgs) (maps : CallMaps) : CallStep → List Submission
  | .function probe =>
      match maps.submitting args probe with
      | none => []
      | some io =>
          let generation :=
            (maps.perfettoPacketGeneration probe.skb probe.head probe.users false false).2
          if generation = 0 then [] else [⟨probe.skb, generation, probe.current.pidTgid, io⟩]
  | _ => []

def submissions (args : CallArgs) (steps : List CallStep) : List Submission :=
  Run.observations (CallStep.apply args) (CallStep.submitted args) .init steps

/-- The submissions of one instance of a packet. -/
def submissionsOf (skb : UInt64) (generation : UInt32) (calls : List Submission) :
    List Submission :=
  calls.filter fun call => call.skb = skb && call.generation = generation

/-- Two submissions are by one call, as far as its task, its start and its socket tell. -/
def Submission.same (first second : Submission) : Bool :=
  first.task = second.task && first.io.startTs = second.io.startTs &&
    first.io.socketKey = second.io.socketKey &&
    first.io.socketGeneration = second.io.socketGeneration

/-- Where a packet comes from: nowhere that was seen, one call, or several calls, of which this was
the first. -/
inductive Origin where
  | unknown
  | one (call : Submission)
  | several (first : Submission)

/-- What the submissions of a packet say about its origin; a call counts by its last submission. -/
def Origin.of : List Submission → Origin
  | [] => .unknown
  | first :: rest => if rest.all first.same then .one (rest.getLastD first) else .several first

def Submission.ownedBy (call : Submission) (owner : Option PerfettoOwner) : Bool :=
  owner.all fun owner => owner.socketKey = 0 ||
    (call.io.socketKey = owner.socketKey && call.io.socketGeneration = owner.socketGeneration)

def CallEvidence.of (own : CallEvidence) (call : Submission) : Bool :=
  own.ioStartTs = call.io.startTs && own.ioTid = call.task.toUInt32 &&
    own.ioTgid = (call.task >>> 32).toUInt32

/-- What an event of a sent packet reports, by the origin of the packet, its owner, and what the
task of the event is doing itself. -/
def Origin.evidence (owner : Option PerfettoOwner) (own : CallEvidence) : Origin → CallEvidence
  | .unknown => own
  | .one call =>
      if call.ownedBy owner then
        { ioStartTs := call.io.startTs
          syscallStartTs := call.io.syscallStartTs
          ioTid := call.task.toUInt32
          ioTgid := (call.task >>> 32).toUInt32
          ioRole := if own.of call then own.ioRole else 4
          ioMultiple := false }
      else own
  | .several first => if first.ownedBy owner then ⟨0, 0, 0, 0, 0, true⟩ else own

theorem Submission.same_trans {first second third : Submission} (h : first.same second = true) :
    first.same third = second.same third := by
  simp only [Submission.same, Bool.and_eq_true, decide_eq_true_eq] at h
  simp only [Submission.same, h.1.1.1, h.1.1.2, h.1.2, h.2]

theorem Origin.of_cons (first : Submission) (rest : List Submission) :
    Origin.of (first :: rest) =
      if rest.all first.same then .one (rest.getLastD first) else .several first := rfl

theorem Origin.of_concat (first : Submission) (rest : List Submission) (call : Submission) :
    Origin.of (first :: rest ++ [call]) =
      if rest.all first.same && first.same call then .one call else .several first := by
  rw [List.cons_append, Origin.of_cons]
  simp only [List.all_append, List.all_cons, List.all_nil, Bool.and_true, List.getLastD_concat]

/-! ## The record of a packet -/

/-- The record of a packet names a call. -/
structure PacketInstance.Names (packet : PacketInstance) (call : Submission) : Prop where
  startTs : packet.ioStartTs = call.io.startTs
  syscallStartTs : packet.syscallStartTs = call.io.syscallStartTs
  task : packet.ioTask = call.task
  socketKey : packet.ioSocketKey = call.io.socketKey
  socketGeneration : packet.ioSocketGeneration = call.io.socketGeneration

def PacketInstance.Shows (packet : PacketInstance) : Origin → Prop
  | .unknown => packet.ioMultiple = false ∧ packet.ioStartTs = 0
  | .one call => packet.ioMultiple = false ∧ packet.Names call
  | .several first => packet.ioMultiple = true ∧ packet.ioStartTs ≠ 0 ∧
      packet.ioSocketKey = first.io.socketKey ∧
      packet.ioSocketGeneration = first.io.socketGeneration

theorem PacketInstance.remember_first {packet : PacketInstance} {call : Submission}
    (h : packet.Shows .unknown) :
    (packet.rememberSubmission call.io call.task).Shows (.one call) := by
  unfold rememberSubmission
  rw [if_neg fun hdiffers => hdiffers.1 h.2]
  exact ⟨h.1, rfl, rfl, rfl, rfl, rfl⟩

theorem PacketInstance.Names.differs_iff {packet : PacketInstance} {old : Submission}
    (h : packet.Names old) (hold : old.io.startTs ≠ 0) (call : Submission) :
    (packet.ioStartTs ≠ 0 ∧ (packet.ioStartTs ≠ call.io.startTs ∨ packet.ioTask ≠ call.task ∨
      packet.ioSocketKey ≠ call.io.socketKey ∨
        packet.ioSocketGeneration ≠ call.io.socketGeneration)) ↔ old.same call = false := by
  rw [h.startTs, h.task, h.socketKey, h.socketGeneration, ← Bool.not_eq_true]
  simp only [Submission.same, Bool.and_eq_true, decide_eq_true_eq]
  tauto

theorem PacketInstance.Shows.remember {packet : PacketInstance} {calls : List Submission}
    {call : Submission} (h : packet.Shows (Origin.of calls))
    (hstarted : ∀ call ∈ calls, call.io.startTs ≠ 0) :
    (packet.rememberSubmission call.io call.task).Shows (Origin.of (calls ++ [call])) := by
  cases calls with
  | nil => exact remember_first h
  | cons first rest =>
      rw [Origin.of_concat]
      rw [Origin.of_cons] at h
      cases hall : rest.all first.same with
      | false =>
          -- there were several already
          rw [hall] at h
          obtain ⟨hmultiple, hstart, hsocket, hgeneration⟩ := h
          simp only [Bool.false_and, Bool.false_eq_true, if_false]
          unfold rememberSubmission
          split
          case isTrue => exact ⟨rfl, hstart, hsocket, hgeneration⟩
          case isFalse hsame =>
            simp only [not_and, not_or, not_not] at hsame
            obtain ⟨hstarts, -, hkeys, hgenerations⟩ := hsame hstart
            exact ⟨hmultiple, hstarts ▸ hstart, hkeys ▸ hsocket, hgenerations ▸ hgeneration⟩
      | true =>
          rw [hall] at h
          obtain ⟨hsingle, hnames⟩ := h
          -- the last submission so far is by the same call as the first
          generalize hlast : rest.getLastD first = last at hnames
          have hmem : last ∈ first :: rest := hlast ▸ List.getLastD_mem_cons
          have hfirst : first.same last = true := by
            obtain rfl | hmem := List.mem_cons.mp hmem
            · simp [Submission.same]
            · exact List.all_eq_true.mp hall last hmem
          have hdiffers := hnames.differs_iff (hstarted last hmem) call
          rw [Bool.true_and, Submission.same_trans hfirst]
          unfold rememberSubmission
          cases hcall : last.same call with
          | false =>
              rw [if_pos (hdiffers.mpr hcall)]
              simp only [Submission.same, Bool.and_eq_true, decide_eq_true_eq] at hfirst
              exact ⟨rfl, hnames.startTs ▸ hstarted last hmem,
                hnames.socketKey.trans hfirst.1.2.symm,
                hnames.socketGeneration.trans hfirst.2.symm⟩
          | true =>
              rw [if_neg fun h => by rw [hdiffers.mp h] at hcall; cases hcall]
              exact ⟨hsingle, rfl, rfl, rfl, rfl, rfl⟩

/-- What an event of a sent packet reports, read off the record of the packet. -/
theorem PacketInstance.Shows.evidence {packet : PacketInstance} {calls : List Submission}
    (h : packet.Shows (Origin.of calls)) (hstarted : ∀ call ∈ calls, call.io.startTs ≠ 0)
    (owner : Option PerfettoOwner) {own : CallEvidence} (hown : own.ioMultiple = false) :
    (if packet.OwnedBy owner then packet.applySubmission own else own) =
      (Origin.of calls).evidence owner own := by
  have howned {call : Submission} (hkey : packet.ioSocketKey = call.io.socketKey)
      (hgeneration : packet.ioSocketGeneration = call.io.socketGeneration) :
      packet.OwnedBy owner ↔ call.ownedBy owner = true := by
    unfold OwnedBy
    rw [hkey, hgeneration]
    cases owner <;> simp [Submission.ownedBy]
  cases calls with
  | nil =>
      have hplain : packet.applySubmission own = own := by
        unfold applySubmission
        rw [h.1, if_neg Bool.false_ne_true, if_pos h.2]
      rw [hplain, ite_self]
      rfl
  | cons first rest =>
      rw [Origin.of_cons] at h ⊢
      split at h
      case isTrue hall =>
        obtain ⟨hsingle, hnames⟩ := h
        have hstart := hstarted _ (List.getLastD_mem_cons (a := first) (l := rest))
        generalize rest.getLastD first = call at hnames hstart ⊢
        rw [if_pos hall]
        unfold Origin.evidence
        refine ite_congr (propext (howned hnames.socketKey hnames.socketGeneration)) (fun _ => ?_)
          fun _ => rfl
        unfold applySubmission
        rw [hsingle, if_neg Bool.false_ne_true, hnames.startTs, if_neg hstart]
        simp only [hnames.task, hnames.syscallStartTs, hown]
        have hrole : (if own.ioStartTs ≠ call.io.startTs ∨ own.ioTid ≠ call.task.toUInt32 ∨
            own.ioTgid ≠ (call.task >>> 32).toUInt32 then 4 else own.ioRole) =
              if own.of call then own.ioRole else 4 := by
          rw [← ite_not]
          refine if_congr ?_ rfl rfl
          simp only [CallEvidence.of, Bool.and_eq_true, decide_eq_true_eq, not_or,
            not_not, and_assoc]
        rw [hrole]
      case isFalse hall =>
        obtain ⟨hmultiple, hstart, hsocket, hgeneration⟩ := h
        rw [if_neg hall]
        refine ite_congr (propext (howned hsocket hgeneration)) (fun _ => ?_) fun _ => rfl
        unfold applySubmission
        rw [if_pos hmultiple]

/-! ## The records of all packets -/

/-- The packets after a run: `calls` are the submissions so far, and at most `budget` instances were
started. -/
structure PacketBooks (budget : Nat) (calls : List Submission) (maps : CallMaps) : Prop where
  counter : maps.packetCounter.toNat ≤ budget
  numbered : ∀ call ∈ calls, call.generation ≤ maps.packetCounter
  started : ∀ call ∈ calls, call.io.startTs ≠ 0
  issued : ∀ skb packet, maps.packets skb = some packet →
    packet.generation ≠ 0 ∧ packet.generation ≤ maps.packetCounter
  shows : ∀ skb packet, maps.packets skb = some packet →
    packet.Shows (Origin.of (submissionsOf skb packet.generation calls))

theorem PacketBooks.init : PacketBooks 0 [] .init where
  counter := Nat.le_refl 0
  numbered := fun _ h => by cases h
  started := fun _ h => by cases h
  issued := fun _ _ h => by cases h
  shows := fun _ _ h => by cases h

section Books

variable {budget : Nat} {calls : List Submission} {maps after : CallMaps}

section

variable (h : PacketBooks budget calls maps)
include h

theorem PacketBooks.congr (hpackets : after.packets = maps.packets)
    (hcounter : after.packetCounter = maps.packetCounter) : PacketBooks budget calls after where
  counter := hcounter ▸ h.counter
  numbered := hcounter ▸ h.numbered
  started := h.started
  issued := hcounter ▸ hpackets ▸ h.issued
  shows := hpackets ▸ h.shows

theorem PacketBooks.weaken {more : Nat} (hmore : budget ≤ more) :
    PacketBooks more calls maps :=
  { h with counter := Nat.le_trans h.counter hmore }

/-- A record with one more mark on it, or none at all. -/
theorem PacketBooks.update (hpackets : ∀ skb packet, after.packets skb = some packet →
      ∃ old, maps.packets skb = some old ∧ packet = { old with released := packet.released })
    (hcounter : after.packetCounter = maps.packetCounter) : PacketBooks budget calls after where
  counter := hcounter ▸ h.counter
  numbered := hcounter ▸ h.numbered
  started := h.started
  issued := by
    intro skb packet hpacket
    obtain ⟨old, hold, hsame⟩ := hpackets skb packet hpacket
    rw [hsame, hcounter]
    exact h.issued skb old hold
  shows := by
    intro skb packet hpacket
    obtain ⟨old, hold, hsame⟩ := hpackets skb packet hpacket
    have hshows := h.shows skb old hold
    rw [hsame]
    revert hshows
    generalize Origin.of (submissionsOf skb old.generation calls) = origin
    intro hshows
    cases origin with
    | unknown => exact hshows
    | one call => exact ⟨hshows.1, hshows.2.startTs, hshows.2.syscallStartTs, hshows.2.task,
        hshows.2.socketKey, hshows.2.socketGeneration⟩
    | several first => exact hshows

theorem PacketBooks.release {skb : UInt64} {packet : PacketInstance}
    (hpacket : maps.packets skb = some packet)
    (hafter : after.packets = maps.packets.put skb { packet with released := true })
    (hcounter : after.packetCounter = maps.packetCounter) : PacketBooks budget calls after := by
  refine h.update (fun other found hfound => ?_) hcounter
  rw [hafter] at hfound
  obtain ⟨rfl, rfl⟩ | ⟨-, hold⟩ := Keyed.put_cases hfound
  · exact ⟨packet, hpacket, rfl⟩
  · exact ⟨found, hold, rfl⟩

theorem PacketBooks.retire (skb : UInt64) :
    PacketBooks budget calls (maps.perfettoRetirePacket skb) := by
  unfold CallMaps.perfettoRetirePacket
  split
  case h_1 => exact h
  case h_2 packet hpacket => exact h.release hpacket rfl rfl

theorem PacketBooks.retireFreed (probe : CallProbe) :
    PacketBooks budget calls (maps.retireFreed probe) := by
  unfold CallMaps.retireFreed
  split
  case isTrue => exact h.retire probe.skb
  case isFalse => exact h

theorem PacketBooks.finish (probe : CallProbe) :
    PacketBooks budget calls (maps.handleEntryFinish probe) := by
  unfold CallMaps.handleEntryFinish
  split
  case isTrue => exact h.retire probe.skb
  case isFalse => exact h

theorem PacketBooks.evict (skb : UInt64) :
    PacketBooks budget calls { maps with packets := maps.packets.remove skb } :=
  h.update (fun _ found hfound => ⟨found, (Keyed.remove_cases hfound).2, rfl⟩) rfl

/-- A new instance has a generation that no submission names. -/
theorem PacketBooks.begin (hroom : budget + 1 < 2 ^ 32) (skb head : UInt64) :
    PacketBooks (budget + 1) calls (maps.beginInstance skb head) := by
  have hcounter := h.counter
  have hnext : (maps.packetCounter + 1).toNat = maps.packetCounter.toNat + 1 := by
    rw [UInt32.toNat_add]
    exact Nat.mod_eq_of_lt (by change maps.packetCounter.toNat + 1 < _; omega)
  have hless : maps.packetCounter < maps.packetCounter + 1 := by
    rw [UInt32.lt_iff_toNat_lt, hnext]
    exact Nat.lt_succ_self _
  refine ⟨?_, fun call hcall => UInt32.le_trans (h.numbered call hcall) (UInt32.le_of_lt hless),
    h.started, ?_, ?_⟩
  · change (maps.packetCounter + 1).toNat ≤ _
    omega
  · refine Keyed.put_forall ⟨fun hzero => ?_, UInt32.le_refl _⟩ fun other found _ hfound =>
      ⟨(h.issued other found hfound).1,
        UInt32.le_trans (h.issued other found hfound).2 (UInt32.le_of_lt hless)⟩
    have hzero : maps.packetCounter + 1 = 0 := hzero
    rw [hzero] at hnext
    exact absurd hnext (by simp)
  · refine Keyed.put_forall ?_ fun other found _ hfound => h.shows other found hfound
    have hnone : submissionsOf skb (maps.packetCounter + 1) calls = [] := by
      refine List.filter_eq_nil_iff.mpr fun call hcall => ?_
      simp only [Bool.and_eq_true, decide_eq_true_eq, not_and]
      intro _ hsame
      exact absurd (hsame ▸ h.numbered call hcall) (UInt32.not_le.mpr hless)
    change (PacketInstance.fresh head (maps.packetCounter + 1)).Shows
      (Origin.of (submissionsOf skb (maps.packetCounter + 1) calls))
    rw [hnone]
    exact ⟨rfl, rfl⟩

theorem PacketBooks.identify (hroom : budget + 1 < 2 ^ 32) (skb head : UInt64) (users : UInt32)
    (release udpConsume : Bool) :
    PacketBooks (budget + 1) calls
      (maps.perfettoPacketGeneration skb head users release udpConsume).1 := by
  have hbegun : PacketBooks (budget + 1) calls
      (if maps.begins skb head release then maps.beginInstance skb head else maps) := by
    split
    case isTrue => exact h.begin hroom skb head
    case isFalse => exact h.weaken (Nat.le_succ budget)
  unfold CallMaps.perfettoPacketGeneration
  dsimp only
  split
  case h_1 => exact hbegun
  case h_2 packet hpacket =>
    split
    case isTrue => exact hbegun.release hpacket rfl rfl
    case isFalse => exact hbegun

theorem PacketBooks.remember {skb task : UInt64} {packet : PacketInstance} {io : PerfettoIo}
    (hpacket : maps.packets skb = some packet) (hio : io.startTs ≠ 0)
    (hafter : after.packets = maps.packets.put skb (packet.rememberSubmission io task))
    (hcounter : after.packetCounter = maps.packetCounter) :
    PacketBooks budget (calls ++ [⟨skb, packet.generation, task, io⟩]) after := by
  have hgeneration : (packet.rememberSubmission io task).generation = packet.generation := by
    unfold PacketInstance.rememberSubmission
    split <;> rfl
  obtain ⟨hissued, hless⟩ := h.issued skb packet hpacket
  refine ⟨hcounter ▸ h.counter, ?_, ?_, ?_, ?_⟩
  · intro call hcall
    rw [hcounter]
    obtain hcall | hcall := List.mem_append.mp hcall
    · exact h.numbered call hcall
    · exact List.mem_singleton.mp hcall ▸ hless
  · intro call hcall
    obtain hcall | hcall := List.mem_append.mp hcall
    · exact h.started call hcall
    · exact List.mem_singleton.mp hcall ▸ hio
  · rw [hafter, hcounter]
    refine Keyed.put_forall ?_ fun other found _ hfound => h.issued other found hfound
    rw [hgeneration]
    exact ⟨hissued, hless⟩
  · rw [hafter]
    refine Keyed.put_forall ?_ fun other found hother hfound => ?_
    · rw [hgeneration]
      have hthis :
          submissionsOf skb packet.generation (calls ++ [⟨skb, packet.generation, task, io⟩]) =
          submissionsOf skb packet.generation calls ++ [⟨skb, packet.generation, task, io⟩] := by
        simp [submissionsOf]
      rw [hthis]
      exact (h.shows skb packet hpacket).remember
        fun call hcall => h.started call (List.mem_filter.mp hcall).1
    · have hothers : submissionsOf other found.generation
          (calls ++ [⟨skb, packet.generation, task, io⟩]) =
            submissionsOf other found.generation calls := by
        simp [submissionsOf, Ne.symm hother]
      rw [hothers]
      exact h.shows other found hfound

theorem PacketBooks.submit (hroom : budget + 1 < 2 ^ 32)
    (hstarted : ∀ task io, maps.io task = some io → io.startTs ≠ 0) (args : CallArgs)
    (probe : CallProbe) :
    PacketBooks (budget + 1) (calls ++ CallStep.submitted args maps (.function probe))
      (maps.perfettoRecordSubmission args probe) := by
  unfold CallMaps.perfettoRecordSubmission CallStep.submitted
  dsimp only
  cases hsubmitting : maps.submitting args probe with
  | none =>
      rw [List.append_nil]
      exact h.weaken (Nat.le_succ budget)
  | some io =>
      have hidentified := h.identify hroom probe.skb probe.head probe.users false false
      obtain ⟨packet, hpacket, hgeneration⟩ :=
        maps.perfettoPacketGeneration_packet probe.skb probe.head probe.users false false
      dsimp only
      split
      case isTrue =>
        rw [List.append_nil]
        exact hidentified
      case isFalse hnonzero =>
        rw [hpacket]
        dsimp only
        have hio : io.startTs ≠ 0 := by
          unfold CallMaps.submitting at hsubmitting
          split at hsubmitting
          case isTrue => cases hsubmitting
          case isFalse => exact hstarted _ io (Option.filter_eq_some_iff.mp hsubmitting).1
        rw [← hgeneration]
        exact hidentified.remember hpacket hio rfl rfl

theorem PacketBooks.packetIdentity (hroom : budget + 1 < 2 ^ 32) (probe : CallProbe)
    (udpConsume : Bool) :
    PacketBooks (budget + 1) calls (maps.packetIdentity probe udpConsume).1 := by
  unfold CallMaps.packetIdentity
  split
  case isTrue => exact h.weaken (Nat.le_succ budget)
  case isFalse => exact h.identify hroom ..

theorem PacketBooks.recordIdentity (hroom : budget + 1 < 2 ^ 32) (sk : UInt64)
    (owner : Option PerfettoOwner) (direction : PacketDirection) (probe : CallProbe) :
    PacketBooks (budget + 1) calls (maps.perfettoRecordIdentity sk owner direction probe).1 := by
  obtain ⟨sockets, io, hentered⟩ := maps.enterCall_eq sk probe
  unfold CallMaps.perfettoRecordIdentity
  dsimp only
  split
  case isTrue => exact h.packetIdentity hroom probe false
  case isFalse =>
    obtain ⟨left, hleft⟩ := ((maps.enterCall sk probe).packetIdentity probe
      (probe.func = .skbConsumeUdp)).1.leaveCall_eq probe
    dsimp only
    rw [hleft]
    have hcalled : PacketBooks budget calls (maps.enterCall sk probe) :=
      h.congr (by rw [hentered]) (by rw [hentered])
    exact (hcalled.packetIdentity hroom probe _).congr rfl rfl

end

section

variable (h : PacketBooks budget calls maps) (hroom : budget + 2 < 2 ^ 32)
  (hstarted : ∀ task io, maps.io task = some io → io.startTs ≠ 0) (args : CallArgs)
include h hroom hstarted

theorem PacketBooks.function (probe : CallProbe) :
    PacketBooks (budget + 2) (calls ++ CallStep.submitted args maps (.function probe))
      (maps.functionProbe args probe).1 := by
  have hsubmitted := h.submit (by omega) hstarted args probe
  cases hrejects : CallMaps.rejects args probe with
  | true =>
      rw [CallMaps.functionProbe_rejected maps hrejects]
      exact hsubmitted.weaken (Nat.le_succ _)
  | false =>
      rw [CallMaps.functionProbe_admitted maps hrejects]
      have hretired := hsubmitted.retireFreed probe
      generalize (maps.perfettoRecordSubmission args probe).retireFreed probe = found at hretired ⊢
      refine PacketBooks.finish ?_ probe
      obtain ⟨sockets, hfailed⟩ | ⟨sockets, owner, direction, hout⟩ :=
        found.handleEntry_cases args probe
      · rw [hfailed]
        unfold CallMaps.handleEntryErr
        obtain ⟨io, hleft⟩ :=
          ({ found with sockets := sockets }.retireFreed probe).leaveCall_eq probe
        have hnamed :
            PacketBooks (budget + 1) (calls ++ CallStep.submitted args maps (.function probe))
            { found with sockets := sockets } := hretired.congr rfl rfl
        dsimp only
        rw [hleft]
        exact ((hnamed.retireFreed probe).weaken (Nat.le_succ _)).congr rfl rfl
      · rw [hout]
        dsimp only
        generalize hmaps : { found with sockets := sockets } = current
        obtain ⟨⟨named, returns, hafter⟩, -⟩ :=
          current.handleEntryOut_eq args (found.eventSocket probe) owner direction probe
        obtain ⟨bound, syscalls, hbind⟩ :=
          current.networkSyscallBind_eq (found.eventSocket probe) probe
        have hbound :
            PacketBooks (budget + 1) (calls ++ CallStep.submitted args maps (.function probe))
            (current.networkSyscallBind (found.eventSocket probe) probe) := by
          subst hmaps
          exact hretired.congr (by rw [hbind]) (by rw [hbind])
        rw [hafter]
        exact (hbound.recordIdentity (by omega) (found.eventSocket probe) owner
          direction probe).congr
          rfl rfl

theorem PacketBooks.step (step : CallStep) :
    PacketBooks (budget + 2) (calls ++ step.submitted args maps) (step.apply args maps) := by
  have hweak : PacketBooks (budget + 2) (calls ++ []) maps := by
    rw [List.append_nil]
    exact h.weaken (Nat.le_add_right ..)
  cases step with
  | function probe => exact h.function hroom hstarted args probe
  | returned current func ret =>
      obtain ⟨io, returns, hexit⟩ := maps.handleExit_eq args current func ret
      change PacketBooks _ _ (maps.handleExit args current func ret).1
      rw [hexit]
      exact hweak.congr rfl rfl
  | sysEnter entry =>
      obtain ⟨io, syscalls, hafter⟩ := maps.networkSysEnter_eq args entry
      change PacketBooks _ _ (maps.networkSysEnter args entry).1
      rw [hafter]
      exact hweak.congr rfl rfl
  | sysExit exit =>
      obtain ⟨io, syscalls, hafter⟩ := maps.networkSysExit_frame args exit
      change PacketBooks _ _ (maps.networkSysExit args exit).1
      rw [hafter]
      exact hweak.congr rfl rfl
  | evictPacket skb => exact hweak.evict skb
  | sockets | evictSyscall | evictIo | evictReturn => exact hweak.congr rfl rfl

end

end Books

/-! ## Runs -/

section Runs

variable {args : CallArgs} {steps : List CallStep}

/-- The clock is past zero at every probe of a run. -/
def ClockRuns (steps : List CallStep) : Prop :=
  ∀ probe, CallStep.function probe ∈ steps → probe.ts ≠ 0

theorem ClockRuns.contexts (h : ClockRuns steps) (args : CallArgs) :
    ∀ task io, (callMapsAfter args steps).io task = some io → io.startTs ≠ 0 := by
  intro task io hio
  obtain ⟨before, opening, since, hsplit, hcall, -⟩ := context_of args task steps io hio
  rw [hcall.startTs]
  exact h opening (by rw [hsplit]; simp)

theorem packet_books (args : CallArgs) (steps : List CallStep) (hclock : ClockRuns steps)
    (hroom : 2 * steps.length < 2 ^ 32) :
    PacketBooks (2 * steps.length) (submissions args steps) (callMapsAfter args steps) := by
  induction steps using List.reverseRecOn with
  | nil => exact .init
  | append_singleton history step ih =>
      have hhistory : ClockRuns history := fun probe hmem =>
        hclock probe (List.mem_append_left _ hmem)
      have hlength : (history ++ [step]).length = history.length + 1 := by simp
      have hbooks := (ih hhistory (by omega)).step (by omega) (hhistory.contexts args) args step
      rw [callMapsAfter_concat, hlength]
      unfold submissions at hbooks ⊢
      rw [Run.observations_concat]
      exact hbooks

/-- What an event of a sent packet of TCP or UDP reports about calls: with `calls` the submissions
of this instance of the packet so far, it names the call if they are all by one, says that there
were several if they are not, and says only what its own task is doing if there are none, or if the
socket they were made on is not that of the packet's owner. -/
theorem packet_evidence (args : CallArgs) (steps : List CallStep) (probe : CallProbe)
    (report : CallReport) (hclock : ClockRuns (steps ++ [.function probe]))
    (hroom : 2 * (steps.length + 1) < 2 ^ 32)
    (h : ((callMapsAfter args steps).functionProbe args probe).2 = some report)
    (hskb : report.skb ≠ 0) (htransport : probe.packet.transport = true)
    (hsent : report.direction = .tx) :
    ∃ own, OwnEvidence args (callMapsAfter args steps) probe own ∧
      report.evidence = (Origin.of (submissionsOf report.skb report.keyGeneration
        (submissions args (steps ++ [.function probe])))).evidence report.owner own := by
  have hbooks := packet_books args _ hclock (by simpa using hroom)
  rw [callMapsAfter_concat] at hbooks
  have hsame : report.skb = probe.skb := by
    obtain ⟨-, _, -, -, -, _, -, -, -, -, -, -, hsame⟩ := CallMaps.functionProbe_report h
    exact hsame
  obtain ⟨own, hown, -, hstored⟩ :=
    CallMaps.functionProbe_evidence h (by simp [CallProbe.identified, htransport])
  obtain ⟨packet, hpacket, hgeneration, hevidence⟩ := hstored (hsame ▸ hskb)
  refine ⟨own, hown, ?_⟩
  have hsingle : own.ioMultiple = false := by
    obtain rfl | ⟨io, -, role, -, rfl⟩ := hown <;> rfl
  have hshows := hbooks.shows probe.skb packet hpacket
  rw [hevidence, hsame, ← hgeneration, hsent]
  simp only [true_and]
  exact hshows.evidence (fun call hcall => hbooks.started call (List.mem_filter.mp hcall).1)
    report.owner hsingle

/-- The packet that the task sent leaves the device in the context of another task. -/
theorem packet_evidence_sending :
    let task : Task := ⟨9, 9, 0, 1, []⟩
    let probe := sendingProbe (.other 1) task 14 500
    ∃ report, ((callMapsAfter sendingArgs sendingSteps).functionProbe sendingArgs probe).2 =
        some report ∧
      report.evidence = ⟨11, 10, 7, 7, 4, false⟩ ∧
      ∃ own, OwnEvidence sendingArgs (callMapsAfter sendingArgs sendingSteps) probe own ∧
        report.evidence = (Origin.of (submissionsOf 500 1
          (submissions sendingArgs (sendingSteps ++ [.function probe])))).evidence
            report.owner own := by
  intro task probe
  have hclock : ClockRuns (sendingSteps ++ [.function probe]) := by
    intro other hother
    simp only [sendingSteps, List.cons_append, List.nil_append, List.mem_cons, List.not_mem_nil,
      or_false, reduceCtorEq, false_or, CallStep.function.injEq] at hother
    obtain rfl | rfl | rfl := hother
    all_goals exact of_decide_eq_true rfl
  exact ⟨_, rfl, by decide +kernel, packet_evidence sendingArgs sendingSteps probe _ hclock
    (by decide) rfl (by decide +kernel) rfl (by decide +kernel)⟩

end Runs

end Anettrace.Probes
