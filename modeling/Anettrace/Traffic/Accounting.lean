import Anettrace.Traffic.Advance

/-!
# Every byte once

A return probe adds the bytes of its call once to the totals, at most once to a process and at most
once to a flow, and what the totals have is what the processes have, what was dropped, and what is
under way. The slot of a call is found by its thread and its operation: `traffic_accounted` needs
that the slots of the calls that are to be counted find room, and that no return of another call
finds a slot, which happens where the entry probe rejects a call after the return of an earlier one
was missed (`stale_slot_counted`).
-/

namespace Anettrace.Traffic

open Library

/-! ## The slots of the calls under way -/

/-- The slot of a call that is to be counted is there, and its own. -/
def TrafficCall.HasSlot (config : TrafficConfig) (call : TrafficCall)
    (inflight : Keyed (UInt64 × TrafficOperation) TrafficInflight) : Prop :=
  call.Wanted config → ∃ slot, inflight (call.thread, call.operation) = some slot ∧
    slot.source = call.number ∧ call.Owns slot.flow

/-- The calls that a thread has under way are its own, of different operations, and have their
slots. -/
structure TrafficWorld.Slotted (config : TrafficConfig) (world : TrafficWorld) : Prop where
  thread : ∀ thread, ∀ call ∈ world.calls thread, call.thread = thread
  apart : ∀ thread, (world.calls thread).Pairwise fun call other => call.operation ≠ other.operation
  slots : ∀ thread, ∀ call ∈ world.calls thread, call.HasSlot config world.maps.inflight

section Slots

variable {config : TrafficConfig} {world : TrafficWorld} {call : TrafficCall}

theorem trafficFillKey_wanted (h : call.Wanted config) :
    ∃ flow, trafficFillKey config call.caller call.sk call.sock call.operation.protocol
      call.operation.expectedFamily = some flow ∧ call.Owns flow := by
  obtain ⟨number, operation, caller, sk, sock⟩ := call
  obtain ⟨hsk, hprotocol, htid, huid, hfamily⟩ := h
  dsimp only at hsk hprotocol htid huid hfamily ⊢
  have hpasses : trafficFiltered config caller operation.protocol = false := by
    unfold trafficFiltered
    simp only [ne_eq, decide_not, Bool.or_eq_false_iff, Bool.and_eq_false_iff,
      Bool.not_eq_eq_eq_not, Bool.not_false, decide_eq_true_eq]
    exact ⟨⟨hprotocol, htid⟩, (Bool.eq_false_or_eq_true config.uidEnabled).symm.imp id huid⟩
  have hnonzero : ¬(sk = 0 ∨ trafficFiltered config caller operation.protocol = true) := by
    simp [hsk, hpasses]
  have hexpected : ¬(operation.expectedFamily ≠ 0 ∧ sock.family ≠ operation.expectedFamily) := by
    cases operation with
    | tcpTx | tcpRx => exact fun hcontra => hcontra.1 rfl
    | udp4Tx | udp4Rx | udp6Tx | udp6Rx =>
        exact fun hcontra => hcontra.2 (List.mem_singleton.mp hfamily)
  unfold trafficFillKey
  rw [if_neg hnonzero, if_neg hexpected]
  by_cases hudp : operation.protocol = 17
  · rw [if_pos hudp]
    exact ⟨_, rfl, rfl, rfl, rfl, rfl, rfl,
      fun htcp => absurd (htcp.symm.trans hudp) (show (6 : UInt8) ≠ 17 by decide)⟩
  · rw [if_neg hudp]
    have hip : sock.family = 2 ∨ sock.family = 10 := by
      cases operation with
      | tcpTx | tcpRx => exact List.mem_pair.mp hfamily
      | udp4Tx | udp4Rx | udp6Tx | udp6Rx => exact absurd rfl hudp
    have hfamilies : (2 : UInt16) ≠ 10 := by decide
    rcases hip with hv4 | hv6
    · dsimp only
      rw [if_pos hv4]
      exact ⟨_, rfl, rfl, rfl, rfl, rfl, rfl, fun _ => ⟨rfl, rfl, rfl, rfl, fun _ => ⟨rfl, rfl⟩,
        fun hv6 => absurd (hv4.symm.trans hv6) hfamilies⟩⟩
    · dsimp only
      rw [if_neg fun hv4 => hfamilies (hv4.symm.trans hv6), if_pos hv6]
      exact ⟨_, rfl, rfl, rfl, rfl, rfl, rfl, fun _ => ⟨rfl, rfl, rfl, rfl,
        fun hv4 => absurd (hv4.symm.trans hv6) hfamilies, fun _ => ⟨rfl, rfl⟩⟩⟩

/-- An entry keeps the calls in their slots. -/
theorem TrafficWorld.Slotted.enter (h : world.Slotted config) {now : TrafficTask}
    {operation : TrafficOperation} {sk : UInt64} {sock : TrafficSock} {stored : Bool}
    (hapart : ∀ call ∈ world.calls now.task.pidTgid, call.operation ≠ operation)
    (hroom : (⟨world.made, operation, now, sk, sock⟩ : TrafficCall).Wanted config → stored = true) :
    (world.enter config now operation sk sock stored).Slotted config := by
  -- the calls of the other keys keep their slots
  have hkeep : ∀ call : TrafficCall,
      (call.thread, call.operation) ≠ (now.task.pidTgid, operation) →
      call.HasSlot config world.maps.inflight → call.HasSlot config
        (trafficEnter config now operation sk sock stored world.made world.maps).inflight := by
    intro call hother hslot hwanted
    obtain ⟨slot, hslot, hown⟩ := hslot hwanted
    refine ⟨slot, ?_, hown⟩
    unfold trafficEnter
    split
    case h_1 => exact hslot
    case h_2 =>
      split
      case isTrue => exact (Keyed.put_other _ hother _).trans hslot
      case isFalse => exact hslot
  have hnew : (⟨world.made, operation, now, sk, sock⟩ : TrafficCall).HasSlot config
      (trafficEnter config now operation sk sock stored world.made world.maps).inflight := by
    intro hwanted
    obtain ⟨flow, hflow, hown⟩ := trafficFillKey_wanted hwanted
    dsimp only at hflow
    unfold trafficEnter
    rw [hflow, hroom hwanted]
    exact ⟨_, Keyed.put_same _ _ _, rfl, hown⟩
  unfold TrafficWorld.enter
  generalize trafficEnter config now operation sk sock stored world.made world.maps = maps at *
  refine ⟨fun thread call hcall => ?_, fun thread => ?_, fun thread call hcall => ?_⟩
  · by_cases hthread : thread = now.task.pidTgid
    case neg => exact h.thread thread call (by simpa [hthread] using hcall)
    case pos =>
      subst hthread
      dsimp only at hcall
      rw [Function.update_self] at hcall
      rcases List.mem_cons.mp hcall with rfl | hold
      · rfl
      · exact h.thread _ call hold
  · by_cases hthread : thread = now.task.pidTgid
    case neg => simpa [hthread] using h.apart thread
    case pos =>
      subst hthread
      dsimp only
      rw [Function.update_self, List.pairwise_cons]
      exact ⟨fun other hother hsame => hapart other hother hsame.symm, h.apart _⟩
  · by_cases hthread : thread = now.task.pidTgid
    case neg =>
      have hold : call ∈ world.calls thread := by simpa [hthread] using hcall
      refine hkeep call (fun heq => hthread ?_) (h.slots thread call hold)
      exact (h.thread thread call hold).symm.trans (congrArg Prod.fst heq)
    case pos =>
      subst hthread
      dsimp only at hcall
      rw [Function.update_self] at hcall
      rcases List.mem_cons.mp hcall with rfl | hold
      · exact hnew
      · exact hkeep call (fun heq => hapart call hold (congrArg Prod.snd heq)) (h.slots _ call hold)

theorem TrafficWorld.Slotted.storeEndpoints (h : world.Slotted config) (now : TrafficTask)
    (sk : UInt64) (family : UInt16) (tx : Bool) (ends : Option TrafficEndpoints) :
    ({ world with maps := trafficStoreEndpoints config now sk family tx ends world.maps } :
      TrafficWorld).Slotted config := by
  refine ⟨h.thread, h.apart, fun thread call hcall hwanted => ?_⟩
  obtain ⟨slot, hslot, hsource, hown⟩ := h.slots thread call hcall hwanted
  change ∃ slot, (trafficStoreEndpoints config now sk family tx ends world.maps).inflight _ =
    some slot ∧ _
  unfold trafficStoreEndpoints
  split
  case isTrue => exact ⟨slot, hslot, hsource, hown⟩
  case isFalse =>
    split
    case h_1 => exact ⟨slot, hslot, hsource, hown⟩
    case h_2 operation hoperation =>
      split
      case h_2 => exact ⟨slot, hslot, hsource, hown⟩
      case h_1 value ends hvalue =>
        split
        case isTrue => exact ⟨slot, hslot, hsource, hown⟩
        case isFalse =>
          by_cases hkey : (call.thread, call.operation) = (now.task.pidTgid, operation)
          case neg => exact ⟨slot, (Keyed.put_other _ hkey _).trans hslot, hsource, hown⟩
          case pos =>
            rw [← hkey] at hvalue
            obtain rfl : slot = value := Option.some.inj (hslot.symm.trans hvalue)
            refine ⟨{ slot with flow := slot.flow.withEndpoints ends }, ?_, hsource, ?_⟩
            · rw [hkey]
              exact Keyed.put_same _ _ _
            refine ⟨hown.tgid, hown.tid, hown.comm, hown.processStartNs, hown.protocol,
              fun htcp => ?_⟩
            -- the slot is one of UDP
            refine absurd (htcp.symm.trans ?_) (show (6 : UInt8) ≠ 17 by decide)
            rw [show call.operation = operation from congrArg Prod.snd hkey]
            unfold trafficUdpOperation at hoperation
            split at hoperation
            case isTrue =>
              obtain rfl := Option.some.inj hoperation
              cases tx <;> rfl
            case isFalse =>
              split at hoperation
              case isTrue =>
                obtain rfl := Option.some.inj hoperation
                cases tx <;> rfl
              case isFalse => cases hoperation

/-- A return takes the slot of its call, or none. -/
theorem TrafficWorld.Slotted.ret (h : world.Slotted config) {thread : UInt64} {bytes : Int32}
    {probed : Bool} {nowNs : UInt64} {leaderComm : Option (List UInt8)} :
    (world.ret thread bytes probed nowNs leaderComm).Slotted config := by
  unfold TrafficWorld.ret
  cases hcalls : world.calls thread with
  | nil => exact h
  | cons call outer =>
      dsimp only
      obtain ⟨hfirst, hrest⟩ := List.pairwise_cons.mp (hcalls ▸ h.apart thread)
      have hmem : ∀ other, ∀ found ∈ Function.update world.calls thread outer other,
          found ∈ world.calls other ∧ (found.thread, found.operation) ≠
            (thread, call.operation) := by
        intro other found hfound
        by_cases hother : other = thread
        case neg =>
          rw [Function.update_of_ne hother] at hfound
          refine ⟨hfound, fun heq => hother ?_⟩
          exact (h.thread other found hfound).symm.trans (congrArg Prod.fst heq)
        case pos =>
          subst hother
          rw [Function.update_self] at hfound
          exact ⟨hcalls ▸ List.mem_cons_of_mem _ hfound,
            fun heq => hfirst found hfound (congrArg Prod.snd heq).symm⟩
      refine ⟨fun other found hfound => h.thread other found (hmem other found hfound).1,
        fun other => ?_, fun other found hfound hwanted => ?_⟩
      · by_cases hother : other = thread
        case neg => simpa [hother] using h.apart other
        case pos => simpa [hother] using hrest
      · obtain ⟨hold, hkey⟩ := hmem other found hfound
        obtain ⟨slot, hslot, hown⟩ := h.slots other found hold hwanted
        refine ⟨slot, ?_, hown⟩
        dsimp only
        split
        case isFalse => exact hslot
        case isTrue =>
          unfold trafficExit
          split
          case h_1 => exact hslot
          case h_2 stored hstored =>
            have hremoved := (Keyed.remove_other world.maps.inflight hkey).trans hslot
            dsimp only
            split
            case isFalse => exact hremoved
            case isTrue => split <;> exact hremoved

/-- A call that returns starts as it should, if it finds no slot but its own. -/
theorem TrafficWorld.Slotted.returned (h : world.Slotted config) {thread : UInt64} {bytes : Int32}
    {nowNs : UInt64} {leaderComm : Option (List UInt8)} {outer : List TrafficCall}
    (hcalls : world.calls thread = call :: outer) (hstale : 0 < bytes → ¬call.Wanted config →
      world.maps.inflight (thread, call.operation) = none) (maps : TrafficMaps) :
    (⟨call, bytes, true, (trafficExit thread call.operation bytes nowNs leaderComm world.maps).2,
      []⟩ :
      TrafficReturn).InOrder config maps := by
  have hmem : call ∈ world.calls thread := hcalls ▸ List.mem_cons_self ..
  obtain rfl := h.thread thread call hmem
  unfold trafficExit
  split
  case h_1 hnone =>
    have hsilent : ¬(⟨call, bytes, true, none, []⟩ : TrafficReturn).Counts config := by
      rintro ⟨-, -, hwanted⟩
      obtain ⟨slot, hslot, -⟩ := h.slots _ call hmem hwanted
      rw [hnone] at hslot
      cases hslot
    exact ⟨fun _ => ⟨rfl, rfl⟩, fun _ hcontra => (by cases hcontra),
      fun hcounts => absurd hcounts hsilent⟩
  case h_2 slot hslot =>
    dsimp only
    split
    case isFalse hbytes =>
      exact ⟨fun _ => ⟨rfl, rfl⟩, fun _ hcontra => (by cases hcontra),
        fun hcounts => absurd hcounts.2.1 hbytes⟩
    case isTrue hbytes =>
      have hwanted : call.Wanted config := by
        by_contra hunwanted
        rw [hstale hbytes hunwanted] at hslot
        cases hslot
      obtain ⟨own, hown, hsource, howns⟩ := h.slots _ call hmem hwanted
      obtain rfl : slot = own := Option.some.inj (hslot.symm.trans hown)
      refine ⟨fun hcontra => absurd ⟨rfl, hbytes, hwanted⟩ hcontra, fun account haccount => ?_,
        fun _ => ⟨[], .totals, rfl⟩⟩
      obtain rfl := Option.some.inj haccount
      exact ⟨hsource, rfl, rfl, howns, fun _ hcontra => (by cases hcontra),
        fun _ hcontra => by cases hcontra⟩

/-! ## The ledger -/

/-- The calls under way have their slots, those that returned are as far as their runs are, and the
tables have what was added. -/
structure TrafficWorld.Sound (config : TrafficConfig) (world : TrafficWorld) : Prop where
  slotted : world.Slotted config
  flows : world.maps.FlowsPoint
  inOrder : ∀ returned ∈ world.returns, returned.InOrder config world.maps
  totals : ∀ tx, world.maps.totals.bytes tx = world.added (· = .totals) tx
  balance : ∀ tx, world.maps.totals.bytes tx = world.maps.processBytes tx +
    world.added TrafficTable.lost tx + (world.returns.map fun returned => returned.underWay tx).sum

/-- At the start nothing was counted. -/
theorem TrafficWorld.Sound.init : TrafficWorld.init.Sound config where
  slotted := ⟨fun _ _ h => (by cases h), fun _ => .nil, fun _ _ h => by cases h⟩
  flows := fun _ _ h => by cases h
  inOrder := fun _ h => by cases h
  totals := fun tx => by cases tx <;> rfl
  balance := fun tx => by cases tx <;> rfl

theorem TrafficWorld.Sound.accounted (h : world.Sound config) : world.Accounted config where
  exact := fun returned hreturned => (h.inOrder returned hreturned).exact
  totals := h.totals
  balance := h.balance

/-- Changes of slots and statistics leave the ledger as it is. -/
theorem TrafficWorld.Sound.congr (h : world.Sound config) {maps : TrafficMaps}
    {calls : UInt64 → List TrafficCall} {made : Nat}
    (hslotted : ({ world with maps := maps, calls := calls, made := made } :
      TrafficWorld).Slotted config) (hflows : maps.FlowsPoint)
    (hcells : maps.cells = world.maps.cells) (hprocesses : maps.processes = world.maps.processes)
    (htotals : maps.totals = world.maps.totals) :
    ({ world with maps := maps, calls := calls, made := made } : TrafficWorld).Sound config where
  slotted := hslotted
  flows := hflows
  inOrder := fun returned hreturned =>
    (h.inOrder returned hreturned).grows (.of_eq hprocesses hcells)
  totals := fun tx => (congrArg (TrafficCounters.bytes · tx) htotals).trans (h.totals tx)
  balance := by
    intro tx
    have hbytes : maps.processBytes tx = world.maps.processBytes tx := by
      unfold TrafficMaps.processBytes
      rw [hprocesses]
    dsimp only
    rw [htotals, hbytes]
    exact h.balance tx

/-- A call that returned and has added nothing yet. -/
theorem TrafficWorld.Sound.append (h : world.Sound config) {returned : TrafficReturn}
    (hreturned : returned.InOrder config world.maps) (hcredits : returned.credits = [])
    (hpoint : ∀ account, returned.account = some account → account.point = .totals) :
    ({ world with returns := world.returns ++ [returned] } : TrafficWorld).Sound config := by
  have hadded : ∀ kind tx, returned.added kind tx = 0 := by
    intro kind tx
    unfold TrafficReturn.added
    rw [hcredits]
    rfl
  have hunder : ∀ tx, returned.underWay tx = 0 := by
    intro tx
    unfold TrafficReturn.underWay
    split
    case h_1 => rfl
    case h_2 account haccount =>
      rw [hpoint account haccount]
  refine ⟨⟨h.slotted.thread, h.slotted.apart, h.slotted.slots⟩, h.flows, fun other hother => ?_,
    fun tx => ?_, fun tx => ?_⟩
  · rcases List.mem_append.mp hother with hold | hnew
    · exact h.inOrder other hold
    · obtain rfl := List.mem_singleton.mp hnew
      exact hreturned
  · unfold TrafficWorld.added
    dsimp only
    rw [List.map_append, List.sum_append, List.map_singleton, List.sum_singleton, hadded, add_zero]
    exact h.totals tx
  · unfold TrafficWorld.added
    dsimp only
    rw [List.map_append, List.sum_append, List.map_singleton, List.sum_singleton, hadded, add_zero,
      List.map_append, List.sum_append, List.map_singleton, List.sum_singleton, hunder, add_zero]
    exact h.balance tx

/-- What is added to one side of a balance, and moves between the parts of the other. -/
theorem ledger_step {A : Type*} [AddCommGroup A]
    {total total' process process' lost lost' pending pending' a b c before after : A}
    (h : total = process + lost + pending) (htotal : total' = total + a)
    (hprocess : process' = process + b) (hlost : lost' = lost + c)
    (hopen : pending' + before = pending + after) (hmoved : a + before = b + c + after) :
    total' = process' + lost' + pending' := by
  apply @add_right_cancel _ _ _ _ before
  calc total' + before
      = process + lost + pending + (a + before) := by rw [htotal, h, add_assoc]
    _ = (process + b) + (lost + c) + (pending + after) := by
        rw [hmoved]
        ac_rfl
    _ = process' + lost' + pending' + before := by
      rw [hprocess, hlost, ← hopen, add_assoc _ pending']

/-- A run of `traffic_account` that goes on keeps the ledger. -/
theorem TrafficWorld.Sound.account (h : world.Sound config) (place : Nat) (stored : Bool) :
    (world.account place stored).Sound config := by
  unfold TrafficWorld.account
  split
  case h_1 => exact h
  case h_2 returned hreturned =>
    split
    case h_1 => exact h
    case h_2 account haccount =>
      have horder := h.inOrder returned (List.mem_of_getElem? hreturned)
      have hadvanced :=
        TrafficAccount.advance_spec (horder.running account haccount).2.2.2.2 h.flows
        stored
      generalize account.advance stored world.maps = found at *
      obtain ⟨maps, point, table⟩ := found
      dsimp only at hadvanced ⊢
      have hnext := horder.advance haccount hadvanced
      have hadded :
          ∀ kind tx, ((world.returns.set place (returned.advanced account point table)).map
          fun returned => returned.added kind tx).sum =
            world.added kind tx + if table.any kind then account.share tx else 0 := by
        intro kind tx
        have hsum := @Table.sum_set _ world.returns place returned
          (returned.advanced account point table) _ _
            (fun returned => returned.added kind tx) hreturned
        rw [TrafficReturn.advanced_added, add_comm (returned.added kind tx), ← add_assoc] at hsum
        exact add_right_cancel hsum
      refine ⟨⟨h.slotted.thread, h.slotted.apart, ?_⟩, hadvanced.flows, ?_, fun tx =>
        ?_, fun tx => ?_⟩
      · intro thread call hcall
        rw [hadvanced.inflight]
        exact h.slotted.slots thread call hcall
      · intro other hother
        rcases Table.mem_set hother with hold | rfl
        · exact (h.inOrder other hold).grows hadvanced.grows
        · exact hnext
      · have htable : (table.any fun table => decide (table = .totals)) = true ↔
            table = some .totals := by
          cases table <;> simp
        refine (hadvanced.totals tx).trans (Eq.trans ?_ (hadded _ tx).symm)
        rw [h.totals tx, if_congr htable rfl rfl]
      · have hunder := @Table.sum_set _ world.returns place returned
          (returned.advanced account point table) _ _
            (fun returned => returned.underWay tx) hreturned
        rw [TrafficReturn.underWay_eq haccount, TrafficReturn.advanced_underWay] at hunder
        exact ledger_step (h.balance tx) (hadvanced.totals tx) (hadvanced.processes tx)
          (hadded TrafficTable.lost tx) hunder (hadvanced.moves.balance (account.share tx))

/-- An entry leaves the counters. -/
theorem trafficEnter_maps {now : TrafficTask} {operation : TrafficOperation} {sk : UInt64}
    {sock : TrafficSock} {stored : Bool} {source : Nat} {maps : TrafficMaps} :
    let entered := trafficEnter config now operation sk sock stored source maps
    entered.flows = maps.flows ∧ entered.cells = maps.cells ∧ entered.processes = maps.processes ∧
      entered.totals = maps.totals := by
  unfold trafficEnter
  split
  case h_1 => exact ⟨rfl, rfl, rfl, rfl⟩
  case h_2 => split <;> exact ⟨rfl, rfl, rfl, rfl⟩

section

variable {thread : UInt64} {operation : TrafficOperation} {bytes : Int32} {nowNs : UInt64}
  {leaderComm : Option (List UInt8)} {maps : TrafficMaps}

/-- A return leaves the counters. -/
theorem trafficExit_maps :
    let left := (trafficExit thread operation bytes nowNs leaderComm maps).1
    left.flows = maps.flows ∧ left.cells = maps.cells ∧ left.processes = maps.processes ∧
      left.totals = maps.totals := by
  unfold trafficExit
  split
  case h_1 => exact ⟨rfl, rfl, rfl, rfl⟩
  case h_2 =>
    dsimp only
    split
    case isTrue => split <;> exact ⟨rfl, rfl, rfl, rfl⟩
    case isFalse => exact ⟨rfl, rfl, rfl, rfl⟩

/-- A return hands over an account from its first stage on. -/
theorem trafficExit_point {account : TrafficAccount}
    (h : (trafficExit thread operation bytes nowNs leaderComm maps).2 = some account) :
    account.point = .totals := by
  unfold trafficExit at h
  split at h
  case h_1 => cases h
  case h_2 =>
    dsimp only at h
    split at h
    case isTrue =>
      obtain rfl := Option.some.inj h
      rfl
    case isFalse => cases h

end

theorem trafficStoreEndpoints_maps {now : TrafficTask} {sk : UInt64} {family : UInt16} {tx : Bool}
    {ends : Option TrafficEndpoints} {maps : TrafficMaps} :
    let stored := trafficStoreEndpoints config now sk family tx ends maps
    stored.flows = maps.flows ∧ stored.cells = maps.cells ∧ stored.processes = maps.processes ∧
      stored.totals = maps.totals := by
  unfold trafficStoreEndpoints
  split
  case isTrue => exact ⟨rfl, rfl, rfl, rfl⟩
  case isFalse =>
    split
    case h_1 => exact ⟨rfl, rfl, rfl, rfl⟩
    case h_2 =>
      split
      case h_1 => split <;> exact ⟨rfl, rfl, rfl, rfl⟩
      case h_2 => exact ⟨rfl, rfl, rfl, rfl⟩

theorem TrafficMaps.FlowsPoint.congr {maps after : TrafficMaps} (h : maps.FlowsPoint)
    (hflows : after.flows = maps.flows) (hcells : after.cells = maps.cells) : after.FlowsPoint := by
  unfold TrafficMaps.FlowsPoint
  rw [hflows, hcells]
  exact h

theorem TrafficWorld.Sound.enter (h : world.Sound config) {now : TrafficTask}
    {operation : TrafficOperation} {sk : UInt64} {sock : TrafficSock} {stored : Bool}
    (hapart : ∀ call ∈ world.calls now.task.pidTgid, call.operation ≠ operation)
    (hroom : (⟨world.made, operation, now, sk, sock⟩ : TrafficCall).Wanted config → stored = true) :
    (world.enter config now operation sk sock stored).Sound config := by
  have hslotted := h.slotted.enter hapart hroom
  obtain ⟨hflows, hcells, hprocesses, htotals⟩ :=
    @trafficEnter_maps config now operation sk sock stored world.made world.maps
  unfold TrafficWorld.enter at hslotted ⊢
  exact h.congr hslotted (h.flows.congr hflows hcells) hcells hprocesses htotals

theorem TrafficWorld.Sound.storeEndpoints (h : world.Sound config) (now : TrafficTask) (sk : UInt64)
    (family : UInt16) (tx : Bool) (ends : Option TrafficEndpoints) :
    ({ world with maps := trafficStoreEndpoints config now sk family tx ends world.maps } :
      TrafficWorld).Sound config := by
  obtain ⟨hflows, hcells, hprocesses, htotals⟩ :=
    @trafficStoreEndpoints_maps config now sk family tx ends world.maps
  exact h.congr (h.slotted.storeEndpoints now sk family tx ends)
    (h.flows.congr hflows hcells) hcells
    hprocesses htotals

/-- A return keeps the world sound. -/
theorem TrafficWorld.Sound.ret (h : world.Sound config) {thread : UInt64} {bytes : Int32}
    {probed : Bool} {nowNs : UInt64} {leaderComm : Option (List UInt8)}
    (hown : (TrafficStep.ret thread bytes probed nowNs leaderComm).OwnSlot config world) :
    (world.ret thread bytes probed nowNs leaderComm).Sound config := by
  have hslotted := @TrafficWorld.Slotted.ret config _ h.slotted thread bytes probed nowNs leaderComm
  unfold TrafficWorld.ret at hslotted ⊢
  cases hcalls : world.calls thread with
  | nil => exact h
  | cons call outer =>
      rw [hcalls] at hslotted
      dsimp only at hslotted ⊢
      obtain ⟨hflows, hcells, hprocesses, htotals⟩ :=
        @trafficExit_maps thread call.operation bytes nowNs leaderComm world.maps
      cases probed with
      | false =>
          have hunprobed : (⟨call, bytes, false, none, []⟩ : TrafficReturn).InOrder
              config world.maps :=
            ⟨fun _ => ⟨rfl, rfl⟩, fun _ hcontra => (by cases hcontra),
              fun hcounts => absurd hcounts.1 (by simp)⟩
          have happended := h.append hunprobed rfl fun _ hcontra => by cases hcontra
          exact happended.congr hslotted h.flows rfl rfl rfl
      | true =>
          have hreturned := @TrafficWorld.Slotted.returned config _ _ h.slotted thread bytes nowNs
            leaderComm outer hcalls (fun hbytes => hown hbytes call (by rw [hcalls]; rfl))
              world.maps
          have happended := h.append hreturned rfl fun _ haccount => trafficExit_point haccount
          exact happended.congr hslotted (h.flows.congr hflows hcells) hcells hprocesses htotals

/-- A step of the kernel keeps the ledger. -/
theorem TrafficStep.sound (h : world.Sound config) {step : TrafficStep}
    (hpossible : step.Possible world)
    (hown : step.OwnSlot config world) : (step.apply config world).Sound config := by
  cases step with
  | enter now operation sk sock stored => exact h.enter hpossible hown
  | udp4Endpoints now sk family route | udp6Endpoints now sk family route
  | receiveEndpoints now sk family packet => exact h.storeEndpoints now sk family _ _
  | ret thread bytes probed nowNs leaderComm => exact h.ret hown
  | account place stored => exact h.account place stored
  | evictFlow flow =>
      refine h.congr ⟨h.slotted.thread, h.slotted.apart, h.slotted.slots⟩ ?_ rfl rfl rfl
      exact fun key place hplace => h.flows key place (Keyed.remove_cases hplace).2

end Slots

/-! ## Runs -/

theorem TrafficRun.before {config : TrafficConfig} {steps later : List TrafficStep}
    (h : TrafficRun config (steps ++ later)) : TrafficRun config steps :=
  fun before step rest heq => h before step (rest ++ later) (by rw [heq]; simp)

theorem OwnSlots.before {config : TrafficConfig} {steps later : List TrafficStep}
    (h : OwnSlots config (steps ++ later)) : OwnSlots config steps :=
  fun before step rest heq => h before step (rest ++ later) (by rw [heq]; simp)

/-- Where the slot of every call that is to be counted finds room, and no other call that returns
data finds a slot, every call's bytes are added as they should be. -/
theorem traffic_accounted (config : TrafficConfig) (steps : List TrafficStep)
    (hrun : TrafficRun config steps) (hown : OwnSlots config steps) :
    (trafficAfter config steps).Accounted config := by
  refine TrafficWorld.Sound.accounted ?_
  revert hrun hown
  refine @Run.run_history _ _ (TrafficStep.apply config) .init
    (fun history world => TrafficRun config history → OwnSlots config history → world.Sound config)
    ?_ ?_ steps
  · exact fun _ _ => .init
  · intro history step ih hrun hown
    exact TrafficStep.sound (ih hrun.before hown.before) (hrun history step [] rfl)
      (hown history step [] rfl)

/-- A task and two sockets, of IPv4 and of IPv6, and options without filters. -/
def smallTask : TrafficTask :=
  ⟨⟨7, 7, 0, 1, []⟩, 1, none⟩

def smallSock (family : UInt16) : TrafficSock :=
  ⟨family, 1000, 0, 0, [10, 0, 0, 1], [10, 0, 0, 2], List.replicate 16 1, List.replicate 16 2⟩

/-- A configuration without filters. -/
def openConfig : TrafficConfig :=
  ⟨0, 0, 0, false⟩

/-- `udp_sendmsg()` on an IPv4 socket, and its return, which the probe can miss. -/
def udpSend (bytes : Int32) (probed : Bool) : List TrafficStep :=
  [.enter smallTask .udp4Tx 100 (smallSock 2) true,
    .ret smallTask.task.pidTgid bytes probed 5 none]

/-- `udpv6_sendmsg()` on another socket calls `udp_sendmsg()`, whose entry probe rejects the family,
and both send 20 bytes. -/
def nestedSend : List TrafficStep :=
  [.enter smallTask .udp6Tx 200 (smallSock 10) true,
    .enter smallTask .udp4Tx 200 (smallSock 10) true,
    .ret smallTask.task.pidTgid 20 true 6 none, .ret smallTask.task.pidTgid 20 true 7 none]

/-- A return is missed, the next call of the operation returns, and then the nested calls do: the
totals have the bytes of the second and of the outer call. -/
theorem traffic_accounted_small :
    let steps := udpSend 10 false ++ udpSend 10 true ++ List.replicate 9 (.account 1 true) ++
      nestedSend ++ List.replicate 9 (.account 3 true)
    (trafficAfter openConfig steps).Accounted openConfig ∧
      (trafficAfter openConfig steps).maps.totals.txBytes = 30 ∧
      (trafficAfter openConfig steps).returns.map (fun returned =>
          (decide (returned.Counts openConfig), returned.account.isNone, returned.credits.length)) =
        [(false, true, 0), (true, true, 3), (false, true, 0), (true, true, 3)] :=
  ⟨traffic_accounted openConfig _ (Run.along_iff.mp (by decide +kernel))
    (Run.along_iff.mp (by decide +kernel)), by decide +kernel, by decide +kernel⟩

/-- The return of a call is missed, and the nested calls follow. -/
def missedReturn : List TrafficStep :=
  udpSend 10 false ++ nestedSend ++ [.account 1 true, .account 2 true]

/-- The inner call is not to be counted, and is counted by the slot of the first call; the totals
have the bytes twice. -/
theorem stale_slot_counted :
    TrafficRun openConfig missedReturn ∧
      (trafficAfter openConfig missedReturn).maps.totals.txBytes = 40 ∧
      (trafficAfter openConfig missedReturn).returns[1]?.map (fun returned =>
          (returned.call.number, decide (returned.Counts openConfig), returned.credits)) =
        some (2, false, [⟨.totals, 20, true, 0⟩]) ∧
      ¬(trafficAfter openConfig missedReturn).Accounted openConfig := by
  have hinner : (trafficAfter openConfig missedReturn).returns[1]?.map (fun returned =>
      (returned.call.number, decide (returned.Counts openConfig), returned.credits)) =
        some (2, false, [⟨.totals, 20, true, 0⟩]) := by decide +kernel
  refine ⟨Run.along_iff.mp (by decide +kernel), by decide +kernel, hinner, fun h => ?_⟩
  obtain ⟨returned, hreturned, hfields⟩ := Option.map_eq_some_iff.mp hinner
  obtain ⟨-, hrest⟩ := Prod.mk.inj hfields
  obtain ⟨hcounts, hcredits⟩ := Prod.mk.inj hrest
  have hsilent := (h.exact returned (List.mem_of_getElem? hreturned)).silent
    (of_decide_eq_false hcounts)
  rw [hcredits] at hsilent
  cases hsilent

end Anettrace.Traffic
