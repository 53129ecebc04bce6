import Mathlib.Data.List.TakeWhile
import Anettrace.CaptureQueue.Frame

/-!
# Delivery

The invariant splits the accepted pushes into those delivered, the one the worker holds and those in
the ring, and says that the ring holds exactly the frames of the last. It survives every step of
either thread, so it holds after every schedule; `capture_queue_delivers` draws the conclusions.
-/

namespace Anettrace.CaptureQueue

open Library Library.Run

/-! ## Reading a log -/

def Effect.accepted? : Effect → Option Push
  | .accepted push => some push
  | _ => none

def Effect.rejected? : Effect → Option Push
  | .rejected push => some push
  | _ => none

def Effect.push? : Effect → Option Push
  | .accepted push => some push
  | .rejected push => some push
  | .exported _ => none

def Effect.export? : Effect → Option Export
  | .exported .tick => none
  | .exported call => some call
  | _ => none

/-- The losses a push reports. -/
def Push.lostCount : Push → Nat
  | .event .. => 0
  | .lost _ count => count.toNat

def Push.isEvent : Push → Bool
  | .event .. => true
  | .lost .. => false

/-- The losses a call reports. -/
def Export.lostCount : Export → Nat
  | .lost _ count => count.toNat
  | _ => 0

/-- The dropped events a call reports. -/
def Export.queueLostCount : Export → Nat
  | .queueLost count => count.toNat
  | _ => 0

def Export.isEvent : Export → Bool
  | .event .. => true
  | _ => false

/-- What the producer pushes before it stops. -/
def pushes (actions : List Action) : List Push :=
  (actions.takeWhile (· ≠ .stop)).filterMap Action.push

/-! ## The invariant -/

def Worker.Holds (inFlight : List Push) : Worker → Prop
  | .exporting record sample =>
      ∃ push, inFlight = [push] ∧ record = push.record ∧ sample = push.data
  | _ => inFlight = []

/-- The worker has seen the ring empty with `stopping` set. -/
def Worker.Ending : Worker → Prop
  | .ticking stopping => stopping = true
  | .reporting => True
  | .done => True
  | _ => False

/-- What a schedule preserves: every accepted push is delivered, held or queued, in push order; the
ring holds the frames of the queued ones; and every other push is in a counter. -/
structure Inv (capacity : Nat) (actions : List Action) (reached : State × List Effect)
    (delivered inFlight queued : List Push) : Prop where
  valid : reached.1.ring.Valid
  capacity : reached.1.ring.capacity = capacity
  contents : reached.1.ring.contents = queued.flatMap Push.frame
  accepted : reached.2.filterMap Effect.accepted? = delivered ++ inFlight ++ queued
  proper : ∀ push ∈ delivered ++ inFlight ++ queued, push.Proper
  holds : reached.1.worker.Holds inFlight
  exported : reached.2.filterMap Effect.export? = delivered.map Push.exported ++
    if reached.1.worker = .done then report reached.1 else []
  kernelLost : reached.1.kernelLost =
    UInt64.ofNat ((reached.2.filterMap Effect.rejected?).map Push.lostCount).sum
  dropped : reached.1.dropped =
    UInt64.ofNat ((reached.2.filterMap Effect.rejected?).countP Push.isEvent)
  pushed : reached.2.filterMap Effect.push? = pushes actions
  running : reached.1.producer = .running ↔ .stop ∉ actions
  stopping : reached.1.stopping = true ↔ reached.1.producer ≠ .running
  ending : reached.1.worker.Ending → queued = [] ∧ reached.1.producer ≠ .running
  stopped : reached.1.producer = .stopped → reached.1.worker = .done

variable {capacity : Nat} {actions : List Action} {state : State} {log : List Effect}
  {delivered inFlight queued : List Push}

theorem pushes_concat (actions : List Action) (action : Action) :
    pushes (actions ++ [action]) =
      pushes actions ++ if .stop ∈ actions then [] else action.push.toList := by
  unfold pushes
  rw [List.takeWhile_append]
  by_cases hstop : .stop ∈ actions
  · have hshorter : (actions.takeWhile (· ≠ .stop)).length ≠ actions.length := by
      intro heq
      have hall := List.takeWhile_eq_self_iff.mp
        ((List.takeWhile_sublist (p := (· ≠ Action.stop))).eq_of_length heq) .stop hstop
      simp at hall
    rw [if_neg hshorter, if_pos hstop, List.append_nil]
  · have hself : actions.takeWhile (· ≠ .stop) = actions := by
      refine List.takeWhile_eq_self_iff.mpr fun action haction => ?_
      simp only [decide_eq_true_eq]
      rintro rfl
      exact hstop haction
    rw [hself, if_pos rfl, if_neg hstop, List.filterMap_append]
    congr 1
    cases action with
    | stop => rfl
    | event => rfl
    | lost cpu count =>
        by_cases hcount : count = 0 <;> simp [Action.push, hcount]
    | tick => rfl
    | join => rfl
    | work => rfl

/-- Only frames take room, so an empty ring has no push queued. -/
theorem queued_eq_nil_iff (h : Inv capacity actions (state, log) delivered inFlight queued) :
    queued = [] ↔ state.ring.used = 0 := by
  have hlength := Library.Ring.contents_length h.valid
  rw [h.contents] at hlength
  cases queued with
  | nil => simpa using hlength.symm
  | cons push rest =>
      rw [List.flatMap_cons, List.length_append, Push.frame_length] at hlength
      have hrecord : recordSize = 16 := rfl
      change _ = state.ring.used at hlength
      have hused : state.ring.used ≠ 0 := by omega
      simp [hused]

/-! ## The producer -/

/-- An action that neither pushes nor stops is one more action of the same history. -/
theorem Inv.quiet {reached : State × List Effect} {action : Action}
    (h : Inv capacity actions reached delivered inFlight queued)
    (hpush : .stop ∈ actions ∨ action.push = none) (hstop : .stop ∈ actions ∨ action ≠ .stop) :
    Inv capacity (actions ++ [action]) reached delivered inFlight queued := by
  have hsame : Action.stop ∈ actions ++ [action] ↔ .stop ∈ actions := by
    rw [List.mem_append, List.mem_singleton]
    constructor
    · rintro (hmem | rfl)
      · exact hmem
      · exact hstop.resolve_right (by simp)
    · exact Or.inl
  refine { h with pushed := ?_, running := ?_ }
  · rw [h.pushed, pushes_concat]
    split
    case isTrue => rw [List.append_nil]
    case isFalse hmem =>
      rw [hpush.resolve_left hmem]
      exact (List.append_nil _).symm
  · rw [hsame]
    exact h.running

theorem Inv.of_running (h : Inv capacity actions (state, log) delivered inFlight queued)
    (hrunning : state.producer = .running) :
    .stop ∉ actions ∧ ¬ state.worker.Ending ∧ state.worker ≠ .done := by
  have hending : ¬ state.worker.Ending := fun hending => (h.ending hending).2 hrunning
  refine ⟨h.running.mp hrunning, hending, ?_⟩
  intro hdone
  rw [hdone] at hending
  exact hending trivial

/-- One more push, which the queue accepts or counts. -/
theorem Inv.push {action : Action} {push : Push}
    (h : Inv capacity actions (state, log) delivered inFlight queued)
    (hpush : action.push = some push) (hrunning : state.producer = .running) :
    ∃ queued', Inv capacity (actions ++ [action])
      ((captureQueuePush state push).1, log ++ (captureQueuePush state push).2)
      delivered inFlight queued' := by
  obtain ⟨hstop, hending, hdone⟩ := h.of_running hrunning
  have hpushed : pushes (actions ++ [action]) = pushes actions ++ [push] := by
    rw [pushes_concat, if_neg hstop, hpush]
    rfl
  have hmember : Action.stop ∉ actions ++ [action] := by
    rw [List.mem_append, List.mem_singleton]
    rintro (hmem | rfl)
    · exact hstop hmem
    · cases hpush
  have hexported := h.exported
  have hpushedLog := h.pushed
  have haccepted := h.accepted
  have hkernelLost := h.kernelLost
  have hdropped := h.dropped
  simp only [if_neg hdone, List.append_nil] at hexported
  cases hrefuses : refuses state.ring push.record with
  | false =>
      obtain ⟨next, hnext, hvalid, hcapacity, hcontents⟩ := push_accepted h.valid hrefuses
      rw [hnext]
      refine ⟨queued ++ [push], ?_⟩
      exact {
        valid := hvalid
        capacity := hcapacity.trans h.capacity
        contents := by
          rw [List.flatMap_append, ← h.contents]
          simpa using hcontents
        accepted := by simp [Effect.accepted?, haccepted]
        proper := by
          intro other hother
          rw [← List.append_assoc] at hother
          rcases List.mem_append.mp hother with hold | hnew
          · exact h.proper other hold
          · rw [List.mem_singleton.mp hnew]
            exact Action.push_proper hpush
        holds := h.holds
        exported := by simp [Effect.export?, hexported, hdone]
        kernelLost := by
          rw [List.filterMap_append, show [Effect.accepted push].filterMap
            Effect.rejected? = [] from
            rfl, List.append_nil]
          exact hkernelLost
        dropped := by
          rw [List.filterMap_append, show [Effect.accepted push].filterMap
            Effect.rejected? = [] from
            rfl, List.append_nil]
          exact hdropped
        pushed := by
          rw [hpushed, ← hpushedLog]
          simp [Effect.push?]
        running := ⟨fun _ => hmember, fun _ => hrunning⟩
        stopping := h.stopping
        ending := fun hend => absurd hend hending
        stopped := h.stopped }
  | true =>
      obtain ⟨hring, heffects⟩ := push_rejected hrefuses
      refine ⟨queued, ?_⟩
      have hframe : (captureQueuePush state push).1 =
          { state with
            kernelLost := (captureQueuePush state push).1.kernelLost
            dropped := (captureQueuePush state push).1.dropped } := by
        unfold captureQueuePush
        dsimp only
        rw [if_pos hrefuses]
        split <;> rfl
      have hcounters : (captureQueuePush state push).1.kernelLost =
            state.kernelLost + UInt64.ofNat push.lostCount ∧
          (captureQueuePush state push).1.dropped =
            state.dropped + if push.isEvent then 1 else 0 := by
        unfold captureQueuePush
        dsimp only
        rw [if_pos hrefuses]
        cases push with
        | event cpu sample => simp [Push.record, Push.lostCount, Push.isEvent]
        | lost cpu count =>
            have hcount : count ≠ 0 := Action.push_proper hpush
            simp [Push.record, Push.lostCount, Push.isEvent, hcount]
      rw [heffects]
      rw [hframe]
      exact {
        valid := h.valid
        capacity := h.capacity
        contents := h.contents
        accepted := by
          rw [List.filterMap_append, show [Effect.rejected push].filterMap
            Effect.accepted? = [] from
            rfl, List.append_nil]
          exact haccepted
        proper := h.proper
        holds := h.holds
        exported := by simp [Effect.export?, hexported, hdone]
        kernelLost := by
          show (captureQueuePush state push).1.kernelLost = _
          rw [hcounters.1, List.filterMap_append, List.map_append, List.sum_append,
            UInt64.ofNat_add, ← hkernelLost]
          simp [Effect.rejected?]
        dropped := by
          show (captureQueuePush state push).1.dropped = _
          rw [hcounters.2, List.filterMap_append, List.countP_append, UInt64.ofNat_add, ← hdropped]
          cases push <;> rfl
        pushed := by
          rw [hpushed, ← hpushedLog]
          simp [Effect.push?]
        running := ⟨fun _ => hmember, fun _ => hrunning⟩
        stopping := h.stopping
        ending := fun hend => absurd hend hending
        stopped := h.stopped }

theorem Inv.stop (h : Inv capacity actions (state, log) delivered inFlight queued)
    (hrunning : state.producer = .running) :
    Inv capacity (actions ++ [.stop]) ({ state with stopping := true, producer := .joining }, log)
      delivered inFlight queued := by
  obtain ⟨hstop, hending, hdone⟩ := h.of_running hrunning
  refine { h with pushed := ?_, running := ?_, stopping := ?_, ending := ?_, stopped := ?_ }
  · rw [h.pushed, pushes_concat, if_neg hstop]
    exact (List.append_nil _).symm
  · simp
  · simp
  · exact fun hend => absurd hend hending
  · simp

theorem Inv.join (h : Inv capacity actions (state, log) delivered inFlight queued)
    (hjoining : state.producer = .joining) (hdone : state.worker = .done) :
    Inv capacity (actions ++ [.join]) ({ state with producer := .stopped }, log)
      delivered inFlight queued := by
  have hstopped : .stop ∈ actions := by
    by_contra hstop
    have hrunning : state.producer = .running := h.running.mpr hstop
    rw [hjoining] at hrunning
    cases hrunning
  refine { h.quiet (Or.inl hstopped) (Or.inl hstopped) with
    running := ?_, stopping := ?_, ending := ?_, stopped := ?_ }
  · simp [hstopped]
  · have hstopping : state.stopping = true ↔ state.producer ≠ .running := h.stopping
    rw [hjoining] at hstopping
    simpa using hstopping
  · intro hend
    exact ⟨(h.ending hend).1, by simp⟩
  · exact fun _ => hdone

/-! ## The worker -/

theorem filterMap_exported (calls : List Export) :
    (calls.map Effect.exported).filterMap Effect.accepted? = [] ∧
      (calls.map Effect.exported).filterMap Effect.rejected? = [] ∧
      (calls.map Effect.exported).filterMap Effect.push? = [] := by
  induction calls with
  | nil => exact ⟨rfl, rfl, rfl⟩
  | cons call rest ih => exact ih

/-- A worker step that leaves the ring alone: what has to be said about the calls it makes. -/
theorem Inv.exports {worker : Worker} {delivered' inFlight' : List Push}
    (h : Inv capacity actions (state, log) delivered inFlight queued) (calls : List Export)
    (hstep : delivered ++ inFlight = delivered' ++ inFlight') (hholds : worker.Holds inFlight')
    (hexported : (log ++ calls.map Effect.exported).filterMap Effect.export? =
      delivered'.map Push.exported ++ if worker = .done then report state else [])
    (hending : worker.Ending → queued = [] ∧ state.producer ≠ .running)
    (hstopped : state.producer = .stopped → worker = .done) :
    Inv capacity (actions ++ [.work]) ({ state with worker := worker },
      log ++ calls.map Effect.exported)
      delivered' inFlight' queued := by
  obtain ⟨haccepted, hrejected, hpush⟩ := filterMap_exported calls
  have hquiet : Inv capacity (actions ++ [.work]) (state, log) delivered inFlight queued :=
    h.quiet (Or.inr rfl) (Or.inr (by simp))
  exact {
    valid := h.valid
    capacity := h.capacity
    contents := h.contents
    accepted := by
      rw [List.filterMap_append, haccepted, List.append_nil, ← hstep]
      exact h.accepted
    proper := by
      rw [← hstep]
      exact h.proper
    holds := hholds
    exported := hexported
    kernelLost := by
      rw [List.filterMap_append, hrejected, List.append_nil]
      exact h.kernelLost
    dropped := by
      rw [List.filterMap_append, hrejected, List.append_nil]
      exact h.dropped
    pushed := by
      rw [List.filterMap_append, hpush, List.append_nil]
      exact hquiet.pushed
    running := hquiet.running
    stopping := h.stopping
    ending := hending
    stopped := hstopped }

/-- The worker finds the ring empty, or takes the first queued push. -/
theorem Inv.dequeue (h : Inv capacity actions (state, log) delivered inFlight queued)
    (hready : state.worker = .ready) :
    ∃ inFlight' queued', Inv capacity (actions ++ [.work]) (dequeue state, log)
      delivered inFlight' queued' := by
  have hquiet : Inv capacity (actions ++ [.work]) (state, log) delivered inFlight queued :=
    h.quiet (Or.inr rfl) (Or.inr (by simp))
  have hempty := queued_eq_nil_iff h
  have hholds := h.holds
  have hexported := h.exported
  have hnotStopped : state.producer ≠ .stopped := by
    intro hstopped
    have hdone : state.worker = .done := h.stopped hstopped
    rw [hready] at hdone
    cases hdone
  simp only [hready, Worker.Holds] at hholds
  simp only [hready] at hexported
  cases hqueued : queued with
  | nil =>
      have hused := hempty.mp hqueued
      subst hqueued
      unfold CaptureQueue.dequeue
      rw [if_pos hused]
      split
      · exact ⟨inFlight, [], hquiet⟩
      refine ⟨inFlight, [], ?_⟩
      refine { hquiet with holds := hholds, exported := ?_, ending := ?_, stopped := ?_ }
      · simpa using hexported
      · intro hstopping
        exact ⟨rfl, h.stopping.mp hstopping⟩
      · exact fun hstopped => absurd hstopped hnotStopped
  | cons push rest =>
      subst hqueued
      have hcontents : state.ring.contents = push.frame ++ rest.flatMap Push.frame := h.contents
      obtain ⟨next, hnext, hvalid, hcapacity, hrest⟩ := dequeue_frame h.valid hcontents
      rw [hnext]
      refine ⟨[push], rest, ?_⟩
      have haccepted := h.accepted
      have hproper := h.proper
      rw [hholds, List.append_nil] at haccepted hproper
      refine { hquiet with
        valid := hvalid
        capacity := hcapacity.trans h.capacity
        contents := hrest
        accepted := ?_
        proper := ?_
        holds := ⟨push, rfl, rfl, rfl⟩
        exported := ?_
        ending := ?_
        stopped := ?_ }
      · rw [List.append_assoc]
        exact haccepted
      · rw [List.append_assoc]
        exact hproper
      · simpa using hexported
      · exact False.elim
      · exact fun hstopped => absurd hstopped hnotStopped

/-- A step of the worker. -/
theorem Inv.work (h : Inv capacity actions (state, log) delivered inFlight queued) :
    ∃ delivered' inFlight' queued', Inv capacity (actions ++ [.work])
      ((work state).1, log ++ (work state).2) delivered' inFlight' queued' := by
  have hholds := h.holds
  have hexported := h.exported
  have hstopped := h.stopped
  have hending := h.ending
  unfold CaptureQueue.work
  cases hworker : state.worker with
  | ready =>
      obtain ⟨inFlight', queued', hnext⟩ := h.dequeue hworker
      refine ⟨delivered, inFlight', queued', ?_⟩
      rw [List.append_nil]
      exact hnext
  | exporting record sample =>
      simp only [hworker] at hholds hexported
      obtain ⟨push, rfl, rfl, rfl⟩ := hholds
      have hproper : push.Proper := h.proper push (by simp)
      refine ⟨delivered ++ [push], [], queued, ?_⟩
      refine h.exports [exportRecord push.record push.data] (by simp) rfl ?_ False.elim ?_
      · rw [List.filterMap_append, hexported, Push.exportRecord_eq hproper]
        cases push <;> simp [Effect.export?, Push.exported]
      · intro hproducer
        have hdone : state.worker = .done := hstopped hproducer
        rw [hworker] at hdone
        cases hdone
  | ticking stopping =>
      simp only [hworker] at hholds hexported
      refine ⟨delivered, inFlight, queued, ?_⟩
      refine h.exports [.tick] rfl ?_ ?_ ?_ ?_
      · cases stopping <;> exact hholds
      · rw [List.filterMap_append, hexported]
        cases stopping <;> simp [Effect.export?]
      · cases stopping with
        | false => exact False.elim
        | true =>
            intro _
            refine hending ?_
            rw [hworker]
            rfl
      · intro hproducer
        have hdone : state.worker = .done := hstopped hproducer
        rw [hworker] at hdone
        cases hdone
  | reporting =>
      simp only [hworker] at hholds hexported
      refine ⟨delivered, inFlight, queued, ?_⟩
      refine h.exports (report state) rfl hholds ?_ ?_ fun _ => rfl
      · rw [List.filterMap_append, hexported]
        have hreport : ((report state).map Effect.exported).filterMap Effect.export? =
            report state := by
          unfold report
          split <;> split <;> rfl
        simp [hreport]
      · intro _
        refine hending ?_
        rw [hworker]
        trivial
  | done =>
      refine ⟨delivered, inFlight, queued, ?_⟩
      rw [List.append_nil]
      exact h.quiet (Or.inr rfl) (Or.inr (by simp))

/-! ## Every schedule -/

def captured (start : State) (actions : List Action) : State × List Effect :=
  run (logged step) (start, []) actions

theorem captured_concat (start : State) (actions : List Action) (action : Action) :
    captured start (actions ++ [action]) = logged step (captured start actions) action :=
  run_concat ..

/-- One step of either thread keeps the invariant. -/
theorem step_inv {action : Action} {reached : State × List Effect}
    (h : Inv capacity actions reached delivered inFlight queued) :
    ∃ delivered' inFlight' queued', Inv capacity (actions ++ [action])
      (logged step reached action) delivered' inFlight' queued' := by
  obtain ⟨state, log⟩ := reached
  have hdisabled : ∀ action : Action, state.producer ≠ .running →
      Inv capacity (actions ++ [action]) (state, log ++ []) delivered inFlight queued := by
    intro action hproducer
    have hstop : .stop ∈ actions := by
      by_contra hstop
      exact hproducer (h.running.mpr hstop)
    rw [List.append_nil]
    exact h.quiet (Or.inl hstop) (Or.inl hstop)
  unfold logged step
  cases action with
  | event cpu sample =>
      dsimp only [Action.push]
      split
      case isTrue hrunning =>
        obtain ⟨queued', hnext⟩ :=
          h.push (show (Action.event cpu sample).push = some _ from rfl) hrunning
        exact ⟨delivered, inFlight, queued', hnext⟩
      case isFalse hproducer => exact ⟨delivered, inFlight, queued, hdisabled _ hproducer⟩
  | lost cpu count =>
      by_cases hcount : count = 0
      · have hnone : (Action.lost cpu count).push = none := by simp [Action.push, hcount]
        simp only [hnone, List.append_nil]
        exact ⟨delivered, inFlight, queued, h.quiet (Or.inr hnone) (Or.inr (by simp))⟩
      · have hsome : (Action.lost cpu count).push = some (.lost cpu count) := if_pos hcount
        simp only [hsome]
        split
        case isTrue hrunning =>
          obtain ⟨queued', hnext⟩ := h.push hsome hrunning
          exact ⟨delivered, inFlight, queued', hnext⟩
        case isFalse hproducer => exact ⟨delivered, inFlight, queued, hdisabled _ hproducer⟩
  | tick =>
      dsimp only
      split
      case isTrue =>
        refine ⟨delivered, inFlight, queued, ?_⟩
        rw [List.append_nil]
        exact { h.quiet (Or.inr rfl) (Or.inr (by simp)) with exported := h.exported }
      case isFalse hproducer => exact ⟨delivered, inFlight, queued, hdisabled _ hproducer⟩
  | stop =>
      dsimp only
      split
      case isTrue hrunning =>
        refine ⟨delivered, inFlight, queued, ?_⟩
        rw [List.append_nil]
        exact h.stop hrunning
      case isFalse hproducer => exact ⟨delivered, inFlight, queued, hdisabled _ hproducer⟩
  | join =>
      dsimp only
      split
      case isTrue hcondition =>
        refine ⟨delivered, inFlight, queued, ?_⟩
        rw [List.append_nil]
        exact h.join hcondition.1 hcondition.2
      case isFalse =>
        refine ⟨delivered, inFlight, queued, ?_⟩
        rw [List.append_nil]
        exact h.quiet (Or.inr rfl) (Or.inr (by simp))
  | work => exact h.work

/-- The invariant holds after every schedule. -/
theorem captured_inv {memory : List UInt8} {start : State}
    (hstart : captureQueueStart memory = some start) (actions : List Action) :
    ∃ delivered inFlight queued,
      Inv memory.length actions (captured start actions) delivered inFlight queued := by
  induction actions using List.reverseRecOn with
  | nil =>
      unfold captureQueueStart at hstart
      split at hstart
      · cases hstart
      · rename_i hmemory
        have hrecord : recordSize = 16 := rfl
        cases hstart
        refine ⟨[], [], [], ?_⟩
        exact {
          valid := ⟨by show 0 < memory.length; omega, Nat.zero_le _, (Nat.zero_mod _).symm⟩
          capacity := rfl
          contents := rfl
          accepted := rfl
          proper := by simp
          holds := rfl
          exported := rfl
          kernelLost := rfl
          dropped := rfl
          pushed := rfl
          running := by simp [captured]
          stopping := by simp [captured]
          ending := False.elim
          stopped := by simp [captured] }
  | append_singleton actions action ih =>
      obtain ⟨delivered, inFlight, queued, h⟩ := ih
      rw [captured_concat]
      exact step_inv h

/-! ## Draining -/

/-- A bound on the steps the worker still takes once the producer waits for it. -/
def remaining (state : State) : Nat :=
  match state.worker with
  | .ready => 2 * state.ring.used + 3
  | .exporting .. => 2 * state.ring.used + 4
  | .ticking stopping => if stopping then 2 else 2 * state.ring.used + 4
  | .reporting => 1
  | .done => 0

/-- While the producer waits, every step of the worker brings it closer to its end. -/
theorem work_remaining {reached : State × List Effect}
    (h : Inv capacity actions reached delivered inFlight queued)
    (hjoining : reached.1.producer = .joining) (hdone : reached.1.worker ≠ .done) :
    remaining (work reached.1).1 < remaining reached.1 ∧
      (work reached.1).1.producer = .joining := by
  obtain ⟨state, log⟩ := reached
  dsimp only at hjoining hdone ⊢
  have hstopping : state.stopping = true := h.stopping.mpr (by simp [hjoining])
  have hempty := queued_eq_nil_iff h
  unfold work
  cases hworker : state.worker with
  | ready =>
      cases queued with
      | nil =>
          have hused := hempty.mp rfl
          simp [dequeue, hused, hstopping, remaining, hworker, hjoining]
      | cons push rest =>
          have hcontents : state.ring.contents = push.frame ++ rest.flatMap Push.frame := h.contents
          obtain ⟨next, hnext, hvalid, -, hrest⟩ := dequeue_frame h.valid hcontents
          have hlength : _ = state.ring.used := Library.Ring.contents_length h.valid
          have hlength' := Library.Ring.contents_length hvalid
          have hrecord : recordSize = 16 := rfl
          rw [hcontents, List.length_append, Push.frame_length] at hlength
          rw [hrest] at hlength'
          dsimp only
          rw [hnext]
          refine ⟨?_, hjoining⟩
          simp only [remaining, hworker]
          omega
  | exporting record sample =>
      refine ⟨?_, hjoining⟩
      simp only [remaining, hworker]
      omega
  | ticking stopping =>
      refine ⟨?_, hjoining⟩
      cases stopping <;> simp [remaining, hworker]
  | reporting =>
      refine ⟨?_, hjoining⟩
      simp [remaining, hworker]
  | done => exact absurd hworker hdone

/-- Enough steps of the worker let the join of the producer return. -/
theorem drains {memory : List UInt8} {start : State}
    (hstart : captureQueueStart memory = some start) (bound : Nat) (actions : List Action)
    (hjoining : (captured start actions).1.producer = .joining)
    (hbound : remaining (captured start actions).1 ≤ bound) :
    ∃ count, (captured start (actions ++ List.replicate count .work ++ [.join])).1.producer =
      .stopped := by
  induction bound generalizing actions with
  | zero =>
      refine ⟨0, ?_⟩
      have hdone : (captured start actions).1.worker = .done := by
        unfold remaining at hbound
        split at hbound
        · omega
        · omega
        · split at hbound <;> omega
        · omega
        · assumption
      rw [List.replicate_zero, List.append_nil, captured_concat]
      simp [logged, step, hjoining, hdone]
  | succ bound ih =>
      by_cases hdone : (captured start actions).1.worker = .done
      · refine ⟨0, ?_⟩
        rw [List.replicate_zero, List.append_nil, captured_concat]
        simp [logged, step, hjoining, hdone]
      · obtain ⟨delivered, inFlight, queued, h⟩ := captured_inv hstart actions
        obtain ⟨hless, hproducer⟩ := work_remaining h hjoining hdone
        have hnext : (captured start (actions ++ [.work])).1 =
            (work (captured start actions).1).1 := by
          rw [captured_concat]
          rfl
        obtain ⟨count, hcount⟩ := ih (actions ++ [.work]) (hnext ▸ hproducer) (by rw [hnext]; omega)
        refine ⟨count + 1, ?_⟩
        rw [List.replicate_succ, List.append_cons actions]
        exact hcount

/-! ## Totals -/

theorem totals_split (log : List Effect) :
    ((log.filterMap Effect.push?).map Push.lostCount).sum =
      ((log.filterMap Effect.accepted?).map Push.lostCount).sum +
        ((log.filterMap Effect.rejected?).map Push.lostCount).sum ∧
    (log.filterMap Effect.push?).countP Push.isEvent =
      (log.filterMap Effect.accepted?).countP Push.isEvent +
        (log.filterMap Effect.rejected?).countP Push.isEvent := by
  induction log with
  | nil => exact ⟨rfl, rfl⟩
  | cons effect rest ih =>
      cases effect with
      | accepted push =>
          simp only [List.filterMap_cons, Effect.push?, Effect.accepted?, Effect.rejected?,
            List.map_cons, List.sum_cons, List.countP_cons, ih]
          omega
      | rejected push =>
          simp only [List.filterMap_cons, Effect.push?, Effect.accepted?, Effect.rejected?,
            List.map_cons, List.sum_cons, List.countP_cons, ih]
          omega
      | exported call => exact ih

theorem exported_totals (delivered : List Push) :
    ((delivered.map Push.exported).map Export.lostCount).sum =
      (delivered.map Push.lostCount).sum ∧
    ((delivered.map Push.exported).map Export.queueLostCount).sum = 0 ∧
    (delivered.map Push.exported).countP Export.isEvent = delivered.countP Push.isEvent := by
  induction delivered with
  | nil => exact ⟨rfl, rfl, rfl⟩
  | cons push rest ih =>
      obtain ⟨hlost, hqueueLost, hevent⟩ := ih
      simp only [List.map_cons, List.sum_cons, List.countP_cons, hlost, hqueueLost, hevent]
      cases push <;> exact ⟨rfl, rfl, rfl⟩

theorem report_totals (state : State) :
    ((report state).map Export.lostCount).sum = state.kernelLost.toNat ∧
    ((report state).map Export.queueLostCount).sum = state.dropped.toNat ∧
    (report state).countP Export.isEvent = 0 := by
  unfold report
  by_cases hkernelLost : state.kernelLost = 0 <;> by_cases hdropped : state.dropped = 0 <;>
    simp [hkernelLost, hdropped, Export.lostCount, Export.queueLostCount, Export.isEvent]

/-! ## Delivery -/

/-- After every schedule the accepted pushes are those delivered, held and queued, in push order,
the calls of the exporter are the delivered ones followed by the reports, and the other pushes are
in the counters. A refused push leaves the ring alone, and the worker always reads the record of the
first queued push. A stop that waits can always return, and once it has, everything accepted was
delivered, and what was exported adds up, modulo `2 ^ 64`, to what was pushed. -/
theorem capture_queue_delivers {memory : List UInt8} {start : State}
    (hstart : captureQueueStart memory = some start) (actions : List Action) :
    let reached := captured start actions
    let state := reached.1
    let calls := reached.2.filterMap Effect.export?
    ∃ delivered inFlight queued : List Push,
      reached.2.filterMap Effect.push? = pushes actions ∧
      reached.2.filterMap Effect.accepted? = delivered ++ inFlight ++ queued ∧
      calls = delivered.map Push.exported ++ (if state.worker = .done then report state else []) ∧
      state.worker.Holds inFlight ∧
      state.ring.contents = queued.flatMap Push.frame ∧
      state.ring.capacity = memory.length ∧
      state.ring.used ≤ state.ring.capacity ∧
      state.ring.head = (state.ring.tail + state.ring.used) % state.ring.capacity ∧
      state.kernelLost =
        UInt64.ofNat ((reached.2.filterMap Effect.rejected?).map Push.lostCount).sum ∧
      state.dropped =
        UInt64.ofNat ((reached.2.filterMap Effect.rejected?).countP Push.isEvent) ∧
      (∀ push, (captureQueuePush state push).2 = [.rejected push] →
        (captureQueuePush state push).1.ring = state.ring) ∧
      (state.ring.used ≠ 0 → ∃ push rest, queued = push :: rest ∧
        (state.ring.read recordSize).1 = push.record.bytes ∧
        (dequeue state).worker = .exporting push.record push.data) ∧
      (state.producer = .joining →
        ∃ count, (captured start (actions ++ List.replicate count .work ++ [.join])).1.producer =
          .stopped) ∧
      (state.producer = .stopped →
        state.ring.used = 0 ∧ reached.2.filterMap Effect.accepted? = delivered ∧
        calls = delivered.map Push.exported ++ report state ∧
        (calls.map Export.lostCount).sum % 2 ^ 64 =
          ((pushes actions).map Push.lostCount).sum % 2 ^ 64 ∧
        (calls.countP Export.isEvent + (calls.map Export.queueLostCount).sum) % 2 ^ 64 =
          (pushes actions).countP Push.isEvent % 2 ^ 64) := by
  intro reached state calls
  obtain ⟨delivered, inFlight, queued, h⟩ := captured_inv hstart actions
  have hempty : queued = [] ↔ state.ring.used = 0 := queued_eq_nil_iff h
  refine ⟨delivered, inFlight, queued, h.pushed, h.accepted, h.exported, h.holds, h.contents,
    h.capacity, h.valid.used_le, h.valid.head_eq, h.kernelLost, h.dropped, ?_, ?_, ?_, ?_⟩
  · intro push hrejected
    cases hrefuses : refuses state.ring push.record with
    | true => exact (push_rejected hrefuses).1
    | false =>
        obtain ⟨next, hnext, -⟩ := push_accepted h.valid hrefuses
        rw [hnext] at hrejected
        cases hrejected
  · intro hused
    cases hqueued : queued with
    | nil => exact absurd (hempty.mp hqueued) hused
    | cons push rest =>
        have hcontents : state.ring.contents = push.frame ++ rest.flatMap Push.frame := by
          rw [← List.flatMap_cons, ← hqueued]
          exact h.contents
        obtain ⟨next, hnext, -⟩ := dequeue_frame h.valid hcontents
        exact ⟨push, rest, rfl, (read_frame h.valid hcontents).1, by rw [hnext]⟩
  · exact fun hjoining => drains hstart _ actions hjoining (Nat.le_refl _)
  · intro hstopped
    have hdone : state.worker = .done := h.stopped hstopped
    have hqueued : queued = [] := by
      refine (h.ending ?_).1
      show state.worker.Ending
      rw [hdone]
      trivial
    have hinFlight : inFlight = [] := by
      have hholds : state.worker.Holds inFlight := h.holds
      rw [hdone] at hholds
      exact hholds
    have haccepted : reached.2.filterMap Effect.accepted? = delivered := by
      rw [show reached.2.filterMap Effect.accepted? = _ from h.accepted, hqueued, hinFlight,
        List.append_nil, List.append_nil]
    have hcalls : calls = delivered.map Push.exported ++ report state := by
      refine Eq.trans h.exported ?_
      rw [if_pos hdone]
    obtain ⟨hlostSplit, heventSplit⟩ := totals_split reached.2
    obtain ⟨hlost, hqueueLost, hevent⟩ := exported_totals delivered
    obtain ⟨hreportLost, hreportQueueLost, hreportEvent⟩ := report_totals state
    have hkernelLost : state.kernelLost.toNat = _ := congrArg UInt64.toNat h.kernelLost
    have hdropped : state.dropped.toNat = _ := congrArg UInt64.toNat h.dropped
    rw [show reached.2.filterMap Effect.push? = _ from h.pushed, haccepted]
      at hlostSplit heventSplit
    rw [UInt64.toNat_ofNat'] at hkernelLost hdropped
    refine ⟨hempty.mp hqueued, haccepted, hcalls, ?_, ?_⟩
    · rw [hcalls, List.map_append, List.sum_append, hlost, hreportLost, hkernelLost, hlostSplit,
        Nat.add_mod_mod]
    · rw [hcalls, List.countP_append, List.map_append, List.sum_append, hevent, hreportEvent,
        hqueueLost, hreportQueueLost, hdropped, heventSplit, Nat.add_zero, Nat.zero_add,
        Nat.add_mod_mod]

/-- A ring of 40 bytes. -/
def smallStart : State :=
  ⟨⟨List.replicate 40 0, 0, 0, 0⟩, 0, 0, false, false, .ready, .running⟩

/-- The second event lies across the end of the ring, and the third finds it full. -/
def wrappedSchedule : List Action :=
  [.event 0 ⟨[1, 2, 3, 4], by decide⟩, .work, .event 1 ⟨[5, 6, 7, 8, 9, 10, 11, 12], by decide⟩,
    .lost 3 23, .event 0 ⟨[13], by decide⟩, .work, .tick, .work, .stop, .work, .work,
      .work, .work, .work,
    .work, .join]

/-- Everything accepted is delivered by the stop, and the refused event is reported. -/
theorem capture_queue_delivers_wrapped :
    captureQueueStart (List.replicate 40 0) = some smallStart ∧
      (captured smallStart wrappedSchedule).2.filterMap Effect.export? =
        [.event 0 [1, 2, 3, 4], .event 1 [5, 6, 7, 8, 9, 10, 11, 12], .lost 3 23, .queueLost 1] ∧
      (captured smallStart wrappedSchedule).1.ring.used = 0 ∧
      ∃ delivered,
        (captured smallStart wrappedSchedule).2.filterMap Effect.accepted? = delivered ∧
        (captured smallStart wrappedSchedule).2.filterMap Effect.export? =
          delivered.map Push.exported ++ report (captured smallStart wrappedSchedule).1 := by
  have hstart : captureQueueStart (List.replicate 40 0) = some smallStart := rfl
  have hstopped : (captured smallStart wrappedSchedule).1.producer = .stopped := by decide +kernel
  obtain ⟨delivered, _, _, _, _, _, _, _, _, _, _, _, _, _, _, _, hend⟩ :=
    capture_queue_delivers hstart wrappedSchedule
  obtain ⟨hused, haccepted, hcalls, -⟩ := hend hstopped
  exact ⟨hstart, by decide +kernel, hused, delivered, haccepted, hcalls⟩

end Anettrace.CaptureQueue
