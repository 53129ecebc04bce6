import Anettrace.Capture.Close
import Anettrace.Capture.File
import Anettrace.Export.FlowLifecycle

/-!
# The lifecycle of flows

`flow_lifecycle` puts the two halves together: in every finished capture each flow that was ever
created begins once and ends once, later, in the JSONL file and on its native track.
-/

namespace Anettrace.Capture

open Anettrace.Export Anettrace.Native Library.Labelled Library.Run

def flowBoundary (salt flowId : UInt64) (begins : Bool) : TrackEvent :=
  if begins then flowSlice salt flowId else flowSliceEnd salt flowId

def flowBoundaries (out : List Packet) : List TrackEvent :=
  ((marksOf out).map Mark.event).filter fun event => event.category = .flow

/-- A record begins or ends the flow at a place. -/
def Tells (ids : List UInt64) (life : UInt64 × Bool) (mark : Nat × Bool) : Prop :=
  ids[mark.1]? = some life.1 ∧ life.2 = mark.2

/-- An event begins or ends the slice of the flow at a place. -/
def Draws (salt : UInt64) (ids : List UInt64) (event : TrackEvent) (mark : Nat × Bool) : Prop :=
  ∃ flowId, ids[mark.1]? = some flowId ∧ event = flowBoundary salt flowId mark.2

/-- The entry at a place occurs nowhere else. -/
def Alone {κ : Type} (keys : List κ) (place : Nat) : Prop :=
  ∀ other, keys[other]? = keys[place]? → other = place

theorem forall₂_filter {α β : Type} {R : α → β → Prop} {first : List α} {second : List β}
    (h : List.Forall₂ R first second) {keep : α → Bool} {test : β → Bool}
    (hkeep : ∀ entry other, R entry other → keep entry = test other) :
    List.Forall₂ R (first.filter keep) (second.filter test) := by
  induction h with
  | nil => exact List.Forall₂.nil
  | @cons entry other rest others hentry _ ih =>
      rw [List.filter_cons, List.filter_cons, hkeep entry other hentry]
      cases test other with
      | true => exact List.Forall₂.cons hentry ih
      | false => exact ih

/-- What tells of a flow that is alone with its key is a beginning and then an end. -/
theorem alone_boundaries {α κ : Type} [DecidableEq κ] {ids : List UInt64}
    {order : List (Nat × Bool)} {place : Nat} {key : UInt64 → κ} {keyOf : α → κ} {seen : List α}
    {R : α → Nat × Bool → Prop} (h : List.Forall₂ R seen order)
    (hkey : ∀ entry mark, R entry mark → ids[mark.1]?.map key = some (keyOf entry))
    (halone : Alone (ids.map key) place) (hlife : lifeAt order place = [true, false])
    {flowId : UInt64} (hplace : ids[place]? = some flowId) :
    ∃ first second, seen.filter (fun entry => keyOf entry = key flowId) = [first, second] ∧
      R first (place, true) ∧ R second (place, false) := by
  have hkept := @forall₂_filter _ _ _ _ _ h (fun entry => decide (keyOf entry = key flowId))
    (fun mark => decide (mark.1 = place)) fun entry mark hentry => by
      have hentryKey := hkey entry mark hentry
      refine decide_eq_decide.mpr ⟨fun heq => ?_, fun heq => ?_⟩
      · refine halone mark.1 ?_
        rw [List.getElem?_map, List.getElem?_map, hentryKey, heq, hplace]
        rfl
      · rw [heq, hplace] at hentryKey
        exact (Option.some_inj.mp hentryKey).symm
  have hmarks : order.filter (fun mark => mark.1 = place) = [(place, true), (place, false)] := by
    unfold lifeAt at hlife
    obtain ⟨first, rest, hcons, hfirst, hrest⟩ := List.map_eq_cons_iff.mp hlife
    obtain ⟨second, tail, rfl, hsecond, htail⟩ := List.map_eq_cons_iff.mp hrest
    obtain rfl := List.map_eq_nil_iff.mp htail
    have hmem : ∀ mark ∈ [first, second], mark.1 = place := by
      intro mark hmark
      rw [← hcons] at hmark
      exact of_decide_eq_true (List.mem_filter.mp hmark).2
    obtain rfl : first = (place, true) := Prod.ext (hmem first (by simp)) hfirst
    obtain rfl : second = (place, false) := Prod.ext (hmem second (by simp)) hsecond
    exact hcons
  rw [hmarks] at hkept
  match hseen : seen.filter (fun entry => decide (keyOf entry = key flowId)), hkept with
  | [first, second], .cons hfirst (.cons hsecond .nil) =>
      exact ⟨first, second, rfl, hfirst, hsecond⟩

theorem mirrored_flows (salt : UInt64) (records : List Record) :
    ((records.filterMap (mirrored salt)).map Mark.event).filter
        (fun event => decide (event.category = .flow)) =
      (livesOf records).map fun life => flowBoundary salt life.1 life.2 := by
  induction records with
  | nil => rfl
  | cons record rest ih =>
      cases record with
      | flowStart fields | flowEnd fields => exact congrArg (_ :: ·) ih
      | ioStart fields | ioComplete fields => exact ih
      | _ => exact ih

theorem finished_flows {session : CaptureSession} (htags : session.traceTags = false)
    (inputs : List CaptureInput) (clock : CloseClock) :
    flowBoundaries (captureClose session (captured session inputs) clock).out =
      (livesOf (closeTables session.toSession (captured session inputs).state clock.now).out).map
        fun life => flowBoundary session.salt life.1 life.2 := by
  have hmirrored := finished_mirrored session inputs clock
  rw [mirroredMarks, if_neg (by simp [htags])] at hmirrored
  rw [← mirrored_flows, ← hmirrored]
  unfold flowBoundaries
  rw [List.filter_map, List.filter_map, List.filter_filter]
  refine congrArg _ (List.filter_congr fun mark _ => ?_)
  unfold isMirrored
  cases hcategory : mark.event.category <;> simp [hcategory]

/-- The tables move along a run. -/
theorem captured_between (session : CaptureSession) (earlier later : List CaptureInput) :
    ∃ labels, Moves Move (captured session earlier).state.books labels
      (captured session (earlier ++ later)).state.books := by
  induction later using List.reverseRecOn with
  | nil => exact ⟨[], by rw [List.append_nil]; exact Moves.refl _⟩
  | append_singleton history input ih =>
      obtain ⟨labels, hmoves⟩ := ih
      rw [← List.append_assoc, captured_concat]
      show ∃ labels, Moves Move _ labels
        (tablesStep session.toSession (captured session (earlier ++ history)).state input).books
      unfold tablesStep
      cases input.toInput with
      | none => exact ⟨labels, hmoves⟩
      | some found =>
          obtain ⟨more, hmore, -⟩ :=
            step_moves (captured_coupled session (earlier ++ history)).sound found
          exact ⟨labels ++ more, hmoves.trans hmore⟩

theorem captured_lives (session : CaptureSession) (inputs : List CaptureInput) :
    ∃ order, Lives (captured session inputs).state.books order := by
  obtain ⟨_, hmoves⟩ := captured_between session [] inputs
  exact moves_lives Lives.empty hmoves

/-- Every flow of a finished capture has begun once and then ended once. -/
theorem finished_lives (session : CaptureSession) (inputs : List CaptureInput) (now : UInt64) :
    let closed := closeTables session.toSession (captured session inputs).state now
    ∃ order, List.Forall₂ (Tells (closed.flows.map FlowState.id)) (livesOf closed.out) order ∧
      ∀ place < closed.flows.length, lifeAt order place = [true, false] := by
  intro closed
  obtain ⟨order, hlives⟩ := captured_lives session inputs
  obtain ⟨⟨_, _, hmoves⟩, -⟩ := closeTables_moves session.toSession
    (captured_coupled session inputs).sound now
  obtain ⟨more, hclosed⟩ := moves_lives hlives hmoves
  refine ⟨order ++ more, ?_, fun place hplace => ?_⟩
  · have hrecorded := hclosed.recorded
    unfold Recorded at hrecorded
    rw [show closed.books.ids = closed.flows.map FlowState.id from by
      unfold Books.ids State.books
      rw [List.map_map]
      rfl] at hrecorded
    exact hrecorded
  · -- the close leaves no flow in progress
    have haccount : closed.books.accounts[place]? = some closed.flows[place].account := by
      show (closed.flows.map FlowState.account)[place]? = _
      rw [List.getElem?_map, List.getElem?_eq_getElem hplace]
      rfl
    have hended := closeTables_ended session.toSession (captured session inputs).state now
      closed.flows[place] (List.getElem_mem hplace)
    have heach := hclosed.each place _ haccount
    rwa [show closed.flows[place].account.active = false from hended] at heach

/-- The table of a finished capture has every flow that was ever created, and a flow that was over
then is over. -/
theorem flows_remain (session : CaptureSession) (earlier later : List CaptureInput) (now : UInt64) :
    let before := (captured session earlier).state.flows
    let flows := (captured session (earlier ++ later)).state.flows
    let closed := (closeTables session.toSession
      (captured session (earlier ++ later)).state now).flows
    before.map FlowState.id <+: flows.map FlowState.id ∧
      flows.map FlowState.id <+: closed.map FlowState.id ∧
      ∀ (place : Nat) (flow : FlowState), before[place]? = some flow → flow.active = false →
        ∃ same, flows[place]? = some same ∧ same.id = flow.id ∧ same.active = false := by
  intro before flows closed
  obtain ⟨_, hmoves⟩ := captured_between session earlier later
  obtain ⟨⟨_, _, hclose⟩, -⟩ := closeTables_moves session.toSession
    (captured_coupled session (earlier ++ later)).sound now
  obtain ⟨order, hlives⟩ := captured_lives session earlier
  have hids (state : State) : state.books.ids = state.flows.map FlowState.id := by
    unfold Books.ids State.books
    rw [List.map_map]
    rfl
  refine ⟨?_, ?_, fun place flow hflow hover => ?_⟩
  · have hsub := moves_ids hmoves
    rwa [hids, hids] at hsub
  · have hsub := moves_ids hclose
    rwa [hids, hids] at hsub
  · have haccount : (captured session earlier).state.books.accounts[place]? =
        some flow.account := by
      show (before.map FlowState.account)[place]? = _
      rw [List.getElem?_map, hflow]
      rfl
    obtain ⟨new, hnew, hid, hinactive⟩ := moves_over hmoves hlives haccount hover
    obtain ⟨same, hsame, rfl⟩ := List.getElem?_map .. ▸ hnew |> Option.map_eq_some_iff.mp
    exact ⟨same, hsame, hid, hinactive⟩

/-- In a finished capture every flow that was ever created has exactly one `flow_start` and, after
it, exactly one `flow_end`, and on its native track exactly one beginning and, after it, exactly one
end. A flow that is over stays over, and the times of `flow_end` records are in order. Flows are
told apart by their places in the table; where the id of one, or the uuid of its track, is not that
of another by a collision of the hash, so do ids and tracks. -/
theorem flow_lifecycle (session : CaptureSession) (inputs : List CaptureInput) (clock : CloseClock)
    (eventCount : UInt64) :
    let exporter := captured session inputs
    let flows := (closeTables session.toSession exporter.state clock.now).flows
    let ids := flows.map FlowState.id
    let file := close session.toSession exporter.state clock.now eventCount
    let events := flowBoundaries
      ((captureFile session (captureClose session exporter clock).out).written.map Prod.fst)
    (∃ order, List.Forall₂ (Tells ids) (livesOf file) order ∧
      (session.traceTags = false → session.windowNs = 0 →
        List.Forall₂ (Draws session.salt ids) events order) ∧
      ∀ place < flows.length, lifeAt order place = [true, false]) ∧
    (∀ (place : Nat) (flow : FlowState), flows[place]? = some flow → Alone ids place →
      (livesOf file).filter (fun life => life.1 = flow.id) = [(flow.id, true), (flow.id, false)]) ∧
    (session.traceTags = false → session.windowNs = 0 →
      ∀ (place : Nat) (flow : FlowState), flows[place]? = some flow →
        Alone (ids.map (flowUuid session.salt)) place →
        events.filter (fun event => event.track = flowUuid session.salt flow.id) =
          [flowSlice session.salt flow.id, flowSliceEnd session.salt flow.id]) ∧
    (∀ earlier later, inputs = earlier ++ later →
      let before := (captured session earlier).state.flows
      before.map FlowState.id <+: ids ∧
        ∀ (place : Nat) (flow : FlowState), before[place]? = some flow → flow.active = false →
          ∃ same, exporter.state.flows[place]? = some same ∧ same.id = flow.id ∧
            same.active = false) ∧
    ∀ record ∈ flowEnds file, record.Timely := by
  intro exporter flows ids file events
  have hfile : livesOf file =
      livesOf (closeTables session.toSession exporter.state clock.now).out := by
    show livesOf (_ ++ [_]) = _
    rw [livesOf_append]
    exact List.append_nil _
  obtain ⟨order, htells, hlife⟩ := finished_lives session inputs clock.now
  have hdraws (htags : session.traceTags = false) (hplain : session.windowNs = 0) :
      List.Forall₂ (Draws session.salt ids) events order := by
    show List.Forall₂ _ (flowBoundaries _) order
    rw [captureFile_plain_packets hplain, finished_flows htags, List.forall₂_map_left_iff]
    exact htells.imp fun life mark h => ⟨life.1, h.1, by rw [h.2]⟩
  have hid {place : Nat} {flow : FlowState} (hflow : flows[place]? = some flow) :
      ids[place]? = some flow.id := by
    show (flows.map FlowState.id)[place]? = _
    rw [List.getElem?_map, hflow]
    rfl
  have hlifeOf {place : Nat} {flow : FlowState} (hflow : flows[place]? = some flow) :
      lifeAt order place = [true, false] :=
    hlife place (List.getElem?_eq_some_iff.mp hflow).1
  refine ⟨⟨order, hfile ▸ htells, hdraws, hlife⟩, ?_, ?_, ?_, ?_⟩
  · intro place flow hflow halone
    obtain ⟨first, second, hseen, hfirst, hsecond⟩ := @alone_boundaries _ _ _ ids order place id
      Prod.fst _ _ htells (fun life mark h => by rw [h.1]; rfl) (by rwa [List.map_id])
      (hlifeOf hflow) flow.id (hid hflow)
    rw [hfile]
    obtain rfl : first = (flow.id, true) :=
      Prod.ext (Option.some_inj.mp (hfirst.1.symm.trans (hid hflow))) hfirst.2
    obtain rfl : second = (flow.id, false) :=
      Prod.ext (Option.some_inj.mp (hsecond.1.symm.trans (hid hflow))) hsecond.2
    exact hseen
  · intro htags hplain place flow hflow halone
    obtain ⟨first, second, hseen, ⟨firstId, hfirst, rfl⟩, ⟨secondId, hsecond, rfl⟩⟩ :=
      @alone_boundaries _ _ _ ids order place (flowUuid session.salt) TrackEvent.track _ _
        (hdraws htags hplain) (fun event mark ⟨flowId, hplace, hevent⟩ => by
          rw [hplace, hevent]
          unfold flowBoundary
          split <;> rfl) halone (hlifeOf hflow) flow.id (hid hflow)
    obtain rfl : firstId = flow.id := Option.some_inj.mp (hfirst.symm.trans (hid hflow))
    obtain rfl : secondId = flow.id := Option.some_inj.mp (hsecond.symm.trans (hid hflow))
    exact hseen
  · rintro earlier later rfl
    obtain ⟨hbefore, hclosed, hover⟩ := flows_remain session earlier later clock.now
    exact ⟨hbefore.trans hclosed, hover⟩
  · intro record hrecord
    have htimely := closeTables_timely session.toSession
      (captured_state session inputs ▸ reached_timely session.toSession _)
      (captured_coupled session inputs).sound clock.now
    refine htimely.ends record ?_
    have hends : flowEnds file =
        flowEnds (closeTables session.toSession exporter.state clock.now).out := by
      show flowEnds (_ ++ [_]) = _
      unfold flowEnds
      rw [List.filterMap_append]
      exact List.append_nil _
    rwa [← hends]

end Anettrace.Capture
