import Anettrace.Export.CallMoves

/-!
# The exporter follows its books

Every step of the exporter, and its closing, is a sequence of moves on sound books. The labels of
the moves agree with what the step is observed to do.
-/

namespace Anettrace.Export

open Library.Labelled Library.Run Library.Table

/-! ## Labels -/

def anchorsOf (labels : List Label) : List (UInt64 × Direction) :=
  labels.filterMap fun
    | .anchored flowId direction => some (flowId, direction)
    | _ => none

def endsOf (labels : List Label) : List FlowEnd :=
  labels.filterMap fun
    | .ended record => some record
    | _ => none

def acceptsOf (labels : List Label) : List UInt64 :=
  labels.filterMap fun
    | .accepted ioId => some ioId
    | _ => none

def exportsOf (labels : List Label) : List NetworkSyscall :=
  labels.filterMap fun
    | .exported record => some record
    | _ => none

def exportLabels (records : List NetworkSyscall) : List Label :=
  records.map Label.exported

section Projections

variable (anchors : List (UInt64 × Direction)) (ends : List FlowEnd) (ioIds : List UInt64)
  (exports : List NetworkSyscall) (first second : List Label)

@[simp] theorem anchorsOf_append :
    anchorsOf (first ++ second) = anchorsOf first ++ anchorsOf second :=
  List.filterMap_append

@[simp] theorem endsOf_append : endsOf (first ++ second) = endsOf first ++ endsOf second :=
  List.filterMap_append

@[simp] theorem acceptsOf_append :
    acceptsOf (first ++ second) = acceptsOf first ++ acceptsOf second :=
  List.filterMap_append

@[simp] theorem exportsOf_append :
    exportsOf (first ++ second) = exportsOf first ++ exportsOf second :=
  List.filterMap_append

@[simp] theorem projections_nil :
    anchorsOf [] = [] ∧ endsOf [] = [] ∧ acceptsOf [] = [] ∧ exportsOf [] = [] :=
  ⟨rfl, rfl, rfl, rfl⟩

theorem projections_anchorLabels :
    anchorsOf (anchorLabels anchors) = anchors ∧ endsOf (anchorLabels anchors) = [] ∧
      acceptsOf (anchorLabels anchors) = [] ∧ exportsOf (anchorLabels anchors) = [] := by
  induction anchors with
  | nil => exact projections_nil
  | cons anchor rest ih =>
      obtain ⟨hanchors, hends, haccepts, hexports⟩ := ih
      exact ⟨congrArg (anchor :: ·) hanchors, hends, haccepts, hexports⟩

theorem projections_endLabels :
    anchorsOf (endLabels ends) = [] ∧ endsOf (endLabels ends) = ends ∧
      acceptsOf (endLabels ends) = [] ∧ exportsOf (endLabels ends) = [] := by
  induction ends with
  | nil => exact projections_nil
  | cons record rest ih =>
      obtain ⟨hanchors, hends, haccepts, hexports⟩ := ih
      exact ⟨hanchors, congrArg (record :: ·) hends, haccepts, hexports⟩

theorem projections_acceptLabels :
    anchorsOf (acceptLabels ioIds) = [] ∧ endsOf (acceptLabels ioIds) = [] ∧
      acceptsOf (acceptLabels ioIds) = ioIds ∧ exportsOf (acceptLabels ioIds) = [] := by
  induction ioIds with
  | nil => exact projections_nil
  | cons ioId rest ih =>
      obtain ⟨hanchors, hends, haccepts, hexports⟩ := ih
      exact ⟨hanchors, hends, congrArg (ioId :: ·) haccepts, hexports⟩

theorem projections_exportLabels :
    anchorsOf (exportLabels exports) = [] ∧ endsOf (exportLabels exports) = [] ∧
      acceptsOf (exportLabels exports) = [] ∧ exportsOf (exportLabels exports) = exports := by
  induction exports with
  | nil => exact projections_nil
  | cons record rest ih =>
      obtain ⟨hanchors, hends, haccepts, hexports⟩ := ih
      exact ⟨hanchors, hends, haccepts, congrArg (record :: ·) hexports⟩

end Projections

/-! ## Records -/

def flowEnds (out : List Record) : List FlowEnd :=
  out.filterMap fun
    | .flowEnd record => some record
    | _ => none

def networkSyscalls (out : List Record) : List NetworkSyscall :=
  out.filterMap fun
    | .networkSyscall record => some record
    | _ => none

@[simp] theorem flowEnds_append (first second : List Record) :
    flowEnds (first ++ second) = flowEnds first ++ flowEnds second :=
  List.filterMap_append

@[simp] theorem networkSyscalls_append (first second : List Record) :
    networkSyscalls (first ++ second) = networkSyscalls first ++ networkSyscalls second :=
  List.filterMap_append

theorem Move.out {before after : Books} {labels : List Label} (h : Move before labels after) :
    ∃ records, after.out = before.out ++ records ∧ flowEnds records = endsOf labels ∧
      networkSyscalls records = exportsOf labels := by
  cases h with
  | anchor => exact ⟨[], (List.append_nil _).symm, rfl, rfl⟩
  | note | exportCall | openFlow | endFlow | beginCall | link | strayLink | endCall =>
      exact ⟨_, rfl, rfl, rfl⟩

theorem moves_out {before after : Books} {labels : List Label}
    (h : Moves Move before labels after) :
    ∃ records, after.out = before.out ++ records ∧ flowEnds records = endsOf labels ∧
      networkSyscalls records = exportsOf labels := by
  induction h with
  | refl => exact ⟨[], (List.append_nil _).symm, rfl, rfl⟩
  | tail _ hlast ih =>
      obtain ⟨first, hfirst, hends, hexports⟩ := ih
      obtain ⟨last, hlast, hlastEnds, hlastExports⟩ := hlast.out
      refine ⟨first ++ last, ?_, ?_, ?_⟩
      · rw [hlast, hfirst, List.append_assoc]
      · rw [flowEnds_append, endsOf_append, hends, hlastEnds]
      · rw [networkSyscalls_append, exportsOf_append, hexports, hlastExports]

/-! ## Syscalls -/

theorem moves_exports (books : Books) (records : List NetworkSyscall) :
    Moves Move books (exportLabels records)
      { books with out := books.out ++ records.map .networkSyscall } := by
  induction records generalizing books with
  | nil =>
      rw [List.map_nil, List.append_nil]
      exact Moves.refl books
  | cons record rest ih =>
      have hfirst : Move books [.exported record]
          { books with out := books.out ++ [.networkSyscall record] } := Move.exportCall record
      have hrest := ih { books with out := books.out ++ [.networkSyscall record] }
      have hall := (Moves.single hfirst).trans hrest
      simpa [exportLabels] using hall

theorem handleNetworkSyscall_writes (salt : UInt64) (state : State) (call : SyscallEvent) :
    ∃ records : List NetworkSyscall,
      (handleNetworkSyscall salt state call).flows = state.flows ∧
        (handleNetworkSyscall salt state call).ios = state.ios ∧
        (handleNetworkSyscall salt state call).out =
          state.out ++ records.map .networkSyscall := by
  have hnothing : state.out = state.out ++ ([] : List NetworkSyscall).map .networkSyscall := by
    rw [List.map_nil, List.append_nil]
  unfold handleNetworkSyscall
  split
  · exact ⟨[], rfl, rfl, hnothing⟩
  · split
    · split
      · exact ⟨_, rfl, rfl, rfl⟩
      · exact ⟨[], rfl, rfl, hnothing⟩
    · split
      · split
        · exact ⟨_, rfl, rfl, rfl⟩
        · exact ⟨[], rfl, rfl, hnothing⟩
      · exact ⟨_, rfl, rfl, rfl⟩

theorem handleNetworkSyscall_moves (salt : UInt64) (state : State) (call : SyscallEvent) :
    ∃ records, Moves Move state.books (exportLabels records)
      (handleNetworkSyscall salt state call).books := by
  obtain ⟨records, hflows, hios, hout⟩ := handleNetworkSyscall_writes salt state call
  refine ⟨records, ?_⟩
  simp only [State.books, hflows, hios, hout]
  exact moves_exports state.books records

/-! ## Steps -/

/-- The labels of the moves of a step say what the step is observed to do, and no step both counts
a packet and ends a flow. -/
structure Observed (session : Session) (state : State) (input : Input) (labels : List Label) :
    Prop where
  anchors : anchorsOf labels = attributed session state input
  accepts : acceptsOf labels = accepted session state input
  apart : endsOf labels = [] ∨ anchorsOf labels = []
  exports : (∀ call size, input ≠ .syscall call size) → exportsOf labels = []

/-- Silent moves are observed as nothing. -/
theorem Observed.nil {session : Session} {state : State} {input : Input}
    (hanchors : attributed session state input = [])
    (haccepts : accepted session state input = []) :
    Observed session state input [] :=
  ⟨hanchors.symm, haccepts.symm, Or.inl rfl, fun _ => rfl⟩

section

variable (session : Session) (state : State) (realloc : Realloc) (detail : DetailEvent)
  (trace : Trace)

theorem packetEvent_moves :
    Moves Move state.books (anchorLabels (anchored session state realloc detail trace))
      (packetEvent session state realloc detail trace).books := by
  have hflow := (flowFromPacket_moves session state realloc detail trace).books
  refine hflow.then_silent (exportPacketIoLink_moves session _ detail _ ?_)
  intro entry hentry
  obtain ⟨_, -, hmem⟩ := Option.bind_eq_some_iff.mp hentry
  exact List.mem_of_getElem? hmem

theorem socketEvent_moves :
    ∃ records, Moves Move state.books (endLabels records)
      (socketEvent session state realloc detail trace).books := by
  unfold socketEvent
  dsimp only
  cases hterminal : socketTraceTerminal trace with
  | false =>
      rw [if_neg Bool.false_ne_true]
      refine ⟨[], ?_⟩
      split
      · exact (flowFromSocket_moves session state realloc.flow detail detail.ts).books
      · exact Moves.refl _
  | true =>
      rw [if_pos rfl, if_neg (by simp)]
      obtain ⟨records, hmoves⟩ := finishFlows_moves state
        (fun flow => flow.socketId = detailSocketInstanceId session.salt detail)
        (fun _ => detail.ts) .socketDestroy false
      exact ⟨records, hmoves.books⟩

end

/-- A record that starts with a `detail_event_t` as moves. -/
theorem exportEvent_moves {session : Session} {state : State} (hsound : state.books.Sound)
    (sample : Sample) (cpu : Int) (realloc : Realloc) :
    ∃ labels, Moves Move state.books labels (exportEvent session state sample cpu realloc).books ∧
      Observed session state (.event sample cpu realloc) labels := by
  have hobserved {labels : List Label} (hbranch : attributed session state
      (.event sample cpu realloc) = anchorsOf labels)
      (haccepts : accepted session state (.event sample cpu realloc) = acceptsOf labels)
      (hapart : endsOf labels = [] ∨ anchorsOf labels = []) (hexports : exportsOf labels = []) :
      Observed session state (.event sample cpu realloc) labels :=
    ⟨hbranch.symm, haccepts.symm, hapart, fun _ => hexports⟩
  unfold exportEvent
  unfold attributed accepted at hobserved
  cases hbranch : branch session sample with
  | ignored =>
      simp only [hbranch] at hobserved ⊢
      exact ⟨[], Moves.refl _, hobserved rfl rfl (Or.inl rfl) rfl⟩
  | lifecycle =>
      simp only [hbranch] at hobserved ⊢
      exact ⟨[], Moves.refl _, hobserved rfl rfl (Or.inl rfl) rfl⟩
  | returned =>
      simp only [hbranch] at hobserved ⊢
      exact ⟨[], pendingIoFinish_books session hsound _ _ _ _, hobserved rfl rfl (Or.inl rfl) rfl⟩
  | hidden trace =>
      simp only [hbranch] at hobserved ⊢
      obtain ⟨hanchors, hends, haccepts, hexports⟩ :=
        projections_anchorLabels (anchored session state realloc sample.detail trace)
      exact ⟨_, packetEvent_moves session state realloc sample.detail trace,
        hobserved hanchors.symm haccepts.symm (Or.inl hends) hexports⟩
  | packet trace =>
      simp only [hbranch] at hobserved ⊢
      obtain ⟨hanchors, hends, haccepts, hexports⟩ :=
        projections_anchorLabels (anchored session state realloc sample.detail trace)
      exact ⟨_, packetEvent_moves session state realloc sample.detail trace,
        hobserved hanchors.symm haccepts.symm (Or.inl hends) hexports⟩
  | io trace =>
      simp only [hbranch] at hobserved ⊢
      obtain ⟨hanchors, hends, haccepts, hexports⟩ :=
        projections_acceptLabels (acceptedIn session state realloc sample.detail trace)
      exact ⟨_, pendingIoStart_moves hsound realloc sample.detail trace cpu,
        hobserved hanchors.symm haccepts.symm (Or.inl hends) hexports⟩
  | socket trace =>
      simp only [hbranch] at hobserved ⊢
      obtain ⟨records, hmoves⟩ := socketEvent_moves session state realloc sample.detail trace
      obtain ⟨hanchors, hends, haccepts, hexports⟩ := projections_endLabels records
      exact ⟨_, hmoves, hobserved hanchors.symm haccepts.symm (Or.inr hanchors) hexports⟩

theorem exportRet_moves {session : Session} {state : State} (hsound : state.books.Sound)
    (event : RetEvent) (size : UInt32) :
    Moves Move state.books [] (exportRet session state event size).books := by
  unfold exportRet
  split
  · exact Moves.refl _
  · exact pendingIoFinish_books session hsound _ _ _ _

theorem tick_moves (state : State) (now : UInt64) :
    ∃ records, Moves Move state.books (endLabels records) (tick state now).books := by
  unfold tick
  split
  · exact ⟨[], Moves.refl _⟩
  · obtain ⟨records, hmoves⟩ := finishFlows_moves state _
      (fun flow => flow.lastTs + udpFlowIdleNs) .idleTimeout true
    exact ⟨records, hmoves.books⟩

/-- One call of an entry point as moves. -/
theorem step_moves {session : Session} {state : State} (hsound : state.books.Sound)
    (input : Input) :
    ∃ labels, Moves Move state.books labels (step session state input).books ∧
      Observed session state input labels := by
  cases input with
  | ret event size =>
      exact ⟨[], exportRet_moves hsound event size, Observed.nil rfl rfl⟩
  | event sample cpu realloc => exact exportEvent_moves hsound sample cpu realloc
  | syscall call size =>
      unfold step
      dsimp only
      split
      · exact ⟨[], Moves.refl _, Observed.nil rfl rfl⟩
      · obtain ⟨records, hmoves⟩ := handleNetworkSyscall_moves session.salt state call
        obtain ⟨hanchors, hends, haccepts, hexports⟩ := projections_exportLabels records
        exact ⟨_, hmoves, hanchors, haccepts, Or.inl hends,
          fun hother => absurd rfl (hother call size)⟩
  | diagnostic => exact ⟨[], Moves.refl _, Observed.nil rfl rfl⟩
  | lost count => exact ⟨[], Moves.refl _, Observed.nil rfl rfl⟩
  | queueLost count => exact ⟨[], Moves.refl _, Observed.nil rfl rfl⟩
  | markCaptureEnd now =>
      unfold step
      dsimp only
      split <;> exact ⟨[], Moves.refl _, Observed.nil rfl rfl⟩
  | tick now =>
      obtain ⟨records, hmoves⟩ := tick_moves state now
      obtain ⟨hanchors, hends, haccepts, hexports⟩ := projections_endLabels records
      exact ⟨_, hmoves, hanchors, haccepts, Or.inr hanchors, fun _ => hexports⟩

/-! ## Runs -/

@[simp] theorem reached_concat (session : Session) (inputs : List Input) (input : Input) :
    reached session (inputs ++ [input]) = step session (reached session inputs) input :=
  run_concat _ _ _ _

theorem moves_sound {before after : Books} {labels : List Label} (hsound : before.Sound)
    (h : Moves Move before labels after) : after.Sound :=
  h.preserve Books.Sound (fun hbefore hmove => hmove.sound hbefore) hsound

theorem reached_sound (session : Session) (inputs : List Input) :
    (reached session inputs).books.Sound := by
  have hstep (state : State) (input : Input) (hsound : state.books.Sound) :
      (step session state input).books.Sound := by
    obtain ⟨labels, hmoves, -⟩ := step_moves hsound input
    exact moves_sound hsound hmoves
  exact @run_invariant _ _ (step session) State.init (fun state => state.books.Sound)
    Books.sound_empty hstep inputs

/-- The moves of a run, whose labels say what the run is observed to do. -/
structure RunMoves (session : Session) (inputs : List Input) (labels : List Label) : Prop where
  moves : Moves Move Books.empty labels (reached session inputs).books
  anchors : anchorsOf labels = attributions session inputs
  accepts : acceptsOf labels = acceptances session inputs

theorem RunMoves.concat {session : Session} {inputs : List Input} {input : Input}
    {labels more : List Label} (h : RunMoves session inputs labels)
    (hmoves : Moves Move (reached session inputs).books more
      (step session (reached session inputs) input).books)
    (hobserved : Observed session (reached session inputs) input more) :
    RunMoves session (inputs ++ [input]) (labels ++ more) := by
  refine ⟨?_, ?_, ?_⟩
  · rw [reached_concat]
    exact h.moves.trans hmoves
  · rw [anchorsOf_append, h.anchors, hobserved.anchors]
    exact (observations_concat _ _).symm
  · rw [acceptsOf_append, h.accepts, hobserved.accepts]
    exact (observations_concat _ _).symm

theorem RunMoves.nil (session : Session) : RunMoves session [] [] :=
  ⟨Moves.refl _, rfl, rfl⟩

theorem reached_moves (session : Session) (inputs : List Input) :
    ∃ labels, RunMoves session inputs labels := by
  induction inputs using List.reverseRecOn with
  | nil => exact ⟨[], RunMoves.nil session⟩
  | append_singleton history input ih =>
      obtain ⟨labels, hlabels⟩ := ih
      obtain ⟨more, hmoves, hobserved⟩ := step_moves (reached_sound session history) input
      exact ⟨labels ++ more, hlabels.concat hmoves hobserved⟩

/-! ## Closing -/

section

variable (session : Session) {state : State} (hsound : state.books.Sound)
include hsound

/-- The loop over the calls in progress, as moves. -/
theorem closeIos_moves (endTs : UInt64) :
    Moves Move state.books [] (closeIos session state endTs).books := by
  unfold closeIos
  generalize List.range state.ios.length = places
  induction places generalizing state with
  | nil => exact Moves.refl _
  | cons place rest ih =>
      rw [List.foldl_cons]
      have hfirst := pendingIoFinish_books session hsound (some place) endTs 0 true
      exact hfirst.silent_then (ih (moves_sound hsound hfirst))

/-- The loop over the calls in progress leaves none. -/
theorem closeIos_ended (endTs : UInt64) :
    ∀ pending ∈ (closeIos session state endTs).ios, pending.active = false := by
  intro pending hpending
  refine foldl_range_length State.ios (fun state => state.books.Sound)
    (fun pending => pending.active = false) ?_ ?_ hsound hpending
  · intro state place hsound
    exact moves_sound hsound (pendingIoFinish_books session hsound (some place) endTs 0 true)
  · intro state place hsound j entry hentry
    by_cases hactive : ∃ pending, state.ios[place]? = some pending ∧ pending.active = true
    · obtain ⟨old, hold, holdActive⟩ := hactive
      obtain ⟨flowId, _, _, hios, -⟩ :=
        (pendingIoFinish_moves session hsound hold holdActive endTs 0 true).spec
      rw [hios] at hentry
      obtain ⟨rfl, rfl⟩ | ⟨hne, hsame⟩ := getElem?_set_cases hentry
      · rw [if_pos rfl]
      · rw [if_neg hne]
        exact hsame
    · have hended (pending : PendingIo) (hpending : state.ios[place]? = some pending) :
          pending.active = false :=
        Bool.eq_false_iff.mpr fun h => hactive ⟨pending, hpending, h⟩
      rw [pendingIoFinish_inactive hended] at hentry
      split
      case isTrue heq => exact hended entry (heq ▸ hentry)
      case isFalse => exact hentry

/-- `perfetto_export_close` as moves: no packet is counted and no call begins, and in the end none
is in progress. -/
theorem closeTables_moves (now : UInt64) :
    (∃ exports ends, Moves Move state.books (exportLabels exports ++ endLabels ends)
      (closeTables session state now).books) ∧
      ∀ pending ∈ (closeTables session state now).ios, pending.active = false := by
  unfold closeTables
  dsimp only
  have hios := closeIos_moves session hsound (closeTime state now)
  have hended := closeIos_ended session hsound (closeTime state now)
  generalize closeIos session state (closeTime state now) = settled at *
  have hsyscalls : Moves Move settled.books _ (closeSyscalls session settled
      (closeTime state now)).books := moves_exports settled.books
    (settled.syscalls.flatMap (closeSlot session.salt (closeTime state now) settled))
  obtain ⟨ends, hends⟩ := finishFlows_moves (closeSyscalls session settled (closeTime state now))
    (fun _ => true) (fun _ => closeTime state now) .traceEnd true
  refine ⟨⟨_, ends, hios.silent_then (hsyscalls.trans hends.books)⟩, ?_⟩
  rw [hends.ios]
  exact hended

end

/-- After the close no flow is in progress. -/
theorem closeTables_ended (session : Session) (state : State) (now : UInt64) :
    ∀ flow ∈ (closeTables session state now).flows, flow.active = false := by
  intro flow hflow
  refine foldl_range_length State.flows (fun _ => True) (fun flow => flow.active = false)
    (fun _ _ _ => trivial) ?_ trivial hflow
  intro current place _ j entry hentry
  cases hold : current.flows[place]? with
  | none =>
      rw [updateFlow_none hold] at hentry
      split
      case isTrue heq =>
        rw [heq, hold] at hentry
        cases hentry
      case isFalse => exact hentry
  | some old =>
      rw [updateFlow_some hold] at hentry
      obtain ⟨rfl, rfl⟩ | ⟨hne, hsame⟩ := getElem?_set_cases hentry
      · rw [if_pos rfl, if_pos rfl]
        cases hactive : old.active with
        | false =>
            rw [flowFinish_inactive hactive]
            exact hactive
        | true =>
            have haccount := (flowFinish_active hactive (closeTime state now) .traceEnd true).1
            exact congrArg Account.active haccount
      · rw [if_neg hne]
        exact hsame

end Anettrace.Export
