import Anettrace.ConnectReport.Attempts
import Anettrace.Library.Interleaving

/-!
# Attempts do not interfere

The records of several connect attempts come interleaved, and `build_attempts` keeps all attempts in
two dictionaries. A record still reaches its own attempt only: an attempt is reported as if its
records and the end of the trace were the only input, and the analysis fails exactly when it fails
for one of them.
-/

namespace Anettrace.ConnectReport

open Library Fallible Interleaving
open Diagnose (ReportStatus)

/-- An attempt of a set of attempts: its id and its sockets. -/
structure Owner where
  attemptId : String
  sockets : String → Bool

/-- A record names an attempt by its id, or else by one of its sockets. -/
def Owner.names (owner : Owner) (record : Record) : Bool :=
  if record.attemptKey ≠ "" then record.attemptKey = owner.attemptId
  else record.socketKey ≠ "" && owner.sockets record.socketKey

/-- The records of an attempt: its start, the association of a socket of its own, and the records of
any other type that name it. The clocks and the end of the trace belong to no attempt. -/
def Owner.owns (owner : Owner) (record : Record) : Bool :=
  !record.isType "clock_snapshot" && !record.isType "trace_end" &&
    if record.isType "connect_attempt_start" then
      (record.get "attempt_id").any fun value => value.text = owner.attemptId
    else
      owner.names record && (!record.isType "connect_socket" ||
        (record.get "socket_instance_id").all fun value => owner.sockets value.text)

def Owner.inputs (owner : Owner) (traceEnd : Record) (records : List Record) : List Record :=
  records.filter fun record => owner.owns record || record = traceEnd

/-- Attempts with pairwise different ids and disjoint sockets. -/
structure Apart {ι : Type*} (owners : ι → Owner) : Prop where
  ids : ∀ i j, (owners i).attemptId = (owners j).attemptId → i = j
  sockets : ∀ i j socketId, (owners i).sockets socketId = true →
    (owners j).sockets socketId = true → i = j

/-- An interleaving of the records of several attempts with the end of the trace. -/
structure Interleaved {ι : Type*} (owners : ι → Owner) (traceEnd : Record) (records : List Record) :
    Prop where
  apart : Apart owners
  isEnd : traceEnd.isType "trace_end" = true
  endNs : ∃ tsNs, tsNs ≠ 0 ∧ traceEnd.getInt "ts_ns" 0 = .ok tsNs
  unnamed : ∀ i, (owners i).names traceEnd = false
  ends : traceEnd ∈ records
  owned : ∀ record ∈ records, record = traceEnd ∨ ∃ i, (owners i).owns record = true

/-! ## Steps on a record of an attempt -/

/-- What a record of an attempt does to the attempts of the analysis. -/
inductive Change (owner : Owner) (builder next : Builder) : Prop
  | stay (hattempts : next.attempts = builder.attempts) (hsockets : next.sockets = builder.sockets)
  | start (attempt : Attempt) (hid : attempt.attemptId = owner.attemptId)
      (hattempts : next.attempts = builder.attempts ++ [attempt])
      (hsockets : next.sockets = builder.sockets)
  | store (attempt : Attempt) (hid : attempt.attemptId = owner.attemptId)
      (hattempts : next.attempts = (builder.store attempt).attempts)
      (hsockets : next.sockets = builder.sockets)
  | bind (attempt : Attempt) (socketId : String) (hid : attempt.attemptId = owner.attemptId)
      (hsocket : owner.sockets socketId = true)
      (hattempts : next.attempts = (builder.store attempt).attempts)
      (hsockets : next.sockets = builder.sockets.put socketId attempt.attemptId)

/-- The attempts of an analysis are those of a set of attempts, and sockets lead to their owners. -/
structure Known {ι : Type*} (owners : ι → Owner) (builder : Builder) : Prop where
  attempts : ∀ attempt ∈ builder.attempts, ∃ i, attempt.attemptId = (owners i).attemptId
  once : (builder.attempts.map Attempt.attemptId).Nodup
  sockets : ∀ socketId attemptId, builder.sockets socketId = some attemptId →
    ∃ i, (owners i).sockets socketId = true ∧ attemptId = (owners i).attemptId

section Records

variable {ι : Type*} {owners : ι → Owner} {owner : Owner} {builder next : Builder} {record : Record}

theorem Owner.owns_types (h : owner.owns record = true) :
    record.isType "clock_snapshot" = false ∧ record.isType "trace_end" = false := by
  unfold owns at h
  rw [Bool.and_eq_true, Bool.and_eq_true, Bool.not_eq_true', Bool.not_eq_true'] at h
  exact h.1

theorem Owner.owns_start (h : owner.owns record = true)
    (hstart : record.isType "connect_attempt_start" = true) :
    record.needText "attempt_id" = .ok owner.attemptId := by
  unfold owns at h
  rw [if_pos hstart, Bool.and_eq_true, Option.any_eq_true] at h
  obtain ⟨-, value, hget, hid⟩ := h
  unfold Record.needText
  rw [hget, ← of_decide_eq_true hid]

theorem Owner.owns_other (h : owner.owns record = true)
    (hstart : ¬record.isType "connect_attempt_start" = true) :
    owner.names record = true ∧ (record.isType "connect_socket" = true →
      ∀ socketId, record.needText "socket_instance_id" = .ok socketId →
        owner.sockets socketId = true) := by
  unfold owns at h
  rw [if_neg hstart, Bool.and_eq_true, Bool.and_eq_true (owner.names record)] at h
  refine ⟨h.2.1, fun hsocket socketId hid => ?_⟩
  have hall := h.2.2
  unfold Record.needText at hid
  rw [hsocket, Bool.not_true, Bool.false_or] at hall
  cases hget : record.get "socket_instance_id" with
  | none =>
      rw [hget] at hid
      cases hid
  | some value =>
      rw [hget] at hid hall
      cases hid
      exact hall

theorem Known.recordAttempt (hknown : Known owners builder) (hapart : Apart owners) {i : ι}
    (hnames : (owners i).names record = true) {attempt : Attempt}
    (h : builder.recordAttempt record = some attempt) :
    attempt.attemptId = (owners i).attemptId := by
  unfold Builder.recordAttempt at h
  unfold Owner.names at hnames
  by_cases hkey : record.attemptKey ≠ ""
  case pos =>
    rw [if_pos hkey] at h hnames
    exact (Builder.find_some h).trans (of_decide_eq_true hnames)
  case neg =>
    rw [if_neg hkey, Bool.and_eq_true] at hnames
    rw [if_neg hkey, if_pos (of_decide_eq_true hnames.1), Option.bind_eq_some_iff] at h
    obtain ⟨attemptId, hsocket, hfind⟩ := h
    obtain ⟨j, hj, rfl⟩ := hknown.sockets record.socketKey attemptId hsocket
    rw [Builder.find_some hfind, hapart.sockets i j record.socketKey hnames.2 hj]

theorem observe_change (hknown : Known owners builder) (hapart : Apart owners) {i : ι}
    (howns : (owners i).owns record = true) (h : builder.observe record = .ok next) :
    Change (owners i) builder next := by
  cases (Builder.observe_step h).1 with
  | other hstart hnone hattempts hsockets => exact .stay hattempts hsockets
  | start attempt hstart hid hfree hasync hattempts hsockets =>
      rw [Owner.owns_start howns hstart] at hid
      exact .start attempt (Except.ok.inj hid).symm hattempts hsockets
  | take attempt after hstart hfound hobserved hassigned hattempts hsockets =>
      have hnames := (Owner.owns_other howns hstart).1
      have hid := hobserved.attemptId.trans (hknown.recordAttempt hapart hnames hfound)
      exact .store after hid hattempts hsockets
  | bind attempt after socketId hstart hfound hobserved hassigned hsocket hsocketId
      hattempts hsockets =>
      obtain ⟨hnames, hown⟩ := Owner.owns_other howns hstart
      have hid := hobserved.attemptId.trans (hknown.recordAttempt hapart hnames hfound)
      exact .bind after socketId hid (hown hsocket socketId hsocketId) hattempts hsockets

/-! ## What the attempts know -/

theorem Known.init : Known owners .init where
  attempts := fun _ hmem => nomatch hmem
  once := List.nodup_nil
  sockets := fun _ _ h => nomatch h

theorem Builder.store_filter (builder : Builder) (attempt : Attempt) (attemptId : String) :
    ((builder.store attempt).attempts.filter fun other => other.attemptId = attemptId) =
      (builder.attempts.filter fun other => other.attemptId = attemptId).map fun other =>
        if other.attemptId = attempt.attemptId then attempt else other := by
  unfold store
  dsimp only
  rw [List.filter_map]
  refine congrArg _ (List.filter_congr fun other _ => ?_)
  dsimp only [Function.comp_apply]
  split
  case isTrue hsame => rw [hsame]
  case isFalse => rfl

theorem Known.store (h : Known owners builder) (attempt : Attempt) :
    ∀ other ∈ (builder.store attempt).attempts, ∃ i, other.attemptId = (owners i).attemptId := by
  intro other hmem
  have hid := List.mem_map_of_mem (f := Attempt.attemptId) hmem
  rw [Builder.store_ids] at hid
  obtain ⟨old, hold, heq⟩ := List.mem_map.mp hid
  rw [← heq]
  exact h.attempts old hold

/-- A record of an owner keeps the attempts known. -/
theorem Known.observe (h : Known owners builder) (hapart : Apart owners) {i : ι}
    (howns : (owners i).owns record = true) (hnext : builder.observe record = .ok next) :
    Known owners next := by
  have honce := (Builder.observe_step hnext).1.once h.once
  cases observe_change h hapart howns hnext with
  | stay hattempts hsockets => exact ⟨hattempts ▸ h.attempts, honce, hsockets ▸ h.sockets⟩
  | start attempt hid hattempts hsockets =>
      refine ⟨fun other hmem => ?_, honce, hsockets ▸ h.sockets⟩
      rw [hattempts] at hmem
      rcases List.mem_append.mp hmem with hold | hnew
      · exact h.attempts other hold
      · rw [List.mem_singleton.mp hnew]
        exact ⟨i, hid⟩
  | store attempt hid hattempts hsockets =>
      exact ⟨hattempts ▸ h.store attempt, honce, hsockets ▸ h.sockets⟩
  | bind attempt socketId hid hsocket hattempts hsockets =>
      refine ⟨hattempts ▸ h.store attempt, honce, fun other attemptId hfound => ?_⟩
      rw [hsockets] at hfound
      rcases Keyed.put_cases hfound with ⟨rfl, rfl⟩ | ⟨-, hold⟩
      · exact ⟨i, hsocket, hid⟩
      · exact h.sockets other attemptId hold

theorem Known.ended (h : Known owners builder) (tsNs : Int) :
    Known owners { builder with captureEndNs := tsNs } :=
  ⟨h.attempts, h.once, h.sockets⟩

/-! ## The whole and one attempt by itself -/

/-- An attempt by itself has what the whole has for it. -/
structure SameFor (owner : Owner) (whole alone : Builder) : Prop where
  attempts : alone.attempts =
    whole.attempts.filter fun attempt => attempt.attemptId = owner.attemptId
  sockets : ∀ socketId, owner.sockets socketId = true →
    whole.sockets socketId = alone.sockets socketId
  captureEndNs : whole.captureEndNs = alone.captureEndNs

variable {whole alone : Builder}

theorem SameFor.find (h : SameFor owner whole alone) :
    whole.find owner.attemptId = alone.find owner.attemptId := by
  unfold Builder.find
  simp [h.attempts, List.find?_filter]

theorem SameFor.store (h : SameFor owner whole alone) (attempt : Attempt) :
    SameFor owner (whole.store attempt) (alone.store attempt) where
  attempts := by
    rw [whole.store_filter attempt owner.attemptId, ← h.attempts]
    rfl
  sockets := h.sockets
  captureEndNs := h.captureEndNs

theorem SameFor.start (h : SameFor owner whole alone) {attempt : Attempt}
    (hid : attempt.attemptId = owner.attemptId) :
    SameFor owner { whole with attempts := whole.attempts ++ [attempt] }
      { alone with attempts := alone.attempts ++ [attempt] } where
  attempts := by
    dsimp only
    rw [List.filter_append, h.attempts, List.filter_cons_of_pos (by rw [decide_eq_true_eq, hid])]
    rfl
  sockets := h.sockets
  captureEndNs := h.captureEndNs

/-- A socket is bound in both. -/
theorem SameFor.bind (h : SameFor owner whole alone) (socketId attemptId : String) :
    SameFor owner { whole with sockets := whole.sockets.put socketId attemptId }
      { alone with sockets := alone.sockets.put socketId attemptId } where
  attempts := h.attempts
  sockets := fun other hother => by
    by_cases hsame : other = socketId
    case pos => rw [hsame, Keyed.put_same, Keyed.put_same]
    case neg => rw [Keyed.put_other _ hsame, Keyed.put_other _ hsame, h.sockets other hother]
  captureEndNs := h.captureEndNs

/-- A record of another attempt leaves an attempt as it is. -/
theorem SameFor.other (h : SameFor owner whole alone) {other : Owner}
    (hids : other.attemptId ≠ owner.attemptId)
    (hsockets : ∀ socketId, other.sockets socketId = true → owner.sockets socketId = false)
    (hchange : Change other whole next) (hend : next.captureEndNs = whole.captureEndNs) :
    SameFor owner next alone := by
  have hstore {attempt : Attempt} (hid : attempt.attemptId = other.attemptId) : alone.attempts =
      (whole.store attempt).attempts.filter fun one => one.attemptId = owner.attemptId := by
    have hleft : ∀ one ∈ whole.attempts.filter fun one => one.attemptId = owner.attemptId,
        (if one.attemptId = attempt.attemptId then attempt else one) = one := by
      intro one hmem
      have hone : one.attemptId = owner.attemptId := of_decide_eq_true (List.mem_filter.mp hmem).2
      rw [if_neg]
      rw [hone, hid]
      exact hids.symm
    rw [whole.store_filter attempt owner.attemptId, List.map_congr_left hleft,
      List.map_id', h.attempts]
  have hended := hend.trans h.captureEndNs
  cases hchange with
  | stay hattempts hsame => exact ⟨hattempts ▸ h.attempts, hsame ▸ h.sockets, hended⟩
  | start attempt hid hattempts hsame =>
      refine ⟨?_, hsame ▸ h.sockets, hended⟩
      rw [hattempts, List.filter_append, h.attempts, List.filter_cons_of_neg, List.filter_nil,
        List.append_nil]
      rw [decide_eq_true_eq, hid]
      exact hids
  | store attempt hid hattempts hsame =>
      exact ⟨hattempts ▸ hstore hid, hsame ▸ h.sockets, hended⟩
  | bind attempt socketId hid hsocket hattempts hput =>
      refine ⟨hattempts ▸ hstore hid, fun one hone => ?_, hended⟩
      have hne : one ≠ socketId := by
        rintro rfl
        rw [hsockets one hsocket] at hone
        cases hone
      rw [hput, Keyed.put_other _ hne, h.sockets one hone]

/-- A record of an attempt is looked up alike. -/
theorem SameFor.recordAttempt (h : SameFor owner whole alone) (hnames : owner.names record = true)
    (hbound : ∀ socketId attemptId, owner.sockets socketId = true →
      alone.sockets socketId = some attemptId → attemptId = owner.attemptId) :
    whole.recordAttempt record = alone.recordAttempt record := by
  unfold Owner.names at hnames
  unfold Builder.recordAttempt
  by_cases hkey : record.attemptKey ≠ ""
  case pos =>
    rw [if_pos hkey] at hnames ⊢
    rw [if_pos hkey, of_decide_eq_true hnames]
    exact h.find
  case neg =>
    rw [if_neg hkey, Bool.and_eq_true] at hnames
    obtain ⟨hsocketKey, hsocket⟩ := hnames
    rw [if_neg hkey, if_neg hkey, if_pos (of_decide_eq_true hsocketKey),
      if_pos (of_decide_eq_true hsocketKey), h.sockets record.socketKey hsocket]
    cases hfound : alone.sockets record.socketKey with
    | none => rfl
    | some attemptId =>
        rw [hbound record.socketKey attemptId hsocket hfound]
        exact h.find

theorem SameFor.own (h : SameFor owner whole alone) (howns : owner.owns record = true)
    (hbound : ∀ socketId attemptId, owner.sockets socketId = true →
      alone.sockets socketId = some attemptId → attemptId = owner.attemptId) :
    Agree (SameFor owner) (whole.observe record) (alone.observe record) := by
  obtain ⟨hclock, hend⟩ := Owner.owns_types howns
  unfold Builder.observe
  rw [whole.observeClock_other hclock, alone.observeClock_other hclock]
  change Agree _ (if _ then _ else _) (if _ then _ else _)
  by_cases hstart : record.isType "connect_attempt_start" = true
  case pos =>
    rw [if_pos hstart, if_pos hstart]
    refine Agree.bind _ fun attemptId hid => ?_
    rw [Owner.owns_start howns hstart] at hid
    cases hid
    rw [h.find]
    split
    case isTrue => exact .errors _ _
    case isFalse =>
      refine Agree.bind _ fun attempt hattempt => ?_
      exact .states (h.start (Attempt.started_new hattempt |>.1))
  case neg =>
    obtain ⟨hnames, hsockets⟩ := Owner.owns_other howns hstart
    rw [if_neg hstart, if_neg hstart, h.recordAttempt hnames hbound]
    cases alone.recordAttempt record with
    | none =>
        simp only [Builder.observeOther, hend, Bool.false_eq_true, if_false]
        exact .states h
    | some attempt =>
        refine Agree.bind _ fun between _ => ?_
        split
        case isTrue hsocket =>
          refine Agree.bind _ fun socketId hsocketId => ?_
          rw [h.sockets socketId (hsockets hsocket socketId hsocketId)]
          split
          case isTrue => exact .errors _ _
          case isFalse => exact .states ((h.store _).bind socketId between.attemptId)
        case isFalse => exact Agree.bind _ fun after _ => .states (h.store after)

theorem Known.unnamed (h : Known owners builder) (hunnamed : ∀ i, (owners i).names record = false) :
    builder.recordAttempt record = none := by
  unfold Builder.recordAttempt
  by_cases hkey : record.attemptKey ≠ ""
  case pos =>
    rw [if_pos hkey]
    cases hfound : builder.find record.attemptKey with
    | none => rfl
    | some attempt =>
        obtain ⟨i, hi⟩ := h.attempts attempt (List.mem_of_find?_eq_some hfound)
        have hnot := hunnamed i
        unfold Owner.names at hnot
        rw [if_pos hkey] at hnot
        exact absurd ((Builder.find_some hfound).symm.trans hi) (of_decide_eq_false hnot)
  case neg =>
    rw [if_neg hkey]
    by_cases hsocketKey : record.socketKey ≠ ""
    case neg => rw [if_neg hsocketKey]
    case pos =>
      rw [if_pos hsocketKey]
      cases hfound : builder.sockets record.socketKey with
      | none => rfl
      | some attemptId =>
          obtain ⟨i, hi, -⟩ := h.sockets record.socketKey attemptId hfound
          have hnot := hunnamed i
          unfold Owner.names at hnot
          rw [if_neg hkey, hi, Bool.and_true] at hnot
          exact absurd hsocketKey (of_decide_eq_false hnot)

end Records

/-! ## Runs -/

section Runs

variable {ι : Type*} {owners : ι → Owner} {traceEnd : Record} {records : List Record}

/-- What an attempt by itself has in common with the whole, at any point of a run. -/
def Shared (owners : ι → Owner) (i : ι) (whole alone : Builder) : Prop :=
  Known owners whole ∧ Known owners alone ∧ SameFor (owners i) whole alone

section

variable (h : Interleaved owners traceEnd records)
include h

theorem Interleaved.observe_traceEnd {tsNs : Int} (htsNs : traceEnd.getInt "ts_ns" 0 = .ok tsNs)
    {builder : Builder} (hknown : Known owners builder) :
    builder.observe traceEnd = .ok { builder with captureEndNs := tsNs } := by
  have hother {name : String} (hne : name ≠ "trace_end") : traceEnd.isType name = false :=
    Record.isType_other h.isEnd hne
  unfold Builder.observe
  rw [builder.observeClock_other (hother (by decide))]
  change (if _ then _ else _) = _
  rw [if_neg (by rw [hother (by decide)]; exact Bool.false_ne_true), hknown.unnamed h.unnamed]
  change (if _ then _ else _) = _
  rw [if_pos h.isEnd, htsNs]
  rfl

theorem Interleaved.separates :
    Separates Builder.observe (fun i record => (owners i).owns record || record = traceEnd)
      (Shared owners) where
  own := by
    rintro i record whole alone hsees ⟨hwhole, halone, hsame⟩
    rcases Bool.or_eq_true_iff.mp hsees with howns | hend
    · have hagree := hsame.own howns fun socketId attemptId hsocket hfound => by
        obtain ⟨j, hj, heq⟩ := halone.sockets socketId attemptId hfound
        rw [heq, h.apart.sockets i j socketId hsocket hj]
      refine hagree.mono fun next own hnext hown hboth => ⟨?_, ?_, hboth⟩
      · exact hwhole.observe h.apart howns hnext
      · exact halone.observe h.apart howns hown
    · obtain rfl := of_decide_eq_true hend
      obtain ⟨tsNs, -, htsNs⟩ := h.endNs
      rw [h.observe_traceEnd htsNs hwhole, h.observe_traceEnd htsNs halone]
      exact .states ⟨hwhole.ended tsNs, halone.ended tsNs, hsame.attempts, hsame.sockets, rfl⟩
  other := by
    rintro i j record whole next alone hj hi ⟨hwhole, halone, hsame⟩ hnext
    obtain ⟨hi, hend⟩ := Bool.or_eq_false_iff.mp hi
    rw [hend, Bool.or_false] at hj
    have hne : j ≠ i := by
      rintro rfl
      exact Bool.noConfusion (hj.symm.trans hi)
    have hchange := observe_change hwhole h.apart hj hnext
    refine ⟨hwhole.observe h.apart hj hnext, halone, hsame.other ?_ ?_ hchange
      ((Builder.observe_step hnext).2 (Owner.owns_types hj).2)⟩
    · exact fun hid => hne (h.apart.ids j i hid)
    · intro socketId hsocket
      rw [Bool.eq_false_iff]
      exact fun hboth => hne (h.apart.sockets j i socketId hsocket hboth)

theorem Interleaved.captureEndNs {tsNs : Int} (htsNs : traceEnd.getInt "ts_ns" 0 = .ok tsNs)
    {builder : Builder} (hrun : records.foldlM Builder.observe .init = .ok builder) :
    builder.captureEndNs = tsNs := by
  have hstep (state : Builder) (record : Record) (next : Builder) (hmem : record ∈ records)
      (hknown : Known owners state) (hnext : state.observe record = .ok next) :
      Known owners next ∧ (state.captureEndNs = tsNs → next.captureEndNs = tsNs) := by
    rcases h.owned record hmem with rfl | ⟨i, howns⟩
    · rw [h.observe_traceEnd htsNs hknown] at hnext
      cases hnext
      exact ⟨hknown.ended tsNs, fun _ => rfl⟩
    · have hsame := (Builder.observe_step hnext).2 (Owner.owns_types howns).2
      exact ⟨hknown.observe h.apart howns hnext, fun heq => hsame.trans heq⟩
  obtain ⟨before, after, hsplit⟩ := List.append_of_mem h.ends
  rw [hsplit, foldlM_append_ok] at hrun
  obtain ⟨between, hbefore, hrun⟩ := hrun
  rw [List.foldlM_cons] at hrun
  obtain ⟨ended, hended, hafter⟩ := bind_ok.mp hrun
  have hbetween : Known owners between :=
    foldlM_invariant Known.init (fun state record next hmem hknown hnext =>
      (hstep state record next (by rw [hsplit]; exact List.mem_append_left _ hmem) hknown hnext).1)
      hbefore
  rw [h.observe_traceEnd htsNs hbetween] at hended
  cases hended
  refine (@foldlM_invariant _ _ _ Builder.observe _ _
    (fun state => Known owners state ∧ state.captureEndNs = tsNs) after
    ⟨hbetween.ended tsNs, rfl⟩ ?_ hafter).2
  rintro state record next hmem ⟨hknown, heq⟩ hnext
  have hrecord : record ∈ records := by
    rw [hsplit]
    exact List.mem_append_right _ (List.mem_cons_of_mem _ hmem)
  obtain ⟨hnextKnown, hkept⟩ := hstep state record next hrecord hknown hnext
  exact ⟨hnextKnown, hkept heq⟩

theorem Interleaved.traceEndOf {part : List Record} (hsub : ∀ record ∈ part, record ∈ records)
    (hends : traceEnd ∈ part) :
    traceEndOf part = some traceEnd := by
  unfold ConnectReport.traceEndOf
  cases hfound : part.reverse.find? fun record => record.isType "trace_end" with
  | none =>
      have hnot := List.find?_eq_none.mp hfound traceEnd (List.mem_reverse.mpr hends)
      exact absurd h.isEnd hnot
  | some found =>
      have hmem := hsub found (List.mem_reverse.mp (List.mem_of_find?_eq_some hfound))
      rcases h.owned found hmem with rfl | ⟨i, howns⟩
      · rfl
      · have hisEnd : found.isType "trace_end" = true := by simpa using List.find?_some hfound
        exact Record.isType_absurd hisEnd (Owner.owns_types howns).2

end

/-- An analysis in its parts. -/
theorem analyzeRecords_ok {requested : ReportStatus} {report : Report} :
    analyzeRecords records requested = .ok report ↔
      ∃ builder lost, records.foldlM Builder.observe .init = .ok builder ∧
        lostEvents (traceEndOf records) = .ok lost ∧
        builder.report requested (traceEndOf records) lost = report := by
  constructor
  · intro h
    obtain ⟨builder, hbuilder, h⟩ := bind_ok.mp h
    obtain ⟨lost, hlost, h⟩ := bind_ok.mp h
    exact ⟨builder, lost, hbuilder, hlost, Except.ok.inj h⟩
  · rintro ⟨builder, lost, hbuilder, hlost, rfl⟩
    exact bind_ok.mpr ⟨builder, hbuilder, bind_ok.mpr ⟨lost, hlost, rfl⟩⟩

theorem report_attempts {builder own : Builder} {attemptId : String} (requested : ReportStatus)
    (traceEnd : Option Record) (lost : Int) (honce : (own.attempts.map Attempt.attemptId).Nodup)
    (hattempts : own.attempts = builder.attempts.filter fun attempt =>
      attempt.attemptId = attemptId) (hend : own.endNs = builder.endNs) :
    (own.report requested traceEnd lost).attempts =
      (builder.report requested traceEnd lost).attempts.filter fun attempt =>
        attempt.attemptId = attemptId := by
  unfold Builder.report
  dsimp only
  rw [List.filter_map, hend]
  refine congrArg _ ?_
  change _ = (builder.attempts.mergeSort _).filter fun attempt => attempt.attemptId = attemptId
  have hperm := (List.mergeSort_perm builder.attempts
    fun first second => first.startedNs ≤ second.startedNs).filter
      fun attempt => attempt.attemptId = attemptId
  rw [← hattempts] at hperm
  match hown : own.attempts with
  | [] =>
      rw [hown] at hperm
      rw [List.perm_nil.mp hperm, List.mergeSort_nil]
  | [attempt] =>
      rw [hown] at hperm
      rw [List.perm_singleton.mp hperm, List.mergeSort_singleton]
  | first :: second :: rest =>
      have hid (attempt : Attempt) (hmem : attempt ∈ own.attempts) :
          attempt.attemptId = attemptId := by
        rw [hattempts] at hmem
        exact of_decide_eq_true (List.mem_filter.mp hmem).2
      rw [hown] at honce hid
      have hne := (List.nodup_cons.mp honce).1
      refine absurd (List.mem_cons.mpr (.inl ?_)) hne
      rw [hid first List.mem_cons_self, hid second (List.mem_cons_of_mem _ List.mem_cons_self)]

/-- Attempts do not interfere: the analysis of an interleaving fails exactly when the analysis of
one of its attempts by itself does, and reports each attempt as that one does. -/
theorem attempts_isolated (h : Interleaved owners traceEnd records)
    (requested : ReportStatus) (i : ι) :
    ((∃ report, analyzeRecords records requested = .ok report) ↔
      ∀ j, ∃ own, analyzeRecords ((owners j).inputs traceEnd records) requested = .ok own) ∧
    ∀ report own, analyzeRecords records requested = .ok report →
      analyzeRecords ((owners i).inputs traceEnd records) requested = .ok own →
      own.attempts = report.attempts.filter fun attempt =>
        attempt.attemptId = (owners i).attemptId := by
  have hseparates := h.separates
  have hseen : ∀ record ∈ records, ∃ j,
      ((owners j).owns record || decide (record = traceEnd)) = true := by
    intro record hmem
    rcases h.owned record hmem with rfl | ⟨j, howns⟩
    · exact ⟨i, by rw [decide_eq_true rfl, Bool.or_true]⟩
    · exact ⟨j, by rw [howns, Bool.true_or]⟩
  have hstart (j : ι) : Shared owners j .init .init :=
    ⟨Known.init, Known.init, rfl, fun _ _ => rfl, rfl⟩
  have hwholeEnd : traceEndOf records = some traceEnd := h.traceEndOf (fun _ hmem => hmem) h.ends
  have hownEnd (j : ι) : traceEndOf ((owners j).inputs traceEnd records) = some traceEnd := by
    refine h.traceEndOf (fun record hmem => (List.mem_filter.mp hmem).1) ?_
    exact List.mem_filter.mpr ⟨h.ends, by rw [decide_eq_true rfl, Bool.or_true]⟩
  refine ⟨⟨?_, ?_⟩, ?_⟩
  · rintro ⟨report, hreport⟩ j
    obtain ⟨builder, lost, hrun, hlost, -⟩ := analyzeRecords_ok.mp hreport
    obtain ⟨own, hown, -⟩ := hseparates.splits hseen (hstart j) hrun
    rw [hwholeEnd, ← hownEnd j] at hlost
    exact ⟨_, analyzeRecords_ok.mpr ⟨own, lost, hown, hlost, rfl⟩⟩
  · intro hall
    obtain ⟨builder, hrun⟩ := hseparates.joins hseen hstart fun j => by
      obtain ⟨report, hreport⟩ := hall j
      obtain ⟨own, -, hown, -⟩ := analyzeRecords_ok.mp hreport
      exact ⟨own, hown⟩
    obtain ⟨report, hreport⟩ := hall i
    obtain ⟨-, lost, -, hlost, -⟩ := analyzeRecords_ok.mp hreport
    rw [hownEnd i, ← hwholeEnd] at hlost
    exact ⟨_, analyzeRecords_ok.mpr ⟨builder, lost, hrun, hlost, rfl⟩⟩
  · intro report ownReport hreport hownReport
    obtain ⟨builder, lost, hrun, hlost, rfl⟩ := analyzeRecords_ok.mp hreport
    obtain ⟨own, ownLost, hown, hownLost, rfl⟩ := analyzeRecords_ok.mp hownReport
    obtain ⟨found, hfound, -, hknown, hsame⟩ := hseparates.splits hseen (hstart i) hrun
    obtain rfl : found = own := Except.ok.inj (hfound.symm.trans hown)
    obtain ⟨tsNs, hne, htsNs⟩ := h.endNs
    have hend : builder.captureEndNs ≠ 0 := by
      rw [h.captureEndNs htsNs hrun]
      exact hne
    rw [hwholeEnd] at hlost ⊢
    rw [hownEnd i] at hownLost ⊢
    obtain rfl : lost = ownLost := Except.ok.inj (hlost.symm.trans hownLost)
    refine report_attempts requested _ lost hknown.once hsame.attempts ?_
    unfold Builder.endNs
    rw [← hsame.captureEndNs, if_neg hend, if_neg hend]

end Runs

/-- Two attempts on a socket each: one of them is refused while the other one is opened. -/
def pairOwner : Bool → Owner
  | false => ⟨"7", fun socketId => socketId = "70"⟩
  | true => ⟨"8", fun socketId => socketId = "80"⟩

/-- The end of the capture. -/
def pairTraceEnd : Record :=
  [("type", .str "trace_end"), ("ts_ns", .int 90), ("lost_events", .int 0)]

def pairStart (attemptId : String) (tsNs : Int) : Record :=
  [("type", .str "connect_attempt_start"), ("attempt_id", .str attemptId), ("uid", .int 10),
    ("tid", .int 5), ("tgid", .int 5), ("fd", .int 3), ("ts_ns", .int tsNs)]

def pairSocket (attemptId socketId : String) : Record :=
  [("type", .str "connect_socket"), ("attempt_id", .str attemptId),
    ("socket_instance_id", .str socketId), ("ts_ns", .int 30)]

/-- The records of two attempts, mixed. -/
def pairRecords : List Record :=
  [pairStart "7" 10, pairStart "8" 20, pairSocket "8" "80", pairSocket "7" "70",
    [("type", .str "socket_state"), ("socket_id", .str "70"), ("new_state_name", .str "SYN_SENT")],
    [("type", .str "connect_attempt_end"), ("attempt_id", .str "8"), ("result", .int 0),
      ("ts_ns", .int 40)],
    [("type", .str "connect_reset"), ("socket_id", .str "70"), ("exact", .bool true),
      ("ts_ns", .int 50)],
    pairTraceEnd]

theorem pair_interleaved : Interleaved pairOwner pairTraceEnd pairRecords where
  apart := by
    refine ⟨by decide +kernel, fun i j socketId hi hj => ?_⟩
    cases i <;> cases j <;> simp_all [pairOwner]
  isEnd := by decide +kernel
  endNs := ⟨90, by decide, by decide +kernel⟩
  unnamed := by decide +kernel
  ends := by decide +kernel
  owned := by decide +kernel

/-- The report of the first attempt is the one of its own records. -/
theorem attempts_isolated_pair : ∃ report own, analyzeRecords pairRecords .valid = .ok report ∧
    analyzeRecords ((pairOwner false).inputs pairTraceEnd pairRecords) .valid = .ok own ∧
    own.attempts = report.attempts.filter fun attempt => attempt.attemptId = "7" := by
  have haccepted : (analyzeRecords pairRecords .valid).toOption.isSome = true := by decide +kernel
  cases hreport : analyzeRecords pairRecords .valid with
  | error error =>
      rw [hreport] at haccepted
      cases haccepted
  | ok report =>
      obtain ⟨hiff, hsame⟩ := attempts_isolated pair_interleaved .valid false
      obtain ⟨own, hown⟩ := hiff.mp ⟨report, hreport⟩ false
      exact ⟨report, own, rfl, hown, hsame report own hreport hown⟩

end Anettrace.ConnectReport
