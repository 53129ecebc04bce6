import Anettrace.ConnectReport.Attempts

/-!
# When evidence stays

The loop of `build_attempts` promises that a connect which reached its terminal success condition
stays successful, and most records only add to what is known of an attempt. Four types of records
assign a field whatever it was before: a reset, a drop, a cancellation and a socket error. In a run,
the evidence that an attempt has at any point is there at every later point exactly when these
records never take it back.
-/

namespace Anettrace.ConnectReport

open Library Fallible
open Diagnose (ReportStatus)

namespace Attempt

/-- An attempt that succeeded: its call returned zero, or it was opened later on without an
error. -/
def Successful (attempt : Attempt) : Prop :=
  attempt.result = some 0 ∨
    (attempt.asyncPending = true ∧ attempt.soError = some 0 ∧ attempt.established = true)

theorem classify_success (attempt : Attempt) (status : ReportStatus) :
    (attempt.classify status).1 = .success ↔ status ≠ .invalid ∧ attempt.Successful := by
  unfold Diagnose.Signs.classify
  by_cases hinvalid : status = .invalid
  case pos => simp [hinvalid]
  rw [if_neg hinvalid]
  by_cases hresult : attempt.result = some 0
  case pos => simp [hresult, hinvalid, Successful]
  rw [if_neg hresult]
  by_cases hasync : attempt.asyncPending = true ∧ attempt.soError = some 0 ∧
    attempt.established = true
  case pos => simp [hasync, hinvalid, Successful]
  -- what is left of the classification are failures
  rw [if_neg (by simpa [and_assoc] using hasync)]
  refine iff_of_false ?_ fun h => h.2.elim hresult hasync
  cases attempt.effectiveError with
  | some error =>
      dsimp only
      split_ifs <;> decide
  | none =>
      dsimp only
      split_ifs <;> decide

/-- What the evidence of an attempt keeps of an earlier one. -/
structure Sticky (before after : Attempt) : Prop where
  evidence : before.evidence <+: after.evidence
  reset : before.resetWhileConnecting = true → after.resetWhileConnecting = true
  exactDrop : before.exactDrop = true → after.exactDrop = true
  cancelled : before.cancelled = true → after.cancelled = true
  success : ∀ status, (before.classify status).1 = .success → (after.classify status).1 = .success

theorem Sticky.refl (attempt : Attempt) : Sticky attempt attempt :=
  ⟨List.prefix_refl _, id, id, id, fun _ => id⟩

/-- What is known stays known, from step to step. -/
theorem Sticky.trans {first second third : Attempt} (h : Sticky first second)
    (hnext : Sticky second third) : Sticky first third where
  evidence := h.evidence.trans hnext.evidence
  reset := hnext.reset ∘ h.reset
  exactDrop := hnext.exactDrop ∘ h.exactDrop
  cancelled := hnext.cancelled ∘ h.cancelled
  success := fun status => hnext.success status ∘ h.success status

/-- A record of a type that assigns a field confirms the evidence that the field already holds. -/
structure Confirms (attempt : Attempt) (record : Record) : Prop where
  reset : record.isType "connect_reset" = true → attempt.resetWhileConnecting = true →
    attempt.isReset record = true
  exactDrop : record.isType "connect_drop" = true → attempt.exactDrop = true →
    record.flag "exact" = true
  cancelled : record.isType "connect_cancel" = true → attempt.cancelled = true →
    record.flag "exact" = true
  success : record.isType "connect_so_error" = true → attempt.Successful →
    attempt.result = some 0 ∨ record.needInt "error" = .ok 0

variable {attempt after : Attempt} {record : Record}

/-- A record that confirms the success of its attempt, or says nothing of it, keeps it. -/
theorem Confirms.successful (h : Confirms attempt record)
    (hobserved : Observed attempt record after) (hassigned : Assigned attempt record after)
    (hsettled : attempt.asyncPending = true → attempt.result.isSome = true)
    (hends : record.isType "connect_attempt_end" = true → attempt.result = none)
    (hsuccess : attempt.Successful) : after.Successful := by
  have hend : record.isType "connect_attempt_end" = false := by
    refine Bool.eq_false_of_not_eq_true fun htype => ?_
    have hnone := hends htype
    rcases hsuccess with hresult | ⟨hasync, -⟩
    · exact nomatch hnone.symm.trans hresult
    · have hsome := hsettled hasync
      rw [hnone] at hsome
      cases hsome
  have hresult := hobserved.result hend
  have hasync := hobserved.asyncPending hend
  rcases hsuccess with hzero | ⟨hpending, hsoError, hestablished⟩
  · exact .inl (hresult.trans hzero)
  cases htype : record.isType "connect_so_error" with
  | false =>
      refine .inr ⟨hasync.trans hpending, ?_, hobserved.established hestablished⟩
      exact (hobserved.soError htype).trans hsoError
  | true =>
      rcases h.success htype (.inr ⟨hpending, hsoError, hestablished⟩) with hzero | herror
      · exact .inl (hresult.trans hzero)
      · obtain ⟨error, hneed, hafter⟩ := hassigned.soError htype
        obtain rfl : error = 0 := Except.ok.inj (hneed.symm.trans herror)
        exact .inr ⟨hasync.trans hpending, hafter, hobserved.established hestablished⟩

/-- A record keeps the evidence of its attempt exactly when it confirms it. The end of an attempt
comes once, so an attempt that it ends is not successful yet. -/
theorem sticky_iff (hobserved : Observed attempt record after)
    (hassigned : Assigned attempt record after)
    (hsettled : attempt.asyncPending = true → attempt.result.isSome = true)
    (hends : record.isType "connect_attempt_end" = true → attempt.result = none) :
    Sticky attempt after ↔ Confirms attempt record := by
  constructor
  · intro h
    refine ⟨fun htype hreset => ?_, fun htype hdrop => ?_, fun htype hcancel =>
      ?_, fun htype hsuccess => ?_⟩
    · rw [← hassigned.reset htype]
      exact h.reset hreset
    · rw [← hassigned.exactDrop htype]
      exact h.exactDrop hdrop
    · rw [← hassigned.cancelled htype]
      exact h.cancelled hcancel
    · obtain ⟨error, herror, hafter⟩ := hassigned.soError htype
      have hend : record.isType "connect_attempt_end" = false :=
        Record.isType_other htype (by decide)
      have hlater := h.success .valid ((attempt.classify_success .valid).mpr ⟨by decide, hsuccess⟩)
      rcases ((after.classify_success .valid).mp hlater).2 with hresult | ⟨-, hsoError, -⟩
      · exact .inl ((hobserved.result hend).symm.trans hresult)
      · rw [hafter] at hsoError
        exact .inr (herror.trans (congrArg Except.ok (Option.some.inj hsoError)))
  · intro h
    have hkeep {name : String} {flag now : Bool}
        (hassign : record.isType name = true → flag = true →
        now = true) (hleave : record.isType name = false → flag = true → now = true)
        (hflag : flag = true) : now = true := by
      cases htype : record.isType name with
      | true => exact hassign htype hflag
      | false => exact hleave htype hflag
    refine ⟨hobserved.evidence, hkeep (fun htype hreset => ?_) hobserved.reset,
      hkeep (fun htype hdrop => ?_) hobserved.exactDrop,
      hkeep (fun htype hcancel => ?_) hobserved.cancelled, fun status hbefore => ?_⟩
    · rw [hassigned.reset htype]
      exact h.reset htype hreset
    · rw [hassigned.exactDrop htype]
      exact h.exactDrop htype hdrop
    · rw [hassigned.cancelled htype]
      exact h.cancelled htype hcancel
    · obtain ⟨hvalid, hsuccess⟩ := (attempt.classify_success status).mp hbefore
      refine (after.classify_success status).mpr ⟨hvalid, ?_⟩
      exact h.successful hobserved hassigned hsettled hends hsuccess

end Attempt

namespace Builder

/-- Every attempt is still there, with its evidence. -/
def KeptBy (before after : Builder) : Prop :=
  ∀ attempt ∈ before.attempts, ∃ later ∈ after.attempts,
    later.attemptId = attempt.attemptId ∧ attempt.Sticky later

/-- A record confirms the evidence of its attempt. -/
def Confirms (builder : Builder) (record : Record) : Prop :=
  ∀ attempt, builder.recordAttempt record = some attempt → attempt.Confirms record

/-- The end of an attempt comes once. -/
def EndsOnce (builder : Builder) (record : Record) : Prop :=
  record.isType "connect_attempt_end" = true →
    ∀ attempt, builder.recordAttempt record = some attempt → attempt.result = none

variable {builder next : Builder} {record : Record}

theorem KeptBy.refl (builder : Builder) : builder.KeptBy builder :=
  fun attempt hmem => ⟨attempt, hmem, rfl, .refl attempt⟩

/-- Attempts are kept, from step to step. -/
theorem KeptBy.trans {first second third : Builder} (h : first.KeptBy second)
    (hnext : second.KeptBy third) : first.KeptBy third := by
  intro attempt hmem
  obtain ⟨later, hlater, hid, hsticky⟩ := h attempt hmem
  obtain ⟨last, hlast, hlastId, hlastSticky⟩ := hnext later hlater
  exact ⟨last, hlast, hlastId.trans hid, hsticky.trans hlastSticky⟩

theorem recordAttempt_mem {attempt : Attempt} (h : builder.recordAttempt record = some attempt) :
    attempt ∈ builder.attempts := by
  unfold recordAttempt at h
  split at h
  · exact List.mem_of_find?_eq_some h
  split at h
  · obtain ⟨attemptId, -, hfind⟩ := Option.bind_eq_some_iff.mp h
    exact List.mem_of_find?_eq_some hfind
  · cases h

/-- What is known of the attempts at any point: they have different ids, and one that waits for its
outcome has returned. -/
structure Settled (builder : Builder) : Prop where
  once : (builder.attempts.map Attempt.attemptId).Nodup
  returned : ∀ attempt ∈ builder.attempts, attempt.asyncPending = true →
    attempt.result.isSome = true

theorem Settled.init : Settled .init :=
  ⟨List.nodup_nil, fun _ hmem => nomatch hmem⟩

theorem Settled.unique (h : Settled builder) {first second : Attempt}
    (hfirst : first ∈ builder.attempts)
    (hsecond : second ∈ builder.attempts) (hid : first.attemptId = second.attemptId) :
    first = second :=
  List.inj_on_of_nodup_map h.once hfirst hsecond hid

/-- The attempts after one of them changed. -/
theorem mem_store {attempt later : Attempt} (h : later ∈ (builder.store attempt).attempts) :
    later = attempt ∨ (later ∈ builder.attempts ∧ later.attemptId ≠ attempt.attemptId) := by
  obtain ⟨old, hold, heq⟩ := List.mem_map.mp h
  by_cases hid : old.attemptId = attempt.attemptId
  case pos =>
    rw [if_pos hid] at heq
    exact .inl heq.symm
  case neg =>
    rw [if_neg hid] at heq
    subst heq
    exact .inr ⟨hold, hid⟩

/-- An attempt that changes takes its own place. -/
theorem store_mem {attempt after : Attempt} (hmem : attempt ∈ builder.attempts)
    (hid : after.attemptId = attempt.attemptId) : after ∈ (builder.store after).attempts :=
  List.mem_map.mpr ⟨attempt, hmem, if_pos hid.symm⟩

theorem store_mem_other {attempt other : Attempt} (hmem : other ∈ builder.attempts)
    (hid : other.attemptId ≠ attempt.attemptId) : other ∈ (builder.store attempt).attempts :=
  List.mem_map.mpr ⟨other, hmem, if_neg hid⟩

/-- A step keeps all evidence when it keeps that of the attempt it changes. -/
theorem Settled.keptBy_store (h : Settled builder) {attempt after : Attempt}
    (hmem : attempt ∈ builder.attempts) (hid : after.attemptId = attempt.attemptId)
    (hattempts : next.attempts = (builder.store after).attempts) :
    builder.KeptBy next ↔ attempt.Sticky after := by
  constructor
  · intro hkept
    obtain ⟨later, hlater, hlaterId, hsticky⟩ := hkept attempt hmem
    rw [hattempts] at hlater
    rcases mem_store hlater with rfl | ⟨-, hne⟩
    · exact hsticky
    · exact absurd (hlaterId.trans hid.symm) hne
  · intro hsticky other hother
    rw [hattempts]
    by_cases hsame : other.attemptId = after.attemptId
    case pos =>
      obtain rfl := h.unique hother hmem (hsame.trans hid)
      exact ⟨after, store_mem hmem hid, hid, hsticky⟩
    case neg => exact ⟨other, store_mem_other hother hsame, rfl, .refl other⟩

/-- A record that no field is assigned from leaves an attempt waiting or returned. -/
theorem returned_after {attempt after : Attempt} (hobserved : Attempt.Observed attempt record after)
    (h : attempt.asyncPending = true → attempt.result.isSome = true)
    (hasync : after.asyncPending = true) : after.result.isSome = true := by
  cases hend : record.isType "connect_attempt_end" with
  | true => exact hobserved.returned hend
  | false =>
      rw [hobserved.asyncPending hend] at hasync
      rw [hobserved.result hend]
      exact h hasync

theorem Settled.store (h : Settled builder) {attempt after : Attempt}
    (hmem : attempt ∈ builder.attempts) (hobserved : Attempt.Observed attempt record after) :
    ∀ later ∈ (builder.store after).attempts, later.asyncPending = true →
      later.result.isSome = true := by
  intro later hlater
  rcases mem_store hlater with rfl | ⟨hold, -⟩
  · exact returned_after hobserved (h.returned attempt hmem)
  · exact h.returned later hold

theorem Settled.step (h : Settled builder) (hstep : Step builder record next) : Settled next := by
  refine ⟨hstep.once h.once, ?_⟩
  cases hstep with
  | other hstart hnone hattempts hsockets => exact hattempts ▸ h.returned
  | start attempt hstart hid hfree hasync hattempts hsockets =>
      intro later hlater hpending
      rw [hattempts] at hlater
      rcases List.mem_append.mp hlater with hold | hnew
      · exact h.returned later hold hpending
      · rw [List.mem_singleton.mp hnew, hasync] at hpending
        cases hpending
  | take attempt after hstart hfound hobserved hassigned hattempts hsockets =>
      exact hattempts ▸ h.store (recordAttempt_mem hfound) hobserved
  | bind attempt after socketId hstart hfound hobserved hassigned hsocket hid hattempts hsockets =>
      exact hattempts ▸ h.store (recordAttempt_mem hfound) hobserved

/-- A record of a type that assigns nothing confirms whatever there is. -/
theorem confirms_of_type {name : String} (htype : record.isType name = true)
    (hother : name ∉ ["connect_reset", "connect_drop", "connect_cancel", "connect_so_error"])
    (attempt : Attempt) : attempt.Confirms record := by
  have habsent {other : String}
      (hmem : other ∈ ["connect_reset", "connect_drop", "connect_cancel", "connect_so_error"]) :
      record.isType other = false :=
    Record.isType_other htype fun heq => hother (heq ▸ hmem)
  exact ⟨fun h => Record.isType_absurd h (habsent (by decide)),
    fun h => Record.isType_absurd h (habsent (by decide)),
    fun h => Record.isType_absurd h (habsent (by decide)),
    fun h => Record.isType_absurd h (habsent (by decide))⟩

theorem Settled.keptBy_taken (h : Settled builder) (hends : builder.EndsOnce record)
    {attempt after : Attempt} (hfound : builder.recordAttempt record = some attempt)
    (hobserved : Attempt.Observed attempt record after)
    (hassigned : Attempt.Assigned attempt record after)
    (hattempts : next.attempts = (builder.store after).attempts) :
    builder.KeptBy next ↔ builder.Confirms record := by
  have hmem := recordAttempt_mem hfound
  rw [h.keptBy_store hmem hobserved.attemptId hattempts]
  rw [Attempt.sticky_iff hobserved hassigned (h.returned attempt hmem) fun htype =>
    hends htype attempt hfound]
  constructor
  · intro hconfirms other hother
    obtain rfl := Option.some.inj (hfound.symm.trans hother)
    exact hconfirms
  · exact fun hconfirms => hconfirms attempt hfound

/-- A step keeps the evidence of all attempts exactly when its record confirms it. -/
theorem Settled.keptBy_iff (h : Settled builder) (hends : builder.EndsOnce record)
    (hstep : Step builder record next) : builder.KeptBy next ↔ builder.Confirms record := by
  cases hstep with
  | other hstart hnone hattempts hsockets =>
      refine iff_of_true (fun attempt hmem => ?_) fun attempt hfound => ?_
      · exact ⟨attempt, hattempts ▸ hmem, rfl, .refl attempt⟩
      · rw [hnone] at hfound
        cases hfound
  | start attempt hstart hid hfree hasync hattempts hsockets =>
      refine iff_of_true (fun other hmem => ?_) fun other _ => ?_
      · exact ⟨other, hattempts ▸ List.mem_append_left _ hmem, rfl, .refl other⟩
      · exact confirms_of_type hstart (by decide) other
  | take attempt after hstart hfound hobserved hassigned hattempts hsockets =>
      exact h.keptBy_taken hends hfound hobserved hassigned hattempts
  | bind attempt after socketId hstart hfound hobserved hassigned hsocket hid hattempts hsockets =>
      exact h.keptBy_taken hends hfound hobserved hassigned hattempts

end Builder

/-- In an accepted run in which no attempt ends twice, the evidence of every attempt stays, and so
does its success, from any point to any later one, exactly when all records confirm what their
attempts hold. -/
theorem evidence_stays_iff {records : List Record} {last : Builder}
    (hrun : records.foldlM Builder.observe .init = .ok last)
    (hends : Throughout Builder.observe Builder.EndsOnce .init records) :
    Persists Builder.observe Builder.KeptBy .init records ↔
      Throughout Builder.observe Builder.Confirms .init records := by
  refine persists_iff Builder.KeptBy.refl (fun h hnext => h.trans hnext) hrun
    fun before record rest state next hsplit hbefore hnext => ?_
  have hsettled : state.Settled :=
    foldlM_invariant Builder.Settled.init
      (fun _ _ _ _ hsettled hok => hsettled.step (Builder.observe_step hok).1) hbefore
  exact hsettled.keptBy_iff (hends before record rest state hsplit hbefore)
    (Builder.observe_step hnext).1

/-- The start of an attempt. -/
def startRecord : Record :=
  [("type", .str "connect_attempt_start"), ("attempt_id", .str "7"), ("uid", .int 10),
    ("tid", .int 5),
    ("tgid", .int 5), ("fd", .int 3), ("ts_ns", .int 10)]

/-- A dropped SYN of a connection that is then cancelled: both stay. -/
def cancelledRecords : List Record :=
  [startRecord,
    [("type", .str "connect_drop"), ("attempt_id", .str "7"), ("exact", .bool true)],
    [("type", .str "connect_cancel"), ("attempt_id", .str "7"), ("exact", .bool true),
      ("ts_ns", .int 30)]]

/-- A run in which a cancellation stays known. -/
theorem evidence_stays_cancelled :
    Persists Builder.observe Builder.KeptBy .init cancelledRecords := by
  have haccepted : (cancelledRecords.foldlM Builder.observe .init).map
      (fun builder => builder.attempts.map (·.cancelled)) = .ok [true] := by decide +kernel
  obtain ⟨last, hrun, -⟩ := map_ok.mp haccepted
  refine (evidence_stays_iff hrun ?_).mpr ?_
  · refine throughout_of_forall fun record hmem state hend => ?_
    have hnone : ∀ record ∈ cancelledRecords, record.isType "connect_attempt_end" = false := by
      decide +kernel
    exact Record.isType_absurd hend (hnone record hmem)
  · refine throughout_of_forall fun record hmem state attempt _ => ?_
    have hexact : ∀ record ∈ cancelledRecords,
        (record.isType "connect_reset" = false ∧ record.isType "connect_so_error" = false) ∧
        (record.isType "connect_drop" = true → record.flag "exact" = true) ∧
        (record.isType "connect_cancel" = true → record.flag "exact" = true) := by
      decide +kernel
    obtain ⟨⟨hreset, hsoError⟩, hdrop, hcancel⟩ := hexact record hmem
    exact ⟨fun h => Record.isType_absurd h hreset, fun h _ => hdrop h, fun h _ => hcancel h,
      fun h => Record.isType_absurd h hsoError⟩

/-- A connection that is opened in the background: its call is pending, and then it is established
without an error. -/
def openedRecords : List Record :=
  [startRecord,
    [("type", .str "connect_attempt_end"), ("attempt_id", .str "7"), ("result", .int (-115)),
      ("error", .int 115), ("async_pending", .bool true), ("ts_ns", .int 20)],
    [("type", .str "socket_state"), ("attempt_id", .str "7"),
      ("new_state_name", .str "ESTABLISHED"),
      ("ts_ns", .int 30)],
    [("type", .str "connect_so_error"), ("attempt_id", .str "7"), ("error", .int 0),
      ("ts_ns", .int 40)]]

def laterError : Record :=
  [("type", .str "connect_so_error"), ("attempt_id", .str "7"), ("error", .int 111),
    ("ts_ns", .int 50)]

/-- The outcomes of the attempts in a run. -/
def outcomesOf (records : List Record) : Except RecordError (List Diagnose.Outcome) :=
  (records.foldlM Builder.observe .init).map fun builder =>
    builder.attempts.map fun attempt => (attempt.classify .valid).1

/-- A second error of the socket changes the outcome of an attempt that succeeded. -/
theorem later_error_overwrites :
    outcomesOf openedRecords = .ok [.success] ∧
    outcomesOf (openedRecords ++ [laterError]) = .ok [.peerRefused] ∧
    Throughout Builder.observe Builder.EndsOnce .init (openedRecords ++ [laterError]) ∧
    ¬Persists Builder.observe Builder.KeptBy .init (openedRecords ++ [laterError]) := by
  have hopened : outcomesOf openedRecords = .ok [.success] := by decide +kernel
  have hrefused : outcomesOf (openedRecords ++ [laterError]) =
      .ok [.peerRefused] := by decide +kernel
  refine ⟨hopened, hrefused, ?_, ?_⟩
  · refine throughout_cons (fun hend => Record.isType_absurd hend (by decide +kernel))
      fun next hnext => ?_
    have hstarted : (Builder.init.observe startRecord).map
        (fun builder => builder.attempts.map (·.result)) = .ok [none] := by decide +kernel
    refine throughout_cons (fun _ attempt hfound => ?_) fun later _ => ?_
    · obtain ⟨started, hstart, hresults⟩ := map_ok.mp hstarted
      obtain rfl : next = started := Except.ok.inj (hnext.symm.trans hstart)
      have hresult :=
        List.mem_map_of_mem (f := fun attempt => attempt.result) (Builder.recordAttempt_mem hfound)
      rw [hresults] at hresult
      exact List.mem_singleton.mp hresult
    · refine throughout_of_forall fun record hmem state hend => ?_
      have hnone : ∀ record ∈ openedRecords.drop 2 ++ [laterError],
          record.isType "connect_attempt_end" = false := by
        decide +kernel
      exact Record.isType_absurd hend (hnone record hmem)
  · intro hpersists
    obtain ⟨before, hbefore, hsuccess⟩ := map_ok.mp hopened
    obtain ⟨after, hafter, hfailed⟩ := map_ok.mp hrefused
    obtain ⟨between, hbetween, hlast⟩ := foldlM_append_ok.mp hafter
    obtain rfl : before = between := Except.ok.inj (hbefore.symm.trans hbetween)
    have hkept := hpersists openedRecords [laterError] [] before after rfl hbefore hlast
    obtain ⟨attempt, hmem, houtcome⟩ : ∃ attempt ∈ before.attempts,
        (attempt.classify .valid).1 = .success := by
      refine List.mem_map.mp ?_
      rw [hsuccess]
      exact List.mem_singleton.mpr rfl
    obtain ⟨later, hlater, -, hsticky⟩ := hkept attempt hmem
    have hfailure := List.mem_map_of_mem (f := fun attempt => (attempt.classify .valid).1) hlater
    rw [hfailed, hsticky.success .valid houtcome] at hfailure
    exact absurd (List.mem_singleton.mp hfailure) (by decide)

/-- A drop that is not exact takes the exact one back. -/
example : outcomesOf (cancelledRecords.take 2) = .ok [.kernelDrop] ∧
    outcomesOf (cancelledRecords.take 2 ++
      [[("type", .str "connect_drop"), ("attempt_id", .str "7")]]) =
      .ok [.incompleteOrUnknown] := by
  decide +kernel

end Anettrace.ConnectReport
