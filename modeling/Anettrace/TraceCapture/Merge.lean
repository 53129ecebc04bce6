import Anettrace.Library.Overlay
import Anettrace.TraceCapture.Names
import Anettrace.Trim.Atomicity

/-!
# Putting the traces together

A merge either leaves the files as they were, but for a temporary file that the system does not let
go of, or puts the two traces under the name of the output.
-/

namespace Anettrace.TraceCapture

open Library Library.Transfer Trim

variable {system : MergeSystem} {boottimeCutoffNs monotonicCutoffNs : Nat} {capture : Capture}
  {files : Files}

/-- What was opened for reading is there. -/
theorem openRead_ok {fault : Option FileErrno} {path : Path} {entry : Entry}
    (h : openRead fault files path = .ok entry) : files path = some entry := by
  unfold openRead at h
  split at h
  · cases h
  · split at h
    · cases h
    · rename_i hfound
      cases h
      exact hfound

/-- What was opened anew was not there before. -/
theorem openExclusive_ok {fault : Option FileErrno} {path : Path} {next : Files}
    (h : openExclusive fault files path = .ok next) :
    files path = none ∧ next = Function.update files path (some (.file [])) := by
  unfold openExclusive at h
  split at h
  · cases h
  · rename_i hfree
    split at h
    · cases h
    · cases h
      exact ⟨Option.not_isSome_iff_eq_none.mp hfree, rfl⟩

/-- Two errors in turn are none when neither is one. -/
theorem orElse_none {err : Option Errno} {next : Unit → Option Errno} (h : err.orElse next = none) :
    err = none ∧ next () = none := by
  cases err with
  | none => exact ⟨rfl, h⟩
  | some err => cases h

/-- What was copied without a failure is the file. -/
theorem copyFile_none {fault : Option FileErrno}
    {reads writes : List (Call FileErrno)} {path : Path}
    {written : List UInt8} (h : copyFile fault reads writes files path = (written, none)) :
    files path = some (.file written) := by
  unfold copyFile at h
  split at h
  · cases h
  · cases h
  · rename_i content hopen
    obtain ⟨copied, copyErr, hcopy⟩ : ∃ copied copyErr,
      copy .eio (64 * 1024) (content.length + 1) content reads writes =
        (copied, copyErr) := ⟨_, _, rfl⟩
    rw [hcopy] at h
    obtain ⟨rfl, hnone⟩ := Prod.mk.inj h
    rw [Option.map_eq_none_iff.mp hnone] at hcopy
    rw [openRead_ok hopen, copy_none (by decide) hcopy]

/-- What is taken from the trace of Perfetto: the packets inside the window, or all of it. -/
def TakenFrom (boottimeCutoffNs monotonicCutoffNs : Nat) (ringBuffer : Bool)
    (trace body : List UInt8) : Prop :=
  if ringBuffer then perfettoTrimStream boottimeCutoffNs monotonicCutoffNs trace = (body, none)
  else body = trace

/-- The part of the system trace that was copied without a failure. -/
theorem systemPart_none {body : List UInt8}
    (h : systemPart system boottimeCutoffNs monotonicCutoffNs capture files = (body, none)) :
    ∃ trace, files capture.systemTrace = some (.file trace) ∧
      TakenFrom boottimeCutoffNs monotonicCutoffNs capture.ringBuffer trace body := by
  unfold systemPart at h
  unfold TakenFrom
  cases hring : capture.ringBuffer with
  | false =>
      rw [if_neg (by rw [hring]; decide)] at h
      exact ⟨body, copyFile_none h, rfl⟩
  | true =>
      rw [if_pos hring] at h
      split at h
      · cases h
      · rename_i entry hopen
        obtain ⟨hbody, hnone⟩ := Prod.mk.inj h
        obtain ⟨trace, hentry, htrim⟩ :=
          trimEntry_none (Prod.ext hbody (Option.map_eq_none_iff.mp hnone))
        refine ⟨trace, ?_, htrim⟩
        rw [openRead_ok hopen, hentry]

/-- The two parts of a combined file. -/
theorem combine_none {temporary : Path} {content : List UInt8}
    (h : combine system boottimeCutoffNs monotonicCutoffNs capture files temporary =
      (content, none)) :
    ∃ trace body tail, content = body ++ tail ∧ files capture.systemTrace = some (.file trace) ∧
      TakenFrom boottimeCutoffNs monotonicCutoffNs capture.ringBuffer trace body ∧
      (capture.systemOnly = true → tail = []) ∧
      (capture.systemOnly = false → files capture.networkTrace = some (.file tail)) := by
  obtain ⟨body, bodyErr, hbody⟩ : ∃ body bodyErr,
    systemPart system boottimeCutoffNs monotonicCutoffNs capture files =
      (body, bodyErr) := ⟨_, _, rfl⟩
  unfold combine at h
  simp only [hbody] at h
  by_cases hcondition : (bodyErr.orElse fun _ => fileNonempty system.statOutput
      (Function.update files temporary (some (.file body))) temporary).isNone ∧
        capture.systemOnly = false
  · rw [if_pos hcondition] at h
    obtain rfl := (orElse_none (Option.isNone_iff_eq_none.mp hcondition.1)).1
    obtain ⟨tail, tailErr, htail⟩ : ∃ tail tailErr,
      copyFile system.openNetwork system.networkReads system.networkWrites files
        capture.networkTrace =
        (tail, tailErr) := ⟨_, _, rfl⟩
    rw [htail] at h
    obtain ⟨rfl, hnone⟩ := Prod.mk.inj h
    obtain rfl := (orElse_none (orElse_none hnone).1).1
    obtain ⟨trace, htrace, htaken⟩ := systemPart_none hbody
    exact ⟨trace, body, tail, rfl, htrace, htaken, fun honly =>
      Bool.noConfusion (honly.symm.trans hcondition.2),
      fun _ => copyFile_none htail⟩
  · rw [if_neg hcondition] at h
    obtain ⟨rfl, hnone⟩ := Prod.mk.inj h
    have hfirst := (orElse_none (orElse_none hnone).1).1
    have honly : capture.systemOnly = true :=
      Bool.of_not_eq_false fun hboth => hcondition ⟨Option.isNone_iff_eq_none.mpr hfirst, hboth⟩
    obtain rfl := (orElse_none hfirst).1
    obtain ⟨trace, htrace, htaken⟩ := systemPart_none hbody
    exact ⟨trace, body, [], rfl, htrace, htaken, fun _ => rfl,
      fun hboth => Bool.noConfusion (honly.symm.trans hboth)⟩

/-- The removal of a file that was written anew. -/
theorem remove_update {refused : Bool} {path : Path} {content : List UInt8}
    (h : files path = none) :
    remove refused (Function.update files path (some (.file content))) path =
      if refused then Function.update files path (some (.file content)) else files := by
  unfold remove
  cases refused with
  | true => rfl
  | false =>
      unfold unlink
      rw [if_neg Bool.false_ne_true, Function.update_self]
      dsimp only
      rw [Function.update_idem, ← h, Function.update_eq_self]
      rfl

/-- What the end of a merge can do: nothing, with an error, or move the file. -/
theorem publish_cases {fault : Option FileErrno} {temporary output : Path} {next : Files}
    {err : Option Errno} (h : publish fault files temporary output = (next, err)) :
    (next = files ∧ err ≠ none) ∨
    (files output = none ∧ err = none ∧
      next = Function.update (Function.update files output (files temporary)) temporary none) := by
  unfold publish at h
  split at h
  · cases h
    exact Or.inl ⟨rfl, nofun⟩
  · rename_i hfree
    have houtput := Option.not_isSome_iff_eq_none.mp hfree
    unfold rename at h
    cases fault with
    | some fault =>
        cases h
        exact Or.inl ⟨rfl, nofun⟩
    | none =>
        rw [houtput] at h
        cases h
        exact Or.inr ⟨houtput, rfl, rfl⟩

/-- A merge that fails has changed nothing, or has left its temporary file behind. One that does not
has put under the name of the output what it has combined. -/
theorem mergeTraces_cases {next : Files} {err : Option Errno}
    (h : mergeTraces system boottimeCutoffNs monotonicCutoffNs capture files = (next, err)) :
    (err ≠ none ∧ (next = files ∨ (files capture.combined = none ∧
      ∃ content, next = Function.update files capture.combined (some (.file content))))) ∨
    (err = none ∧ files capture.combined = none ∧ files capture.output = none ∧
      ∃ content,
        combine system boottimeCutoffNs monotonicCutoffNs capture
          (Function.update files capture.combined (some (.file []))) capture.combined =
            (content, none) ∧
        next = Function.update files capture.output (some (.file content))) := by
  unfold mergeTraces at h
  split at h
  · cases h
    exact Or.inl ⟨nofun, Or.inl rfl⟩
  rename_i temporary htemporary
  obtain ⟨hname, hfree⟩ := temporaryPath_none htemporary
  obtain rfl : temporary = capture.combined := hname
  split at h
  · cases h
    exact Or.inl ⟨nofun, Or.inl rfl⟩
  rename_i opened hopen
  obtain ⟨-, rfl⟩ := openExclusive_ok hopen
  -- What the merge leaves when it removes the file that it has written.
  have hremoved (content : List UInt8) :
      remove system.removeRefused (Function.update files capture.combined (some (.file content)))
          capture.combined = files ∨
        (files capture.combined = none ∧ ∃ left,
          remove system.removeRefused (Function.update files capture.combined
            (some (.file content)))
            capture.combined = Function.update files capture.combined (some (.file left))) := by
    rw [remove_update hfree]
    cases system.removeRefused with
    | true => exact Or.inr ⟨hfree, content, rfl⟩
    | false => exact Or.inl rfl
  simp only [Function.update_idem] at h
  split at h
  · rename_i combineErr _
    cases h
    exact Or.inl ⟨nofun, hremoved _⟩
  · rename_i hcombined
    split at h
    · rename_i published publishErr hpublish
      cases h
      obtain ⟨rfl, -⟩ | ⟨-, herr, -⟩ := publish_cases hpublish
      · exact Or.inl ⟨nofun, hremoved _⟩
      · cases herr
    · rename_i published hpublish
      cases h
      obtain ⟨-, herr⟩ | ⟨houtput, -, rfl⟩ := publish_cases hpublish
      · exact absurd rfl herr
      · rw [Function.update_of_ne (combined_ne_output capture).symm] at houtput
        refine Or.inr ⟨rfl, hfree, houtput, _, Prod.ext rfl hcombined, ?_⟩
        rw [Function.update_self, Overlay.update_moved (combined_ne_output capture) hfree]

end Anettrace.TraceCapture
