import Anettrace.TraceCapture.Model

/-!
# The names of a capture

A capture that has got as far as its configuration has found that nothing had the name of the output
or of any of its own files. The names that it has made up differ from each other, and those that are
made from the output differ from the output.
-/

namespace Anettrace.TraceCapture

open Library Trim

/-- The temporary file that the traces are put together in. -/
def Capture.combined (capture : Capture) : Path := capture.output ++ combinedSuffix

theorem printed_none {path dest : Path} (h : printed path = (dest, none)) : dest = path := by
  obtain ⟨hdest, hlength⟩ := Prod.mk.inj h
  have hshort : path.length < pathMax := by
    by_contra hlong
    rw [if_pos (Nat.le_of_not_lt hlong)] at hlength
    cases hlength
  rw [← hdest, List.take_of_length_le (by omega)]

/-- A temporary path that was found is free. -/
theorem temporaryPath_none {files : Files} {output suffix dest : Path}
    (h : temporaryPath files output suffix = (dest, none)) :
    dest = output ++ suffix ∧ files dest = none := by
  unfold temporaryPath at h
  split at h
  · cases h
  · rename_i name hprinted
    split at h
    · cases h
    · rename_i hfree
      obtain rfl := (Prod.mk.inj h).1
      exact ⟨printed_none hprinted, Option.not_isSome_iff_eq_none.mp hfree⟩

/-- The names that have been chosen when the configuration is written. -/
structure Names (build : Build) (files₀ : Files) (capture : Capture) : Prop where
  output : files₀ capture.output = none
  networkTrace : capture.systemOnly = false →
    capture.networkTrace = capture.output ++ networkSuffix ∧ files₀ capture.networkTrace = none
  noNetworkTrace : capture.systemOnly = true → capture.networkTrace = []
  host : build = .host →
    capture.systemTrace = capture.output ++ systemSuffix ∧ capture.config =
      capture.output ++ configSuffix
  android : ∀ traceDir configDir, build = .android traceDir configDir → ∃ pid nonce,
    capture.systemTrace = androidTrace traceDir pid nonce ∧ capture.config =
      androidConfig configDir pid nonce
  systemTrace : files₀ capture.systemTrace = none
  config : files₀ capture.config = none

variable {build : Build} {files₀ : Files} {capture : Capture}

theorem append_ne {path suffix : Path} (h : suffix ≠ []) : path ++ suffix ≠ path := fun hsame =>
  h (List.append_right_eq_self.mp hsame)

/-- The name of a trace ends in `e`. -/
theorem androidTrace_getLast (directory : Path) (pid nonce : Nat) :
    (androidTrace directory pid nonce).getLast? = some 0x65 := by
  rw [androidTrace, List.getLast?_append]
  rfl

/-- The name of a configuration ends in `t`. -/
theorem androidConfig_getLast (directory : Path) (pid nonce : Nat) :
    (androidConfig directory pid nonce).getLast? = some 0x74 := by
  rw [androidConfig, List.getLast?_append]
  rfl

/-- The last byte of a name that ends in `".tmp"`. -/
theorem suffixed_getLast (output : Path) {suffix : Path}
    (h : suffix ∈ [networkSuffix, systemSuffix, configSuffix, combinedSuffix]) :
    (output ++ suffix).getLast? = some 0x70 := by
  have hlast : suffix.getLast? = some 0x70 := by
    simp only [List.mem_cons, List.not_mem_nil, or_false] at h
    obtain rfl | rfl | rfl | rfl := h <;> rfl
  rw [List.getLast?_append, hlast]
  rfl

/-- Paths that end differently differ. -/
theorem ne_of_getLast {first second : Path} {a b : UInt8} (hfirst : first.getLast? = some a)
    (hsecond : second.getLast? = some b) (h : a ≠ b) : first ≠ second := by
  rintro rfl
  exact h (Option.some.inj (hfirst.symm.trans hsecond))

section

variable (h : Names build files₀ capture)
include h

theorem Names.systemTrace_ne_config :
    capture.systemTrace ≠ capture.config := by
  cases build with
  | host =>
      obtain ⟨hsystem, hconfig⟩ := h.host rfl
      rw [hsystem, hconfig]
      exact fun hsame => absurd (List.append_cancel_left hsame) (by decide)
  | android traceDir configDir =>
      obtain ⟨pid, nonce, hsystem, hconfig⟩ := h.android _ _ rfl
      rw [hsystem, hconfig]
      exact ne_of_getLast (androidTrace_getLast ..) (androidConfig_getLast ..) (by decide)

/-- No name that is made from the output for another file is that of the trace of Perfetto or of the
configuration. -/
theorem Names.suffixed_ne {suffix : Path}
    (hsuffix : suffix = networkSuffix ∨ suffix = combinedSuffix) :
    capture.output ++ suffix ≠ capture.systemTrace ∧ capture.output ++ suffix ≠ capture.config := by
  have hdiffer : suffix ≠ systemSuffix ∧ suffix ≠ configSuffix := by
    obtain rfl | rfl := hsuffix <;> decide
  have hmem : suffix ∈ [networkSuffix, systemSuffix, configSuffix, combinedSuffix] := by
    obtain rfl | rfl := hsuffix <;> decide
  cases build with
  | host =>
      obtain ⟨hsystem, hconfig⟩ := h.host rfl
      rw [hsystem, hconfig]
      exact ⟨fun hsame => hdiffer.1 (List.append_cancel_left hsame),
        fun hsame => hdiffer.2 (List.append_cancel_left hsame)⟩
  | android traceDir configDir =>
      obtain ⟨pid, nonce, hsystem, hconfig⟩ := h.android _ _ rfl
      have hlast := suffixed_getLast capture.output hmem
      rw [hsystem, hconfig]
      exact ⟨ne_of_getLast hlast (androidTrace_getLast ..) (by decide),
        ne_of_getLast hlast (androidConfig_getLast ..) (by decide)⟩

theorem Names.combined_ne_systemTrace :
    capture.combined ≠ capture.systemTrace := (h.suffixed_ne (Or.inr rfl)).1

theorem Names.combined_ne_config :
    capture.combined ≠ capture.config :=
  (h.suffixed_ne (Or.inr rfl)).2

end

section

variable (h : Names build files₀ capture) (hboth : capture.systemOnly = false)
include h hboth

theorem Names.networkTrace_ne_systemTrace :
    capture.networkTrace ≠ capture.systemTrace := by
  rw [(h.networkTrace hboth).1]
  exact (h.suffixed_ne (Or.inl rfl)).1

theorem Names.networkTrace_ne_config :
    capture.networkTrace ≠ capture.config := by
  rw [(h.networkTrace hboth).1]
  exact (h.suffixed_ne (Or.inl rfl)).2

theorem Names.combined_ne_networkTrace :
    capture.combined ≠ capture.networkTrace := by
  rw [(h.networkTrace hboth).1]
  exact fun hsame => absurd (List.append_cancel_left hsame) (by decide)

end

theorem combined_ne_output (capture : Capture) : capture.combined ≠ capture.output :=
  append_ne (by decide)

section

variable (h : Names build files₀ capture)
include h

theorem Names.output_ne_networkTrace (hboth : capture.systemOnly = false) :
    capture.output ≠ capture.networkTrace := by
  rw [(h.networkTrace hboth).1]
  exact (append_ne (by decide)).symm

theorem Names.systemTrace_ne_nil : capture.systemTrace ≠ [] := by
  cases build with
  | host =>
      rw [(h.host rfl).1]
      exact List.append_ne_nil_of_right_ne_nil _ (by decide)
  | android traceDir configDir =>
      obtain ⟨pid, nonce, hsystem, -⟩ := h.android _ _ rfl
      rw [hsystem]
      exact List.append_ne_nil_of_right_ne_nil _ (by decide)

theorem Names.networkTrace_ne_nil (hboth : capture.systemOnly = false) :
    capture.networkTrace ≠ [] := by
  rw [(h.networkTrace hboth).1]
  exact List.append_ne_nil_of_right_ne_nil _ (by decide)

theorem Names.output_ne_of_host (hhost : build = .host) :
    capture.output ≠ capture.systemTrace ∧ capture.output ≠ capture.config := by
  obtain ⟨hsystem, hconfig⟩ := h.host hhost
  rw [hsystem, hconfig]
  exact ⟨(append_ne (by decide)).symm, (append_ne (by decide)).symm⟩

end

end Anettrace.TraceCapture
