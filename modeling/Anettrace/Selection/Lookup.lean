import Anettrace.Selection.Prepared

/-!
# Traces that are looked up

The traces that `trace_prepare` leaves usable, with the functions of the kernel that they stand for.
-/

namespace Anettrace.Selection

open Library Library.Fallible Symbols

/-! ## Before the lookup -/

/-- A trace that a condition rejects is invalid; one that is left valid meets its conditions. -/
theorem traceExecCond_marked (kernel : Kernel) (trace : Trace) :
    trace.Marked (traceExecCond kernel trace) ∧
      ((traceExecCond kernel trace).isInvalid = false →
        trace.cond.all kernel.condition = true) := by
  unfold traceExecCond
  split
  · rename_i hcond
    exact ⟨.refl trace, fun _ => hcond⟩
  · exact ⟨.setInvalidReason trace (by decide), fun h => by
      simp [Trace.setInvalidReason, Trace.isInvalid] at h⟩

/-! ## The lookup -/

/-- The record of a function under the name of a trace, or under that name with a suffix. -/
def Trace.FoundAs (kallsyms : List UInt8) (source new : Trace) : Prop :=
  ∃ record, new.name = record.name ∧
    (Finds kallsyms source.name nameSize false record ∧ new.attachManual = source.attachManual ∨
      Finds kallsyms ((source.name ++ [0x2e]).take (nameSize + 1)) nameSize true record ∧
        new.attachManual = true)

theorem finds_of_found {text name : List UInt8} {isPartial : Bool}
    (h : (symSearchUnique text (some name) (some nameSize) isPartial).1 = .kernel ∨
      (symSearchUnique text (some name) (some nameSize) isPartial).1 = .module) :
    ∃ record, Finds text name nameSize isPartial record ∧
      (symSearchUnique text (some name) (some nameSize) isPartial).2 = some record.name := by
  by_cases hname : name = []
  · rw [symSearchUnique_unavailable text (.inl hname)] at h
    obtain h | h := h <;> cases h
  · rw [symSearchUnique_eq text hname (by decide)] at h ⊢
    rcases hfunctions : functions text name isPartial with _ | ⟨record, _ | ⟨other, rest⟩⟩
    · rw [hfunctions] at h
      obtain h | h := h <;> cases h
    · rw [hfunctions] at h
      dsimp only at h ⊢
      split at h
      · rename_i hsingle
        split at h
        · rename_i hfits
          refine ⟨record, finds_iff.mpr ⟨hname, hfunctions, ?_, hfits⟩, ?_⟩
          · exact Nat.le_antisymm hsingle (named_pos hfunctions)
          · rw [if_pos hsingle, if_pos hfits]
        · obtain h | h := h <;> cases h
      · obtain h | h := h <;> cases h
    · rw [hfunctions] at h
      obtain h | h := h <;> cases h

/-- A trace without what the lookup changes. -/
def Trace.unlooked (trace : Trace) : Trace :=
  { trace with
    name := []
    invalid := []
    attachManual := false
    symbolAmbiguous := false }

/-- What the lookup does to a trace. -/
structure Trace.Looked (kernel : Kernel) (old new : Trace) : Prop where
  unlooked : new.unlooked = old.unlooked
  invalid : ∃ added, new.invalid = old.invalid ++ added ∧
    (old.explicit = true → old.isFunc = true → added = [])
  function : new.isUsable = true → old.isFunc = true → old.FoundAs kernel.kallsyms new
  tracepoint : new.isUsable = true → old.isFunc = false → kernel.tracepoint old.tp = true

/-- What becomes of a function by what the search found. -/
theorem resolveAs_looked {kernel : Kernel} {found : SymStatus × Option (List UInt8)} {manual : Bool}
    {old new : Trace} (h : old.resolveAs found manual = .ok new) (hfunc : old.isFunc = true)
    (hfound : found.1 = .kernel ∨ found.1 = .module → ∃ record, found.2 = some record.name ∧
      (Finds kernel.kallsyms old.name nameSize false record ∧ manual = false ∨
        Finds kernel.kallsyms ((old.name ++ [0x2e]).take (nameSize + 1)) nameSize true record ∧
          manual = true)) : old.Looked kernel new := by
  have hnotp (hused : new.isUsable = true) (htp : old.isFunc = false) :
      kernel.tracepoint old.tp = true :=
    absurd (hfunc.symm.trans htp) nofun
  have hlost {reason : String} {marked : Trace} (hmarked : marked.setInvalidReason reason = new) :
      new.isUsable = true → old.isFunc = true → old.FoundAs kernel.kallsyms new := by
    intro hused
    simp [← hmarked, Trace.isUsable, Trace.isInvalid, Trace.setInvalidReason] at hused
  have hkept {name : List UInt8} {record : Record} (hname : name = record.name)
      (hof : Finds kernel.kallsyms old.name nameSize false record ∧ manual = false ∨
        Finds kernel.kallsyms ((old.name ++ [0x2e]).take (nameSize + 1)) nameSize true record ∧
          manual = true) :
      old.Looked kernel { old with name := name, attachManual := old.attachManual || manual } := by
    refine ⟨rfl, ⟨[], by simp, fun _ _ => rfl⟩, fun _ _ => ⟨record, hname, ?_⟩,
      fun _ htp => absurd (hfunc.symm.trans htp) nofun⟩
    obtain ⟨hfinds, rfl⟩ | ⟨hfinds, rfl⟩ := hof
    · exact .inl ⟨hfinds, Bool.or_false _⟩
    · exact .inr ⟨hfinds, Bool.or_true _⟩
  unfold Trace.resolveAs at h
  split at h
  · split at h
    · cases h
    · rename_i hplain
      have hnew := Except.ok.inj h
      refine ⟨by rw [← hnew]; rfl, ⟨["ambiguous symbol"], by rw [← hnew]; rfl,
        fun hexplicit => absurd hexplicit hplain⟩, hlost hnew, hnotp⟩
  · split at h
    · cases h
    · rename_i hplain
      have hnew := Except.ok.inj h
      refine ⟨by rw [← hnew]; rfl, ⟨["not found"], by rw [← hnew]; rfl,
        fun hexplicit => absurd hexplicit hplain⟩, hlost hnew, hnotp⟩
  · rename_i hkind
    obtain ⟨record, hname, hof⟩ := hfound (.inl hkind)
    obtain rfl := Except.ok.inj h
    exact hkept (by rw [hname]; rfl) hof
  · rename_i hkind
    obtain ⟨record, hname, hof⟩ := hfound (.inr hkind)
    obtain rfl := Except.ok.inj h
    exact hkept (by rw [hname]; rfl) hof

theorem traceResolveSymbol_looked {kernel : Kernel} {old new : Trace}
    (h : traceResolveSymbol kernel.kallsyms old = .ok new) (hfunc : old.isFunc = true) :
    old.Looked kernel new := by
  unfold traceResolveSymbol at h
  dsimp only at h
  split at h
  · refine resolveAs_looked h hfunc fun hkind => ?_
    obtain ⟨record, hfinds, hname⟩ := finds_of_found hkind
    exact ⟨record, hname, .inr ⟨hfinds, rfl⟩⟩
  · refine resolveAs_looked h hfunc fun hkind => ?_
    obtain ⟨record, hfinds, hname⟩ := finds_of_found hkind
    exact ⟨record, hname, .inl ⟨hfinds, rfl⟩⟩

/-- A trace is looked up, or refused. -/
theorem prepareTrace_looked {kernel : Kernel} {old new : Trace}
    (h : prepareTrace kernel old = .ok new) :
    old.Looked kernel new := by
  unfold prepareTrace at h
  split at h
  case isTrue hskipped =>
    obtain rfl := Except.ok.inj h
    have hunused : old.isUsable = false := by
      unfold Trace.isUsable
      cases henable : old.enable <;> simp_all
    refine ⟨rfl, ⟨[], by simp, fun _ _ => rfl⟩, ?_, ?_⟩ <;> intro hused <;>
      exact absurd (hused.symm.trans hunused) nofun
  case isFalse =>
    split at h
    case isTrue htp =>
      obtain rfl := Except.ok.inj h
      rw [Bool.not_eq_true'] at htp
      split
      case isTrue hfound =>
        exact ⟨rfl, ⟨[], by simp, fun _ _ => rfl⟩, fun _ hfunc =>
          absurd (hfunc.symm.trans htp) nofun,
          fun _ _ => hfound⟩
      case isFalse =>
        refine ⟨rfl, ⟨["tp not found"], rfl, fun _ hfunc => absurd (hfunc.symm.trans htp) nofun⟩,
          ?_, ?_⟩ <;>
          intro hused <;> simp [Trace.isUsable, Trace.isInvalid, Trace.setInvalidReason] at hused
    case isFalse hfunc =>
      rw [Bool.not_eq_true', Bool.not_eq_false] at hfunc
      exact traceResolveSymbol_looked h hfunc

/-! ## After the lookup -/

/-- Why a trace is made invalid after it is looked up. -/
def lateReasons : List String :=
  ["monitor", "", "backup"]

/-- A trace may become invalid, and is otherwise kept. -/
structure Trace.Later (old new : Trace) : Prop where
  kept : new = { old with invalid := new.invalid, func := new.func }
  invalid : ∃ added, new.invalid = old.invalid ++ added ∧ ∀ reason ∈ added, reason ∈ lateReasons

namespace Trace.Later

variable {old new last : Trace}

theorem refl (trace : Trace) : trace.Later trace :=
  ⟨rfl, [], by simp, by simp⟩

/-- Later changes follow one another. -/
theorem trans (hfirst : old.Later new) (hsecond : new.Later last) : old.Later last := by
  obtain ⟨first, hinvalid, hreasons⟩ := hfirst.invalid
  obtain ⟨second, hmore, hothers⟩ := hsecond.invalid
  refine ⟨?_, first ++ second, by rw [hmore, hinvalid, List.append_assoc], ?_⟩
  · conv_lhs => rw [hsecond.kept, hfirst.kept]
  · intro reason hmem
    obtain hmem | hmem := List.mem_append.mp hmem
    · exact hreasons reason hmem
    · exact hothers reason hmem

theorem setInvalidReason (trace : Trace) {reason : String} (h : reason ∈ lateReasons) :
    trace.Later (trace.setInvalidReason reason) :=
  ⟨rfl, [reason], rfl, by simpa using h⟩

theorem define (h : old.Later new) : new.define = old.define :=
  (congrArg Trace.define h.kept).trans rfl

theorem enable (h : old.Later new) : new.enable = old.enable :=
  (congrArg Trace.enable h.kept).trans rfl

theorem isUsable (h : old.Later new) (hused : new.isUsable = true) : old.isUsable = true := by
  obtain ⟨added, hadded, -⟩ := h.invalid
  simp only [Trace.isUsable, Trace.isInvalid, Bool.and_eq_true, h.enable, hadded] at hused ⊢
  simp_all

end Trace.Later

/-- Traces of a catalogue may have become invalid. -/
structure Catalogue.Later (old new : Catalogue) : Prop where
  root : new.root = old.root
  traces : List.Forall₂ Trace.Later old.traces new.traces

namespace Catalogue.Later

variable {old new last catalogue : Catalogue}

theorem refl (catalogue : Catalogue) : catalogue.Later catalogue :=
  ⟨rfl, List.forall₂_same.mpr fun trace _ => .refl trace⟩

/-- Later changes of a catalogue follow one another. -/
theorem trans (hfirst : old.Later new) (hsecond : new.Later last) : old.Later last :=
  ⟨hsecond.root.trans hfirst.root,
    Pointwise.trans (fun hmark hmore => hmark.trans hmore) hfirst.traces hsecond.traces⟩

theorem each {mark : Trace → Trace} (h : ∀ trace : Trace, trace.Later (mark trace)) :
    catalogue.Later (catalogue.each mark) :=
  ⟨rfl, Pointwise.map_right fun trace _ => h trace⟩

theorem on {mark : Trace → Trace} (defines : List String)
    (h : ∀ trace : Trace, trace.Later (mark trace)) :
    catalogue.Later (catalogue.on defines mark) := by
  refine each fun trace => ?_
  split
  · exact h trace
  · exact .refl trace

/-- Of a chain of backups one stays valid. -/
theorem keepFirst (catalogue : Catalogue) (hitted : Bool) (chain : List String) :
    catalogue.Later (catalogue.keepFirst hitted chain) := by
  induction chain generalizing catalogue hitted with
  | nil => exact refl catalogue
  | cons define rest ih =>
      unfold Catalogue.keepFirst
      split
      · exact (on [define] fun trace => .setInvalidReason trace (by decide)).trans (ih _ _)
      · exact ih catalogue _

theorem prepareChain (catalogue : Catalogue) (define : String) :
    catalogue.Later (catalogue.prepareChain define) := by
  unfold Catalogue.prepareChain
  split
  · exact keepFirst catalogue false _
  · exact refl catalogue

/-- Several chains of backups are prepared. -/
theorem prepareChains (defines : List String) (catalogue : Catalogue) :
    catalogue.Later (defines.foldl Catalogue.prepareChain catalogue) := by
  induction defines generalizing catalogue with
  | nil => exact refl catalogue
  | cons define rest ih => exact (prepareChain catalogue define).trans (ih _)

end Catalogue.Later

/-! ## Backups -/

/-- A mark that keeps defines does not change which trace is found. -/
theorem find_each {catalogue : Catalogue} {mark : Trace → Trace}
    (h : ∀ trace, (mark trace).define = trace.define) (define : String) :
    (catalogue.each mark).find define = (catalogue.find define).map mark := by
  unfold Catalogue.find Catalogue.each
  rw [List.find?_map]
  congr 2
  funext trace
  exact congrArg (fun name => decide (name = define)) (h trace)

/-- A trace that is there and valid. -/
def Catalogue.valid (catalogue : Catalogue) (define : String) : Bool :=
  (catalogue.find define).any (!·.isInvalid)

namespace Catalogue.Later

variable {old new : Catalogue}

/-- What is found later is what was found, changed. -/
theorem find (h : old.Later new) (define : String) :
    (old.find define = none ∧ new.find define = none) ∨
      ∃ before after, old.find define = some before ∧ new.find define = some after ∧
        before.Later after :=
  Pointwise.find?_cases h.traces fun hlater => by rw [hlater.define]

theorem valid (h : old.Later new) {define : String} (hvalid : new.valid define = true) :
    old.valid define = true := by
  unfold Catalogue.valid at hvalid ⊢
  obtain ⟨-, hnone⟩ | ⟨before, after, hbefore, hafter, hlater⟩ := h.find define
  · rw [hnone] at hvalid
    cases hvalid
  · rw [hafter] at hvalid
    rw [hbefore]
    obtain ⟨added, hadded, -⟩ := hlater.invalid
    simp only [Option.any_some, Trace.isInvalid, hadded] at hvalid ⊢
    simp_all

/-- What becomes of a trace does not change whom it leads to. -/
theorem static (h : old.Later new) (define : String) :
    (new.find define).bind Trace.backup = (old.find define).bind Trace.backup ∧
      (new.find define).any Trace.leads = (old.find define).any Trace.leads := by
  obtain ⟨hnone, hnew⟩ | ⟨before, after, hbefore, hafter, hlater⟩ := h.find define
  · rw [hnone, hnew]
    exact ⟨rfl, rfl⟩
  · rw [hbefore, hafter, hlater.kept]
    exact ⟨rfl, rfl⟩

/-- Backups are chained by what stays. -/
theorem chain (h : old.Later new) (fuel : Nat) (define : String) :
    new.chain fuel define = old.chain fuel define := by
  induction fuel generalizing define with
  | zero => rfl
  | succ fuel ih =>
      unfold Catalogue.chain
      rw [(h.static define).1]
      cases (old.find define).bind Trace.backup with
      | none => rfl
      | some next => exact congrArg (define :: ·) (ih next)

theorem valid_length (h : old.Later new) (defines : List String) :
    (defines.filter new.valid).length ≤ (defines.filter old.valid).length :=
  (List.monotone_filter_right defines fun _ hvalid => h.valid hvalid).length_le

end Catalogue.Later

/-- At most one trace of a chain is left valid, and none behind a valid one. -/
theorem keepFirst_single (catalogue : Catalogue) (hitted : Bool) (chain : List String) :
    (chain.filter (catalogue.keepFirst hitted chain).valid).length ≤ if hitted then 0 else 1 := by
  induction chain generalizing catalogue hitted with
  | nil => exact Nat.zero_le _
  | cons define rest ih =>
      unfold Catalogue.keepFirst
      cases hitted with
      | true =>
          rw [if_pos rfl]
          have hlater := Catalogue.Later.keepFirst
            (catalogue.on [define] (Trace.setInvalidReason "backup")) true rest
          have hmarked : (catalogue.on [define] (Trace.setInvalidReason "backup")).valid define =
              false := by
            unfold Catalogue.valid Catalogue.on
            rw [find_each fun trace => by split <;> rfl]
            cases hfind : catalogue.find define with
            | none => rfl
            | some trace =>
                have hdefine : trace.define = define := by simpa using List.find?_some hfind
                simp [hdefine, Trace.setInvalidReason, Trace.isInvalid]
          have hgone := (Bool.eq_false_iff.mpr fun h =>
            Bool.false_ne_true (hmarked.symm.trans (hlater.valid h)) : _ = false)
          rw [List.filter_cons_of_neg (by simp [hgone])]
          exact ih _ true
      | false =>
          rw [if_neg Bool.false_ne_true]
          change (List.filter (catalogue.keepFirst (catalogue.valid define) rest).valid _).length ≤
            _
          have hrest := ih catalogue (catalogue.valid define)
          have hlater := Catalogue.Later.keepFirst catalogue (catalogue.valid define) rest
          cases hvalid : catalogue.valid define with
          | true =>
              rw [hvalid] at hrest
              rw [List.filter_cons]
              split
              · rw [List.length_cons]
                exact Nat.succ_le_succ hrest
              · exact hrest.trans (Nat.zero_le 1)
          | false =>
              rw [hvalid] at hrest hlater
              have hgone := (Bool.eq_false_iff.mpr fun h =>
                Bool.false_ne_true (hvalid.symm.trans (hlater.valid h)) : _ = false)
              rw [List.filter_cons_of_neg (by simp [hgone])]
              exact hrest

theorem prepareChain_single {catalogue : Catalogue} {define : String}
    (hleads : (catalogue.find define).any Trace.leads = true) :
    ((catalogue.chain catalogue.traces.length define).filter
      (catalogue.prepareChain define).valid).length ≤ 1 := by
  unfold Catalogue.prepareChain
  rw [if_pos hleads]
  exact keepFirst_single catalogue false _

/-- No chain that an enabled trace leads has two valid traces. -/
def Catalogue.Single (catalogue : Catalogue) : Prop :=
  ∀ define, (catalogue.find define).any Trace.leads = true →
    ((catalogue.chain catalogue.traces.length define).filter catalogue.valid).length ≤ 1

/-- Backups are chosen after the look-up. -/
theorem tracePrepareBackup_later (catalogue : Catalogue) :
    catalogue.Later (tracePrepareBackup catalogue) :=
  .prepareChains _ catalogue

/-- Of a chain of backups one is left. -/
theorem tracePrepareBackup_single (catalogue : Catalogue) :
    (tracePrepareBackup catalogue).Single := by
  intro define hleads
  have hall := tracePrepareBackup_later catalogue
  rw [(hall.static define).2] at hleads
  obtain ⟨trace, htrace, -⟩ := (Option.any_eq_true _ _).mp hleads
  have hmem : define ∈ catalogue.traces.map Trace.define :=
    List.mem_map.mpr ⟨trace, List.mem_of_find?_eq_some htrace, by
      simpa using List.find?_some htrace⟩
  obtain ⟨before, after, hsplit⟩ := List.append_of_mem hmem
  rw [hall.chain, ← hall.traces.length_eq]
  unfold tracePrepareBackup
  rw [hsplit, List.foldl_append, List.foldl_cons]
  -- the traces before it leave its chain as it is, those after it make no trace valid again
  have hbefore := Catalogue.Later.prepareChains before catalogue
  generalize before.foldl Catalogue.prepareChain catalogue = reached at hbefore ⊢
  have hchain := @prepareChain_single reached define ((hbefore.static define).2.trans hleads)
  rw [hbefore.chain, ← hbefore.traces.length_eq] at hchain
  exact ((Catalogue.Later.prepareChains after _).valid_length _).trans hchain

end Anettrace.Selection
