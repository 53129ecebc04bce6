import Anettrace.Symbols.Model

/-!
# What the cache changes

A query is answered as with an empty cache exactly if the newest cached symbol that it matches is
the first one of the text, and, where the query is exact, was cached for its own address. On a text
whose function symbols have increasing addresses the first condition always holds, and what is left
is the description of an exact query.
-/

namespace Anettrace.Symbols

open Library.Run

def functionSymbols (text : List UInt8) : List Symbol := (lines text).filterMap scanFunction

def neighbours : List Symbol → List (Symbol × UInt64)
  | previous :: current :: rest => (previous, current.address) :: neighbours (current :: rest)
  | _ => []

def Query.finds (query : Query) (range : Symbol × UInt64) : Bool :=
  if query.exact then range.1.address == query.pc
  else range.1.address ≤ query.pc && query.pc < range.2

def Query.cached (query : Query) (entry : SymResult) : Bool :=
  if query.exact then entry.start == query.pc else entry.around query.pc

/-- The walk over the lines finds the first neighbours that pass the test. -/
theorem symLookupLines_eq (query : Query) (previous : Option Symbol) (text : List (List UInt8)) :
    symLookupLines query previous text =
      ((neighbours (previous.toList ++ text.filterMap scanFunction)).find? query.finds).map
        fun range => ⟨range.1.name, range.1.address, range.2, query.pc⟩ := by
  induction text generalizing previous with
  | nil => cases previous <;> rfl
  | cons line rest ih =>
      unfold symLookupLines
      cases hline : scanFunction line with
      | none =>
          rw [List.filterMap_cons_none hline]
          exact ih previous
      | some current =>
          rw [List.filterMap_cons_some hline]
          cases previous with
          | none => exact ih (some current)
          | some previous =>
              have hfinds : query.finds (previous, current.address) = query.hits previous current :=
                rfl
              simp only [Option.toList_some, List.singleton_append, neighbours, List.find?_cons,
                hfinds]
              cases query.hits previous current with
              | true => rfl
              | false => exact ih (some current)

theorem symLookupProc_eq (text : List UInt8) (query : Query) :
    symLookupProc text query =
      ((neighbours (functionSymbols text)).find? query.finds).map
        fun range => ⟨range.1.name, range.1.address, range.2, query.pc⟩ :=
  symLookupLines_eq query none (lines text)

/-! ## One query -/

theorem symLookupCache_none {cache : List SymResult} {query : Query}
    (h : cache.find? query.cached = none) : symLookupCache cache query = none := by
  have hmatch : cache.find? (fun entry => if query.exact then entry.start == query.pc
      else entry.around query.pc) = none := h
  unfold symLookupCache
  split
  · rename_i hexact
    simp only [hexact, if_true] at hmatch
    rw [hmatch]
  · rename_i hexact
    simp only [hexact, Bool.false_eq_true, if_false] at hmatch
    rw [hmatch]

theorem symLookupCache_some {cache : List SymResult} {query : Query} {entry : SymResult}
    (h : cache.find? query.cached = some entry) :
    ∃ result after, symLookupCache cache query = some (result, after) ∧
      result.desc = (entry.name, (if query.exact then entry.pc else query.pc) - entry.start) ∧
      (after = cache ∨ after = { entry with pc := query.pc } :: cache) := by
  have hmatch : cache.find? (fun entry => if query.exact then entry.start == query.pc
      else entry.around query.pc) = some entry := h
  unfold symLookupCache
  by_cases hexact : query.exact = true
  · simp only [hexact, if_true] at hmatch ⊢
    rw [hmatch]
    exact ⟨entry, cache, rfl, rfl, Or.inl rfl⟩
  · simp only [hexact, Bool.false_eq_true, if_false] at hmatch ⊢
    rw [hmatch]
    by_cases hpc : entry.pc = query.pc
    · exact ⟨entry, cache, if_pos hpc, by rw [← hpc]; rfl, Or.inl rfl⟩
    · exact ⟨{ entry with pc := query.pc }, _, if_neg hpc, rfl, Or.inr rfl⟩

theorem answer_nil {text : List UInt8} {query : Query} (hpc : query.pc ≠ 0) :
    answer text [] query =
      ((neighbours (functionSymbols text)).find? query.finds).map
        fun range => (range.1.name, query.pc - range.1.address) := by
  have hnone : symLookupCache [] query = none := symLookupCache_none rfl
  unfold answer parse
  rw [if_neg hpc, hnone, symLookupProc_eq]
  cases (neighbours (functionSymbols text)).find? query.finds <;> rfl

def FirstSymbol (text : List UInt8) (cache : List SymResult) (query : Query) : Prop :=
  query.pc ≠ 0 → ∀ entry, cache.find? query.cached = some entry →
    (query.exact = true → entry.pc = entry.start) ∧
    ∃ range, (neighbours (functionSymbols text)).find? query.finds = some range ∧
      range.1 = ⟨entry.start, entry.name⟩

/-- One query is answered as with an empty cache under exactly that condition. -/
theorem answer_iff {text : List UInt8} {cache : List SymResult} {query : Query} :
    answer text cache query = answer text [] query ↔ FirstSymbol text cache query := by
  by_cases hpc : query.pc = 0
  · have hnone : ∀ cache, answer text cache query = none := fun cache => by
      unfold answer parse
      rw [if_pos hpc]
      rfl
    rw [hnone, hnone]
    exact ⟨fun _ h => absurd hpc h, fun _ => rfl⟩
  cases hcache : cache.find? query.cached with
  | none =>
      have hsame : answer text cache query = answer text [] query := by
        unfold answer parse
        rw [if_neg hpc, if_neg hpc, symLookupCache_none hcache, symLookupCache_none rfl]
        cases symLookupProc text query <;> rfl
      refine ⟨fun _ _ entry hentry => ?_, fun _ => hsame⟩
      rw [hcache] at hentry
      cases hentry
  | some entry =>
      obtain ⟨result, after, hlookup, hdesc, -⟩ := symLookupCache_some hcache
      have hanswer : answer text cache query =
          some (entry.name, (if query.exact then entry.pc else query.pc) - entry.start) := by
        unfold answer parse
        rw [if_neg hpc, hlookup, ← hdesc]
        rfl
      have hcondition : FirstSymbol text cache query ↔
          (query.exact = true → entry.pc = entry.start) ∧
          ∃ range, (neighbours (functionSymbols text)).find? query.finds = some range ∧
            range.1 = ⟨entry.start, entry.name⟩ := by
        unfold FirstSymbol
        rw [hcache]
        exact ⟨fun h => h hpc entry rfl, fun h _ found hfound => (by cases hfound; exact h)⟩
      rw [hanswer, hcondition, answer_nil hpc]
      cases hfind : (neighbours (functionSymbols text)).find? query.finds with
      | none => simp
      | some range =>
          have hrange : range.1 = ⟨entry.start, entry.name⟩ ↔
              range.1.address = entry.start ∧ range.1.name = entry.name := by
            obtain ⟨⟨address, name⟩, after⟩ := range
            simp
          simp only [Option.map_some, Option.some.injEq, exists_eq_left', Prod.mk.injEq, hrange]
          by_cases hexact : query.exact = true
          · have hstart : entry.start = query.pc := by
              have hentry := List.find?_some hcache
              simpa [Query.cached, hexact] using hentry
            have hfound : range.1.address = query.pc := by
              have hentry := List.find?_some hfind
              simpa [Query.finds, hexact] using hentry
            simp only [hexact, if_true, hfound, hstart, sub_self, true_implies, true_and,
              sub_eq_zero]
            exact ⟨fun h => ⟨h.2, h.1.symm⟩, fun h => ⟨h.2.symm, h.1⟩⟩
          · simp only [hexact, Bool.false_eq_true, if_false, false_implies, true_and, sub_right_inj]
            exact ⟨fun h => ⟨h.2.symm, h.1.symm⟩, fun h => ⟨h.2.symm, h.1.symm⟩⟩

/-! ## Texts with increasing addresses -/

/-- The addresses of the function symbols increase from line to line. -/
def Increasing (text : List UInt8) : Prop :=
  (functionSymbols text).Pairwise fun first second => first.address < second.address

theorem neighbours_mem {symbols : List Symbol} {range : Symbol × UInt64}
    (h : range ∈ neighbours symbols) : range.1 ∈ symbols := by
  induction symbols with
  | nil => cases h
  | cons previous rest ih =>
      cases rest with
      | nil => cases h
      | cons current rest =>
          rcases List.mem_cons.mp h with rfl | hrest
          · exact List.mem_cons_self
          · exact List.mem_cons_of_mem _ (ih hrest)

/-- Increasing symbols have one range around an address, and one that starts at it. -/
theorem neighbours_unique {symbols : List Symbol} {query : Query} {range other : Symbol × UInt64}
    (hincreasing : symbols.Pairwise fun first second => first.address < second.address)
    (hrange : range ∈ neighbours symbols) (hother : other ∈ neighbours symbols)
    (hfinds : query.finds range = true) (hfinds' : query.finds other = true) : range = other := by
  induction symbols with
  | nil => cases hrange
  | cons previous rest ih =>
      cases rest with
      | nil => cases hrange
      | cons current rest =>
          obtain ⟨hprevious, hincreasing⟩ := List.pairwise_cons.mp hincreasing
          -- a later range starts at the end of the first one or behind it
          have hlater : ∀ later ∈ neighbours (current :: rest),
              query.finds (previous, current.address) = true → query.finds later = false := by
            intro later hlater hfirst
            have hmem := neighbours_mem hlater
            have hstart : current.address ≤ later.1.address := by
              rcases List.mem_cons.mp hmem with heq | hrest
              · rw [heq]
                exact UInt64.le_refl _
              · exact UInt64.le_of_lt ((List.pairwise_cons.mp hincreasing).1 _ hrest)
            have hbehind : previous.address < later.1.address := hprevious _ hmem
            unfold Query.finds at hfirst ⊢
            by_cases hexact : query.exact = true
            · simp only [hexact, if_true, beq_iff_eq, beq_eq_false_iff_ne] at hfirst ⊢
              rw [← hfirst]
              exact (UInt64.ne_of_lt hbehind).symm
            · simp only [hexact, Bool.false_eq_true, if_false, Bool.and_eq_true, decide_eq_true_eq,
                Bool.and_eq_false_iff, decide_eq_false_iff_not] at hfirst ⊢
              exact Or.inl (UInt64.not_le.mpr (UInt64.lt_of_lt_of_le hfirst.2 hstart))
          rcases List.mem_cons.mp hrange with rfl | hrange <;>
            rcases List.mem_cons.mp hother with rfl | hother
          · rfl
          · rw [hlater other hother hfinds] at hfinds'
            cases hfinds'
          · rw [hlater range hrange hfinds'] at hfinds
            cases hfinds
          · exact ih hincreasing hrange hother

/-- Every cached symbol comes from neighbours of the text. -/
def FromText (text : List UInt8) (cache : List SymResult) : Prop :=
  ∀ entry ∈ cache, (⟨entry.start, entry.name⟩, entry.end) ∈ neighbours (functionSymbols text)

theorem fromText_next {text : List UInt8} {cache : List SymResult} {query : Query}
    (h : FromText text cache) : FromText text (next text cache query) := by
  unfold next parse
  by_cases hpc : query.pc = 0
  · rw [if_pos hpc]
    exact h
  rw [if_neg hpc]
  cases hcache : cache.find? query.cached with
  | some entry =>
      obtain ⟨result, after, hlookup, -, hafter⟩ := symLookupCache_some hcache
      rw [hlookup]
      rcases hafter with rfl | rfl
      · exact h
      · exact List.forall_mem_cons.mpr ⟨h entry (List.mem_of_find?_eq_some hcache), h⟩
  | none =>
      rw [symLookupCache_none hcache, symLookupProc_eq]
      cases hfind : (neighbours (functionSymbols text)).find? query.finds with
      | none => exact h
      | some range => exact List.forall_mem_cons.mpr ⟨List.mem_of_find?_eq_some hfind, h⟩

def OwnAddress (cache : List SymResult) (query : Query) : Prop :=
  query.pc ≠ 0 → query.exact = true →
    ∀ entry, cache.find? (·.start == query.pc) = some entry → entry.pc = query.pc

/-- Where the addresses increase, only the description of an exact query is left of the
condition. -/
theorem firstSymbol_increasing {text : List UInt8} {cache : List SymResult} {query : Query}
    (hincreasing : Increasing text) (h : FromText text cache) :
    FirstSymbol text cache query ↔ OwnAddress cache query := by
  have hcached : query.exact = true → query.cached = fun entry => entry.start == query.pc :=
    fun hexact => by
      funext entry
      simp [Query.cached, hexact]
  constructor
  · intro hfirst hpc hexact entry hentry
    rw [← hcached hexact] at hentry
    have hstart : entry.start = query.pc := by
      have hfound := List.find?_some hentry
      simpa [Query.cached, hexact] using hfound
    rw [(hfirst hpc entry hentry).1 hexact, hstart]
  · intro hown hpc entry hentry
    have hfound := List.find?_some hentry
    have hmem := h entry (List.mem_of_find?_eq_some hentry)
    refine ⟨fun hexact => ?_, ?_⟩
    · have hstart : entry.start = query.pc := by
        simpa [Query.cached, hexact] using hfound
      rw [hown hpc hexact entry (by rw [← hcached hexact]; exact hentry), hstart]
    · -- the neighbours that the entry comes from pass the test, and no others do
      have hfinds : query.finds (⟨entry.start, entry.name⟩, entry.end) = true := hfound
      cases hfind : (neighbours (functionSymbols text)).find? query.finds with
      | none => exact absurd hfinds (List.find?_eq_none.mp hfind _ hmem)
      | some range =>
          refine ⟨range, rfl, ?_⟩
          rw [neighbours_unique hincreasing (List.mem_of_find?_eq_some hfind) hmem
            (List.find?_some hfind) hfinds]

/-! ## Sequences of queries -/

/-- A sequence of queries is answered as with an empty cache exactly if each of them finds, if
anything, the first symbol of the text in the cache, described for its own address if it is exact.
On a text with increasing addresses the description of the exact queries is all that matters. -/
theorem cache_transparent_iff (text : List UInt8) (queries : List Query) :
    (Transparent text queries ↔ Along (next text) (FirstSymbol text) [] queries) ∧
    (Increasing text → (Transparent text queries ↔ Along (next text) OwnAddress [] queries)) := by
  have hfirst : Transparent text queries ↔ Along (next text) (FirstSymbol text) [] queries := by
    rw [along_iff]
    exact forall₄_congr fun before query later _ => answer_iff
  refine ⟨hfirst, fun hincreasing => hfirst.trans ?_⟩
  have hreached : ∀ before, FromText text (run (next text) [] before) := fun before => by
    refine run_invariant ?_ (fun cache query hcache => fromText_next hcache) before
    exact fun entry hentry => (by cases hentry)
  rw [along_iff, along_iff]
  exact forall₄_congr fun before query later _ =>
    firstSymbol_increasing hincreasing (hreached before)

def twoFunctions : List UInt8 :=
  [0x31, 0x30, 0x20, 0x54, 0x20, 0x61, 0x0a, 0x32, 0x30, 0x20, 0x54, 0x20, 0x62, 0x0a]

/-- An address inside of the first function, and then its start, asked for exactly: the offset that
comes back is that of the address inside. -/
theorem exact_after_inside : ¬ Transparent twoFunctions [⟨false, 0x14⟩, ⟨true, 0x10⟩] := by
  intro h
  exact absurd (h [⟨false, 0x14⟩] ⟨true, 0x10⟩ [] rfl) (by decide)

end Anettrace.Symbols
