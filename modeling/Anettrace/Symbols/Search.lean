import Anettrace.Library.Substrings
import Anettrace.Symbols.Model

/-!
# Unique symbols

`sym_search_unique` of `utils/parse_sym.c`. The records of kallsyms are scanned for a function of a
name, and again for any record of the name found. A name is returned only if neither scan finds a
second record.
-/

namespace Anettrace.Symbols

/-! ## The code -/

/-- `isxdigit` -/
def isHex (byte : UInt8) : Bool := (hexDigit byte).isSome

def isAlpha (byte : UInt8) : Bool := (0x41 ≤ byte && byte ≤ 0x5a) || (0x61 ≤ byte && byte ≤ 0x7a)

/-- The type of a record: a letter or `?`. -/
def isType (type : UInt8) : Bool := isAlpha type || type == 0x3f

/-- `T`, `t`, `W` or `w`. -/
def isFunction (type : UInt8) : Bool := type == 0x54 || type == 0x74 || type == 0x57 || type == 0x77

def startsBlank : List UInt8 → Bool
  | [] => false
  | byte :: _ => isSpace byte

def isModule (column : List UInt8) : Bool :=
  column.length ≥ 3 && column.head? == some 0x5b && column.getLast? == some 0x5d &&
    (column.drop 1).dropLast.all fun byte => !isSpace byte && byte != 0x5b && byte != 0x5d

/-- What a scan keeps of a record. -/
structure Candidate where
  name : List UInt8
  inModule : Bool
  deriving DecidableEq, Repr

/-- The body of the loop, up to where a record counts. -/
def scanLine (functionsOnly : Bool) (name : List UInt8) (isPartial : Bool) (line : List UInt8) :
    Option Candidate :=
  let text := line.rdropWhile isSpace
  let rest := text.dropWhile isHex
  if text.takeWhile isHex = [] ∨ startsBlank rest = false then none
  else
    match rest.dropWhile isSpace with
    | [] => none
    | type :: rest =>
        if isType type = false ∨ (functionsOnly = true ∧ isFunction type = false) ∨
            startsBlank rest = false then none
        else
          let rest := rest.dropWhile isSpace
          let symbol := rest.takeWhile fun byte => !isSpace byte
          if symbol.length < name.length ∨ (isPartial = false ∧ symbol.length ≠ name.length) ∨
              symbol.take name.length ≠ name then none
          else
            let column := (rest.dropWhile fun byte => !isSpace byte).dropWhile isSpace
            if column = [] then some ⟨symbol, false⟩
            else if isModule column = true then some ⟨symbol, true⟩
            else none

/-- The variables that live over the scans. -/
structure ScanState where
  «match» : Option Candidate
  recordCount : Nat
  deriving DecidableEq, Repr

/-- The rest of the body, or nothing if the name is ambiguous. -/
def scanStep (functionsOnly : Bool) (state : ScanState) (record : Candidate) : Option ScanState :=
  if functionsOnly then
    if state.match.isSome then none else some { state with «match» := some record }
  else if state.recordCount + 1 > 1 then none
  else some { state with recordCount := state.recordCount + 1 }

/-- The loop. -/
def scanRecords (functionsOnly : Bool) (name : List UInt8) (isPartial : Bool) :
    ScanState → List (List UInt8) → Option ScanState
  | state, [] => some state
  | state, line :: rest =>
      match scanLine functionsOnly name isPartial line with
      | none => scanRecords functionsOnly name isPartial state rest
      | some record =>
          match scanStep functionsOnly state record with
          | none => none
          | some state => scanRecords functionsOnly name isPartial state rest

/-- `enum sym_status`, as far as it is read. -/
inductive SymStatus where
  | notExist
  | module
  | kernel
  | ambiguous
  deriving DecidableEq, Repr

/-- The status, and the text left in the buffer if there is one. -/
def symSearchUnique (text : List UInt8) (name : Option (List UInt8)) (result : Option Nat)
    (isPartial : Bool) :
    SymStatus × Option (List UInt8) :=
  let size := result.getD 0
  let unavailable := (SymStatus.notExist, if size = 0 then none else some [])
  match name with
  | none => unavailable
  | some name =>
      if name = [] ∨ size = 0 then unavailable
      else
        match scanRecords true name isPartial ⟨none, 0⟩ (lines text) with
        | none => (.ambiguous, some [])
        | some state =>
            match state.match with
            | none => unavailable
            | some found =>
                match scanRecords false found.name false state (lines text) with
                | none => (.ambiguous, some [])
                | some _ =>
                    if found.name.length < size then
                      (if found.inModule then .module else .kernel, some found.name)
                    else unavailable

/-! ## Records -/

/-- A record of kallsyms. -/
structure Record where
  type : UInt8
  name : List UInt8
  inModule : Bool
  deriving DecidableEq, Repr

def Blank (text : List UInt8) : Prop := ∀ byte ∈ text, isSpace byte = true

/-- What may follow the name: nothing, or a module in brackets behind blanks. -/
inductive IsColumn : List UInt8 → Bool → Prop
  | none : IsColumn [] false
  | module {gap name : List UInt8} (hgap : Blank gap) (hsome : gap ≠ []) (hname : name ≠ [])
      (hplain : ∀ byte ∈ name, isSpace byte = false ∧ byte ≠ 0x5b ∧ byte ≠ 0x5d) :
      IsColumn (gap ++ (0x5b :: (name ++ [0x5d]))) true

/-- A line that holds a record: an address, a type, a name, perhaps a module, and perhaps blanks at
the end. -/
inductive IsRecord : List UInt8 → Record → Prop
  | intro {digits gap next column blanks : List UInt8} {record : Record}
      (hdigits : digits ≠ []) (hhex : ∀ byte ∈ digits, isHex byte = true)
      (hgap : Blank gap) (hsome : gap ≠ []) (htype : isType record.type = true)
      (hnext : Blank next) (hmore : next ≠ [])
      (hname : record.name ≠ []) (hplain : ∀ byte ∈ record.name, isSpace byte = false)
      (hcolumn : IsColumn column record.inModule) (hblanks : Blank blanks) :
      IsRecord ((digits ++ (gap ++ (record.type :: (next ++ (record.name ++ column))))) ++ blanks)
        record

def scanRecord (line : List UInt8) : Option Record :=
  let text := line.rdropWhile isSpace
  let rest := text.dropWhile isHex
  if text.takeWhile isHex = [] ∨ startsBlank rest = false then none
  else
    match rest.dropWhile isSpace with
    | [] => none
    | type :: rest =>
        if isType type = false ∨ startsBlank rest = false then none
        else
          let rest := rest.dropWhile isSpace
          let name := rest.takeWhile fun byte => !isSpace byte
          let column := (rest.dropWhile fun byte => !isSpace byte).dropWhile isSpace
          if column = [] then some ⟨type, name, false⟩
          else if isModule column = true then some ⟨type, name, true⟩
          else none

def records (text : List UInt8) : List Record := (lines text).filterMap scanRecord

def Record.answers (name : List UInt8) (isPartial : Bool) (record : Record) : Bool :=
  if isPartial then name.isPrefixOf record.name else record.name == name

/-- The functions that a search for a name asks for. -/
def functions (text name : List UInt8) (isPartial : Bool) : List Record :=
  (records text).filter fun record => isFunction record.type && record.answers name isPartial

def named (text name : List UInt8) : List Record :=
  (records text).filter fun record => record.name == name

/-! ## The record of a line -/

variable {line text column name : List UInt8} {record : Record} {functionsOnly isPartial : Bool}

/-- A blank is less than every digit and letter. -/
theorem toNat_of_space {byte : UInt8} (h : isSpace byte = true) : byte.toNat < 0x30 := by
  simp only [isSpace, Bool.or_eq_true, Bool.and_eq_true, beq_iff_eq, decide_eq_true_eq,
    UInt8.le_iff_toNat_le] at h
  rcases h with rfl | ⟨-, hle⟩
  · decide
  · exact Nat.lt_of_le_of_lt hle (by decide)

theorem isHex_of_space {byte : UInt8} (h : isSpace byte = true) : isHex byte = false := by
  have hsmall := toNat_of_space h
  have hless {digit : UInt8} (hdigit : 0x30 ≤ digit.toNat) : ¬ digit ≤ byte := fun hle =>
    absurd (UInt8.le_iff_toNat_le.mp hle) (by omega)
  rw [isHex, hexDigit, if_neg fun h => hless (by decide) h.1, if_neg fun h => hless (by decide) h.1,
    if_neg fun h => hless (by decide) h.1]
  rfl

theorem isSpace_of_type {type : UInt8} (h : isType type = true) : isSpace type = false := by
  by_contra hblank
  have hsmall := toNat_of_space (Bool.not_eq_false _ ▸ hblank)
  simp only [isType, isAlpha, Bool.or_eq_true, Bool.and_eq_true, beq_iff_eq, decide_eq_true_eq,
    UInt8.le_iff_toNat_le] at h
  rcases h with (⟨hle, -⟩ | ⟨hle, -⟩) | rfl
  · exact absurd (Nat.lt_of_le_of_lt hle hsmall) (by decide)
  · exact absurd (Nat.lt_of_le_of_lt hle hsmall) (by decide)
  · exact absurd hsmall (by decide)

theorem startsBlank_append {gap rest : List UInt8} (hgap : Blank gap) (hsome : gap ≠ []) :
    startsBlank (gap ++ rest) = true := by
  cases gap with
  | nil => exact absurd rfl hsome
  | cons byte more => exact hgap byte List.mem_cons_self

theorem skip_gap {gap rest : List UInt8} (hgap : Blank gap)
    (hrest : ∀ byte ∈ rest.head?, isSpace byte = false) :
    (gap ++ rest).dropWhile isSpace = rest :=
  (Library.Spans.span_iff.mpr ⟨rfl, hgap, hrest⟩).2

theorem IsColumn.last {inModule : Bool} (h : IsColumn column inModule) :
    ∀ byte ∈ column.getLast?, isSpace byte = false := by
  cases h with
  | none => nofun
  | @module gap name hgap hsome hname hplain =>
      have hlast : (gap ++ (0x5b :: (name ++ [0x5d]))).getLast? = some 0x5d := by
        rw [← List.cons_append, ← List.append_assoc, List.getLast?_concat]
      rintro byte hbyte
      obtain rfl : 0x5d = byte := Option.some.inj (hlast.symm.trans hbyte)
      rfl

theorem IsColumn.head {inModule : Bool} (h : IsColumn column inModule) :
    ∀ byte ∈ column.head?, isSpace byte = true := by
  cases h with
  | none => nofun
  | @module gap name hgap hsome hname hplain =>
      rintro byte hbyte
      cases gap with
      | nil => exact absurd rfl hsome
      | cons first rest =>
          obtain rfl : first = byte := Option.some.inj hbyte
          exact hgap first List.mem_cons_self

/-- The brackets of a module. -/
theorem isModule_iff : isModule column = true ↔ ∃ name : List UInt8, column =
    0x5b :: (name ++ [0x5d]) ∧
    name ≠ [] ∧ ∀ byte ∈ name, isSpace byte = false ∧ byte ≠ 0x5b ∧ byte ≠ 0x5d := by
  unfold isModule
  constructor
  · intro h
    simp only [Bool.and_eq_true, decide_eq_true_eq, beq_iff_eq, List.all_eq_true, Bool.not_eq_true',
      bne_iff_ne] at h
    obtain ⟨⟨⟨hlength, hhead⟩, hlast⟩, hplain⟩ := h
    cases column with
    | nil => exact absurd hhead nofun
    | cons first rest =>
        obtain rfl : first = 0x5b := Option.some.inj hhead
        rcases List.eq_nil_or_concat' rest with rfl | ⟨name, last, rfl⟩
        · exact absurd hlength (by decide)
        · rw [← List.cons_append, List.getLast?_concat] at hlast
          obtain rfl : last = 0x5d := Option.some.inj hlast
          refine ⟨name, rfl, ?_, fun byte hbyte => ?_⟩
          · rintro rfl
            exact absurd hlength (by decide)
          · have := hplain byte (by simpa using hbyte)
            exact ⟨this.1.1, this.1.2, this.2⟩
  · rintro ⟨name, rfl, hname, hplain⟩
    have hlength := List.length_pos_iff.mpr hname
    have hlast : (0x5b :: (name ++ [0x5d])).getLast? = some (0x5d : UInt8) := by
      rw [← List.cons_append, List.getLast?_concat]
    simp only [hlast, Bool.and_eq_true, decide_eq_true_eq, beq_iff_eq, List.all_eq_true,
      Bool.not_eq_true',
      bne_iff_ne]
    refine ⟨⟨⟨?_, rfl⟩, trivial⟩, fun byte hbyte => ?_⟩
    · simp only [List.length_cons, List.length_append, List.length_nil]
      omega
    · have := hplain byte (by simpa using hbyte)
      exact ⟨⟨this.1, this.2.1⟩, this.2.2⟩

theorem trim_eq {body blanks : List UInt8} (hbody : ∀ byte ∈ body.getLast?, isSpace byte = false)
    (hblanks : Blank blanks) : (body ++ blanks).rdropWhile isSpace = body :=
  (Library.Spans.rspan_iff.mpr ⟨rfl, hblanks, hbody⟩).1

/-- The name and the column that a text not ending in a blank is read as. -/
theorem name_column_iff {rest : List UInt8} {inModule : Bool}
    (hlast : ∀ byte ∈ rest.getLast?, isSpace byte = false) :
    (rest.takeWhile (fun byte => !isSpace byte) = name ∧
      (if (rest.dropWhile fun byte => !isSpace byte).dropWhile isSpace = [] then some false
        else if isModule ((rest.dropWhile fun byte => !isSpace byte).dropWhile isSpace) =
          true then some true
        else none) = some inModule) ↔
      ∃ column, rest = name ++ column ∧ (∀ byte ∈ name, isSpace byte = false) ∧
        IsColumn column inModule := by
  constructor
  · rintro ⟨hname, hread⟩
    obtain ⟨back, hback⟩ : ∃ back, (rest.dropWhile fun byte => !isSpace byte) = back := ⟨_, rfl⟩
    obtain ⟨gap, hgap⟩ : ∃ gap, back.takeWhile isSpace = gap := ⟨_, rfl⟩
    obtain ⟨last, hlastpart⟩ : ∃ last, back.dropWhile isSpace = last := ⟨_, rfl⟩
    rw [hback, hlastpart] at hread
    obtain ⟨rfl, hplain, hhead⟩ := Library.Spans.span_iff.mp ⟨hname, hback⟩
    obtain ⟨rfl, hblank, -⟩ := Library.Spans.span_iff.mp ⟨hgap, hlastpart⟩
    refine ⟨gap ++ last, rfl, fun byte hbyte => by simpa using hplain byte hbyte, ?_⟩
    split_ifs at hread with hnone hmodule
    · subst hnone
      obtain rfl : false = inModule := Option.some.inj hread
      rcases List.eq_nil_or_concat' gap with rfl | ⟨front, byte, rfl⟩
      · exact .none
      · -- The text would end in a blank.
        have hend :=
          hlast byte (by rw [List.append_nil, ← List.append_assoc]; exact List.getLast?_concat)
        rw [hblank byte (List.mem_append_right _ (List.mem_singleton_self byte))] at hend
        exact absurd hend nofun
    · obtain rfl : true = inModule := Option.some.inj hread
      obtain ⟨module, rfl, hmodule, hinside⟩ := isModule_iff.mp hmodule
      refine .module hblank ?_ hmodule hinside
      rintro rfl
      exact absurd (hhead 0x5b rfl) (by decide)
  · rintro ⟨column, rfl, hplain, hcolumn⟩
    have hnonblank : ∀ byte ∈ name, (!isSpace byte) = true :=
      fun byte hbyte => by rw [hplain byte hbyte]; rfl
    have hspan := Library.Spans.span_iff.mpr ⟨rfl, hnonblank, fun byte hbyte => by
      rw [hcolumn.head byte hbyte]; rfl⟩
    rw [hspan.1, hspan.2]
    refine ⟨rfl, ?_⟩
    cases hcolumn with
    | none => rfl
    | @module gap module hgap hsome hmodule hinside =>
        rw [skip_gap hgap (fun byte hbyte => by
          obtain rfl : 0x5b = byte := Option.some.inj hbyte; rfl)]
        exact (if_neg nofun).trans (if_pos (isModule_iff.mpr ⟨module, rfl, hmodule, hinside⟩))

/-- A gap in front of something else is not empty exactly when the text starts with a blank. -/
theorem startsBlank_iff {gap rest : List UInt8} (hgap : Blank gap)
    (hrest : ∀ byte ∈ rest.head?, isSpace byte = false) :
    startsBlank (gap ++ rest) = true ↔ gap ≠ [] := by
  constructor
  · rintro hblank rfl
    cases rest with
    | nil => exact absurd hblank nofun
    | cons byte more => exact absurd ((hrest byte rfl).symm.trans hblank) nofun
  · exact startsBlank_append hgap

/-- A record that is read is one the line holds. -/
theorem isRecord_of_scanRecord (h : scanRecord line = some record) : IsRecord line record := by
  obtain ⟨text, htext⟩ : ∃ text, line.rdropWhile isSpace = text := ⟨_, rfl⟩
  obtain ⟨blanks, hblanks⟩ : ∃ blanks, line.rtakeWhile isSpace = blanks := ⟨_, rfl⟩
  obtain ⟨digits, hdigits⟩ : ∃ digits, text.takeWhile isHex = digits := ⟨_, rfl⟩
  obtain ⟨rest, hrest⟩ : ∃ rest, text.dropWhile isHex = rest := ⟨_, rfl⟩
  obtain ⟨gap, hgap⟩ : ∃ gap, rest.takeWhile isSpace = gap := ⟨_, rfl⟩
  obtain ⟨more, hmore⟩ : ∃ more, rest.dropWhile isSpace = more := ⟨_, rfl⟩
  rw [scanRecord, htext, hdigits, hrest, hmore] at h
  obtain ⟨rfl, hblank, hend⟩ := Library.Spans.rspan_iff.mp ⟨htext, hblanks⟩
  obtain ⟨rfl, hhex, -⟩ := Library.Spans.span_iff.mp ⟨hdigits, hrest⟩
  obtain ⟨rfl, hgapblank, hmorehead⟩ := Library.Spans.span_iff.mp ⟨hgap, hmore⟩
  dsimp only at h
  split at h
  · exact absurd h nofun
  rename_i hfirst
  obtain ⟨hsome, hstarts⟩ := not_or.mp hfirst
  cases more with
  | nil => exact absurd h nofun
  | cons type back =>
      dsimp only at h
      split at h
      · exact absurd h nofun
      rename_i hsecond
      obtain ⟨htype, hstartsback⟩ := not_or.mp hsecond
      obtain ⟨next, hnext⟩ : ∃ next, back.takeWhile isSpace = next := ⟨_, rfl⟩
      obtain ⟨tail, htail⟩ : ∃ tail, back.dropWhile isSpace = tail := ⟨_, rfl⟩
      rw [htail] at h
      obtain ⟨rfl, hnextblank, htailhead⟩ := Library.Spans.span_iff.mp ⟨hnext, htail⟩
      have hgapne := (startsBlank_iff hgapblank hmorehead).mp (by simpa using hstarts)
      have hnextne := (startsBlank_iff hnextblank htailhead).mp (by simpa using hstartsback)
      have hfront : digits ++ (gap ++ type :: (next ++ tail)) =
          (digits ++ gap ++ type :: next) ++ tail := by
        simp only [List.append_assoc, List.cons_append]
      rw [hfront] at hend
      have htailne : tail ≠ [] := by
        rintro rfl
        obtain ⟨front, byte, rfl⟩ := (List.eq_nil_or_concat' next).resolve_left hnextne
        have hbyte := hend byte (by
          rw [List.append_nil, ← List.cons_append, ← List.append_assoc]
          exact List.getLast?_concat)
        rw [hnextblank byte (List.mem_append_right _ (List.mem_singleton_self byte))] at hbyte
        exact absurd hbyte nofun
      rw [List.getLast?_append_of_ne_nil _ htailne] at hend
      have hread : type = record.type ∧ tail.takeWhile (fun byte => !isSpace byte) = record.name ∧
          (if (tail.dropWhile fun byte => !isSpace byte).dropWhile isSpace = [] then some false
            else if isModule ((tail.dropWhile fun byte => !isSpace byte).dropWhile isSpace) =
              true then
              some true
            else none) = some record.inModule := by
        split_ifs at h ⊢
        · obtain rfl := Option.some.inj h
          exact ⟨rfl, rfl, rfl⟩
        · obtain rfl := Option.some.inj h
          exact ⟨rfl, rfl, rfl⟩
      obtain ⟨rfl, hname⟩ := hread
      obtain ⟨column, rfl, hplain, hcolumn⟩ := (name_column_iff hend).mp hname
      refine .intro (fun h => hsome h) hhex hgapblank hgapne (by simpa using htype)
        hnextblank hnextne ?_
        hplain hcolumn hblank
      intro hnone
      rw [hnone, List.nil_append] at htailhead htailne
      cases column with
      | nil => exact htailne rfl
      | cons byte rest =>
          exact absurd ((hcolumn.head byte rfl).symm.trans (htailhead byte rfl)) nofun

/-- A record that the line holds is read. -/
theorem IsRecord.scanRecord_eq (h : IsRecord line record) : scanRecord line = some record := by
  obtain ⟨hdigits, hhex, hgap, hsome, htype, hnext, hmore, hname, hplain, hcolumn, hblanks⟩ := h
  rename_i digits gap next column blanks
  have htailne : record.name ++ column ≠ [] := fun h => hname (List.append_eq_nil_iff.mp h).1
  have hhead : ∀ byte ∈ (record.name ++ column).head?, isSpace byte = false := by
    rw [List.head?_append_of_ne_nil _ hname]
    exact fun byte hbyte => hplain byte (List.mem_of_mem_head? hbyte)
  have hlast : ∀ byte ∈ (record.name ++ column).getLast?, isSpace byte = false := by
    rw [List.getLast?_append]
    intro byte hbyte
    rcases Option.or_eq_some_iff.mp hbyte with hend | ⟨-, hend⟩
    · exact hcolumn.last byte hend
    · exact hplain byte (List.mem_of_getLast? hend)
  have hfirst : ∀ byte ∈ (record.type :: (next ++ (record.name ++ column))).head?,
      isSpace byte = false := by
    rintro byte hbyte
    obtain rfl : record.type = byte := Option.some.inj hbyte
    exact isSpace_of_type htype
  have htext :
      ((digits ++ (gap ++ (record.type :: (next ++ (record.name ++ column))))) ++ blanks).rdropWhile
      isSpace = digits ++ (gap ++ (record.type :: (next ++ (record.name ++ column)))) := by
    refine trim_eq ?_ hblanks
    have hfront : digits ++ (gap ++ (record.type :: (next ++ (record.name ++ column)))) =
        (digits ++ gap ++ record.type :: next) ++ (record.name ++ column) := by
      simp only [List.append_assoc, List.cons_append]
    rw [hfront, List.getLast?_append_of_ne_nil _ htailne]
    exact hlast
  have hspan := Library.Spans.span_iff.mpr (⟨rfl, hhex, fun byte hbyte => by
    cases gap with
    | nil => exact absurd rfl hsome
    | cons first rest =>
        obtain rfl : first = byte := Option.some.inj hbyte
        exact isHex_of_space (hgap first List.mem_cons_self)⟩ :
    digits ++ (gap ++ (record.type :: (next ++ (record.name ++ column)))) = _ ∧ _)
  rw [scanRecord, htext, hspan.1, hspan.2, skip_gap hgap hfirst]
  obtain ⟨hread, hcol⟩ := (name_column_iff hlast).mpr ⟨column, rfl, hplain, hcolumn⟩
  dsimp only
  rw [if_neg (by simp [hdigits, startsBlank_append hgap hsome]),
    if_neg (by simp [htype, startsBlank_append hnext hmore]), skip_gap hnext hhead, hread]
  split_ifs at hcol ⊢ with hnone hmodule
  · exact congrArg some (congrArg (Record.mk record.type record.name) (Option.some.inj hcol))
  · exact congrArg some (congrArg (Record.mk record.type record.name) (Option.some.inj hcol))

theorem scanRecord_iff : scanRecord line = some record ↔ IsRecord line record :=
  ⟨isRecord_of_scanRecord, IsRecord.scanRecord_eq⟩

/-! ## The scans -/

theorem answers_iff (type : UInt8) (inModule : Bool) :
    Record.answers name isPartial ⟨type, text, inModule⟩ = true ↔
      ¬ (text.length < name.length ∨ (isPartial = false ∧ text.length ≠ name.length) ∨
        text.take name.length ≠ name) := by
  cases isPartial with
  | true =>
      simp only [Record.answers, if_true, List.isPrefixOf_iff_prefix, List.prefix_iff_eq_take]
      constructor
      · intro h
        have hlength := congrArg List.length h
        rw [List.length_take] at hlength
        rintro (hless | ⟨hfalse, -⟩ | hne)
        · omega
        · exact absurd hfalse nofun
        · exact hne h.symm
      · intro h
        by_contra hne
        exact h (Or.inr (Or.inr (Ne.symm hne)))
  | false =>
      simp only [Record.answers, Bool.false_eq_true, if_false, beq_iff_eq]
      constructor
      · rintro rfl
        simp
      · intro h
        by_contra hne
        refine h ?_
        by_cases hlength : text.length = name.length
        · refine Or.inr (Or.inr fun htake => hne ?_)
          rwa [← hlength, List.take_length] at htake
        · exact Or.inr (Or.inl ⟨trivial, hlength⟩)

theorem scanLine_eq : scanLine functionsOnly name isPartial line =
    ((scanRecord line).filter fun record =>
      (!functionsOnly || isFunction record.type) && record.answers name isPartial).map
        fun record => ⟨record.name, record.inModule⟩ := by
  unfold scanLine scanRecord
  dsimp only
  split
  · rfl
  · split
    · rfl
    · rename_i type rest hrest
      by_cases htype : isType type = false ∨ startsBlank rest = false
      · rw [if_pos (htype.imp_right Or.inr), if_pos htype]
        rfl
      · rw [if_neg htype]
        have hanswers (inModule : Bool) :=
          @answers_iff ((rest.dropWhile isSpace).takeWhile fun byte =>
          !isSpace byte) name isPartial type inModule
        by_cases hfunction : functionsOnly = true ∧ isFunction type = false
        · rw [if_pos (Or.inr (Or.inl hfunction))]
          split_ifs
          · simp [Option.filter, hfunction]
          · simp [Option.filter, hfunction]
          · rfl
        · have hkind : (!functionsOnly || isFunction type) = true := by
            cases functionsOnly with
            | true => simpa using hfunction
            | false => rfl
          rw [if_neg (by tauto)]
          split_ifs with hname hcolumn hmodule
          · simp [Option.filter, hkind, mt (hanswers false).mp (not_not.mpr hname)]
          · simp [Option.filter, hkind, mt (hanswers true).mp (not_not.mpr hname)]
          · rfl
          · simp [Option.filter, hkind, (hanswers false).mpr hname]
          · simp [Option.filter, hkind, (hanswers true).mpr hname]
          · rfl

theorem scanRecords_eq (state : ScanState) (rows : List (List UInt8)) :
    scanRecords functionsOnly name isPartial state rows =
      (rows.filterMap (scanLine functionsOnly name isPartial)).foldlM
        (scanStep functionsOnly) state := by
  induction rows generalizing state with
  | nil => rfl
  | cons line rest ih =>
      rw [scanRecords]
      cases hline : scanLine functionsOnly name isPartial line with
      | none => rw [List.filterMap_cons_none hline]; exact ih state
      | some record =>
          rw [List.filterMap_cons_some hline, List.foldlM_cons]
          dsimp only
          cases scanStep functionsOnly state record with
          | none => rfl
          | some next => exact ih next

theorem candidates_eq (functionsOnly : Bool) (name : List UInt8) (isPartial : Bool)
    (rows : List (List UInt8)) :
    rows.filterMap (scanLine functionsOnly name isPartial) =
      ((rows.filterMap scanRecord).filter fun record =>
        (!functionsOnly || isFunction record.type) && record.answers name isPartial).map
          fun record => ⟨record.name, record.inModule⟩ := by
  induction rows with
  | nil => rfl
  | cons line rest ih =>
      rw [List.filterMap_cons, scanLine_eq, List.filterMap_cons, ih]
      cases scanRecord line with
      | none => rfl
      | some record =>
          by_cases hkept : ((!functionsOnly || isFunction record.type) &&
              record.answers name isPartial) = true
          · simp [Option.filter, hkept]
          · simp [Option.filter, hkept]

theorem scanFunctions_eq (text name : List UInt8) (isPartial : Bool) :
    scanRecords true name isPartial ⟨none, 0⟩ (lines text) =
      match functions text name isPartial with
      | [] => some ⟨none, 0⟩
      | [record] => some ⟨some ⟨record.name, record.inModule⟩, 0⟩
      | _ => none := by
  rw [scanRecords_eq, candidates_eq]
  show List.foldlM (scanStep true) ⟨none, 0⟩
    ((functions text name isPartial).map fun record => ⟨record.name, record.inModule⟩) = _
  rcases functions text name isPartial with _ | ⟨record, _ | ⟨other, rest⟩⟩
  · rfl
  · rfl
  · rfl

theorem scanNames_isSome (text name : List UInt8) (found : Option Candidate) :
    (scanRecords false name false ⟨found, 0⟩ (lines text)).isSome = true ↔
      (named text name).length ≤ 1 := by
  rw [scanRecords_eq, candidates_eq]
  show (List.foldlM (scanStep false) ⟨found, 0⟩
    ((named text name).map fun record => ⟨record.name, record.inModule⟩)).isSome = true ↔ _
  rcases named text name with _ | ⟨record, _ | ⟨other, rest⟩⟩
  · exact iff_of_true rfl (Nat.zero_le 1)
  · exact iff_of_true rfl (Nat.le_refl 1)
  · exact iff_of_false nofun (by simp)

/-! ## The lines of a text -/

theorem linesFrom_append (line : List UInt8) {before : List UInt8}
    (hend : before.getLast? = some 0x0a) (after : List UInt8) : linesFrom line (before ++ after) =
    linesFrom line before ++ linesFrom [] after := by
  induction before generalizing line with
  | nil => exact absurd hend nofun
  | cons byte rest ih =>
      rw [List.cons_append, linesFrom, linesFrom]
      cases rest with
      | nil =>
          obtain rfl : byte = 0x0a := Option.some.inj hend
          rfl
      | cons next more =>
          rw [List.getLast?_cons_cons] at hend
          split_ifs
          · rw [ih [] hend, List.cons_append]
          · exact ih _ hend

theorem linesFrom_line (front : List UInt8) (hline : 0x0a ∉ line) (after : List UInt8) :
    linesFrom front (line ++ 0x0a :: after) = (front.reverse ++ line) :: linesFrom [] after := by
  induction line generalizing front with
  | nil => simp [linesFrom]
  | cons byte rest ih =>
      obtain ⟨hbyte, hrest⟩ := not_or.mp (mt List.mem_cons.mpr hline)
      rw [List.cons_append, linesFrom, if_neg (Ne.symm hbyte), ih _ hrest]
      simp

theorem linesFrom_last (front : List UInt8) (hline : 0x0a ∉ line) :
    linesFrom front line = if front.reverse ++ line = [] then [] else [front.reverse ++ line] := by
  induction line generalizing front with
  | nil =>
      rw [linesFrom, List.append_nil]
      by_cases hfront : front = []
      · rw [if_pos hfront, if_pos (by rw [hfront]; rfl)]
      · rw [if_neg hfront, if_neg (by simpa using hfront)]
  | cons byte rest ih =>
      obtain ⟨hbyte, hrest⟩ := not_or.mp (mt List.mem_cons.mpr hline)
      rw [linesFrom, if_neg (Ne.symm hbyte), ih _ hrest]
      simp

/-- A line without a record changes nothing, wherever it stands. -/
theorem records_insert {before : List UInt8} (hbefore : before = [] ∨ before.getLast? = some 0x0a)
    (hbeforezero : 0 ∉ before) (hzero : 0 ∉ line) (hnewline : 0x0a ∉ line)
    (hnone : ∀ record, ¬ IsRecord line record) (after : List UInt8) :
    records (before ++ (line ++ 0x0a :: after)) = records (before ++ after) ∧
      records (before ++ line) = records before := by
  have hscan : scanRecord line = none := by
    cases hscan : scanRecord line with
    | none => rfl
    | some record => exact absurd (isRecord_of_scanRecord hscan) (hnone record)
  have hplain {part : List UInt8} (h : 0 ∉ part) :
      ∀ byte ∈ part, decide (byte ≠ 0) = true := fun byte hbyte =>
    decide_eq_true fun heq => h (heq ▸ hbyte)
  have hlines (rest : List UInt8) : lines (before ++ rest) = lines before ++ lines rest := by
    have hself : before.takeWhile (fun byte => decide (byte ≠ 0)) = before :=
      List.takeWhile_eq_self_iff.mpr (hplain hbeforezero)
    rw [lines, List.takeWhile_append_of_pos (hplain hbeforezero), lines, hself]
    rcases hbefore with rfl | hend
    · rfl
    · exact linesFrom_append [] hend _
  have hthis : lines (line ++ 0x0a :: after) = line :: lines after := by
    rw [lines, List.takeWhile_append_of_pos (hplain hzero), List.takeWhile_cons_of_pos (by decide)]
    exact linesFrom_line [] hnewline _
  have hlast : (lines line).filterMap scanRecord = [] := by
    rw [lines, List.takeWhile_eq_self_iff.mpr (hplain hzero), linesFrom_last [] hnewline]
    split_ifs
    · rfl
    · exact List.filterMap_cons_none hscan
  constructor
  · rw [records, records, hlines, hlines, hthis, List.filterMap_append, List.filterMap_append,
      List.filterMap_cons_none hscan]
  · rw [records, records, hlines, List.filterMap_append, hlast, List.append_nil]

/-! ## The search -/

def Record.isAsked (name : List UInt8) (isPartial : Bool) (record : Record) : Bool :=
  isFunction record.type && record.answers name isPartial

/-- A line holds a record that a search for a name asks for, no other line holds such a record or
one of the same name, and the name fits into the buffer. -/
structure Finds (text name : List UInt8) (size : Nat) (isPartial : Bool) (record : Record) :
    Prop where
  named : name ≠ []
  asked : record.isAsked name isPartial = true
  only : ∃ before line after, lines text = before ++ line :: after ∧ IsRecord line record ∧
    ∀ other ∈ before ++ after, ∀ same, IsRecord other same →
      same.isAsked name isPartial = false ∧ same.name ≠ record.name
  fits : record.name.length < size

theorem records_split {before after : List (List UInt8)}
    (hlines : lines text = before ++ line :: after) (h : IsRecord line record) :
    records text = before.filterMap scanRecord ++ record :: after.filterMap scanRecord := by
  rw [records, hlines, List.filterMap_append, List.filterMap_cons_some (scanRecord_iff.mpr h)]

theorem finds_iff {size : Nat} :
    Finds text name size isPartial record ↔
      name ≠ [] ∧ functions text name isPartial = [record] ∧ (named text record.name).length = 1 ∧
        record.name.length < size := by
  have hcons (rest : List Record) : (record :: rest).filter (fun same => same.name == record.name) =
      record :: rest.filter (fun same => same.name == record.name) :=
    List.filter_cons_of_pos (p := fun same : Record => same.name == record.name)
      (beq_self_eq_true record.name)
  constructor
  · rintro ⟨hname, hasked, ⟨before, line, after, hlines, hline, hothers⟩, hfits⟩
    have hrecords := records_split hlines hline
    have hrest {accepts : Record → Bool} {part : List (List UInt8)} (hpart : part ⊆ before ++ after)
        (h : ∀ other ∈ before ++ after, ∀ same, IsRecord other same → accepts same = false) :
        (part.filterMap scanRecord).filter accepts = [] := by
      refine List.filter_eq_nil_iff.mpr fun same hsame => ?_
      obtain ⟨other, hother, hscan⟩ := List.mem_filterMap.mp hsame
      rw [h other (hpart hother) same (scanRecord_iff.mp hscan)]
      exact Bool.false_ne_true
    have hfunction := fun other hother same hsame => (hothers other hother same hsame).1
    have hsame := fun other hother same hsame =>
      beq_eq_false_iff_ne.mpr (hothers other hother same hsame).2
    refine ⟨hname, ?_, ?_, hfits⟩
    · show (records text).filter (Record.isAsked name isPartial) = [record]
      rw [hrecords, List.filter_append, List.filter_cons_of_pos hasked,
        hrest (List.subset_append_left before after) hfunction,
        hrest (List.subset_append_right before after) hfunction, List.nil_append]
    · rw [Symbols.named, hrecords, List.filter_append, hcons,
        hrest (List.subset_append_left before after) hsame,
        hrest (List.subset_append_right before after) hsame]
      rfl
  · rintro ⟨hname, hfunctions, hsingle, hfits⟩
    obtain ⟨front, back, hrecords, hfront, hasked, hback⟩ := List.filter_eq_cons_iff.mp hfunctions
    obtain ⟨before, rest, hlines, hbefore, hrest⟩ := List.filterMap_eq_append_iff.mp hrecords
    obtain ⟨blank, line, after, hbehind, hblank, hscan, hafter⟩ :=
      List.filterMap_eq_cons_iff.mp hrest
    refine ⟨hname, hasked, ⟨before ++ blank, line, after, ?_, scanRecord_iff.mp hscan, ?_⟩, hfits⟩
    · rw [hlines, hbehind, List.append_assoc]
    · -- the record itself is the one of its name, so the lines around it hold none
      have hnames : front.filter (fun same => same.name == record.name) = [] ∧
          back.filter (fun same => same.name == record.name) = [] := by
        rw [Symbols.named, hrecords, List.filter_append, hcons, List.length_append,
          List.length_cons] at hsingle
        constructor
        · exact List.length_eq_zero_iff.mp (by omega)
        · exact List.length_eq_zero_iff.mp (by omega)
      intro other hother same hsame
      have hmem : same ∈ front ∨ same ∈ back := by
        rcases List.mem_append.mp hother with hother | hother
        · rcases List.mem_append.mp hother with hother | hother
          · exact Or.inl (hbefore ▸ List.mem_filterMap.mpr
              ⟨other, hother, scanRecord_iff.mpr hsame⟩)
          · exact absurd (scanRecord_iff.mpr hsame) (by rw [hblank other hother]; nofun)
        · exact Or.inr (hafter ▸ List.mem_filterMap.mpr ⟨other, hother, scanRecord_iff.mpr hsame⟩)
      rcases hmem with hmem | hmem
      · exact ⟨Bool.eq_false_iff.mpr (hfront same hmem),
          fun heq => List.filter_eq_nil_iff.mp hnames.1 same hmem (beq_iff_eq.mpr heq)⟩
      · exact ⟨Bool.eq_false_iff.mpr (List.filter_eq_nil_iff.mp hback same hmem),
          fun heq => List.filter_eq_nil_iff.mp hnames.2 same hmem (beq_iff_eq.mpr heq)⟩

theorem symSearchUnique_eq (text : List UInt8) {name : List UInt8} {size : Nat} (hname : name ≠ [])
    (hsize : size ≠ 0) (isPartial : Bool) :
    symSearchUnique text (some name) (some size) isPartial =
      match functions text name isPartial with
      | [] => (.notExist, some [])
      | [record] =>
          if (named text record.name).length ≤ 1 then
            if record.name.length < size then
              (if record.inModule then .module else .kernel, some record.name)
            else (.notExist, some [])
          else (.ambiguous, some [])
      | _ => (.ambiguous, some []) := by
  rw [symSearchUnique, Option.getD_some, if_neg hsize]
  rw [if_neg (not_or.mpr ⟨hname, hsize⟩), scanFunctions_eq]
  rcases functions text name isPartial with _ | ⟨record, _ | ⟨other, rest⟩⟩
  · rfl
  · dsimp only
    have hnames := scanNames_isSome text record.name (some ⟨record.name, record.inModule⟩)
    cases hscan : scanRecords false record.name false ⟨some ⟨record.name, record.inModule⟩, 0⟩
      (lines text) with
    | none =>
        rw [hscan] at hnames
        rw [if_neg fun h => absurd (hnames.mpr h) nofun]
    | some state =>
        rw [hscan] at hnames
        rw [if_pos (hnames.mp rfl)]
  · rfl

theorem symSearchUnique_unavailable (text : List UInt8) {name : List UInt8} {size : Nat}
    (h : name = [] ∨ size = 0) (isPartial : Bool) :
    symSearchUnique text (some name) (some size) isPartial =
      (.notExist, if size = 0 then none else some []) :=
  if_pos h

theorem symSearchUnique_congr {other : List UInt8} (h : records text = records other) (size : Nat) :
    symSearchUnique text (some name) (some size) isPartial =
      symSearchUnique other (some name) (some size) isPartial := by
  by_cases hunavailable : name = [] ∨ size = 0
  · rw [symSearchUnique_unavailable text hunavailable,
      symSearchUnique_unavailable other hunavailable]
  · obtain ⟨hname, hsize⟩ := not_or.mp hunavailable
    have hfunctions : functions text name isPartial = functions other name isPartial := by
      rw [functions, functions, h]
    have hnamed : named text = named other := funext fun name => by rw [named, named, h]
    rw [symSearchUnique_eq text hname hsize, symSearchUnique_eq other hname hsize,
      hfunctions, hnamed]

theorem named_pos (h : functions text name isPartial = [record]) :
    0 < (named text record.name).length := by
  have hmem : record ∈ functions text name isPartial := by
    rw [h]
    exact List.mem_singleton_self record
  exact List.length_pos_of_mem (List.mem_filter.mpr
    ⟨(List.mem_filter.mp hmem).1, beq_self_eq_true _⟩)

/-- For a name that is not empty, a search returns the full name of the record it finds; without one
it reports that the name is ambiguous or missing, and leaves an empty text. Lines without a record
change nothing. -/
theorem symSearchUnique_spec (text name : List UInt8) (size : Nat) (isPartial : Bool) :
    (∀ record, Finds text name size isPartial record →
        symSearchUnique text (some name) (some size) isPartial =
          (if record.inModule then .module else .kernel, some record.name)) ∧
      ((∀ record, ¬ Finds text name size isPartial record) →
        ∃ status, (status = .ambiguous ∨ status = .notExist) ∧
          symSearchUnique text (some name) (some size) isPartial =
            (status, if size = 0 then none else some [])) ∧
      ∀ before line after, text = before ++ (line ++ after) →
        (before = [] ∨ before.getLast? = some 0x0a) →
        0 ∉ before → 0 ∉ line → 0x0a ∉ line → (∀ record, ¬ IsRecord line record) →
        (after = [] ∨ after.head? = some 0x0a) →
          symSearchUnique text (some name) (some size) isPartial =
            symSearchUnique (before ++ after.drop 1) (some name) (some size) isPartial := by
  refine ⟨?_, ?_, ?_⟩
  · intro record hfinds
    obtain ⟨hname, honly, hsingle, hfits⟩ := finds_iff.mp hfinds
    rw [symSearchUnique_eq text hname (Nat.ne_of_gt (Nat.zero_lt_of_lt hfits)), honly]
    exact (if_pos hsingle.le).trans (if_pos hfits)
  · intro hnone
    by_cases hunavailable : name = [] ∨ size = 0
    · exact ⟨.notExist, Or.inr rfl, symSearchUnique_unavailable text hunavailable isPartial⟩
    · obtain ⟨hname, hsize⟩ := not_or.mp hunavailable
      rw [symSearchUnique_eq text hname hsize, if_neg hsize]
      rcases hfunctions : functions text name isPartial with _ | ⟨record, _ | ⟨other, rest⟩⟩
      · exact ⟨.notExist, Or.inr rfl, rfl⟩
      · by_cases hsingle : (named text record.name).length ≤ 1
        · have hlength : (named text record.name).length = 1 := by
            have := named_pos hfunctions
            omega
          have hfits : ¬ record.name.length < size := fun hfits =>
            hnone record (finds_iff.mpr ⟨hname, hfunctions, hlength, hfits⟩)
          exact ⟨.notExist, Or.inr rfl, (if_pos hsingle).trans (if_neg hfits)⟩
        · exact ⟨.ambiguous, Or.inl rfl, if_neg hsingle⟩
      · exact ⟨.ambiguous, Or.inl rfl, rfl⟩
  · rintro before line after rfl hbefore hbeforezero hzero hnewline hnone hafter
    refine symSearchUnique_congr ?_ size
    rcases hafter with rfl | hhead
    · rw [List.append_nil, List.drop_nil, List.append_nil]
      exact (records_insert hbefore hbeforezero hzero hnewline hnone []).2
    · cases after with
      | nil => exact absurd hhead nofun
      | cons byte rest =>
          obtain rfl : byte = 0x0a := Option.some.inj hhead
          exact (records_insert hbefore hbeforezero hzero hnewline hnone rest).1

/-- `0 T p` is the only function, and the only record of its name, but an empty prefix finds
nothing. -/
theorem empty_prefix_missing :
    functions [0x30, 0x20, 0x54, 0x20, 0x70, 0x0a] [] true = [⟨0x54, [0x70], false⟩] ∧
      (named [0x30, 0x20, 0x54, 0x20, 0x70, 0x0a] [0x70]).length = 1 ∧
        ([0x70] : List UInt8).length < 256 ∧
      symSearchUnique [0x30, 0x20, 0x54, 0x20, 0x70, 0x0a] (some []) (some 256) true =
        (.notExist, some []) := by
  decide

end Anettrace.Symbols
