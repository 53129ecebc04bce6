import Anettrace.Library.Json
import Anettrace.Library.Substrings
import Mathlib.Data.List.Induction
import Mathlib.Data.List.Nodup

/-!
# Values that are written and read back

A text that is written for a value is loaded as that value, whatever way the characters of strings
are written in, as long as it is read back as the characters.
-/

namespace Library.Json

/-! ## Strings -/

/-- A way to write characters that is read back as the characters. -/
def Encodes (encode : Char → List Char) : Prop :=
  ∀ char rest, readString (encode char ++ rest) = (readString rest).map fun read =>
    (char :: read.1, read.2)

theorem hexDigit_digitChar : ∀ digit < 16, hexDigit (Nat.digitChar digit) = some digit := by
  decide

theorem unhex_hex4 {code : Nat} (h : code < 65536) :
    unhex (Nat.digitChar (code / 4096 % 16)) (Nat.digitChar (code / 256 % 16))
      (Nat.digitChar (code / 16 % 16))
      (Nat.digitChar (code % 16)) = some code := by
  have hdigit (value : Nat) : hexDigit (Nat.digitChar (value % 16)) = some (value % 16) :=
    hexDigit_digitChar _ (Nat.mod_lt _ (by decide))
  simp only [unhex, hdigit, Option.bind_eq_bind, Option.bind_some, Option.some.injEq]
  omega

/-- The escape of a character below the surrogates. -/
theorem readString_hex4 {char : Char} (h : char.toNat < 0xd800) (rest : List Char) :
    readString ('\\' :: 'u' :: (hex4 char.toNat ++ rest)) =
      (readString rest).map fun read => (char :: read.1, read.2) := by
  have hchar : charOf char.toNat = some char := by
    rw [charOf, if_pos (show char.toNat.isValidChar from char.valid), Char.ofNat_toNat]
  have hunhex := @unhex_hex4 char.toNat (by omega)
  have hlow : ¬ isHigh char.toNat = true := by
    simp only [isHigh, Bool.and_eq_true, decide_eq_true_eq]
    omega
  rw [readString.eq_def]
  dsimp only [hex4, List.cons_append, List.nil_append]
  rw [if_neg (by decide), if_pos rfl, if_pos rfl, hunhex]
  dsimp only
  rw [if_neg hlow, hchar]

/-- A letter behind a backslash. -/
theorem readString_escape {letter char : Char} (hletter : letter ≠ 'u')
    (h : unescape letter = some char) (rest : List Char) :
    readString ('\\' :: letter :: rest) = (readString rest).map fun read =>
      (char :: read.1, read.2) := by
  rw [readString.eq_def]
  dsimp only
  rw [if_neg (by decide), if_pos rfl, if_neg hletter, h]

/-- A character that needs no escape. -/
theorem readString_plain {char : Char} (hquote : char ≠ '"') (hslash : char ≠ '\\')
    (h : 0x20 ≤ char.toNat) (rest : List Char) :
    readString (char :: rest) = (readString rest).map fun read => (char :: read.1, read.2) := by
  rw [readString.eq_def]
  dsimp only
  rw [if_neg hquote, if_neg hslash, if_neg (Nat.not_lt.mpr h)]

theorem readString_end (rest : List Char) : readString ('"' :: rest) = some ([], rest) := by
  rw [readString.eq_def]
  exact if_pos rfl

theorem encodes_encodeChar : Encodes encodeChar := by
  intro char rest
  unfold encodeChar
  split_ifs with hslash hquote hnewline hreturn htab hback hfeed hcontrol
  · subst hslash
    exact readString_escape (by decide) rfl rest
  · subst hquote
    exact readString_escape (by decide) rfl rest
  · subst hnewline
    exact readString_escape (by decide) rfl rest
  · subst hreturn
    exact readString_escape (by decide) rfl rest
  · subst htab
    exact readString_escape (by decide) rfl rest
  · obtain rfl : char = Char.ofNat 0x08 := by rw [← hback, Char.ofNat_toNat]
    exact readString_escape (by decide) rfl rest
  · obtain rfl : char = Char.ofNat 0x0c := by rw [← hfeed, Char.ofNat_toNat]
    exact readString_escape (by decide) rfl rest
  · exact readString_hex4 (by omega) rest
  · exact readString_plain hquote hslash (Nat.not_lt.mp hcontrol) rest

variable {encode : Char → List Char}

theorem readString_flatMap {text : List Char}
    (h : ∀ char ∈ text, ∀ rest, readString (encode char ++ rest) =
      (readString rest).map fun read => (char :: read.1, read.2)) (rest : List Char) :
    readString (text.flatMap encode ++ '"' :: rest) = some (text, rest) := by
  induction text with
  | nil => exact readString_end rest
  | cons char more ih =>
      obtain ⟨hchar, hmore⟩ := List.forall_mem_cons.mp h
      rw [List.flatMap_cons, List.append_assoc, hchar, ih hmore]
      rfl

theorem readString_writeString (hencode : Encodes encode) (text rest : List Char) :
    readString (text.flatMap encode ++ '"' :: rest) = some (text, rest) :=
  readString_flatMap (fun char _ => hencode char) rest

/-! ## Numbers -/

def NumberEnds (rest : List Char) : Prop :=
  ∀ char ∈ rest.head?, isDigit char = false ∧ char ≠ '.' ∧ char ≠ 'e' ∧ char ≠ 'E'

variable {text rest digits : List Char}

theorem digits_append (hdigits : ∀ char ∈ digits, isDigit char = true)
    (hrest : ∀ char ∈ rest.head?, isDigit char = false) :
    (digits ++ rest).takeWhile isDigit = digits ∧ (digits ++ rest).dropWhile isDigit = rest :=
  Spans.span_iff.mpr ⟨rfl, hdigits, hrest⟩

theorem readWhole_append (h : IsWhole text) (hrest : ∀ char ∈ rest.head?, isDigit char = false) :
    readWhole (text ++ rest) = some (text, rest) := by
  cases h with
  | zero => rfl
  | digits hfirst hzero hmore =>
      obtain ⟨htake, hdrop⟩ := digits_append hmore hrest
      rw [List.cons_append, readWhole, if_neg hzero, if_pos hfirst, htake, hdrop]

theorem readFraction_append (h : IsFraction text)
    (hrest : ∀ char ∈ rest.head?, isDigit char = false ∧ char ≠ '.') :
    readFraction (text ++ rest) = (text, rest) := by
  cases h with
  | none =>
      cases rest with
      | nil => rfl
      | cons next more => exact if_neg fun hpoint => (hrest next rfl).2 hpoint.1
  | digits hsome hdigits =>
      obtain ⟨htake, hdrop⟩ := digits_append hdigits fun char hchar => (hrest char hchar).1
      rw [List.cons_append, readFraction, htake, hdrop]
      exact if_pos ⟨rfl, hsome⟩

theorem readExponent_append (h : IsExponent text)
    (hrest : ∀ char ∈ rest.head?, isDigit char = false ∧ char ≠ 'e' ∧ char ≠ 'E') :
    readExponent (text ++ rest) = (text, rest) := by
  cases h with
  | none =>
      cases rest with
      | nil => rfl
      | cons next more =>
          exact if_neg fun hmark => hmark.1.elim (hrest next rfl).2.1 (hrest next rfl).2.2
  | @plain mark digits hmark hsome hdigits =>
      obtain ⟨htake, hdrop⟩ := digits_append hdigits fun char hchar => (hrest char hchar).1
      have hsign : readSign (digits ++ rest) = ([], digits ++ rest) := by
        cases digits with
        | nil => exact absurd rfl hsome
        | cons first more =>
            refine if_neg ?_
            have hfirst := hdigits first List.mem_cons_self
            rintro (rfl | rfl)
            · exact absurd hfirst (by decide)
            · exact absurd hfirst (by decide)
      rw [List.cons_append, readExponent, hsign]
      dsimp only
      rw [htake, hdrop]
      exact if_pos ⟨hmark, hsome⟩
  | @signed mark sign digits hmark hsign hsome hdigits =>
      obtain ⟨htake, hdrop⟩ := digits_append hdigits fun char hchar => (hrest char hchar).1
      have hread : readSign (sign :: (digits ++ rest)) = ([sign], digits ++ rest) := if_pos hsign
      rw [List.cons_append, List.cons_append, readExponent, hread]
      dsimp only
      rw [htake, hdrop]
      exact if_pos ⟨hmark, hsome⟩

theorem IsFraction.head (h : IsFraction text) : ∀ char ∈ text.head?, char = '.' := by
  cases h with
  | none => nofun
  | digits hsome hdigits => exact fun char hchar => (Option.some.inj hchar).symm

theorem IsExponent.head (h : IsExponent text) : ∀ char ∈ text.head?, char = 'e' ∨ char = 'E' := by
  cases h with
  | none => nofun
  | plain hmark hsome hdigits => exact fun char hchar => Option.some.inj hchar ▸ hmark
  | signed hmark hsign hsome hdigits => exact fun char hchar => Option.some.inj hchar ▸ hmark

theorem head_append {front back : List Char} {char : Char} (h : char ∈ (front ++ back).head?) :
    char ∈ front.head? ∨ char ∈ back.head? := by
  cases front with
  | nil => exact Or.inr h
  | cons first more => exact Or.inl h

theorem readNumber_append (h : IsNumber text) (hrest : NumberEnds rest) :
    readNumber (text ++ rest) = some (text, rest) := by
  obtain ⟨hsign, hwhole, hfraction, hexponent⟩ := h
  rename_i sign whole fraction exponent
  have hexp : readExponent (exponent ++ rest) = (exponent, rest) :=
    readExponent_append hexponent fun char hchar =>
      ⟨(hrest char hchar).1, (hrest char hchar).2.2.1, (hrest char hchar).2.2.2⟩
  have hbehind : ∀ char ∈ (exponent ++ rest).head?, isDigit char = false ∧ char ≠ '.' := by
    intro char hchar
    rcases head_append hchar with hmark | hend
    · rcases hexponent.head char hmark with rfl | rfl
      · decide
      · decide
    · exact ⟨(hrest char hend).1, (hrest char hend).2.1⟩
  have hfrac : readFraction (fraction ++ (exponent ++ rest)) = (fraction, exponent ++ rest) :=
    readFraction_append hfraction hbehind
  have hread : readWhole (whole ++ (fraction ++ (exponent ++ rest))) =
      some (whole, fraction ++ (exponent ++ rest)) := by
    refine readWhole_append hwhole fun char hchar => ?_
    rcases head_append hchar with hpoint | hend
    · rw [hfraction.head char hpoint]
      decide
    · exact (hbehind char hend).1
  have hnosign : (whole ++ (fraction ++ (exponent ++ rest))).head? ≠ some '-' := by
    cases hwhole with
    | zero => exact fun h => absurd (Option.some.inj h) (by decide)
    | digits hfirst hzero hmore =>
        intro h
        rw [Option.some.inj h] at hfirst
        exact absurd hfirst (by decide)
  simp only [List.append_assoc]
  rcases hsign with rfl | rfl
  · rw [List.nil_append, readNumber, if_neg hnosign]
    dsimp only
    rw [hread]
    dsimp only
    rw [hfrac]
    dsimp only
    rw [hexp]
  · have hminus : (['-'] ++ (whole ++ (fraction ++ (exponent ++ rest)))).head? = some '-' := rfl
    rw [readNumber, if_pos hminus]
    dsimp only [List.cons_append, List.nil_append, List.tail_cons]
    rw [hread]
    dsimp only
    rw [hfrac]
    dsimp only
    rw [hexp]

theorem IsNumber.head (h : IsNumber text) :
    ∃ first more, text = first :: more ∧ (first = '-' ∨ isDigit first = true) := by
  obtain ⟨rfl | rfl, hwhole, hfraction, hexponent⟩ := h
  · cases hwhole with
    | zero => exact ⟨'0', _, rfl, Or.inr rfl⟩
    | digits hfirst hzero hmore => exact ⟨_, _, rfl, Or.inr hfirst⟩
  · exact ⟨'-', _, rfl, Or.inl rfl⟩

/-! ## Dictionaries -/

theorem setMember_new {members : List (List Char × Value)} {key : List Char}
    (h : key ∉ members.map Prod.fst) (value : Value) :
    setMember members key value = members ++ [(key, value)] := by
  refine if_neg ?_
  rw [List.any_eq_true]
  rintro ⟨member, hmember, hkey⟩
  exact h (List.mem_map.mpr ⟨member, hmember, beq_iff_eq.mp hkey⟩)

/-- Pairs with different keys are the members of their dictionary. -/
theorem dict_of_nodup {pairs : List (List Char × Value)} (h : (pairs.map Prod.fst).Nodup) :
    dict pairs = pairs := by
  unfold dict
  induction pairs using List.reverseRecOn with
  | nil => rfl
  | append_singleton front pair ih =>
      rw [List.map_append] at h
      obtain ⟨hfront, -, hapart⟩ := List.nodup_append.mp h
      rw [List.foldl_concat, ih hfront]
      refine setMember_new (fun hmem => ?_) pair.2
      exact hapart pair.1 hmem pair.1 (List.mem_singleton_self _) rfl

/-! ## Values and blanks -/

theorem skipBlanks_newline (level : Nat) (rest : List Char) :
    skipBlanks (newline level ++ rest) = skipBlanks rest := by
  refine List.dropWhile_append_of_pos fun char hchar => ?_
  rcases List.mem_cons.mp hchar with rfl | hspace
  · rfl
  · rw [List.eq_of_mem_replicate hspace]
    rfl

theorem skipBlanks_cons {char : Char} (h : isBlank char = false) (rest : List Char) :
    skipBlanks (char :: rest) = char :: rest :=
  List.dropWhile_cons_of_neg (by simp [h])

/-- No value begins with a blank, with the end of an array or with a byte order mark. -/
theorem write_head {value : Value} (h : Valid value) (level : Nat) :
    ∃ first more, write encode level value = first :: more ∧ isBlank first = false ∧ first ≠ ']' ∧
      first ≠ Char.ofNat 0xfeff := by
  cases h with
  | null => exact ⟨'n', _, by rw [write], by decide, by decide, by decide⟩
  | bool value =>
      cases value with
      | true => exact ⟨'t', _, by rw [write], by decide, by decide, by decide⟩
      | false => exact ⟨'f', _, by rw [write], by decide, by decide, by decide⟩
  | number hnumber =>
      obtain ⟨first, more, rfl, hfirst⟩ := hnumber.head
      refine ⟨first, more, by rw [write], ?_, ?_, ?_⟩
      · by_contra hblank
        simp only [isBlank, Bool.not_eq_false, Bool.or_eq_true, beq_iff_eq] at hblank
        rcases hblank with ((rfl | rfl) | rfl) | rfl
        all_goals exact absurd hfirst (by decide)
      · rintro rfl
        exact absurd hfirst (by decide)
      · rintro rfl
        exact absurd hfirst (by decide)
  | string text => exact ⟨'"', _, by rw [write, writeString], by decide, by decide, by decide⟩
  | @array items hitems =>
      cases items with
      | nil => exact ⟨'[', _, by rw [write], by decide, by decide, by decide⟩
      | cons item rest => exact ⟨'[', _, by rw [write], by decide, by decide, by decide⟩
  | @object members hkeys hmembers =>
      cases members with
      | nil => exact ⟨'{', _, by rw [write], by decide, by decide, by decide⟩
      | cons member rest => exact ⟨'{', _, by rw [write], by decide, by decide, by decide⟩

theorem skipBlanks_write {value : Value} (h : Valid value) (level : Nat) (rest : List Char) :
    skipBlanks (write encode level value ++ rest) = write encode level value ++ rest := by
  obtain ⟨first, more, heq, hblank, -, -⟩ := @write_head encode value h level
  rw [heq, List.cons_append, skipBlanks_cons hblank]

theorem numberEnds_cons {char : Char} {rest : List Char}
    (h : isDigit char = false ∧ char ≠ '.' ∧ char ≠ 'e' ∧ char ≠ 'E') :
    NumberEnds (char :: rest) := by
  rintro next hnext
  obtain rfl : char = next := Option.some.inj hnext
  exact h

theorem numberEnds_items (level : Nat) (items : List Value) (rest : List Char) :
    NumberEnds (writeItems encode level items ++ rest) := by
  cases items with
  | nil =>
      rw [writeItems]
      exact numberEnds_cons (by decide)
  | cons item more =>
      rw [writeItems]
      exact numberEnds_cons (by decide)

theorem numberEnds_members (level : Nat) (members : List (List Char × Value)) (rest : List Char) :
    NumberEnds (writeMembers encode level members ++ rest) := by
  cases members with
  | nil =>
      rw [writeMembers]
      exact numberEnds_cons (by decide)
  | cons member more =>
      rw [writeMembers]
      exact numberEnds_cons (by decide)

/-- A value is read back wherever it is written, given enough steps. -/
def ReadsBack (encode : Char → List Char) (level : Nat) (value : Value) : Prop :=
  ∀ bound rest, (write encode level value).length ≤ bound → NumberEnds rest →
    readValue bound (write encode level value ++ rest) = some (value, rest)

/-- The items of an array, and its end. -/
def ReadsItems (encode : Char → List Char) (level : Nat) (items : List Value) : Prop :=
  ∀ item bound rest, ReadsBack encode (level + 1) item →
    (write encode (level + 1) item).length + (writeItems encode level items).length ≤ bound →
    readItems bound (write encode (level + 1) item ++ (writeItems encode level items ++ rest)) =
      some (item :: items, rest)

theorem readsItems_nil (level : Nat) : ReadsItems encode level [] := by
  intro item bound rest hitem hbound
  have hlength : (writeItems encode level []).length = 2 * level + 2 := by
    simp [writeItems, newline]
  cases bound with
  | zero => omega
  | succ bound =>
      rw [readItems, hitem bound _ (by omega) (numberEnds_items level [] rest)]
      dsimp only
      rw [writeItems, List.append_assoc, skipBlanks_newline, List.singleton_append,
        skipBlanks_cons (by decide)]
      rfl

theorem readsItems_cons {level : Nat} {next : Value} {more : List Value} (hvalid : Valid next)
    (hnext : ReadsBack encode (level + 1) next) (hmore : ReadsItems encode level more) :
    ReadsItems encode level (next :: more) := by
  intro item bound rest hitem hbound
  have hlength : (writeItems encode level (next :: more)).length = 2 * level + 4 +
      ((write encode (level + 1) next).length + (writeItems encode level more).length) := by
    simp [writeItems, newline]
    omega
  cases bound with
  | zero => omega
  | succ bound =>
      rw [readItems, hitem bound _ (by omega) (numberEnds_items level (next :: more) rest)]
      dsimp only
      rw [writeItems, List.cons_append, skipBlanks_cons (by decide)]
      change (readItems bound (skipBlanks _)).map _ = _
      rw [List.append_assoc, skipBlanks_newline, List.append_assoc, skipBlanks_write hvalid,
        hmore next bound rest hnext (by omega)]
      rfl

/-- The members of an object, and its end. -/
def ReadsMembers (encode : Char → List Char) (level : Nat) (members : List (List Char × Value)) :
    Prop :=
  ∀ key value bound rest, Valid value → ReadsBack encode (level + 1) value →
    (write encode (level + 1) value).length + (writeMembers encode level members).length ≤ bound →
    readMembers bound (writeString encode key ++
        (':' :: ' ' :: (write encode (level + 1) value ++
          (writeMembers encode level members ++ rest)))) =
      some ((key, value) :: members, rest)

theorem readMembers_value (hencode : Encodes encode) {level bound : Nat} {value : Value}
    (hvalid : Valid value) (hvalue : ReadsBack encode (level + 1) value)
    (hbound : (write encode (level + 1) value).length ≤ bound) (key : List Char) {rest : List Char}
    (hrest : NumberEnds rest) :
    readMembers (bound + 1) (writeString encode key ++
      (':' :: ' ' :: (write encode (level + 1) value ++ rest))) =
      match skipBlanks rest with
      | '}' :: rest => some ([(key, value)], rest)
      | ',' :: rest => (readMembers bound (skipBlanks rest)).map fun (members, rest) =>
          ((key, value) :: members, rest)
      | _ => none := by
  have hspace (text : List Char) : skipBlanks (' ' :: text) = skipBlanks text :=
    List.dropWhile_cons_of_pos rfl
  rw [writeString, List.cons_append, List.append_assoc, List.singleton_append, readMembers,
    readString_writeString hencode]
  dsimp only
  rw [skipBlanks_cons (by decide)]
  simp only [hspace, skipBlanks_write hvalid]
  have hread := hvalue bound rest hbound hrest
  generalize readValue bound (write encode (level + 1) value ++ rest) = read at hread ⊢
  subst hread
  rfl

theorem readsMembers_nil (hencode : Encodes encode) (level : Nat) :
    ReadsMembers encode level [] := by
  intro key value bound rest hvalid hvalue hbound
  have hlength : (writeMembers encode level []).length = 2 * level + 2 := by
    simp [writeMembers, newline]
  cases bound with
  | zero => omega
  | succ bound =>
      rw [readMembers_value hencode hvalid hvalue (by omega) key (numberEnds_members level [] rest),
        writeMembers,
        List.append_assoc, skipBlanks_newline, List.singleton_append, skipBlanks_cons (by decide)]
      rfl

theorem readsMembers_cons (hencode : Encodes encode) {level : Nat} {next : List Char × Value}
    {more : List (List Char × Value)} (hvalidNext : Valid next.2)
    (hnext : ReadsBack encode (level + 1) next.2)
    (hmore : ReadsMembers encode level more) : ReadsMembers encode level (next :: more) := by
  intro key value bound rest hvalid hvalue hbound
  obtain ⟨nextKey, nextValue⟩ := next
  have hlength : 2 * level + 4 + ((write encode (level + 1) nextValue).length +
      (writeMembers encode level more).length) ≤
        (writeMembers encode level ((nextKey, nextValue) :: more)).length := by
    simp [writeMembers, newline]
    omega
  have hquote (text : List Char) : skipBlanks (writeString encode nextKey ++ text) =
      writeString encode nextKey ++ text := skipBlanks_cons (by decide) _
  cases bound with
  | zero => omega
  | succ bound =>
      rw [readMembers_value hencode hvalid hvalue (by omega) key
        (numberEnds_members level ((nextKey, nextValue) :: more) rest), writeMembers,
        List.cons_append,
        skipBlanks_cons (by decide)]
      change (readMembers bound (skipBlanks _)).map _ = _
      rw [List.append_assoc, skipBlanks_newline, List.append_assoc, hquote, List.cons_append,
        List.cons_append,
        List.append_assoc, hmore nextKey nextValue bound rest hvalidNext hnext (by omega)]
      rfl

theorem readsItems_of_forall {level : Nat} {items : List Value}
    (h : ∀ item ∈ items, Valid item ∧ ReadsBack encode (level + 1) item) :
    ReadsItems encode level items := by
  induction items with
  | nil => exact readsItems_nil level
  | cons item rest ih =>
      obtain ⟨⟨hvalid, hitem⟩, hrest⟩ := List.forall_mem_cons.mp h
      exact readsItems_cons hvalid hitem (ih hrest)

theorem readsMembers_of_forall (hencode : Encodes encode) {level : Nat}
    {members : List (List Char × Value)}
    (h : ∀ member ∈ members, Valid member.2 ∧ ReadsBack encode (level + 1) member.2) :
    ReadsMembers encode level members := by
  induction members with
  | nil => exact readsMembers_nil hencode level
  | cons member rest ih =>
      obtain ⟨⟨hvalid, hmember⟩, hrest⟩ := List.forall_mem_cons.mp h
      exact readsMembers_cons hencode hvalid hmember (ih hrest)

/-- The first step of reading a text that does not begin like a value of another kind. -/
theorem readValue_number {first : Char} (h : first = '-' ∨ isDigit first = true) (bound : Nat)
    (more : List Char) :
    readValue (bound + 1) (first :: more) =
      (readNumber (first :: more)).map fun (text, rest) => (.number text, rest) := by
  have hne {other : Char} (hminus : other ≠ '-') (hdigit : isDigit other = false) :
      first ≠ other := by
    rintro rfl
    rcases h with rfl | h
    · exact hminus rfl
    · exact absurd (hdigit.symm.trans h) nofun
  have hword {letter : Char} (hminus : letter ≠ '-') (hdigit : isDigit letter = false)
      (word : List Char) :
      ¬ (letter :: word).isPrefixOf (first :: more) = true := by
    simp [List.isPrefixOf, (hne hminus hdigit).symm]
  rw [readValue, if_neg (hne (by decide) (by decide)), if_neg (hne (by decide) (by decide)),
    if_neg (hne (by decide) (by decide)), if_neg (hword (by decide) (by decide) _),
    if_neg (hword (by decide) (by decide) _), if_neg (hword (by decide) (by decide) _)]

/-- What is written is read back. -/
theorem Valid.readsBack (hencode : Encodes encode) {value : Value} (h : Valid value) (level : Nat) :
    ReadsBack encode level value := by
  induction h generalizing level with
  | null =>
      intro bound rest hbound hrest
      cases bound with
      | zero => exact absurd hbound (by rw [write]; decide)
      | succ bound => rw [write]; rfl
  | bool value =>
      intro bound rest hbound hrest
      cases bound with
      | zero => cases value <;> exact absurd hbound (by rw [write]; decide)
      | succ bound => cases value <;> rw [write] <;> rfl
  | @number text hnumber =>
      intro bound rest hbound hrest
      obtain ⟨first, more, rfl, hfirst⟩ := hnumber.head
      rw [write] at hbound ⊢
      cases bound with
      | zero => exact absurd hbound (by simp)
      | succ bound =>
          rw [List.cons_append, readValue_number hfirst, ← List.cons_append,
            readNumber_append hnumber hrest]
          rfl
  | string text =>
      intro bound rest hbound hrest
      rw [write, writeString] at hbound ⊢
      cases bound with
      | zero => exact absurd hbound (by simp)
      | succ bound =>
          rw [List.cons_append, readValue, if_pos rfl, List.append_assoc, List.singleton_append,
            readString_writeString hencode]
          rfl
  | @array items hvalid ih =>
      intro bound rest hbound hrest
      cases items with
      | nil =>
          cases bound with
          | zero => exact absurd hbound (by rw [write]; decide)
          | succ bound => rw [write]; rfl
      | cons item more =>
          obtain ⟨hitem, hmore⟩ := List.forall_mem_cons.mp hvalid
          have hread := readsItems_of_forall fun other hother =>
            ⟨hmore other hother, ih other (List.mem_cons_of_mem _ hother) (level + 1)⟩
          obtain ⟨first, _, hhead, -, hfirst, -⟩ := @write_head encode item hitem (level + 1)
          rw [write] at hbound ⊢
          simp only [List.length_cons, List.length_append] at hbound
          cases bound with
          | zero => omega
          | succ bound =>
              have hsome (rest : List Char) : (write encode (level + 1) item ++ rest).head? ≠
                  some ']' := by
                rw [hhead]
                exact fun h => hfirst (Option.some.inj h)
              rw [List.cons_append, readValue, if_neg (by decide), if_neg (by decide), if_pos rfl,
                List.append_assoc, skipBlanks_newline, List.append_assoc, skipBlanks_write hitem,
                if_neg (hsome _), hread item bound rest
                  (ih item List.mem_cons_self (level + 1)) (by omega)]
              rfl
  | @object members hkeys hvalid ih =>
      intro bound rest hbound hrest
      cases members with
      | nil =>
          cases bound with
          | zero => exact absurd hbound (by rw [write]; decide)
          | succ bound => rw [write]; rfl
      | cons member more =>
          obtain ⟨key, value⟩ := member
          obtain ⟨hvalue, hmore⟩ := List.forall_mem_cons.mp hvalid
          have hread := readsMembers_of_forall hencode fun other hother =>
            ⟨hmore other hother, ih other (List.mem_cons_of_mem _ hother) (level + 1)⟩
          rw [write] at hbound ⊢
          simp only [List.length_cons, List.length_append] at hbound
          cases bound with
          | zero => omega
          | succ bound =>
              have hquote (text : List Char) : skipBlanks (writeString encode key ++ text) =
                  writeString encode key ++ text := skipBlanks_cons (by decide) _
              have hsome (text : List Char) : (writeString encode key ++ text).head? ≠ some '}' :=
                fun h => absurd (Option.some.inj h) (by decide)
              rw [List.cons_append, readValue, if_neg (by decide), if_pos rfl, List.append_assoc,
                skipBlanks_newline, List.append_assoc, hquote, if_neg (hsome _), List.cons_append,
                List.cons_append, List.append_assoc,
                hread key value bound rest hvalue (ih (key, value) List.mem_cons_self (level + 1))
                  (by omega)]
              exact congrArg (fun members => some (Value.object members, rest))
                (dict_of_nodup hkeys)

theorem loads_write (hencode : Encodes encode) {value : Value} (h : Valid value)
    {blanks : List Char} (hblanks : ∀ char ∈ blanks, isBlank char = true) :
    loads (write encode 0 value ++ blanks) = some value := by
  obtain ⟨first, more, hhead, -, -, hmark⟩ := @write_head encode value h 0
  have hend : NumberEnds blanks := by
    intro char hchar
    have hblank := hblanks char (List.mem_of_mem_head? hchar)
    simp only [isBlank, Bool.or_eq_true, beq_iff_eq] at hblank
    rcases hblank with ((rfl | rfl) | rfl) | rfl
    all_goals decide
  have hskip : skipBlanks blanks = [] := List.dropWhile_eq_nil_iff.mpr hblanks
  have hbom : (write encode 0 value ++ blanks).head? ≠ some (Char.ofNat 0xfeff) := by
    rw [hhead]
    exact fun h => hmark (Option.some.inj h)
  rw [loads, if_neg hbom, skipBlanks_write h, h.readsBack hencode 0 _ blanks (by simp; omega) hend]
  exact if_pos hskip

/-! ## Texts rewritten character by character -/

/-- The characters outside strings, and the quotes around them. -/
def isPlain (char : Char) : Bool :=
  isDigit char || ['{', '}', '[', ']', ':', ',', '"', ' ', '\n', '-', '+', '.', 'e', 'E', 'n', 'u',
    'l', 't', 'r',
    'f', 'a', 's'].contains char

theorem IsNumber.plain (h : IsNumber text) : ∀ char ∈ text, isPlain char = true := by
  have hdigit {digits : List Char} (hdigits : ∀ char ∈ digits, isDigit char = true) :
      ∀ char ∈ digits, isPlain char = true :=
        fun char hchar => by simp [isPlain, hdigits char hchar]
  obtain ⟨hsign, hwhole, hfraction, hexponent⟩ := h
  intro char hchar
  rcases List.mem_append.mp hchar with hin | hin
  · rcases hsign with rfl | rfl
    · exact absurd hin List.not_mem_nil
    · rw [List.mem_singleton.mp hin]
      decide
  rcases List.mem_append.mp hin with hin | hin
  · cases hwhole with
    | zero =>
        rw [List.mem_singleton.mp hin]
        decide
    | digits hfirst hzero hmore => exact hdigit (List.forall_mem_cons.mpr ⟨hfirst, hmore⟩) char hin
  rcases List.mem_append.mp hin with hin | hin
  · cases hfraction with
    | none => exact absurd hin List.not_mem_nil
    | digits hsome hdigits =>
        rcases List.mem_cons.mp hin with rfl | hin
        · decide
        · exact hdigit hdigits char hin
  · have hletter {mark : Char} (hmark : mark = 'e' ∨ mark = 'E') : isPlain mark = true := by
      rcases hmark with rfl | rfl
      · decide
      · decide
    cases hexponent with
    | none => exact absurd hin List.not_mem_nil
    | plain hmark hsome hdigits =>
        rcases List.mem_cons.mp hin with rfl | hin
        · exact hletter hmark
        · exact hdigit hdigits char hin
    | signed hmark hsign hsome hdigits =>
        rcases List.mem_cons.mp hin with rfl | hin
        · exact hletter hmark
        · rcases List.mem_cons.mp hin with rfl | hin
          · rcases hsign with rfl | rfl
            · decide
            · decide
          · exact hdigit hdigits char hin

variable {rewrite : Char → List Char}

/-- A way to rewrite characters that leaves alone those outside strings. -/
def KeepsPlain (rewrite : Char → List Char) : Prop :=
  ∀ char, isPlain char = true → rewrite char = [char]

theorem flatMap_self (h : ∀ char ∈ text, rewrite char = [char]) : text.flatMap rewrite = text := by
  induction text with
  | nil => rfl
  | cons char rest ih =>
      obtain ⟨hchar, hrest⟩ := List.forall_mem_cons.mp h
      rw [List.flatMap_cons, hchar, ih hrest, List.singleton_append]

theorem KeepsPlain.plain (hplain : KeepsPlain rewrite) (h : ∀ char ∈ text, isPlain char = true) :
    text.flatMap rewrite = text :=
  flatMap_self fun char hchar => hplain char (h char hchar)

/-- The same for a text given by its characters. -/
theorem KeepsPlain.word (hplain : KeepsPlain rewrite) (h : text.all isPlain = true) :
    text.flatMap rewrite = text :=
  hplain.plain (List.all_eq_true.mp h)

theorem KeepsPlain.newline (hplain : KeepsPlain rewrite) (level : Nat) :
    (newline level).flatMap rewrite = Json.newline level := by
  refine hplain.plain fun char hchar => ?_
  rcases List.mem_cons.mp hchar with rfl | hspace
  · decide
  · rw [List.eq_of_mem_replicate hspace]
    decide

theorem KeepsPlain.string (hplain : KeepsPlain rewrite) (text : List Char) :
    (writeString encode text).flatMap rewrite =
      writeString (fun char => (encode char).flatMap rewrite) text := by
  rw [writeString, writeString, List.flatMap_cons, List.flatMap_append, hplain '"' (by decide),
    List.flatMap_assoc, List.flatMap_singleton, hplain '"' (by decide), List.singleton_append]

theorem KeepsPlain.items (hplain : KeepsPlain rewrite) {level : Nat} {items : List Value}
    (h : ∀ item ∈ items, (write encode (level + 1) item).flatMap rewrite =
      write (fun char => (encode char).flatMap rewrite) (level + 1) item) :
    (writeItems encode level items).flatMap rewrite =
      writeItems (fun char => (encode char).flatMap rewrite) level items := by
  induction items with
  | nil =>
      rw [writeItems, writeItems, List.flatMap_append, hplain.newline, hplain.word (by decide)]
  | cons item rest ih =>
      obtain ⟨hitem, hrest⟩ := List.forall_mem_cons.mp h
      rw [writeItems, writeItems, List.flatMap_cons, hplain ',' (by decide), List.flatMap_append,
        hplain.newline,
        List.flatMap_append, hitem, ih hrest, List.singleton_append]

theorem KeepsPlain.members (hplain : KeepsPlain rewrite) {level : Nat}
    {members : List (List Char × Value)}
    (h : ∀ member ∈ members, (write encode (level + 1) member.2).flatMap rewrite =
      write (fun char => (encode char).flatMap rewrite) (level + 1) member.2) :
    (writeMembers encode level members).flatMap rewrite =
      writeMembers (fun char => (encode char).flatMap rewrite) level members := by
  induction members with
  | nil =>
      rw [writeMembers, writeMembers, List.flatMap_append, hplain.newline, hplain.word (by decide)]
  | cons member rest ih =>
      obtain ⟨hmember, hrest⟩ := List.forall_mem_cons.mp h
      rw [writeMembers, writeMembers, List.flatMap_cons, hplain ',' (by decide),
        List.flatMap_append,
        hplain.newline, List.flatMap_append, hplain.string, List.flatMap_cons,
          hplain ':' (by decide),
        List.flatMap_cons, hplain ' ' (by decide), List.flatMap_append, hmember, ih hrest]
      rfl

/-- What is outside strings stays, and characters of strings are written in another way. -/
theorem Valid.flatMap_write (hplain : KeepsPlain rewrite) {value : Value} (h : Valid value)
    (level : Nat) :
    (write encode level value).flatMap rewrite =
      write (fun char => (encode char).flatMap rewrite) level value := by
  induction h generalizing level with
  | null => rw [write, write, hplain.word (by decide)]
  | bool value =>
      cases value with
      | true => rw [write, write, hplain.word (by decide)]
      | false => rw [write, write, hplain.word (by decide)]
  | number hnumber => rw [write, write, hplain.plain hnumber.plain]
  | string text => rw [write, write, hplain.string]
  | @array items hvalid ih =>
      cases items with
      | nil => rw [write, write, hplain.word (by decide)]
      | cons item rest =>
          obtain ⟨hitem, hrest⟩ := List.forall_mem_cons.mp ih
          rw [write, write, List.flatMap_cons, hplain '[' (by decide), List.flatMap_append,
            hplain.newline,
            List.flatMap_append, hitem, hplain.items fun other hother =>
              hrest other hother (level + 1),
            List.singleton_append]
  | @object members hkeys hvalid ih =>
      cases members with
      | nil => rw [write, write, hplain.word (by decide)]
      | cons member rest =>
          obtain ⟨hmember, hrest⟩ := List.forall_mem_cons.mp ih
          rw [write, write, List.flatMap_cons, hplain '{' (by decide), List.flatMap_append,
            hplain.newline,
            List.flatMap_append, hplain.string, List.flatMap_cons, hplain ':' (by decide),
              List.flatMap_cons,
            hplain ' ' (by decide), List.flatMap_append, hmember,
            hplain.members fun other hother => hrest other hother (level + 1)]
          rfl

/-- A character that is neither plain nor used to write strings is not written. -/
theorem Valid.not_mem_write {value : Value} (h : Valid value) (level : Nat) {char : Char}
    (hplain : isPlain char = false) (hencode : ∀ each, char ∉ encode each) :
    char ∉ write encode level value := by
  -- Leaving the character out changes nothing.
  have hkeeps : KeepsPlain fun each => if each = char then [] else [each] := by
    intro each heach
    refine if_neg ?_
    rintro rfl
    exact absurd (hplain.symm.trans heach) nofun
  have hsame : (fun each => (encode each).flatMap fun other => if other = char then []
      else [other]) = encode := by
    refine funext fun each => flatMap_self fun other hother => if_neg ?_
    rintro rfl
    exact hencode each hother
  have hwrite := @Valid.flatMap_write encode _ hkeeps value h level
  rw [hsame] at hwrite
  intro hmem
  rw [← hwrite] at hmem
  obtain ⟨other, -, hother⟩ := List.mem_flatMap.mp hmem
  split_ifs at hother with heq
  · exact absurd hother List.not_mem_nil
  · exact heq (List.mem_singleton.mp hother).symm

/-! ## Comparison -/

theorem lookup_of_mem {members : List (List Char × Value)} (hkeys : (members.map Prod.fst).Nodup)
    {member : List Char × Value} (hmem : member ∈ members) :
    members.lookup member.1 = some member.2 := by
  induction members with
  | nil => exact absurd hmem List.not_mem_nil
  | cons first rest ih =>
      obtain ⟨hfirst, hrest⟩ := List.nodup_cons.mp hkeys
      rcases List.mem_cons.mp hmem with rfl | hmem
      · exact List.lookup_cons_self
      · have hne : (member.1 == first.1) = false :=
          beq_eq_false_iff_ne.mpr fun heq => hfirst (heq ▸ List.mem_map_of_mem hmem)
        rw [List.lookup_cons, hne]
        exact ih hrest hmem

theorem sameItems_self {items : List Value} (h : ∀ item ∈ items, same item item = true) :
    sameItems items items = true := by
  induction items with
  | nil => rw [sameItems]
  | cons item rest ih =>
      obtain ⟨hitem, hrest⟩ := List.forall_mem_cons.mp h
      rw [sameItems, hitem, ih hrest]
      rfl

theorem sameMembers_of_subset {others members : List (List Char × Value)}
    (hkeys : (others.map Prod.fst).Nodup) (hsubset : members ⊆ others)
    (h : ∀ member ∈ members, same member.2 member.2 = true) :
    sameMembers others members = true := by
  induction members with
  | nil => rw [sameMembers]
  | cons member rest ih =>
      obtain ⟨hmember, hrest⟩ := List.forall_mem_cons.mp h
      obtain ⟨hin, hmore⟩ := List.cons_subset.mp hsubset
      rw [sameMembers, lookup_of_mem hkeys hin, ih hmore hrest]
      exact (Bool.and_true _).trans hmember

theorem Valid.same_self {value : Value} (h : Valid value) : same value value = true := by
  induction h with
  | null => rw [same]
  | bool value => rw [same, beq_self_eq_true]
  | number hnumber => rw [same, beq_self_eq_true]
  | string text => rw [same, beq_self_eq_true]
  | array hvalid ih => rw [same, sameItems_self ih]
  | object hkeys hvalid ih =>
      rw [same, beq_self_eq_true, sameMembers_of_subset hkeys (List.Subset.refl _) ih]
      rfl

end Library.Json
