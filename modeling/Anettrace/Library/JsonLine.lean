import Anettrace.Library.JsonRoundTrip

/-!
# Objects on one line

Texts that hold an object without a blank, as they are put together by hand: a member is its key
between quotes, a colon, and a text that is read as its value.
-/

namespace Library.Json

variable {encode : Char → List Char} {text rest : List Char}

/-! ## Values -/

/-- A text is read as a value in one step, whatever is behind its end. -/
structure Reads (text : List Char) (value : Value) : Prop where
  starts : ∀ char ∈ text.head?, isBlank char = false
  reads : ∀ bound rest, NumberEnds rest → readValue (bound + 1) (text ++ rest) = some (value, rest)

theorem Reads.ne_nil {value : Value} (h : Reads text value) : text ≠ [] := by
  rintro rfl
  cases h.reads 0 [] nofun

theorem Reads.skipBlanks {value : Value} (h : Reads text value) (rest : List Char) :
    skipBlanks (text ++ rest) = text ++ rest := by
  cases text with
  | nil => exact absurd rfl h.ne_nil
  | cons first more => exact skipBlanks_cons (h.starts first rfl) _

theorem reads_bool (value : Bool) :
    Reads (if value then ['t', 'r', 'u', 'e'] else ['f', 'a', 'l', 's', 'e']) (.bool value) := by
  cases value with
  | false => exact ⟨fun char hchar => Option.some.inj hchar ▸ rfl, fun bound rest hrest => rfl⟩
  | true => exact ⟨fun char hchar => Option.some.inj hchar ▸ rfl, fun bound rest hrest => rfl⟩

theorem IsNumber.reads (h : IsNumber text) : Reads text (.number text) := by
  obtain ⟨first, more, rfl, hfirst⟩ := h.head
  constructor
  · intro char hchar
    rw [← Option.some.inj hchar]
    by_contra hblank
    simp only [isBlank, Bool.not_eq_false, Bool.or_eq_true, beq_iff_eq] at hblank
    rcases hblank with ((rfl | rfl) | rfl) | rfl
    all_goals exact absurd hfirst (by decide)
  · intro bound rest hrest
    rw [List.cons_append, readValue_number hfirst, ← List.cons_append, readNumber_append h hrest]
    rfl

theorem reads_string (h : ∀ char ∈ text, ∀ rest, readString (encode char ++ rest) =
      (readString rest).map fun read => (char :: read.1, read.2)) :
    Reads ('"' :: (text.flatMap encode ++ ['"'])) (.string text) where
  starts char hchar := Option.some.inj hchar ▸ rfl
  reads bound rest hrest := by
    rw [List.cons_append, List.append_assoc, List.singleton_append, readValue, if_pos rfl,
      readString_flatMap h]
    rfl

/-- A character that stands for itself in a string. -/
def Unescaped (char : Char) : Prop := char ≠ '"' ∧ char ≠ '\\' ∧ 0x20 ≤ char.toNat

instance (char : Char) : Decidable (Unescaped char) := inferInstanceAs (Decidable (_ ∧ _ ∧ _))

theorem Unescaped.readString {char : Char} (h : Unescaped char) (rest : List Char) :
    readString (char :: rest) = (readString rest).map fun read => (char :: read.1, read.2) :=
  readString_plain h.1 h.2.1 h.2.2 rest

theorem readString_unescaped (h : ∀ char ∈ text, Unescaped char) (rest : List Char) :
    readString (text ++ '"' :: rest) = some (text, rest) := by
  have hread :=
    @readString_flatMap (fun char => [char]) text (fun char hchar => (h char hchar).readString) rest
  rwa [flatMap_self fun _ _ => rfl] at hread

theorem reads_unescaped (h : ∀ char ∈ text, Unescaped char) :
    Reads ('"' :: (text ++ ['"'])) (.string text) := by
  have hread := @reads_string (fun char => [char]) text fun char hchar => (h char hchar).readString
  rwa [flatMap_self fun _ _ => rfl] at hread

/-! ## Members -/

/-- A key, the text behind it, and the value of that text. -/
structure Member where
  key : List Char
  text : List Char
  value : Value

def Member.written (member : Member) : List Char := '"' :: (member.key ++ '"' :: ':' :: member.text)

def Member.pair (member : Member) : List Char × Value := (member.key, member.value)

/-- A member whose key and value can be read back. -/
structure Member.Proper (member : Member) : Prop where
  key : ∀ char ∈ member.key, Unescaped char
  text : Reads member.text member.value

/-- Members behind another one. -/
def writeMore (members : List Member) : List Char :=
  members.flatMap fun member => ',' :: member.written

def writeLine (first : Member) (more : List Member) : List Char :=
  '{' :: (first.written ++ (writeMore more ++ ['}']))

variable {member first : Member} {more : List Member}

theorem numberEnds_writeMore (more : List Member) (rest : List Char) :
    NumberEnds (writeMore more ++ '}' :: rest) := by
  cases more with
  | nil => exact numberEnds_cons (by decide)
  | cons next more => exact numberEnds_cons (by decide)

theorem readMembers_written (h : member.Proper) (bound : Nat) (hrest : NumberEnds rest) :
    readMembers (bound + 2) (member.written ++ rest) =
      match skipBlanks rest with
      | '}' :: rest => some ([member.pair], rest)
      | ',' :: rest => (readMembers (bound + 1) (skipBlanks rest)).map fun (members, rest) =>
          (member.pair :: members, rest)
      | _ => none := by
  rw [Member.written, List.cons_append, List.append_assoc, List.cons_append,
    List.cons_append, readMembers,
    readString_unescaped h.key]
  dsimp only
  rw [skipBlanks_cons (by decide)]
  simp only [h.text.skipBlanks, h.text.reads bound rest hrest]
  rfl

theorem skipBlanks_written (member : Member) (rest : List Char) :
    skipBlanks (member.written ++ rest) = member.written ++ rest :=
  skipBlanks_cons (by decide) _

/-- The members of an object and its end. -/
theorem readMembers_line (hfirst : first.Proper) (hmore : ∀ member ∈ more, member.Proper)
    {bound : Nat} (hbound : more.length + 2 ≤ bound) (rest : List Char) :
    readMembers bound (first.written ++ (writeMore more ++ '}' :: rest)) =
      some ((first :: more).map Member.pair, rest) := by
  obtain ⟨bound, rfl⟩ : ∃ small, bound = small + 2 := ⟨bound - 2, by omega⟩
  induction more generalizing first bound with
  | nil =>
      rw [readMembers_written hfirst bound (numberEnds_writeMore [] rest), writeMore,
        List.flatMap_nil,
        List.nil_append, skipBlanks_cons (by decide)]
      rfl
  | cons next more ih =>
      obtain ⟨hnext, hmore⟩ := List.forall_mem_cons.mp hmore
      have hread := ih hnext hmore (bound - 1) (by simp only [List.length_cons] at hbound; omega)
      rw [show bound - 1 + 2 = bound + 1 by simp only [List.length_cons] at hbound; omega] at hread
      rw [readMembers_written hfirst bound (numberEnds_writeMore (next :: more) rest), writeMore,
        List.flatMap_cons, List.cons_append, List.cons_append, skipBlanks_cons (by decide)]
      change (readMembers (bound + 1) (skipBlanks _)).map _ = _
      rw [List.append_assoc, skipBlanks_written]
      exact congrArg (Option.map _) hread

theorem length_le_writeMore (more : List Member) : more.length ≤ (writeMore more).length := by
  induction more with
  | nil => exact Nat.zero_le _
  | cons next more ih =>
      rw [writeMore, List.flatMap_cons, List.cons_append, List.length_cons, List.length_cons,
        List.length_append]
      change more.length + 1 ≤ next.written.length + (writeMore more).length + 1
      omega

theorem loads_writeLine (hfirst : first.Proper) (hmore : ∀ member ∈ more, member.Proper)
    (hkeys : ((first :: more).map Member.key).Nodup) {blanks : List Char}
    (hblanks : ∀ char ∈ blanks, isBlank char = true) :
    loads (writeLine first more ++ blanks) = some (.object ((first :: more).map Member.pair)) := by
  have hlength : more.length + 2 ≤ (writeLine first more ++ blanks).length := by
    have hmembers := length_le_writeMore more
    simp only [writeLine, Member.written, List.length_append, List.length_cons]
    omega
  have hskip : skipBlanks (writeLine first more ++ blanks) = writeLine first more ++ blanks :=
    skipBlanks_cons (by decide) _
  have hbom : (writeLine first more ++ blanks).head? ≠ some (Char.ofNat 0xfeff) :=
    fun h => absurd (Option.some.inj h) (by decide)
  have hsome (rest : List Char) : (first.written ++ rest).head? ≠ some '}' :=
    fun h => absurd (Option.some.inj h) (by decide)
  have hdict : dict ((first :: more).map Member.pair) = (first :: more).map Member.pair :=
    dict_of_nodup (by rwa [List.map_map])
  have hvalue : readValue ((writeLine first more ++ blanks).length + 1)
      (writeLine first more ++ blanks) =
      some (.object ((first :: more).map Member.pair), blanks) := by
    generalize (writeLine first more ++ blanks).length = bound at hlength
    rw [writeLine, List.cons_append, readValue, if_neg (by decide), if_pos rfl, List.append_assoc,
      skipBlanks_written, if_neg (hsome _), List.append_assoc, List.singleton_append,
      readMembers_line hfirst hmore hlength blanks]
    exact congrArg (fun members => some (Value.object members, blanks)) hdict
  rw [loads, if_neg hbom, hskip, hvalue]
  exact if_pos (List.dropWhile_eq_nil_iff.mpr hblanks)

end Library.Json
