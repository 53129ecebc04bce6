import Anettrace.PerfettoConfig.Fields
import Mathlib.Data.List.DropRight

/-!
# Scanning duration fields

What the scanner does with a `duration_ms` field of the top level. It leaves out a plain one, with
the blanks behind it. Of any other it leaves at least one character that is no blank.
-/

namespace Anettrace.PerfettoConfig

variable {text rest : List Char} {gaps : List Gap} {character : Char}

/-! ## Numbers -/

theorem identifierCharacter_of_isDigit (h : character.isDigit) : identifierCharacter character := by
  simp [identifierCharacter, Char.isAlphanum, h]

theorem identifierCharacter_of_isAlpha (h : character.isAlpha) : identifierCharacter character := by
  simp [identifierCharacter, Char.isAlphanum, h]

/-- Hexadecimal digits are characters of identifiers. -/
theorem identifierCharacter_of_isxdigit (h : isxdigit character) :
    identifierCharacter character := by
  simp only [isxdigit, Bool.or_eq_true, Bool.and_eq_true, decide_eq_true_eq] at h
  rcases h with (h | ⟨hlow, hhigh⟩) | ⟨hlow, hhigh⟩
  · exact identifierCharacter_of_isDigit h
  · have hlast : character.val ≤ 'z'.val := UInt32.le_trans hhigh (by decide)
    have hlower : character.isLower :=
      (Bool.and_eq_true _ _).mpr ⟨decide_eq_true hlow, decide_eq_true hlast⟩
    exact identifierCharacter_of_isAlpha ((Bool.or_eq_true _ _).mpr (.inr hlower))
  · have hlast : character.val ≤ 'Z'.val := UInt32.le_trans hhigh (by decide)
    have hupper : character.isUpper := decide_eq_true ⟨hlow, hlast⟩
    exact identifierCharacter_of_isAlpha ((Bool.or_eq_true _ _).mpr (.inl hupper))

theorem Breaks.any {p : Char → Bool} (hrest : Breaks rest)
    (hp : ∀ character, p character → identifierCharacter character) : rest.head?.any p = false := by
  cases rest with
  | nil => rfl
  | cons first rest =>
      by_contra h
      have hfirst := hp first (by simpa using h)
      rw [(breaks_cons first rest).mp hrest] at hfirst
      cases hfirst

/-- The sign of a number is skipped whatever follows. -/
theorem skipSign_append (h : text ≠ []) : skipSign (text ++ rest) = skipSign text ++ rest := by
  obtain ⟨first, back, rfl⟩ := List.exists_cons_of_ne_nil h
  unfold skipSign
  rw [List.cons_append]
  split
  · simp_all
  · simp_all
  · split
    · simp_all
    · simp_all
    · rfl

/-- The digits of a number that has no hexadecimal sign. -/
theorem skipDigits_decimal (h : ∀ hex, text ≠ '0' :: 'x' :: hex ∧ text ≠ '0' :: 'X' :: hex) :
    skipDigits text = (decide (text.takeWhile Char.isDigit ≠ []), text.dropWhile Char.isDigit) := by
  unfold skipDigits
  split
  · exact absurd rfl (h _).1
  · exact absurd rfl (h _).2
  · rfl

/-- What follows does not make a number hexadecimal. -/
theorem append_ne_hex {mark : Char} (hmark : identifierCharacter mark) (hrest : Breaks rest)
    (h : ∀ hex, text ≠ '0' :: mark :: hex) (hex : List Char) :
    text ++ rest ≠ '0' :: mark :: hex := by
  intro heq
  match text with
  | [] =>
      rw [List.nil_append] at heq
      rw [heq, breaks_cons] at hrest
      exact absurd hrest (by decide)
  | [first] =>
      obtain ⟨-, rfl⟩ := List.cons.inj heq
      rw [breaks_cons, hmark] at hrest
      cases hrest
  | first :: second :: back =>
      obtain ⟨rfl, htail⟩ := List.cons.inj heq
      obtain ⟨rfl, -⟩ := List.cons.inj htail
      exact h back rfl

/-- The digits of a number are skipped up to what follows. -/
theorem skipDigits_append (hrest : Breaks rest) :
    skipDigits (text ++ rest) = ((skipDigits text).1, (skipDigits text).2 ++ rest) := by
  have hhex := hrest.any fun _ => identifierCharacter_of_isxdigit
  have hdigit := hrest.any fun _ => identifierCharacter_of_isDigit
  by_cases h : ∀ hex, text ≠ '0' :: 'x' :: hex ∧ text ≠ '0' :: 'X' :: hex
  · have happend (hex : List Char) :
        text ++ rest ≠ '0' :: 'x' :: hex ∧ text ++ rest ≠ '0' :: 'X' :: hex :=
      ⟨append_ne_hex (by decide) hrest (fun hex => (h hex).1) hex,
        append_ne_hex (by decide) hrest (fun hex => (h hex).2) hex⟩
    rw [skipDigits_decimal h, skipDigits_decimal happend, takeWhile_append_of_head hdigit,
      dropWhile_append_of_head hdigit]
  · push Not at h
    obtain ⟨hex, h⟩ := h
    by_cases hlower : text = '0' :: 'x' :: hex
    · subst hlower
      simp [skipDigits, takeWhile_append_of_head hhex, dropWhile_append_of_head hhex]
    · rw [h hlower]
      simp [skipDigits, takeWhile_append_of_head hhex, dropWhile_append_of_head hhex]

/-- A number in front of a text where identifiers break. -/
theorem numberEnd_append (h : text ≠ []) (hrest : Breaks rest) :
    numberEnd (text ++ rest) = (numberEnd text).map (· ++ rest) := by
  unfold numberEnd
  rw [skipSign_append h, skipDigits_append hrest]
  dsimp only
  have hhead (back : List Char) :
      (back ++ rest).head?.any identifierCharacter = back.head?.any identifierCharacter := by
    cases back with
    | nil => exact hrest
    | cons first back => rfl
  rw [hhead]
  split
  · rfl
  · rfl

/-- A number starts with a sign or none. -/
theorem skipSign_eq (text : List Char) :
    ∃ sign, text = sign ++ skipSign text ∧ (sign = [] ∨ sign = ['+'] ∨ sign = ['-']) := by
  unfold skipSign
  split
  · exact ⟨['+'], rfl, .inr (.inl rfl)⟩
  · exact ⟨['-'], rfl, .inr (.inr rfl)⟩
  · exact ⟨[], rfl, .inl rfl⟩

/-- All characters of a text are taken if it is not empty and each passes the test. -/
theorem span_all_iff (p : Char → Bool) :
    (decide (text.takeWhile p ≠ []), text.dropWhile p) = (true, []) ↔
      text ≠ [] ∧ ∀ character ∈ text, p character := by
  rw [Prod.mk.injEq, decide_eq_true_iff, List.dropWhile_eq_nil_iff]
  constructor
  · rintro ⟨htake, hall⟩
    rw [List.takeWhile_eq_self_iff.mpr hall] at htake
    exact ⟨htake, hall⟩
  · rintro ⟨hne, hall⟩
    rw [List.takeWhile_eq_self_iff.mpr hall]
    exact ⟨hne, hall⟩

/-- What `skip_digits` takes as a whole: decimal digits, or hexadecimal ones after `0x`. -/
theorem skipDigits_all_iff :
    skipDigits text = (true, []) ↔
      (text ≠ [] ∧ ∀ digit ∈ text, digit.isDigit) ∨
        ∃ x hex, text = '0' :: x :: hex ∧ (x = 'x' ∨ x = 'X') ∧ hex ≠ [] ∧
          ∀ digit ∈ hex, isxdigit digit := by
  by_cases hmark : ∃ x hex, text = '0' :: x :: hex ∧ (x = 'x' ∨ x = 'X')
  · obtain ⟨x, hex, rfl, hx⟩ := hmark
    have hskip : skipDigits ('0' :: x :: hex) =
        (decide (hex.takeWhile isxdigit ≠ []), hex.dropWhile isxdigit) := by
      rcases hx with rfl | rfl
      · rfl
      · rfl
    have hdecimal : ¬ ∀ digit ∈ '0' :: x :: hex, digit.isDigit := by
      intro hall
      have hdigit := hall x (List.mem_cons_of_mem _ List.mem_cons_self)
      rcases hx with rfl | rfl
      · exact absurd hdigit (by decide)
      · exact absurd hdigit (by decide)
    rw [hskip, span_all_iff]
    constructor
    · intro hhex
      exact .inr ⟨x, hex, rfl, hx, hhex⟩
    · rintro (⟨-, hall⟩ | ⟨_, _, heq, -, hhex⟩)
      · exact absurd hall hdecimal
      · obtain ⟨-, rfl⟩ := List.cons.inj (List.cons.inj heq).2
        exact hhex
  · have hnot (hex : List Char) : text ≠ '0' :: 'x' :: hex ∧ text ≠ '0' :: 'X' :: hex :=
      ⟨fun h => hmark ⟨_, hex, h, .inl rfl⟩, fun h => hmark ⟨_, hex, h, .inr rfl⟩⟩
    rw [skipDigits_decimal hnot, span_all_iff]
    constructor
    · exact .inl
    · rintro (hall | ⟨x, hex, htext, hx, -⟩)
      · exact hall
      · exact absurd ⟨x, hex, htext, hx⟩ hmark

theorem numberEnd_nil (text : List Char) :
    numberEnd text = some [] ↔ skipDigits (skipSign text) = (true, []) := by
  unfold numberEnd
  obtain ⟨hasDigit, cursor⟩ := skipDigits (skipSign text)
  dsimp only
  split
  · rename_i h
    constructor
    · intro hnone
      cases hnone
    · intro hdigits
      cases hdigits
      cases h
  · rename_i h
    rw [Bool.not_eq_true, Bool.or_eq_false_iff, Bool.not_eq_false'] at h
    rw [h.1, Option.some.injEq, Prod.mk.injEq, eq_self, true_and]

theorem numberEnd_nil_iff : numberEnd text = some [] ↔ IsInteger text := by
  rw [numberEnd_nil, skipDigits_all_iff]
  constructor
  · intro hdigits
    obtain ⟨sign, htext, hsign⟩ := skipSign_eq text
    exact ⟨sign, skipSign text, htext, hsign, hdigits⟩
  · rintro ⟨sign, digits, rfl, hsign, hdigits⟩
    have hfirst : ∃ first back, digits = first :: back ∧ first.isDigit := by
      rcases hdigits with ⟨hne, hall⟩ | ⟨x, hex, rfl, -, -⟩
      · obtain ⟨first, back, rfl⟩ := List.exists_cons_of_ne_nil hne
        exact ⟨first, back, rfl, hall first List.mem_cons_self⟩
      · exact ⟨'0', x :: hex, rfl, rfl⟩
    have hskip : skipSign (sign ++ digits) = digits := by
      rcases hsign with rfl | rfl | rfl
      · obtain ⟨first, back, rfl, hdigit⟩ := hfirst
        refine skipSign_of_head ⟨?_, ?_⟩
        · rintro rfl
          exact absurd hdigit (by decide)
        · rintro rfl
          exact absurd hdigit (by decide)
      · rfl
      · rfl
    rwa [hskip]

/-! ## The end of a field -/

theorem isSpace_of_isBlank (h : isBlank character) : isspace character := by
  simp only [isBlank, Bool.or_eq_true, decide_eq_true_eq] at h
  rcases h with (rfl | rfl) | rfl <;> decide

theorem not_isBlank_of_isPlain (h : isPlain character) : isBlank character = false := by
  by_contra hblank
  have hspace := isSpace_of_isBlank (Bool.not_eq_false _ ▸ hblank)
  rw [not_isSpace_of_isPlain h] at hspace
  cases hspace

theorem Gap.head_of_not_blank {gap : Gap} (h : gap.isBlank = false) :
    ∃ first body, gap.text = first :: body ∧ PerfettoConfig.isBlank first = false ∧ first ≠ ';' ∧
      first ≠ ',' := by
  rcases gap.text_cases with ⟨first, hspace, htext, -, hblank⟩ | ⟨first, body, htext, hstart, -⟩
  · refine ⟨first, [], htext, hblank ▸ h, ?_, ?_⟩
    · rintro rfl
      exact absurd hspace (by decide)
    · rintro rfl
      exact absurd hspace (by decide)
  · refine ⟨first, body, htext, ?_⟩
    rcases hstart with rfl | rfl <;> decide

theorem dropWhile_gaps (gaps : List Gap) (hrest : isBlank character = false) :
    (gapsText gaps ++ character :: rest).dropWhile isBlank =
      gapsText (gaps.dropWhile Gap.isBlank) ++ character :: rest := by
  induction gaps with
  | nil => exact List.dropWhile_cons_of_neg (by simp [hrest])
  | cons gap gaps ih =>
      rw [gapsText_cons, List.append_assoc, List.dropWhile_cons]
      cases hgap : gap.isBlank with
      | true =>
          obtain ⟨first, -, htext, -, hblank⟩ | ⟨_, _, _, _, _, hblank⟩ := gap.text_cases
          · rw [htext, List.singleton_append, List.dropWhile_cons_of_pos (hblank ▸ hgap), ih]
            rfl
          · rw [hgap] at hblank
            cases hblank
      | false =>
          obtain ⟨first, body, htext, hfirst, -⟩ := Gap.head_of_not_blank hgap
          rw [htext, List.cons_append, List.dropWhile_cons_of_neg (by simp [hfirst])]
          simp [gapsText_cons, htext]

/-- Where no separator stands, none is skipped. -/
theorem skipSeparator_of_head {cursor : List Char} (hsemicolon : cursor.head? ≠ some ';')
    (hcomma : cursor.head? ≠ some ',') : skipSeparator cursor = cursor := by
  unfold skipSeparator
  split
  · exact absurd rfl hsemicolon
  · exact absurd rfl hcomma
  · rfl

/-- Without a separator behind the blanks the field ends behind the blanks. -/
theorem separatorEnd_of_head {cursor : List Char}
    (hsemicolon : (cursor.dropWhile isBlank).head? ≠ some ';')
    (hcomma : (cursor.dropWhile isBlank).head? ≠ some ',') :
    separatorEnd cursor = cursor.dropWhile isBlank := by
  unfold separatorEnd
  rw [skipSeparator_of_head hsemicolon hcomma, List.dropWhile_idempotent]

/-- The field ends in front of anything but blanks and a separator. -/
theorem separatorEnd_gaps (gaps : List Gap) (hcharacter : isBlank character = false)
    (hseparator : (∀ gap ∈ gaps, gap.isBlank) → character ≠ ';' ∧ character ≠ ',') :
    separatorEnd (gapsText gaps ++ character :: rest) =
      gapsText (gaps.dropWhile Gap.isBlank) ++ character :: rest := by
  have hhead : (gapsText (gaps.dropWhile Gap.isBlank) ++ character :: rest).head? ≠ some ';' ∧
      (gapsText (gaps.dropWhile Gap.isBlank) ++ character :: rest).head? ≠ some ',' := by
    cases hdrop : gaps.dropWhile Gap.isBlank with
    | nil =>
        obtain ⟨hsemicolon, hcomma⟩ := hseparator (List.dropWhile_eq_nil_iff.mp hdrop)
        exact ⟨by simpa [gapsText] using hsemicolon, by simpa [gapsText] using hcomma⟩
    | cons gap more =>
        have hgap : gap.isBlank = false := by
          have hfirst := List.head?_dropWhile_not Gap.isBlank gaps
          simpa [hdrop] using hfirst
        obtain ⟨first, body, htext, -, hsemicolon, hcomma⟩ := Gap.head_of_not_blank hgap
        rw [gapsText_cons, htext]
        exact ⟨by simpa using hsemicolon, by simpa using hcomma⟩
  rw [← dropWhile_gaps gaps hcharacter] at hhead ⊢
  exact separatorEnd_of_head hhead.1 hhead.2

/-- A separator behind blanks is skipped, with the blanks behind it. -/
theorem separatorEnd_blanks (separator : Separator) (h : ∀ gap ∈ gaps, gap.isBlank) :
    separatorEnd (separatorText (some (gaps, separator)) ++ rest) = rest.dropWhile isBlank := by
  have hcharacter : isBlank separator.character = false := by
    cases separator <;> decide
  have hskip : skipSeparator (separator.character :: rest) = rest := by
    cases separator with
    | semicolon => rfl
    | comma => rfl
  rw [separatorText, List.append_assoc, List.singleton_append, separatorEnd,
    dropWhile_gaps gaps hcharacter,
    List.dropWhile_eq_nil_iff.mpr h]
  exact congrArg (List.dropWhile isBlank) hskip

/-- What does not follow white space does not follow blanks. -/
theorem head_behind_blanks (hrest : ahead rest ≠ some character)
    (hcharacter : isspace character = false) :
    (rest.dropWhile isBlank).head? ≠ some character := by
  induction rest with
  | nil => exact hrest
  | cons first rest ih =>
      rw [ahead_cons] at hrest
      rw [List.dropWhile_cons]
      split
      · rename_i hblank
        rw [if_pos (isSpace_of_isBlank hblank)] at hrest
        exact ih hrest
      · rintro heq
        obtain rfl : first = character := Option.some.inj heq
        exact hrest (by simp [hcharacter])

/-! ## Duration fields -/

namespace Scalar

/-- A duration field that the scanner recognises is left out up to its end. -/
theorem kept_of_end {field : Scalar} {fieldEnd : List Char} (hduration : field.isDuration)
    (hend : durationFieldEnd (durationName ++ (field.behindName ++ rest)) = some fieldEnd) :
    kept .normal 0 (field.text ++ rest) = kept .normal 0 fieldEnd := by
  have hname : field.name.first :: field.name.rest = durationName := of_decide_eq_true hduration
  have hround : round .normal 0 field.name.first (field.name.rest ++ (field.behindName ++ rest)) =
      .remove fieldEnd := by
    refine round_duration field.name.first_ok field.name.rest_ok field.breaks_behindName hname ?_
    rw [← List.cons_append, hname]
    exact hend
  have hkept := kept_remove hround
  rwa [← List.cons_append, ← List.append_assoc] at hkept

/-- The scanner reads the number of a duration field that has no comments around its colon. -/
theorem durationFieldEnd_eq (field : Scalar) (hbefore : ∀ gap ∈ field.beforeColon, gap.isSpace)
    (hafter : ∀ gap ∈ field.afterColon, gap.isSpace) :
    durationFieldEnd (durationName ++ (field.behindName ++ rest)) =
      (numberEnd (field.value.text ++ (separatorText field.separator ++ rest))).map
        separatorEnd := by
  obtain ⟨first, body, htext, hfirst⟩ := field.value.first.head
  have hspace : isspace first = false := by
    rcases hfirst with ⟨-, hplain⟩ | ⟨-, rfl | rfl⟩
    · exact not_isSpace_of_isPlain hplain
    · decide
    · decide
  rw [behindName, List.append_assoc, List.cons_append, durationFieldEnd_spaces hbefore,
    List.append_assoc,
    dropWhile_spaces hafter, List.append_assoc, Value.text, htext, List.cons_append,
      List.cons_append,
    List.dropWhile_cons_of_neg (by simp [hspace])]

theorem durationFieldEnd_commented (field : Scalar)
    (h : ¬ ((∀ gap ∈ field.beforeColon, gap.isSpace) ∧ ∀ gap ∈ field.afterColon, gap.isSpace)) :
    durationFieldEnd (durationName ++ (field.behindName ++ rest)) = none := by
  rw [behindName, List.append_assoc, List.cons_append, List.append_assoc]
  by_cases hbefore : ∀ gap ∈ field.beforeColon, gap.isSpace
  · rcases ahead_comment fun hafter => h ⟨hbefore, hafter⟩ with hcomment | hcomment
    · exact durationFieldEnd_of_value hcomment (by decide) (by decide)
    · exact durationFieldEnd_of_value hcomment (by decide) (by decide)
  · exact durationFieldEnd_of_comment hbefore

/-- What may follow a field: no colon and no separator behind white space, and nothing that goes on
with its last word. -/
structure Follows (field : Scalar) (rest : List Char) : Prop where
  breaks : field.endsInWord → Breaks rest
  colon : ahead rest ≠ some ':'
  semicolon : ahead rest ≠ some ';'
  comma : ahead rest ≠ some ','

/-- A plain duration field is left out, with the blanks behind it. -/
theorem kept_plain {field : Scalar} (hduration : field.isDuration) (hplain : field.Plain)
    (hrest : field.Follows rest) :
    kept .normal 0 (field.text ++ rest) = kept .normal 0 (rest.dropWhile isBlank) := by
  obtain ⟨word, hword, hmore, hinteger⟩ := hplain.value
  refine kept_of_end hduration ?_
  have hbreaks : Breaks (separatorText field.separator ++ rest) := by
    refine breaks_separator fun hnone => hrest.breaks ?_
    simp [endsInWord, hnone, Value.endsInWord, hmore, hword, Atom.isWord]
  have hnumber : numberEnd (word.text ++ (separatorText field.separator ++ rest)) =
      some (separatorText field.separator ++ rest) := by
    rw [numberEnd_append word.nonempty hbreaks, numberEnd_nil_iff.mpr hinteger]
    rfl
  have hvalue : field.value.text = word.text := by
    simp [Value.text, hword, hmore, atomsText, Atom.text]
  rw [field.durationFieldEnd_eq hplain.beforeColon hplain.afterColon, hvalue, hnumber,
    Option.map_some]
  refine congrArg some ?_
  cases hseparator : field.separator with
  | none =>
      exact separatorEnd_of_head (head_behind_blanks hrest.semicolon (by decide))
        (head_behind_blanks hrest.comma (by decide))
  | some separator => exact separatorEnd_blanks separator.2 (hplain.separator _ _ hseparator)

end Scalar

/-! ## Fields that are not plain -/

/-- The number of characters that are no blanks -/
def ink (text : List Char) : Nat :=
  text.countP fun character => !isBlank character

theorem ink_append (first second : List Char) : ink (first ++ second) = ink first + ink second :=
  List.countP_append

theorem ink_pos (hmem : character ∈ text) (hcharacter : isBlank character = false) : 0 < ink text :=
  List.countP_pos_iff.mpr ⟨character, hmem, by simp [hcharacter]⟩

/-- The end of a field leaves a piece of the field that passes and is more than blanks. -/
def Leaves (fieldEnd rest : List Char) : Prop :=
  ∃ left, fieldEnd = left ++ rest ∧ Passes 0 left rest ∧ 0 < ink left

/-- Where the end of a field is looked for in front of a value, the value is left. -/
theorem leaves_value {first : Atom} {more : List (List Gap × Atom)}
    {separator : Option (List Gap × Separator)} (gaps : List Gap) (hspaced : AtomsSpaced first more)
    (hbreaks : separator.isNone → endsInWord first more → Breaks rest)
    (hcolon : ahead rest ≠ some ':') :
    Leaves (separatorEnd (gapsText gaps ++
      (first.text ++ (atomsText more ++ separatorText separator)) ++ rest))
      rest := by
  obtain ⟨character, body, htext, hhead⟩ := first.head
  have hcharacter : isBlank character = false ∧ character ≠ ';' ∧ character ≠ ',' := by
    rcases hhead with ⟨-, hplain⟩ | ⟨-, rfl | rfl⟩
    · refine ⟨not_isBlank_of_isPlain hplain, ?_, ?_⟩
      · rintro rfl
        exact absurd hplain (by decide)
      · rintro rfl
        exact absurd hplain (by decide)
    · decide
    · decide
  refine ⟨gapsText (gaps.dropWhile Gap.isBlank) ++
    (first.text ++ (atomsText more ++ separatorText separator)),
    ?_, (passes_gaps _ _).append (passes_value hspaced hbreaks hcolon), ?_⟩
  · have hend (back : List Char) : separatorEnd (gapsText gaps ++ character :: back) =
        gapsText (gaps.dropWhile Gap.isBlank) ++ character :: back :=
      separatorEnd_gaps gaps hcharacter.1 fun _ => hcharacter.2
    simpa [htext] using hend (body ++ (atomsText more ++ (separatorText separator ++ rest)))
  · refine ink_pos (List.mem_append_right _ ?_) hcharacter.1
    rw [htext]
    exact List.mem_cons_self

/-- A separator behind a comment is left. -/
theorem leaves_separator (separator : Separator) (h : ¬ ∀ gap ∈ gaps, gap.isBlank) :
    Leaves (separatorEnd (separatorText (some (gaps, separator)) ++ rest)) rest := by
  have hcharacter : isBlank separator.character = false := by
    cases separator <;> decide
  refine ⟨separatorText (some (gaps.dropWhile Gap.isBlank, separator)), ?_, passes_separator _, ?_⟩
  · rw [separatorText, separatorText, List.append_assoc, List.append_assoc]
    exact separatorEnd_gaps gaps hcharacter fun hblank => absurd hblank h
  · exact ink_pos (List.mem_append_right _ List.mem_cons_self) hcharacter

namespace Scalar

/-- If the number does not end the first word, the rest of the word is left, else what comes behind
the word. -/
theorem leaves {field : Scalar} {fieldEnd : List Char} (hplain : ¬ field.Plain)
    (hrest : field.Follows rest)
    (hend : durationFieldEnd (durationName ++ (field.behindName ++ rest)) = some fieldEnd) :
    Leaves fieldEnd rest := by
  by_cases hspaces : (∀ gap ∈ field.beforeColon, gap.isSpace) ∧
    ∀ gap ∈ field.afterColon, gap.isSpace
  case neg =>
    rw [field.durationFieldEnd_commented hspaces] at hend
    cases hend
  rw [field.durationFieldEnd_eq hspaces.1 hspaces.2] at hend
  obtain ⟨numbered, hnumber, rfl⟩ := Option.map_eq_some_iff.mp hend
  obtain ⟨name, beforeColon, afterColon, ⟨first, more, hspaced⟩, separator⟩ := field
  have hbreaks (hnone : separator.isNone) (hword : PerfettoConfig.endsInWord first more) :
      Breaks rest := by
    refine hrest.breaks ?_
    rw [endsInWord, hnone]
    exact hword
  rw [Value.text, List.append_assoc] at hnumber
  cases first with
  | string literal =>
      have hnone :
          numberEnd (literal.text ++ (atomsText more ++ (separatorText separator ++ rest))) =
          none := by
        refine numberEnd_of_head rfl ?_ ?_
        · rcases literal.quote_ok with h | h <;> rw [h] <;> decide
        · rcases literal.quote_ok with h | h <;> rw [h] <;> decide
      exact absurd (hnone.symm.trans hnumber) (by simp)
  | word word =>
      have hbehind : Breaks (atomsText more ++ (separatorText separator ++ rest)) := by
        rcases more with _ | ⟨⟨gaps, second⟩, more⟩
        · exact breaks_separator fun hnone => hbreaks hnone rfl
        · rw [atomsText_cons, List.append_assoc, List.append_assoc]
          exact breaks_atom (hspaced.1 rfl)
      rw [Atom.text, numberEnd_append word.nonempty hbehind] at hnumber
      obtain ⟨back, hback, rfl⟩ := Option.map_eq_some_iff.mp hnumber
      rw [← List.append_assoc]
      by_cases hnil : back = []
      · subst hnil
        rcases more with _ | ⟨⟨gaps, second⟩, more⟩
        · rcases separator with _ | ⟨gaps, separator⟩
          · exact absurd ⟨hspaces.1, hspaces.2, ⟨word, rfl, rfl, numberEnd_nil_iff.mp hback⟩,
                by simp⟩ hplain
          · refine leaves_separator separator fun hblank => hplain ?_
            refine ⟨hspaces.1, hspaces.2, ⟨word, rfl, rfl, numberEnd_nil_iff.mp hback⟩, ?_⟩
            rintro _ _ ⟨⟩
            exact hblank
        · rw [endsInWord_cons] at hbreaks
          have hleaves := leaves_value gaps hspaced.2 hbreaks hrest.colon
          simpa [atomsText_cons] using hleaves
      · have hpart : ∀ character ∈ back, isPlain character := fun character hmem =>
          word.plain character ((numberEnd_suffix hback).mem hmem)
        have hspaced : AtomsSpaced (.word ⟨back, hnil, hpart⟩) more := by
          cases more with
          | nil => trivial
          | cons part more => exact hspaced
        have hleaves := leaves_value [] hspaced (fun hnone hword => hbreaks hnone ?_) hrest.colon
        · simpa [gapsText, Atom.text] using hleaves
        · cases more with
          | nil => rfl
          | cons part more =>
              rw [endsInWord_cons] at hword ⊢
              exact hword

/-- Of a duration field that is not plain the scanner keeps more than blanks. -/
theorem exists_left {field : Scalar} (hduration : field.isDuration) (hplain : ¬ field.Plain)
    (hrest : field.Follows rest) :
    ∃ left, kept .normal 0 (field.text ++ rest) = left ++ kept .normal 0 rest ∧ 0 < ink left := by
  cases hend : durationFieldEnd (durationName ++ (field.behindName ++ rest)) with
  | none =>
      refine ⟨field.text, field.passes_of_end hrest.breaks hrest.colon fun _ _ => hend, ?_⟩
      have hname : field.name.first :: field.name.rest = durationName := of_decide_eq_true hduration
      have hfirst : field.name.first = 'd' := (List.cons.inj hname).1
      have hmem : 'd' ∈ field.text := by
        rw [← hfirst]
        exact List.mem_cons_self
      exact ink_pos hmem (by decide)
  | some fieldEnd =>
      obtain ⟨left, rfl, hpasses, hleft⟩ := leaves hplain hrest hend
      exact ⟨left, (kept_of_end hduration hend).trans hpasses, hleft⟩

end Scalar

end Anettrace.PerfettoConfig
