import Anettrace.PerfettoConfig.Tokens
import Mathlib.Data.List.TakeWhile

/-!
# Scanning fields

What the scanner does with a field at the top level. A field passes unless it is a duration field
that the scanner recognises; of such a field it leaves out the part that it takes for the whole
field. Everything inside a nested message passes.
-/

namespace Anettrace.PerfettoConfig

variable {depth : Nat} {text rest : List Char} {gaps : List Gap}

/-! ## What follows a token -/

/-- The first character behind white space. -/
def ahead (text : List Char) : Option Char :=
  (text.dropWhile isspace).head?

/-- An identifier that ends here does not go on. -/
def Breaks (rest : List Char) : Prop :=
  rest.head?.any identifierCharacter = false

/-- What is ahead: white space is passed over. -/
@[simp] theorem ahead_cons (character : Char) (text : List Char) :
    ahead (character :: text) = if isspace character then ahead text else some character := by
  unfold ahead
  rw [List.dropWhile_cons]
  split <;> rfl

@[simp] theorem breaks_cons (character : Char) (text : List Char) :
    Breaks (character :: text) ↔ identifierCharacter character = false := by
  simp [Breaks]

theorem breaks_nil : Breaks [] :=
  rfl

theorem gapsText_cons (gap : Gap) (gaps : List Gap) :
    gapsText (gap :: gaps) = gap.text ++ gapsText gaps :=
  List.flatMap_cons

theorem commentStart_cons (slashes : Bool) :
    ∃ character body, commentStart slashes = character :: body ∧
        (character = '#' ∨ character = '/') := by
  cases slashes with
  | true => exact ⟨_, _, rfl, .inr rfl⟩
  | false => exact ⟨_, _, rfl, .inl rfl⟩

/-- A gap is a white-space character, or it is a comment and starts like one. -/
theorem Gap.text_cases (gap : Gap) :
    (∃ character, isspace character ∧ gap.text = [character] ∧ gap.isSpace ∧
        gap.isBlank = PerfettoConfig.isBlank character) ∨
      ∃ character body, gap.text = character :: body ∧ (character = '#' ∨ character = '/') ∧
        gap.isSpace = false ∧ gap.isBlank = false := by
  cases gap with
  | space character h => exact .inl ⟨character, h, rfl, rfl, rfl⟩
  | lineComment slashes body h =>
      obtain ⟨character, start, hstart, hcharacter⟩ := commentStart_cons slashes
      refine .inr ⟨character, start ++ body ++ ['\n'], ?_, hcharacter, rfl, rfl⟩
      rw [Gap.text, hstart]
      rfl
  | blockComment body h => exact .inr ⟨_, _, rfl, .inr rfl, rfl, rfl⟩

theorem identifierCharacter_of_isSpace {character : Char} (h : isspace character) :
    identifierCharacter character = false := by
  simp only [isspace, Bool.or_eq_true, decide_eq_true_eq] at h
  rcases h with ((((rfl | rfl) | rfl) | rfl) | rfl) | rfl <;> decide

theorem breaks_gaps (hgaps : gaps ≠ []) : Breaks (gapsText gaps ++ rest) := by
  cases gaps with
  | nil => exact absurd rfl hgaps
  | cons gap gaps =>
      rw [gapsText_cons]
      rcases gap.text_cases with ⟨character, hspace, htext, -⟩ | ⟨character, body, htext, hstart, -⟩
      · simp [htext, identifierCharacter_of_isSpace hspace]
      · rcases hstart with rfl | rfl
        · simpa [htext] using (by decide : identifierCharacter '#' = false)
        · simpa [htext] using (by decide : identifierCharacter '/' = false)

theorem breaks_gaps_cons {character : Char} (gaps : List Gap)
    (h : identifierCharacter character = false) :
    Breaks (gapsText gaps ++ character :: rest) := by
  by_cases hnil : gaps = []
  · simpa [hnil, gapsText] using h
  · exact breaks_gaps hnil

theorem dropWhile_spaces (h : ∀ gap ∈ gaps, gap.isSpace) :
    (gapsText gaps ++ rest).dropWhile isspace = rest.dropWhile isspace := by
  induction gaps with
  | nil => rfl
  | cons gap gaps ih =>
      have ih := ih fun other hmem => h other (List.mem_cons_of_mem gap hmem)
      rw [gapsText_cons]
      rcases gap.text_cases with ⟨character, hspace, htext, -⟩ | ⟨_, _, _, _, hcomment, -⟩
      · rw [htext, List.append_assoc, List.singleton_append, List.dropWhile_cons_of_pos hspace, ih]
      · exact absurd (h gap List.mem_cons_self) (by simp [hcomment])

theorem ahead_spaces (h : ∀ gap ∈ gaps, gap.isSpace) : ahead (gapsText gaps ++ rest) = ahead rest :=
  congrArg List.head? (dropWhile_spaces h)

/-- A comment among gaps is ahead of what follows. -/
theorem ahead_comment (h : ¬ ∀ gap ∈ gaps, gap.isSpace) :
    ahead (gapsText gaps ++ rest) = some '#' ∨ ahead (gapsText gaps ++ rest) = some '/' := by
  induction gaps with
  | nil => exact absurd (fun gap hmem => absurd hmem List.not_mem_nil) h
  | cons gap gaps ih =>
      rw [gapsText_cons, List.append_assoc]
      rcases gap.text_cases with ⟨character, hspace, htext, hgap, -⟩ |
          ⟨character, body, htext, hstart, -⟩
      · rw [htext, List.singleton_append, ahead_cons, if_pos hspace]
        exact ih fun hrest => h (List.forall_mem_cons.mpr ⟨hgap, hrest⟩)
      · rcases hstart with rfl | rfl
        · exact .inl (by simp [htext, isspace])
        · exact .inr (by simp [htext, isspace])

/-- Behind gaps stands what stands behind them, or a comment. -/
theorem ahead_gaps {character : Char} (gaps : List Gap) (hrest : ahead rest ≠ some character)
    (hstart : character ≠ '#' ∧ character ≠ '/') :
    ahead (gapsText gaps ++ rest) ≠ some character := by
  by_cases h : ∀ gap ∈ gaps, gap.isSpace
  · rwa [ahead_spaces h]
  · intro hsome
    rcases ahead_comment h with hcomment | hcomment
    · exact hstart.1 (Option.some.inj (hsome.symm.trans hcomment))
    · exact hstart.2 (Option.some.inj (hsome.symm.trans hcomment))

/-! ## Identifiers -/

/-- Taking stops where the rest does not go on. -/
theorem takeWhile_append_of_head {p : Char → Bool} (h : rest.head?.any p = false) :
    (text ++ rest).takeWhile p = text.takeWhile p := by
  induction text with
  | nil =>
      cases rest with
      | nil => rfl
      | cons character rest => exact List.takeWhile_cons_of_neg (by simpa using h)
  | cons first text ih =>
      rw [List.cons_append, List.takeWhile_cons, List.takeWhile_cons, ih]

/-- Dropping stops where the rest does not go on. -/
theorem dropWhile_append_of_head {p : Char → Bool} (h : rest.head?.any p = false) :
    (text ++ rest).dropWhile p = text.dropWhile p ++ rest := by
  induction text with
  | nil =>
      cases rest with
      | nil => rfl
      | cons character rest => exact List.dropWhile_cons_of_neg (by simpa using h)
  | cons first text ih =>
      rw [List.cons_append, List.dropWhile_cons, List.dropWhile_cons, ih]
      split <;> rfl

theorem span_identifier {ident : List Char}
    (hident : ∀ character ∈ ident, identifierCharacter character) (hrest : Breaks rest) :
    (ident ++ rest).takeWhile identifierCharacter = ident ∧
      (ident ++ rest).dropWhile identifierCharacter = rest := by
  constructor
  · rw [takeWhile_append_of_head hrest, List.takeWhile_eq_self_iff.mpr hident]
  · rw [dropWhile_append_of_head hrest, List.dropWhile_eq_nil_iff.mpr hident, List.nil_append]

theorem isNeutral_of_start {first : Char} (hfirst : identifierStart first) : isNeutral first :=
  isNeutral_of_identifierCharacter (identifierCharacter_of_start hfirst)

theorem round_identifier {first : Char} {ident : List Char} (hfirst : identifierStart first)
    (hident : ∀ character ∈ ident, identifierCharacter character) (hrest : Breaks rest)
    (hend : first :: ident = durationName → durationFieldEnd (first :: (ident ++ rest)) = none) :
    round .normal 0 first (ident ++ rest) = .advance .normal 0 rest := by
  have hneutral := isNeutral_iff.mp (isNeutral_of_start hfirst)
  obtain ⟨htake, hdrop⟩ := span_identifier hident hrest
  show normalRound 0 first (ident ++ rest) = _
  unfold normalRound
  rw [htake, hdrop]
  by_cases hname : first :: ident = durationName
  · simp [hneutral, hfirst, hname, hend hname]
  · simp [hneutral, hfirst, hname]

/-- The round at a duration field of the top level. -/
theorem round_duration {first : Char} {ident fieldEnd : List Char} (hfirst : identifierStart first)
    (hident : ∀ character ∈ ident, identifierCharacter character) (hrest : Breaks rest)
    (hname : first :: ident = durationName)
    (hend : durationFieldEnd (first :: (ident ++ rest)) = some fieldEnd) :
    round .normal 0 first (ident ++ rest) = .remove fieldEnd := by
  have hneutral := isNeutral_iff.mp (isNeutral_of_start hfirst)
  obtain ⟨htake, -⟩ := span_identifier hident hrest
  show normalRound 0 first (ident ++ rest) = _
  unfold normalRound
  rw [htake]
  simp [hneutral, hfirst, hname, hend]

/-- A name passes as a whole, unless it is that of a duration to be removed. -/
theorem passes_identifier {first : Char} {ident : List Char} (hfirst : identifierStart first)
    (hident : ∀ character ∈ ident, identifierCharacter character) (hrest : Breaks rest)
    (hend : first :: ident = durationName → durationFieldEnd (first :: (ident ++ rest)) = none) :
    Passes 0 (first :: ident) rest :=
  kept_advance (round_identifier hfirst hident hrest hend) rfl

/-- Without a colon behind the name there is no duration field. -/
theorem durationFieldEnd_of_ahead (h : ahead rest ≠ some ':') :
    durationFieldEnd (durationName ++ rest) = none := by
  unfold durationFieldEnd
  rw [List.drop_left]
  split
  · rename_i cursor hcolon
    exact absurd (congrArg List.head? hcolon) h
  · rfl

theorem not_isSpace_of_isPlain {character : Char} (h : isPlain character) :
    isspace character = false := by
  simp only [isPlain, Bool.and_eq_true, Bool.not_eq_true'] at h
  exact h.1

theorem ne_colon_of_isPlain {character : Char} (h : isPlain character) : character ≠ ':' := by
  rintro rfl
  exact absurd h (by decide)

/-- A text starts with the rest of an identifier. -/
theorem exists_identifier (text : List Char) :
    ∃ ident back, ident ++ back = text ∧ (∀ character ∈ ident, identifierCharacter character) ∧
      Breaks back := by
  refine ⟨text.takeWhile identifierCharacter, text.dropWhile identifierCharacter,
    List.takeWhile_append_dropWhile, fun character => List.mem_takeWhile_imp, ?_⟩
  have hhead := List.head?_dropWhile_not identifierCharacter text
  unfold Breaks
  cases h : (text.dropWhile identifierCharacter).head? with
  | none => rfl
  | some character => simpa [h] using hhead

/-- The characters of a word pass, also where the word has the name of the field in it. -/
theorem passes_plain (hplain : ∀ character ∈ text, isPlain character) (hrest : Breaks rest)
    (hcolon : ahead rest ≠ some ':') : Passes depth text rest := by
  by_cases hdepth : depth = 0
  case neg => exact passes_nested hdepth fun character hmem =>
    isNeutral_of_isPlain (hplain character hmem)
  subst hdepth
  induction hlength : text.length using Nat.strongRecOn generalizing text with
  | ind length ih =>
      cases text with
      | nil => exact Passes.nil
      | cons first text =>
          obtain ⟨hfirst, htext⟩ := List.forall_mem_cons.mp hplain
          obtain ⟨ident, back, hsplit, hident, hstop⟩ := exists_identifier text
          by_cases hname : identifierStart first
          · have hback : ∀ character ∈ back, isPlain character := fun character hmem =>
              htext character (hsplit ▸ List.mem_append_right ident hmem)
            have hbreaks : Breaks (back ++ rest) := by
              cases back with
              | nil => exact hrest
              | cons character back => exact hstop
            have hahead : ahead (back ++ rest) ≠ some ':' := by
              cases back with
              | nil => exact hcolon
              | cons character back =>
                  obtain ⟨hplain, -⟩ := List.forall_mem_cons.mp hback
                  simp [not_isSpace_of_isPlain hplain, ne_colon_of_isPlain hplain]
            have hend (hduration : first :: ident = durationName) :
                durationFieldEnd (first :: (ident ++ (back ++ rest))) = none := by
              rw [← List.cons_append, hduration]
              exact durationFieldEnd_of_ahead hahead
            rw [← hsplit, ← List.cons_append]
            refine (passes_identifier hname hident hbreaks hend).append ?_
            have hshorter : back.length < length := by
              rw [← hlength, ← hsplit, List.length_cons, List.length_append]
              omega
            exact ih back.length hshorter hback rfl
          · have hone : Passes 0 [first] (text ++ rest) :=
              passes_neutral (isNeutral_of_isPlain hfirst) fun h => hname h.2
            exact hone.cons (ih text.length (by simp [← hlength]) htext rfl)

/-! ## Values -/

/-- The first character of a part of a value. -/
theorem Atom.head (atom : Atom) :
    ∃ character body, atom.text = character :: body ∧
      ((atom.isWord ∧ isPlain character) ∨
        (atom.isWord = false ∧ (character = '"' ∨ character = '\''))) := by
  cases atom with
  | word word =>
      obtain ⟨character, body, htext⟩ := List.exists_cons_of_ne_nil word.nonempty
      refine ⟨character, body, htext, .inl ⟨rfl, word.plain character ?_⟩⟩
      rw [htext]
      exact List.mem_cons_self
  | string literal => exact ⟨_, _, rfl, .inr ⟨rfl, literal.quote_ok⟩⟩

/-- No colon is ahead of a value. -/
theorem Atom.ahead (atom : Atom) (rest : List Char) :
    PerfettoConfig.ahead (atom.text ++ rest) ≠ some ':' := by
  obtain ⟨character, body, htext, ⟨-, hplain⟩ | ⟨-, rfl | rfl⟩⟩ := atom.head
  · simp [htext, not_isSpace_of_isPlain hplain, ne_colon_of_isPlain hplain]
  · simp [htext, isspace]
  · simp [htext, isspace]

/-- A value passes. -/
theorem Atom.passes (atom : Atom) (hbreaks : atom.isWord → Breaks rest)
    (hcolon : PerfettoConfig.ahead rest ≠ some ':') : Passes depth atom.text rest := by
  cases atom with
  | word word => exact passes_plain word.plain (hbreaks rfl) hcolon
  | string literal => exact passes_literal literal

/-- The text of several values. -/
theorem atomsText_cons (gaps : List Gap) (atom : Atom) (more : List (List Gap × Atom)) :
    atomsText ((gaps, atom) :: more) = gapsText gaps ++ (atom.text ++ atomsText more) := by
  simp [atomsText]

/-- The last part of a value is a word. -/
def endsInWord (first : Atom) (more : List (List Gap × Atom)) : Bool :=
  (more.getLast?.elim first Prod.snd).isWord

/-- Several values end as the last one does. -/
theorem endsInWord_cons (first second : Atom) (gaps : List Gap) (more : List (List Gap × Atom)) :
    endsInWord first ((gaps, second) :: more) = endsInWord second more := by
  cases more with
  | nil => rfl
  | cons part more =>
      unfold endsInWord
      rw [List.getLast?_cons_cons, List.getLast?_cons]
      rfl

/-- Behind a word comes a gap or a string. -/
theorem breaks_atom {second : Atom} (hgaps : second.isWord → gaps ≠ []) :
    Breaks (gapsText gaps ++ (second.text ++ rest)) := by
  by_cases hnil : gaps = []
  · obtain ⟨character, body, htext, ⟨hword, -⟩ | ⟨-, hquote⟩⟩ := second.head
    · exact absurd hnil (hgaps hword)
    · rcases hquote with rfl | rfl
      · simpa [hnil, gapsText, htext] using (by decide : identifierCharacter '"' = false)
      · simpa [hnil, gapsText, htext] using (by decide : identifierCharacter '\'' = false)
  · exact breaks_gaps hnil

/-- Several values pass. -/
theorem passes_atoms {first : Atom} {more : List (List Gap × Atom)}
    (hspaced : AtomsSpaced first more)
    (hbreaks : endsInWord first more → Breaks rest) (hcolon : ahead rest ≠ some ':') :
    Passes depth (first.text ++ atomsText more) rest := by
  induction more generalizing first with
  | nil =>
      rw [atomsText, List.flatMap_nil, List.append_nil]
      exact first.passes hbreaks hcolon
  | cons part more ih =>
      obtain ⟨gaps, second⟩ := part
      obtain ⟨hgaps, hspaced⟩ := hspaced
      rw [endsInWord_cons] at hbreaks
      have hsecond := ih hspaced hbreaks
      rw [atomsText_cons]
      refine Passes.append (first.passes ?_ ?_) ((passes_gaps gaps _).append hsecond)
      · intro hfirst
        rw [List.append_assoc, List.append_assoc]
        exact breaks_atom (hgaps hfirst)
      · rw [List.append_assoc, List.append_assoc]
        exact ahead_gaps gaps (second.ahead _) (by decide)

theorem Separator.breaks (separator : Separator) :
    identifierCharacter separator.character = false := by
  cases separator <;> decide

/-- A separator, or what follows, breaks a name. -/
theorem breaks_separator {separator : Option (List Gap × Separator)}
    (h : separator.isNone → Breaks rest) :
    Breaks (separatorText separator ++ rest) := by
  rcases separator with _ | ⟨gaps, separator⟩
  · exact h rfl
  · rw [separatorText, List.append_assoc]
    exact breaks_gaps_cons gaps separator.breaks

theorem passes_separator (separator : Option (List Gap × Separator)) :
    Passes depth (separatorText separator) rest := by
  rcases separator with _ | ⟨gaps, separator⟩
  · exact Passes.nil
  · refine (passes_gaps gaps _).append (passes_neutral ?_ ?_)
    · cases separator <;> decide
    · rintro ⟨-, hname⟩
      cases separator <;> exact absurd hname (by decide)

theorem passes_value {first : Atom} {more : List (List Gap × Atom)}
    {separator : Option (List Gap × Separator)} (hspaced : AtomsSpaced first more)
    (hbreaks : separator.isNone → endsInWord first more → Breaks rest)
    (hcolon : ahead rest ≠ some ':') :
    Passes depth (first.text ++ (atomsText more ++ separatorText separator)) rest := by
  rw [← List.append_assoc]
  refine Passes.append (passes_atoms hspaced ?_ ?_) (passes_separator separator)
  · intro hword
    exact breaks_separator fun hnone => hbreaks hnone hword
  · rcases separator with _ | ⟨gaps, separator⟩
    · exact hcolon
    · rw [separatorText, List.append_assoc]
      refine ahead_gaps gaps ?_ (by decide)
      cases separator with
      | semicolon => simp [Separator.character, isspace]
      | comma => simp [Separator.character, isspace]

/-! ## Names -/

/-- A name passes unless the scanner finds a duration field there. -/
theorem Name.passes (name : Name) (hrest : Breaks rest)
    (hend : depth = 0 → name.text = durationName → durationFieldEnd (durationName ++ rest) = none) :
    Passes depth name.text rest := by
  by_cases hdepth : depth = 0
  · subst hdepth
    refine passes_identifier name.first_ok name.rest_ok hrest fun hname => ?_
    rw [← List.cons_append, hname]
    exact hend rfl hname
  · refine passes_nested hdepth fun character hmem => isNeutral_of_identifierCharacter ?_
    rcases List.mem_cons.mp hmem with rfl | hmem
    · exact identifierCharacter_of_start name.first_ok
    · exact name.rest_ok character hmem

theorem durationFieldEnd_spaces (h : ∀ gap ∈ gaps, gap.isSpace) :
    durationFieldEnd (durationName ++ (gapsText gaps ++ ':' :: rest)) =
      (numberEnd (rest.dropWhile isspace)).map separatorEnd := by
  unfold durationFieldEnd
  rw [List.drop_left, dropWhile_spaces h, List.dropWhile_cons_of_neg (by decide)]
  rfl

/-- Where no sign stands, none is skipped. -/
theorem skipSign_of_head {character : Char} {cursor : List Char}
    (hsign : character ≠ '+' ∧ character ≠ '-') :
      skipSign (character :: cursor) = character :: cursor := by
  unfold skipSign
  split
  · rename_i hplus
    exact absurd (List.cons.inj hplus).1 hsign.1
  · rename_i hminus
    exact absurd (List.cons.inj hminus).1 hsign.2
  · rfl

/-- A number starts with a sign or a digit. -/
theorem numberEnd_of_head {character : Char} {cursor : List Char}
    (hhead : cursor.head? = some character)
    (hsign : character ≠ '+' ∧ character ≠ '-') (hdigit : character.isDigit = false) :
    numberEnd cursor = none := by
  obtain ⟨cursor, rfl⟩ : ∃ back, cursor = character :: back :=
    ⟨cursor.tail, (List.cons_head?_tail hhead).symm⟩
  have hzero : character ≠ '0' := by
    rintro rfl
    exact absurd hdigit (by decide)
  have hdigits : (skipDigits (character :: cursor)).1 = false := by
    unfold skipDigits
    split
    · rename_i hhex
      exact absurd (List.cons.inj hhex).1 hzero
    · rename_i hhex
      exact absurd (List.cons.inj hhex).1 hzero
    · simp [hdigit]
  simp [numberEnd, skipSign_of_head hsign, hdigits]

theorem durationFieldEnd_of_comment (h : ¬ ∀ gap ∈ gaps, gap.isSpace) :
    durationFieldEnd (durationName ++ (gapsText gaps ++ rest)) = none := by
  refine durationFieldEnd_of_ahead fun hcolon => ?_
  rcases ahead_comment h with hcomment | hcomment
  · exact absurd (hcolon.symm.trans hcomment) (by decide)
  · exact absurd (hcolon.symm.trans hcomment) (by decide)

/-- Without a number behind the colon there is no duration field. -/
theorem durationFieldEnd_of_value {character : Char} (hrest : ahead rest = some character)
    (hsign : character ≠ '+' ∧ character ≠ '-') (hdigit : character.isDigit = false) :
    durationFieldEnd (durationName ++ (gapsText gaps ++ ':' :: rest)) = none := by
  by_cases h : ∀ gap ∈ gaps, gap.isSpace
  · rw [durationFieldEnd_spaces h, numberEnd_of_head hrest hsign hdigit]
    rfl
  · exact durationFieldEnd_of_comment h

/-! ## Fields that pass -/

/-- A field behind its name. -/
def Scalar.behindName (field : Scalar) : List Char :=
  gapsText field.beforeColon ++
    ':' :: (gapsText field.afterColon ++ (field.value.text ++ separatorText field.separator))

theorem Scalar.text_eq (field : Scalar) : field.text = field.name.text ++ field.behindName :=
  rfl

theorem Scalar.breaks_behindName (field : Scalar) : Breaks (field.behindName ++ rest) := by
  rw [behindName, List.append_assoc, List.cons_append]
  exact breaks_gaps_cons _ (by decide)

theorem Scalar.passes_of_end (field : Scalar) (hbreaks : field.endsInWord → Breaks rest)
    (hcolon : ahead rest ≠ some ':') (hend : depth = 0 → field.isDuration →
      durationFieldEnd (durationName ++ (field.behindName ++ rest)) = none) :
    Passes depth field.text rest := by
  have hvalue : Passes depth (field.value.text ++ separatorText field.separator) rest := by
    rw [Value.text, List.append_assoc]
    refine passes_value field.value.spaced (fun hnone hword => hbreaks ?_) hcolon
    rw [Scalar.endsInWord, hnone]
    exact hword
  have hpunct : Passes depth [':'] ((gapsText field.afterColon ++
      (field.value.text ++ separatorText field.separator)) ++ rest) :=
    passes_neutral (by decide) fun hname => absurd hname.2 (by decide)
  refine Passes.append (field.name.passes field.breaks_behindName fun hdepth hname => ?_)
    ((passes_gaps _ _).append (hpunct.cons ((passes_gaps _ _).append hvalue)))
  exact hend hdepth (decide_eq_true hname)

theorem Scalar.passes (field : Scalar) (hduration : depth = 0 → field.isDuration = false)
    (hbreaks : field.endsInWord → Breaks rest) (hcolon : ahead rest ≠ some ':') :
    Passes depth field.text rest :=
  field.passes_of_end hbreaks hcolon fun hdepth hname =>
    absurd hname (Bool.not_eq_true _ ▸ hduration hdepth)

/-- A bracket opens a message. -/
theorem kept_opening (angle : Bool) :
    kept .normal depth ((if angle then '<' else '{') :: rest) =
      (if angle then '<' else '{') :: kept .normal (depth + 1) rest := by
  cases angle with
  | true => exact kept_cons rfl
  | false => exact kept_cons rfl

/-- A bracket closes a message. -/
theorem kept_closing (angle : Bool) :
    kept .normal (depth + 1) ((if angle then '>' else '}') :: rest) =
      (if angle then '>' else '}') :: kept .normal depth rest := by
  cases angle with
  | true => exact kept_cons rfl
  | false => exact kept_cons rfl

/-- The name of a nested message passes, also where it is the name of the duration field. -/
theorem Frame.passes_name (frame : Frame) :
    Passes depth (frame.name.text ++ (gapsText frame.beforeColon ++ colonText frame.afterColon))
      ((if frame.angle then '<' else '{') :: rest) := by
  obtain ⟨name, beforeColon, afterColon, angle, separator⟩ := frame
  have hahead : ahead ((if angle then '<' else '{') :: rest) =
      some (if angle then '<' else '{') := by
    cases angle with
    | true => rfl
    | false => rfl
  dsimp only
  cases afterColon with
  | none =>
      rw [colonText, List.append_nil]
      refine Passes.append (name.passes ?_ fun _ _ => ?_) (passes_gaps _ _)
      · exact breaks_gaps_cons _ (by cases angle <;> rfl)
      · refine durationFieldEnd_of_ahead (ahead_gaps _ ?_ (by decide))
        rw [hahead]
        cases angle <;> decide
  | some afterColon =>
      have hpunct :
          Passes depth [':'] (gapsText afterColon ++ (if angle then '<' else '{') :: rest) :=
        passes_neutral (by decide) fun hname => absurd hname.2 (by decide)
      refine Passes.append (name.passes ?_ fun _ _ => ?_)
        ((passes_gaps _ _).append (hpunct.cons (passes_gaps _ _)))
      · rw [List.append_assoc]
        exact breaks_gaps_cons _ (by decide)
      · rw [List.append_assoc, colonText, List.cons_append]
        by_cases h : ∀ gap ∈ afterColon, gap.isSpace
        · refine durationFieldEnd_of_value ((ahead_spaces h).trans hahead) ?_ ?_
          · cases angle <;> decide
          · cases angle <;> decide
        · rcases ahead_comment h with hcomment | hcomment
          · exact durationFieldEnd_of_value hcomment (by decide) (by decide)
          · exact durationFieldEnd_of_value hcomment (by decide) (by decide)

/-- A nested message passes if its fields do one level deeper. -/
theorem Frame.passes (frame : Frame) {body : List Char}
    (hbody : ∀ rest, Passes (depth + 1) body ((if frame.angle then '>' else '}') :: rest)) :
    Passes depth (frame.opening ++ (body ++ frame.closing)) rest := by
  have hname := @Frame.passes_name depth (body ++ (frame.closing ++ rest)) frame
  have hseparator := @passes_separator depth rest frame.separator
  have hinside := hbody (separatorText frame.separator ++ rest)
  unfold Passes at *
  simp only [Frame.opening, Frame.closing, List.append_assoc, List.cons_append, List.nil_append]
    at *
  rw [hname, kept_opening, hinside, kept_closing, hseparator]

namespace Message

/-- Behind a message stands what stands behind it, or a comment or a name of the message. -/
theorem ahead_text {character : Char} (message : Message) (hrest : ahead rest ≠ some character)
    (hstart : character ≠ '#' ∧ character ≠ '/') (hname : identifierStart character = false) :
    ahead (message.text ++ rest) ≠ some character := by
  have hfield (name : Name) (back : List Char) : ahead (name.text ++ back) ≠ some character := by
    have hspace : isspace name.first = false := by
      by_contra hspace
      have hnot := not_identifierStart_of_isSpace (Bool.not_eq_false _ ▸ hspace)
      rw [name.first_ok] at hnot
      cases hnot
    have hne : name.first ≠ character := by
      rintro rfl
      rw [name.first_ok] at hname
      cases hname
    simpa [Name.text, hspace] using hne
  induction message with
  | nil => exact hrest
  | gap g rest ih =>
      have hgaps := ahead_gaps [g] ih hstart
      rwa [gapsText, List.flatMap_singleton, ← List.append_assoc] at hgaps
  | scalar field rest =>
      rw [text, Scalar.text, List.append_assoc, List.append_assoc]
      exact hfield _ _
  | message frame body rest =>
      rw [text, Frame.opening, List.append_assoc, List.append_assoc]
      exact hfield _ _

theorem breaks_text {message : Message} (hname : message.startsWithName = false)
    (hrest : Breaks rest) :
    Breaks (message.text ++ rest) := by
  cases message with
  | nil => exact hrest
  | gap g more =>
      have hgaps : Breaks (gapsText [g] ++ (more.text ++ rest)) :=
        breaks_gaps (List.cons_ne_nil g [])
      rwa [gapsText, List.flatMap_singleton, ← List.append_assoc] at hgaps
  | scalar field more => cases hname
  | message frame body more => cases hname

/-- Everything in a nested message passes. -/
theorem passes_nested {message : Message} (hspaced : message.Spaced) (hdepth : depth ≠ 0)
    (hbreaks : Breaks rest) (hcolon : ahead rest ≠ some ':') : Passes depth message.text rest := by
  induction message generalizing depth rest with
  | nil => exact Passes.nil
  | gap g more ih => exact (passes_gap g _).append (ih hspaced hdepth hbreaks hcolon)
  | scalar field more ih =>
      refine (field.passes (fun h => absurd h hdepth) (fun hword => ?_) ?_).append
        (ih hspaced.2 hdepth hbreaks hcolon)
      · exact breaks_text (hspaced.1 hword) hbreaks
      · exact ahead_text more hcolon (by decide) (by decide)
  | message frame body more ihbody ih =>
      have hbody (back : List Char) :
          Passes (depth + 1) body.text ((if frame.angle then '>' else '}') :: back) := by
        refine ihbody hspaced.1 (Nat.succ_ne_zero depth) ?_ ?_
        · cases frame.angle with
          | true => simpa using (by decide : identifierCharacter '>' = false)
          | false => simpa using (by decide : identifierCharacter '}' = false)
        · cases frame.angle <;> simp [isspace]
      have hframe := (frame.passes hbody).append (ih hspaced.2 hdepth hbreaks hcolon)
      simpa [text] using hframe

end Message

end Anettrace.PerfettoConfig
