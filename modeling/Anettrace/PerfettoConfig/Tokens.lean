import Anettrace.PerfettoConfig.Scan
import Anettrace.PerfettoConfig.Grammar

/-!
# Scanning tokens

What the scanner does with each token of the text format. Strings, comments and white space pass at
every depth; so does everything inside a nested message. A name at the top level passes unless a
duration field starts with it.
-/

namespace Anettrace.PerfettoConfig

variable {depth : Nat} {first second rest : List Char} {character : Char}

/-- The scanner is outside of strings and comments before and after a piece of text, and keeps
it. -/
def Passes (depth : Nat) (piece rest : List Char) : Prop :=
  kept .normal depth (piece ++ rest) = piece ++ kept .normal depth rest

theorem Passes.nil : Passes depth [] rest :=
  rfl

theorem Passes.append (hfirst : Passes depth first (second ++ rest))
    (hsecond : Passes depth second rest) :
    Passes depth (first ++ second) rest := by
  unfold Passes at *
  rw [List.append_assoc, hfirst, hsecond, List.append_assoc]

theorem Passes.cons (hfirst : Passes depth [character] (second ++ rest))
    (hsecond : Passes depth second rest) : Passes depth (character :: second) rest :=
  Passes.append hfirst hsecond

/-- Pieces that pass anywhere pass in a row. -/
theorem Passes.flatMap {α : Type*} {pieces : List α} {text : α → List Char}
    (h : ∀ piece ∈ pieces, ∀ rest, Passes depth (text piece) rest) :
    Passes depth (pieces.flatMap text) rest := by
  induction pieces with
  | nil => exact Passes.nil
  | cons piece pieces ih =>
      rw [List.flatMap_cons]
      exact (h piece List.mem_cons_self _).append
        (ih fun other hmem => h other (List.mem_cons_of_mem _ hmem))

/-! ## Single characters -/

/-- The characters that do not change the state or the depth. -/
def isNeutral (character : Char) : Bool :=
  !(['"', '\'', '#', '/', '{', '}', '<', '>'].contains character)

/-- A character is neutral if it opens and closes nothing. -/
theorem isNeutral_iff :
    isNeutral character ↔
      character ≠ '"' ∧ character ≠ '\'' ∧ character ≠ '#' ∧ character ≠ '/' ∧ character ≠ '{' ∧
        character ≠ '}' ∧ character ≠ '<' ∧ character ≠ '>' := by
  simp [isNeutral]

theorem isNeutral_of_isSpace (h : isspace character) : isNeutral character := by
  simp only [isspace, Bool.or_eq_true, decide_eq_true_eq] at h
  rcases h with ((((rfl | rfl) | rfl) | rfl) | rfl) | rfl <;> decide

theorem isNeutral_of_isPlain (h : isPlain character) : isNeutral character := by
  simp only [isPlain, isPunctuation, Bool.and_eq_true, Bool.not_eq_true', List.contains_eq_mem,
    decide_eq_false_iff_not, List.mem_cons, not_or] at h
  simp [isNeutral, h]

theorem isNeutral_of_identifierCharacter (h : identifierCharacter character) :
    isNeutral character := by
  by_contra hnot
  simp only [isNeutral, Bool.not_eq_true, Bool.not_eq_false', List.contains_eq_mem,
    decide_eq_true_eq,
    List.mem_cons, List.not_mem_nil, or_false] at hnot
  rcases hnot with rfl | rfl | rfl | rfl | rfl | rfl | rfl | rfl <;> exact absurd h (by decide)

theorem not_identifierStart_of_isSpace (h : isspace character) :
    identifierStart character = false := by
  simp only [isspace, Bool.or_eq_true, decide_eq_true_eq] at h
  rcases h with ((((rfl | rfl) | rfl) | rfl) | rfl) | rfl <;> decide

theorem identifierCharacter_of_start (h : identifierStart character) :
    identifierCharacter character := by
  simp only [identifierStart, identifierCharacter, Char.isAlphanum, Bool.or_eq_true] at *
  exact h.imp_left Or.inl

/-- A neutral character that starts no name at the root is passed. -/
theorem normalRound_neutral {next : List Char} (hneutral : isNeutral character)
    (hname : ¬ (depth = 0 ∧ identifierStart character)) :
    normalRound depth character next = .advance .normal depth next := by
  have hnot := isNeutral_iff.mp hneutral
  unfold normalRound
  simp [hnot, hname]

theorem passes_neutral (hneutral : isNeutral character)
    (hname : ¬ (depth = 0 ∧ identifierStart character)) : Passes depth [character] rest :=
  kept_cons (normalRound_neutral hneutral hname)

theorem passes_space (h : isspace character) : Passes depth [character] rest :=
  passes_neutral (isNeutral_of_isSpace h) fun hname => by
    rw [not_identifierStart_of_isSpace h] at hname
    cases hname.2

/-- Inside a nested message neutral characters pass. -/
theorem passes_nested {text : List Char} (hdepth : depth ≠ 0)
    (h : ∀ character ∈ text, isNeutral character) : Passes depth text rest := by
  have hpieces : Passes depth (text.flatMap fun character => [character]) rest :=
    Passes.flatMap fun character hmem rest => passes_neutral (h character hmem) fun hname =>
      hdepth hname.1
  rwa [List.flatMap_singleton'] at hpieces

/-! ## Strings -/

/-- The inside of a string is kept, up to its quote. -/
theorem kept_string {quote : Char} {parts : List StringPart} (hquote : quote ≠ '\\')
    (hparts : ∀ character, .plain character ∈ parts → character ≠ quote ∧ character ≠ '\\') :
    kept (.string quote false) depth (parts.flatMap StringPart.text ++ quote :: rest) =
      parts.flatMap StringPart.text ++ quote :: kept .normal depth rest := by
  induction parts with
  | nil =>
      have hround : round (.string quote false) depth quote rest = .advance .normal depth rest := by
        simp [round, stringRound, hquote]
      exact kept_cons hround
  | cons part parts ih =>
      have ih := ih fun character hmem => hparts character (List.mem_cons_of_mem _ hmem)
      cases part with
      | plain character =>
          obtain ⟨hnotquote, hnotescape⟩ := hparts character List.mem_cons_self
          have hround (next : List Char) : round (.string quote false) depth character next =
              .advance (.string quote false) depth next := by
            simp [round, stringRound, hnotquote, hnotescape]
          rw [List.flatMap_cons, List.append_assoc, List.append_assoc, ← ih]
          exact kept_cons (hround _)
      | escape character =>
          have hfirst (next : List Char) : round (.string quote false) depth '\\' next =
              .advance (.string quote true) depth next := by
            simp [round, stringRound]
          have hsecond (next : List Char) : round (.string quote true) depth character next =
              .advance (.string quote false) depth next := by
            simp [round, stringRound]
          rw [List.flatMap_cons, List.append_assoc, List.append_assoc, ← ih]
          exact (kept_cons (hfirst _)).trans (congrArg ('\\' :: ·) (kept_cons (hsecond _)))

theorem passes_literal (literal : StringLiteral) : Passes depth literal.text rest := by
  have hround (next : List Char) : round .normal depth literal.quote next =
      .advance (.string literal.quote false) depth next := by
    rcases literal.quote_ok with h | h <;> simp [round, normalRound, h]
  have hquote : literal.quote ≠ '\\' := by
    rcases literal.quote_ok with h | h <;> simp [h]
  have hopen := kept_cons (hround (literal.parts.flatMap StringPart.text ++ literal.quote :: rest))
  rw [kept_string hquote literal.parts_ok] at hopen
  unfold Passes StringLiteral.text
  simpa using hopen

/-! ## Comments and white space -/

theorem kept_lineComment {body : List Char} (h : '\n' ∉ body) :
    kept .lineComment depth (body ++ '\n' :: rest) = body ++ '\n' :: kept .normal depth rest := by
  induction body with
  | nil => exact kept_cons rfl
  | cons character body ih =>
      obtain ⟨hnot, hbody⟩ := not_or.mp (mt List.mem_cons.mpr h)
      have hround (next : List Char) : round .lineComment depth character next =
          .advance .lineComment depth next := by
        simp [round, Ne.symm hnot]
      rw [List.cons_append, List.cons_append, ← ih hbody]
      exact kept_cons (hround _)

theorem kept_lineComment_end {body : List Char} (h : '\n' ∉ body) :
    kept .lineComment depth body = body := by
  induction body with
  | nil => rfl
  | cons character body ih =>
      obtain ⟨hnot, hbody⟩ := not_or.mp (mt List.mem_cons.mpr h)
      have hround (next : List Char) : round .lineComment depth character next =
          .advance .lineComment depth next := by
        simp [round, Ne.symm hnot]
      rw [kept_cons (hround _), ih hbody]

theorem kept_commentStart (slashes : Bool) :
    kept .normal depth (commentStart slashes ++ rest) =
      commentStart slashes ++ kept .lineComment depth rest := by
  cases slashes with
  | true => exact kept_cons_cons rfl
  | false => exact kept_cons rfl

/-- A block comment is kept up to its end. -/
theorem kept_blockComment {body : List Char} (h : ¬ ['*', '/'] <:+: body) :
    kept .blockComment depth (body ++ '*' :: '/' :: rest) =
      body ++ '*' :: '/' :: kept .normal depth rest := by
  induction body with
  | nil => exact kept_cons_cons rfl
  | cons character body ih =>
      have hbody : ¬ ['*', '/'] <:+: body := fun hinside =>
        h (hinside.trans (List.suffix_cons _ _).isInfix)
      have hround : round .blockComment depth character (body ++ '*' :: '/' :: rest) =
          .advance .blockComment depth (body ++ '*' :: '/' :: rest) := by
        have hopen : ¬ (character = '*' ∧ (body ++ '*' :: '/' :: rest).head? = some '/') := by
          rintro ⟨rfl, hhead⟩
          cases body with
          | nil => cases hhead
          | cons next body =>
              obtain rfl : next = '/' := Option.some.inj hhead
              exact h ⟨[], body, rfl⟩
        exact if_neg hopen
      rw [List.cons_append, List.cons_append, ← ih hbody]
      exact kept_cons hround

theorem passes_gap (gap : Gap) (rest : List Char) : Passes depth gap.text rest := by
  unfold Passes
  cases gap with
  | space character h => exact passes_space h
  | lineComment slashes body h =>
      simp only [Gap.text, List.append_assoc, List.singleton_append]
      rw [kept_commentStart, kept_lineComment h]
  | blockComment body h =>
      have hround : round .normal depth '/' ('*' :: (body ++ '*' :: '/' :: rest)) =
          .advance .blockComment depth (body ++ '*' :: '/' :: rest) := rfl
      have hopen := kept_cons_cons hround
      rw [kept_blockComment h] at hopen
      simpa [Gap.text] using hopen

theorem passes_gaps (gaps : List Gap) (rest : List Char) : Passes depth (gapsText gaps) rest :=
  Passes.flatMap fun gap _ rest => passes_gap gap rest

theorem kept_commentText {comment : Option (Bool × List Char)}
    (h : ∀ slashes body, comment = some (slashes, body) → '\n' ∉ body) :
    kept .normal depth (commentText comment) = commentText comment := by
  cases comment with
  | none => rfl
  | some comment =>
      unfold commentText
      rw [kept_commentStart, kept_lineComment_end (h _ _ rfl)]

end Anettrace.PerfettoConfig
