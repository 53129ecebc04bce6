import Anettrace.PerfettoConfig.Rewriting

/-!
# Written configurations

A configuration as it is meant to be written: a text of the grammar again, without the top-level
duration fields of the text it comes from and, without a ring buffer, with the duration of the
capture at its end. `config_rewritten_iff` says when this is what is written.
-/

namespace Anettrace.PerfettoConfig

namespace Message

/-! ## Messages without durations -/

/-- Whether the last item of the message is a field that ends in a word, or whether what stands
before the message is, if the message has no item. -/
def endsInWord : Bool → Message → Bool
  | before, nil => before
  | _, gap _ rest => rest.endsInWord false
  | _, scalar field rest => rest.endsInWord field.endsInWord
  | _, message _ _ rest => rest.endsInWord false

theorem endsInWord_mono {before : Bool} {contents : Message} (h : contents.endsInWord false) :
    contents.endsInWord before := by
  cases contents with
  | nil => cases h
  | gap g rest => exact h
  | scalar field rest => exact h
  | message frame body rest => exact h

/-- Blanks at the start do not say how contents end. -/
theorem endsInWord_dropBlanks (contents : Message) :
    contents.dropBlanks.endsInWord false = contents.endsInWord false := by
  induction contents with
  | nil => rfl
  | gap g rest ih =>
      rw [dropBlanks]
      split
      · exact ih
      · rfl
  | scalar field rest => rfl
  | message frame body rest => rfl

/-- Names stay apart when the blanks at the start are dropped. -/
theorem spaced_dropBlanks {contents : Message} (hspaced : contents.Spaced) :
    contents.dropBlanks.Spaced := by
  induction contents with
  | nil => exact hspaced
  | gap g rest ih =>
      rw [dropBlanks]
      split
      · exact ih hspaced
      · exact hspaced
  | scalar field rest => exact hspaced
  | message frame body rest => exact hspaced

theorem startsWithName_withoutDuration {contents : Message} (h : contents.startsWithName = false) :
    contents.withoutDuration.startsWithName = false := by
  cases contents with
  | nil => rfl
  | gap g rest => rfl
  | scalar field rest => cases h
  | message frame body rest => cases h

/-- Names stay apart when the durations are left out. -/
theorem spaced_withoutDuration {contents : Message} (hspaced : contents.Spaced) :
    contents.withoutDuration.Spaced := by
  induction contents with
  | nil => exact hspaced
  | gap g rest ih => exact ih hspaced
  | scalar field rest ih =>
      rw [withoutDuration]
      split
      · exact spaced_dropBlanks (ih hspaced.2)
      · exact ⟨fun hword => startsWithName_withoutDuration (hspaced.1 hword), ih hspaced.2⟩
  | message frame body rest ihbody ih => exact ⟨hspaced.1, ih hspaced.2⟩

theorem endsInWord_withoutDuration {before : Bool} {contents : Message} (hspaced : contents.Spaced)
    (hbefore : before → contents.startsWithName = false)
    (h : contents.withoutDuration.endsInWord before) :
    contents.endsInWord before := by
  induction contents generalizing before with
  | nil => exact h
  | gap g rest ih => exact ih hspaced (fun hfalse => absurd hfalse Bool.false_ne_true) h
  | scalar field rest ih =>
      rw [withoutDuration] at h
      split at h
      · have hfirst : before = false := by
          by_contra hword
          exact absurd (hbefore (Bool.not_eq_false _ ▸ hword)) (by simp [startsWithName])
        rw [hfirst, endsInWord_dropBlanks] at h
        show rest.endsInWord field.endsInWord
        exact endsInWord_mono (ih hspaced.2 (fun hfalse => absurd hfalse Bool.false_ne_true) h)
      · exact ih hspaced.2 hspaced.1 h
  | message frame body rest ihbody ih =>
      exact ih hspaced.2 (fun hfalse => absurd hfalse Bool.false_ne_true) h

theorem durations_dropBlanks (contents : Message) :
    contents.dropBlanks.durations = contents.durations := by
  induction contents with
  | nil => rfl
  | gap g rest ih =>
      rw [dropBlanks]
      split
      · exact ih
      · rfl
  | scalar field rest => rfl
  | message frame body rest => rfl

theorem durations_withoutDuration (contents : Message) :
    contents.withoutDuration.durations = [] := by
  induction contents with
  | nil => rfl
  | gap g rest ih => exact ih
  | scalar field rest ih =>
      rw [withoutDuration]
      split
      · rw [durations_dropBlanks, ih]
      · rename_i hduration
        rw [durations, if_neg hduration, ih]
  | message frame body rest ihbody ih => exact ih

/-! ## Messages behind each other -/

/-- The text of two messages is that of one after the other. -/
theorem text_append (first second : Message) :
    (first.append second).text = first.text ++ second.text := by
  induction first with
  | nil => rfl
  | gap g rest ih => rw [append, text, text, ih, List.append_assoc]
  | scalar field rest ih => rw [append, text, text, ih, List.append_assoc]
  | message frame body rest ihbody ih =>
      rw [append, text_message, text_message, ih, ← List.append_assoc]

/-- The durations of two messages are those of one after the other. -/
theorem durations_append (first second : Message) :
    (first.append second).durations = first.durations ++ second.durations := by
  induction first with
  | nil => rfl
  | gap g rest ih => exact ih
  | scalar field rest ih =>
      rw [append, durations, durations, ih]
      split
      · rfl
      · rfl
  | message frame body rest ihbody ih => exact ih

theorem spaced_append (before : Bool) {first second : Message} (hfirst : first.Spaced)
    (hsecond : second.Spaced) (h : first.endsInWord before → second.startsWithName = false) :
    (first.append second).Spaced := by
  induction first generalizing before with
  | nil => exact hsecond
  | gap g rest ih => exact ih false hfirst h
  | scalar field rest ih =>
      refine ⟨fun hword => ?_, ih field.endsInWord hfirst.2 h⟩
      cases rest with
      | nil => exact h hword
      | gap g rest => rfl
      | scalar other rest => exact hfirst.1 hword
      | message frame body rest => exact hfirst.1 hword
  | message frame body rest ihbody ih => exact ⟨hfirst.1, ih false hfirst.2 h⟩

/-! ## The end of a message -/

theorem getLast_word (word : Word) :
    ∃ character, word.text.getLast? = some character ∧ isPlain character :=
  ⟨word.text.getLast word.nonempty, List.getLast?_eq_some_getLast word.nonempty,
    word.plain _ (List.getLast_mem word.nonempty)⟩

theorem getLast_append {character : Char} {first second : List Char}
    (h : second.getLast? = some character) :
    (first ++ second).getLast? = some character := by
  rw [List.getLast?_append, h, Option.some_or]

theorem getLast_value {value : Value} (h : value.endsInWord) :
    ∃ character, value.text.getLast? = some character ∧ isPlain character := by
  obtain ⟨first, more, spaced⟩ := value
  rcases List.eq_nil_or_concat more with rfl | ⟨front, ⟨gaps, last⟩, rfl⟩
  · cases first with
    | word word => simpa [Value.text, atomsText, Atom.text] using getLast_word word
    | string literal => cases h
  · cases last with
    | word word =>
        obtain ⟨character, hlast, hplain⟩ := getLast_word word
        refine ⟨character, ?_, hplain⟩
        show (first.text ++ atomsText (front.concat (gaps, .word word))).getLast? = some character
        rw [List.concat_eq_append, atomsText, List.flatMap_append, List.flatMap_singleton]
        exact getLast_append (getLast_append (getLast_append hlast))
    | string literal => simp [Value.endsInWord, Atom.isWord] at h

theorem getLast_scalar {field : Scalar} (h : field.endsInWord) :
    ∃ character, field.text.getLast? = some character ∧ isPlain character := by
  obtain ⟨hnone, hword⟩ := (Bool.and_eq_true _ _).mp h
  obtain ⟨character, hlast, hplain⟩ := getLast_value hword
  refine ⟨character, ?_, hplain⟩
  rw [Scalar.text, Option.isNone_iff_eq_none.mp hnone, separatorText, List.append_nil,
    ← List.singleton_append]
  exact getLast_append (getLast_append (getLast_append (getLast_append hlast)))

theorem getLast_text {before : Bool} {contents : Message} (front : List Char)
    (h : contents.endsInWord before)
    (hbefore : before → ∃ character, front.getLast? = some character ∧ isPlain character) :
    ∃ character, (front ++ contents.text).getLast? = some character ∧ isPlain character := by
  induction contents generalizing before front with
  | nil => simpa [text] using hbefore h
  | gap g rest ih =>
      rw [text, ← List.append_assoc]
      exact ih _ h fun hfalse => absurd hfalse Bool.false_ne_true
  | scalar field rest ih =>
      rw [text, ← List.append_assoc]
      refine ih _ h fun hword => ?_
      obtain ⟨character, hlast, hplain⟩ := getLast_scalar hword
      exact ⟨character, getLast_append hlast, hplain⟩
  | message frame body rest ihbody ih =>
      rw [text_message, ← List.append_assoc]
      exact ih _ h fun hfalse => absurd hfalse Bool.false_ne_true

end Message

/-! ## Documents -/

/-- The document without the duration fields of its top level. -/
def Document.withoutDuration (document : Document) : Document where
  message := document.message.withoutDuration
  comment := document.comment
  spaced := Message.spaced_withoutDuration document.spaced
  comment_ok := document.comment_ok

theorem isPlain_of_isDigit {character : Char} (h : character.isDigit) : isPlain character := by
  have hidentifier := identifierCharacter_of_isDigit h
  have hspace : isspace character = false := by
    by_contra hspace
    rw [identifierCharacter_of_isSpace (Bool.not_eq_false _ ▸ hspace)] at hidentifier
    cases hidentifier
  have hpunctuation : isPunctuation character = false := by
    by_contra hpunctuation
    simp only [isPunctuation, Bool.not_eq_false, List.contains_eq_mem, decide_eq_true_eq,
      List.mem_cons,
      List.not_mem_nil, or_false] at hpunctuation
    rcases hpunctuation with rfl | rfl | rfl | rfl | rfl | rfl | rfl | rfl | rfl | rfl | rfl <;>
      exact absurd h (by decide)
  simp [isPlain, hspace, hpunctuation]

/-- The word of a number -/
def Word.decimal (number : Nat) : Word where
  text := Nat.toDigits 10 number
  nonempty := Nat.toDigits_ne_nil
  plain _ hmem := isPlain_of_isDigit (Nat.isDigit_of_mem_toDigits (by decide) (by decide) hmem)

/-- The duration of a capture, which ends a second before the trace does. -/
def durationField (durationS : UInt32) : Scalar where
  name := ⟨'d', "uration_ms".toList, rfl, List.all_eq_true.mp rfl⟩
  beforeColon := []
  afterColon := [.space ' ' (by decide)]
  value := ⟨.word (.decimal ((durationS.toNat + 1) * 1000)), [], trivial⟩
  separator := none

/-- What ends the last line of a document. -/
def Document.lineEnd (document : Document) : Message :=
  match hcomment : document.comment with
  | some (slashes, body) =>
      .gap (.lineComment slashes body (document.comment_ok slashes body hcomment)) .nil
  | none => if document.text.getLast? = some '\n' then .nil else .gap (.space '\n' (by decide)) .nil

/-- The line of a duration behind a document. -/
def Document.durationLine (document : Document) (durationS : UInt32) : Message :=
  document.lineEnd.append (.scalar (durationField durationS) (.gap (.space '\n' (by decide)) .nil))

theorem Document.lineEnd_cases (document : Document) :
    (∃ g, document.lineEnd = .gap g .nil) ∨
      document.lineEnd = .nil ∧ document.comment = none ∧ document.text.getLast? = some '\n' := by
  unfold lineEnd
  split
  · exact .inl ⟨_, rfl⟩
  · rename_i hcomment
    split
    · rename_i hlast
      exact .inr ⟨rfl, hcomment, hlast⟩
    · exact .inl ⟨_, rfl⟩

/-- The line of a duration starts on a line of its own. -/
theorem Document.spaced_durationLine (document : Document) (durationS : UInt32) :
    (document.message.withoutDuration.append (document.durationLine durationS)).Spaced := by
  have hfield : (Message.scalar (durationField durationS)
      (.gap (.space '\n' (by decide)) .nil)).Spaced :=
    ⟨fun _ => rfl, trivial⟩
  have hspaced := Message.spaced_withoutDuration document.spaced
  unfold durationLine
  rcases document.lineEnd_cases with ⟨g, hline⟩ | ⟨hline, hcomment, hnewline⟩
  · rw [hline]
    exact Message.spaced_append false hspaced hfield fun _ => rfl
  · rw [hline]
    refine Message.spaced_append false hspaced hfield fun hword => ?_
    have hnone (hfalse : false = true) : document.message.startsWithName = false :=
      absurd hfalse Bool.false_ne_true
    have hmessage := Message.endsInWord_withoutDuration document.spaced hnone hword
    obtain ⟨character, hlast, hplain⟩ :=
      Message.getLast_text [] hmessage fun hfalse => absurd hfalse Bool.false_ne_true
    rw [text, hcomment, commentText, List.append_nil] at hnewline
    obtain rfl : '\n' = character := Option.some.inj (hnewline.symm.trans hlast)
    exact absurd hplain (by decide)

/-- The document with another duration. -/
def Document.withDuration (document : Document) (durationS : UInt32) : Document where
  message := document.message.withoutDuration.append (document.durationLine durationS)
  comment := none
  spaced := document.spaced_durationLine durationS
  comment_ok := nofun

/-- The configuration that is written for a document. -/
def Document.rewritten (document : Document) (durationS : UInt32) (ringBuffer : Bool) : Document :=
  if ringBuffer then document.withoutDuration else document.withDuration durationS

/-! ## What is written -/

theorem Document.ending (document : Document) : Ending (commentText document.comment) :=
  Ending.comment document.comment

/-- The scanner writes the document without its duration fields if and only if these are plain: of
any other something is left. -/
theorem Document.write_iff (document : Document) :
    writeWithoutTopLevelDuration document.text = document.withoutDuration.text ↔
      ∀ field ∈ document.message.durations, field.Plain := by
  have hcomment := @kept_commentText 0 _ document.comment_ok
  rw [write_eq_kept, text, text]
  constructor
  · intro hwritten
    obtain ⟨left, hink, hplain⟩ := Message.ink_kept document.spaced document.ending
    have hsame := congrArg ink hwritten
    rw [hink, hcomment, ink_append] at hsame
    refine hplain ?_
    show left = 0
    have hmessage : document.withoutDuration.message = document.message.withoutDuration := rfl
    have hending : document.withoutDuration.comment = document.comment := rfl
    rw [hmessage, hending] at hsame
    omega
  · intro hplain
    rw [(Message.kept_text document.spaced hplain document.ending).1, hcomment]
    rfl

/-- A text that ends in a comment does not end at the end of a line. -/
theorem commentText_getLast {slashes : Bool} {body : List Char} (hbody : '\n' ∉ body)
    (front : List Char) :
    (front ++ commentText (some (slashes, body))).getLast? ≠ some '\n' := by
  have hmem : '\n' ∉ commentText (some (slashes, body)) := by
    cases slashes with
    | true => simpa [commentText, commentStart] using hbody
    | false => simpa [commentText, commentStart] using hbody
  obtain ⟨character, start, hstart, -⟩ := commentStart_cons slashes
  have hne : commentText (some (slashes, body)) ≠ [] := by
    rw [commentText, hstart]
    exact List.cons_ne_nil _ _
  rw [List.getLast?_append, List.getLast?_eq_some_getLast hne, Option.some_or]
  intro hlast
  exact hmem (Option.some.inj hlast ▸ List.getLast_mem hne)

theorem Document.text_lineEnd (document : Document) :
    document.lineEnd.text =
      commentText document.comment ++ if document.text.getLast? = some '\n' then
        [] else ['\n'] := by
  unfold lineEnd
  split
  · rename_i slashes body hcomment
    have hlast := @commentText_getLast slashes body
        (document.comment_ok slashes body hcomment) document.message.text
    show commentStart slashes ++ body ++ ['\n'] ++ [] = _
    rw [text, hcomment, if_neg hlast, List.append_nil]
    rfl
  · rename_i hcomment
    rw [hcomment]
    split
    · rfl
    · rfl

theorem durationLine_eq (durationS : UInt32) :
    (durationField durationS).text ++ ['\n'] = durationLine durationS := by
  unfold durationLine
  simp [Scalar.text, durationField, Name.text, gapsText, Gap.text, Value.text, atomsText, Atom.text,
    Word.decimal, separatorText]

/-- The line of the duration fits the buffer. -/
theorem durationLine_length (durationS : UInt32) : (durationLine durationS).length < 64 := by
  have hnumber : (durationS.toNat + 1) * 1000 < 10 ^ 13 := by
    have hlt := durationS.toNat_lt
    omega
  have hdigits := (Nat.length_toDigits_le_iff (by decide) (by decide)).mpr hnumber
  have hname : "duration_ms: ".toList.length = 13 := rfl
  unfold durationLine
  simp only [Nat.toList_repr, List.length_append, List.length_singleton, hname]
  omega

/-- What is written for a readable file. -/
theorem write_custom_eq {outputFd : Int} {durationS : UInt32} {text : List Char} (ringBuffer : Bool)
    (hfd : 0 ≤ outputFd) (hduration : durationS ≠ 0) (htext : text ≠ [])
    (hsize : text.length ≤ maxCustomConfigBytes) :
    perfettoConfigWriteCustom outputFd (some ⟨true, text⟩) durationS ringBuffer =
      .ok (writeWithoutTopLevelDuration text ++
        if ringBuffer then []
        else (if text.getLast? = some '\n' then [] else ['\n']) ++ durationLine durationS) := by
  have hread : readConfig ⟨true, text⟩ = .ok text := by
    unfold readConfig
    rw [if_neg (by simp), if_neg htext, if_neg (Nat.not_lt.mpr hsize)]
  have hline : ¬ (durationLine durationS).length ≥ 64 :=
    Nat.not_le.mpr (durationLine_length durationS)
  have hvalid : ¬ (outputFd < 0 ∨ durationS = 0) := by
    rintro (hnegative | hzero)
    · omega
    · exact hduration hzero
  show (if outputFd < 0 ∨ durationS = 0 then _ else _) = _
  rw [if_neg hvalid, hread]
  cases ringBuffer with
  | true => exact congrArg Except.ok (List.append_nil _).symm
  | false =>
      show (if (durationLine durationS).length ≥ 64 then _ else _) = _
      rw [if_neg hline, if_neg Bool.false_ne_true]
      split
      · rfl
      · rw [List.append_assoc]

namespace Document

/-- The text of the document that is written: without its durations, and in a plain trace with the
new one behind. -/
theorem text_rewritten (document : Document) (durationS : UInt32) (ringBuffer : Bool) :
    (document.rewritten durationS ringBuffer).text =
      document.withoutDuration.text ++
        if ringBuffer then []
        else (if document.text.getLast? = some '\n' then [] else ['\n']) ++
          PerfettoConfig.durationLine durationS := by
  cases ringBuffer with
  | true => exact (List.append_nil _).symm
  | false =>
      have hline : (document.durationLine durationS).text =
          document.lineEnd.text ++ PerfettoConfig.durationLine durationS := by
        rw [durationLine, Message.text_append, ← durationLine_eq]
        rfl
      show (document.message.withoutDuration.append (document.durationLine durationS)).text ++ [] =
        document.message.withoutDuration.text ++ commentText document.comment ++ _
      rw [Message.text_append, hline, text_lineEnd, if_neg Bool.false_ne_true]
      simp only [List.append_assoc, List.append_nil]

/-- At the top level there is no duration but the appended one. -/
theorem durations_rewritten (document : Document) (durationS : UInt32) (ringBuffer : Bool) :
    (document.rewritten durationS ringBuffer).message.durations =
      if ringBuffer then [] else [durationField durationS] := by
  cases ringBuffer with
  | true => exact document.message.durations_withoutDuration
  | false =>
      have hline : document.lineEnd.durations = [] := by
        rcases document.lineEnd_cases with ⟨g, hline⟩ | ⟨hline, -⟩
        · rw [hline]
          rfl
        · rw [hline]
          rfl
      show (document.message.withoutDuration.append (document.durationLine durationS)).durations = _
      rw [Message.durations_append, Message.durations_withoutDuration, durationLine,
        Message.durations_append,
        hline]
      rfl

end Document

/-- The field that is written has the duration in milliseconds. -/
theorem durationField_value (durationS : UInt32) :
    Nat.ofDigitChars 10 (durationField durationS).value.text 0 = (durationS.toNat + 1) * 1000 := by
  have htext : (durationField durationS).value.text =
      Nat.toDigits 10 ((durationS.toNat + 1) * 1000) :=
    List.append_nil _
  rw [htext, Nat.ofDigitChars_ten_toDigits]

/-- The configuration is written without its top-level duration fields and, without a ring buffer,
with the duration of the capture, if and only if the duration fields it comes with are plain. -/
theorem config_rewritten_iff (document : Document) {outputFd : Int} {durationS : UInt32}
    (ringBuffer : Bool) (hfd : 0 ≤ outputFd) (hduration : durationS ≠ 0)
    (htext : document.text ≠ []) (hsize : document.text.length ≤ maxCustomConfigBytes) :
    (perfettoConfigWriteCustom outputFd (some ⟨true, document.text⟩) durationS ringBuffer =
        .ok (document.rewritten durationS ringBuffer).text ↔
      ∀ field ∈ document.message.durations, field.Plain) ∧
    (document.rewritten durationS ringBuffer).message.durations =
      (if ringBuffer then [] else [durationField durationS]) ∧
    Nat.ofDigitChars 10 (durationField durationS).value.text 0 = (durationS.toNat + 1) * 1000 := by
  refine ⟨?_, document.durations_rewritten durationS ringBuffer, durationField_value durationS⟩
  rw [write_custom_eq ringBuffer hfd hduration htext hsize, document.text_rewritten,
    Except.ok.injEq,
    List.append_left_inj, document.write_iff]

/-- A blank -/
def spaceGap : Gap :=
  .space ' ' (by decide)

/-- A comment -/
def commentGap : Gap :=
  .blockComment ['s'] (by decide)

/-- A configuration that is one duration, with gaps in front of the colon -/
def oneDuration (beforeColon : List Gap) : Document where
  message :=
    .scalar
      { name := ⟨'d', "uration_ms".toList, rfl, List.all_eq_true.mp rfl⟩
        beforeColon := beforeColon
        afterColon := [spaceGap]
        value := ⟨.word ⟨['5'], List.cons_ne_nil _ _, List.all_eq_true.mp rfl⟩, [], trivial⟩
        separator := some ([], .semicolon) }
      (.gap (.space '\n' (by decide)) .nil)
  comment := none
  spaced := ⟨fun _ => rfl, trivial⟩
  comment_ok := nofun

/-- A comment between the name and the colon keeps the duration that the configuration came with. -/
theorem commented_duration_kept :
    (oneDuration [commentGap]).text = "duration_ms/*s*/: 5;\n".toList ∧
    perfettoConfigWriteCustom 3 (some ⟨true, (oneDuration [commentGap]).text⟩) 10 false =
      .ok "duration_ms/*s*/: 5;\nduration_ms: 11000\n".toList ∧
    perfettoConfigWriteCustom 3 (some ⟨true, (oneDuration [commentGap]).text⟩) 10 false ≠
      .ok ((oneDuration [commentGap]).rewritten 10 false).text :=
  ⟨rfl, by decide +kernel, by decide +kernel⟩

/-- A configuration with a blank before the colon is rewritten. -/
theorem config_rewritten_iff_spaced :
    perfettoConfigWriteCustom 3 (some ⟨true, (oneDuration [spaceGap]).text⟩) 10 false =
      .ok ((oneDuration [spaceGap]).rewritten 10 false).text := by
  have hplain : ∀ field ∈ (oneDuration [spaceGap]).message.durations, field.Plain := by
    intro field hmem
    obtain rfl := List.mem_singleton.mp hmem
    refine ⟨by simp [spaceGap, Gap.isSpace], by simp [spaceGap, Gap.isSpace],
      ⟨⟨['5'], List.cons_ne_nil _ _, List.all_eq_true.mp rfl⟩, rfl, rfl, ?_⟩, ?_⟩
    · exact ⟨[], ['5'], rfl, .inl rfl, .inl ⟨List.cons_ne_nil _ _, List.all_eq_true.mp rfl⟩⟩
    · intro gaps separator hseparator gap hmem
      obtain ⟨rfl, -⟩ := Prod.mk.inj (Option.some.inj hseparator)
      exact absurd hmem List.not_mem_nil
  exact (config_rewritten_iff (oneDuration [spaceGap]) false (by decide) (by decide)
    (by decide) (by decide)).1.mpr hplain

end Anettrace.PerfettoConfig
