import Anettrace.PerfettoConfig.Durations

/-!
# Rewriting a configuration

What `perfettoConfigWriteCustom` writes for a text of the grammar. If the top-level duration fields
are plain, it is the text without them; otherwise characters of a field are left.
-/

namespace Anettrace.PerfettoConfig

variable {rest : List Char}

/-! ## The end of a text -/

/-- A text that is empty or starts with a comment -/
def Ending (rest : List Char) : Prop :=
  ∀ character, rest.head? = some character → character = '#' ∨ character = '/'

namespace Ending

theorem comment (comment : Option (Bool × List Char)) : Ending (commentText comment) := by
  intro character hhead
  rcases comment with _ | ⟨slashes, body⟩
  · cases hhead
  · obtain ⟨first, start, hstart, hfirst⟩ := commentStart_cons slashes
    rw [commentText, hstart] at hhead
    obtain rfl : first = character := Option.some.inj hhead
    exact hfirst

theorem breaks (hrest : Ending rest) : Breaks rest := by
  cases rest with
  | nil => exact breaks_nil
  | cons character rest =>
      rw [breaks_cons]
      rcases hrest character rfl with rfl | rfl <;> decide

/-- Nothing but a comment is ahead of an ending. -/
theorem ahead {character : Char} (hrest : Ending rest)
    (hcharacter : character ≠ '#' ∧ character ≠ '/') :
    PerfettoConfig.ahead rest ≠ some character := by
  cases rest with
  | nil => exact nofun
  | cons first rest =>
      rcases hrest first rfl with rfl | rfl
      · rw [ahead_cons, if_neg (by decide)]
        exact fun heq => hcharacter.1 (Option.some.inj heq).symm
      · rw [ahead_cons, if_neg (by decide)]
        exact fun heq => hcharacter.2 (Option.some.inj heq).symm

theorem dropWhile (hrest : Ending rest) : rest.dropWhile isBlank = rest := by
  cases rest with
  | nil => rfl
  | cons first rest =>
      rcases hrest first rfl with rfl | rfl
      · rfl
      · rfl

end Ending

/-- What may follow a field of the top level. -/
theorem Message.follows {field : Scalar} {more : Message}
    (hspaced : (Message.scalar field more).Spaced) (hrest : Ending rest) :
    field.Follows (more.text ++ rest) where
  breaks hword := more.breaks_text (hspaced.1 hword) hrest.breaks
  colon := more.ahead_text (hrest.ahead (by decide)) (by decide) (by decide)
  semicolon := more.ahead_text (hrest.ahead (by decide)) (by decide) (by decide)
  comma := more.ahead_text (hrest.ahead (by decide)) (by decide) (by decide)

theorem Frame.passes_top (frame : Frame) {body : Message} (hspaced : body.Spaced)
    (rest : List Char) :
    Passes 0 (frame.opening ++ (body.text ++ frame.closing)) rest := by
  refine frame.passes fun back => Message.passes_nested hspaced Nat.one_ne_zero ?_ ?_
  · cases frame.angle with
    | true => simpa using (by decide : identifierCharacter '>' = false)
    | false => simpa using (by decide : identifierCharacter '}' = false)
  · cases frame.angle <;> simp [isspace]

theorem kept_blanks (text : List Char) :
    kept .normal 0 text = text.takeWhile isBlank ++ kept .normal 0 (text.dropWhile isBlank) := by
  induction text with
  | nil => rfl
  | cons first text ih =>
      rw [List.takeWhile_cons, List.dropWhile_cons]
      split
      · rename_i hblank
        rw [List.cons_append, ← ih]
        exact passes_space (isSpace_of_isBlank hblank)
      · rfl

theorem ink_kept_blanks (text : List Char) :
    ink (kept .normal 0 (text.dropWhile isBlank)) = ink (kept .normal 0 text) := by
  have hblanks : ink (text.takeWhile isBlank) = 0 := by
    refine List.countP_eq_zero.mpr fun character hmem => ?_
    simp [List.mem_takeWhile_imp hmem]
  rw [kept_blanks text, ink_append, hblanks, Nat.zero_add]

namespace Message

theorem dropBlanks_dropBlanks (contents : Message) :
    contents.dropBlanks.dropBlanks = contents.dropBlanks := by
  induction contents with
  | nil => rfl
  | gap g rest ih =>
      cases hgap : g.isBlank with
      | true => simpa [dropBlanks, hgap] using ih
      | false => simp [dropBlanks, hgap]
  | scalar field rest => rfl
  | message frame body rest => rfl

theorem dropBlanks_scalar (field : Scalar) (more : Message) :
    (scalar field more).dropBlanks = scalar field more :=
  rfl

theorem dropBlanks_message (frame : Frame) (body more : Message) :
    (message frame body more).dropBlanks = message frame body more :=
  rfl

theorem text_message (frame : Frame) (body more : Message) :
    (message frame body more).text = frame.opening ++
      (body.text ++ frame.closing) ++ more.text := by
  simp [text]

theorem name_not_blank (name : Name) : isBlank name.first = false := by
  by_contra hblank
  have hnot := not_identifierStart_of_isSpace (isSpace_of_isBlank (Bool.not_eq_false _ ▸ hblank))
  rw [name.first_ok] at hnot
  cases hnot

/-- A field does not start with a blank. -/
theorem dropWhile_name (name : Name) (rest : List Char) :
    (name.text ++ rest).dropWhile isBlank = name.text ++ rest :=
  List.dropWhile_cons_of_neg (by simp [name_not_blank name])

theorem dropWhile_gap {g : Gap} (hblank : g.isBlank) (rest : List Char) :
    (g.text ++ rest).dropWhile isBlank = rest.dropWhile isBlank := by
  rcases g.text_cases with ⟨character, -, htext, -, hcharacter⟩ | ⟨_, _, _, _, _, hnot⟩
  · rw [htext, List.singleton_append, List.dropWhile_cons_of_pos (hcharacter ▸ hblank)]
  · rw [hblank] at hnot
    cases hnot

/-- If all its duration fields are plain, a message is kept without them. A duration field takes the
blanks behind it along, so the induction looks at the text behind its blanks, too. -/
theorem kept_text {contents : Message} (hspaced : contents.Spaced)
    (hplain : ∀ field ∈ contents.durations, field.Plain) (hrest : Ending rest) :
    kept .normal 0 (contents.text ++ rest) = contents.withoutDuration.text ++ kept .normal 0 rest ∧
      kept .normal 0 ((contents.text ++ rest).dropWhile isBlank) =
        contents.withoutDuration.dropBlanks.text ++ kept .normal 0 rest := by
  induction contents with
  | nil => exact ⟨rfl, congrArg (kept .normal 0) hrest.dropWhile⟩
  | gap g more ih =>
      obtain ⟨hkept, hblanks⟩ := ih hspaced hplain
      have hgap : kept .normal 0 ((gap g more).text ++ rest) =
          (gap g more.withoutDuration).text ++ kept .normal 0 rest := by
        rw [text, List.append_assoc, passes_gap g, hkept, text, List.append_assoc]
      refine ⟨hgap, ?_⟩
      cases hblank : g.isBlank with
      | true =>
          rw [withoutDuration, dropBlanks, if_pos hblank, ← hblanks, text, List.append_assoc,
            dropWhile_gap hblank]
      | false =>
          rw [withoutDuration, dropBlanks, if_neg (by simp [hblank]), ← hgap]
          obtain ⟨first, body, htext, hfirst, -⟩ := Gap.head_of_not_blank hblank
          rw [text, htext, List.cons_append, List.cons_append,
            List.dropWhile_cons_of_neg (by simp [hfirst])]
  | scalar field more ih =>
      have hfollows := follows hspaced hrest
      have hdrop : ((scalar field more).text ++ rest).dropWhile isBlank =
          (scalar field more).text ++ rest := by
        rw [text, Scalar.text_eq, List.append_assoc, List.append_assoc, dropWhile_name]
      rw [hdrop, text, List.append_assoc]
      cases hduration : field.isDuration with
      | true =>
          rw [durations, if_pos hduration] at hplain
          obtain ⟨hfield, hmore⟩ := List.forall_mem_cons.mp hplain
          obtain ⟨-, hblanks⟩ := ih hspaced.2 hmore
          rw [withoutDuration, if_pos hduration, dropBlanks_dropBlanks,
            Scalar.kept_plain hduration hfield hfollows]
          exact ⟨hblanks, hblanks⟩
      | false =>
          rw [durations, if_neg (by simp [hduration])] at hplain
          obtain ⟨hkept, -⟩ := ih hspaced.2 hplain
          rw [withoutDuration, if_neg (by simp [hduration]), dropBlanks_scalar, text,
            List.append_assoc,
            field.passes (fun _ => hduration) hfollows.breaks hfollows.colon, hkept]
          exact ⟨rfl, rfl⟩
  | message frame body more ihbody ih =>
      obtain ⟨hkept, -⟩ := ih hspaced.2 hplain
      have hdrop : ((message frame body more).text ++ rest).dropWhile isBlank =
          (message frame body more).text ++ rest := by
        rw [text, Frame.opening, List.append_assoc, List.append_assoc, dropWhile_name]
      rw [hdrop, withoutDuration, dropBlanks_message, text_message, text_message, List.append_assoc,
        frame.passes_top hspaced.1, hkept, List.append_assoc _ _ (kept .normal 0 rest)]
      exact ⟨rfl, rfl⟩

theorem ink_dropBlanks (contents : Message) : ink contents.dropBlanks.text = ink contents.text := by
  induction contents with
  | nil => rfl
  | gap g rest ih =>
      cases hgap : g.isBlank with
      | true =>
          rcases g.text_cases with ⟨character, -, htext, -, hblank⟩ | ⟨_, _, _, _, _, hnot⟩
          · rw [dropBlanks, if_pos hgap, ih, text, ink_append, htext]
            simp [ink, ← hblank, hgap]
          · rw [hgap] at hnot
            cases hnot
      | false => rw [dropBlanks, if_neg (by simp [hgap])]
  | scalar field rest => rfl
  | message frame body rest => rfl

theorem ink_kept {contents : Message} (hspaced : contents.Spaced) (hrest : Ending rest) :
    ∃ left, ink (kept .normal 0 (contents.text ++ rest)) =
        ink contents.withoutDuration.text + left + ink (kept .normal 0 rest) ∧
      (left = 0 → ∀ field ∈ contents.durations, field.Plain) := by
  induction contents with
  | nil =>
      exact ⟨0, by simp [text, withoutDuration, ink], fun _ _ hmem => absurd hmem List.not_mem_nil⟩
  | gap g more ih =>
      obtain ⟨left, hink, hplain⟩ := ih hspaced
      refine ⟨left, ?_, hplain⟩
      rw [text, List.append_assoc, passes_gap g, ink_append, hink, withoutDuration,
        text, ink_append]
      omega
  | scalar field more ih =>
      have hfollows := follows hspaced hrest
      obtain ⟨left, hink, hmore⟩ := ih hspaced.2
      rw [text, List.append_assoc, withoutDuration, durations]
      cases hduration : field.isDuration with
      | true =>
          rw [if_pos rfl, if_pos rfl, ink_dropBlanks]
          by_cases hplain : field.Plain
          · refine ⟨left, ?_, fun hleft => List.forall_mem_cons.mpr ⟨hplain, hmore hleft⟩⟩
            rw [Scalar.kept_plain hduration hplain hfollows, ink_kept_blanks, hink]
          · obtain ⟨piece, hkept, hpiece⟩ := Scalar.exists_left hduration hplain hfollows
            refine ⟨ink piece + left, ?_, fun hleft => ?_⟩
            · rw [hkept, ink_append, hink]
              omega
            · omega
      | false =>
          rw [if_neg Bool.false_ne_true, if_neg Bool.false_ne_true]
          refine ⟨left, ?_, hmore⟩
          rw [field.passes (fun _ => hduration) hfollows.breaks hfollows.colon,
            ink_append, hink, text,
            ink_append]
          omega
  | message frame body more ihbody ih =>
      obtain ⟨left, hink, hplain⟩ := ih hspaced.2
      refine ⟨left, ?_, hplain⟩
      rw [text_message, List.append_assoc, frame.passes_top hspaced.1, ink_append, hink,
        withoutDuration,
        text_message, ink_append (_ ++ _) more.withoutDuration.text]
      omega

end Message

end Anettrace.PerfettoConfig
