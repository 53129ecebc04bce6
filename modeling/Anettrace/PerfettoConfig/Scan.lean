import Anettrace.PerfettoConfig.Model

/-!
# What the scanner keeps

The scanner as a function of the text: `kept` is what it writes of a text it starts in a given state
and at a given depth. Its equations say what a round does to the text alone, without the two
positions and the output.
-/

namespace Anettrace.PerfettoConfig

variable {state state' : ScanState} {depth depth' : Nat} {character : Char}
  {next index chunk fieldEnd : List Char}

/-! ## A round goes forward -/

/-- `skip_sign` moves forward. -/
theorem skipSign_suffix (cursor : List Char) : skipSign cursor <:+ cursor := by
  unfold skipSign
  split
  · exact List.suffix_cons _ _
  · exact List.suffix_cons _ _
  · exact List.suffix_refl _

/-- `skip_digits` moves forward. -/
theorem skipDigits_suffix (cursor : List Char) : (skipDigits cursor).2 <:+ cursor := by
  unfold skipDigits
  split
  · exact (List.dropWhile_suffix _).trans ((List.suffix_cons _ _).trans (List.suffix_cons _ _))
  · exact (List.dropWhile_suffix _).trans ((List.suffix_cons _ _).trans (List.suffix_cons _ _))
  · exact List.dropWhile_suffix _

/-- The end of a number is behind its start. -/
theorem numberEnd_suffix {cursor : List Char} (h : numberEnd cursor = some fieldEnd) :
    fieldEnd <:+ cursor := by
  unfold numberEnd at h
  dsimp only at h
  split at h
  · cases h
  · cases h
    exact (skipDigits_suffix _).trans (skipSign_suffix cursor)

/-- `skip_separator` moves forward. -/
theorem skipSeparator_suffix (cursor : List Char) : skipSeparator cursor <:+ cursor := by
  unfold skipSeparator
  split
  · exact List.suffix_cons _ _
  · exact List.suffix_cons _ _
  · exact List.suffix_refl _

theorem separatorEnd_suffix (cursor : List Char) : separatorEnd cursor <:+ cursor :=
  (List.dropWhile_suffix _).trans ((skipSeparator_suffix _).trans (List.dropWhile_suffix _))

theorem durationFieldEnd_suffix {start : List Char} (h : durationFieldEnd start = some fieldEnd) :
    fieldEnd <:+ start.drop durationName.length := by
  unfold durationFieldEnd at h
  split at h
  · rename_i cursor hcolon
    obtain ⟨numbered, hnumber, rfl⟩ := Option.map_eq_some_iff.mp h
    have hafter : cursor <:+ start.drop durationName.length :=
      (List.suffix_cons ':' cursor).trans (hcolon ▸ List.dropWhile_suffix isspace)
    exact (separatorEnd_suffix numbered).trans
      ((numberEnd_suffix hnumber).trans ((List.dropWhile_suffix isspace).trans hafter))
  · cases h

/-- A round outside strings and comments moves forward. -/
theorem normalRound_advance (h : normalRound depth character next = .advance state' depth' index) :
    index <:+ next := by
  unfold normalRound at h
  split_ifs at h
  · cases h
    exact List.suffix_refl _
  · cases h
    exact List.suffix_refl _
  · cases h
    exact List.tail_suffix _
  · cases h
    exact List.tail_suffix _
  · cases h
    exact List.suffix_refl _
  · cases h
    exact List.suffix_refl _
  · split at h
    · cases h
    · cases h
      exact List.dropWhile_suffix _
  · cases h
    exact List.dropWhile_suffix _
  · cases h
    exact List.suffix_refl _

/-- The end of a removed field is behind its start. -/
theorem normalRound_remove (h : normalRound depth character next = .remove fieldEnd) :
    fieldEnd <:+ next := by
  unfold normalRound at h
  split_ifs at h
  split at h
  · rename_i hend
    cases h
    exact (durationFieldEnd_suffix hend).trans (List.drop_suffix 10 next)
  · cases h

/-- A round moves forward. -/
theorem round_advance (h : round state depth character next = .advance state' depth' index) :
    index <:+ next := by
  cases state with
  | normal => exact normalRound_advance h
  | string quote escaped =>
      cases h
      exact List.suffix_refl _
  | lineComment =>
      cases h
      exact List.suffix_refl _
  | blockComment =>
      unfold round at h
      dsimp only at h
      split at h
      · cases h
        exact List.tail_suffix _
      · cases h
        exact List.suffix_refl _

/-- The end of what a round removes is behind its start. -/
theorem round_remove (h : round state depth character next = .remove fieldEnd) :
    fieldEnd <:+ next := by
  cases state with
  | normal => exact normalRound_remove h
  | string quote escaped => cases h
  | lineComment => cases h
  | blockComment =>
      unfold round at h
      dsimp only at h
      split at h
      · cases h
      · cases h

/-! ## The loop as a function of the text -/

/-- What is written in the end if a number of rounds is left. -/
def written (rounds : Nat) (scanner : Scanner) : List Char :=
  (scan rounds scanner).output ++ (scan rounds scanner).cursor

/-- What the scanner writes of a text. -/
def kept (state : ScanState) (depth : Nat) (text : List Char) : List Char :=
  written text.length ⟨state, depth, [], text, text⟩

theorem write_eq_kept (text : List Char) :
    writeWithoutTopLevelDuration text = kept .normal 0 text :=
  rfl

/-- At the end of the text the loop is over. -/
theorem written_end (rounds : Nat) (output cursor : List Char) :
    written rounds ⟨state, depth, output, cursor, []⟩ = output ++ cursor := by
  cases rounds with
  | zero => rfl
  | succ rounds => rfl

theorem written_advance {output cursor : List Char} (rounds : Nat)
    (h : round state depth character next = .advance state' depth' index) :
    written (rounds + 1) ⟨state, depth, output, cursor, character :: next⟩ =
      written rounds ⟨state', depth', output, cursor, index⟩ := by
  unfold written
  rw [scan.eq_def]
  simp only [h]

theorem written_remove {output cursor : List Char} (rounds : Nat)
    (h : round state depth character next = .remove fieldEnd) :
    written (rounds + 1) ⟨state, depth, output, cursor, character :: next⟩ =
      written rounds
        ⟨state, depth, output ++ cursor.take (cursor.length - (character :: next).length), fieldEnd,
          fieldEnd⟩ := by
  unfold written
  rw [scan.eq_def]
  simp only [h]

/-- What is written is what was written before, what is pending, and what is kept of the text to
come: the rounds left over make no difference. -/
theorem written_frame (rounds : Nat) (state : ScanState) (depth : Nat)
    (output pending index : List Char) (hrounds : index.length ≤ rounds) :
    written rounds ⟨state, depth, output, pending ++ index, index⟩ =
      output ++ pending ++ kept state depth index := by
  induction rounds using Nat.strongRecOn generalizing state depth output pending index with
  | ind rounds ih =>
      cases index with
      | nil => simp [kept, written_end]
      | cons character next =>
          obtain ⟨rounds, rfl⟩ : ∃ n, rounds = n + 1 :=
            Nat.exists_eq_succ_of_ne_zero (by rintro rfl; simp at hrounds)
          have hrounds : next.length ≤ rounds := Nat.le_of_succ_le_succ hrounds
          have hless : next.length < rounds + 1 := Nat.lt_succ_of_le hrounds
          unfold kept
          rw [List.length_cons]
          cases hround : round state depth character next with
          | advance state' depth' index =>
              obtain ⟨skipped, rfl⟩ := round_advance hround
              have hle : index.length ≤ (skipped ++ index).length := by simp
              have hlong := ih rounds (Nat.lt_succ_self rounds) state' depth' output
                (pending ++ character :: skipped) index (Nat.le_trans hle hrounds)
              have hshort := ih (skipped ++ index).length hless state' depth' []
                (character :: skipped) index hle
              rw [List.append_assoc, List.cons_append] at hlong
              rw [List.cons_append] at hshort
              rw [written_advance _ hround, written_advance _ hround, hlong, hshort]
              simp
          | remove fieldEnd =>
              have hle : fieldEnd.length ≤ next.length := (round_remove hround).length_le
              have hlong := ih rounds (Nat.lt_succ_self rounds) state depth (output ++ pending) []
                fieldEnd (Nat.le_trans hle hrounds)
              have hshort := ih next.length hless state depth [] [] fieldEnd hle
              rw [List.nil_append] at hlong hshort
              rw [written_remove _ hround, written_remove _ hround]
              simpa [hshort] using hlong

/-- A round that goes on keeps what it passes. -/
theorem kept_advance (h : round state depth character next = .advance state' depth' index)
    (hchunk : character :: next = chunk ++ index) :
    kept state depth (character :: next) = chunk ++ kept state' depth' index := by
  have hframe := written_frame next.length state' depth' [] chunk index (round_advance h).length_le
  rw [← hchunk] at hframe
  unfold kept
  rw [List.length_cons, written_advance _ h, hframe]
  rfl

theorem kept_cons (h : round state depth character next = .advance state' depth' next) :
    kept state depth (character :: next) = character :: kept state' depth' next :=
  @kept_advance _ _ _ _ _ _ _ [character] h rfl

/-- Two characters that are passed at once are kept. -/
theorem kept_cons_cons {second : Char}
    (h : round state depth character (second :: next) = .advance state' depth' next) :
    kept state depth (character :: second :: next) =
      character :: second :: kept state' depth' next :=
  @kept_advance _ _ _ _ _ _ _ [character, second] h rfl

/-- A round that leaves out a field goes on behind it. -/
theorem kept_remove (h : round state depth character next = .remove fieldEnd) :
    kept state depth (character :: next) = kept state depth fieldEnd := by
  have hframe := written_frame next.length state depth [] [] fieldEnd (round_remove h).length_le
  rw [List.nil_append] at hframe
  rw [kept, List.length_cons, written_remove _ h]
  simpa using hframe

end Anettrace.PerfettoConfig
