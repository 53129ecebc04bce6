import Anettrace.TrafficDisplay.Characters

/-!
# Cutting a line

The loop of `traffic_line` remembers two places at which the line may end: where it still fits, and
where there is room for three dots behind it. Both are behind a whole character. `clip_shows` says
what a line shows of its text.
-/

namespace Anettrace.TrafficDisplay

/-- Some bytes show a text: glyphs in so many cells, which are the front of the text byte by byte
and end where no sequence of it is open, and possibly dots. -/
structure Shows (available : Nat) (text row : Text) : Prop where
  glyphs : ∃ glyphs : List Glyph, row = glyphs.flatMap Glyph.bytes ∧
    (glyphs.map Glyph.cells).sum ≤ available
  front : ∃ cut ≤ text.length, (row.drop cut = [] ∨ row.drop cut = utf8 "...") ∧
    (∀ place, CjkAt text place → place + 3 ≤ cut ∨ cut ≤ place) ∧
    ∀ place < cut, ∃ byte shown, text[place]? = some byte ∧ row[place]? = some shown ∧
      ShownAs text place byte shown

/-! ## Literals -/

theorem toList_loop (bytes : ByteArray) (i : Nat) (done : List UInt8) :
    ByteArray.toList.loop bytes i done = done.reverse ++ bytes.data.toList.drop i := by
  induction i, done using ByteArray.toList.loop.induct bytes with
  | case1 i done hlt ih =>
      have hget : bytes.get! i = bytes.data[i] := getElem!_pos bytes.data i hlt
      have hdrop : bytes.data.toList.drop i = bytes.data[i] :: bytes.data.toList.drop (i + 1) :=
        List.drop_eq_getElem_cons hlt
      rw [ByteArray.toList.loop, if_pos hlt, ih, hget, hdrop, List.reverse_cons, List.append_assoc]
      rfl
  | case2 i done hge =>
      have hdrop : bytes.data.toList.drop i = [] := List.drop_eq_nil_of_le (Nat.le_of_not_lt hge)
      rw [ByteArray.toList.loop, if_neg hge, hdrop, List.append_nil]

theorem utf8_eq (literal : String) : utf8 literal = literal.toUTF8.data.toList :=
  toList_loop literal.toUTF8 0 []

@[simp] theorem utf8_dots : utf8 "..." = [0x2e, 0x2e, 0x2e] := by
  rw [utf8_eq]
  decide

section

variable {characters : List (Text × Nat)}
  (h : ∀ character ∈ characters,
    ∃ glyph : Glyph, glyph.bytes = character.1 ∧ glyph.cells = character.2)
include h

theorem exists_glyphs :
    ∃ glyphs : List Glyph, lineOf characters = glyphs.flatMap Glyph.bytes ∧
      (glyphs.map Glyph.cells).sum = cellsOf characters := by
  induction characters with
  | nil => exact ⟨[], rfl, rfl⟩
  | cons character rest ih =>
      obtain ⟨⟨glyph, hbytes, hcells⟩, hrest⟩ := List.forall_mem_cons.mp h
      obtain ⟨glyphs, hline, hsum⟩ := ih hrest
      refine ⟨glyph :: glyphs, ?_, ?_⟩
      · rw [lineOf_cons, List.flatMap_cons, hbytes, hline]
      · show glyph.cells + (glyphs.map Glyph.cells).sum = character.2 + cellsOf rest
        rw [hcells, hsum]

theorem cellsOf_le :
    cellsOf characters ≤ (lineOf characters).length := by
  induction characters with
  | nil => exact Nat.le_refl 0
  | cons character rest ih =>
      obtain ⟨⟨glyph, hbytes, hcells⟩, hrest⟩ := List.forall_mem_cons.mp h
      have hle := glyph.cells_le
      rw [hbytes, hcells] at hle
      rw [lineOf_cons, List.length_append]
      exact Nat.add_le_add hle (ih hrest)

end

/-! ## The marks of the loop -/

/-- A mark is behind characters that leave so many cells, where there are as many. -/
def Marks (margin available : Nat) (characters : List (Text × Nat)) (mark : Nat) : Prop :=
  ∃ kept, kept <+: characters ∧ mark = (lineOf kept).length ∧
    (margin ≤ available → cellsOf kept + margin ≤ available)

theorem Marks.zero (margin available : Nat) : Marks margin available [] 0 :=
  ⟨[], List.nil_prefix, rfl, fun h => (Nat.zero_add margin).symm ▸ h⟩

theorem Marks.step {margin available mark : Nat} {characters : List (Text × Nat)}
    (h : Marks margin available characters mark) (character : Text × Nat) :
    Marks margin available (characters ++ [character])
      (if cellsOf (characters ++ [character]) + margin ≤ available then
        (lineOf (characters ++ [character])).length
        else mark) := by
  split
  · rename_i hroom
    exact ⟨_, List.prefix_rfl, rfl, fun _ => hroom⟩
  · obtain ⟨kept, hkept, hmark, hcells⟩ := h
    exact ⟨kept, hkept.trans (List.prefix_append _ _), hmark, hcells⟩

/-- The variables of the loop, behind some characters. -/
structure Cleaned (available : Nat) (characters : List (Text × Nat)) (state : Cleaning) : Prop where
  clean : state.clean = lineOf characters
  columns : state.columns = cellsOf characters
  fit : Marks 0 available characters state.fit
  ellipsis : Marks 3 available characters state.ellipsis

theorem Cleaned.step {available : Nat} {characters : List (Text × Nat)} {state : Cleaning}
    (h : Cleaned available characters state) (character : Text × Nat) :
    Cleaned available (characters ++ [character]) (state.step available character) := by
  have hclean : state.clean ++ character.1 = lineOf (characters ++ [character]) := by
    rw [h.clean, lineOf_append, lineOf_singleton]
  have hcolumns : state.columns + character.2 = cellsOf (characters ++ [character]) := by
    rw [h.columns, cellsOf_append, cellsOf_singleton]
  refine ⟨hclean, hcolumns, ?_, ?_⟩
  · show Marks 0 available _ (if state.columns + character.2 ≤ available then
        (state.clean ++ character.1).length
      else state.fit)
    rw [hclean, hcolumns]
    exact h.fit.step character
  · show Marks 3 available _ (if state.columns + character.2 + 3 ≤ available then
      (state.clean ++ character.1).length else state.ellipsis)
    rw [hclean, hcolumns]
    exact h.ellipsis.step character

/-- The state of the loop after all characters. -/
theorem cleaned (available : Nat) (characters : List (Text × Nat)) :
    Cleaned available characters (characters.foldl (Cleaning.step available) ⟨[], 0, 0, 0⟩) := by
  induction characters using List.reverseRecOn with
  | nil => exact ⟨rfl, rfl, Marks.zero 0 available, Marks.zero 3 available⟩
  | append_singleton characters character ih =>
      rw [List.foldl_append]
      exact ih.step character

theorem take_lineOf {kept characters : List (Text × Nat)} (h : kept <+: characters) :
    (lineOf characters).take (lineOf kept).length = lineOf kept := by
  obtain ⟨rest, rfl⟩ := h
  rw [lineOf_append, List.take_left]

/-- The three dots overwrite bytes that are there: four cells more than the mark leaves take four
bytes. -/
theorem Marks.room {available mark : Nat} {text : Text}
    (h : Marks 3 available (characters text) mark)
    (hthree : 3 ≤ available) (hcut : available < cellsOf (characters text)) :
      mark + 3 < text.length := by
  obtain ⟨kept, ⟨rest, hrest⟩, rfl, hcells⟩ := h
  have hroom := hcells hthree
  have hlength := length_lineOf text
  have hmore : cellsOf rest ≤ (lineOf rest).length := by
    refine cellsOf_le fun character hmem => glyph_of_character text character ?_
    rw [← hrest]
    exact List.mem_append_right kept hmem
  rw [← hrest, cellsOf_append] at hcut
  rw [← hrest, lineOf_append, List.length_append] at hlength
  omega

/-! ## The line -/

/-- The line that the loop leaves. -/
def Cleaning.line (available : Nat) (state : Cleaning) : Text :=
  if state.columns > available then
    if available ≥ 3 then state.clean.take state.ellipsis ++ utf8 "..."
      else state.clean.take state.fit
  else state.clean

theorem clip_eq (width : Nat) (text : Text) :
    clip width text =
      ((characters (text.take 1023)).foldl (Cleaning.step (width - 1)) ⟨[], 0, 0, 0⟩).line
        (width - 1) := rfl

theorem Cleaned.line {available : Nat} {characters : List (Text × Nat)} {state : Cleaning}
    (h : Cleaned available characters state) :
    ∃ kept dots, kept <+: characters ∧ (dots = [] ∨ dots = utf8 "...") ∧
      state.line available = lineOf kept ++ dots ∧ cellsOf kept + dots.length ≤ available := by
  unfold Cleaning.line
  split
  · split
    · rename_i hdots
      obtain ⟨kept, hkept, hmark, hcells⟩ := h.ellipsis
      refine ⟨kept, utf8 "...", hkept, .inr rfl, ?_, ?_⟩
      · rw [h.clean, hmark, take_lineOf hkept]
      · rw [utf8_dots]
        exact hcells hdots
    · obtain ⟨kept, hkept, hmark, hcells⟩ := h.fit
      refine ⟨kept, [], hkept, .inl rfl, ?_, hcells (Nat.zero_le _)⟩
      rw [h.clean, hmark, take_lineOf hkept, List.append_nil]
  · rename_i hfits
    rw [h.columns] at hfits
    refine ⟨_, [], List.prefix_rfl, .inl rfl, ?_, Nat.le_of_not_lt hfits⟩
    rw [h.clean, List.append_nil]

theorem clip_shows (width : Nat) (text : Text) :
    Shows (width - 1) (text.take 1023) (clip width text) := by
  obtain ⟨kept, dots, hkept, hdots, hclip, hcells⟩ :=
      (cleaned (width - 1) (characters (text.take 1023))).line
  rw [← clip_eq] at hclip
  have hglyphs : ∀ character ∈ kept,
      ∃ glyph : Glyph, glyph.bytes = character.1 ∧ glyph.cells = character.2 :=
    fun character hmem => glyph_of_character _ character (hkept.subset hmem)
  obtain ⟨glyphs, hline, hsum⟩ := exists_glyphs hglyphs
  have hshown : ∃ last : List Glyph, dots = last.flatMap Glyph.bytes ∧
      (last.map Glyph.cells).sum = dots.length := by
    rcases hdots with rfl | rfl
    · exact ⟨[], rfl, rfl⟩
    · rw [utf8_dots]
      exact ⟨List.replicate 3 (.ascii 0x2e (by decide)), rfl, rfl⟩
  obtain ⟨last, hlast, hlength⟩ := hshown
  have hcut : (lineOf kept).length ≤ (text.take 1023).length := by
    have hall := length_lineOf (text.take 1023)
    obtain ⟨rest, hrest⟩ := hkept
    rw [← hrest, lineOf_append, List.length_append] at hall
    omega
  refine ⟨⟨glyphs ++ last, ?_, ?_⟩, (lineOf kept).length, hcut, ?_, ?_, ?_⟩
  · rw [hclip, List.flatMap_append, ← hline, ← hlast]
  · rw [List.map_append, List.sum_append, hsum, hlength]
    exact hcells
  · rwa [hclip, List.drop_left]
  · exact fun place hat => front_boundary _ hkept hat
  · intro place hplace
    obtain ⟨byte, shown, hbyte, hshown, has⟩ := front_shown _ hkept hplace
    refine ⟨byte, shown, hbyte, ?_, has⟩
    rw [hclip, List.getElem?_append_left hplace, hshown]

theorem zero_not_mem_clip (width : Nat) (text : Text) : 0 ∉ clip width text := by
  obtain ⟨glyphs, hline, -⟩ := (clip_shows width text).glyphs
  rw [hline, List.mem_flatMap]
  rintro ⟨glyph, -, hzero⟩
  exact glyph.zero_not_mem hzero

end Anettrace.TrafficDisplay
