import Anettrace.TrafficDisplay.Clip
import Anettrace.TrafficDisplay.Terminal

/-!
# What a line does to its memory

Every round of the loop reads one character of `text` and adds what it shows to `clean`, as
`Cleaning.step` does with lists (`Reached.round`). `line_clipping` is what a call of `traffic_line`
does with any bytes.
-/

namespace Anettrace.TrafficDisplay.Terminal

open Library

/-! ## Reading the text -/

/-- The memory when places of `text` have been read as well. -/
def Memory.looked (memory : Memory) (places : List Nat) : Memory :=
  { memory with text := memory.text.noted places }

/-- Nothing was read. -/
@[simp] theorem Memory.looked_nil (memory : Memory) : memory.looked [] = memory := by
  rw [Memory.looked, Block.noted_nil]

/-- What was read, and then more. -/
@[simp] theorem Memory.looked_looked (memory : Memory) (first second : List Nat) :
    (memory.looked first).looked second = memory.looked (first ++ second) := by
  show { memory with text := (memory.text.noted first).noted second } = _
  rw [Block.noted_noted]
  rfl

def Memory.withText (memory : Memory) (text : Block UInt8 textSize) : Memory :=
  { memory with text := text }

def Memory.withClean (memory : Memory) (clean : Block UInt8 textSize) : Memory :=
  { memory with clean := clean }

variable {memory : Memory} {front items back : Text} {byte : UInt8}

section

variable {α : Type} {access : StateT (Block UInt8 textSize) Option α} {value : α}
  {next : Block UInt8 textSize}

theorem onText_eq (h : access memory.text = some (value, next)) :
    onText access memory = some (value, memory.withText next) := within_eq h

theorem onClean_eq (h : access memory.clean = some (value, next)) :
    onClean access memory = some (value, memory.withClean next) := within_eq h

end

theorem read_text (h : memory.text.Holds (front ++ byte :: back)) :
    onText (Block.read front.length) memory = some (byte, memory.looked [front.length]) :=
  onText_eq h.read

theorem read_behind (places : List Nat) (between : Text)
    (h : memory.text.Holds (front ++ (between ++ byte :: back))) :
    onText (Block.read (front.length + between.length)) (memory.looked places) =
      some (byte, memory.looked (places ++ [front.length + between.length])) := by
  have hholds : (memory.looked places).text.Holds (front ++ between ++ byte :: back) := by
    rw [List.append_assoc]
    exact h
  rw [← List.length_append, ← Memory.looked_looked]
  exact read_text hholds

/-- Behind a first byte of the block the decoder looks at the second byte, and behind a second one
at the third. -/
theorem trafficCharacterCells_lead {first second third : UInt8} {tail : Text} {length : Nat}
    (h : memory.text.Holds (front ++ first :: second :: third :: tail))
    (hlead : first ≥ 0xe4 ∧ first ≤ 0xe9 ∧ length ≥ 3) :
    ∃ places, trafficCharacterCells front.length length memory =
        some (if isCjk first second third then (3, 2) else (1, 1), memory.looked places) ∧
      ∀ place ∈ places, place < front.length + 3 := by
  have hfirst : onText (Block.read front.length) memory =
      some (first, memory.looked [front.length]) := read_text h
  have hsecond : onText (Block.read (front.length + 1)) (memory.looked [front.length]) =
      some (second, memory.looked [front.length, front.length + 1]) :=
    read_behind [front.length] [first] h
  have hthird : onText (Block.read (front.length + 2))
      (memory.looked [front.length, front.length + 1]) =
      some (third, memory.looked [front.length, front.length + 1, front.length + 2]) :=
    read_behind [front.length, front.length + 1] [first, second] h
  have hplaces : ∀ place ∈ [front.length, front.length + 1, front.length + 2],
      place < front.length + 3 := by
    intro place hplace
    simp only [List.mem_cons, List.not_mem_nil, or_false] at hplace
    omega
  have hcjk := isCjk_conditions first second third
  rw [trafficCharacterCells, bind_eq _ hfirst, if_pos hlead, bind_eq _ hsecond]
  by_cases hnext : second &&& 0xc0 = 0x80
  · refine ⟨[front.length, front.length + 1, front.length + 2], ?_, hplaces⟩
    rw [if_pos hnext, bind_eq _ hthird]
    by_cases hblock : third &&& 0xc0 = 0x80 ∧ codepoint first second third ≥ 0x4e00 ∧
        codepoint first second third ≤ 0x9fff
    · rw [if_pos hblock, if_pos (hcjk.mpr ⟨⟨hlead.1, hlead.2.1⟩, hnext, hblock⟩)]
      rfl
    · rw [if_neg hblock, if_neg fun hall => hblock (hcjk.mp hall).2.2]
      rfl
  · refine ⟨[front.length, front.length + 1], ?_, fun place hplace => ?_⟩
    · rw [if_neg hnext, if_neg fun hall => hnext (hcjk.mp hall).2.1]
      rfl
    · exact hplaces place (List.mem_append_left [front.length + 2] hplace)

/-- The decoder looks at the text that is left as the list function does, and at no byte behind
it. -/
theorem trafficCharacterCells_eq {rest : Text} (h : memory.text.Holds (front ++ (rest ++ back)))
    (hrest : rest ≠ []) :
    ∃ places, trafficCharacterCells front.length rest.length memory =
        some (TrafficDisplay.trafficCharacterCells rest, memory.looked places) ∧
      ∀ place ∈ places, place < front.length + rest.length := by
  rcases rest with _ | ⟨first, tail⟩
  · exact absurd rfl hrest
  by_cases hlead : first ≥ 0xe4 ∧ first ≤ 0xe9 ∧ (first :: tail).length ≥ 3
  · obtain ⟨second, third, tail, rfl⟩ : ∃ second third more, tail = second :: third :: more := by
      rcases tail with _ | ⟨second, _ | ⟨third, tail⟩⟩
      · exact absurd hlead.2.2 (show ¬ 1 ≥ 3 by omega)
      · exact absurd hlead.2.2 (show ¬ 2 ≥ 3 by omega)
      · exact ⟨second, third, tail, rfl⟩
    obtain ⟨places, hcells, hplaces⟩ := trafficCharacterCells_lead h hlead
    refine ⟨places, hcells, fun place hplace => Nat.lt_of_lt_of_le (hplaces place hplace) ?_⟩
    exact Nat.add_le_add_left hlead.2.2 front.length
  · have hfirst : onText (Block.read front.length) memory =
        some (first, memory.looked [front.length]) := read_text h
    refine ⟨[front.length], ?_, fun place hplace => ?_⟩
    · rw [trafficCharacterCells, bind_eq _ hfirst, if_neg hlead]
      rcases tail with _ | ⟨second, _ | ⟨third, tail⟩⟩
      · rfl
      · rfl
      · have hcjk : ¬ isCjk first second third = true := by
          intro hcjk
          obtain ⟨hlow, hhigh⟩ := ((isCjk_conditions first second third).mp hcjk).1
          exact hlead ⟨hlow, hhigh, Nat.le_add_left 3 tail.length⟩
        rw [TrafficDisplay.trafficCharacterCells, if_neg hcjk]
        rfl
    · rw [List.mem_singleton.mp hplace]
      exact Nat.lt_add_of_pos_right (Nat.succ_pos _)

/-! ## One round -/

variable {done rest clean : Text}

/-- A character is copied to the end of the line. -/
theorem copyCharacter_eq (htext : memory.text.Holds (done ++ (items ++ back)))
    (hclean : memory.clean.Holds clean) (hroom : clean.length + items.length ≤ textSize) :
    ∃ next, copyCharacter clean.length done.length items.length memory =
        some ((), (memory.looked (List.range' done.length items.length)).withClean next) ∧
      next.Holds (clean ++ items) ∧ next.reads = memory.clean.reads := by
  obtain ⟨next, hstore, hholds, hreads⟩ := hclean.store (Nat.le_refl _) hroom
  rw [List.take_length] at hholds
  have hload : onText (Block.load done.length items.length) memory =
      some (items, memory.looked (List.range' done.length items.length)) := onText_eq htext.load
  refine ⟨next, ?_, hholds, hreads⟩
  rw [copyCharacter, bind_eq _ hload]
  exact onClean_eq hstore

/-- A character goes to `clean` as the line shows it. -/
theorem putCharacter_eq {character : Text × Nat} {loop : Loop}
    (hfirst : FirstCharacter (byte :: front) rest character)
    (htext : memory.text.Holds (done ++ (byte :: front ++ back)))
    (hclean : memory.clean.Holds clean) (hroom : clean.length + (byte :: front).length ≤ textSize)
    (hi : loop.i = done.length) (hused : loop.used = clean.length) :
    ∃ places next, putCharacter loop byte (byte :: front).length character.2 memory =
        some ((), (memory.looked places).withClean next) ∧
      (∀ place ∈ places, place < done.length + (byte :: front).length) ∧
      next.Holds (clean ++ character.1) ∧ next.reads = memory.clean.reads := by
  obtain ⟨next, hcopy, hholds, hreads⟩ := copyCharacter_eq htext hclean hroom
  have hplaces : ∀ place ∈ List.range' done.length (byte :: front).length,
      place < done.length + (byte :: front).length :=
        fun place hplace => (List.mem_range'_1.mp hplace).2
  unfold putCharacter
  rw [hi, hused]
  rcases hfirst.shape with ⟨char, -, -, rfl⟩ | ⟨single, hsingle, rfl, -⟩
  · rw [if_pos (Or.inl rfl)]
    exact ⟨_, next, hcopy, hplaces, hholds, hreads⟩
  · obtain ⟨rfl, rfl⟩ := List.cons.inj hsingle
    by_cases hprintable : Printable byte
    · have hshown : (1 : Nat) = 2 ∨ (byte ≥ 32 ∧ byte ≤ 126) := Or.inr hprintable
      rw [if_pos hshown, if_pos hprintable]
      exact ⟨_, next, hcopy, hplaces, hholds, hreads⟩
    · have hescaped : ¬ ((1 : Nat) = 2 ∨ (byte ≥ 32 ∧ byte ≤ 126)) := by
        rintro (htwo | hbyte)
        · exact absurd htwo (by decide)
        · exact hprintable hbyte
      obtain ⟨escaped, hwrite, hholds, hreads⟩ := hclean.write (Nat.le_refl _) hroom 0x3f
      rw [List.take_length] at hholds
      rw [if_neg hescaped, if_neg hprintable]
      refine ⟨[], escaped, (onClean_eq hwrite).trans ?_,
        fun place hplace => absurd hplace List.not_mem_nil, hholds, hreads⟩
      rw [Memory.looked_nil]

/-- The variables of the loop for those of the list function. -/
def loopOf (state : Cleaning) : Loop :=
  { i := state.clean.length
    used := state.clean.length
    columns := state.columns
    fit := state.fit
    ellipsis := state.ellipsis }

/-- The loop has put the first part of the text into `clean`. -/
structure Reached (stdout text done : Text) (state : Cleaning) (memory : Memory) : Prop where
  clean_length : state.clean.length = done.length
  text_holds : memory.text.Holds (text ++ [0])
  text_reads : ∀ place ∈ memory.text.reads, place ≤ text.length
  clean_holds : memory.clean.Holds state.clean
  clean_reads : memory.clean.reads = []
  stdout_eq : memory.stdout = stdout

variable {stdout text : Text} {state : Cleaning}

theorem Reached.round {character : Text × Nat} (h : Reached stdout text done state memory)
    (hsplit : text = done ++ (front ++ rest)) (hfirst : FirstCharacter front rest character)
    (hsize : text.length < textSize) (available : Nat) :
    ∃ next, round available text.length (loopOf state) memory =
        some (loopOf (state.step available character), next) ∧
      Reached stdout text (done ++ front) (state.step available character) next := by
  have hfront := hfirst.cells_le
  rcases front with _ | ⟨byte, front⟩
  · exact absurd (Nat.lt_of_lt_of_le hfront.1 hfront.2) (Nat.lt_irrefl 0)
  have hlength : text.length = done.length + ((byte :: front).length + rest.length) := by
    rw [hsplit, List.length_append, List.length_append]
  have hrest : text.length - done.length = (byte :: front ++ rest).length := by
    rw [hlength, List.length_append]
    omega
  have hholds : memory.text.Holds (done ++ (byte :: front ++ rest ++ [0])) := by
    have hall := h.text_holds
    rwa [hsplit, List.append_assoc] at hall
  -- the byte itself, the bytes that the decoder looks at, and those that are copied
  have hread : onText (Block.read done.length) memory = some (byte, memory.looked [done.length]) :=
      read_text hholds
  have hdecoded : (memory.looked [done.length]).text.Holds
      (done ++ (byte :: front ++ rest ++ [0])) := hholds
  obtain ⟨looked, hcells, hlooked⟩ :=
      trafficCharacterCells_eq hdecoded (List.cons_ne_nil byte (front ++ rest))
  rw [hfirst.cells, Memory.looked_looked] at hcells
  have hroom : state.clean.length + (byte :: front).length ≤ textSize := by
    rw [h.clean_length]
    omega
  have hcopy : (memory.looked ([done.length] ++ looked)).text.Holds
      (done ++ (byte :: front ++ (rest ++ [0]))) := by
    rw [← List.append_assoc (byte :: front)]
    exact hholds
  have hi : (loopOf state).i = done.length := h.clean_length
  obtain ⟨copied, next, hput, hcopied, hnext, hreads⟩ :=
    putCharacter_eq hfirst hcopy h.clean_holds hroom hi rfl
  rw [Memory.looked_looked] at hput
  have hclean : (state.clean ++ character.1).length =
      state.clean.length + (byte :: front).length := by
    rw [List.length_append, hfirst.length_eq]
  refine ⟨(memory.looked ([done.length] ++ looked ++ copied)).withClean next, ?_, ?_, h.text_holds,
    ?_, hnext, ?_,
    h.stdout_eq⟩
  · rw [Terminal.round, hi, bind_eq _ hread, hrest, bind_eq _ hcells]
    refine (bind_eq _ hput).trans ?_
    simp only [loopOf, Cleaning.step, hclean, ← h.clean_length]
    rfl
  · show (state.clean ++ character.1).length = (done ++ byte :: front).length
    rw [hclean, h.clean_length, List.length_append]
  · intro place hplace
    rcases List.mem_append.mp hplace with hbefore | hnow
    · exact h.text_reads place hbefore
    rcases List.mem_append.mp hnow with hnow | hnow
    · rcases List.mem_append.mp hnow with hnow | hnow
      · rw [List.mem_singleton.mp hnow]
        omega
      · have hlt := hlooked place hnow
        omega
    · have hlt := hcopied place hnow
      omega
  · exact hreads.trans h.clean_reads

theorem Reached.rounds {bound : Nat} (h : Reached stdout text done state memory)
    (hsplit : text = done ++ rest)
    (hbound : rest.length ≤ bound) (hsize : text.length < textSize) (available : Nat) :
    ∃ next, rounds available text.length bound (loopOf state) memory =
        some (loopOf ((characters rest).foldl (Cleaning.step available) state), next) ∧
      Reached stdout text text ((characters rest).foldl (Cleaning.step available) state) next := by
  have hi : (loopOf state).i = done.length := h.clean_length
  induction rest using characters_induction generalizing done state memory bound with
  | nil =>
      rw [List.append_nil] at hsplit
      have hend : ¬ (loopOf state).i < text.length := by
        rw [hi, hsplit]
        exact Nat.lt_irrefl _
      refine ⟨memory, ?_, by rwa [← hsplit] at h⟩
      cases bound with
      | zero =>
          rw [Terminal.rounds, if_neg hend]
          rfl
      | succ bound =>
          rw [Terminal.rounds, if_neg hend]
          rfl
  | cons front rest character hfirst ih =>
      have hfront := hfirst.cells_le
      have hlength : text.length = done.length + (front.length + rest.length) := by
        rw [hsplit, List.length_append, List.length_append]
      rw [List.length_append] at hbound
      obtain ⟨bound, rfl⟩ := Nat.exists_eq_add_one_of_ne_zero (show bound ≠ 0 by omega)
      obtain ⟨between, hround, hbetween⟩ := h.round hsplit hfirst hsize available
      have hnext : text = done ++ front ++ rest := by rw [hsplit, List.append_assoc]
      have hleft : rest.length ≤ bound := by omega
      obtain ⟨next, hrest, hreached⟩ := ih hbetween hnext hleft hbetween.clean_length
      refine ⟨next, ?_, ?_⟩
      · rw [Terminal.rounds, if_pos (by omega), bind_eq _ hround, hrest, hfirst.characters]
        rfl
      · rw [hfirst.characters]
        exact hreached

/-! ## The end of the line -/

/-- The line ends behind the bytes that the list function leaves, and the zero behind it is inside
of `clean`. -/
theorem cutLine_eq {available : Nat} (hcleaned : Cleaned available (characters text) state)
    (hholds : memory.clean.Holds state.clean) (hsize : text.length < textSize) :
    ∃ next, cutLine available (loopOf state) memory =
      some ((state.line available).length, memory.withClean next) ∧
      next.Holds (state.line available) ∧ next.reads = memory.clean.reads ∧
      (state.line available).length < textSize := by
  have hlength : state.clean.length = text.length := by rw [hcleaned.clean, length_lineOf]
  unfold cutLine Cleaning.line
  by_cases hcut : state.columns > available
  · have hcolumns : available < cellsOf (characters text) := hcleaned.columns ▸ hcut
    rw [if_pos (show (loopOf state).columns > available from hcut), if_pos hcut]
    by_cases hdots : available ≥ 3
    · have hroom := hcleaned.ellipsis.room hdots hcolumns
      have hmark : (state.clean.take state.ellipsis).length = state.ellipsis := by
        rw [List.length_take, hlength]
        omega
      have hend : (state.clean.take state.ellipsis ++ utf8 "...").length = state.ellipsis + 3 := by
        rw [List.length_append, hmark, utf8_dots]
        rfl
      have hplace : state.ellipsis ≤ state.clean.length := by omega
      have hinside : state.ellipsis + (utf8 "...").length ≤ textSize := by
        rw [utf8_dots]
        show state.ellipsis + 3 ≤ textSize
        omega
      obtain ⟨next, hstore, hnext, hreads⟩ := hholds.store hplace hinside
      have hput : onClean (Block.store (loopOf state).ellipsis (utf8 "...")) memory =
          some ((), memory.withClean next) :=
        onClean_eq hstore
      rw [if_pos hdots, if_pos hdots, hend]
      refine ⟨next, bind_eq _ hput, hnext, hreads, by omega⟩
    · obtain ⟨kept, hkept, hmark, -⟩ := hcleaned.fit
      have hle : state.fit ≤ state.clean.length := by
        obtain ⟨more, hmore⟩ := hkept
        rw [hmark, hcleaned.clean, ← hmore, lineOf_append, List.length_append]
        exact Nat.le_add_right _ _
      have hend : (state.clean.take state.fit).length = state.fit := by
        rw [List.length_take]
        exact Nat.min_eq_left hle
      rw [if_neg hdots, if_neg hdots, hend]
      exact ⟨memory.clean, rfl, (List.take_prefix _ _).trans hholds, rfl, by omega⟩
  · rw [if_neg (show ¬ (loopOf state).columns > available from hcut), if_neg hcut]
    exact ⟨memory.clean, rfl, hholds, rfl, by omega⟩

/-- `vsnprintf` and `strlen`: a string of the array, that its zero ends. -/
theorem strlen_eq (formatted : Text) (text clean : Vector UInt8 textSize) (stdout : Text) :
    ∃ between memory, vsnprintf formatted (.start text clean stdout) = some ((), between) ∧
      strlen between = some ((storedString formatted).length, memory) ∧
      Reached stdout (storedString formatted) [] ⟨[], 0, 0, 0⟩ memory := by
  obtain ⟨back, hback⟩ := Block.exists_terminator 0 (formatted.take (textSize - 1))
  have hlength : 0 + (formatted.take (textSize - 1) ++ [0]).length ≤ textSize := by
    rw [List.length_append, List.length_take]
    show 0 + (min (1024 - 1) formatted.length + 1) ≤ 1024
    omega
  obtain ⟨stored, hstore, hholds, hreads⟩ :=
      (Block.holds_nil (Block.fresh text)).store (Nat.le_refl 0) hlength
  have hstored : stored.Holds (storedString formatted ++ 0 :: back) := hback ▸ hholds
  have hzero : 0 ∉ storedString formatted := by
    intro hmem
    exact absurd (List.mem_takeWhile_imp hmem) (by decide)
  have hwritten : Block.store 0 (formatted.take (textSize - 1) ++ [0])
      (Memory.start text clean stdout).text =
      some ((), stored) := hstore
  have hput : vsnprintf formatted (.start text clean stdout) =
      some ((), ⟨stored, .fresh clean, stdout⟩) :=
    onText_eq hwritten
  have hlook : onText (Block.string 0) ⟨stored, .fresh clean, stdout⟩ =
      some (storedString formatted, Memory.looked ⟨stored, .fresh clean, stdout⟩ (List.range _)) :=
    onText_eq (hstored.string hzero)
  refine ⟨_, _, hput, bind_eq _ hlook, rfl, ?_, ?_, Block.holds_nil _, rfl, rfl⟩
  · rw [List.append_cons] at hstored
    exact hstored.left
  · intro place hplace
    rcases List.mem_append.mp hplace with hbefore | hnow
    · rw [hreads] at hbefore
      exact absurd hbefore List.not_mem_nil
    · exact Nat.le_of_lt_succ (List.mem_range.mp hnow)

theorem storedString_length (formatted : Text) : (storedString formatted).length < textSize := by
  have hprefix : storedString formatted <+: formatted.take (textSize - 1) := List.takeWhile_prefix _
  have hstored := hprefix.length_le
  rw [List.length_take] at hstored
  show (storedString formatted).length < 1024
  exact Nat.lt_of_le_of_lt hstored (Nat.lt_succ_of_le (Nat.min_le_left _ _))

/-- What is in the arrays before the line is put to the terminal. -/
structure LineReady (stdout text line : Text) (memory : Memory) : Prop where
  text_holds : memory.text.Holds (text ++ [0])
  text_reads : ∀ place ∈ memory.text.reads, place ≤ text.length
  clean_holds : memory.clean.Holds (line ++ [0])
  clean_reads : memory.clean.reads = []
  stdout_eq : memory.stdout = stdout

theorem cleanLine_eq (width : Nat) (formatted : Text) (text clean : Vector UInt8 textSize)
    (stdout : Text) :
    ∃ memory, cleanLine width formatted (.start text clean stdout) = some ((), memory) ∧
      LineReady stdout (storedString formatted) (clip width (storedString formatted)) memory := by
  have hsize := storedString_length formatted
  have hwhole : (storedString formatted).take 1023 = storedString formatted :=
    List.take_of_length_le (Nat.le_of_lt_succ hsize)
  have havailable : (if width ≠ 0 then width - 1 else 0) = width - 1 := by
    split
    · rfl
    · omega
  have hcleaned := cleaned (width - 1) (characters (storedString formatted))
  have hclip := clip_eq width (storedString formatted)
  rw [hwhole] at hclip
  obtain ⟨stored, start, hput, hlength, hstart⟩ := strlen_eq formatted text clean stdout
  obtain ⟨between, hrounds, hreached⟩ := hstart.rounds rfl (Nat.le_refl _) hsize (width - 1)
  obtain ⟨cut, hcut, hholds, hreads, hend⟩ := cutLine_eq hcleaned hreached.clean_holds hsize
  obtain ⟨ended, hwrite, hended, hsame⟩ := hholds.write (Nat.le_refl _) hend 0
  have hzero : onClean (Block.write _ 0) (between.withClean cut) =
      some ((), (between.withClean cut).withClean ended) :=
    onClean_eq hwrite
  rw [List.take_length, ← hclip] at hended
  refine ⟨between.withClean ended, ?_, hreached.text_holds, hreached.text_reads, hended, ?_,
    hreached.stdout_eq⟩
  · rw [cleanLine, bind_eq _ hput, bind_eq _ hlength]
    simp only [havailable]
    exact (bind_eq _ hrounds).trans ((bind_eq _ hcut).trans hzero)
  · exact hsame.trans (hreads.trans hreached.clean_reads)

/-- The memory when some bytes have been put to the terminal. -/
def Memory.printed (memory : Memory) (bytes : Text) : Memory :=
  { memory with stdout := memory.stdout ++ bytes }

theorem fputs_eq (bytes : Text) (memory : Memory) :
    fputs bytes memory = some ((), memory.printed bytes) := rfl

theorem putLine_eq {line : Text} (color : Option Color) (hholds : memory.clean.Holds (line ++ [0]))
    (hzero : 0 ∉ line) :
    putLine color memory =
      some (line, ⟨memory.text, memory.clean.noted (List.range (line.length + 1)),
        memory.stdout ++ lineBytes ⟨color, line⟩⟩) := by
  have hcolor := fputs_eq ((color.map colorBytes).getD []) (memory.printed (utf8 "\x1b[2K"))
  have hstring : Block.string 0 ((memory.printed (utf8 "\x1b[2K")).printed
      ((color.map colorBytes).getD [])).clean =
      some (line, memory.clean.noted (List.range (line.length + 1))) := hholds.string hzero
  rw [putLine, bind_eq _ (fputs_eq _ memory), bind_eq _ hcolor, bind_eq _ (onClean_eq hstring),
    bind_eq _ (fputs_eq line _),
    bind_eq _ (fputs_eq (utf8 "\x1b[0m\r\n") _)]
  simp only [lineBytes, ← List.append_assoc]
  rfl

/-! ## The whole call -/

/-- A line of the terminal, for any bytes that are formatted, any width, and whatever the arrays
hold before. The call never faults. It prints what the list model prints: nothing into a full frame,
and otherwise a line of at most `width - 1` cells that shows the string in `text`, cut where no
sequence is open. Of `text` it reads nothing behind the zero that ends the string. -/
theorem line_clipping (frame : Frame) (color : Option Color) (formatted : Text)
    (text clean : Vector UInt8 textSize) (stdout : Text) :
    ∃ memory, trafficLine frame color formatted (.start text clean stdout) =
        some (TrafficDisplay.trafficLine frame ⟨color, storedString formatted⟩, memory) ∧
      (frame.limit ≤ frame.used ∧ memory = .start text clean stdout ∨
        frame.used < frame.limit ∧ memory.text.Holds (storedString formatted ++ [0]) ∧
          (∀ place ∈ memory.text.reads, place ≤ (storedString formatted).length) ∧
          ∃ line, memory.stdout = stdout ++ lineBytes ⟨color, line⟩ ∧
            (∀ place ∈ memory.clean.reads, place ≤ line.length) ∧
            Shows (frame.width - 1) (storedString formatted) line) := by
  by_cases hfull : frame.used ≥ frame.limit
  · have hsame : TrafficDisplay.trafficLine frame ⟨color, storedString formatted⟩ = frame := by
      rw [TrafficDisplay.trafficLine, Page.put,
        if_neg (show ¬ frame.lines.length < frame.limit from Nat.not_lt.mpr hfull)]
    refine ⟨.start text clean stdout, ?_, .inl ⟨hfull, rfl⟩⟩
    rw [trafficLine, if_pos hfull, hsame]
    rfl
  · have hroom := Nat.lt_of_not_le hfull
    have hline : TrafficDisplay.trafficLine frame ⟨color, storedString formatted⟩ =
        { frame with lines := frame.lines ++ [⟨color,
          clip frame.width (storedString formatted)⟩] } := by
      rw [TrafficDisplay.trafficLine, Page.put,
        if_pos (show frame.lines.length < frame.limit from hroom)]
    have hwhole : (storedString formatted).take 1023 = storedString formatted :=
      List.take_of_length_le (Nat.le_of_lt_succ (storedString_length formatted))
    have hshows := clip_shows frame.width (storedString formatted)
    rw [hwhole] at hshows
    have hzero := zero_not_mem_clip frame.width (storedString formatted)
    obtain ⟨memory, hclean, hready⟩ := cleanLine_eq frame.width formatted text clean stdout
    generalize clip frame.width (storedString formatted) = line at hline hshows hzero hready
    have hput := putLine_eq color hready.clean_holds hzero
    refine ⟨⟨memory.text, memory.clean.noted (List.range (line.length + 1)),
      memory.stdout ++ lineBytes ⟨color, line⟩⟩,
      ?_, .inr ⟨hroom, hready.text_holds, hready.text_reads, line, ?_, ?_, hshows⟩⟩
    · rw [trafficLine, if_neg hfull, bind_eq _ hclean, bind_eq _ hput, hline]
      rfl
    · show memory.stdout ++ _ = _
      rw [hready.stdout_eq]
    · intro place hplace
      rw [Block.noted_reads, hready.clean_reads, List.nil_append] at hplace
      exact Nat.le_of_lt_succ (List.mem_range.mp hplace)

end Anettrace.TrafficDisplay.Terminal
