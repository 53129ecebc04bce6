import Anettrace.Library.Block
import Anettrace.TrafficDisplay.Line

/-!
# The bytes of a line

`traffic_line` of `src/traffic_display.c` with its memory: the arrays `text` and `clean`, the loop
that reads the one and fills the other, and what is put to the terminal. What the arrays hold before
is arbitrary. An access outside of an array is a fault, and so is a loop that takes more rounds than
its text has bytes.
-/

namespace Anettrace.TrafficDisplay.Terminal

open Library

/-- `sizeof(text)`, which is that of `clean` too. -/
def textSize : Nat := 1024

/-- The arrays of `traffic_line`, and the bytes that the terminal has been sent. -/
structure Memory where
  text : Block UInt8 textSize
  clean : Block UInt8 textSize
  stdout : Text

/-- The memory when `traffic_line` is called. -/
def Memory.start (text clean : Vector UInt8 textSize) (stdout : Text) : Memory :=
  ⟨.fresh text, .fresh clean, stdout⟩

/-- The accesses of the memory, which fail outside of an array. -/
abbrev Access := StateT Memory Option

def onText {α : Type} (access : StateT (Block UInt8 textSize) Option α) : Access α :=
  within Memory.text (fun memory text => { memory with text := text }) access

def onClean {α : Type} (access : StateT (Block UInt8 textSize) Option α) : Access α :=
  within Memory.clean (fun memory clean => { memory with clean := clean }) access

/-- `fputs`, of bytes without the zero at their end. -/
def fputs (bytes : Text) : Access Unit := fun memory =>
  some ((), { memory with stdout := memory.stdout ++ bytes })

/-- `vsnprintf`: as much of the formatted bytes as there is room for in `text`, and a zero. -/
def vsnprintf (formatted : Text) : Access Unit :=
  onText (Block.store 0 (formatted.take (textSize - 1) ++ [0]))

def strlen : Access Nat := do
  let string ← onText (Block.string 0)
  pure string.length

def trafficCharacterCells (i length : Nat) : Access (Nat × Nat) := do
  let c ← onText (Block.read i)
  -- the second byte is read only behind a first one of the block, the third only behind a second
  -- one
  if c ≥ 0xe4 ∧ c ≤ 0xe9 ∧ length ≥ 3 then
    let second ← onText (Block.read (i + 1))
    if second &&& 0xc0 = 0x80 then
      let third ← onText (Block.read (i + 2))
      if third &&& 0xc0 = 0x80 ∧ codepoint c second third ≥ 0x4e00 ∧
          codepoint c second third ≤ 0x9fff then
        pure (3, 2)
      else pure (1, 1)
    else pure (1, 1)
  else pure (1, 1)

/-- The variables of the loop in `traffic_line`. -/
structure Loop where
  i : Nat
  used : Nat
  columns : Nat
  fit : Nat
  ellipsis : Nat

def copyCharacter (used i bytes : Nat) : Access Unit := do
  let copied ← onText (Block.load i bytes)
  onClean (Block.store used copied)

/-- A character that can be printed is copied, what cannot is escaped. -/
def putCharacter (loop : Loop) (c : UInt8) (bytes cells : Nat) : Access Unit :=
  if cells = 2 ∨ (c ≥ 32 ∧ c ≤ 126) then copyCharacter loop.used loop.i bytes
  else onClean (Block.write loop.used 0x3f)

def round (available length : Nat) (loop : Loop) : Access Loop := do
  let c ← onText (Block.read loop.i)
  let (bytes, cells) ← trafficCharacterCells loop.i (length - loop.i)
  putCharacter loop c bytes cells
  let used := loop.used + bytes
  let columns := loop.columns + cells
  pure
    { i := loop.i + bytes
      used := used
      columns := columns
      fit := if columns ≤ available then used else loop.fit
      ellipsis := if columns + 3 ≤ available then used else loop.ellipsis }

def rounds (available length : Nat) : Nat → Loop → Access Loop
  | 0, loop => if loop.i < length then failure else pure loop
  | bound + 1, loop =>
      if loop.i < length then do
        let loop ← round available length loop
        rounds available length bound loop
      else pure loop

/-- Where the line ends in `clean`, with the dots behind a text that is cut. -/
def cutLine (available : Nat) (loop : Loop) : Access Nat :=
  if loop.columns > available then
    if available ≥ 3 then do
      onClean (Block.store loop.ellipsis (utf8 "..."))
      pure (loop.ellipsis + 3)
    else pure loop.fit
  else pure loop.used

def colorBytes : Color → Text
  | .title => utf8 "\x1b[1;36m"
  | .rx => utf8 "\x1b[32m"
  | .tx => utf8 "\x1b[94m"
  | .muted => utf8 "\x1b[90m"

def cleanLine (width : Nat) (formatted : Text) : Access Unit := do
  vsnprintf formatted
  let length ← strlen
  let available := if width ≠ 0 then width - 1 else 0
  let loop ← rounds available length length ⟨0, 0, 0, 0, 0⟩
  let used ← cutLine available loop
  onClean (Block.write used 0)

/-- What is put to the terminal, with the line that is read from `clean`. -/
def putLine (color : Option Color) : Access Text := do
  fputs (utf8 "\x1b[2K")
  fputs ((color.map colorBytes).getD [])
  let line ← onClean (Block.string 0)
  fputs line
  fputs (utf8 "\x1b[0m\r\n")
  pure line

def trafficLine (frame : Frame) (color : Option Color) (formatted : Text) : Access Frame :=
  if frame.used ≥ frame.limit then pure frame
  else do
    cleanLine frame.width formatted
    let line ← putLine color
    pure { frame with lines := frame.lines ++ [⟨color, line⟩] }

def storedString (formatted : Text) : Text := (formatted.take (textSize - 1)).takeWhile (· ≠ 0)

/-- The bytes of a line between those that erase the row and those that end it. -/
def lineBytes (print : Print) : Text :=
  utf8 "\x1b[2K" ++ (print.color.map colorBytes).getD [] ++ print.text ++ utf8 "\x1b[0m\r\n"

end Anettrace.TrafficDisplay.Terminal
