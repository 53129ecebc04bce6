import Anettrace.Library.Page

/-!
# Lines of the terminal

`traffic_line` prints a text into a frame, unless the frame is full. A printable byte takes one cell
and a CJK character two; what is neither is shown as a question mark, and what does not fit is cut.
-/

namespace Anettrace.TrafficDisplay

open Library

/-- The bytes of a text, without the zero at its end. -/
abbrev Text := List UInt8

def utf8 (literal : String) : Text := literal.toUTF8.toList

/-- The colors of the display. -/
inductive Color where
  | title
  | rx
  | tx
  | muted
  deriving DecidableEq

/-- What `traffic_line` is asked to print. -/
structure Print where
  color : Option Color
  text : Text
  deriving DecidableEq

/-- `struct traffic_frame`, with the lines that it has used. -/
structure Frame where
  width : Nat
  limit : Nat
  lines : List Print
  deriving DecidableEq

/-- The number of lines of a frame. -/
def Frame.used (frame : Frame) : Nat := frame.lines.length

/-- The code point of three bytes. -/
def codepoint (first second third : UInt8) : Nat :=
  ((first &&& 0x0f).toNat <<< 12) ||| ((second &&& 0x3f).toNat <<< 6) ||| (third &&& 0x3f).toNat

/-- Three bytes are a character of the CJK block. -/
def isCjk (first second third : UInt8) : Bool :=
  first ≥ 0xe4 && first ≤ 0xe9 && second &&& 0xc0 == 0x80 && third &&& 0xc0 == 0x80 &&
    codepoint first second third ≥ 0x4e00 && codepoint first second third ≤ 0x9fff

def trafficCharacterCells : Text → Nat × Nat
  | first :: second :: third :: _ => if isCjk first second third then (3, 2) else (1, 1)
  | _ => (1, 1)

/-- The characters of a text, with their cells. A byte that is not printable becomes a question
mark. -/
def characters : Text → List (Text × Nat)
  | [] => []
  | first :: second :: third :: rest =>
      if isCjk first second third then ([first, second, third], 2) :: characters rest
      else
        (if first ≥ 32 ∧ first ≤ 126 then [first] else [0x3f], 1) ::
          characters (second :: third :: rest)
  | first :: rest => (if first ≥ 32 ∧ first ≤ 126 then [first] else [0x3f], 1) :: characters rest

/-- The variables of the loop in `traffic_line`. -/
structure Cleaning where
  clean : Text
  columns : Nat
  fit : Nat
  ellipsis : Nat

/-- One round of the loop. -/
def Cleaning.step (available : Nat) (state : Cleaning) (character : Text × Nat) : Cleaning :=
  let clean := state.clean ++ character.1
  let columns := state.columns + character.2
  { clean := clean
    columns := columns
    fit := if columns ≤ available then clean.length else state.fit
    ellipsis := if columns + 3 ≤ available then clean.length else state.ellipsis }

/-- What `traffic_line` prints of a text. -/
def clip (width : Nat) (text : Text) : Text :=
  let available := width - 1
  let state := (characters (text.take 1023)).foldl (Cleaning.step available) ⟨[], 0, 0, 0⟩
  if state.columns > available then
    if available ≥ 3 then state.clean.take state.ellipsis ++ utf8 "..."
      else state.clean.take state.fit
  else state.clean

def trafficLine (frame : Frame) (print : Print) : Frame :=
  { frame with
    lines := Page.put frame.limit frame.lines { print with text := clip frame.width print.text } }

def trafficLines (frame : Frame) (prints : List Print) : Frame := prints.foldl trafficLine frame

/-- A call as it shows on the terminal. -/
def Print.clipped (width : Nat) (print : Print) : Print :=
  { print with text := clip width print.text }

@[simp] theorem trafficLines_width (frame : Frame) (prints : List Print) :
    (trafficLines frame prints).width = frame.width := by
  induction prints generalizing frame with
  | nil => rfl
  | cons print prints ih => exact ih (trafficLine frame print)

@[simp] theorem trafficLines_limit (frame : Frame) (prints : List Print) :
    (trafficLines frame prints).limit = frame.limit := by
  induction prints generalizing frame with
  | nil => rfl
  | cons print prints ih => exact ih (trafficLine frame print)

theorem trafficLines_append (frame : Frame) (first second : List Print) :
    trafficLines frame (first ++ second) = trafficLines (trafficLines frame first) second :=
  List.foldl_append

theorem trafficLines_lines (frame : Frame) (prints : List Print) :
    (trafficLines frame prints).lines =
      Page.puts frame.limit frame.lines (prints.map (Print.clipped frame.width)) := by
  induction prints generalizing frame with
  | nil => rfl
  | cons print prints ih => exact ih (trafficLine frame print)

theorem trafficLines_used {frame : Frame} (h : frame.used ≤ frame.limit) (prints : List Print) :
    (trafficLines frame prints).used = min frame.limit (frame.used + prints.length) := by
  rw [Frame.used, trafficLines_lines, Page.length_puts h, List.length_map]
  rfl

theorem trafficLines_of_room {frame : Frame} {prints : List Print}
    (h : frame.used + prints.length ≤ frame.limit) :
    trafficLines frame prints =
      { frame with lines := frame.lines ++ prints.map (Print.clipped frame.width) } := by
  have hlines : (trafficLines frame prints).lines =
      frame.lines ++ prints.map (Print.clipped frame.width) := by
    rw [trafficLines_lines]
    refine Page.puts_of_room ?_
    rw [List.length_map]
    exact h
  have hwidth := trafficLines_width frame prints
  have hlimit := trafficLines_limit frame prints
  cases hframe : trafficLines frame prints with
  | mk width limit lines =>
      rw [hframe] at hlines hwidth hlimit
      rw [← hlines, ← hwidth, ← hlimit]

/-! ## Fields -/

/-- `"%-*s"` -/
def padRight (width : Nat) (text : Text) : Text := text ++ List.replicate (width - text.length) 0x20

/-- `"%*s"` -/
def padLeft (width : Nat) (text : Text) : Text := List.replicate (width - text.length) 0x20 ++ text

/-- `"%u"` -/
def decimal (value : Nat) : Text := (Nat.toDigits 10 value).map fun digit => digit.val.toUInt8

/-- The characters of a text that take fewer cells than bytes. -/
def wideCharacters (text : Text) : Nat :=
  ((characters text).filter fun character => character.2 = 2).length

def trafficFieldWidth (comm : Text) (width : Nat) : Nat := width + wideCharacters comm

end Anettrace.TrafficDisplay
