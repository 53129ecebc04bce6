import Mathlib.Data.List.Basic

/-!
# Custom trace configurations

`src/perfetto_config.c`. A custom Perfetto configuration is copied without its top-level
`duration_ms` fields; a capture that does not use a ring buffer then gets a duration of its own. A
byte of the text is the character with its code, a position of the text is the part of the text that
starts there, and every write to the output succeeds.
-/

namespace Anettrace.PerfettoConfig

/-! ## Characters -/

/-- `isspace` of `<ctype.h>` -/
def isspace (character : Char) : Bool :=
  character = ' ' || character = '\t' || character = '\n' || character =
    '\x0b' || character = '\x0c' ||
    character = '\r'

/-- `isxdigit` of `<ctype.h>` -/
def isxdigit (character : Char) : Bool :=
  character.isDigit || ('a' ≤ character && character ≤ 'f') || ('A' ≤ character && character ≤ 'F')

/-- The blanks that go with a removed field. -/
def isBlank (character : Char) : Bool :=
  character = ' ' || character = '\t' || character = '\r'

def identifierStart (character : Char) : Bool :=
  character.isAlpha || character = '_'

def identifierCharacter (character : Char) : Bool :=
  character.isAlphanum || character = '_'

/-- `"duration_ms"` -/
def durationName : List Char :=
  "duration_ms".toList

/-! ## The end of a duration field -/

/-- `'+'` or `'-'` in front of a number. -/
def skipSign : List Char → List Char
  | '+' :: cursor => cursor
  | '-' :: cursor => cursor
  | cursor => cursor

/-- The digits of a number: whether there is one, and what follows them. -/
def skipDigits (cursor : List Char) : Bool × List Char :=
  match cursor with
  | '0' :: 'x' :: digits => ((digits.takeWhile isxdigit) ≠ [], digits.dropWhile isxdigit)
  | '0' :: 'X' :: digits => ((digits.takeWhile isxdigit) ≠ [], digits.dropWhile isxdigit)
  | digits => ((digits.takeWhile Char.isDigit) ≠ [], digits.dropWhile Char.isDigit)

/-- The number at a position, up to what follows it. A number that runs into an identifier is
none. -/
def numberEnd (cursor : List Char) : Option (List Char) :=
  let (hasDigit, cursor) := skipDigits (skipSign cursor)
  if !hasDigit || cursor.head?.any identifierCharacter then none else some cursor

/-- One separator. -/
def skipSeparator : List Char → List Char
  | ';' :: cursor => cursor
  | ',' :: cursor => cursor
  | cursor => cursor

/-- What follows a number, its separator and the blanks around the separator. -/
def separatorEnd (cursor : List Char) : List Char :=
  (skipSeparator (cursor.dropWhile isBlank)).dropWhile isBlank

/-- The end of the field whose name starts at a position, if it is a field with a number. -/
def durationFieldEnd (start : List Char) : Option (List Char) :=
  match (start.drop durationName.length).dropWhile isspace with
  | ':' :: cursor => (numberEnd (cursor.dropWhile isspace)).map separatorEnd
  | _ => none

/-! ## The scanner -/

/-- `enum scan_state`. The quote and the escape belong to the string they are used in. -/
inductive ScanState where
  | normal
  | string (quote : Char) (escaped : Bool)
  | lineComment
  | blockComment
  deriving DecidableEq, Repr

/-- What one round of the scanner does: it goes on at a later position, or it leaves out the field
between the position and the end of the field. -/
inductive Round where
  | advance (state : ScanState) (depth : Nat) (index : List Char)
  | remove (fieldEnd : List Char)
  deriving DecidableEq, Repr

/-- A round inside a string. -/
def stringRound (quote : Char) (escaped : Bool) (character : Char) : ScanState :=
  if escaped then .string quote false
  else if character = '\\' then .string quote true
  else if character = quote then .normal
  else .string quote false

/-- A round outside of strings and comments. The depth stays below the size limit of a
configuration, so it does not overflow. -/
def normalRound (depth : Nat) (character : Char) (next : List Char) : Round :=
  if character = '"' ∨ character = '\'' then .advance (.string character false) depth next
  else if character = '#' then .advance .lineComment depth next
  else if character = '/' ∧ next.head? = some '/' then .advance .lineComment depth next.tail
  else if character = '/' ∧ next.head? = some '*' then .advance .blockComment depth next.tail
  else if character = '{' ∨ character = '<' then .advance .normal (depth + 1) next
  else if character = '}' ∨ character = '>' then .advance .normal (depth - 1) next
  else if depth = 0 ∧ identifierStart character then
    if character :: next.takeWhile identifierCharacter = durationName then
      match durationFieldEnd (character :: next) with
      | some fieldEnd => .remove fieldEnd
      | none => .advance .normal depth (next.dropWhile identifierCharacter)
    else .advance .normal depth (next.dropWhile identifierCharacter)
  else .advance .normal depth next

/-- One round of the loop at `character :: next`. -/
def round (state : ScanState) (depth : Nat) (character : Char) (next : List Char) : Round :=
  match state with
  | .string quote escaped => .advance (stringRound quote escaped character) depth next
  | .lineComment => .advance (if character = '\n' then .normal else .lineComment) depth next
  | .blockComment =>
      if character = '*' ∧ next.head? = some '/' then .advance .normal depth next.tail
      else .advance .blockComment depth next
  | .normal => normalRound depth character next

/-- The variables of `write_without_top_level_duration`: what is behind `cursor` and before `index`
is not written yet. -/
structure Scanner where
  state : ScanState
  depth : Nat
  output : List Char
  cursor : List Char
  index : List Char
  deriving DecidableEq, Repr

/-- The loop. A round goes at least one character further, so a text needs no more rounds than it
has characters. -/
def scan : Nat → Scanner → Scanner
  | 0, scanner => scanner
  | rounds + 1, scanner =>
      match scanner.index with
      | [] => scanner
      | character :: next =>
          match round scanner.state scanner.depth character next with
          | .advance state depth index =>
              scan rounds { scanner with state := state, depth := depth, index := index }
          | .remove fieldEnd =>
              scan rounds
                { scanner with
                  output := scanner.output ++
                    scanner.cursor.take (scanner.cursor.length - scanner.index.length)
                  cursor := fieldEnd
                  index := fieldEnd }

/-- What is written for a text. -/
def writeWithoutTopLevelDuration (text : List Char) : List Char :=
  let scanner := scan text.length ⟨.normal, 0, [], text, text⟩
  scanner.output ++ scanner.cursor

/-! ## The written configuration -/

/-- The values of `errno` that can result. -/
inductive Errno where
  | EINVAL
  | ENODATA
  | EFBIG
  | EOVERFLOW
  deriving DecidableEq, Repr

/-- A file that can be opened and read. -/
structure ConfigFile where
  regular : Bool
  text : List Char
  deriving DecidableEq, Repr

def maxCustomConfigBytes : Nat :=
  4 * 1024 * 1024

/-- `read_config`, on a file that can be opened. -/
def readConfig (file : ConfigFile) : Except Errno (List Char) :=
  if !file.regular then .error .EINVAL
  else if file.text = [] then .error .ENODATA
  else if file.text.length > maxCustomConfigBytes then .error .EFBIG
  else .ok file.text

/-- The line that sets the duration of a capture, which ends a second before the trace does. -/
def durationLine (durationS : UInt32) : List Char :=
  "duration_ms: ".toList ++ (Nat.repr ((durationS.toNat + 1) * 1000)).toList ++ ['\n']

/-- `perfetto_config_write_custom`. A missing path is `none`; a path leads to a file that can be
opened. -/
def perfettoConfigWriteCustom (outputFd : Int) (inputPath : Option ConfigFile) (durationS : UInt32)
    (ringBuffer : Bool) : Except Errno (List Char) := do
  let file ← match inputPath with
    | none => .error .EINVAL
    | some file => .ok file
  if outputFd < 0 ∨ durationS = 0 then .error .EINVAL
  else
    let text ← readConfig file
    let written := writeWithoutTopLevelDuration text
    if ringBuffer then .ok written
    else
      let written := if text.getLast? = some '\n' then written else written ++ ['\n']
      if (durationLine durationS).length ≥ 64 then .error .EOVERFLOW
      else .ok (written ++ durationLine durationS)

end Anettrace.PerfettoConfig
