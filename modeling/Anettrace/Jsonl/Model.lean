import Anettrace.Export.Identity
import Anettrace.Library.Json
import Anettrace.Library.Utf8

/-!
# The text of a JSONL file

How `src/perfetto_export.c` puts a line of its JSONL file together, and how `read_records` of
`tools/anettrace_to_perfetto.py` and `read_event_records` of `tools/connect_diagnostics.py` read the
file. The two readers differ in the exception that they raise.
-/

namespace Anettrace.Jsonl

open Library Export

/-! ## Writing -/

def perfettoSchema : String := "anettrace.perfetto.v1"

/-- A value in a format of `fprintf`. -/
inductive Field where
  /-- `"%s"`, with a text that is put in as it is. -/
  | plain (text : List Char)
  /-- `"%s"`, with the text of a `char [source]` that `json_escape` wrote to a `char [dest]`. -/
  | escaped (text : List UInt8) (source dest : Nat)
  /-- `%u` and `%llu` -/
  | unsigned (value : Nat)
  /-- `%d` and `%lld` -/
  | signed (value : Int)
  /-- `%s`, with `true` or `false`. -/
  | flag (value : Bool)

/-- The digits of `%u` and `%llu`. -/
def decimal (value : Nat) : List Char := Nat.toDigits 10 value

/-- The digits of `%d` and `%lld`. -/
def signedDecimal (value : Int) : List Char :=
  if value < 0 then '-' :: decimal value.natAbs else decimal value.natAbs

/-- The word of a condition in C. -/
def flagWord (value : Bool) : List Char :=
  if value then ['t', 'r', 'u', 'e'] else ['f', 'a', 'l', 's', 'e']

/-- A value as it is printed. -/
def Field.bytes : Field → List UInt8
  | .plain text => Utf8.encode ('"' :: (text ++ ['"']))
  | .escaped text _ dest => 34 :: (jsonEscape text dest ++ [34])
  | .unsigned value => Utf8.encode (decimal value)
  | .signed value => Utf8.encode (signedDecimal value)
  | .flag value => Utf8.encode (flagWord value)

/-- A key and what is printed behind it. -/
abbrev Member := String × Field

/-- A member as it is written: its key, a colon and its value. -/
def memberBytes (member : Member) : List UInt8 :=
  Utf8.encode ('"' :: (member.1.toList ++ ['"', ':'])) ++ member.2.bytes

/-- The member that every line begins with. -/
def schemaMember : Member := ("schema", .plain perfettoSchema.toList)

/-- A line with these members behind the first. -/
def lineBytes (members : List Member) : List UInt8 :=
  Utf8.encode ['{'] ++ (memberBytes schemaMember ++
    (members.flatMap (fun member => Utf8.encode [','] ++ memberBytes member) ++
      Utf8.encode ['}', '\n']))

/-! ## Reading -/

def newlinesFrom : Bool → List Char → List Char
  | _, [] => []
  | behind, char :: rest =>
      if char = '\r' then '\n' :: newlinesFrom true rest
      else if char = '\n' ∧ behind then newlinesFrom false rest
      else char :: newlinesFrom false rest

/-- The text of a file that is opened with universal newlines. -/
def newlines (text : List Char) : List Char := newlinesFrom false text

/-- The lines of a text, with the newlines at their ends. -/
def lines : List Char → List (List Char)
  | [] => []
  | char :: rest =>
      if char = '\n' then ['\n'] :: lines rest
      else
        match lines rest with
        | [] => [[char]]
        | line :: more => (char :: line) :: more

/-- `str.isspace` of a character -/
def isSpace (char : Char) : Bool :=
  [0x09, 0x0a, 0x0b, 0x0c, 0x0d, 0x1c, 0x1d, 0x1e, 0x1f, 0x20, 0x85, 0xa0, 0x1680, 0x2028, 0x2029,
    0x202f, 0x205f,
    0x3000].contains char.toNat || (0x2000 ≤ char.toNat && char.toNat ≤ 0x200a)

/-- What the loop does with a line that is not blank; `none` stands for an exception. -/
def readRecord (schema : String) (line : List Char) : Option (List (List Char × Json.Value)) :=
  match Json.loads line with
  | some (.object members) =>
      match members.lookup "schema".toList with
      | some (.string text) => if text = schema.toList then some members else none
      | _ => none
  | _ => none

/-- `read_records`; `none` stands for an exception, of the decoder or of the loop. -/
def readRecords (schema : String) (file : List UInt8) :
    Option (List (List (List Char × Json.Value))) := do
  let text ← Utf8.decode file
  ((lines (newlines text)).filter fun line => !line.all isSpace).mapM (readRecord schema)

/-! ## Texts -/

def withoutControls (text : List UInt8) : List UInt8 := text.filter (0x20 ≤ ·)

/-- The text that `json_escape` is given for a field, and the size of its array. -/
def Field.array : Field → Option (List UInt8 × Nat)
  | .escaped text source _ => some (text, source)
  | _ => none

/-- The texts that `json_escape` is given for a line with these members, and the sizes of their
arrays. -/
def arrays (members : List Member) : List (List UInt8 × Nat) :=
  members.filterMap fun member => member.2.array

/-- The texts that `json_escape` is given for a line with these members. -/
def texts (members : List Member) : List (List UInt8) := (arrays members).map Prod.fst

/-- A text is what an array holds up to a zero. -/
def IsString (array : List UInt8 × Nat) : Prop := 0 ∉ array.1 ∧ array.1.length < array.2

instance (array : List UInt8 × Nat) : Decidable (IsString array) :=
  inferInstanceAs (Decidable (_ ∧ _))

/-- A text is stored in well-formed bytes, but for its control bytes. -/
def WellFormed (text : List UInt8) : Prop := (Utf8.decode (withoutControls text)).isSome = true

instance (text : List UInt8) : Decidable (WellFormed text) := inferInstanceAs (Decidable (_ = true))

end Anettrace.Jsonl
