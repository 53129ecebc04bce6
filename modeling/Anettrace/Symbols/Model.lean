import Mathlib.Data.UInt
import Anettrace.Library.Run

/-!
# Kernel symbols

The address queries of `utils/parse_sym.c`. `/proc/kallsyms` is read once; a query walks its lines
for two neighbouring function symbols around the address, and what it finds goes in front of a cache
that later queries consult first. Memory suffices, and a description fits into its array.
-/

namespace Anettrace.Symbols

/-! ## A line of kallsyms -/

def isSpace (byte : UInt8) : Bool := byte == 0x20 || (0x09 ≤ byte && byte ≤ 0x0d)

/-- The value of a hexadecimal digit. -/
def hexDigit (byte : UInt8) : Option Nat :=
  if 0x30 ≤ byte ∧ byte ≤ 0x39 then some (byte.toNat - 0x30)
  else if 0x41 ≤ byte ∧ byte ≤ 0x46 then some (byte.toNat - 0x41 + 10)
  else if 0x61 ≤ byte ∧ byte ≤ 0x66 then some (byte.toNat - 0x61 + 10)
  else none

/-- The digits at the front of a text: their value, and the text behind them. -/
def hexDigits (value : Nat) : List UInt8 → Nat × List UInt8
  | [] => (value, [])
  | byte :: rest =>
      match hexDigit byte with
      | some digit => hexDigits (16 * value + digit) rest
      | none => (value, byte :: rest)

/-- The optional `0x` of a hexadecimal number. -/
def skipHexPrefix : List UInt8 → List UInt8
  | 0x30 :: 0x78 :: rest => rest
  | 0x30 :: 0x58 :: rest => rest
  | text => text

/-- `%llx`: a number that is too large is the largest one. -/
def scanHex (text : List UInt8) : Option (UInt64 × List UInt8) :=
  let text := text.dropWhile isSpace
  let negative := text.head? == some 0x2d
  let digits := skipHexPrefix (if negative || text.head? == some 0x2b then text.tail else text)
  let (value, rest) := hexDigits 0 digits
  if rest.length = digits.length then none
  else
    let number := UInt64.ofNat (min value (2 ^ 64 - 1))
    some (if negative && value < 2 ^ 64 then 0 - number else number, rest)

/-- ` %c` -/
def scanChar (text : List UInt8) : Option (UInt8 × List UInt8) :=
  match text.dropWhile isSpace with
  | [] => none
  | byte :: rest => some (byte, rest)

/-- ` %255s` -/
def scanName (text : List UInt8) : Option (List UInt8) :=
  let name := ((text.dropWhile isSpace).takeWhile fun byte => !isSpace byte).take 255
  if name = [] then none else some name

/-- A symbol: its address and its name. -/
structure Symbol where
  address : UInt64
  name : List UInt8
  deriving DecidableEq, Repr

/-- A line that `sscanf(line, "%llx %c %255s", ...)` reads in full, and whose type is that of a
function in the text section. -/
def scanFunction (line : List UInt8) : Option Symbol := do
  let (address, rest) ← scanHex line
  let (type, rest) ← scanChar rest
  let name ← scanName rest
  if type ≠ 0x54 ∧ type ≠ 0x74 then none else some ⟨address, name⟩

/-- The lines of a text, as `strchr(line, '\n')` cuts them. -/
def linesFrom (line : List UInt8) : List UInt8 → List (List UInt8)
  | [] => if line = [] then [] else [line.reverse]
  | byte :: rest =>
      if byte = 0x0a then line.reverse :: linesFrom [] rest else linesFrom (byte :: line) rest

/-- The lines that the walk over `proc_syms` visits. -/
def lines (text : List UInt8) : List (List UInt8) := linesFrom [] (text.takeWhile (· ≠ 0))

/-! ## Queries -/

/-- `struct sym_result`. Both writers of `desc` print `name+0x` and `pc - start`. -/
structure SymResult where
  name : List UInt8
  start : UInt64
  «end» : UInt64
  pc : UInt64
  deriving DecidableEq, Repr

/-- `desc`: the name and the offset. -/
def SymResult.desc (result : SymResult) : List UInt8 × UInt64 :=
  (result.name, result.pc - result.start)

def SymResult.around (pc : UInt64) (result : SymResult) : Bool :=
  result.start ≤ pc && pc < result.end

/-- `sym_parse` and `sym_parse_exact`. -/
structure Query where
  exact : Bool
  pc : UInt64
  deriving DecidableEq, Repr

def symLookupCache (cache : List SymResult) (query : Query) : Option (SymResult × List SymResult) :=
  if query.exact then
    match cache.find? (·.start == query.pc) with
    | some head => some (head, cache)
    | none => none
  else
    match cache.find? (·.around query.pc) with
    | some sym =>
        if sym.pc = query.pc then some (sym, cache)
        else
          let head := { sym with pc := query.pc }
          some (head, head :: cache)
    | none => none

/-- The test of `sym_lookup_proc` on the previous symbol and the one at hand. -/
def Query.hits (query : Query) (previous current : Symbol) : Bool :=
  if query.exact then previous.address == query.pc
  else previous.address ≤ query.pc && query.pc < current.address

def symLookupLines (query : Query) : Option Symbol → List (List UInt8) → Option SymResult
  | _, [] => none
  | previous, line :: rest =>
      match scanFunction line, previous with
      | none, previous => symLookupLines query previous rest
      | some current, none => symLookupLines query (some current) rest
      | some current, some previous =>
          if query.hits previous current then
            some ⟨previous.name, previous.address, current.address, query.pc⟩
          else symLookupLines query (some current) rest

def symLookupProc (text : List UInt8) (query : Query) : Option SymResult :=
  symLookupLines query none (lines text)

def parse (text : List UInt8) (cache : List SymResult) (query : Query) :
    Option SymResult × List SymResult :=
  if query.pc = 0 then (none, cache)
  else
    match symLookupCache cache query with
    | some (result, cache) => (some result, cache)
    | none =>
        match symLookupProc text query with
        | some result => (some result, result :: cache)
        | none => (none, cache)

/-- What a query returns of the symbol: its name and the offset. -/
def answer (text : List UInt8) (cache : List SymResult) (query : Query) :
    Option (List UInt8 × UInt64) :=
  (parse text cache query).1.map SymResult.desc

def next (text : List UInt8) (cache : List SymResult) (query : Query) : List SymResult :=
  (parse text cache query).2

/-- Every query of a sequence is answered as it is with an empty cache. -/
def Transparent (text : List UInt8) (queries : List Query) : Prop :=
  ∀ before query later, queries = before ++ query :: later →
    answer text (Library.Run.run (next text) [] before) query = answer text [] query

end Anettrace.Symbols
