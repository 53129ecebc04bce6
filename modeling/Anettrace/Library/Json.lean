import Mathlib.Data.List.Defs

/-!
# JSON texts

The texts that `json.dumps` writes with an indentation of two blanks, without escaping what is not
ASCII, and the values that `json.loads` reads. A number is kept as it is written, and a text that
holds half of a surrogate pair or one of the words for numbers that are not finite has no value
here.
-/

namespace Library.Json

/-! ## Values -/

/-- A value. -/
inductive Value where
  | null
  | bool (value : Bool)
  | number (text : List Char)
  | string (text : List Char)
  | array (items : List Value)
  | object (members : List (List Char × Value))
  deriving Repr

def isDigit (char : Char) : Bool := '0' ≤ char && char ≤ '9'

/-- The part of a number in front of the point. -/
inductive IsWhole : List Char → Prop
  | zero : IsWhole ['0']
  | digits {first : Char} {rest : List Char} (hfirst : isDigit first = true) (hzero : first ≠ '0')
      (hrest : ∀ char ∈ rest, isDigit char = true) : IsWhole (first :: rest)

/-- The point and what is behind it. -/
inductive IsFraction : List Char → Prop
  | none : IsFraction []
  | digits {digits : List Char} (hsome : digits ≠ [])
      (hdigits : ∀ char ∈ digits, isDigit char = true) :
      IsFraction ('.' :: digits)

/-- The exponent of a number. -/
inductive IsExponent : List Char → Prop
  | none : IsExponent []
  | plain {mark : Char} {digits : List Char} (hmark : mark = 'e' ∨ mark = 'E') (hsome : digits ≠ [])
      (hdigits : ∀ char ∈ digits, isDigit char = true) : IsExponent (mark :: digits)
  | signed {mark sign : Char} {digits : List Char} (hmark : mark = 'e' ∨ mark = 'E')
      (hsign : sign = '+' ∨ sign = '-') (hsome : digits ≠ [])
      (hdigits : ∀ char ∈ digits, isDigit char = true) : IsExponent (mark :: sign :: digits)

/-- How numbers are written. -/
inductive IsNumber : List Char → Prop
  | intro {sign whole fraction exponent : List Char} (hsign : sign = [] ∨ sign = ['-'])
      (hwhole : IsWhole whole) (hfraction : IsFraction fraction) (hexponent : IsExponent exponent) :
      IsNumber (sign ++ (whole ++ (fraction ++ exponent)))

/-- A value with numbers that are numbers, and no key twice in an object. -/
inductive Valid : Value → Prop
  | null : Valid .null
  | bool (value : Bool) : Valid (.bool value)
  | number {text : List Char} (h : IsNumber text) : Valid (.number text)
  | string (text : List Char) : Valid (.string text)
  | array {items : List Value} (h : ∀ item ∈ items, Valid item) : Valid (.array items)
  | object {members : List (List Char × Value)} (hkeys : (members.map Prod.fst).Nodup)
      (h : ∀ member ∈ members, Valid member.2) : Valid (.object members)

/-! ## Writing -/

/-- The four digits of an escape. -/
def hex4 (code : Nat) : List Char :=
  [Nat.digitChar (code / 4096 % 16), Nat.digitChar (code / 256 % 16),
    Nat.digitChar (code / 16 % 16),
    Nat.digitChar (code % 16)]

/-- A character inside a string. -/
def encodeChar (char : Char) : List Char :=
  if char = '\\' then ['\\', '\\']
  else if char = '"' then ['\\', '"']
  else if char = '\n' then ['\\', 'n']
  else if char = '\r' then ['\\', 'r']
  else if char = '\t' then ['\\', 't']
  else if char.toNat = 0x08 then ['\\', 'b']
  else if char.toNat = 0x0c then ['\\', 'f']
  else if char.toNat < 0x20 then '\\' :: 'u' :: hex4 char.toNat
  else [char]

/-- A new line at a level. -/
def newline (level : Nat) : List Char := '\n' :: List.replicate (2 * level) ' '

section Writing

variable (encode : Char → List Char)

def writeString (text : List Char) : List Char := '"' :: (text.flatMap encode ++ ['"'])

mutual

def write (level : Nat) : Value → List Char
  | .null => ['n', 'u', 'l', 'l']
  | .bool true => ['t', 'r', 'u', 'e']
  | .bool false => ['f', 'a', 'l', 's', 'e']
  | .number text => text
  | .string text => writeString encode text
  | .array [] => ['[', ']']
  | .array (item :: rest) =>
      '[' :: (newline (level + 1) ++ (write (level + 1) item ++ writeItems level rest))
  | .object [] => ['{', '}']
  | .object ((key, value) :: rest) =>
      '{' :: (newline (level + 1) ++ (writeString encode key ++
        (':' :: ' ' :: (write (level + 1) value ++ writeMembers level rest))))

/-- The items behind the first, and the end of the array. -/
def writeItems (level : Nat) : List Value → List Char
  | [] => newline level ++ [']']
  | item :: rest =>
      ',' :: (newline (level + 1) ++ (write (level + 1) item ++ writeItems level rest))

/-- The members behind the first, and the end of the object. -/
def writeMembers (level : Nat) : List (List Char × Value) → List Char
  | [] => newline level ++ ['}']
  | (key, value) :: rest =>
      ',' :: (newline (level + 1) ++ (writeString encode key ++
        (':' :: ' ' :: (write (level + 1) value ++ writeMembers level rest))))

end

end Writing

/-- `json.dumps(value, ensure_ascii=False, indent=2)` -/
def dumps (value : Value) : List Char := write encodeChar 0 value

/-! ## Reading -/

/-- White space. -/
def isBlank (char : Char) : Bool := char == ' ' || char == '\t' || char == '\n' || char == '\r'

/-- Text without the white space at its start. -/
def skipBlanks (text : List Char) : List Char := text.dropWhile isBlank

/-- The value of a hexadecimal digit. -/
def hexDigit (char : Char) : Option Nat :=
  if '0' ≤ char ∧ char ≤ '9' then some (char.toNat - 0x30)
  else if 'A' ≤ char ∧ char ≤ 'F' then some (char.toNat - 0x41 + 10)
  else if 'a' ≤ char ∧ char ≤ 'f' then some (char.toNat - 0x61 + 10)
  else none

/-- The code of an escape of four digits. -/
def unhex (a b c d : Char) : Option Nat := do
  let a ← hexDigit a
  let b ← hexDigit b
  let c ← hexDigit c
  let d ← hexDigit d
  some (((a * 16 + b) * 16 + c) * 16 + d)

/-- A character escaped by a letter or by itself. -/
def unescape (char : Char) : Option Char :=
  if char = '"' ∨ char = '\\' ∨ char = '/' then some char
  else if char = 'b' then some (Char.ofNat 0x08)
  else if char = 'f' then some (Char.ofNat 0x0c)
  else if char = 'n' then some '\n'
  else if char = 'r' then some '\r'
  else if char = 't' then some '\t'
  else none

/-- The character of a code, unless it is half of a surrogate pair. -/
def charOf (code : Nat) : Option Char :=
  if code.isValidChar then some (Char.ofNat code) else none

/-- The first half of a surrogate pair. -/
def isHigh (code : Nat) : Bool := 0xd800 ≤ code && code ≤ 0xdbff

def pairOf (high low : Nat) : Option Char :=
  if 0xdc00 ≤ low ∧ low ≤ 0xdfff then charOf (0x10000 + ((high - 0xd800) * 1024 + (low - 0xdc00)))
    else none

/-- The rest of a string, behind its opening quote. -/
def readString : List Char → Option (List Char × List Char)
  | [] => none
  | first :: rest =>
      if first = '"' then some ([], rest)
      else if first = '\\' then
        match rest with
        | [] => none
        | letter :: rest =>
            if letter = 'u' then
              match rest with
              | a :: b :: c :: d :: rest =>
                  match unhex a b c d with
                  | none => none
                  | some code =>
                      if isHigh code then
                        -- The other half has to follow.
                        match rest with
                        | slash :: letter :: e :: f :: g :: h :: rest =>
                            match unhex e f g h with
                            | none => none
                            | some low =>
                                if slash = '\\' ∧ letter = 'u' then
                                  match pairOf code low with
                                  | none => none
                                  | some char => (readString rest).map fun read =>
                                      (char :: read.1, read.2)
                                else none
                        | _ => none
                      else
                        match charOf code with
                        | none => none
                        | some char => (readString rest).map fun read => (char :: read.1, read.2)
              | _ => none
            else
              match unescape letter with
              | none => none
              | some char => (readString rest).map fun read => (char :: read.1, read.2)
      else if first.toNat < 0x20 then none
      else (readString rest).map fun read => (first :: read.1, read.2)

/-- The part of a number in front of the point. -/
def readWhole : List Char → Option (List Char × List Char)
  | [] => none
  | first :: rest =>
      if first = '0' then some (['0'], rest)
      else if isDigit first then some (first :: rest.takeWhile isDigit, rest.dropWhile isDigit)
      else none

def readFraction : List Char → List Char × List Char
  | [] => ([], [])
  | point :: rest =>
      if point = '.' ∧ rest.takeWhile isDigit ≠ [] then
        (point :: rest.takeWhile isDigit, rest.dropWhile isDigit)
      else ([], point :: rest)

def readSign : List Char → List Char × List Char
  | [] => ([], [])
  | sign :: rest => if sign = '+' ∨ sign = '-' then ([sign], rest) else ([], sign :: rest)

/-- The exponent at the start of a text, and what follows. -/
def readExponent : List Char → List Char × List Char
  | [] => ([], [])
  | mark :: rest =>
      let (sign, digits) := readSign rest
      if (mark = 'e' ∨ mark = 'E') ∧ digits.takeWhile isDigit ≠ [] then
        (mark :: (sign ++ digits.takeWhile isDigit), digits.dropWhile isDigit)
      else ([], mark :: rest)

def readNumber (text : List Char) : Option (List Char × List Char) :=
  let (sign, rest) := if text.head? = some '-' then (['-'], text.tail) else ([], text)
  match readWhole rest with
  | none => none
  | some (whole, rest) =>
      let (fraction, rest) := readFraction rest
      let (exponent, rest) := readExponent rest
      some (sign ++ (whole ++ (fraction ++ exponent)), rest)

/-- A dictionary after an assignment. -/
def setMember (members : List (List Char × Value)) (key : List Char) (value : Value) :
    List (List Char × Value) :=
  if members.any (·.1 == key) then members.map fun member =>
    if member.1 == key then (key, value) else member
  else members ++ [(key, value)]

def dict (pairs : List (List Char × Value)) : List (List Char × Value) :=
  pairs.foldl (fun members pair => setMember members pair.1 pair.2) []

mutual

def readValue : Nat → List Char → Option (Value × List Char)
  | 0, _ => none
  | _ + 1, [] => none
  | bound + 1, first :: rest =>
      if first = '"' then (readString rest).map fun (text, rest) => (.string text, rest)
      else if first = '{' then
        if (skipBlanks rest).head? = some '}' then some (.object [], (skipBlanks rest).tail)
        else (readMembers bound (skipBlanks rest)).map fun (members, rest) =>
          (.object (dict members), rest)
      else if first = '[' then
        if (skipBlanks rest).head? = some ']' then some (.array [], (skipBlanks rest).tail)
        else (readItems bound (skipBlanks rest)).map fun (items, rest) => (.array items, rest)
      else if ['n', 'u', 'l', 'l'].isPrefixOf (first :: rest) then some (.null, rest.drop 3)
      else if ['t', 'r', 'u', 'e'].isPrefixOf (first :: rest) then some (.bool true, rest.drop 3)
      else if ['f', 'a', 'l', 's', 'e'].isPrefixOf (first :: rest) then
        some (.bool false, rest.drop 4)
      else (readNumber (first :: rest)).map fun (text, rest) => (.number text, rest)

/-- The items of an array and its end. -/
def readItems : Nat → List Char → Option (List Value × List Char)
  | 0, _ => none
  | bound + 1, text =>
      match readValue bound text with
      | none => none
      | some (item, rest) =>
          match skipBlanks rest with
          | ']' :: rest => some ([item], rest)
          | ',' :: rest => (readItems bound (skipBlanks rest)).map fun (items, rest) =>
              (item :: items, rest)
          | _ => none

/-- The members of an object and its end. -/
def readMembers : Nat → List Char → Option (List (List Char × Value) × List Char)
  | bound + 1, '"' :: text =>
      match readString text with
      | none => none
      | some (key, rest) =>
          match skipBlanks rest with
          | ':' :: rest =>
              match readValue bound (skipBlanks rest) with
              | none => none
              | some (value, rest) =>
                  match skipBlanks rest with
                  | '}' :: rest => some ([(key, value)], rest)
                  | ',' :: rest =>
                      (readMembers bound (skipBlanks rest)).map fun (members, rest) =>
                        ((key, value) :: members, rest)
                  | _ => none
          | _ => none
  | _, _ => none

end

def loads (text : List Char) : Option Value :=
  if text.head? = some (Char.ofNat 0xfeff) then none
  else
    match readValue (text.length + 1) (skipBlanks text) with
    | none => none
    | some (value, rest) => if skipBlanks rest = [] then some value else none

/-! ## Comparison -/

mutual

/-- `==`, with objects compared without regard to the order of their members. -/
def same : Value → Value → Bool
  | .null, .null => true
  | .bool value, .bool other => value == other
  | .number text, .number other => text == other
  | .string text, .string other => text == other
  | .array items, .array others => sameItems items others
  | .object members, .object others => members.length == others.length && sameMembers others members
  | _, _ => false

def sameItems : List Value → List Value → Bool
  | [], [] => true
  | item :: rest, other :: others => same item other && sameItems rest others
  | _, _ => false

def sameMembers (others : List (List Char × Value)) : List (List Char × Value) → Bool
  | [] => true
  | (key, value) :: rest =>
      (match others.lookup key with
        | none => false
        | some other => same value other) && sameMembers others rest

end

end Library.Json
