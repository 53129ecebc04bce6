import Anettrace.PerfettoConfig.Model

/-!
# The text format of a configuration

The lexical grammar of protobuf text messages, as far as the scanner tells its parts apart: fields
with scalar values and nested messages, with comments and white space between any two tokens. A text
of the grammar is the text of a tree.
-/

namespace Anettrace.PerfettoConfig

/-! ## Tokens -/

/-- The characters that words do not have. -/
def isPunctuation (character : Char) : Bool :=
  ['"', '\'', '#', '/', '{', '}', '<', '>', ';', ',', ':'].contains character

/-- The characters of numbers and identifiers. -/
def isPlain (character : Char) : Bool :=
  !isspace character && !isPunctuation character

/-- The name of a field. -/
structure Name where
  first : Char
  rest : List Char
  first_ok : identifierStart first
  rest_ok : ∀ character ∈ rest, identifierCharacter character

/-- The text of a name. -/
def Name.text (name : Name) : List Char :=
  name.first :: name.rest

/-- A number or an identifier that is a value or a part of one. -/
structure Word where
  text : List Char
  nonempty : text ≠ []
  plain : ∀ character ∈ text, isPlain character

/-- A character of a string, or an escape sequence up to its second character. -/
inductive StringPart where
  | plain (character : Char)
  | escape (character : Char)

/-- The text of a part of a string. -/
def StringPart.text : StringPart → List Char
  | plain character => [character]
  | escape character => ['\\', character]

/-- A quoted string. -/
structure StringLiteral where
  quote : Char
  parts : List StringPart
  quote_ok : quote = '"' ∨ quote = '\''
  parts_ok : ∀ character, .plain character ∈ parts → character ≠ quote ∧ character ≠ '\\'

/-- The text of a string. -/
def StringLiteral.text (literal : StringLiteral) : List Char :=
  literal.quote :: (literal.parts.flatMap StringPart.text ++ [literal.quote])

/-- The start of a line comment. -/
def commentStart (slashes : Bool) : List Char :=
  if slashes then ['/', '/'] else ['#']

/-- What may stand between two tokens: a white-space character or a comment. -/
inductive Gap where
  | space (character : Char) (h : isspace character)
  | lineComment (slashes : Bool) (body : List Char) (h : '\n' ∉ body)
  | blockComment (body : List Char) (h : ¬ ['*', '/'] <:+: body)

namespace Gap

/-- The text of a gap. -/
def text : Gap → List Char
  | space character _ => [character]
  | lineComment slashes body _ => commentStart slashes ++ body ++ ['\n']
  | blockComment body _ => '/' :: '*' :: (body ++ ['*', '/'])

/-- The gap is not a comment. -/
def isSpace : Gap → Bool
  | space _ _ => true
  | _ => false

/-- The gap is a blank that goes with a removed field. -/
def isBlank : Gap → Bool
  | space character _ => PerfettoConfig.isBlank character
  | _ => false

end Gap

/-- The text of several gaps. -/
def gapsText (gaps : List Gap) : List Char :=
  gaps.flatMap Gap.text

/-! ## Fields -/

/-- A part of a value: a word or a string. -/
inductive Atom where
  | word (word : Word)
  | string (literal : StringLiteral)

/-- The text of a part of a value. -/
def Atom.text : Atom → List Char
  | word spelling => spelling.text
  | string literal => literal.text

/-- The part is a word. -/
def Atom.isWord : Atom → Bool
  | word _ => true
  | string _ => false

/-- Two words have something between them. -/
def AtomsSpaced : Atom → List (List Gap × Atom) → Prop
  | _, [] => True
  | first, (gaps, second) :: more =>
      (first.isWord → second.isWord → gaps ≠ []) ∧ AtomsSpaced second more

/-- A scalar value: a word, or several words or strings in a row. -/
structure Value where
  first : Atom
  more : List (List Gap × Atom)
  spaced : AtomsSpaced first more

/-- What follows the first part of a value. -/
def atomsText (more : List (List Gap × Atom)) : List Char :=
  more.flatMap fun part => gapsText part.1 ++ part.2.text

/-- The text of a value. -/
def Value.text (value : Value) : List Char :=
  value.first.text ++ atomsText value.more

/-- The value ends in a word. -/
def Value.endsInWord (value : Value) : Bool :=
  (value.more.getLast?.elim value.first Prod.snd).isWord

/-- The signs that may end a field. -/
inductive Separator where
  | semicolon
  | comma

/-- The character of a separator. -/
def Separator.character : Separator → Char
  | semicolon => ';'
  | comma => ','

/-- The text of a separator and the gaps before it. -/
def separatorText : Option (List Gap × Separator) → List Char
  | none => []
  | some (gaps, separator) => gapsText gaps ++ [separator.character]

/-- A field with a scalar value. -/
structure Scalar where
  name : Name
  beforeColon : List Gap
  afterColon : List Gap
  value : Value
  separator : Option (List Gap × Separator)

/-- The text of a field. -/
def Scalar.text (field : Scalar) : List Char :=
  field.name.text ++ (gapsText field.beforeColon ++
    ':' :: (gapsText field.afterColon ++ (field.value.text ++ separatorText field.separator)))

/-- Nothing stands between the last word of the field and what follows it. -/
def Scalar.endsInWord (field : Scalar) : Bool :=
  field.separator.isNone && field.value.endsInWord

/-- What stands around the fields of a nested message. -/
structure Frame where
  name : Name
  beforeColon : List Gap
  afterColon : Option (List Gap)
  angle : Bool
  separator : Option (List Gap × Separator)

/-- The text of a colon and the gaps before it. -/
def colonText : Option (List Gap) → List Char
  | none => []
  | some gaps => ':' :: gapsText gaps

/-- The text that opens a message. -/
def Frame.opening (frame : Frame) : List Char :=
  frame.name.text ++ (gapsText frame.beforeColon ++
    (colonText frame.afterColon ++ [if frame.angle then '<' else '{']))

/-- The text that closes a message. -/
def Frame.closing (frame : Frame) : List Char :=
  (if frame.angle then '>' else '}') :: separatorText frame.separator

/-! ## Messages -/

/-- The fields of a message, and what stands between them. -/
inductive Message where
  | nil
  | gap (g : Gap) (rest : Message)
  | scalar (field : Scalar) (rest : Message)
  | message (frame : Frame) (body rest : Message)

namespace Message

/-- The text of a message. -/
def text : Message → List Char
  | nil => []
  | gap g rest => g.text ++ rest.text
  | scalar field rest => field.text ++ rest.text
  | message frame body rest => frame.opening ++ (body.text ++ (frame.closing ++ rest.text))

/-- The message starts with a name. -/
def startsWithName : Message → Bool
  | nil => false
  | gap _ _ => false
  | scalar _ _ => true
  | message _ _ _ => true

/-- No name runs into the value before it. -/
def Spaced : Message → Prop
  | nil => True
  | gap _ rest => rest.Spaced
  | scalar field rest => (field.endsInWord → rest.startsWithName = false) ∧ rest.Spaced
  | message _ body rest => body.Spaced ∧ rest.Spaced

/-- One message after another. -/
def append : Message → Message → Message
  | nil, other => other
  | gap g rest, other => gap g (rest.append other)
  | scalar field rest, other => scalar field (rest.append other)
  | message frame body rest, other => message frame body (rest.append other)

end Message

/-- A whole text. It can end in a line comment without a line end. -/
structure Document where
  message : Message
  comment : Option (Bool × List Char)
  spaced : message.Spaced
  comment_ok : ∀ slashes body, comment = some (slashes, body) → '\n' ∉ body

/-- The text of the comment at the end of a document. -/
def commentText : Option (Bool × List Char) → List Char
  | none => []
  | some (slashes, body) => commentStart slashes ++ body

/-- The text of a document. -/
def Document.text (document : Document) : List Char :=
  document.message.text ++ commentText document.comment

/-! ## Durations -/

/-- A field named `duration_ms` -/
def Scalar.isDuration (field : Scalar) : Bool :=
  field.name.text = durationName

/-- The text of an integer, with an optional sign. -/
def IsInteger (text : List Char) : Prop :=
  ∃ sign digits, text = sign ++ digits ∧ (sign = [] ∨ sign = ['+'] ∨ sign = ['-']) ∧
    ((digits ≠ [] ∧ ∀ digit ∈ digits, digit.isDigit) ∨
      ∃ x hex, digits = '0' :: x :: hex ∧ (x = 'x' ∨ x = 'X') ∧ hex ≠ [] ∧
        ∀ digit ∈ hex, isxdigit digit)

/-- A duration field written without comments around its colon, with an integer for its value, and
with its separator on the same line. -/
structure Scalar.Plain (field : Scalar) : Prop where
  beforeColon : ∀ gap ∈ field.beforeColon, gap.isSpace
  afterColon : ∀ gap ∈ field.afterColon, gap.isSpace
  value : ∃ word : Word, field.value.first = .word word ∧ field.value.more = [] ∧
    IsInteger word.text
  separator : ∀ gaps separator, field.separator = some (gaps, separator) → ∀ gap ∈ gaps, gap.isBlank

namespace Message

/-- The scalar `duration_ms` fields of the message itself. -/
def durations : Message → List Scalar
  | nil => []
  | gap _ rest => rest.durations
  | scalar field rest => if field.isDuration then field :: rest.durations else rest.durations
  | message _ _ rest => rest.durations

/-- The message without the blanks it starts with. -/
def dropBlanks : Message → Message
  | gap g rest => if g.isBlank then rest.dropBlanks else gap g rest
  | other => other

/-- The message without its own `duration_ms` fields. The blanks behind a field go with it. -/
def withoutDuration : Message → Message
  | nil => nil
  | gap g rest => gap g rest.withoutDuration
  | scalar field rest =>
      if field.isDuration then rest.withoutDuration.dropBlanks
        else scalar field rest.withoutDuration
  | message frame body rest => message frame body rest.withoutDuration

end Message

end Anettrace.PerfettoConfig
