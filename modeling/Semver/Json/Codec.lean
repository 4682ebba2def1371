import Semver.Requirement.Basic
import Semver.Text.Quoted

/-!
# JSON forms

A version and a requirement are JSON strings: their printed forms. Decoding one reads the string,
and the options of a requirement so decoded are the default ones. The options themselves are an
object with one member, or a list with the same content by position; in either form what is missing
has its default.

* `Semver.Json`: the values from which all this is decoded. Numbers are integers; nothing that is
  decoded here has a fraction.
* `Semver.Json.Position`: a position at the end of a message.
* `Semver.DecodeError`: why a value cannot be decoded, with its message.
* `encode` and `decode` of `Semver.Version`, `Semver.Requirement` and `Semver.Options`.
-/

namespace Semver

/-! ### Values -/

/-- A **JSON value** whose numbers are integers. -/
inductive Json where
  | null
  | bool (b : Bool)
  | int (n : Int)
  | str (s : String)
  | arr (items : List Json)
  /-- The members of an object, in order. -/
  | obj (members : List (String × Json))
  deriving Repr, Inhabited

namespace Json

/-- **What a message calls a value**: its kind and, if it is a scalar, the value itself. -/
def kind : Json → String
  | null => "null"
  | bool b => "boolean `" ++ toString b ++ "`"
  | int n => "integer `" ++ toString n ++ "`"
  | str s => "string " ++ Text.quote s
  | arr _ => "sequence"
  | obj _ => "map"

/-! ### Positions at the end of a message

The message of a decoding error may end in the place where the error arose: ` at line 3 column 5`.
Whatever ends a message in this form counts as its position, wherever it came from, and is written
out again from its two numbers. Lines are counted from one, so a position on line 0 is no place, and
nothing is written for it. -/

/-- A **position** in a text of several lines. -/
structure Position where
  line : Number
  column : Number
  deriving Repr, DecidableEq

namespace Position

/-- What stands before the line of a position. -/
def lineMark : List Char := [' ', 'a', 't', ' ', 'l', 'i', 'n', 'e', ' ']

/-- What stands between the line and the column of a position. -/
def columnMark : List Char := [' ', 'c', 'o', 'l', 'u', 'm', 'n', ' ']

/-- The number that follows a mark at the front of a text, with the text after the number. -/
def readAfter? (mark s : List Char) : Option (Number × List Char) :=
  if mark.isPrefixOf s then (Number.read (s.drop mark.length)).toOption else none

/-- **The position that a whole text is.** Leading zeros are allowed; a number of more than 64 bits
is not. -/
def ofText? (s : List Char) : Option Position := do
  let (line, s) ← readAfter? lineMark s
  let (column, s) ← readAfter? columnMark s
  if s.isEmpty then some { line, column } else none

/-- **The written form of a position**: both numbers without leading zeros, and nothing at all for
line 0. -/
def text (p : Position) : List Char :=
  if p.line = 0 then [] else lineMark ++ p.line.digits ++ columnMark ++ p.column.digits

/-- **A message whose position has its written form.** The position is the longest end of the
message that is one; a message that does not end in a position stays as it is. -/
def normalizeEnd : List Char → List Char
  | [] => []
  | c :: s =>
    match ofText? (c :: s) with
    | some p => p.text
    | none => c :: normalizeEnd s

end Position

end Json

/-! ### Decoding -/

/-- What a decoder had to find. -/
inductive Expected where
  | string
  | boolean
  | options
  deriving Repr, DecidableEq

namespace Expected

/-- What a message calls it. -/
def kind : Expected → String
  | string => "a string"
  | boolean => "a boolean"
  | options => "struct RangeOptions"

end Expected

/-- Why a value cannot be decoded. -/
inductive DecodeError where
  /-- A value of another type stands where the expected one should. -/
  | wrongType (found : Json) (expected : Expected)
  /-- A list has more items than there are fields. -/
  | tooLong (length : Nat)
  /-- A string is not a version. -/
  | version (e : ParseError)
  /-- A string is not a requirement. -/
  | requirement (e : RequirementError)

namespace DecodeError

/-- What went wrong. -/
def cause : DecodeError → String
  | wrongType found expected =>
    "invalid type: " ++ found.kind ++ ", expected " ++ expected.kind
  | tooLong length =>
    "invalid length " ++ toString length ++ ", expected fewer elements in array"
  | version e => e.message
  | requirement e => e.message

/-- **The message of an error**: its cause. No position is added to it, but a cause that quotes a
text may end in one, and that one is then the position of the message. -/
def message (e : DecodeError) : String :=
  String.ofList (Json.Position.normalizeEnd e.cause.toList)

end DecodeError

namespace Json

/-- The string that a value is. -/
def asString : Json → Except DecodeError String
  | str s => .ok s
  | found => .error (.wrongType found .string)

/-- The boolean that a value is. -/
def asBool : Json → Except DecodeError Bool
  | bool b => .ok b
  | found => .error (.wrongType found .boolean)

end Json

/-! ### Versions and requirements -/

namespace Version

/-- The JSON form of a version. -/
def encode (v : Version) : Json :=
  .str (toString v)

/-- **The version that a JSON value denotes.** -/
def decode (j : Json) : Except DecodeError Version := do
  let text ← j.asString
  (parse text).mapError .version

end Version

namespace Requirement

/-- The JSON form of a requirement. -/
def encode (r : Requirement) : Json :=
  .str (toString r)

/-- **The requirement that a JSON value denotes**, with the default options. -/
def decode (j : Json) : Except DecodeError Requirement := do
  let text ← j.asString
  (parse text {}).mapError .requirement

end Requirement

/-! ### Options -/

namespace Options

/-- The name of the member that holds the option. -/
def member : String := "includePreRelease"

/-- The JSON form of the options. -/
def encode (o : Options) : Json :=
  .obj [(member, .bool o.includePreRelease)]

/-- **The options that a JSON value denotes.** Members of other names are ignored; the type of the
first item of a list is checked before the length of the list. -/
def decode : Json → Except DecodeError Options
  | .obj members =>
    match members.lookup member with
    | none => .ok {}
    | some value => value.asBool.map Options.mk
  | .arr [] => .ok {}
  | .arr (value :: more) => do
    let includePreRelease ← value.asBool
    if more.isEmpty then return { includePreRelease }
    else throw (.tooLong (more.length + 1))
  | found => .error (.wrongType found .options)

end Options

end Semver
