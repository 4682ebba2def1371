import Semver.Version.Order

/-!
# Reading a version

The notation is the canonical one, read generously: blanks around the text are ignored, an equals
sign and a `v` may stand in front, each followed by blanks, the numbers may have leading zeros, and
the hyphen before the pre-release may be missing, as in `1.2.3beta`.

A text fails to be a version, or a bound, for one of two reasons: a number in it is too large, or
a character stands where the notation allows none. Either error points at a place of the text, and
its message shows the first sixty characters from that place.

* `Semver.ParseError`: why a text is not a version or not a bound.
* `Semver.ParseError.message`: the message of an error.
* `Semver.Version.readNumbers`: the three numbers, which every version has.
* `Semver.Version.ofChars`: the version that a text without surrounding blanks denotes.
* `Semver.Version.parse`: the version that a text denotes.
-/

namespace Semver

/-! ### Errors -/

/-- Why a text is not a version or not a bound, with the text from the place that shows it. -/
inductive ParseError where
  /-- At this place the notation cannot go on. -/
  | unexpected (rest : List Char)
  /-- A number just before this place does not fit into 64 bits. -/
  | overflow (digits rest : List Char)
  deriving Repr, DecidableEq

namespace ParseError

/-- The error of a whole text that lacks a number its notation requires: a missing number is
reported at the start of the text, a number that is too large at its own place. -/
def ofFailure (text : List Char) : Number.Failure → ParseError
  | .missing => .unexpected text
  | .overflow digits rest => .overflow digits rest

/-- What went wrong. -/
def cause : ParseError → String
  | .unexpected _ => "Unexpected character."
  | .overflow digits _ =>
    "Error parsing '" ++ String.ofList digits ++
      "' to u64.\n\nnumber too large to fit in target type"

/-- The text from the place of the error. -/
def place : ParseError → List Char
  | .unexpected rest => rest
  | .overflow _ rest => rest

/-- How many characters of the place a message shows. -/
def snippetLength : Nat := 60

/-- **The message of an error**: the cause, the start of the place, and a mark under it. -/
def message (e : ParseError) : String :=
  "Invalid npm version. " ++ e.cause ++ "\n  " ++
    String.ofList (e.place.take snippetLength) ++ "\n  ~"

end ParseError

/-! ### The reader -/

namespace Version

open Text (skipBlanks skipMark trim)

/-- The text after the equals sign, the `v` and the blanks that may precede the numbers. -/
def skipLead (s : List Char) : List Char :=
  skipBlanks (skipMark 'v' (skipBlanks (skipMark '=' s)))

/-- The number that follows a dot, which has to be there. -/
def readDotted : List Char → Except Number.Failure (Number × List Char)
  | '.' :: s => Number.read s
  | _ => .error .missing

/-- The three numbers of a version, with the text that follows them. -/
def readNumbers (s : List Char) :
    Except Number.Failure ((Number × Number × Number) × List Char) := do
  let (major, s) ← Number.read s
  let (minor, s) ← readDotted s
  let (patch, s) ← readDotted s
  return ((major, minor, patch), s)

/-- The pre-release words at the front of a text. The hyphen before them may be missing; a hyphen
that no word follows is left in the text. -/
def readPre : List Char → List (List Char) × List Char
  | '-' :: s => Identifier.readMarked '-' ('-' :: s)
  | s => Identifier.readWords s

/-- **The version that a text without surrounding blanks denotes.** A text that lacks one of the
numbers is in error as a whole; after the numbers, whatever the notation does not use up is. -/
def ofChars (s : List Char) : Except ParseError Version :=
  match readNumbers (skipLead s) with
  | .error failure => .error (.ofFailure s failure)
  | .ok ((major, minor, patch), rest) =>
    let (pre, rest) := readPre rest
    let (build, rest) := Identifier.readMarked '+' rest
    if rest.isEmpty then
      .ok { major, minor, patch, pre := pre.map .ofList, build := build.map .ofList }
    else .error (.unexpected rest)

/-- **The version that a text denotes.** -/
def parse (text : String) : Except ParseError Version :=
  ofChars (trim text.toList)

end Version

end Semver
