import Semver.Bound.Parser
import Semver.Comparator.Basic

/-!
# Reading a comparator

A token is the text of one comparator: an operator, blanks, and the shape of a bound. Scanning finds
the token at the front of a text; it looks at shapes only and so cannot fail on a large number.

A comparator is read from one token: the token is scanned, which has to use up the whole text, its
operator is looked up, and its bound is read. The empty text is the comparator without a condition.

* `Semver.Token`: the pieces of a token as they are written.
* `Semver.Token.text`: the pieces put together again.
* `Semver.Token.scan`: the token at the front of a text.
* `Semver.Token.length_lt_of_scan`: a token is never empty.
* `Semver.RequirementError`: why a text is not a comparator, or not a requirement.
* `Semver.Comparator.parse`: the comparator that a text denotes.
-/

namespace Semver

/-! ### Tokens -/

/-- A **token**: the text of a comparator in its pieces. -/
structure Token where
  /-- How the operator is spelled. -/
  sign : List Char
  /-- The blanks between the operator and the bound. -/
  gap : List Char
  shape : Bound.Shape
  deriving Repr, DecidableEq

namespace Token

/-- **The text of a token.** -/
def text (t : Token) : List Char :=
  t.sign ++ t.gap ++ t.shape.text

/-- **The token at the front of a text**, with the text that follows it. -/
def scan (s : List Char) : Option (Token × List Char) :=
  let (sign, rest) := Operator.scan s
  match Bound.Shape.scan (Text.skipBlanks rest) with
  | none => none
  | some (shape, after) => some (⟨sign, rest.takeWhile Text.isBlank, shape⟩, after)

/-- Scanning a token loses nothing of the text. -/
theorem text_append_of_scan {s rest : List Char} {t : Token} (h : scan s = some (t, rest)) :
    t.text ++ rest = s := by
  simp only [scan] at h
  split at h
  · cases h
  next shape after hshape =>
    obtain ⟨rfl, rfl⟩ := Prod.mk.inj (Option.some.inj h)
    simp only [text, List.append_assoc, Bound.Shape.text_append_of_scan hshape,
      Text.takeWhile_append_skipBlanks, Operator.append_scan]

/-- A token is not empty. -/
theorem text_ne_nil_of_scan {s rest : List Char} {t : Token} (h : scan s = some (t, rest)) :
    t.text ≠ [] := by
  simp only [scan] at h
  split at h
  · cases h
  next shape after hshape =>
    obtain ⟨rfl, rfl⟩ := Prod.mk.inj (Option.some.inj h)
    simp [text, Bound.Shape.text_ne_nil_of_scan hshape]

/-- The text that follows a token is shorter than the text that starts with it. -/
theorem length_lt_of_scan {s rest : List Char} {t : Token} (h : scan s = some (t, rest)) :
    rest.length < s.length := by
  have hpos := List.length_pos_iff.mpr (text_ne_nil_of_scan h)
  rw [← text_append_of_scan h, List.length_append]
  omega

end Token

/-! ### Errors -/

/-- Why a text is not a requirement or not a comparator. -/
inductive RequirementError where
  /-- An alternative is not a row of comparators. -/
  | malformedSegment (segment : String)
  /-- A text is not a comparator. -/
  | malformedComparator (token : String)
  /-- The bound of a comparator cannot be read. -/
  | version (e : ParseError)
  deriving Repr, DecidableEq

namespace RequirementError

/-- **The message of an error.** -/
def message : RequirementError → String
  | malformedSegment text | malformedComparator text => "improper constraint: " ++ text
  | version e => e.message

end RequirementError

/-! ### The reader -/

namespace Comparator

/-- **The comparator that a list of characters denotes.** -/
def ofChars (s : List Char) : Except RequirementError Comparator :=
  if s.isEmpty then .ok any
  else match Token.scan s with
    | some (token, []) =>
      match Operator.ofText? (String.ofList token.sign) with
      | some operator =>
        match Bound.parse (String.ofList token.shape.text) with
        | .ok bound => .ok ⟨operator, bound, String.ofList s⟩
        | .error e => .error (.version e)
      | none => .error (.malformedComparator (String.ofList s))
    | _ => .error (.malformedComparator (String.ofList s))

/-- **The comparator that a text denotes.** -/
def parse (text : String) : Except RequirementError Comparator :=
  ofChars text.toList

end Comparator

end Semver
