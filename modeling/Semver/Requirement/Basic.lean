import Semver.Segment

/-!
# Requirements

A requirement is a list of alternatives, each a list of comparators. A version satisfies it if some
alternative has only comparators that admit the version. The printed form joins the comparators of
an alternative with commas and the alternatives with `||`.

* `Semver.Clause`: one alternative.
* `Semver.Requirement`: the type, with `Semver.Requirement.any`.
* `Semver.Requirement.satisfiedBy`: the versions that satisfy it.
* `Semver.Clause.ofChars`: the clause that a segment denotes.
* `Semver.Requirement.parse`: the requirement that a text denotes.
-/

namespace Semver

/-- A **clause**: comparators that have to admit a version together. -/
structure Clause where
  comparators : List Comparator
  deriving Repr, DecidableEq

namespace Clause

/-- **Whether every comparator of the clause admits a version.** -/
def satisfiedBy (clause : Clause) (options : Options) (v : Version) : Bool :=
  clause.comparators.all fun c => c.admits options v

/-- The printed form of a clause, as a list of characters. -/
def chars (clause : Clause) : List Char :=
  List.intercalate [','] (clause.comparators.map fun c => c.text.toList)

instance : ToString Clause where
  toString clause := String.ofList clause.chars

end Clause

/-- A **requirement**: alternative clauses, and the options under which versions are compared. -/
structure Requirement where
  clauses : List Clause
  options : Options
  deriving Repr, DecidableEq

namespace Requirement

/-- The requirement that every release satisfies. -/
def any : Requirement :=
  ⟨[⟨[.any]⟩], {}⟩

/-- **Whether a version satisfies some clause of the requirement.** -/
def satisfiedBy (r : Requirement) (v : Version) : Bool :=
  r.clauses.any fun clause => clause.satisfiedBy r.options v

/-- The printed form of a requirement, as a list of characters. -/
def chars (r : Requirement) : List Char :=
  List.intercalate ['|', '|'] (r.clauses.map Clause.chars)

instance : ToString Requirement where
  toString r := String.ofList r.chars

end Requirement

/-! ### Reading a requirement

The segments of the text are read one after the other, and the first one that fails decides the
error. A segment is first checked as a whole, and then each of its tokens is read as a
comparator. -/

/-- **The clause that a segment denotes.** -/
def Clause.ofChars (segment : List Char) : Except RequirementError Clause :=
  if Segment.isValid segment then
    ((Segment.tokens segment).mapM Comparator.ofChars).map Clause.mk
  else .error (.malformedSegment (String.ofList segment))

namespace Requirement

/-- The requirement that a list of characters denotes. -/
def ofChars (s : List Char) (options : Options) : Except RequirementError Requirement :=
  ((Segment.split s).mapM Clause.ofChars).map fun clauses => ⟨clauses, options⟩

/-- **The requirement that a text denotes**, with the options to be used with it. -/
def parse (text : String) (options : Options) : Except RequirementError Requirement :=
  ofChars text.toList options

end Requirement

end Semver
