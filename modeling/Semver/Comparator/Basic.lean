import Semver.Bound.Basic

/-!
# Comparators

A comparator is an operator applied to a bound. There are seven operators; some have more than one
spelling, and no spelling at all means equality. A comparator keeps the text that it was read from,
and that text is also its printed form; the comparator that stands for the absence of any condition
has none.

One choice is left to the caller: whether a pre-release may satisfy a comparator whose bound is not
itself a pre-release.

* `Semver.Options`: the choice.
* `Semver.Operator.spellings`: the table of spellings, the longer ones first.
* `Semver.Operator.ofText?`: the operator that a text spells.
* `Semver.Operator.scan`: the spelling at the front of a text.
* `Semver.Operator.admits`: the condition of an operator.
* `Semver.Comparator.admits`: the condition of a comparator.
-/

namespace Semver

/-- How versions are held against a requirement. -/
structure Options where
  /-- Whether pre-releases are compared like any other version. -/
  includePreRelease : Bool := false
  deriving Repr, DecidableEq

/-! ### Operators -/

/-- An **operator** of a comparator. -/
inductive Operator where
  | equal
  | greater
  | less
  | greaterEqual
  | lessEqual
  | tilde
  | caret
  deriving Repr, DecidableEq

namespace Operator

/-- The spellings of the operators. A longer one stands before the shorter ones that it starts with,
so the first that fits is the longest that fits. -/
def spellings : List (List Char) :=
  [['>', '='], ['=', '>'], ['<', '='], ['=', '<'], ['=', '='], ['>'], ['<'], ['='], ['~'], ['^']]

/-- **The operator that a whole text spells**; the empty text spells equality. -/
def ofText? : String → Option Operator
  | "" | "=" | "==" => some .equal
  | ">" => some .greater
  | "<" => some .less
  | ">=" | "=>" => some .greaterEqual
  | "<=" | "=<" => some .lessEqual
  | "~" => some .tilde
  | "^" => some .caret
  | _ => none

/-- **The spelling at the front of a text**, with the text that follows it. A text that starts with
no spelling starts with the empty one. -/
def scan (s : List Char) : List Char × List Char :=
  match spellings.find? (·.isPrefixOf s) with
  | some spelling => (spelling, s.drop spelling.length)
  | none => ([], s)

/-- Scanning a spelling loses nothing of the text. -/
theorem append_scan (s : List Char) : (scan s).1 ++ (scan s).2 = s := by
  simp only [scan]
  split
  next spelling hfound =>
    have hfront := List.find?_some hfound
    exact List.prefix_iff_eq_append.mp (List.isPrefixOf_iff_prefix.mp hfront)
  · rfl

end Operator

/-! ### Comparators -/

/-- A **comparator**: an operator and the bound that it applies to. -/
structure Comparator where
  operator : Operator
  bound : Bound
  /-- The text that the comparator was read from. -/
  text : String
  deriving Repr, DecidableEq

namespace Comparator

/-- The comparator of an empty text: equality with the bound that consists of wildcards. -/
def any : Comparator :=
  ⟨.equal, .any, ""⟩

instance : ToString Comparator where
  toString c := c.text

end Comparator

/-! ### The versions that a comparator admits

Two rules about pre-releases stand before the operator. A pre-release is admitted only by a bound
that is a pre-release, unless the option says otherwise; and a bound that is a pre-release of
anything admits nothing. Then the operator asks where the version stands relative to the bound.
Without the option a pre-release has to be on the release line of the bound as well: its numbers
agree with the bound's up to the first wildcard. -/

namespace Bound

/-- Whether a version has the numbers of the bound, its release being covered by the bound's. -/
def onReleaseLine (b : Bound) (v : Version) : Bool :=
  (b.release.position v.release).isEq

/-- Whether a version lies below the upper end of a range that starts at the bound. For versions
confined to the release line of the bound the end is the release itself, else it is the given
end, if there is one. -/
def withinEnd (b : Bound) (end? : Option Version) (lineOnly : Bool) (v : Version) : Bool :=
  if lineOnly then (b.release.position v).isLT
  else match end? with
    | some stop => v < stop
    | none => true

end Bound

/-- **Whether an operator on a bound admits a version.** -/
def Operator.admits (op : Operator) (b : Bound) (options : Options) (v : Version) : Bool :=
  let lineOnly := !options.includePreRelease && b.isPreRelease && v.isPreRelease
  let onLine := !lineOnly || b.onReleaseLine v
  let position := b.position v
  match op with
  | .equal => position.isEq
  | .greater => onLine && position.isGT
  | .less => onLine && position.isLT
  | .greaterEqual => onLine && position.isGE
  | .lessEqual => onLine && position.isLE
  | .tilde => position.isGE && b.withinEnd b.tildeEnd? lineOnly v
  | .caret => position.isGE && b.withinEnd b.caretEnd? lineOnly v

/-- **Whether a comparator admits a version.** -/
def Comparator.admits (c : Comparator) (options : Options) (v : Version) : Bool :=
  if !options.includePreRelease && v.isPreRelease && !c.bound.isPreRelease then false
  else if c.bound.isPreRelease && c.bound.isAny then false
  else c.operator.admits c.bound options v

end Semver
