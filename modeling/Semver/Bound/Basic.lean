import Semver.Version.Order

/-!
# Bounds

A bound is a version whose components may be wildcards: `1.2.x`, or `1` for short. A wildcard
stands for any number, and whatever comes after the first one is never looked at. The pre-release
of a bound is a list of identifiers as in a version, or, for the bound that any version meets, a
wildcard of its own.

A bound cuts the versions, in their order of precedence, into three blocks: those below it, those
that it covers, and those above it. A tilde or a caret range starts at a bound and has an upper end
that is computed from it.

* `Semver.Component`: a number or a wildcard.
* `Semver.PrePattern`: the pre-release of a bound.
* `Semver.Bound`: the type, with `Semver.Bound.any` and `Semver.Bound.ofVersion`.
* `Semver.Bound.compareVersion` and `Semver.Bound.position`: a bound against a version, and the
  version against the bound.
* `Semver.Bound.tildeEnd?` and `Semver.Bound.caretEnd?`: the upper ends of ranges.
-/

namespace Semver

/-- A **component of a bound**: a number, or the wildcard. -/
inductive Component where
  | wildcard
  | number (n : Number)
  deriving Repr, DecidableEq

/-- The **pre-release of a bound**: a list of identifiers, or the wildcard. -/
inductive PrePattern where
  /-- Any pre-release, and any release too. -/
  | wildcard
  /-- The given identifiers; none of them stands for a release. -/
  | identifiers (ids : PreRelease)
  deriving Repr, DecidableEq

/-- A **bound**: a version some of whose parts may be wildcards. -/
structure Bound where
  major : Component
  minor : Component
  patch : Component
  pre : PrePattern
  deriving Repr, DecidableEq

namespace Bound

/-- The bound that consists of wildcards. -/
def any : Bound :=
  ⟨.wildcard, .wildcard, .wildcard, .wildcard⟩

/-- The bound without wildcards that has the numbers and the pre-release of a version. -/
def ofVersion (v : Version) : Bound :=
  ⟨.number v.major, .number v.minor, .number v.patch, .identifiers v.pre⟩

/-- Whether the first component is a wildcard, so that the bound covers all versions. -/
def isAny (b : Bound) : Bool :=
  b.major == .wildcard

/-- Whether the bound is a pre-release: it lists at least one identifier. -/
def isPreRelease (b : Bound) : Bool :=
  match b.pre with
  | .wildcard => false
  | .identifiers ids => !ids.isEmpty

/-- The bound with the same components and no pre-release. -/
def release (b : Bound) : Bound :=
  { b with pre := .identifiers [] }

end Bound

/-! ### Where a version stands relative to a bound

The comparison goes component by component, and the first wildcard ends it: everything that agrees
with the bound up to there is covered. -/

/-- A component against the number at its place: a wildcard agrees and ends the comparison, a
number decides unless it is the same, and then the later parts do. -/
def Component.compareNumber (c : Component) (n : Number) (later : Ordering) : Ordering :=
  match c with
  | .wildcard => .eq
  | .number m => (compare m n).then later

/-- The pre-release of a bound against that of a version. -/
def PrePattern.comparePre (p : PrePattern) (pre : PreRelease) : Ordering :=
  match p with
  | .wildcard => .eq
  | .identifiers ids => PreRelease.precedence ids pre

namespace Bound

/-- **A bound against a version**: `.lt` for a version above the bound, `.eq` for one that it
covers, `.gt` for one below. -/
def compareVersion (b : Bound) (v : Version) : Ordering :=
  b.major.compareNumber v.major <|
    b.minor.compareNumber v.minor <|
      b.patch.compareNumber v.patch <|
        b.pre.comparePre v.pre

/-- **Where a version stands relative to a bound**: `.lt` for below, `.eq` for covered, `.gt` for
above. -/
def position (b : Bound) (v : Version) : Ordering :=
  (b.compareVersion v).swap

end Bound

/-! ### Upper ends of tilde and caret ranges

A tilde range keeps the major and, if the bound names one, the minor number. A caret range keeps
everything up to the first number that is not zero. The end of such a range is the first release
that breaks the rule: the last number to be kept, plus one, and zeros after it. A range without any
number to keep has no end, and a number that is already the greatest one stays as it is. -/

namespace Version

/-- The first release of the next major number. -/
def nextMajor (major : Number) : Version :=
  { major := major.next }

/-- The first release of the next minor number. -/
def nextMinor (major minor : Number) : Version :=
  { major, minor := minor.next }

/-- The next release with the same major and minor number. -/
def nextPatch (major minor patch : Number) : Version :=
  { major, minor, patch := patch.next }

end Version

namespace Bound

/-- **The upper end of the tilde range of a bound**, which the range excludes. -/
def tildeEnd? (b : Bound) : Option Version :=
  match b.major, b.minor with
  | .wildcard, _ => none
  | .number major, .wildcard => some (.nextMajor major)
  | .number major, .number minor => some (.nextMinor major minor)

/-- **The upper end of the caret range of a bound**, which the range excludes. -/
def caretEnd? (b : Bound) : Option Version :=
  match b.major with
  | .wildcard => none
  | .number major =>
    if 0 < major then some (.nextMajor major)
    else match b.minor with
      | .wildcard => some (.nextMajor major)
      | .number minor =>
        if 0 < minor then some (.nextMinor major minor)
        else match b.patch with
          | .wildcard => some (.nextMinor major minor)
          | .number patch => some (.nextPatch major minor patch)

end Bound

end Semver
