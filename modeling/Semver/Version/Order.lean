import Semver.Lexical

/-!
# Versions and their precedence

A version has three numbers, a pre-release and build metadata. Its canonical text writes the
numbers between dots, the pre-release after a hyphen and the build metadata after a plus sign.

Versions are ordered by their three numbers and then by their pre-releases. A pre-release is a list
of identifiers; the empty list makes the version a release. A release follows every pre-release with
the same numbers, so the empty list is the greatest one. All others are in lexicographic order: the
first pair of identifiers that differ decides, and a list precedes its own extensions. Build
metadata is left out, so this is a preorder: two versions of the same precedence need not be equal.

* `Semver.PreRelease.precedence`: the order of pre-releases.
* `Semver.Version`: the type, with a default of `0.0.0`.
* `Semver.Version.chars`: the canonical text, as a list of characters.
* `Ord Semver.Version`: the order, from which `<` and `≤` are taken.
* `Semver.Version.samePrecedence`: neither of two versions precedes the other.
* `Semver.Version.sort`: a list of versions in order, those of one precedence left as they were.
-/

namespace Semver

/-! ### Pre-releases -/

/-- The pre-release part of a version; the empty list stands for a release. -/
abbrev PreRelease := List Identifier

namespace PreRelease

/-- **The precedence of two pre-releases**: a release follows every pre-release, and two
pre-releases compare identifier by identifier. -/
def precedence : PreRelease → PreRelease → Ordering
  | [], [] => .eq
  | [], _ :: _ => .gt
  | _ :: _, [] => .lt
  | x :: xs, y :: ys => List.compareLex compare (x :: xs) (y :: ys)

end PreRelease

/-! ### Versions -/

/-- A **version**: three numbers, the identifiers of a pre-release, and build metadata. -/
structure Version where
  major : Number := 0
  minor : Number := 0
  patch : Number := 0
  /-- The pre-release identifiers; none makes the version a release. -/
  pre : PreRelease := []
  /-- The build metadata, which plays no part in any comparison. -/
  build : List Identifier := []
  deriving Repr, DecidableEq

namespace Version

/-- Whether the version is a pre-release. -/
def isPreRelease (v : Version) : Bool :=
  !v.pre.isEmpty

/-- The release with the numbers of the version. -/
def release (v : Version) : Version :=
  { major := v.major, minor := v.minor, patch := v.patch }

/-- **The canonical text of a version.** A part without identifiers leaves no mark. -/
def chars (v : Version) : List Char :=
  v.major.digits ++ '.' :: v.minor.digits ++ '.' :: v.patch.digits ++
    Identifier.joinMarked '-' (Identifier.words v.pre) ++
    Identifier.joinMarked '+' (Identifier.words v.build)

instance : ToString Version where
  toString v := String.ofList v.chars

/-! ### The order of versions -/

/-- **The precedence of two versions**: the first number that differs decides; versions with the
same numbers are in the order of their pre-releases. -/
instance : Ord Version where
  compare v w :=
    (compare v.major w.major).then <|
      (compare v.minor w.minor).then <|
        (compare v.patch w.patch).then <|
          PreRelease.precedence v.pre w.pre

instance : LT Version := ltOfOrd

instance : LE Version := leOfOrd

/-- Whether two versions have the same precedence. -/
def samePrecedence (v w : Version) : Bool :=
  (compare v w).isEq

/-- The versions in order of precedence. Versions of the same precedence keep their order. -/
def sort (versions : List Version) : List Version :=
  versions.mergeSort fun v w => (compare v w).isLE

end Version

end Semver
