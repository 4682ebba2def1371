import Semver.Bound.Basic
import Semver.Version.Parser

/-!
# Reading a bound

A bound is written like a version, but only its first component is required: what is missing is a
wildcard, and so is an `x`, an `X` or an asterisk in place of a number. A `v` may stand in front.
Build metadata is read and dropped.

A requirement is a row of bounds with operators in front, and nothing needs to separate one from
the next. Where a bound ends is decided by its shape alone, before any number is read.

* `Semver.Component.read`: the component at the front of a text.
* `Semver.Bound.ofChars`: the bound that a text without surrounding blanks denotes.
* `Semver.Bound.parse`: the bound that a text denotes.
* `Semver.Bound.Shape`: the pieces of a bound as they are written.
* `Semver.Bound.Shape.text`: the pieces put together again.
* `Semver.Bound.Shape.scan`: the shape at the front of a text.
-/

namespace Semver

/-! ### The reader -/

namespace Component

/-- The characters that stand for a wildcard. -/
def isWildcardMark (c : Char) : Bool :=
  c == 'x' || c == 'X' || c == '*'

/-- The component at the front of a text: one wildcard mark, or a number. -/
def read : List Char → Except Number.Failure (Component × List Char)
  | [] => .error .missing
  | c :: s =>
    if isWildcardMark c then .ok (.wildcard, s)
    else (Number.read (c :: s)).map fun found => (.number found.1, found.2)

/-- The component after a dot. Where the dot or the component is missing it is a wildcard, and
nothing of the text is used up; a number that is too large is a failure all the same. -/
def readDotted : List Char → Except Number.Failure (Component × List Char)
  | '.' :: s =>
    match read s with
    | .error .missing => .ok (.wildcard, '.' :: s)
    | result => result
  | s => .ok (.wildcard, s)

end Component

namespace Bound

/-- The three components of a bound, with the text that follows them. -/
def readComponents (s : List Char) :
    Except Number.Failure ((Component × Component × Component) × List Char) := do
  let (major, s) ← Component.read s
  let (minor, s) ← Component.readDotted s
  let (patch, s) ← Component.readDotted s
  return ((major, minor, patch), s)

/-- **The bound that a text without surrounding blanks denotes.** A text without a first component
is in error as a whole; after the components, whatever the notation does not use up is. -/
def ofChars (s : List Char) : Except ParseError Bound :=
  match readComponents (Text.skipMark 'v' s) with
  | .error failure => .error (.ofFailure s failure)
  | .ok ((major, minor, patch), rest) =>
    let (pre, rest) := Identifier.readMarked '-' rest
    let (_, rest) := Identifier.readMarked '+' rest
    if rest.isEmpty then
      .ok ⟨major, minor, patch, .identifiers (pre.map .ofList)⟩
    else .error (.unexpected rest)

/-- **The bound that a text denotes.** -/
def parse (text : String) : Except ParseError Bound :=
  ofChars (Text.trim text.toList)

end Bound

/-! ### The shape of a bound inside a longer text

Each component is as long a run of digits and wildcard marks as there is, and has to be either all
digits or a single mark, and each identifier is as long a word as there is. -/

namespace Component

/-- The characters that a component may consist of. -/
def isTextChar (c : Char) : Bool :=
  c.isDigit || isWildcardMark c

/-- Whether a run of such characters is a component: digits only, or one wildcard mark. -/
def isText (run : List Char) : Bool :=
  match run with
  | [] => false
  | [c] => c.isDigit || isWildcardMark c
  | run => run.all Char.isDigit

/-- The component at the front of a text, as written, with the text that follows it. -/
def scan (s : List Char) : Option (List Char × List Char) :=
  let run := s.takeWhile isTextChar
  if isText run then some (run, s.dropWhile isTextChar) else none

/-- The component after a dot, as written. Where the dot or the component is missing there is none,
and nothing of the text is used up. -/
def scanDotted : List Char → Option (List Char) × List Char
  | '.' :: s =>
    match scan s with
    | some (run, rest) => (some run, rest)
    | none => (none, '.' :: s)
  | s => (none, s)

/-- Scanning a component loses nothing of the text. -/
theorem append_of_scan {s run rest : List Char} (h : scan s = some (run, rest)) :
    run ++ rest = s := by
  simp only [scan] at h
  split at h
  · obtain ⟨rfl, rfl⟩ := Prod.mk.inj (Option.some.inj h)
    exact List.takeWhile_append_dropWhile
  · cases h

/-- A component is not empty. -/
theorem ne_nil_of_scan {s run rest : List Char} (h : scan s = some (run, rest)) : run ≠ [] := by
  simp only [scan] at h
  split at h
  next hrun =>
    obtain ⟨rfl, rfl⟩ := Prod.mk.inj (Option.some.inj h)
    intro hnil
    rw [hnil] at hrun
    cases hrun
  · cases h

/-- Scanning a component after a dot loses nothing of the text. -/
theorem append_scanDotted (s : List Char) :
    (scanDotted s).1.elim [] ('.' :: ·) ++ (scanDotted s).2 = s := by
  fun_cases scanDotted s with
  | case1 s run rest h => simp [append_of_scan h]
  | case2 s h => rfl
  | case3 s h => rfl

end Component

namespace Bound

/-- The **shape of a bound**: its pieces as they are written, without the marks between them. -/
structure Shape where
  /-- Whether a `v` stands in front. -/
  lead : Bool
  major : List Char
  minor : Option (List Char)
  patch : Option (List Char)
  pre : List (List Char)
  build : List (List Char)
  deriving Repr, DecidableEq

namespace Shape

/-- The components that are written, in order. -/
def components (x : Shape) : List (List Char) :=
  x.major :: (x.minor.toList ++ x.patch.toList)

/-- **The text of a shape**: its pieces with their marks. -/
def text (x : Shape) : List Char :=
  (if x.lead then ['v'] else []) ++ List.intercalate ['.'] x.components ++
    Identifier.joinMarked '-' x.pre ++ Identifier.joinMarked '+' x.build

/-- **The shape at the front of a text**, with the text that follows it. -/
def scan (s : List Char) : Option (Shape × List Char) :=
  match Component.scan (Text.skipMark 'v' s) with
  | none => none
  | some (major, rest) =>
    let (minor, rest) := Component.scanDotted rest
    let (patch, rest) := Component.scanDotted rest
    let (pre, rest) := Identifier.readMarked '-' rest
    let (build, rest) := Identifier.readMarked '+' rest
    some (⟨s.head? == some 'v', major, minor, patch, pre, build⟩, rest)

/-- The text of a shape, part by part. -/
theorem text_eq (x : Shape) :
    x.text = (if x.lead then ['v'] else []) ++ (x.major ++ (x.minor.elim [] ('.' :: ·) ++
      (x.patch.elim [] ('.' :: ·) ++ (Identifier.joinMarked '-' x.pre ++
        Identifier.joinMarked '+' x.build)))) := by
  obtain ⟨lead, major, minor, patch, pre, build⟩ := x
  cases minor <;> cases patch <;>
    simp [text, components, List.intercalate_cons_cons, List.append_assoc]

/-- Scanning a shape loses nothing of the text. -/
theorem text_append_of_scan {s rest : List Char} {x : Shape} (h : scan s = some (x, rest)) :
    x.text ++ rest = s := by
  simp only [scan] at h
  split at h
  · cases h
  next major after hmajor =>
    obtain ⟨rfl, rfl⟩ := Prod.mk.inj (Option.some.inj h)
    simp only [text_eq, List.append_assoc, Identifier.joinMarked_append_readMarked,
      Component.append_scanDotted, Component.append_of_scan hmajor, Text.mark_append_skipMark]

/-- A shape has a first component, so its text is not empty. -/
theorem text_ne_nil_of_scan {s rest : List Char} {x : Shape} (h : scan s = some (x, rest)) :
    x.text ≠ [] := by
  simp only [scan] at h
  split at h
  · cases h
  next major after hmajor =>
    obtain ⟨rfl, rfl⟩ := Prod.mk.inj (Option.some.inj h)
    simp [text_eq, Component.ne_nil_of_scan hmajor]

end Shape

end Bound

end Semver
