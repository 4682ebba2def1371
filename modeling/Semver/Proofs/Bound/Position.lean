import Mathlib.Data.List.Infix
import Semver.Comparator.Basic
import Semver.Proofs.Version.Key

/-!
# Where versions stand relative to a bound

The comparison of a bound with a version has two stages. The numbers of the bound before its first
wildcard, which form its line, are compared with those at the same places of the version. If these
agree and there was no wildcard at all, the pre-releases decide. This file pulls the two stages
apart, so that what a bound does to a version can be said in terms of its line and, for bounds
without wildcards, of the precedence of pre-releases.

Going up in the order of versions, one meets first the versions below a bound, then those that it
covers, then those above it. The comparison with a bound stops at the first wildcard, so this is not
the transitivity of an order: it has to be seen component by component that a greater version never
comes out lower. Two versions of the same precedence come out alike then, and with them everything
that is read off a bound.

* `Semver.Bound.line`: the numbers before the first wildcard.
* `Semver.Bound.lineOrder`: the first stage of the comparison.
* `Semver.Bound.compareVersion_eq_then`: the two stages put together.
* `Semver.Bound.lineOrder_eq_eq_iff`: the first stage is undecided for the versions on the line.
* `Semver.Bound.position_of_lineOrder_eq` and `Semver.Bound.position_of_lineOrder_ne`: where the
  versions on the line and off it stand.
* `Semver.Bound.position_ofVersion`: the bound without wildcards that a version is.
* `Semver.Bound.position_mono`: a greater version does not stand lower.
* `Semver.Bound.position_congr`: versions of the same precedence stand in the same place.
* `Semver.Bound.lt_of_position_lt` and `Semver.Bound.position_eq_of_between`: the blocks follow one
  another, and none of them is interrupted.
* `Semver.Bound.compareVersion_blocks`: comparing with a bound, which extends the order of versions.
-/

namespace Semver

/-! ### The line of a bound -/

/-- The numbers of a version, in order. -/
def Version.numbers (v : Version) : List Number :=
  [v.major, v.minor, v.patch]

/-- The numbers before the first wildcard of a list of components. -/
def Component.leading : List Component → List Number
  | .number n :: components => n :: leading components
  | _ => []

namespace Bound

/-- **The line of a bound**: its numbers before the first wildcard. -/
def line (b : Bound) : List Number :=
  Component.leading [b.major, b.minor, b.patch]

/-- Whether no component of the bound is a wildcard. -/
def IsConcrete (b : Bound) : Prop :=
  b.major ≠ .wildcard ∧ b.minor ≠ .wildcard ∧ b.patch ≠ .wildcard
  deriving Decidable

theorem not_isConcrete_iff {b : Bound} (hmajor : b.major ≠ .wildcard) :
    ¬ b.IsConcrete ↔ b.minor = .wildcard ∨ b.patch = .wildcard := by
  simp only [IsConcrete, hmajor, ne_eq, not_false_eq_true, true_and, not_and_or, not_not]

/-- **The line of a bound against the numbers of a version.** -/
def lineOrder (b : Bound) (v : Version) : Ordering :=
  b.major.compareNumber v.major <|
    b.minor.compareNumber v.minor <|
      b.patch.compareNumber v.patch .eq

variable {b : Bound} {v : Version}

/-- **The two stages of a comparison**: the line of the bound, and then its pre-release if there is
no wildcard. -/
theorem compareVersion_eq_then (b : Bound) (v : Version) :
    b.compareVersion v =
      (b.lineOrder v).then (if b.IsConcrete then b.pre.comparePre v.pre else .eq) := by
  -- both sides end at the first wildcard, so the cases are where that one stands, if anywhere
  obtain ⟨major, minor, patch, pre⟩ := b
  cases major with
  | wildcard => simp [compareVersion, lineOrder, Component.compareNumber, IsConcrete]
  | number m =>
    cases minor with
    | wildcard => simp [compareVersion, lineOrder, Component.compareNumber, IsConcrete]
    | number n =>
      cases patch <;>
        simp [compareVersion, lineOrder, Component.compareNumber, IsConcrete, Ordering.then_assoc]

/-- The line is all there is to compare with a release, if the bound is one too. -/
theorem position_release (b : Bound) (v : Version) :
    b.release.position v.release = (b.lineOrder v).swap := by
  have hline : b.release.lineOrder v.release = b.lineOrder v := rfl
  have hpre : b.release.pre.comparePre v.release.pre = .eq := rfl
  rw [position, compareVersion_eq_then, hline, hpre, ite_self, Ordering.then_eq]

/-- **The versions on the line of a bound** are those that its numbers do not tell apart from it. -/
theorem lineOrder_eq_eq_iff : b.lineOrder v = .eq ↔ b.line <+: v.numbers := by
  obtain ⟨major, minor, patch, pre⟩ := b
  cases major with
  | wildcard => simp [lineOrder, line, Component.leading, Component.compareNumber]
  | number m =>
    cases minor with
    | wildcard =>
      simp [lineOrder, line, Component.leading, Component.compareNumber, Version.numbers]
    | number n =>
      cases patch <;>
        simp [lineOrder, line, Component.leading, Component.compareNumber, Version.numbers,
          Ordering.then_eq_eq]

theorem onReleaseLine_eq (b : Bound) (v : Version) :
    b.onReleaseLine v = (b.lineOrder v).isEq := by
  rw [onReleaseLine, position_release, Ordering.isEq_swap]

/-- A version on the line of a bound stands where its pre-release puts it, and with a wildcard in
the bound it is covered. -/
theorem position_of_lineOrder_eq {ids : PreRelease} (hpre : b.pre = .identifiers ids)
    (hline : b.lineOrder v = .eq) :
    b.position v = if b.IsConcrete then PreRelease.precedence v.pre ids else .eq := by
  rw [position, compareVersion_eq_then, hline, hpre]
  split
  · exact PreRelease.precedence_swap ids v.pre
  · rfl

/-- A version off the line of a bound is on the same side of it for every pre-release. -/
theorem position_of_lineOrder_ne (hline : b.lineOrder v ≠ .eq) :
    b.position v = (b.lineOrder v).swap := by
  rw [position, compareVersion_eq_then]
  cases h : b.lineOrder v with
  | lt => rfl
  | eq => exact absurd h hline
  | gt => rfl

/-- **The bound of a version** stands where the version does: another version is on the side of it
that precedence says. -/
theorem position_ofVersion (u v : Version) : (ofVersion u).position v = compare v u := by
  have hcompare : (ofVersion u).compareVersion v = compare u v := rfl
  rw [position, hcompare]
  exact Std.OrientedOrd.eq_swap.symm

end Bound

/-! ### Outcomes in order

The outcomes of a comparison are in an order themselves, from below through equal to above, and what
is said about a version that does not come out lower is said in that order. -/

section Outcomes

variable {o o' : Ordering}

theorem isLE_compare_lt (o : Ordering) : (compare Ordering.lt o).isLE = true := by
  cases o <;> rfl

theorem isLE_compare_gt (o : Ordering) : (compare o Ordering.gt).isLE = true := by
  cases o <;> rfl

/-- Outcomes neither of which is higher are the same. -/
theorem eq_of_isLE_compare (h : (compare o o').isLE = true) (h' : (compare o' o).isLE = true) :
    o = o' := by
  revert o o'
  decide

/-- The higher of two outcomes is not the lower one. -/
theorem isLE_compare_eq_false (h : compare o o' = .lt) : (compare o' o).isLE = false := by
  revert o o'
  decide

theorem compare_swap_swap (o o' : Ordering) : compare o.swap o'.swap = compare o' o := by
  cases o <;> cases o' <;> rfl

/-- What is compared with the greater of two elements does not come out higher. -/
theorem isLE_compare_of_isLE {α : Type} {cmp : α → α → Ordering} [Std.TransCmp cmp] {x y : α}
    (h : (cmp x y).isLE = true) (a : α) : (compare (cmp a y) (cmp a x)).isLE = true := by
  cases hx : cmp a x with
  | lt =>
    rw [Std.TransCmp.lt_of_lt_of_isLE hx h]
    rfl
  | eq =>
    -- the element takes the place of the lesser one, which is not above the other
    rw [← Std.TransCmp.congr_left hx] at h
    cases hy : cmp a y with
    | lt => rfl
    | eq => rfl
    | gt => simp [hy] at h
  | gt => exact isLE_compare_gt _

end Outcomes

/-! ### The comparison with a bound -/

/-- **One step of the comparison**: a component that is compared with the greater of two numbers
does not come out higher, and where the numbers are the same it is enough that the later parts do
not. -/
theorem Component.isLE_compareNumber (c : Component) {m n : Number} {rest later later' : Ordering}
    (h : ((compare m n).then rest).isLE = true)
    (hlater : rest.isLE = true → (compare later' later).isLE = true) :
    (compare (c.compareNumber n later') (c.compareNumber m later)).isLE = true := by
  cases c with
  | wildcard => rfl
  | number k =>
    simp only [compareNumber]
    rcases Ordering.isLE_then_iff_or.mp h with hlt | ⟨heq, hrest⟩
    · -- the number of the bound is below the greater one or above the lesser one
      cases hm : compare k m with
      | lt =>
        rw [Std.TransCmp.lt_trans hm hlt]
        exact isLE_compare_lt _
      | eq =>
        rw [Std.TransCmp.lt_of_eq_of_lt hm hlt]
        exact isLE_compare_lt _
      | gt => exact isLE_compare_gt _
    · obtain rfl : m = n := Std.LawfulEqCmp.eq_of_compare heq
      cases compare k m with
      | lt => rfl
      | eq => exact hlater hrest
      | gt => rfl

theorem PrePattern.isLE_comparePre (p : PrePattern) {pre pre' : PreRelease}
    (h : (PreRelease.precedence pre pre').isLE = true) :
    (compare (p.comparePre pre') (p.comparePre pre)).isLE = true := by
  cases p with
  | wildcard => rfl
  | identifiers ids => exact isLE_compare_of_isLE h ids

namespace Bound

variable {b : Bound} {u v w : Version}

/-- A bound that is compared with the greater of two versions does not come out higher. -/
theorem isLE_compareVersion (b : Bound) (h : v ≤ w) :
    (compare (b.compareVersion w) (b.compareVersion v)).isLE = true :=
  b.major.isLE_compareNumber h fun hminor =>
    b.minor.isLE_compareNumber hminor fun hpatch =>
      b.patch.isLE_compareNumber hpatch fun hpre => b.pre.isLE_comparePre hpre

/-- **A greater version does not stand lower** relative to a bound: the versions below the bound,
those that it covers and those above it follow one another. -/
theorem position_mono (b : Bound) (h : v ≤ w) :
    (compare (b.position v) (b.position w)).isLE = true := by
  rw [position, position, compare_swap_swap]
  exact b.isLE_compareVersion h

/-- **Versions of the same precedence stand in the same place** relative to a bound. -/
theorem position_congr (b : Bound) (h : compare v w = .eq) : b.position v = b.position w := by
  have hvw : v ≤ w := Ordering.isLE_of_eq_eq h
  have hwv : w ≤ v := Ordering.isLE_of_eq_eq (Std.OrientedCmp.eq_symm h)
  exact eq_of_isLE_compare (b.position_mono hvw) (b.position_mono hwv)

/-! ### The three blocks -/

/-- A version that stands lower relative to some bound precedes the other one. -/
theorem lt_of_position_lt (h : compare (b.position v) (b.position w) = .lt) : v < w := by
  by_contra hvw
  have hwv : w ≤ v := Std.OrientedCmp.isGE_iff_isLE.mp (Ordering.isGE_iff_ne_lt.mpr hvw)
  exact absurd (b.position_mono hwv) (Bool.eq_false_iff.mp (isLE_compare_eq_false h))

/-- A version between two others that stand in the same place stands there too. -/
theorem position_eq_of_between (huv : u ≤ v) (hvw : v ≤ w) (h : b.position u = b.position w) :
    b.position v = b.position u := by
  have hlow := b.position_mono huv
  have hhigh := b.position_mono hvw
  rw [← h] at hhigh
  exact eq_of_isLE_compare hhigh hlow

/-- **Comparing with a bound is monotone and extends the order of versions.** A bound never comes
out higher against the greater of two versions. So the versions below it, those that it covers and
those above it are three blocks of the order: whatever stands lower precedes, and what lies between
two versions of a block belongs to it. Against the bound that a version is, another version comes
out as against that version. -/
theorem compareVersion_blocks (b : Bound) :
    (∀ v w, v ≤ w → (compare (b.compareVersion w) (b.compareVersion v)).isLE = true) ∧
      (∀ v w, compare (b.position v) (b.position w) = .lt → v < w) ∧
      (∀ u v w, u ≤ v → v ≤ w → b.position u = b.position w → b.position v = b.position u) ∧
      ∀ u v, (ofVersion u).compareVersion v = compare u v :=
  ⟨fun _ _ => b.isLE_compareVersion, fun _ _ => lt_of_position_lt,
    fun _ _ _ => position_eq_of_between, fun _ _ => rfl⟩

/-- A bound with a wildcard before its last number: a pre-release above what it covers, two versions
in different blocks, and one between two that it covers; and a release above its own pre-release. -/
theorem compareVersion_blocks_wildcard :
    ∃ b : Bound, b = ⟨.number 1, .wildcard, .number 3, .identifiers [⟨"rc"⟩]⟩ ∧
      (compare (b.compareVersion ⟨2, 0, 0, [⟨"alpha"⟩], []⟩)
        (b.compareVersion ⟨1, 9, 3, [], []⟩)).isLE = true ∧
      (⟨1, 9, 3, [], []⟩ : Version) < ⟨2, 0, 0, [⟨"alpha"⟩], []⟩ ∧
      b.position ⟨1, 0, 0, [], []⟩ = b.position ⟨1, 0, 0, [⟨"alpha"⟩], []⟩ ∧
      (ofVersion ⟨1, 2, 3, [⟨"rc"⟩], []⟩).compareVersion ⟨1, 2, 3, [], []⟩ = .lt := by
  refine ⟨_, rfl, ?_⟩
  obtain ⟨hmono, hlower, hbetween, hextends⟩ :=
    compareVersion_blocks ⟨.number 1, .wildcard, .number 3, .identifiers [⟨"rc"⟩]⟩
  refine ⟨hmono _ _ (by decide), hlower _ _ (by decide), ?_, (hextends _ _).trans (by decide)⟩
  exact hbetween _ _ ⟨1, 9, 3, [], []⟩ (by decide) (by decide) (by decide)

end Bound

end Semver
