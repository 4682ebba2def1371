import Mathlib.Data.List.Forall2
import Mathlib.Data.List.Lex
import Mathlib.Data.Prod.Lex
import Mathlib.Data.String.Basic
import Mathlib.Data.Sum.Order
import Mathlib.Order.WithBot
import Semver.Version.Order

/-!
# Precedence is the order of keys

The precedence of versions is computed by cases: numbers first, then pre-releases, which have a rule
of their own for the empty list and compare identifiers in three different ways. This file assigns
to every version a key in a linear order, put together from the natural numbers and the strings by
lexicographic sums and products, and shows that two versions compare as their keys do. That
precedence is a total preorder then follows from the order of the keys at once, whatever strings the
identifiers are.

* `Semver.Identifier.key`: a number or a text, every number below every text.
* `Semver.PreRelease.key`: the keys of the identifiers, with the key of a release on top.
* `Semver.Version.key`: the numbers and the key of the pre-release.
* `Semver.Version.compare_eq_compare_key`: versions compare as their keys do.
* `Semver.Version.compare_eq_eq_iff`: the versions of the same precedence.
-/

namespace Semver

/-! ### Outcomes of comparisons in linear orders -/

section Outcomes

variable {α β : Type} [LinearOrder α] [LinearOrder β]

theorem compares_iff_eq_compare {o : Ordering} {x y : α} : o.Compares x y ↔ o = compare x y := by
  rw [← cmp_eq_compare]
  exact ⟨fun h => h.cmp_eq.symm, fun h => h ▸ cmp_compares x y⟩

/-- A strictly monotone map preserves the outcome of a comparison. -/
theorem compares_map {f : α → β} (hf : StrictMono f) :
    ∀ {o : Ordering} {x y : α}, o.Compares x y → o.Compares (f x) (f y)
  | .lt, _, _, h => hf h
  | .eq, _, _, h => congrArg f h
  | .gt, _, _, h => hf h

/-- Pairs compare by their first parts, and by their second parts if those are the same. -/
theorem compares_pair {o o' : Ordering} {x y : α} {x' y' : β} (h : o.Compares x y)
    (h' : o'.Compares x' y') : (o.then o').Compares (toLex (x, x')) (toLex (y, y')) := by
  cases o with
  | lt => exact Prod.Lex.toLex_lt_toLex.mpr (.inl h)
  | eq =>
    obtain rfl : x = y := h
    have hpair : StrictMono fun y : β => toLex (x, y) := fun _ _ hlt =>
      Prod.Lex.toLex_lt_toLex.mpr (.inr ⟨rfl, hlt⟩)
    exact compares_map hpair h'
  | gt => exact Prod.Lex.toLex_lt_toLex.mpr (.inl h)

/-- Lists compare by their first elements, and by the rest of them if those are the same. -/
theorem compares_cons {o o' : Ordering} {x y : α} {xs ys : List α} (h : o.Compares x y)
    (h' : o'.Compares xs ys) : (o.then o').Compares (x :: xs) (y :: ys) := by
  cases o with
  | lt => exact List.cons_lt_cons_iff.mpr (.inl h)
  | eq =>
    obtain rfl : x = y := h
    have hcons : StrictMono (List.cons x) := fun _ _ hlt =>
      List.cons_lt_cons_iff.mpr (.inr ⟨rfl, hlt⟩)
    exact compares_map hcons h'
  | gt => exact List.cons_lt_cons_iff.mpr (.inl h)

end Outcomes

/-- Two numbers compare as their values do. -/
theorem Number.compares_toNat (m n : Number) : (compare m n).Compares m.toNat n.toNat :=
  compares_iff_eq_compare.mpr (by
    simp only [compare, compareOfLessAndEq, UInt64.lt_iff_toNat_lt, UInt64.toNat_inj])

/-! ### Identifiers -/

namespace Identifier

/-- The **keys of identifiers**: the numbers, and above them the texts. -/
abbrev Key := ℕ ⊕ₗ String

/-- **The key of an identifier**: its value if it is numeric, else its text. -/
def key (x : Identifier) : Key :=
  match x.number? with
  | some n => Sum.inlₗ n.toNat
  | none => Sum.inrₗ x.text

/-- Identifiers compare as their keys do. -/
theorem compares_key (x y : Identifier) : (compare x y).Compares x.key y.key := by
  cases hx : x.number? with
  | some m =>
    cases hy : y.number? with
    | some n =>
      have h : compare x y = compare m n := by simp only [compare, hx, hy]
      rw [h, key, key, hx, hy]
      exact compares_map Sum.Lex.inl_strictMono (Number.compares_toNat m n)
    | none =>
      have h : compare x y = .lt := by simp only [compare, hx, hy]
      rw [h, key, key, hx, hy]
      exact Sum.Lex.inl_lt_inr m.toNat y.text
  | none =>
    cases hy : y.number? with
    | some n =>
      have h : compare x y = .gt := by simp only [compare, hx, hy]
      rw [h, key, key, hx, hy]
      exact Sum.Lex.inl_lt_inr n.toNat x.text
    | none =>
      have h : compare x y = compare x.text y.text := by simp only [compare, hx, hy]
      rw [h, key, key, hx, hy]
      exact compares_map Sum.Lex.inr_strictMono (compares_iff_eq_compare.mpr rfl)

end Identifier

/-! ### Pre-releases -/

namespace PreRelease

/-- The **keys of pre-releases**: lists of keys of identifiers, a list above its own fronts, and the
key of a release above them all. -/
abbrev Key := WithTop (List Identifier.Key)

/-- **The key of a pre-release.** -/
def key : PreRelease → Key
  | [] => ⊤
  | x :: xs => ((x :: xs).map Identifier.key : List Identifier.Key)

/-- Lists of identifiers compare as the lists of their keys do. -/
theorem compares_map_key (xs ys : List Identifier) :
    (List.compareLex compare xs ys).Compares (xs.map Identifier.key) (ys.map Identifier.key) := by
  induction xs generalizing ys with
  | nil =>
    cases ys with
    | nil => rfl
    | cons y ys => exact List.nil_lt_cons _ _
  | cons x xs ih =>
    cases ys with
    | nil => exact List.nil_lt_cons _ _
    | cons y ys =>
      -- one pair of identifiers decides, or leaves it to the pairs after it
      rw [List.compareLex_cons_cons]
      exact compares_cons (Identifier.compares_key x y) (ih ys)

/-- Pre-releases compare as their keys do. -/
theorem compares_key (p q : PreRelease) : (precedence p q).Compares (key p) (key q) := by
  cases p with
  | nil =>
    cases q with
    | nil => rfl
    | cons y ys => exact WithTop.coe_lt_top _
  | cons x xs =>
    cases q with
    | nil => exact WithTop.coe_lt_top _
    | cons y ys =>
      have htop : StrictMono fun ks : List Identifier.Key => (ks : Key) := WithTop.coe_strictMono
      exact compares_map htop (compares_map_key (x :: xs) (y :: ys))

theorem precedence_eq_compare_key (p q : PreRelease) : precedence p q = compare p.key q.key :=
  compares_iff_eq_compare.mp (compares_key p q)

/-- The outcome for two pre-releases in the other order is the opposite one. -/
theorem precedence_swap (p q : PreRelease) : (precedence p q).swap = precedence q p := by
  rw [precedence_eq_compare_key, precedence_eq_compare_key]
  exact Std.OrientedOrd.eq_swap.symm

/-- Pre-releases are in a total preorder. -/
instance : Std.TransCmp precedence where
  eq_swap {p q} := (precedence_swap q p).symm
  isLE_trans {p q r} hpq hqr := by
    rw [precedence_eq_compare_key] at hpq hqr ⊢
    exact Std.TransOrd.isLE_trans hpq hqr

/-- Two pre-releases have the same key if their identifiers do, one by one. -/
theorem key_eq_key_iff {p q : PreRelease} :
    key p = key q ↔ List.Forall₂ (fun x y => x.key = y.key) p q := by
  have hmap : List.Forall₂ (fun x y : Identifier => x.key = y.key) p q ↔
      p.map Identifier.key = q.map Identifier.key := by
    rw [← List.forall₂_eq_eq_eq, List.forall₂_map_left_iff, List.forall₂_map_right_iff]
  rw [hmap]
  cases p with
  | nil => cases q <;> simp [key]
  | cons x xs =>
    cases q with
    | nil => simp [key]
    | cons y ys => exact WithTop.coe_inj

end PreRelease

/-! ### Versions -/

namespace Version

/-- The **keys of versions**, in lexicographic order. -/
abbrev Key := ℕ ×ₗ ℕ ×ₗ ℕ ×ₗ PreRelease.Key

/-- **The key of a version**; build metadata plays no part in it. -/
def key (v : Version) : Key :=
  toLex (v.major.toNat, toLex (v.minor.toNat, toLex (v.patch.toNat, PreRelease.key v.pre)))

/-- Versions compare as their keys do. -/
theorem compares_key (v w : Version) : (compare v w).Compares v.key w.key :=
  compares_pair (Number.compares_toNat _ _) <|
    compares_pair (Number.compares_toNat _ _) <|
      compares_pair (Number.compares_toNat _ _) (PreRelease.compares_key _ _)

/-- The versions compare the same way as their keys, for the order the keys come with. -/
theorem compare_eq_compare_key (v w : Version) : compare v w = compare v.key w.key :=
  compares_iff_eq_compare.mp (compares_key v w)

/-- Precedence is a preorder on the versions, and a total one. -/
instance : Std.TransOrd Version where
  eq_swap {v w} := by
    rw [compare_eq_compare_key, compare_eq_compare_key]
    exact Std.OrientedOrd.eq_swap
  isLE_trans {u v w} huv hvw := by
    rw [compare_eq_compare_key] at huv hvw ⊢
    exact Std.TransOrd.isLE_trans huv hvw

/-- **The versions of the same precedence**: their numbers are the same, and their pre-releases are
so up to the spelling of numeric identifiers. -/
theorem compare_eq_eq_iff {v w : Version} :
    compare v w = .eq ↔ v.major = w.major ∧ v.minor = w.minor ∧ v.patch = w.patch ∧
      List.Forall₂ (fun x y => x.key = y.key) v.pre w.pre := by
  rw [compare_eq_compare_key, compare_eq_iff_eq, ← PreRelease.key_eq_key_iff,
    ← UInt64.toNat_inj, ← UInt64.toNat_inj, ← UInt64.toNat_inj]
  simp [key]

/-- **Precedence is the total preorder of the keys.** Two versions compare as their keys do, the
outcome for the versions in the other order is the opposite one, not being above is transitive, and
the outcome is equality exactly for versions with the same numbers and the same keys of identifiers.
Build metadata is nowhere asked for, and the identifiers may be any strings. -/
theorem compare_totalPreorder (u v w : Version) :
    compare u v = compare u.key v.key ∧
      compare v u = (compare u v).swap ∧
      (compare u v ≠ .gt → compare v w ≠ .gt → compare u w ≠ .gt) ∧
      (compare u v = .eq ↔ u.major = v.major ∧ u.minor = v.minor ∧ u.patch = v.patch ∧
        List.Forall₂ (fun x y => x.key = y.key) u.pre v.pre) := by
  refine ⟨compare_eq_compare_key u v, Std.OrientedOrd.eq_swap, fun huv hvw => ?_,
    compare_eq_eq_iff⟩
  have hle := Std.TransOrd.isLE_trans (Ordering.ne_gt_iff_isLE.mp huv)
    (Ordering.ne_gt_iff_isLE.mp hvw)
  exact Ordering.ne_gt_iff_isLE.mpr hle

/-- Three pre-releases of one version: the first two differ only in how the identifiers are
spelled, and the third has a text where they have a number. -/
theorem compare_totalPreorder_spellings :
    compare (⟨1, 0, 0, [⟨"01"⟩, ⟨"+5"⟩], []⟩ : Version) ⟨1, 0, 0, [⟨"1"⟩, ⟨"5"⟩], []⟩ = .eq ∧
      compare (⟨1, 0, 0, [⟨"01"⟩, ⟨"+5"⟩], []⟩ : Version) ⟨1, 0, 0, [⟨"1"⟩, ⟨"5a"⟩], []⟩ ≠ .gt := by
  obtain ⟨-, -, htrans, heq⟩ := compare_totalPreorder ⟨1, 0, 0, [⟨"01"⟩, ⟨"+5"⟩], []⟩
    ⟨1, 0, 0, [⟨"1"⟩, ⟨"5"⟩], []⟩ ⟨1, 0, 0, [⟨"1"⟩, ⟨"5a"⟩], []⟩
  have hkeys : List.Forall₂ (fun x y : Identifier => x.key = y.key) [⟨"01"⟩, ⟨"+5"⟩]
      [⟨"1"⟩, ⟨"5"⟩] := .cons rfl (.cons rfl .nil)
  refine ⟨heq.mpr ⟨rfl, rfl, rfl, hkeys⟩, htrans ?_ ?_⟩
  · rw [heq.mpr ⟨rfl, rfl, rfl, hkeys⟩]
    decide
  · decide

end Version

end Semver
