import Mathlib
import Semver.Proofs.Bound.RangeEnd
import Semver.Proofs.Version.Display

/-!
# Numeric identifiers of any length

By the rule of precedence an identifier of digits is a number, however many digits it has: numbers
compare by value, they are below every other identifier, and only the others compare as texts. The
comparison of identifiers holds numbers in 64 bits and takes an identifier whose value does not fit
for a text. That is of no account against a number that fits, which is below it either way. But two
such identifiers, or one of them and an identifier that is no number, are ordered by their
characters, and that may be the wrong way round: `99999999999999999999` comes out above
`100000000000000000000`, and above `-`.

* `Semver.Identifier.precedence`: the rule for two identifiers.
* `Semver.Identifier.Misread`: two identifiers that are ordered as texts against the rule.
* `Semver.Identifier.compare_eq_precedence_iff`: all others compare by the rule.
* `Semver.PreRelease.DecidedAt`: the first pair of identifiers that differ by the rule.
* `Semver.Version.compare_preReleases`: this pair decides between two pre-releases of the same
  numbers, unless a pair up to it is misread.
-/

namespace Semver

/-! ### Lists compared element by element -/

section Lists

variable {α : Type} {cmp : α → α → Ordering} {xs ys : List α} {x y : α} {i : ℕ}

/-- **The first pair that differs decides** between two lists. -/
theorem compareLex_of_first_ne (hx : xs[i]? = some x) (hy : ys[i]? = some y)
    (hbefore : ∀ j < i, ∀ x ∈ xs[j]?, ∀ y ∈ ys[j]?, cmp x y = .eq) (hne : cmp x y ≠ .eq) :
    List.compareLex cmp xs ys = cmp x y := by
  induction xs generalizing ys i with
  | nil => simp at hx
  | cons x' xs ih =>
    cases ys with
    | nil => simp at hy
    | cons y' ys =>
      rw [List.compareLex_cons_cons]
      cases i with
      | zero =>
        obtain rfl : x' = x := Option.some.inj hx
        obtain rfl : y' = y := Option.some.inj hy
        cases h : cmp x' y' with
        | eq => exact absurd h hne
        | lt => rfl
        | gt => rfl
      | succ i =>
        have hhead : cmp x' y' = .eq := hbefore 0 (Nat.succ_pos i) x' rfl y' rfl
        rw [hhead, Ordering.eq_then]
        exact ih hx hy fun j hj => hbefore (j + 1) (Nat.succ_lt_succ hj)

/-- Without such a pair the shorter list comes first. -/
theorem compareLex_of_forall_eq (h : ∀ j : ℕ, ∀ x ∈ xs[j]?, ∀ y ∈ ys[j]?, cmp x y = .eq) :
    List.compareLex cmp xs ys = compare xs.length ys.length := by
  induction xs generalizing ys with
  | nil => cases ys <;> rfl
  | cons x xs ih =>
    cases ys with
    | nil => rfl
    | cons y ys =>
      have hhead : cmp x y = .eq := h 0 x rfl y rfl
      rw [List.compareLex_cons_cons, hhead, Ordering.eq_then, ih fun j => h (j + 1)]
      simp [compare, compareOfLessAndEq]

end Lists

namespace Identifier

open Number (ofDigits? ofNat?)

variable {x y : Identifier}

/-! ### The rule of precedence -/

/-- **A numeric identifier**: digits, of one at least. -/
def IsNumeric (x : Identifier) : Prop :=
  x.text.toList ≠ [] ∧ ∀ c ∈ x.text.toList, c.isDigit = true

instance (x : Identifier) : Decidable x.IsNumeric :=
  inferInstanceAs (Decidable (_ ∧ _))

/-- The value of the digits of a numeric identifier. -/
def value (x : Identifier) : ℕ :=
  Nat.ofDigitChars 10 x.text.toList 0

/-- **The precedence of two identifiers**: numbers by their values, numbers before everything else,
and the rest by their texts. -/
def precedence (x y : Identifier) : Ordering :=
  if x.IsNumeric then if y.IsNumeric then compare x.value y.value else .lt
  else if y.IsNumeric then .gt else compare x.text y.text

/-- **A number that fits** into 64 bits. -/
def Fits (x : Identifier) : Prop :=
  x.IsNumeric ∧ x.value < UInt64.size

/-- **Two identifiers are misread** if neither is a number that fits, so that they are taken for
texts, and their texts are not in the order that the rule asks for. -/
structure Misread (x y : Identifier) : Prop where
  left : ¬x.Fits
  right : ¬y.Fits
  texts : compare x.text y.text ≠ x.precedence y

theorem precedence_self (x : Identifier) : x.precedence x = .eq := by
  rw [precedence]
  split <;> exact Std.compare_self

/-! ### What the comparison takes for a number -/

/-- A word starts with no plus sign. -/
theorem unsigned_of_isWord {w : List Char} (hw : IsWord w) : unsigned w = w := by
  unfold unsigned
  split
  next rest => exact absurd (hw.2 '+' (by simp)) (by decide)
  · rfl

/-- A word is taken for a number if it is one that fits. -/
theorem number?_of_isWord (hx : IsWord x.text.toList) :
    x.number? = if x.IsNumeric then ofNat? x.value else none := by
  have hnumeric : (!x.text.toList.all Char.isDigit) = true ↔ ¬x.IsNumeric := by
    simp [IsNumeric, hx.1]
  have hempty : x.text.toList.isEmpty = false := by simpa using hx.1
  simp only [number?, unsigned_of_isWord hx, hempty, Bool.false_or, hnumeric, ite_not]
  rfl

theorem exists_number?_of_fits (hx : IsWord x.text.toList) (h : x.Fits) :
    ∃ n, x.number? = some n ∧ n.toNat = x.value := by
  refine ⟨UInt64.ofNatLT x.value h.2, ?_, UInt64.toNat_ofNatLT ..⟩
  rw [number?_of_isWord hx, if_pos h.1, ofNat?, dif_pos h.2]

theorem number?_of_not_fits (hx : IsWord x.text.toList) (h : ¬x.Fits) : x.number? = none := by
  rw [number?_of_isWord hx]
  split
  next hnumeric => exact dif_neg fun hvalue => h ⟨hnumeric, hvalue⟩
  · rfl

/-- Words neither of which is a number that fits are ordered as texts. -/
theorem compare_of_not_fits (hx : IsWord x.text.toList) (hy : IsWord y.text.toList)
    (hx' : ¬x.Fits) (hy' : ¬y.Fits) : compare x y = compare x.text y.text := by
  simp only [compare, number?_of_not_fits hx hx', number?_of_not_fits hy hy']

/-- **If one of two words is a number that fits, they are compared by the rule.** -/
theorem compare_of_fits (hx : IsWord x.text.toList) (hy : IsWord y.text.toList)
    (h : x.Fits ∨ y.Fits) : compare x y = x.precedence y := by
  by_cases hx' : x.Fits
  · obtain ⟨m, hm, hmx⟩ := exists_number?_of_fits hx hx'
    by_cases hy' : y.Fits
    · obtain ⟨n, hn, hny⟩ := exists_number?_of_fits hy hy'
      have hcompare : compare x y = compare m n := by simp only [compare, hm, hn]
      rw [hcompare, compares_iff_eq_compare.mp (Number.compares_toNat m n), hmx, hny, precedence,
        if_pos hx'.1, if_pos hy'.1]
    · have hcompare : compare x y = .lt := by
        simp only [compare, hm, number?_of_not_fits hy hy']
      rw [hcompare, precedence, if_pos hx'.1]
      split
      next hnumeric =>
        -- the value that does not fit is the greater one
        have hvalue : UInt64.size ≤ y.value := not_lt.mp fun hlt => hy' ⟨hnumeric, hlt⟩
        exact (Nat.compare_eq_lt.mpr (hx'.2.trans_le hvalue)).symm
      · rfl
  · have hy' : y.Fits := h.resolve_left hx'
    obtain ⟨n, hn, hny⟩ := exists_number?_of_fits hy hy'
    have hcompare : compare x y = .gt := by
      simp only [compare, hn, number?_of_not_fits hx hx']
    rw [hcompare, precedence, if_pos hy'.1, if_pos hy'.1]
    split
    next hnumeric =>
      have hvalue : UInt64.size ≤ x.value := not_lt.mp fun hlt => hx' ⟨hnumeric, hlt⟩
      exact (Nat.compare_eq_gt.mpr (hy'.2.trans_le hvalue)).symm
    · rfl

/-- **Two words are compared by the rule exactly if they are not misread.** -/
theorem compare_eq_precedence_iff (hx : IsWord x.text.toList) (hy : IsWord y.text.toList) :
    compare x y = x.precedence y ↔ ¬Misread x y := by
  by_cases h : x.Fits ∨ y.Fits
  · simp only [compare_of_fits hx hy h, true_iff]
    exact fun hmisread => h.elim hmisread.left hmisread.right
  · obtain ⟨hx', hy'⟩ := not_or.mp h
    rw [compare_of_not_fits hx hy hx' hy']
    exact ⟨fun heq hmisread => hmisread.texts heq, fun hread =>
      by_contra fun hne => hread ⟨hx', hy', hne⟩⟩

end Identifier

/-! ### Pre-releases -/

namespace PreRelease

open Identifier (IsWord Misread)

variable {p q : PreRelease} {i : ℕ} {x y : Identifier}

/-- **Two pre-releases are decided at an index** if both have an identifier there, and these differ
in precedence, while the identifiers at each lower index do not. -/
structure DecidedAt (p q : PreRelease) (i : ℕ) (x y : Identifier) : Prop where
  left : p[i]? = some x
  right : q[i]? = some y
  before : ∀ j < i, ∀ x ∈ p[j]?, ∀ y ∈ q[j]?, x.precedence y = .eq
  ne_eq : x.precedence y ≠ .eq

/-- Pre-releases that are decided nowhere have the same precedence as far as both go. -/
theorem precedence_eq_of_forall_not_decidedAt (h : ∀ i x y, ¬DecidedAt p q i x y) (j : ℕ) :
    ∀ x ∈ p[j]?, ∀ y ∈ q[j]?, x.precedence y = .eq := by
  induction j using Nat.strong_induction_on with
  | h j ih =>
    intro x hx y hy
    by_contra hne
    exact h j x y ⟨hx, hy, ih, hne⟩

section Words

variable (hp : ∀ x ∈ p, IsWord x.text.toList) (hq : ∀ y ∈ q, IsWord y.text.toList)

include hp hq

/-- Identifiers at the same index that are not misread are compared by the rule. -/
theorem compare_eq_precedence_of_getElem? (hx : p[i]? = some x) (hy : q[i]? = some y)
    (hread : ¬Misread x y) : compare x y = x.precedence y :=
  (Identifier.compare_eq_precedence_iff (hp x (List.mem_of_getElem? hx))
    (hq y (List.mem_of_getElem? hy))).mpr hread

/-- **The rule decides** at the first pair that differs, unless a pair up to it is misread. -/
theorem compareLex_of_decidedAt (h : DecidedAt p q i x y)
    (hread : ∀ j ≤ i, ∀ x ∈ p[j]?, ∀ y ∈ q[j]?, ¬Misread x y) :
    List.compareLex compare p q = x.precedence y := by
  have hcompare := compare_eq_precedence_of_getElem? hp hq h.left h.right
    (hread i le_rfl x h.left y h.right)
  rw [← hcompare]
  refine compareLex_of_first_ne h.left h.right (fun j hj x hx y hy => ?_) (hcompare ▸ h.ne_eq)
  rw [compare_eq_precedence_of_getElem? hp hq hx hy (hread j hj.le x hx y hy)]
  exact h.before j hj x hx y hy

/-- Where it decides nowhere, and no pair is misread, the shorter pre-release comes first. -/
theorem compareLex_of_forall_not_decidedAt (h : ∀ i x y, ¬DecidedAt p q i x y)
    (hread : ∀ j : ℕ, ∀ x ∈ p[j]?, ∀ y ∈ q[j]?, ¬Misread x y) :
    List.compareLex compare p q = compare p.length q.length := by
  refine compareLex_of_forall_eq fun j x hx y hy => ?_
  rw [compare_eq_precedence_of_getElem? hp hq hx hy (hread j x hx y hy)]
  exact precedence_eq_of_forall_not_decidedAt h j x hx y hy

/-- **The first pair that is misread decides as texts**, if the pairs before it are alike. -/
theorem compareLex_of_misread (hx : p[i]? = some x) (hy : q[i]? = some y)
    (hbefore : ∀ j < i, ∀ x ∈ p[j]?, ∀ y ∈ q[j]?, x.precedence y = .eq ∧ ¬Misread x y)
    (h : Misread x y) : List.compareLex compare p q = compare x.text y.text := by
  have hcompare := Identifier.compare_of_not_fits (hp x (List.mem_of_getElem? hx))
    (hq y (List.mem_of_getElem? hy)) h.left h.right
  rw [← hcompare]
  refine compareLex_of_first_ne hx hy (fun j hj x hx y hy => ?_) fun heq => h.texts ?_
  · obtain ⟨heq, hread⟩ := hbefore j hj x hx y hy
    rw [compare_eq_precedence_of_getElem? hp hq hx hy hread, heq]
  · -- identifiers with the same text would not differ by the rule
    rw [hcompare] at heq
    have htext : x.text = y.text := Std.LawfulEqCmp.eq_of_compare heq
    obtain rfl : x = y := by
      cases x
      cases y
      rw [Identifier.mk.injEq]
      exact htext
    rw [Identifier.precedence_self, heq]

end Words

end PreRelease

/-! ### Versions -/

namespace Version

open Identifier (Misread)
open PreRelease (DecidedAt)

theorem compare_eq_compareLex_pre {a b : Version} (hnumbers : a.numbers = b.numbers)
    (ha : a.isPreRelease = true) (hb : b.isPreRelease = true) :
    compare a b = List.compareLex compare a.pre b.pre := by
  have hself : List.compareLex compare b.numbers b.numbers = .eq := Std.ReflCmp.compare_self
  rw [compare_eq_numbers, hnumbers, hself, Ordering.eq_then]
  cases ha' : a.pre with
  | nil => simp [isPreRelease, ha'] at ha
  | cons x xs =>
    cases hb' : b.pre with
    | nil => simp [isPreRelease, hb'] at hb
    | cons y ys => rfl

/-- **Two pre-releases of the same numbers are ordered by the rule, as far as it is read right.**
Let both be read from a text. Their first identifiers that differ in precedence decide between them,
however many digits there are, if no pair of identifiers up to these is misread; without such
identifiers, and without a pair that is misread, the one with fewer identifiers comes first. The
first pair that is misread decides by the order of its texts, which is not that of the rule. -/
theorem compare_preReleases (text text' : String) (a b : Version) (ha : parse text = .ok a)
    (hb : parse text' = .ok b) (hnumbers : a.numbers = b.numbers)
    (hpre : a.isPreRelease = true) (hpre' : b.isPreRelease = true) :
    (∀ i x y, DecidedAt a.pre b.pre i x y →
        (∀ j ≤ i, ∀ x ∈ a.pre[j]?, ∀ y ∈ b.pre[j]?, ¬Misread x y) →
        compare a b = x.precedence y) ∧
      ((∀ i x y, ¬DecidedAt a.pre b.pre i x y) →
        (∀ j : ℕ, ∀ x ∈ a.pre[j]?, ∀ y ∈ b.pre[j]?, ¬Misread x y) →
        compare a b = compare a.pre.length b.pre.length) ∧
      ∀ (i : ℕ) (x y : Identifier), a.pre[i]? = some x → b.pre[i]? = some y →
        (∀ j < i, ∀ x ∈ a.pre[j]?, ∀ y ∈ b.pre[j]?, x.precedence y = .eq ∧ ¬Misread x y) →
        Misread x y → compare a b = compare x.text y.text ∧ compare a b ≠ x.precedence y := by
  have hwords : ∀ x ∈ a.pre, Identifier.IsWord x.text.toList := fun x hx =>
    isPrintable_of_ofChars ha x (List.mem_append_left _ hx)
  have hwords' : ∀ y ∈ b.pre, Identifier.IsWord y.text.toList := fun y hy =>
    isPrintable_of_ofChars hb y (List.mem_append_left _ hy)
  rw [compare_eq_compareLex_pre hnumbers hpre hpre']
  refine ⟨fun i x y hdecided hread => ?_, fun hnone hread => ?_, fun i x y hx hy hbefore h => ?_⟩
  · exact PreRelease.compareLex_of_decidedAt hwords hwords' hdecided hread
  · exact PreRelease.compareLex_of_forall_not_decidedAt hwords hwords' hnone hread
  · rw [PreRelease.compareLex_of_misread hwords hwords' hx hy hbefore h]
    exact ⟨rfl, h.texts⟩

/-- The greatest number that fits and the one after it, behind two spellings of the same number. -/
theorem compare_preReleases_past_greatest :
    ∃ a b, parse "1.0.0-01.18446744073709551615" = .ok a ∧
      parse "1.0.0-1.18446744073709551616" = .ok b ∧
      DecidedAt a.pre b.pre 1 ⟨"18446744073709551615"⟩ ⟨"18446744073709551616"⟩ ∧
      compare a b = .lt := by
  have ha : parse "1.0.0-01.18446744073709551615" =
      .ok ⟨1, 0, 0, [⟨"01"⟩, ⟨"18446744073709551615"⟩], []⟩ := by cbv
  have hb : parse "1.0.0-1.18446744073709551616" =
      .ok ⟨1, 0, 0, [⟨"1"⟩, ⟨"18446744073709551616"⟩], []⟩ := by cbv
  have hfirst : Identifier.value ⟨"01"⟩ = 1 := by cbv
  have hfirst' : Identifier.value ⟨"1"⟩ = 1 := by cbv
  have hlast : Identifier.value ⟨"18446744073709551615"⟩ = 18446744073709551615 := by cbv
  have hlast' : Identifier.value ⟨"18446744073709551616"⟩ = 18446744073709551616 := by cbv
  have hprecedence : Identifier.precedence ⟨"18446744073709551615"⟩ ⟨"18446744073709551616"⟩ =
      .lt := by
    simp [Identifier.precedence, Identifier.IsNumeric, hlast, hlast', Nat.compare_eq_lt]
  have hdecided : DecidedAt [⟨"01"⟩, ⟨"18446744073709551615"⟩]
      [⟨"1"⟩, ⟨"18446744073709551616"⟩] 1 ⟨"18446744073709551615"⟩ ⟨"18446744073709551616"⟩ := by
    refine ⟨rfl, rfl, fun j hj x hx y hy => ?_, by rw [hprecedence]; decide⟩
    obtain rfl : j = 0 := Nat.lt_one_iff.mp hj
    obtain rfl : ⟨"01"⟩ = x := Option.some.inj hx
    obtain rfl : ⟨"1"⟩ = y := Option.some.inj hy
    simp [Identifier.precedence, Identifier.IsNumeric, hfirst, hfirst']
  -- both identifiers of the first pre-release are numbers that fit
  have hfits : ∀ x ∈ ([⟨"01"⟩, ⟨"18446744073709551615"⟩] : PreRelease), x.Fits := by
    simp [Identifier.Fits, Identifier.IsNumeric, hfirst, hlast, UInt64.size]
  obtain ⟨hrule, -, -⟩ := compare_preReleases _ _ _ _ ha hb rfl rfl rfl
  refine ⟨_, _, ha, hb, hdecided, (hrule 1 _ _ hdecided ?_).trans hprecedence⟩
  intro j hj x hx y hy hmisread
  exact hmisread.left (hfits x (List.mem_of_getElem? hx))

/-- Two numbers of more than 64 bits, of which the lesser one has the greater text. -/
theorem not_precedence_of_misread :
    ∃ a b, parse "1.0.0-99999999999999999999" = .ok a ∧
      parse "1.0.0-100000000000000000000" = .ok b ∧ a.numbers = b.numbers ∧
      DecidedAt a.pre b.pre 0 ⟨"99999999999999999999"⟩ ⟨"100000000000000000000"⟩ ∧
      Identifier.precedence ⟨"99999999999999999999"⟩ ⟨"100000000000000000000"⟩ = .lt ∧
      compare a b = .gt := by
  have ha : parse "1.0.0-99999999999999999999" =
      .ok ⟨1, 0, 0, [⟨"99999999999999999999"⟩], []⟩ := by cbv
  have hb : parse "1.0.0-100000000000000000000" =
      .ok ⟨1, 0, 0, [⟨"100000000000000000000"⟩], []⟩ := by cbv
  have hx : Identifier.value ⟨"99999999999999999999"⟩ = 99999999999999999999 := by cbv
  have hy : Identifier.value ⟨"100000000000000000000"⟩ = 100000000000000000000 := by cbv
  have hprecedence : Identifier.precedence ⟨"99999999999999999999"⟩ ⟨"100000000000000000000"⟩ =
      .lt := by
    simp [Identifier.precedence, Identifier.IsNumeric, hx, hy, Nat.compare_eq_lt]
  have hcompare : compare (Identifier.mk "99999999999999999999") ⟨"100000000000000000000"⟩ =
      .gt := by
    rw [Identifier.compare_of_not_fits (isPrintable_of_ofChars ha _ (by simp))
      (isPrintable_of_ofChars hb _ (by simp)) (by simp [Identifier.Fits, hx, UInt64.size])
      (by simp [Identifier.Fits, hy, UInt64.size])]
    decide
  refine ⟨_, _, ha, hb, rfl, ⟨rfl, rfl, by simp, by rw [hprecedence]; decide⟩, hprecedence, ?_⟩
  refine (compare_eq_compareLex_pre (by rfl) (by rfl) (by rfl)).trans ?_
  rw [List.compareLex_cons_cons, hcompare]
  rfl

end Version

end Semver
