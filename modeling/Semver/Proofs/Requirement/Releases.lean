import Semver.Proofs.Requirement.PreRelease

/-!
# Releases in a range

A tilde and a caret are explained by the numbers that they keep: `~1.2.3` is for the releases `1.2`
from that patch on, and `^0.0.3` for that release alone. What is computed knows nothing of this. It
compares a version with the bound and with an upper end, and only the end was made from the numbers
that are kept, by stepping up the last of them. The explanation is right because there is no room
between a number and the next one: numbers that are not below the kept ones, and below the same ones
with the last stepped up, are the kept ones. It is right for releases, since a pre-release of the
end is below it. And where the last number cannot be stepped up, the range has no release at all.

* `Semver.Operator.Keeps`: the numbers that a tilde or a caret keeps, told by the parts of the
  bound.
* `Semver.Number.prefix_of_lt_next`: between a row of numbers and the next one.
* `Semver.Operator.accepts_release_iff`: the releases that a range accepts.
* `Semver.Comparator.admits_release_iff`: the same for the comparator, under any options.
-/

namespace Semver

open Number (greatest)

/-! ### Between a row of numbers and the next one -/

namespace Number

theorem le_of_lt_next {m n : Number} (h : m < n.next) : m ≤ n := by
  rw [next] at h
  split at h
  next hgreatest => exact hgreatest ▸ UInt64.le_of_lt h
  · rw [UInt64.lt_iff_toNat_lt, UInt64.toNat_add, UInt64.toNat_one] at h
    rw [UInt64.le_iff_toNat_le]
    omega

/-- A row of numbers is not above what goes on from it. -/
theorem isLE_compareLex_of_prefix {front ns : List Number} (h : front <+: ns) :
    (List.compareLex compare front ns).isLE = true := by
  obtain ⟨rest, rfl⟩ := h
  have happend := compareLex_append front [] rest
  rw [List.append_nil] at happend
  rw [happend]
  cases rest <;> rfl

/-- **There is nothing between a row of numbers and the next one** but what goes on from the row. -/
theorem prefix_of_lt_next {front ns : List Number} {last : Number} {zeros : ℕ}
    (hlength : ns.length = front.length + 1 + zeros)
    (hfrom : (List.compareLex compare (front ++ [last]) ns).isLE = true)
    (hbelow : List.compareLex compare ns (front ++ last.next :: List.replicate zeros 0) = .lt) :
    front ++ [last] <+: ns := by
  induction front generalizing ns with
  | nil =>
    obtain ⟨n, rest, rfl⟩ : ∃ n rest, ns = n :: rest :=
      List.exists_cons_of_ne_nil (List.ne_nil_of_length_pos (by omega))
    obtain rfl : rest.length = zeros := by simpa [Nat.add_comm] using hlength
    rw [List.nil_append, List.compareLex_cons_cons] at hfrom hbelow
    have hle : last ≤ n := Std.isLE_compare.mp (Ordering.isLE_left_of_isLE_then hfrom)
    have hlt : n < last.next := by
      rcases Ordering.then_eq_lt.mp hbelow with hlt | ⟨-, hzeros⟩
      · exact Std.compare_eq_lt.mp hlt
      · -- nothing is below zeros
        by_cases h : ∃ m ∈ rest, m ≠ 0
        · rw [compareLex_zeros h] at hzeros
          cases hzeros
        · rw [compareLex_zeros_self h] at hzeros
          cases hzeros
    obtain rfl : n = last := UInt64.le_antisymm (le_of_lt_next hlt) hle
    exact List.prefix_append [n] rest
  | cons m front ih =>
    obtain ⟨n, rest, rfl⟩ : ∃ n rest, ns = n :: rest :=
      List.exists_cons_of_ne_nil (List.ne_nil_of_length_pos (by omega))
    rw [List.cons_append, List.compareLex_cons_cons] at hfrom hbelow
    -- the first numbers are the same, for neither is below the other
    have hle : m ≤ n := Std.isLE_compare.mp (Ordering.isLE_left_of_isLE_then hfrom)
    have hge : n ≤ m := by
      rcases Ordering.then_eq_lt.mp hbelow with hlt | ⟨heq, -⟩
      · exact UInt64.le_of_lt (Std.compare_eq_lt.mp hlt)
      · exact Std.isLE_compare.mp (Ordering.isLE_of_eq_eq heq)
    obtain rfl : n = m := UInt64.le_antisymm hge hle
    rw [Std.compare_self, Ordering.eq_then] at hfrom hbelow
    have hrest : rest.length = front.length + 1 + zeros := by
      simp only [List.length_cons] at hlength
      omega
    exact (List.prefix_cons_inj n).mpr (ih hrest hfrom hbelow)

end Number

/-! ### What is not below a bound -/

/-- A component that is not above a number is the start of a line that is not above a row, if the
later parts are. -/
theorem Component.isLE_compareLex_leading {c : Component} {n : Number} {later : Ordering}
    {components : List Component} {ns : List Number} (h : (c.compareNumber n later).isLE = true)
    (hlater : later.isLE = true → (List.compareLex compare (leading components) ns).isLE = true) :
    (List.compareLex compare (leading (c :: components)) (n :: ns)).isLE = true := by
  cases c with
  | wildcard => rfl
  | number m =>
    rw [leading, List.compareLex_cons_cons, Ordering.isLE_then_iff_or]
    rcases Ordering.isLE_then_iff_or.mp h with hlt | ⟨heq, hle⟩
    · exact Or.inl hlt
    · exact Or.inr ⟨heq, hlater hle⟩

namespace Bound

variable {b : Bound} {v : Version}

/-- The numbers of a version that is not below a bound are not below the line of the bound. -/
theorem isLE_compareLex_line (h : (b.position v).isGE = true) :
    (List.compareLex compare b.line v.numbers).isLE = true := by
  rw [position, Ordering.isGE_swap, compareVersion_eq_then] at h
  have hline : (b.lineOrder v).isLE = true := Ordering.isLE_left_of_isLE_then h
  exact Component.isLE_compareLex_leading hline fun hminor =>
    Component.isLE_compareLex_leading hminor fun hpatch =>
      Component.isLE_compareLex_leading hpatch fun _ => rfl

/-- Nor are they below the numbers that the line starts with. -/
theorem isLE_compareLex_of_prefix_line {front : List Number} (hfront : front <+: b.line)
    (h : (b.position v).isGE = true) : (List.compareLex compare front v.numbers).isLE = true :=
  Std.TransCmp.isLE_trans (Number.isLE_compareLex_of_prefix hfront) (isLE_compareLex_line h)

end Bound

/-! ### The releases of a range -/

namespace Operator

variable {op : Operator} {b : Bound} {front : List Number} {last : Number} {v : Version}

/-- **The leading part of a bound that a tilde or a caret keeps**: the numbers before the last one
of it, and the last one, which the end of the range steps up. A tilde keeps the minor number, or the
major number if there is no other. A caret keeps the numbers through the first that is not zero, but
none after a wildcard, and if all of them are zero then all. -/
inductive Keeps : Operator → Bound → List Number → Number → Prop
  | tildeMajor {m : Number} {patch : Component} {pre : PrePattern} :
      Keeps .tilde ⟨.number m, .wildcard, patch, pre⟩ [] m
  | tildeMinor {m n : Number} {patch : Component} {pre : PrePattern} :
      Keeps .tilde ⟨.number m, .number n, patch, pre⟩ [m] n
  | caretMajor {m : Number} {minor patch : Component} {pre : PrePattern}
      (h : 0 < m ∨ minor = .wildcard) : Keeps .caret ⟨.number m, minor, patch, pre⟩ [] m
  | caretMinor {n : Number} {patch : Component} {pre : PrePattern}
      (h : 0 < n ∨ patch = .wildcard) :
      Keeps .caret ⟨.number 0, .number n, patch, pre⟩ [0] n
  | caretPatch {p : Number} {pre : PrePattern} :
      Keeps .caret ⟨.number 0, .number 0, .number p, pre⟩ [0, 0] p

/-- A bound that starts with a number has a leading part for a tilde to keep, and one for a
caret. -/
theorem exists_keeps (hop : op = .tilde ∨ op = .caret) (hmajor : b.major ≠ .wildcard) :
    ∃ front last, op.Keeps b front last := by
  obtain ⟨major, minor, patch, pre⟩ := b
  cases major with
  | wildcard => exact absurd rfl hmajor
  | number m =>
    rcases hop with rfl | rfl
    · cases minor with
      | wildcard => exact ⟨_, _, .tildeMajor⟩
      | number n => exact ⟨_, _, .tildeMinor⟩
    · by_cases hm : 0 < m ∨ minor = .wildcard
      · exact ⟨_, _, .caretMajor hm⟩
      · obtain ⟨hzero, hminor⟩ := not_or.mp hm
        obtain rfl : m = 0 := by simpa [UInt64.pos_iff_ne_zero] using hzero
        cases minor with
        | wildcard => exact absurd rfl hminor
        | number n =>
          by_cases hn : 0 < n ∨ patch = .wildcard
          · exact ⟨_, _, .caretMinor hn⟩
          · obtain ⟨hzero, hpatch⟩ := not_or.mp hn
            obtain rfl : n = 0 := by simpa [UInt64.pos_iff_ne_zero] using hzero
            cases patch with
            | wildcard => exact absurd rfl hpatch
            | number p => exact ⟨_, _, .caretPatch⟩

namespace Keeps

/-- These numbers are the ones from which the end of the range is made. -/
theorem kept_eq (h : op.Keeps b front last) : op.kept b = front ++ [last] := by
  cases h with
  | tildeMajor => rfl
  | tildeMinor => rfl
  | caretMajor h =>
    rcases h with h | rfl
    · simp [kept, Bound.line, Component.leading, Number.throughNonzero, h]
    · simp [kept, Bound.line, Component.leading, Number.throughNonzero]
  | caretMinor h =>
    rcases h with h | rfl
    · simp [kept, Bound.line, Component.leading, Number.throughNonzero, h]
    · simp [kept, Bound.line, Component.leading, Number.throughNonzero]
  | caretPatch => simp [kept, Bound.line, Component.leading, Number.throughNonzero]

theorem relates_eq (h : op.Keeps b front last) (o : Ordering) : op.relates o = o.isGE := by
  cases h <;> rfl

theorem exists_end (h : op.Keeps b front last) : ∃ stop, op.end? b = some stop := by
  rw [end?_eq_endOf?, h.kept_eq]
  cases h <;> exact ⟨_, rfl⟩

theorem stalls_iff (h : op.Keeps b front last) : op.Stalls b ↔ last = greatest := by
  rw [Stalls, h.kept_eq, List.getLast?_concat, Option.some.injEq]

end Keeps

/-- A release that is not below a bound, and before the end of a range from it, has the numbers that
the range keeps. -/
theorem kept_prefix_of_lt_end {stop : Version} (hend : op.end? b = some stop)
    (hv : v.isPreRelease = false) (hfrom : (b.position v).isGE = true) (hbelow : v < stop) :
    op.kept b <+: v.numbers := by
  rw [end?_eq_endOf?] at hend
  obtain ⟨hpre, front, last, hkept, hstop⟩ := numbers_of_endOf? hend
  have hline := Bound.isLE_compareLex_of_prefix_line (op.kept_prefix_line b) hfrom
  have hnumbers : List.compareLex compare v.numbers stop.numbers = .lt := by
    have hcompare : compare v stop = .lt := hbelow
    rwa [Version.compare_eq_numbers, hpre, Version.precedence_release, hv,
      if_neg Bool.false_ne_true, Ordering.then_eq] at hcompare
  have hlength : v.numbers.length = front.length + 1 + (3 - (op.kept b).length) := by
    have hthree : v.numbers.length = stop.numbers.length := rfl
    rw [hthree, hstop, List.length_append, List.length_cons, List.length_replicate]
    omega
  rw [hkept] at hline ⊢
  rw [hstop] at hnumbers
  exact Number.prefix_of_lt_next hlength hline hnumbers

/-- **The releases that a range accepts** are those not below its bound that have the numbers it
keeps; there are none if the last of these is the greatest number. -/
theorem accepts_release_iff (h : op.Keeps b front last) (hv : v.isPreRelease = false) :
    op.accepts b v = true ↔
      (b.position v).isGE = true ∧ front ++ [last] <+: v.numbers ∧ last ≠ greatest := by
  rw [accepts_iff, h.relates_eq, ← h.kept_eq, ne_eq, ← h.stalls_iff]
  constructor
  · rintro ⟨hfrom, hbelow⟩
    obtain ⟨stop, hstop⟩ := h.exists_end
    have hprefix := kept_prefix_of_lt_end hstop hv hfrom (hbelow stop hstop)
    -- a range that stalls is cut short of each release with the numbers it keeps
    exact ⟨hfrom, hprefix, fun hstalls => (before_end_iff hprefix).mp hbelow ⟨hstalls, Or.inl hv⟩⟩
  · rintro ⟨hfrom, hprefix, hstalls⟩
    exact ⟨hfrom, (before_end_iff hprefix).mpr fun hcut => hstalls hcut.1⟩

end Operator

namespace Comparator

/-- **The releases that a tilde or a caret admits** are those that are not below the bound and keep
the leading part of it. A bound that starts with a number has such a part; if the last number of it
is the greatest one, which has no successor, then no release is admitted. The options are of no
account. -/
theorem admits_release_iff (op : Operator) (b : Bound) (text : String) (options : Options)
    (hop : op = .tilde ∨ op = .caret) (hmajor : b.major ≠ .wildcard) :
    ∃ front last, op.Keeps b front last ∧ ∀ v : Version, v.isPreRelease = false →
      (last ≠ greatest → ((Comparator.mk op b text).admits options v = true ↔
        (b.position v).isGE = true ∧ front ++ [last] <+: v.numbers)) ∧
      (last = greatest → (Comparator.mk op b text).admits options v = false) := by
  obtain ⟨front, last, hkeeps⟩ := Operator.exists_keeps hop hmajor
  refine ⟨front, last, hkeeps, fun v hv => ?_⟩
  have hany : b.isAny = false := by simp [Bound.isAny, hmajor]
  have hadmits : (Comparator.mk op b text).admits options v = true ↔
      (b.position v).isGE = true ∧ front ++ [last] <+: v.numbers ∧ last ≠ greatest := by
    rw [admits_of_faceValue (Or.inr hv), hany, Bool.and_false, Bool.not_false, Bool.true_and]
    exact Operator.accepts_release_iff hkeeps hv
  refine ⟨fun hlast => ?_, fun hlast => ?_⟩
  · rw [hadmits]
    simp [hlast]
  · rw [Bool.eq_false_iff, ne_eq, hadmits]
    rintro ⟨-, -, hne⟩
    exact hne hlast

/-- A caret that keeps two zeros, with a wildcard behind them. -/
theorem admits_release_iff_zeros :
    (Comparator.mk .caret ⟨.number 0, .number 0, .wildcard, .identifiers []⟩ "^0.0").admits {}
        ⟨0, 0, 7, [], []⟩ = true ∧
      (Comparator.mk .caret ⟨.number 0, .number 0, .wildcard, .identifiers []⟩ "^0.0").admits {}
        ⟨0, 1, 0, [], []⟩ = false := by
  obtain ⟨front, last, hkeeps, hreleases⟩ :=
    admits_release_iff .caret ⟨.number 0, .number 0, .wildcard, .identifiers []⟩ "^0.0" {}
      (Or.inr rfl) (by decide)
  obtain ⟨rfl, rfl⟩ : front = [0] ∧ last = 0 := by
    cases hkeeps with
    | caretMajor h => simp at h
    | caretMinor h => exact ⟨rfl, rfl⟩
  refine ⟨((hreleases _ rfl).1 (by decide)).mpr (by decide), ?_⟩
  rw [Bool.eq_false_iff, ne_eq, (hreleases _ rfl).1 (by decide)]
  decide

end Comparator

end Semver
