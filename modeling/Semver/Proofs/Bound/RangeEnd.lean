import Semver.Proofs.Bound.Position

/-!
# Where a range ends

A tilde or a caret keeps some of the numbers of its bound and lets the others grow. The end of the
range steps up the last number that is kept and puts zeros after it, so a version with the kept
numbers comes before the end. There is one exception. The greatest number has no successor, and a
range that would have to step it up ends where it stands: at the release with the kept numbers and
zeros after them. Of the versions with the kept numbers only the pre-releases of that release come
before it.

* `Semver.Operator.end?`: the upper end of the range that an operator stands for.
* `Semver.Operator.kept`: the numbers of a bound that a range keeps.
* `Semver.Operator.Stalls`: the last of them is the greatest number.
* `Semver.Operator.CutsShort`: a version with the kept numbers is past the end all the same.
* `Semver.Operator.before_end_iff`: no other version with the kept numbers is.
-/

namespace Semver

open Number (greatest)

/-! ### Rows of numbers -/

namespace Number

/-- The numbers up to the first one that is not zero, which is included. -/
def throughNonzero : List Number → List Number
  | [] => []
  | n :: ns => if 0 < n then [n] else n :: throughNonzero ns

theorem throughNonzero_prefix (ns : List Number) : throughNonzero ns <+: ns := by
  induction ns with
  | nil => exact List.prefix_rfl
  | cons n ns ih =>
    rw [throughNonzero]
    split
    · exact List.prefix_append [n] ns
    · exact (List.prefix_cons_inj n).mpr ih

/-- A number is below the next one, unless it is the greatest. -/
theorem compare_next {n : Number} (h : n ≠ greatest) : compare n n.next = .lt := by
  have hgreatest : greatest = -1 := by decide
  rw [next, if_neg h]
  rw [hgreatest] at h
  exact Std.compare_eq_lt.mpr (UInt64.lt_add_one h)

theorem compareLex_append (front ms ns : List Number) :
    List.compareLex compare (front ++ ms) (front ++ ns) = List.compareLex compare ms ns := by
  induction front with
  | nil => rfl
  | cons n front ih =>
    rw [List.cons_append, List.cons_append, List.compareLex_cons_cons, ih, Std.compare_self,
      Ordering.eq_then]

/-- A row of numbers that are not all zero is above the row of zeros. -/
theorem compareLex_zeros {ns : List Number} (h : ∃ n ∈ ns, n ≠ 0) :
    List.compareLex compare ns (List.replicate ns.length 0) = .gt := by
  induction ns with
  | nil => simp at h
  | cons n ns ih =>
    rw [List.length_cons, List.replicate_succ, List.compareLex_cons_cons]
    by_cases hn : n = 0
    · have hlater : ∃ m ∈ ns, m ≠ 0 := by simpa [hn] using h
      rw [ih hlater, hn]
      rfl
    · have hgt : compare n 0 = .gt := Std.compare_eq_gt.mpr (UInt64.pos_iff_ne_zero.mpr hn)
      rw [hgt, Ordering.gt_then]

theorem compareLex_zeros_self {ns : List Number} (h : ¬∃ n ∈ ns, n ≠ 0) :
    List.compareLex compare ns (List.replicate ns.length 0) = .eq := by
  have hns : ns = List.replicate ns.length 0 :=
    List.eq_replicate_of_mem fun n hn => not_not.mp fun hne => h ⟨n, hn, hne⟩
  rw [← hns]
  exact Std.ReflCmp.compare_self

end Number

/-- Versions compare by their numbers, and by their pre-releases if those are the same. -/
theorem Version.compare_eq_numbers (v w : Version) : compare v w =
    (List.compareLex compare v.numbers w.numbers).then (PreRelease.precedence v.pre w.pre) := by
  have hcompare : compare v w = (compare v.major w.major).then ((compare v.minor w.minor).then
    ((compare v.patch w.patch).then (PreRelease.precedence v.pre w.pre))) := rfl
  rw [hcompare]
  simp only [numbers, List.compareLex_cons_cons, List.compareLex_nil_nil, Ordering.then_assoc,
    Ordering.eq_then]

theorem Version.precedence_release (v : Version) :
    PreRelease.precedence v.pre [] = if v.isPreRelease then .lt else .eq := by
  rw [isPreRelease]
  cases v.pre <;> rfl

namespace Operator

variable {op : Operator} {b : Bound} {v stop : Version}

/-! ### The numbers that a range keeps -/

/-- **The upper end of the range that an operator stands for.** Only tilde and caret stand for a
range, and theirs may still be without an end. -/
def end? (op : Operator) (b : Bound) : Option Version :=
  match op with
  | .tilde => b.tildeEnd?
  | .caret => b.caretEnd?
  | _ => none

/-- **The numbers of a bound that a range keeps**: with a tilde the major and the minor number, with
a caret all up to the first one that is not zero, and never more than the line of the bound. The
other operators stand for no range. -/
def kept (op : Operator) (b : Bound) : List Number :=
  match op with
  | .tilde => b.line.take 2
  | .caret => Number.throughNonzero b.line
  | _ => []

theorem kept_prefix_line (op : Operator) (b : Bound) : op.kept b <+: b.line := by
  cases op with
  | tilde => exact List.take_prefix 2 b.line
  | caret => exact Number.throughNonzero_prefix b.line
  | _ => exact List.nil_prefix

/-- **The end of a range that keeps some numbers**: the last of them is stepped up, and zeros come
after it. -/
def endOf? : List Number → Option Version
  | [m] => some (.nextMajor m)
  | [m, n] => some (.nextMinor m n)
  | [m, n, p] => some (.nextPatch m n p)
  | _ => none

/-- What a range keeps decides where it ends. -/
theorem end?_eq_endOf? (op : Operator) (b : Bound) : op.end? b = endOf? (op.kept b) := by
  obtain ⟨major, minor, patch, pre⟩ := b
  cases op with
  | tilde => cases major <;> cases minor <;> cases patch <;> rfl
  | caret =>
    -- both sides look for the first number that is not zero, and stop at a wildcard
    simp only [end?, kept, Bound.caretEnd?, Bound.line]
    cases major with
    | wildcard => rfl
    | number m =>
      simp only [Component.leading, Number.throughNonzero]
      by_cases hm : 0 < m
      · simp only [if_pos hm, endOf?]
      · simp only [if_neg hm]
        cases minor with
        | wildcard => rfl
        | number n =>
          simp only [Component.leading, Number.throughNonzero]
          by_cases hn : 0 < n
          · simp only [if_pos hn, endOf?]
          · simp only [if_neg hn]
            cases patch with
            | wildcard => rfl
            | number p => simp [Component.leading, Number.throughNonzero, endOf?]
  | _ => rfl

/-- A range that keeps some numbers, no more than a version has, comes to an end. -/
theorem endOf?_eq_none_iff {ns : List Number} (h : ns.length ≤ 3) : endOf? ns = none ↔ ns = [] := by
  match ns, h with
  | [], _ => exact ⟨fun _ => rfl, fun _ => rfl⟩
  | [m], _ => simp [endOf?]
  | [m, n], _ => simp [endOf?]
  | [m, n, p], _ => simp [endOf?]

theorem numbers_of_endOf? {ns : List Number} (h : endOf? ns = some stop) :
    stop.pre = [] ∧ ∃ front last, ns = front ++ [last] ∧
      stop.numbers = front ++ last.next :: List.replicate (3 - ns.length) 0 := by
  match ns, h with
  | [m], h =>
    obtain rfl := Option.some.inj h
    exact ⟨rfl, [], m, rfl, rfl⟩
  | [m, n], h =>
    obtain rfl := Option.some.inj h
    exact ⟨rfl, [m], n, rfl, rfl⟩
  | [m, n, p], h =>
    obtain rfl := Option.some.inj h
    exact ⟨rfl, [m, n], p, rfl, rfl⟩

/-! ### Versions with the kept numbers -/

/-- A range **stalls** if the number that its end would step up is the greatest one. -/
def Stalls (op : Operator) (b : Bound) : Prop :=
  (op.kept b).getLast? = some greatest

/-- **A range is cut short of a version**: it stalls, and the version is a release, or it has a
number after the kept ones that is not zero. -/
def CutsShort (op : Operator) (b : Bound) (v : Version) : Prop :=
  op.Stalls b ∧ (v.isPreRelease = false ∨ ∃ n ∈ v.numbers.drop (op.kept b).length, n ≠ 0)

/-- A version that goes on from the kept numbers lies before the end, unless the last of them is the
greatest number and the rest of the version is not below zeros. -/
theorem lt_end_iff {ns rest : List Number} (h : endOf? ns = some stop)
    (hv : v.numbers = ns ++ rest) : v < stop ↔
      ¬(ns.getLast? = some greatest ∧ (v.isPreRelease = false ∨ ∃ n ∈ rest, n ≠ 0)) := by
  obtain ⟨hpre, front, last, rfl, hstop⟩ := numbers_of_endOf? h
  have hlength : 3 - (front ++ [last]).length = rest.length := by
    have hthree := congrArg List.length hv
    simp only [Version.numbers, List.length_append, List.length_cons, List.length_nil] at hthree ⊢
    omega
  have hcompare : compare v stop = ((compare last last.next).then
      (List.compareLex compare rest (List.replicate rest.length 0))).then
        (PreRelease.precedence v.pre []) := by
    rw [Version.compare_eq_numbers, hv, hstop, hpre, hlength, List.append_assoc,
      List.singleton_append, Number.compareLex_append, List.compareLex_cons_cons]
  change compare v stop = .lt ↔ _
  rw [hcompare, List.getLast?_concat, Version.precedence_release]
  by_cases hlast : last = greatest
  · -- stepping up the greatest number changes nothing, so the rest is compared with zeros
    have hnext : compare greatest greatest.next = .eq := by decide
    rw [hlast, hnext, Ordering.eq_then]
    by_cases hzeros : ∃ n ∈ rest, n ≠ 0
    · simp [Number.compareLex_zeros hzeros, hzeros]
    · simp [Number.compareLex_zeros_self hzeros, hzeros]
  · simp [Number.compare_next hlast, hlast]

/-- **The versions with the kept numbers that lie before the end of a range** are all of them, but
for those that a stalled range is cut short of. -/
theorem before_end_iff (hv : op.kept b <+: v.numbers) :
    (∀ stop ∈ op.end? b, v < stop) ↔ ¬op.CutsShort b v := by
  have hlength : (op.kept b).length ≤ 3 := hv.length_le
  obtain ⟨rest, hrest⟩ := hv
  have hdrop : v.numbers.drop (op.kept b).length = rest := by rw [← hrest, List.drop_left]
  rw [end?_eq_endOf?, CutsShort, Stalls, hdrop]
  cases hend : endOf? (op.kept b) with
  | none =>
    rw [endOf?_eq_none_iff hlength] at hend
    simp [hend]
  | some stop =>
    simp only [Option.mem_some_iff, forall_eq']
    exact lt_end_iff hend hrest.symm

end Operator

end Semver
