import Mathlib
import Semver.Proofs.Bound.RangeEnd
import Semver.Proofs.Requirement.Outcome

/-!
# The pre-releases that a requirement admits

Unless the options ask for more, a pre-release gets past a comparator only on the line of its bound,
and only if the bound is a pre-release itself. The rule is spread over two gates, the operators and
a range end of its own for tilde and caret. This file says what it comes to. A bound without
wildcards admits the pre-releases on its line that stand in the right relation to its own; a bound
with wildcards covers its whole line, so only the operators that hold of what is covered admit
anything.

* `Semver.Operator.relates`: the outcomes of a comparison that an operator asks for.
* `Semver.Comparator.CoversPreRelease`: the rule, for one comparator.
* `Semver.Comparator.admits_iff_coversPreRelease`: the comparator follows the rule.
* `Semver.Requirement.satisfiedBy_preRelease_iff`: what the rule means for a requirement.
* `Semver.Requirement.preRelease_policy`: both of these for what is read from a text.
* `Semver.Operator.accepts`: the operator alone, without any rule about pre-releases.
* `Semver.Comparator.admits_of_faceValue`: what a comparator comes down to where no rule applies.
* `Semver.Comparator.admits_iff_of_onLine`: the same for a version on the line of the bound.
-/

namespace Semver

/-! ### The rule for pre-releases -/

/-- **The outcomes that an operator asks for** when a version is compared with a bound: tilde and
caret ask for no less than the bound. -/
def Operator.relates : Operator → Ordering → Bool
  | .equal, o => o.isEq
  | .greater, o => o.isGT
  | .less, o => o.isLT
  | .greaterEqual, o | .tilde, o | .caret, o => o.isGE
  | .lessEqual, o => o.isLE

namespace Bound

variable {b : Bound} {v : Version}

theorem isPreRelease_iff : b.isPreRelease = true ↔ ∃ ids, b.pre = .identifiers ids ∧ ids ≠ [] := by
  obtain ⟨major, minor, patch, pre⟩ := b
  cases pre <;> simp [isPreRelease]

/-- The pre-releases before the release of a bound are those below its line and, without a wildcard
in the bound, those on it. -/
theorem release_position_isLT (hv : v.isPreRelease = true) :
    (b.release.position v).isLT = true ↔
      b.lineOrder v = .gt ∨ b.lineOrder v = .eq ∧ b.IsConcrete := by
  have hpre : PreRelease.precedence v.pre [] = .lt := by
    cases hids : v.pre with
    | nil => simp [Version.isPreRelease, hids] at hv
    | cons x xs => rfl
  have hline : b.release.lineOrder v = b.lineOrder v := rfl
  have hconcrete : b.release.IsConcrete ↔ b.IsConcrete := Iff.rfl
  by_cases h : b.lineOrder v = .eq
  · rw [position_of_lineOrder_eq rfl (hline.trans h), hpre, if_congr hconcrete rfl rfl, h]
    by_cases hcon : b.IsConcrete <;> simp [hcon]
  · rw [position_of_lineOrder_ne (hline ▸ h), hline]
    cases hcase : b.lineOrder v with
    | lt => simp
    | eq => exact absurd hcase h
    | gt => simp

end Bound

/-- **What an operator on a pre-release bound asks of a pre-release**: to be on the line of the
bound, and there to have the right precedence or, with a wildcard in the bound, just to be
covered. -/
theorem Operator.admits_preRelease_iff (op : Operator) {b : Bound} {v : Version} {ids : PreRelease}
    (hpre : b.pre = .identifiers ids) (hids : ids ≠ []) (hv : v.isPreRelease = true) :
    op.admits b {} v = true ↔ b.lineOrder v = .eq ∧
      if b.IsConcrete then op.relates (PreRelease.precedence v.pre ids) = true
      else op = .equal ∨ op = .greaterEqual ∨ op = .lessEqual := by
  have hb : b.isPreRelease = true := Bound.isPreRelease_iff.mpr ⟨ids, hpre, hids⟩
  -- tilde and caret do not ask for the line, but their range ends where the line does
  have hend : ∀ end? : Option Version, b.withinEnd end? true v = true ↔
      b.lineOrder v = .gt ∨ b.lineOrder v = .eq ∧ b.IsConcrete := fun _ =>
    Bound.release_position_isLT hv
  simp only [admits, hb, hv, Bound.onReleaseLine_eq, Bool.not_false, Bool.and_self, Bool.not_true,
    Bool.false_or]
  by_cases hline : b.lineOrder v = .eq
  · rw [Bound.position_of_lineOrder_eq hpre hline, hline]
    by_cases hcon : b.IsConcrete
    · cases op <;> simp [relates, hend, hline, hcon]
    · cases op <;> simp [hend, hline, hcon]
  · rw [Bound.position_of_lineOrder_ne hline]
    cases hcase : b.lineOrder v with
    | lt => cases op <;> simp [hend, hcase]
    | eq => exact absurd hcase hline
    | gt => cases op <;> simp

namespace Comparator

variable {c : Comparator} {v : Version}

/-- **The rule for pre-releases**: what a comparator has to be like to admit a given one while
pre-releases are not compared like any other version. -/
structure CoversPreRelease (c : Comparator) (v : Version) : Prop where
  isPreRelease : c.bound.isPreRelease = true
  major_ne : c.bound.major ≠ .wildcard
  /-- The numbers of the version are those of the bound up to the first wildcard. -/
  onLine : c.bound.line <+: v.numbers
  /-- With a wildcard all of the line is covered. -/
  ofWildcard : c.bound.minor = .wildcard ∨ c.bound.patch = .wildcard →
    c.operator = .equal ∨ c.operator = .greaterEqual ∨ c.operator = .lessEqual
  /-- Without one the identifiers are compared. -/
  ofConcrete : c.bound.IsConcrete → ∀ ids, c.bound.pre = .identifiers ids →
    c.operator.relates (PreRelease.precedence v.pre ids) = true

/-- For a pre-release the two gates of a comparator ask for a pre-release bound that does not start
with a wildcard. -/
theorem admits_preRelease_iff (hv : v.isPreRelease = true) : c.admits {} v = true ↔
    c.bound.isPreRelease = true ∧ c.bound.major ≠ .wildcard ∧
      c.operator.admits c.bound {} v = true := by
  cases hb : c.bound.isPreRelease <;> simp [admits, hv, hb, Bound.isAny]

/-- **A comparator admits the pre-releases that it covers.** -/
theorem admits_iff_coversPreRelease (hv : v.isPreRelease = true) :
    c.admits {} v = true ↔ c.CoversPreRelease v := by
  rw [admits_preRelease_iff hv]
  constructor
  · rintro ⟨hb, hmajor, hop⟩
    obtain ⟨ids, hpre, hids⟩ := Bound.isPreRelease_iff.mp hb
    obtain ⟨hline, hkind⟩ := (c.operator.admits_preRelease_iff hpre hids hv).mp hop
    refine ⟨hb, hmajor, Bound.lineOrder_eq_eq_iff.mp hline, fun hwild => ?_, ?_⟩
    · rwa [if_neg ((Bound.not_isConcrete_iff hmajor).mpr hwild)] at hkind
    · intro hconcrete ids' hpre'
      obtain rfl : ids = ids' := PrePattern.identifiers.inj (hpre.symm.trans hpre')
      rwa [if_pos hconcrete] at hkind
  · rintro ⟨hb, hmajor, hline, hwild, hconcrete⟩
    obtain ⟨ids, hpre, hids⟩ := Bound.isPreRelease_iff.mp hb
    refine ⟨hb, hmajor, (c.operator.admits_preRelease_iff hpre hids hv).mpr
      ⟨Bound.lineOrder_eq_eq_iff.mpr hline, ?_⟩⟩
    split
    case isTrue hcon => exact hconcrete hcon ids hpre
    case isFalse hcon => exact hwild ((Bound.not_isConcrete_iff hmajor).mp hcon)

end Comparator

namespace Requirement

variable {r : Requirement} {v : Version}

/-- A pre-release satisfies a requirement through a clause of comparators that all cover it. -/
theorem satisfiedBy_preRelease_iff (hr : r.options = {}) (hv : v.isPreRelease = true) :
    r.satisfiedBy v = true ↔
      ∃ clause ∈ r.clauses, ∀ c ∈ clause.comparators, c.CoversPreRelease v := by
  simp only [satisfiedBy, Clause.satisfiedBy, hr, List.any_eq_true, List.all_eq_true,
    Comparator.admits_iff_coversPreRelease hv]

/-- The clauses that a requirement is read with are not empty. -/
theorem comparators_ne_nil_of_parse {text : String} {options : Options}
    (h : parse text options = .ok r) {clause : Clause} (hclause : clause ∈ r.clauses) :
    clause.comparators ≠ [] := by
  obtain ⟨segment, -, hread⟩ :=
    Traversal.exists_of_mem_right (parse_eq_ok_iff.mp h).1 hclause
  exact (Clause.readFrom_of_ofChars hread).ne_nil

/-- **The policy for pre-releases, exactly.** While pre-releases are not compared like any other
version, a comparator admits those that it covers: the ones on the line of a bound that is a
pre-release itself, in the right relation to it. A requirement is then satisfied through a clause,
never an empty one, all of whose comparators are of this kind. -/
theorem preRelease_policy (v : Version) (hv : v.isPreRelease = true) :
    (∀ c : Comparator, c.admits {} v = true ↔ c.CoversPreRelease v) ∧
      (∀ r : Requirement, r.options = {} → (r.satisfiedBy v = true ↔
        ∃ clause ∈ r.clauses, ∀ c ∈ clause.comparators, c.CoversPreRelease v)) ∧
      ∀ text r, parse text {} = .ok r → r.satisfiedBy v = true →
        ∃ clause ∈ r.clauses, clause.comparators ≠ [] ∧
          ∀ c ∈ clause.comparators, c.CoversPreRelease v := by
  refine ⟨fun c => Comparator.admits_iff_coversPreRelease hv,
    fun r hr => satisfiedBy_preRelease_iff hr hv, fun text r hparse hsat => ?_⟩
  obtain ⟨clause, hclause, hcovers⟩ :=
    (satisfiedBy_preRelease_iff (parse_eq_ok_iff.mp hparse).2 hv).mp hsat
  exact ⟨clause, hclause, comparators_ne_nil_of_parse hparse hclause, hcovers⟩

/-- A pre-release between two bounds of its own line; the other alternative covers none. -/
theorem preRelease_policy_between :
    ∃ r, parse ">=1.2.3-alpha <1.2.3-rc || 2.x" {} = .ok r ∧
      ∃ clause ∈ r.clauses, clause.comparators ≠ [] ∧
        ∀ c ∈ clause.comparators, c.CoversPreRelease ⟨1, 2, 3, [⟨"beta"⟩], []⟩ := by
  have hparse : parse ">=1.2.3-alpha <1.2.3-rc || 2.x" {} = .ok
      ⟨[⟨[⟨.greaterEqual, ⟨.number 1, .number 2, .number 3, .identifiers [⟨"alpha"⟩]⟩,
            ">=1.2.3-alpha"⟩,
          ⟨.less, ⟨.number 1, .number 2, .number 3, .identifiers [⟨"rc"⟩]⟩, "<1.2.3-rc"⟩]⟩,
        ⟨[⟨.equal, ⟨.number 2, .wildcard, .wildcard, .identifiers []⟩, "2.x"⟩]⟩], {}⟩ := by cbv
  exact ⟨_, hparse, (preRelease_policy ⟨1, 2, 3, [⟨"beta"⟩], []⟩ (by cbv)).2.2 _ _ hparse (by cbv)⟩

end Requirement

/-! ### Versions compared at face value

The rules about pre-releases stand in the way of a pre-release only, and only while the options do
not ask for it to be compared like any other version. Where they do not, a comparator is no more
than its operator: it asks for the right outcome of the comparison with its bound and, if it stands
for a range, for a version before the end of that. One rule is left, by which a bound that is a
pre-release of anything admits nothing. -/

/-- A version is compared **at face value** if the options ask for that, or if it is a release. -/
def FaceValue (options : Options) (v : Version) : Prop :=
  options.includePreRelease = true ∨ v.isPreRelease = false

namespace Operator

/-- **Whether an operator on a bound accepts a version** at face value: the comparison comes out
right, and the version lies before the end of the range, if there is one. -/
def accepts (op : Operator) (b : Bound) (v : Version) : Bool :=
  op.relates (b.position v) && b.withinEnd (op.end? b) false v

theorem accepts_iff {op : Operator} {b : Bound} {v : Version} : op.accepts b v = true ↔
    op.relates (b.position v) = true ∧ ∀ stop ∈ op.end? b, v < stop := by
  have hend : b.withinEnd (op.end? b) false v = true ↔ ∀ stop ∈ op.end? b, v < stop := by
    cases op.end? b <;> simp [Bound.withinEnd]
  rw [accepts, Bool.and_eq_true, hend]

/-- An operator that is not bound to the release line is left to itself. -/
theorem admits_eq_accepts (op : Operator) {b : Bound} {options : Options} {v : Version}
    (h : (!options.includePreRelease && b.isPreRelease && v.isPreRelease) = false) :
    op.admits b options v = op.accepts b v := by
  cases op <;> simp [admits, accepts, h, relates, end?, Bound.withinEnd]

end Operator

namespace Comparator

variable {c : Comparator} {options : Options} {v : Version}

/-- **At face value a comparator is its operator**, but for bounds that are a pre-release of
anything. -/
theorem admits_of_faceValue (h : FaceValue options v) : c.admits options v =
    (!(c.bound.isPreRelease && c.bound.isAny) && c.operator.accepts c.bound v) := by
  have hgate : (!options.includePreRelease && v.isPreRelease) = false := by
    rcases h with h | h <;> simp [h]
  have hline : (!options.includePreRelease && c.bound.isPreRelease && v.isPreRelease) = false := by
    rcases h with h | h <;> simp [h]
  rw [admits, hgate, c.operator.admits_eq_accepts hline]
  cases c.bound.isPreRelease && c.bound.isAny <;> simp

/-- **On the line of its bound** a comparator admits at face value what is in the right relation to
the bound, unless its range is cut short of the version. -/
theorem admits_iff_of_onLine (h : FaceValue options v) (hmajor : c.bound.major ≠ .wildcard)
    (hline : c.bound.line <+: v.numbers) : c.admits options v = true ↔
      c.operator.relates (c.bound.position v) = true ∧ ¬c.operator.CutsShort c.bound v := by
  have hany : c.bound.isAny = false := by simp [Bound.isAny, hmajor]
  have hkept : c.operator.kept c.bound <+: v.numbers :=
    (c.operator.kept_prefix_line c.bound).trans hline
  rw [admits_of_faceValue h, hany, Bool.and_false, Bool.not_false, Bool.true_and,
    Operator.accepts_iff, Operator.before_end_iff hkept]

end Comparator

end Semver
