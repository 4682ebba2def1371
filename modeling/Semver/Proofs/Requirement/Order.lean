import Semver.Proofs.Bound.Position
import Semver.Proofs.Requirement.Composition
import Semver.Proofs.Requirement.PreRelease

/-!
# Requirements and the order of versions

Whether a version satisfies a requirement depends on its precedence alone. All that a comparator
looks at is the same for two versions of the same precedence, however their numeric identifiers are
spelled and whatever their build metadata. Conversely, two versions of different precedence are told
apart, by equality with one of them.

The comparators of a clause go with the order as well. At face value each of them asks for an
outcome of the comparison with its bound that is in a row of outcomes, and for a version before some
end; both leave no gap between two versions that pass. So the versions that satisfy a clause are an
interval.

* `Semver.Comparator.admits_congr`: versions of the same precedence are admitted alike.
* `Semver.Requirement.samePrecedence_iff_satisfiedBy`: they are the ones that no requirement tells
  apart.
* `Semver.Comparator.admits_between`: a comparator admits what lies between two versions it admits.
* `Semver.Requirement.parse_interval`: so does a requirement without alternatives.
-/

namespace Semver

/-! ### Versions of the same precedence -/

namespace Version

variable {v w : Version}

theorem release_congr (h : compare v w = .eq) : v.release = w.release := by
  obtain ⟨hmajor, hminor, hpatch, -⟩ := compare_eq_eq_iff.mp h
  rw [release, release, hmajor, hminor, hpatch]

theorem isPreRelease_congr (h : compare v w = .eq) : v.isPreRelease = w.isPreRelease := by
  obtain ⟨-, -, -, hpre⟩ := compare_eq_eq_iff.mp h
  have hempty : v.pre = [] ↔ w.pre = [] := by
    rw [← List.length_eq_zero_iff, ← List.length_eq_zero_iff, hpre.length_eq]
  rw [isPreRelease, isPreRelease, Bool.eq_iff_iff]
  simp [hempty]

theorem lt_congr (h : compare v w = .eq) (stop : Version) : v < stop ↔ w < stop := by
  change compare v stop = .lt ↔ compare w stop = .lt
  rw [Std.TransCmp.congr_left h]

theorem samePrecedence_eq_true_iff : v.samePrecedence w = true ↔ compare v w = .eq :=
  Ordering.isEq_iff_eq_eq

end Version

namespace Bound

variable {v w : Version}

theorem onReleaseLine_congr (b : Bound) (h : compare v w = .eq) :
    b.onReleaseLine v = b.onReleaseLine w := by
  rw [onReleaseLine, onReleaseLine, Version.release_congr h]

theorem withinEnd_congr (b : Bound) (end? : Option Version) (lineOnly : Bool)
    (h : compare v w = .eq) : b.withinEnd end? lineOnly v = b.withinEnd end? lineOnly w := by
  cases end? <;> simp only [withinEnd, b.release.position_congr h, Version.lt_congr h]

end Bound

/-- **A comparator admits versions of the same precedence alike**: each thing that it looks at is
the same for both. -/
theorem Comparator.admits_congr (c : Comparator) (options : Options) {v w : Version}
    (h : compare v w = .eq) : c.admits options v = c.admits options w := by
  have hop : c.operator.admits c.bound options v = c.operator.admits c.bound options w := by
    simp only [Operator.admits, Version.isPreRelease_congr h, c.bound.position_congr h,
      c.bound.onReleaseLine_congr h, c.bound.withinEnd_congr _ _ h]
  rw [admits, admits, hop, Version.isPreRelease_congr h]

/-- **Equality with the bound of a version admits the versions of its precedence**, whatever the
options: those that are pre-releases have a bound that is one, and no line to keep to. -/
theorem Comparator.admits_equal_ofVersion (u v : Version) (text : String) (options : Options) :
    (Comparator.mk .equal (.ofVersion u) text).admits options v = v.samePrecedence u := by
  have hpre : (Bound.ofVersion u).isPreRelease = u.isPreRelease := rfl
  have hany : (Bound.ofVersion u).isAny = false := rfl
  have hop : Operator.equal.admits (.ofVersion u) options v = v.samePrecedence u := by
    rw [Operator.admits, Bound.position_ofVersion]
    rfl
  rw [admits, hpre, hany, hop, Bool.and_false]
  split
  next hgate =>
    -- a pre-release does not have the precedence of a release
    obtain ⟨⟨-, hv⟩, hu⟩ : (options.includePreRelease = false ∧ v.isPreRelease = true) ∧
        u.isPreRelease = false := by simpa using hgate
    refine (Bool.eq_false_iff.mpr fun h => ?_).symm
    rw [Version.isPreRelease_congr (Version.samePrecedence_eq_true_iff.mp h), hu] at hv
    cases hv
  · rfl

namespace Requirement

theorem satisfiedBy_congr (r : Requirement) {v w : Version} (h : compare v w = .eq) :
    r.satisfiedBy v = r.satisfiedBy w := by
  simp only [satisfiedBy, Clause.satisfiedBy, Comparator.admits_congr _ _ h]

theorem satisfiedBy_singleton (c : Comparator) (options : Options) (v : Version) :
    satisfiedBy ⟨[⟨[c]⟩], options⟩ v = c.admits options v := by
  simp [satisfiedBy, Clause.satisfiedBy]

/-- **Versions of the same precedence are those that no requirement tells apart**, whatever its
comparators and its options. -/
theorem samePrecedence_iff_satisfiedBy (v w : Version) :
    v.samePrecedence w = true ↔ ∀ r : Requirement, r.satisfiedBy v = r.satisfiedBy w := by
  rw [Version.samePrecedence_eq_true_iff]
  constructor
  · intro h r
    exact r.satisfiedBy_congr h
  · intro h
    -- equality with the second version is satisfied by itself, so by the first one too
    have hequal := h ⟨[⟨[⟨.equal, .ofVersion w, ""⟩]⟩], { includePreRelease := true }⟩
    simp only [satisfiedBy_singleton, Comparator.admits_equal_ofVersion] at hequal
    have hself : w.samePrecedence w = true :=
      Version.samePrecedence_eq_true_iff.mpr Std.compare_self
    exact Version.samePrecedence_eq_true_iff.mp (hequal.trans hself)

end Requirement

/-! ### Intervals -/

namespace Operator

/-- The outcomes that an operator asks for leave no gap. -/
theorem relates_between (op : Operator) {o o' o'' : Ordering} (h : (compare o o').isLE = true)
    (h' : (compare o' o'').isLE = true) (ho : op.relates o = true) (ho'' : op.relates o'' = true) :
    op.relates o' = true := by
  revert o o' o''
  cases op <;> decide

/-- At face value an operator accepts what lies between two versions that it accepts. -/
theorem accepts_between (op : Operator) (b : Bound) {u v w : Version} (huv : u ≤ v) (hvw : v ≤ w)
    (hu : op.accepts b u = true) (hw : op.accepts b w = true) : op.accepts b v = true := by
  obtain ⟨hu, -⟩ := accepts_iff.mp hu
  obtain ⟨hw, hend⟩ := accepts_iff.mp hw
  refine accepts_iff.mpr ⟨?_, fun stop hstop => ?_⟩
  · exact op.relates_between (b.position_mono huv) (b.position_mono hvw) hu hw
  · exact Std.TransCmp.lt_of_isLE_of_lt hvw (hend stop hstop)

end Operator

variable {options : Options} {u v w : Version}

theorem Comparator.admits_between (c : Comparator) (huv : u ≤ v) (hvw : v ≤ w)
    (hfu : FaceValue options u) (hfv : FaceValue options v) (hfw : FaceValue options w)
    (hu : c.admits options u = true) (hw : c.admits options w = true) :
    c.admits options v = true := by
  rw [admits_of_faceValue hfu, Bool.and_eq_true] at hu
  rw [admits_of_faceValue hfw, Bool.and_eq_true] at hw
  rw [admits_of_faceValue hfv, Bool.and_eq_true]
  exact ⟨hu.1, c.operator.accepts_between c.bound huv hvw hu.2 hw.2⟩

/-- **The versions that satisfy a clause are an interval**, as far as they are compared at face
value. -/
theorem Clause.satisfiedBy_between (clause : Clause) (huv : u ≤ v) (hvw : v ≤ w)
    (hfu : FaceValue options u) (hfv : FaceValue options v) (hfw : FaceValue options w)
    (hu : clause.satisfiedBy options u = true) (hw : clause.satisfiedBy options w = true) :
    clause.satisfiedBy options v = true := by
  simp only [satisfiedBy, List.all_eq_true] at hu hw ⊢
  exact fun c hc => c.admits_between huv hvw hfu hfv hfw (hu c hc) (hw c hc)

namespace Requirement

/-- **The versions that satisfy a requirement without alternatives are an interval** of the order of
versions: what lies between two of them satisfies it as well, if the options ask for pre-releases to
be compared like any other version, or if none of the three is a pre-release. -/
theorem parse_interval (text : String) (options : Options) (r : Requirement)
    (hbars : ¬['|', '|'] <:+: text.toList) (hparse : parse text options = .ok r)
    (u v w : Version) (huv : u ≤ v) (hvw : v ≤ w)
    (hface : options.includePreRelease = true ∨
      u.isPreRelease = false ∧ v.isPreRelease = false ∧ w.isPreRelease = false)
    (hu : r.satisfiedBy u = true) (hw : r.satisfiedBy w = true) : r.satisfiedBy v = true := by
  obtain ⟨clause, -, rfl⟩ :=
    (parse_eq_ok_iff_of_split (Segment.split_of_no_bars hbars)).mp hparse
  have hclause : ∀ x, satisfiedBy ⟨[clause], options⟩ x = clause.satisfiedBy options x :=
    fun x => by simp [satisfiedBy]
  rw [hclause] at hu hw ⊢
  rcases hface with hinclude | ⟨hu', hv', hw'⟩
  · exact clause.satisfiedBy_between huv hvw (Or.inl hinclude) (Or.inl hinclude) (Or.inl hinclude)
      hu hw
  · exact clause.satisfiedBy_between huv hvw (Or.inr hu') (Or.inr hv') (Or.inr hw') hu hw

/-- A pre-release between two others, in the meeting of a caret range with what is below a line. -/
theorem parse_interval_preReleases :
    ∃ r, parse "^1.2.3-rc, <1.9" { includePreRelease := true } = .ok r ∧
      r.satisfiedBy ⟨1, 2, 3, [⟨"rc"⟩, ⟨"1"⟩], []⟩ = true ∧
      r.satisfiedBy ⟨1, 8, 9, [⟨"beta"⟩], []⟩ = true ∧
      r.satisfiedBy ⟨1, 3, 0, [⟨"alpha"⟩], [⟨"b"⟩]⟩ = true := by
  have hparse : parse "^1.2.3-rc, <1.9" { includePreRelease := true } = .ok
      ⟨[⟨[⟨.caret, ⟨.number 1, .number 2, .number 3, .identifiers [⟨"rc"⟩]⟩, "^1.2.3-rc"⟩,
        ⟨.less, ⟨.number 1, .number 9, .wildcard, .identifiers []⟩, "<1.9"⟩]⟩],
        { includePreRelease := true }⟩ := by cbv
  have hbars : ¬['|', '|'] <:+: "^1.2.3-rc, <1.9".toList := fun hin =>
    absurd (hin.subset (List.mem_cons_self)) (by decide)
  refine ⟨_, hparse, by cbv, by cbv, ?_⟩
  exact parse_interval _ _ _ hbars hparse ⟨1, 2, 3, [⟨"rc"⟩, ⟨"1"⟩], []⟩
    ⟨1, 3, 0, [⟨"alpha"⟩], [⟨"b"⟩]⟩ ⟨1, 8, 9, [⟨"beta"⟩], []⟩ (by decide) (by decide) (Or.inl rfl)
    (by cbv) (by cbv)

end Requirement

end Semver
