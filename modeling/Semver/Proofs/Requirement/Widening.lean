import Semver.Proofs.Requirement.PreRelease

/-!
# What the option for pre-releases adds

A release does not feel the option. A pre-release that is admitted without it is on the line of a
bound that is a pre-release too, and in the right relation to that bound, so with the option the
comparison comes out right again. What changes is the end of a range. Without the option it is the
release of the bound, which no pre-release on its line can pass; with it, it is the end that tilde
and caret compute, and a range that stalls may be cut short of the version. That is the only way in
which the option takes something away.

* `Semver.Comparator.admits_includePreRelease_iff`: what a comparator admits keeps being admitted,
  but for versions that its range is cut short of.
* `Semver.Requirement.parse_widens`: the same of a requirement.
* `Semver.Requirement.parse_release_options`: a release does not tell the two runs of a text apart.
-/

namespace Semver

namespace Comparator

variable {c : Comparator} {v : Version}

/-- A pre-release that a comparator covers is in the relation to its bound that the operator asks
for. -/
theorem CoversPreRelease.relates (h : c.CoversPreRelease v) :
    c.operator.relates (c.bound.position v) = true := by
  obtain ⟨ids, hpre, -⟩ := Bound.isPreRelease_iff.mp h.isPreRelease
  rw [Bound.position_of_lineOrder_eq hpre (Bound.lineOrder_eq_eq_iff.mpr h.onLine)]
  split
  case isTrue hconcrete => exact h.ofConcrete hconcrete ids hpre
  case isFalse hwild =>
    rcases h.ofWildcard ((Bound.not_isConcrete_iff h.major_ne).mp hwild) with hop | hop | hop <;>
      rw [hop] <;> rfl

/-- **A release is admitted alike under all options**: it is compared at face value in any case,
even with a bound that is a pre-release, and ranges end in the same place for it. -/
theorem admits_release_congr (c : Comparator) (hv : v.isPreRelease = false)
    (options options' : Options) : c.admits options v = c.admits options' v := by
  rw [admits_of_faceValue (Or.inr hv), admits_of_faceValue (Or.inr hv)]

/-- **What a comparator admits without the option it admits with it**, unless that is a pre-release
that its range is cut short of. -/
theorem admits_includePreRelease_iff (h : c.admits { includePreRelease := false } v = true) :
    c.admits { includePreRelease := true } v = true ↔
      ¬(v.isPreRelease = true ∧ c.operator.CutsShort c.bound v) := by
  cases hv : v.isPreRelease with
  | false =>
    rw [c.admits_release_congr hv _ { includePreRelease := false }, h]
    simp
  | true =>
    -- a pre-release is on the line of the bound, where only the end of a range can keep it out
    have hcovers := (admits_iff_coversPreRelease hv).mp h
    rw [admits_iff_of_onLine (Or.inl rfl) hcovers.major_ne hcovers.onLine]
    simp [hcovers.relates]

end Comparator

/-- **A clause is cut short of a version**, a pre-release, if the range of one of its comparators
is. -/
def Clause.CutsShort (clause : Clause) (v : Version) : Prop :=
  v.isPreRelease = true ∧ ∃ c ∈ clause.comparators, c.operator.CutsShort c.bound v

/-- A clause that a version satisfies without the option is satisfied with it, unless it is cut
short of the version. -/
theorem Clause.satisfiedBy_includePreRelease_iff {clause : Clause} {v : Version}
    (h : clause.satisfiedBy { includePreRelease := false } v = true) :
    clause.satisfiedBy { includePreRelease := true } v = true ↔ ¬clause.CutsShort v := by
  simp only [satisfiedBy, List.all_eq_true] at h ⊢
  constructor
  · rintro hall ⟨hv, c, hc, hcut⟩
    exact (Comparator.admits_includePreRelease_iff (h c hc)).mp (hall c hc) ⟨hv, hcut⟩
  · intro hnone c hc
    exact (Comparator.admits_includePreRelease_iff (h c hc)).mpr
      fun hcut => hnone ⟨hcut.1, c, hc, hcut.2⟩

/-- So is a clause satisfied by a release. -/
theorem Clause.satisfiedBy_release_congr (clause : Clause) {v : Version}
    (hv : v.isPreRelease = false) (options options' : Options) :
    clause.satisfiedBy options v = clause.satisfiedBy options' v := by
  simp only [satisfiedBy, fun c : Comparator => c.admits_release_congr hv options options']

namespace Requirement

theorem satisfiedBy_iff {r : Requirement} {v : Version} : r.satisfiedBy v = true ↔
    ∃ clause ∈ r.clauses, clause.satisfiedBy r.options v = true := by
  simp only [satisfiedBy, List.any_eq_true]

/-- **The option for pre-releases widens a requirement, but for ranges that stall.** The same text
is read with it, to the same clauses. A clause that a version satisfies without the option is
satisfied with it exactly if it is not cut short of the version. So a version that satisfies the
requirement goes on to do so, unless each of the clauses that it satisfies is cut short of it. -/
theorem parse_widens (text : String) (r : Requirement)
    (h : parse text { includePreRelease := false } = .ok r) :
    ∃ wide, parse text { includePreRelease := true } = .ok wide ∧ wide.clauses = r.clauses ∧
      ∀ v, (∀ clause ∈ r.clauses, clause.satisfiedBy r.options v = true →
          (clause.satisfiedBy wide.options v = true ↔ ¬clause.CutsShort v)) ∧
        (r.satisfiedBy v = true → wide.satisfiedBy v = true ∨
          ∀ clause ∈ r.clauses, clause.satisfiedBy r.options v = true → clause.CutsShort v) := by
  obtain ⟨hclauses, hoptions⟩ := parse_eq_ok_iff.mp h
  refine ⟨⟨r.clauses, { includePreRelease := true }⟩, parse_eq_ok_iff.mpr ⟨hclauses, rfl⟩, rfl,
    fun v => ?_⟩
  rw [hoptions]
  refine ⟨fun clause _ hsat => Clause.satisfiedBy_includePreRelease_iff hsat, fun _ => ?_⟩
  by_cases hcut : ∀ clause ∈ r.clauses,
      clause.satisfiedBy { includePreRelease := false } v = true → clause.CutsShort v
  · exact Or.inr hcut
  · simp only [not_forall] at hcut
    obtain ⟨clause, hclause, hsat, huncut⟩ := hcut
    exact Or.inl (satisfiedBy_iff.mpr
      ⟨clause, hclause, (Clause.satisfiedBy_includePreRelease_iff hsat).mpr huncut⟩)

/-- Two clauses whose ranges stall. The second one keeps all three numbers of its bound, so there
are none after them, and it is not cut short of a pre-release of that bound. -/
theorem parse_widens_stalled :
    ∃ r wide, parse "~1.18446744073709551615.1-a || ^0.0.18446744073709551615-rc" {} = .ok r ∧
      parse "~1.18446744073709551615.1-a || ^0.0.18446744073709551615-rc"
        { includePreRelease := true } = .ok wide ∧
      r.satisfiedBy ⟨0, 0, 18446744073709551615, [⟨"rc"⟩, ⟨"1"⟩], []⟩ = true ∧
      wide.satisfiedBy ⟨0, 0, 18446744073709551615, [⟨"rc"⟩, ⟨"1"⟩], []⟩ = true := by
  have hparse : parse "~1.18446744073709551615.1-a || ^0.0.18446744073709551615-rc" {} = .ok
      ⟨[⟨[⟨.tilde, ⟨.number 1, .number 18446744073709551615, .number 1, .identifiers [⟨"a"⟩]⟩,
          "~1.18446744073709551615.1-a"⟩]⟩,
        ⟨[⟨.caret, ⟨.number 0, .number 0, .number 18446744073709551615, .identifiers [⟨"rc"⟩]⟩,
          "^0.0.18446744073709551615-rc"⟩]⟩], {}⟩ := by cbv
  obtain ⟨wide, hwide, -, hsat⟩ := parse_widens _ _ hparse
  refine ⟨_, wide, hparse, hwide, by cbv, ?_⟩
  rcases (hsat ⟨0, 0, 18446744073709551615, [⟨"rc"⟩, ⟨"1"⟩], []⟩).2 (by cbv) with
    hsatisfied | hcut
  · exact hsatisfied
  · obtain ⟨-, c, hc, -, hbeyond⟩ := hcut _ (List.mem_cons_of_mem _ List.mem_cons_self) (by cbv)
    obtain rfl := List.mem_singleton.mp hc
    rcases hbeyond with hrelease | ⟨n, hn, -⟩
    · cases hrelease
    · cases hn

/-- The tilde range of a pre-release stalls at the greatest minor number: without the option the
version of its bound satisfies it, with the option none does. -/
theorem not_widens_of_stalls :
    ∃ r wide, parse "~1.18446744073709551615.1-alpha" { includePreRelease := false } = .ok r ∧
      parse "~1.18446744073709551615.1-alpha" { includePreRelease := true } = .ok wide ∧
      r.satisfiedBy ⟨1, 18446744073709551615, 1, [⟨"alpha"⟩], []⟩ = true ∧
      wide.satisfiedBy ⟨1, 18446744073709551615, 1, [⟨"alpha"⟩], []⟩ = false := by
  have hparse : ∀ options, parse "~1.18446744073709551615.1-alpha" options = .ok
      ⟨[⟨[⟨.tilde, ⟨.number 1, .number 18446744073709551615, .number 1, .identifiers [⟨"alpha"⟩]⟩,
        "~1.18446744073709551615.1-alpha"⟩]⟩], options⟩ := by
    intro options
    cbv
  exact ⟨_, _, hparse _, hparse _, by cbv, by cbv⟩

/-- **A release does not tell the options apart.** A text that is read under some options is read
without the one for pre-releases and with it, to the same clauses. A release satisfies the two
requirements alike, each clause of them alike, and is admitted alike by each comparator. -/
theorem parse_release_options (text : String) (options : Options) (r : Requirement)
    (h : parse text options = .ok r) (v : Version) (hv : v.pre = []) :
    ∃ strict wide, parse text { includePreRelease := false } = .ok strict ∧
      parse text { includePreRelease := true } = .ok wide ∧
      strict.options = { includePreRelease := false } ∧
      wide.options = { includePreRelease := true } ∧
      strict.satisfiedBy v = wide.satisfiedBy v ∧
      List.Forall₂ (fun clause clause' =>
        clause.satisfiedBy strict.options v = clause'.satisfiedBy wide.options v ∧
          List.Forall₂ (fun c c' => c = c' ∧ c.admits strict.options v = c'.admits wide.options v)
            clause.comparators clause'.comparators) strict.clauses wide.clauses := by
  have hrelease : v.isPreRelease = false := by simp [Version.isPreRelease, hv]
  have hclause : ∀ clause : Clause, clause.satisfiedBy { includePreRelease := false } v =
      clause.satisfiedBy { includePreRelease := true } v := fun clause =>
    clause.satisfiedBy_release_congr hrelease _ _
  obtain ⟨hclauses, -⟩ := parse_eq_ok_iff.mp h
  refine ⟨⟨r.clauses, { includePreRelease := false }⟩, ⟨r.clauses, { includePreRelease := true }⟩,
    parse_eq_ok_iff.mpr ⟨hclauses, rfl⟩, parse_eq_ok_iff.mpr ⟨hclauses, rfl⟩, rfl, rfl, ?_, ?_⟩
  · simp only [satisfiedBy, hclause]
  · refine List.forall₂_same.mpr fun clause _ => ⟨hclause clause, ?_⟩
    exact List.forall₂_same.mpr fun c _ => ⟨rfl, c.admits_release_congr hrelease _ _⟩

/-- A release in a tilde range that starts at a pre-release, and past the end of the other
clause. -/
theorem parse_release_options_ranges :
    ∃ strict wide, parse "~1.2.3-rc || ^0.0.1-a <1" { includePreRelease := false } = .ok strict ∧
      parse "~1.2.3-rc || ^0.0.1-a <1" { includePreRelease := true } = .ok wide ∧
      strict.satisfiedBy ⟨1, 2, 9, [], [⟨"b"⟩]⟩ = true ∧
      wide.satisfiedBy ⟨1, 2, 9, [], [⟨"b"⟩]⟩ = true := by
  have hparse : ∀ options, parse "~1.2.3-rc || ^0.0.1-a <1" options = .ok
      ⟨[⟨[⟨.tilde, ⟨.number 1, .number 2, .number 3, .identifiers [⟨"rc"⟩]⟩, "~1.2.3-rc"⟩]⟩,
        ⟨[⟨.caret, ⟨.number 0, .number 0, .number 1, .identifiers [⟨"a"⟩]⟩, "^0.0.1-a"⟩,
          ⟨.less, ⟨.number 1, .wildcard, .wildcard, .identifiers []⟩, "<1"⟩]⟩], options⟩ := by
    intro options
    cbv
  obtain ⟨strict, wide, hstrict, hwide, -, -, hsame, -⟩ :=
    parse_release_options _ _ _ (hparse {}) ⟨1, 2, 9, [], [⟨"b"⟩]⟩ rfl
  have hsat : strict.satisfiedBy ⟨1, 2, 9, [], [⟨"b"⟩]⟩ = true := by
    rw [← Except.ok.inj ((hparse _).symm.trans hstrict)]
    cbv
  exact ⟨strict, wide, hstrict, hwide, hsat, hsame ▸ hsat⟩

end Requirement

end Semver
