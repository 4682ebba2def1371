import Semver.Proofs.Requirement.Order
import Semver.Proofs.Version.Display

/-!
# Tilde and caret as half-open ranges

A tilde or a caret in front of a bound stands for the versions from the bound up to an end that is
computed from it. The same range can be written out: no less than the bound, and less than the
printed form of the end. The two texts take different ways. One computes the end and compares
versions; the other prints it, reads it back behind a blank, and compares with a bound that has a
gate for pre-releases of its own. They meet wherever the options or one of the two sides keep
pre-releases out of the matter. If they do not, the written-out range admits nothing, for its end is
a release and lets no pre-release pass.

* `Semver.Operator.IsRange`: the two operators, with the ends of their ranges.
* `Semver.Comparator.admits_range`: the comparator of a range is the conjunction of the two others.
* `Semver.Requirement.parse_range`: the two texts are read, and satisfied by the same versions.
* `Semver.Operator.inclusiveSigns`: the spellings of the inclusive operators.
* `Semver.Comparator.admits_ofVersion_iff`: an inclusive operator on the bound of a version.
* `Semver.Requirement.parse_own`: the requirement of an inclusive operator and a printed version.
-/

namespace Semver

/-! ### The ends of ranges -/

namespace Operator

/-- **The operators that stand for a range**, with their spelling and the upper end of the range. -/
inductive IsRange : Operator → String → (Bound → Option Version) → Prop
  | tilde : IsRange .tilde "~" Bound.tildeEnd?
  | caret : IsRange .caret "^" Bound.caretEnd?

variable {op : Operator} {sign : String} {end? : Bound → Option Version} {b : Bound}

/-- A range of a bound that starts with a number has an end, and the end is a release. -/
theorem IsRange.exists_end (h : IsRange op sign end?) (hb : b.major ≠ .wildcard) :
    ∃ stop, end? b = some stop ∧ stop.pre = [] ∧ stop.build = [] := by
  obtain ⟨major, minor, patch, pre⟩ := b
  cases major with
  | wildcard => exact absurd rfl hb
  | number m =>
    cases h with
    | tilde => cases minor <;> exact ⟨_, rfl, rfl, rfl⟩
    | caret =>
      simp only [Bound.caretEnd?]
      -- the end is told by the first number that is not zero, or by the last number there is
      split
      · exact ⟨_, rfl, rfl, rfl⟩
      · cases minor with
        | wildcard => exact ⟨_, rfl, rfl, rfl⟩
        | number n =>
          dsimp only
          split
          · exact ⟨_, rfl, rfl, rfl⟩
          · cases patch <;> exact ⟨_, rfl, rfl, rfl⟩

theorem IsRange.ofText?_eq (h : IsRange op sign end?) : ofText? sign = some op := by
  cases h <;> rfl

end Operator

/-! ### The versions in a range -/

namespace Comparator

open Operator (IsRange)

variable {op : Operator} {sign : String} {end? : Bound → Option Version} {b : Bound}
  {stop v : Version} {options : Options}

/-- A release as an exclusive upper end admits the versions before it, but no pre-release unless the
options ask for that. -/
theorem admits_less_ofVersion (hstop : stop.pre = []) (text : String) (options : Options)
    (v : Version) : (Comparator.mk .less (.ofVersion stop) text).admits options v =
      ((options.includePreRelease || !v.isPreRelease) && decide (v < stop)) := by
  have hpre : (Bound.ofVersion stop).isPreRelease = false := by
    simp [Bound.ofVersion, Bound.isPreRelease, hstop]
  have hlt : (compare v stop).isLT = decide (v < stop) := by
    rw [Bool.eq_iff_iff, Ordering.isLT_iff_eq_lt, decide_eq_true_iff]
    rfl
  simp only [admits, Operator.admits, hpre, Bound.position_ofVersion, hlt]
  cases options.includePreRelease <;> cases v.isPreRelease <;> simp

/-- **A range is the conjunction of its two ends**, unless a pre-release is held against a bound
that is one while the options ask for the release line. -/
theorem admits_range (h : IsRange op sign end?) (hstop : end? b = some stop)
    (hpre : stop.pre = [])
    (hline : options.includePreRelease = true ∨ b.isPreRelease = false ∨ v.isPreRelease = false)
    (text text' text'' : String) : (Comparator.mk op b text).admits options v =
      ((Comparator.mk .greaterEqual b text').admits options v &&
        (Comparator.mk .less (.ofVersion stop) text'').admits options v) := by
  have hlineOnly : (!options.includePreRelease && b.isPreRelease && v.isPreRelease) = false := by
    rcases hline with h | h | h <;> simp [h]
  have hop : op.admits b options v =
      (Operator.greaterEqual.admits b options v && decide (v < stop)) := by
    cases h <;> simp [Operator.admits, hlineOnly, Bound.withinEnd, hstop]
  rw [admits_less_ofVersion hpre]
  simp only [admits, hop]
  have hgate : (!options.includePreRelease && v.isPreRelease) =
      !(options.includePreRelease || !v.isPreRelease) := by simp
  rw [hgate]
  rcases Bool.eq_false_or_eq_true (options.includePreRelease || !v.isPreRelease)
    with hopen | hclosed
  · simp only [hopen, Bool.not_true, Bool.false_and, Bool.true_and]
    cases b.isPreRelease && b.isAny <;> rfl
  · -- the gate keeps the version out of the range as well
    have hb : b.isPreRelease = false := by
      obtain ⟨hoptions, hv⟩ : options.includePreRelease = false ∧ v.isPreRelease = true := by
        simpa using hclosed
      simpa [hoptions, hv] using hline
    simp [hclosed, hb]

/-- For such a pre-release the upper end is closed. -/
theorem admits_less_ofVersion_eq_false (hstop : stop.pre = []) (text : String)
    (hoptions : options.includePreRelease = false) (hv : v.isPreRelease = true) :
    (Comparator.mk .less (.ofVersion stop) text).admits options v = false := by
  simp [admits_less_ofVersion hstop, hoptions, hv]

end Comparator

/-! ### The two texts -/

namespace Clause

/-- The clause of an operator right before a bound. -/
theorem ofChars_sign_append {x : Bound.Shape} {b : Bound} (sign : String) (op : Operator)
    (hop : Operator.ofText? sign = some op) (hx : x.WellFormed) (hb : x.bound? = some b) :
    ofChars (sign.toList ++ x.text) = .ok ⟨[⟨op, b, String.ofList (sign.toList ++ x.text)⟩]⟩ := by
  have ht : (Token.mk sign.toList [] x).Delimited [] :=
    ⟨⟨Operator.isSpelling_of_ofText? hop, by simp, hx⟩, fun _ => rfl, x.endsBefore_nil⟩
  have hread := Token.ofChars_text_mk hop ht.wellFormed.gap hx hb
  have htoken := ofChars_delimited ht
  rwa [Token.text, hread, List.append_nil] at htoken

end Clause

namespace Requirement

open Operator (IsRange)

variable {T sign : String} {op : Operator} {b : Bound} {x : Bound.Shape} {stop : Version}

theorem parse_sign_append (hop : Operator.ofText? sign = some op) (hx : x.WellFormed)
    (hb : x.bound? = some b) (hT : x.text = T.toList) (options : Options) :
    ∃ text, parse (sign ++ T) options = .ok ⟨[⟨[⟨op, b, text⟩]⟩], options⟩ := by
  have hclause := Clause.ofChars_sign_append sign op hop hx hb
  have htext : sign.toList ++ x.text = (sign ++ T).toList := by simp [hT]
  rw [htext] at hclause
  exact ⟨_, parse_of_clause hclause⟩

/-- The range written out: the end is printed, and what is read is the bound that it is. -/
theorem parse_pair (hx : x.WellFormed) (hb : x.bound? = some b) (hT : x.text = T.toList)
    (hstop : stop.IsPrintable) (options : Options) :
    ∃ text text', parse (">=" ++ T ++ " <" ++ toString stop) options =
      .ok ⟨[⟨[⟨.greaterEqual, b, text⟩, ⟨.less, .ofVersion stop, text'⟩]⟩], options⟩ := by
  have hfrom := Clause.ofChars_sign_append ">=" .greaterEqual rfl hx hb
  have hbelow := Clause.ofChars_sign_append "<" .less rfl (Version.wellFormed_shape hstop)
    stop.bound?_shape
  have hjoin : Segment.Joins (">=".toList ++ x.text) [' '] :=
    .blanks (by decide) (List.forall_mem_singleton.mpr (by decide))
  have hpair := Clause.ofChars_append hfrom hbelow ⟨'>', by simp, by decide⟩
    ⟨'<', by simp, by decide⟩ hjoin
  have htext : (">=".toList ++ x.text) ++ ([' '] ++ ("<".toList ++ stop.shape.text)) =
      (">=" ++ T ++ " <" ++ toString stop).toList := by
    simp [hT, Version.text_shape, Version.toList_toString]
  rw [htext] at hpair
  exact ⟨_, _, parse_of_clause hpair⟩

/-- **Tilde and caret stand for half-open ranges.** For a bound that starts with a number, as any
text without surrounding blanks has it, the range has an end, and both texts are read: the bound
behind the tilde or the caret, and the range written out. A version satisfies the two alike, unless
the options ask for the release line of a bound that is a pre-release, and the version is one too;
such a version does not satisfy the range written out. -/
theorem parse_range (T : String) (b : Bound) (hT : Bound.parse T = .ok b)
    (htrim : Text.trim T.toList = T.toList) (hmajor : b.major ≠ .wildcard) (op : Operator)
    (sign : String) (end? : Bound → Option Version) (hop : IsRange op sign end?)
    (options : Options) :
    ∃ stop range pair, end? b = some stop ∧ parse (sign ++ T) options = .ok range ∧
      parse (">=" ++ T ++ " <" ++ toString stop) options = .ok pair ∧
      ∀ v, (options.includePreRelease = true ∨ b.isPreRelease = false ∨ v.isPreRelease = false →
          range.satisfiedBy v = pair.satisfiedBy v) ∧
        (options.includePreRelease = false → v.isPreRelease = true →
          pair.satisfiedBy v = false) := by
  obtain ⟨stop, hstop, hpre, hbuild⟩ := hop.exists_end hmajor
  have hprintable : stop.IsPrintable := by simp [Version.IsPrintable, hpre, hbuild]
  rw [Bound.parse, htrim] at hT
  obtain ⟨x, hx, hxT, hb⟩ := Bound.ofChars_eq_ok_iff.mp hT
  obtain ⟨text, hrange⟩ := parse_sign_append hop.ofText?_eq hx hb hxT options
  obtain ⟨text', text'', hpair⟩ := parse_pair hx hb hxT hprintable options
  refine ⟨stop, _, _, hstop, hrange, hpair, fun v => ⟨fun hline => ?_, fun hoptions hv => ?_⟩⟩
  · simpa [satisfiedBy, Clause.satisfiedBy] using
      Comparator.admits_range hop hstop hpre hline text text' text''
  · simp [satisfiedBy, Clause.satisfiedBy,
      Comparator.admits_less_ofVersion_eq_false hpre text'' hoptions hv]

/-- The greatest number in a bound with a wildcard: the end of its range is no greater. -/
theorem parse_range_saturated :
    ∃ range pair, parse "^v18446744073709551615.X" {} = .ok range ∧
      parse ">=v18446744073709551615.X <18446744073709551615.0.0" {} = .ok pair ∧
      ∀ v, range.satisfiedBy v = pair.satisfiedBy v := by
  have hT : Bound.parse "v18446744073709551615.X" =
      .ok ⟨.number 18446744073709551615, .wildcard, .wildcard, .identifiers []⟩ := by cbv
  obtain ⟨stop, range, pair, hstop, hrange, hpair, hsame⟩ :=
    parse_range _ _ hT (by decide) (by decide) .caret "^" Bound.caretEnd? .caret {}
  obtain rfl : stop = ⟨18446744073709551615, 0, 0, [], []⟩ :=
    Option.some.inj (hstop.symm.trans (by cbv))
  have htext : toString (Version.mk 18446744073709551615 0 0 [] []) =
      "18446744073709551615.0.0" := by cbv
  rw [htext] at hpair
  exact ⟨range, pair, hrange, hpair, fun v => (hsame v).1 (Or.inr (Or.inl rfl))⟩

end Requirement

/-! ### The ranges that a version makes of itself

The printed form of a version, behind an operator, is a requirement. If the operator is inclusive
the version should satisfy it: it is equal to its own bound, on its own line, and before the end of
a range that starts at it. The first two hold under any options. The third one can fail where a
range stalls, and it is asked for only if the version is compared at face value. -/

namespace Operator

/-- **The spellings of the inclusive operators**, those that accept what is equal to their bound. -/
def inclusiveSigns : List String :=
  ["", "=", "==", ">=", "=>", "<=", "=<", "~", "^"]

theorem exists_of_mem_inclusiveSigns {sign : String} (h : sign ∈ inclusiveSigns) :
    ∃ op, ofText? sign = some op ∧ op.relates .eq = true := by
  simp only [inclusiveSigns, List.mem_cons, List.not_mem_nil, or_false] at h
  rcases h with rfl | rfl | rfl | rfl | rfl | rfl | rfl | rfl | rfl <;> exact ⟨_, rfl, rfl⟩

/-- Only tilde and caret stand for ranges that can be cut short. -/
theorem not_cutsShort {op : Operator} (htilde : op ≠ .tilde) (hcaret : op ≠ .caret) (b : Bound)
    (v : Version) : ¬op.CutsShort b v := by
  rintro ⟨hstalls, -⟩
  cases op with
  | tilde => exact htilde rfl
  | caret => exact hcaret rfl
  | _ => cases hstalls

end Operator

namespace Comparator

variable {op : Operator} {v : Version}

/-- Without the option, a pre-release is covered by an inclusive operator on its own bound. -/
theorem coversPreRelease_ofVersion (hop : op.relates .eq = true) (hv : v.isPreRelease = true)
    (text : String) : (Comparator.mk op (.ofVersion v) text).CoversPreRelease v where
  isPreRelease := hv
  major_ne := Component.noConfusion
  onLine := List.prefix_rfl
  ofWildcard := by rintro (h | h) <;> cases h
  ofConcrete := by
    rintro - ids hpre
    obtain rfl : v.pre = ids := PrePattern.identifiers.inj hpre
    have hself : PreRelease.precedence v.pre v.pre = .eq := Std.ReflCmp.compare_self
    rwa [hself]

/-- **An inclusive operator on the bound of a version admits that version**, unless it stands for a
range that is cut short of the version, and versions are compared at face value. -/
theorem admits_ofVersion_iff (hop : op.relates .eq = true) (text : String) (options : Options)
    (v : Version) : (Comparator.mk op (.ofVersion v) text).admits options v = true ↔
      ¬(FaceValue options v ∧ op.CutsShort (.ofVersion v) v) := by
  by_cases hface : FaceValue options v
  · have hposition : (Bound.ofVersion v).position v = .eq := by
      rw [Bound.position_ofVersion]
      exact Std.compare_self
    rw [admits_iff_of_onLine hface Component.noConfusion List.prefix_rfl, hposition]
    simp [hop, hface]
  · -- then the version is a pre-release, and the release line is where its range ends
    obtain ⟨hinclude, hv⟩ := not_or.mp hface
    obtain ⟨flag⟩ := options
    obtain rfl : flag = false := Bool.eq_false_iff.mpr hinclude
    have hv' : v.isPreRelease = true := by simpa using hv
    have hadmits := (admits_iff_coversPreRelease hv').mpr (coversPreRelease_ofVersion hop hv' text)
    simp [hadmits, hface]

end Comparator

namespace Requirement

/-- **A version satisfies the inclusive ranges built from itself, but where one stalls.** The
printed form of a version that was read from a text is read as a requirement behind each spelling of
an inclusive operator. The version satisfies that requirement unless its operator stands for a range
that is cut short of the version, and the version is compared at face value; only tilde and caret
stand for a range. -/
theorem parse_own (text : String) (v : Version) (h : Version.parse text = .ok v) (sign : String)
    (hsign : sign ∈ Operator.inclusiveSigns) (options : Options) :
    ∃ op r, Operator.ofText? sign = some op ∧ parse (sign ++ toString v) options = .ok r ∧
      (r.satisfiedBy v = true ↔ ¬(FaceValue options v ∧ op.CutsShort (.ofVersion v) v)) ∧
      (op ≠ .tilde → op ≠ .caret → r.satisfiedBy v = true) := by
  have hprintable : v.IsPrintable := Version.isPrintable_of_ofChars h
  obtain ⟨op, hop, hrelates⟩ := Operator.exists_of_mem_inclusiveSigns hsign
  have htext : v.shape.text = (toString v).toList := by
    rw [Version.text_shape, Version.toList_toString]
  obtain ⟨text', hparse⟩ := parse_sign_append hop (Version.wellFormed_shape hprintable)
    v.bound?_shape htext options
  have hsat : satisfiedBy ⟨[⟨[⟨op, .ofVersion v, text'⟩]⟩], options⟩ v = true ↔
      ¬(FaceValue options v ∧ op.CutsShort (.ofVersion v) v) := by
    rw [satisfiedBy_singleton]
    exact Comparator.admits_ofVersion_iff hrelates text' options v
  refine ⟨op, _, hop, hparse, hsat, fun htilde hcaret => hsat.mpr ?_⟩
  rintro ⟨-, hcut⟩
  exact Operator.not_cutsShort htilde hcaret _ v hcut

/-- A pre-release with the greatest minor number, all zeros after it, and a lead in its text: it
lies before the end of its own tilde range, which is its release. -/
theorem parse_own_stalled :
    ∃ v r, Version.parse "=v1.18446744073709551615.0-rc+b" = .ok v ∧
      parse ("~" ++ toString v) { includePreRelease := true } = .ok r ∧ r.satisfiedBy v = true := by
  have hparse : Version.parse "=v1.18446744073709551615.0-rc+b" =
      .ok ⟨1, 18446744073709551615, 0, [⟨"rc"⟩], [⟨"b"⟩]⟩ := by cbv
  obtain ⟨op, r, hop, hr, hsat, -⟩ := parse_own _ _ hparse "~" (by decide)
    { includePreRelease := true }
  obtain rfl : op = .tilde := Option.some.inj (hop.symm.trans rfl)
  refine ⟨_, r, hparse, hr, hsat.mpr ?_⟩
  rintro ⟨-, -, hrelease | ⟨n, hn, hne⟩⟩
  · cases hrelease
  · obtain rfl : n = 0 := List.mem_singleton.mp hn
    exact hne rfl

/-- The caret range of the greatest major number stalls: it ends at the release that it starts
from. -/
theorem not_own_of_stalls :
    ∃ v r, Version.parse "18446744073709551615.0.0" = .ok v ∧
      parse ("^" ++ toString v) {} = .ok r ∧ r.satisfiedBy v = false := by
  have hparse : Version.parse "18446744073709551615.0.0" =
      .ok ⟨18446744073709551615, 0, 0, [], []⟩ := by cbv
  have hrange : parse ("^" ++ toString (Version.mk 18446744073709551615 0 0 [] [])) {} = .ok
      ⟨[⟨[⟨.caret, ⟨.number 18446744073709551615, .number 0, .number 0, .identifiers []⟩,
        "^18446744073709551615.0.0"⟩]⟩], {}⟩ := by cbv
  exact ⟨_, _, hparse, hrange, by cbv⟩

end Requirement

end Semver
