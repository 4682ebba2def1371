import Semver.Proofs.Requirement.HalfOpen

/-!
# Operators that are relations

Equality and the four inequalities hold between a version and a bound, and a bound without wildcards
is a version. Behind one of these operators the printed form of a version should say no more than
that: the versions in this relation to it. They are reached by a long way, though. The operator has
several spellings, one of them empty; blanks may follow it, which without an operator are those
before the segment; the version is printed, scanned as a shape and read as a bound; and the bound is
compared with a version, not the other way round. The rules about pre-releases come on top of that.
They do not touch a version that is compared at face value, and equality they do not touch at all.

* `Semver.Operator.IsRelation`: the operators, with their spellings and their relations.
* `Semver.Comparator.admits_relation_iff`: the versions that a comparator of a relation admits.
* `Semver.Clause.ofChars_sign_gap_append`: the clause of an operator, blanks and a bound.
* `Semver.Requirement.parse_relation`: the requirement of such an operator and a printed version.
* `Semver.Bound.opens`: what is asked of a version before the outcome is looked at.
* `Semver.Comparator.admits_eq_opens_and_relates`: an outcome behind what is asked of all.
* `Semver.Comparator.admits_anything_eq_false`: the bounds that nothing passes.
* `Semver.Comparator.matches_iff`: the text of an operator and a bound.
* `Semver.Comparator.parse_trichotomy`: the operators in front of one text fit together.
-/

namespace Semver

variable {op : Operator} {sign : String} {rel : Version → Version → Prop}

/-! ### The operators -/

namespace Operator

/-- **The operators that are relations between versions**, with all their spellings. Equality is
that of precedence, since the build metadata of a version counts for nothing. -/
inductive IsRelation : Operator → String → (Version → Version → Prop) → Prop
  | equal {sign : String} (hsign : sign ∈ ["", "=", "=="]) :
      IsRelation .equal sign fun w v => w.samePrecedence v = true
  | greater : IsRelation .greater ">" fun w v => v < w
  | less : IsRelation .less "<" fun w v => w < v
  | greaterEqual {sign : String} (hsign : sign ∈ [">=", "=>"]) :
      IsRelation .greaterEqual sign fun w v => v ≤ w
  | lessEqual {sign : String} (hsign : sign ∈ ["<=", "=<"]) :
      IsRelation .lessEqual sign fun w v => w ≤ v

namespace IsRelation

theorem ofText?_eq (h : IsRelation op sign rel) : ofText? sign = some op := by
  cases h with
  | equal hsign =>
    simp only [List.mem_cons, List.not_mem_nil, or_false] at hsign
    rcases hsign with rfl | rfl | rfl <;> rfl
  | greater => rfl
  | less => rfl
  | greaterEqual hsign =>
    simp only [List.mem_cons, List.not_mem_nil, or_false] at hsign
    rcases hsign with rfl | rfl <;> rfl
  | lessEqual hsign =>
    simp only [List.mem_cons, List.not_mem_nil, or_false] at hsign
    rcases hsign with rfl | rfl <;> rfl

/-- **Only tilde and caret are not relations**: what spells any other operator spells one. -/
theorem exists_iff : (∃ rel, IsRelation op sign rel) ↔
    ofText? sign = some op ∧ op ≠ .tilde ∧ op ≠ .caret := by
  constructor
  · rintro ⟨rel, h⟩
    refine ⟨h.ofText?_eq, ?_⟩
    cases h <;> exact ⟨Operator.noConfusion, Operator.noConfusion⟩
  · rintro ⟨h, htilde, hcaret⟩
    unfold ofText? at h
    split at h <;> cases h
    · exact ⟨_, .equal (by decide)⟩
    · exact ⟨_, .equal (by decide)⟩
    · exact ⟨_, .equal (by decide)⟩
    · exact ⟨_, .greater⟩
    · exact ⟨_, .less⟩
    · exact ⟨_, .greaterEqual (by decide)⟩
    · exact ⟨_, .greaterEqual (by decide)⟩
    · exact ⟨_, .lessEqual (by decide)⟩
    · exact ⟨_, .lessEqual (by decide)⟩
    · exact absurd rfl htilde
    · exact absurd rfl hcaret

/-- A relation has no upper end. -/
theorem end?_eq_none (h : IsRelation op sign rel) (b : Bound) : op.end? b = none := by
  cases h <;> rfl

/-- **The relation is what the operator asks for** when the one version is compared with the
other. -/
theorem relates_compare_iff (h : IsRelation op sign rel) (v w : Version) :
    op.relates (compare w v) = true ↔ rel w v := by
  have hswap : compare w v = (compare v w).swap := Std.OrientedOrd.eq_swap
  cases h with
  | equal hsign => exact Iff.rfl
  | greater =>
    change (compare w v).isGT = true ↔ compare v w = .lt
    rw [hswap, Ordering.isGT_swap, Ordering.isLT_iff_eq_lt]
  | less => exact Ordering.isLT_iff_eq_lt
  | greaterEqual hsign =>
    change (compare w v).isGE = true ↔ (compare v w).isLE = true
    rw [hswap, Ordering.isGE_swap]
  | lessEqual hsign => exact Iff.rfl

end IsRelation

end Operator

/-! ### The versions in a relation -/

/-- **A comparator of a relation admits the versions in that relation** to its bound: those that are
compared at face value, and with equality all. -/
theorem Comparator.admits_relation_iff (h : Operator.IsRelation op sign rel) {options : Options}
    {v w : Version} (hface : FaceValue options w ∨ op = .equal) (text : String) :
    (Comparator.mk op (.ofVersion v) text).admits options w = true ↔ rel w v := by
  rcases hface with hface | rfl
  · rw [admits_of_faceValue hface, Operator.accepts, Bound.position_ofVersion]
    simp [h.end?_eq_none, Bound.withinEnd, Bound.isAny, Bound.ofVersion, h.relates_compare_iff]
  · cases h with
    | equal hsign => rw [admits_equal_ofVersion]

/-! ### The text of a relation -/

/-- **The clause of an operator, blanks and a bound.** The blanks belong to the token if the
operator is spelled out, and stand before it if not. -/
theorem Clause.ofChars_sign_gap_append {gap : List Char} {x : Bound.Shape} {b : Bound}
    (hgap : ∀ c ∈ gap, Text.isBlank c = true) (hop : Operator.ofText? sign = some op)
    (hx : x.WellFormed) (hb : x.bound? = some b) :
    ∃ text, ofChars (sign.toList ++ (gap ++ x.text)) = .ok ⟨[⟨op, b, text⟩]⟩ := by
  have ht : (Token.mk sign.toList gap x).WellFormed :=
    ⟨Operator.isSpelling_of_ofText? hop, hgap, hx⟩
  have hread := Token.ofChars_text_mk hop hgap hx hb
  have htoken := (ofChars_token ht).2
  rw [Token.text, hread, List.append_assoc] at htoken
  exact ⟨_, htoken⟩

namespace Requirement

/-- **Relational operators in front of a version mean the order of versions.** All operators but
tilde and caret are relations, in each of their spellings. Behind such a spelling, and any blanks,
the printed form of a printable version is read as a requirement with a single comparator. A version
that is compared at face value satisfies it exactly if it stands in the relation to the printed one;
with equality that holds of every version. -/
theorem parse_relation (op : Operator) (sign : String) :
    ((∃ rel, Operator.IsRelation op sign rel) ↔
        Operator.ofText? sign = some op ∧ op ≠ .tilde ∧ op ≠ .caret) ∧
      ∀ rel, Operator.IsRelation op sign rel → ∀ v : Version, v.IsPrintable →
        ∀ gap : String, (∀ c ∈ gap.toList, Text.isBlank c = true) → ∀ options,
          ∃ c r, parse (sign ++ gap ++ toString v) options = .ok r ∧ r.clauses = [⟨[c]⟩] ∧
            ∀ w, FaceValue options w ∨ op = .equal → (r.satisfiedBy w = true ↔ rel w v) := by
  refine ⟨Operator.IsRelation.exists_iff, fun rel hop v hv gap hgap options => ?_⟩
  obtain ⟨text, hclause⟩ := Clause.ofChars_sign_gap_append hgap hop.ofText?_eq
    (Version.wellFormed_shape hv) v.bound?_shape
  have htext : sign.toList ++ (gap.toList ++ v.shape.text) =
      (sign ++ gap ++ toString v).toList := by
    simp [Version.text_shape, Version.toList_toString]
  rw [htext] at hclause
  refine ⟨⟨op, .ofVersion v, text⟩, _, parse_of_clause hclause, rfl, fun w hface => ?_⟩
  rw [satisfiedBy_singleton]
  exact Comparator.admits_relation_iff hop hface text

/-- The other spelling of the operator, with an ideographic space behind it, in front of a
pre-release. -/
theorem parse_relation_preRelease :
    ∃ c r, parse "=<\u3000 1.0.0-rc.2+b" { includePreRelease := true } = .ok r ∧
      r.clauses = [⟨[c]⟩] ∧ r.satisfiedBy ⟨1, 0, 0, [⟨"rc"⟩, ⟨"1"⟩], []⟩ = true ∧
      r.satisfiedBy ⟨1, 0, 0, [], []⟩ = false := by
  have htext : "=<" ++ "\u3000 " ++ toString (Version.mk 1 0 0 [⟨"rc"⟩, ⟨"2"⟩] [⟨"b"⟩]) =
      "=<\u3000 1.0.0-rc.2+b" := by cbv
  have hread : Version.parse "1.0.0-rc.2+b" = .ok ⟨1, 0, 0, [⟨"rc"⟩, ⟨"2"⟩], [⟨"b"⟩]⟩ := by cbv
  have hgap : ∀ c ∈ "\u3000 ".toList, Text.isBlank c = true := by
    simp [Text.isBlank, Text.blankRanges]
  obtain ⟨c, r, hparse, hclauses, hrel⟩ :=
    (parse_relation .lessEqual "=<").2 (fun w v => w ≤ v) (.lessEqual (by decide)) _
      (Version.isPrintable_of_ofChars hread) "\u3000 " hgap { includePreRelease := true }
  rw [htext] at hparse
  refine ⟨c, r, hparse, hclauses, (hrel _ (Or.inl (Or.inl rfl))).mpr (by decide), ?_⟩
  rw [Bool.eq_false_iff, ne_eq, hrel _ (Or.inl (Or.inl rfl))]
  decide

end Requirement

/-! ### What the operators share

A version is below a bound, covered by it or above it, and equality and the four inequalities ask
for one of these outcomes, or for one of two. So it should be possible to take the weak inequalities
apart, and just one of the three outcomes should come out. Neither is plain from the way in which a
comparator is evaluated. Two gates stand before the operators, and the four inequalities go on to
ask for the line of the bound where a pre-release meets another, while equality does not. But a
version that a bound covers is on its line. Hence equality could ask for the line just as well, all
five ask for the same before they look at the outcome, and what they share is taken out of them. -/

variable {T : String} {b : Bound} {options : Options} {v : Version}

/-- A version that a bound covers is on its line. -/
theorem Bound.onReleaseLine_of_position_eq (h : b.position v = .eq) : b.onReleaseLine v = true := by
  have hcompare : b.compareVersion v = .eq := Ordering.swap_eq_eq.mp h
  rw [compareVersion_eq_then, Ordering.then_eq_eq] at hcompare
  rw [onReleaseLine_eq, hcompare.1]
  rfl

/-- **What is asked of a version** before the outcome of the comparison is looked at: a pre-release
has to be on the line of a bound that is one too, unless the options compare it like any other
version, and the bound must not be a pre-release of anything. -/
def Bound.opens (b : Bound) (options : Options) (v : Version) : Bool :=
  (options.includePreRelease || !v.isPreRelease || (b.isPreRelease && b.onReleaseLine v)) &&
    !(b.isPreRelease && b.isAny)

/-- At face value a bound asks for nothing, unless it is a pre-release of anything. -/
theorem Bound.opens_of_faceValue (hb : ¬(b.isPreRelease = true ∧ b.isAny = true))
    (h : FaceValue options v) : b.opens options v = true := by
  have hany : (b.isPreRelease && b.isAny) = false := by
    rwa [← Bool.not_eq_true, Bool.and_eq_true]
  rcases h with h | h <;> simp [opens, h, hany]

/-- An operator without an upper end asks for the line and for the outcome; for equality the first
follows from the second. -/
theorem Operator.admits_eq_onLine_and_relates (htilde : op ≠ .tilde) (hcaret : op ≠ .caret) :
    op.admits b options v =
      ((!(!options.includePreRelease && b.isPreRelease && v.isPreRelease) || b.onReleaseLine v) &&
        op.relates (b.position v)) := by
  cases op with
  | equal =>
    cases h : b.position v with
    | eq => simp [admits, relates, h, Bound.onReleaseLine_of_position_eq h]
    | lt => simp [admits, relates, h]
    | gt => simp [admits, relates, h]
  | greater | less | greaterEqual | lessEqual => rfl
  | tilde => exact absurd rfl htilde
  | caret => exact absurd rfl hcaret

/-- **A comparator of a relation** asks for what all of them ask for, and for its outcomes. -/
theorem Comparator.admits_eq_opens_and_relates (c : Comparator) (htilde : c.operator ≠ .tilde)
    (hcaret : c.operator ≠ .caret) : c.admits options v =
      (c.bound.opens options v && c.operator.relates (c.bound.position v)) := by
  rw [admits, Operator.admits_eq_onLine_and_relates htilde hcaret, Bound.opens]
  cases options.includePreRelease <;> cases v.isPreRelease <;> cases c.bound.isPreRelease <;>
    cases c.bound.isAny <;> simp

/-- **A bound that is a pre-release of anything** lets nothing pass, behind any operator. -/
theorem Comparator.admits_anything_eq_false (c : Comparator) (hpre : c.bound.isPreRelease = true)
    (hany : c.bound.isAny = true) : c.admits options v = false := by
  simp [admits, hpre, hany]

/-! ### The three outcomes -/

namespace Operator

/-- The operator that asks for one outcome alone. -/
def ofOutcome : Ordering → Operator
  | .lt => .less
  | .eq => .equal
  | .gt => .greater

theorem relates_ofOutcome_iff {o outcome : Ordering} :
    (ofOutcome o).relates outcome = true ↔ outcome = o := by
  cases o <;> cases outcome <;> decide

/-- The spelling of that operator. -/
def outcomeSign : Ordering → String
  | .lt => "<"
  | .eq => "="
  | .gt => ">"

theorem exists_outcome_of_mem (h : sign ∈ ["<", "=", ">"]) : ∃ o, sign = outcomeSign o := by
  simp only [List.mem_cons, List.not_mem_nil, or_false] at h
  rcases h with rfl | rfl | rfl
  · exact ⟨.lt, rfl⟩
  · exact ⟨.eq, rfl⟩
  · exact ⟨.gt, rfl⟩

end Operator

/-! ### The text of an operator and a bound -/

namespace Comparator

open Operator (outcomeSign)

/-- Whether a text denotes a comparator that admits a version. -/
def Matches (text : String) (options : Options) (v : Version) : Prop :=
  ∃ c, parse text = .ok c ∧ c.admits options v = true

/-- **An operator in front of the text of a bound** is read as the two of them, as a comparator and
as a requirement. -/
theorem parse_sign_append (hT : Bound.parse T = .ok b) (htrim : Text.trim T.toList = T.toList)
    (hop : Operator.ofText? sign = some op) :
    parse (sign ++ T) = .ok ⟨op, b, sign ++ T⟩ ∧ ∀ options,
      Requirement.parse (sign ++ T) options = .ok ⟨[⟨[⟨op, b, sign ++ T⟩]⟩], options⟩ := by
  rw [Bound.parse, htrim] at hT
  obtain ⟨x, hx, hxT, hb⟩ := Bound.ofChars_eq_ok_iff.mp hT
  have htext : sign.toList ++ x.text = (sign ++ T).toList := by simp [hxT]
  constructor
  · have hread := Token.ofChars_text_mk hop (List.forall_mem_nil _) hx hb
    rwa [List.append_nil, htext, String.ofList_toList] at hread
  · have hclause := Clause.ofChars_sign_append sign op hop hx hb
    rw [htext, String.ofList_toList] at hclause
    exact fun options => Requirement.parse_of_clause hclause

section Matches

variable (hT : Bound.parse T = .ok b) (htrim : Text.trim T.toList = T.toList)

include hT htrim

/-- The versions that an operator in front of the text of a bound matches. -/
theorem matches_iff (hop : Operator.ofText? sign = some op) : Matches (sign ++ T) options v ↔
    (Comparator.mk op b (sign ++ T)).admits options v = true := by
  rw [Matches, (parse_sign_append hT htrim hop).1]
  simp

/-- The same for an operator without an upper end. -/
theorem matches_relation_iff (hop : Operator.ofText? sign = some op) (htilde : op ≠ .tilde)
    (hcaret : op ≠ .caret) : Matches (sign ++ T) options v ↔
      b.opens options v = true ∧ op.relates (b.position v) = true := by
  rw [matches_iff hT htrim hop, admits_eq_opens_and_relates _ htilde hcaret, Bool.and_eq_true]

/-- **The operator of an outcome** matches the versions with that outcome. -/
theorem matches_outcomeSign_iff (o : Ordering) : Matches (outcomeSign o ++ T) options v ↔
    b.opens options v = true ∧ b.position v = o := by
  have hop : Operator.ofText? (outcomeSign o) = some (.ofOutcome o) := by cases o <;> rfl
  have hrelation : Operator.ofOutcome o ≠ .tilde ∧ Operator.ofOutcome o ≠ .caret := by
    cases o <;> decide
  rw [matches_relation_iff hT htrim hop hrelation.1 hrelation.2, Operator.relates_ofOutcome_iff]

/-- An operator that asks for one of two outcomes matches what their own operators match. -/
theorem matches_iff_or (hop : Operator.ofText? sign = some op) (htilde : op ≠ .tilde)
    (hcaret : op ≠ .caret) {o o' : Ordering}
    (h : ∀ outcome, op.relates outcome = true ↔ outcome = o ∨ outcome = o') :
    Matches (sign ++ T) options v ↔
      Matches (outcomeSign o ++ T) options v ∨ Matches (outcomeSign o' ++ T) options v := by
  rw [matches_relation_iff hT htrim hop htilde hcaret, matches_outcomeSign_iff hT htrim,
    matches_outcomeSign_iff hT htrim, h, and_or_left]

end Matches

/-- **The operators on one bound fit together.** In front of the text of a bound each operator, in
each of its spellings, is read as a comparator, which is all of the requirement that the text is.
The weak inequalities match what one of their two parts does, and no version is matched by two of
the three operators that ask for a single outcome. One of the three matches a version that is
compared at face value, unless the bound is a pre-release of anything; and in front of such a bound
none of the operators ever matches. -/
theorem parse_trichotomy (T : String) (b : Bound) (hT : Bound.parse T = .ok b)
    (htrim : Text.trim T.toList = T.toList) (options : Options) :
    (∀ sign op, Operator.ofText? sign = some op → ∃ c, parse (sign ++ T) = .ok c ∧
        c.operator = op ∧ c.bound = b ∧
        Requirement.parse (sign ++ T) options = .ok ⟨[⟨[c]⟩], options⟩) ∧
      (∀ v, (Matches (">=" ++ T) options v ↔
            Matches (">" ++ T) options v ∨ Matches ("=" ++ T) options v) ∧
          (Matches ("<=" ++ T) options v ↔
            Matches ("<" ++ T) options v ∨ Matches ("=" ++ T) options v) ∧
          (∀ sign ∈ ["<", "=", ">"], ∀ sign' ∈ ["<", "=", ">"],
            Matches (sign ++ T) options v → Matches (sign' ++ T) options v → sign = sign') ∧
          (¬(b.isPreRelease = true ∧ b.isAny = true) → FaceValue options v →
            ∃ sign ∈ ["<", "=", ">"], Matches (sign ++ T) options v)) ∧
      (b.isPreRelease = true → b.isAny = true →
        ∀ sign op, Operator.ofText? sign = some op → ∀ v, ¬Matches (sign ++ T) options v) := by
  refine ⟨fun sign op hop => ?_, fun v => ⟨?_, ?_, ?_, fun hb hface => ?_⟩, ?_⟩
  · obtain ⟨hcomparator, hrequirement⟩ := parse_sign_append hT htrim hop
    exact ⟨_, hcomparator, rfl, rfl, hrequirement options⟩
  · have hop : Operator.ofText? ">=" = some .greaterEqual := rfl
    change _ ↔ Matches (outcomeSign .gt ++ T) options v ∨ Matches (outcomeSign .eq ++ T) options v
    exact matches_iff_or hT htrim hop (by decide) (by decide) (by decide)
  · have hop : Operator.ofText? "<=" = some .lessEqual := rfl
    change _ ↔ Matches (outcomeSign .lt ++ T) options v ∨ Matches (outcomeSign .eq ++ T) options v
    exact matches_iff_or hT htrim hop (by decide) (by decide) (by decide)
  · intro sign hsign sign' hsign' h h'
    obtain ⟨o, rfl⟩ := Operator.exists_outcome_of_mem hsign
    obtain ⟨o', rfl⟩ := Operator.exists_outcome_of_mem hsign'
    rw [matches_outcomeSign_iff hT htrim] at h h'
    rw [← h.2, ← h'.2]
  · refine ⟨outcomeSign (b.position v), by cases b.position v <;> decide, ?_⟩
    exact (matches_outcomeSign_iff hT htrim _).mpr ⟨Bound.opens_of_faceValue hb hface, rfl⟩
  · intro hpre hany sign op hop v h
    rw [matches_iff hT htrim hop, admits_anything_eq_false _ hpre hany] at h
    exact Bool.false_ne_true h

/-- A pre-release that a wildcard covers, and a release above all that it covers; and a bound that
is a pre-release of anything, which keeps out even the version that is written like it. -/
theorem parse_trichotomy_wildcards :
    (Matches ">=1.x-rc" {} ⟨1, 5, 0, [⟨"alpha"⟩], []⟩ ∧
        ¬Matches ">1.x-rc" {} ⟨1, 5, 0, [⟨"alpha"⟩], []⟩) ∧
      (∃ sign ∈ ["<", "=", ">"], Matches (sign ++ "1.x-rc") {} ⟨2, 0, 0, [], []⟩) ∧
      ¬Matches "^*.2.3-0" { includePreRelease := true } ⟨1, 2, 3, [⟨"0"⟩], []⟩ := by
  have hT : Bound.parse "1.x-rc" =
      .ok ⟨.number 1, .wildcard, .wildcard, .identifiers [⟨"rc"⟩]⟩ := by cbv
  have hanything : Bound.parse "*.2.3-0" =
      .ok ⟨.wildcard, .number 2, .number 3, .identifiers [⟨"0"⟩]⟩ := by cbv
  have hequal : Matches ("=" ++ "1.x-rc") {} ⟨1, 5, 0, [⟨"alpha"⟩], []⟩ :=
    ⟨⟨.equal, ⟨.number 1, .wildcard, .wildcard, .identifiers [⟨"rc"⟩]⟩, "=1.x-rc"⟩,
      by cbv, by decide⟩
  obtain ⟨-, hoperators, -⟩ := parse_trichotomy "1.x-rc" _ hT (by decide) {}
  obtain ⟨hgreaterEqual, -, honce, -⟩ := hoperators ⟨1, 5, 0, [⟨"alpha"⟩], []⟩
  obtain ⟨-, -, -, hone⟩ := hoperators ⟨2, 0, 0, [], []⟩
  obtain ⟨-, -, hnone⟩ :=
    parse_trichotomy "*.2.3-0" _ hanything (by decide) { includePreRelease := true }
  refine ⟨⟨hgreaterEqual.mpr (Or.inr hequal), fun hgreater => ?_⟩,
    hone (by decide) (Or.inr (by decide)), hnone (by decide) (by decide) "^" .caret rfl _⟩
  exact absurd (honce ">" (by decide) "=" (by decide) hgreater hequal) (by decide)

end Comparator

end Semver
