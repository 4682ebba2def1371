import Semver.Proofs.Bound.RangeEnd
import Semver.Proofs.Bound.Spelling

/-!
# Comparators of one meaning

Everything that is asked of a bound comes down to two things. One is its line, the numbers before
the first wildcard: the comparison with a version stops where the line does, and so do the ends of
ranges. The other is what its pre-release is like in comparisons, and not how the pre-release is
written. Two bounds that agree in both are alike, and alike bounds are interchangeable: behind any
operator, under any options, they admit the same versions.

A comparator can be written in many ways, and most of them are alike. Its operator may have several
spellings, a number any zeros in front, a wildcard one of three marks or none; numeric identifiers
have more than one text; a `v`, blanks and build metadata may be added at will. And whatever comes
after the first wildcard is read, but not looked at again.

* `Semver.Bound.lineOrder_eq_compareLex`: the line is compared as a row of numbers.
* `Semver.Bound.Alike`: bounds with the same line and with pre-releases that compare alike.
* `Semver.Comparator.admits_congr_bound`: alike bounds admit the same versions.
* `Semver.Bound.alike_upToWildcard`: a bound is alike to itself without what comes after a wildcard.
* `Semver.Token.Synonymous`: tokens whose pieces mean the same, one by one.
* `Semver.Comparator.parse_synonyms`: such tokens are read as comparators of the same versions.
* `Semver.Comparator.admits_upToWildcard`: so are bounds that differ after their first wildcard.
-/

namespace Semver

/-! ### What the line decides -/

/-- **One step along a line**: a number goes on to the later components, and a wildcard ends the
line as it ends the comparison. -/
theorem Component.compareNumber_eq_compareLex (c : Component) {n : Number} {later : Ordering}
    {components : List Component} {ns : List Number}
    (hlater : later =
      List.compareLex compare (leading components) (ns.take (leading components).length)) :
    c.compareNumber n later = List.compareLex compare (leading (c :: components))
      ((n :: ns).take (leading (c :: components)).length) := by
  cases c with
  | wildcard => rfl
  | number m =>
    rw [leading, List.length_cons, List.take_succ_cons, List.compareLex_cons_cons, ← hlater]
    rfl

namespace Bound

variable {b b' : Bound}

/-- **The line of a bound is compared as a row of numbers** with those that a version has in their
places. -/
theorem lineOrder_eq_compareLex (b : Bound) (v : Version) :
    b.lineOrder v = List.compareLex compare b.line (v.numbers.take b.line.length) :=
  b.major.compareNumber_eq_compareLex <|
    b.minor.compareNumber_eq_compareLex <|
      b.patch.compareNumber_eq_compareLex rfl

/-- A bound without wildcards is one with a line of three numbers. -/
theorem isConcrete_iff_length_line : b.IsConcrete ↔ b.line.length = 3 := by
  obtain ⟨major, minor, patch, pre⟩ := b
  cases major <;> cases minor <;> cases patch <;> simp [IsConcrete, line, Component.leading]

/-- A bound that covers all versions is one with an empty line. -/
theorem isAny_iff_line : b.isAny = true ↔ b.line = [] := by
  obtain ⟨major, minor, patch, pre⟩ := b
  cases major <;> simp [isAny, line, Component.leading]

/-- Whether a bound is a pre-release shows in the comparison with a release, which pre-releases
precede. -/
theorem isPreRelease_eq_isLT (b : Bound) : b.isPreRelease = (b.pre.comparePre []).isLT := by
  obtain ⟨major, minor, patch, pre⟩ := b
  cases pre with
  | wildcard => rfl
  | identifiers ids => cases ids <;> rfl

end Bound

/-- What a range keeps of a bound is taken from its line. -/
theorem Operator.kept_congr (op : Operator) {b b' : Bound} (h : b.line = b'.line) :
    op.kept b = op.kept b' := by
  cases op <;> simp only [kept, h]

/-! ### Alike bounds -/

namespace Bound

/-- **Bounds that are alike**: they have the same line, and their pre-releases come out the same
against every pre-release. -/
structure Alike (b b' : Bound) : Prop where
  line : b.line = b'.line
  pre : ∀ ids, b.pre.comparePre ids = b'.pre.comparePre ids

namespace Alike

variable {b b' : Bound} (h : b.Alike b')

include h

theorem isAny_eq : b.isAny = b'.isAny := by
  rw [Bool.eq_iff_iff, isAny_iff_line, isAny_iff_line, h.line]

theorem isConcrete_iff : b.IsConcrete ↔ b'.IsConcrete := by
  rw [isConcrete_iff_length_line, isConcrete_iff_length_line, h.line]

theorem isPreRelease_eq : b.isPreRelease = b'.isPreRelease := by
  rw [isPreRelease_eq_isLT, isPreRelease_eq_isLT, h.pre]

/-- The releases of alike bounds are alike. -/
theorem release : b.release.Alike b'.release :=
  ⟨h.line, fun _ => rfl⟩

theorem lineOrder_eq (v : Version) : b.lineOrder v = b'.lineOrder v := by
  rw [lineOrder_eq_compareLex, lineOrder_eq_compareLex, h.line]

/-- **A version stands in the same place relative to alike bounds.** -/
theorem position_eq (v : Version) : b.position v = b'.position v := by
  rw [position, position, compareVersion_eq_then, compareVersion_eq_then, h.lineOrder_eq,
    if_congr h.isConcrete_iff (h.pre v.pre) rfl]

theorem onReleaseLine_eq (v : Version) : b.onReleaseLine v = b'.onReleaseLine v :=
  congrArg Ordering.isEq (h.release.position_eq v.release)

/-- **The ranges of alike bounds end in the same place.** -/
theorem end?_eq (op : Operator) : op.end? b = op.end? b' := by
  rw [Operator.end?_eq_endOf?, Operator.end?_eq_endOf?, op.kept_congr h.line]

theorem withinEnd_eq (op : Operator) (lineOnly : Bool) (v : Version) :
    b.withinEnd (op.end? b) lineOnly v = b'.withinEnd (op.end? b') lineOnly v := by
  simp only [withinEnd, h.release.position_eq, h.end?_eq]

theorem operatorAdmits_eq (op : Operator) (options : Options) (v : Version) :
    op.admits b options v = op.admits b' options v := by
  have htilde := h.withinEnd_eq .tilde
  have hcaret := h.withinEnd_eq .caret
  simp only [Operator.end?] at htilde hcaret
  simp only [Operator.admits, h.isPreRelease_eq, h.position_eq, h.onReleaseLine_eq, htilde, hcaret]

end Alike

end Bound

/-- **Alike bounds admit the same versions** behind the same operator, whatever texts the
comparators were read from. -/
theorem Comparator.admits_congr_bound {b b' : Bound} (h : b.Alike b') (op : Operator)
    (text text' : String) (options : Options) (v : Version) :
    (Comparator.mk op b text).admits options v = (Comparator.mk op b' text').admits options v := by
  rw [admits, admits, h.operatorAdmits_eq, h.isPreRelease_eq, h.isAny_eq]

/-! ### Bounds without what comes after a wildcard -/

namespace Bound

/-- **A bound up to its first wildcard**: the components after that are wildcards as well. -/
def upToWildcard (b : Bound) : Bound :=
  match b.major, b.minor with
  | .wildcard, _ => { b with minor := .wildcard, patch := .wildcard }
  | .number _, .wildcard => { b with patch := .wildcard }
  | .number _, .number _ => b

/-- **What comes after the first wildcard does not count**: without it a bound has the same line. -/
theorem alike_upToWildcard (b : Bound) : b.Alike b.upToWildcard := by
  obtain ⟨major, minor, patch, pre⟩ := b
  cases major with
  | wildcard => exact ⟨rfl, fun _ => rfl⟩
  | number m =>
    cases minor with
    | wildcard => exact ⟨rfl, fun _ => rfl⟩
    | number n => exact ⟨rfl, fun _ => rfl⟩

end Bound

/-! ### Pieces that mean the same -/

namespace Operator

/-- The spellings of the operators that have more than one. -/
def synonyms : List (List (List Char)) :=
  [[[], ['='], ['=', '=']], [['>', '='], ['=', '>']], [['<', '='], ['=', '<']]]

/-- **Spellings of one operator**: the same spelling, or two from one row of the table. -/
def Synonyms (w w' : List Char) : Prop :=
  w = w' ∨ ∃ row ∈ synonyms, w ∈ row ∧ w' ∈ row

instance (w w' : List Char) : Decidable (Synonyms w w') :=
  inferInstanceAs (Decidable (_ ∨ _))

/-- Spellings of one operator are looked up as the same operator. -/
theorem Synonyms.ofText?_eq {w w' : List Char} (h : Synonyms w w') :
    ofText? (String.ofList w) = ofText? (String.ofList w') := by
  rcases h with rfl | ⟨row, hrow, hw, hw'⟩
  · rfl
  · have hall : ∀ row ∈ synonyms, ∀ w ∈ row, ∀ w' ∈ row,
        ofText? (String.ofList w) = ofText? (String.ofList w') := by
      decide
    exact hall row hrow w hw w' hw'

end Operator

/-- **Texts of one component**: there is a component that both may be written as. A text may be
missing, as that of a wildcard. -/
def Component.SameValue (run? run?' : Option (List Char)) : Prop :=
  ∃ c : Component, c.WrittenAs run? ∧ c.WrittenAs run?'

/-- Components with texts of one component are the same. -/
theorem Component.SameValue.eq {run? run?' : Option (List Char)} {c c' : Component}
    (h : SameValue run? run?') (hc : c.WrittenAs run?) (hc' : c'.WrittenAs run?') : c = c' := by
  obtain ⟨d, hd, hd'⟩ := h
  exact (hc.unique hd).trans (hd'.unique hc')

namespace Token

/-- **A token spells a text** if it is well-formed and its pieces make up the text. -/
def Spells (t : Token) (text : String) : Prop :=
  t.WellFormed ∧ t.text = text.toList

/-- **Tokens whose pieces mean the same**: the operators are synonyms, the components have the same
values in each place, and the identifiers of the pre-releases are of one precedence. Nothing is
asked of the `v`, of the blanks behind the operator and of the build metadata. -/
structure Synonymous (t t' : Token) : Prop where
  sign : Operator.Synonyms t.sign t'.sign
  major : Component.SameValue (some t.shape.major) (some t'.shape.major)
  minor : Component.SameValue t.shape.minor t'.shape.minor
  patch : Component.SameValue t.shape.patch t'.shape.patch
  pre : PreRelease.precedence (t.shape.pre.map .ofList) (t'.shape.pre.map .ofList) = .eq

variable {t t' : Token} {text : String} {c : Comparator}

/-- A comparator that is read from the text of a token has the operator of the token and a bound
that is written in its pieces. -/
theorem Spells.pieces_of_parse (h : t.Spells text) (hc : Comparator.parse text = .ok c) :
    Operator.ofText? (String.ofList t.sign) = some c.operator ∧ c.bound.WrittenAs t.shape := by
  obtain ⟨ht, htext⟩ := h
  rw [Comparator.parse, ← htext, ofChars_text_eq_ok_iff ht, comparator?_eq_some_iff] at hc
  obtain ⟨hop, hb, -⟩ := hc
  exact ⟨hop, Bound.writtenAs_of_bound? ht.shape hb⟩

/-- **Bounds that are written in pieces of the same meaning are alike.** They have the same
components; their pre-releases need not be the same. -/
theorem Synonymous.alike (h : t.Synonymous t') {b b' : Bound} (hb : b.WrittenAs t.shape)
    (hb' : b'.WrittenAs t'.shape) : b.Alike b' := by
  refine ⟨?_, fun ids => ?_⟩
  · rw [Bound.line, Bound.line, h.major.eq hb.major hb'.major, h.minor.eq hb.minor hb'.minor,
      h.patch.eq hb.patch hb'.patch]
  · rw [hb.pre, hb'.pre]
    exact Std.TransCmp.congr_left h.pre

end Token

namespace Comparator

open Identifier (IsWord isWordChar)
open Token (Spells Synonymous)

/-- Text that is read as a comparator and is not empty is spelled by a token. -/
theorem exists_spells {s : String} {c : Comparator} (hs : s ≠ "") (h : parse s = .ok c) :
    ∃ t : Token, t.Spells s := by
  have hne : s.toList ≠ [] := fun hnil => hs (String.toList_eq_nil_iff.mp hnil)
  rcases exists_token_or_malformed hne with htoken | hmalformed
  · exact htoken
  · rw [parse, hmalformed] at h
    cases h

/-- **Spelling does not change what a comparator means.** Two texts that are read as comparators and
are not empty are spelled by tokens. If the pieces of their tokens mean the same, the comparators
have the same operator and admit the same versions, whatever the options. -/
theorem parse_synonyms (s s' : String) (hs : s ≠ "") (hs' : s' ≠ "") (c c' : Comparator)
    (h : parse s = .ok c) (h' : parse s' = .ok c') :
    (∃ t : Token, t.Spells s) ∧ (∃ t' : Token, t'.Spells s') ∧
      ∀ t t' : Token, t.Spells s → t'.Spells s' → t.Synonymous t' →
        c.operator = c'.operator ∧ ∀ options v, c.admits options v = c'.admits options v := by
  refine ⟨exists_spells hs h, exists_spells hs' h', fun t t' ht ht' hsame => ?_⟩
  obtain ⟨hop, hbound⟩ := ht.pieces_of_parse h
  obtain ⟨hop', hbound'⟩ := ht'.pieces_of_parse h'
  have hoperator : c.operator = c'.operator :=
    Option.some.inj (hop.symm.trans (hsame.sign.ofText?_eq.trans hop'))
  refine ⟨hoperator, fun options v => ?_⟩
  obtain ⟨op, b, text⟩ := c
  obtain ⟨op', b', text'⟩ := c'
  obtain rfl : op = op' := hoperator
  exact admits_congr_bound (hsame.alike hbound hbound') op text text' options v

/-- Two texts of one comparator that have hardly a character in common. -/
theorem parse_synonyms_spellings :
    ∃ c c' : Comparator, parse ">=\t v01.X-01.rc+b" = .ok c ∧ parse "=>1.*.x-1.rc" = .ok c' ∧
      c.operator = c'.operator ∧ ∀ options v, c.admits options v = c'.admits options v := by
  have h : parse ">=\t v01.X-01.rc+b" = .ok ⟨.greaterEqual, ⟨.number 1, .wildcard, .wildcard,
      .identifiers [⟨"01"⟩, ⟨"rc"⟩]⟩, ">=\t v01.X-01.rc+b"⟩ := by cbv
  have h' : parse "=>1.*.x-1.rc" = .ok ⟨.greaterEqual, ⟨.number 1, .wildcard, .wildcard,
      .identifiers [⟨"1"⟩, ⟨"rc"⟩]⟩, "=>1.*.x-1.rc"⟩ := by cbv
  have ht : (Token.mk ['>', '='] ['\t', ' '] ⟨true, ['0', '1'], some ['X'], none,
      [['0', '1'], ['r', 'c']], [['b']]⟩).Spells ">=\t v01.X-01.rc+b" :=
    ⟨⟨by decide, by simp [Text.isBlank, Text.blankRanges],
      ⟨rfl, by decide, by decide, by decide, by simp [IsWord, isWordChar],
        by simp [IsWord, isWordChar]⟩⟩, by cbv⟩
  have ht' : (Token.mk ['=', '>'] [] ⟨false, ['1'], some ['*'], some ['x'],
      [['1'], ['r', 'c']], []⟩).Spells "=>1.*.x-1.rc" :=
    ⟨⟨by decide, by simp, ⟨rfl, by decide, by decide, by decide, by simp [IsWord, isWordChar],
      by simp⟩⟩, by cbv⟩
  obtain ⟨-, -, hsame⟩ := parse_synonyms _ _ (by decide) (by decide) _ _ h h'
  refine ⟨_, _, h, h', hsame _ _ ht ht' ⟨by decide, ⟨.number 1, ?_, ?_⟩, ⟨.wildcard, ?_, ?_⟩,
    ⟨.wildcard, .absent, ?_⟩, by decide⟩⟩
  · exact .digits ⟨by decide, by simp, by cbv⟩
  · exact .digits ⟨by decide, by simp, by cbv⟩
  · exact .mark (by decide)
  · exact .mark (by decide)
  · exact .mark (by decide)

/-! ### What comes after a wildcard -/

/-- The comparator of a bound with three components, the second of which is a wildcard. -/
theorem parse_wildcardMinor {sign M P : String} {op : Operator} {m : Number} {c : Component}
    {words : List (List Char)} (hop : Operator.ofText? sign = some op) (hM : m.WrittenAs M.toList)
    (hP : c.WrittenAs (some P.toList)) (hwords : ∀ w ∈ words, IsWord w) :
    ∃ text, parse (sign ++ M ++ ".x." ++ P ++ String.ofList (Identifier.joinMarked '-' words)) =
      .ok ⟨op, ⟨.number m, .wildcard, c, .identifiers (words.map .ofList)⟩, text⟩ := by
  obtain ⟨hmajor, hmajorValue⟩ := (Component.WrittenAs.digits hM).isText_and_ofText?
  obtain ⟨hpatch, hpatchValue⟩ := hP.isText_and_ofText?
  have hmark : Component.ofText? ['x'] = some .wildcard := rfl
  have hx : (Bound.Shape.mk false M.toList (some ['x']) (some P.toList) words []).WellFormed :=
    ⟨hmajor, by simp [Component.isText, Component.isWildcardMark], by simpa using hpatch, by simp,
      hwords, by simp⟩
  have hb : (Bound.Shape.mk false M.toList (some ['x']) (some P.toList) words []).bound? =
      some ⟨.number m, .wildcard, c, .identifiers (words.map .ofList)⟩ :=
    Bound.Shape.bound?_eq_some_iff.mpr ⟨hmajorValue, hmark, hpatchValue, rfl⟩
  have hread := Token.ofChars_text_mk hop (List.forall_mem_nil _) hx hb
  refine ⟨_, Eq.trans (congrArg ofChars ?_) hread⟩
  simp [Bound.Shape.text_eq, Identifier.joinMarked]

/-- **What comes after the first wildcard of a bound does not matter.** With wildcards in its place
the ends of the ranges are the same, and behind every operator and under all options the same
versions are admitted. So a bound that is written with a number, an `x` and any third component is
read as if that were an `x` as well. -/
theorem admits_upToWildcard :
    (∀ b : Bound, b.tildeEnd? = b.upToWildcard.tildeEnd? ∧
        b.caretEnd? = b.upToWildcard.caretEnd? ∧ ∀ op text text' options v,
          (Comparator.mk op b text).admits options v =
            (Comparator.mk op b.upToWildcard text').admits options v) ∧
      ∀ (sign M P : String) (op : Operator) (m : Number) (words : List (List Char)),
        Operator.ofText? sign = some op → m.WrittenAs M.toList →
        (∃ c : Component, c.WrittenAs (some P.toList)) → (∀ w ∈ words, IsWord w) →
        ∃ c c', parse (sign ++ M ++ ".x." ++ P ++
            String.ofList (Identifier.joinMarked '-' words)) = .ok c ∧
          parse (sign ++ M ++ ".x." ++ "x" ++
            String.ofList (Identifier.joinMarked '-' words)) = .ok c' ∧
          c'.operator = op ∧ c'.bound = c.bound.upToWildcard ∧
          ∀ options v, c.admits options v = c'.admits options v := by
  constructor
  · intro b
    have halike := b.alike_upToWildcard
    exact ⟨halike.end?_eq .tilde, halike.end?_eq .caret, admits_congr_bound halike⟩
  · rintro sign M P op m words hop hM ⟨c, hP⟩ hwords
    have hx : Component.wildcard.WrittenAs (some "x".toList) := .mark (Or.inl rfl)
    obtain ⟨text, hparse⟩ := parse_wildcardMinor hop hM hP hwords
    obtain ⟨text', hparse'⟩ := parse_wildcardMinor hop hM hx hwords
    exact ⟨_, _, hparse, hparse', rfl, rfl,
      admits_congr_bound (Bound.alike_upToWildcard _) op text text'⟩

/-- A caret and a bound whose second component is a wildcard: a number after that counts for as much
as another wildcard. -/
theorem admits_upToWildcard_number :
    (Bound.mk (.number 0) .wildcard (.number 7) (.identifiers [⟨"rc"⟩])).caretEnd? =
        (Bound.mk (.number 0) .wildcard .wildcard (.identifiers [⟨"rc"⟩])).caretEnd? ∧
      ∃ c c', parse "^00.x.7-rc" = .ok c ∧ parse "^00.x.x-rc" = .ok c' ∧
        ∀ options v, c.admits options v = c'.admits options v := by
  obtain ⟨hbounds, htexts⟩ := admits_upToWildcard
  have hmajor : Number.WrittenAs 0 "00".toList := ⟨by decide, by simp, by cbv⟩
  have hpatch : (Component.number 7).WrittenAs (some "7".toList) :=
    .digits ⟨by decide, by simp, by cbv⟩
  obtain ⟨c, c', hparse, hparse', -, -, hsame⟩ := htexts "^" "00" "7" .caret 0 [['r', 'c']] rfl
    hmajor ⟨_, hpatch⟩ (by simp [IsWord, isWordChar])
  have htext : "^" ++ "00" ++ ".x." ++ "7" ++ String.ofList
      (Identifier.joinMarked '-' [['r', 'c']]) = "^00.x.7-rc" := by cbv
  have htext' : "^" ++ "00" ++ ".x." ++ "x" ++ String.ofList
      (Identifier.joinMarked '-' [['r', 'c']]) = "^00.x.x-rc" := by cbv
  rw [htext] at hparse
  rw [htext'] at hparse'
  exact ⟨(hbounds _).2.1, c, c', hparse, hparse', hsame⟩

end Comparator

end Semver
