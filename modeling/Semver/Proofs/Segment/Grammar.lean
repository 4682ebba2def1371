import Mathlib
import Semver.Proofs.Bound.Grammar
import Semver.Proofs.Segment.Rows

/-!
# The grammar of segments

A segment is a row of comparators, with blanks wherever they do no harm and at most one comma behind
each of them. As a grammar, over the bounds of `Semver.Grammar.Bound`:

```text
segment    ::= blank* ( comparator separator )*
separator  ::= blank* ','? blank*
comparator ::= bound | operator blank* bound
```

This grammar is exact: the segments that are checked to be valid are those that it derives, and the
tokens of such a segment are the comparators of any derivation, in order. In particular all its
derivations have the same comparators, and nothing is lost between them but blanks and commas.

* `Semver.Grammar.Row`: a row of comparators with the separators behind them.
* `Semver.Grammar.Segment`: a segment with its comparators.
* `Semver.Token.Delimited`: a token that stands in front of a text like a comparator.
* `Semver.Grammar.comparator_iff`: the comparators of the grammar are these tokens.
* `Semver.Grammar.Row.scanTokens`: a row is scanned into its comparators.
* `Semver.Segment.grammar_exact`: the grammar and the scan agree.
* `Semver.Segment.Joins`: what may stand between a segment and the next one.
* `Semver.Grammar.Segment.append`: the comparators of two joined segments.
* `Semver.Segment.tokens_append`: so the tokens of two joined segments.
* `Semver.Grammar.Segment.bar_notMem`: no bar stands in a segment.
* `Semver.Segment.split_append`: a text is cut at the bars that join two texts.
-/

namespace Semver

open Text (Stops stops_nil stops_cons)

variable {s t u rest : List Char} {piece : List Char} {pieces : List (List Char)}

/-! ### The relations -/

namespace Grammar

/-- **A comparator** at the front of a text: a bound, or an operator, blanks and a bound. -/
inductive Comparator : List Char → List Char → Prop
  | plain {s rest : List Char} (hbound : Bound s rest) : Comparator s rest
  | signed {sign gap s rest : List Char} (hsign : sign ∈ Operator.spellings)
      (hgap : ∀ c ∈ gap, Text.isBlank c = true) (hbound : Bound s rest) :
      Comparator (sign ++ (gap ++ s)) rest

/-- **A separator** at the front of a text: blanks, with one comma among them or none. -/
inductive Separator : List Char → List Char → Prop
  | blanks {gap rest : List Char} (hgap : ∀ c ∈ gap, Text.isBlank c = true) :
      Separator (gap ++ rest) rest
  | comma {before after rest : List Char} (hbefore : ∀ c ∈ before, Text.isBlank c = true)
      (hafter : ∀ c ∈ after, Text.isBlank c = true) :
      Separator (before ++ ',' :: (after ++ rest)) rest

/-- **A row** of comparators, each with the separator behind it, that makes up a text. -/
inductive Row : List Char → List (List Char) → Prop
  | nil : Row [] []
  | cons {piece rest s : List Char} {pieces : List (List Char)}
      (hpiece : Comparator (piece ++ rest) rest) (hseparator : Separator rest s)
      (hrow : Row s pieces) : Row (piece ++ rest) (piece :: pieces)

/-- **A segment** with its comparators: a row behind blanks. -/
inductive Segment : List Char → List (List Char) → Prop
  | mk {gap s : List Char} {pieces : List (List Char)} (hgap : ∀ c ∈ gap, Text.isBlank c = true)
      (hrow : Row s pieces) : Segment (gap ++ s) pieces

end Grammar

/-! ### Comparators and tokens -/

namespace Token

variable {t : Token}

/-- **A token in front of a text**, such that the text does not lengthen it and no blanks stand at
its own front. -/
structure Delimited (t : Token) (rest : List Char) : Prop where
  wellFormed : t.WellFormed
  gap_eq_nil : t.sign = [] → t.gap = []
  endsBefore : t.shape.EndsBefore rest

/-- A token that is scanned where no blank stands is delimited by what follows it. -/
theorem delimited_of_scan (hs : Stops Text.isBlank s) (h : scan s = some (t, rest)) :
    t.Delimited rest := by
  have hwell := wellFormed_of_scan h
  simp only [scan] at h
  split at h
  · cases h
  next shape after hshape =>
    obtain ⟨rfl, rfl⟩ := Prod.mk.inj (Option.some.inj h)
    refine ⟨hwell, fun hsign => ?_, Bound.Shape.endsBefore_of_scan hshape⟩
    -- without an operator the blanks would stand at the front of the text
    have hsign' : (Operator.scan s).1 = [] := hsign
    have hrest := Operator.append_scan s
    rw [hsign', List.nil_append] at hrest
    rw [hrest, Text.takeWhile_of_stops hs]

/-- A delimited token is scanned again where no mark announces a further piece of its shape. -/
theorem Delimited.scan (h : t.Delimited rest) (hmark : Stops Bound.Shape.isMark rest) :
    Token.scan (t.text ++ rest) = some (t, rest) :=
  scan_text_append h.wellFormed (h.endsBefore.stops hmark)

/-- More text may follow what delimits a token; if that was the end, no character of a shape may
come next. -/
theorem Delimited.append (h : t.Delimited rest)
    (hu : rest = [] → Stops Bound.Shape.isShapeChar u) : t.Delimited (rest ++ u) :=
  ⟨h.wellFormed, h.gap_eq_nil, h.endsBefore.append hu⟩

/-- The characters that a token may start with, if not with a blank. -/
def isFirstChar (c : Char) : Bool :=
  Operator.isSignChar c || c == 'v' || Component.isTextChar c

/-- No token starts with a blank, a comma or a mark inside a bound. -/
theorem isFirstChar_apart {c : Char} (h : isFirstChar c = true) :
    Text.isBlank c = false ∧ (c == ',') = false ∧ Bound.Shape.isMark c = false := by
  refine ⟨?_, ?_, ?_⟩
  · simp only [isFirstChar, Operator.isSignChar, Bool.or_eq_true, beq_iff_eq] at h
    rcases h with (((((rfl | rfl) | rfl) | rfl) | rfl) | rfl) | htext
    any_goals decide
    exact Bound.Shape.isBlank_eq_false_of_isShapeChar
      (Bound.Shape.isShapeChar_of_isTextChar htext)
  · exact Text.beq_mark_eq_false (by decide) h
  · refine Bool.eq_false_iff.mpr fun hmark => ?_
    simp only [Bound.Shape.isMark, Bool.or_eq_true, beq_iff_eq] at hmark
    rcases hmark with (rfl | rfl) | rfl <;> exact absurd h (by decide)

/-- A delimited token keeps away every class that no first character of a token belongs to. -/
theorem Delimited.stops {p : Char → Bool} (h : t.Delimited rest)
    (hp : ∀ c, isFirstChar c = true → p c = false) (s : List Char) : Stops p (t.text ++ s) := by
  have hshape : Stops p (t.shape.text ++ s) :=
    Bound.Shape.stops_text h.wellFormed.shape (hp 'v' (by decide))
      (fun c hc => hp c (by simp [isFirstChar, hc])) s
  rw [text, List.append_assoc, List.append_assoc]
  refine Stops.append (fun c hc => ?_) fun hsign => ?_
  · have hsign := Operator.isSignChar_of_mem_spelling h.wellFormed.sign c
      (List.mem_of_mem_head? hc)
    exact hp c (by simp [isFirstChar, hsign])
  · rwa [h.gap_eq_nil hsign]

end Token

/-- **The comparators of the grammar are the delimited tokens.** -/
theorem Grammar.comparator_iff : Grammar.Comparator s rest ↔
    ∃ t : Token, t.Delimited rest ∧ s = t.text ++ rest := by
  constructor
  · rintro (hbound | ⟨hsign, hgap, hbound⟩)
    · obtain ⟨x, hx, hend, rfl⟩ := Grammar.bound_iff.mp hbound
      exact ⟨⟨[], [], x⟩, ⟨⟨Or.inl rfl, by simp, hx⟩, fun _ => rfl, hend⟩, by simp [Token.text]⟩
    · obtain ⟨x, hx, hend, rfl⟩ := Grammar.bound_iff.mp hbound
      refine ⟨⟨_, _, x⟩, ⟨⟨Or.inr hsign, hgap, hx⟩, ?_, hend⟩, by simp [Token.text]⟩
      rintro rfl
      exact absurd hsign (by decide)
  · rintro ⟨t, ⟨⟨hsign, hgap, hx⟩, hnil, hend⟩, rfl⟩
    have hbound := Grammar.bound_iff.mpr ⟨t.shape, hx, hend, rfl⟩
    rcases hsign with hsign | hsign
    · simpa [Token.text, hsign, hnil hsign] using Comparator.plain hbound
    · simpa [Token.text] using Comparator.signed hsign hgap hbound

/-- A piece of a row is the text of a delimited token. -/
theorem Grammar.exists_token (h : Grammar.Comparator (piece ++ rest) rest) :
    ∃ t : Token, t.Delimited rest ∧ piece = t.text := by
  obtain ⟨t, ht, htext⟩ := comparator_iff.mp h
  exact ⟨t, ht, List.append_cancel_right htext⟩

/-! ### Separators -/

namespace Grammar

theorem separator_skipSeparator (s : List Char) : Separator s (Segment.skipSeparator s) := by
  have hblank : ∀ s : List Char, ∀ c ∈ s.takeWhile Text.isBlank, Text.isBlank c = true :=
    fun _ _ hc => List.mem_takeWhile_imp hc
  have hfront := Text.takeWhile_append_skipBlanks s
  cases hskip : Text.skipBlanks s with
  | nil =>
    have hnil : Segment.skipSeparator s = [] := by
      rw [Segment.skipSeparator, hskip]
      rfl
    rw [hskip] at hfront
    rw [hnil, ← hfront]
    exact .blanks (hblank s)
  | cons c u =>
    rw [hskip] at hfront
    rcases eq_or_ne c ',' with rfl | hc
    · -- the blanks behind the comma belong to the separator too
      have hback := Text.takeWhile_append_skipBlanks u
      have hsep : Segment.skipSeparator s = Text.skipBlanks u := by
        rw [Segment.skipSeparator, hskip, Text.skipMark_cons_self]
      have hcomma : Separator _ (Text.skipBlanks u) := .comma (hblank s) (hblank u)
      rwa [hback, hfront, ← hsep] at hcomma
    · have hsep : Segment.skipSeparator s = c :: u := by
        have hstop := Text.stops_skipBlanks s
        rw [hskip] at hstop
        rw [Segment.skipSeparator, hskip, Text.skipMark, if_neg hc, Text.skipBlanks_of_stops hstop]
      have hblanks : Separator _ (c :: u) := .blanks (hblank s)
      rwa [hfront, ← hsep] at hblanks

/-- A separator is skipped as a whole in front of a text that starts with neither a blank nor a
comma. -/
theorem Separator.skipSeparator_eq (h : Separator rest s) (hblank : Stops Text.isBlank s)
    (hcomma : Stops (· == ',') s) : Segment.skipSeparator rest = s := by
  cases h with
  | blanks hgap =>
    rw [Segment.skipSeparator, Text.skipBlanks_gap hgap hblank, Text.skipMark_of_stops hcomma,
      Text.skipBlanks_of_stops hblank]
  | comma hbefore hafter =>
    rw [Segment.skipSeparator, Text.skipBlanks_gap hbefore (stops_cons.mpr (by decide)),
      Text.skipMark_cons_self, Text.skipBlanks_gap hafter hblank]

/-- A separator and the text behind it keep away what neither starts with. -/
theorem Separator.stops {p : Char → Bool} (h : Separator rest s)
    (hblank : ∀ c, Text.isBlank c = true → p c = false) (hcomma : p ',' = false)
    (hs : Stops p s) : Stops p rest := by
  cases h with
  | blanks hgap => exact Text.stops_gap_append hblank hgap fun _ => hs
  | comma hbefore hafter =>
    exact Text.stops_gap_append hblank hbefore fun _ => stops_cons.mpr hcomma

/-! ### Rows -/

/-- A row keeps away every class that no first character of a token belongs to. -/
theorem Row.stops {p : Char → Bool} (h : Row s pieces)
    (hp : ∀ c, Token.isFirstChar c = true → p c = false) : Stops p s := by
  cases h with
  | nil => exact stops_nil p
  | cons hpiece hseparator hrow =>
    obtain ⟨t, ht, rfl⟩ := exists_token hpiece
    exact ht.stops hp _

/-- **A row is scanned into its comparators**, and nothing of it is left. -/
theorem Row.scanTokens (h : Row s pieces) :
    ∃ tokens, Segment.scanTokens s = (tokens, []) ∧ tokens.map Token.text = pieces := by
  induction h with
  | nil => exact ⟨[], Segment.scanTokens_nil, rfl⟩
  | cons hpiece hseparator hrow ih =>
    obtain ⟨t, ht, rfl⟩ := exists_token hpiece
    obtain ⟨tokens, hscan, rfl⟩ := ih
    have hmark : Stops Bound.Shape.isMark _ :=
      hseparator.stops (fun _ => Bound.Shape.isMark_eq_false_of_isBlank) (by decide)
        (hrow.stops fun c hc => (Token.isFirstChar_apart hc).2.2)
    have hskip := hseparator.skipSeparator_eq
      (hrow.stops fun c hc => (Token.isFirstChar_apart hc).1)
      (hrow.stops fun c hc => (Token.isFirstChar_apart hc).2.1)
    refine ⟨t :: tokens, ?_, rfl⟩
    rw [Segment.scanTokens_of_scan (ht.scan hmark), hskip, hscan]

/-- What is scanned to its end is a row of the tokens that are found. -/
theorem row_of_scanTokens (hs : Stops Text.isBlank s) (h : (Segment.scanTokens s).2 = []) :
    Row s ((Segment.scanTokens s).1.map Token.text) := by
  fun_induction Segment.scanTokens s with
  | case1 s hscan =>
    obtain rfl : s = [] := h
    exact .nil
  | case2 s token rest hscan more ih =>
    have htoken := Token.delimited_of_scan hs hscan
    have hrow := ih (Text.stops_skipBlanks _) h
    have hpiece := comparator_iff.mpr ⟨token, htoken, rfl⟩
    rw [← Token.text_append_of_scan hscan]
    exact .cons hpiece (separator_skipSeparator rest) hrow

end Grammar

namespace Segment

variable {segment : List Char}

/-- A segment of the grammar is scanned into its comparators, and nothing of it is left. -/
theorem scan_of_grammar (h : Grammar.Segment segment pieces) :
    ∃ tokens, scan segment = (tokens, []) ∧ tokens.map Token.text = pieces := by
  obtain ⟨hgap, hrow⟩ := h
  rw [scan, Text.skipBlanks_gap hgap (hrow.stops fun c hc => (Token.isFirstChar_apart hc).1)]
  exact hrow.scanTokens

theorem grammar_of_isValid (h : isValid segment = true) :
    Grammar.Segment segment ((scan segment).1.map Token.text) := by
  have hrow := Grammar.row_of_scanTokens (Text.stops_skipBlanks segment) (List.isEmpty_iff.mp h)
  have hgap : ∀ c ∈ segment.takeWhile Text.isBlank, Text.isBlank c = true :=
    fun _ hc => List.mem_takeWhile_imp hc
  have hsegment := Grammar.Segment.mk hgap hrow
  rwa [Text.takeWhile_append_skipBlanks] at hsegment

/-- **The grammar of segments is exact.** A segment is valid if and only if the grammar derives it.
All its derivations have the same comparators, and these are its tokens; without any comparator the
only token is the empty one. -/
theorem grammar_exact (segment : List Char) :
    (isValid segment = true ↔ ∃ pieces, Grammar.Segment segment pieces) ∧
      (∀ pieces pieces', Grammar.Segment segment pieces → Grammar.Segment segment pieces' →
        pieces = pieces') ∧
      ∀ pieces, Grammar.Segment segment pieces →
        tokens segment = if pieces = [] then [[]] else pieces := by
  have hscan : ∀ pieces, Grammar.Segment segment pieces →
      isValid segment = true ∧ (scan segment).1.map Token.text = pieces := by
    intro pieces hpieces
    obtain ⟨tokens, hscan, htexts⟩ := scan_of_grammar hpieces
    simp [isValid, hscan, htexts]
  refine ⟨⟨fun hvalid => ⟨_, grammar_of_isValid hvalid⟩, ?_⟩, ?_, ?_⟩
  · rintro ⟨pieces, hpieces⟩
    exact (hscan pieces hpieces).1
  · intro pieces pieces' hpieces hpieces'
    exact (hscan pieces hpieces).2.symm.trans (hscan pieces' hpieces').2
  · intro pieces hpieces
    obtain ⟨hvalid, rfl⟩ := hscan pieces hpieces
    rcases eq_or_ne (scan segment).1 [] with hnil | hne
    · rw [tokens_of_scan_eq_nil hvalid hnil, hnil]
      rfl
    · rw [tokens_of_scan_ne_nil hne, if_neg (by simpa using hne)]

/-- A segment whose separators are of every kind, and one that is none because its only component is
a digit in front of a wildcard mark. -/
theorem grammar_exact_separators :
    Grammar.Segment " >= 1.2.x,<2-rc.1+b *, ~v0=1 ".toList
        [">= 1.2.x".toList, "<2-rc.1+b".toList, "*".toList, "~v0".toList, "=1".toList] ∧
      ¬∃ pieces, Grammar.Segment "1x".toList pieces := by
  obtain ⟨hvalid, -, htokens⟩ := grammar_exact " >= 1.2.x,<2-rc.1+b *, ~v0=1 ".toList
  obtain ⟨pieces, hpieces⟩ := hvalid.mp (by cbv)
  have heq : tokens " >= 1.2.x,<2-rc.1+b *, ~v0=1 ".toList =
      [">= 1.2.x".toList, "<2-rc.1+b".toList, "*".toList, "~v0".toList, "=1".toList] := by cbv
  have hne : pieces ≠ [] := by
    rintro rfl
    rw [htokens [] hpieces] at heq
    exact absurd heq (by decide)
  rw [htokens pieces hpieces, if_neg hne] at heq
  rw [← heq]
  refine ⟨hpieces, fun hmixed => ?_⟩
  have hinvalid : isValid "1x".toList = false := by cbv
  rw [← (grammar_exact "1x".toList).1, hinvalid] at hmixed
  exact absurd hmixed (by decide)

end Segment

/-! ### Joined segments

Two segments are put together by a text between them: blanks, or a comma with blanks around it.
The row of the first goes on where it used to end, and the row of the second is one that starts
in the middle of a longer text. In the grammar nothing has to be said about the second, and for
the first only that its last comparator is delimited by whatever joins it to the next one. What
is left to mind is that a separator has room for one comma, so none may be added to a segment
that ends in one. -/

variable {sep gap front : List Char} {pieces' : List (List Char)}

namespace Segment

/-- **A segment ends in a comma** if a comma follows its last comparator: behind that comma there
are only blanks. -/
def EndsInComma (s : List Char) : Prop :=
  ∃ front gap, s = front ++ ',' :: gap ∧ ∀ c ∈ gap, Text.isBlank c = true

/-- **What joins a segment to the next one**: blanks, one at least, or a comma with blanks around it
if there are any. The comma has to be the only one. -/
inductive Joins (s : List Char) : List Char → Prop
  | blanks {gap : List Char} (hne : gap ≠ []) (hgap : ∀ c ∈ gap, Text.isBlank c = true) :
      Joins s gap
  | comma {before after : List Char} (hs : ¬EndsInComma s)
      (hbefore : ∀ c ∈ before, Text.isBlank c = true)
      (hafter : ∀ c ∈ after, Text.isBlank c = true) : Joins s (before ++ ',' :: after)

/-- Only the end of a segment matters to what joins it to the next one. -/
theorem Joins.of_append (h : Joins (front ++ s) sep) : Joins s sep := by
  cases h with
  | blanks hne hgap => exact .blanks hne hgap
  | comma hs hbefore hafter =>
    refine .comma (fun hcomma => hs ?_) hbefore hafter
    obtain ⟨front', gap, rfl, hgap⟩ := hcomma
    exact ⟨front ++ front', gap, (List.append_assoc _ _ _).symm, hgap⟩

/-- What joins two segments does not draw out the last comparator of the first. -/
theorem Joins.stops (h : Joins s sep) (u : List Char) :
    Stops Bound.Shape.isShapeChar (sep ++ u) := by
  have hblank : ∀ c, Text.isBlank c = true → Bound.Shape.isShapeChar c = false := by
    intro c hc
    refine Bool.eq_false_iff.mpr fun hshape => ?_
    rw [Bound.Shape.isBlank_eq_false_of_isShapeChar hshape] at hc
    exact absurd hc (by decide)
  cases h with
  | blanks hne hgap => exact Text.stops_gap_append hblank hgap fun hnil => absurd hnil hne
  | comma hs hbefore hafter =>
    rw [List.append_assoc]
    exact Text.stops_gap_append hblank hbefore fun _ => stops_cons.mpr (by decide)

end Segment

namespace Grammar

open Semver.Segment (Joins EndsInComma)

theorem Separator.append (h : Separator rest s) (u : List Char) :
    Separator (rest ++ u) (s ++ u) := by
  cases h with
  | blanks hgap => simpa using Separator.blanks hgap
  | comma hbefore hafter => simpa using Separator.comma hbefore hafter

/-- The last separator of a row, what joins the row to the next one, and the blanks before that one
are together a separator. -/
theorem Separator.join (h : Separator rest []) (hjoin : Joins rest sep)
    (hgap : ∀ c ∈ gap, Text.isBlank c = true) :
    Separator (rest ++ (sep ++ (gap ++ u))) u := by
  have happend : ∀ {s t : List Char}, (∀ c ∈ s, Text.isBlank c = true) →
      (∀ c ∈ t, Text.isBlank c = true) → ∀ c ∈ s ++ t, Text.isBlank c = true :=
    fun hs ht => List.forall_mem_append.mpr ⟨hs, ht⟩
  cases h with
  | @blanks last _ hlast =>
    cases hjoin with
    | blanks hne hsep => simpa using Separator.blanks (happend hlast (happend hsep hgap))
    | comma hs hbefore hafter =>
      simpa using Separator.comma (happend hlast hbefore) (happend hafter hgap)
  | @comma before after _ hbefore hafter =>
    cases hjoin with
    | blanks hne hsep =>
      simpa using Separator.comma hbefore (happend hafter (happend hsep hgap))
    | comma hs =>
      exact absurd ⟨before, after, by simp, hafter⟩ hs

/-- **A row goes on behind what joins it to the next one.** -/
theorem Row.append (h : Row s pieces) (hne : pieces ≠ []) (hjoin : Joins s sep)
    (hgap : ∀ c ∈ gap, Text.isBlank c = true) (hu : Row u pieces') :
    Row (s ++ (sep ++ (gap ++ u))) (pieces ++ pieces') := by
  induction h with
  | nil => exact absurd rfl hne
  | @cons piece rest s pieces hpiece hseparator hrow ih =>
    obtain ⟨t, ht, rfl⟩ := exists_token hpiece
    have hdelimited := ht.append fun _ => hjoin.stops (gap ++ u)
    have hpiece' := comparator_iff.mpr ⟨t, hdelimited, rfl⟩
    rw [List.append_assoc]
    rcases eq_or_ne pieces [] with rfl | hmore
    · -- the comparator was the last one, and its separator extends to the next row
      cases hrow
      exact .cons hpiece' (hseparator.join hjoin.of_append hgap) hu
    · have hjoin' : Joins s sep := by
        have hsuffix : ∃ front, rest = front ++ s := by
          cases hseparator with
          | @blanks gap => exact ⟨gap, rfl⟩
          | @comma before after => exact ⟨before ++ ',' :: after, by simp⟩
        obtain ⟨front, rfl⟩ := hsuffix
        exact hjoin.of_append.of_append
      exact .cons hpiece' (hseparator.append _) (ih hmore hjoin')

/-- **The comparators of two joined segments** are those of the one and then those of the other. -/
theorem Segment.append {t : List Char} (h : Segment s pieces) (hne : pieces ≠ [])
    (hjoin : Joins s sep) (ht : Segment t pieces') :
    Segment (s ++ (sep ++ t)) (pieces ++ pieces') := by
  obtain ⟨hgap, hrow⟩ := h
  obtain ⟨hgap', hrow'⟩ := ht
  rw [List.append_assoc]
  exact .mk hgap (hrow.append hne hjoin.of_append hgap' hrow')

/-! ### Bars -/

theorem Separator.bar_notMem (h : Separator rest s) (hs : '|' ∉ s) : '|' ∉ rest := by
  have hblank : ∀ {gap : List Char}, (∀ c ∈ gap, Text.isBlank c = true) → '|' ∉ gap :=
    fun hgap hbar => absurd (hgap _ hbar) (by decide)
  cases h with
  | blanks hgap => simp [hblank hgap, hs]
  | comma hbefore hafter => simp [hblank hbefore, hblank hafter, hs]

theorem Row.bar_notMem (h : Row s pieces) : '|' ∉ s := by
  induction h with
  | nil => simp
  | cons hpiece hseparator hrow ih =>
    obtain ⟨t, ht, rfl⟩ := exists_token hpiece
    simp [Token.bar_notMem_text ht.wellFormed, hseparator.bar_notMem ih]

/-- **No bar stands in a segment** of the grammar. -/
theorem Segment.bar_notMem (h : Segment s pieces) : '|' ∉ s := by
  obtain ⟨hgap, hrow⟩ := h
  exact (Separator.blanks hgap).bar_notMem hrow.bar_notMem

end Grammar

namespace Segment

/-- A segment with a character that is not blank has tokens, if it is one. -/
theorem scan_ne_nil_of_isValid (hvalid : isValid s = true) (h : ∃ c ∈ s, Text.isBlank c = false) :
    (scan s).1 ≠ [] := by
  intro hnil
  obtain ⟨c, hc, hblank⟩ := h
  rw [isBlank_of_scan_eq_nil hvalid hnil c hc] at hblank
  exact absurd hblank (by decide)

/-- **The tokens of two joined segments**, of which neither is blank, are those of the one and then
those of the other. -/
theorem tokens_append {t : List Char} (hs : isValid s = true) (ht : isValid t = true)
    (hs' : ∃ c ∈ s, Text.isBlank c = false) (ht' : ∃ c ∈ t, Text.isBlank c = false)
    (hjoin : Joins s sep) :
    isValid (s ++ (sep ++ t)) = true ∧ tokens (s ++ (sep ++ t)) = tokens s ++ tokens t := by
  have hne := scan_ne_nil_of_isValid hs hs'
  have happend := (grammar_of_isValid hs).append (by simpa using hne) hjoin (grammar_of_isValid ht)
  obtain ⟨found, hscan, htexts⟩ := scan_of_grammar happend
  have hfound : (scan (s ++ (sep ++ t))).1 ≠ [] := by
    rw [hscan]
    rintro rfl
    simp [hne] at htexts
  refine ⟨by simp [isValid, hscan], ?_⟩
  rw [tokens_of_scan_ne_nil hfound, tokens_of_scan_ne_nil hne,
    tokens_of_scan_ne_nil (scan_ne_nil_of_isValid ht ht'), hscan]
  exact htexts

theorem bar_notMem_of_isValid (h : isValid s = true) : '|' ∉ s :=
  (grammar_of_isValid h).bar_notMem

/-- **A text is cut at the bars that join two texts**, if no bar is left in the segments of the
first. The second text may start with bars: those that join the texts are found first. -/
theorem split_append (h : ∀ segment ∈ split s, '|' ∉ segment) (t : List Char) :
    split (s ++ '|' :: '|' :: t) = split s ++ split t := by
  have hs := cut_split s
  have ht := cut_split t
  refine split_eq_iff.mpr ⟨by simp [hs.ne_nil], ?_, ?_, ?_⟩
  · have hs' := hs.join
    have ht' := ht.join
    obtain ⟨first, more, hfirst⟩ := List.exists_cons_of_ne_nil hs.ne_nil
    obtain ⟨second, rest, hsecond⟩ := List.exists_cons_of_ne_nil ht.ne_nil
    rw [hfirst, Text.intercalate_cons] at hs'
    rw [hsecond, Text.intercalate_cons] at ht'
    rw [hfirst, hsecond, List.cons_append, Text.intercalate_cons, ← hs', ← ht']
    simp
  · rw [List.forall_mem_append]
    exact ⟨hs.no_bars, ht.no_bars⟩
  · -- every segment of the first text has a mark behind it now
    rw [List.dropLast_append_of_ne_nil ht.ne_nil, List.forall_mem_append]
    exact ⟨fun segment hsegment hend => h segment hsegment (hend.subset (by simp)), ht.leftmost⟩

end Segment

end Semver
