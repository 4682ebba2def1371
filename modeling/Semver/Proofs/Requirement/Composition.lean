import Semver.Proofs.Requirement.Outcome
import Semver.Proofs.Segment.Grammar

/-!
# Requirements put together

The text of a requirement is built from smaller ones in two ways: bars between two texts make
alternatives of them, and a separator between two segments asks for both. Reading respects either.
The clauses of the whole are those of the parts in a row, or the comparators of its single clause
are, and a version satisfies the whole if it satisfies one of the parts, or both of them.

* `Semver.Clause.ofChars_append`: the clause of two joined segments.
* `Semver.Requirement.parse_of_isValid`: a text that is a single segment.
* `Semver.Requirement.parse_bars`: the requirement of two texts with bars between them.
* `Semver.Requirement.parse_composes`: both ways to put texts together.
* `Semver.Token.exists_delimited`: a token as a segment finds it, behind its blanks.
* `Semver.Clause.ofChars_token`: the clause of a segment that is a single token.
* `Semver.Requirement.parse_comparator`: a comparator on its own, and as a requirement.
-/

namespace Semver

open Text (Stops)

/-! ### Texts put together -/

variable {s sep : List Char} {clause clause' : Clause}

namespace Clause

theorem ofChars_eq_ok_iff : ofChars s = .ok clause ↔ Segment.isValid s = true ∧
    (Segment.tokens s).mapM Comparator.ofChars = .ok clause.comparators := by
  rcases Bool.eq_false_or_eq_true (Segment.isValid s) with hvalid | hinvalid
  · rw [ofChars, if_pos hvalid]
    cases hread : (Segment.tokens s).mapM Comparator.ofChars with
    | error e => simp [Except.map]
    | ok cs =>
      obtain ⟨cs'⟩ := clause
      simp [Except.map, hvalid]
  · simp [ofChars, hinvalid]

/-- **The clause of two joined segments**, of which neither is blank, has the comparators of the one
and then those of the other. -/
theorem ofChars_append (hs : ofChars s = .ok clause) (ht : ofChars t = .ok clause')
    (hs' : ∃ c ∈ s, Text.isBlank c = false) (ht' : ∃ c ∈ t, Text.isBlank c = false)
    (hjoin : Segment.Joins s sep) :
    ofChars (s ++ (sep ++ t)) = .ok ⟨clause.comparators ++ clause'.comparators⟩ := by
  obtain ⟨hvalid, hread⟩ := ofChars_eq_ok_iff.mp hs
  obtain ⟨hvalid', hread'⟩ := ofChars_eq_ok_iff.mp ht
  obtain ⟨hwhole, htokens⟩ := Segment.tokens_append hvalid hvalid' hs' ht' hjoin
  rw [ofChars_eq_ok_iff, htokens, Traversal.mapM_append_of_eq_ok hread, hread']
  exact ⟨hwhole, rfl⟩

end Clause

namespace Requirement

variable {text : String} {options : Options} {r a b : Requirement}

/-- A text that is a single segment denotes a requirement with a single clause. -/
theorem parse_eq_ok_iff_of_split (h : Segment.split text.toList = [text.toList]) :
    parse text options = .ok r ↔
      ∃ clause, Clause.ofChars text.toList = .ok clause ∧ r = ⟨[clause], options⟩ := by
  obtain ⟨clauses, options'⟩ := r
  rw [parse_eq_ok_iff, h, Traversal.mapM_cons_eq_ok_iff]
  simp only [List.mapM_nil, pure, Except.pure, Except.ok.injEq]
  constructor
  · rintro ⟨⟨clause, -, hclause, rfl, rfl⟩, rfl⟩
    exact ⟨clause, hclause, rfl⟩
  · rintro ⟨clause, hclause, hr⟩
    obtain ⟨rfl, rfl⟩ := Requirement.mk.inj hr
    exact ⟨⟨clause, [], hclause, rfl, rfl⟩, rfl⟩

/-- **A text that is one segment** denotes the requirement of its clause alone, or fails as the
clause does. -/
theorem parse_of_isValid (h : Segment.isValid text.toList = true) : parse text options =
    (Clause.ofChars text.toList).map fun clause => ⟨[clause], options⟩ := by
  have hsplit := Segment.split_of_bar_notMem (Segment.bar_notMem_of_isValid h)
  rw [parse, ofChars, hsplit]
  cases hread : Clause.ofChars text.toList <;>
    simp [hread, pure, Except.pure, bind, Except.bind, Except.map]

/-- A segment with a clause is a text with that clause as the only one. -/
theorem parse_of_clause (h : Clause.ofChars text.toList = .ok clause) :
    parse text options = .ok ⟨[clause], options⟩ := by
  rw [parse_of_isValid (Clause.ofChars_eq_ok_iff.mp h).1, h]
  rfl

/-- A text with bars between two others is cut there, if the first of them can be read. -/
theorem split_bars {other : String} (h : parse text options = .ok a) :
    Segment.split (text ++ "||" ++ other).toList =
      Segment.split text.toList ++ Segment.split other.toList := by
  have hsegments := exists_parse_iff.mp ⟨a, h⟩
  have htext : (text ++ "||" ++ other).toList = text.toList ++ '|' :: '|' :: other.toList := by
    simp
  rw [htext]
  exact Segment.split_append (fun segment hsegment =>
    Segment.bar_notMem_of_isValid (hsegments segment hsegment).1) _

/-- **The requirement of two texts with bars between them**, of which the first can be read: it has
the clauses of the one and then those of the other, or it fails as the other does. -/
theorem parse_bars {other : String} (h : parse text options = .ok a) :
    parse (text ++ "||" ++ other) options =
      (parse other options).map fun b => ⟨a.clauses ++ b.clauses, options⟩ := by
  have hread := (parse_eq_ok_iff.mp h).1
  rw [parse, ofChars, split_bars h, Traversal.mapM_append_of_eq_ok hread, parse, ofChars]
  cases (Segment.split other.toList).mapM Clause.ofChars <;> rfl

theorem satisfiedBy_append_clauses (ha : a.options = options) (hb : b.options = options)
    (v : Version) : satisfiedBy ⟨a.clauses ++ b.clauses, options⟩ v =
      (a.satisfiedBy v || b.satisfiedBy v) := by
  simp [satisfiedBy, ha, hb]

theorem satisfiedBy_append_comparators (clause clause' : Clause) (options : Options) (v : Version) :
    satisfiedBy ⟨[⟨clause.comparators ++ clause'.comparators⟩], options⟩ v =
      (satisfiedBy ⟨[clause], options⟩ v && satisfiedBy ⟨[clause'], options⟩ v) := by
  simp [satisfiedBy, Clause.satisfiedBy]

/-- **Requirements can be put together as texts.** With bars between two texts, of which the first
can be read, the whole fails as the second one does, or has the clauses of both and is satisfied
through either. With a separator between two segments that are not blank, the whole is a single
clause with the comparators of both, and is satisfied if both are. -/
theorem parse_composes (options : Options) :
    (∀ (A B : String) (a : Requirement), parse A options = .ok a →
      (∀ e, parse B options = .error e → parse (A ++ "||" ++ B) options = .error e) ∧
        ∀ b, parse B options = .ok b →
          parse (A ++ "||" ++ B) options = .ok ⟨a.clauses ++ b.clauses, options⟩ ∧
            ∀ v, satisfiedBy ⟨a.clauses ++ b.clauses, options⟩ v =
              (a.satisfiedBy v || b.satisfiedBy v)) ∧
      ∀ (S T sep : String) (a b : Requirement), ¬['|', '|'] <:+: S.toList →
        ¬['|', '|'] <:+: T.toList → parse S options = .ok a → parse T options = .ok b →
        (∃ c ∈ S.toList, Text.isBlank c = false) → (∃ c ∈ T.toList, Text.isBlank c = false) →
        Segment.Joins S.toList sep.toList →
        ∃ clause clause', a.clauses = [clause] ∧ b.clauses = [clause'] ∧
          parse (S ++ sep ++ T) options =
            .ok ⟨[⟨clause.comparators ++ clause'.comparators⟩], options⟩ ∧
          ∀ v, satisfiedBy ⟨[⟨clause.comparators ++ clause'.comparators⟩], options⟩ v =
            (a.satisfiedBy v && b.satisfiedBy v) := by
  constructor
  · intro A B a ha
    refine ⟨fun e he => by rw [parse_bars ha, he]; rfl, fun b hb => ⟨by rw [parse_bars ha, hb]; rfl,
      satisfiedBy_append_clauses (parse_eq_ok_iff.mp ha).2 (parse_eq_ok_iff.mp hb).2⟩⟩
  · intro S T sep a b hS hT ha hb hS' hT' hjoin
    obtain ⟨clause, hclause, rfl⟩ :=
      (parse_eq_ok_iff_of_split (Segment.split_of_no_bars hS)).mp ha
    obtain ⟨clause', hclause', rfl⟩ :=
      (parse_eq_ok_iff_of_split (Segment.split_of_no_bars hT)).mp hb
    have hwhole := Clause.ofChars_append hclause hclause' hS' hT' hjoin
    have htext : S.toList ++ (sep.toList ++ T.toList) = (S ++ sep ++ T).toList := by simp
    rw [htext] at hwhole
    exact ⟨clause, clause', rfl, rfl, parse_of_clause hwhole,
      satisfiedBy_append_comparators clause clause' options⟩

/-- A first text that ends in bars and a second one that starts with one; two segments with a comma
and blanks of both sorts between them. -/
theorem parse_composes_edges :
    parse ("1.x ||" ++ "||" ++ "|2") {} = .error (.malformedSegment "|2") ∧
      ∃ clause clause' : Clause, parse (">=1.2 " ++ " ,\t" ++ "<2-rc 1.x") {} =
          .ok ⟨[⟨clause.comparators ++ clause'.comparators⟩], {}⟩ ∧
        clause.comparators.length = 1 ∧ clause'.comparators.length = 2 := by
  obtain ⟨hor, hand⟩ := parse_composes {}
  have hfirst : parse "1.x ||" {} = .ok ⟨[⟨[⟨.equal, ⟨.number 1, .wildcard, .wildcard,
      .identifiers []⟩, "1.x"⟩]⟩, ⟨[.any]⟩], {}⟩ := by cbv
  have hS : parse ">=1.2 " {} = .ok ⟨[⟨[⟨.greaterEqual, ⟨.number 1, .number 2, .wildcard,
      .identifiers []⟩, ">=1.2"⟩]⟩], {}⟩ := by cbv
  have hT : parse "<2-rc 1.x" {} = .ok ⟨[⟨[⟨.less, ⟨.number 2, .wildcard, .wildcard,
      .identifiers [⟨"rc"⟩]⟩, "<2-rc"⟩, ⟨.equal, ⟨.number 1, .wildcard, .wildcard,
      .identifiers []⟩, "1.x"⟩]⟩], {}⟩ := by cbv
  have hcomma : ¬Segment.EndsInComma ">=1.2 ".toList := by
    rintro ⟨front, gap, htext, -⟩
    have hmem : ',' ∈ ">=1.2 ".toList := by
      rw [htext]
      simp
    exact absurd hmem (by decide)
  have hjoin : Segment.Joins ">=1.2 ".toList " ,\t".toList := by
    have hsep : " ,\t".toList = [' '] ++ ',' :: ['\t'] := by decide
    rw [hsep]
    exact .comma hcomma (List.forall_mem_singleton.mpr (by decide))
      (List.forall_mem_singleton.mpr (by decide))
  have hbars : ∀ text : String, '|' ∉ text.toList → ¬['|', '|'] <:+: text.toList :=
    fun _ hbar hin => hbar (hin.subset (by simp))
  refine ⟨(hor "1.x ||" "|2" _ hfirst).1 _ (by cbv), ?_⟩
  obtain ⟨clause, clause', hclause, hclause', hparse, -⟩ := hand ">=1.2 " "<2-rc 1.x" " ,\t" _ _
    (hbars _ (by decide)) (hbars _ (by decide)) hS hT ⟨'1', by decide, by decide⟩
    ⟨'2', by decide, by decide⟩ hjoin
  obtain ⟨rfl, -⟩ := List.cons.inj hclause
  obtain ⟨rfl, -⟩ := List.cons.inj hclause'
  exact ⟨_, _, hparse, rfl, rfl⟩

end Requirement

/-! ### A single comparator

A comparator can be read in two ways: on its own, or as a requirement that consists of nothing else.
On its own its text is scanned from the front and has to be used up; the requirement looks for the
bars first, then for tokens with separators between them, and reads each token that it has cut out.
The two part over blanks in front. A token without an operator may start with some when it is read
on its own, but a segment skips its leading blanks before it looks for tokens. So the requirement
keeps a shorter text. Everything else is the same, down to the number that is too large; and what a
requirement has cut out can always be read on its own again. -/

variable {gap : List Char} {t : Token}

/-- **A token behind its blanks**: the blanks of a token without an operator stand in front of it,
and the rest is a token on its own. -/
theorem Token.exists_delimited (ht : t.WellFormed) :
    ∃ (gap : List Char) (u : Token), t.text = gap ++ u.text ∧
      (∀ c ∈ gap, Text.isBlank c = true) ∧ u.Delimited [] ∧ u.sign = t.sign ∧
      u.shape = t.shape := by
  by_cases hsign : t.sign = []
  · have hu : (Token.mk [] [] t.shape).Delimited [] :=
      ⟨⟨Or.inl rfl, by simp, ht.shape⟩, fun _ => rfl, t.shape.endsBefore_nil⟩
    exact ⟨t.gap, ⟨[], [], t.shape⟩, by simp [text, hsign], ht.gap, hu, hsign.symm, rfl⟩
  · exact ⟨[], t, rfl, by simp, ⟨ht, fun h => absurd h hsign, t.shape.endsBefore_nil⟩, rfl, rfl⟩

/-- A token on its own does not start with a blank. -/
theorem Token.Delimited.stops_isBlank (ht : t.Delimited []) : Stops Text.isBlank t.text := by
  simpa using ht.stops (fun _ hc => (isFirstChar_apart hc).1) []

namespace Segment

/-- A token on its own is a segment with that token. -/
theorem scan_token (ht : t.Delimited []) : scan t.text = ([t], []) := by
  have hrow := scan_row (List.forall_mem_singleton.mpr ht.wellFormed)
    (List.forall_mem_singleton.mpr ht.stops_isBlank)
  simpa [row] using hrow

/-- Blanks before a segment are not seen by the scan. -/
theorem scan_gap_append (hgap : ∀ c ∈ gap, Text.isBlank c = true) (s : List Char) :
    scan (gap ++ s) = scan s := by
  rw [scan, scan, Text.skipBlanks_gap_append hgap]

theorem isValid_gap_append (hgap : ∀ c ∈ gap, Text.isBlank c = true) (s : List Char) :
    isValid (gap ++ s) = isValid s := by
  rw [isValid, isValid, scan_gap_append hgap]

theorem tokens_gap_append (hgap : ∀ c ∈ gap, Text.isBlank c = true) (s : List Char) :
    tokens (gap ++ s) = tokens s := by
  rw [tokens, tokens, scan_gap_append hgap, Text.trim, Text.trim, Text.skipBlanks_gap_append hgap]

end Segment

/-! ### The clause of a token -/

namespace Clause

/-- Blanks before a segment that is one do not change its clause. -/
theorem ofChars_gap_append (hgap : ∀ c ∈ gap, Text.isBlank c = true)
    (hvalid : Segment.isValid s = true) : ofChars (gap ++ s) = ofChars s := by
  have hvalid' : Segment.isValid (gap ++ s) = true := by
    rw [Segment.isValid_gap_append hgap, hvalid]
  rw [ofChars, ofChars, if_pos hvalid, if_pos hvalid', Segment.tokens_gap_append hgap]

/-- The clause of a token on its own has the comparator that its text is read as. -/
theorem ofChars_delimited (ht : t.Delimited []) :
    ofChars t.text = (Comparator.ofChars t.text).map fun c => ⟨[c]⟩ := by
  have hscan := Segment.scan_token ht
  rw [ofChars_of_scan_ne_nil (by simp [Segment.isValid, hscan]) (by simp [hscan]), hscan]
  cases hread : Comparator.ofChars t.text <;>
    simp [hread, pure, Except.pure, bind, Except.bind, Except.map]

/-- **The clause of a segment that is a single token** has the comparator that its text is read as,
or fails as that does. The comparator keeps the text without the blanks in front. -/
theorem ofChars_token (ht : t.WellFormed) : Segment.isValid t.text = true ∧
    ofChars t.text = (Comparator.ofChars t.text).map fun c =>
      ⟨[⟨c.operator, c.bound, String.ofList (Text.skipBlanks t.text)⟩]⟩ := by
  obtain ⟨gap, u, htext, hgap, hu, hsign, hshape⟩ := Token.exists_delimited ht
  have hvalid : Segment.isValid u.text = true := by simp [Segment.isValid, Segment.scan_token hu]
  have hskip : Text.skipBlanks t.text = u.text := by
    rw [htext]
    exact Text.skipBlanks_gap hgap hu.stops_isBlank
  -- with the blanks and without them the same operator is looked up and the same bound is read
  obtain ⟨op, hop⟩ := Operator.exists_ofText?_spelling ht.sign
  have hread := Token.ofChars_text_eq ht hop
  have hread' := Token.ofChars_text_eq hu.wellFormed (hsign ▸ hop)
  rw [hshape] at hread'
  have hclause : ofChars t.text = ofChars u.text := by
    rw [htext, ofChars_gap_append hgap hvalid]
  constructor
  · rw [htext, Segment.isValid_gap_append hgap, hvalid]
  · rw [hclause, ofChars_delimited hu, hread, hread', hskip]
    cases Bound.ofChars t.shape.text <;> rfl

/-- The clause of any text that the reader of comparators does not call malformed. -/
theorem ofChars_of_comparator
    (h : Comparator.ofChars s ≠ .error (.malformedComparator (String.ofList s))) :
    Segment.isValid s = true ∧ ofChars s = (Comparator.ofChars s).map fun c =>
      ⟨[⟨c.operator, c.bound, String.ofList (Text.skipBlanks s)⟩]⟩ := by
  rcases eq_or_ne s [] with rfl | hs
  · have hscan : Segment.scan [] = ([], []) := Segment.scanTokens_nil
    have hvalid : Segment.isValid [] = true := by rw [Segment.isValid, hscan]; rfl
    exact ⟨hvalid, ofChars_of_scan_eq_nil hvalid (by rw [hscan])⟩
  · rcases Comparator.exists_token_or_malformed hs with ⟨t, ht, rfl⟩ | hmalformed
    · exact ofChars_token ht
    · exact absurd hmalformed h

end Clause

/-! ### The two ways of reading -/

namespace Requirement

/-- **A comparator is read on its own as it is in a requirement.** What is read as a comparator is a
requirement with this one alone, under any options, and only the blanks in front are dropped from
its text; a number that is too large for the comparator fails the requirement with the same error.
Conversely each comparator of a requirement is read from its own text again. -/
theorem parse_comparator (text : String) (options : Options) :
    (∀ c, Comparator.parse text = .ok c → parse text options =
        .ok ⟨[⟨[⟨c.operator, c.bound, String.ofList (Text.skipBlanks text.toList)⟩]⟩], options⟩) ∧
      (∀ e, Comparator.parse text = .error (.version e) →
        parse text options = .error (.version e)) ∧
      ∀ r, parse text options = .ok r → ∀ clause ∈ r.clauses, ∀ c ∈ clause.comparators,
        Comparator.parse c.text = .ok c := by
  refine ⟨fun c hc => ?_, fun e he => ?_, fun r hr clause hclause c hc => ?_⟩
  · rw [Comparator.parse] at hc
    obtain ⟨hvalid, hclause⟩ := Clause.ofChars_of_comparator (s := text.toList) (by rw [hc]; simp)
    rw [parse_of_isValid hvalid, hclause, hc]
    rfl
  · rw [Comparator.parse] at he
    obtain ⟨hvalid, hclause⟩ := Clause.ofChars_of_comparator (s := text.toList) (by rw [he]; simp)
    rw [parse_of_isValid hvalid, hclause, he]
    rfl
  · -- the text of a comparator is the token that it was read from
    obtain ⟨segment, -, hsegment⟩ :=
      Traversal.exists_of_mem_right (parse_eq_ok_iff.mp hr).1 hclause
    obtain ⟨s, -, hs⟩ :=
      Traversal.exists_of_mem_right (Clause.ofChars_eq_ok_iff.mp hsegment).2 hc
    rw [Comparator.parse, Comparator.text_of_ofChars hs, String.toList_ofList, hs]

/-- A comparator behind blanks, a number that is too large behind others, and a comparator of a
requirement with two alternatives. -/
theorem parse_comparator_blanks :
    parse "\t v1.x" {} =
        .ok ⟨[⟨[⟨.equal, ⟨.number 1, .wildcard, .wildcard, .identifiers []⟩, "v1.x"⟩]⟩], {}⟩ ∧
      parse " 1.18446744073709551616-a" {} =
        .error (.version (.overflow "18446744073709551616".toList "-a".toList)) ∧
      Comparator.parse ">= 2-rc" =
        .ok ⟨.greaterEqual, ⟨.number 2, .wildcard, .wildcard, .identifiers [⟨"rc"⟩]⟩,
          ">= 2-rc"⟩ := by
  have hblanks : Comparator.parse "\t v1.x" =
      .ok ⟨.equal, ⟨.number 1, .wildcard, .wildcard, .identifiers []⟩, "\t v1.x"⟩ := by cbv
  have hlarge : Comparator.parse " 1.18446744073709551616-a" =
      .error (.version (.overflow "18446744073709551616".toList "-a".toList)) := by cbv
  have halternatives : parse "1 || >= 2-rc,<3" {} = .ok ⟨[⟨[⟨.equal,
      ⟨.number 1, .wildcard, .wildcard, .identifiers []⟩, "1"⟩]⟩, ⟨[⟨.greaterEqual,
        ⟨.number 2, .wildcard, .wildcard, .identifiers [⟨"rc"⟩]⟩, ">= 2-rc"⟩, ⟨.less,
          ⟨.number 3, .wildcard, .wildcard, .identifiers []⟩, "<3"⟩]⟩], {}⟩ := by cbv
  refine ⟨(parse_comparator _ {}).1 _ hblanks, (parse_comparator _ {}).2.1 _ hlarge, ?_⟩
  exact (parse_comparator _ {}).2.2 _ halternatives _ (List.mem_cons_of_mem _ List.mem_cons_self)
    _ List.mem_cons_self

end Requirement

end Semver
