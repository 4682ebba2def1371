import Semver.Proofs.Comparator.Denotation
import Semver.Proofs.Segment.Rows
import Semver.Proofs.Traversal
import Semver.Requirement.Basic

/-!
# The outcome of reading a requirement

A text is read as a requirement exactly when each of its segments is a row of tokens none of whose
components is too large. Nothing else can go wrong: what the check of a segment lets through, the
readers of comparators and bounds accept as well, up to the size of numbers. The error of a text
that fails is that of its leftmost failing segment, and the segment has only two ways to fail.

* `Semver.Segment.Readable`: the segments that can be read.
* `Semver.Segment.Failure`: the ways in which a segment fails.
* `Semver.Clause.ReadFrom`: what the clause of a segment looks like.
* `Semver.Requirement.parse_outcome`: all outcomes of reading a text.
-/

namespace Semver

variable {segment : List Char} {clause : Clause} {e : RequirementError}

namespace Segment

open Component (Overflows)

/-- **A segment that can be read**: nothing but tokens and their separators, and no component of a
token is too large. -/
def Readable (segment : List Char) : Prop :=
  isValid segment = true ∧
    ∀ t ∈ (scan segment).1, ∀ run ∈ t.shape.components, ¬Overflows run

/-- **The ways in which a segment fails**, with the error of each. -/
inductive Failure (segment : List Char) : RequirementError → Prop where
  /-- It is no row of tokens; the error repeats it as it is. -/
  | malformed (hinvalid : isValid segment = false) :
      Failure segment (.malformedSegment (String.ofList segment))
  /-- It is one, and `digits` is the leftmost component that is too large: no token before that one
  has such a component, and in its own token it is the first. -/
  | overflow {before : List Token} {t : Token} {after : List Token} {digits rest : List Char}
      (hvalid : isValid segment = true) (htokens : (scan segment).1 = before ++ t :: after)
      (hbefore : ∀ u ∈ before, ∀ run ∈ u.shape.components, ¬Overflows run)
      (hfirst : t.shape.FirstOverflow digits rest) :
      Failure segment (.version (.overflow digits rest))

end Segment

namespace Clause

open Segment (Readable Failure)

/-- **What the clause of a segment looks like**: its comparators have the texts of the tokens, there
is at least one of them, and only the comparator without a condition, alone in the clause of a blank
segment, has no text. -/
structure ReadFrom (segment : List Char) (clause : Clause) : Prop where
  texts : clause.comparators.map (fun c => c.text.toList) = Segment.tokens segment
  ne_nil : clause.comparators ≠ []
  eq_any : ∀ c ∈ clause.comparators, c.text = "" →
    c = .any ∧ clause.comparators = [c] ∧ ∀ ch ∈ segment, Text.isBlank ch = true

/-- The clause of a blank segment has the comparator without a condition. -/
theorem ofChars_of_scan_eq_nil (hvalid : Segment.isValid segment = true)
    (h : (Segment.scan segment).1 = []) : ofChars segment = .ok ⟨[.any]⟩ := by
  rw [ofChars, if_pos hvalid, Segment.tokens_of_scan_eq_nil hvalid h]
  rfl

/-- The clause of any other segment is read token by token. -/
theorem ofChars_of_scan_ne_nil (hvalid : Segment.isValid segment = true)
    (h : (Segment.scan segment).1 ≠ []) : ofChars segment =
      ((Segment.scan segment).1.mapM fun t => Comparator.ofChars t.text).map Clause.mk := by
  rw [ofChars, if_pos hvalid, Segment.tokens_of_scan_ne_nil h, List.mapM_map]
  rfl

theorem exists_ofChars_iff : (∃ clause, ofChars segment = .ok clause) ↔ Readable segment := by
  rcases Bool.eq_false_or_eq_true (Segment.isValid segment) with hvalid | hinvalid
  · rcases eq_or_ne (Segment.scan segment).1 [] with hnil | hne
    · simp [ofChars_of_scan_eq_nil hvalid hnil, Readable, hvalid, hnil]
    · have htokens : (∃ clause, ofChars segment = .ok clause) ↔
          ∃ cs, ((Segment.scan segment).1.mapM fun t => Comparator.ofChars t.text) = .ok cs := by
        rw [ofChars_of_scan_ne_nil hvalid hne]
        cases (Segment.scan segment).1.mapM fun t => Comparator.ofChars t.text <;> simp [Except.map]
      rw [htokens, Traversal.exists_mapM_eq_ok_iff, Readable, hvalid]
      refine ⟨fun h => ⟨rfl, fun t ht => ?_⟩, fun h t ht => ?_⟩
      · exact (Token.exists_ofChars_text_iff (Segment.wellFormed_of_mem_scan _ t ht)).mp (h t ht)
      · exact (Token.exists_ofChars_text_iff (Segment.wellFormed_of_mem_scan _ t ht)).mpr (h.2 t ht)
  · simp [ofChars, Readable, hinvalid]

/-- **A segment that is not read fails in one of its ways.** -/
theorem failure_of_ofChars (h : ofChars segment = .error e) : Failure segment e := by
  rcases Bool.eq_false_or_eq_true (Segment.isValid segment) with hvalid | hinvalid
  · rcases eq_or_ne (Segment.scan segment).1 [] with hnil | hne
    · rw [ofChars_of_scan_eq_nil hvalid hnil] at h
      cases h
    · rw [ofChars_of_scan_ne_nil hvalid hne] at h
      have hfail :
          ((Segment.scan segment).1.mapM fun t => Comparator.ofChars t.text) = .error e := by
        cases hread : (Segment.scan segment).1.mapM fun t => Comparator.ofChars t.text with
        | ok cs => simp [hread, Except.map] at h
        | error e' => simpa [hread, Except.map] using h
      obtain ⟨before, t, after, htokens, hbefore, ht⟩ := Traversal.mapM_eq_error_iff.mp hfail
      -- the first token that is not read is well-formed, which leaves its reader one way to fail
      have hwell := Segment.wellFormed_of_mem_scan segment
      rw [htokens] at hwell
      rcases Token.ofChars_text (hwell t (by simp)) with
        ⟨c, -, hok⟩ | ⟨digits, rest, hfirst, herror⟩
      · rw [hok] at ht
        cases ht
      · rw [herror] at ht
        cases ht
        refine Failure.overflow hvalid htokens (fun u hu => ?_) hfirst
        exact (Token.exists_ofChars_text_iff (hwell u (by simp [hu]))).mp (hbefore u hu)
  · have hmalformed : e = .malformedSegment (String.ofList segment) := by
      simpa [ofChars, hinvalid, eq_comm] using h
    rw [hmalformed]
    exact Failure.malformed hinvalid

/-- The texts of the comparators of a clause that is read token by token. -/
theorem texts_of_mapM {tokens : List Token} {cs : List Comparator}
    (h : (tokens.mapM fun t => Comparator.ofChars t.text) = .ok cs) :
    cs.map (fun c => c.text.toList) = tokens.map Token.text := by
  have hall := Traversal.mapM_eq_ok_iff.mp h
  clear h
  induction hall with
  | nil => rfl
  | cons hread _ ih =>
    rw [List.map_cons, List.map_cons, ih, Comparator.text_of_ofChars hread, String.toList_ofList]

/-- **A segment that is read has a clause of its own form.** -/
theorem readFrom_of_ofChars (h : ofChars segment = .ok clause) : ReadFrom segment clause := by
  obtain ⟨hvalid, -⟩ := exists_ofChars_iff.mp ⟨clause, h⟩
  rcases eq_or_ne (Segment.scan segment).1 [] with hnil | hne
  · rw [ofChars_of_scan_eq_nil hvalid hnil] at h
    cases h
    refine ⟨(Segment.tokens_of_scan_eq_nil hvalid hnil).symm, by simp, fun c hc _ => ?_⟩
    obtain rfl : c = .any := by simpa using hc
    exact ⟨rfl, rfl, Segment.isBlank_of_scan_eq_nil hvalid hnil⟩
  · rw [ofChars_of_scan_ne_nil hvalid hne] at h
    have hwell := Segment.wellFormed_of_mem_scan segment
    cases hread : (Segment.scan segment).1.mapM fun t => Comparator.ofChars t.text with
    | error e => simp [hread, Except.map] at h
    | ok cs =>
      obtain rfl : Clause.mk cs = clause := by simpa [hread, Except.map] using h
      have htexts := texts_of_mapM hread
      refine ⟨?_, fun hcs => ?_, fun c hc hempty => ?_⟩
      · rw [htexts, Segment.tokens_of_scan_ne_nil hne]
      · exact hne (by simpa [show cs = [] from hcs] using htexts.symm)
      · -- a comparator with the text of a token has a text
        have hmem : c.text.toList ∈ (Segment.scan segment).1.map Token.text :=
          htexts ▸ List.mem_map.mpr ⟨c, hc, rfl⟩
        obtain ⟨t, ht, htext⟩ := List.mem_map.mp hmem
        exact absurd (by simpa [hempty] using htext) (Token.text_ne_nil (hwell t ht))

end Clause

namespace Requirement

variable {text : String} {options : Options} {r : Requirement}

theorem parse_eq_ok_iff : parse text options = .ok r ↔
    (Segment.split text.toList).mapM Clause.ofChars = .ok r.clauses ∧ r.options = options := by
  obtain ⟨clauses, options'⟩ := r
  unfold parse ofChars
  cases (Segment.split text.toList).mapM Clause.ofChars <;> simp [Except.map, eq_comm]

theorem parse_eq_error_iff : parse text options = .error e ↔
    (Segment.split text.toList).mapM Clause.ofChars = .error e := by
  unfold parse ofChars
  cases (Segment.split text.toList).mapM Clause.ofChars <;> simp [Except.map]

/-- The clauses of a requirement are read from the segments of its text, one each. -/
theorem forall₂_readFrom_of_parse (h : parse text options = .ok r) :
    List.Forall₂ Clause.ReadFrom (Segment.split text.toList) r.clauses :=
  (Traversal.mapM_eq_ok_iff.mp (parse_eq_ok_iff.mp h).1).imp fun _ _ => Clause.readFrom_of_ofChars

theorem exists_parse_iff : (∃ r, parse text options = .ok r) ↔
    ∀ segment ∈ Segment.split text.toList, Segment.Readable segment := by
  have htraverse : (∃ r, parse text options = .ok r) ↔
      ∃ clauses, (Segment.split text.toList).mapM Clause.ofChars = .ok clauses := by
    simp only [parse_eq_ok_iff]
    exact ⟨fun ⟨r, h, _⟩ => ⟨r.clauses, h⟩, fun ⟨clauses, h⟩ => ⟨⟨clauses, options⟩, h, rfl⟩⟩
  simp only [htraverse, Traversal.exists_mapM_eq_ok_iff, Clause.exists_ofChars_iff]

/-- The leftmost segment that fails decides the error. -/
theorem exists_failure_of_parse (h : parse text options = .error e) :
    ∃ before segment after, Segment.split text.toList = before ++ segment :: after ∧
      (∀ other ∈ before, Segment.Readable other) ∧ Segment.Failure segment e := by
  obtain ⟨before, segment, after, hsplit, hbefore, hsegment⟩ :=
    Traversal.mapM_eq_error_iff.mp (parse_eq_error_iff.mp h)
  exact ⟨before, segment, after, hsplit, fun other hother =>
    Clause.exists_ofChars_iff.mp (hbefore other hother), Clause.failure_of_ofChars hsegment⟩

/-- **All outcomes of reading a text as a requirement.** The text is cut at its marks into segments,
and there is no other way to cut it. Reading succeeds exactly when every segment can be read, with
one clause for each segment; otherwise the leftmost segment that cannot be read decides the error. A
text is never blamed for one of its tokens as such, and never for a character of a version: the only
errors are a segment that is no row of tokens and a number that is too large. -/
theorem parse_outcome (text : String) (options : Options) :
    (∀ segments, Segment.split text.toList = segments ↔ Segment.Cut text.toList segments) ∧
      ((∃ r, parse text options = .ok r) ↔
        ∀ segment ∈ Segment.split text.toList, Segment.Readable segment) ∧
      (∀ r, parse text options = .ok r → r.options = options ∧
        List.Forall₂ Clause.ReadFrom (Segment.split text.toList) r.clauses) ∧
      (∀ e, parse text options = .error e →
        ∃ before segment after, Segment.split text.toList = before ++ segment :: after ∧
          (∀ other ∈ before, Segment.Readable other) ∧ Segment.Failure segment e) ∧
      (∀ cause, parse text options = .error (.version cause) → ∃ digits rest,
        cause = .overflow digits rest ∧ cause.cause = "Error parsing '" ++ String.ofList digits ++
          "' to u64.\n\nnumber too large to fit in target type") ∧
      ∀ token, parse text options ≠ .error (.malformedComparator token) := by
  refine ⟨fun segments => Segment.split_eq_iff, exists_parse_iff, fun r h => ?_,
    fun e => exists_failure_of_parse, fun cause h => ?_, fun token h => ?_⟩
  · exact ⟨(parse_eq_ok_iff.mp h).2, forall₂_readFrom_of_parse h⟩
  · obtain ⟨-, segment, -, -, -, hfailure⟩ := exists_failure_of_parse h
    cases hfailure with
    | overflow hvalid htokens hbefore hfirst => exact ⟨_, _, rfl, rfl⟩
  · obtain ⟨-, segment, -, -, -, hfailure⟩ := exists_failure_of_parse h
    cases hfailure

end Requirement

end Semver
