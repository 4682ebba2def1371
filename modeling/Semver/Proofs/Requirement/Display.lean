import Mathlib
import Semver.Json.Codec
import Semver.Proofs.Requirement.Outcome

/-!
# The printed form of a requirement

A requirement that was read from a text is printed with the texts of its tokens, commas between the
tokens of a clause and `||` between the clauses. All that is lost is what separated them, and the
separators that are put in its place separate them just as well. So the printed form is read back as
the very same requirement, comparator texts included, and so is its JSON form up to the options.

* `Semver.Clause.ofChars_chars`: the printed form of a clause is a segment with that clause.
* `Semver.Requirement.parse_toString`: the printed form of a requirement is read back.
-/

namespace Semver

variable {segment : List Char} {clause : Clause}

namespace Clause

/-- The printed form of a clause puts commas between the tokens of its segment. -/
theorem chars_of_readFrom (h : ReadFrom segment clause) :
    clause.chars = List.intercalate [','] (Segment.tokens segment) :=
  congrArg (List.intercalate [',']) h.texts

/-- Segments with the same tokens have the same clause. -/
theorem ofChars_congr {other : List Char} (hvalid : Segment.isValid segment = true)
    (hother : Segment.isValid other = true)
    (htokens : (Segment.scan other).1 = (Segment.scan segment).1) :
    ofChars other = ofChars segment := by
  rcases eq_or_ne (Segment.scan segment).1 [] with hnil | hne
  · rw [ofChars_of_scan_eq_nil hvalid hnil, ofChars_of_scan_eq_nil hother (htokens.trans hnil)]
  · rw [ofChars_of_scan_ne_nil hvalid hne, ofChars_of_scan_ne_nil hother (htokens ▸ hne), htokens]

/-- **The printed form of a clause is a segment with that clause.** -/
theorem ofChars_chars (h : ofChars segment = .ok clause) : ofChars clause.chars = .ok clause := by
  obtain ⟨hvalid, -⟩ := exists_ofChars_iff.mp ⟨clause, h⟩
  have hchars := chars_of_readFrom (readFrom_of_ofChars h)
  have hscan : Segment.scan clause.chars = ((Segment.scan segment).1, []) := by
    -- a blank segment is printed as the empty text, any other one as the row of its tokens
    rcases eq_or_ne (Segment.scan segment).1 [] with hnil | hne
    · rw [hchars, Segment.tokens_of_scan_eq_nil hvalid hnil, hnil]
      exact Segment.scanTokens_nil
    · rw [hchars, Segment.tokens_of_scan_ne_nil hne]
      exact Segment.scan_row (Segment.wellFormed_of_mem_scan segment)
        (Segment.stops_isBlank_of_mem_scan segment)
  have hvalid' : Segment.isValid clause.chars = true := by simp [Segment.isValid, hscan]
  rw [ofChars_congr hvalid hvalid' (by rw [hscan]), h]

/-- No bar stands in the printed form of a clause. -/
theorem bar_notMem_chars (h : ofChars segment = .ok clause) : '|' ∉ clause.chars := by
  obtain ⟨hvalid, -⟩ := exists_ofChars_iff.mp ⟨clause, h⟩
  rw [chars_of_readFrom (readFrom_of_ofChars h)]
  intro hbar
  rcases Text.mem_intercalate hbar with hcomma | ⟨text, htext, hbar⟩
  · exact absurd hcomma (by decide)
  · rcases eq_or_ne (Segment.scan segment).1 [] with hnil | hne
    · rw [Segment.tokens_of_scan_eq_nil hvalid hnil, List.mem_singleton] at htext
      rw [htext] at hbar
      exact absurd hbar (by simp)
    · rw [Segment.tokens_of_scan_ne_nil hne] at htext
      obtain ⟨t, ht, rfl⟩ := List.mem_map.mp htext
      exact Token.bar_notMem_text (Segment.wellFormed_of_mem_scan segment t ht) hbar

end Clause

namespace Requirement

variable {text : String} {options : Options} {r : Requirement}

/-- The printed form of a requirement is cut into the printed forms of its clauses. -/
theorem split_chars (h : parse text options = .ok r) :
    Segment.split r.chars = r.clauses.map Clause.chars := by
  have hread := (parse_eq_ok_iff.mp h).1
  refine Segment.split_intercalate ?_ fun chars hchars => ?_
  · have hlength := (Traversal.mapM_eq_ok_iff.mp hread).length_eq
    intro hnil
    rw [List.map_eq_nil_iff.mp hnil, List.length_nil, List.length_eq_zero_iff] at hlength
    exact Segment.split_ne_nil _ hlength
  · obtain ⟨clause, hclause, rfl⟩ := List.mem_map.mp hchars
    obtain ⟨segment, -, hsegment⟩ := Traversal.exists_of_mem_right hread hclause
    exact Clause.bar_notMem_chars hsegment

/-- The printed form of a requirement has its clauses, whatever the options it is read with. -/
theorem parse_toString_options (h : parse text options = .ok r) (options' : Options) :
    parse (toString r) options' = .ok ⟨r.clauses, options'⟩ := by
  have htext : (toString r).toList = r.chars := String.toList_ofList
  rw [parse_eq_ok_iff, htext, split_chars h, Traversal.mapM_eq_ok_iff, List.forall₂_map_left_iff,
    List.forall₂_same]
  refine ⟨fun clause hclause => ?_, rfl⟩
  obtain ⟨segment, -, hsegment⟩ := Traversal.exists_of_mem_right (parse_eq_ok_iff.mp h).1 hclause
  exact Clause.ofChars_chars hsegment

/-- **The printed form of a requirement is read back** as the same requirement: the same clauses
with the same comparators, texts included, and the same options. The JSON form is read back with the
same clauses and the default options. -/
theorem parse_toString (text : String) (options : Options) (r : Requirement)
    (h : parse text options = .ok r) :
    parse (toString r) options = .ok r ∧ decode (encode r) = .ok ⟨r.clauses, {}⟩ := by
  obtain ⟨-, hoptions⟩ := parse_eq_ok_iff.mp h
  constructor
  · rw [parse_toString_options h options, ← hoptions]
  · simp only [decode, encode, Json.asString, bind, Except.bind, parse_toString_options h {},
      Except.mapError]

/-- Tokens without a separator, a trailing comma, leading zeros, a blank clause and an empty one. -/
theorem parse_toString_separators :
    ∃ r, parse ">= 01.0<2.x-rc.1+b , || ||" { includePreRelease := true } = .ok r ∧
      toString r = ">= 01.0,<2.x-rc.1+b||||" ∧
      parse (toString r) { includePreRelease := true } = .ok r ∧
      decode (encode r) = .ok ⟨r.clauses, {}⟩ :=
  have h : parse ">= 01.0<2.x-rc.1+b , || ||" { includePreRelease := true } =
      .ok ⟨[⟨[⟨.greaterEqual, ⟨.number 1, .number 0, .wildcard, .identifiers []⟩, ">= 01.0"⟩,
        ⟨.less, ⟨.number 2, .wildcard, .wildcard, .identifiers [⟨"rc"⟩, ⟨"1"⟩]⟩,
          "<2.x-rc.1+b"⟩]⟩, ⟨[.any]⟩, ⟨[.any]⟩], { includePreRelease := true }⟩ := by cbv
  ⟨_, h, by cbv, parse_toString _ _ _ h⟩

end Requirement

end Semver
