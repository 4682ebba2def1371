import Semver.Comparator.Parser

/-!
# Alternatives and segments

The text of a requirement is cut at `||` into segments, one for each alternative. A segment is a row
of tokens; blanks may stand anywhere between them, and one comma after each. A segment that holds
nothing but blanks stands for a single empty token.

* `Semver.Segment.split`: the segments of a text.
* `Semver.Segment.split_eq_iff`: the only way to cut a text at its marks.
* `Semver.Segment.scanTokens`: the tokens at the front of a text.
* `Semver.Segment.isValid`: nothing but tokens and their separators.
* `Semver.Segment.tokens`: the texts of the tokens.
-/

namespace Semver

namespace Segment

/-! ### Alternatives -/

/-- **The segments of a text**: the parts between the marks `||`, found from left to right. -/
def split : List Char → List (List Char)
  | [] => [[]]
  | '|' :: '|' :: s => [] :: split s
  | c :: s => (split s).modifyHead (c :: ·)

/-- A text has one segment at least. -/
theorem split_ne_nil (s : List Char) : split s ≠ [] := by
  fun_induction split s with
  | case1 => simp
  | case2 s ih => simp
  | case3 c s hbars ih =>
    obtain ⟨first, more, hsplit⟩ := List.exists_cons_of_ne_nil ih
    simp [hsplit]

/-- **A text cut at its marks**: the segments with the marks between them are the text, and no mark
is left in a segment. The marks are found from the left, so a segment with a mark behind it does not
end in a bar: of three bars in a row the first two are the mark. -/
structure Cut (s : List Char) (segments : List (List Char)) : Prop where
  ne_nil : segments ≠ []
  join : List.intercalate ['|', '|'] segments = s
  no_bars : ∀ segment ∈ segments, ¬['|', '|'] <:+: segment
  leftmost : ∀ segment ∈ segments.dropLast, ¬['|'] <:+ segment

variable {s segment : List Char} {segments : List (List Char)}

/-- A character in front of a text belongs to its first segment, if no mark starts with it. -/
theorem Cut.cons {c : Char} {first : List Char} {more : List (List Char)}
    (h : Cut s (first :: more)) (hfront : ¬['|', '|'] <+: c :: s) :
    Cut (c :: s) ((c :: first) :: more) := by
  obtain ⟨-, rfl, hbars, hleft⟩ := h
  rw [List.forall_mem_cons] at hbars
  have hjoin : List.intercalate ['|', '|'] ((c :: first) :: more) =
      c :: List.intercalate ['|', '|'] (first :: more) := by
    cases more <;> simp [List.intercalate_cons_cons]
  refine ⟨by simp, hjoin, ?_, ?_⟩
  · rw [List.forall_mem_cons]
    refine ⟨fun hin => ?_, hbars.2⟩
    rcases List.infix_cons_iff.mp hin with hmark | hin
    · have hfirst : c :: first <+: List.intercalate ['|', '|'] ((c :: first) :: more) := by
        cases more <;> simp [List.intercalate_cons_cons]
      exact hfront (hmark.trans (hjoin ▸ hfirst))
    · exact hbars.1 hin
  · cases more with
    | nil => simp
    | cons second more =>
      rw [List.dropLast_cons_cons, List.forall_mem_cons] at hleft ⊢
      refine ⟨fun hbar => ?_, hleft.2⟩
      rcases List.suffix_cons_iff.mp hbar with heq | hbar
      · -- the character would be a bar that the mark behind the segment follows
        obtain ⟨rfl, rfl⟩ := List.cons.inj heq
        rw [List.intercalate_cons_cons] at hfront
        exact hfront ⟨'|' :: List.intercalate ['|', '|'] (second :: more), rfl⟩
      · exact hleft.1 hbar

/-- The segments of a text are a cut of it. -/
theorem cut_split (s : List Char) : Cut s (split s) := by
  fun_induction split s with
  | case1 => exact ⟨by simp, rfl, by simp, by simp⟩
  | case2 s ih =>
    have hne := split_ne_nil s
    refine ⟨by simp, ?_, ?_, ?_⟩
    · rw [List.intercalate_cons_of_ne_nil hne, ih.join]
      rfl
    · simpa using ih.no_bars
    · simpa [List.dropLast_cons_of_ne_nil hne] using ih.leftmost
  | case3 c s hbars ih =>
    have hfront : ¬['|', '|'] <+: c :: s := by
      rintro ⟨rest, hrest⟩
      obtain ⟨rfl, rfl⟩ := List.cons.inj hrest
      exact hbars rest rfl rfl
    obtain ⟨first, more, hsplit⟩ := List.exists_cons_of_ne_nil (split_ne_nil s)
    rw [hsplit] at ih ⊢
    exact ih.cons hfront

/-- A segment is cut off at the first mark behind it. -/
theorem split_append_bars (h : ¬['|', '|'] <:+: segment) (hbar : ¬['|'] <:+ segment)
    (s : List Char) : split (segment ++ '|' :: '|' :: s) = segment :: split s := by
  induction segment with
  | nil => rfl
  | cons c segment ih =>
    have hsegment : ¬['|', '|'] <:+: segment := fun hin =>
      h (hin.trans (List.suffix_cons c segment).isInfix)
    have hend : ¬['|'] <:+ segment := fun hin => hbar (hin.trans (List.suffix_cons c segment))
    -- neither the character and the next one nor the character and the mark are a mark
    have hbars : ∀ rest, c = '|' → segment ++ '|' :: '|' :: s = '|' :: rest → False := by
      rintro rest rfl hrest
      cases segment with
      | nil => exact hbar (List.suffix_refl _)
      | cons d segment =>
        obtain ⟨rfl, -⟩ := List.cons.inj hrest
        exact h (List.prefix_append ['|', '|'] segment).isInfix
    rw [List.cons_append, split.eq_3 _ _ hbars, ih hsegment hend]
    rfl

/-- A text without two bars in a row is a single segment. -/
theorem split_of_no_bars (h : ¬['|', '|'] <:+: s) : split s = [s] := by
  fun_induction split s with
  | case1 => rfl
  | case2 s ih => exact absurd (List.prefix_append ['|', '|'] s).isInfix h
  | case3 c s hbars ih =>
    have hs : ¬['|', '|'] <:+: s := fun hin => h (hin.trans (List.suffix_cons c s).isInfix)
    rw [ih hs]
    rfl

/-- There is no other cut: what stands in front of the first mark is the first segment. -/
theorem Cut.split_eq (h : Cut s segments) : split s = segments := by
  obtain ⟨hne, rfl, hbars, hleft⟩ := h
  induction segments with
  | nil => exact absurd rfl hne
  | cons segment more ih =>
    rw [List.forall_mem_cons] at hbars
    cases more with
    | nil => simpa using split_of_no_bars hbars.1
    | cons second more =>
      rw [List.dropLast_cons_cons, List.forall_mem_cons] at hleft
      have hrest := ih (by simp) hbars.2 hleft.2
      rw [List.intercalate_cons_cons, List.append_assoc]
      exact (split_append_bars hbars.1 hleft.1 _).trans (congrArg (segment :: ·) hrest)

/-- **The segments of a text are its cut**, and a text has one cut only. -/
theorem split_eq_iff : split s = segments ↔ Cut s segments :=
  ⟨fun h => h ▸ cut_split s, Cut.split_eq⟩

example : split ['a', '|', '|', '|', 'b'] = [['a'], ['|', 'b']] := rfl

/-! ### The tokens of a segment -/

/-- The text after what may separate two tokens: blanks, at most one comma, and blanks again. -/
def skipSeparator (s : List Char) : List Char :=
  Text.skipBlanks (Text.skipMark ',' (Text.skipBlanks s))

theorem length_skipSeparator_le (s : List Char) : (skipSeparator s).length ≤ s.length :=
  Nat.le_trans (Text.length_skipBlanks_le _) <|
    Nat.le_trans (Text.length_skipMark_le _ _) (Text.length_skipBlanks_le s)

/-- **The tokens at the front of a text**, with the text that follows the last separator. -/
def scanTokens (s : List Char) : List Token × List Char :=
  match _h : Token.scan s with
  | none => ([], s)
  | some (token, rest) =>
    let more := scanTokens (skipSeparator rest)
    (token :: more.1, more.2)
termination_by s.length
decreasing_by
  exact Nat.lt_of_le_of_lt (length_skipSeparator_le rest) (Token.length_lt_of_scan _h)

/-- The tokens of a segment, with the text from the first place where there is none. -/
def scan (segment : List Char) : List Token × List Char :=
  scanTokens (Text.skipBlanks segment)

/-- **Whether a segment is a row of tokens**, with nothing left at its end. -/
def isValid (segment : List Char) : Bool :=
  (scan segment).2.isEmpty

/-- **The texts of the tokens of a segment.** A segment without tokens has its own text, without the
blanks around it, as the only one. -/
def tokens (segment : List Char) : List (List Char) :=
  match (scan segment).1 with
  | [] => [Text.trim segment]
  | found => found.map Token.text

end Segment

end Semver
