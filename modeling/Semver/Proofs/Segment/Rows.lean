import Mathlib
import Semver.Proofs.Comparator.Denotation
import Semver.Segment

/-!
# Rows of tokens, and rows of segments

The scan of a segment finds well-formed tokens and nothing else, and it skips the blanks before each
of them. Conversely a row of such tokens with commas between them is a segment whose scan finds
exactly these tokens: the comma stops every token, and no token starts with a blank. One level up, a
row of segments without a bar is cut at its marks into these segments.

The scan goes in rounds: it finds the token at the front of a text, skips the separator behind that
token, and starts over with what is left. A token may have ended where it did because of what came
next, as in `1.x2` or `1-a.`, where a piece was begun and given up again. Nothing of this clings to
the token. Put in front of another text, a token is found again as it was, if that text is empty or
starts with a blank, a comma or a bar: none of these can be part of a piece, so none of them draws
the token out, and what was given up once is not there any more. A token is never empty either, so
the rounds come to an end on every text, at the first place where there is no token.

* `Semver.Segment.wellFormed_of_mem_scan` and `Semver.Segment.stops_isBlank_of_mem_scan`: the tokens
  that a scan finds.
* `Semver.Segment.scan_row`: a row of tokens between commas is scanned as it was written.
* `Semver.Segment.split_intercalate`: a row of segments is cut as it was written.
* `Semver.Token.scan_text_append_of_breaks`: a token is found again in front of what breaks it off.
* `Semver.Segment.Rounds`: rounds of the scan, one after the other.
* `Semver.Segment.Rounds.length_le`: there are no more rounds than characters.
* `Semver.Segment.scanTokens_eq_iff`: the scan makes all rounds that there are.
-/

namespace Semver

open Text (Stops stops_nil stops_cons)

variable {s rest : List Char}

/-! ### What stops a token -/

namespace Token

/-- A comma draws no shape out. -/
theorem stops_comma (t : Token) (s : List Char) : Stops t.shape.continuedBy (',' :: s) := by
  rw [stops_cons, Bound.Shape.continuedBy]
  split <;> decide

/-- A bar stands in no token. -/
theorem bar_notMem_text {t : Token} (ht : t.WellFormed) : '|' ∉ t.text := by
  intro hbar
  simp only [text, List.mem_append] at hbar
  rcases hbar with (hbar | hbar) | hbar
  · exact absurd (Operator.isSignChar_of_mem_spelling ht.sign _ hbar) (by decide)
  · exact absurd (ht.gap _ hbar) (by decide)
  · exact absurd (Bound.Shape.isShapeChar_of_mem_text ht.shape _ hbar) (by decide)

end Token

namespace Segment

/-! ### The tokens that a scan finds -/

theorem scanTokens_of_scan {t : Token} (h : Token.scan s = some (t, rest)) :
    scanTokens s = (t :: (scanTokens (skipSeparator rest)).1,
      (scanTokens (skipSeparator rest)).2) := by
  rw [scanTokens, h]

theorem scanTokens_nil : scanTokens [] = ([], []) := by
  rw [scanTokens]
  rfl

theorem wellFormed_of_mem_scanTokens (s : List Char) : ∀ t ∈ (scanTokens s).1, t.WellFormed := by
  fun_induction scanTokens s with
  | case1 s h => simp
  | case2 s token rest h more ih =>
    intro t ht
    rcases List.mem_cons.mp ht with rfl | ht
    · exact Token.wellFormed_of_scan h
    · exact ih t ht

/-- The scan of a segment finds well-formed tokens. -/
theorem wellFormed_of_mem_scan (segment : List Char) : ∀ t ∈ (scan segment).1, t.WellFormed :=
  wellFormed_of_mem_scanTokens _

theorem stops_isBlank_of_mem_scanTokens (hs : Stops Text.isBlank s) :
    ∀ t ∈ (scanTokens s).1, Stops Text.isBlank t.text := by
  fun_induction scanTokens s with
  | case1 s h => simp
  | case2 s token rest h more ih =>
    intro t ht
    rcases List.mem_cons.mp ht with rfl | ht
    · -- the text starts with the token, so both start with the same character
      obtain ⟨c, text, htext⟩ := List.exists_cons_of_ne_nil (Token.text_ne_nil_of_scan h)
      rw [← Token.text_append_of_scan h, htext, List.cons_append, stops_cons] at hs
      rw [htext, stops_cons]
      exact hs
    · exact ih (Text.stops_skipBlanks _) t ht

/-- No token that the scan of a segment finds starts with a blank. -/
theorem stops_isBlank_of_mem_scan (segment : List Char) :
    ∀ t ∈ (scan segment).1, Stops Text.isBlank t.text :=
  stops_isBlank_of_mem_scanTokens (Text.stops_skipBlanks segment)

theorem scanTokens_of_fst_eq_nil (h : (scanTokens s).1 = []) : scanTokens s = ([], s) := by
  fun_cases scanTokens s with
  | case1 hscan => rfl
  | case2 token rest hscan more =>
    rw [scanTokens_of_scan hscan] at h
    cases h

/-- A segment without tokens that is one all the same is blank. -/
theorem isBlank_of_scan_eq_nil {segment : List Char} (hvalid : isValid segment = true)
    (h : (scan segment).1 = []) : ∀ c ∈ segment, Text.isBlank c = true := by
  have hnone := scanTokens_of_fst_eq_nil h
  rw [isValid, scan, hnone, List.isEmpty_iff] at hvalid
  exact Text.skipBlanks_eq_nil_iff.mp hvalid

/-- The texts of the tokens of a segment that has some. -/
theorem tokens_of_scan_ne_nil {segment : List Char} (h : (scan segment).1 ≠ []) :
    tokens segment = (scan segment).1.map Token.text := by
  unfold tokens
  split
  next hnil => exact absurd hnil h
  · rfl

/-- The texts of the tokens of a segment without any. -/
theorem tokens_of_scan_eq_nil {segment : List Char} (hvalid : isValid segment = true)
    (h : (scan segment).1 = []) : tokens segment = [[]] := by
  unfold tokens
  split
  · rw [Text.trim_eq_nil (isBlank_of_scan_eq_nil hvalid h)]
  next hne => exact absurd h hne

/-! ### Rows of tokens -/

/-- The text of tokens with commas between them. -/
def row (tokens : List Token) : List Char :=
  List.intercalate [','] (tokens.map Token.text)

theorem stops_isBlank_row {tokens : List Token} (h : ∀ t ∈ tokens, Stops Text.isBlank t.text) :
    Stops Text.isBlank (row tokens) := by
  cases tokens with
  | nil => exact stops_nil _
  | cons t ts =>
    rw [row, List.map_cons, Text.intercalate_cons]
    refine (h t (by simp)).append fun _ => ?_
    cases ts with
    | nil => exact stops_nil _
    | cons u us => exact stops_cons.mpr (by decide)

theorem scanTokens_row {tokens : List Token} (hwell : ∀ t ∈ tokens, t.WellFormed)
    (hstart : ∀ t ∈ tokens, Stops Text.isBlank t.text) :
    scanTokens (row tokens) = (tokens, []) := by
  induction tokens with
  | nil => exact scanTokens_nil
  | cons t ts ih =>
    have ht : t.WellFormed := hwell t (by simp)
    have hts : ∀ u ∈ ts, Stops Text.isBlank u.text := fun u hu => hstart u (by simp [hu])
    rcases eq_or_ne ts [] with rfl | hne
    · have hrow : row [t] = t.text := by simp [row]
      have hskip : skipSeparator [] = [] := rfl
      rw [hrow, scanTokens_of_scan (Token.scan_text ht), hskip, scanTokens_nil]
    · -- the comma ends the first token, and the separator is exactly the comma
      have hrow : row (t :: ts) = t.text ++ ',' :: row ts := by
        simp [row, List.intercalate_cons_of_ne_nil (List.map_eq_nil_iff.not.mpr hne)]
      have hscan := Token.scan_text_append ht (t.stops_comma (row ts))
      have hskip : skipSeparator (',' :: row ts) = row ts := by
        have hcomma : Text.skipBlanks (',' :: row ts) = ',' :: row ts :=
          Text.skipBlanks_of_stops (stops_cons.mpr (by decide))
        rw [skipSeparator, hcomma, Text.skipMark_cons_self]
        exact Text.skipBlanks_of_stops (stops_isBlank_row hts)
      rw [hrow, scanTokens_of_scan hscan, hskip, ih (fun u hu => hwell u (by simp [hu])) hts]

/-- **A row of tokens between commas is scanned as it was written**, if none of them starts with a
blank. -/
theorem scan_row {tokens : List Token} (hwell : ∀ t ∈ tokens, t.WellFormed)
    (hstart : ∀ t ∈ tokens, Stops Text.isBlank t.text) : scan (row tokens) = (tokens, []) := by
  rw [scan, Text.skipBlanks_of_stops (stops_isBlank_row hstart)]
  exact scanTokens_row hwell hstart

/-! ### Rows of segments -/

/-- **A row of segments is cut as it was written**, if none of them has a bar. -/
theorem split_intercalate {segments : List (List Char)} (hne : segments ≠ [])
    (h : ∀ segment ∈ segments, '|' ∉ segment) :
    split (List.intercalate ['|', '|'] segments) = segments :=
  split_eq_iff.mpr
    { ne_nil := hne
      join := rfl
      no_bars := fun segment hsegment hin => h segment hsegment (hin.subset (by simp))
      leftmost := fun segment hsegment hend =>
        h segment (List.mem_of_mem_dropLast hsegment) (hend.subset (by simp)) }

/-- So is a segment without a bar, on its own. -/
theorem split_of_bar_notMem (h : '|' ∉ s) : split s = [s] :=
  split_of_no_bars fun hin => h (hin.subset (by simp))

end Segment

/-! ### What breaks off a token -/

variable {s' z : List Char} {t : Token} {ts : List Token}

/-- What may draw a shape out is a character that shapes are written in. -/
theorem Bound.Shape.isShapeChar_of_continuedBy {x : Shape} {c : Char}
    (h : x.continuedBy c = true) : isShapeChar c = true := by
  simp only [continuedBy, Bool.or_eq_true, beq_iff_eq] at h
  rcases h with ((rfl | rfl) | rfl) | hlast
  · decide
  · decide
  · decide
  · split at hlast
    · exact isShapeChar_of_isTextChar hlast
    · simp [isShapeChar, Identifier.isRowChar_of_isWordChar hlast]

namespace Token

/-- **A text breaks off a token** in front of it if it is empty or starts with a blank, with a comma
or with a bar. -/
def Breaks (z : List Char) : Prop :=
  z = [] ∨ ∃ c rest, z = c :: rest ∧ (Text.isBlank c = true ∨ c = ',' ∨ c = '|')

/-- No shape goes on in a text that breaks off tokens. -/
theorem Breaks.stops (h : Breaks z) : Stops Bound.Shape.isShapeChar z := by
  rcases h with rfl | ⟨c, rest, rfl, hblank | rfl | rfl⟩
  · exact Text.stops_nil _
  · refine Text.stops_cons.mpr (Bool.eq_false_iff.mpr fun hshape => ?_)
    rw [Bound.Shape.isBlank_eq_false_of_isShapeChar hshape] at hblank
    exact absurd hblank (by decide)
  · exact Text.stops_cons.mpr (by decide)
  · exact Text.stops_cons.mpr (by decide)

/-- **A token is found again** in front of any text that breaks it off. -/
theorem scan_text_append_of_breaks (ht : t.WellFormed) (hz : Breaks z) :
    scan (t.text ++ z) = some (t, z) :=
  scan_text_append ht (hz.stops.mono fun _ => Bound.Shape.isShapeChar_of_continuedBy)

end Token

/-! ### Rounds -/

namespace Segment

/-- **One round of the scan**: the token at the front of a text is taken, and the separator behind
it is skipped. -/
def Round (s : List Char) (t : Token) (s' : List Char) : Prop :=
  ∃ rest, Token.scan s = some (t, rest) ∧ skipSeparator rest = s'

/-- **Rounds of the scan**, one after the other, with the tokens that they take. -/
inductive Rounds : List Char → List Token → List Char → Prop
  | done {s : List Char} : Rounds s [] s
  | more {s s' u : List Char} {t : Token} {ts : List Token} (hround : Round s t s')
      (hrounds : Rounds s' ts u) : Rounds s (t :: ts) u

/-- A round leaves less than it found. -/
theorem Round.length_lt (h : Round s t s') : s'.length < s.length := by
  obtain ⟨rest, hscan, rfl⟩ := h
  exact Nat.lt_of_le_of_lt (length_skipSeparator_le rest) (Token.length_lt_of_scan hscan)

/-- **There are no more rounds than characters**: each of them uses up one at least. -/
theorem Rounds.length_le (h : Rounds s ts rest) : ts.length + rest.length ≤ s.length := by
  induction h with
  | done => simp
  | more hround _ ih =>
    have hlt := hround.length_lt
    rw [List.length_cons]
    omega

theorem rounds_scanTokens (s : List Char) : Rounds s (scanTokens s).1 (scanTokens s).2 := by
  fun_induction scanTokens s with
  | case1 s hscan => exact .done
  | case2 s token rest hscan more ih => exact .more ⟨rest, hscan, rfl⟩ ih

theorem scan_snd_scanTokens (s : List Char) : Token.scan (scanTokens s).2 = none := by
  fun_induction scanTokens s with
  | case1 s hscan => exact hscan
  | case2 s token rest hscan more ih => exact ih

/-- **The scan makes all rounds that there are**, and stops at the first place without a token. -/
theorem scanTokens_eq_iff :
    scanTokens s = (ts, rest) ↔ Rounds s ts rest ∧ Token.scan rest = none := by
  constructor
  · intro h
    have hrounds := rounds_scanTokens s
    have hnone := scan_snd_scanTokens s
    rw [h] at hrounds hnone
    exact ⟨hrounds, hnone⟩
  · rintro ⟨hrounds, hnone⟩
    induction hrounds with
    | done =>
      rw [scanTokens, hnone]
    | more hround _ ih =>
      obtain ⟨after, hscan, rfl⟩ := hround
      rw [scanTokens_of_scan hscan, ih hnone]

/-- **Tokens do not depend on their context.** A token that is scanned is the front of the text, and
not an empty one; it is scanned again on its own, and in front of whatever breaks it off. So every
round of the scan of a segment leaves a shorter text, no text has more rounds than characters, and
the scan ends on all of them, with the first text at whose front there is no token. -/
theorem scan_independent (s : List Char) :
    (∀ t rest, Token.scan s = some (t, rest) → s = t.text ++ rest ∧ t.text ≠ [] ∧
        Token.scan t.text = some (t, []) ∧
          ∀ z, Token.Breaks z → Token.scan (t.text ++ z) = some (t, z)) ∧
      (∀ t s', Round s t s' → s'.length < s.length) ∧
      (∀ ts rest, Rounds s ts rest → ts.length + rest.length ≤ s.length) ∧
      ∃ ts rest, scanTokens s = (ts, rest) ∧ Rounds s ts rest ∧ Token.scan rest = none := by
  refine ⟨fun t rest hscan => ?_, fun t s' => Round.length_lt, fun ts rest => Rounds.length_le,
    _, _, rfl, scanTokens_eq_iff.mp rfl⟩
  have ht := Token.wellFormed_of_scan hscan
  exact ⟨(Token.text_append_of_scan hscan).symm, Token.text_ne_nil_of_scan hscan,
    Token.scan_text ht, fun z => Token.scan_text_append_of_breaks ht⟩

/-- A token behind which a further identifier was begun and given up. -/
theorem scan_independent_given_up :
    ∃ t, Token.scan "^ v1.x-a..b".toList = some (t, "..b".toList) ∧ t.text = "^ v1.x-a".toList ∧
      Token.scan "^ v1.x-a".toList = some (t, []) ∧
      Token.scan "^ v1.x-a|| .b".toList = some (t, "|| .b".toList) := by
  have hscan : Token.scan "^ v1.x-a..b".toList = some (⟨['^'], [' '],
      ⟨true, ['1'], some ['x'], none, [['a']], []⟩⟩, "..b".toList) := by cbv
  obtain ⟨-, -, halone, hbreaks⟩ := (scan_independent "^ v1.x-a..b".toList).1 _ _ hscan
  exact ⟨_, hscan, rfl, halone,
    hbreaks "|| .b".toList (.inr ⟨'|', "| .b".toList, by decide, .inr (.inr rfl)⟩)⟩

end Segment

end Semver
