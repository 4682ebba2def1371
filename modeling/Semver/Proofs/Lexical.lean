import Mathlib.Data.List.TakeWhile
import Semver.Lexical

/-!
# Runs, blanks and rows of words

Every reader of this library takes a run: the longest front of a text whose characters all belong to
one class. A run that is put in front of another text is found again exactly when that text does not
go on with a character of the class. This file says so once, for the two halves of a run, and keeps
blanks apart from the characters that the notation is written in.

A row of words between dots is found again behind whatever it stands in front of, as long as that
text can neither lengthen the last word nor add another one. With a mark before the row the same
holds, and an absent row is found absent where the mark itself does not follow.

* `Semver.Text.Stops`: no character of a class stands at the front of a text.
* `Semver.Text.takeWhile_run` and `Semver.Text.dropWhile_run`: a stopped run is found again.
* `Semver.Text.IsVisible`: the characters that ASCII prints, among them all of the notation.
* `Semver.Text.intercalate_cons`: a row of pieces, the first one apart from the others.
* `Semver.Identifier.IsWord`: a word as the reader finds it.
* `Semver.Identifier.readWords_joinWords_append`: a row of words is read again.
* `Semver.Identifier.readMarked_joinMarked_append`: so is a row behind its mark.
* `Semver.Identifier.length_readMarked_append_le`: in front of any text it is read past its end.
-/

namespace Semver

namespace Text

variable {p q : Char → Bool} {c : Char} {s t run : List Char}

/-! ### What stops a run -/

/-- **A text stops a class of characters** if it does not start with one of them. -/
def Stops (p : Char → Bool) (s : List Char) : Prop :=
  ∀ c ∈ s.head?, p c = false

@[simp] theorem stops_nil (p : Char → Bool) : Stops p [] := by
  simp [Stops]

@[simp] theorem stops_cons : Stops p (c :: s) ↔ p c = false := by
  simp [Stops]

/-- Of two texts in a row the first decides, unless it is empty. -/
theorem Stops.append (hs : Stops p s) (ht : s = [] → Stops p t) : Stops p (s ++ t) := by
  cases s with
  | nil => exact ht rfl
  | cons c s => simpa using hs

theorem Stops.mono (hs : Stops p s) (h : ∀ c, q c = true → p c = true) : Stops q s := by
  intro c hc
  by_contra hq
  have hp : p c = true := h c (by simpa using hq)
  rw [hs c hc] at hp
  exact absurd hp (by decide)

/-- The characters of a class are apart from a mark that does not belong to it. -/
theorem beq_mark_eq_false {mark : Char} (hmark : p mark = false) (h : p c = true) :
    (c == mark) = false := by
  rw [beq_eq_false_iff_ne]
  rintro rfl
  exact Bool.false_ne_true (hmark.symm.trans h)

/-- What is left after a run stops it. -/
theorem stops_dropWhile (p : Char → Bool) (s : List Char) : Stops p (s.dropWhile p) := by
  intro c hc
  have h := List.head?_dropWhile_not p s
  rw [Option.mem_def.mp hc] at h
  simpa using h

theorem takeWhile_of_stops (hs : Stops p s) : s.takeWhile p = [] := by
  cases s with
  | nil => rfl
  | cons c s => simp [stops_cons.mp hs]

theorem dropWhile_of_stops (hs : Stops p s) : s.dropWhile p = s := by
  cases s with
  | nil => rfl
  | cons c s => simp [stops_cons.mp hs]

/-- **A stopped run is found again.** -/
theorem takeWhile_run (hrun : ∀ c ∈ run, p c = true) (hs : Stops p s) :
    (run ++ s).takeWhile p = run := by
  rw [List.takeWhile_append_of_pos hrun, takeWhile_of_stops hs, List.append_nil]

/-- What follows a stopped run is what follows it again. -/
theorem dropWhile_run (hrun : ∀ c ∈ run, p c = true) (hs : Stops p s) :
    (run ++ s).dropWhile p = s := by
  rw [List.dropWhile_append_of_pos hrun, dropWhile_of_stops hs]

/-- A mark that does not stand at the front of a text is not skipped. -/
theorem skipMark_of_stops {mark : Char} (hs : Stops (· == mark) s) : skipMark mark s = s := by
  cases s with
  | nil => rfl
  | cons c s =>
    have hc : c ≠ mark := by simpa using stops_cons.mp hs
    rw [skipMark, if_neg hc]

/-- A mark that may stand in front is skipped if it does, where it does not follow itself. -/
theorem skipMark_append {mark : Char} {front : List Char} (hfront : front = [] ∨ front = [mark])
    (hs : Stops (· == mark) s) : skipMark mark (front ++ s) = s := by
  rcases hfront with rfl | rfl
  · exact skipMark_of_stops hs
  · simp [skipMark]

theorem head?_beq_of_stops {mark : Char} (hs : Stops (· == mark) s) :
    (s.head? == some mark) = false := by
  cases s with
  | nil => rfl
  | cons c s => simpa using hs

@[simp] theorem skipMark_cons_self (mark : Char) (s : List Char) :
    skipMark mark (mark :: s) = s := by
  simp [skipMark]

/-! ### Blanks -/

/-- The characters that ASCII prints, the space left out. -/
def IsVisible (c : Char) : Prop := 0x21 ≤ c.toNat ∧ c.toNat ≤ 0x7E

instance (c : Char) : Decidable (IsVisible c) :=
  inferInstanceAs (Decidable (_ ∧ _))

/-- No visible character is a blank. -/
theorem IsVisible.isBlank_eq_false (h : IsVisible c) : isBlank c = false := by
  obtain ⟨hlow, hhigh⟩ := h
  simp only [isBlank, blankRanges, List.any_cons, List.any_nil, Bool.or_eq_false_iff,
    Bool.and_eq_false_iff, decide_eq_false_iff_not, and_true]
  omega

theorem isVisible_of_isDigit (h : c.isDigit = true) : IsVisible c := by
  simp only [Char.isDigit, Bool.and_eq_true, decide_eq_true_eq, UInt32.le_iff_toNat_le] at h
  exact ⟨Nat.le_trans (by decide) h.1, Nat.le_trans h.2 (by decide)⟩

/-- The letters stand behind the digits. -/
theorem isDigit_eq_false_of_isAlpha (h : c.isAlpha = true) : c.isDigit = false := by
  have hlow : 'A'.val ≤ c.val := by
    rcases Bool.or_eq_true_iff.mp h with hupper | hlower
    · exact (of_decide_eq_true hupper : 'A'.val ≤ c.val ∧ _).1
    · exact UInt32.le_trans (by decide) (of_decide_eq_true (Bool.and_eq_true_iff.mp hlower).1)
  have hhigh : '9'.val < c.val := UInt32.lt_of_lt_of_le (by decide) hlow
  exact Bool.and_eq_false_iff.mpr (.inr (decide_eq_false (UInt32.not_le.mpr hhigh)))

theorem isVisible_of_isAlphanum (h : c.isAlphanum = true) : IsVisible c := by
  change ((c.isUpper || c.isLower) || c.isDigit) = true at h
  rw [Bool.or_eq_true, Bool.or_eq_true] at h
  rcases h with (hupper | hlower) | hdigit
  · obtain ⟨hlow, hhigh⟩ : 65 ≤ c.val ∧ c.val ≤ 90 := of_decide_eq_true hupper
    rw [UInt32.le_iff_toNat_le] at hlow hhigh
    exact ⟨Nat.le_trans (by decide) hlow, Nat.le_trans hhigh (by decide)⟩
  · obtain ⟨hlow, hhigh⟩ := Bool.and_eq_true_iff.mp hlower
    have hlow' := UInt32.le_iff_toNat_le.mp (of_decide_eq_true hlow)
    have hhigh' := UInt32.le_iff_toNat_le.mp (of_decide_eq_true hhigh)
    exact ⟨Nat.le_trans (by decide) hlow', Nat.le_trans hhigh' (by decide)⟩
  · exact isVisible_of_isDigit hdigit

theorem skipBlanks_of_stops (hs : Stops isBlank s) : skipBlanks s = s :=
  dropWhile_of_stops hs

/-- A gap of blanks before a text that does not start with one is skipped as a whole. -/
theorem skipBlanks_gap (hrun : ∀ c ∈ run, isBlank c = true) (hs : Stops isBlank s) :
    skipBlanks (run ++ s) = s :=
  dropWhile_run hrun hs

/-- Blanks in front of any text are skipped along with its own. -/
theorem skipBlanks_gap_append (hrun : ∀ c ∈ run, isBlank c = true) (s : List Char) :
    skipBlanks (run ++ s) = skipBlanks s :=
  List.dropWhile_append_of_pos hrun

/-- Blanks stop every class that no blank belongs to. -/
theorem stops_gap_append (hp : ∀ c, isBlank c = true → p c = false)
    (hrun : ∀ c ∈ run, isBlank c = true) (hs : run = [] → Stops p s) : Stops p (run ++ s) :=
  Stops.append (fun c hc => hp c (hrun c (List.mem_of_mem_head? hc))) hs

theorem skipBlanks_eq_nil_iff : skipBlanks s = [] ↔ ∀ c ∈ s, isBlank c = true :=
  List.dropWhile_eq_nil_iff

theorem stops_skipBlanks (s : List Char) : Stops isBlank (skipBlanks s) :=
  stops_dropWhile isBlank s

/-- Nothing is left of a text of blanks between its ends. -/
theorem trim_eq_nil (h : ∀ c ∈ s, isBlank c = true) : trim s = [] := by
  simp [trim, skipBlanks_eq_nil_iff.mpr h]

/-- A text without blanks is left as it is. -/
theorem trim_eq_self (h : ∀ c ∈ s, isBlank c = false) : trim s = s := by
  have hfront : skipBlanks s = s :=
    skipBlanks_of_stops fun c hc => h c (List.mem_of_mem_head? hc)
  have hback : s.reverse.dropWhile isBlank = s.reverse :=
    dropWhile_of_stops fun c hc => h c (List.mem_reverse.mp (List.mem_of_mem_head? hc))
  rw [trim, hfront, hback, List.reverse_reverse]

/-! ### Rows -/

variable {rows : List (List Char)}

/-- A row of pieces: the first, and each other one behind its separator. -/
theorem intercalate_cons (sep piece : List Char) (more : List (List Char)) :
    List.intercalate sep (piece :: more) = piece ++ more.flatMap (sep ++ ·) := by
  induction more generalizing piece with
  | nil => simp
  | cons next more ih => rw [List.intercalate_cons_cons, ih next]; simp

/-- A row of pieces is the row up to any of them, and then the rest of it. -/
theorem intercalate_append (sep : List Char) (before : List (List Char)) (piece : List Char)
    (after : List (List Char)) :
    List.intercalate sep (before ++ piece :: after) =
      List.intercalate sep (before ++ [piece]) ++ after.flatMap (sep ++ ·) := by
  cases before with
  | nil => simp [intercalate_cons]
  | cons first before => simp [intercalate_cons]

theorem mem_intercalate {sep : List Char} (h : c ∈ List.intercalate sep rows) :
    c ∈ sep ∨ ∃ piece ∈ rows, c ∈ piece := by
  cases rows with
  | nil => exact absurd h (by simp)
  | cons piece more =>
    rw [intercalate_cons, List.mem_append, List.mem_flatMap] at h
    rcases h with h | ⟨other, hother, h⟩
    · exact Or.inr ⟨piece, by simp, h⟩
    · rcases List.mem_append.mp h with h | h
      · exact Or.inl h
      · exact Or.inr ⟨other, by simp [hother], h⟩

end Text

namespace Identifier

open Text (Stops stops_cons takeWhile_run dropWhile_run takeWhile_of_stops)

variable {s w : List Char} {words : List (List Char)} {mark : Char}

/-! ### Words -/

/-- **A word**: one character at least, and all of them letters, digits or hyphens. -/
def IsWord (w : List Char) : Prop :=
  w ≠ [] ∧ ∀ c ∈ w, isWordChar c = true

instance (w : List Char) : Decidable (IsWord w) :=
  inferInstanceAs (Decidable (_ ∧ _))

/-- The characters of a row of words: those of a word, and the dot. -/
def isRowChar (c : Char) : Bool :=
  isWordChar c || c == '.'

theorem isRowChar_of_isWordChar {c : Char} (h : isWordChar c = true) : isRowChar c = true := by
  simp [isRowChar, h]

/-! ### What is read consists of words -/

theorem isWord_takeWhile (h : ¬(s.takeWhile isWordChar).isEmpty = true) :
    IsWord (s.takeWhile isWordChar) :=
  ⟨fun hnil => h (by rw [hnil]; rfl), fun _ hc => List.mem_takeWhile_imp hc⟩

theorem isWord_of_mem_readWords (s : List Char) : ∀ w ∈ (readWords s).1, IsWord w := by
  fun_induction readWords s with
  | case1 s word h => simp
  | case2 s word h rest hrest rest' hwords ih =>
    intro w hw
    obtain rfl : w = word := by simpa using hw
    exact isWord_takeWhile h
  | case3 s word h rest hrest words rest' hne hwords ih =>
    rw [hwords] at ih
    intro w hw
    rcases List.mem_cons.mp hw with rfl | hw
    · exact isWord_takeWhile h
    · exact ih w hw
  | case4 s word h hne =>
    intro w hw
    obtain rfl : w = word := by simpa using hw
    exact isWord_takeWhile h

theorem isWord_of_mem_readMarked (mark : Char) (s : List Char) :
    ∀ w ∈ (readMarked mark s).1, IsWord w := by
  fun_cases readMarked mark s with
  | case1 => simp
  | case2 s rest hwords => simp
  | case3 s hne => exact isWord_of_mem_readWords s
  | case4 c s h => simp

/-- A row of words is written in its own characters. -/
theorem isRowChar_of_mem_joinWords (hwords : ∀ w ∈ words, IsWord w) :
    ∀ c ∈ joinWords words, isRowChar c = true := by
  intro c hc
  rcases Text.mem_intercalate hc with hdot | ⟨w, hw, hc⟩
  · obtain rfl : c = '.' := by simpa using hdot
    rfl
  · exact isRowChar_of_isWordChar ((hwords w hw).2 c hc)

/-! ### What follows a row of words -/

/-- No character of a word follows the words that are read. -/
theorem stops_readWords (h : (readWords s).1 ≠ []) : Stops isWordChar (readWords s).2 := by
  fun_induction readWords s with
  | case1 s word hword => exact absurd rfl h
  | case2 s word hword rest hrest rest' hwords ih => exact stops_cons.mpr (by decide)
  | case3 s word hword rest hrest words rest' hne hwords ih =>
    rw [hwords] at ih
    exact ih hne
  | case4 s word hword hne => exact Text.stops_dropWhile isWordChar s

theorem stops_readMarked (mark : Char) (s : List Char) :
    (readMarked mark s).1 ≠ [] → Stops isWordChar (readMarked mark s).2 := by
  fun_cases readMarked mark s with
  | case1 => simp
  | case2 s rest hwords => simp
  | case3 s hne => exact stops_readWords
  | case4 c s hc => simp

/-- Where no words are read behind a mark, nothing is used up. -/
theorem readMarked_snd_of_fst_eq_nil (h : (readMarked mark s).1 = []) :
    (readMarked mark s).2 = s := by
  have hs := joinMarked_append_readMarked mark s
  rwa [h] at hs

/-- Behind two rows of words comes no character of a word or, if both are absent, what was there
before. -/
theorem stops_readMarked_readMarked {p : Char → Bool} (mark mark' : Char) (hs : Stops p s) :
    ((readMarked mark s).1 = [] → (readMarked mark' (readMarked mark s).2).1 = [] →
        Stops p (readMarked mark' (readMarked mark s).2).2) ∧
      ((readMarked mark s).1 ≠ [] ∨ (readMarked mark' (readMarked mark s).2).1 ≠ [] →
        Stops isWordChar (readMarked mark' (readMarked mark s).2).2) := by
  refine ⟨fun hfirst hsecond => ?_, fun hne => ?_⟩
  · rwa [readMarked_snd_of_fst_eq_nil hsecond, readMarked_snd_of_fst_eq_nil hfirst]
  · by_cases hsecond : (readMarked mark' (readMarked mark s).2).1 = []
    · rw [readMarked_snd_of_fst_eq_nil hsecond]
      exact stops_readMarked mark s (hne.resolve_right fun h => h hsecond)
    · exact stops_readMarked mark' _ hsecond

/-! ### Reading words again -/

theorem joinWords_cons (h : words ≠ []) : joinWords (w :: words) = w ++ '.' :: joinWords words := by
  simp [joinWords, List.intercalate_cons_of_ne_nil h]

theorem joinMarked_of_ne_nil (h : words ≠ []) :
    joinMarked mark words = mark :: joinWords words := by
  cases words with
  | nil => exact absurd rfl h
  | cons w words => rfl

/-- A single word is read where nothing can lengthen the row. -/
theorem readWords_word_append (hw : IsWord w) (hs : Stops isRowChar s) :
    readWords (w ++ s) = ([w], s) := by
  have hs' : Stops isWordChar s := hs.mono fun _ => isRowChar_of_isWordChar
  rw [readWords, takeWhile_run hw.2 hs', dropWhile_run hw.2 hs', if_neg (by simp [hw.1])]
  split
  · exact absurd (stops_cons.mp hs) (by decide)
  · rfl

/-- A word before a dot and a row of words is read as the first word of a longer row. -/
theorem readWords_word_dot {rest rest' : List Char} (hw : IsWord w) (hne : words ≠ [])
    (h : readWords rest = (words, rest')) :
    readWords (w ++ '.' :: rest) = (w :: words, rest') := by
  have hdot : Stops isWordChar ('.' :: rest) := stops_cons.mpr (by decide)
  rw [readWords, takeWhile_run hw.2 hdot, dropWhile_run hw.2 hdot, if_neg (by simp [hw.1])]
  cases words with
  | nil => exact absurd rfl hne
  | cons v words => simp only [h]

/-- **A row of words is read again**, and what follows it is left. -/
theorem readWords_joinWords_append (hne : words ≠ []) (hwords : ∀ w ∈ words, IsWord w)
    (hs : Stops isRowChar s) : readWords (joinWords words ++ s) = (words, s) := by
  induction words with
  | nil => exact absurd rfl hne
  | cons w ws ih =>
    have hw : IsWord w := hwords w (by simp)
    rcases eq_or_ne ws [] with rfl | hws
    · simpa [joinWords] using readWords_word_append hw hs
    · -- the dot ends the first word, and the row behind it is read by induction
      have hrest := ih hws fun v hv => hwords v (by simp [hv])
      rw [joinWords_cons hws, List.append_assoc]
      exact readWords_word_dot hw hws hrest

/-- **A row of words behind a mark is read again**, and an absent row is found absent. -/
theorem readMarked_joinMarked_append (hwords : ∀ w ∈ words, IsWord w)
    (hmark : words = [] → Stops (· == mark) s) (hs : words ≠ [] → Stops isRowChar s) :
    readMarked mark (joinMarked mark words ++ s) = (words, s) := by
  cases words with
  | nil =>
    cases s with
    | nil => rfl
    | cons c s =>
      have hc : c ≠ mark := by simpa using stops_cons.mp (hmark rfl)
      simp [joinMarked, readMarked, hc]
  | cons w ws =>
    have hread := readWords_joinWords_append (by simp) hwords (hs (by simp))
    simp [joinMarked, readMarked, hread]

/-! ### How far a row is read -/

theorem length_readWords_le (s : List Char) : (readWords s).2.length ≤ s.length := by
  have h := congrArg List.length (joinWords_append_readWords s)
  rw [List.length_append] at h
  omega

theorem length_readMarked_le (mark : Char) (s : List Char) :
    (readMarked mark s).2.length ≤ s.length := by
  have h := congrArg List.length (joinMarked_append_readMarked mark s)
  rw [List.length_append] at h
  omega

/-- Where a word stands, words are read, and those past its end at least. -/
theorem readWords_past_word (h : s.takeWhile isWordChar ≠ []) :
    (readWords s).1 ≠ [] ∧ (readWords s).2.length ≤ (s.dropWhile isWordChar).length := by
  fun_cases readWords s with
  | case1 word hword => exact absurd (List.isEmpty_iff.mp hword) h
  | case2 word hword rest hrest rest' hwords => simp [hrest]
  | case3 word hword rest hrest words rest' hne hwords =>
    have hle : rest'.length ≤ rest.length := by simpa [hwords] using length_readWords_le rest
    refine ⟨by simp, ?_⟩
    rw [hrest]
    exact Nat.le_succ_of_le hle
  | case4 word hword hdot => simp

/-- **A row of words is read past its end**, whatever follows it. -/
theorem readWords_past_row (hne : words ≠ []) (hwords : ∀ w ∈ words, IsWord w) (s : List Char) :
    (readWords (joinWords words ++ s)).1 ≠ [] ∧
      (readWords (joinWords words ++ s)).2.length ≤ s.length := by
  induction words with
  | nil => exact absurd rfl hne
  | cons w ws ih =>
    have hw : IsWord w := hwords w (by simp)
    rcases eq_or_ne ws [] with rfl | hws
    · -- the last word may be longer here than it was written, but not shorter
      have hstart : (w ++ s).takeWhile isWordChar ≠ [] := by
        simp [List.takeWhile_append_of_pos hw.2, hw.1]
      have hpast := readWords_past_word hstart
      rw [List.dropWhile_append_of_pos hw.2] at hpast
      have hle := (List.dropWhile_sublist isWordChar (l := s)).length_le
      simpa [joinWords] using ⟨hpast.1, hpast.2.trans hle⟩
    · obtain ⟨hread, hle⟩ := ih hws fun v hv => hwords v (by simp [hv])
      rw [joinWords_cons hws, List.append_assoc, List.cons_append, readWords_word_dot hw hread rfl]
      exact ⟨by simp, hle⟩

/-- **So is a row behind its mark.** -/
theorem length_readMarked_append_le (mark : Char) (hwords : ∀ w ∈ words, IsWord w)
    (s : List Char) : (readMarked mark (joinMarked mark words ++ s)).2.length ≤ s.length := by
  rcases eq_or_ne words [] with rfl | hne
  · exact length_readMarked_le mark s
  · obtain ⟨hread, hle⟩ := readWords_past_row hne hwords s
    rw [joinMarked_of_ne_nil hne, List.cons_append]
    cases hrow : readWords (joinWords words ++ s) with
    | mk found rest =>
      rw [hrow] at hread hle
      cases found with
      | nil => exact absurd rfl hread
      | cons w ws => simpa [readMarked, hrow] using hle

end Identifier

end Semver
