import Semver.Proofs.Bound.Spelling
import Semver.Proofs.Version.Denotation

/-!
# The grammar of versions

The notation of a version leaves a writer some freedom. As a grammar:

```text
version     ::= '='? blank* 'v'? blank* number '.' number '.' number pre build
number      ::= digit+
pre         ::= ( '-' identifiers )? | identifiers
build       ::= ( '+' identifiers )?
identifiers ::= word ( '.' word )*
```

Without its hyphen the pre-release has to start with a letter, since a digit would belong to the
number before it. With this the grammar is exact. The reader makes its choices from left to right
and never takes one back: it skips an equals sign where there is one, runs over all digits there
are, takes a hyphen for that of the pre-release, and goes on with words as long as they come. Where
the grammar derives a text, each of these choices is the one in the derivation; and where no word
follows a hyphen or a dot, what the reader leaves is nothing that the grammar could use either.

The relations carry what a phrase means, so the grammar also says which version a text denotes.

* `Semver.Grammar.Version`: a text is a version, with its numbers and its identifiers.
* `Semver.Version.readNumbers_iff_writtenAs`: the three numbers and what stops them.
* `Semver.Version.skipLead_append`: a lead is skipped as a whole.
* `Semver.Version.readPre_append`: a pre-release is read as a whole.
* `Semver.Version.parse_iff_grammar`: the reader accepts what the grammar derives, and reads it so.
-/

namespace Semver

open Text (Stops stops_nil stops_cons)
open Identifier (IsWord isRowChar joinWords joinMarked readWords readMarked)

variable {s rest run lead : List Char} {ids : List Identifier} {mark : Char}

/-! ### The relations -/

namespace Grammar

/-- **Identifiers**: one or more words with dots between them. -/
inductive Identifiers : List Char → List Identifier → Prop
  | last {w : List Char} (hword : IsWord w) : Identifiers w [.ofList w]
  | more {w s : List Char} {ids : List Identifier} (hword : IsWord w) (hmore : Identifiers s ids) :
      Identifiers (w ++ '.' :: s) (.ofList w :: ids)

/-- Identifiers behind a mark, or none and nothing. -/
inductive Listed (mark : Char) : List Char → List Identifier → Prop
  | absent : Listed mark [] []
  | present {s : List Char} {ids : List Identifier} (hids : Identifiers s ids) :
      Listed mark (mark :: s) ids

/-- **A pre-release**: identifiers behind a hyphen, or none, or identifiers without the hyphen that
start with a letter. -/
inductive Pre : List Char → PreRelease → Prop
  | marked {s : List Char} {ids : PreRelease} (hids : Listed '-' s ids) : Pre s ids
  | bare {c : Char} {s : List Char} {ids : PreRelease} (hletter : c.isAlpha = true)
      (hids : Identifiers (c :: s) ids) : Pre (c :: s) ids

/-- **What may precede the numbers**: an equals sign and a `v`, each of them optional, and blanks
behind either. -/
inductive Lead : List Char → Prop
  | mk {equals gap letter gap' : List Char} (hequals : equals = [] ∨ equals = ['='])
      (hgap : ∀ c ∈ gap, Text.isBlank c = true) (hletter : letter = [] ∨ letter = ['v'])
      (hgap' : ∀ c ∈ gap', Text.isBlank c = true) : Lead (equals ++ (gap ++ (letter ++ gap')))

/-- **A version**: a lead, three numbers between dots, a pre-release and build metadata. -/
inductive Version : List Char → Semver.Version → Prop
  | mk {lead major minor patch pre build : List Char} {v : Semver.Version} (hlead : Lead lead)
      (hmajor : v.major.WrittenAs major) (hminor : v.minor.WrittenAs minor)
      (hpatch : v.patch.WrittenAs patch) (hpre : Pre pre v.pre)
      (hbuild : Listed '+' build v.build) :
      Version (lead ++ (major ++ '.' :: (minor ++ '.' :: (patch ++ (pre ++ build))))) v

/-! ### Identifiers and rows of words -/

theorem identifiers_iff : Identifiers s ids ↔
    ∃ words, words ≠ [] ∧ (∀ w ∈ words, IsWord w) ∧ s = joinWords words ∧
      ids = words.map .ofList := by
  constructor
  · intro h
    induction h with
    | @last w hword => exact ⟨[w], by simp, by simpa using hword, by simp [joinWords], rfl⟩
    | @more w _ _ hword _ ih =>
      obtain ⟨words, hne, hwords, rfl, rfl⟩ := ih
      exact ⟨w :: words, by simp, List.forall_mem_cons.mpr ⟨hword, hwords⟩,
        (Identifier.joinWords_cons hne).symm, rfl⟩
  · rintro ⟨words, hne, hwords, rfl, rfl⟩
    induction words with
    | nil => exact absurd rfl hne
    | cons w words ih =>
      obtain ⟨hword, hwords⟩ := List.forall_mem_cons.mp hwords
      rcases eq_or_ne words [] with rfl | hne
      · simpa [joinWords] using Identifiers.last hword
      · rw [Identifier.joinWords_cons hne]
        exact .more hword (ih hne hwords)

/-- Identifiers start with a character of a word. -/
theorem Identifiers.exists_cons (h : Identifiers s ids) :
    ∃ c t, s = c :: t ∧ Identifier.isWordChar c = true := by
  cases h with
  | last hword =>
    obtain ⟨c, t, rfl⟩ := List.exists_cons_of_ne_nil hword.1
    exact ⟨c, t, rfl, hword.2 c (by simp)⟩
  | more hword hmore =>
    obtain ⟨c, t, rfl⟩ := List.exists_cons_of_ne_nil hword.1
    exact ⟨c, _, rfl, hword.2 c (by simp)⟩

theorem listed_iff : Listed mark s ids ↔ ∃ words, (∀ w ∈ words, IsWord w) ∧
    s = joinMarked mark words ∧ ids = words.map .ofList := by
  constructor
  · rintro (_ | hids)
    · exact ⟨[], by simp, rfl, rfl⟩
    · obtain ⟨words, hne, hwords, rfl, rfl⟩ := identifiers_iff.mp hids
      exact ⟨words, hwords, (Identifier.joinMarked_of_ne_nil hne).symm, rfl⟩
  · rintro ⟨words, hwords, rfl, rfl⟩
    rcases eq_or_ne words [] with rfl | hne
    · exact .absent
    · rw [Identifier.joinMarked_of_ne_nil hne]
      exact .present (identifiers_iff.mpr ⟨words, hne, hwords, rfl, rfl⟩)

/-- What is read behind a mark is listed there. -/
theorem listed_of_readMarked (mark : Char) (s : List Char) :
    Listed mark (joinMarked mark (readMarked mark s).1) ((readMarked mark s).1.map .ofList) :=
  listed_iff.mpr ⟨_, Identifier.isWord_of_mem_readMarked mark s, rfl, rfl⟩

/-- A list behind a mark is read again where nothing lengthens it. -/
theorem Listed.readMarked_append (h : Listed mark s ids) (hmark : Stops (· == mark) rest)
    (hrest : Stops isRowChar rest) :
    ∃ words, readMarked mark (s ++ rest) = (words, rest) ∧ words.map .ofList = ids := by
  obtain ⟨words, hwords, rfl, rfl⟩ := listed_iff.mp h
  exact ⟨words, Identifier.readMarked_joinMarked_append hwords (fun _ => hmark) fun _ => hrest, rfl⟩

/-- A list behind a mark keeps away what the mark does not belong to. -/
theorem Listed.stops {p : Char → Bool} (h : Listed mark s ids) (hmark : p mark = false)
    (hrest : Stops p rest) : Stops p (s ++ rest) := by
  cases h with
  | absent => exact hrest
  | present hids => exact stops_cons.mpr hmark

/-- A pre-release does not start with a digit. -/
theorem Pre.stops_isDigit {pre : List Char} (h : Pre pre ids) (hrest : Stops Char.isDigit rest) :
    Stops Char.isDigit (pre ++ rest) := by
  cases h with
  | marked hids => exact hids.stops (by decide) hrest
  | bare hletter hids => exact stops_cons.mpr (Text.isDigit_eq_false_of_isAlpha hletter)

end Grammar

/-! ### Numbers -/

namespace Number

variable {n : Number}

/-- **The numbers that are read** are those written at the front, with no further digit behind. -/
theorem read_iff_writtenAs : read s = .ok (n, rest) ↔
    ∃ run, n.WrittenAs run ∧ Stops Char.isDigit rest ∧ s = run ++ rest := by
  constructor
  · intro h
    obtain ⟨run, hne, hrun, hvalue, rfl⟩ := exists_digits_of_read h
    refine ⟨run, ⟨hne, hrun, ofDigits?_eq_some_iff.mp hvalue⟩, ?_, rfl⟩
    simp only [read] at h
    split at h
    · cases h
    · split at h
      · obtain ⟨-, hrest⟩ := Prod.mk.inj (Except.ok.inj h)
        rw [← hrest]
        exact Text.stops_dropWhile _ _
      · cases h
  · rintro ⟨run, hrun, hrest, rfl⟩
    rw [read_append hrun.ne_nil hrun.isDigit hrest, ofDigits?_eq_some_iff.mpr hrun.value]
    rfl

/-- A number keeps away every class that no digit belongs to. -/
theorem WrittenAs.stops {p : Char → Bool} (h : n.WrittenAs run)
    (hp : ∀ c, c.isDigit = true → p c = false) (s : List Char) : Stops p (run ++ s) := by
  obtain ⟨c, run, rfl⟩ := List.exists_cons_of_ne_nil h.ne_nil
  exact stops_cons.mpr (hp c (h.isDigit c (by simp)))

end Number

namespace Version

open Grammar (Lead Listed Pre)

variable {v : Version} {major minor patch : Number}

theorem readDotted_eq_ok_iff {n : Number} : readDotted s = .ok (n, rest) ↔
    ∃ t, s = '.' :: t ∧ Number.read t = .ok (n, rest) := by
  fun_cases readDotted s with
  | case1 t => simp
  | case2 s hdot =>
    constructor
    · intro h
      cases h
    · rintro ⟨t, rfl, -⟩
      exact absurd rfl (hdot t)

/-- **The three numbers of a version**, with dots between them and no digit behind. -/
theorem readNumbers_iff_writtenAs : readNumbers s = .ok ((major, minor, patch), rest) ↔
    ∃ first second third, major.WrittenAs first ∧ minor.WrittenAs second ∧ patch.WrittenAs third ∧
      Stops Char.isDigit rest ∧ s = first ++ '.' :: (second ++ '.' :: (third ++ rest)) := by
  have hdot : ∀ s, Stops Char.isDigit ('.' :: s) := fun _ => stops_cons.mpr (by decide)
  simp only [readNumbers_eq_ok_iff, readDotted_eq_ok_iff, Number.read_iff_writtenAs]
  constructor
  · rintro ⟨_, _, ⟨first, hfirst, -, rfl⟩, ⟨_, rfl, second, hsecond, -, rfl⟩,
      ⟨_, rfl, third, hthird, hrest, rfl⟩⟩
    exact ⟨first, second, third, hfirst, hsecond, hthird, hrest, rfl⟩
  · rintro ⟨first, second, third, hfirst, hsecond, hthird, hrest, rfl⟩
    exact ⟨_, _, ⟨first, hfirst, hdot _, rfl⟩, ⟨_, rfl, second, hsecond, hdot _, rfl⟩,
      ⟨_, rfl, third, hthird, hrest, rfl⟩⟩

/-! ### What precedes the numbers -/

/-- Whatever is skipped before the numbers is a lead. -/
theorem exists_lead (s : List Char) : ∃ lead, Lead lead ∧ s = lead ++ skipLead s := by
  have hmark : ∀ (mark : Char) (s : List Char),
      ∃ front, (front = [] ∨ front = [mark]) ∧ front ++ Text.skipMark mark s = s := by
    intro mark s
    refine ⟨_, ?_, Text.mark_append_skipMark mark s⟩
    split
    · exact Or.inr rfl
    · exact Or.inl rfl
  have hgap : ∀ s : List Char, ∀ c ∈ s.takeWhile Text.isBlank, Text.isBlank c = true :=
    fun _ _ hc => List.mem_takeWhile_imp hc
  obtain ⟨equals, hequals, hs⟩ := hmark '=' s
  obtain ⟨letter, hletter, hs'⟩ := hmark 'v' (Text.skipBlanks (Text.skipMark '=' s))
  refine ⟨_, .mk hequals (hgap (Text.skipMark '=' s)) hletter
    (hgap (Text.skipMark 'v' (Text.skipBlanks (Text.skipMark '=' s)))), ?_⟩
  simp only [List.append_assoc, skipLead, Text.takeWhile_append_skipBlanks, hs', hs]

/-- **A lead is skipped as a whole** in front of a text that does not start with a part of one. -/
theorem skipLead_append (h : Lead lead) (hequals : Stops (· == '=') s)
    (hletter : Stops (· == 'v') s) (hblank : Stops Text.isBlank s) : skipLead (lead ++ s) = s := by
  cases h with | @mk equals gap letter gap' hfirst hgap hsecond hgap' => ?_
  have hapart : ∀ c, Text.isBlank c = true → (c == '=') = false :=
    fun _ => Text.beq_mark_eq_false (by decide)
  have hrest : Stops (· == '=') (letter ++ (gap' ++ s)) := by
    rcases hsecond with rfl | rfl
    · rw [List.nil_append]
      exact Text.stops_gap_append hapart hgap' fun _ => hequals
    · exact stops_cons.mpr (by decide)
  have hstart : Stops (· == '=') (gap ++ (letter ++ (gap' ++ s))) :=
    Text.stops_gap_append hapart hgap fun _ => hrest
  simp only [List.append_assoc, skipLead, Text.skipMark_append hfirst hstart,
    Text.skipBlanks_gap_append hgap]
  -- without the letter the second gap is skipped together with the first one
  rcases hsecond with rfl | rfl
  · rw [List.nil_append, Text.skipBlanks_gap hgap' hblank, Text.skipMark_of_stops hletter,
      Text.skipBlanks_of_stops hblank]
  · rw [List.singleton_append, Text.skipBlanks_of_stops (stops_cons.mpr (by decide)),
      Text.skipMark_cons_self, Text.skipBlanks_gap hgap' hblank]

/-! ### What follows the numbers -/

/-- Whatever is read as a pre-release is one, if no digit stands there. -/
theorem exists_pre (hs : Stops Char.isDigit s) :
    ∃ pre, Pre pre ((readPre s).1.map .ofList) ∧ s = pre ++ (readPre s).2 := by
  fun_cases readPre s with
  | case1 s =>
    exact ⟨_, .marked (Grammar.listed_of_readMarked '-' _),
      (Identifier.joinMarked_append_readMarked '-' _).symm⟩
  | case2 s hhyphen =>
    have htext := Identifier.joinWords_append_readWords s
    rcases eq_or_ne (readWords s).1 [] with hnil | hne
    · refine ⟨[], ?_, ?_⟩
      · rw [hnil]
        exact .marked .absent
      · rw [hnil] at htext
        exact htext.symm
    · have hids : Grammar.Identifiers (joinWords (readWords s).1) ((readWords s).1.map .ofList) :=
        Grammar.identifiers_iff.mpr ⟨_, hne, Identifier.isWord_of_mem_readWords s, rfl, rfl⟩
      -- the first character is neither a hyphen nor a digit, so it is a letter
      obtain ⟨c, more, hfirst, hc⟩ := hids.exists_cons
      rw [hfirst] at hids htext
      rw [← htext] at hs hhyphen
      have hdigit : c.isDigit = false := stops_cons.mp hs
      have hne : c ≠ '-' := fun h => hhyphen _ (by rw [h]; rfl)
      have hletter : c.isAlpha = true := by
        simpa [Identifier.isWordChar, Char.isAlphanum, hdigit, hne] using hc
      exact ⟨c :: more, .bare hletter hids, htext.symm⟩

/-- **A pre-release is read as a whole** where nothing lengthens it. -/
theorem readPre_append {pre : List Char} (h : Pre pre ids) (hmark : Stops (· == '-') rest)
    (hrest : Stops isRowChar rest) :
    ∃ words, readPre (pre ++ rest) = (words, rest) ∧ words.map .ofList = ids := by
  cases h with
  | marked hids =>
    have hletter : Stops Char.isAlphanum (pre ++ rest) :=
      hids.stops (by decide) (hrest.mono fun c hc => by simp [isRowChar, Identifier.isWordChar, hc])
    rw [readPre_of_stops hletter]
    exact hids.readMarked_append hmark hrest
  | @bare c more _ hletter hids =>
    obtain ⟨words, hne, hwords, htext, rfl⟩ := Grammar.identifiers_iff.mp hids
    have hhyphen : c ≠ '-' := by
      rintro rfl
      exact absurd hletter (by decide)
    have hread := Identifier.readWords_joinWords_append hne hwords hrest
    rw [← htext] at hread
    refine ⟨words, ?_, rfl⟩
    rw [List.cons_append, readPre.eq_2 _ (by simpa using hhyphen)]
    exact hread

/-! ### Versions -/

/-- What is read up to the first character that is left has a derivation. -/
theorem exists_front (h : readNumbers (skipLead s) = .ok ((major, minor, patch), rest)) :
    ∃ front, Grammar.Version front ⟨major, minor, patch, (readPre rest).1.map .ofList,
        (readMarked '+' (readPre rest).2).1.map .ofList⟩ ∧
      s = front ++ (readMarked '+' (readPre rest).2).2 := by
  obtain ⟨lead, hlead, hs⟩ := exists_lead s
  obtain ⟨first, second, third, hfirst, hsecond, hthird, hdigit, htext⟩ :=
    readNumbers_iff_writtenAs.mp h
  obtain ⟨pre, hpre, hrest⟩ := exists_pre hdigit
  have hbuild := Identifier.joinMarked_append_readMarked '+' (readPre rest).2
  refine ⟨_, .mk hlead hfirst hsecond hthird hpre (Grammar.listed_of_readMarked '+' _), ?_⟩
  simp only [List.append_assoc, List.cons_append, hbuild, ← hrest, ← htext, ← hs]

/-- What is read as a version has a derivation. -/
theorem grammar_of_ofChars (h : ofChars s = .ok v) : Grammar.Version s v := by
  simp only [ofChars] at h
  split at h
  · cases h
  next major minor patch rest hread =>
    split at h
    next hend =>
      obtain ⟨front, hderived, hs⟩ := exists_front hread
      rw [List.isEmpty_iff.mp hend, List.append_nil] at hs
      obtain rfl := Except.ok.inj h
      rwa [hs]
    · cases h

/-- What has a derivation is read as the version that it derives. -/
theorem ofChars_of_grammar (h : Grammar.Version s v) : ofChars s = .ok v := by
  obtain @⟨lead, first, second, third, pre, build, _, hlead, hfirst, hsecond, hthird, hpre,
    hbuild⟩ := h
  have hmark : ∀ mark : Char, mark.isDigit = false → ∀ s, Stops (· == mark) (first ++ s) :=
    fun _ hmark => hfirst.stops fun _ => Text.beq_mark_eq_false hmark
  have hblank : ∀ s, Stops Text.isBlank (first ++ s) :=
    hfirst.stops fun _ hc => (Text.isVisible_of_isDigit hc).isBlank_eq_false
  have hstops : ∀ p : Char → Bool, p '+' = false → Stops p build :=
    fun p hp => by simpa using hbuild.stops hp (stops_nil p)
  have hdigit : Stops Char.isDigit (pre ++ build) := hpre.stops_isDigit (hstops _ (by decide))
  obtain ⟨words, hwords, hids⟩ := readPre_append hpre (hstops _ (by decide)) (hstops _ (by decide))
  obtain ⟨more, hmore, hlist⟩ := hbuild.readMarked_append (stops_nil _) (stops_nil _)
  rw [List.append_nil] at hmore
  rw [ofChars, skipLead_append hlead (hmark '=' (by decide) _) (hmark 'v' (by decide) _) (hblank _),
    readNumbers_iff_writtenAs.mpr ⟨_, _, _, hfirst, hsecond, hthird, hdigit, rfl⟩]
  simp [hwords, hmore, hids, hlist]

/-- **The reader of versions accepts exactly what the grammar derives**, and reads the numbers and
the identifiers of the derivation. -/
theorem parse_iff_grammar (text : String) (v : Version) :
    parse text = .ok v ↔ Grammar.Version (Text.trim text.toList) v :=
  ⟨grammar_of_ofChars, ofChars_of_grammar⟩

end Version

end Semver
