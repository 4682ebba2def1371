import Semver.Proofs.Bound.Spelling
import Semver.Proofs.ParseError.Dialect
import Semver.Proofs.Version.Grammar

/-!
# Where an error is shown

The message of an error says what went wrong and shows the text from the place where it did. For the
readers of versions and of bounds both can be told from the text alone, without a look at what the
readers do: they are what is wrong with the text in its dialect. In particular a number that is too
large is reported as soon as complete components lead up to it, however malformed the text is behind
it; and no other message names a number.

Both readers make their choices once and do not come back to them, so an error could in principle be
reported at a place that tells about the choices and not about the text. It is not. The choices are
greedy ones, and a version or a bound that starts a text, whichever it is, is read past its end: its
numbers may turn out longer than they were written, its last word may, and further words may follow,
but no mark of it is passed over or taken for something else. So what a reader leaves is what the
longest version or bound at the front of the text leaves.

* `Semver.Version.dialect` and `Semver.Bound.dialect`: the two notations.
* `Semver.Version.reads` and `Semver.Bound.reads`: the readers of their components.
* `Semver.Version.length_left_le` and `Semver.Bound.length_left_le`: nothing at the front of a text
  goes on behind what is read of the text.
* `Semver.Version.ofChars_eq_error_iff` and `Semver.Bound.ofChars_eq_error_iff`: the errors of the
  two readers.
* `Semver.ParseError.eq_overflow_iff` and `Semver.ParseError.eq_unexpected_iff`: an error is known
  from its cause and its place.
* `Semver.ParseError.parse_fails_iff`: the errors of both readers, with their messages.
-/

namespace Semver

open Text (Stops stops_nil stops_cons)
open Identifier (readMarked joinMarked)

variable {s rest run digits : List Char}

namespace Version

open Grammar (Lead Listed Pre)

variable {front pre build : List Char} {ids ids' : List Identifier} {v : Version}
  {major minor patch : Number}

/-! ### The dialect of versions -/

/-- **The notation of versions**: an equals sign, a `v` and blanks may stand in front, and there are
three numbers. -/
def dialect : Dialect where
  IsLead := Lead
  IsComponent run := ∃ n : Number, n.WrittenAs run
  required := 3
  IsComplete s := ∃ v, Grammar.Version s v

/-- A lead is skipped in front of a digit. -/
theorem skipLead_append_digit {lead : List Char} {c : Char} (h : Lead lead)
    (hc : c.isDigit = true) (s : List Char) : skipLead (lead ++ c :: s) = c :: s := by
  have hmark : ∀ mark : Char, mark.isDigit = false → Stops (· == mark) (c :: s) :=
    fun _ hmark => stops_cons.mpr (Text.beq_mark_eq_false hmark hc)
  exact skipLead_append h (hmark '=' (by decide)) (hmark 'v' (by decide))
    (stops_cons.mpr (Text.isVisible_of_isDigit hc).isBlank_eq_false)

theorem readDotted_eq_overflow_iff : readDotted s = .error (.overflow digits rest) ↔
    ∃ t, s = '.' :: t ∧ Number.read t = .error (.overflow digits rest) := by
  fun_cases readDotted s with
  | case1 t => simp
  | case2 s hdot =>
    constructor
    · intro h
      cases h
    · rintro ⟨t, rfl, -⟩
      exact absurd rfl (hdot t)

/-- **The readers of the numbers of a version** are those of its dialect. -/
theorem reads : dialect.Reads skipLead Number.read readDotted where
  exists_lead := exists_lead
  skip_append := by
    rintro lead run hlead hrun rest
    have hdigits : run ≠ [] ∧ ∀ c ∈ run, c.isDigit = true := by
      rcases hrun with ⟨n, hn⟩ | hlarge
      · exact ⟨hn.ne_nil, hn.isDigit⟩
      · exact ⟨hlarge.ne_nil, List.all_eq_true.mp hlarge.1⟩
    obtain ⟨c, more, rfl⟩ := List.exists_cons_of_ne_nil hdigits.1
    exact skipLead_append_digit hlead (hdigits.2 c (by simp)) _
  read_eq_overflow_iff := Number.read_eq_overflow_iff
  read_dot_iff := by
    intro s t
    have hdot : Stops Char.isDigit ('.' :: t) := stops_cons.mpr (by decide)
    simp only [Number.read_iff_writtenAs]
    constructor
    · rintro ⟨n, run, hrun, -, rfl⟩
      exact ⟨run, ⟨n, hrun⟩, rfl⟩
    · rintro ⟨run, ⟨n, hrun⟩, rfl⟩
      exact ⟨n, run, hrun, hdot, rfl⟩
  dotted_dot h := h
  eq_or_dot_of_dotted h := .inr (readDotted_eq_ok_iff.mp h)
  dotted_eq_overflow_iff := readDotted_eq_overflow_iff

/-! ### What is missing from a version -/

/-- Two numbers with their dots are passed on the way to the third. -/
theorem readNumbers_append {first second : List Char} (hfirst : major.WrittenAs first)
    (hsecond : minor.WrittenAs second) (t : List Char) :
    readNumbers (first ++ '.' :: (second ++ '.' :: t)) =
      (Number.read t).map fun found => ((major, minor, found.1), found.2) := by
  have hdot : ∀ t, Stops Char.isDigit ('.' :: t) := fun _ => stops_cons.mpr (by decide)
  have hmajor := Number.read_iff_writtenAs.mpr ⟨_, hfirst, hdot (second ++ '.' :: t), rfl⟩
  have hminor := Number.read_iff_writtenAs.mpr ⟨_, hsecond, hdot t, rfl⟩
  simp only [readNumbers, hmajor, readDotted, hminor, bind, Except.bind]
  cases Number.read t <;> rfl

/-- Where a number is found missing, the three of them are not at the front. -/
theorem not_hasRequired_of_missing (h : readNumbers (skipLead s) = .error .missing) :
    ¬dialect.HasRequired s := by
  rintro ⟨lead, components, rest, hlead, hlength, hcomponents, rfl⟩
  obtain ⟨first, second, third, rfl⟩ := List.length_eq_three.mp hlength
  obtain ⟨m, hm⟩ := hcomponents first (by simp)
  obtain ⟨n, hn⟩ := hcomponents second (by simp)
  obtain ⟨p, hp⟩ := hcomponents third (by simp)
  have hskip := reads.skip_append hlead (.inl ⟨m, hm⟩) ('.' :: (second ++ '.' :: (third ++ rest)))
  have htext : List.intercalate ['.'] [first, second, third] ++ rest =
      first ++ '.' :: (second ++ '.' :: (third ++ rest)) := by simp [List.intercalate_cons_cons]
  rw [htext, hskip, readNumbers_append hm hn] at h
  cases hthird : Number.read (third ++ rest) with
  | ok found => simp [hthird, Except.map] at h
  | error failure =>
    -- the third number starts with a digit, so it is not missing
    obtain rfl : failure = .missing := by simpa [hthird, Except.map] using h
    obtain ⟨c, more, rfl⟩ := List.exists_cons_of_ne_nil hp.ne_nil
    have hstop : c.isDigit = false := stops_cons.mp (Number.read_eq_missing_iff.mp hthird)
    rw [hp.isDigit c (by simp)] at hstop
    exact absurd hstop (by decide)

/-- A version at the front of a text brings its three numbers along. -/
theorem hasRequired_of_complete (rest : List Char) (h : dialect.IsComplete front) :
    dialect.HasRequired (front ++ rest) := by
  obtain ⟨v, h⟩ := h
  obtain @⟨lead, first, second, third, pre, build, _, hlead, hfirst, hsecond, hthird, -, -⟩ := h
  refine ⟨lead, [first, second, third], pre ++ (build ++ rest), hlead, rfl, ?_, ?_⟩
  · simp only [List.forall_mem_cons]
    exact ⟨⟨_, hfirst⟩, ⟨_, hsecond⟩, ⟨_, hthird⟩, by simp⟩
  · simp [List.intercalate_cons_cons]

/-! ### What a version leaves over -/

theorem length_readPre_le (s : List Char) : (readPre s).2.length ≤ s.length := by
  fun_cases readPre s with
  | case1 s => exact Identifier.length_readMarked_le '-' _
  | case2 s hhyphen => exact Identifier.length_readWords_le s

/-- A pre-release is read past its end, whatever follows it. -/
theorem length_readPre_append_le (h : Pre pre ids) (s : List Char) :
    (readPre (pre ++ s)).2.length ≤ s.length := by
  cases h with
  | marked hids =>
    obtain ⟨words, hwords, rfl, -⟩ := Grammar.listed_iff.mp hids
    rcases eq_or_ne words [] with rfl | hne
    · exact length_readPre_le s
    · have hread := Identifier.length_readMarked_append_le '-' hwords s
      rw [Identifier.joinMarked_of_ne_nil hne] at hread ⊢
      exact hread
  | @bare c more _ hletter hids =>
    obtain ⟨words, hne, hwords, htext, -⟩ := Grammar.identifiers_iff.mp hids
    have hhyphen : c ≠ '-' := by
      rintro rfl
      exact absurd hletter (by decide)
    have hread := (Identifier.readWords_past_row hne hwords s).2
    rw [← htext] at hread
    rw [List.cons_append, readPre.eq_2 _ (by simpa using hhyphen)]
    exact hread

/-- So is a pre-release with build metadata behind it. -/
theorem length_readPre_readMarked_append_le (hpre : Pre pre ids) (hbuild : Listed '+' build ids')
    (s : List Char) : (readMarked '+' (readPre (pre ++ (build ++ s))).2).2.length ≤ s.length := by
  obtain ⟨words, hwords, rfl, -⟩ := Grammar.listed_iff.mp hbuild
  rcases eq_or_ne words [] with rfl | hne
  · exact (Identifier.length_readMarked_le '+' _).trans (length_readPre_append_le hpre s)
  · have hplus : ∀ p : Char → Bool, p '+' = false → Stops p (joinMarked '+' words ++ s) :=
      fun p hp => Identifier.stops_joinMarked hp fun hnil => absurd hnil hne
    obtain ⟨found, hread, -⟩ := readPre_append hpre (hplus _ (by decide)) (hplus _ (by decide))
    rw [hread]
    exact Identifier.length_readMarked_append_le '+' hwords s

/-- **No version at the front of a text goes on behind what is read** of the text. -/
theorem length_left_le (h : Grammar.Version front v)
    (hread : readNumbers (skipLead (front ++ s)) = .ok ((major, minor, patch), rest)) :
    (readMarked '+' (readPre rest).2).2.length ≤ s.length := by
  obtain @⟨lead, first, second, third, pre, build, _, hlead, hfirst, hsecond, hthird, hpre,
    hbuild⟩ := h
  have hskip := reads.skip_append hlead (.inl ⟨_, hfirst⟩)
    ('.' :: (second ++ '.' :: (third ++ (pre ++ (build ++ s)))))
  simp only [List.append_assoc, List.cons_append] at hread
  rw [hskip, readNumbers_append hfirst hsecond] at hread
  cases hlast : Number.read (third ++ (pre ++ (build ++ s))) with
  | error failure => simp [hlast, Except.map] at hread
  | ok found =>
    obtain ⟨-, rfl⟩ : _ ∧ found.2 = rest := by simpa [hlast, Except.map] using hread
    have hrest := Number.eq_dropWhile_of_read hlast
    rw [List.dropWhile_append_of_pos hthird.isDigit] at hrest
    rw [hrest]
    rcases eq_or_ne (pre ++ build) [] with hnil | hne
    · -- the version ends in a number, which may be longer in this text
      obtain ⟨rfl, rfl⟩ := List.append_eq_nil_iff.mp hnil
      calc (readMarked '+' (readPre (s.dropWhile Char.isDigit)).2).2.length
          ≤ (readPre (s.dropWhile Char.isDigit)).2.length := Identifier.length_readMarked_le '+' _
        _ ≤ (s.dropWhile Char.isDigit).length := length_readPre_le _
        _ ≤ s.length := (List.dropWhile_sublist Char.isDigit).length_le
    · have hbuildStops : Stops Char.isDigit build := by
        simpa using hbuild.stops (by decide) (stops_nil Char.isDigit)
      have hstops := (hpre.stops_isDigit hbuildStops).append (t := s) fun hnil => absurd hnil hne
      rw [List.append_assoc] at hstops
      rw [Text.dropWhile_of_stops hstops]
      exact length_readPre_readMarked_append_le hpre hbuild s

/-! ### The errors of the reader of versions -/

/-- A version is read as a text of its dialect. -/
theorem ofChars_eq_readText (s : List Char) : ofChars s =
    Dialect.readText skipLead Number.read readDotted
      (fun rest => (readMarked '+' (readPre rest).2).2) (fun numbers rest =>
        ⟨numbers.1, numbers.2.1, numbers.2.2, (readPre rest).1.map .ofList,
          (readMarked '+' (readPre rest).2).1.map .ofList⟩) s := by
  have hthree : readNumbers (skipLead s) =
    Dialect.readThree Number.read readDotted (skipLead s) := rfl
  simp only [ofChars, Dialect.readText, hthree]
  cases Dialect.readThree Number.read readDotted (skipLead s) with
  | error failure => rfl
  | ok found => rfl

/-- **The errors of the reader of versions** are those of the notation. -/
theorem ofChars_eq_error_iff {e : ParseError} : ofChars s = .error e ↔ dialect.Fails s e := by
  rw [ofChars_eq_readText]
  refine reads.readText_eq_error_iff (fun _ => hasRequired_of_complete) not_hasRequired_of_missing
    (fun numbers rest h => ?_) ?_
  · obtain ⟨front, hfront, hs⟩ := exists_front h
    exact ⟨front, ⟨_, hfront⟩, hs⟩
  · rintro front rest' ⟨v, hv⟩ rfl numbers rest h
    exact length_left_le hv h

end Version

/-! ### Components of a bound

Of a bound only the first component is required, so most of what keeps a text from being one is left
over behind a shorter bound. In `1.x2` the component behind the dot is the wildcard, and the digit
is left; in `1..2` there is no second component at all, and the dots are left. The reader gives up
on a component without giving up on the text, but never on a number: one that is too large is an
error wherever a component is looked for. -/

namespace Component

variable {c : Component}

theorem Overflows.isText (h : Overflows run) : isText run = true :=
  isText_of_isDigit h.ne_nil (List.all_eq_true.mp h.1)

/-- Where no wildcard mark stands, a component is a number. -/
theorem read_eq_error_iff {failure : Number.Failure} : read s = .error failure ↔
    Stops isWildcardMark s ∧ Number.read s = .error failure := by
  fun_cases read s with
  | case1 => simp [Number.read]
  | case2 c s hmark => simp [hmark]
  | case3 c s hmark => cases Number.read (c :: s) <;> simp [Except.map, hmark]

/-- **The components that are too large** are numbers. -/
theorem read_eq_overflow_iff : read s = .error (.overflow digits rest) ↔
    Overflows digits ∧ Stops Char.isDigit rest ∧ s = digits ++ rest := by
  rw [read_eq_error_iff, Number.read_eq_overflow_iff, and_iff_right_iff_imp]
  rintro ⟨hlarge, -, rfl⟩
  rcases digits_or_mark_of_isText hlarge.isText with ⟨hne, hdigits⟩ | ⟨c, rfl, -, hdigit⟩
  · obtain ⟨c, more, rfl⟩ := List.exists_cons_of_ne_nil hne
    exact stops_cons.mpr (hdigits c (by simp)).2
  · exact absurd (List.all_eq_true.mp hlarge.1 c (by simp)) (by simp [hdigit])

/-- A component is not missing where one stands. -/
theorem read_append_ne_missing (hrun : isText run = true) (s : List Char) :
    read (run ++ s) ≠ .error .missing := by
  rw [ne_eq, read_eq_error_iff, Number.read_eq_missing_iff]
  rintro ⟨hmark, hdigit⟩
  obtain ⟨c, more, rfl⟩ := List.exists_cons_of_ne_nil (ne_nil_of_isText hrun)
  have hc := isTextChar_of_isText hrun c (by simp)
  rw [isTextChar, stops_cons.mp hmark, stops_cons.mp hdigit] at hc
  exact absurd hc (by decide)

/-- A component is read up to what stops it. -/
theorem eq_of_read_append (hrun : isText run = true) (hs : Stops isTextChar s)
    (h : read (run ++ s) = .ok (c, rest)) : rest = s := by
  rw [read_append hrun hs, outcome] at h
  cases hvalue : ofText? run with
  | none => simp [hvalue] at h
  | some c' =>
    rw [hvalue] at h
    exact (Prod.mk.inj (Except.ok.inj h)).2.symm

/-- A component in front of a dot is read up to the dot. -/
theorem read_dot_iff {t : List Char} : (∃ c, read s = .ok (c, '.' :: t)) ↔
    ∃ run, (∃ c : Component, c.WrittenAs (some run)) ∧ s = run ++ '.' :: t := by
  constructor
  · rintro ⟨c, h⟩
    obtain ⟨run, hrun, hvalue, rfl⟩ := exists_text_of_read h
    exact ⟨run, ⟨c, writtenAs_of_ofText? hrun hvalue⟩, rfl⟩
  · rintro ⟨run, ⟨c, hwritten⟩, rfl⟩
    obtain ⟨hrun, hvalue⟩ := hwritten.isText_and_ofText?
    have hdot : Stops isTextChar ('.' :: t) := stops_cons.mpr (by decide)
    exact ⟨c, by simp [read_append hrun hdot, outcome, hvalue]⟩

/-- Where a component is not missing behind a dot, it is read there. -/
theorem readDotted_dot {t : List Char} (h : read t ≠ .error .missing) :
    readDotted ('.' :: t) = read t := by
  rw [readDotted]
  split
  next hmissing => exact absurd hmissing h
  · rfl

theorem readDotted_eq_overflow_iff : readDotted s = .error (.overflow digits rest) ↔
    ∃ t, s = '.' :: t ∧ read t = .error (.overflow digits rest) := by
  fun_cases readDotted s with
  | case1 t hmissing => simp [hmissing]
  | case2 t hread => simp
  | case3 s hdot =>
    constructor
    · intro h
      cases h
    · rintro ⟨t, rfl, -⟩
      exact absurd rfl (hdot t)

theorem readDotted_ne_missing (s : List Char) : readDotted s ≠ .error .missing := by
  fun_cases readDotted s with
  | case1 t hmissing => simp
  | case2 t hread => exact hread
  | case3 s hdot => simp

/-- Behind a dot there is a component, or the text is left as it is. -/
theorem eq_or_dot_of_readDotted (h : readDotted s = .ok (c, rest)) :
    rest = s ∨ ∃ t, s = '.' :: t ∧ read t = .ok (c, rest) := by
  fun_cases readDotted s with
  | case1 t hmissing =>
    simp only [readDotted, hmissing, Except.ok.injEq, Prod.mk.injEq] at h
    exact .inl h.2.symm
  | case2 t hread => exact .inr ⟨t, rfl, (readDotted_dot hread).symm.trans h⟩
  | case3 s hdot =>
    rw [readDotted.eq_2 s hdot] at h
    exact .inl (Prod.mk.inj (Except.ok.inj h)).2.symm

end Component

namespace Bound

open Component (isText)

variable {x : Shape} {front : List Char} {components : Component × Component × Component}

/-! ### The dialect of bounds -/

/-- **The notation of bounds**: a `v` may stand in front, a component may be a wildcard mark, and
only the first one is required. -/
def dialect : Dialect where
  IsLead lead := lead = [] ∨ lead = ['v']
  IsComponent run := ∃ c : Component, c.WrittenAs (some run)
  required := 1
  IsComplete s := ∃ (b : Bound) (x : Shape), x.WellFormed ∧ b.WrittenAs x ∧ x.text = s

/-- The `v` is skipped in front of a component. -/
theorem skipMark_append_isText {lead : List Char} (hlead : lead = [] ∨ lead = ['v'])
    (hrun : isText run = true) (s : List Char) :
    Text.skipMark 'v' (lead ++ (run ++ s)) = run ++ s := by
  refine Text.skipMark_append hlead ?_
  obtain ⟨c, more, rfl⟩ := List.exists_cons_of_ne_nil (Component.ne_nil_of_isText hrun)
  have hc := Component.isTextChar_of_isText hrun c (by simp)
  exact stops_cons.mpr (Text.beq_mark_eq_false (by decide) hc)

/-- **The readers of the components of a bound** are those of its dialect. -/
theorem reads : dialect.Reads (Text.skipMark 'v') Component.read Component.readDotted where
  exists_lead s := by
    refine ⟨_, ?_, (Text.mark_append_skipMark 'v' s).symm⟩
    split
    · exact .inr rfl
    · exact .inl rfl
  skip_append := by
    rintro lead run hlead (⟨c, hc⟩ | hlarge) rest
    · exact skipMark_append_isText hlead hc.isText_and_ofText?.1 rest
    · exact skipMark_append_isText hlead hlarge.isText rest
  read_eq_overflow_iff := Component.read_eq_overflow_iff
  read_dot_iff := Component.read_dot_iff
  dotted_dot h := by simp [Component.readDotted, h]
  eq_or_dot_of_dotted := Component.eq_or_dot_of_readDotted
  dotted_eq_overflow_iff := Component.readDotted_eq_overflow_iff

/-! ### What is missing from a bound -/

/-- Where the first component is found missing, there is none at the front. -/
theorem not_hasRequired_of_missing
    (h : readComponents (Text.skipMark 'v' s) = .error .missing) : ¬dialect.HasRequired s := by
  rintro ⟨lead, components, rest, hlead, hlength, hcomponents, rfl⟩
  obtain ⟨first, rfl⟩ := List.length_eq_one_iff.mp hlength
  obtain ⟨c, hc⟩ := hcomponents first (by simp)
  have hfirst := hc.isText_and_ofText?.1
  rw [List.intercalate_singleton, skipMark_append_isText hlead hfirst] at h
  rcases Dialect.Reads.readThree_eq_error_iff.mp h with
    hmajor | ⟨_, r, -, hminor | ⟨_, r', -, hpatch⟩⟩
  · exact Component.read_append_ne_missing hfirst rest hmajor
  · exact Component.readDotted_ne_missing r hminor
  · exact Component.readDotted_ne_missing r' hpatch

/-- A bound at the front of a text brings its first component along. -/
theorem hasRequired_of_complete (rest : List Char) (h : dialect.IsComplete front) :
    dialect.HasRequired (front ++ rest) := by
  obtain ⟨b, x, -, hwritten, rfl⟩ := h
  refine ⟨if x.lead then ['v'] else [], [x.major], x.afterMajor ++ rest, ?_, rfl, ?_, ?_⟩
  · split
    · exact .inr rfl
    · exact .inl rfl
  · simpa using ⟨b.major, hwritten.major⟩
  · simp [Shape.text_eq, Shape.afterMajor, Shape.afterMinor, Shape.suffix]

/-! ### What a bound leaves over -/

/-- **A piece is read past**, where `s` follows it and `rest` is what the reader leaves: nothing is
left of the piece, and if neither a digit nor a dot follows, nothing but the piece is taken. -/
structure ReadsPast (s rest : List Char) : Prop where
  length_le : rest.length ≤ s.length
  eq_of_stops (hdigit : Stops Char.isDigit s) (hdot : Stops (· == '.') s) : rest = s

theorem readsPast_read {c : Component} (hrun : isText run = true)
    (h : Component.read (run ++ s) = .ok (c, rest)) : ReadsPast s rest := by
  rcases Component.digits_or_mark_of_isText hrun with ⟨hne, hdigits⟩ | ⟨mark, rfl, hmark, -⟩
  · -- the number may be longer here than it was written, but not shorter
    obtain ⟨c', more, rfl⟩ := List.exists_cons_of_ne_nil hne
    have hnumber : ∃ n, Number.read (c' :: more ++ s) = .ok (n, rest) := by
      simp only [List.cons_append, Component.read, (hdigits c' (by simp)).2] at h ⊢
      cases hread : Number.read (c' :: (more ++ s)) with
      | error failure => simp [hread, Except.map] at h
      | ok found =>
        obtain ⟨-, rfl⟩ : _ ∧ found.2 = rest := by simpa [hread, Except.map] using h
        exact ⟨found.1, rfl⟩
    obtain ⟨n, hread⟩ := hnumber
    have hrest := Number.eq_dropWhile_of_read hread
    rw [List.dropWhile_append_of_pos fun d hd => (hdigits d hd).1] at hrest
    subst hrest
    exact ⟨(List.dropWhile_sublist Char.isDigit).length_le,
      fun hdigit _ => Text.dropWhile_of_stops hdigit⟩
  · obtain ⟨-, rfl⟩ : _ ∧ s = rest := by simpa [Component.read, hmark] using h
    exact ⟨Nat.le_refl _, fun _ _ => rfl⟩

/-- What is read behind a dot, if anything, does not give up what was read before. -/
theorem ReadsPast.readDotted {c : Component} {rest' : List Char} (h : ReadsPast s rest)
    (hread : Component.readDotted rest = .ok (c, rest')) : ReadsPast s rest' := by
  rcases Component.eq_or_dot_of_readDotted hread with rfl | ⟨t, rfl, hcomponent⟩
  · exact h
  · obtain ⟨run, -, -, rfl⟩ := Component.exists_text_of_read hcomponent
    refine ⟨?_, fun hdigit hdot => ?_⟩
    · have hle := h.length_le
      simp only [List.length_cons, List.length_append] at hle
      omega
    · rw [← h.eq_of_stops hdigit hdot] at hdot
      exact absurd (stops_cons.mp hdot) (by decide)

/-- **The components of a bound are read past**, whatever follows them. -/
theorem readsPast_readComponents (hx : x.WellFormed)
    (h : readComponents (x.major ++ (x.minor.elim [] ('.' :: ·) ++
      (x.patch.elim [] ('.' :: ·) ++ s))) = .ok (components, rest)) : ReadsPast s rest := by
  have hstop : ∀ t, Stops Component.isTextChar ('.' :: t) := fun _ => stops_cons.mpr (by decide)
  obtain ⟨major, minor, patch⟩ := components
  obtain ⟨r, r', hmajor, hminor, hpatch⟩ := readComponents_eq_ok_iff.mp h
  -- a component with another one behind it ends at the dot, so only the last one can be longer
  cases hsecond : x.minor with
  | none =>
    rw [hsecond, hx.patch_eq_none hsecond] at hmajor
    exact ((readsPast_read hx.major hmajor).readDotted hminor).readDotted hpatch
  | some second =>
    have hsecondText := hx.minor second hsecond
    rw [hsecond, Option.elim_some, List.cons_append] at hmajor
    obtain rfl := Component.eq_of_read_append hx.major (hstop _) hmajor
    rw [Component.readDotted_dot (Component.read_append_ne_missing hsecondText _)] at hminor
    cases hthird : x.patch with
    | none =>
      rw [hthird] at hminor
      exact (readsPast_read hsecondText hminor).readDotted hpatch
    | some third =>
      have hthirdText := hx.patch third hthird
      rw [hthird, Option.elim_some, List.cons_append] at hminor
      obtain rfl := Component.eq_of_read_append hsecondText (hstop _) hminor
      rw [Component.readDotted_dot (Component.read_append_ne_missing hthirdText _)] at hpatch
      exact readsPast_read hthirdText hpatch

/-- The two rows of words of a shape are read past, whatever follows them. -/
theorem length_readMarked_suffix_le (hx : x.WellFormed) (s : List Char) :
    (readMarked '+' (readMarked '-' (x.suffix ++ s)).2).2.length ≤ s.length := by
  rw [Shape.suffix, List.append_assoc]
  rcases eq_or_ne x.build [] with hnil | hne
  · rw [hnil]
    exact (Identifier.length_readMarked_le '+' _).trans
      (Identifier.length_readMarked_append_le '-' hx.pre s)
  · have hplus : ∀ p : Char → Bool, p '+' = false → Stops p (joinMarked '+' x.build ++ s) :=
      fun p hp => Identifier.stops_joinMarked hp fun hnil => absurd hnil hne
    rw [Identifier.readMarked_joinMarked_append hx.pre (fun _ => hplus _ (by decide))
      fun _ => hplus _ (by decide)]
    exact Identifier.length_readMarked_append_le '+' hx.build s

/-- **No bound at the front of a text goes on behind what is read** of the text. -/
theorem length_left_le (hx : x.WellFormed)
    (hread : readComponents (Text.skipMark 'v' (x.text ++ s)) = .ok (components, rest)) :
    (readMarked '+' (readMarked '-' rest).2).2.length ≤ s.length := by
  rw [Shape.skipMark_text_append hx] at hread
  have hpast := readsPast_readComponents hx hread
  by_cases hnil : x.pre = [] ∧ x.build = []
  · -- the bound ends in a component, and what follows it may be read on
    have hsuffix : x.suffix = [] := by simp [Shape.suffix, hnil.1, hnil.2, joinMarked]
    have hle := hpast.length_le
    rw [hsuffix, List.nil_append] at hle
    calc (readMarked '+' (readMarked '-' rest).2).2.length
        ≤ (readMarked '-' rest).2.length := Identifier.length_readMarked_le '+' _
      _ ≤ rest.length := Identifier.length_readMarked_le '-' _
      _ ≤ s.length := hle
  · have hstops : ∀ p : Char → Bool, p '-' = false → p '+' = false → Stops p (x.suffix ++ s) :=
      fun p hpre hbuild => Shape.stops_suffix hpre hbuild fun hp hb => absurd ⟨hp, hb⟩ hnil
    rw [hpast.eq_of_stops (hstops _ (by decide) (by decide)) (hstops _ (by decide) (by decide))]
    exact length_readMarked_suffix_le hx s

/-! ### The errors of the reader of bounds -/

/-- A bound is read as a text of its dialect. -/
theorem ofChars_eq_readText (s : List Char) : ofChars s =
    Dialect.readText (Text.skipMark 'v') Component.read Component.readDotted
      (fun rest => (readMarked '+' (readMarked '-' rest).2).2) (fun found rest =>
        ⟨found.1, found.2.1, found.2.2, .identifiers ((readMarked '-' rest).1.map .ofList)⟩) s := by
  have hthree : readComponents (Text.skipMark 'v' s) =
    Dialect.readThree Component.read Component.readDotted (Text.skipMark 'v' s) := rfl
  simp only [ofChars, Dialect.readText, hthree]
  cases Dialect.readThree Component.read Component.readDotted (Text.skipMark 'v' s) with
  | error failure => rfl
  | ok found => rfl

/-- **The errors of the reader of bounds** are those of the notation. -/
theorem ofChars_eq_error_iff {e : ParseError} : ofChars s = .error e ↔ dialect.Fails s e := by
  rw [ofChars_eq_readText]
  refine reads.readText_eq_error_iff (fun _ => hasRequired_of_complete) not_hasRequired_of_missing
    (fun components rest h => ?_) ?_
  · obtain ⟨x, hx, hbound, hs⟩ := exists_shape_of_readComponents h
    exact ⟨x.text, ⟨_, x, hx, writtenAs_of_bound? hx hbound, rfl⟩, hs⟩
  · rintro front rest' ⟨b, x, hx, -, rfl⟩ rfl components rest h
    exact length_left_le hx h

end Bound

/-! ### Messages -/

namespace ParseError

variable {e : ParseError} {digits rest : List Char}

/-- The two causes start differently. -/
theorem cause_ne (digits : List Char) (suffix : String) :
    "Unexpected character." ≠ "Error parsing '" ++ String.ofList digits ++ suffix := by
  intro h
  have hchars := congrArg (fun text => text.toList.head?) h
  simp at hchars

/-- An error that blames a number is known from its cause and its place. -/
theorem eq_overflow_iff : e = .overflow digits rest ↔
    e.cause = "Error parsing '" ++ String.ofList digits ++
        "' to u64.\n\nnumber too large to fit in target type" ∧ e.place = rest := by
  cases e with
  | unexpected rest' => simp [cause, cause_ne]
  | overflow digits' rest' =>
    have hdigits : String.ofList digits' = String.ofList digits ↔ digits' = digits :=
      ⟨fun h => by simpa using congrArg String.toList h, congrArg String.ofList⟩
    simp [cause, place, hdigits]

/-- An error that blames a character is known from its cause and its place. -/
theorem eq_unexpected_iff : e = .unexpected rest ↔
    e.cause = "Unexpected character." ∧ e.place = rest := by
  cases e with
  | unexpected rest' => simp [cause, place]
  | overflow digits' rest' => simp [cause, (cause_ne digits' _).symm]

/-- **The errors of both readers are those of their dialects.** Between its blanks a text fails with
the number that is too large, if one is met behind a lead and complete components, and its place is
behind all its digits; if not, it fails as a whole where it lacks a required component, and else
with what the longest version or bound at its front leaves over. The cause and the place tell such
an error from any other, and the message shows the cause and sixty characters of the place. -/
theorem parse_fails_iff (text : String) (e : ParseError) :
    (Version.parse text = .error e ↔ Version.dialect.Fails (Text.trim text.toList) e) ∧
      (Bound.parse text = .error e ↔ Bound.dialect.Fails (Text.trim text.toList) e) ∧
      (∀ digits rest, e = .overflow digits rest ↔
        e.cause = "Error parsing '" ++ String.ofList digits ++
            "' to u64.\n\nnumber too large to fit in target type" ∧ e.place = rest) ∧
      (∀ rest, e = .unexpected rest ↔ e.cause = "Unexpected character." ∧ e.place = rest) ∧
      e.message = "Invalid npm version. " ++ e.cause ++ "\n  " ++
        String.ofList (e.place.take 60) ++ "\n  ~" :=
  ⟨Version.ofChars_eq_error_iff, Bound.ofChars_eq_error_iff, fun _ _ => eq_overflow_iff,
    fun _ => eq_unexpected_iff, rfl⟩

/-- A number that is too large in front of a malformed rest; a version that lacks its last number; a
pre-release behind which another identifier was begun; and a wildcard with a digit behind it. -/
theorem parse_fails_iff_places :
    Version.dialect.Fails "= v1.018446744073709551616.x-".toList
        (.overflow "018446744073709551616".toList ".x-".toList) ∧
      Version.dialect.Fails "v1.2.x".toList (.unexpected "v1.2.x".toList) ∧
      Version.dialect.Fails "1.2.3-a.-.+b".toList (.unexpected ".+b".toList) ∧
      Bound.dialect.Fails "1.x2".toList (.unexpected "2".toList) := by
  refine ⟨?_, ?_, ?_, ?_⟩
  · exact (parse_fails_iff "= v1.018446744073709551616.x-" _).1.mp (by cbv)
  · exact (parse_fails_iff "v1.2.x" _).1.mp (by cbv)
  · exact (parse_fails_iff "1.2.3-a.-.+b" _).1.mp (by cbv)
  · exact (parse_fails_iff "1.x2" _).2.1.mp (by cbv)

end ParseError

end Semver
