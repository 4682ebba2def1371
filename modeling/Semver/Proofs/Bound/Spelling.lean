import Mathlib
import Semver.Proofs.Comparator.Denotation
import Semver.Proofs.Traversal

/-!
# The texts that denote a bound

The reader of a bound and the scan of a shape are two separate accounts of one notation: the scan
looks for a shape in a longer text, and the reader wants all of a text to be a bound. The scan takes
a component for the longest run of digits and wildcard marks, and asks afterwards whether that run
is one; it asks for no value. The reader takes a single mark or else digits, and gives up on a value
that needs more than 64 bits. In front of `1x`, `xx` or `1.x2` they stop at different places.

On a text as a whole they agree nevertheless. Whatever text is read as a bound is the text of a
well-formed shape, and of one that denotes this bound; with that, the texts that denote a bound are
known piece by piece, and anything that is built from such a text can be scanned. In terms of
tokens, what the reader takes in is a token that has no operator and that uses up the text, with
numbers that fit. The pieces of the token then say what the bound is.

* `Semver.Bound.ofChars_eq_ok_iff`: the texts that denote a bound.
* `Semver.Component.WrittenAs`: the texts of a component, which may be left out.
* `Semver.Bound.WrittenAs`: the pieces in which a bound is written.
* `Semver.Bound.Shape.eq_of_text_eq`: a text has its pieces in one way only.
* `Semver.Bound.ofChars_iff_bare`: the characters that both take for a bound.
* `Semver.Bound.parse_iff_bare`: the same for a text, with the pieces of the bound.
-/

namespace Semver

variable {s rest run : List Char}

/-! ### The shape of a text that is read -/

/-- The digits from which a number is read. -/
theorem Number.exists_digits_of_read {n : Number} (h : read s = .ok (n, rest)) :
    ∃ run, run ≠ [] ∧ (∀ c ∈ run, c.isDigit = true) ∧ ofDigits? run = some n ∧
      s = run ++ rest := by
  simp only [read] at h
  split at h
  · cases h
  next hne =>
    split at h
    next n' hdigits =>
      obtain ⟨rfl, rfl⟩ := Prod.mk.inj (Except.ok.inj h)
      exact ⟨_, fun hnil => hne (by rw [hnil]; rfl), fun _ hc => List.mem_takeWhile_imp hc, hdigits,
        List.takeWhile_append_dropWhile.symm⟩
    · cases h

namespace Component

variable {c : Component}

/-- The text from which a component is read. -/
theorem exists_text_of_read (h : read s = .ok (c, rest)) :
    ∃ run, isText run = true ∧ ofText? run = some c ∧ s = run ++ rest := by
  fun_cases read s with
  | case1 => simp [read] at h
  | case2 ch s hmark =>
    simp only [read, if_pos hmark, Except.ok.injEq, Prod.mk.injEq] at h
    obtain ⟨rfl, rfl⟩ := h
    have hdigit : ch.isDigit = false := by
      simp only [isWildcardMark, Bool.or_eq_true, beq_iff_eq] at hmark
      rcases hmark with (rfl | rfl) | rfl <;> decide
    exact ⟨[ch], by simp [isText, hmark], by simp [ofText?, hdigit], rfl⟩
  | case3 ch s hmark =>
    simp only [read, if_neg hmark] at h
    cases hread : Number.read (ch :: s) with
    | error e => simp [hread, Except.map] at h
    | ok found =>
      obtain ⟨run, hne, hrun, hvalue, hs⟩ := Number.exists_digits_of_read hread
      simp only [hread, Except.map, Except.ok.injEq, Prod.mk.injEq] at h
      obtain ⟨rfl, rfl⟩ := h
      have hall : run.all Char.isDigit = true := List.all_eq_true.mpr hrun
      exact ⟨run, isText_of_isDigit hne hrun, by simp [ofText?, hall, hvalue], hs⟩

/-- The text from which a component after a dot is read, if there is one. -/
theorem exists_text_of_readDotted (h : readDotted s = .ok (c, rest)) :
    ∃ run? : Option (List Char), (∀ run ∈ run?, isText run = true) ∧
      run?.elim (some .wildcard) ofText? = some c ∧ s = run?.elim [] ('.' :: ·) ++ rest := by
  fun_cases readDotted s with
  | case1 s hread =>
    simp only [readDotted, hread, Except.ok.injEq, Prod.mk.injEq] at h
    obtain ⟨rfl, rfl⟩ := h
    exact ⟨none, by simp, rfl, rfl⟩
  | case2 s hread =>
    have hread' : read s = .ok (c, rest) := by
      rw [← h, readDotted]
      split
      next hmissing => exact absurd hmissing hread
      · rfl
    obtain ⟨run, hrun, hvalue, rfl⟩ := exists_text_of_read hread'
    exact ⟨some run, by simpa using hrun, hvalue, rfl⟩
  | case3 s hdot =>
    rw [readDotted.eq_2 s hdot] at h
    obtain ⟨rfl, rfl⟩ := Prod.mk.inj (Except.ok.inj h)
    exact ⟨none, by simp, rfl, rfl⟩

end Component

namespace Bound

variable {b : Bound} {major minor patch : Component}

theorem readComponents_eq_ok_iff :
    readComponents s = .ok ((major, minor, patch), rest) ↔
      ∃ r r', Component.read s = .ok (major, r) ∧ Component.readDotted r = .ok (minor, r') ∧
        Component.readDotted r' = .ok (patch, rest) := by
  simp only [readComponents, Traversal.bind_eq_ok_iff, Prod.exists, pure, Except.pure,
    Except.ok.injEq, Prod.mk.injEq]
  constructor
  · rintro ⟨_, r, hmajor, _, r', hminor, _, _, hpatch, ⟨rfl, rfl, rfl⟩, rfl⟩
    exact ⟨r, r', hmajor, hminor, hpatch⟩
  · rintro ⟨r, r', hmajor, hminor, hpatch⟩
    exact ⟨major, r, hmajor, minor, r', hminor, patch, rest, hpatch, ⟨rfl, rfl, rfl⟩, rfl⟩

/-- The pieces from which the components of a bound are read. -/
theorem exists_pieces_of_readComponents
    (h : readComponents s = .ok ((major, minor, patch), rest)) :
    ∃ (first : List Char) (second third : Option (List Char)),
      Component.isText first = true ∧ (∀ run ∈ second, Component.isText run = true) ∧
      (∀ run ∈ third, Component.isText run = true) ∧ (second = none → third = none) ∧
      Component.ofText? first = some major ∧
      second.elim (some .wildcard) Component.ofText? = some minor ∧
      third.elim (some .wildcard) Component.ofText? = some patch ∧
      s = first ++ (second.elim [] ('.' :: ·) ++ (third.elim [] ('.' :: ·) ++ rest)) := by
  obtain ⟨r, r', hmajor, hminor, hpatch⟩ := readComponents_eq_ok_iff.mp h
  obtain ⟨first, hfirst, hmajorText, rfl⟩ := Component.exists_text_of_read hmajor
  obtain ⟨second, hsecond, hminorText, rfl⟩ := Component.exists_text_of_readDotted hminor
  obtain ⟨third, hthird, hpatchText, rfl⟩ := Component.exists_text_of_readDotted hpatch
  refine ⟨first, second, third, hfirst, hsecond, hthird, ?_, hmajorText, hminorText, hpatchText,
    rfl⟩
  rintro rfl
  -- the third component is looked for where the second one was not found, so it is not found either
  cases third with
  | none => rfl
  | some run =>
    have hsame := (Prod.mk.inj (Except.ok.inj (hminor.symm.trans hpatch))).2
    have hlength := congrArg List.length hsame
    simp at hlength
    omega

/-- What is read up to the first character that is left is the text of a shape. -/
theorem exists_shape_of_readComponents
    (h : readComponents (Text.skipMark 'v' s) = .ok ((major, minor, patch), rest)) :
    ∃ x : Shape, x.WellFormed ∧
      x.bound? = some ⟨major, minor, patch,
        .identifiers ((Identifier.readMarked '-' rest).1.map .ofList)⟩ ∧
      s = x.text ++ (Identifier.readMarked '+' (Identifier.readMarked '-' rest).2).2 := by
  obtain ⟨first, second, third, hfirst, hsecond, hthird, hnone, hmajor, hminor, hpatch, hs⟩ :=
    exists_pieces_of_readComponents h
  refine ⟨⟨s.head? == some 'v', first, second, third, (Identifier.readMarked '-' rest).1,
    (Identifier.readMarked '+' (Identifier.readMarked '-' rest).2).1⟩,
    ⟨hfirst, hsecond, hthird, hnone, Identifier.isWord_of_mem_readMarked _ _,
      Identifier.isWord_of_mem_readMarked _ _⟩, by simp [Shape.bound?, hmajor, hminor, hpatch], ?_⟩
  simp only [Shape.text_eq, List.append_assoc, Identifier.joinMarked_append_readMarked, ← hs,
    Text.mark_append_skipMark]

/-- **A text that is read as a bound is the text of a shape** that denotes the bound. -/
theorem exists_shape_of_ofChars (h : ofChars s = .ok b) :
    ∃ x : Shape, x.WellFormed ∧ x.text = s ∧ x.bound? = some b := by
  simp only [ofChars] at h
  split at h
  · cases h
  next major minor patch rest hread =>
    split at h
    next hend =>
      obtain ⟨x, hx, hbound, hs⟩ := exists_shape_of_readComponents hread
      rw [List.isEmpty_iff.mp hend, List.append_nil] at hs
      cases h
      exact ⟨x, hx, hs.symm, hbound⟩
    · cases h

/-- **The texts that denote a bound** are those of the shapes that do. -/
theorem ofChars_eq_ok_iff : ofChars s = .ok b ↔
    ∃ x : Shape, x.WellFormed ∧ x.text = s ∧ x.bound? = some b := by
  refine ⟨exists_shape_of_ofChars, ?_⟩
  rintro ⟨x, hx, rfl, hb⟩
  rcases Shape.ofChars_text hx with ⟨b', hb', hok⟩ | ⟨digits, rest, hfirst, -⟩
  · rw [hok, Option.some.inj (hb'.symm.trans hb)]
  · rw [hfirst.bound?_eq_none] at hb
    cases hb

end Bound

/-! ### The pieces of a bound -/

/-- **How a component may be written**: a wildcard as one of its marks, or not at all, and a number
in digits. -/
inductive Component.WrittenAs : Component → Option (List Char) → Prop
  | absent : WrittenAs .wildcard none
  | mark {c : Char} (hc : c = 'x' ∨ c = 'X' ∨ c = '*') : WrittenAs .wildcard (some [c])
  | digits {n : Number} {run : List Char} (h : n.WrittenAs run) : WrittenAs (.number n) (some run)

/-- Digits are those of one number. -/
theorem Number.WrittenAs.unique {m n : Number} (hm : m.WrittenAs run) (hn : n.WrittenAs run) :
    m = n :=
  UInt64.toNat_inj.mp (hm.value.symm.trans hn.value)

/-- A wildcard mark is no digit. -/
theorem Number.not_writtenAs_mark {n : Number} {c : Char} (hc : c = 'x' ∨ c = 'X' ∨ c = '*') :
    ¬n.WrittenAs [c] := by
  intro h
  have hdigit := h.isDigit c (by simp)
  rcases hc with rfl | rfl | rfl <;> exact absurd hdigit (by decide)

namespace Component

variable {c : Component} {run? : Option (List Char)}

/-- **A text is that of one component**, and so is a missing one. -/
theorem WrittenAs.unique {c' : Component} (h : c.WrittenAs run?) (h' : c'.WrittenAs run?) :
    c = c' := by
  cases h with
  | absent =>
    cases h'
    rfl
  | mark hc =>
    cases h' with
    | mark => rfl
    | digits hn => exact absurd hn (Number.not_writtenAs_mark hc)
  | digits hm =>
    cases h' with
    | mark hc => exact absurd hm (Number.not_writtenAs_mark hc)
    | digits hn => rw [hm.unique hn]

/-- The component that a text denotes is written as that text. -/
theorem writtenAs_of_ofText? (hrun : isText run = true) (h : ofText? run = some c) :
    c.WrittenAs (some run) := by
  rcases digits_or_mark_of_isText hrun with ⟨hne, hdigits⟩ | ⟨mark, rfl, hmark, hdigit⟩
  · have hall : run.all Char.isDigit = true := List.all_eq_true.mpr fun c hc => (hdigits c hc).1
    rw [ofText?, if_pos hall] at h
    obtain ⟨n, hn, rfl⟩ := Option.map_eq_some_iff.mp h
    exact .digits ⟨hne, fun c hc => (hdigits c hc).1, Number.ofDigits?_eq_some_iff.mp hn⟩
  · obtain rfl : wildcard = c := by simpa [ofText?, hdigit] using h
    exact .mark (by simpa [isWildcardMark, or_assoc] using hmark)

/-- A text that a component is written as is the text of a component, and denotes that one. -/
theorem WrittenAs.isText_and_ofText? (h : c.WrittenAs (some run)) :
    isText run = true ∧ ofText? run = some c := by
  cases h with
  | mark hc => rcases hc with rfl | rfl | rfl <;> exact ⟨rfl, rfl⟩
  | @digits n _ hn =>
    have hall : run.all Char.isDigit = true := List.all_eq_true.mpr hn.isDigit
    have hvalue : Number.ofDigits? run = some n := Number.ofDigits?_eq_some_iff.mpr hn.value
    exact ⟨isText_of_isDigit hn.ne_nil hn.isDigit, by simp [ofText?, hall, hvalue]⟩

theorem writtenAs_of_elim (hrun : ∀ run ∈ run?, isText run = true)
    (h : run?.elim (some .wildcard) ofText? = some c) : c.WrittenAs run? := by
  cases run? with
  | none =>
    obtain rfl : wildcard = c := Option.some.inj h
    exact .absent
  | some run => exact writtenAs_of_ofText? (hrun run rfl) h

end Component

/-- **The pieces in which a bound is written**: its components, its pre-release as the row of words
behind the hyphen, and any build metadata, of which it keeps nothing. -/
structure Bound.WrittenAs (b : Bound) (x : Bound.Shape) : Prop where
  major : b.major.WrittenAs (some x.major)
  minor : b.minor.WrittenAs x.minor
  patch : b.patch.WrittenAs x.patch
  pre : b.pre = .identifiers (x.pre.map .ofList)

namespace Bound

variable {x y : Shape} {b : Bound}

/-- The bound that a shape denotes is written in the pieces of the shape. -/
theorem writtenAs_of_bound? (hx : x.WellFormed) (h : x.bound? = some b) : b.WrittenAs x := by
  obtain ⟨hmajor, hminor, hpatch, hpre⟩ := Shape.bound?_eq_some_iff.mp h
  exact ⟨Component.writtenAs_of_ofText? hx.major hmajor,
    Component.writtenAs_of_elim hx.minor hminor,
    Component.writtenAs_of_elim hx.patch hpatch, hpre.symm⟩

/-- A shape denotes a bound if none of its components is too large. -/
theorem Shape.exists_bound?_iff :
    (∃ b, x.bound? = some b) ↔ ∀ run ∈ x.components, ¬Component.Overflows run := by
  simp only [← Option.ne_none_iff_exists', ne_eq, bound?_eq_none_iff, not_exists, not_and]

/-- **A text has its pieces in one way only**: a shape is found again in its text. -/
theorem Shape.eq_of_text_eq (hx : x.WellFormed) (hy : y.WellFormed) (h : x.text = y.text) :
    x = y := by
  have hscan := scan_text_append hx (Text.stops_nil _)
  rw [h, scan_text_append hy (Text.stops_nil _)] at hscan
  exact ((Prod.mk.inj (Option.some.inj hscan)).1).symm

/-! ### The two recognisers -/

/-- The text of a shape is scanned as a token that has no operator. -/
theorem Shape.scan_bare (hx : x.WellFormed) : Token.scan x.text = some (⟨[], [], x⟩, []) := by
  have ht : (Token.mk [] [] x).WellFormed := ⟨Or.inl rfl, by simp, hx⟩
  simpa [Token.text] using Token.scan_text ht

/-- **Characters are read as a bound** exactly if they are a token without an operator, and without
blanks before its bound, no component of which is too large. -/
theorem ofChars_iff_bare : (∃ b, ofChars s = .ok b) ↔
    ∃ t : Token, Token.scan s = some (t, []) ∧ t.sign = [] ∧ t.shape.text = s ∧
      ∀ run ∈ t.shape.components, ¬Component.Overflows run := by
  simp only [ofChars_eq_ok_iff]
  constructor
  · rintro ⟨b, x, hx, rfl, hb⟩
    exact ⟨_, Shape.scan_bare hx, rfl, rfl, Shape.exists_bound?_iff.mp ⟨b, hb⟩⟩
  · rintro ⟨t, hscan, -, htext, hfits⟩
    obtain ⟨b, hb⟩ := Shape.exists_bound?_iff.mpr hfits
    exact ⟨b, t.shape, (Token.wellFormed_of_scan hscan).shape, htext, hb⟩

/-- **The reader of bounds and the scan of tokens accept the same texts**, but for the size of
numbers. A text is read as a bound exactly if its characters between the blanks at its ends are
scanned as a token with no operator that is the text of its bound and leaves nothing, and no
component of the token is too large. There is one way then to take the text to pieces, and in these
pieces the bound is written: a component is a wildcard where it is a mark or absent, and else the
value of its digits; the pre-release is the row of words behind the hyphen. -/
theorem parse_iff_bare (text : String) :
    ((∃ b, parse text = .ok b) ↔ ∃ t : Token, Token.scan (Text.trim text.toList) = some (t, []) ∧
        t.sign = [] ∧ t.shape.text = Text.trim text.toList ∧
          ∀ run ∈ t.shape.components, ¬Component.Overflows run) ∧
      ∀ b, parse text = .ok b → ∃ x : Shape, x.WellFormed ∧ x.text = Text.trim text.toList ∧
        b.WrittenAs x ∧ ∀ y : Shape, y.WellFormed → y.text = Text.trim text.toList → y = x := by
  refine ⟨ofChars_iff_bare, fun b hb => ?_⟩
  obtain ⟨x, hx, htext, hbound⟩ := exists_shape_of_ofChars hb
  refine ⟨x, hx, htext, writtenAs_of_bound? hx hbound, fun y hy htext' => ?_⟩
  exact Shape.eq_of_text_eq hy hx (htext'.trans htext.symm)

/-- A bound with leading zeros, a wildcard between two numbers and an identifier that starts with a
hyphen; and a text on whose third component the two recognisers part. -/
theorem parse_iff_bare_zeros :
    (∃ x : Shape, x.WellFormed ∧ x.text = "v01.*.007--.00+b".toList ∧
        (Bound.mk (.number 1) .wildcard (.number 7) (.identifiers [⟨"-"⟩, ⟨"00"⟩])).WrittenAs x) ∧
      ¬∃ b, parse "1.2.x2" = .ok b := by
  have hb : parse " v01.*.007--.00+b " =
      .ok ⟨.number 1, .wildcard, .number 7, .identifiers [⟨"-"⟩, ⟨"00"⟩]⟩ := by cbv
  have htrim : Text.trim " v01.*.007--.00+b ".toList = "v01.*.007--.00+b".toList := by decide
  obtain ⟨x, hx, htext, hwritten, -⟩ := (parse_iff_bare " v01.*.007--.00+b ").2 _ hb
  refine ⟨⟨x, hx, htext.trans htrim, hwritten⟩, ?_⟩
  rw [(parse_iff_bare "1.2.x2").1]
  rintro ⟨t, hscan, -⟩
  have hleft : (Token.scan (Text.trim "1.2.x2".toList)).map Prod.snd = some ".x2".toList := by cbv
  rw [hscan] at hleft
  have hnil : ([] : List Char) = ".x2".toList := Option.some.inj hleft
  exact absurd hnil (by decide)

end Bound

end Semver
