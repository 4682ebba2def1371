import Semver.Comparator.Parser
import Semver.Proofs.Bound.Denotation

/-!
# Tokens, and what they denote

A token is an operator, blanks and a shape, and each of them is found again where it stands: no
spelling can grow into what follows it, because neither a blank nor a bound starts like an operator.
So a token that was found in some text is found again on its own, and in front of any text that does
not draw its shape out.

A comparator is read by scanning its token once more, looking up the operator and reading the bound.
The scan finds the same token again and uses up all of it, what was scanned as an operator is in the
table of operators, and there is nothing to trim from the text of a bound. So the reader never
complains about the token as such: it finds the comparator that the token denotes, or a component
that is too large.

* `Semver.Operator.IsSpelling`: what a scan takes for an operator.
* `Semver.Operator.exists_ofText?_spelling`: the table of operators knows all of that.
* `Semver.Token.WellFormed`: the inner law of a token, which every scan establishes.
* `Semver.Token.scan_text_append`: a well-formed token is scanned again.
* `Semver.Token.comparator?`: the comparator that a token denotes.
* `Semver.Token.ofChars_text_eq`: the text of a token is read as its operator and its bound.
* `Semver.Token.ofChars_text`: the two outcomes of reading the text of a token.
* `Semver.Comparator.exists_token_or_malformed`: any other text is malformed.
-/

namespace Semver

open Text (Stops stops_nil stops_cons)

variable {s rest w : List Char}

/-! ### Operators -/

namespace Operator

/-- **A spelling of an operator**, the empty one included. -/
def IsSpelling (w : List Char) : Prop :=
  w = [] ∨ w ∈ spellings

instance (w : List Char) : Decidable (IsSpelling w) :=
  inferInstanceAs (Decidable (_ ∨ _))

/-- The characters that operators are spelled with. -/
def isSignChar (c : Char) : Bool :=
  c == '<' || c == '>' || c == '=' || c == '~' || c == '^'

/-- A class that none of the five belongs to is apart from them. -/
theorem isSignChar_eq_false {p : Char → Bool} {c : Char} (h : p c = true)
    (hp : ['<', '>', '=', '~', '^'].any p = false) : isSignChar c = false := by
  refine Bool.eq_false_iff.mpr fun hsign => ?_
  have hmem : c ∈ ['<', '>', '=', '~', '^'] := by
    simpa [isSignChar, or_assoc] using hsign
  exact List.any_eq_false.mp hp c hmem h

theorem isSpelling_scan (s : List Char) : IsSpelling (scan s).1 := by
  simp only [scan]
  split
  next spelling hfound => exact Or.inr (List.mem_of_find?_eq_some hfound)
  · exact Or.inl rfl

theorem isSignChar_of_mem_spelling (h : IsSpelling w) : ∀ c ∈ w, isSignChar c = true := by
  rcases h with rfl | h
  · simp
  · have hall : (spellings.all fun spelling => spelling.all isSignChar) = true := by decide
    exact List.all_eq_true.mp (List.all_eq_true.mp hall w h)

/-- **Every spelling is that of an operator.** -/
theorem exists_ofText?_spelling (h : IsSpelling w) :
    ∃ operator, ofText? (String.ofList w) = some operator := by
  rcases h with rfl | h
  · exact ⟨.equal, rfl⟩
  · have hall :
        (spellings.all fun spelling => (ofText? (String.ofList spelling)).isSome) = true := by
      decide
    exact Option.isSome_iff_exists.mp (List.all_eq_true.mp hall w h)

/-- What the table of operators knows is a spelling. -/
theorem isSpelling_of_ofText? {sign : String} {op : Operator} (h : ofText? sign = some op) :
    IsSpelling sign.toList := by
  unfold ofText? at h
  split at h
  all_goals first
    | decide
    | cases h

/-- **A spelling is found again** in front of a text that cannot make it longer. -/
theorem scan_spelling_append (h : IsSpelling w) (hs : Stops isSignChar s) :
    scan (w ++ s) = (w, s) := by
  have hhead : ∀ c ∈ s.head?, c ≠ '<' ∧ c ≠ '>' ∧ c ≠ '=' ∧ c ≠ '~' ∧ c ≠ '^' := by
    intro c hc
    simpa [isSignChar, and_assoc] using hs c hc
  rcases h with rfl | h
  · -- the first character of `s` is that of no spelling, so none is found
    cases s with
    | nil => rfl
    | cons c s =>
      obtain ⟨hless, hgreater, hequal, htilde, hcaret⟩ := hhead c rfl
      simp [scan, spellings, List.isPrefixOf, hless.symm, hgreater.symm, hequal.symm, htilde.symm,
        hcaret.symm]
  · -- a longer spelling is tried first, but its second character would have to come from `s`
    simp only [spellings, List.mem_cons, List.not_mem_nil, or_false] at h
    cases s with
    | nil => rcases h with rfl | rfl | rfl | rfl | rfl | rfl | rfl | rfl | rfl | rfl <;> rfl
    | cons c s =>
      obtain ⟨hless, hgreater, hequal, htilde, hcaret⟩ := hhead c rfl
      rcases h with rfl | rfl | rfl | rfl | rfl | rfl | rfl | rfl | rfl | rfl <;>
        simp [scan, spellings, List.isPrefixOf, hless.symm, hgreater.symm, hequal.symm]

end Operator

/-! ### Tokens -/

namespace Token

variable {t : Token}

/-- **The inner law of a token**: its operator is spelled, its gap is blank, and its shape obeys the
law of shapes. -/
structure WellFormed (t : Token) : Prop where
  sign : Operator.IsSpelling t.sign
  gap : ∀ c ∈ t.gap, Text.isBlank c = true
  shape : t.shape.WellFormed

theorem wellFormed_of_scan (h : scan s = some (t, rest)) : t.WellFormed := by
  simp only [scan] at h
  split at h
  · cases h
  next shape after hshape =>
    obtain ⟨rfl, rfl⟩ := Prod.mk.inj (Option.some.inj h)
    exact ⟨Operator.isSpelling_scan s, fun _ hc => List.mem_takeWhile_imp hc,
      Bound.Shape.wellFormed_of_scan hshape⟩

theorem stops_isBlank_shape (ht : t.WellFormed) (s : List Char) :
    Stops Text.isBlank (t.shape.text ++ s) :=
  Bound.Shape.stops_text ht.shape (by decide)
    (fun _ hc => Bound.Shape.isBlank_eq_false_of_isShapeChar
      (Bound.Shape.isShapeChar_of_isTextChar hc)) s

/-- No spelling grows into what follows it in a token. -/
theorem stops_isSignChar_gap (ht : t.WellFormed) (s : List Char) :
    Stops Operator.isSignChar (t.gap ++ (t.shape.text ++ s)) := by
  refine Stops.append (fun c hc => ?_) fun _ => ?_
  · exact Operator.isSignChar_eq_false (ht.gap c (List.mem_of_mem_head? hc)) (by decide)
  · exact Bound.Shape.stops_text ht.shape (by decide)
      (fun _ hc => Operator.isSignChar_eq_false hc (by decide)) s

/-- **A well-formed token is scanned again** in front of any text that does not draw its shape
out. -/
theorem scan_text_append (ht : t.WellFormed) (hs : Stops t.shape.continuedBy s) :
    scan (t.text ++ s) = some (t, s) := by
  have hsign := Operator.scan_spelling_append ht.sign (stops_isSignChar_gap ht s)
  have hblank := stops_isBlank_shape ht s
  have hgap := Text.skipBlanks_gap ht.gap hblank
  have hshape := Bound.Shape.scan_text_append ht.shape hs
  simp only [scan, text, List.append_assoc, hsign, hgap, hshape, Text.takeWhile_run ht.gap hblank]

/-- A token is scanned again on its own, and nothing is left. -/
theorem scan_text (ht : t.WellFormed) : scan t.text = some (t, []) := by
  simpa using scan_text_append ht (stops_nil t.shape.continuedBy)

theorem text_ne_nil (ht : t.WellFormed) : t.text ≠ [] := by
  simp [text, Bound.Shape.text_ne_nil ht.shape]

end Token

/-! ### The comparator of a token -/

/-- The text of a shape is read as it is, since it has no blanks at its ends. -/
theorem Bound.Shape.parse_text {x : Bound.Shape} (hx : x.WellFormed) :
    Bound.parse (String.ofList x.text) = Bound.ofChars x.text := by
  rw [Bound.parse, String.toList_ofList, trim_text hx]

namespace Token

variable {t : Token} {c : Comparator}

/-- **The comparator that a token denotes**, if its operator is known and the numbers of its bound
fit. -/
def comparator? (t : Token) : Option Comparator := do
  let operator ← Operator.ofText? (String.ofList t.sign)
  let bound ← t.shape.bound?
  return ⟨operator, bound, String.ofList t.text⟩

/-- The parts of the comparator that a token denotes. -/
theorem comparator?_eq_some_iff : t.comparator? = some c ↔
    Operator.ofText? (String.ofList t.sign) = some c.operator ∧ t.shape.bound? = some c.bound ∧
      c.text = String.ofList t.text := by
  simp only [comparator?, Option.bind_eq_bind, Option.bind_eq_some_iff, Option.pure_def,
    Option.some.injEq]
  constructor
  · rintro ⟨operator, hop, bound, hb, rfl⟩
    exact ⟨hop, hb, rfl⟩
  · rintro ⟨hop, hb, htext⟩
    exact ⟨_, hop, _, hb, by rw [← htext]⟩

/-- A token denotes a comparator unless a component of its bound is too large. -/
theorem comparator?_eq_none_iff (ht : t.WellFormed) :
    t.comparator? = none ↔ ∃ run ∈ t.shape.components, Component.Overflows run := by
  obtain ⟨operator, hop⟩ := Operator.exists_ofText?_spelling ht.sign
  rw [← Bound.Shape.bound?_eq_none_iff]
  cases hbound : t.shape.bound? <;> simp [comparator?, hop, hbound]

/-- **The text of a token is read** by looking up its operator and reading its bound. The blanks
between them only show in the text that the comparator keeps. -/
theorem ofChars_text_eq {op : Operator} (ht : t.WellFormed)
    (hop : Operator.ofText? (String.ofList t.sign) = some op) : Comparator.ofChars t.text =
      ((Bound.ofChars t.shape.text).mapError .version).map fun b =>
        ⟨op, b, String.ofList t.text⟩ := by
  have hne : t.text.isEmpty = false := by simpa using text_ne_nil ht
  have hbound := Bound.Shape.parse_text ht.shape
  cases hread : Bound.ofChars t.shape.text <;>
    simp [Comparator.ofChars, hne, scan_text ht, hop, hbound, hread, Except.mapError, Except.map]

/-- **The two outcomes of reading the text of a token**: the comparator that the token denotes, or
the first component of its bound that is too large. -/
theorem ofChars_text (ht : t.WellFormed) :
    (∃ c, t.comparator? = some c ∧ Comparator.ofChars t.text = .ok c) ∨
      ∃ digits rest, t.shape.FirstOverflow digits rest ∧
        Comparator.ofChars t.text = .error (.version (.overflow digits rest)) := by
  obtain ⟨operator, hop⟩ := Operator.exists_ofText?_spelling ht.sign
  rw [ofChars_text_eq ht hop]
  rcases Bound.Shape.ofChars_text ht.shape with ⟨b, hb, hok⟩ | ⟨digits, rest, hfirst, herror⟩
  · refine Or.inl ⟨⟨operator, b, String.ofList t.text⟩,
      comparator?_eq_some_iff.mpr ⟨hop, hb, rfl⟩, ?_⟩
    rw [hok]
    rfl
  · refine Or.inr ⟨digits, rest, hfirst, ?_⟩
    rw [herror]
    rfl

/-- A token whose text is read as a comparator denotes that comparator. -/
theorem ofChars_text_eq_ok_iff (ht : t.WellFormed) :
    Comparator.ofChars t.text = .ok c ↔ t.comparator? = some c := by
  rcases ofChars_text ht with ⟨c', hc', hok⟩ | ⟨digits, rest, hfirst, herror⟩
  · rw [hok, hc']
    simp
  · have hnone : t.comparator? = none := by
      rw [comparator?_eq_none_iff ht, ← Bound.Shape.bound?_eq_none_iff]
      exact hfirst.bound?_eq_none
    rw [herror, hnone]
    simp

/-- The text that is put together from an operator, blanks and the pieces of a bound is read as the
operator on that bound. -/
theorem ofChars_text_mk {sign : String} {gap : List Char} {x : Bound.Shape} {op : Operator}
    {b : Bound} (hop : Operator.ofText? sign = some op) (hgap : ∀ c ∈ gap, Text.isBlank c = true)
    (hx : x.WellFormed) (hb : x.bound? = some b) :
    Comparator.ofChars (sign.toList ++ gap ++ x.text) =
      .ok ⟨op, b, String.ofList (sign.toList ++ gap ++ x.text)⟩ := by
  have ht : (Token.mk sign.toList gap x).WellFormed :=
    ⟨Operator.isSpelling_of_ofText? hop, hgap, hx⟩
  have hop' : Operator.ofText? (String.ofList sign.toList) = some op := by
    rw [String.ofList_toList, hop]
  exact (ofChars_text_eq_ok_iff ht).mpr (comparator?_eq_some_iff.mpr ⟨hop', hb, rfl⟩)

/-- The text of a token is read as a comparator exactly when the components of its bound fit. -/
theorem exists_ofChars_text_iff (ht : t.WellFormed) : (∃ c, Comparator.ofChars t.text = .ok c) ↔
    ∀ run ∈ t.shape.components, ¬Component.Overflows run := by
  simp only [ofChars_text_eq_ok_iff ht, ← Option.ne_none_iff_exists', ne_eq,
    comparator?_eq_none_iff ht, not_exists, not_and]

end Token

namespace Comparator

variable {c : Comparator}

/-- **What the reader of comparators makes of a text** that is not empty: it is the text of a token,
or it is malformed. -/
theorem exists_token_or_malformed (hs : s ≠ []) : (∃ t : Token, t.WellFormed ∧ t.text = s) ∨
    ofChars s = .error (.malformedComparator (String.ofList s)) := by
  cases hscan : Token.scan s with
  | none => exact Or.inr (by simp [ofChars, hs, hscan])
  | some found =>
    obtain ⟨t, rest⟩ := found
    cases rest with
    | nil =>
      have htext := Token.text_append_of_scan hscan
      exact Or.inl ⟨t, Token.wellFormed_of_scan hscan, by simpa using htext⟩
    | cons ch rest => exact Or.inr (by simp [ofChars, hs, hscan])

/-- A comparator keeps the text that it was read from. -/
theorem text_of_ofChars (h : ofChars s = .ok c) : c.text = String.ofList s := by
  rcases eq_or_ne s [] with rfl | hs
  · obtain rfl : any = c := Except.ok.inj h
    rfl
  · rcases exists_token_or_malformed hs with ⟨t, ht, rfl⟩ | hmalformed
    · exact (Token.comparator?_eq_some_iff.mp ((Token.ofChars_text_eq_ok_iff ht).mp h)).2.2
    · rw [hmalformed] at h
      cases h

end Comparator

end Semver
