import Semver.Proofs.Bound.Rescan

/-!
# What a shape denotes

The scan of a shape looks at characters only, and the reader of a bound looks at values as well. On
the text of a well-formed shape they meet: the reader either finds the bound that the shape denotes,
piece by piece, or stops at the first component whose digits need more than 64 bits. There is no
third outcome, since everything else that can stop the reader has already stopped the scan.

* `Semver.Number.WrittenAs`: the runs of digits that denote a number.
* `Semver.Component.Overflows`: a run of digits that denotes no number.
* `Semver.Bound.Shape.bound?`: the bound that a shape denotes.
* `Semver.Bound.Shape.FirstOverflow`: the first component that is too large, and what follows it.
* `Semver.Bound.Shape.ofChars_text`: the two outcomes of reading the text of a shape.
-/

namespace Semver

open Text (Stops stops_nil)

variable {s run : List Char}

/-! ### Numbers -/

namespace Number

theorem ofNat?_eq_none_iff {n : Nat} : ofNat? n = none ↔ UInt64.size ≤ n := by
  unfold ofNat?
  split
  next h => simpa using h
  next h => simpa using h

theorem ofDigits?_eq_none_iff {digits : List Char} :
    ofDigits? digits = none ↔ UInt64.size ≤ Nat.ofDigitChars 10 digits 0 :=
  ofNat?_eq_none_iff

theorem ofDigits?_eq_some_iff {n : Number} :
    ofDigits? run = some n ↔ Nat.ofDigitChars 10 run 0 = n.toNat := by
  constructor
  · intro h
    rw [ofDigits?, ofNat?] at h
    split at h
    · rw [← Option.some.inj h, UInt64.toNat_ofNatLT]
    · cases h
  · intro h
    rw [ofDigits?, h, ofNat?_toNat]

/-- **How a number may be written**: in decimal digits, of which there is one at least, and with any
zeros in front. -/
structure WrittenAs (n : Number) (run : List Char) : Prop where
  ne_nil : run ≠ []
  isDigit : ∀ c ∈ run, c.isDigit = true
  value : Nat.ofDigitChars 10 run 0 = n.toNat

/-- A run of digits that no digit follows is read as its value, or reported as too large. -/
theorem read_append (hne : run ≠ []) (hrun : ∀ c ∈ run, c.isDigit = true)
    (hs : Stops Char.isDigit s) :
    read (run ++ s) = (ofDigits? run).elim (.error (.overflow run s)) fun n => .ok (n, s) := by
  simp only [read, Text.takeWhile_run hrun hs, Text.dropWhile_run hrun hs]
  rw [if_neg (by simpa using hne)]
  cases ofDigits? run <;> rfl

end Number

/-! ### Components -/

namespace Component

variable {run? : Option (List Char)}

/-- **A component that is too large**: its digits denote no number of 64 bits. -/
def Overflows (run : List Char) : Prop :=
  run.all Char.isDigit = true ∧ UInt64.size ≤ Nat.ofDigitChars 10 run 0

instance (run : List Char) : Decidable (Overflows run) :=
  inferInstanceAs (Decidable (_ ∧ _))

/-- **The component that a text denotes**: digits denote their value, if it fits, and the only other
texts of a component are the wildcard marks. -/
def ofText? (run : List Char) : Option Component :=
  if run.all Char.isDigit then (Number.ofDigits? run).map .number else some .wildcard

theorem ofText?_eq_none_iff : ofText? run = none ↔ Overflows run := by
  unfold ofText? Overflows
  split
  next h => simp [h, Number.ofDigits?_eq_none_iff]
  next h => simp [h]

/-- What reading the text of a component in front of `s` comes to. -/
def outcome (run s : List Char) : Except Number.Failure (Component × List Char) :=
  (ofText? run).elim (.error (.overflow run s)) fun c => .ok (c, s)

/-- The text of a component is either all digits or a single wildcard mark. -/
theorem digits_or_mark_of_isText (h : isText run = true) :
    (run ≠ [] ∧ ∀ c ∈ run, c.isDigit = true ∧ isWildcardMark c = false) ∨
      ∃ c, run = [c] ∧ isWildcardMark c = true ∧ c.isDigit = false := by
  have hapart : ∀ c : Char, isWildcardMark c = true → c.isDigit = false := by
    intro c hc
    simp only [isWildcardMark, Bool.or_eq_true, beq_iff_eq] at hc
    rcases hc with (rfl | rfl) | rfl <;> decide
  have hdigit : ∀ c : Char, c.isDigit = true → c.isDigit = true ∧ isWildcardMark c = false := by
    intro c hc
    refine ⟨hc, Bool.eq_false_iff.mpr fun hmark => ?_⟩
    rw [hapart c hmark] at hc
    exact absurd hc (by decide)
  fun_cases isText run with
  | case1 => exact absurd h (by decide)
  | case2 c =>
    rcases Bool.or_eq_true_iff.mp h with hc | hc
    · exact Or.inl ⟨by simp, by simpa using hdigit c hc⟩
    · exact Or.inr ⟨c, rfl, hc, hapart c hc⟩
  | case3 run hnil hsingle =>
    rw [isText.eq_3 run hnil hsingle, List.all_eq_true] at h
    exact Or.inl ⟨hnil, fun c hc => hdigit c (h c hc)⟩

theorem read_append (hrun : isText run = true) (hs : Stops isTextChar s) :
    read (run ++ s) = outcome run s := by
  rcases digits_or_mark_of_isText hrun with ⟨hne, hdigits⟩ | ⟨c, rfl, hmark, hdigit⟩
  · have hs' : Stops Char.isDigit s := hs.mono fun c hc => by simp [isTextChar, hc]
    have hall : run.all Char.isDigit = true := List.all_eq_true.mpr fun c hc => (hdigits c hc).1
    have hread := Number.read_append hne (fun c hc => (hdigits c hc).1) hs'
    obtain ⟨c, more, rfl⟩ := List.exists_cons_of_ne_nil hne
    have hc : isWildcardMark c = false := (hdigits c (by simp)).2
    rw [List.cons_append] at hread
    simp only [List.cons_append, read, hc, Bool.false_eq_true, if_false, hread, outcome, ofText?,
      hall, if_true]
    cases Number.ofDigits? (c :: more) <;> rfl
  · simp [read, outcome, ofText?, hmark, hdigit]

theorem readDotted_append (hrun : ∀ run ∈ run?, isText run = true)
    (hsome : run? ≠ none → Stops isTextChar s) (hnone : run? = none → Stops (· == '.') s) :
    readDotted (run?.elim [] ('.' :: ·) ++ s) =
      run?.elim (.ok (.wildcard, s)) fun run => outcome run s := by
  cases run? with
  | none =>
    fun_cases readDotted s with
    | case1 s hread => exact absurd (Text.stops_cons.mp (hnone rfl)) (by decide)
    | case2 s hread => exact absurd (Text.stops_cons.mp (hnone rfl)) (by decide)
    | case3 s hdot => rfl
  | some run =>
    have hread := read_append (hrun run rfl) (hsome (by simp))
    simp only [Option.elim_some, List.cons_append, readDotted, hread]
    unfold outcome
    cases ofText? run <;> rfl

end Component

/-! ### Bounds -/

namespace Bound.Shape

open Component (Overflows outcome ofText?)

variable {x : Shape}

/-- **The bound that a shape denotes**, if its numbers fit: a missing component is a wildcard, and
build metadata is dropped. -/
def bound? (x : Shape) : Option Bound := do
  let major ← ofText? x.major
  let minor ← x.minor.elim (some .wildcard) ofText?
  let patch ← x.patch.elim (some .wildcard) ofText?
  return ⟨major, minor, patch, .identifiers (x.pre.map .ofList)⟩

theorem bound?_eq_some_iff {b : Bound} : x.bound? = some b ↔
    ofText? x.major = some b.major ∧ x.minor.elim (some .wildcard) ofText? = some b.minor ∧
      x.patch.elim (some .wildcard) ofText? = some b.patch ∧
      .identifiers (x.pre.map .ofList) = b.pre := by
  obtain ⟨major, minor, patch, pre⟩ := b
  simp only [bound?, Option.bind_eq_bind, Option.bind_eq_some_iff, Option.pure_def,
    Option.some.injEq, Bound.mk.injEq]
  constructor
  · rintro ⟨_, hmajor, _, hminor, _, hpatch, rfl, rfl, rfl, hpre⟩
    exact ⟨hmajor, hminor, hpatch, hpre⟩
  · rintro ⟨hmajor, hminor, hpatch, hpre⟩
    exact ⟨major, hmajor, minor, hminor, patch, hpatch, rfl, rfl, rfl, hpre⟩

/-- **The first component that is too large** is `digits`, and `rest` is what follows it in the text
of the shape. -/
def FirstOverflow (x : Shape) (digits rest : List Char) : Prop :=
  ∃ before after, x.components = before ++ digits :: after ∧ (∀ run ∈ before, ¬Overflows run) ∧
    Overflows digits ∧
      x.text = (if x.lead then ['v'] else []) ++ List.intercalate ['.'] (before ++ [digits]) ++ rest

/-- A shape denotes a bound unless one of its components is too large. -/
theorem bound?_eq_none_iff : x.bound? = none ↔ ∃ run ∈ x.components, Overflows run := by
  obtain ⟨lead, major, minor, patch, pre, build⟩ := x
  simp only [components, List.mem_cons, List.mem_append, Option.mem_toList, bound?,
    ← Component.ofText?_eq_none_iff]
  cases hmajor : ofText? major with
  | none => simp [hmajor]
  | some a =>
    cases minor with
    | none =>
      cases patch with
      | none => simp [hmajor]
      | some third => cases hthird : ofText? third <;> simp [hmajor, hthird]
    | some second =>
      cases hsecond : ofText? second with
      | none => simp [hsecond]
      | some b =>
        cases patch with
        | none => simp [hmajor, hsecond]
        | some third => cases hthird : ofText? third <;> simp [hmajor, hsecond, hthird]

theorem FirstOverflow.bound?_eq_none {digits rest : List Char} (h : x.FirstOverflow digits rest) :
    x.bound? = none := by
  obtain ⟨before, after, hcomponents, -, hdigits, -⟩ := h
  exact bound?_eq_none_iff.mpr ⟨digits, by simp [hcomponents], hdigits⟩

/-! ### Reading the text of a shape -/

theorem text_eq_suffix (x : Shape) :
    x.text = (if x.lead then ['v'] else []) ++ List.intercalate ['.'] x.components ++ x.suffix := by
  simp [text, suffix]

/-- The text behind the second component. -/
def afterMinor (x : Shape) : List Char :=
  x.patch.elim [] ('.' :: ·) ++ x.suffix

/-- The text behind the first component. -/
def afterMajor (x : Shape) : List Char :=
  x.minor.elim [] ('.' :: ·) ++ x.afterMinor

/-- Behind each component of a shape stands neither a digit nor a wildcard mark. -/
theorem stops_isTextChar_pieces (x : Shape) : Stops Component.isTextChar x.suffix ∧
    Stops Component.isTextChar x.afterMinor ∧ Stops Component.isTextChar x.afterMajor := by
  have hsuffix : Stops Component.isTextChar x.suffix := by
    simpa using stops_isTextChar_suffix (x := x) (stops_nil _)
  have hminor : Stops Component.isTextChar x.afterMinor :=
    Component.stops_dotted x.patch (by decide) fun _ => hsuffix
  exact ⟨hsuffix, hminor, Component.stops_dotted x.minor (by decide) fun _ => hminor⟩

/-- No dot stands behind the components of a shape, nor where it has no second one. -/
theorem stops_dot_pieces (hx : x.WellFormed) :
    Stops (· == '.') x.suffix ∧ (x.minor = none → Stops (· == '.') x.afterMinor) := by
  have hdot : Stops (· == '.') x.suffix := by
    simpa using stops_dot_suffix (x := x) (stops_nil _)
  exact ⟨hdot, fun hnone => by simpa [afterMinor, hx.patch_eq_none hnone] using hdot⟩

/-- Without its `v` the text of a shape starts with the first component. -/
theorem skipMark_text (hx : x.WellFormed) :
    Text.skipMark 'v' x.text = x.major ++ x.afterMajor := by
  simpa [afterMajor, afterMinor] using skipMark_text_append hx []

/-- The three components are read where they stand. -/
theorem read_pieces (hx : x.WellFormed) :
    Component.read (Text.skipMark 'v' x.text) = outcome x.major x.afterMajor ∧
      Component.readDotted x.afterMajor =
        x.minor.elim (.ok (.wildcard, x.afterMinor)) (outcome · x.afterMinor) ∧
      Component.readDotted x.afterMinor =
        x.patch.elim (.ok (.wildcard, x.suffix)) (outcome · x.suffix) := by
  obtain ⟨hsuffix, hminor, hmajor⟩ := stops_isTextChar_pieces x
  obtain ⟨hdot, hdot'⟩ := stops_dot_pieces hx
  refine ⟨?_, Component.readDotted_append hx.minor (fun _ => hminor) hdot',
    Component.readDotted_append hx.patch (fun _ => hsuffix) fun _ => hdot⟩
  rw [skipMark_text hx]
  exact Component.read_append hx.major hmajor

theorem firstOverflow_of_components {before after : List (List Char)} {digits : List Char}
    (h : x.components = before ++ digits :: after) (hbefore : ∀ run ∈ before, ¬Overflows run)
    (hdigits : Overflows digits) :
    x.FirstOverflow digits (after.flatMap ('.' :: ·) ++ x.suffix) := by
  refine ⟨before, after, h, hbefore, hdigits, ?_⟩
  rw [text_eq_suffix, h, Text.intercalate_append]
  simp

theorem firstOverflow_major (h : Overflows x.major) : x.FirstOverflow x.major x.afterMajor := by
  have hafter : x.afterMajor =
      (x.minor.toList ++ x.patch.toList).flatMap ('.' :: ·) ++ x.suffix := by
    cases hminor : x.minor <;> cases hpatch : x.patch <;>
      simp [afterMajor, afterMinor, hminor, hpatch]
  have hcomponents : x.components = [] ++ x.major :: (x.minor.toList ++ x.patch.toList) := rfl
  rw [hafter]
  exact firstOverflow_of_components hcomponents (by simp) h

theorem firstOverflow_minor {run : List Char} (hminor : x.minor = some run)
    (hmajor : ¬Overflows x.major) (h : Overflows run) : x.FirstOverflow run x.afterMinor := by
  have hafter : x.afterMinor = x.patch.toList.flatMap ('.' :: ·) ++ x.suffix := by
    cases hpatch : x.patch <;> simp [afterMinor, hpatch]
  have hcomponents : x.components = [x.major] ++ run :: x.patch.toList := by
    simp [components, hminor]
  rw [hafter]
  exact firstOverflow_of_components hcomponents (by simpa using hmajor) h

theorem firstOverflow_patch {second run : List Char} (hminor : x.minor = some second)
    (hpatch : x.patch = some run) (hmajor : ¬Overflows x.major) (hsecond : ¬Overflows second)
    (h : Overflows run) : x.FirstOverflow run x.suffix := by
  have hcomponents : x.components = [x.major, second] ++ run :: [] := by
    simp [components, hminor, hpatch]
  simpa using firstOverflow_of_components hcomponents (by simp [hmajor, hsecond]) h

/-- A component that denotes something is not too large. -/
theorem not_overflows_of_ofText? {run : List Char} {c : Component} (h : ofText? run = some c) :
    ¬Overflows run := by
  rw [← Component.ofText?_eq_none_iff, h]
  simp

/-- Reading the components of a shape finds those of the bound that it denotes, or stops at the
first one that is too large. -/
theorem readComponents_text (hx : x.WellFormed) :
    (∃ a b c, x.bound? = some ⟨a, b, c, .identifiers (x.pre.map .ofList)⟩ ∧
        readComponents (Text.skipMark 'v' x.text) = .ok ((a, b, c), x.suffix)) ∨
      ∃ digits rest, x.FirstOverflow digits rest ∧
        readComponents (Text.skipMark 'v' x.text) = .error (.overflow digits rest) := by
  obtain ⟨hmajor, hminor, hpatch⟩ := read_pieces hx
  simp only [readComponents, bind, Except.bind, pure, Except.pure, hmajor]
  -- the reader goes from one component to the next, and stops at the first that does not fit
  cases ha : ofText? x.major with
  | none =>
    refine Or.inr ⟨_, _, firstOverflow_major (Component.ofText?_eq_none_iff.mp ha), ?_⟩
    simp [outcome, ha]
  | some a =>
    have hfits := not_overflows_of_ofText? ha
    simp only [outcome, ha, Option.elim_some, hminor]
    cases hm : x.minor with
    | none =>
      have hp := hx.patch_eq_none hm
      refine Or.inl ⟨a, .wildcard, .wildcard, by simp [bound?, ha, hm, hp], ?_⟩
      simp [hpatch, hp]
    | some second =>
      cases hb : ofText? second with
      | none =>
        refine Or.inr ⟨_, _, firstOverflow_minor hm hfits (Component.ofText?_eq_none_iff.mp hb), ?_⟩
        simp [hb]
      | some b =>
        have hfits' := not_overflows_of_ofText? hb
        simp only [Option.elim_some, outcome, hb, hpatch]
        cases hp : x.patch with
        | none => exact Or.inl ⟨a, b, .wildcard, by simp [bound?, ha, hm, hb, hp], rfl⟩
        | some third =>
          cases hc : ofText? third with
          | none =>
            refine Or.inr ⟨_, _, firstOverflow_patch hm hp hfits hfits'
              (Component.ofText?_eq_none_iff.mp hc), ?_⟩
            simp [hc]
          | some c =>
            refine Or.inl ⟨a, b, c, by simp [bound?, ha, hm, hb, hp, hc], ?_⟩
            simp [hc]

/-- **The two outcomes of reading the text of a shape**: the bound that the shape denotes, or its
first component that is too large. -/
theorem ofChars_text (hx : x.WellFormed) :
    (∃ b, x.bound? = some b ∧ ofChars x.text = .ok b) ∨
      ∃ digits rest, x.FirstOverflow digits rest ∧
        ofChars x.text = .error (.overflow digits rest) := by
  obtain ⟨hpre, hbuild⟩ := readMarked_suffix hx (stops_nil x.continuedBy)
  simp only [List.append_nil] at hpre hbuild
  rcases readComponents_text hx with ⟨a, b, c, hbound, hread⟩ | ⟨digits, rest, hfirst, hread⟩
  · exact Or.inl ⟨_, hbound, by simp [ofChars, hread, hpre, hbuild]⟩
  · exact Or.inr ⟨digits, rest, hfirst, by simp [ofChars, hread, ParseError.ofFailure]⟩

end Bound.Shape

end Semver
