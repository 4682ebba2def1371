import Semver.Version.Parser
import Semver.Proofs.Bound.Denotation
import Semver.Proofs.Traversal

/-!
# The errors of a notation

Versions and bounds are written in two dialects of one notation. A lead may stand in front; then
come up to three components with dots between them, of which some are required; then a pre-release
and build metadata. The dialects differ in what a lead is, in whether a component may be a wildcard,
in how many components are required, and in what the rest may look like. A text that is neither a
version nor a bound goes wrong in one of three ways, and each of them has its place:

| what is wrong | where |
|---|---|
| a number that is too large, behind complete components | behind its digits |
| a required component that is missing | at the start of the text |
| characters that the notation has no use for | behind the longest front that it has a use for |

The first of these goes before the others, no matter what comes behind the number. This file says so
for any dialect, and brings a reader of a dialect down to what it does with a single component.

* `Semver.Dialect`: what tells the dialects apart.
* `Semver.Dialect.Fails`: what is wrong with a text, and where.
* `Semver.Dialect.Reads`: readers of single components, as the dialect wants them.
* `Semver.Dialect.Reads.readThree_eq_overflow_iff`: three components in a row and large numbers.
* `Semver.Dialect.Reads.readText_eq_error_iff`: so of whole texts, which fail as the dialect says.
-/

namespace Semver

open Text (Stops)
open Component (Overflows)

variable {s digits rest : List Char} {e : ParseError}

/-! ### Numbers -/

theorem Component.Overflows.ne_nil (h : Overflows digits) : digits ≠ [] := by
  rintro rfl
  exact absurd h (by decide)

namespace Number

/-- **The numbers that are too large** are reported with all digits that stand at the front. -/
theorem read_eq_overflow_iff : read s = .error (.overflow digits rest) ↔
    Overflows digits ∧ Stops Char.isDigit rest ∧ s = digits ++ rest := by
  constructor
  · intro h
    simp only [read] at h
    split at h
    · cases h
    · split at h
      · cases h
      next hlarge =>
        obtain ⟨rfl, rfl⟩ := Failure.overflow.inj (Except.error.inj h)
        have hall : (s.takeWhile Char.isDigit).all Char.isDigit = true :=
          List.all_eq_true.mpr fun _ hc => List.mem_takeWhile_imp hc
        exact ⟨⟨hall, ofDigits?_eq_none_iff.mp hlarge⟩, Text.stops_dropWhile _ _,
          List.takeWhile_append_dropWhile.symm⟩
  · rintro ⟨hlarge, hrest, rfl⟩
    rw [read_append hlarge.ne_nil (List.all_eq_true.mp hlarge.1) hrest,
      ofDigits?_eq_none_iff.mpr hlarge.2]
    rfl

/-- A number is missing exactly where no digit stands. -/
theorem read_eq_missing_iff : read s = .error .missing ↔ Stops Char.isDigit s := by
  constructor
  · intro h
    simp only [read] at h
    split at h
    next hnil =>
      have hs := Text.stops_dropWhile Char.isDigit s
      rwa [← List.takeWhile_append_dropWhile (p := Char.isDigit) (l := s),
        List.isEmpty_iff.mp hnil, List.nil_append]
    · split at h <;> cases h
  · intro h
    simp [read, Text.takeWhile_of_stops h]

/-- Behind a number the digits are used up. -/
theorem eq_dropWhile_of_read {n : Number} (h : read s = .ok (n, rest)) :
    rest = s.dropWhile Char.isDigit := by
  simp only [read] at h
  split at h
  · cases h
  · split at h
    · exact (Prod.mk.inj (Except.ok.inj h)).2.symm
    · cases h

end Number

/-! ### What is wrong with a text -/

/-- **A dialect of the notation**: what may stand in front of the components and what a component
may be, how many components are required, and which texts are complete. -/
structure Dialect where
  IsLead : List Char → Prop
  IsComponent : List Char → Prop
  required : Nat
  IsComplete : List Char → Prop

namespace Dialect

variable {d : Dialect}

/-- **A number that is too large** stands in a text: behind a lead and at most two components, each
with its dot, come `digits`, as many as there are at this place, and they denote no number of 64
bits. What follows them is `rest`. -/
def TooLarge (d : Dialect) (s digits rest : List Char) : Prop :=
  ∃ (lead : List Char) (before : List (List Char)), d.IsLead lead ∧ before.length ≤ 2 ∧
    (∀ run ∈ before, d.IsComponent run) ∧ Overflows digits ∧ Stops Char.isDigit rest ∧
      s = lead ++ (before.flatMap (· ++ ['.']) ++ (digits ++ rest))

/-- **The required components** stand at the front of a text, behind a lead. -/
def HasRequired (d : Dialect) (s : List Char) : Prop :=
  ∃ lead components rest, d.IsLead lead ∧ components.length = d.required ∧
    (∀ run ∈ components, d.IsComponent run) ∧
      s = lead ++ (List.intercalate ['.'] components ++ rest)

/-- **What is left over** of a text: it follows a complete front, and no longer front is
complete. -/
structure LeftOver (d : Dialect) (s rest : List Char) : Prop where
  exists_front : ∃ front, d.IsComplete front ∧ s = front ++ rest
  length_le {front rest' : List Char} (h : d.IsComplete front) (hs : s = front ++ rest') :
    rest.length ≤ rest'.length

/-- **What is wrong with a text, and where.** A number that is too large is reported with its
digits, at the place behind them. If there is none, a missing component is reported at the start of
the text, and else what is left over at its own start. -/
inductive Fails (d : Dialect) (s : List Char) : ParseError → Prop
  | tooLarge {digits rest : List Char} (h : d.TooLarge s digits rest) :
      Fails d s (.overflow digits rest)
  | missing (hfits : ∀ digits rest, ¬d.TooLarge s digits rest) (h : ¬d.HasRequired s) :
      Fails d s (.unexpected s)
  | leftOver {rest : List Char} (hfits : ∀ digits rest, ¬d.TooLarge s digits rest)
      (hrequired : d.HasRequired s) (hne : rest ≠ []) (h : d.LeftOver s rest) :
      Fails d s (.unexpected rest)

/-- What is left over of a text is so in one way only. -/
theorem LeftOver.unique {rest' : List Char} (h : d.LeftOver s rest) (h' : d.LeftOver s rest') :
    rest = rest' := by
  obtain ⟨front, hfront, hs⟩ := h.exists_front
  obtain ⟨front', hfront', hs'⟩ := h'.exists_front
  have hlength : rest.length = rest'.length :=
    Nat.le_antisymm (h.length_le hfront' hs') (h'.length_le hfront hs)
  exact (List.append_inj' (hs.symm.trans hs') hlength).2

/-! ### Readers of components -/

/-- Three components in a row: the first, and each other one behind its dot. -/
def readThree {α : Type} (read dotted : List Char → Except Number.Failure (α × List Char))
    (s : List Char) : Except Number.Failure ((α × α × α) × List Char) := do
  let (first, s) ← read s
  let (second, s) ← dotted s
  let (third, s) ← dotted s
  return ((first, second, third), s)

/-- **Readers of a dialect**: `skip` passes over the lead, `read` reads a component and `dotted` one
behind its dot. A component in front of a dot is read up to the dot, and a number that is too large
is all that the readers fail on with its digits. Where there is no component behind a dot, `dotted`
may go on without it. -/
structure Reads (d : Dialect) {α : Type} (skip : List Char → List Char)
    (read dotted : List Char → Except Number.Failure (α × List Char)) : Prop where
  exists_lead (s : List Char) : ∃ lead, d.IsLead lead ∧ s = lead ++ skip s
  skip_append {lead run : List Char} (hlead : d.IsLead lead)
    (hrun : d.IsComponent run ∨ Overflows run) (rest : List Char) :
    skip (lead ++ (run ++ rest)) = run ++ rest
  read_eq_overflow_iff {s digits rest : List Char} :
    read s = .error (.overflow digits rest) ↔
      Overflows digits ∧ Stops Char.isDigit rest ∧ s = digits ++ rest
  read_dot_iff {s t : List Char} :
    (∃ x, read s = .ok (x, '.' :: t)) ↔ ∃ run, d.IsComponent run ∧ s = run ++ '.' :: t
  dotted_dot {t : List Char} {found : α × List Char} (h : read t = .ok found) :
    dotted ('.' :: t) = .ok found
  eq_or_dot_of_dotted {s rest : List Char} {x : α} (h : dotted s = .ok (x, rest)) :
    rest = s ∨ ∃ t, s = '.' :: t ∧ read t = .ok (x, rest)
  dotted_eq_overflow_iff {s digits rest : List Char} :
    dotted s = .error (.overflow digits rest) ↔
      ∃ t, s = '.' :: t ∧ read t = .error (.overflow digits rest)

namespace Reads

variable {α : Type} {skip : List Char → List Char}
  {read dotted : List Char → Except Number.Failure (α × List Char)}

theorem readThree_eq_error_iff {failure : Number.Failure} :
    readThree read dotted s = .error failure ↔ read s = .error failure ∨
      ∃ x r, read s = .ok (x, r) ∧ (dotted r = .error failure ∨
        ∃ y r', dotted r = .ok (y, r') ∧ dotted r' = .error failure) := by
  simp only [readThree, Traversal.bind_eq_error_iff, Prod.exists, pure, Except.pure, reduceCtorEq,
    and_false, exists_false, or_false]

/-- **A number that is too large** keeps three components from being read exactly if it stands
behind at most two of them, each with its dot. -/
theorem readThree_eq_overflow_iff (h : d.Reads skip read dotted) :
    readThree read dotted s = .error (.overflow digits rest) ↔
      ∃ before : List (List Char), before.length ≤ 2 ∧ (∀ run ∈ before, d.IsComponent run) ∧
        Overflows digits ∧ Stops Char.isDigit rest ∧
          s = before.flatMap (· ++ ['.']) ++ (digits ++ rest) := by
  rw [readThree_eq_error_iff]
  constructor
  · rintro (hfirst | ⟨x, r, hfirst, hsecond | ⟨y, r', hsecond, hthird⟩⟩)
    · obtain ⟨hlarge, hrest, rfl⟩ := h.read_eq_overflow_iff.mp hfirst
      exact ⟨[], by simp, by simp, hlarge, hrest, rfl⟩
    · obtain ⟨t, rfl, hsecond'⟩ := h.dotted_eq_overflow_iff.mp hsecond
      obtain ⟨hlarge, hrest, rfl⟩ := h.read_eq_overflow_iff.mp hsecond'
      obtain ⟨first, hcomponent, rfl⟩ := h.read_dot_iff.mp ⟨x, hfirst⟩
      exact ⟨[first], by simp, by simpa using hcomponent, hlarge, hrest, by simp⟩
    · obtain ⟨t, rfl, hthird'⟩ := h.dotted_eq_overflow_iff.mp hthird
      rcases h.eq_or_dot_of_dotted hsecond with rfl | ⟨u, rfl, hsecond'⟩
      · -- where the second component was passed by, the third one is looked for at the same place
        rw [hthird] at hsecond
        cases hsecond
      · obtain ⟨hlarge, hrest, rfl⟩ := h.read_eq_overflow_iff.mp hthird'
        obtain ⟨second, hcomponent', rfl⟩ := h.read_dot_iff.mp ⟨y, hsecond'⟩
        obtain ⟨first, hcomponent, rfl⟩ := h.read_dot_iff.mp ⟨x, hfirst⟩
        exact ⟨[first, second], by simp, by simp [hcomponent, hcomponent'], hlarge, hrest, by simp⟩
  · rintro ⟨before, hlength, hbefore, hlarge, hrest, rfl⟩
    have hdigits := h.read_eq_overflow_iff.mpr ⟨hlarge, hrest, rfl⟩
    have hdotted := h.dotted_eq_overflow_iff.mpr ⟨_, rfl, hdigits⟩
    match before with
    | [] => exact .inl (by simpa using hdigits)
    | [first] =>
      obtain ⟨x, hfirst⟩ := h.read_dot_iff.mpr ⟨first, hbefore first (by simp), rfl⟩
      exact .inr ⟨x, _, by simpa using hfirst, .inl hdotted⟩
    | [first, second] =>
      obtain ⟨y, hsecond⟩ := h.read_dot_iff.mpr ⟨second, hbefore second (by simp), rfl⟩
      obtain ⟨x, hfirst⟩ := h.read_dot_iff.mpr ⟨first, hbefore first (by simp), rfl⟩
      exact .inr ⟨x, _, by simpa using hfirst, .inr ⟨y, _, h.dotted_dot hsecond, hdotted⟩⟩

/-- The same behind the lead: the numbers that are too large are those of the dialect. -/
theorem readThree_skip_eq_overflow_iff (h : d.Reads skip read dotted) :
    readThree read dotted (skip s) = .error (.overflow digits rest) ↔ d.TooLarge s digits rest := by
  rw [h.readThree_eq_overflow_iff]
  constructor
  · rintro ⟨before, hlength, hbefore, hlarge, hrest, hskip⟩
    obtain ⟨lead, hlead, hs⟩ := h.exists_lead s
    exact ⟨lead, before, hlead, hlength, hbefore, hlarge, hrest, by rw [← hskip, ← hs]⟩
  · rintro ⟨lead, before, hlead, hlength, hbefore, hlarge, hrest, rfl⟩
    refine ⟨before, hlength, hbefore, hlarge, hrest, ?_⟩
    -- behind the lead stands the first component, or else the digits
    cases before with
    | nil => simpa using h.skip_append hlead (.inr hlarge) rest
    | cons first more =>
      simpa using h.skip_append hlead (.inl (hbefore first (by simp)))
        ('.' :: (more.flatMap (· ++ ['.']) ++ (digits ++ rest)))

end Reads

/-! ### Readers of texts -/

/-- **When a reader fails as the dialect says.** It has to accept complete texts only, to report
every number that is too large and no other, and to be right about the place of everything else that
it does not expect. That it reports each error follows, since there is one error for a text. -/
theorem eq_error_iff {α : Type} {read : List Char → Except ParseError α}
    (hrequired : ∀ front rest, d.IsComplete front → d.HasRequired (front ++ rest))
    (hok : ∀ x, read s = .ok x → d.IsComplete s)
    (hlarge : ∀ digits rest, read s = .error (.overflow digits rest) ↔ d.TooLarge s digits rest)
    (hplace : ∀ rest, read s = .error (.unexpected rest) →
      (rest = s ∧ ¬d.HasRequired s) ∨ (rest ≠ [] ∧ d.LeftOver s rest)) :
    read s = .error e ↔ d.Fails s e := by
  have hsound : ∀ {e}, read s = .error e → d.Fails s e := by
    intro e h
    cases e with
    | overflow digits rest => exact .tooLarge ((hlarge digits rest).mp h)
    | unexpected rest =>
      have hfits : ∀ digits rest', ¬d.TooLarge s digits rest' := by
        intro digits rest' htoo
        rw [(hlarge digits rest').mpr htoo] at h
        cases h
      rcases hplace rest h with ⟨rfl, hmissing⟩ | ⟨hne, hleft⟩
      · exact .missing hfits hmissing
      · obtain ⟨front, hfront, hs⟩ := hleft.exists_front
        exact .leftOver hfits (hs ▸ hrequired front rest hfront) hne hleft
  refine ⟨hsound, fun h => ?_⟩
  cases h with
  | tooLarge htoo => exact (hlarge _ _).mpr htoo
  | missing hfits hmissing =>
    cases hread : read s with
    | ok x => exact absurd (by simpa using hrequired s [] (hok x hread)) hmissing
    | error e =>
      cases hsound hread with
      | tooLarge htoo => exact absurd htoo (hfits _ _)
      | missing => rfl
      | leftOver _ hpresent => exact absurd hpresent hmissing
  | leftOver hfits hpresent hne hleft =>
    cases hread : read s with
    | ok x =>
      have hnil := hleft.length_le (hok x hread) (List.append_nil s).symm
      exact absurd (List.length_eq_zero_iff.mp (Nat.le_zero.mp hnil)) hne
    | error e =>
      cases hsound hread with
      | tooLarge htoo => exact absurd htoo (hfits _ _)
      | missing _ hmissing => exact absurd hpresent hmissing
      | leftOver _ _ _ hleft' => rw [hleft'.unique hleft]

/-- A text read as a whole: three components behind the lead, and behind them as much as there is of
the rest of the notation. Where `left` is what this leaves over, nothing may be left. -/
def readText {α β : Type} (skip : List Char → List Char)
    (read dotted : List Char → Except Number.Failure (α × List Char))
    (left : List Char → List Char) (value : α × α × α → List Char → β) (s : List Char) :
    Except ParseError β :=
  match readThree read dotted (skip s) with
  | .error failure => .error (.ofFailure s failure)
  | .ok (components, rest) =>
    if (left rest).isEmpty then .ok (value components rest) else .error (.unexpected (left rest))

/-- **The errors of a reader of texts** are those of its dialect, if it is right about what is
missing and reads past every complete front of a text. -/
theorem Reads.readText_eq_error_iff {α β : Type} {skip left : List Char → List Char}
    {read dotted : List Char → Except Number.Failure (α × List Char)}
    {value : α × α × α → List Char → β} (h : d.Reads skip read dotted)
    (hrequired : ∀ front rest, d.IsComplete front → d.HasRequired (front ++ rest))
    (hmissing : readThree read dotted (skip s) = .error .missing → ¬d.HasRequired s)
    (hfront : ∀ components rest, readThree read dotted (skip s) = .ok (components, rest) →
      ∃ front, d.IsComplete front ∧ s = front ++ left rest)
    (hpast : ∀ front rest', d.IsComplete front → s = front ++ rest' → ∀ components rest,
      readThree read dotted (skip s) = .ok (components, rest) →
        (left rest).length ≤ rest'.length) :
    readText skip read dotted left value s = .error e ↔ d.Fails s e := by
  refine eq_error_iff hrequired (fun x hx => ?_) (fun digits rest => ?_) fun rest hrest => ?_
  · simp only [readText] at hx
    split at hx
    · cases hx
    next components rest hread =>
      split at hx
      next hnil =>
        obtain ⟨front, hcomplete, hs⟩ := hfront components rest hread
        rw [List.isEmpty_iff.mp hnil, List.append_nil] at hs
        rwa [hs]
      · cases hx
  · rw [← h.readThree_skip_eq_overflow_iff]
    cases hread : readThree read dotted (skip s) with
    | error failure => cases failure <;> simp [readText, hread, ParseError.ofFailure]
    | ok found =>
      simp only [readText, hread, reduceCtorEq, iff_false]
      split <;> simp
  · simp only [readText] at hrest
    split at hrest
    next failure hread =>
      cases failure with
      | missing =>
        obtain rfl : s = rest := by simpa [ParseError.ofFailure] using hrest
        exact .inl ⟨rfl, hmissing hread⟩
      | overflow digits after => simp [ParseError.ofFailure] at hrest
    next components after hread =>
      split at hrest
      · cases hrest
      next hne =>
        obtain rfl : left after = rest := by simpa using hrest
        refine .inr ⟨fun hnil => hne (List.isEmpty_iff.mpr hnil), hfront components after hread, ?_⟩
        intro front rest' hcomplete hs
        exact hpast front rest' hcomplete hs components after hread

end Dialect

end Semver
