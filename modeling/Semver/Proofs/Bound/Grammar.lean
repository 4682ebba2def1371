import Semver.Proofs.Bound.Denotation

/-!
# The grammar of bounds

The notation of a bound is a small grammar, written down here as relations between a text and what
follows a phrase at its front:

```text
bound      ::= 'v'? components ( '-' words )? ( '+' words )?
components ::= component ( '.' component ( '.' component )? )?
component  ::= 'x' | 'X' | '*' | digit+
words      ::= word ( '.' word )*
word       ::= ( letter | digit | '-' )+
```

The grammar alone does not say where a phrase ends, and since nothing has to separate one bound
from the next that matters: a component goes on as long as digits or wildcard marks do, and a word
as long as its own characters do. Both rules are part of the relations. What the grammar derives are
then the texts of well-formed shapes in front of what does not lengthen their last piece.

* `Semver.Grammar.Bound`: a bound stands at the front of a text.
* `Semver.Bound.Shape.EndsBefore`: a text does not lengthen the last piece of a shape.
* `Semver.Grammar.bound_iff`: the grammar derives the texts of shapes.
* `Semver.Bound.Shape.endsBefore_of_scan`: what is scanned ends before what follows it.
-/

namespace Semver

open Text (Stops stops_cons)
open Component (isText isTextChar)
open Identifier (IsWord isWordChar joinWords joinMarked)

variable {s t u rest : List Char}

/-! ### The relations -/

namespace Grammar

/-- **A component** at the front of a text: one wildcard mark or a run of digits, and then neither a
digit nor a wildcard mark. -/
inductive Component : List Char → List Char → Prop
  | mark {c : Char} {rest : List Char} (hc : c = 'x' ∨ c = 'X' ∨ c = '*')
      (hend : Stops isTextChar rest) : Component (c :: rest) rest
  | digits {run rest : List Char} (hne : run ≠ []) (hrun : ∀ c ∈ run, c.isDigit = true)
      (hend : Stops isTextChar rest) : Component (run ++ rest) rest

/-- One to three components with dots between them. -/
inductive Components : List Char → List Char → Prop
  | one {s rest : List Char} (hmajor : Component s rest) : Components s rest
  | two {s t rest : List Char} (hmajor : Component s ('.' :: t)) (hminor : Component t rest) :
      Components s rest
  | three {s t u rest : List Char} (hmajor : Component s ('.' :: t))
      (hminor : Component t ('.' :: u)) (hpatch : Component u rest) : Components s rest

/-- **A word** at the front of a text, and then no character that words consist of. -/
inductive Word : List Char → List Char → Prop
  | mk {w rest : List Char} (hword : IsWord w) (hend : Stops isWordChar rest) :
      Word (w ++ rest) rest

/-- One or more words with dots between them. -/
inductive Words : List Char → List Char → Prop
  | last {s rest : List Char} (hword : Word s rest) : Words s rest
  | more {s t rest : List Char} (hword : Word s ('.' :: t)) (hmore : Words t rest) : Words s rest

/-- A mark with words behind it, or nothing. -/
inductive Marked (mark : Char) : List Char → List Char → Prop
  | absent {rest : List Char} : Marked mark rest rest
  | present {s rest : List Char} (hwords : Words s rest) : Marked mark (mark :: s) rest

/-- **A bound** at the front of a text. -/
inductive Bound : List Char → List Char → Prop
  | plain {s t u rest : List Char} (hcomponents : Components s t) (hpre : Marked '-' t u)
      (hbuild : Marked '+' u rest) : Bound s rest
  | lead {s t u rest : List Char} (hcomponents : Components s t) (hpre : Marked '-' t u)
      (hbuild : Marked '+' u rest) : Bound ('v' :: s) rest

/-! ### Components and words -/

theorem component_iff : Component s rest ↔
    ∃ run, isText run = true ∧ Stops isTextChar rest ∧ s = run ++ rest := by
  constructor
  · rintro (⟨hc, hend⟩ | ⟨hne, hrun, hend⟩)
    · refine ⟨[_], ?_, hend, rfl⟩
      rcases hc with rfl | rfl | rfl <;> rfl
    · exact ⟨_, Component.isText_of_isDigit hne hrun, hend, rfl⟩
  · rintro ⟨run, hrun, hend, rfl⟩
    rcases Component.digits_or_mark_of_isText hrun with ⟨hne, hdigits⟩ | ⟨c, rfl, hmark, -⟩
    · exact .digits hne (fun c hc => (hdigits c hc).1) hend
    · exact .mark (by simpa [Component.isWildcardMark, or_assoc] using hmark) hend

theorem components_iff : Components s rest ↔
    ∃ major minor patch, isText major = true ∧ (∀ run ∈ minor, isText run = true) ∧
      (∀ run ∈ patch, isText run = true) ∧ (minor = none → patch = none) ∧
      Stops isTextChar rest ∧
      s = major ++ (minor.elim [] ('.' :: ·) ++ (patch.elim [] ('.' :: ·) ++ rest)) := by
  have hdotted : ∀ {run t}, isText run = true → Component (run ++ '.' :: t) ('.' :: t) :=
    fun hrun => component_iff.mpr ⟨_, hrun, stops_cons.mpr (by decide), rfl⟩
  constructor
  · intro h
    cases h with
    | one hmajor =>
      obtain ⟨major, hmajor', hend, rfl⟩ := component_iff.mp hmajor
      exact ⟨major, none, none, hmajor', by simp, by simp, by simp, hend, rfl⟩
    | two hmajor hminor =>
      obtain ⟨major, hmajor', -, rfl⟩ := component_iff.mp hmajor
      obtain ⟨minor, hminor', hend, rfl⟩ := component_iff.mp hminor
      exact ⟨major, some minor, none, hmajor', by simpa using hminor', by simp, by simp, hend, rfl⟩
    | three hmajor hminor hpatch =>
      obtain ⟨major, hmajor', -, rfl⟩ := component_iff.mp hmajor
      obtain ⟨minor, hminor', -, rfl⟩ := component_iff.mp hminor
      obtain ⟨patch, hpatch', hend, rfl⟩ := component_iff.mp hpatch
      exact ⟨major, some minor, some patch, hmajor', by simpa using hminor', by simpa using hpatch',
        by simp, hend, by simp⟩
  · rintro ⟨major, minor, patch, hmajor, hminor, hpatch, hnone, hend, rfl⟩
    cases minor with
    | none =>
      rw [hnone rfl]
      exact .one (component_iff.mpr ⟨major, hmajor, hend, rfl⟩)
    | some minor =>
      cases patch with
      | none => exact .two (hdotted hmajor) (component_iff.mpr ⟨minor, hminor minor rfl, hend, rfl⟩)
      | some patch =>
        exact .three (hdotted hmajor) (hdotted (hminor minor rfl))
          (component_iff.mpr ⟨patch, hpatch patch rfl, hend, rfl⟩)

theorem words_iff : Words s rest ↔ ∃ words, words ≠ [] ∧ (∀ w ∈ words, IsWord w) ∧
    Stops isWordChar rest ∧ s = joinWords words ++ rest := by
  constructor
  · intro h
    induction h with
    | last hword =>
      obtain ⟨hword, hend⟩ := hword
      exact ⟨[_], by simp, by simpa using hword, hend, by simp [joinWords]⟩
    | more hword _ ih =>
      obtain ⟨words, hne, hwords, hend, rfl⟩ := ih
      obtain ⟨hword, -⟩ := hword
      refine ⟨_ :: words, by simp, List.forall_mem_cons.mpr ⟨hword, hwords⟩, hend, ?_⟩
      simp [Identifier.joinWords_cons hne]
  · rintro ⟨words, hne, hwords, hend, rfl⟩
    induction words with
    | nil => exact absurd rfl hne
    | cons w words ih =>
      obtain ⟨hword, hwords⟩ := List.forall_mem_cons.mp hwords
      rcases eq_or_ne words [] with rfl | hne
      · simpa [joinWords] using Words.last (Word.mk hword hend)
      · have hdot : Stops isWordChar ('.' :: (joinWords words ++ rest)) :=
          stops_cons.mpr (by decide)
        simpa [Identifier.joinWords_cons hne] using Words.more (Word.mk hword hdot) (ih hne hwords)

theorem marked_iff {mark : Char} : Marked mark s rest ↔ ∃ words, (∀ w ∈ words, IsWord w) ∧
    (words ≠ [] → Stops isWordChar rest) ∧ s = joinMarked mark words ++ rest := by
  constructor
  · rintro (_ | hwords)
    · exact ⟨[], by simp, by simp, rfl⟩
    · obtain ⟨words, hne, hwords', hend, rfl⟩ := words_iff.mp hwords
      exact ⟨words, hwords', fun _ => hend, by rw [Identifier.joinMarked_of_ne_nil hne]; rfl⟩
  · rintro ⟨words, hwords, hend, rfl⟩
    rcases eq_or_ne words [] with rfl | hne
    · exact .absent
    · rw [Identifier.joinMarked_of_ne_nil hne]
      exact .present (words_iff.mpr ⟨words, hne, hwords, hend hne, rfl⟩)

end Grammar

/-! ### Bounds and shapes -/

namespace Bound.Shape

variable {x : Shape}

/-- **A shape ends before a text** that does not lengthen its last piece, be it a component or a
word. -/
structure EndsBefore (x : Shape) (rest : List Char) : Prop where
  component : x.pre = [] → x.build = [] → Stops isTextChar rest
  word : x.pre ≠ [] ∨ x.build ≠ [] → Stops isWordChar rest

/-- No shape is lengthened by the end of the text. -/
theorem endsBefore_nil (x : Shape) : x.EndsBefore [] :=
  ⟨fun _ _ => Text.stops_nil _, fun _ => Text.stops_nil _⟩

/-- The marks that announce a further piece of a shape. -/
def isMark (c : Char) : Bool :=
  c == '.' || c == '-' || c == '+'

theorem isMark_eq_false_of_isBlank {c : Char} (h : Text.isBlank c = true) : isMark c = false := by
  refine Bool.eq_false_iff.mpr fun hmark => ?_
  simp only [isMark, Bool.or_eq_true, beq_iff_eq] at hmark
  rcases hmark with (rfl | rfl) | rfl <;> exact absurd h (by decide)

/-- A text that neither lengthens the last piece nor announces a further one stops a shape. -/
theorem EndsBefore.stops (h : x.EndsBefore rest) (hmark : Stops isMark rest) :
    Stops x.continuedBy rest := by
  intro c hc
  have hmark' : isMark c = false := hmark c hc
  simp only [isMark] at hmark'
  simp only [continuedBy, hmark', Bool.false_or]
  split
  next hnone =>
    obtain ⟨hpre, hbuild⟩ := Bool.and_eq_true_iff.mp hnone
    exact h.component (List.isEmpty_iff.mp hpre) (List.isEmpty_iff.mp hbuild) c hc
  next hsome =>
    refine h.word ?_ c hc
    rw [← not_and_or]
    rintro ⟨hpre, hbuild⟩
    exact hsome (by rw [hpre, hbuild]; rfl)

/-- A shape ends before a longer text too, if it ends before the first part of it and, should that
be empty, no character of a shape comes next. -/
theorem EndsBefore.append (h : x.EndsBefore s) (ht : s = [] → Stops isShapeChar t) :
    x.EndsBefore (s ++ t) where
  component hpre hbuild := (h.component hpre hbuild).append fun hs =>
    (ht hs).mono fun _ => isShapeChar_of_isTextChar
  word hne := (h.word hne).append fun hs =>
    (ht hs).mono fun _ hc => by simp [isShapeChar, Identifier.isRowChar_of_isWordChar hc]

/-- **What is scanned ends before what follows it.** -/
theorem endsBefore_of_scan (h : scan s = some (x, rest)) : x.EndsBefore rest := by
  simp only [scan] at h
  split at h
  · cases h
  next major after hmajor =>
    obtain ⟨rfl, rfl⟩ := Prod.mk.inj (Option.some.inj h)
    have hcomponents : Stops isTextChar (Component.scanDotted (Component.scanDotted after).2).2 :=
      Component.stops_scanDotted (Component.stops_scanDotted (Component.stops_of_scan hmajor))
    obtain ⟨hcomponent, hword⟩ := Identifier.stops_readMarked_readMarked '-' '+' hcomponents
    exact ⟨hcomponent, hword⟩

end Bound.Shape

namespace Grammar

/-- The pieces of a bound, put together as a shape with or without a lead. -/
theorem exists_shape (hcomponents : Components s t) (hpre : Marked '-' t u)
    (hbuild : Marked '+' u rest) (lead : Bool) :
    ∃ x : Bound.Shape, x.WellFormed ∧ x.EndsBefore rest ∧
      (if lead then ['v'] else []) ++ s = x.text ++ rest := by
  obtain ⟨build, hbuild', hbuildEnd, rfl⟩ := marked_iff.mp hbuild
  obtain ⟨pre, hpre', hpreEnd, rfl⟩ := marked_iff.mp hpre
  obtain ⟨major, minor, patch, hmajor, hminor, hpatch, hnone, hend, rfl⟩ :=
    components_iff.mp hcomponents
  refine ⟨⟨lead, major, minor, patch, pre, build⟩,
    ⟨hmajor, hminor, hpatch, hnone, hpre', hbuild'⟩, ⟨?_, ?_⟩, by simp [Bound.Shape.text_eq]⟩
  · rintro rfl rfl
    exact hend
  · -- the last word is one of the build metadata, if there is any
    intro hne
    rcases eq_or_ne build [] with rfl | hbuildNe
    · exact hpreEnd (hne.resolve_right fun h => h rfl)
    · exact hbuildEnd hbuildNe

/-- **The grammar derives the texts of well-formed shapes** that end before what follows. -/
theorem bound_iff : Bound s rest ↔
    ∃ x : Bound.Shape, x.WellFormed ∧ x.EndsBefore rest ∧ s = x.text ++ rest := by
  constructor
  · rintro (⟨hcomponents, hpre, hbuild⟩ | ⟨hcomponents, hpre, hbuild⟩)
    · simpa using exists_shape hcomponents hpre hbuild false
    · simpa using exists_shape hcomponents hpre hbuild true
  · rintro ⟨x, hx, hend, rfl⟩
    have hbuild : Marked '+' (joinMarked '+' x.build ++ rest) rest :=
      marked_iff.mpr ⟨x.build, hx.build, fun h => hend.word (Or.inr h), rfl⟩
    have hpre : Marked '-' (x.suffix ++ rest) (joinMarked '+' x.build ++ rest) := by
      refine marked_iff.mpr ⟨x.pre, hx.pre, fun h => ?_, by simp [Bound.Shape.suffix]⟩
      exact Identifier.stops_joinMarked (by decide) fun _ => hend.word (Or.inl h)
    have hcomponents := components_iff.mpr ⟨x.major, x.minor, x.patch, hx.major, hx.minor, hx.patch,
      hx.patch_eq_none, Bound.Shape.stops_suffix (by decide) (by decide) hend.component, rfl⟩
    rw [Bound.Shape.text_eq]
    cases x.lead with
    | false => simpa [Bound.Shape.suffix] using Bound.plain hcomponents hpre hbuild
    | true => simpa [Bound.Shape.suffix] using Bound.lead hcomponents hpre hbuild

end Grammar

end Semver
