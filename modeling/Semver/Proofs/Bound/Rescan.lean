import Semver.Bound.Parser
import Semver.Proofs.Lexical

/-!
# Shapes, scanned again

A shape that was found in some text is found again in front of any other text, provided that text
does not go on where the shape left off. What that means depends on the last piece of the shape
alone: after a component no digit and no wildcard mark may follow, after an identifier no character
of a word, and in either case none of the three marks that announce a further piece. The pieces
themselves are all that the scan remembers, so a shape has an inner law
(`Semver.Bound.Shape.WellFormed`) that every scan establishes and that is enough to scan it again.

* `Semver.Bound.Shape.continuedBy`: the characters that may draw a shape out.
* `Semver.Bound.Shape.wellFormed_of_scan`: what is scanned is well-formed.
* `Semver.Bound.Shape.scan_text_append`: what is well-formed is scanned again.
-/

namespace Semver

open Text (Stops stops_nil stops_cons takeWhile_run dropWhile_run)

variable {s rest run : List Char}

/-! ### Components -/

namespace Component

variable {run? : Option (List Char)}

theorem isTextChar_of_isText (h : isText run = true) : ∀ c ∈ run, isTextChar c = true := by
  fun_cases isText run with
  | case1 => simp
  | case2 c => simpa [isText, isTextChar] using h
  | case3 run hnil hsingle =>
    rw [isText.eq_3 run hnil hsingle, List.all_eq_true] at h
    intro c hc
    simp [isTextChar, h c hc]

theorem ne_nil_of_isText (h : isText run = true) : run ≠ [] := by
  rintro rfl
  exact absurd h (by decide)

theorem isText_of_isDigit (hne : run ≠ []) (hrun : ∀ c ∈ run, c.isDigit = true) :
    isText run = true := by
  fun_cases isText run with
  | case1 => exact absurd rfl hne
  | case2 c => simp [hrun c (by simp)]
  | case3 run hnil hsingle => exact List.all_eq_true.mpr hrun

theorem isText_of_scan (h : scan s = some (run, rest)) : isText run = true := by
  simp only [scan] at h
  split at h
  next hrun =>
    obtain ⟨rfl, rfl⟩ := Prod.mk.inj (Option.some.inj h)
    exact hrun
  · cases h

/-- No digit and no wildcard mark follows a component that is scanned. -/
theorem stops_of_scan (h : scan s = some (run, rest)) : Stops isTextChar rest := by
  simp only [scan] at h
  split at h
  · obtain ⟨rfl, rfl⟩ := Prod.mk.inj (Option.some.inj h)
    exact Text.stops_dropWhile isTextChar s
  · cases h

theorem stops_scanDotted (hs : Stops isTextChar s) : Stops isTextChar (scanDotted s).2 := by
  fun_cases scanDotted s with
  | case1 s run rest h => exact stops_of_scan h
  | case2 s h => exact hs
  | case3 s h => exact hs

theorem scan_append (hrun : isText run = true) (hs : Stops isTextChar s) :
    scan (run ++ s) = some (run, s) := by
  have hchars := isTextChar_of_isText hrun
  simp only [scan, takeWhile_run hchars hs, dropWhile_run hchars hs, if_pos hrun]

theorem isText_of_mem_scanDotted (s : List Char) :
    ∀ run ∈ (scanDotted s).1, isText run = true := by
  fun_cases scanDotted s with
  | case1 s run rest h =>
    intro run' hrun
    obtain rfl : run = run' := by simpa using hrun
    exact isText_of_scan h
  | case2 s h => simp
  | case3 s h => simp

/-- Where no component follows a dot, nothing is used up. -/
theorem scanDotted_of_eq_none (h : (scanDotted s).1 = none) : scanDotted s = (none, s) := by
  fun_cases scanDotted s with
  | case1 s run rest hscan => simp [scanDotted, hscan] at h
  | case2 s hscan => rfl
  | case3 s hdot => rfl

theorem scanDotted_append (hrun : ∀ run ∈ run?, isText run = true)
    (hsome : run? ≠ none → Stops isTextChar s) (hnone : run? = none → Stops (· == '.') s) :
    scanDotted (run?.elim [] ('.' :: ·) ++ s) = (run?, s) := by
  cases run? with
  | none =>
    fun_cases scanDotted s with
    | case1 s run rest h => exact absurd (stops_cons.mp (hnone rfl)) (by decide)
    | case2 s h => exact absurd (stops_cons.mp (hnone rfl)) (by decide)
    | case3 s h => rfl
  | some run => simp [scanDotted, scan_append (hrun run rfl) (hsome (by simp))]

/-- A component after its dot, or else the text that follows, keeps a class away. -/
theorem stops_dotted {p : Char → Bool} (run? : Option (List Char)) (hdot : p '.' = false)
    (hs : run? = none → Stops p s) :
    Stops p (run?.elim [] ('.' :: ·) ++ s) := by
  cases run? with
  | none => exact hs rfl
  | some run => simpa using hdot

end Component

/-- Words behind their mark, or else the text that follows, keep a class away. -/
theorem Identifier.stops_joinMarked {p : Char → Bool} {mark : Char} {words : List (List Char)}
    (hmark : p mark = false) (hs : words = [] → Stops p s) :
    Stops p (joinMarked mark words ++ s) := by
  cases words with
  | nil => exact hs rfl
  | cons w ws => simpa [joinMarked] using hmark

/-! ### Shapes -/

namespace Bound.Shape

open Component (isText isTextChar)
open Identifier (IsWord isRowChar isWordChar joinMarked)

variable {x : Shape}

/-- **The inner law of a shape**: its components and words are such, and a third component comes
after a second one. -/
structure WellFormed (x : Shape) : Prop where
  major : isText x.major = true
  minor : ∀ run ∈ x.minor, isText run = true
  patch : ∀ run ∈ x.patch, isText run = true
  patch_eq_none : x.minor = none → x.patch = none
  pre : ∀ w ∈ x.pre, IsWord w
  build : ∀ w ∈ x.build, IsWord w

/-- **The characters that may draw a shape out** when they stand right behind it: the marks that
announce a further piece, and the characters of which its last piece consists. -/
def continuedBy (x : Shape) (c : Char) : Bool :=
  c == '.' || c == '-' || c == '+' ||
    if x.pre.isEmpty && x.build.isEmpty then isTextChar c else isWordChar c

/-- The part of the text of a shape that follows its components. -/
def suffix (x : Shape) : List Char :=
  joinMarked '-' x.pre ++ joinMarked '+' x.build

theorem wellFormed_of_scan (h : scan s = some (x, rest)) : x.WellFormed := by
  simp only [scan] at h
  split at h
  · cases h
  next major after hmajor =>
    obtain ⟨rfl, rfl⟩ := Prod.mk.inj (Option.some.inj h)
    refine ⟨Component.isText_of_scan hmajor, Component.isText_of_mem_scanDotted after,
      Component.isText_of_mem_scanDotted _, fun hnone => ?_,
      Identifier.isWord_of_mem_readMarked _ _, Identifier.isWord_of_mem_readMarked _ _⟩
    -- the search for a third component starts where the one for a second gave up
    have hsame := Component.scanDotted_of_eq_none hnone
    change (Component.scanDotted (Component.scanDotted after).2).1 = none
    rw [hsame]
    exact hnone

theorem continuedBy_dot (x : Shape) : x.continuedBy '.' = true := rfl

theorem continuedBy_of_isRowChar {c : Char} (hx : x.pre ≠ [] ∨ x.build ≠ [])
    (h : isRowChar c = true) : x.continuedBy c = true := by
  have hwords : (x.pre.isEmpty && x.build.isEmpty) = false := by
    rcases hx with hx | hx <;> simp [hx]
  rcases Bool.or_eq_true_iff.mp h with h | h <;> simp [continuedBy, hwords, h]

theorem continuedBy_of_isTextChar {c : Char} (hpre : x.pre = []) (hbuild : x.build = [])
    (h : isTextChar c = true) : x.continuedBy c = true := by
  simp [continuedBy, hpre, hbuild, h]

theorem stops_mark {mark : Char} (hmark : x.continuedBy mark = true) (hs : Stops x.continuedBy s) :
    Stops (· == mark) s := by
  refine hs.mono fun c hc => ?_
  obtain rfl : c = mark := by simpa using hc
  exact hmark

/-- Behind the components no class follows that neither the marks nor the text after the shape
belong to. -/
theorem stops_suffix {p : Char → Bool} (hpre : p '-' = false) (hbuild : p '+' = false)
    (hs : x.pre = [] → x.build = [] → Stops p s) : Stops p (x.suffix ++ s) := by
  rw [suffix, List.append_assoc]
  exact Identifier.stops_joinMarked hpre fun hp =>
    Identifier.stops_joinMarked hbuild fun hb => hs hp hb

theorem stops_isTextChar_suffix (hs : Stops x.continuedBy s) :
    Stops isTextChar (x.suffix ++ s) :=
  stops_suffix (by decide) (by decide) fun hp hb =>
    hs.mono fun _ => continuedBy_of_isTextChar hp hb

theorem stops_dot_suffix (hs : Stops x.continuedBy s) : Stops (· == '.') (x.suffix ++ s) :=
  stops_suffix (by decide) (by decide) fun _ _ => stops_mark x.continuedBy_dot hs

/-- The words of a shape are read again. -/
theorem readMarked_suffix (hx : x.WellFormed) (hs : Stops x.continuedBy s) :
    Identifier.readMarked '-' (x.suffix ++ s) = (x.pre, joinMarked '+' x.build ++ s) ∧
      Identifier.readMarked '+' (joinMarked '+' x.build ++ s) = (x.build, s) := by
  constructor
  · -- behind the first row of words comes the mark of the second one, or the end of the shape
    rw [suffix, List.append_assoc]
    refine Identifier.readMarked_joinMarked_append hx.pre (fun _ => ?_) fun hne => ?_
    · exact Identifier.stops_joinMarked (by decide) fun _ => stops_mark rfl hs
    · exact Identifier.stops_joinMarked (by decide) fun _ =>
        hs.mono fun _ => continuedBy_of_isRowChar (Or.inl hne)
  · exact Identifier.readMarked_joinMarked_append hx.build (fun _ => stops_mark rfl hs)
      fun hne => hs.mono fun _ => continuedBy_of_isRowChar (Or.inr hne)

/-- The first component keeps away every class that no digit and no wildcard mark belongs to. -/
theorem stops_major {p : Char → Bool} (hx : x.WellFormed)
    (hp : ∀ c, isTextChar c = true → p c = false) (s : List Char) : Stops p (x.major ++ s) := by
  obtain ⟨c, run, hrun⟩ := List.exists_cons_of_ne_nil (Component.ne_nil_of_isText hx.major)
  rw [hrun, List.cons_append, stops_cons]
  exact hp c (Component.isTextChar_of_isText hx.major c (by simp [hrun]))

theorem stops_lead (hx : x.WellFormed) (s : List Char) : Stops (· == 'v') (x.major ++ s) := by
  exact stops_major hx (fun _ => Text.beq_mark_eq_false (by decide)) s

/-- The text of a shape keeps such a class away too, if the `v` does not belong to it either. -/
theorem stops_text {p : Char → Bool} (hx : x.WellFormed) (hv : p 'v' = false)
    (hp : ∀ c, isTextChar c = true → p c = false) (s : List Char) : Stops p (x.text ++ s) := by
  rw [text_eq]
  by_cases hlead : x.lead = true
  · simpa [hlead] using hv
  · rw [if_neg hlead, List.nil_append, List.append_assoc]
    exact stops_major hx hp _

/-- The characters that shapes are written in. -/
def isShapeChar (c : Char) : Bool :=
  isRowChar c || c == '*' || c == '+'

theorem isShapeChar_of_isTextChar {c : Char} (h : isTextChar c = true) : isShapeChar c = true := by
  simp only [isTextChar, Component.isWildcardMark, Bool.or_eq_true, beq_iff_eq] at h
  rcases h with h | (rfl | rfl) | rfl
  · simp [isShapeChar, isRowChar, isWordChar, Char.isAlphanum, h]
  all_goals decide

/-- The characters of a shape are apart from blanks. -/
theorem isBlank_eq_false_of_isShapeChar {c : Char} (h : isShapeChar c = true) :
    Text.isBlank c = false := by
  simp only [isShapeChar, isRowChar, isWordChar, Bool.or_eq_true, beq_iff_eq] at h
  rcases h with (((h | rfl) | rfl) | rfl) | rfl
  · exact (Text.isVisible_of_isAlphanum h).isBlank_eq_false
  all_goals decide

theorem isShapeChar_of_mem_joinMarked {mark : Char} {words : List (List Char)}
    (hmark : isShapeChar mark = true) (hwords : ∀ w ∈ words, IsWord w) :
    ∀ c ∈ joinMarked mark words, isShapeChar c = true := by
  intro c hc
  cases words with
  | nil => exact absurd hc (by simp [joinMarked])
  | cons w ws =>
    rcases List.mem_cons.mp hc with rfl | hc
    · exact hmark
    · simp [isShapeChar, Identifier.isRowChar_of_mem_joinWords hwords c hc]

/-- A shape is written in its own characters. -/
theorem isShapeChar_of_mem_text (hx : x.WellFormed) : ∀ c ∈ x.text, isShapeChar c = true := by
  intro c hc
  simp only [text, List.mem_append] at hc
  rcases hc with ((hc | hc) | hc) | hc
  · obtain ⟨-, rfl⟩ : x.lead = true ∧ c = 'v' := by simpa using hc
    decide
  · rcases Text.mem_intercalate hc with hdot | ⟨run, hrun, hc⟩
    · obtain rfl : c = '.' := by simpa using hdot
      decide
    · refine isShapeChar_of_isTextChar (Component.isTextChar_of_isText ?_ c hc)
      simp only [components, List.mem_cons, List.mem_append, Option.mem_toList] at hrun
      rcases hrun with rfl | hrun | hrun
      · exact hx.major
      · exact hx.minor run hrun
      · exact hx.patch run hrun
  · exact isShapeChar_of_mem_joinMarked (by decide) hx.pre c hc
  · exact isShapeChar_of_mem_joinMarked (by decide) hx.build c hc

/-- There is nothing to trim from the text of a shape. -/
theorem trim_text (hx : x.WellFormed) : Text.trim x.text = x.text :=
  Text.trim_eq_self fun c hc => isBlank_eq_false_of_isShapeChar (isShapeChar_of_mem_text hx c hc)

theorem text_ne_nil (hx : x.WellFormed) : x.text ≠ [] := by
  simp [text_eq, Component.ne_nil_of_isText hx.major]

/-- The text of a shape, with the text after it, once its `v` is skipped. -/
theorem skipMark_text_append (hx : x.WellFormed) (s : List Char) :
    Text.skipMark 'v' (x.text ++ s) = x.major ++ (x.minor.elim [] ('.' :: ·) ++
      (x.patch.elim [] ('.' :: ·) ++ (x.suffix ++ s))) := by
  rw [text_eq, suffix]
  by_cases hlead : x.lead = true
  · simp [hlead]
  · simpa [hlead] using Text.skipMark_of_stops (stops_lead hx _)

/-- Whether the text of a shape starts with a `v`. -/
theorem head?_text_append (hx : x.WellFormed) (s : List Char) :
    ((x.text ++ s).head? == some 'v') = x.lead := by
  rw [text_eq]
  by_cases hlead : x.lead = true
  · simp [hlead]
  · rw [if_neg hlead, List.nil_append, List.append_assoc, Bool.eq_false_iff.mpr hlead]
    exact Text.head?_beq_of_stops (stops_lead hx _)

/-- The components of a shape are scanned again. -/
theorem scan_components (hx : x.WellFormed) (hs : Stops x.continuedBy s) :
    ∃ rest, Component.scan (Text.skipMark 'v' (x.text ++ s)) = some (x.major, rest) ∧
      ∃ rest', Component.scanDotted rest = (x.minor, rest') ∧
        Component.scanDotted rest' = (x.patch, x.suffix ++ s) := by
  have hdigit := stops_isTextChar_suffix hs
  have hdot := stops_dot_suffix hs
  have hafter : Stops isTextChar (x.patch.elim [] ('.' :: ·) ++ (x.suffix ++ s)) :=
    Component.stops_dotted x.patch (by decide) fun _ => hdigit
  have hminor := Component.stops_dotted x.minor (by decide) fun _ => hafter
  refine ⟨_, ?_, _, Component.scanDotted_append hx.minor (fun _ => hafter) fun hnone => ?_,
    Component.scanDotted_append hx.patch (fun _ => hdigit) fun _ => hdot⟩
  · rw [skipMark_text_append hx]
    exact Component.scan_append hx.major hminor
  · -- without a second component there is no third one whose dot could be taken for the second's
    rw [hx.patch_eq_none hnone]
    exact hdot

/-- **A well-formed shape is scanned again** in front of any text that does not draw it out. -/
theorem scan_text_append (hx : x.WellFormed) (hs : Stops x.continuedBy s) :
    scan (x.text ++ s) = some (x, s) := by
  obtain ⟨rest, hmajor, rest', hminor, hpatch⟩ := scan_components hx hs
  obtain ⟨hpre, hbuild⟩ := readMarked_suffix hx hs
  simp only [scan, hmajor, hminor, hpatch, hpre, hbuild, head?_text_append hx]

end Bound.Shape

end Semver
