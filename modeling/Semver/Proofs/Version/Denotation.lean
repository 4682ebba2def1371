import Semver.Proofs.Bound.Denotation
import Semver.Proofs.Traversal
import Semver.Version.Parser

/-!
# Shapes read as versions

The reader of versions is a second reader of the notation of bounds. It takes a lead that no bound
has, and it does without the hyphen before a pre-release, but it asks for three numbers. On the text
of a shape none of its liberties comes to bear: there is one `v` to skip at most, and behind the
components stands a hyphen, a plus sign or nothing. What is left is that a component has to be
there, and be a number. So the text of a shape is read as a version exactly if the bound that the
shape denotes has three numbers, and then the version has these numbers and this pre-release.

* `Semver.Version.readNumbers_text_eq_ok_iff`: the three numbers are those of the bound.
* `Semver.Version.ofChars_text_eq_ok_iff`: the versions that are read from the text of a shape.
-/

namespace Semver

open Text (Stops stops_nil stops_cons)

variable {s rest run : List Char} {n : Number}

/-! ### Numbers where a component is expected -/

/-- Where the text of a component stands, a number is read if the component is one. -/
theorem Component.read_number_eq_ok_iff (hrun : isText run = true) (hs : Stops isTextChar s) :
    Number.read (run ++ s) = .ok (n, rest) ↔ ofText? run = some (.number n) ∧ s = rest := by
  rcases digits_or_mark_of_isText hrun with ⟨hne, hdigits⟩ | ⟨c, rfl, -, hdigit⟩
  · have hs' : Stops Char.isDigit s := hs.mono fun c hc => by simp [isTextChar, hc]
    have hall : run.all Char.isDigit = true := List.all_eq_true.mpr fun c hc => (hdigits c hc).1
    rw [Number.read_append hne (fun c hc => (hdigits c hc).1) hs', ofText?, if_pos hall]
    cases Number.ofDigits? run <;> simp
  · -- a wildcard mark is no digit
    simp [Number.read, ofText?, hdigit]

namespace Version

variable {v : Version} {x : Bound.Shape} {major minor patch : Number} {run? : Option (List Char)}

theorem readDotted_text_eq_ok_iff (hrun : ∀ run ∈ run?, Component.isText run = true)
    (hs : Stops Component.isTextChar s) (hnone : run? = none → Stops (· == '.') s) :
    readDotted (run?.elim [] ('.' :: ·) ++ s) = .ok (n, rest) ↔
      run?.elim (some .wildcard) Component.ofText? = some (.number n) ∧ s = rest := by
  cases run? with
  | none =>
    have hmissing : readDotted s = .error .missing := by
      fun_cases readDotted s with
      | case1 s => exact absurd (stops_cons.mp (hnone rfl)) (by decide)
      | case2 s hdot => rfl
    simp [hmissing]
  | some run => exact Component.read_number_eq_ok_iff (hrun run rfl) hs

theorem readNumbers_eq_ok_iff : readNumbers s = .ok ((major, minor, patch), rest) ↔
    ∃ r r', Number.read s = .ok (major, r) ∧ readDotted r = .ok (minor, r') ∧
      readDotted r' = .ok (patch, rest) := by
  simp only [readNumbers, Traversal.bind_eq_ok_iff, Prod.exists, pure, Except.pure,
    Except.ok.injEq, Prod.mk.injEq]
  constructor
  · rintro ⟨_, r, hmajor, _, r', hminor, _, _, hpatch, ⟨rfl, rfl, rfl⟩, rfl⟩
    exact ⟨r, r', hmajor, hminor, hpatch⟩
  · rintro ⟨r, r', hmajor, hminor, hpatch⟩
    exact ⟨major, r, hmajor, minor, r', hminor, patch, rest, hpatch, ⟨rfl, rfl, rfl⟩, rfl⟩

/-- **The three numbers of a shape** are read if its bound has them, and what follows its components
is left. -/
theorem readNumbers_text_eq_ok_iff (hx : x.WellFormed) :
    readNumbers (x.major ++ x.afterMajor) = .ok ((major, minor, patch), rest) ↔
      x.bound? = some ⟨.number major, .number minor, .number patch,
        .identifiers (x.pre.map .ofList)⟩ ∧ x.suffix = rest := by
  obtain ⟨hsuffix, hafterMinor, hafterMajor⟩ := Bound.Shape.stops_isTextChar_pieces x
  obtain ⟨hdot, hdot'⟩ := Bound.Shape.stops_dot_pieces hx
  have hminor : ∀ r, readDotted x.afterMajor = .ok (minor, r) ↔
      x.minor.elim (some .wildcard) Component.ofText? = some (.number minor) ∧ x.afterMinor = r :=
    fun _ => readDotted_text_eq_ok_iff hx.minor hafterMinor hdot'
  have hpatch : readDotted x.afterMinor = .ok (patch, rest) ↔
      x.patch.elim (some .wildcard) Component.ofText? = some (.number patch) ∧ x.suffix = rest :=
    readDotted_text_eq_ok_iff hx.patch hsuffix fun _ => hdot
  rw [readNumbers_eq_ok_iff, Bound.Shape.bound?_eq_some_iff]
  constructor
  · rintro ⟨r, r', hr, hr', hp⟩
    obtain ⟨hmajor, rfl⟩ := (Component.read_number_eq_ok_iff hx.major hafterMajor).mp hr
    obtain ⟨hn, rfl⟩ := (hminor r').mp hr'
    obtain ⟨hp, hrest⟩ := hpatch.mp hp
    exact ⟨⟨hmajor, hn, hp, rfl⟩, hrest⟩
  · rintro ⟨⟨hmajor, hn, hp, -⟩, hrest⟩
    exact ⟨_, _, (Component.read_number_eq_ok_iff hx.major hafterMajor).mpr ⟨hmajor, rfl⟩,
      (hminor _).mpr ⟨hn, rfl⟩, hpatch.mpr ⟨hp, hrest⟩⟩

/-! ### What stands before and behind the numbers -/

/-- Of the lead of a version the text of a shape has the `v` at most, and no blanks. -/
theorem skipLead_text (hx : x.WellFormed) : skipLead x.text = x.major ++ x.afterMajor := by
  have hequal : ∀ c, Component.isTextChar c = true → (c == '=') = false :=
    fun _ => Text.beq_mark_eq_false (by decide)
  have hblank : ∀ c, Component.isTextChar c = true → Text.isBlank c = false := fun c hc =>
    Bound.Shape.isBlank_eq_false_of_isShapeChar (Bound.Shape.isShapeChar_of_isTextChar hc)
  have htext : Stops (· == '=') x.text ∧ Stops Text.isBlank x.text := by
    have h := Bound.Shape.stops_text (p := (· == '=')) hx (by decide) hequal []
    have h' := Bound.Shape.stops_text hx (by decide) hblank []
    rw [List.append_nil] at h h'
    exact ⟨h, h'⟩
  have hmajor : Stops Text.isBlank (x.major ++ x.afterMajor) :=
    Bound.Shape.stops_major hx hblank _
  rw [skipLead, Text.skipMark_of_stops htext.1, Text.skipBlanks_of_stops htext.2,
    Bound.Shape.skipMark_text hx, Text.skipBlanks_of_stops hmajor]

/-- Where no letter and no digit stands, the hyphen before a pre-release is not left out. -/
theorem readPre_of_stops (hs : Stops Char.isAlphanum s) :
    readPre s = Identifier.readMarked '-' s := by
  fun_cases readPre s with
  | case1 s => rfl
  | case2 s hhyphen =>
    cases s with
    | nil =>
      rw [Identifier.readWords]
      rfl
    | cons c s =>
      have hc : c ≠ '-' := fun h => hhyphen s (by rw [h])
      have hword : Identifier.isWordChar c = false := by
        simp [Identifier.isWordChar, stops_cons.mp hs, hc]
      rw [Identifier.readWords]
      simp [Identifier.readMarked, hword, hc]

/-- The two rows of words of a shape are read as those of a version. -/
theorem readPre_suffix (hx : x.WellFormed) :
    readPre x.suffix = (x.pre, Identifier.joinMarked '+' x.build) ∧
      Identifier.readMarked '+' (Identifier.joinMarked '+' x.build) = (x.build, []) := by
  have hletter : Stops Char.isAlphanum x.suffix := by
    simpa using Bound.Shape.stops_suffix (x := x) (s := []) (p := Char.isAlphanum)
      (by decide) (by decide) fun _ _ => stops_nil _
  obtain ⟨hpre, hbuild⟩ := Bound.Shape.readMarked_suffix hx (stops_nil x.continuedBy)
  simp only [List.append_nil] at hpre hbuild
  rw [readPre_of_stops hletter]
  exact ⟨hpre, hbuild⟩

/-- **The text of a shape is read as a version** exactly if its bound has three numbers. These are
then those of the version, the pre-release is the same, and the build metadata of the shape, which
the bound has lost, is kept. -/
theorem ofChars_text_eq_ok_iff (hx : x.WellFormed) : ofChars x.text = .ok v ↔
    x.bound? = some (.ofVersion v) ∧ x.build.map .ofList = v.build := by
  obtain ⟨hpre, hbuild⟩ := readPre_suffix hx
  simp only [ofChars, skipLead_text hx]
  constructor
  · intro h
    split at h
    · cases h
    next major minor patch rest hread =>
      obtain ⟨hbound, rfl⟩ := (readNumbers_text_eq_ok_iff hx).mp hread
      simp only [hpre, hbuild, List.isEmpty_nil, if_true, Except.ok.injEq] at h
      subst h
      exact ⟨hbound, rfl⟩
  · rintro ⟨hbound, hmeta⟩
    have hids : x.pre.map .ofList = v.pre :=
      PrePattern.identifiers.inj (Bound.Shape.bound?_eq_some_iff.mp hbound).2.2.2
    have hread : readNumbers (x.major ++ x.afterMajor) =
        .ok ((v.major, v.minor, v.patch), x.suffix) := by
      rw [readNumbers_text_eq_ok_iff hx, hids]
      exact ⟨hbound, rfl⟩
    simp [hread, hpre, hbuild, hids, hmeta]

end Version

end Semver
