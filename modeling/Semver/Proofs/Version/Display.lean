import Mathlib
import Semver.Json.Codec
import Semver.Proofs.Bound.Position
import Semver.Proofs.Bound.Spelling
import Semver.Proofs.Version.Denotation

/-!
# The printed form of a version

The reader of versions is generous and the printer is not: there is one printed form for each
version, with no lead, no blanks, no leading zeros and every mark in its place. Whether it is read
back as the same version depends on the identifiers alone, for they may be any strings, and a dot or
a plus sign in one of them would be taken for a mark. If they are words, as those of a version that
was read from a text always are, then the printed form is the text of a shape
(`Semver.Version.shape`), and all that is known about such texts applies to it.

* `Semver.Version.IsPrintable`: the versions whose identifiers are words.
* `Semver.Version.shape`: the printed form of a version in its pieces.
* `Semver.Version.ofChars_chars`: the printed form of a printable version is read back.
* `Semver.Version.isPrintable_of_ofChars`: what is read from a text is printable.
* `Semver.Version.parse_toString_eq_self_iff`: the two directions together, with the JSON form.
* `Semver.Version.ofChars_iff_of_bound`: a bound and a version read from the same characters.
* `Semver.Version.readers_agree`: the two readers on any text and on a printed form.
-/

namespace Semver

theorem Number.digits_ne_nil (n : Number) : n.digits ≠ [] :=
  Nat.toDigits_ne_nil

/-- The digits of a number are the text of a component. -/
theorem Component.isText_digits (n : Number) : isText n.digits = true :=
  isText_of_isDigit n.digits_ne_nil fun _ => Number.isDigit_of_mem_digits

theorem Identifier.map_ofList_words (ids : List Identifier) : (words ids).map .ofList = ids := by
  simp only [words, List.map_map]
  exact List.map_id'' (fun x => by simp [Identifier.ofList]) ids

namespace Version

variable {v : Version} {s : List Char}

/-- **A printable version**: each of its identifiers is a word, that is to say, consists of letters,
digits and hyphens, of one at least. -/
def IsPrintable (v : Version) : Prop :=
  ∀ x ∈ v.pre ++ v.build, Identifier.IsWord x.text.toList

instance (v : Version) : Decidable v.IsPrintable :=
  inferInstanceAs (Decidable (∀ _ ∈ _, _))

/-! ### The pieces of a printed form -/

/-- **The printed form of a version in its pieces.** -/
def shape (v : Version) : Bound.Shape where
  lead := false
  major := v.major.digits
  minor := some v.minor.digits
  patch := some v.patch.digits
  pre := Identifier.words v.pre
  build := Identifier.words v.build

theorem toList_toString (v : Version) : (toString v).toList = v.chars :=
  String.toList_ofList

theorem text_shape (v : Version) : v.shape.text = v.chars := by
  simp [Bound.Shape.text_eq, shape, chars]

theorem wellFormed_shape (hv : v.IsPrintable) : v.shape.WellFormed where
  major := Component.isText_digits v.major
  minor := by simp [shape, Component.isText_digits]
  patch := by simp [shape, Component.isText_digits]
  patch_eq_none := by simp [shape]
  pre := List.forall_mem_map.mpr fun x hx => hv x (List.mem_append_left _ hx)
  build := List.forall_mem_map.mpr fun x hx => hv x (List.mem_append_right _ hx)

/-- The printed form of a version denotes the bound with its numbers and its pre-release. -/
theorem bound?_shape (v : Version) : v.shape.bound? = some (.ofVersion v) := by
  have hnumber : ∀ n : Number, Component.ofText? n.digits = some (.number n) := by
    intro n
    have hall : n.digits.all Char.isDigit = true :=
      List.all_eq_true.mpr fun c hc => Number.isDigit_of_mem_digits hc
    simp [Component.ofText?, hall, Number.ofDigits?_digits]
  simp [Bound.Shape.bound?, shape, Bound.ofVersion, hnumber, Identifier.map_ofList_words]

/-! ### Reading a printed form -/

/-- **The printed form of a printable version is read back.** -/
theorem ofChars_chars (hv : v.IsPrintable) : ofChars v.chars = .ok v := by
  rw [← text_shape, ofChars_text_eq_ok_iff (wellFormed_shape hv)]
  exact ⟨v.bound?_shape, Identifier.map_ofList_words v.build⟩

theorem trim_chars (hv : v.IsPrintable) : Text.trim v.chars = v.chars := by
  rw [← text_shape]
  exact Bound.Shape.trim_text (wellFormed_shape hv)

theorem parse_toString_of_isPrintable (hv : v.IsPrintable) : parse (toString v) = .ok v := by
  rw [parse, toList_toString, trim_chars hv, ofChars_chars hv]

/-! ### What is read is printable -/

theorem isWord_of_mem_readPre (s : List Char) : ∀ w ∈ (readPre s).1, Identifier.IsWord w := by
  fun_cases readPre s with
  | case1 s => exact Identifier.isWord_of_mem_readMarked '-' _
  | case2 s hhyphen => exact Identifier.isWord_of_mem_readWords s

/-- **What is read from a text is printable**, for the reader takes words and nothing else. -/
theorem isPrintable_of_ofChars (h : ofChars s = .ok v) : v.IsPrintable := by
  have hword : ∀ words : List (List Char), (∀ w ∈ words, Identifier.IsWord w) →
      ∀ x ∈ words.map Identifier.ofList, Identifier.IsWord x.text.toList := by
    intro words hwords
    simpa [Identifier.ofList] using hwords
  simp only [ofChars] at h
  split at h
  · cases h
  · split at h
    · cases h
      intro x hx
      rcases List.mem_append.mp hx with hx | hx
      · exact hword _ (isWord_of_mem_readPre _) x hx
      · exact hword _ (Identifier.isWord_of_mem_readMarked '+' _) x hx
    · cases h

theorem decode_eq_ok_iff {j : Json} :
    decode j = .ok v ↔ ∃ text, j = .str text ∧ parse text = .ok v := by
  cases j with
  | str text =>
    simp only [decode, Json.asString, bind, Except.bind, Json.str.injEq, exists_eq_left']
    cases parse text <;> simp [Except.mapError]
  | _ => simp [decode, Json.asString, bind, Except.bind]

/-- **The printed form of a version is read back as that version exactly if its identifiers are
words**, and so is its JSON form. The versions that are read from a text or decoded from a JSON
value are of this kind, so their printed form is a canonical one: it stands for the same three
numbers and the same identifiers. -/
theorem parse_toString_eq_self_iff (v : Version) :
    (parse (toString v) = .ok v ↔ v.IsPrintable) ∧
      (decode (encode v) = .ok v ↔ v.IsPrintable) ∧
      ((∃ text, parse text = .ok v) ∨ (∃ j, decode j = .ok v) →
        v.IsPrintable ∧ parse (toString v) = .ok v ∧ decode (encode v) = .ok v) := by
  have hprintable : ∀ text, parse text = .ok v → v.IsPrintable :=
    fun _ => isPrintable_of_ofChars
  have hparse : parse (toString v) = .ok v ↔ v.IsPrintable :=
    ⟨hprintable _, parse_toString_of_isPrintable⟩
  have hdecode : decode (encode v) = .ok v ↔ parse (toString v) = .ok v := by
    simp [decode_eq_ok_iff, encode]
  refine ⟨hparse, hdecode.trans hparse, fun hread => ?_⟩
  have hv : v.IsPrintable := by
    rcases hread with ⟨text, htext⟩ | ⟨j, hj⟩
    · exact hprintable text htext
    · obtain ⟨text, -, htext⟩ := decode_eq_ok_iff.mp hj
      exact hprintable text htext
  exact ⟨hv, hparse.mpr hv, hdecode.mpr (hparse.mpr hv)⟩

/-- A lead with blanks, leading zeros, no hyphen before the pre-release, and identifiers that start
with hyphens or are all digits. -/
theorem parse_toString_eq_self_iff_loose :
    ∃ v : Version, parse " = v 01.2.03beta.--.007+-1 " = .ok v ∧
      toString v = "1.2.3-beta.--.007+-1" ∧ v.IsPrintable ∧ parse (toString v) = .ok v ∧
      decode (encode v) = .ok v := by
  have hparse : parse " = v 01.2.03beta.--.007+-1 " =
      .ok ⟨1, 2, 3, [⟨"beta"⟩, ⟨"--"⟩, ⟨"007"⟩], [⟨"-1"⟩]⟩ := by cbv
  obtain ⟨-, -, hread⟩ :=
    parse_toString_eq_self_iff ⟨1, 2, 3, [⟨"beta"⟩, ⟨"--"⟩, ⟨"007"⟩], [⟨"-1"⟩]⟩
  exact ⟨_, hparse, by cbv, hread (Or.inl ⟨_, hparse⟩)⟩

end Version

/-! ### Two readers of one notation

A text can be read as a version or as a bound, and each of the readers takes texts that the other
one refuses. Only a version may have an equals sign or blanks in its lead, or no hyphen before its
pre-release; only a bound may have wildcards. A text that is read as a bound is the text of a shape,
though, and on such a text the reader of versions has nothing to be generous about. So where both
read a text they find the same numbers and the same pre-release, and a bound that keeps the version
from being read has a wildcard. Conversely every version that is read has a text that both read: its
printed form. -/

/-- A bound without wildcards and with identifiers is the bound of a version, which may have any
build metadata. -/
theorem Bound.exists_eq_ofVersion {b : Bound} {ids : PreRelease} (h : b.IsConcrete)
    (hpre : b.pre = .identifiers ids) (build : List Identifier) :
    ∃ v, b = ofVersion v ∧ v.build = build := by
  obtain ⟨major, minor, patch, pre⟩ := b
  obtain rfl : pre = .identifiers ids := hpre
  obtain ⟨hmajor, hminor, hpatch⟩ := h
  cases major with
  | wildcard => exact absurd rfl hmajor
  | number m =>
    cases minor with
    | wildcard => exact absurd rfl hminor
    | number n =>
      cases patch with
      | wildcard => exact absurd rfl hpatch
      | number p => exact ⟨⟨m, n, p, ids, build⟩, rfl, rfl⟩

theorem Bound.isConcrete_ofVersion (v : Version) : (ofVersion v).IsConcrete :=
  ⟨Component.noConfusion, Component.noConfusion, Component.noConfusion⟩

namespace Version

variable {s : List Char} {b : Bound} {v : Version}

/-- **Characters that are read as a bound** are read as a version exactly if the bound has no
wildcard, and then the bound is that of the version. -/
theorem ofChars_iff_of_bound (h : Bound.ofChars s = .ok b) :
    (b.IsConcrete ↔ ∃ v, ofChars s = .ok v) ∧ ∀ v, ofChars s = .ok v → b = .ofVersion v := by
  obtain ⟨x, hx, rfl, hb⟩ := Bound.ofChars_eq_ok_iff.mp h
  have hread : ∀ v, ofChars x.text = .ok v → b = .ofVersion v := by
    intro v hv
    obtain ⟨hbound, -⟩ := (ofChars_text_eq_ok_iff hx).mp hv
    exact Option.some.inj (hb.symm.trans hbound)
  refine ⟨⟨fun hconcrete => ?_, ?_⟩, hread⟩
  · have hpre := (Bound.Shape.bound?_eq_some_iff.mp hb).2.2.2
    obtain ⟨v, rfl, hbuild⟩ :=
      Bound.exists_eq_ofVersion hconcrete hpre.symm (x.build.map .ofList)
    exact ⟨v, (ofChars_text_eq_ok_iff hx).mpr ⟨hb, hbuild.symm⟩⟩
  · rintro ⟨v, hv⟩
    rw [hread v hv]
    exact Bound.isConcrete_ofVersion v

/-- The printed form of a printable version is read as its bound. -/
theorem boundParse_toString (hv : v.IsPrintable) :
    Bound.parse (toString v) = .ok (.ofVersion v) := by
  rw [Bound.parse, toList_toString, trim_chars hv, Bound.ofChars_eq_ok_iff]
  exact ⟨v.shape, wellFormed_shape hv, v.text_shape, v.bound?_shape⟩

/-- **The readers of versions and of bounds agree.** A text that is read as a bound is read as a
version too exactly if the bound has three numbers, and whatever version it is read as, the bound is
the bound of that version. A text that is read as a version gives a version whose printed form is
read as its bound. -/
theorem readers_agree (text : String) :
    (∀ b, Bound.parse text = .ok b →
        (b.IsConcrete ↔ ∃ v, parse text = .ok v) ∧ ∀ v, parse text = .ok v → b = .ofVersion v) ∧
      ∀ v, parse text = .ok v → Bound.parse (toString v) = .ok (.ofVersion v) := by
  -- both readers trim the text first, so they start from the same characters
  refine ⟨fun b hb => ofChars_iff_of_bound hb, fun v hv => ?_⟩
  exact boundParse_toString (isPrintable_of_ofChars hv)

/-- Blanks, a `v`, leading zeros and identifiers that start with hyphens: both readers take them. -/
theorem readers_agree_zeros :
    ∃ v, Bound.parse " v01.002.3--.x+1 " = .ok (.ofVersion v) ∧
      parse " v01.002.3--.x+1 " = .ok v ∧ toString v = "1.2.3--.x+1" ∧
      Bound.parse (toString v) = .ok (.ofVersion v) := by
  have hb : Bound.parse " v01.002.3--.x+1 " =
      .ok ⟨.number 1, .number 2, .number 3, .identifiers [⟨"-"⟩, ⟨"x"⟩]⟩ := by cbv
  obtain ⟨hread, hprint⟩ := readers_agree " v01.002.3--.x+1 "
  obtain ⟨hconcrete, hsame⟩ := hread _ hb
  obtain ⟨v, hv⟩ := hconcrete.mp (by decide)
  obtain rfl : v = ⟨1, 2, 3, [⟨"-"⟩, ⟨"x"⟩], [⟨"1"⟩]⟩ :=
    Except.ok.inj (hv.symm.trans (by cbv))
  exact ⟨_, hsame _ hv ▸ hb, hv, by cbv, hprint _ hv⟩

end Version

end Semver
