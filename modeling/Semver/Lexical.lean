/-!
# Blanks, numbers and words

What the notation of versions is made of below the level of its marks. Blanks separate the parts of
a requirement and surround a version: they are the characters with the Unicode property
`White_Space`, a short and closed list that is written out here as ranges of code points. Numbers
are unsigned integers of 64 bits. They are written in decimal, with any number of leading zeros; a
value that does not fit is a failure of its own, which reports the digits as written and what
follows them. Words are what the identifiers of a pre-release and of build metadata look like as
text, though an identifier can be built from any string.

* `Semver.Text.skipBlanks`, `Semver.Text.trim` and `Semver.Text.skipMark`: what a reader passes
  over.
* `Semver.Number`: the integers, with the successor `Semver.Number.next` that stops at the largest.
* `Semver.Number.read`: the number at the front of a text.
* `Semver.Identifier`: one identifier, with the value `Semver.Identifier.number?` of a numeric one.
* `Semver.Identifier.readWords`: the words between dots at the front of a text.
-/

namespace Semver

/-! ### Blanks and optional marks -/

namespace Text

/-- The ranges of code points, both ends included, that have the property `White_Space`. -/
def blankRanges : List (Nat × Nat) :=
  [(0x9, 0xD), (0x20, 0x20), (0x85, 0x85), (0xA0, 0xA0), (0x1680, 0x1680), (0x2000, 0x200A),
    (0x2028, 0x2029), (0x202F, 0x202F), (0x205F, 0x205F), (0x3000, 0x3000)]

/-- A **blank** is a character of one of the listed ranges. -/
def isBlank (c : Char) : Bool :=
  blankRanges.any fun range => range.1 ≤ c.toNat && c.toNat ≤ range.2

/-- The text from its first character that is not blank. -/
def skipBlanks (s : List Char) : List Char :=
  s.dropWhile isBlank

/-- The text between its first and its last character that is not blank. -/
def trim (s : List Char) : List Char :=
  ((skipBlanks s).reverse.dropWhile isBlank).reverse

/-- The text without the given mark at its front, if it stands there. -/
def skipMark (mark : Char) : List Char → List Char
  | c :: s => if c = mark then s else c :: s
  | [] => []

theorem length_skipBlanks_le (s : List Char) : (skipBlanks s).length ≤ s.length :=
  (List.dropWhile_sublist isBlank).length_le

/-- Skipping blanks drops a run of blanks and nothing else. -/
theorem takeWhile_append_skipBlanks (s : List Char) : s.takeWhile isBlank ++ skipBlanks s = s :=
  List.takeWhile_append_dropWhile

/-- Skipping a mark drops at most that mark. -/
theorem mark_append_skipMark (mark : Char) (s : List Char) :
    (if s.head? == some mark then [mark] else []) ++ skipMark mark s = s := by
  cases s with
  | nil => simp [skipMark]
  | cons c s => by_cases h : c = mark <;> simp [skipMark, h]

theorem length_skipMark_le (mark : Char) (s : List Char) :
    (skipMark mark s).length ≤ s.length := by
  have h := congrArg List.length (mark_append_skipMark mark s)
  rw [List.length_append] at h
  omega

end Text

/-! ### Numbers -/

/-- A component of a version: an unsigned integer of 64 bits. -/
abbrev Number := UInt64

namespace Number

/-- The largest number. -/
def greatest : Number := 18446744073709551615

/-- The number with a given value, if there is one. -/
def ofNat? (n : Nat) : Option Number :=
  if h : n < UInt64.size then some (UInt64.ofNatLT n h) else none

/-- The number that a run of decimal digits denotes, if it fits. -/
def ofDigits? (digits : List Char) : Option Number :=
  ofNat? (Nat.ofDigitChars 10 digits 0)

/-- The decimal digits of a number, without leading zeros. -/
def digits (n : Number) : List Char :=
  Nat.toDigits 10 n.toNat

/-- The next number; the largest one is its own successor. -/
def next (n : Number) : Number :=
  if n = greatest then greatest else n + 1

/-- Why no number could be read at some place of a text. -/
inductive Failure where
  /-- There is no digit at this place. -/
  | missing
  /-- The digits at this place denote no number of 64 bits; `rest` is the text after them. -/
  | overflow (digits rest : List Char)
  deriving Repr, DecidableEq

/-- **The number at the front of a text**, with the text that follows it. The digits are all that
stand there: the text that follows starts with none. -/
def read (s : List Char) : Except Failure (Number × List Char) :=
  let run := s.takeWhile Char.isDigit
  let rest := s.dropWhile Char.isDigit
  if run.isEmpty then .error .missing
  else match ofDigits? run with
    | some n => .ok (n, rest)
    | none => .error (.overflow run rest)

theorem ofNat?_toNat (n : Number) : ofNat? n.toNat = some n := by
  have h : n.toNat < UInt64.size := n.toNat_lt
  simp [ofNat?, h]

/-- The digits of a number are read back as that number. -/
theorem ofDigits?_digits (n : Number) : ofDigits? n.digits = some n := by
  simp [ofDigits?, digits, ofNat?_toNat]

theorem isDigit_of_mem_digits {n : Number} {c : Char} (h : c ∈ n.digits) : c.isDigit = true :=
  Nat.isDigit_of_mem_toDigits (by decide) (by decide) h

end Number

/-! ### Identifiers -/

/-- One identifier of a pre-release or of build metadata. -/
structure Identifier where
  /-- The identifier as written. -/
  text : String
  deriving Repr, DecidableEq

namespace Identifier

/-- The identifier with the given characters. -/
def ofList (word : List Char) : Identifier :=
  ⟨String.ofList word⟩

/-- The characters that words consist of: ASCII letters and digits, and the hyphen. -/
def isWordChar (c : Char) : Bool :=
  c.isAlphanum || c == '-'

/-! ### The order of identifiers -/

/-- A text without the one plus sign that it may start with. -/
def unsigned : List Char → List Char
  | '+' :: s => s
  | s => s

/-- **The value of a numeric identifier**: its text is a run of ASCII digits, possibly after one
plus sign, whose value fits into 64 bits. Any other identifier has none. -/
def number? (x : Identifier) : Option Number :=
  let digits := unsigned x.text.toList
  if digits.isEmpty || !digits.all Char.isDigit then none else Number.ofDigits? digits

/-- Numeric identifiers compare by value and precede the others, which compare as texts. -/
instance : Ord Identifier where
  compare x y :=
    match x.number?, y.number? with
    | some m, some n => compare m n
    | some _, none => .lt
    | none, some _ => .gt
    | none, none => compare x.text y.text

/-! ### Reading and writing lists of identifiers -/

/-- **The words between dots at the front of a text**, with the text that follows them. Each word is
as long as it can be; a dot that no word follows is left, and without a first word all is left. -/
def readWords (s : List Char) : List (List Char) × List Char :=
  let word := s.takeWhile isWordChar
  if word.isEmpty then ([], s)
  else
    match _h : s.dropWhile isWordChar with
    | '.' :: rest =>
      match readWords rest with
      | ([], _) => ([word], '.' :: rest)
      | (words, rest) => (word :: words, rest)
    | rest => ([word], rest)
termination_by s.length
decreasing_by
  have hle := (List.dropWhile_sublist isWordChar (l := s)).length_le
  simp_all only [List.length_cons]
  omega

/-- The words between dots that stand after a given mark. Where the mark is absent, or no word
follows it, there are none, and nothing of the text is used up. -/
def readMarked (mark : Char) : List Char → List (List Char) × List Char
  | [] => ([], [])
  | c :: s =>
    if c = mark then
      match readWords s with
      | ([], _) => ([], c :: s)
      | found => found
    else ([], c :: s)

/-- The text of words between dots. -/
def joinWords (words : List (List Char)) : List Char :=
  List.intercalate ['.'] words

/-- The text of words between dots after a mark; without words there is no mark either. -/
def joinMarked (mark : Char) : List (List Char) → List Char
  | [] => []
  | words => mark :: joinWords words

/-- Reading words loses nothing of the text. -/
theorem joinWords_append_readWords (s : List Char) :
    joinWords (readWords s).1 ++ (readWords s).2 = s := by
  fun_induction readWords s with
  | case1 s word h => rfl
  | case2 s word h rest hrest rest' hwords ih =>
    have hs : word ++ '.' :: rest = s := hrest ▸ List.takeWhile_append_dropWhile
    simpa [joinWords] using hs
  | case3 s word h rest hrest words rest' hne hwords ih =>
    have hs : word ++ '.' :: rest = s := hrest ▸ List.takeWhile_append_dropWhile
    rw [hwords] at ih
    simp only [joinWords] at ih ⊢
    rw [List.intercalate_cons_of_ne_nil hne, List.append_assoc, List.append_assoc, ih,
      List.singleton_append, hs]
  | case4 s word h hne =>
    have hs : word ++ s.dropWhile isWordChar = s := List.takeWhile_append_dropWhile
    simpa [joinWords] using hs

/-- Reading words after a mark loses nothing of the text. -/
theorem joinMarked_append_readMarked (mark : Char) (s : List Char) :
    joinMarked mark (readMarked mark s).1 ++ (readMarked mark s).2 = s := by
  fun_cases readMarked mark s with
  | case1 => rfl
  | case2 s rest hwords => rfl
  | case3 s hne =>
    have hs := joinWords_append_readWords s
    cases hw : readWords s with
    | mk words rest =>
      cases words with
      | nil => exact absurd hw (hne rest)
      | cons word words =>
        rw [hw] at hs
        simpa [joinMarked] using hs
  | case4 c s h => rfl

/-- The characters of each identifier of a list. -/
def words (ids : List Identifier) : List (List Char) :=
  ids.map fun x => x.text.toList

end Identifier

end Semver
