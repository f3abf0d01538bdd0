import ManagedLayout.Format.Scalar
import ManagedLayout.Proofs.Json.Text
import ManagedLayout.Proofs.Text.Digits
import Mathlib.Data.List.Induction
import Mathlib.Data.Nat.Digits.Defs

/-!
# How versions are written

A version is written as one part, or as two parts with a point between them. A part is a number in
decimal digits, which may have zeros and one plus sign in front, and must fit 32 bits. Whatever is
written in this way is read as the version that it means, and nothing else is read at all. Of the
many ways to write a version the shortest one is its text.
-/

namespace ManagedLayout

namespace Version

/-- A part of a version as it is written. -/
@[ext]
structure WrittenPart where
  hasPlus : Bool
  digits : List Char
  nonempty : digits ≠ []
  areDigits : ∀ digit ∈ digits, digit.isDigit = true

namespace WrittenPart

variable {part other : WrittenPart}

def chars (part : WrittenPart) : List Char := (if part.hasPlus then ['+'] else []) ++ part.digits

/-- The number that the digits stand for, the last of which is worth least. -/
def value (part : WrittenPart) : Nat :=
  Nat.ofDigits 10 (part.digits.reverse.map fun digit ↦ digit.toNat - '0'.toNat)

/-- There is no sign, and no zero in front of another digit. -/
structure IsShortest (part : WrittenPart) : Prop where
  noPlus : part.hasPlus = false
  noZeros : part.digits.head? = some '0' → part.digits = ['0']

/-- The shortest way to write a number. -/
def ofNat (number : Nat) : WrittenPart where
  hasPlus := false
  digits := Nat.toDigits 10 number
  nonempty := Nat.toDigits_ne_nil
  areDigits _ := isDigit_of_mem_toDigits

theorem noPoint (part : WrittenPart) : ∀ char ∈ part.chars, (char != '.') = true := by
  intro char mem
  rw [bne_iff_ne]
  rintro rfl
  obtain sign | mem := List.mem_append.mp mem
  · split at sign <;> simp at sign
  · exact absurd (part.areDigits _ mem) (by decide)

/-- Digits do not start with a plus sign. -/
theorem digits_ne_plus (part : WrittenPart) (rest : List Char) : part.digits ≠ '+' :: rest := by
  intro same
  exact absurd (part.areDigits '+' (same ▸ List.mem_cons_self)) (by decide)

theorem chars_injective (same : part.chars = other.chars) : part = other := by
  unfold chars at same
  cases isPlus : part.hasPlus <;> cases isOtherPlus : other.hasPlus <;>
    simp only [isPlus, isOtherPlus, Bool.false_eq_true, ↓reduceIte, List.nil_append,
      List.singleton_append] at same
  · exact WrittenPart.ext (isPlus.trans isOtherPlus.symm) same
  · exact absurd same (part.digits_ne_plus _)
  · exact absurd same.symm (other.digits_ne_plus _)
  · exact WrittenPart.ext (isPlus.trans isOtherPlus.symm) (List.cons.inj same).2

theorem digitsValue_digits (part : WrittenPart) : digitsValue part.digits = part.value := by
  unfold value
  generalize part.digits = digits
  induction digits using List.reverseRecOn with
  | nil => rfl
  | append_singleton digits digit ih =>
    rw [digitsValue_concat, ih, List.reverse_concat, List.map_cons, Nat.ofDigits_cons, Nat.add_comm]

theorem value_ofNat (number : Nat) : (ofNat number).value = number := by
  rw [← digitsValue_digits]
  exact digitsValue_toDigits number

theorem isShortest_ofNat (number : Nat) : (ofNat number).IsShortest where
  noPlus := rfl
  noZeros := by
    intro isZero
    obtain ⟨rest, isRest⟩ := List.head?_eq_some_iff.mp isZero
    obtain rfl := eq_zero_of_toDigits_eq_cons isRest
    rfl

/-- There is one shortest way to write a number. -/
theorem IsShortest.eq_ofNat (shortest : part.IsShortest) : part = ofNat part.value := by
  refine WrittenPart.ext shortest.noPlus ?_
  rw [← digitsValue_digits]
  exact (toDigits_digitsValue part.nonempty part.areDigits shortest.noZeros).symm

end WrittenPart

/-- The characters behind a plus sign, if there is one. -/
def unsigned : List Char → List Char
  | '+' :: rest => rest
  | chars => chars

theorem partOfChars?_eq (chars : List Char) : partOfChars? chars =
    if (unsigned chars).isEmpty || !(unsigned chars).all Char.isDigit then none
    else if digitsValue (unsigned chars) < UInt32.size then
      some (UInt32.ofNat (digitsValue (unsigned chars)))
    else none := by
  unfold partOfChars?
  split
  next => rfl
  next noPlus =>
    have same : unsigned chars = chars := by
      unfold unsigned
      split
      next rest => exact absurd rfl (noPlus rest)
      next => rfl
    rw [same]

theorem unsigned_chars (part : WrittenPart) : unsigned part.chars = part.digits := by
  unfold unsigned WrittenPart.chars
  cases part.hasPlus with
  | true => rfl
  | false =>
    split
    next rest same => exact absurd same (part.digits_ne_plus rest)
    next => rfl

/-- A part is read as its value, if that fits 32 bits. -/
theorem partOfChars?_chars (part : WrittenPart) :
    partOfChars? part.chars =
      if part.value < UInt32.size then some (UInt32.ofNat part.value) else none := by
  have all : part.digits.all Char.isDigit = true := List.all_eq_true.mpr part.areDigits
  have notEmpty : part.digits.isEmpty = false := by simpa using part.nonempty
  rw [partOfChars?_eq, unsigned_chars, all, notEmpty, part.digitsValue_digits]
  rfl

/-- Whatever is read as a part is written as one. -/
theorem exists_chars_of_partOfChars? {chars : List Char} {value : UInt32}
    (read : partOfChars? chars = some value) : ∃ part : WrittenPart, part.chars = chars := by
  rw [partOfChars?_eq] at read
  split at read
  next => exact nomatch read
  next isNumber =>
    have isNumber : unsigned chars ≠ [] ∧ ∀ char ∈ unsigned chars, char.isDigit = true := by
      simpa using isNumber
    unfold unsigned at isNumber
    split at isNumber
    next rest _ => exact ⟨⟨true, rest, isNumber.1, isNumber.2⟩, rfl⟩
    next => exact ⟨⟨false, chars, isNumber.1, isNumber.2⟩, rfl⟩

/-- A part is read as a word exactly if it is written as a number of this value. -/
theorem partOfChars?_eq_some_iff {chars : List Char} {word : UInt32} :
    partOfChars? chars = some word ↔
      ∃ part : WrittenPart, part.chars = chars ∧ part.value = word.toNat := by
  constructor
  · intro read
    obtain ⟨part, rfl⟩ := exists_chars_of_partOfChars? read
    rw [partOfChars?_chars] at read
    split at read
    next fits =>
      obtain rfl := Option.some.inj read
      exact ⟨part, rfl, (Nat.mod_eq_of_lt fits).symm⟩
    next => exact nomatch read
  · rintro ⟨part, rfl, isValue⟩
    rw [partOfChars?_chars, isValue, if_pos word.toNat_lt, UInt32.ofNat_toNat]

/-- A version as it is written. -/
@[ext]
structure Written where
  major : WrittenPart
  minor? : Option WrittenPart

namespace Written

variable {written other : Written} {version : Version}

/-- The point and what is behind it. -/
def minorChars (written : Written) : List Char :=
  match written.minor? with
  | none => []
  | some minor => '.' :: minor.chars

def chars (written : Written) : List Char := written.major.chars ++ written.minorChars

/-- The text that is written. -/
def text (written : Written) : String := String.ofList written.chars

/-- The number behind the point, 0 if there is none. -/
def minorValue (written : Written) : Nat :=
  match written.minor? with
  | none => 0
  | some minor => minor.value

/-- The version that is written, whose numbers fit 32 bits. -/
structure Means (written : Written) (version : Version) : Prop where
  major : written.major.value = version.major.toNat
  minor : written.minorValue = version.minor.toNat

/-- Both parts are written in the shortest way, and there is a minor part only if it is not 0. -/
structure IsShortest (written : Written) : Prop where
  major : written.major.IsShortest
  minor : ∀ minor ∈ written.minor?, minor.IsShortest ∧ minor.value ≠ 0

theorem span_chars (written : Written) :
    written.chars.span (· != '.') = (written.major.chars, written.minorChars) := by
  rw [List.span_eq_takeWhile_dropWhile, chars,
    List.takeWhile_append_of_pos written.major.noPoint,
    List.dropWhile_append_of_pos written.major.noPoint, minorChars]
  cases written.minor? <;> simp

/-- The first point tells the parts from each other. -/
theorem text_injective (same : written.text = other.text) : written = other := by
  have sameSpan := congrArg (List.span (· != '.')) (String.ofList_injective same)
  rw [span_chars, span_chars, Prod.mk.injEq] at sameSpan
  obtain ⟨sameMajor, sameMinor⟩ := sameSpan
  refine Written.ext (WrittenPart.chars_injective sameMajor) ?_
  cases isMinor : written.minor? <;> cases isOther : other.minor? <;>
    simp only [minorChars, isMinor, isOther, List.cons.injEq, true_and, reduceCtorEq] at sameMinor
  · rfl
  · exact congrArg some (WrittenPart.chars_injective sameMinor)

/-- A version is written as it is read: the part up to the first point, and the part behind it. -/
theorem exists_of_ofText? {text : String} (read : ofText? text = some version) :
    ∃ written : Written, text = written.text ∧ written.Means version := by
  rw [ofText?, ofChars?, List.span_eq_takeWhile_dropWhile] at read
  have parts : text.toList.takeWhile (· != '.') ++ text.toList.dropWhile (· != '.') = text.toList :=
    List.takeWhile_append_dropWhile
  split at read
  next major split =>
    obtain ⟨rfl, noMore⟩ := Prod.mk.inj split
    obtain ⟨word, isMajor, rfl⟩ : ∃ word, partOfChars? _ = some word ∧ ⟨word, 0⟩ = version := by
      simpa [Option.bind_eq_some_iff] using read
    obtain ⟨part, isPart, isValue⟩ := partOfChars?_eq_some_iff.mp isMajor
    refine ⟨⟨part, none⟩, ?_, ⟨isValue, rfl⟩⟩
    change text = String.ofList (part.chars ++ [])
    rw [isPart, ← noMore, parts, String.ofList_toList]
  next major point minor split =>
    obtain ⟨rfl, rest⟩ := Prod.mk.inj split
    obtain ⟨word, isMajor, other, isMinor, rfl⟩ : ∃ word, partOfChars? _ = some word ∧
        ∃ other, partOfChars? minor = some other ∧ ⟨word, other⟩ = version := by
      simpa [Option.bind_eq_some_iff] using read
    obtain ⟨part, isPart, isValue⟩ := partOfChars?_eq_some_iff.mp isMajor
    obtain ⟨otherPart, rfl, isOtherValue⟩ := partOfChars?_eq_some_iff.mp isMinor
    have isPoint : point = '.' := by
      have stops := List.head?_dropWhile_not (· != '.') text.toList
      simpa [rest] using stops
    refine ⟨⟨part, some otherPart⟩, ?_, ⟨isValue, isOtherValue⟩⟩
    rw [isPoint] at rest
    change text = String.ofList (part.chars ++ '.' :: otherPart.chars)
    rw [isPart, ← rest, parts, String.ofList_toList]

/-- What is written is read as the version that it means. -/
theorem Means.ofText?_text (means : written.Means version) :
    ofText? written.text = some version := by
  have isMajor : partOfChars? written.major.chars = some version.major :=
    partOfChars?_eq_some_iff.mpr ⟨_, rfl, means.major⟩
  have isMinor := means.minor
  rw [ofText?, ofChars?, Written.text, String.toList_ofList, span_chars, minorChars]
  unfold minorValue at isMinor
  split at isMinor
  next =>
    have isZero : version.minor = 0 := UInt32.toNat_inj.mp isMinor.symm
    simp [isMajor, ← isZero]
  next minor _ =>
    have isMinor : partOfChars? minor.chars = some version.minor :=
      partOfChars?_eq_some_iff.mpr ⟨_, rfl, isMinor⟩
    simp [isMajor, isMinor]

end Written

/-- A text is read as a version exactly if it is one of the ways to write it. -/
theorem ofText?_eq_some_iff {text : String} {version : Version} :
    ofText? text = some version ↔
      ∃ written : Written, text = written.text ∧ written.Means version := by
  constructor
  · exact Written.exists_of_ofText?
  · rintro ⟨written, rfl, means⟩
    exact means.ofText?_text

theorem ofText?_eq_none_iff {text : String} :
    ofText? text = none ↔
      ¬ ∃ (written : Written) (version : Version),
        text = written.text ∧ written.Means version := by
  rw [exists_comm, Option.eq_none_iff_forall_ne_some, not_exists]
  exact forall_congr' fun version ↦ not_congr ofText?_eq_some_iff

/-- The shortest way to write a version. -/
def shortest (version : Version) : Written where
  major := .ofNat version.major.toNat
  minor? := if version.minor = 0 then none else some (.ofNat version.minor.toNat)

theorem text_eq_text_shortest (version : Version) : version.text = version.shortest.text := by
  apply String.toList_injective
  rw [Written.text, String.toList_ofList, text, Written.chars, Written.minorChars, shortest]
  split <;> simp [WrittenPart.chars, WrittenPart.ofNat]

theorem means_shortest (version : Version) : version.shortest.Means version where
  major := WrittenPart.value_ofNat _
  minor := by
    rw [Written.minorValue, shortest]
    by_cases isZero : version.minor = 0
    · simp [isZero]
    · simp [isZero, WrittenPart.value_ofNat]

/-- A version is read back from its text. -/
theorem ofText?_text (version : Version) : ofText? version.text = some version := by
  rw [text_eq_text_shortest]
  exact version.means_shortest.ofText?_text

theorem isShortest_shortest (version : Version) : version.shortest.IsShortest where
  major := WrittenPart.isShortest_ofNat _
  minor minor mem := by
    rw [shortest] at mem
    split at mem
    next => exact nomatch mem
    next notZero =>
      obtain rfl := Option.some.inj mem
      refine ⟨WrittenPart.isShortest_ofNat _, fun isZero ↦ notZero ?_⟩
      rw [WrittenPart.value_ofNat] at isZero
      exact UInt32.toNat_inj.mp isZero

namespace Written

variable {written : Written} {version : Version}

/-- There is one shortest way to write a version. -/
theorem IsShortest.eq_shortest (isShortest : written.IsShortest) (means : written.Means version) :
    written = version.shortest := by
  have isMajor : written.major = .ofNat version.major.toNat := by
    rw [← means.major]
    exact isShortest.major.eq_ofNat
  refine Written.ext isMajor ?_
  have isMinor := means.minor
  unfold minorValue at isMinor
  rw [shortest]
  split at isMinor
  next noMinor =>
    rw [noMinor, if_pos (UInt32.toNat_inj.mp isMinor.symm)]
  next minor hasMinor =>
    obtain ⟨minorShortest, notZero⟩ := isShortest.minor minor hasMinor
    have notZeroWord : version.minor ≠ 0 := by
      intro isZero
      rw [isMinor, isZero] at notZero
      exact notZero rfl
    rw [hasMinor, if_neg notZeroWord, ← isMinor]
    exact congrArg some minorShortest.eq_ofNat

/-- Of the ways to write a version, its text is the shortest. -/
theorem Means.text_eq_iff (means : written.Means version) :
    version.text = written.text ↔ written.IsShortest := by
  rw [text_eq_text_shortest]
  constructor
  · intro same
    rw [← text_injective same]
    exact isShortest_shortest version
  · intro isShortest
    rw [isShortest.eq_shortest means]

end Written

/-- Every text is read as the version that it is one of the ways to write, or refused by name. -/
theorem versionOfText_iff_written :
    (∀ (text : String) (version : Version), Format.versionOfText text = .ok version ↔
      ∃ written : Written, text = written.text ∧ written.Means version) ∧
    (∀ (text : String) (fault : Fault), Format.versionOfText text = .error fault ↔
      fault = .version text ∧
        ¬ ∃ (written : Written) (version : Version),
          text = written.text ∧ written.Means version) ∧
    (∀ version : Version, Format.versionOfText version.text = .ok version ∧
      Format.version.ofJson (Format.version.toJson version) = .ok version ∧
      (Json.ofText? (Format.version.toJson version).pretty).map Format.version.ofJson =
        some (.ok version)) ∧
    ∀ (written : Written) (version : Version), written.Means version →
      (version.text = written.text ↔ written.IsShortest) := by
  refine ⟨fun text version ↦ ?_, fun text fault ↦ ?_, fun version ↦ ?_,
    fun written version means ↦ means.text_eq_iff⟩
  · rw [← ofText?_eq_some_iff, Format.versionOfText]
    split <;> simp [*]
  · rw [← ofText?_eq_none_iff, Format.versionOfText]
    split <;> simp [*, eq_comm]
  · have read : Format.versionOfText version.text = .ok version := by
      rw [Format.versionOfText, ofText?_text]
    refine ⟨read, read, ?_⟩
    have isPlain : (Format.version.toJson version).IsPlain := .string _
    rw [Json.ofText?_pretty isPlain]
    exact congrArg some read

/-- The text `+024.50`. -/
def Written.padded : Written where
  major := ⟨true, ['0', '2', '4'], by decide, List.all_eq_true.mp rfl⟩
  minor? := some ⟨false, ['5', '0'], by decide, List.all_eq_true.mp rfl⟩

theorem padded_versionOfText_iff_written :
    Written.padded.Means ⟨24, 50⟩ ∧ Format.versionOfText "+024.50" = .ok ⟨24, 50⟩ ∧
      text ⟨24, 50⟩ ≠ "+024.50" := by
  have means : Written.padded.Means ⟨24, 50⟩ := ⟨by decide, by decide⟩
  have isText : "+024.50" = Written.padded.text := by decide
  obtain ⟨reads, -, -, isText_iff⟩ := versionOfText_iff_written
  refine ⟨means, (reads _ _).mpr ⟨_, isText, means⟩, fun same ↦ ?_⟩
  have isShortest := (isText_iff _ _ means).mp (same.trans isText)
  exact absurd isShortest.major.noPlus (by decide)

end Version

end ManagedLayout
