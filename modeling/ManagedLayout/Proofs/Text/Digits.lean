import ManagedLayout.Json.Number
import ManagedLayout.Version
import Mathlib.Data.List.Induction
import Mathlib.Data.List.TakeDrop
import Mathlib.Data.List.TakeWhile

/-!
# Numbers from decimal digits

Two readers take decimal digits: that of versions, and that of the numbers of a JSON text. Both know
the value of the digits of a number, and the JSON reader gives back an integer from its text.
-/

namespace ManagedLayout

theorem isDigit_of_mem_toDigits {number : Nat} {char : Char} (mem : char ∈ Nat.toDigits 10 number) :
    char.isDigit = true :=
  Nat.isDigit_of_mem_toDigits (by decide) (by decide) mem

theorem toDigits_ne_cons {number : Nat} {char : Char} {rest : List Char}
    (noDigit : char.isDigit = false) : Nat.toDigits 10 number ≠ char :: rest := by
  intro same
  have isDigit : char.isDigit = true := isDigit_of_mem_toDigits (same ▸ List.mem_cons_self)
  simp [noDigit] at isDigit

/-- Only zero itself is written with a zero in front. -/
theorem eq_zero_of_toDigits_eq_cons {number : Nat} {rest : List Char}
    (same : Nat.toDigits 10 number = '0' :: rest) : number = 0 := by
  induction number using Nat.strongRecOn generalizing rest with
  | ind number ih =>
    rw [Nat.toDigits_eq_if (by decide)] at same
    split at same
    next small =>
      have isZero : number.digitChar = '0' := List.head_eq_of_cons_eq same
      clear ih same
      decide +revert
    next large =>
      obtain ⟨none, -⟩ | ⟨_, same, -⟩ := List.append_eq_cons_iff.mp same
      · exact absurd none Nat.toDigits_ne_nil
      · have := ih (number / 10) (by omega) same
        omega

namespace Version

theorem digitsValue_toDigits (number : Nat) : digitsValue (Nat.toDigits 10 number) = number :=
  Nat.ofDigitChars_ten_toDigits

theorem digitsValue_concat (digits : List Char) (digit : Char) :
    digitsValue (digits ++ [digit]) = 10 * digitsValue digits + (digit.toNat - '0'.toNat) := by
  rw [digitsValue, List.foldl_append]
  rfl

/-- A digit is the only one of its value. -/
theorem toDigits_of_isDigit {digit : Char} (isDigit : digit.isDigit = true) :
    digit.toNat - '0'.toNat < 10 ∧ Nat.toDigits 10 (digit.toNat - '0'.toNat) = [digit] := by
  have isZero : '0'.toNat = 48 := rfl
  have bounds : 48 ≤ digit.toNat ∧ digit.toNat ≤ 57 := by
    simpa [Char.isDigit, UInt32.le_iff_toNat_le] using isDigit
  have small : digit.toNat - '0'.toNat < 10 := by omega
  have isChar : (digit.toNat - '0'.toNat).digitChar = digit := by
    rw [← Char.toNat_inj, Nat.toNat_digitChar_of_lt_ten small, isZero]
    omega
  exact ⟨small, by rw [Nat.toDigits_of_lt_base small, isChar]⟩

/-- Digits that do not start with a needless zero are those of their value. -/
theorem toDigits_digitsValue {digits : List Char} (nonempty : digits ≠ [])
    (areDigits : ∀ digit ∈ digits, digit.isDigit = true)
    (noZeros : digits.head? = some '0' → digits = ['0']) :
    Nat.toDigits 10 (digitsValue digits) = digits := by
  -- The last digit is the remainder of the value, so that the digits are taken off from behind.
  induction digits using List.reverseRecOn with
  | nil => exact absurd rfl nonempty
  | append_singleton front digit ih =>
    obtain ⟨small, isLast⟩ := toDigits_of_isDigit (areDigits digit (by simp))
    obtain rfl | frontNonempty := eq_or_ne front []
    · simpa [digitsValue] using isLast
    · have frontHead : front.head? ≠ some '0' := by
        intro isZero
        have whole := noZeros (by rw [List.head?_append, isZero]; rfl)
        obtain ⟨rest, rfl⟩ := List.head?_eq_some_iff.mp isZero
        simp at whole
      have isFront := ih frontNonempty (fun other mem ↦ areDigits other (by simp [mem]))
        fun isZero ↦ absurd isZero frontHead
      have positive : 0 < digitsValue front := by
        rw [Nat.pos_iff_ne_zero]
        intro isZero
        rw [isZero, Nat.toDigits_zero] at isFront
        exact frontHead (isFront ▸ rfl)
      calc
        Nat.toDigits 10 (digitsValue (front ++ [digit])) =
            Nat.toDigits 10 (10 * digitsValue front + (digit.toNat - '0'.toNat)) := by
          rw [digitsValue_concat]
        _ = Nat.toDigits 10 (digitsValue front) ++
            Nat.toDigits 10 (digit.toNat - '0'.toNat) :=
          (Nat.toDigits_append_toDigits (by decide) positive small).symm
        _ = front ++ [digit] := by rw [isFront, isLast]

end Version

namespace Json.Number

theorem digitsValue_digitsOf_toDigits (number : Nat) :
    digitsValue (digitsOf (Nat.toDigits 10 number)) = number := by
  rw [digitsValue, digitsOf, List.foldl_map]
  exact Nat.ofDigitChars_ten_toDigits

/-- The digits of a number are those of a JSON number: none is missing, and none in front is zero
unless it is the only one. -/
theorem isWhole_toDigits (number : Nat) :
    (!(Nat.toDigits 10 number).isEmpty && ((Nat.toDigits 10 number).length == 1 ||
      (Nat.toDigits 10 number).head? != some '0')) = true := by
  cases digits : Nat.toDigits 10 number with
  | nil => exact absurd digits Nat.toDigits_ne_nil
  | cons digit rest =>
    by_cases isZero : digit = '0'
    · subst isZero
      obtain rfl := eq_zero_of_toDigits_eq_cons digits
      obtain ⟨-, rfl⟩ := List.cons.inj digits
      rfl
    · simp [isZero]

/-- The digits of a number, with or without a minus sign, are read as an integer; but zero has no
minus sign. -/
theorem ofChars?_sign_toDigits (isNegative : Bool) (number : Nat)
    (noMinusZero : isNegative = true → number ≠ 0) :
    ofChars? ((if isNegative then ['-'] else []) ++ Nat.toDigits 10 number) =
      some (.integer (if isNegative then -number else number)) := by
  have isWhole := isWhole_toDigits number
  have isInteger : (isNegative && digitsOf (Nat.toDigits 10 number) == [0]) = false := by
    rw [Bool.and_eq_false_imp]
    intro negative
    rw [beq_eq_false_iff_ne]
    intro isZero
    have := digitsValue_digitsOf_toDigits number
    rw [isZero] at this
    exact noMinusZero negative this.symm
  unfold ofChars?
  split
  next found unsigned sign =>
  -- Digits alone start with no sign, so that only the sign written is taken off.
  obtain ⟨rfl, rfl⟩ : found = isNegative ∧ unsigned = Nat.toDigits 10 number := by
    cases isNegative with
    | true => simpa [eq_comm] using sign
    | false =>
      simp only [Bool.false_eq_true, ↓reduceIte, List.nil_append] at sign
      split at sign
      next same => exact absurd same (toDigits_ne_cons (by decide))
      next => simpa [eq_comm] using sign
  have digits : (Nat.toDigits 10 number).span Char.isDigit = (Nat.toDigits 10 number, []) := by
    rw [List.span_eq_takeWhile_dropWhile,
      List.takeWhile_eq_self_iff.mpr fun _ ↦ isDigit_of_mem_toDigits,
      List.dropWhile_eq_nil_iff.mpr fun _ ↦ isDigit_of_mem_toDigits]
  have noFraction : ((none : Option (List Char)) != some []) = true := rfl
  rw [digits]
  dsimp only
  rw [guard, if_pos isWhole, guard, if_pos noFraction]
  simp [exponentOfChars?, digitsValue_digitsOf_toDigits, isInteger]

theorem toList_text (value : Int) :
    (text (.integer value)).toList =
      (if value < 0 then ['-'] else []) ++ Nat.toDigits 10 value.natAbs := by
  cases value with
  | ofNat number => simp [text, Int.toString_eq_repr, Int.repr]
  | negSucc number => simp [text, Int.toString_eq_repr, Int.repr, Int.negSucc_lt_zero]

/-- An integer is read back from its text. -/
theorem ofChars?_text (value : Int) :
    ofChars? (text (.integer value)).toList = some (.integer value) := by
  have read := ofChars?_sign_toDigits (decide (value < 0)) value.natAbs
    (by simp only [decide_eq_true_eq]; omega)
  have same : (if value < 0 then -(value.natAbs : Int) else value.natAbs) = value := by
    split <;> omega
  simp only [decide_eq_true_eq, same] at read
  rw [toList_text, read]

end Json.Number

end ManagedLayout
