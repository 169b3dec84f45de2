import Annals.Text.Digits
import Mathlib.Algebra.Group.Nat.Defs
import Mathlib.Data.List.Basic

namespace Annals.Text

/-- Digits that are worth a number. -/
structure Numeral (n : Nat) (digits : List Char) : Prop where
  nonempty : digits ≠ []
  all : ∀ c ∈ digits, c.isDigit = true
  value : valueOf 10 digits = n

/-- A text does not go on with a digit. -/
def Closed (rest : List Char) : Prop := ∀ c ∈ rest.head?, c.isDigit = false

theorem takeWhile_digits {digits rest : List Char}
    (h : ∀ c ∈ digits, c.isDigit = true) (hrest : Closed rest) :
    (digits ++ rest).takeWhile Char.isDigit = digits := by
  have hstop : rest.takeWhile Char.isDigit = [] := by
    cases rest with
    | nil => rfl
    | cons c rest => exact List.takeWhile_cons_of_neg (by simp [hrest c rfl])
  rw [List.takeWhile_append_of_pos h, hstop, List.append_nil]

theorem digitValue_eq {c : Char} (h : c.isDigit = true) :
    digitValue c = c.toNat - '0'.toNat :=
  if_pos h

theorem valueOf_eq {digits : List Char} (h : ∀ c ∈ digits, c.isDigit = true) :
    valueOf 10 digits = Nat.ofDigitChars 10 digits 0 := by
  unfold valueOf
  rw [Nat.ofDigitChars_eq_foldl]
  exact List.foldl_ext _ _ _ fun n c hc =>
    congrArg (10 * n + ·) (digitValue_eq (h c hc))

theorem isDigit_toDigits (n : Nat) :
    ∀ c ∈ Nat.toDigits 10 n, c.isDigit = true := by
  intro c hc
  exact Nat.isDigit_of_mem_toDigits (by decide) (by decide) hc

theorem valueOf_toDigits (n : Nat) : valueOf 10 (Nat.toDigits 10 n) = n := by
  rw [valueOf_eq (isDigit_toDigits n)]
  exact Nat.ofDigitChars_ten_toDigits

theorem numeral_toDigits (n : Nat) : Numeral n (Nat.toDigits 10 n) :=
  ⟨Nat.toDigits_ne_nil, isDigit_toDigits n, valueOf_toDigits n⟩

theorem toList_padded (width n : Nat) : (padded width n).toList =
    List.replicate (width - (Nat.toDigits 10 n).length) '0' ++ Nat.toDigits
      10 n := by
  unfold padded
  rw [Nat.toString_eq_ofList_toDigits]
  simp only [String.length_ofList, String.toList_append, String.toList_ofList]

theorem numeral_padded (width n : Nat) : Numeral n (padded width n).toList := by
  have hall : ∀ c ∈ (padded width n).toList, c.isDigit = true := by
    intro c hc
    rw [toList_padded] at hc
    rcases List.mem_append.mp hc with hc | hc
    · rw [List.eq_of_mem_replicate hc]
      decide
    · exact isDigit_toDigits n c hc
  constructor
  · rw [toList_padded]
    simp [Nat.toDigits_ne_nil]
  · exact hall
  · rw [valueOf_eq hall, toList_padded, Nat.ofDigitChars_append,
      Nat.ofDigitChars_replicate_zero, Nat.mul_zero,
      ← valueOf_eq (isDigit_toDigits n), valueOf_toDigits]

theorem length_padded {width n : Nat} (hwidth : 0 < width)
    (h : n < 10 ^ width) :
    (padded width n).toList.length = width := by
  have hle := (Nat.length_toDigits_le_iff (by decide) hwidth).mpr h
  rw [toList_padded, List.length_append, List.length_replicate]
  omega

end Annals.Text
