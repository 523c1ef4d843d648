/-
This file reads decimal numerals.

A numeral is a non-empty string of the digits from 0 to 9. It may have any
number of leading zeros and no sign.
-/

namespace Combinational.Text

/-- Whether the characters are a non-empty string of decimal digits. -/
def isNumeral (characters : List Char) : Bool :=
  !characters.isEmpty && characters.all Char.isDigit

/-- The number that a numeral denotes. -/
def numeral? (characters : List Char) : Option Nat :=
  if isNumeral characters then some (Nat.ofDigitChars 10 characters 0) else none

/-- The shortest numeral of a number is read back. -/
theorem numeral?_toDigits (number : Nat) : numeral? (Nat.toDigits 10 number) = some number := by
  have digits : (Nat.toDigits 10 number).all Char.isDigit = true := by
    rw [List.all_eq_true]
    intro digit member
    exact Nat.isDigit_of_mem_toDigits (by decide) (by decide) member
  have filled : (Nat.toDigits 10 number).isEmpty = false := by
    simp [Nat.toDigits_ne_nil]
  simp [numeral?, isNumeral, digits, filled, Nat.ofDigitChars_toDigits]

/-- A numeral holds nothing but digits. -/
theorem not_mem_toDigits {number : Nat} {character : Char} (other : character.isDigit = false) :
    character ∉ Nat.toDigits 10 number := by
  intro member
  rw [Nat.isDigit_of_mem_toDigits (by decide) (by decide) member] at other
  exact Bool.noConfusion other

end Combinational.Text
