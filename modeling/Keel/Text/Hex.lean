import Keel.Word

/-!
# Hexadecimal text

Words are written in base sixteen after `0x`: without leading zeros (`plain`), or filled to sixteen digits in lower
case (`wide`) or upper case (`wideUpper`). `length_wide` and `length_wideUpper` say that the filled forms have one
length for all words.
-/

namespace Keel.Text

/-- `s` filled with `c` on the left to `n` characters. -/
def padLeft (c : Char) (n : Nat) (s : List Char) : List Char := List.replicate (n - s.length) c ++ s

/-- `s` filled with blanks on the right to `n` characters. -/
def padRight (n : Nat) (s : String) : String := String.ofList (s.toList ++ List.replicate (n - s.length) ' ')

theorem length_padLeft {c : Char} {n : Nat} {s : List Char} (h : s.length ≤ n) : (padLeft c n s).length = n := by
  simp [padLeft]; omega

namespace Hex

/-- `0x` and the digits, lower case, no leading zeros. -/
def plain (n : Nat) : String := String.ofList ('0' :: 'x' :: Nat.toDigits 16 n)

/-- `0x` and sixteen digits, lower case. -/
def wide (n : Nat) : String := String.ofList ('0' :: 'x' :: padLeft '0' 16 (Nat.toDigits 16 n))

/-- `0x` and sixteen digits, upper case. -/
def wideUpper (n : Nat) : String :=
  String.ofList ('0' :: 'x' :: (padLeft '0' 16 (Nat.toDigits 16 n)).map Char.toUpper)

theorem length_digits {n : Nat} (h : n < 2 ^ 64) : (Nat.toDigits 16 n).length ≤ 16 :=
  (Nat.length_toDigits_le_iff (by decide) (by decide)).2 h

theorem length_wide {n : Nat} (h : n < 2 ^ 64) : (wide n).length = 18 := by
  rw [wide, String.length_ofList]; simp [length_padLeft (length_digits h)]

theorem length_wideUpper {n : Nat} (h : n < 2 ^ 64) : (wideUpper n).length = 18 := by
  rw [wideUpper, String.length_ofList]; simp [length_padLeft (length_digits h)]

end Hex

end Keel.Text
