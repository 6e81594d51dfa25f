import Keel.Text.Printable

/-!
# Quoted text

A name in a report stands between double quotes. The quote, the backslash, line feed, carriage return, tab and NUL
have two-character escapes; any other character that is not visible on its own is written by its code point, as in
`\u{200b}`; all else stands for itself (`escape_of_plain`).
-/

namespace Keel.Text

/-- A character by its code point. -/
def codePoint (c : Char) : List Char := '\\' :: 'u' :: '\x7b' :: Nat.toDigits 16 c.toNat ++ ['\x7d']

/-- The text of one character inside quotes. -/
def escape (c : Char) : List Char :=
  if c = '"' then ['\\', '"']
  else if c = '\\' then ['\\', '\\']
  else if c = '\n' then ['\\', 'n']
  else if c = '\r' then ['\\', 'r']
  else if c = '\t' then ['\\', 't']
  else if c = '\x00' then ['\\', '0']
  else if standsAlone c then [c]
  else codePoint c

/-- A string in double quotes. -/
def quote (s : String) : String := String.ofList ('"' :: s.toList.flatMap escape ++ ['"'])

/-- A visible character other than the quote and the backslash stands for itself. -/
theorem escape_of_plain {c : Char} (hq : c ≠ '"') (hb : c ≠ '\\') (hc : standsAlone c = true) : escape c = [c] := by
  have hn : c ≠ '\n' := by rintro rfl; revert hc; decide
  have hr : c ≠ '\r' := by rintro rfl; revert hc; decide
  have ht : c ≠ '\t' := by rintro rfl; revert hc; decide
  have h0 : c ≠ '\x00' := by rintro rfl; revert hc; decide
  simp [escape, hq, hb, hn, hr, ht, h0, hc]

end Keel.Text
