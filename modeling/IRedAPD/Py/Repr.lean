/-
  `repr` of a `str`.

  The text is quoted with `'`, or with `"` when it holds a `'` and no `"`.  The
  quote in use and the backslash are escaped, a tab, a newline and a carriage
  return have their letters, and every other character that is not printable is
  written by its code point in two, four or eight hexadecimal digits.
-/
import IRedAPD.Py.Str

namespace Py

variable [Unicode]

/-- A number in `w` hexadecimal digits. -/
def hexPad : ℕ → ℕ → Str
  | 0, _ => []
  | w + 1, n => hexPad w (n / 16) ++ [Nat.digitChar (n % 16)]

/-- A character in a text quoted by `q`. -/
def reprChar (q c : Char) : Str :=
  if c = q ∨ c = '\\' then ['\\', c]
  else if c = '\t' then ['\\', 't']
  else if c = '\n' then ['\\', 'n']
  else if c = '\r' then ['\\', 'r']
  else if Unicode.isPrintable c then [c]
  else if c.toNat ≤ 0xff then '\\' :: 'x' :: hexPad 2 c.toNat
  else if c.toNat ≤ 0xffff then '\\' :: 'u' :: hexPad 4 c.toNat
  else '\\' :: 'U' :: hexPad 8 c.toNat

/-- The quote `repr` uses. -/
def reprQuote (s : Str) : Char := if '\'' ∈ s ∧ '"' ∉ s then '"' else '\''

/-- `repr(s)` -/
def repr (s : Str) : Str := reprQuote s :: (s.flatMap (reprChar (reprQuote s)) ++ [reprQuote s])

end Py
