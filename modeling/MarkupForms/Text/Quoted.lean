import MarkupForms.Text.Printable

/-!
# Quoted text

Messages quote text so that it can be read back unambiguously: a string between double quotes, a
character between single quotes. Inside, the enclosing quote and the backslash are written with a
backslash, tab, line feed, carriage return and NUL by their letters, and every other character that
cannot stand for itself by its code point in hexadecimal.
-/

namespace MarkupForms.Text

/-- The hexadecimal digit of `n < 16`, in lower case. -/
def hexDigit (n : Nat) : Char :=
  if n < 10 then Char.ofNat (48 + n) else Char.ofNat (87 + n)

/-- The hexadecimal digits of `n`, without leading zeros. -/
def hexDigits (n : Nat) : List Char :=
  if n < 16 then [hexDigit n]
  else hexDigits (n / 16) ++ [hexDigit (n % 16)]

/-- One character of a text that is enclosed in `quote`. -/
def quotedChar (quote c : Char) : List Char :=
  if c = quote || c = '\\' then ['\\', c]
  else if c = '\n' then ['\\', 'n']
  else if c = '\t' then ['\\', 't']
  else if c = '\r' then ['\\', 'r']
  else if c = Char.ofNat 0 then ['\\', '0']
  else if isPrintable c then [c]
  else ['\\', 'u', '\x7b'] ++ hexDigits c.toNat ++ ['\x7d']

/-- A text between double quotes. -/
def quoteText (s : String) : String :=
  String.ofList ('"' :: s.toList.flatMap (quotedChar '"') ++ ['"'])

/-- A character between single quotes. -/
def quoteChar (c : Char) : String :=
  String.ofList ('\'' :: quotedChar '\'' c ++ ['\''])

end MarkupForms.Text
