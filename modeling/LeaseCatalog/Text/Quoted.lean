import LeaseCatalog.Text.Printing

/-!
# Quoted text in messages

A message that repeats a text it was given puts it between double quotes. Inside them the quote and
the backslash are preceded by a backslash, four controls have short names, and any other character
that does not print is written by its code point in hexadecimal, so the message stays on one line.
-/

namespace LeaseCatalog.Text

/-- The hexadecimal digits of a number, without leading zeros and in lower case. -/
def hexDigits (n : Nat) : List Char := Nat.toDigits 16 n

/-- One character inside a quoted text. -/
def quoteChar (c : Char) : List Char :=
  if c = '\x00' then ['\\', '0']
  else if c = '\t' then ['\\', 't']
  else if c = '\r' then ['\\', 'r']
  else if c = '\n' then ['\\', 'n']
  else if c = '\\' then ['\\', '\\']
  else if c = '"' then ['\\', '"']
  else if isPrinting c then [c]
  else ['\\', 'u', '\x7b'] ++ hexDigits c.toNat ++ ['\x7d']

/-- A text between double quotes, on one line. -/
def quoted (s : String) : String :=
  String.ofList ('"' :: s.toList.flatMap quoteChar ++ ['"'])

end LeaseCatalog.Text
