import FlowGraph.Text.Unprintable

/-!
# Quoted text

Diagnostics quote a text so that it can be read back: quotes and backslashes are escaped, the
common control characters have names, and all other characters that do not print are written by
number.

* `escape` — the escaped form of one character.
* `quoted` — a whole text between double quotes.
-/

namespace FlowGraph.Text

/-- The digits of a character's number in base 16, in lower case. -/
def hexDigits (n : Nat) : List Char := Nat.toDigits 16 n

/-- The form of a character inside quotes. -/
def escape (c : Char) : List Char :=
  if c = '"' then ['\\', '"']
  else if c = '\\' then ['\\', '\\']
  else if c = '\n' then ['\\', 'n']
  else if c = '\r' then ['\\', 'r']
  else if c = '\t' then ['\\', 't']
  else if c.toNat = 0 then ['\\', '0']
  else if unprintable.contains c then '\\' :: 'u' :: '\x7b' :: hexDigits c.toNat ++ ['\x7d']
  else [c]

/-- A text between double quotes, escaped. -/
def quoted (s : String) : String :=
  String.ofList ('"' :: s.toList.flatMap escape ++ ['"'])

end FlowGraph.Text
