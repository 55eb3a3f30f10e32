import FlowGraph.Decimal.Layout
import FlowGraph.Json.Basic

/-!
# Writing JSON

* `Json.render` — a value on one line, without blanks.
* `Json.pretty` — a value over several lines, each level indented by two spaces.
-/

namespace FlowGraph.Json

/-- The digits of a control character's number, padded to four. -/
def controlDigits (n : Nat) : List Char :=
  let ds := Nat.toDigits 16 n
  List.replicate (4 - ds.length) '0' ++ ds

/-- The form of a character inside quotes: only quotes, backslashes and control characters are
escaped. -/
def escapeChar (c : Char) : List Char :=
  if c = '"' then ['\\', '"']
  else if c = '\\' then ['\\', '\\']
  else if c = '\n' then ['\\', 'n']
  else if c = '\r' then ['\\', 'r']
  else if c = '\t' then ['\\', 't']
  else if c = '\x08' then ['\\', 'b']
  else if c = '\x0c' then ['\\', 'f']
  else if c.toNat < 0x20 then '\\' :: 'u' :: controlDigits c.toNat
  else [c]

/-- A text between quotes. -/
def quote (s : String) : String := String.ofList ('"' :: s.toList.flatMap escapeChar ++ ['"'])

/-- The text of a floating-point number; infinities and the missing number become null. -/
def floatText (x : Float) : String :=
  if x.isFinite then Decimal.floatText .json x else "null"

mutual

/-- A value on one line. -/
def render : Json → String
  | null => "null"
  | bool b => if b then "true" else "false"
  | int n => toString n
  | float x => floatText x
  | text s => quote s
  | array items => "[" ++ renderItems items ++ "]"
  | object members => "\x7b" ++ renderMembers members ++ "\x7d"
  | void => "null"

/-- Items between commas. -/
def renderItems : List Json → String
  | [] => ""
  | [j] => render j
  | j :: js => render j ++ "," ++ renderItems js

/-- Members between commas. -/
def renderMembers : List (String × Json) → String
  | [] => ""
  | [(name, j)] => quote name ++ ":" ++ render j
  | (name, j) :: ms => quote name ++ ":" ++ render j ++ "," ++ renderMembers ms

end

/-- A new line at a level of indentation. -/
def newLine (level : Nat) : String := String.ofList ('\n' :: List.replicate (2 * level) ' ')

mutual

/-- A value over several lines, started at a level of indentation. -/
def prettyAt (level : Nat) : Json → String
  | array (j :: js) => "[" ++ prettyItems (level + 1) (j :: js) ++ newLine level ++ "]"
  | object (m :: ms) => "\x7b" ++ prettyMembers (level + 1) (m :: ms) ++ newLine level ++ "\x7d"
  | array [] => "[]"
  | object [] => "\x7b\x7d"
  | null => "null"
  | bool b => if b then "true" else "false"
  | int n => toString n
  | float x => floatText x
  | text s => quote s
  | void => "null"

/-- Items, each on a line of its own. -/
def prettyItems (level : Nat) : List Json → String
  | [] => ""
  | [j] => newLine level ++ prettyAt level j
  | j :: js => newLine level ++ prettyAt level j ++ "," ++ prettyItems level js

/-- Members, each on a line of its own. -/
def prettyMembers (level : Nat) : List (String × Json) → String
  | [] => ""
  | [(name, j)] => newLine level ++ quote name ++ ": " ++ prettyAt level j
  | (name, j) :: ms =>
    newLine level ++ quote name ++ ": " ++ prettyAt level j ++ "," ++ prettyMembers level ms

end

/-- A value over several lines. -/
def pretty (j : Json) : String := prettyAt 0 j

end FlowGraph.Json
