import FlowGraph.Json.Printer

/-!
# Text in TOML

TOML has four forms of quoting. A text is written in the plainest form that needs no escapes: on one
line between double or single quotes, else over several lines between three of them; only what fits
none of these is escaped.

* `Form`, `formOf` — the forms, and the one that is chosen.
* `quote` — a text in its form.
-/

namespace FlowGraph.Toml

/-! ### The choice of a form -/

/-- Whether a character can only be written by an escape. -/
def isControl (c : Char) : Bool :=
  c != '\t' && c != '\n' && (decide (c.toNat < 0x20) || c.toNat == 0x7F)

/-- The length of the longest run of a character, `run` of which came just before. -/
def longestRun (q : Char) (run : Nat) : List Char → Nat
  | [] => run
  | c :: cs => if c = q then longestRun q (run + 1) cs else max run (longestRun q 0 cs)

/-- The forms of quoting. -/
inductive Form
  /-- Double quotes, with escapes. -/
  | basic
  /-- Single quotes, without escapes. -/
  | literal
  /-- Three double quotes, with escapes, over several lines. -/
  | longBasic
  /-- Three single quotes, without escapes, over several lines. -/
  | longLiteral
  deriving DecidableEq

/-- The form in which a text is written. -/
def formOf (cs : List Char) : Form :=
  let control := cs.any isControl
  let lines := cs.contains '\n'
  let backslash := cs.contains '\\'
  if !control && !lines && !backslash && !cs.contains '"' then .basic
  else if !control && !lines && !cs.contains '\'' then .literal
  else if !control && !backslash && longestRun '"' 0 cs ≤ 2 then .longBasic
  else if !control && longestRun '\'' 0 cs ≤ 2 then .longLiteral
  else if lines then .longBasic
  else .basic

/-! ### Writing -/

/-- A character by its number. -/
def escapeNumber (c : Char) : List Char :=
  '\\' :: 'u' :: (Json.controlDigits c.toNat).map Char.toUpper

/-- A character between double quotes on one line. -/
def escapeBasic (c : Char) : List Char :=
  if c = '"' then ['\\', '"']
  else if c = '\\' then ['\\', '\\']
  else if c = '\n' then ['\\', 'n']
  else if c = '\r' then ['\\', 'r']
  else if c = '\t' then ['\\', 't']
  else if c = '\x08' then ['\\', 'b']
  else if c = '\x0c' then ['\\', 'f']
  else if isControl c then escapeNumber c
  else [c]

/-- Characters between three double quotes, so many quotes having come just before: line ends stand
for themselves, and of quotes every third is escaped. -/
def escapeLong (run : Nat) : List Char → List Char
  | [] => []
  | c :: cs =>
    if c = '\n' then c :: escapeLong 0 cs
    else if c = '"' then
      if run < 2 then c :: escapeLong (run + 1) cs else '\\' :: c :: escapeLong 0 cs
    else escapeBasic c ++ escapeLong 0 cs

/-- A line end before a text that holds line ends, so that the text starts on its own line. -/
def opening (cs : List Char) : List Char := if cs.contains '\n' then ['\n'] else []

/-- A text in its form. -/
def quote (s : String) : String :=
  let cs := s.toList
  let three (q : Char) : List Char := [q, q, q]
  String.ofList <|
    match formOf cs with
    | .basic => '"' :: cs.flatMap escapeBasic ++ ['"']
    | .literal => '\'' :: cs ++ ['\'']
    | .longBasic => three '"' ++ opening cs ++ escapeLong 0 cs ++ three '"'
    | .longLiteral => three '\'' ++ opening cs ++ cs ++ three '\''

example : formOf "plain".toList = .basic := by decide
example : formOf "a\"b".toList = .literal := by decide
example : formOf "a\nb".toList = .longBasic := by decide
example : formOf "a\nb\\".toList = .longLiteral := by decide

end FlowGraph.Toml
