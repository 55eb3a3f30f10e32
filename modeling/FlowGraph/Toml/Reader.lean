import FlowGraph.Json.Reader
import FlowGraph.Toml.Document

/-!
# Reading TOML

The reader takes a text apart from the left, as the one for JSON does, and shares its values: tables
become objects, arrays arrays, and a date becomes an object without members, because nothing that
settings ask for can be read from a date.

* `readNumber`, `readDate`, `readText` — the scalars.
* `readKey` — a key, dotted or not.
* `readValue` — a value and what follows it.
* `parse?` — the value of a whole document.
-/

namespace FlowGraph.Toml

/-! ### Lines -/

/-- The characters that may stand between tokens of a line. -/
def isBlank (c : Char) : Bool := c = ' ' || c = '\t'

/-- What follows leading blanks. -/
def skipBlanks (cs : List Char) : List Char := cs.dropWhile isBlank

/-- Characters that may be written as they are: none below the space but the tab, and not the
delete character. -/
def isPlain (c : Char) : Bool := c = '\t' || (decide (0x20 ≤ c.toNat) && c.toNat != 0x7F)

/-- What follows the end of a line; the end of the text ends a line, too. -/
def afterLine? : List Char → Option (List Char)
  | [] => some []
  | '\n' :: rest => some rest
  | '\r' :: '\n' :: rest => some rest
  | _ => none

/-- What follows a comment, if there is one. -/
def skipComment : List Char → List Char
  | '#' :: rest => rest.dropWhile isPlain
  | cs => cs

/-- What follows a line of which only blanks and a comment may be left. -/
def afterRest? (cs : List Char) : Option (List Char) := afterLine? (skipComment (skipBlanks cs))

/-- What follows blanks, line ends and comments. The truth value says whether a comment has begun
on the line. -/
def skipGaps : Bool → List Char → Option (List Char)
  | _, '\n' :: rest => skipGaps false rest
  | _, '\r' :: '\n' :: rest => skipGaps false rest
  | true, c :: rest => if isPlain c then skipGaps true rest else none
  | true, [] => none
  | false, '#' :: rest => skipGaps true rest
  | false, c :: rest => if isBlank c then skipGaps false rest else some (c :: rest)
  | false, [] => some []

/-! ### Text -/

/-- The character named by a single letter after a backslash. -/
def namedEscape? (c : Char) : Option Char :=
  if c = '"' then some '"'
  else if c = '\\' then some '\\'
  else if c = 'b' then some '\x08'
  else if c = 'f' then some '\x0c'
  else if c = 'n' then some '\n'
  else if c = 'r' then some '\r'
  else if c = 't' then some '\t'
  else none

/-- The character of a number, if the number is one of a character. -/
def character? (n : Nat) : Option Char :=
  if n < 0xD800 ∨ (0xDFFF < n ∧ n < 0x110000) then some (Char.ofNat n) else none

/-- The character written by digits in base 16. -/
def ofHex? (ds : List Char) : Option Char := do
  character? ((← ds.mapM Json.hexValue?).foldl (fun n d => 16 * n + d) 0)

/-- Read up to the closing double quote on the same line; `read` holds what was read, last first. -/
def readBasic (read : List Char) : List Char → Option (String × List Char)
  | '"' :: rest => some (String.ofList read.reverse, rest)
  | '\\' :: 'u' :: a :: b :: c :: d :: rest => do readBasic ((← ofHex? [a, b, c, d]) :: read) rest
  | '\\' :: 'U' :: a :: b :: c :: d :: e :: f :: g :: h :: rest => do
    readBasic ((← ofHex? [a, b, c, d, e, f, g, h]) :: read) rest
  | '\\' :: c :: rest => do readBasic ((← namedEscape? c) :: read) rest
  | c :: rest => if isPlain c && c != '\\' then readBasic (c :: read) rest else none
  | [] => none

/-- Read up to the closing single quote on the same line. -/
def readLiteral (read : List Char) : List Char → Option (String × List Char)
  | '\'' :: rest => some (String.ofList read.reverse, rest)
  | c :: rest => if isPlain c then readLiteral (c :: read) rest else none
  | [] => none

/-- Whether a line ends here, blanks aside. -/
def endsLine (cs : List Char) : Bool :=
  match skipBlanks cs with
  | '\n' :: _ => true
  | '\r' :: '\n' :: _ => true
  | _ => false

/-- Read up to three double quotes, over line ends; up to two more may stand before them. A
backslash at the end of a line joins it with the next text, which the truth value waits for. -/
def readLongBasic : Bool → List Char → List Char → Option (String × List Char)
  | true, read, ' ' :: rest => readLongBasic true read rest
  | true, read, '\t' :: rest => readLongBasic true read rest
  | true, read, '\n' :: rest => readLongBasic true read rest
  | true, read, '\r' :: '\n' :: rest => readLongBasic true read rest
  | _, read, '"' :: '"' :: '"' :: '"' :: '"' :: rest =>
    some (String.ofList ('"' :: '"' :: read).reverse, rest)
  | _, read, '"' :: '"' :: '"' :: '"' :: rest => some (String.ofList ('"' :: read).reverse, rest)
  | _, read, '"' :: '"' :: '"' :: rest => some (String.ofList read.reverse, rest)
  | _, read, '\\' :: 'u' :: a :: b :: c :: d :: rest => do
    readLongBasic false ((← ofHex? [a, b, c, d]) :: read) rest
  | _, read, '\\' :: 'U' :: a :: b :: c :: d :: e :: f :: g :: h :: rest => do
    readLongBasic false ((← ofHex? [a, b, c, d, e, f, g, h]) :: read) rest
  | _, read, '\\' :: c :: rest =>
    if endsLine (c :: rest) then readLongBasic true read (c :: rest)
    else do readLongBasic false ((← namedEscape? c) :: read) rest
  | _, read, '\n' :: rest => readLongBasic false ('\n' :: read) rest
  | _, read, '\r' :: '\n' :: rest => readLongBasic false ('\n' :: read) rest
  | _, read, c :: rest =>
    if isPlain c && c != '\\' then readLongBasic false (c :: read) rest else none
  | _, _, [] => none

/-- Read up to three single quotes, over line ends; up to two more may stand before them. -/
def readLongLiteral (read : List Char) : List Char → Option (String × List Char)
  | '\'' :: '\'' :: '\'' :: '\'' :: '\'' :: rest =>
    some (String.ofList ('\'' :: '\'' :: read).reverse, rest)
  | '\'' :: '\'' :: '\'' :: '\'' :: rest => some (String.ofList ('\'' :: read).reverse, rest)
  | '\'' :: '\'' :: '\'' :: rest => some (String.ofList read.reverse, rest)
  | '\n' :: rest => readLongLiteral ('\n' :: read) rest
  | '\r' :: '\n' :: rest => readLongLiteral ('\n' :: read) rest
  | c :: rest => if isPlain c then readLongLiteral (c :: read) rest else none
  | [] => none

/-- What follows a line end, if one comes first. -/
def skipLineEnd : List Char → List Char
  | '\n' :: rest => rest
  | '\r' :: '\n' :: rest => rest
  | cs => cs

/-- A text in any of its four forms. -/
def readText : List Char → Option (String × List Char)
  | '"' :: '"' :: '"' :: rest => readLongBasic false [] (skipLineEnd rest)
  | '"' :: rest => readBasic [] rest
  | '\'' :: '\'' :: '\'' :: rest => readLongLiteral [] (skipLineEnd rest)
  | '\'' :: rest => readLiteral [] rest
  | _ => none

/-! ### Dates -/

/-- The number of so many decimal digits. -/
def readPlaces : Nat → List Char → Option (Nat × List Char)
  | k, cs =>
    let ds := cs.take k
    if ds.length = k && ds.all Json.isDigit then some (Json.ofDigits ds, cs.drop k) else none

/-- Two digits within bounds. -/
def readTwo (low high : Nat) (cs : List Char) : Option (Nat × List Char) := do
  let (n, rest) ← readPlaces 2 cs
  if low ≤ n ∧ n ≤ high then some (n, rest) else none

/-- What follows a given character. -/
def after? (c : Char) : List Char → Option (List Char)
  | d :: rest => if c = d then some rest else none
  | [] => none

/-- The number of days of a month. -/
def daysOf (year month : Nat) : Nat :=
  if month = 2 then
    if year % 4 = 0 ∧ (year % 100 ≠ 0 ∨ year % 400 = 0) then 29 else 28
  else if month = 4 ∨ month = 6 ∨ month = 9 ∨ month = 11 then 30
  else 31

/-- What follows a day. -/
def readDay (cs : List Char) : Option (List Char) := do
  let (year, cs) ← readPlaces 4 cs
  let (month, cs) ← readTwo 1 12 (← after? '-' cs)
  let (_, cs) ← readTwo 1 (daysOf year month) (← after? '-' cs)
  return cs

/-- What follows a time of day. -/
def readTime (cs : List Char) : Option (List Char) := do
  let (_, cs) ← readTwo 0 23 cs
  let (_, cs) ← readTwo 0 59 (← after? ':' cs)
  let (_, cs) ← readTwo 0 60 (← after? ':' cs)
  match cs with
  | '.' :: d :: rest => if Json.isDigit d then some (rest.dropWhile Json.isDigit) else some cs
  | _ => some cs

/-- What follows a distance from universal time, if there is one. -/
def readOffset (cs : List Char) : Option (List Char) :=
  match cs with
  | 'Z' :: rest => some rest
  | 'z' :: rest => some rest
  | c :: rest =>
    if c = '+' ∨ c = '-' then do
      let (_, rest) ← readTwo 0 23 rest
      let (_, rest) ← readTwo 0 59 (← after? ':' rest)
      return rest
    else some cs
  | [] => some cs

/-- What follows a date: a day, a time of day, or both, then perhaps with an offset. -/
def readDate (cs : List Char) : Option (List Char) :=
  match readDay cs with
  | none => readTime cs
  | some (c :: rest) =>
    if c = 'T' ∨ c = 't' ∨ c = ' ' then
      match readTime rest with
      | some rest => readOffset rest
      | none => some (c :: rest)
    else some (c :: rest)
  | some [] => some []

/-! ### Numbers -/

/-- Digits of a kind, single underscores between them being left out. -/
def moreDigits (isDigit : Char → Bool) : List Char → Option (List Char × List Char)
  | '_' :: c :: rest =>
    if isDigit c then (moreDigits isDigit rest).map fun (ds, r) => (c :: ds, r) else none
  | c :: rest =>
    if isDigit c then (moreDigits isDigit rest).map fun (ds, r) => (c :: ds, r)
    else if c = '_' then none
    else some ([], c :: rest)
  | [] => some ([], [])

/-- At least one digit of a kind. -/
def readDigits (isDigit : Char → Bool) : List Char → Option (List Char × List Char)
  | c :: rest =>
    if isDigit c then (moreDigits isDigit rest).map fun (ds, r) => (c :: ds, r) else none
  | [] => none

/-- The digits before a point; a zero stands alone. -/
def readWhole : List Char → Option (List Char × List Char)
  | '0' :: rest => some (['0'], rest)
  | cs => readDigits Json.isDigit cs

/-- A signed 64-bit integer as a value. -/
def intValue? (negative : Bool) (n : Nat) : Option Json :=
  if negative then if n ≤ 2 ^ 63 then some (.int (-n)) else none
  else if n < 2 ^ 63 then some (.int n) else none

/-- An integer in another base than ten. -/
def readBased (base : Nat) (cs : List Char) : Option (Json × List Char) := do
  let isDigit (c : Char) : Bool :=
    match Json.hexValue? c with
    | some d => decide (d < base)
    | none => false
  let (ds, rest) ← readDigits isDigit cs
  let n := ds.foldl (fun n c => base * n + (Json.hexValue? c).getD 0) 0
  return (← intValue? false n, rest)

/-- The floating-point number nearest to `digits · 10 ^ exponent`; nothing if that is infinite and
has no sign to say so. -/
def floatValue? (negative : Bool) (digits : List Char) (exponent : Int) : Option Json :=
  let x := Decimal.floatOfDecimal (Json.ofDigits digits) exponent
  if negative then some (.float (-x)) else if x.isInf then none else some (.float x)

/-- The exponent, if there is one. -/
def readExponent (cs : List Char) : Option (Option Int × List Char) :=
  match cs with
  | c :: rest =>
    if c = 'e' ∨ c = 'E' then do
      let (negative, rest) :=
        match rest with
        | '+' :: r => (false, r)
        | '-' :: r => (true, r)
        | r => (false, r)
      let (ds, rest) ← readDigits Json.isDigit rest
      let n : Int := Json.ofDigits ds
      return (some (if negative then -n else n), rest)
    else some (none, cs)
  | [] => some (none, cs)

/-- A number in base ten behind its sign. -/
def readDecimal (negative : Bool) (cs : List Char) : Option (Json × List Char) := do
  let (whole, rest) ← readWhole cs
  match rest with
  | '.' :: rest =>
    let (fraction, rest) ← readDigits Json.isDigit rest
    let (exponent, rest) ← readExponent rest
    return (← floatValue? negative (whole ++ fraction) (exponent.getD 0 - fraction.length), rest)
  | rest =>
    let (exponent, rest) ← readExponent rest
    match exponent with
    | some e => return (← floatValue? negative whole e, rest)
    | none => return (← intValue? negative (Json.ofDigits whole), rest)

/-- A number behind its sign: infinite, none at all, or in base ten. -/
def readUnsigned (negative : Bool) : List Char → Option (Json × List Char)
  | 'i' :: 'n' :: 'f' :: rest =>
    let x : Float := 1.0 / 0.0
    some (.float (if negative then -x else x), rest)
  | 'n' :: 'a' :: 'n' :: rest => some (.float (0.0 / 0.0), rest)
  | cs => readDecimal negative cs

/-- A number. -/
def readNumber : List Char → Option (Json × List Char)
  | '0' :: 'x' :: rest => readBased 16 rest
  | '0' :: 'o' :: rest => readBased 8 rest
  | '0' :: 'b' :: rest => readBased 2 rest
  | '+' :: rest => readUnsigned false rest
  | '-' :: rest => readUnsigned true rest
  | cs => readUnsigned false cs

/-! ### Keys -/

/-- The characters of keys without quotes. -/
def isKeyChar (c : Char) : Bool := c.isAlphanum || c = '_' || c = '-'

/-- A key without dots. -/
def readSimpleKey : List Char → Option (String × List Char)
  | '"' :: rest => readBasic [] rest
  | '\'' :: rest => readLiteral [] rest
  | cs =>
    match cs.takeWhile isKeyChar with
    | [] => none
    | name => some (String.ofList name, cs.dropWhile isKeyChar)

/-- Keys between dots, after blanks. -/
def readPath : Nat → List Char → Option (List String × List Char)
  | 0, _ => none
  | fuel + 1, cs => do
    let (name, rest) ← readSimpleKey (skipBlanks cs)
    match skipBlanks rest with
    | '.' :: rest =>
      let (names, rest) ← readPath fuel rest
      return (name :: names, rest)
    | rest => return ([name], rest)

/-- The most levels that arrays and inline tables may be nested, and the most parts of a key. -/
def maxDepth : Nat := 79

/-- A key, dotted or not. -/
def readKey (cs : List Char) : Option (Key × List Char) := do
  let (names, rest) ← readPath maxDepth cs
  let name ← names.getLast?
  return (⟨names.dropLast, name⟩, rest)

/-! ### Values -/

mutual

/-- A value and what follows it, arrays and inline tables being allowed on so many levels more. -/
def readValue : Nat → Nat → List Char → Option (Json × List Char)
  | 0, _, _ => none
  | fuel + 1, levels, cs =>
    match cs with
    | '[' :: rest => if levels = 0 then none else readItems fuel (levels - 1) [] rest
    | '\x7b' :: rest =>
      if levels = 0 then none
      else
        match skipBlanks rest with
        | '\x7d' :: rest => some (.object [], rest)
        | rest => readPairs fuel (levels - 1) [] rest
    | 't' :: 'r' :: 'u' :: 'e' :: rest => some (.bool true, rest)
    | 'f' :: 'a' :: 'l' :: 's' :: 'e' :: rest => some (.bool false, rest)
    | '"' :: _ => (readText cs).map fun (s, r) => (.text s, r)
    | '\'' :: _ => (readText cs).map fun (s, r) => (.text s, r)
    | _ =>
      match readDate cs with
      | some rest => some (.object [], rest)
      | none => readNumber cs

/-- The items of an array, those before given last first, up to the closing bracket; a comma may
stand before it. -/
def readItems : Nat → Nat → List Json → List Char → Option (Json × List Char)
  | 0, _, _, _ => none
  | fuel + 1, levels, before, cs =>
    match skipGaps false cs with
    | none => none
    | some (']' :: rest) => some (.array before.reverse, rest)
    | some cs =>
      match readValue fuel levels cs with
      | none => none
      | some (item, rest) =>
        match skipGaps false rest with
        | some (',' :: rest) => readItems fuel levels (item :: before) rest
        | some (']' :: rest) => some (.array (item :: before).reverse, rest)
        | _ => none

/-- The pairs of an inline table, those before given last first, up to the closing brace. -/
def readPairs : Nat → Nat → List (Key × Json) → List Char → Option (Json × List Char)
  | 0, _, _, _ => none
  | fuel + 1, levels, before, cs =>
    match readKey cs with
    | some (key, '=' :: rest) =>
      match readValue fuel levels (skipBlanks rest) with
      | none => none
      | some (item, rest) =>
        match skipBlanks rest with
        | ',' :: rest => readPairs fuel levels ((key, item) :: before) rest
        | '\x7d' :: rest =>
          (((key, item) :: before).reverse.foldlM Members.addPair []).map fun ms =>
            (Members.toJson ms, rest)
        | _ => none
    | _ => none

end

/-! ### Documents -/

/-- A key-value pair and what follows its line. -/
def readPair (cs : List Char) : Option ((Key × Json) × List Char) := do
  let (key, rest) ← readKey cs
  let rest ← after? '=' rest
  let (item, rest) ← readValue (2 * rest.length + 2) maxDepth (skipBlanks rest)
  return ((key, item), ← afterRest? rest)

/-- A header and what follows its line. -/
def readHeader : List Char → Option (Header × List Char)
  | '[' :: '[' :: rest => do
    let (key, rest) ← readKey rest
    let rest ← after? ']' (← after? ']' rest)
    return (.repeated key, ← afterRest? rest)
  | '[' :: rest => do
    let (key, rest) ← readKey rest
    return (.single key, ← afterRest? (← after? ']' rest))
  | _ => none

/-- Put a pair into the section that is being read. -/
def Section.push (s : Section) (pair : Key × Json) : Section :=
  { s with pairs := s.pairs ++ [pair] }

/-- The sections of a document from one that is being read on. Each step consumes at least one
character. -/
def readSections : Nat → Section → List Char → Option (List Section)
  | 0, _, _ => none
  | fuel + 1, current, cs =>
    match skipBlanks cs with
    | [] => some [current]
    | '#' :: rest => do readSections fuel current (← afterRest? ('#' :: rest))
    | '\n' :: rest => readSections fuel current rest
    | '\r' :: '\n' :: rest => readSections fuel current rest
    | '[' :: rest => do
      let (header, rest) ← readHeader ('[' :: rest)
      return current :: (← readSections fuel ⟨header, []⟩ rest)
    | cs => do
      let (pair, rest) ← readPair cs
      readSections fuel (current.push pair) rest

/-- What follows the mark that a text may begin with. -/
def skipMark : List Char → List Char
  | c :: rest => if c.toNat = 0xFEFF then rest else c :: rest
  | [] => []

/-- The value of a document. -/
def parse? (s : String) : Option Json := do
  let cs := skipMark s.toList
  ofSections (← readSections (cs.length + 1) ⟨.start, []⟩ cs)

end FlowGraph.Toml
