import FlowGraph.Decimal.Nearest
import FlowGraph.Json.Basic

/-!
# Reading JSON

The reader takes a text apart from the left: each step consumes a part of the list of characters
and hands on the rest.

* `readString` — the characters of a quoted text, escapes resolved.
* `readNumber` — an integer where one was written and fits a word, a floating-point number else.
* `readValue` — a value and what follows it.
* `Json.parse?` — a value with nothing but blanks around it.
-/

namespace FlowGraph.Json

/-! ### Blanks -/

/-- The characters that may stand between any two tokens. -/
def isBlank (c : Char) : Bool := c = ' ' || c = '\n' || c = '\t' || c = '\r'

/-- What follows leading blanks. -/
def skipBlanks : List Char → List Char
  | c :: rest => if isBlank c then skipBlanks rest else c :: rest
  | [] => []

/-! ### Text -/

/-- The value of a digit in base 16. -/
def hexValue? (c : Char) : Option Nat :=
  if '0' ≤ c ∧ c ≤ '9' then some (c.toNat - '0'.toNat)
  else if 'a' ≤ c ∧ c ≤ 'f' then some (c.toNat - 'a'.toNat + 10)
  else if 'A' ≤ c ∧ c ≤ 'F' then some (c.toNat - 'A'.toNat + 10)
  else none

/-- The number written by four digits in base 16. -/
def hexUnit? (a b c d : Char) : Option Nat := do
  return (((← hexValue? a) * 16 + (← hexValue? b)) * 16 + (← hexValue? c)) * 16 + (← hexValue? d)

/-- The character named by a single letter after a backslash. -/
def namedEscape? (c : Char) : Option Char :=
  if c = '"' then some '"'
  else if c = '\\' then some '\\'
  else if c = '/' then some '/'
  else if c = 'b' then some '\x08'
  else if c = 'f' then some '\x0c'
  else if c = 'n' then some '\n'
  else if c = 'r' then some '\r'
  else if c = 't' then some '\t'
  else none

/-- The character written by a leading and a trailing surrogate. -/
def ofSurrogates (high low : Nat) : Char :=
  Char.ofNat (0x10000 + (high - 0xD800) * 0x400 + (low - 0xDC00))

/-- A text as read: its characters, last first, and whether all of them are characters. -/
structure ReadText where
  reversed : List Char
  sound : Bool

/-- The text as a value; nothing if half of a surrogate pair was met. -/
def ReadText.value? (t : ReadText) : Option String :=
  if t.sound then some (String.ofList t.reversed.reverse) else none

/-- Add a character. -/
def ReadText.push (t : ReadText) (c : Char) : ReadText := { t with reversed := c :: t.reversed }

/-- Add a unit that is no surrogate, or note half of a pair. -/
def ReadText.pushUnit (t : ReadText) (n : Nat) : ReadText :=
  if 0xD800 ≤ n ∧ n ≤ 0xDFFF then { t with sound := false } else t.push (Char.ofNat n)

/-- Read up to the closing quote. A unit of a surrogate pair stands for a character only together
with its other half. -/
def readString (t : ReadText) : List Char → Option (ReadText × List Char)
  | '"' :: rest => some (t, rest)
  | '\\' :: 'u' :: a :: b :: c :: d :: '\\' :: 'u' :: e :: f :: g :: h :: rest =>
    match hexUnit? a b c d, hexUnit? e f g h with
    | some high, some low =>
      if 0xD800 ≤ high ∧ high ≤ 0xDBFF ∧ 0xDC00 ≤ low ∧ low ≤ 0xDFFF then
        readString (t.push (ofSurrogates high low)) rest
      else readString (t.pushUnit high) ('\\' :: 'u' :: e :: f :: g :: h :: rest)
    | _, _ => none
  | '\\' :: 'u' :: a :: b :: c :: d :: rest =>
    match hexUnit? a b c d with
    | some n => readString (t.pushUnit n) rest
    | none => none
  | '\\' :: c :: rest =>
    match namedEscape? c with
    | some e => readString (t.push e) rest
    | none => none
  | c :: rest => if c.toNat < 0x20 ∨ c = '\\' then none else readString (t.push c) rest
  | [] => none

/-! ### Numbers -/

/-- Whether the character is a decimal digit. -/
def isDigit (c : Char) : Bool := decide ('0' ≤ c ∧ c ≤ '9')

/-- The value of a decimal digit. -/
def digitValue (c : Char) : Nat := c.toNat - '0'.toNat

/-- The number written by decimal digits. -/
def ofDigits (cs : List Char) : Nat := cs.foldl (fun n c => 10 * n + digitValue c) 0

/-- A prefix of a number's digits that fits an unsigned 64-bit word, with the power of ten that
restores their places. -/
structure Significand where
  word : Nat
  exponent : Int

/-- Whether a further digit still fits the word. -/
def Significand.admits (s : Significand) (c : Char) : Bool :=
  decide (s.word * 10 + digitValue c < 2 ^ 64)

/-- Take in the digits before the point. From the first that does not fit on, each only counts as
a place. -/
def Significand.whole (s : Significand) : List Char → Significand
  | [] => s
  | c :: cs =>
    if s.admits c then Significand.whole ⟨s.word * 10 + digitValue c, 0⟩ cs
    else ⟨s.word, (c :: cs).length⟩

/-- Take in the digits behind the point. From the first that does not fit on, all are dropped. -/
def Significand.fraction (s : Significand) : List Char → Significand
  | [] => s
  | c :: cs =>
    if s.admits c then
      Significand.fraction ⟨s.word * 10 + digitValue c, s.exponent - 1⟩ cs
    else s

/-- Scale by a power of ten in floating-point arithmetic: one multiplication or division, after as
many divisions by `1e308` as needed. Nothing if the result is too large. -/
def scale (x : Float) (exponent : Int) : Nat → Option Float
  | 0 => some x
  | fuel + 1 =>
    if exponent.natAbs ≤ 308 then
      let power := Decimal.floatOfDecimal 1 exponent.natAbs
      if 0 ≤ exponent then
        let y := x * power
        if y.isInf then none else some y
      else some (x / power)
    else if x == 0.0 then some x
    else if 0 ≤ exponent then none
    else scale (x / Decimal.floatOfDecimal 1 308) (exponent + 308) fuel

/-- The floating-point number of a significand. -/
def Significand.float? (s : Significand) (negative : Bool) : Option Float :=
  (scale s.word.toUInt64.toFloat s.exponent 5).map fun x => if negative then -x else x

/-- The value of a number from its parts: the digits before the point, those behind it and the
exponent, each of the last two only if written. -/
def numberValue (negative : Bool) (whole : List Char) (fraction : Option (List Char))
    (exponent : Option Int) : Json :=
  let n := ofDigits whole
  let float : Json :=
    let s := (Significand.mk 0 0).whole whole
    let s := s.fraction (fraction.getD [])
    match Significand.float? { s with exponent := s.exponent + exponent.getD 0 } negative with
    | some x => .float x
    | none => .void
  if fraction.isSome || exponent.isSome then float
  else if negative then
    if n = 0 ∨ 2 ^ 63 < n then float else .int (-n)
  else if n < 2 ^ 64 then .int n
  else float

/-- The digits behind a point, if there is one; at least one digit must follow it. -/
def readFraction : List Char → Option (Option (List Char) × List Char)
  | '.' :: rest =>
    match rest.takeWhile isDigit with
    | [] => none
    | ds => some (some ds, rest.dropWhile isDigit)
  | rest => some (none, rest)

/-- The signed number after an exponent mark; at least one digit must follow. -/
def readSigned (cs : List Char) : Option (Int × List Char) :=
  let (negative, cs) :=
    match cs with
    | '+' :: rest => (false, rest)
    | '-' :: rest => (true, rest)
    | rest => (false, rest)
  match cs.takeWhile isDigit with
  | [] => none
  | ds =>
    let n : Int := ofDigits ds
    some (if negative then -n else n, cs.dropWhile isDigit)

/-- The exponent, if there is one. -/
def readExponent : List Char → Option (Option Int × List Char)
  | 'e' :: rest => (readSigned rest).map fun (n, r) => (some n, r)
  | 'E' :: rest => (readSigned rest).map fun (n, r) => (some n, r)
  | rest => some (none, rest)

/-- A number. Its digits before the point start with zero only if that is the only one. -/
def readNumber (cs : List Char) : Option (Json × List Char) := do
  let (negative, cs) :=
    match cs with
    | '-' :: rest => (true, rest)
    | rest => (false, rest)
  let whole := cs.takeWhile isDigit
  if whole.isEmpty || (whole.head? == some '0' && whole.length != 1) then none
  else
    let (fraction, cs) ← readFraction (cs.dropWhile isDigit)
    let (exponent, cs) ← readExponent cs
    return (numberValue negative whole fraction exponent, cs)

/-! ### Values -/

/-- What follows a given word. -/
def afterWord? : List Char → List Char → Option (List Char)
  | [], cs => some cs
  | w :: ws, c :: cs => if w = c then afterWord? ws cs else none
  | _ :: _, [] => none

/-- An object from its members, last first. An object with a name that is no text has no value. -/
def ofMembers (reversed : List (Option String × Json)) : Json :=
  match reversed.reverse.mapM fun m => m.1.map fun name => (name, m.2) with
  | some members => .object members
  | none => .void

mutual

/-- A value, after blanks, and what follows it. -/
def readValue : Nat → List Char → Option (Json × List Char)
  | 0, _ => none
  | fuel + 1, cs =>
    match skipBlanks cs with
    | [] => none
    | c :: rest =>
      if c = 'n' then (afterWord? "ull".toList rest).map fun r => (.null, r)
      else if c = 't' then (afterWord? "rue".toList rest).map fun r => (.bool true, r)
      else if c = 'f' then (afterWord? "alse".toList rest).map fun r => (.bool false, r)
      else if c = '"' then
        (readString ⟨[], true⟩ rest).map fun (t, r) =>
          (match t.value? with | some s => .text s | none => .void, r)
      else if c = '[' then
        match skipBlanks rest with
        | ']' :: r => some (.array [], r)
        | r => readItems fuel [] r
      else if c = '\x7b' then
        match skipBlanks rest with
        | '\x7d' :: r => some (.object [], r)
        | r => readMembers fuel [] r
      else readNumber (c :: rest)

/-- The items of an array, the ones before given last first, up to the closing bracket. -/
def readItems : Nat → List Json → List Char → Option (Json × List Char)
  | 0, _, _ => none
  | fuel + 1, before, cs =>
    match readValue fuel cs with
    | none => none
    | some (item, rest) =>
      match skipBlanks rest with
      | ',' :: r => readItems fuel (item :: before) r
      | ']' :: r => some (.array (item :: before).reverse, r)
      | _ => none

/-- The members of an object, the ones before given last first, up to the closing brace. -/
def readMembers : Nat → List (Option String × Json) → List Char → Option (Json × List Char)
  | 0, _, _ => none
  | fuel + 1, before, cs =>
    match skipBlanks cs with
    | '"' :: rest =>
      match readString ⟨[], true⟩ rest with
      | none => none
      | some (name, rest) =>
        match skipBlanks rest with
        | ':' :: rest =>
          match readValue fuel rest with
          | none => none
          | some (item, rest) =>
            match skipBlanks rest with
            | ',' :: r => readMembers fuel ((name.value?, item) :: before) r
            | '\x7d' :: r => some (ofMembers ((name.value?, item) :: before), r)
            | _ => none
        | _ => none
    | _ => none

end

/-- A value at the start of a text, and what follows it. Each step of the reader consumes a
character, so two steps for each character and two more are enough. -/
def parsePrefix? (s : String) : Option (Json × List Char) :=
  let cs := s.toList
  readValue (2 * cs.length + 2) cs

/-- The value that a text consists of, blanks aside. -/
def parse? (s : String) : Option Json := do
  let (j, rest) ← parsePrefix? s
  if (skipBlanks rest).isEmpty then some j else none

end FlowGraph.Json
