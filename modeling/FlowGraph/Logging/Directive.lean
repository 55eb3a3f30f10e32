import FlowGraph.Notice
import FlowGraph.Text.Alphanumeric
import FlowGraph.Text.Blank

/-!
# Directives of log filters

A directive sets a threshold: for everything, for what comes from a part of the system, for notices
that have a field, or for what happens within a span of time that has a name. Its written form is
`target[span{field=value}]=level`, of which a lone level or any beginning of the form will do.

* `Threshold` — what passes, and `Threshold.parse?`, its name or number.
* `Directive` — a directive, and `Directive.parse?`, its text.
* `Directive.fits`, `Directive.yields` — whether it speaks of a notice, and which of two directives
  gives way.
-/

namespace FlowGraph

/-! ### Thresholds -/

/-- What a directive lets pass: nothing, or a level and everything more severe. -/
inductive Threshold
  | off
  | atLeast (level : Level)
  deriving DecidableEq

namespace Threshold

/-- Everything passes. -/
def everything : Threshold := atLeast .trace

/-- Whether notices of a level pass. -/
def admits : Threshold → Level → Bool
  | off, _ => false
  | atLeast floor, l => floor.passes l

/-- The threshold of a name, in letters of either case. -/
def ofName? (s : String) : Option Threshold :=
  let s := s.map Char.toLower
  if s = "off" then some off
  else (Level.all.find? fun l => l.label.map Char.toLower = s).map .atLeast

/-- The threshold of a number: zero lets nothing pass, five everything. -/
def ofNumber? : Nat → Option Threshold
  | 0 => some off
  | 1 => some (.atLeast .error)
  | 2 => some (.atLeast .warn)
  | 3 => some (.atLeast .info)
  | 4 => some (.atLeast .debug)
  | 5 => some everything
  | _ => none

/-- The number that digits stand for; a plus sign may precede them. -/
def number? (s : List Char) : Option Nat :=
  let ds := if s.head? = some '+' then s.tail else s
  if !ds.isEmpty && ds.all Char.isDigit then
    some (ds.foldl (fun n d => 10 * n + (d.toNat - '0'.toNat)) 0)
  else none

/-- A threshold, by number or by name. -/
def parse? (s : String) : Option Threshold :=
  match number? s.toList with
  | some n => ofNumber? n
  | none => ofName? s

end Threshold

/-! ### Directives -/

/-- What a directive asks of a notice's fields: that there is one of a name, perhaps with a
value. -/
structure FieldTest where
  name : String
  value : Option String
  deriving DecidableEq

/-- A threshold and what it is for. -/
structure Directive where
  /-- The beginning of the origin of the notices that are meant. -/
  target : Option String
  /-- The name of the spans that notices must lie in. -/
  span : Option String
  field : Option FieldTest
  threshold : Threshold
  deriving DecidableEq

namespace Directive

/-- A threshold for everything. -/
def overall (t : Threshold) : Directive := ⟨none, none, none, t⟩

/-! ### Reading directives -/

/-- Whether a directive may begin with a character: letters and digits of all scripts, dashes, low
lines and colons. -/
def canBegin (c : Char) : Bool :=
  c = '-' || c = '_' || c = ':' || Text.alphanumeric.contains c

/-- Characters without as many bytes of UTF-8 in front; nothing if the cut would split one. -/
def dropBytes? : Nat → List Char → Option (List Char)
  | 0, cs => some cs
  | _ + 1, [] => none
  | n + 1, c :: cs => if c.utf8Size ≤ n + 1 then dropBytes? (n + 1 - c.utf8Size) cs else none

/-- As many bytes of UTF-8 of some characters; nothing if the cut would split one. -/
def takeBytes? : Nat → List Char → Option (List Char)
  | 0, _ => some []
  | _ + 1, [] => none
  | n + 1, c :: cs =>
    if c.utf8Size ≤ n + 1 then (takeBytes? (n + 1 - c.utf8Size) cs).map (c :: ·) else none

/-- The bytes from position `i` up to position `j` of a text, as text. -/
def cut? (written : List Char) (i j : Nat) : Option String := do
  return String.ofList (← takeBytes? (j - i) (← dropBytes? i written))

/-- The bytes from position `i` on of a text, as text. -/
def cutFrom? (written : List Char) (i : Nat) : Option String :=
  (dropBytes? i written).map String.ofList

/-- Characters, each with the position of its first byte. -/
def positioned : Nat → List Char → List (Nat × Char)
  | _, [] => []
  | i, c :: cs => (i, c) :: positioned (i + c.utf8Size) cs

/-- Split where the first of some marks stands: its position, the mark, and what follows it. -/
def findMark (marks : List Char) : List (Nat × Char) → Option (Nat × Char × List (Nat × Char))
  | [] => none
  | (i, c) :: cs => if c ∈ marks then some (i, c, cs) else findMark marks cs

/-- The threshold that begins at position `i`; none given lets everything pass. -/
def thresholdAt? (written : List Char) (i : Nat) : Option Threshold := do
  let level ← cutFrom? written i
  if level.isEmpty then some .everything else Threshold.parse? level

/-- The threshold after the closing bracket. -/
def afterBracket? (written : List Char) : List (Nat × Char) → Option Threshold
  | [] => some .everything
  | (i, '=') :: _ => thresholdAt? written (i + 1)
  | _ => none

/-- What a directive says about a field: a name and perhaps, after an equals sign, a value that ends
at the next. -/
def fieldTest? (s : String) : Option FieldTest :=
  match s.splitOn "=" with
  | name :: value :: _ => some ⟨name, some value⟩
  | _ => if s.isEmpty then none else some ⟨s, none⟩

/-- The rest of a directive after the bracket, whose inside begins at position `i`. -/
def inBracket? (written : List Char) (target : Option String) (i : Nat)
    (cs : List (Nat × Char)) : Option Directive := do
  match ← findMark [']', '\x7b'] cs with
  | (j, ']', rest) =>
    return ⟨target, some (← cut? written i j), none, ← afterBracket? written rest⟩
  | (j, _, rest) =>
    let name ← cut? written i j
    let (k, _, rest) ← findMark ['\x7d'] rest
    let field ← fieldTest? (← cut? written (j + 1) k)
    match rest with
    | (_, ']') :: rest =>
      return ⟨target, if name.isEmpty then none else some name, field, ← afterBracket? written rest⟩
    | _ => none

/-- A directive that begins with a target or is a lone level. A target alone lets everything of it
pass. -/
def targeted? (written : List Char) (cs : List (Nat × Char)) : Option Directive :=
  match findMark ['=', '['] cs with
  | none =>
    let s := String.ofList written
    match Threshold.parse? s with
    | some t => some (overall t)
    | none => some ⟨some s, none, none, .everything⟩
  | some (i, '=', _) => do
    return ⟨some (← cut? written 0 i), none, none, ← thresholdAt? written (i + 1)⟩
  | some (i, _, rest) => do inBracket? written (← cut? written 0 i) (i + 1) rest

/-- A directive from its text. Its marks are looked for with the blanks at either end taken away,
but its parts are then cut, at the positions so found, from the text as written. -/
def parse? (s : String) : Option Directive :=
  let written := s.toList
  match positioned 0 (Text.trimBlanks written) with
  | [] => none
  | (_, '[') :: rest => inBracket? written none 1 rest
  | (i, c) :: rest => if canBegin c then targeted? written ((i, c) :: rest) else none

/-! ### What directives speak of -/

/-- Whether the directive can decide about notices. One that names spans or a field's value cannot:
nothing here happens within a span. -/
def isDecisive (d : Directive) : Bool :=
  d.span.isNone && d.field.all fun f => f.value.isNone

/-- Whether the directive speaks of what comes from a part of the system and has fields of the given
names. -/
def fits (d : Directive) (origin : String) (fields : List String) : Bool :=
  d.isDecisive && d.target.all (fun t => origin.startsWith t)
    && d.field.all fun f => f.name ∈ fields

/-- How much a directive says about where it applies. -/
def weight (d : Directive) : Nat :=
  match d.target with
  | none => 0
  | some t => t.utf8ByteSize + 1

/-- Whether a directive gives way to another that speaks of the same notice: to one that says more
about the origin, of two that say equally much to one that names a field, then to one whose field
comes later in the alphabet, and at last to one that was written later. -/
def yields (d later : Directive) : Bool :=
  if d.weight ≠ later.weight then decide (d.weight < later.weight)
  else
    match d.field, later.field with
    | none, _ => true
    | some _, none => false
    | some f, some g => decide (f.name ≤ g.name)

end Directive

end FlowGraph
