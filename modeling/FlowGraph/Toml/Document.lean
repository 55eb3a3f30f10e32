import FlowGraph.Json.Basic

/-!
# TOML documents

A document is a list of sections, each with the key-value pairs written below its header. Sections
are entered into a tree of tables one by one. A table may come into being in passing, as part of a
longer header or of a dotted key; the marks of a table say which, and with it what may still be
added to it and how.

* `Key`, `Section` — what is written.
* `Item`, `Members` — the tree.
* `Members.descend` — change the table at the end of a path.
* `Members.addPair`, `Members.addSection` — the rules on what may be defined again.
* `Members.toJson` — the tree as a value.
-/

namespace FlowGraph.Toml

/-! ### Sections -/

/-- A key with the path of keys before it. -/
structure Key where
  path : List String
  name : String

/-- What stands above the pairs of a section. -/
inductive Header
  /-- Nothing: the section is the start of the document. -/
  | start
  /-- The name of a table. -/
  | single (key : Key)
  /-- The name of an array of tables, to which one is added. -/
  | repeated (key : Key)

/-- A header and the pairs below it. -/
structure Section where
  header : Header
  pairs : List (Key × Json)

/-! ### The tree -/

/-- What a key of a table stands for. -/
inductive Item
  /-- A value written as such, arrays and inline tables included; nothing can be added to it. -/
  | value (j : Json)
  /-- A table, with two marks: whether it only came into being in passing, and whether it did so by
  a dotted key. -/
  | table (implicit dotted : Bool) (members : List (String × Item))
  /-- The tables of a repeated header, in order. -/
  | tables (items : List (List (String × Item)))

/-- The keys of a table, in order, with what they stand for. -/
abbrev Members := List (String × Item)

namespace Members

/-- What a key stands for. -/
def item? (ms : Members) (key : String) : Option Item := (List.find? (·.1 = key) ms).map Prod.snd

/-- Let a key stand for something, in place of what it stood for. -/
def put (ms : Members) (key : String) (item : Item) : Members :=
  if ms.any (·.1 = key) then ms.map fun m => if m.1 = key then (key, item) else m
  else ms ++ [(key, item)]

/-! ### Paths -/

/-- Change the table at the end of a path; `change` also learns whether that table came into being
by a dotted key. Missing tables come into being on the way. By a dotted path only tables that came
into being in passing can be entered. -/
def descend (byDots : Bool) (change : Bool → Members → Option Members) :
    List String → Bool → Members → Option Members
  | [], dotted, ms => change dotted ms
  | key :: path, _, ms =>
    match ms.item? key with
    | none => do
      let inner ← descend byDots change path byDots []
      some (ms ++ [(key, .table true byDots inner)])
    | some (.value _) => none
    | some (.table implicit dotted inner) =>
      if byDots && !implicit then none
      else do
        let inner ← descend byDots change path dotted inner
        some (ms.put key (.table implicit dotted inner))
    | some (.tables items) => do
      let last ← items.getLast?
      let inner ← descend byDots change path false last
      some (ms.put key (.tables (items.dropLast ++ [inner])))

/-- Add a value under a key that may be dotted. The key must be new, and the table that it is added
to must have come into being by dotted keys exactly if the key is dotted. -/
def addPair (ms : Members) (pair : Key × Json) : Option Members :=
  descend true
    (fun dotted inner =>
      if dotted == pair.1.path.isEmpty || (inner.item? pair.1.name).isSome then none
      else some (inner ++ [(pair.1.name, .value pair.2)]))
    pair.1.path false ms

/-! ### Building the tree -/

/-- The members of a table whose header comes now; nothing if it had one already. -/
def openTable (ms : Members) (name : String) : Option Members :=
  match ms.item? name with
  | none => some []
  | some (.table true false inner) => some inner
  | some _ => none

/-- The tables of an array to which one is added now. -/
def openTables (ms : Members) (name : String) : Option (List Members) :=
  match ms.item? name with
  | none => some []
  | some (.tables items) => some items
  | some _ => none

/-- Enter a section into a document's tree. -/
def addSection (ms : Members) (s : Section) : Option Members :=
  match s.header with
  | .start => s.pairs.foldlM addPair ms
  | .single key =>
    descend false
      (fun _ outer => do
        let inner ← s.pairs.foldlM addPair (← outer.openTable key.name)
        some (outer.put key.name (.table false false inner)))
      key.path false ms
  | .repeated key =>
    descend false
      (fun _ outer => do
        let items ← outer.openTables key.name
        let inner ← s.pairs.foldlM addPair []
        some (outer.put key.name (.tables (items ++ [inner]))))
      key.path false ms

end Members

/-! ### Values -/

mutual

/-- An item as a value. -/
def Item.toJson : Item → Json
  | .value j => j
  | .table _ _ ms => .object (membersJson ms)
  | .tables items => .array (tablesJson items)

/-- The members of a table as those of an object. -/
def membersJson : List (String × Item) → List (String × Json)
  | [] => []
  | (key, item) :: ms => (key, item.toJson) :: membersJson ms

/-- Tables as objects. -/
def tablesJson : List (List (String × Item)) → List Json
  | [] => []
  | ms :: items => .object (membersJson ms) :: tablesJson items

end

/-- A tree as a value. -/
def Members.toJson (ms : Members) : Json := .object (membersJson ms)

/-- The value of a document, unless its sections contradict each other. -/
def ofSections (sections : List Section) : Option Json :=
  (sections.foldlM Members.addSection []).map Members.toJson

end FlowGraph.Toml
