import FlowGraph.Text.CharRanges

/-!
# Blanks of all scripts

* `blank` — the characters with the property *White_Space*.
* `trimBlanks` — characters without the blanks at either end.
-/

namespace FlowGraph.Text

/-- The blanks of all scripts. -/
def blank : CharRanges := ⟨#[
  (0x9, 0xD), (0x20, 0x20), (0x85, 0x85), (0xA0, 0xA0), (0x1680, 0x1680), (0x2000, 0x200A),
  (0x2028, 0x2029), (0x202F, 0x202F), (0x205F, 0x205F), (0x3000, 0x3000)
]⟩

/-- Characters without the blanks at either end. -/
def trimBlanks (cs : List Char) : List Char :=
  ((cs.dropWhile blank.contains).reverse.dropWhile blank.contains).reverse

example : trimBlanks [' ', 'a', ' ', 'b', '\t'] = ['a', ' ', 'b'] := by decide
example : trimBlanks [' ', '\u3000'] = [] := by decide

end FlowGraph.Text
