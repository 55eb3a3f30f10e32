/-!
# Ranges of characters

Unicode's classes of characters are long lists of ranges. A class is kept as an array of ascending
ranges, and membership is found by halving.

* `CharRanges` — a class of characters.
* `CharRanges.contains` — whether a character belongs to it.
-/

namespace FlowGraph.Text

/-- A class of characters, as ascending ranges of their numbers with both ends included. -/
structure CharRanges where
  ranges : Array (Nat × Nat)

namespace CharRanges

/-- Whether a number lies in a range from number `low` up to number `high` without `high` itself;
every halving takes one unit of fuel. -/
def search (rs : CharRanges) (c : Nat) : Nat → Nat → Nat → Bool
  | 0, _, _ => false
  | fuel + 1, low, high =>
    if low < high then
      let middle := (low + high) / 2
      match rs.ranges[middle]? with
      | none => false
      | some (first, last) =>
        if c < first then rs.search c fuel low middle
        else if last < c then rs.search c fuel (middle + 1) high
        else true
    else false

/-- Whether the class has a character. The search halves, so as many steps as there are ranges are
more than enough. -/
def contains (rs : CharRanges) (c : Char) : Bool :=
  rs.search c.toNat (rs.ranges.size + 1) 0 rs.ranges.size

example : (CharRanges.mk #[(0x30, 0x39), (0x41, 0x5A)]).contains 'Q' = true := by decide
example : (CharRanges.mk #[(0x30, 0x39), (0x41, 0x5A)]).contains ':' = false := by decide

end CharRanges

end FlowGraph.Text
