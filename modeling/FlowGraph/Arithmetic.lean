/-!
# Powers and sums

Sizes, counters and word widths are whole numbers, and `2 ^ 64` or the sum of a list of sizes is
computed by the operations of the core language. Algebraic libraries read the two by way of monoids.
Core's reading is given precedence here, so that a definition is the same term whichever library
stands beside it.
-/

namespace FlowGraph

/-- Powers of natural numbers. -/
@[default_instance 20000]
instance (priority := 2000) natPow : Pow Nat Nat := instPowNat

/-- Powers of integers; a number of no known kind is rather a natural one. -/
@[default_instance 19000]
instance (priority := 2000) intPow : Pow Int Nat := instPowNat

/-- The sum of no natural numbers. -/
instance (priority := 2000) natZero : Zero Nat := Zero.ofOfNat0

end FlowGraph
