import SceneWiring.StableSort
import SceneWiring.Strategy
/-!
# Additions

An addition is a strategy for one class with its rank among the others. Statements run in ascending
order, and in the order of discovery where that is equal.
-/

namespace SceneWiring

/-- A strategy for a class. -/
structure Addition where
  /-- The position of the class in the list of types. -/
  owner : Nat
  /-- The first rank among the statements of the class. -/
  order : Int
  /-- The rank of discovery in the class. -/
  seq : Nat
  /-- What to generate. -/
  strategy : Strategy
deriving DecidableEq, Repr, Inhabited

namespace Addition

/-- The first addition was discovered no later than the second. -/
def seqLe (a b : Addition) : Bool := a.seq ≤ b.seq

/-- The statements of the first addition may stand before those of the second. -/
def orderLe (a b : Addition) : Bool := a.order < b.order || (a.order == b.order && seqLe a b)

end Addition

end SceneWiring
