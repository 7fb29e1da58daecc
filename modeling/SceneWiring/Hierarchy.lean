import SceneWiring.Compilation
/-!
# The type hierarchy

A type reaches the types that its base and its interfaces denote, and everything those reach. The
types reached are collected in rounds, each round adding the parents of the types that the round
before has added; no more rounds are needed than there are types.
-/

namespace SceneWiring.Compilation

/-- The declared types that the base and the interfaces of a type denote. -/
def parents (c : Compilation) (d : TypeDecl) : List TypeDecl :=
  (d.base?.toList ++ d.interfaces).filterMap c.resolve

/-- The types of a list whose metadata names are neither known nor met earlier in the list. -/
def unknown (known : List String) : List TypeDecl → List TypeDecl
  | [] => []
  | d :: rest =>
    if d.metadataName ∈ known then unknown known rest
    else d :: unknown (d.metadataName :: known) rest

/-- The metadata names reached in a number of rounds, from the names known so far and the types
that were new in the last round. -/
def reachedIn (c : Compilation) : Nat → List String → List TypeDecl → List String
  | 0, known, _ => known
  | _ + 1, known, [] => known
  | rounds + 1, known, d :: newest =>
    let next := unknown known ((d :: newest).flatMap c.parents)
    reachedIn c rounds (next.map TypeDecl.metadataName ++ known) next

/-- The metadata names of all types that a type reaches, its own included. -/
def reached (c : Compilation) (d : TypeDecl) : List String :=
  c.reachedIn c.types.length [d.metadataName] [d]

/-- The first type is the second or reaches it through bases and interfaces. -/
def derivesFrom (c : Compilation) (d target : TypeDecl) : Bool :=
  (c.reached d).contains target.metadataName

end SceneWiring.Compilation
