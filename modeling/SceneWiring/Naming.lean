import SceneWiring.Text.Upper
/-!
# Names of companions

A member that is set from the editor gets a companion declaration. Its name is made of the name of
the member without leading underscores and with a capital first letter (`_myTree` gives `MyTree`).
-/

namespace SceneWiring

/-- The stem of the companion's name. A name of underscores alone is kept. -/
def companionStem (name : String) : String :=
  match name.toList.dropWhile (· == '_') with
  | [] => name
  | first :: rest => String.ofList (Text.upper first ++ rest)

end SceneWiring
