import SceneWiring.Main
import SceneWiring.Proofs.Companions
import SceneWiring.Proofs.Containment
import SceneWiring.Proofs.Fetching
import SceneWiring.Proofs.ForeignArguments
import SceneWiring.Proofs.Grouping
import SceneWiring.Proofs.Independence
import SceneWiring.Proofs.LiteralTexts
import SceneWiring.Proofs.ParameterTypes
import SceneWiring.Proofs.Placement
import SceneWiring.Proofs.TypeOrder
import SceneWiring.Proofs.UnitReading
import SceneWiring.Proofs.WrittenFiles
import SceneWiring.Proofs.CommandReports
import SceneWiring.Proofs.Spelling
import SceneWiring.Proofs.Respelling
import SceneWiring.Proofs.RespelledRuns
import SceneWiring.Proofs.DeclaredEnums
import SceneWiring.Proofs.DeclaredMembers
import SceneWiring.Proofs.Injection
import SceneWiring.Proofs.EmptyParts
import SceneWiring.Proofs.UnknownTypes
import SceneWiring.Proofs.LiteralReading
import SceneWiring.Proofs.AncestorTypes
import SceneWiring.Proofs.DisplayedTypes
import SceneWiring.Proofs.NameScopes
import SceneWiring.Proofs.Hygiene
import SceneWiring.Proofs.SettingValues
import SceneWiring.Proofs.Overlays
import SceneWiring.Proofs.ConstraintChains
import SceneWiring.Proofs.TrailingText
import SceneWiring.Proofs.AttributeNames
import SceneWiring.Proofs.UnfitArguments
import SceneWiring.Proofs.SelectorReading
