import SceneWiring.Json.Parse
/-!
# Reading typed values out of a tree

A decoder takes a node to a value of a type or to the first fault that a reader of the text would
meet on its way. Arrays and objects cost one unit of room each, so that a document nests at most 127
of them, except where a value is skipped or is of the wrong kind anyway.

Records are described once, by the list of their fields. A record is written as an object of its
fields or as the array of them in order.
-/

namespace SceneWiring.Json

/-- Reads a value of type `α` from a node, given the room left for nesting. -/
abbrev Decoder (α : Type) := Nat → Node → Except Fault α

/-- The room left inside one more bracket. -/
def enter (room : Nat) : Except Fault Nat :=
  if room ≤ 1 then .error .malformed else .ok (room - 1)

/-- The room of a whole document. -/
def documentRoom : Nat := 128

/-- No further member is there: the fault met by a reader who asks for one. -/
def Ending.finish : Ending → Except Fault Unit
  | .closed => .ok ()
  | .stopped onMore _ => .error onMore

/-- The bracket is asked for: the fault met when it is not there. -/
def Ending.close : Ending → Except Fault Unit
  | .closed => .ok ()
  | .stopped _ onClose => .error onClose

/-- The fault met by a reader who finds this value where one of another kind should be. -/
def Node.misfitFault : Node → Fault
  | .null | .bool _ | .array _ _ | .object _ _ => .misfit
  | .number n => n.fault.getD .misfit
  | .text value =>
    match value.content with
    | .ok _ => .misfit
    | .error fault => fault
  | .absent => .cutShort
  | .broken onRead _ => onRead

/-- A text. -/
def Decoder.text : Decoder String
  | _, .text value => value.content
  | _, node => .error node.misfitFault

/-- Any value, as it stands in the tree. -/
def Decoder.value : Decoder Node
  | _, node => .ok node

/-- True or false. -/
def Decoder.flag : Decoder Bool
  | _, .bool value => .ok value
  | _, node => .error node.misfitFault

/-- A natural number below the bound, spelled as an integer. -/
def Decoder.natural (bound : Nat) : Decoder Nat
  | _, .number n =>
    match n.int? with
    | some (.ofNat value) => if value < bound then .ok value else .error .misfit
    | some (.negSucc _) => .error .misfit
    | none => .error (n.fault.getD .misfit)
  | _, node => .error node.misfitFault

/-- A value that may be given as null. -/
def Decoder.nullable {α : Type} (decode : Decoder α) : Decoder (Option α)
  | _, .null => .ok none
  | room, node => (decode room node).map some

/-- The items of an array. -/
def Decoder.list {α : Type} (decode : Decoder α) : Decoder (List α)
  | room, .array items ending => do
    let room ← enter room
    let values ← items.mapM (decode room)
    ending.finish
    return values
  | _, node => .error node.misfitFault

/-- An association list in ascending order of its keys, with a key set to a value. -/
def setKey {α : Type} (key : String) (value : α) : List (String × α) → List (String × α)
  | [] => [(key, value)]
  | (k, v) :: rest =>
    if key < k then (key, value) :: (k, v) :: rest
    else if key = k then (key, value) :: rest
    else (k, v) :: setKey key value rest

/-- A map with the entries of another one set in it, one by one. -/
def extend {α : Type} (entries more : List (String × α)) : List (String × α) :=
  more.foldl (fun map (key, value) => setKey key value map) entries

/-- The fields of an object added to a map one by one, a later value replacing an earlier one. -/
def addEntries {α : Type} (decode : Decoder α) (room : Nat) :
    List (String × α) → List (Quoted × Node) → Except Fault (List (String × α))
  | entries, [] => .ok entries
  | entries, (key, node) :: rest => do
    let key ← key.content
    let value ← decode room node
    addEntries decode room (setKey key value entries) rest

/-- An object whose keys are free. -/
def Decoder.entries {α : Type} (decode : Decoder α) : Decoder (List (String × α))
  | room, .object fields ending => do
    let room ← enter room
    let entries ← addEntries decode room [] fields
    ending.finish
    return entries
  | _, node => .error node.misfitFault

/-- One of several words, written as a text or as the object of the word and null. The word comes
first: an object that does not open with a quoted key is malformed, whatever stands there instead. -/
def Decoder.choice {α : Type} (words : List (String × α)) : Decoder α
  | _, .text value => do
    let content ← value.content
    match words.lookup content with
    | some meaning => .ok meaning
    | none => .error .misfit
  | room, .object fields ending => do
    let _ ← enter room
    match fields with
    | [] =>
      ending.finish
      .error .malformed
    | (key, node) :: rest =>
      let content ← key.content
      match words.lookup content with
      | none => .error .misfit
      | some meaning =>
        match node, rest with
        | .null, [] =>
          ending.close
          .ok meaning
        | .null, _ :: _ => .error .malformed
        | other, _ => .error other.misfitFault
  | _, .absent => .error .cutShort
  | _, _ => .error .malformed

/-- A field of a record: how its value changes the record read so far. -/
structure Field (α : Type) where
  /-- The key of the field. -/
  name : String
  /-- A record without the field is refused. -/
  required : Bool
  /-- Reads the value of the field into the record. -/
  read : Nat → Node → Except Fault (α → α)

/-- A field that keeps its initial value when it is not given. -/
def optionalField {α β : Type} (name : String) (decode : Decoder β) (set : β → α → α) : Field α :=
  ⟨name, false, fun room node => (decode room node).map set⟩

/-- A field that has to be given. -/
def requiredField {α β : Type} (name : String) (decode : Decoder β) (set : β → α → α) : Field α :=
  ⟨name, true, fun room node => (decode room node).map set⟩

/-- The fields of an object read into a record: a field of the record must not be given twice, other
keys are skipped. The result holds the names of the fields met. -/
def readKeyed {α : Type} (fields : List (Field α)) (room : Nat) :
    List String → α → List (Quoted × Node) → Except Fault (List String × α)
  | met, record, [] => .ok (met, record)
  | met, record, (key, node) :: rest => do
    let key ← key.content
    match fields.find? (·.name == key) with
    | some field =>
      if key ∈ met then .error .misfit
      else
        let set ← field.read room node
        readKeyed fields room (key :: met) (set record) rest
    | none =>
      match node.skipFault with
      | some fault => .error fault
      | none => readKeyed fields room met record rest

/-- The items of an array read into a record in the order of its fields. Items beyond the last field
meet the fault `onExtra`. -/
def readPositional {α : Type} (onExtra : Fault) (room : Nat) :
    List (Field α) → α → List Node → Ending → Except Fault α
  | [], record, [], ending => do
    ending.close
    return record
  | [], _, _ :: _, _ => .error onExtra
  | field :: fields, record, node :: nodes, ending => do
    let set ← field.read room node
    readPositional onExtra room fields (set record) nodes ending
  | field :: fields, record, [], ending => do
    ending.finish
    if field.required then .error .misfit
    else readPositional onExtra room fields record [] ending

/-- A record given by its fields, starting from the record of initial values. -/
def Decoder.record {α : Type} (initial : α) (fields : List (Field α)) : Decoder α
  | room, .object given ending => do
    let room ← enter room
    let (met, value) ← readKeyed fields room [] initial given
    ending.finish
    if fields.any (fun field => field.required && !(met.contains field.name)) then .error .misfit
    else .ok value
  | room, .array items ending => do
    let room ← enter room
    readPositional .malformed room fields initial items ending
  | _, node => .error node.misfitFault

mutual

/-- The fault met by a reader who takes any value. -/
def Node.readFault (room : Nat) : Node → Option Fault
  | .null | .bool _ => none
  | .number n => n.fault
  | .text value =>
    match value.content with
    | .ok _ => none
    | .error fault => some fault
  | .array items ending => if room ≤ 1 then some .malformed else itemsFault (room - 1) ending items
  | .object fields ending =>
    if room ≤ 1 then some .malformed else fieldsFault (room - 1) ending fields
  | .absent => some .cutShort
  | .broken onRead _ => some onRead

/-- The fault met by a reader who takes any items. -/
def itemsFault (room : Nat) (ending : Ending) : List Node → Option Fault
  | [] =>
    match ending with
    | .closed => none
    | .stopped onMore _ => some onMore
  | item :: rest =>
    match item.readFault room with
    | some fault => some fault
    | none => itemsFault room ending rest

/-- The fault met by a reader who takes any fields. -/
def fieldsFault (room : Nat) (ending : Ending) : List (Quoted × Node) → Option Fault
  | [] =>
    match ending with
    | .closed => none
    | .stopped onMore _ => some onMore
  | (key, value) :: rest =>
    match key.content with
    | .error fault => some fault
    | .ok _ =>
      match value.readFault room with
      | some fault => some fault
      | none => fieldsFault room ending rest

end

/-- The node, if a reader of any value meets no fault in it. -/
def Node.wellRead (room : Nat) (node : Node) : Except Fault Node :=
  match node.readFault room with
  | some fault => .error fault
  | none => .ok node

/-- The value of a whole document. Text behind the value is found after everything else. -/
def Document.read {α : Type} (decode : Decoder α) (document : Document) : Except Fault α := do
  let value ← decode documentRoom document.root
  if document.trailing then .error .malformed else .ok value

end SceneWiring.Json

namespace SceneWiring

/-- The second of two results in a row is the last one, and is there when both are. -/
theorem bind_eq_ok_iff {ε α β : Type} {x : Except ε α} {f : α → Except ε β} {b : β} :
    (x >>= f) = .ok b ↔ ∃ a, x = .ok a ∧ f a = .ok b := by
  cases x with
  | ok a =>
    refine ⟨fun h => ⟨a, rfl, h⟩, ?_⟩
    rintro ⟨a', ha, h⟩
    rwa [Except.ok.inj ha]
  | error e =>
    constructor
    · intro h
      cases h
    · rintro ⟨a, ha, -⟩
      cases ha

/-- Both of two results in a row are there when the last is. -/
theorem exists_of_bind_eq_ok {ε α β : Type} {x : Except ε α} {f : α → Except ε β} {b : β}
    (h : (x >>= f) = .ok b) : ∃ a, x = .ok a ∧ f a = .ok b :=
  bind_eq_ok_iff.1 h

/-- A result that is changed on its way is there before. -/
theorem exists_of_map_eq_ok {ε α β : Type} {x : Except ε α} {f : α → β} {b : β}
    (h : x.map f = .ok b) : ∃ a, x = .ok a ∧ f a = b := by
  cases x with
  | ok a => exact ⟨a, rfl, Except.ok.inj h⟩
  | error e => cases h

end SceneWiring
