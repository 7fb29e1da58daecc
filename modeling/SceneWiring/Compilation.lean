import SceneWiring.Declaration
import SceneWiring.Failure
import Std.Data.TreeMap
/-!
# Compilations

The declared types of a program, indexed by metadata name and by full name. The metadata names are
distinct, so a declared type is determined by its metadata name. Main statements: the two indexes
hold exactly what a scan of the type list finds, and a compilation can be made of a type list exactly
when its metadata names are distinct.
-/

namespace SceneWiring

/-- The types of a list under their metadata names; of two with the same name the earlier stays. -/
def keyIndex (types : List TypeDecl) : Std.TreeMap String TypeDecl :=
  types.foldr (fun d index => index.insert d.metadataName d) ∅

/-- The types of a list under their full names, in the order of the list. -/
def nameIndex (types : List TypeDecl) : Std.TreeMap String (List TypeDecl) :=
  types.foldr (fun d index => index.insert d.fullName (d :: index.getD d.fullName [])) ∅

/-- Looking up a metadata name finds the first type of that name. -/
theorem getElem?_keyIndex (types : List TypeDecl) (key : String) :
    (keyIndex types)[key]? = types.find? (·.metadataName == key) := by
  induction types with
  | nil => simp [keyIndex]
  | cons d rest ih =>
    rw [keyIndex] at ih ⊢
    rw [List.foldr_cons, Std.TreeMap.getElem?_insert, ih, List.find?_cons]
    by_cases h : d.metadataName = key
    · simp [h]
    · have differ : (d.metadataName == key) = false := by simpa using h
      simp [h, differ]

/-- Looking up a full name finds all types of that name, in order. -/
theorem getD_nameIndex (types : List TypeDecl) (name : String) :
    (nameIndex types).getD name [] = types.filter (·.fullName == name) := by
  induction types with
  | nil => simp [nameIndex]
  | cons d rest ih =>
    rw [nameIndex] at ih ⊢
    rw [List.foldr_cons, Std.TreeMap.getD_insert, List.filter_cons]
    by_cases h : d.fullName = name
    · subst h
      simp [ih]
    · simp [h, ih]

/-- The first name of a list that repeats an earlier one, where `seen` holds the names before it. -/
def firstRepeat (seen : List String) : List String → Option String
  | [] => none
  | name :: rest => if name ∈ seen then some name else firstRepeat (name :: seen) rest

/-- Names without a repeat are distinct, and distinct from those before. -/
theorem firstRepeat_eq_none_iff (seen names : List String) :
    firstRepeat seen names = none ↔ names.Nodup ∧ ∀ name ∈ names, name ∉ seen := by
  induction names generalizing seen with
  | nil => simp [firstRepeat]
  | cons name rest ih =>
    rw [firstRepeat]
    by_cases h : name ∈ seen
    · simp [h]
    · rw [if_neg h, ih, List.nodup_cons]
      constructor
      · rintro ⟨nodup, fresh⟩
        refine ⟨⟨fun mem => fresh name mem List.mem_cons_self, nodup⟩, ?_⟩
        intro other mem
        rcases List.mem_cons.1 mem with rfl | mem
        · exact h
        · exact fun seenBefore => fresh other mem (List.mem_cons_of_mem _ seenBefore)
      · rintro ⟨⟨notMem, nodup⟩, fresh⟩
        refine ⟨nodup, fun other mem => ?_⟩
        rw [List.mem_cons, not_or]
        exact ⟨fun same => notMem (same ▸ mem), fresh other (List.mem_cons_of_mem _ mem)⟩

/-- The declared types of a program and the classes met in its source. -/
structure Compilation where
  /-- The declared types, in order. -/
  types : List TypeDecl
  /-- The classes met in the source, in order. -/
  mentions : List Mention
  /-- The types under their metadata names. -/
  byKey : Std.TreeMap String TypeDecl
  /-- The types under their full names. -/
  byName : Std.TreeMap String (List TypeDecl)
  /-- The metadata names are distinct. -/
  distinct : (types.map TypeDecl.metadataName).Nodup
  /-- The first index is that of the types. -/
  byKey_eq : byKey = keyIndex types
  /-- The second index is that of the types. -/
  byName_eq : byName = nameIndex types

namespace Compilation

/-- The compilation of a list of types, unless two of them have the same metadata name. -/
def ofTypes (types : List TypeDecl) (mentions : List Mention) : Except Failure Compilation :=
  match h : firstRepeat [] (types.map TypeDecl.metadataName) with
  | some key => .error (.duplicateType key)
  | none =>
    .ok ⟨types, mentions, keyIndex types, nameIndex types,
      ((firstRepeat_eq_none_iff _ _).1 h).1, rfl, rfl⟩

/-- The type of that metadata name. -/
def withKey? (c : Compilation) (key : String) : Option TypeDecl := c.byKey[key]?

/-- The type of that full name, if it is the only one. -/
def withName? (c : Compilation) (name : String) : Option TypeDecl :=
  match c.byName.getD name [] with
  | [only] => some only
  | _ => none

/-- The declared type that a written name denotes. One root mark is passed over. Then the name is
taken as a metadata name; else, with type arguments, as the definition with that many parameters;
else, without, as the only definition of that full name. -/
def lookup (c : Compilation) (name : String) : Option TypeDecl :=
  let chars := dropRootMark name.toList
  match c.withKey? (String.ofList chars) with
  | some d => some d
  | none =>
    let definition := String.ofList (definitionChars chars)
    match arity? chars with
    | some n => c.withKey? (definition ++ "`" ++ toString n)
    | none => c.withName? definition

/-- The declared type that a written type denotes. -/
def resolve (c : Compilation) (type : TypeRef) : Option TypeDecl := c.lookup type.name

/-- The position of a declared type in the list of types. -/
def position (c : Compilation) (d : TypeDecl) : Nat :=
  c.types.findIdx (·.metadataName == d.metadataName)

/-- How a written type appears in generated code: a declared type by its full name from the root
with the type arguments as written, any other type as written. -/
def display (c : Compilation) (type : TypeRef) : String :=
  match c.resolve type with
  | some d => "global::" ++ d.fullName ++ String.ofList (argumentsOf type.name.toList)
  | none => type.name

theorem withKey?_eq_find? (c : Compilation) (key : String) :
    c.withKey? key = c.types.find? (·.metadataName == key) := by
  rw [withKey?, c.byKey_eq, getElem?_keyIndex]

theorem withName?_eq_filter (c : Compilation) (name : String) :
    c.withName? name =
      match c.types.filter (·.fullName == name) with
      | [only] => some only
      | _ => none := by
  rw [withName?, c.byName_eq, getD_nameIndex]

/-- A metadata name that finds nothing is that of no declared type. -/
theorem withKey?_eq_none_iff {c : Compilation} {key : String} :
    c.withKey? key = none ↔ ∀ d ∈ c.types, d.metadataName ≠ key := by
  rw [c.withKey?_eq_find?, List.find?_eq_none]
  simp

/-- A type found by its metadata name is declared and has that name. -/
theorem mem_of_withKey? {c : Compilation} {key : String} {d : TypeDecl}
    (h : c.withKey? key = some d) : d ∈ c.types ∧ d.metadataName = key := by
  rw [withKey?_eq_find?] at h
  exact ⟨List.mem_of_find?_eq_some h, by simpa using List.find?_some h⟩

/-- A type found by its full name is declared and has that name. -/
theorem mem_of_withName? {c : Compilation} {name : String} {d : TypeDecl}
    (h : c.withName? name = some d) : d ∈ c.types ∧ d.fullName = name := by
  rw [withName?_eq_filter] at h
  split at h
  · rename_i only heq
    cases h
    have mem : d ∈ c.types.filter (·.fullName == name) := by simp [heq]
    simpa using List.mem_filter.1 mem
  · cases h

/-- Whatever a name denotes is declared. -/
theorem mem_of_lookup {c : Compilation} {name : String} {d : TypeDecl}
    (h : c.lookup name = some d) : d ∈ c.types := by
  rw [lookup] at h
  split at h
  · rename_i found heq
    cases h
    exact (mem_of_withKey? heq).1
  · split at h
    · exact (mem_of_withKey? h).1
    · exact (mem_of_withName? h).1

end Compilation

end SceneWiring
