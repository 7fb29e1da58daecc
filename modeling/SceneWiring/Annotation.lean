import SceneWiring.Declaration
/-!
# Annotations

The five attributes that ask for code. An attribute is recognised by the last part of its name, with
or without the ending `Attribute`. Each annotation reads a few arguments; an argument of the wrong
kind counts as not given.
-/

namespace SceneWiring

/-- The kinds of annotations. -/
inductive AnnotationKind where
  | get
  | find
  | injectAncestor
  | onReady
  | selectorEnum
deriving DecidableEq, Repr, Inhabited

/-- What an annotation may stand on. -/
inductive Target where
  /-- A field or property. -/
  | member
  | method
  /-- A class. -/
  | type
deriving DecidableEq, Repr, Inhabited

namespace AnnotationKind

/-- All kinds. -/
def all : List AnnotationKind := [.get, .find, .injectAncestor, .onReady, .selectorEnum]

/-- The short name of a kind. -/
def name : AnnotationKind → String
  | .get => "OnReadyGet"
  | .find => "OnReadyFind"
  | .injectAncestor => "InjectAncestorValue"
  | .onReady => "OnReady"
  | .selectorEnum => "GenerateDataSelectorEnum"

/-- What a kind may stand on. -/
def target : AnnotationKind → Target
  | .get | .find | .injectAncestor => .member
  | .onReady => .method
  | .selectorEnum => .type

/-- The part of a name after its last dot. -/
def lastPart (name : List Char) : List Char := (name.reverse.takeWhile (· != '.')).reverse

/-- The ending that an attribute name may have. -/
def attributeEnding : List Char := "Attribute".toList

/-- A name without the ending, if it has it. -/
def dropEnding (name : List Char) : List Char :=
  if attributeEnding.isSuffixOf name then name.take (name.length - attributeEnding.length) else name

/-- The kind of annotation that an attribute name stands for. -/
def ofAttributeName (name : String) : Option AnnotationKind :=
  let short := dropEnding (lastPart name.toList)
  all.find? fun kind => kind.name.toList == short

end AnnotationKind

/-- The options of the annotations that fetch a value. -/
structure FetchOptions where
  /-- The default path, pattern or resource. -/
  fallback : Option String := none
  /-- The member may end up null. -/
  orNull : Bool := false
  /-- The companion is not shown in the editor. -/
  hidden : Bool := false
  /-- The property to read off the fetched node. -/
  property : Option String := none
deriving DecidableEq, Repr, Inhabited

/-- A recognised annotation with its arguments. -/
inductive Annotation where
  /-- Fetch a node by path, or load a resource. -/
  | get (options : FetchOptions)
  /-- Find a node by a pattern of its name. -/
  | find (options : FetchOptions) (recursive owned : Bool)
  /-- Take the value from an ancestor node. -/
  | injectAncestor (ancestorType ancestorName : Option String)
  /-- Call the method, at its turn. -/
  | onReady (order : Int)
  /-- Make an enumeration of the fields of the class. -/
  | selectorEnum (name : Option String)
deriving DecidableEq, Repr, Inhabited

/-- The kind of an annotation. -/
def Annotation.kind : Annotation → AnnotationKind
  | .get _ => .get
  | .find _ _ _ => .find
  | .injectAncestor _ _ => .injectAncestor
  | .onReady _ => .onReady
  | .selectorEnum _ => .selectorEnum

/-- The text, unless it is empty. -/
def nonEmpty (text : String) : Option String := if text = "" then none else some text

/-- The options with a named argument set. A value of the wrong kind sets nothing, and an empty text
stands for none. -/
def FetchOptions.set (options : FetchOptions) (key : String) (value : Constant) : FetchOptions :=
  match key with
  | "Default" =>
    match value.text? with
    | some text => { options with fallback := nonEmpty text }
    | none => options
  | "OrNull" =>
    match value.bool? with
    | some given => { options with orNull := given }
    | none => options
  | "Private" =>
    match value.bool? with
    | some given => { options with hidden := given }
    | none => options
  | "Property" =>
    match value.text? with
    | some text => { options with property := nonEmpty text }
    | none => options
  | _ => options

/-- A named argument sets the part of the options that has its name, if it is of the right kind. -/
theorem FetchOptions.set_eq (options : FetchOptions) (name : String) (value : Constant) :
    options.set name value =
      { fallback :=
          if name = "Default" then (value.text?.map nonEmpty).getD options.fallback
          else options.fallback
        orNull := if name = "OrNull" then value.bool?.getD options.orNull else options.orNull
        hidden := if name = "Private" then value.bool?.getD options.hidden else options.hidden
        property :=
          if name = "Property" then (value.text?.map nonEmpty).getD options.property
          else options.property } := by
  unfold FetchOptions.set
  split
  · cases value.text? <;> simp
  · cases value.bool? <;> simp
  · cases value.bool? <;> simp
  · cases value.text? <;> simp
  · simp_all

namespace Attribute

/-- The named argument. -/
def named? (a : Attribute) (key : String) : Option Constant := a.named.lookup key

/-- The named argument, if it is a text. -/
def namedText? (a : Attribute) (key : String) : Option String := (a.named? key).bind (·.text?)

/-- The named argument, if it is a truth value. -/
def namedBool? (a : Attribute) (key : String) : Option Bool := (a.named? key).bind (·.bool?)

/-- The last text among the positional arguments. -/
def lastText? (a : Attribute) : Option String := (a.args.filterMap Constant.text?).getLast?

/-- The arguments of a list as a map has them that holds the names in `seen` already: each name once,
with its first value. -/
def distinctNamed (seen : List String) : List (String × Constant) → List (String × Constant)
  | [] => []
  | (key, value) :: rest =>
    if key ∈ seen then distinctNamed seen rest
    else (key, value) :: distinctNamed (key :: seen) rest

/-- The options of a fetching annotation. They are the default options with the last positional text
as the default, on which the named arguments are set one after the other. -/
def fetchOptions (a : Attribute) : FetchOptions :=
  (distinctNamed [] a.named).foldl (fun options argument => options.set argument.1 argument.2)
    { fallback := a.lastText?.bind nonEmpty }

/-- The turn of a method among the lifecycle statements: an integer of 32 bits, else zero. -/
def order (a : Attribute) : Int :=
  match (a.named? "Order").bind (·.int?) with
  | some value => if -Int.pow 2 31 ≤ value ∧ value < Int.pow 2 31 then value else 0
  | none => 0

/-- The annotation of a kind with the arguments of an attribute. -/
def readAs (a : Attribute) : AnnotationKind → Annotation
  | .get => .get a.fetchOptions
  | .find =>
    .find a.fetchOptions ((a.namedBool? "Recursive").getD true) ((a.namedBool? "Owned").getD true)
  | .injectAncestor => .injectAncestor ((a.args[0]?).bind (·.type?)) ((a.args[1]?).bind (·.text?))
  | .onReady => .onReady a.order
  | .selectorEnum => .selectorEnum (a.lastText?.bind nonEmpty)

/-- The annotation that an attribute is, if it is one. -/
def annotation? (a : Attribute) : Option Annotation :=
  (AnnotationKind.ofAttributeName a.name).map a.readAs

/-- A part of the options that one named argument sets is what the value under its name sets it to,
however many other arguments are set. -/
theorem part_foldl_set {β : Type} (part : FetchOptions → β) (key : String)
    (read : Constant → Option β)
    (hset : ∀ options name value, part (options.set name value) =
      if name = key then (read value).getD (part options) else part options)
    (seen : List String) (named : List (String × Constant)) (options : FetchOptions) :
    part ((distinctNamed seen named).foldl
        (fun options argument => options.set argument.1 argument.2) options) =
      if key ∈ seen then part options else ((named.lookup key).bind read).getD (part options) := by
  induction named generalizing seen options with
  | nil => simp [distinctNamed]
  | cons argument rest ih =>
    obtain ⟨name, value⟩ := argument
    rw [distinctNamed, List.lookup_cons]
    by_cases hsame : key = name
    · subst hsame
      rw [beq_self_eq_true]
      by_cases hseen : key ∈ seen
      · rw [if_pos hseen, ih, if_pos hseen, if_pos hseen]
      · rw [if_neg hseen, List.foldl_cons, ih, if_pos List.mem_cons_self, hset, if_pos rfl,
          if_neg hseen]
        rfl
    · rw [beq_false_of_ne hsame]
      by_cases hseen : name ∈ seen
      · rw [if_pos hseen, ih]
      · have hother : key ∈ name :: seen ↔ key ∈ seen := by simp [hsame]
        rw [if_neg hseen, List.foldl_cons, ih, hset, if_neg (Ne.symm hsame)]
        simp only [hother]

/-- The options are those that the named arguments look up to: the default is the one under `Default`
or else the last positional text. -/
theorem fetchOptions_eq (a : Attribute) : a.fetchOptions =
    { fallback := ((a.namedText? "Default").or a.lastText?).bind nonEmpty
      orNull := (a.namedBool? "OrNull").getD false
      hidden := (a.namedBool? "Private").getD false
      property := (a.namedText? "Property").bind nonEmpty } := by
  have hset {β : Type} (part : FetchOptions → β) (key : String) (read : Constant → Option β)
      (hpart : ∀ options name value, part (options.set name value) =
        if name = key then (read value).getD (part options) else part options) :
      part a.fetchOptions =
        ((a.named? key).bind read).getD (part { fallback := a.lastText?.bind nonEmpty }) :=
    part_foldl_set part key read hpart [] a.named _
  have htext (key : String) (last : Option String) :
      ((a.named? key).bind fun c => c.text?.map nonEmpty).getD (last.bind nonEmpty) =
        ((a.namedText? key).or last).bind nonEmpty := by
    rw [namedText?]
    cases a.named? key with
    | none => rfl
    | some c => cases c <;> rfl
  have hfallback := hset (·.fallback) "Default" (fun c => c.text?.map nonEmpty)
    fun options name value => by rw [FetchOptions.set_eq]
  have horNull := hset (·.orNull) "OrNull" (·.bool?)
    fun options name value => by rw [FetchOptions.set_eq]
  have hhidden := hset (·.hidden) "Private" (·.bool?)
    fun options name value => by rw [FetchOptions.set_eq]
  have hproperty := hset (·.property) "Property" (fun c => c.text?.map nonEmpty)
    fun options name value => by rw [FetchOptions.set_eq]
  rw [htext] at hfallback
  have hproperty := hproperty.trans (htext "Property" none)
  rw [Option.or_none] at hproperty
  calc
    a.fetchOptions = ⟨a.fetchOptions.fallback, a.fetchOptions.orNull, a.fetchOptions.hidden,
        a.fetchOptions.property⟩ := rfl
    _ = _ := by
      rw [hfallback, horNull, hhidden, hproperty]
      rfl

end Attribute

/-- An attribute read as a kind gives an annotation of that kind. -/
theorem kind_readAs (a : Attribute) (kind : AnnotationKind) : (a.readAs kind).kind = kind := by
  cases kind <;> rfl

end SceneWiring
