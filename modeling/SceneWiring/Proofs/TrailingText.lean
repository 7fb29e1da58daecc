import SceneWiring.Proofs.AncestorTypes
import SceneWiring.Proofs.ArgumentCounts
/-!
# Text behind type arguments

What stands behind the arguments of a written type makes it another type: an array of the first, or
a type inside it. The look-up goes by the text before the first opening bracket and by a count of
commas, so it takes the array, and the inner type, for the type itself. A further list of arguments
behind the first adds to the count. Without arguments the text behind a name is part of the name,
and an array is no declared type.
-/

namespace SceneWiring

/-- The brackets of an array with that many commas in them, perhaps behind the mark of a nullable
type. -/
structure Rank where
  /-- The elements are marked as nullable. -/
  marked : Bool := false
  /-- The commas between the brackets. -/
  commas : Nat := 0

/-- The text of the brackets. -/
def Rank.chars (rank : Rank) : List Char :=
  (if rank.marked then ['?'] else []) ++ '[' :: (List.replicate rank.commas ',' ++ [']'])

/-- The text that makes an array of a type, with an array of arrays for more than one rank. -/
def arraySuffix (ranks : List Rank) : String := String.ofList (ranks.flatMap Rank.chars)

/-- There are no angle brackets in the text that makes an array. -/
theorem notMem_arraySuffix (ranks : List Rank) : '<' ∉ (arraySuffix ranks).toList := by
  rw [arraySuffix, String.toList_ofList, List.mem_flatMap]
  rintro ⟨rank, -, hmem⟩
  have hcommas : '<' ∉ List.replicate rank.commas ',' := fun h =>
    absurd (List.eq_of_mem_replicate h) (by decide)
  unfold Rank.chars at hmem
  split at hmem <;> simp [hcommas] at hmem

/-- There are square brackets in the text that makes an array. -/
theorem mem_arraySuffix {ranks : List Rank} (h : ranks ≠ []) :
    '[' ∈ (arraySuffix ranks).toList := by
  obtain ⟨rank, rest, rfl⟩ := List.exists_cons_of_ne_nil h
  rw [arraySuffix, String.toList_ofList, List.flatMap_cons, Rank.chars, List.append_assoc]
  exact List.mem_append_right _ List.mem_cons_self

/-- Outside all angle brackets the scan counts nothing. -/
theorem topCommas_append_unapplied {front : List Char} (h : '<' ∉ front) (rest : List Char) :
    topCommas 0 (front ++ rest) = topCommas 0 rest := by
  induction front with
  | nil => rfl
  | cons c front ih =>
    obtain ⟨hc, hfront⟩ := List.ne_and_not_mem_of_not_mem_cons h
    have hpassed : topCommas 0 (c :: (front ++ rest)) = topCommas 0 (front ++ rest) := by
      rw [topCommas, if_neg (Ne.symm hc)]
      split
      · rfl
      · rw [if_neg fun hcomma => absurd hcomma.2 (by decide)]
    rw [List.cons_append, hpassed, ih hfront]

/-- In a text without angle brackets the scan counts nothing. -/
theorem topCommas_of_unapplied {text : List Char} (h : '<' ∉ text) : topCommas 0 text = 0 := by
  have hnone := topCommas_append_unapplied h []
  rwa [List.append_nil] at hnone

namespace Compilation

variable {c : Compilation} {d : TypeDecl}

/-- The declared names are dotted names: there are no marks of written types in them, and neither
brackets nor commas. -/
structure DottedNames (c : Compilation) : Prop where
  /-- There are no marks of written types in the names. -/
  clean : c.CleanNames
  /-- There are no brackets and no commas in the names. -/
  plain : ∀ d ∈ c.types, ∀ ch ∈ d.fullName.toList, isGrouping ch = false

instance (c : Compilation) : Decidable c.DottedNames :=
  have : Decidable (∀ d ∈ c.types, ∀ ch ∈ d.fullName.toList, isGrouping ch = false) :=
    decidable_of_iff (c.types.all fun d => d.fullName.toList.all (!isGrouping ·))
      (by simp only [List.all_eq_true, Bool.not_eq_true'])
  decidable_of_iff (c.CleanNames ∧ ∀ d ∈ c.types, ∀ ch ∈ d.fullName.toList, isGrouping ch = false)
    ⟨fun h => ⟨h.1, h.2⟩, fun h => ⟨h.clean, h.plain⟩⟩

/-- A text with square brackets and without type arguments denotes nothing. -/
theorem DottedNames.lookup_of_square (h : c.DottedNames) {text : String}
    (hsquare : '[' ∈ text.toList) (hunapplied : '<' ∉ text.toList) : c.lookup text = none := by
  have hrest : '[' ∈ dropRootMark text.toList := mem_dropRootMark hsquare (by decide)
  have hfree {e : TypeDecl} (he : e ∈ c.types) : '[' ∉ e.fullName.toList := by
    intro hmem
    have hplain := h.plain e he '[' hmem
    cases hplain
  cases hfound : c.lookup text with
  | none => rfl
  | some e =>
    obtain ⟨he, hsame | ⟨-, happlied, -⟩ | ⟨-, -, hsame, -⟩⟩ := lookup_eq_some_iff.1 hfound
    · rw [← hsame, TypeDecl.toList_metadataName, List.mem_append] at hrest
      exact (hrest.elim (hfree he) (notMem_arityMark (by decide) (by decide) _)).elim
    · exact absurd (mem_of_mem_dropRootMark happlied) hunapplied
    · exact absurd (hsame ▸ mem_dropRootMark hrest (by decide)) (hfree he)

/-- The text behind the arguments of a name does not count for what the name denotes, unless there
are further arguments in it. -/
theorem CleanNames.lookup_withArguments_append (h : c.CleanNames) {name suffix : String}
    (hname : '<' ∉ name.toList) (hsuffix : '<' ∉ suffix.toList) (arguments : ArgumentList) :
    c.lookup (withArguments name arguments ++ suffix) =
      c.lookup (withArguments name arguments) := by
  have hbracketed (behind : List Char) (hbehind : topCommas 0 behind = 0) :
      topCommas 0 ('<' :: (arguments.chars ++ '>' :: behind)) =
        arguments.separators + arguments.looseCommas := by
    rw [arguments.topCommas_bracketed, hbehind, Nat.add_zero]
  have hwithout : withArguments name arguments =
      String.ofList (name.toList ++ '<' :: (arguments.chars ++ ['>'])) := by
    rw [← toList_withArguments, String.ofList_toList]
  rw [withArguments_append, hwithout, h.lookup_bracketed hname, h.lookup_bracketed hname,
    hbracketed _ (topCommas_of_unapplied hsuffix), hbracketed [] rfl]

end Compilation

/-- The text behind the arguments of a name does not count for the name of the definition. -/
theorem definitionName_withArguments_append {name : String} (h : '<' ∉ name.toList)
    (arguments : ArgumentList) (suffix : String) :
    definitionName (withArguments name arguments ++ suffix) =
      definitionName (withArguments name arguments) := by
  unfold definitionName
  rw [String.toList_append, toList_withArguments, List.append_assoc, List.cons_append,
    definitionChars_append h, definitionChars_append h]

namespace Context

variable {x : Context} {owner : TypeDecl} {type type' : TypeRef}

/-- A written type is classified by the name of its definition and by what it denotes. -/
theorem classify_congr (hname : type.definitionName = type'.definitionName)
    (hdenotes : x.compilation.resolve type = x.compilation.resolve type') :
    x.classify owner type = x.classify owner type' := by
  unfold classify candidates
  rw [hname, hdenotes]

/-- A written type that denotes nothing and is no type parameter of the class is not supported. -/
theorem classify_of_unresolved (hparameter : owner.typeParameter? type.definitionName = none)
    (hnone : x.compilation.resolve type = none) : x.classify owner type = .unsupported := by
  unfold classify candidates
  rw [hparameter, hnone]
  rfl

/-- Text behind a written type is passed over: with it or without it the type denotes the same, and
is classified alike in every class. -/
def PassesOver (x : Context) (written suffix : String) : Prop :=
  x.compilation.lookup (written ++ suffix) = x.compilation.lookup written ∧
    ∀ (owner : TypeDecl) (nullable : Bool),
      x.classify owner ⟨written ++ suffix, nullable⟩ = x.classify owner ⟨written, nullable⟩

/-- Text behind the arguments of a name is passed over, unless there are further arguments in it. -/
theorem passesOver_of_unapplied (h : x.compilation.CleanNames) {name suffix : String}
    (hname : '<' ∉ name.toList) (hsuffix : '<' ∉ suffix.toList) (arguments : ArgumentList) :
    x.PassesOver (withArguments name arguments) suffix := by
  have hdenotes := h.lookup_withArguments_append hname hsuffix arguments
  exact ⟨hdenotes, fun owner nullable =>
    classify_congr (definitionName_withArguments_append hname arguments suffix) hdenotes⟩

/-- An array of a type without arguments is not supported, unless a type parameter of the class has
square brackets in its name. -/
theorem classify_of_square (h : x.compilation.DottedNames) {text : String}
    (hsquare : '[' ∈ text.toList) (hunapplied : '<' ∉ text.toList)
    (hparameters : ∀ p ∈ owner.typeParameters, '[' ∉ p.name.toList) (nullable : Bool) :
    x.classify owner ⟨text, nullable⟩ = .unsupported := by
  refine classify_of_unresolved ?_ (h.lookup_of_square hsquare hunapplied)
  cases hfound : owner.typeParameter? (definitionName text) with
  | none => exact hfound
  | some p =>
    have hname : p.name = definitionName text := by simpa using List.find?_some hfound
    refine absurd ?_ (hparameters p (List.mem_of_find?_eq_some hfound))
    rw [hname, definitionName, String.toList_ofList, definitionChars_of_unapplied hunapplied]
    exact mem_dropRootMark hsquare (by decide)

end Context

/-- In a program of dotted names, text behind the type arguments of a name is passed over as long as
there are no further arguments in it. So an array of the type, and a type inside it, denote the type
itself and are classified like it. Arguments of the inner type are counted together with those of
the outer one, which is denoted when it has as many parameters. An array of a type without arguments
denotes nothing, and it is not supported unless a type parameter of the class has square brackets in
its name. -/
theorem text_behind_arguments_is_passed_over {x : Context} (hnames : x.compilation.DottedNames)
    {name : String} (hname : '<' ∉ name.toList) (arguments : ArgumentList) :
    (∀ suffix : String, '<' ∉ suffix.toList →
      x.PassesOver (withArguments name arguments) suffix) ∧
    (∀ ranks : List Rank, x.PassesOver (withArguments name arguments) (arraySuffix ranks)) ∧
    (∀ d ∈ x.compilation.types, ∀ inner : String, '<' ∉ inner.toList →
      (x.compilation.lookup (withArguments d.fullName arguments ++ ("." ++ inner)) = some d ↔
        d.typeParameters.length = arguments.count + arguments.looseCommas) ∧
      ∀ others : ArgumentList,
        (x.compilation.lookup
            (withArguments d.fullName arguments ++ withArguments ("." ++ inner) others) = some d ↔
          d.typeParameters.length = arguments.count + arguments.looseCommas +
            (others.separators + others.looseCommas))) ∧
    (∀ ranks : List Rank, ranks ≠ [] →
      x.compilation.lookup (name ++ arraySuffix ranks) = none ∧
      ∀ owner : TypeDecl, (∀ p ∈ owner.typeParameters, '[' ∉ p.name.toList) → ∀ nullable : Bool,
        x.classify owner ⟨name ++ arraySuffix ranks, nullable⟩ = .unsupported) := by
  have hclean := hnames.clean
  refine ⟨fun suffix hsuffix => Context.passesOver_of_unapplied hclean hname hsuffix arguments,
    fun ranks =>
      Context.passesOver_of_unapplied hclean hname (notMem_arraySuffix ranks) arguments,
    fun d hd inner hinner => ?_, fun ranks hranks => ?_⟩
  · have hmember : '<' ∉ ("." ++ inner).toList := by
      rw [String.toList_append, List.mem_append]
      exact fun hmem => hmem.elim (by decide) hinner
    refine ⟨?_, fun others => ?_⟩
    · rw [hclean.lookup_withArguments_append_self_iff hd, topCommas_of_unapplied hmember,
        Nat.add_zero]
    · rw [hclean.lookup_withArguments_append_self_iff hd, toList_withArguments,
        topCommas_append_unapplied hmember, others.topCommas_bracketed, topCommas, Nat.add_zero]
  · have hsquare : '[' ∈ (name ++ arraySuffix ranks).toList := by
      rw [String.toList_append]
      exact List.mem_append_right _ (mem_arraySuffix hranks)
    have hunapplied : '<' ∉ (name ++ arraySuffix ranks).toList := by
      rw [String.toList_append, List.mem_append]
      exact fun hmem => hmem.elim hname (notMem_arraySuffix ranks)
    exact ⟨hnames.lookup_of_square hsquare hunapplied, fun owner hparameters nullable =>
      Context.classify_of_square hnames hsquare hunapplied hparameters nullable⟩

/-- An array of boxes of integers denotes the box of anything in the lid, and an array of nodes
denotes nothing. -/
theorem array_of_boxes_is_passed_over :
    let boxes := withArguments "Game.Box" (.one intSyntax)
    boxContext.compilation.DottedNames ∧ '<' ∉ "Game.Box".toList ∧ '<' ∉ "Godot.Node".toList ∧
      boxes ++ arraySuffix [{}] = "Game.Box<int>[]" ∧
      boxContext.PassesOver boxes (arraySuffix [{}]) ∧
      "Godot.Node" ++ arraySuffix [{}] = "Godot.Node[]" ∧
      boxContext.compilation.lookup ("Godot.Node" ++ arraySuffix [{}]) = none := by
  intro boxes
  have hnames : boxContext.compilation.DottedNames := by decide +kernel
  have hbox : '<' ∉ "Game.Box".toList := by decide
  have hnode : '<' ∉ "Godot.Node".toList := by decide
  obtain ⟨-, harray, -, -⟩ := text_behind_arguments_is_passed_over hnames hbox (.one intSyntax)
  obtain ⟨-, -, -, hplain⟩ := text_behind_arguments_is_passed_over hnames hnode (.one intSyntax)
  exact ⟨hnames, hbox, hnode, by decide +kernel, harray [{}], by decide +kernel,
    (hplain [{}] (List.cons_ne_nil _ _)).1⟩

/-- An array of boxes of integers is taken for the box of anything and fetched by path, and so is a
type inside that box. An array of nodes denotes nothing and is not supported. -/
theorem array_of_boxes_taken_for_box :
    let lid := boxTypes[4]
    let boxes := withArguments "Game.Box" (.one intSyntax)
    boxContext.compilation.DottedNames ∧
      boxes ++ arraySuffix [{}] = "Game.Box<int>[]" ∧
      boxContext.compilation.lookup "Game.Box<int>[]" = some boxTypes[3] ∧
      boxContext.classify lid ⟨"Game.Box<int>[]", false⟩ = .path ∧
      boxContext.compilation.lookup "Game.Box<int>.Latch" = some boxTypes[3] ∧
      boxContext.compilation.lookup "Godot.Node[]" = none ∧
      boxContext.classify lid ⟨"Godot.Node[]", false⟩ = .unsupported := by
  decide +kernel

end SceneWiring
