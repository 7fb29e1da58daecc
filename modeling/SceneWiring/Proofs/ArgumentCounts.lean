import Mathlib.Data.List.Count
import SceneWiring.Proofs.RootedNames
import SceneWiring.Proofs.TypeSyntax
/-!
# Definitions told apart by the number of their arguments

Definitions of one full name differ in the number of their type parameters. A reference with type
arguments denotes the one that has as many parameters as arguments have been counted. For arguments
that are names, with further arguments or without, the count is right, however deep the arguments
are nested. The parts of a tuple and the dimensions of an array count as arguments of their own,
unless further angle brackets enclose them.
-/

namespace SceneWiring

namespace Compilation

variable {c : Compilation} {d e : TypeDecl}

/-- The name from the root denotes what the name denotes that does not start at the root. -/
theorem lookup_fromRoot (c : Compilation) {name : String} (h : ¬rootMark <+: name.toList) :
    c.lookup ("global::" ++ name) = c.lookup name := by
  unfold lookup
  rw [dropRootMark_fromRoot, dropRootMark_eq_self_iff.2 h]

namespace CleanNames

/-- A name with arguments is taken for the definition of that name with as many parameters as the
scan finds, whatever stands behind the first opening bracket. -/
theorem lookup_bracketed (h : c.CleanNames) {front : List Char} (hfront : '<' ∉ front)
    (rest : List Char) :
    c.lookup (String.ofList (front ++ '<' :: rest)) =
      c.withKey? (String.ofList (Text.dropBlanksRight (dropRootMark (dropRootMark front)) ++
        arityMark (topCommas 0 ('<' :: rest) + 1))) := by
  have hrootless : '<' ∉ dropRootMark front := mt mem_of_mem_dropRootMark hfront
  have hmem : '<' ∈ dropRootMark front ++ '<' :: rest :=
    List.mem_append_right _ List.mem_cons_self
  have hunkeyed : c.withKey? (String.ofList (dropRootMark front ++ '<' :: rest)) = none := by
    refine withKey?_eq_none_iff.2 fun e he hkey => ?_
    refine h.notMem_metadataName he (by decide : isNameMark '<' = true) (by decide) (by decide) ?_
    rwa [hkey, String.toList_ofList]
  have harity : arity? (dropRootMark front ++ '<' :: rest) =
      some (topCommas 0 ('<' :: rest) + 1) := by
    rw [arity?, if_pos hmem, argumentsOf_append hrootless]
  unfold lookup
  rw [String.toList_ofList, dropRootMark_append_arguments]
  dsimp only
  rw [hunkeyed, harity, definitionChars_append hrootless]
  dsimp only
  congr 1
  rw [← String.toList_inj, toList_append_arity _ (Nat.succ_ne_zero _), String.toList_ofList,
    String.toList_ofList]

/-- A name with a mark is the metadata name of the definition of this name that has as many
parameters. -/
theorem withKey?_marked_iff (h : c.CleanNames) {n : Nat} (hn : n ≠ 0) (name : String) :
    c.withKey? (String.ofList (name.toList ++ arityMark n)) = some e ↔
      e ∈ c.types ∧ e.fullName = name ∧ e.typeParameters.length = n := by
  rw [withKey?_eq_some_iff, ← String.toList_inj, TypeDecl.toList_metadataName,
    String.toList_ofList]
  refine and_congr_right fun he => ?_
  by_cases hsimple : e.typeParameters.length = 0
  · -- The backtick of the mark would be part of the full name.
    refine iff_of_false (fun hsame => ?_) fun hboth => hn (hboth.2.symm.trans hsimple)
    rw [hsimple, arityMark_eq_nil_iff.2 rfl, List.append_nil] at hsame
    refine h.notMem_fullName he (by decide : isNameMark '`' = true) ?_
    rw [hsame, arityMark, if_neg hn]
    exact List.mem_append_right _ List.mem_cons_self
  · rw [append_arityMark_inj hsimple hn, String.toList_inj]

/-- The full name of a declared type with arguments, and with some text behind them, denotes the
definition of this name that has as many parameters as there are arguments, loose commas, and commas
counted in the text behind. -/
theorem lookup_withArguments_append_iff (h : c.CleanNames) (hd : d ∈ c.types)
    (arguments : ArgumentList) (suffix : String) :
    c.lookup (withArguments d.fullName arguments ++ suffix) = some e ↔
      e ∈ c.types ∧ e.fullName = d.fullName ∧
        e.typeParameters.length =
          arguments.count + arguments.looseCommas + topCommas 0 suffix.toList := by
  have hplain := h.plain hd
  have hcount : topCommas 0 ('<' :: (arguments.chars ++ '>' :: suffix.toList)) + 1 =
      arguments.count + arguments.looseCommas + topCommas 0 suffix.toList := by
    rw [arguments.topCommas_bracketed, ArgumentList.count]
    omega
  rw [withArguments_append, h.lookup_bracketed hplain.unapplied, hplain.dropRootMark_eq,
    hplain.dropRootMark_eq, h.solid hd, hcount]
  refine h.withKey?_marked_iff ?_ d.fullName
  rw [ArgumentList.count]
  omega

/-- The full name of a declared type with arguments, and with some text behind them, denotes the
type itself when it has as many parameters as have been counted. -/
theorem lookup_withArguments_append_self_iff (h : c.CleanNames) (hd : d ∈ c.types)
    (arguments : ArgumentList) (suffix : String) :
    c.lookup (withArguments d.fullName arguments ++ suffix) = some d ↔
      d.typeParameters.length =
        arguments.count + arguments.looseCommas + topCommas 0 suffix.toList := by
  rw [h.lookup_withArguments_append_iff hd]
  exact ⟨fun hfound => hfound.2.2, fun harity => ⟨hd, rfl, harity⟩⟩

/-- The full name of a declared type with arguments denotes the definition of this name that has as
many parameters as there are arguments and loose commas. -/
theorem lookup_withArguments_iff (h : c.CleanNames) (hd : d ∈ c.types)
    (arguments : ArgumentList) :
    c.lookup (withArguments d.fullName arguments) = some e ↔
      e ∈ c.types ∧ e.fullName = d.fullName ∧
        e.typeParameters.length = arguments.count + arguments.looseCommas := by
  have hbare := h.lookup_withArguments_append_iff (e := e) hd arguments ""
  rwa [String.append_empty, String.toList_empty, topCommas, Nat.add_zero] at hbare

/-- The full name of a declared type with arguments denotes the type itself when it has as many
parameters as there are arguments and loose commas. -/
theorem lookup_withArguments_self_iff (h : c.CleanNames) (hd : d ∈ c.types)
    (arguments : ArgumentList) :
    c.lookup (withArguments d.fullName arguments) = some d ↔
      d.typeParameters.length = arguments.count + arguments.looseCommas := by
  rw [h.lookup_withArguments_iff hd]
  exact ⟨fun hfound => hfound.2.2, fun harity => ⟨hd, rfl, harity⟩⟩

/-- A full name with arguments does not start at the root. -/
theorem rootless_withArguments (h : c.CleanNames) (hd : d ∈ c.types) (arguments : ArgumentList) :
    ¬rootMark <+: (withArguments d.fullName arguments).toList := by
  rw [← dropRootMark_eq_self_iff, toList_withArguments, dropRootMark_append_arguments,
    (h.plain hd).dropRootMark_eq]

end CleanNames

/-- A full name stands for one declaration alone when all that have it are this one. -/
theorem countP_fullName_eq_one_iff (hd : d ∈ c.types) :
    c.types.countP (·.fullName == d.fullName) = 1 ↔
      ∀ e ∈ c.types, e.fullName = d.fullName → e = d := by
  constructor
  · exact fun honly e he hsame => eq_of_fullName hd he hsame honly
  · intro hall
    have hnodup : c.types.Nodup := List.Nodup.of_map _ c.distinct
    have hsame : c.types.countP (·.fullName == d.fullName) = c.types.count d := by
      refine List.countP_congr fun e he => ?_
      rw [beq_iff_eq, beq_iff_eq]
      exact ⟨hall e he, fun hed => hed ▸ rfl⟩
    rw [hsame, List.count_eq_one_of_mem hnodup hd]

/-- The bare full name of a declared type denotes the definition of this name without parameters. -/
theorem CleanNames.lookup_fullName_of_simple (h : c.CleanNames) (hd : d ∈ c.types)
    (he : e ∈ c.types) (hsame : e.fullName = d.fullName) (hsimple : e.typeParameters = []) :
    c.lookup d.fullName = some e := by
  have hkey : c.withKey? d.fullName = some e :=
    withKey?_eq_some_iff.2 ⟨he, (h.metadataName_eq_iff hd).2 ⟨hsimple, hsame⟩⟩
  rw [c.lookup_of_plain (h.plain hd), hkey, Option.some_or]

/-- Where all definitions of a name have parameters, the bare full name denotes the type when it is
the only one of them, and nothing otherwise. -/
theorem CleanNames.lookup_fullName_of_generic (h : c.CleanNames) (hd : d ∈ c.types)
    (hgeneric : ∀ e ∈ c.types, e.fullName = d.fullName → e.typeParameters ≠ []) :
    c.lookup d.fullName =
      if ∀ e ∈ c.types, e.fullName = d.fullName → e = d then some d else none := by
  have hunkeyed : c.withKey? d.fullName = none := by
    refine withKey?_eq_none_iff.2 fun e he hkey => ?_
    obtain ⟨hsimple, hsame⟩ := (h.metadataName_eq_iff hd).1 hkey
    exact hgeneric e he hsame hsimple
  rw [c.lookup_of_plain (h.plain hd), hunkeyed, Option.none_or]
  split
  · rename_i hall
    exact withName?_eq_some_iff.2 ⟨hd, rfl, (countP_fullName_eq_one_iff hd).2 hall⟩
  · rename_i hother
    cases hfound : c.withName? d.fullName with
    | none => rfl
    | some e =>
      obtain ⟨he, hsame, honly⟩ := withName?_eq_some_iff.1 hfound
      exact absurd ((countP_fullName_eq_one_iff hd).1 honly) hother

/-- In a program of clean names a generic type is denoted by its full name with as many arguments as
it has parameters, and with any other number it is not, from the root or not, when the arguments are
made of names, further arguments and marks. It is denoted by its full name with the backtick and the
number of its parameters. The bare full name denotes the definition without parameters where there
is one, and otherwise the type if there is no other definition of the name, and else nothing. -/
theorem generic_type_denoted_by_arity {c : Compilation} {d : TypeDecl} (hnames : c.CleanNames)
    (hd : d ∈ c.types) (hgeneric : d.typeParameters ≠ []) :
    (∀ arguments : ArgumentList, arguments.isSimple = true →
      (c.lookup (withArguments d.fullName arguments) = some d ↔
        arguments.count = d.typeParameters.length) ∧
      (c.lookup ("global::" ++ withArguments d.fullName arguments) = some d ↔
        arguments.count = d.typeParameters.length)) ∧
    c.lookup (d.fullName ++ "`" ++ toString d.typeParameters.length) = some d ∧
    (∀ e ∈ c.types, e.fullName = d.fullName → e.typeParameters = [] →
      c.lookup d.fullName = some e) ∧
    ((∀ e ∈ c.types, e.fullName = d.fullName → e.typeParameters ≠ []) →
      c.lookup d.fullName =
        if ∀ e ∈ c.types, e.fullName = d.fullName → e = d then some d else none) := by
  have harity : d.typeParameters.length ≠ 0 := fun hzero =>
    hgeneric (List.length_eq_zero_iff.1 hzero)
  refine ⟨fun arguments hsimple => ?_, ?_, fun e he => hnames.lookup_fullName_of_simple hd he,
    hnames.lookup_fullName_of_generic hd⟩
  · have hbare := hnames.lookup_withArguments_self_iff hd arguments
    rw [arguments.looseCommas_of_isSimple hsimple, Nat.add_zero, eq_comm (b := arguments.count)]
      at hbare
    rw [c.lookup_fromRoot (hnames.rootless_withArguments hd arguments)]
    exact ⟨hbare, hbare⟩
  · have hkey : d.fullName ++ "`" ++ toString d.typeParameters.length = d.metadataName :=
      (if_neg harity).symm
    have hrootless : ¬rootMark <+: d.metadataName.toList := by
      intro hroot
      have hcolon : ':' ∈ d.metadataName.toList := hroot.subset (by decide)
      exact hnames.notMem_metadataName hd (by decide) (by decide) (by decide) hcolon
    rw [hkey, lookup_eq_some_iff, dropRootMark_eq_self_iff.2 hrootless]
    exact ⟨hd, .key rfl⟩

end Compilation

/-- The type `int`. -/
def intSyntax : TypeSyntax := .name ⟨"int".toList, by decide⟩

/-- The type `string`. -/
def stringSyntax : TypeSyntax := .name ⟨"string".toList, by decide⟩

/-- The box of anything is denoted with one argument that has two arguments itself, from the root
with the same, and by its metadata name; without arguments the other box is denoted. -/
theorem box_denoted_by_arity :
    let box := boxTypes[3]
    let entries : ArgumentList :=
      .one (.nullable
        (.applied ⟨"Map".toList, by decide⟩ (.more intSyntax 0 1 (.one stringSyntax))))
    boxProgram.CleanNames ∧ box ∈ boxProgram.types ∧ box.typeParameters ≠ [] ∧
      withArguments box.fullName entries = "Game.Box<Map<int, string>?>" ∧
      boxProgram.lookup (withArguments box.fullName entries) = some box ∧
      boxProgram.lookup ("global::" ++ withArguments box.fullName entries) = some box ∧
      boxProgram.lookup "Game.Box`1" = some box ∧
      boxProgram.lookup "Game.Box" = some boxTypes[2] := by
  intro box entries
  have hclean : boxProgram.CleanNames := by decide +kernel
  have hbox : box ∈ boxProgram.types := List.getElem_mem (by decide)
  have hgeneric : box.typeParameters ≠ [] := by decide
  obtain ⟨happlied, hkey, hsimple, -⟩ :=
    Compilation.generic_type_denoted_by_arity hclean hbox hgeneric
  obtain ⟨hbare, hroot⟩ := happlied entries (by decide)
  have hother : boxTypes[2] ∈ boxProgram.types := List.getElem_mem (by decide)
  refine ⟨hclean, hbox, hgeneric, by decide +kernel, hbare.2 (by decide), hroot.2 (by decide), ?_,
    ?_⟩
  · have hname : box.fullName ++ "`" ++ toString box.typeParameters.length = "Game.Box`1" := by
      decide +kernel
    exact hname ▸ hkey
  · have hname : box.fullName = "Game.Box" := by decide +kernel
    exact hname ▸ hsimple boxTypes[2] hother (by decide +kernel) rfl

namespace Compilation

/-- In a program of clean names the full name of a type with arguments denotes the definition of
this name that has as many parameters as there are arguments and loose commas, the commas of tuples
and arrays that no further angle brackets enclose. So a type with as many parameters as arguments is
denoted exactly when there are no loose commas. -/
theorem arguments_counted_with_loose_commas {c : Compilation} {d : TypeDecl}
    (hnames : c.CleanNames) (hd : d ∈ c.types) (arguments : ArgumentList) :
    (∀ e, c.lookup (withArguments d.fullName arguments) = some e ↔
      e ∈ c.types ∧ e.fullName = d.fullName ∧
        e.typeParameters.length = arguments.count + arguments.looseCommas) ∧
    (arguments.count = d.typeParameters.length →
      (c.lookup (withArguments d.fullName arguments) = some d ↔ arguments.looseCommas = 0)) := by
  refine ⟨fun e => hnames.lookup_withArguments_iff hd arguments, fun hcount => ?_⟩
  rw [hnames.lookup_withArguments_self_iff hd, hcount]
  omega

end Compilation

/-- With a list of pairs as its argument the box of anything is denoted: the comma of the tuple is
enclosed by the brackets of the list. -/
theorem enclosed_pair_is_one_argument :
    let box := boxTypes[3]
    let pairs : ArgumentList :=
      .one (.applied ⟨"List".toList, by decide⟩
        (.one (.tuple (.more intSyntax 0 1 (.one stringSyntax)))))
    boxProgram.CleanNames ∧ box ∈ boxProgram.types ∧
      withArguments box.fullName pairs = "Game.Box<List<(int, string)>>" ∧
      boxProgram.lookup (withArguments box.fullName pairs) = some box := by
  intro box pairs
  have hclean : boxProgram.CleanNames := by decide +kernel
  have hbox : box ∈ boxProgram.types := List.getElem_mem (by decide)
  obtain ⟨-, hself⟩ := Compilation.arguments_counted_with_loose_commas hclean hbox pairs
  exact ⟨hclean, hbox, by decide +kernel, (hself (by decide)).2 (by decide)⟩

/-- With a pair or an array of two dimensions as its only argument the box of anything is not
denoted. -/
theorem pair_and_grid_count_as_two :
    let box := boxTypes[3]
    let pair : ArgumentList := .one (.tuple (.more intSyntax 0 1 (.one stringSyntax)))
    let grid : ArgumentList := .one (.array intSyntax 1)
    boxProgram.CleanNames ∧ box ∈ boxProgram.types ∧
      pair.isSimple = false ∧ pair.count = box.typeParameters.length ∧
      withArguments box.fullName pair = "Game.Box<(int, string)>" ∧
      boxProgram.lookup (withArguments box.fullName pair) = none ∧
      grid.isSimple = false ∧ grid.count = box.typeParameters.length ∧
      withArguments box.fullName grid = "Game.Box<int[,]>" ∧
      boxProgram.lookup (withArguments box.fullName grid) = none := by
  decide +kernel

end SceneWiring
