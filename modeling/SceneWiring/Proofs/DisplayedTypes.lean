import SceneWiring.Proofs.RootedNames
/-!
# Displayed types read again

Generated code shows a declared type by its full name from the root with the type arguments as they were
written. Read as a written type again, this text denotes the declared type and is shown unchanged exactly
when nothing is trimmed off its end and the full name with these arguments calls the type back. In a
program of clean names that is so for every reference with arguments, unless a second question mark
stands behind it, and for a reference without arguments when the type has no parameters or is the only
one of its name. A generic type that is referred to by its metadata name is shown as its namesake
without parameters.
-/

namespace SceneWiring

/-- Something is trimmed off the end of the text when it is read as a written type: the text ends in a
question mark or a blank. -/
def EndsLoose (text : List Char) : Prop := ∃ c ∈ text.getLast?, c = '?' ∨ Text.isBlank c = true

namespace TypeRef

/-- The name that is read off a text does not end in a blank. -/
theorem getLast?_name_ofText (text : String) :
    ∀ c ∈ (ofText text).name.toList.getLast?, Text.isBlank c = false := by
  unfold ofText
  dsimp only
  split
  · rw [String.toList_ofList]
    exact Text.getLast?_dropBlanksRight _
  · rw [String.toList_ofList]
    exact Text.getLast?_dropBlanksRight _

section Shown

variable {text : String} (hfront : ∀ c ∈ text.toList.head?, Text.isBlank c = false)

include hfront

/-- A text with nothing to trim off is read as it is. -/
theorem ofText_eq_self (hend : ¬EndsLoose text.toList) : ofText text = ⟨text, false⟩ := by
  have hback : ∀ c ∈ text.toList.getLast?, Text.isBlank c = false := fun c hc =>
    Bool.eq_false_iff.2 fun hblank => hend ⟨c, hc, .inr hblank⟩
  have htrim : Text.trimChars text.toList = text.toList := by
    rw [Text.trimChars, Text.dropBlanks_eq_self hfront, Text.dropBlanksRight_eq_self hback]
  have hmark : text.toList.getLast? ≠ some '?' := fun hmark => hend ⟨'?', hmark, .inl rfl⟩
  unfold ofText
  dsimp only
  rw [htrim, if_neg hmark, String.ofList_toList]

/-- Off a text that ends loose only question marks and blanks are trimmed, and at least one. -/
theorem exists_trimmed_of_endsLoose (hend : EndsLoose text.toList) :
    ∃ trimmed, trimmed ≠ [] ∧ (∀ c ∈ trimmed, c = '?' ∨ Text.isBlank c = true) ∧
      text.toList = (ofText text).name.toList ++ trimmed := by
  obtain ⟨blanks, hblanks, htext⟩ := Text.exists_blanks text.toList
  have htrim : Text.trimChars text.toList = Text.dropBlanksRight text.toList := by
    rw [Text.trimChars, Text.dropBlanks_eq_self hfront]
  unfold ofText
  dsimp only
  rw [htrim]
  by_cases hmark : (Text.dropBlanksRight text.toList).getLast? = some '?'
  · obtain ⟨inner, hinner⟩ := List.getLast?_eq_some_iff.1 hmark
    obtain ⟨gap, hgap, hkept⟩ := Text.exists_blanks inner
    refine ⟨gap ++ '?' :: blanks, by simp, fun c hc => ?_, ?_⟩
    · rcases List.mem_append.1 hc with hc | hc
      · exact .inr (hgap c hc)
      · exact (List.mem_cons.1 hc).imp id (hblanks c)
    · rw [if_pos hmark, String.toList_ofList, hinner, List.dropLast_concat, ← List.append_assoc,
        ← hkept]
      conv_lhs => rw [htext, hinner, List.append_assoc, List.singleton_append]
  · refine ⟨blanks, ?_, fun c hc => .inr (hblanks c hc), ?_⟩
    · rintro rfl
      rw [List.append_nil] at htext
      obtain ⟨c, hc, rfl | hblank⟩ := hend
      · exact hmark (htext ▸ hc)
      · rw [htext] at hc
        rw [Text.getLast?_dropBlanksRight _ c hc] at hblank
        cases hblank
    · rw [if_neg hmark, String.toList_ofList]
      exact htext

end Shown

end TypeRef

namespace Compilation

variable {c : Compilation} {d : TypeDecl}

/-- A declared type is shown by its full name from the root with the arguments. -/
theorem display_of_resolve {type : TypeRef} (hd : c.resolve type = some d) :
    c.display type =
      "global::" ++ d.fullName ++ String.ofList (argumentsOf type.name.toList) := by
  unfold display
  rw [hd]

/-- The characters of a displayed type. -/
theorem toList_fromRoot (name : String) (arguments : List Char) :
    ("global::" ++ name ++ String.ofList arguments).toList =
      rootMark ++ (name.toList ++ arguments) := by
  simp only [String.append_assoc, String.toList_append, String.toList_ofList]
  rfl

/-- The full name of what a name without arguments denotes is a part of the name. -/
theorem fullName_infix_of_denotes {name : List Char} (h : c.Denotes name d) (hname : '<' ∉ name) :
    d.fullName.toList <:+: name := by
  rcases h with hsame | ⟨-, harguments, -⟩ | ⟨-, -, hsame, -⟩
  · rw [← hsame, TypeDecl.toList_metadataName]
    exact (List.prefix_append _ _).isInfix
  · exact absurd harguments hname
  · rw [hsame]
    exact (dropRootMark_suffix name).isInfix

/-- When the front of a full name with arguments denotes the type and has the same arguments, nothing
but the empty text can stand behind it. -/
theorem eq_nil_of_denotes_front {name arguments trimmed : List Char}
    (hsplit : d.fullName.toList ++ arguments = name ++ trimmed) (hname : c.Denotes name d)
    (harguments : argumentsOf name = arguments) (htrimmed : '<' ∉ trimmed) : trimmed = [] := by
  rcases argumentsOf_cases name with ⟨hunapplied, hnone⟩ | ⟨happlied, rest, hrest⟩
  · rw [← harguments, hnone, List.append_nil] at hsplit
    have hshort := (fullName_infix_of_denotes hname hunapplied).length_le
    rw [hsplit, List.length_append] at hshort
    exact List.length_eq_zero_iff.1 (by omega)
  · have hbefore := notMem_beforeArguments name
    have hparts := beforeArguments_append_argumentsOf name
    rw [hrest] at hparts
    rw [← harguments, hrest] at hsplit
    -- The brackets of the name are those of the arguments, so that the full name has none.
    have hfull : '<' ∉ d.fullName.toList := by
      have hcount := congrArg (List.count '<') hsplit
      rw [← hparts, List.count_append, List.count_append, List.count_append,
        List.count_eq_zero.2 hbefore, List.count_eq_zero.2 htrimmed] at hcount
      exact List.count_eq_zero.1 (by omega)
    have hboth := congrArg argumentsOf hsplit
    rw [argumentsOf_append hfull, ← hparts, List.append_assoc, List.cons_append,
      argumentsOf_append hbefore, List.cons.injEq, List.self_eq_append_right] at hboth
    exact hboth.2

/-- A trimmed text has no root mark, so that the mark stays in front of what is left. -/
theorem prefix_of_rootMark_append {text name trimmed : List Char}
    (htrimmed : ':' ∉ trimmed) (h : rootMark ++ text = name ++ trimmed) :
    ∃ rest, name = rootMark ++ rest ∧ text = rest ++ trimmed := by
  rcases List.append_eq_append_iff.1 h with ⟨rest, hname, htext⟩ | ⟨rest, hroot, hrest⟩
  · exact ⟨rest, hname, htext⟩
  · rcases List.eq_nil_or_concat' rest with rfl | ⟨more, last, rfl⟩
    · rw [List.append_nil] at hroot
      exact ⟨[], by rw [hroot, List.append_nil], hrest.symm⟩
    · -- The rest would end with the colon of the mark.
      have hlast : some last = some ':' := by
        have hends := congrArg List.getLast? hroot
        rw [← List.append_assoc, List.getLast?_concat] at hends
        exact hends.symm.trans rfl
      cases hlast
      exact absurd (hrest ▸ List.mem_append_left _ List.mem_concat_self) htrimmed

section Shown

variable {type : TypeRef} (hd : c.resolve type = some d)

include hd

/-- The text that shows a declared type starts at the root. -/
theorem toList_display :
    (c.display type).toList =
      rootMark ++ (d.fullName.toList ++ argumentsOf type.name.toList) :=
  (congrArg String.toList (display_of_resolve hd)).trans (toList_fromRoot _ _)

/-- The text that shows a declared type does not start with a blank. -/
theorem head?_display : ∀ ch ∈ (c.display type).toList.head?, Text.isBlank ch = false := by
  rw [toList_display hd]
  rintro ch ⟨⟩
  decide

/-- If the text that shows a type denotes the type and is shown with the same arguments again, nothing
is trimmed off it. -/
theorem not_endsLoose_of_shown_again (hagain : c.resolve (.ofText (c.display type)) = some d)
    (harguments : argumentsOf (TypeRef.ofText (c.display type)).name.toList =
      argumentsOf type.name.toList) :
    ¬EndsLoose (c.display type).toList := by
  intro hend
  obtain ⟨trimmed, hne, honly, hsplit⟩ :=
    TypeRef.exists_trimmed_of_endsLoose (head?_display hd) hend
  have hcolon : ':' ∉ trimmed := fun hmem => absurd (honly _ hmem) (by decide)
  have hbracket : '<' ∉ trimmed := fun hmem => absurd (honly _ hmem) (by decide)
  rw [toList_display hd] at hsplit
  obtain ⟨rest, hname, hrest⟩ := prefix_of_rootMark_append hcolon hsplit
  have hdenotes := (lookup_eq_some_iff.1 hagain).2
  rw [hname, dropRootMark_rootMark_append] at hdenotes
  rw [← argumentsOf_dropRootMark, hname, dropRootMark_rootMark_append] at harguments
  exact hne (eq_nil_of_denotes_front hrest hdenotes harguments hbracket)

/-- When the full name with the arguments calls the type back, the text that shows the type has the
same arguments. -/
theorem argumentsOf_display (hrecalls : c.Recalls d (argumentsOf type.name.toList)) :
    argumentsOf (c.display type).toList = argumentsOf type.name.toList := by
  rw [toList_display hd, ← argumentsOf_dropRootMark, dropRootMark_rootMark_append]
  rcases argumentsOf_cases type.name.toList with ⟨hunapplied, hnone⟩ | ⟨-, rest, hrest⟩
  · have hname : '<' ∉ dropRootMark type.name.toList := mt mem_of_mem_dropRootMark hunapplied
    have hpart := fullName_infix_of_denotes (lookup_eq_some_iff.1 hd).2 hname
    rw [hnone, List.append_nil]
    exact List.dropWhile_eq_nil_iff.2 (bne_of_mem_unapplied fun hmem => hname (hpart.subset hmem))
  · rw [hrest] at hrecalls ⊢
    exact argumentsOf_append hrecalls.plain.unapplied rest

/-- The text that shows a declared type is read as the type and shown unchanged again when nothing is
trimmed off its end and the full name with its arguments calls the type back. -/
theorem shown_again_iff :
    (c.resolve (.ofText (c.display type)) = some d ∧
        c.display (.ofText (c.display type)) = c.display type) ↔
      ¬EndsLoose (c.display type).toList ∧ c.Recalls d (argumentsOf type.name.toList) := by
  have hrecalls : c.lookup (c.display type) = some d ↔
      c.Recalls d (argumentsOf type.name.toList) := by
    rw [display_of_resolve hd]
    exact lookup_fromRoot_iff (mem_of_lookup hd) _
  constructor
  · rintro ⟨hagain, hsame⟩
    have hshown := (display_of_resolve hagain).symm.trans (hsame.trans (display_of_resolve hd))
    rw [String.append_right_inj, String.ofList_inj] at hshown
    have hsolid := not_endsLoose_of_shown_again hd hagain hshown
    rw [TypeRef.ofText_eq_self (head?_display hd) hsolid] at hagain
    exact ⟨hsolid, hrecalls.1 hagain⟩
  · rintro ⟨hsolid, hcalls⟩
    have hagain : c.resolve ⟨c.display type, false⟩ = some d := hrecalls.2 hcalls
    rw [TypeRef.ofText_eq_self (head?_display hd) hsolid]
    refine ⟨hagain, ?_⟩
    have hsame := congrArg String.ofList (argumentsOf_display hd hcalls)
    calc c.display ⟨c.display type, false⟩
        = "global::" ++ d.fullName ++ String.ofList (argumentsOf (c.display type).toList) :=
          display_of_resolve hagain
      _ = "global::" ++ d.fullName ++ String.ofList (argumentsOf type.name.toList) := by rw [hsame]
      _ = c.display type := (display_of_resolve hd).symm

end Shown

namespace CleanNames

/-- A type that a name with arguments denotes takes these arguments. -/
theorem takes_of_denotes (h : c.CleanNames) (hd : d ∈ c.types) {name rest : List Char}
    (hname : c.Denotes name d) (happlied : '<' ∈ name) (hrest : argumentsOf name = '<' :: rest) :
    c.Takes d ('<' :: rest) := by
  rw [h.takes_iff hd]
  rcases hname with hsame | ⟨-, -, hsame⟩ | ⟨-, hunapplied, -⟩
  · exact absurd (hsame ▸ happlied)
      (h.notMem_metadataName hd (by decide) (by decide) (by decide))
  · rw [TypeDecl.toList_metadataName, hrest] at hsame
    have hgeneric : d.typeParameters.length ≠ 0 := by
      intro hsimple
      rw [arityMark_eq_nil_iff.2 hsimple, List.append_nil] at hsame
      refine h.notMem_fullName hd (by decide : isNameMark '`' = true) ?_
      rw [hsame, arityMark, if_neg (Nat.succ_ne_zero _)]
      exact List.mem_append_right _ List.mem_cons_self
    exact ((append_arityMark_inj hgeneric (Nat.succ_ne_zero _)).1 hsame).2
  · exact absurd happlied hunapplied

/-- A name without arguments that denotes a type does not have a question mark in it. -/
theorem notMem_of_denotes (h : c.CleanNames) (hd : d ∈ c.types) {name : List Char}
    (hname : c.Denotes name d) (hunapplied : '<' ∉ name) : '?' ∉ name := by
  intro hmem
  rcases hname with hsame | ⟨-, happlied, -⟩ | ⟨-, -, hsame, -⟩
  · exact h.notMem_metadataName hd (by decide) (by decide) (by decide) (hsame ▸ hmem)
  · exact hunapplied happlied
  · refine h.notMem_fullName hd (by decide : isNameMark '?' = true) ?_
    rw [hsame]
    exact mem_dropRootMark hmem (by decide)

/-- The text that shows a type ends loose when a question mark is left at the end of the name. -/
theorem endsLoose_display_iff (h : c.CleanNames) {text : String}
    (hd : c.resolve (.ofText text) = some d) :
    EndsLoose (c.display (.ofText text)).toList ↔
      (TypeRef.ofText text).name.toList.getLast? = some '?' := by
  have hmem := mem_of_lookup hd
  have hdenotes := (lookup_eq_some_iff.1 hd).2
  rw [display_of_resolve hd, toList_fromRoot]
  rcases argumentsOf_cases (TypeRef.ofText text).name.toList with ⟨hunapplied, hnone⟩ | ⟨-, rest, hrest⟩
  · -- Neither the full name nor the name read off the text ends in a mark.
    rw [hnone, List.append_nil]
    refine iff_of_false ?_ fun hlast => ?_
    · rintro ⟨last, hlast, hloose⟩
      rw [List.getLast?_append, Option.mem_def, Option.or_eq_some_iff] at hlast
      rcases hlast with hlast | ⟨-, hlast⟩
      · have hmark : isNameMark last = true := by
          rcases hloose with rfl | hblank
          · decide
          · rw [isNameMark, hblank, Bool.or_true]
        rw [h.getLast?_ne hmem hlast] at hmark
        cases hmark
      · obtain rfl : last = ':' := (Option.some.inj hlast).symm
        exact absurd hloose (by decide)
    · have hname : '<' ∉ dropRootMark (TypeRef.ofText text).name.toList :=
        mt mem_of_mem_dropRootMark hunapplied
      exact h.notMem_of_denotes hmem hdenotes hname
        (mem_dropRootMark (List.mem_of_getLast? hlast) (by decide))
  · have hlast : (rootMark ++ (d.fullName.toList ++ '<' :: rest)).getLast? =
        (TypeRef.ofText text).name.toList.getLast? := by
      rw [← beforeArguments_append_argumentsOf (TypeRef.ofText text).name.toList, hrest,
        ← List.append_assoc, List.getLast?_append_cons, List.getLast?_append_cons]
    rw [hrest, EndsLoose, hlast]
    constructor
    · rintro ⟨last, hlast, rfl | hblank⟩
      · exact hlast
      · rw [TypeRef.getLast?_name_ofText text last hlast] at hblank
        cases hblank
    · exact fun hlast => ⟨'?', hlast, .inl rfl⟩

end CleanNames

/-- The text by which generated code shows the type that a written type denotes is read again as a
written type. It denotes the same type and is shown unchanged exactly when it does not end in a question
mark or a blank and the full name with the arguments calls the type back. Where declared names have no
marks of written types in them, this fails in two cases only: a question mark is left at the end of the
name, or the type has parameters and namesakes and is referred to without arguments. -/
theorem display_is_read_back_iff {c : Compilation} {d : TypeDecl} {text : String}
    (hd : c.resolve (.ofText text) = some d) :
    let type := TypeRef.ofText text
    let again := TypeRef.ofText (c.display type)
    (c.resolve again = some d ∧ c.display again = c.display type ↔
      ¬EndsLoose (c.display type).toList ∧ c.Recalls d (argumentsOf type.name.toList)) ∧
    (c.CleanNames →
      (c.resolve again = some d ∧ c.display again = c.display type ↔
        type.name.toList.getLast? ≠ some '?' ∧
          ('<' ∈ type.name.toList ∨ d.typeParameters = [] ∨
            c.types.countP (·.fullName == d.fullName) = 1))) := by
  intro type again
  refine ⟨shown_again_iff hd, fun hclean => ?_⟩
  have hmem := mem_of_lookup hd
  rw [shown_again_iff hd, hclean.endsLoose_display_iff hd]
  refine and_congr_right fun _ => ?_
  rcases argumentsOf_cases type.name.toList with ⟨hunapplied, hnone⟩ | ⟨happlied, rest, hrest⟩
  · rw [hnone, hclean.recalls_nil_iff hmem]
    exact (or_iff_right hunapplied).symm
  · have hdenotes := (lookup_eq_some_iff.1 hd).2
    have hname := mem_dropRootMark happlied (by decide)
    rw [← argumentsOf_dropRootMark] at hrest
    refine iff_of_true ?_ (.inl happlied)
    rw [← argumentsOf_dropRootMark, hrest]
    exact hclean.takes_of_denotes hmem hdenotes hname hrest

end Compilation

/-- A reference to the box of anything with an argument is shown by a text that denotes it. -/
theorem applied_box_is_read_back :
    let type := TypeRef.ofText "Game.Box<int>?"
    let again := TypeRef.ofText (boxProgram.display type)
    boxProgram.resolve type = some boxTypes[3] ∧ boxProgram.CleanNames ∧
      boxProgram.resolve again = some boxTypes[3] ∧
      boxProgram.display again = boxProgram.display type := by
  intro type again
  have htype : boxProgram.resolve type = some boxTypes[3] := by decide +kernel
  have hclean : boxProgram.CleanNames := by decide +kernel
  have hread := (Compilation.display_is_read_back_iff htype).2 hclean
  exact ⟨htype, hclean, hread.2 ⟨by decide +kernel, .inl (by decide +kernel)⟩⟩

/-- Referred to by its metadata name, the box of anything is shown as the other box. -/
theorem arity_lost_in_display :
    boxProgram.resolve (.ofText "Game.Box`1") = some boxTypes[3] ∧
      boxProgram.display (.ofText "Game.Box`1") = "global::Game.Box" ∧
      boxProgram.resolve (.ofText "global::Game.Box") = some boxTypes[2] ∧
      boxTypes[2].metadataName ≠ boxTypes[3].metadataName := by
  decide +kernel

end SceneWiring
