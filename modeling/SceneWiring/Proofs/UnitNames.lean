import SceneWiring.Proofs.Emission
/-!
# Names of units

The name of a unit runs namespace and class name together with underscores, and both may have
underscores of their own. So two types may be confused: when their namespaces differ in dots against
underscores only, and when the namespace of one takes in the front of the other's name. Units have
names of their own exactly when no two of the types are confused.
-/

namespace SceneWiring

namespace TypeDecl

/-- The namespace with underscores for dots. -/
def flatSpace (d : TypeDecl) : List Char :=
  (d.namespaceName?.getD "").toList.map fun c => if c = '.' then '_' else c

/-- The simple name with the mark of the number of type parameters. -/
def markedName (d : TypeDecl) : String := withArity d.name d.typeParameters.length

/-- The mark stands at the end, whatever comes before the name. -/
theorem withArity_append (before text : String) (arity : Nat) :
    withArity (before ++ text) arity = before ++ withArity text arity := by
  unfold withArity
  split
  · rfl
  · simp only [String.append_assoc]

/-- The units of the two types have the same name, although the types differ: their namespaces run
together with their names at different places, or are told apart by dots only. -/
inductive Confused (d e : TypeDecl) : Prop
  | dots (space : d.flatSpace = e.flatSpace) (name : d.markedName = e.markedName)
  | longer (part : List Char) (space : d.flatSpace = e.flatSpace ++ '_' :: part)
      (name : e.markedName.toList = part ++ '_' :: d.markedName.toList)
  | shorter (part : List Char) (space : e.flatSpace = d.flatSpace ++ '_' :: part)
      (name : d.markedName.toList = part ++ '_' :: e.markedName.toList)

end TypeDecl

namespace ClassUnit

/-- The name of a unit is a fixed beginning, the flat namespace, an underscore and the name with its
mark. -/
theorem toList_hintName (d : TypeDecl) :
    (hintName d).toList =
      "Partial_".toList ++ (d.flatSpace ++ '_' :: d.markedName.toList) := by
  have hmark : hintName d =
      "Partial_" ++ String.ofList d.flatSpace ++ "_" ++ d.markedName :=
    TypeDecl.withArity_append _ _ _
  rw [hmark]
  simp only [String.toList_append, String.toList_ofList, List.append_assoc]
  rfl

/-- Units have the same name exactly when their types are confused. -/
theorem hintName_eq_iff {d e : TypeDecl} : hintName d = hintName e ↔ d.Confused e := by
  rw [← String.toList_inj, toList_hintName, toList_hintName, List.append_cancel_left_eq,
    List.append_eq_append_iff]
  constructor
  · intro hgiven
    rcases hgiven with ⟨part, hspace, hname⟩ | ⟨part, hspace, hname⟩
    · cases part with
      | nil =>
        rw [List.append_nil] at hspace
        injection hname with _ hname
        exact .dots hspace.symm (String.toList_inj.1 hname)
      | cons c part =>
        injection hname with hc hname
        subst hc
        exact .shorter part hspace hname
    · cases part with
      | nil =>
        rw [List.append_nil] at hspace
        injection hname with _ hname
        exact .dots hspace (String.toList_inj.1 hname.symm)
      | cons c part =>
        injection hname with hc hname
        subst hc
        exact .longer part hspace hname
  · intro hgiven
    rcases hgiven with ⟨hspace, hname⟩ | ⟨part, hspace, hname⟩ | ⟨part, hspace, hname⟩
    · refine .inl ⟨[], ?_, ?_⟩
      · rw [List.append_nil, hspace]
      · rw [List.nil_append, hname]
    · refine .inr ⟨'_' :: part, hspace, ?_⟩
      rw [List.cons_append, hname]
    · refine .inl ⟨'_' :: part, hspace, ?_⟩
      rw [List.cons_append, hname]

end ClassUnit

example : ({ name := "C", namespaceName? := some "A.B" } : TypeDecl).Confused
    { name := "B_C", namespaceName? := some "A" } := .longer ['B'] (by decide) (by decide)

/-- The units have names of their own exactly when no two of the types that get them are
confused. -/
theorem Context.nodup_hintNames_iff (x : Context) :
    (x.generate.units.map (·.hintName)).Nodup ↔
      ∀ d e, x.Emits d → x.Emits e → d ≠ e → ¬d.Confused e := by
  rw [x.map_hintName_units, List.nodup_map_iff_inj_on x.nodup_emitted]
  constructor
  · intro h d e hd he hne hconfused
    exact hne (h d (mem_emitted.2 hd) e (mem_emitted.2 he) (ClassUnit.hintName_eq_iff.2 hconfused))
  · intro h d hd e he hname
    by_contra hne
    exact h d e (mem_emitted.1 hd) (mem_emitted.1 he) hne (ClassUnit.hintName_eq_iff.1 hname)

end SceneWiring
