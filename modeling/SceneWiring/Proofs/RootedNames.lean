import Mathlib.Data.List.TakeWhile
import SceneWiring.Proofs.ParameterTypes
import SceneWiring.Proofs.UnknownTypes
/-!
# Names from the root

Generated code writes a declared type by its full name from the root of all namespaces, perhaps with
type arguments behind it. Such a text denotes the type itself when it has no type parameters. A generic
type is denoted by its bare full name only when no other declaration has this name, and with arguments
when there are as many as it has parameters. In a program whose names are free of the marks that
written types put around names nothing else is to be said; otherwise some other declaration may have
the whole text as its metadata name, or part of the name may be read as the root or as arguments.
-/

namespace SceneWiring

section Arguments

variable {front : List Char}

/-- No character of a text without brackets is the opening one. -/
theorem bne_of_mem_unapplied (h : '<' ∉ front) : ∀ c ∈ front, (c != '<') = true :=
  fun _ hc => bne_iff_ne.2 fun he => h (he ▸ hc)

/-- The text of arguments is empty or starts with the opening bracket. -/
theorem argumentsOf_cases (name : List Char) :
    ('<' ∉ name ∧ argumentsOf name = []) ∨ ('<' ∈ name ∧ ∃ rest, argumentsOf name = '<' :: rest) := by
  by_cases harguments : '<' ∈ name
  · refine .inr ⟨harguments, ?_⟩
    have hnonempty : argumentsOf name ≠ [] := by
      intro hnil
      have hall := List.dropWhile_eq_nil_iff.1 hnil '<' harguments
      simp at hall
    obtain ⟨c, rest, hrest⟩ := List.exists_cons_of_ne_nil hnonempty
    have hhead := List.head?_dropWhile_not (· != '<') name
    rw [argumentsOf] at hrest
    rw [hrest] at hhead
    have hc : c = '<' := by simpa using hhead
    exact ⟨rest, hc ▸ hrest⟩
  · exact .inl ⟨harguments, List.dropWhile_eq_nil_iff.2 (bne_of_mem_unapplied harguments)⟩

/-- A text without brackets stands before the arguments. -/
theorem beforeArguments_append (h : '<' ∉ front) (rest : List Char) :
    beforeArguments (front ++ '<' :: rest) = front := by
  rw [beforeArguments, List.takeWhile_append_of_pos (bne_of_mem_unapplied h)]
  simp

/-- The arguments start behind a text without brackets. -/
theorem argumentsOf_append (h : '<' ∉ front) (rest : List Char) :
    argumentsOf (front ++ '<' :: rest) = '<' :: rest := by
  rw [argumentsOf, List.dropWhile_append_of_pos (bne_of_mem_unapplied h)]
  simp

/-- The mark does not reach into the arguments. -/
theorem dropRootMark_append_arguments (rest : List Char) :
    dropRootMark (front ++ '<' :: rest) = dropRootMark front ++ '<' :: rest := by
  rcases dropRootMark_cases front with ⟨hmark, hfront⟩ | ⟨-, hfront⟩
  · rw [hfront]
    rcases dropRootMark_cases (front ++ '<' :: rest) with ⟨-, hname⟩ | ⟨hlong, -⟩
    · exact hname
    · rcases List.prefix_or_prefix_of_prefix hlong (List.prefix_append front _) with h | h
      · exact absurd h hmark
      · -- The bracket would be part of the mark.
        obtain ⟨more, hmore⟩ := h
        rw [← hmore, List.prefix_append_right_inj] at hlong
        rcases List.prefix_cons_iff.1 hlong with rfl | ⟨tail, rfl, -⟩
        · rw [List.append_nil] at hmore
          exact absurd (hmore ▸ List.prefix_rfl) hmark
        · have hmem : '<' ∈ rootMark := by
            rw [← hmore]
            exact List.mem_append_right _ List.mem_cons_self
          exact absurd hmem (by decide)
  · rw [hfront, List.append_assoc, dropRootMark_rootMark_append, dropRootMark_rootMark_append]

/-- The text before the arguments has no brackets. -/
theorem notMem_beforeArguments (name : List Char) : '<' ∉ beforeArguments name := by
  intro hmem
  have hother := List.mem_takeWhile_imp hmem
  simp at hother

/-- The name of a definition has no brackets. -/
theorem notMem_definitionChars (name : List Char) : '<' ∉ definitionChars name := by
  unfold definitionChars
  dsimp only
  split
  · exact fun hmem => notMem_beforeArguments _ ((Text.dropBlanksRight_prefix_self _).subset hmem)
  · assumption

/-- The name of the definition of a text with arguments. -/
theorem definitionChars_append (h : '<' ∉ front) (rest : List Char) :
    definitionChars (front ++ '<' :: rest) = Text.dropBlanksRight (dropRootMark front) := by
  have hfront : '<' ∉ dropRootMark front := mt mem_of_mem_dropRootMark h
  unfold definitionChars
  dsimp only
  rw [dropRootMark_append_arguments, if_pos (by simp), beforeArguments_append hfront]

end Arguments

/-- The mark behind the name of a generic type with that many parameters. -/
def arityMark (arity : Nat) : List Char := if arity = 0 then [] else '`' :: Nat.toDigits 10 arity

/-- A mark is a backtick and the number. -/
theorem toList_append_arity (text : String) {arity : Nat} (h : arity ≠ 0) :
    (text ++ "`" ++ toString arity).toList = text.toList ++ arityMark arity := by
  rw [arityMark, if_neg h, String.toList_append, String.toList_append, Nat.toString_eq_repr,
    Nat.toList_repr, List.append_assoc]
  rfl

/-- The metadata name is the full name with the mark. -/
theorem TypeDecl.toList_metadataName (d : TypeDecl) :
    d.metadataName.toList = d.fullName.toList ++ arityMark d.typeParameters.length := by
  unfold metadataName withArity
  split
  · rename_i hzero
    rw [hzero, arityMark, if_pos rfl, List.append_nil]
  · rename_i hgeneric
    exact toList_append_arity _ hgeneric

section ArityMark

variable {m n : Nat} {c : Char}

/-- There are only digits behind the backtick. -/
theorem isDigit_of_mem_toDigits (h : c ∈ Nat.toDigits 10 n) : c.isDigit = true :=
  Nat.isDigit_of_mem_toDigits (by decide) (by decide) h

/-- There are only digits and the backtick in a mark. -/
theorem notMem_arityMark (hdigit : c.isDigit = false) (hbacktick : c ≠ '`') (n : Nat) :
    c ∉ arityMark n := by
  unfold arityMark
  split
  · exact List.not_mem_nil
  · intro hmem
    rcases List.mem_cons.1 hmem with h | h
    · exact hbacktick h
    · rw [isDigit_of_mem_toDigits h] at hdigit
      cases hdigit

/-- There is nothing before the backtick in a mark. -/
theorem eq_nil_of_arityMark_eq_append {before : List Char} (hn : n ≠ 0)
    (h : arityMark m = before ++ arityMark n) : before = [] := by
  cases before with
  | nil => rfl
  | cons first before =>
    have hmem : '`' ∈ before ++ arityMark n := by
      rw [arityMark, if_neg hn]
      exact List.mem_append_right _ List.mem_cons_self
    rw [arityMark] at h
    split at h
    · cases h
    · rw [List.cons_append, List.cons.injEq] at h
      rw [← h.2] at hmem
      exact absurd (isDigit_of_mem_toDigits hmem) (by decide)

/-- A type without parameters has no mark, and every other has one. -/
theorem arityMark_eq_nil_iff : arityMark n = [] ↔ n = 0 := by
  unfold arityMark
  split <;> simp_all

/-- Different numbers have different marks. -/
theorem arityMark_injective : Function.Injective arityMark := by
  intro m n h
  unfold arityMark at h
  split at h <;> split at h
  · omega
  · cases h
  · cases h
  · have hvalue := congrArg (Nat.ofDigitChars 10 · 0) (List.cons.inj h).2
    rwa [Nat.ofDigitChars_ten_toDigits, Nat.ofDigitChars_ten_toDigits] at hvalue

/-- A name with a mark can be taken apart in one way only. -/
theorem append_arityMark_inj {name name' : List Char} (hm : m ≠ 0) (hn : n ≠ 0) :
    name ++ arityMark m = name' ++ arityMark n ↔ name = name' ∧ m = n := by
  constructor
  · intro h
    have hname : name = name' := by
      rcases List.append_eq_append_iff.1 h with ⟨between, rfl, hmark⟩ | ⟨between, rfl, hmark⟩
      · rw [eq_nil_of_arityMark_eq_append hn hmark, List.append_nil]
      · rw [eq_nil_of_arityMark_eq_append hm hmark, List.append_nil]
    subst hname
    exact ⟨rfl, arityMark_injective (List.append_cancel_left h)⟩
  · rintro ⟨rfl, rfl⟩
    rfl

end ArityMark

namespace Compilation

variable {c : Compilation} {d : TypeDecl}

/-- A full name finds the declared type that alone has it. -/
theorem withName?_eq_some_iff {name : String} :
    c.withName? name = some d ↔
      d ∈ c.types ∧ d.fullName = name ∧ c.types.countP (·.fullName == name) = 1 := by
  rw [withName?_eq_filter, List.countP_eq_length_filter]
  have hfilter : d ∈ c.types.filter (·.fullName == name) ↔ d ∈ c.types ∧ d.fullName = name := by
    rw [List.mem_filter, beq_iff_eq]
  rw [← and_assoc, ← hfilter]
  generalize c.types.filter (·.fullName == name) = found
  match found with
  | [] => simp
  | [only] => simp [eq_comm]
  | _ :: _ :: _ => simp

/-- A declared type is determined by a full name that only one has. -/
theorem eq_of_fullName {e : TypeDecl} (hd : d ∈ c.types) (he : e ∈ c.types)
    (hsame : e.fullName = d.fullName)
    (honly : c.types.countP (·.fullName == d.fullName) = 1) : e = d := by
  have hfound := withName?_eq_some_iff.2 ⟨hd, rfl, honly⟩
  have hfound' := withName?_eq_some_iff.2 ⟨he, hsame, honly⟩
  exact Option.some.inj (hfound'.symm.trans hfound)

/-- The ways in which a name without its root mark denotes a declared type. -/
inductive Denotes (c : Compilation) (name : List Char) (d : TypeDecl) : Prop
  /-- It is the metadata name. -/
  | key (same : d.metadataName.toList = name)
  /-- It is no metadata name, but it has the name of the definition and as many arguments as this has
  parameters. -/
  | applied (unkeyed : c.withKey? (String.ofList name) = none) (arguments : '<' ∈ name)
      (same : d.metadataName.toList =
        definitionChars name ++ arityMark (topCommas 0 (argumentsOf name) + 1))
  /-- It is no metadata name and has no arguments, but it is the full name of this type alone. -/
  | sole (unkeyed : c.withKey? (String.ofList name) = none) (unapplied : '<' ∉ name)
      (same : d.fullName.toList = dropRootMark name)
      (only : c.types.countP (·.fullName == d.fullName) = 1)

/-- A written name denotes the declared types that it denotes without its root mark. -/
theorem lookup_eq_some_iff {written : String} :
    c.lookup written = some d ↔ d ∈ c.types ∧ c.Denotes (dropRootMark written.toList) d := by
  unfold lookup
  dsimp only
  generalize dropRootMark written.toList = name
  have hkeys (key : List Char) : d.metadataName = String.ofList key ↔ d.metadataName.toList = key := by
    rw [← String.toList_inj, String.toList_ofList]
  cases hkey : c.withKey? (String.ofList name) with
  | some e =>
    change some e = some d ↔ _
    rw [← hkey, withKey?_eq_some_iff, hkeys]
    refine and_congr_right fun _ => ⟨.key, ?_⟩
    rintro (hsame | hunkeyed | hunkeyed)
    · exact hsame
    · cases hkey.symm.trans hunkeyed
    · cases hkey.symm.trans hunkeyed
  | none =>
    have hother : d ∈ c.types → d.metadataName.toList ≠ name := fun hd hsame =>
      withKey?_eq_none_iff.1 hkey d hd ((hkeys name).2 hsame)
    by_cases harguments : '<' ∈ name
    · have hdefinition : String.ofList (definitionChars name) ++ "`" ++
            toString (topCommas 0 (argumentsOf name) + 1) =
          String.ofList (definitionChars name ++ arityMark (topCommas 0 (argumentsOf name) + 1)) := by
        rw [← String.toList_inj, toList_append_arity _ (Nat.succ_ne_zero _), String.toList_ofList,
          String.toList_ofList]
      rw [arity?, if_pos harguments]
      dsimp only
      rw [hdefinition, withKey?_eq_some_iff, hkeys]
      refine and_congr_right fun hd => ⟨.applied hkey harguments, ?_⟩
      rintro (hsame | ⟨-, -, hsame⟩ | ⟨-, hunapplied, -⟩)
      · exact absurd hsame (hother hd)
      · exact hsame
      · exact absurd harguments hunapplied
    · rw [arity?, if_neg harguments]
      dsimp only
      rw [definitionChars_of_unapplied harguments, withName?_eq_some_iff]
      refine and_congr_right fun hd => ?_
      constructor
      · rintro ⟨hsame, honly⟩
        refine .sole hkey harguments ?_ (hsame ▸ honly)
        rw [hsame, String.toList_ofList]
      · rintro (hsame | ⟨-, happlied, -⟩ | ⟨-, -, hsame, honly⟩)
        · exact absurd hsame (hother hd)
        · exact absurd happlied harguments
        · have hfull : d.fullName = String.ofList (dropRootMark name) := by
            rw [← hsame, String.ofList_toList]
          exact ⟨hfull, hfull ▸ honly⟩

/-- The full name of a generic type denotes the type: nothing of it is read as the root or as
arguments, and it is no metadata name and no full name of another declared type. -/
structure IsSole (c : Compilation) (d : TypeDecl) : Prop where
  /-- Nothing of the name is read as the root or as arguments. -/
  plain : PlainName d.fullName
  /-- The name is no metadata name. -/
  unkeyed : ∀ e ∈ c.types, e.metadataName ≠ d.fullName
  /-- No other declared type has the name. -/
  only : c.types.countP (·.fullName == d.fullName) = 1

/-- The full name of a type with arguments behind it denotes the type: the name ends where the
arguments start, the whole is no metadata name, and there are as many arguments as parameters. -/
structure Takes (c : Compilation) (d : TypeDecl) (arguments : List Char) : Prop where
  /-- Nothing of the name is read as the root or as arguments. -/
  plain : PlainName d.fullName
  /-- The name does not end in a blank. -/
  solid : Text.dropBlanksRight d.fullName.toList = d.fullName.toList
  /-- The name with the arguments is no metadata name. -/
  unkeyed : ∀ e ∈ c.types, e.metadataName ≠ d.fullName ++ String.ofList arguments
  /-- There are as many arguments as parameters. -/
  arity : d.typeParameters.length = topCommas 0 arguments + 1

/-- The full name of a declared type from the root denotes the type, with that text of arguments. -/
def Recalls (c : Compilation) (d : TypeDecl) : List Char → Prop
  | [] => d.typeParameters = [] ∨ c.IsSole d
  | first :: rest => c.Takes d (first :: rest)

/-- The root mark is passed over in a name from the root. -/
theorem dropRootMark_fromRoot (name : String) :
    dropRootMark ("global::" ++ name).toList = name.toList := by
  rw [String.toList_append]
  exact dropRootMark_rootMark_append _

/-- A name with arguments denotes a type by its definition exactly when the definition has the full
name of the type, and as many parameters. -/
theorem eq_definitionChars_of_applied {rest : List Char} {n : Nat} (hn : n ≠ 0)
    (h : d.metadataName.toList = definitionChars (d.fullName.toList ++ '<' :: rest) ++ arityMark n) :
    '<' ∉ d.fullName.toList ∧
      d.fullName.toList = Text.dropBlanksRight (dropRootMark d.fullName.toList) ∧
      d.typeParameters.length = n := by
  rw [TypeDecl.toList_metadataName] at h
  have hplain : '<' ∉ d.fullName.toList := by
    intro hmem
    have hboth := List.mem_append_left (arityMark d.typeParameters.length) hmem
    rw [h, List.mem_append] at hboth
    exact hboth.elim (notMem_definitionChars _) (notMem_arityMark (by decide) (by decide) _)
  rw [definitionChars_append hplain] at h
  by_cases hsimple : d.typeParameters.length = 0
  · -- The name would have one backtick more than it has.
    rw [arityMark_eq_nil_iff.2 hsimple, List.append_nil] at h
    have hroot : (dropRootMark d.fullName.toList).count '`' = d.fullName.toList.count '`' := by
      rcases dropRootMark_cases d.fullName.toList with ⟨-, heq⟩ | ⟨-, heq⟩
      · rw [heq]
      · conv_rhs => rw [heq, List.count_append]
        rw [show rootMark.count '`' = 0 by decide, Nat.zero_add]
    have hblanks : (Text.dropBlanksRight (dropRootMark d.fullName.toList)).count '`' =
        d.fullName.toList.count '`' := by
      obtain ⟨blanks, hblank, heq⟩ := Text.exists_blanks (dropRootMark d.fullName.toList)
      have hnone : blanks.count '`' = 0 :=
        List.count_eq_zero.2 fun hmem => absurd (hblank _ hmem) (by decide)
      rw [← hroot]
      conv_rhs => rw [heq, List.count_append, hnone, Nat.add_zero]
    have hmark : 0 < (arityMark n).count '`' := by
      rw [arityMark, if_neg hn]
      exact List.count_pos_iff.2 List.mem_cons_self
    have hcount := congrArg (List.count '`') h
    rw [List.count_append, hblanks] at hcount
    omega
  · exact ⟨hplain, (append_arityMark_inj hsimple hn).1 h⟩

/-- The bare full name from the root denotes the type when it has no parameters or is the sole one of
the name. -/
theorem lookup_fullName_iff (hd : d ∈ c.types) :
    c.lookup ("global::" ++ d.fullName) = some d ↔ d.typeParameters = [] ∨ c.IsSole d := by
  rw [lookup_eq_some_iff, dropRootMark_fromRoot, and_iff_right hd]
  have hkey : d.metadataName.toList = d.fullName.toList ↔ d.typeParameters = [] := by
    rw [TypeDecl.toList_metadataName, List.append_right_eq_self, arityMark_eq_nil_iff,
      List.length_eq_zero_iff]
  constructor
  · rintro (hsame | ⟨-, harguments, hsame⟩ | ⟨hunkeyed, hunapplied, hsame, honly⟩)
    · exact .inl (hkey.1 hsame)
    · rw [TypeDecl.toList_metadataName] at hsame
      have hmem := List.mem_append_left (arityMark d.typeParameters.length) harguments
      rw [hsame, List.mem_append] at hmem
      exact (hmem.elim (notMem_definitionChars _)
        (notMem_arityMark (by decide) (by decide) _)).elim
    · rw [String.ofList_toList, withKey?_eq_none_iff] at hunkeyed
      exact .inr ⟨⟨dropRootMark_eq_self_iff.1 hsame.symm, hunapplied⟩, hunkeyed, honly⟩
  · rintro (hsimple | hsole)
    · exact .key (hkey.2 hsimple)
    · refine .sole ?_ hsole.plain.unapplied hsole.plain.dropRootMark_eq.symm hsole.only
      rw [String.ofList_toList, withKey?_eq_none_iff]
      exact hsole.unkeyed

/-- The full name from the root with arguments denotes the type when it takes them. -/
theorem lookup_applied_iff (hd : d ∈ c.types) (rest : List Char) :
    c.lookup ("global::" ++ d.fullName ++ String.ofList ('<' :: rest)) = some d ↔
      c.Takes d ('<' :: rest) := by
  have hname : dropRootMark ("global::" ++ d.fullName ++ String.ofList ('<' :: rest)).toList =
      d.fullName.toList ++ '<' :: rest := by
    rw [String.append_assoc, dropRootMark_fromRoot, String.toList_append, String.toList_ofList]
  have hunkeyed : c.withKey? (String.ofList (d.fullName.toList ++ '<' :: rest)) = none ↔
      ∀ e ∈ c.types, e.metadataName ≠ d.fullName ++ String.ofList ('<' :: rest) := by
    rw [String.ofList_append, String.ofList_toList, withKey?_eq_none_iff]
  rw [lookup_eq_some_iff, hname, and_iff_right hd]
  constructor
  · rintro (hsame | ⟨hnone, -, hsame⟩ | ⟨-, hunapplied, -⟩)
    · rw [TypeDecl.toList_metadataName] at hsame
      have hbracket : '<' ∈ arityMark d.typeParameters.length := by
        rw [List.append_cancel_left hsame]
        exact List.mem_cons_self
      exact absurd hbracket (notMem_arityMark (by decide) (by decide) _)
    · obtain ⟨hplain, hfull, harity⟩ := eq_definitionChars_of_applied (Nat.succ_ne_zero _) hsame
      rw [argumentsOf_append hplain] at harity
      have hlength : d.fullName.toList.length ≤ (dropRootMark d.fullName.toList).length := by
        have hshort := (Text.dropBlanksRight_prefix_self (dropRootMark d.fullName.toList)).length_le
        rwa [← hfull] at hshort
      have hself := (dropRootMark_suffix d.fullName.toList).eq_of_length_le hlength
      rw [hself] at hfull
      exact ⟨⟨dropRootMark_eq_self_iff.1 hself, hplain⟩, hfull.symm, hunkeyed.1 hnone, harity⟩
    · exact absurd (List.mem_append_right _ List.mem_cons_self) hunapplied
  · intro htakes
    have hplain := htakes.plain.unapplied
    refine .applied (hunkeyed.2 htakes.unkeyed) (by simp) ?_
    rw [TypeDecl.toList_metadataName, definitionChars_append hplain, htakes.plain.dropRootMark_eq,
      htakes.solid, argumentsOf_append hplain, htakes.arity]

/-- The full name from the root with the arguments of a name denotes the type when these call it
back. -/
theorem lookup_fromRoot_iff (hd : d ∈ c.types) (name : List Char) :
    c.lookup ("global::" ++ d.fullName ++ String.ofList (argumentsOf name)) = some d ↔
      c.Recalls d (argumentsOf name) := by
  rcases argumentsOf_cases name with ⟨-, hnone⟩ | ⟨-, rest, hrest⟩
  · rw [hnone, String.ofList_nil, String.append_empty]
    exact lookup_fullName_iff hd
  · rw [hrest]
    exact lookup_applied_iff hd rest

/-- A character that written types put around names: an opening bracket, the backtick, the colon of the
root mark, the mark of a nullable type, or a blank. -/
def isNameMark (c : Char) : Bool :=
  c == '<' || c == '`' || c == ':' || c == '?' || Text.isBlank c

/-- The declared names have no such characters in them. -/
def CleanNames (c : Compilation) : Prop :=
  ∀ d ∈ c.types, ∀ ch ∈ d.fullName.toList, isNameMark ch = false

instance (c : Compilation) : Decidable c.CleanNames :=
  decidable_of_iff (c.types.all fun d => d.fullName.toList.all (!isNameMark ·))
    (by simp only [CleanNames, List.all_eq_true, Bool.not_eq_true'])

namespace CleanNames

variable {e : TypeDecl}

/-- A mark is no part of a declared name. -/
theorem notMem_fullName (h : c.CleanNames) (hd : d ∈ c.types) {mark : Char}
    (hmark : isNameMark mark = true) : mark ∉ d.fullName.toList := by
  intro hmem
  rw [h d hd mark hmem] at hmark
  cases hmark

/-- Nothing of a declared name is read as the root or as arguments. -/
theorem plain (h : c.CleanNames) (hd : d ∈ c.types) : PlainName d.fullName := by
  refine ⟨fun hroot => ?_, h.notMem_fullName hd (by decide)⟩
  have hcolon : ':' ∈ d.fullName.toList := hroot.subset (by decide)
  exact h.notMem_fullName hd (by decide) hcolon

/-- A declared name does not end in a mark. -/
theorem getLast?_ne (h : c.CleanNames) (hd : d ∈ c.types) {last : Char}
    (hlast : last ∈ d.fullName.toList.getLast?) : isNameMark last = false :=
  h d hd last (List.mem_of_getLast? hlast)

/-- A declared name does not end in a blank. -/
theorem solid (h : c.CleanNames) (hd : d ∈ c.types) :
    Text.dropBlanksRight d.fullName.toList = d.fullName.toList := by
  refine Text.dropBlanksRight_eq_self fun last hlast => ?_
  have hmark := h.getLast?_ne hd hlast
  rw [isNameMark, Bool.or_eq_false_iff] at hmark
  exact hmark.2

/-- No mark but the backtick is part of a metadata name. -/
theorem notMem_metadataName (h : c.CleanNames) (hd : d ∈ c.types) {mark : Char}
    (hmark : isNameMark mark = true) (hdigit : mark.isDigit = false) (hbacktick : mark ≠ '`') :
    mark ∉ d.metadataName.toList := by
  rw [TypeDecl.toList_metadataName, List.mem_append, not_or]
  exact ⟨h.notMem_fullName hd hmark, notMem_arityMark hdigit hbacktick _⟩

/-- A full name is the metadata name of the type of that name that has no parameters. -/
theorem metadataName_eq_iff (h : c.CleanNames) (hd : d ∈ c.types) :
    e.metadataName = d.fullName ↔ e.typeParameters = [] ∧ e.fullName = d.fullName := by
  rw [← String.toList_inj, TypeDecl.toList_metadataName]
  constructor
  · intro hsame
    have hsimple : e.typeParameters.length = 0 := by
      by_contra hgeneric
      have hbacktick : '`' ∈ e.fullName.toList ++ arityMark e.typeParameters.length := by
        rw [arityMark, if_neg hgeneric]
        exact List.mem_append_right _ List.mem_cons_self
      exact h.notMem_fullName hd (by decide) (hsame ▸ hbacktick)
    rw [arityMark_eq_nil_iff.2 hsimple, List.append_nil] at hsame
    exact ⟨List.length_eq_zero_iff.1 hsimple, String.toList_inj.1 hsame⟩
  · rintro ⟨hsimple, hsame⟩
    rw [hsimple, hsame]
    exact List.append_nil _

/-- The bare full name denotes a type without parameters, and any other when it is the only one of the
name. -/
theorem recalls_nil_iff (h : c.CleanNames) (hd : d ∈ c.types) :
    c.Recalls d [] ↔
      d.typeParameters = [] ∨ c.types.countP (·.fullName == d.fullName) = 1 := by
  by_cases hsimple : d.typeParameters = []
  · exact iff_of_true (.inl hsimple) (.inl hsimple)
  · refine or_congr_right ⟨IsSole.only, fun honly => ⟨h.plain hd, fun e he hkey => ?_, honly⟩⟩
    obtain ⟨hother, hsame⟩ := (h.metadataName_eq_iff hd).1 hkey
    exact hsimple (eq_of_fullName hd he hsame honly ▸ hother)

/-- The full name with arguments denotes the type when there are as many as parameters. -/
theorem takes_iff (h : c.CleanNames) (hd : d ∈ c.types) (rest : List Char) :
    c.Takes d ('<' :: rest) ↔ d.typeParameters.length = topCommas 0 ('<' :: rest) + 1 := by
  refine ⟨Takes.arity, fun harity => ⟨h.plain hd, h.solid hd, fun e he hkey => ?_, harity⟩⟩
  have hbracket : '<' ∈ e.metadataName.toList := by
    rw [hkey, String.toList_append, String.toList_ofList]
    exact List.mem_append_right _ List.mem_cons_self
  exact h.notMem_metadataName he (by decide) (by decide) (by decide) hbracket

/-- The bare full name of a type denotes no types but itself and the one of that name that has no
parameters. -/
theorem eq_or_of_lookup (h : c.CleanNames) (hd : d ∈ c.types)
    (he : c.lookup ("global::" ++ d.fullName) = some e) :
    e = d ∨ e.typeParameters = [] ∧ e.fullName = d.fullName := by
  rw [lookup_eq_some_iff, dropRootMark_fromRoot] at he
  obtain ⟨hmem, hsame | ⟨-, harguments, -⟩ | ⟨-, -, hsame, honly⟩⟩ := he
  · exact .inr ((h.metadataName_eq_iff hd).1 (String.toList_inj.1 hsame))
  · exact absurd harguments (h.plain hd).unapplied
  · rw [(h.plain hd).dropRootMark_eq, String.toList_inj] at hsame
    exact .inl (eq_of_fullName hd hmem hsame (hsame ▸ honly))

end CleanNames

end Compilation

/-- A node, a resource, a box, a box of anything, and a lid with a member for either. -/
def boxTypes : List TypeDecl :=
  [{ name := "Node", namespaceName? := some "Godot" },
   { name := "Resource", namespaceName? := some "Godot" },
   { name := "Box", namespaceName? := some "Game", base? := some ⟨"Godot.Node", false⟩ },
   { name := "Box", namespaceName? := some "Game", base? := some ⟨"Godot.Node", false⟩,
     typeParameters := [{ name := "T" }] },
   { name := "Lid", namespaceName? := some "Game", base? := some ⟨"Godot.Node", false⟩,
     fields :=
      [{ name := "_box", type := ⟨"Game.Box<int>", false⟩,
         attributes := [{ name := "InjectAncestorValue" }] },
       { name := "_tray", type := ⟨"Game.Box", false⟩,
         attributes := [{ name := "InjectAncestorValue" }] }] }]

/-- The program of these types. -/
def boxProgram : Compilation :=
  ⟨boxTypes, [], keyIndex boxTypes, nameIndex boxTypes, by decide +kernel, rfl, rfl⟩

end SceneWiring
