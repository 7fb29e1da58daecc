import Mathlib.Data.List.TakeWhile
import SceneWiring.Annotation
/-!
# Names of attributes

An attribute may be written with a qualification before its short name: the parts of a namespace, each
with a dot behind it, and perhaps the mark of the root before them. Only what stands behind the last dot
is looked at. So a qualification with a part in it makes no difference, and neither does the ending
`Attribute`. The mark of the root alone has no dot behind it and stays with the name, which then names
no annotation.
-/

namespace SceneWiring

namespace AnnotationKind

/-! ## Short names -/

/-- Every kind is among all kinds. -/
theorem mem_all (kind : AnnotationKind) : kind ∈ all := by
  cases kind <;> decide

/-- Kinds with the same short name are the same. -/
theorem name_injective : Function.Injective name := by
  intro first second h
  cases first <;> cases second <;> first | rfl | exact absurd h (by decide)

/-- A short name, with or without the ending, has neither a dot nor a colon in it. -/
theorem marks_notMem_name (kind : AnnotationKind) :
    '.' ∉ kind.name.toList ++ attributeEnding ∧ ':' ∉ kind.name.toList ++ attributeEnding := by
  cases kind <;> decide

/-- No short name has the ending. -/
theorem not_attributeEnding_suffix_name (kind : AnnotationKind) :
    ¬attributeEnding <:+ kind.name.toList := by
  cases kind <;> decide

/-- Among all kinds the one with a short name is found. -/
theorem find?_name_eq_some_iff {short : List Char} {kind : AnnotationKind} :
    (all.find? fun other => other.name.toList == short) = some kind ↔ short = kind.name.toList := by
  have hname {other : AnnotationKind}
      (h : (all.find? fun other => other.name.toList == short) = some other) :
      other.name.toList = short := by
    have hfound := List.find?_some h
    exact beq_iff_eq.1 hfound
  constructor
  · intro h
    exact (hname h).symm
  · intro h
    have hfound : (all.find? fun other => other.name.toList == short).isSome = true :=
      List.find?_isSome.2 ⟨kind, mem_all kind, beq_iff_eq.2 h.symm⟩
    obtain ⟨other, hother⟩ := Option.isSome_iff_exists.1 hfound
    have hsame : other = kind :=
      name_injective (String.toList_inj.1 ((hname hother).trans h))
    rw [hother, hsame]

/-! ## The last part of a name and its ending -/

/-- No character of a name without a dot is one, read from the end. -/
theorem bne_dot_of_mem_reverse {name : List Char} (h : '.' ∉ name) :
    ∀ c ∈ name.reverse, (c != '.') = true := by
  intro c hc
  have hmem : c ∈ name := List.mem_reverse.1 hc
  exact bne_iff_ne.2 fun heq => h (heq ▸ hmem)

/-- The last part is what stands behind the last dot. -/
theorem lastPart_append_dot (front : List Char) {name : List Char} (h : '.' ∉ name) :
    lastPart (front ++ '.' :: name) = name := by
  have hreverse : (front ++ '.' :: name).reverse = name.reverse ++ '.' :: front.reverse := by
    simp
  rw [lastPart, hreverse, List.takeWhile_append_of_pos (bne_dot_of_mem_reverse h),
    List.takeWhile_cons_of_neg (by simp), List.append_nil, List.reverse_reverse]

/-- A name without a dot is its own last part. -/
theorem lastPart_of_notMem {name : List Char} (h : '.' ∉ name) : lastPart name = name := by
  rw [lastPart, List.takeWhile_eq_self_iff.2 (bne_dot_of_mem_reverse h), List.reverse_reverse]

/-- The last part has no dot in it, and what stands before it is nothing or ends in a dot. -/
theorem lastPart_eq_iff {name last : List Char} :
    lastPart name = last ↔
      '.' ∉ last ∧ ∃ front, (front = [] ∨ ∃ path, front = path ++ ['.']) ∧ name = front ++ last := by
  constructor
  · rintro rfl
    by_cases hdot : '.' ∈ name
    · obtain ⟨last, front, hname, hlast⟩ := List.eq_append_cons_of_mem (List.mem_reverse.2 hdot)
      have hsplit : name = front.reverse ++ '.' :: last.reverse := by
        have hback := congrArg List.reverse hname
        simpa using hback
      have hlast : '.' ∉ last.reverse := fun hmem => hlast (List.mem_reverse.1 hmem)
      have hpart : lastPart name = last.reverse := by
        rw [hsplit, lastPart_append_dot _ hlast]
      rw [hpart]
      exact ⟨hlast, front.reverse ++ ['.'], .inr ⟨_, rfl⟩, by rw [hsplit]; simp⟩
    · rw [lastPart_of_notMem hdot]
      exact ⟨hdot, [], .inl rfl, rfl⟩
  · rintro ⟨hlast, front, rfl | ⟨path, rfl⟩, rfl⟩
    · exact lastPart_of_notMem hlast
    · have hsplit : path ++ ['.'] ++ last = path ++ '.' :: last := by simp
      rw [hsplit, lastPart_append_dot _ hlast]

/-- A name with the ending loses it. -/
theorem dropEnding_append (name : List Char) : dropEnding (name ++ attributeEnding) = name := by
  have hending : attributeEnding.isSuffixOf (name ++ attributeEnding) = true :=
    List.isSuffixOf_iff_suffix.2 (List.suffix_append _ _)
  rw [dropEnding, if_pos hending, List.length_append, Nat.add_sub_cancel, List.take_left]

/-- A name without the ending stays as it is. -/
theorem dropEnding_of_not_suffix {name : List Char} (h : ¬attributeEnding <:+ name) :
    dropEnding name = name :=
  if_neg fun hending => h (List.isSuffixOf_iff_suffix.1 hending)

/-- A short name is what is left of itself and of itself with the ending, and of nothing else. -/
theorem dropEnding_eq_name_iff {last : List Char} {kind : AnnotationKind} :
    dropEnding last = kind.name.toList ↔
      last = kind.name.toList ∨ last = kind.name.toList ++ attributeEnding := by
  constructor
  · intro h
    by_cases hending : attributeEnding <:+ last
    · obtain ⟨front, rfl⟩ := hending
      rw [dropEnding_append] at h
      exact .inr (congrArg (· ++ attributeEnding) h)
    · rw [dropEnding_of_not_suffix hending] at h
      exact .inl h
  · intro h
    rcases h with hshort | hlong
    · rw [hshort]
      exact dropEnding_of_not_suffix (not_attributeEnding_suffix_name kind)
    · rw [hlong]
      exact dropEnding_append _

/-! ## Names that are recognised -/

/-- A name stands for a kind when its last part is the short name, with or without the ending. -/
theorem ofAttributeName_eq_some_iff {name : String} {kind : AnnotationKind} :
    ofAttributeName name = some kind ↔
      lastPart name.toList = kind.name.toList ∨
        lastPart name.toList = kind.name.toList ++ attributeEnding := by
  rw [← dropEnding_eq_name_iff]
  exact find?_name_eq_some_iff

/-- Names with the same last part stand for the same. -/
theorem ofAttributeName_congr {first second : String}
    (h : lastPart first.toList = lastPart second.toList) :
    ofAttributeName first = ofAttributeName second := by
  rw [ofAttributeName, ofAttributeName, h]

/-- A name stands for nothing when there is a colon in its last part. -/
theorem ofAttributeName_of_colon {name : String} (h : ':' ∈ lastPart name.toList) :
    ofAttributeName name = none := by
  rw [Option.eq_none_iff_forall_ne_some]
  intro kind hkind
  have hmem : ':' ∈ kind.name.toList ++ attributeEnding := by
    rcases ofAttributeName_eq_some_iff.1 hkind with hlast | hlast
    · rw [hlast] at h
      exact List.mem_append_left _ h
    · rwa [hlast] at h
  exact (marks_notMem_name kind).2 hmem

/-- A name stands for a kind when it is the short name, with or without the ending, behind nothing or
behind a text that ends in a dot. -/
theorem ofAttributeName_eq_some_iff_behind {name : String} {kind : AnnotationKind} :
    ofAttributeName name = some kind ↔
      ∃ front : String, (front = "" ∨ ∃ path, front = path ++ ".") ∧
        (name = front ++ kind.name ∨ name = front ++ kind.name ++ "Attribute") := by
  rw [ofAttributeName_eq_some_iff]
  constructor
  · intro hlast
    obtain ⟨-, front, hfront, hname⟩ := lastPart_eq_iff.1 (rfl : lastPart name.toList = _)
    refine ⟨String.ofList front, ?_, ?_⟩
    · rcases hfront with rfl | ⟨path, rfl⟩
      · exact .inl rfl
      · exact .inr ⟨String.ofList path, String.ofList_append⟩
    · rw [← String.toList_inj, ← String.toList_inj, hname]
      simp only [String.toList_append, String.toList_ofList, List.append_assoc,
        List.append_cancel_left_eq]
      exact hlast
  · rintro ⟨front, hfront, hname⟩
    have hdot : '.' ∉ kind.name.toList ++ attributeEnding := (marks_notMem_name kind).1
    have hchars : front.toList = [] ∨ ∃ path, front.toList = path ++ ['.'] := by
      rcases hfront with rfl | ⟨path, rfl⟩
      · exact .inl rfl
      · exact .inr ⟨path.toList, String.toList_append⟩
    rcases hname with rfl | rfl
    · have hshort : '.' ∉ kind.name.toList := fun hmem => hdot (List.mem_append_left _ hmem)
      exact .inl (lastPart_eq_iff.2 ⟨hshort, front.toList, hchars, String.toList_append⟩)
    · refine .inr (lastPart_eq_iff.2 ⟨hdot, front.toList, hchars, ?_⟩)
      rw [String.toList_append, String.toList_append, List.append_assoc]
      rfl

/-- A name without a dot stands for a kind when it is the short name, with or without the ending. -/
theorem ofAttributeName_of_notMem {name : String} (h : '.' ∉ name.toList) {kind : AnnotationKind} :
    ofAttributeName name = some kind ↔ name = kind.name ∨ name = kind.name ++ "Attribute" := by
  have hlong : name.toList = kind.name.toList ++ attributeEnding ↔
      name = kind.name ++ "Attribute" := by
    rw [← String.toList_inj, String.toList_append]
    rfl
  rw [ofAttributeName_eq_some_iff, lastPart_of_notMem h, String.toList_inj, hlong]

end AnnotationKind

/-- What qualifies a name: the parts of a namespace, from the root of all namespaces or not. -/
structure Qualification where
  /-- The mark of the root stands in front. -/
  rooted : Bool := false
  /-- The parts of the namespace, outermost first. -/
  path : List String := []
deriving DecidableEq, Repr

namespace Qualification

/-- The text of a qualification: the mark of the root, if it is there, and each part with a dot. -/
def chars (q : Qualification) : List Char :=
  (if q.rooted then rootMark else []) ++ q.path.flatMap fun part => part.toList ++ ['.']

/-- A name with a qualification in front. -/
def qualify (q : Qualification) (name : String) : String := String.ofList (q.chars ++ name.toList)

/-- The qualification that is the mark of the root and nothing else. -/
def rootAlone : Qualification := { rooted := true }

/-- Any other qualification than the mark of the root alone is empty or ends in a dot. -/
theorem chars_of_ne_rootAlone {q : Qualification} (h : q ≠ rootAlone) :
    q.chars = [] ∨ ∃ front, q.chars = front ++ ['.'] := by
  obtain ⟨rooted, path⟩ := q
  rcases List.eq_nil_or_concat path with rfl | ⟨parts, part, rfl⟩
  · cases rooted with
    | false => exact .inl rfl
    | true => exact absurd rfl h
  · refine .inr ⟨(if rooted then rootMark else []) ++
      parts.flatMap (fun part => part.toList ++ ['.']) ++ part.toList, ?_⟩
    simp [chars]

/-- A qualification other than the mark of the root alone is no part of what a name stands for. -/
theorem ofAttributeName_qualify {q : Qualification} (h : q ≠ rootAlone) {name : String}
    (hname : '.' ∉ name.toList) :
    AnnotationKind.ofAttributeName (q.qualify name) = AnnotationKind.ofAttributeName name := by
  apply AnnotationKind.ofAttributeName_congr
  rw [qualify, String.toList_ofList, AnnotationKind.lastPart_of_notMem hname]
  rcases chars_of_ne_rootAlone h with hnone | ⟨front, hfront⟩
  · rw [hnone]
    exact AnnotationKind.lastPart_of_notMem hname
  · rw [hfront, List.append_assoc]
    exact AnnotationKind.lastPart_append_dot front hname

/-- With the mark of the root alone in front a name stands for nothing. -/
theorem ofAttributeName_qualify_rootAlone {name : String} (hname : '.' ∉ name.toList) :
    AnnotationKind.ofAttributeName (rootAlone.qualify name) = none := by
  have hrooted : '.' ∉ rootMark ++ name.toList := by
    rw [List.mem_append, not_or]
    exact ⟨by decide, hname⟩
  have hlast : AnnotationKind.lastPart (rootAlone.qualify name).toList = rootMark ++ name.toList := by
    rw [qualify, String.toList_ofList]
    exact AnnotationKind.lastPart_of_notMem hrooted
  apply AnnotationKind.ofAttributeName_of_colon
  rw [hlast]
  exact List.mem_append_left _ (by decide)

end Qualification

/-- A qualification in front of a name without a dot makes no difference to the kind that the name
stands for, except that with the mark of the root alone in front it stands for none. A name without a
dot stands for a kind when it is its short name, with or without the ending; any name does when it is
that behind nothing or behind a text that ends in a dot. -/
theorem kind_kept_by_qualification_iff {n : String} (hn : '.' ∉ n.toList) (q : Qualification) :
    (AnnotationKind.ofAttributeName (q.qualify n) = AnnotationKind.ofAttributeName n ↔
      q ≠ .rootAlone ∨ AnnotationKind.ofAttributeName n = none) ∧
    (∀ kind : AnnotationKind, AnnotationKind.ofAttributeName n = some kind ↔
      n = kind.name ∨ n = kind.name ++ "Attribute") ∧
    ∀ (name : String) (kind : AnnotationKind), AnnotationKind.ofAttributeName name = some kind ↔
      ∃ front : String, (front = "" ∨ ∃ path, front = path ++ ".") ∧
        (name = front ++ kind.name ∨ name = front ++ kind.name ++ "Attribute") := by
  refine ⟨?_, fun kind => AnnotationKind.ofAttributeName_of_notMem hn,
    fun name kind => AnnotationKind.ofAttributeName_eq_some_iff_behind⟩
  by_cases hroot : q = .rootAlone
  · rw [hroot, Qualification.ofAttributeName_qualify_rootAlone hn]
    constructor
    · intro hsame
      exact .inr hsame.symm
    · intro h
      have hnone := h.resolve_left (not_not_intro rfl)
      exact hnone.symm
  · exact iff_of_true (Qualification.ofAttributeName_qualify hroot hn) (.inl hroot)

/-- The name of a namespace, from the root of all namespaces. -/
def marksNamespace : Qualification := { rooted := true, path := ["Game", "Marks"] }

/-- Behind the name of a namespace a short name with the ending stands for its kind. -/
theorem onReady_kept_behind_namespace :
    '.' ∉ "OnReadyAttribute".toList ∧
      marksNamespace.qualify "OnReadyAttribute" = "global::Game.Marks.OnReadyAttribute" ∧
      AnnotationKind.ofAttributeName "global::Game.Marks.OnReadyAttribute" = some .onReady := by
  have hdot : '.' ∉ "OnReadyAttribute".toList := by decide
  have hqualified : marksNamespace.qualify "OnReadyAttribute" =
      "global::Game.Marks.OnReadyAttribute" := by decide
  obtain ⟨hsame, hkind, -⟩ := kind_kept_by_qualification_iff hdot marksNamespace
  have hkept := hsame.2 (.inl (by decide))
  have hshort := (hkind .onReady).2 (.inr rfl)
  rw [hqualified, hshort] at hkept
  exact ⟨hdot, hqualified, hkept⟩

/-- Behind the mark of the root alone a short name stands for nothing. -/
theorem onReady_lost_behind_root_mark :
    '.' ∉ "OnReady".toList ∧
      Qualification.rootAlone.qualify "OnReady" = "global::OnReady" ∧
      AnnotationKind.ofAttributeName "OnReady" = some .onReady ∧
      AnnotationKind.ofAttributeName "global::OnReady" = none := by
  decide

end SceneWiring
