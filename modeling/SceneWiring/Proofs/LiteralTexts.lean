import SceneWiring.Proofs.MetTypes
import SceneWiring.Proofs.Templates
/-!
# Texts that stand in literals only

The defaults, properties and names of ancestors that attributes give are data: they get into
generated code as string literals and nowhere else. Additions that differ only in the contents of
these texts are grouped and sorted alike, and their units come line by line of common templates
whose holes are filled with the literals of the texts.
-/

namespace SceneWiring

/-- Lists of related elements are sorted alike when related elements are compared alike. -/
theorem forall₂_sortBy {α β : Type} {s : α → β → Prop} {le : α → α → Bool} {le' : β → β → Bool}
    (hle : ∀ a b c d, s a b → s c d → le a c = le' b d) {xs : List α} {ys : List β}
    (h : List.Forall₂ s xs ys) : List.Forall₂ s (sortBy le xs) (sortBy le' ys) := by
  have hinsert {a : α} {b : β} {us : List α} {vs : List β} (hab : s a b)
      (huv : List.Forall₂ s us vs) : List.Forall₂ s (insertBy le a us) (insertBy le' b vs) := by
    induction huv with
    | nil => exact .cons hab .nil
    | cons hcd hrest ih =>
      rw [insertBy, insertBy, hle _ _ _ _ hab hcd]
      split
      · exact .cons hab (.cons hcd hrest)
      · exact .cons hcd ih
  induction h with
  | nil => exact .nil
  | cons hab _ ih => exact hinsert hab ih

/-- Lists of related parts, put together with the same between them. -/
theorem forall₂_intercalate {α : Type} {s : α → α → Prop} (hs : ∀ a, s a a) (between : List α)
    {ls ms : List (List α)} (h : List.Forall₂ (List.Forall₂ s) ls ms) :
    List.Forall₂ s (between.intercalate ls) (between.intercalate ms) := by
  induction h with
  | nil => exact .nil
  | cons hpart hrest ih =>
    cases hrest with
    | nil => simpa using hpart
    | cons hnext hmore =>
      rw [List.intercalate_cons_cons, List.intercalate_cons_cons]
      exact List.rel_append (List.rel_append hpart (List.forall₂_same.2 fun a _ => hs a)) ih

/-- Related parts, if there are any. -/
theorem forall₂_toList {α β : Type} {s : α → β → Prop} {a : Option α} {b : Option β}
    (h : Option.Rel s a b) : List.Forall₂ s a.toList b.toList := by
  cases h with
  | none => exact .nil
  | some hab => exact .cons hab .nil

/-- Any code is like itself. -/
theorem forall₂_alike_self (r : String → String → Prop) (body : List Code) :
    List.Forall₂ (Code.Alike r) body body :=
  List.forall₂_same.2 fun c _ => .same c

/-- A line is like another that has the literal of a related text in the same place. -/
theorem Code.Alike.line_of_literal {r : String → String → Prop} {f g : String} (h : r f g)
    (front back : List Piece) :
    Code.Alike r (.line (front ++ .literal f :: back)) (.line (front ++ .literal g :: back)) := by
  have hsame (ps : List Piece) : List.Forall₂ (Piece.Alike r) ps ps :=
    List.forall₂_same.2 fun p _ => .same p
  exact .line (List.rel_append (hsame front) (.cons (.literal h) (hsame back)))

/-- A line is like another that has the literals of related texts in the same two places. -/
theorem Code.Alike.line_of_literals {r : String → String → Prop} {f g p q : String} (h : r f g)
    (h' : r p q) (front middle back : List Piece) :
    (Code.line (front ++ .literal f :: (middle ++ .literal p :: back))).Alike r
      (.line (front ++ .literal g :: (middle ++ .literal q :: back))) := by
  have hsame (ps : List Piece) : List.Forall₂ (Piece.Alike r) ps ps :=
    List.forall₂_same.2 fun p _ => .same p
  have hrest := List.rel_append (hsame middle) (.cons (.literal h') (hsame back))
  exact .line (List.rel_append (hsame front) (.cons (.literal h) hrest))

/-- The slot with the content of its default left out. -/
def Slot.blanked (s : Slot) : Slot := { s with fallback := s.fallback.map fun _ => "" }

namespace Strategy

/-- The strategy with the contents left out of the texts that attributes give. -/
def blanked : Strategy → Strategy
  | .getNode slot property => .getNode slot.blanked (property.map fun _ => "")
  | .loadResource slot editorHint => .loadResource slot.blanked editorHint
  | .findNode slot property recursive owned =>
    .findNode slot.blanked (property.map fun _ => "") recursive owned
  | .injectAncestor member _ ancestorType source => .injectAncestor member "" ancestorType source
  | .callMethod method => .callMethod method
  | .selectorEnum className enumName fields => .selectorEnum className enumName fields

/-- The texts that go into literals: default and property, or the name of the ancestor and the
messages around it. -/
def strings : Strategy → List String
  | .getNode slot property => slot.fallback.toList ++ property.toList
  | .loadResource slot _ => slot.fallback.toList
  | .findNode slot property _ _ => slot.fallback.toList ++ property.toList
  | .injectAncestor _ ancestorName ancestorType _ =>
    [ancestorName, noParentMessage ancestorName, wrongTypeMessage ancestorName ancestorType]
  | .callMethod _ | .selectorEnum _ _ _ => []

/-- The strategies are the same up to the texts that attributes give, and those are related. -/
inductive Twin (r : String → String → Prop) : Strategy → Strategy → Prop
  | getNode (slot : Slot) {f g p q : Option String} (fallback : Option.Rel r f g)
      (property : Option.Rel r p q) :
    Twin r (.getNode { slot with fallback := f } p) (.getNode { slot with fallback := g } q)
  | loadResource (slot : Slot) {f g : Option String} (fallback : Option.Rel r f g)
      (editorHint : String) :
    Twin r (.loadResource { slot with fallback := f } editorHint)
      (.loadResource { slot with fallback := g } editorHint)
  | findNode (slot : Slot) {f g p q : Option String} (fallback : Option.Rel r f g)
      (property : Option.Rel r p q) (recursive owned : Bool) :
    Twin r (.findNode { slot with fallback := f } p recursive owned)
      (.findNode { slot with fallback := g } q recursive owned)
  | injectAncestor (member type : String) (source : Option String) {m n : String} (name : r m n)
      (noParent : r (noParentMessage m) (noParentMessage n))
      (wrongType : r (wrongTypeMessage m type) (wrongTypeMessage n type)) :
    Twin r (.injectAncestor member m type source) (.injectAncestor member n type source)
  | callMethod (method : String) : Twin r (.callMethod method) (.callMethod method)
  | selectorEnum (className enumName : String) (fields : List String) :
    Twin r (.selectorEnum className enumName fields) (.selectorEnum className enumName fields)

/-- Texts that are given or not given together are related when they correspond. -/
theorem rel_of_map_eq {r : String → String → Prop} {f g : Option String}
    (hgiven : (f.map fun _ => "") = g.map fun _ => "")
    (hr : ∀ p ∈ f.toList.zip g.toList, r p.1 p.2) : Option.Rel r f g := by
  cases f with
  | none =>
    cases g with
    | none => exact .none
    | some g => cases hgiven
  | some f =>
    cases g with
    | none => cases hgiven
    | some g => exact .some (hr (f, g) (by simp))

/-- Slots that are the same without the contents of their defaults. -/
theorem slot_of_blanked_eq {s t : Slot} (h : s.blanked = t.blanked) :
    t = { s with fallback := t.fallback } ∧
      (s.fallback.map fun _ => "") = t.fallback.map fun _ => "" := by
  obtain ⟨member, type, stem, fallback, orNull, hidden⟩ := s
  obtain ⟨member', type', stem', fallback', orNull', hidden'⟩ := t
  simp only [Slot.blanked, Slot.mk.injEq] at h ⊢
  tauto

/-- Texts that correspond in either of two places that are given together correspond. -/
theorem mem_zip_append {f g p q : Option String} (hgiven : (f.map fun _ => "") = g.map fun _ => "")
    {pair : String × String}
    (h : pair ∈ f.toList.zip g.toList ∨ pair ∈ p.toList.zip q.toList) :
    pair ∈ (f.toList ++ p.toList).zip (g.toList ++ q.toList) := by
  have hlength : f.toList.length = g.toList.length := by
    cases f <;> cases g <;> first | rfl | cases hgiven
  rw [List.zip_append hlength, List.mem_append]
  exact h

/-- Strategies that are the same without the contents of the texts are twins: their corresponding
texts are related. -/
theorem twin_of_blanked_eq {r : String → String → Prop} {s t : Strategy}
    (h : s.blanked = t.blanked) (hr : ∀ p ∈ s.strings.zip t.strings, r p.1 p.2) : s.Twin r t := by
  cases s with
  | getNode slot property =>
    cases t with
    | getNode slot' property' =>
      simp only [blanked, Strategy.getNode.injEq] at h
      obtain ⟨hslot, hfallback⟩ := slot_of_blanked_eq h.1
      rw [hslot]
      exact .getNode slot
        (rel_of_map_eq hfallback fun p hp => hr p (mem_zip_append hfallback (.inl hp)))
        (rel_of_map_eq h.2 fun p hp => hr p (mem_zip_append hfallback (.inr hp)))
    | loadResource | findNode | injectAncestor | callMethod | selectorEnum => cases h
  | loadResource slot editorHint =>
    cases t with
    | loadResource slot' editorHint' =>
      simp only [blanked, Strategy.loadResource.injEq] at h
      obtain ⟨hslot, hfallback⟩ := slot_of_blanked_eq h.1
      rw [hslot, ← h.2]
      exact .loadResource slot (rel_of_map_eq hfallback hr) editorHint
    | getNode | findNode | injectAncestor | callMethod | selectorEnum => cases h
  | findNode slot property recursive owned =>
    cases t with
    | findNode slot' property' recursive' owned' =>
      simp only [blanked, Strategy.findNode.injEq] at h
      obtain ⟨hblanked, hproperty, rfl, rfl⟩ := h
      obtain ⟨hslot, hfallback⟩ := slot_of_blanked_eq hblanked
      rw [hslot]
      exact .findNode slot
        (rel_of_map_eq hfallback fun p hp => hr p (mem_zip_append hfallback (.inl hp)))
        (rel_of_map_eq hproperty fun p hp => hr p (mem_zip_append hfallback (.inr hp)))
        recursive owned
    | getNode | loadResource | injectAncestor | callMethod | selectorEnum => cases h
  | injectAncestor member name type source =>
    cases t with
    | injectAncestor member' name' type' source' =>
      simp only [blanked, Strategy.injectAncestor.injEq] at h
      obtain ⟨rfl, -, rfl, rfl⟩ := h
      exact .injectAncestor member type source (hr (name, name') (by simp [strings]))
        (hr (noParentMessage name, noParentMessage name') (by simp [strings]))
        (hr (wrongTypeMessage name type, wrongTypeMessage name' type) (by simp [strings]))
    | getNode | loadResource | findNode | callMethod | selectorEnum => cases h
  | callMethod method =>
    cases t with
    | callMethod method' =>
      cases h
      exact .callMethod method
    | getNode | loadResource | findNode | injectAncestor | selectorEnum => cases h
  | selectorEnum className enumName fields =>
    cases t with
    | selectorEnum className' enumName' fields' =>
      cases h
      exact .selectorEnum className enumName fields
    | getNode | loadResource | findNode | injectAncestor | callMethod => cases h

namespace Twin

variable {r : String → String → Prop} {s t : Strategy}

/-- Initial values of related texts are alike. -/
theorem initialValueTokens {f g : String} (h : r f g) :
    (initialValueTokens f).plain.Alike r (initialValueTokens g).plain :=
  .indented (.cons (.line_of_literal h ["= "] [";"]) .nil)

/-- Assignments of related resources are alike. -/
theorem loadAssignmentTokens (slot : Slot) {f g : String} (h : r f g) :
    (loadAssignmentTokens slot f).plain.Alike r (loadAssignmentTokens slot g).plain :=
  .line_of_literal h [slot.member, " = GD.Load<", slot.type, ">("] [");"]

/-- Assignments of related properties are alike. -/
theorem propertyAssignmentTokens (slot : Slot) (node : List Token) {p q : String} (h : r p q) :
    (propertyAssignmentTokens slot node p).plain.Alike r
      (propertyAssignmentTokens slot node q).plain := by
  have hline := Code.Alike.line_of_literal h
    ([.raw slot.member, .raw " = (", .raw slot.type, .raw ")"] ++ node.map Token.piece ++
      [.raw "?.Get("]) [.raw ");"]
  simpa [Strategy.propertyAssignmentTokens] using hline

/-- The declarations of twins are alike. -/
theorem declaration (h : s.Twin r t) :
    Option.Rel (List.Forall₂ (Code.Alike r)) s.declaration t.declaration := by
  cases h with
  | getNode slot fallback property =>
    refine .some (.cons (.same _) ?_)
    have hvalues := forall₂_toList fallback
    rw [plainBody_eq_map, plainBody_eq_map, List.map_map, List.map_map]
    exact List.rel_map (fun _ _ hfg => initialValueTokens hfg) hvalues
  | loadResource slot fallback editorHint => exact .some (forall₂_alike_self r _)
  | findNode slot fallback property recursive owned =>
    refine .some (.cons (.same _) (.cons ?_ .nil))
    cases fallback with
    | none => exact .same _
    | some hfg => exact initialValueTokens hfg
  | selectorEnum className enumName fields => exact .some (forall₂_alike_self r _)
  | injectAncestor | callMethod => exact .none

/-- The constructor statements of twins are alike. -/
theorem constructorPart (h : s.Twin r t) :
    Option.Rel (List.Forall₂ (Code.Alike r)) s.constructorPart t.constructorPart := by
  cases h with
  | loadResource slot fallback editorHint =>
    cases fallback with
    | none => exact .none
    | some hfg =>
      exact .some (.cons (.same _)
        (.cons (.block (.cons (loadAssignmentTokens slot hfg) .nil)) .nil))
  | getNode | findNode | injectAncestor | callMethod | selectorEnum => exact .none

/-- The lifecycle statements of twins are alike. -/
theorem lifecycle (h : s.Twin r t) :
    Option.Rel (List.Forall₂ (Code.Alike r)) s.lifecycle t.lifecycle := by
  cases h with
  | getNode slot fallback property =>
    have hcheck := forall₂_alike_self r (plainBody (slotCheckTokens slot slot.pathName))
    cases property with
    | none => exact .some (.cons (.same _) (.cons (.same _) hcheck))
    | some hpq =>
      have hassign := propertyAssignmentTokens slot (getCallTokens slot.pathName) hpq
      exact .some (.cons (.same _) (.cons (.block (.cons hassign .nil)) hcheck))
  | loadResource slot fallback editorHint =>
    have hcheck := forall₂_alike_self r (plainBody (slotCheckTokens slot slot.resourceName))
    cases fallback with
    | none =>
      simp only [Strategy.lifecycle, lifecycleTokens]
      split
      · exact .none
      · exact .some hcheck
    | some hfg =>
      have hassign := loadAssignmentTokens slot hfg
      exact .some (.cons (.same _) (.cons (.block (.cons hassign .nil)) hcheck))
  | findNode slot fallback property recursive owned =>
    have hcheck := forall₂_alike_self r (plainBody (slotCheckTokens slot slot.maskName))
    cases property with
    | none => exact .some (.cons (.same _) (.cons (.same _) hcheck))
    | some hpq =>
      have hassign := propertyAssignmentTokens slot
        (findCallTokens slot.maskName recursive owned) hpq
      exact .some (.cons (.same _) (.cons (.block (.cons hassign .nil)) hcheck))
  | injectAncestor member type source name noParent wrongType =>
    -- The two lines with messages are taken apart at their literals.
    have hfind := Code.Alike.line_of_literals name noParent
      ["var ", "ancestor", " = (", "FindParent", "("] [") ?? throw new Exception("] ["))"]
    have hcast := Code.Alike.line_of_literal wrongType ["as ", type, " ?? throw new Exception("]
      [");"]
    exact .some (.cons (.block (.cons hfind (.cons (.indented (.cons hcast .nil))
      (.cons (.same _) .nil)))) .nil)
  | callMethod method => exact .some (forall₂_alike_self r _)
  | selectorEnum => exact .none

/-- What twins put after the class is alike. -/
theorem outside (h : s.Twin r t) :
    Option.Rel (List.Forall₂ (Code.Alike r)) s.outside t.outside := by
  cases h with
  | selectorEnum className enumName fields => exact .some (forall₂_alike_self r _)
  | getNode | loadResource | findNode | injectAncestor | callMethod => exact .none

end Twin

end Strategy

/-- The addition with the contents left out of the texts that attributes give. -/
def Addition.blanked (a : Addition) : Addition := { a with strategy := a.strategy.blanked }

/-- Without the texts an addition is for the same class. -/
@[simp]
theorem Addition.owner_blanked (a : Addition) : a.blanked.owner = a.owner := rfl

/-- The additions are the same up to the texts that attributes give, and those are related. -/
structure Addition.Twin (r : String → String → Prop) (a b : Addition) : Prop where
  /-- They are for the same class. -/
  owner_eq : a.owner = b.owner
  /-- They have the same order. -/
  order_eq : a.order = b.order
  /-- They have the same number. -/
  seq_eq : a.seq = b.seq
  /-- Their strategies are twins. -/
  strategy : a.strategy.Twin r b.strategy

/-- Additions that are the same without the contents of the texts are twins. -/
theorem Addition.twin_of_blanked_eq {r : String → String → Prop} {a b : Addition}
    (h : a.blanked = b.blanked)
    (hr : ∀ p ∈ a.strategy.strings.zip b.strategy.strings, r p.1 p.2) : a.Twin r b := by
  simp only [blanked, Addition.mk.injEq] at h
  obtain ⟨howner, horder, hseq, hstrategy⟩ := h
  exact ⟨howner, horder, hseq, Strategy.twin_of_blanked_eq hstrategy hr⟩

/-- Twins are for the same classes. -/
theorem owners_eq_of_blanked_eq {xs ys : List Addition}
    (h : xs.map Addition.blanked = ys.map Addition.blanked) : owners xs = owners ys := by
  have howners (zs : List Addition) :
      owners zs = (zs.map Addition.blanked).foldr (fun a ns => insertOwner a.owner ns) [] := by
    simp [owners, List.foldr_map]
  rw [howners, howners, h]

namespace ClassUnit

variable {r : String → String → Prop} {u v : ClassUnit}

/-- The statements of units of twins are statements of twins. -/
theorem forall₂_twin_ordered (h : List.Forall₂ (Addition.Twin r) u.additions v.additions) :
    List.Forall₂ (Addition.Twin r) u.ordered v.ordered := by
  refine forall₂_sortBy (fun a b c d hab hcd => ?_) h
  rw [Addition.orderLe, Addition.orderLe, Addition.seqLe, Addition.seqLe, hab.order_eq,
    hab.seq_eq, hcd.order_eq, hcd.seq_eq]

/-- Constructors of fragments that are alike are alike. -/
theorem alike_constructorSection (owner : TypeDecl) {fs gs : List (List Code)}
    (h : List.Forall₂ (List.Forall₂ (Code.Alike r)) fs gs) :
    Option.Rel (List.Forall₂ (Code.Alike r)) (constructorSection owner fs)
      (constructorSection owner gs) := by
  have hbody : List.Forall₂ (Code.Alike r) (fs.map .fragment) (gs.map .fragment) :=
    List.rel_map (fun _ _ hf => .fragment hf) h
  have hhook := forall₂_alike_self r [.blank, .line ["partial void Constructor();"]]
  cases h with
  | nil => exact .none
  | cons =>
    have hblock := List.rel_append hbody (forall₂_alike_self r [.line ["Constructor();"]])
    exact .some (.cons (.same _) (.cons (.block hblock) hhook))

/-- Lifecycle methods of fragments that are alike are alike. -/
theorem alike_lifecycleSection (config : Config) {fs gs : List (List Code)}
    (h : List.Forall₂ (List.Forall₂ (Code.Alike r)) fs gs) :
    Option.Rel (List.Forall₂ (Code.Alike r)) (lifecycleSection config fs)
      (lifecycleSection config gs) := by
  have hbody := List.rel_flatMap h fun _ _ hf =>
    List.Forall₂.cons (Code.Alike.same .blank) (.cons (.fragment hf) .nil)
  cases h with
  | nil => exact .none
  | cons => exact .some (.cons (.same _) (.cons (.block (.cons (.same _) hbody)) .nil))

/-- The sections of units of twins are alike. -/
theorem forall₂_alike_sections (config : Config) (owner : TypeDecl)
    (h : List.Forall₂ (Addition.Twin r) u.additions v.additions) :
    List.Forall₂ (List.Forall₂ (Code.Alike r)) (u.sections config owner)
      (v.sections config owner) := by
  have hordered := forall₂_twin_ordered h
  have hdeclarations := List.rel_filterMap (fun _ _ hab => hab.strategy.declaration) h
  have hconstructor := List.rel_filterMap (fun _ _ hab => hab.strategy.constructorPart) hordered
  have hlifecycle := List.rel_filterMap (fun _ _ hab => hab.strategy.lifecycle) hordered
  have hfragments := List.rel_map (fun _ _ hf => List.Forall₂.cons (Code.Alike.fragment hf) .nil)
    hdeclarations
  exact List.rel_append
    (List.rel_append hfragments (forall₂_toList (alike_constructorSection owner hconstructor)))
    (forall₂_toList (alike_lifecycleSection config hlifecycle))

/-- The code of units of twins is alike. -/
theorem forall₂_alike_code (config : Config) (owner : TypeDecl)
    (h : List.Forall₂ (Addition.Twin r) u.additions v.additions) :
    List.Forall₂ (Code.Alike r) (u.code config owner) (v.code config owner) := by
  have hbody := forall₂_intercalate Code.Alike.same [.blank]
    (forall₂_alike_sections config owner h)
  have houtside := List.rel_filterMap (fun _ _ hab => hab.strategy.outside) h
  have hafter := List.rel_flatMap houtside fun _ _ hf =>
    List.Forall₂.cons (Code.Alike.same .blank) (.cons (.fragment hf) .nil)
  have hclass : List.Forall₂ (Code.Alike r) (u.classCode config owner)
      (v.classCode config owner) :=
    List.rel_append (.cons (.same _) (.cons (.block hbody) .nil)) hafter
  have hbefore := forall₂_alike_self r
    (headerLine config.header ++ config.usings.map fun name => .line ["using ", name, ";"])
  exact List.rel_append hbefore (.cons (.same _) (.cons (.scope _ hclass) .nil))

end ClassUnit

/-- The texts stand at the same place in additions that the two lists have for a class. -/
def Counterparts (first second : List Addition) (owner : Nat) (f g : String) : Prop :=
  ∃ p ∈ first.zip second, p.1.owner = owner ∧ (f, g) ∈ p.1.strategy.strings.zip p.2.strategy.strings

/-- Additions of a class that correspond in two lists are twins. -/
theorem forall₂_twin_filter {first second : List Addition}
    (h : first.map Addition.blanked = second.map Addition.blanked) (owner : Nat) :
    List.Forall₂ (Addition.Twin (Counterparts first second owner))
      (first.filter (·.owner == owner)) (second.filter (·.owner == owner)) := by
  have hblanked : List.Forall₂ (fun a b => a.blanked = b.blanked) first second := by
    refine List.forall₂_map_left_iff.1 (List.forall₂_map_right_iff.1 ?_)
    rw [h]
    exact List.forall₂_same.2 fun _ _ => rfl
  obtain ⟨hlength, hzip⟩ := List.forall₂_iff_zip.1 hblanked
  have hpairs : List.Forall₂ (fun a b => a.blanked = b.blanked ∧ (a, b) ∈ first.zip second)
      first second :=
    List.forall₂_iff_zip.2 ⟨hlength, fun hab => ⟨hzip hab, hab⟩⟩
  have hfiltered := List.rel_filter (p := (·.owner == owner)) (q := (·.owner == owner))
    (fun a b hab => by
      have howner : a.owner = b.owner := by rw [← a.owner_blanked, hab.1, b.owner_blanked]
      simp [howner]) hpairs
  refine List.forall₂_iff_zip.2 ⟨hfiltered.length_eq, fun {a b} hab => ?_⟩
  obtain ⟨heq, hmem⟩ := (List.forall₂_iff_zip.1 hfiltered).2 hab
  have howner : a.owner = owner := by simpa using (List.mem_filter.1 (List.of_mem_zip hab).1).2
  exact Addition.twin_of_blanked_eq heq fun p hp => ⟨(a, b), hmem, howner, hp⟩

/-- The units have the same name and the same number of lines, and each line of the first comes of
one template with the line of the second in its place. -/
structure GeneratedUnit.SameLines (r : String → String → Prop) (g g' : GeneratedUnit) : Prop where
  /-- They go by the same name. -/
  hintName_eq : g.hintName = g'.hintName
  /-- The lines come of common templates, in order. -/
  lines : List.Forall₂ (SameTemplate r) (g.text.toList.splitOn '\n') (g'.text.toList.splitOn '\n')

/-- The units of a class with twins have lines of common templates. -/
theorem ClassUnit.sameLines_render {r : String → String → Prop} {u v : ClassUnit} (config : Config)
    (owner : TypeDecl) (h : List.Forall₂ (Addition.Twin r) u.additions v.additions) :
    (u.render config owner).SameLines r (v.render config owner) := by
  refine ⟨rfl, ?_⟩
  rw [render, render, renderCode, renderCode, String.toList_ofList, String.toList_ofList]
  exact (bodyAlike_chars 0 (forall₂_alike_code config owner h)).splitOn

/-- Additions that differ only in the contents of defaults, properties and names of ancestors have
units for the same classes, with the same names and with lines of common templates, whose holes are
literals of texts at the same place. -/
theorem strings_stay_in_literals (c : Compilation) (config : Config) {first second : List Addition}
    (h : first.map Addition.blanked = second.map Addition.blanked) :
    List.Forall₂
      (fun u v => u.owner = v.owner ∧
        Option.Rel (GeneratedUnit.SameLines (Counterparts first second u.owner))
          (c.renderUnit? config u) (c.renderUnit? config v))
      (ClassUnit.group first) (ClassUnit.group second) := by
  rw [ClassUnit.group, ClassUnit.group, owners_eq_of_blanked_eq h]
  refine List.forall₂_map_left_iff.2 (List.forall₂_map_right_iff.2 ?_)
  refine List.forall₂_same.2 fun owner _ => ⟨rfl, ?_⟩
  have hseq : ∀ a b a' b' : Addition, a.Twin (Counterparts first second owner) b →
      a'.Twin (Counterparts first second owner) b' → a.seqLe a' = b.seqLe b' := by
    intro a b a' b' hab hab'
    rw [Addition.seqLe, Addition.seqLe, hab.seq_eq, hab'.seq_eq]
  have htwins := forall₂_sortBy hseq (forall₂_twin_filter h owner)
  unfold Compilation.renderUnit?
  cases c.types[owner]? with
  | none => exact .none
  | some d => exact .some (ClassUnit.sameLines_render config d htwins)

/-- A default and the name of an ancestor. -/
def tameTexts : List Addition :=
  [⟨2, 0, 0, .getNode
      ⟨"_sword", "global::Godot.Node", "Sword", some "Arm/Sword", false, false⟩ none⟩,
   ⟨2, 0, 1, .injectAncestor "_level" "Level" "global::Godot.Node" none⟩]

/-- The same default and name, with contents that would end a literal, a line and a statement. -/
def wildTexts : List Addition :=
  [⟨2, 0, 0, .getNode
      ⟨"_sword", "global::Godot.Node", "Sword", some "\"; \x7d \r\n//", false, false⟩ none⟩,
   ⟨2, 0, 1, .injectAncestor "_level" "\\\");\n\tQuit();" "global::Godot.Node" none⟩]

/-- The wild texts change the unit of the hero in its literals only. -/
theorem wild_texts_stay_in_literals :
    let c : Compilation := ⟨gameTypes, gameMentions, keyIndex gameTypes, nameIndex gameTypes,
      nodup_metadataName_gameTypes, rfl, rfl⟩
    tameTexts ≠ wildTexts ∧ tameTexts.map Addition.blanked = wildTexts.map Addition.blanked ∧
      ∃ g g', (ClassUnit.group tameTexts).map (c.renderUnit? {}) = [some g] ∧
        (ClassUnit.group wildTexts).map (c.renderUnit? {}) = [some g'] ∧
        g.SameLines (Counterparts tameTexts wildTexts 2) g' := by
  intro c
  have hblanked : tameTexts.map Addition.blanked = wildTexts.map Addition.blanked := by decide
  have hunits := strings_stay_in_literals c {} hblanked
  have htame : ClassUnit.group tameTexts = [⟨2, tameTexts⟩] := by decide
  have hwild : ClassUnit.group wildTexts = [⟨2, wildTexts⟩] := by decide
  rw [htame, hwild] at hunits
  obtain ⟨⟨-, hlines⟩, -⟩ := List.forall₂_cons.1 hunits
  cases hlines with
  | some hlines =>
    exact ⟨by decide, hblanked, _, _, by rw [htame]; rfl, by rw [hwild]; rfl, hlines⟩

end SceneWiring
