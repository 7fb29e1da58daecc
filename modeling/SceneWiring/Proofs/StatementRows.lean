import SceneWiring.Proofs.CodeRows
import SceneWiring.Strategy
/-!
# Rows of statements

What strategies contribute, row by row. When no text that is written as code breaks a line, the
declarations, the constructor statements and the lifecycle statements are paragraphs: rows without
an empty one. A declaration has not three rows and is not the hook of a constructor, a constructor
statement ends in its only closing brace, and what goes after the class is two paragraphs.
-/

namespace SceneWiring

/-- Rows that stand together: there are some, and none is empty. -/
structure IsParagraph (rows : List Row) : Prop where
  /-- There are rows. -/
  ne_nil : rows ≠ []
  /-- None is empty. -/
  nil_not_mem : [] ∉ rows

/-- A statement without empty rows is a paragraph when it has rows at all. -/
theorem isParagraph_fragmentRows {body : List Code} (h : bodyPlain body)
    (hne : bodyRows body ≠ []) : IsParagraph (fragmentRows body) := by
  rw [fragmentRows_eq_map (feed_not_mem_of_plain h)]
  refine ⟨fun hnil => hne (List.map_eq_nil_iff.1 hnil), fun hmem => ?_⟩
  obtain ⟨row, hrow, hnil⟩ := List.mem_map.1 hmem
  exact (bodyPlain_rows_full h row hrow).dropReturn.ne_nil hnil

/-- Two statements with an empty line between them are their rows with an empty one between. -/
theorem fragmentRows_append_blank {first second : List Code} (hfirst : bodyPlain first)
    (hsecond : bodyPlain second) :
    fragmentRows (first ++ .blank :: second) =
      fragmentRows first ++ [] :: fragmentRows second := by
  have hfirst' := feed_not_mem_of_plain hfirst
  have hsecond' := feed_not_mem_of_plain hsecond
  have hrows : bodyRows (first ++ .blank :: second) = bodyRows first ++ [] :: bodyRows second :=
    bodyRows_append first _
  have hboth : ∀ row ∈ bodyRows (first ++ .blank :: second), '\n' ∉ row := by
    rw [hrows]
    exact List.forall_mem_append.2 ⟨hfirst', List.forall_mem_cons.2 ⟨List.not_mem_nil, hsecond'⟩⟩
  rw [fragmentRows_eq_map hboth, fragmentRows_eq_map hfirst', fragmentRows_eq_map hsecond', hrows,
    List.map_append, List.map_cons]
  rfl

/-- A line is not another one when it has a character that the other has not. -/
theorem dropReturn_ne_of_mem {row other : Row} {c : Char} (hc : c ∈ row) (hne : c ≠ '\r')
    (hother : c ∉ other) : Text.dropReturn row ≠ other :=
  fun heq => hother (heq ▸ Text.mem_dropReturn hc hne)

/-- The row that declares the hook of a constructor. -/
def hookRow : Row := lineChars ["partial void Constructor();"]

namespace Slot

variable (slot : Slot)

/-- The texts of a slot that are written as code. -/
def texts : List String := [slot.member, slot.type, slot.stem]

/-- The mark of a companion breaks no line. -/
@[simp]
theorem feed_not_mem_exportMark : '\n' ∉ slot.exportMark.toList := by
  unfold exportMark
  split <;> decide

end Slot

namespace Strategy

/-- The texts of a strategy that are written as code. -/
def texts : Strategy → List String
  | .getNode slot _ | .findNode slot _ _ _ => slot.texts
  | .loadResource slot editorHint => editorHint :: slot.texts
  | .injectAncestor member _ ancestorType source => member :: ancestorType :: source.toList
  | .callMethod method => [method]
  | .selectorEnum className enumName fields => className :: enumName :: fields

/-- No text that is written as code breaks a line. -/
def Unbroken (s : Strategy) : Prop := ∀ text ∈ s.texts, '\n' ∉ text.toList

instance (s : Strategy) : Decidable s.Unbroken :=
  inferInstanceAs (Decidable (∀ text ∈ s.texts, '\n' ∉ text.toList))

/-- The line of a companion is part of a statement. -/
theorem plain_companionTokens (slot : Slot) {type name : String} (htype : '\n' ∉ type.toList)
    (hname : '\n' ∉ name.toList) : (companionTokens slot type name).plain.Plain := by
  simp [companionTokens, Code.Plain, Piece.Unbroken, Piece.Readable, htype, hname]

/-- The initial value of a companion is part of a statement. -/
theorem plain_initialValueTokens (text : String) : (initialValueTokens text).plain.Plain := by
  simp [initialValueTokens, Code.Plain, bodyPlain, Piece.Unbroken, Piece.Readable]

/-- The check of a slot is a statement. -/
theorem plain_slotCheckTokens {slot : Slot} {companion : String}
    (hmember : '\n' ∉ slot.member.toList) (hcompanion : '\n' ∉ companion.toList) :
    bodyPlain (plainBody (slotCheckTokens slot companion)) := by
  unfold slotCheckTokens
  split
  · trivial
  · simp [nullCheckTokens, bodyPlain, Code.Plain, Piece.Unbroken, Piece.Readable, hmember, hcompanion]

/-- The assignment of a loaded resource is a statement. -/
theorem plain_loadAssignmentTokens {slot : Slot} (resource : String)
    (hmember : '\n' ∉ slot.member.toList) (htype : '\n' ∉ slot.type.toList) :
    (loadAssignmentTokens slot resource).plain.Plain := by
  simp [loadAssignmentTokens, Code.Plain, Piece.Unbroken, Piece.Readable, hmember, htype]

/-- The assignment of a property is a statement. -/
theorem plain_propertyAssignmentTokens {slot : Slot} {node : List Token} (property : String)
    (hmember : '\n' ∉ slot.member.toList) (htype : '\n' ∉ slot.type.toList)
    (hnode : ∀ t ∈ node, t.piece.Unbroken) :
    (propertyAssignmentTokens slot node property).plain.Plain := by
  simp [propertyAssignmentTokens, Code.Plain, Piece.Unbroken, Piece.Readable, or_imp, forall_and, hmember,
    htype]
  exact hnode

/-- The assignment of a fetched node is a statement. -/
theorem plain_castAssignmentTokens {slot : Slot} {node : List Token}
    (hmember : '\n' ∉ slot.member.toList) (htype : '\n' ∉ slot.type.toList)
    (hnode : ∀ t ∈ node, t.piece.Unbroken) : (castAssignmentTokens slot node).plain.Plain := by
  simp [castAssignmentTokens, Code.Plain, Piece.Unbroken, Piece.Readable, or_imp, forall_and, hmember,
    htype]
  exact hnode

/-- The pieces of the call that finds a node are unbroken. -/
theorem unbroken_findCallTokens {mask : String} (hmask : '\n' ∉ mask.toList)
    (recursive owned : Bool) : ∀ t ∈ findCallTokens mask recursive owned, t.piece.Unbroken := by
  cases recursive <;> cases owned <;> simp [findCallTokens, Piece.Unbroken, hmask]

variable {s : Strategy}

/-- The declaration of an unbroken strategy is a statement with rows. -/
theorem plain_declaration (h : s.Unbroken) {f : List Code} (hf : s.declaration = some f) :
    bodyPlain f ∧ bodyRows f ≠ [] := by
  cases s with
  | getNode slot property =>
    cases hf
    simp only [Unbroken, texts, Slot.texts, List.forall_mem_cons] at h
    have hname : '\n' ∉ slot.pathName.toList := by simp [Slot.pathName, h.2.2.1]
    have hline := plain_companionTokens slot (by decide : '\n' ∉ "NodePath".toList) hname
    refine ⟨bodyPlain_iff.2 ?_, by simp [bodyRows, companionTokens, Code.rows]⟩
    simp [plainBody_eq_map, hline, plain_initialValueTokens]
  | loadResource slot hint =>
    cases hf
    simp only [Unbroken, texts, Slot.texts, List.forall_mem_cons] at h
    simp [bodyPlain, Code.Plain, Piece.Unbroken, Piece.Readable, bodyRows, Code.rows,
      Slot.resourceName, Slot.flagName, h]
  | findNode slot property recursive owned =>
    cases hf
    simp only [Unbroken, texts, Slot.texts, List.forall_mem_cons] at h
    have hname : '\n' ∉ slot.maskName.toList := by simp [Slot.maskName, h.2.2.1]
    have hline := plain_companionTokens slot (by decide : '\n' ∉ "string".toList) hname
    refine ⟨bodyPlain_iff.2 ?_, by simp [bodyRows, companionTokens, Code.rows]⟩
    simp [hline, plain_initialValueTokens]
  | selectorEnum className enumName fields =>
    cases hf
    simp only [Unbroken, texts, List.forall_mem_cons] at h
    have hcases : bodyPlain
        (fields.map fun f => .line ((caseTokens enumName f).map Token.piece)) := by
      rw [bodyPlain_iff, List.forall_mem_map]
      intro f hf
      simp [caseTokens, Code.Plain, Piece.Unbroken, Piece.Readable, h.2.1, h.2.2 f hf]
    simp [lookupTokens, bodyPlain, Code.Plain, Piece.Unbroken, Piece.Readable, bodyRows, Code.rows,
      h.1, h.2.1, hcases]
  | injectAncestor | callMethod => cases hf

/-- A declaration has not three rows, and it is not the hook of a constructor. -/
theorem declaration_ne_hook {f : List Code} (hf : s.declaration = some f) :
    (bodyRows f).length ≠ 3 ∧ (bodyRows f).map Text.dropReturn ≠ [hookRow] := by
  -- A declaration of one row shows a brace, which the hook does not.
  have hcompanion {slot : Slot} {type name : String} :
      Text.dropReturn (lineChars [slot.exportMark, "public ", type, " ", name,
        " \x7b get; set; \x7d"]) ≠ hookRow := by
    refine dropReturn_ne_of_mem (c := '\x7b') ?_ (by decide) (by decide)
    simp [lineChars, Piece.chars]
  cases s with
  | getNode slot property =>
    cases hf
    cases slot.fallback <;>
      simp [bodyRows, companionTokens, initialValueTokens, Code.rows, hcompanion]
  | loadResource slot hint =>
    cases hf
    simp [bodyRows, Code.rows, braced]
  | findNode slot property recursive owned =>
    cases hf
    simp [bodyRows, companionTokens, initialValueTokens, Code.rows]
  | selectorEnum className enumName fields =>
    cases hf
    simp [lookupTokens, bodyRows, Code.rows, braced]
  | injectAncestor | callMethod => cases hf

/-- The rows of a declaration are a paragraph, are not three, and are not the hook. -/
theorem declaration_rows (h : s.Unbroken) {f : List Code} (hf : s.declaration = some f) :
    IsParagraph (fragmentRows f) ∧ (fragmentRows f).length ≠ 3 ∧ fragmentRows f ≠ [hookRow] := by
  obtain ⟨hplain, hne⟩ := plain_declaration h hf
  obtain ⟨hlength, hhook⟩ := declaration_ne_hook hf
  refine ⟨isParagraph_fragmentRows hplain hne, ?_⟩
  rw [fragmentRows_eq_map (feed_not_mem_of_plain hplain), List.length_map]
  exact ⟨hlength, hhook⟩

/-- The rows of a constructor statement are a paragraph that ends in its only closing brace. -/
theorem constructorPart_rows (h : s.Unbroken) {f : List Code} (hf : s.constructorPart = some f) :
    IsParagraph (fragmentRows f) ∧
      ∃ front, fragmentRows f = front ++ [['\x7d']] ∧ ['\x7d'] ∉ front := by
  cases s with
  | loadResource slot hint =>
    obtain ⟨_, htokens, rfl⟩ := Option.map_eq_some_iff.1 hf
    obtain ⟨resource, -, rfl⟩ := Option.map_eq_some_iff.1 htokens
    simp only [Unbroken, texts, Slot.texts, List.forall_mem_cons] at h
    obtain ⟨hhint, hmember, htype, -⟩ := h
    have hload := plain_loadAssignmentTokens resource hmember htype
    have hplain : bodyPlain (plainBody [.line ["if (", hint, ")"],
        .block [loadAssignmentTokens slot resource]]) := by
      simp [bodyPlain, Code.Plain, Piece.Unbroken, Piece.Readable, hhint, hload]
    have hif : Text.dropReturn (lineChars ["if (", hint, ")"]) ≠ ['\x7d'] :=
      dropReturn_ne_of_mem (c := 'i') (by simp [lineChars, Piece.chars]) (by decide) (by decide)
    have hassign : Text.dropReturn (indentRow (lineChars [slot.member, " = GD.Load<", slot.type,
        ">(", .literal resource, ");"])) ≠ ['\x7d'] := by
      refine dropReturn_ne_of_mem (c := '=') (mem_indentRow ?_) (by decide) (by decide)
      simp [lineChars, Piece.chars]
    refine ⟨isParagraph_fragmentRows hplain (by simp [bodyRows, Code.rows]), ?_⟩
    rw [fragmentRows_eq_map (feed_not_mem_of_plain hplain)]
    refine ⟨[Text.dropReturn (lineChars ["if (", hint, ")"]), ['\x7b'],
      Text.dropReturn (indentRow (lineChars [slot.member, " = GD.Load<", slot.type, ">(",
        .literal resource, ");"]))], rfl, ?_⟩
    simp [hif.symm, hassign.symm]
  | getNode | findNode | injectAncestor | callMethod | selectorEnum => cases hf

/-- The lifecycle statement of an unbroken strategy is a statement with rows. -/
theorem plain_lifecycle (h : s.Unbroken) {f : List Code} (hf : s.lifecycle = some f) :
    bodyPlain f ∧ bodyRows f ≠ [] := by
  cases s with
  | getNode slot property =>
    cases hf
    simp only [Unbroken, texts, Slot.texts, List.forall_mem_cons] at h
    obtain ⟨hmember, htype, hstem, -⟩ := h
    have hname : '\n' ∉ slot.pathName.toList := by simp [Slot.pathName, hstem]
    have hcall : ∀ t ∈ getCallTokens slot.pathName, t.piece.Unbroken := by
      simp [getCallTokens, Piece.Unbroken, hname]
    have hassign (p : String) := plain_propertyAssignmentTokens p hmember htype hcall
    have hcheck := bodyPlain_iff.1 (plain_slotCheckTokens hmember hname)
    refine ⟨?_, by simp [bodyRows, Code.rows]⟩
    rw [plainBody_append, bodyPlain_iff]
    refine List.forall_mem_append.2 ⟨?_, hcheck⟩
    cases property <;>
      simp [Code.Plain, bodyPlain, Piece.Unbroken, Piece.Readable, hname, hmember, htype, hassign]
  | loadResource slot hint =>
    simp only [Unbroken, texts, Slot.texts, List.forall_mem_cons] at h
    obtain ⟨-, hmember, htype, hstem, -⟩ := h
    have hname : '\n' ∉ slot.resourceName.toList := by simp [Slot.resourceName, hstem]
    have hcheck := plain_slotCheckTokens hmember hname
    rw [lifecycle, lifecycleTokens] at hf
    split at hf
    · cases hf
    · rename_i hgiven
      cases hf
      cases hfallback : slot.fallback with
      | none =>
        have hrequired : slot.orNull = false := by simpa [hfallback] using hgiven
        refine ⟨hcheck, ?_⟩
        simp [slotCheckTokens, hrequired, nullCheckTokens, bodyRows, Code.rows]
      | some resource =>
        have hload := plain_loadAssignmentTokens resource hmember htype
        have hfront : ∀ c ∈ plainBody [.line ["if (!", .own slot.flagName, ")"],
            .block [loadAssignmentTokens slot resource]], c.Plain := by
          simp [Code.Plain, bodyPlain, Piece.Unbroken, Piece.Readable, Slot.flagName, hmember,
            hload]
        refine ⟨?_, by simp [bodyRows, Code.rows]⟩
        rw [plainBody_append, bodyPlain_iff]
        exact List.forall_mem_append.2 ⟨hfront, bodyPlain_iff.1 hcheck⟩
  | findNode slot property recursive owned =>
    cases hf
    simp only [Unbroken, texts, Slot.texts, List.forall_mem_cons] at h
    obtain ⟨hmember, htype, hstem, -⟩ := h
    have hname : '\n' ∉ slot.maskName.toList := by simp [Slot.maskName, hstem]
    have hcall := unbroken_findCallTokens hname recursive owned
    have hproperty (p : String) := plain_propertyAssignmentTokens p hmember htype hcall
    have hcast := plain_castAssignmentTokens hmember htype hcall
    have hcheck := bodyPlain_iff.1 (plain_slotCheckTokens hmember hname)
    refine ⟨?_, by simp [bodyRows, Code.rows]⟩
    rw [plainBody_append, bodyPlain_iff]
    refine List.forall_mem_append.2 ⟨?_, hcheck⟩
    cases property <;>
      simp [Code.Plain, bodyPlain, Piece.Unbroken, Piece.Readable, hname, hproperty, hcast]
  | injectAncestor member name type source =>
    cases hf
    simp only [Unbroken, texts, List.forall_mem_cons] at h
    cases source <;>
      simp_all [bodyPlain, Code.Plain, Piece.Unbroken, Piece.Readable, bodyRows, Code.rows, braced]
  | callMethod method =>
    cases hf
    have hm : '\n' ∉ method.toList := h method (by simp [texts])
    simp [bodyPlain, Code.Plain, Piece.Unbroken, Piece.Readable, bodyRows, Code.rows, hm]
  | selectorEnum => cases hf

/-- The rows of a lifecycle statement are a paragraph. -/
theorem lifecycle_rows (h : s.Unbroken) {f : List Code} (hf : s.lifecycle = some f) :
    IsParagraph (fragmentRows f) := by
  obtain ⟨hplain, hne⟩ := plain_lifecycle h hf
  exact isParagraph_fragmentRows hplain hne

/-- What goes after the class is two paragraphs with an empty row between them. -/
theorem outside_rows (h : s.Unbroken) {f : List Code} (hf : s.outside = some f) :
    ∃ first second, fragmentRows f = first ++ [] :: second ∧ IsParagraph first ∧
      IsParagraph second := by
  cases s with
  | selectorEnum className enumName fields =>
    cases hf
    simp only [Unbroken, texts, List.forall_mem_cons] at h
    obtain ⟨hclass, henum, hfields⟩ := h
    have hentries : bodyPlain (plainBody (fields.map fun f => .line (entryTokens f))) := by
      rw [plainBody_map_line, bodyPlain_iff, List.forall_mem_map]
      intro f hf
      simp [entryTokens, Code.Plain, Piece.Unbroken, Piece.Readable, hfields f hf]
    have henumPlain : bodyPlain (plainBody (enumTokens enumName fields)) := by
      simp only [enumTokens, plainBody, TokenCode.plain, bodyPlain, Code.Plain, hentries]
      simp [Piece.Unbroken, Piece.Readable, henum]
    have hextensions : bodyPlain (plainBody (extensionTokens className enumName)) := by
      simp [extensionTokens, bodyPlain, Code.Plain, Piece.Unbroken, Piece.Readable, henum, hclass]
    refine ⟨_, _, ?_, isParagraph_fragmentRows henumPlain (by simp [enumTokens, bodyRows, Code.rows]),
      isParagraph_fragmentRows hextensions (by simp [extensionTokens, bodyRows, Code.rows])⟩
    rw [plainBody_append]
    exact fragmentRows_append_blank henumPlain hextensions
  | getNode | loadResource | findNode | injectAncestor | callMethod => cases hf

end Strategy

end SceneWiring
