import SceneWiring.Proofs.Containment
import SceneWiring.Proofs.Independence
/-!
# Attributes that are no annotations

Declarations may carry attributes that ask for nothing. Without them names denote the same
declarations, the same classes are visited and each has the same annotations at the same sites. Main
statement: a snapshot gives the same result as the snapshot of its annotations alone.
-/

namespace SceneWiring

/-- The attributes that are annotations. -/
def annotationsOnly (attributes : List Attribute) : List Attribute :=
  attributes.filter (·.annotation?.isSome)

/-- The member with its annotations as its only attributes. -/
def Member.annotated (m : Member) : Member :=
  { m with attributes := annotationsOnly m.attributes }

/-- The method with its annotations as its only attributes. -/
def Method.annotated (m : Method) : Method :=
  { m with attributes := annotationsOnly m.attributes }

/-- The declaration with annotations as its only attributes. -/
def TypeDecl.annotated (d : TypeDecl) : TypeDecl :=
  { d with
    attributes := annotationsOnly d.attributes
    fields := d.fields.map Member.annotated
    properties := d.properties.map Member.annotated
    methods := d.methods.map Method.annotated }

/-- The snapshot with annotations as its only attributes. -/
def Snapshot.annotated (s : Snapshot) : Snapshot :=
  { s with types := s.types.map TypeDecl.annotated }

/-- The visit of the declaration with annotations as its only attributes. -/
def Visit.annotated (v : Visit) : Visit := { v with decl? := v.decl?.map TypeDecl.annotated }

namespace TypeDecl

/-- Attributes are all that is left out. -/
theorem bare_annotated (d : TypeDecl) : d.annotated.bare = d.bare := by
  simp only [bare, annotated, List.map_map]
  rfl

/-- The annotations at a site are those among its attributes. -/
theorem map_bare_annotationsAt_annotationsOnly {site site' : Site} (hsite : site'.bare = site.bare)
    (attributes : List Attribute) :
    (annotationsAt site' (annotationsOnly attributes)).map Occurrence.bare =
      (annotationsAt site attributes).map Occurrence.bare := by
  unfold annotationsAt annotationsOnly
  rw [List.filterMap_filter, List.map_filterMap, List.map_filterMap]
  refine List.filterMap_congr fun a _ => ?_
  cases a.annotation? with
  | none => rfl
  | some annotation => simp [Occurrence.bare, hsite]

/-- No annotation is left out. -/
theorem map_bare_occurrences_annotated (d : TypeDecl) :
    d.annotated.occurrences.map Occurrence.bare = d.occurrences.map Occurrence.bare := by
  have hmember (m : Member) :
      (annotationsAt (.member m.annotated) m.annotated.attributes).map Occurrence.bare =
        (annotationsAt (.member m) m.attributes).map Occurrence.bare := by
    have hsite : (Site.member m.annotated).bare = (Site.member m).bare := rfl
    exact map_bare_annotationsAt_annotationsOnly hsite m.attributes
  have hmethod (m : Method) :
      (annotationsAt (.method m.annotated) m.annotated.attributes).map Occurrence.bare =
        (annotationsAt (.method m) m.attributes).map Occurrence.bare := by
    have hsite : (Site.method m.annotated).bare = (Site.method m).bare := rfl
    exact map_bare_annotationsAt_annotationsOnly hsite m.attributes
  rw [occurrences_eq, occurrences_eq]
  simp only [annotated, List.map_append, List.flatMap_map, List.map_flatMap]
  refine congrArg₂ _ ?_ (congrArg₂ _ ?_ (congrArg₂ _ ?_ ?_))
  · exact map_bare_annotationsAt_annotationsOnly rfl d.attributes
  · exact List.flatMap_congr fun m _ => hmember m
  · exact List.flatMap_congr fun m _ => hmember m
  · exact List.flatMap_congr fun m _ => hmethod m

end TypeDecl

namespace Compilation

variable {c c' : Compilation}

/-- A name denotes the same declaration with annotations as its only attributes. -/
theorem lookup_annotated (htypes : c'.types = c.types.map TypeDecl.annotated) (name : String) :
    c'.lookup name = (c.lookup name).map TypeDecl.annotated := by
  have hagrees : c.Agrees c' := by
    refine agrees_of_perm (.of_eq ?_)
    rw [htypes, List.map_map]
    exact List.map_congr_left fun d _ => d.bare_annotated.symm
  rcases hagrees.lookup_cases name with ⟨hd, hd'⟩ | ⟨d, d', hd, hd', hbare⟩
  · rw [hd, hd', Option.map_none]
  · have hmem : d.annotated ∈ c'.types := htypes ▸ List.mem_map_of_mem (mem_of_lookup hd)
    have hname : d.annotated.metadataName = d'.metadataName :=
      TypeDecl.metadataName_eq_of_bare (d.bare_annotated.trans hbare)
    rw [hd, hd', Option.map_some, eq_of_metadataName hmem (mem_of_lookup hd') hname]

/-- The visits are of the same declarations with annotations as their only attributes. -/
theorem visits_annotated (htypes : c'.types = c.types.map TypeDecl.annotated)
    (hmentions : c'.mentions = c.mentions) : c'.visits = c.visits.map Visit.annotated := by
  have each (met : List String) (ms : List Mention) :
      c'.visitsAfter met ms = (c.visitsAfter met ms).map Visit.annotated := by
    induction ms generalizing met with
    | nil => rfl
    | cons m rest ih =>
      rw [visitsAfter, visitsAfter, lookup_annotated htypes]
      cases c.lookup m.name with
      | none => exact congrArg _ (ih met)
      | some d =>
        have hname : d.annotated.metadataName = d.metadataName := rfl
        rw [Option.map_some]
        dsimp only
        rw [hname]
        split
        · exact ih met
        · exact congrArg _ (ih (d.metadataName :: met))
  rw [visits, visits, hmentions, each]

/-- A declaration has the same position with annotations as its only attributes. -/
theorem position_annotated (htypes : c'.types = c.types.map TypeDecl.annotated) (d : TypeDecl) :
    c'.position d.annotated = c.position d := by
  rw [position, position, htypes, List.findIdx_map]
  rfl

/-- A unit shows no attributes. -/
theorem renderUnit?_annotated (htypes : c'.types = c.types.map TypeDecl.annotated)
    (config : Config) : c'.renderUnit? config = c.renderUnit? config := by
  funext u
  rw [renderUnit?, renderUnit?, htypes, List.getElem?_map, Option.map_map]
  rfl

end Compilation

namespace Context.Agrees

variable {x x' : Context}

/-- A class has the same additions and diagnostics with annotations as its only attributes. -/
theorem resolveClass_annotated (h : x.Agrees x')
    (htypes : x'.compilation.types = x.compilation.types.map TypeDecl.annotated) (d : TypeDecl) :
    x'.resolveClass d.annotated = x.resolveClass d := by
  have hstep := h.foldl_step_eq d.bare_annotated.symm
    d.map_bare_occurrences_annotated.symm .start
  rw [Compilation.position_annotated htypes] at hstep
  exact hstep.trans (x.numbered_resolveClass d).movedTo_eq_self

/-- A visit gives the same additions and diagnostics with annotations as the only attributes. -/
theorem resolveVisit_annotated (h : x.Agrees x')
    (htypes : x'.compilation.types = x.compilation.types.map TypeDecl.annotated) (v : Visit) :
    x'.resolveVisit v.annotated = x.resolveVisit v := by
  obtain ⟨mention, decl?⟩ := v
  cases decl? with
  | none => rfl
  | some d =>
    have hd := h.resolveClass_annotated htypes d
    simp only [resolveVisit, Visit.annotated, Option.map_some, hd]
    rfl

/-- A run gives the same with annotations as the only attributes. -/
theorem generate_annotated (h : x.Agrees x')
    (htypes : x'.compilation.types = x.compilation.types.map TypeDecl.annotated)
    (hmentions : x'.compilation.mentions = x.compilation.mentions) :
    x'.generate = x.generate := by
  have hvisits : x'.compilation.visits.map x'.resolveVisit =
      x.compilation.visits.map x.resolveVisit := by
    rw [Compilation.visits_annotated htypes hmentions, List.map_map]
    exact List.map_congr_left fun v _ => h.resolveVisit_annotated htypes v
  rw [generate, generate, hvisits, Compilation.renderUnit?_annotated htypes, h.config_eq]

end Context.Agrees

namespace Snapshot

/-- A snapshot gives the same result as the snapshot of its annotations alone. -/
theorem context_annotated (s : Snapshot) :
    s.annotated.context.map Context.generate = s.context.map Context.generate := by
  have hbare : s.annotated.types.map TypeDecl.bare = s.types.map TypeDecl.bare := by
    rw [annotated, List.map_map]
    exact List.map_congr_left fun d _ => d.bare_annotated
  rcases contexts_of_bare hbare rfl with
    ⟨failure, hfails, hfails'⟩ | ⟨x, x', hx, hx', hagrees, htypes, htypes', hmentions, hmentions'⟩
  · rw [hfails, hfails']
  · have hannotated : x'.compilation.types = x.compilation.types.map TypeDecl.annotated := by
      rw [htypes', htypes, annotated]
    have hsame := hagrees.generate_annotated hannotated (hmentions'.trans hmentions.symm)
    rw [hx, hx']
    exact congrArg Except.ok hsame

/-- Snapshots with the same annotations give the same result, whatever other attributes they
have. -/
theorem context_eq_of_annotated {s s' : Snapshot} (h : s'.annotated = s.annotated) :
    s'.context.map Context.generate = s.context.map Context.generate := by
  rw [← s'.context_annotated, h, s.context_annotated]

end Snapshot

end SceneWiring
