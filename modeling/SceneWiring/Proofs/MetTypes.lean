import Mathlib.Data.List.Sort
import SceneWiring.Proofs.AgreeingRuns
import SceneWiring.Proofs.Emission
import SceneWiring.Proofs.NameLookup
/-!
# A run depends on the types met

The units of a run are those of the types that are met in the source, are not nested in another type
and have additions, in the order of the list of types, each once and with just its own additions. The
errors of a run are those of the types met, one type after the other. So two lists of mentions that
denote the same types give the same units, and the same errors in some order.
-/

namespace SceneWiring

/-- Where a function gives nothing for all elements of a list without repeats but one, it gives for
the list what it gives for that one. -/
theorem flatMap_eq_of_nodup {α β : Type} {f : α → List β} {xs : List α} (hnodup : xs.Nodup) {x : α}
    (hx : x ∈ xs) (h : ∀ y ∈ xs, y ≠ x → f y = []) : xs.flatMap f = f x := by
  obtain ⟨before, after, rfl⟩ := List.append_of_mem hx
  obtain ⟨hnew, -⟩ := List.nodup_cons.1 (List.nodup_middle.1 hnodup)
  rw [List.mem_append, not_or] at hnew
  have hbefore : before.flatMap f = [] := by
    refine List.flatMap_eq_nil_iff.2 fun y hy => h y (List.mem_append_left _ hy) ?_
    rintro rfl
    exact hnew.1 hy
  have hafter : after.flatMap f = [] := by
    refine List.flatMap_eq_nil_iff.2 fun y hy => ?_
    refine h y (List.mem_append_right _ (List.mem_cons_of_mem _ hy)) ?_
    rintro rfl
    exact hnew.2 hy
  rw [List.flatMap_append, List.flatMap_cons, hbefore, hafter, List.nil_append, List.append_nil]

namespace Compilation

/-- The types that are looked at, in the order in which they are met. -/
def metTypes (c : Compilation) : List TypeDecl := c.visits.filterMap (·.decl?)

/-- The types that are looked at are those met in the source. -/
theorem mem_metTypes {c : Compilation} {d : TypeDecl} : d ∈ c.metTypes ↔ c.Met d := by
  rw [metTypes, List.mem_filterMap, exists_mem_visits_iff]

/-- No type is looked at twice. -/
theorem nodup_metTypes (c : Compilation) : c.metTypes.Nodup := by
  have each (met : List String) (ms : List Mention) :
      ((c.visitsAfter met ms).filterMap (·.decl?)).Nodup := by
    induction ms generalizing met with
    | nil => exact List.nodup_nil
    | cons m rest ih =>
      rw [visitsAfter]
      split
      · rw [List.filterMap_cons_none rfl]
        exact ih met
      · rename_i d hlookup
        split
        · exact ih met
        · rw [List.filterMap_cons]
          refine List.nodup_cons.2 ⟨fun hagain => ?_, ih _⟩
          obtain ⟨v, hv, hdecl⟩ := List.mem_filterMap.1 hagain
          exact ((exists_mem_visitsAfter_iff _ _).1 ⟨v, hv, hdecl⟩).1 List.mem_cons_self
  exact each [] c.mentions

instance (c : Compilation) (d : TypeDecl) : Decidable (c.Met d) :=
  inferInstanceAs (Decidable (∃ m ∈ c.mentions, c.lookup m.name = some d))

end Compilation

namespace Context

variable {x : Context}

instance (x : Context) (d : TypeDecl) : Decidable (x.Emits d) :=
  decidable_of_iff
    (x.compilation.Met d ∧ d.nestedIn? = none ∧ (x.resolveClass d).additions ≠ [])
    ⟨fun h => ⟨h.1, h.2.1, h.2.2⟩, fun h => ⟨h.met, h.outermost, h.additions_ne_nil⟩⟩

/-- The additions that a type met in the source brings into the run. -/
def additionsOf (x : Context) (d : TypeDecl) : List Addition :=
  if d.nestedIn? = none then (x.resolveClass d).additions else []

/-- The errors that a type met in the source brings into the run. -/
def errorsOf (x : Context) (d : TypeDecl) : List Diagnostic :=
  (x.resolveClass d).diagnostics.filter Diagnostic.isError

/-- What visits bring into a run is what their types bring. -/
theorem flatMap_visits {β : Type} {f : Visit → List β} {g : TypeDecl → List β}
    (hnone : ∀ v, v.decl? = none → f v = []) (hsome : ∀ v d, v.decl? = some d → f v = g d)
    (vs : List Visit) : vs.flatMap f = (vs.filterMap (·.decl?)).flatMap g := by
  induction vs with
  | nil => rfl
  | cons v rest ih =>
    rw [List.flatMap_cons, ih]
    cases hdecl : v.decl? with
    | none => rw [hnone v hdecl, List.filterMap_cons_none hdecl, List.nil_append]
    | some d => rw [hsome v d hdecl, List.filterMap_cons_some hdecl, List.flatMap_cons]

/-- The additions of a run are those of the types met. -/
theorem additions_eq_flatMap (x : Context) :
    x.additions = x.compilation.metTypes.flatMap x.additionsOf := by
  rw [additions, List.flatMap_map]
  refine flatMap_visits (fun v hdecl => ?_) (fun v d hdecl => ?_) _
  · rw [resolveVisit, hdecl]
    rfl
  · rw [resolveVisit, hdecl, additionsOf]
    dsimp only
    cases d.nestedIn? with
    | none => rw [if_pos rfl]
    | some enclosing =>
      rw [if_neg (Option.some_ne_none enclosing)]
      dsimp only
      split
      · rename_i hempty
        exact List.isEmpty_iff.1 hempty
      · rfl

/-- The diagnostics of a run are those of the visits, one after the other. -/
theorem diagnostics_eq_flatMap (x : Context) :
    x.generate.diagnostics = x.compilation.visits.flatMap fun v => (x.resolveVisit v).diagnostics :=
  List.flatMap_map _ _ _

/-- The errors of a run are those of the types met. A type that is not declared and a nested class
are warned about. -/
theorem errors_eq_flatMap (x : Context) :
    x.generate.diagnostics.filter Diagnostic.isError =
      x.compilation.metTypes.flatMap x.errorsOf := by
  rw [diagnostics_eq_flatMap, List.filter_flatMap]
  refine flatMap_visits (fun v hdecl => ?_) (fun v d hdecl => ?_) _
  · rw [resolveVisit, hdecl]
    rfl
  · rw [resolveVisit, hdecl, errorsOf]
    dsimp only
    split
    · split
      · rfl
      · rw [Resolution.diagnostics_ofDiagnostics, List.filter_append]
        exact List.append_nil _
    · rfl

/-- The additions of a run for the position of a type are those that the type brings. -/
theorem filter_owner_additions {d : TypeDecl} (hd : x.compilation.Met d) :
    x.additions.filter (·.owner == x.compilation.position d) = x.additionsOf d := by
  have howner {e : TypeDecl} {a : Addition} (ha : a ∈ x.additionsOf e) :
      a.owner = x.compilation.position e := by
    unfold additionsOf at ha
    split at ha
    · exact owner_of_mem_resolveClass ha
    · cases ha
  rw [additions_eq_flatMap, List.filter_flatMap, flatMap_eq_of_nodup
    x.compilation.nodup_metTypes (Compilation.mem_metTypes.2 hd) fun e he hne => ?_]
  · exact List.filter_eq_self.2 fun a ha => beq_iff_eq.2 (howner ha)
  · refine List.filter_eq_nil_iff.2 fun a ha hbeq => hne ?_
    have hposition := (howner ha).symm.trans (beq_iff_eq.1 hbeq)
    have hget := Compilation.getElem?_position (Compilation.mem_metTypes.1 he).mem
    rw [hposition, Compilation.getElem?_position hd.mem] at hget
    exact (Option.some.inj hget).symm

/-- The additions of a class are in the order of discovery. -/
theorem sortBy_seqLe_resolveClass (x : Context) (d : TypeDecl) :
    sortBy Addition.seqLe (x.resolveClass d).additions = (x.resolveClass d).additions := by
  have hnumbered := x.numbered_resolveClass d
  refine sortBy_eq_self (List.pairwise_iff_getElem.2 fun i j hi hj hlt => ?_)
  obtain ⟨hseq, -⟩ := hnumbered i _ (List.getElem?_eq_getElem hi)
  obtain ⟨hseq', -⟩ := hnumbered j _ (List.getElem?_eq_getElem hj)
  rw [Addition.seqLe, hseq, hseq', decide_eq_true_eq]
  omega

/-- The generated unit of a type with all its additions. -/
def unitOf (x : Context) (d : TypeDecl) : GeneratedUnit :=
  ClassUnit.render x.config d ⟨x.compilation.position d, (x.resolveClass d).additions⟩

/-- The classes that additions are for are the positions of the types that get units, in the order
of the list of types. -/
theorem owners_eq_map_position (x : Context) :
    owners x.additions =
      (x.compilation.types.filter fun d => x.Emits d).map x.compilation.position := by
  have hpositions : x.compilation.types.map x.compilation.position =
      List.range x.compilation.types.length := by
    refine List.ext_getElem (by simp) fun i hi _ => ?_
    rw [List.getElem_map, List.getElem_range]
    exact x.compilation.position_getElem (by simpa using hi)
  have hascending : ((x.compilation.types.filter fun d => x.Emits d).map
      x.compilation.position).Pairwise (· < ·) := by
    have hsub := (List.filter_sublist (p := fun d => x.Emits d)
      (l := x.compilation.types)).map x.compilation.position
    rw [hpositions] at hsub
    exact List.pairwise_lt_range.sublist hsub
  refine List.Pairwise.eq_of_mem_iff (owners_ascending _) hascending fun n => ?_
  rw [mem_owners_additions, List.mem_map]
  refine exists_congr fun d => and_congr_left fun _ => ?_
  rw [List.mem_filter, decide_eq_true_eq]
  exact ⟨fun h => ⟨h.mem, h⟩, fun h => h.2⟩

/-- The types that get units are listed in the order of the list of types. -/
theorem emitted_eq_filter (x : Context) :
    x.emitted = x.compilation.types.filter fun d => x.Emits d := by
  rw [emitted, owners_eq_map_position, List.filterMap_map]
  refine (List.filterMap_congr fun d hd => ?_).trans List.filterMap_some
  exact Compilation.getElem?_position (List.mem_filter.1 hd).1

/-- The groups of additions are those of the types that get units, in the order of the list of
types, each with the additions of its type. -/
theorem group_additions (x : Context) :
    ClassUnit.group x.additions = (x.compilation.types.filter fun d => x.Emits d).map fun d =>
      ⟨x.compilation.position d, (x.resolveClass d).additions⟩ := by
  rw [ClassUnit.group, owners_eq_map_position, List.map_map]
  refine List.map_congr_left fun d hd => ?_
  rw [List.mem_filter, decide_eq_true_eq] at hd
  have hadditions := filter_owner_additions hd.2.met
  rw [additionsOf, if_pos hd.2.outermost] at hadditions
  rw [Function.comp_apply, hadditions, sortBy_seqLe_resolveClass]

/-- The units of a run are those of the types that get one, in the order of the list of types. -/
theorem units_eq_map_unitOf (x : Context) :
    x.generate.units = (x.compilation.types.filter fun d => x.Emits d).map x.unitOf := by
  have hunits : x.generate.units =
      (ClassUnit.group x.additions).filterMap (x.compilation.renderUnit? x.config) := rfl
  rw [hunits, group_additions, List.filterMap_map, ← List.filterMap_eq_map]
  refine List.filterMap_congr fun d hd => ?_
  have hmem := (List.mem_filter.1 hd).1
  rw [Function.comp_apply, Compilation.renderUnit?, Compilation.getElem?_position hmem]
  rfl

end Context

namespace ClassUnit

/-- The text of a unit does not show the position of its class. -/
theorem render_movedTo (config : Config) (d : TypeDecl) (owner owner' position : Nat)
    (additions : List Addition) :
    render config d ⟨owner', additions.map (·.movedTo position)⟩ =
      render config d ⟨owner, additions⟩ := by
  have hordered : ordered ⟨owner', additions.map (·.movedTo position)⟩ =
      (ordered ⟨owner, additions⟩).map (·.movedTo position) :=
    sortBy_map (fun _ _ => rfl) additions
  have hsections : sections config d ⟨owner', additions.map (·.movedTo position)⟩ =
      sections config d ⟨owner, additions⟩ := by
    unfold sections
    rw [hordered]
    simp only [List.filterMap_map]
    rfl
  have houtside : (additions.map (·.movedTo position)).filterMap (·.strategy.outside) =
      additions.filterMap (·.strategy.outside) := List.filterMap_map
  unfold render code classCode
  rw [hsections]
  dsimp only
  rw [houtside]

end ClassUnit

namespace Context.Agrees

variable {x x' : Context}

/-- A type has the same unit in programs that agree. -/
theorem unitOf_eq (h : x.Agrees x') (d : TypeDecl) : x'.unitOf d = x.unitOf d := by
  rw [unitOf, unitOf, h.resolveClass_eq, ← h.config_eq]
  exact ClassUnit.render_movedTo _ _ _ _ _ _

/-- A type gets a unit in both of two programs that agree or in none, when it is met in both or in
none. -/
theorem emits_iff (h : x.Agrees x') {d : TypeDecl}
    (hmet : x'.compilation.Met d ↔ x.compilation.Met d) : x'.Emits d ↔ x.Emits d := by
  have hadditions : (x'.resolveClass d).additions ≠ [] ↔ (x.resolveClass d).additions ≠ [] := by
    rw [h.resolveClass_eq]
    exact not_congr List.map_eq_nil_iff
  constructor
  · intro hd
    exact ⟨hmet.1 hd.met, hd.outermost, hadditions.1 hd.additions_ne_nil⟩
  · intro hd
    exact ⟨hmet.2 hd.met, hd.outermost, hadditions.2 hd.additions_ne_nil⟩

/-- The units of a run over a program that agrees are those of the same types. -/
theorem units_eq (h : x.Agrees x') (hmet : ∀ d, x'.compilation.Met d ↔ x.compilation.Met d) :
    x'.generate.units = (x'.compilation.types.filter fun d => x.Emits d).map x.unitOf := by
  have hunits : x'.unitOf = x.unitOf := funext h.unitOf_eq
  have hemits : (fun d => decide (x'.Emits d)) = fun d => decide (x.Emits d) :=
    funext fun d => decide_eq_decide.2 (h.emits_iff (hmet d))
  rw [x'.units_eq_map_unitOf, hunits, hemits]

/-- A type met in the source brings the same errors into a run over a program that agrees. -/
theorem errorsOf_eq (h : x.Agrees x') : x'.errorsOf = x.errorsOf := by
  funext d
  rw [errorsOf, errorsOf, h.resolveClass_eq]
  rfl

end Context.Agrees

/-- The units are the same, and the errors are the same in some order. -/
def Generation.SameUnits (g g' : Generation) : Prop :=
  g'.units = g.units ∧
    (g'.diagnostics.filter Diagnostic.isError).Perm (g.diagnostics.filter Diagnostic.isError)

/-- Mentions that denote the same types, in any order and spelling, with any repeats and with any
names that denote none, give the same run: the same host type is missing, or the units are the same
and the errors are the same in some order. The units are those of the types that are met, not nested
and not without additions, one for each, in the order of the list of types. -/
theorem generate_of_same_types_met {types : List TypeDecl} {first second : List Mention}
    {c : Compilation} (config : Config) (hc : Compilation.ofTypes types first = .ok c)
    (hsame : ∀ d, (∃ m ∈ first, c.lookup m.name = some d) ↔
      ∃ m ∈ second, c.lookup m.name = some d) :
    ∃ c', Compilation.ofTypes types second = .ok c' ∧
      Generation.Related Generation.SameUnits (Generation.ofCompilation c config)
        (Generation.ofCompilation c' config) ∧
      ∀ x, Context.ofCompilation c config = .ok x →
        x.generate.units = (types.filter fun d => x.Emits d).map x.unitOf := by
  obtain ⟨rfl, rfl⟩ := Compilation.ofTypes_eq_ok hc
  obtain ⟨c', hc'⟩ := Compilation.exists_ofTypes c.distinct second
  obtain ⟨htypes, rfl⟩ := Compilation.ofTypes_eq_ok hc'
  have hperm : c.types.Perm c'.types := by rw [htypes]
  have hmet (d : TypeDecl) : c'.Met d ↔ c.Met d := by
    have hlookup := funext (Compilation.lookup_eq_of_perm hperm)
    rw [Compilation.Met, Compilation.Met, hsame, ← hlookup]
  refine ⟨c', hc', ?_, fun x hx => ?_⟩
  · refine (Compilation.agrees_of_perm (hperm.map TypeDecl.bare)).related config ?_
    rintro x x' rfl rfl hagrees
    have hmetTypes : x'.compilation.metTypes.Perm x.compilation.metTypes := by
      refine (List.perm_ext_iff_of_nodup (Compilation.nodup_metTypes _)
        (Compilation.nodup_metTypes _)).2 fun d => ?_
      rw [Compilation.mem_metTypes, Compilation.mem_metTypes, hmet]
    constructor
    · rw [hagrees.units_eq hmet, x.units_eq_map_unitOf, htypes]
    · rw [x.errors_eq_flatMap, x'.errors_eq_flatMap, hagrees.errorsOf_eq]
      exact hmetTypes.flatMap_right _
  · obtain ⟨rfl, -⟩ := Context.ofCompilation_eq_ok hx
    exact x.units_eq_map_unitOf

/-- The types of a small game: a node and a resource to derive from, a class with one member that is
a node and one that is not, a class with a method to call, and such a class inside another. -/
def gameTypes : List TypeDecl :=
  [{ name := "Node", namespaceName? := some "Godot" },
   { name := "Resource", namespaceName? := some "Godot" },
   { name := "Hero", namespaceName? := some "Game", base? := some ⟨"Godot.Node", false⟩,
     fields :=
      [{ name := "_sword", type := ⟨"Godot.Node", false⟩, attributes := [{ name := "OnReadyGet" }] },
       { name := "_score", type := ⟨"int", false⟩, attributes := [{ name := "OnReadyGet" }] }] },
   { name := "Menu", namespaceName? := some "Game",
     methods := [{ name := "Open", attributes := [{ name := "OnReady" }] }] },
   { name := "Entry", namespaceName? := some "Game", nestedIn? := some "Menu",
     methods := [{ name := "Draw", attributes := [{ name := "OnReady" }] }] }]

/-- The types of the game have metadata names of their own. -/
theorem nodup_metadataName_gameTypes : (gameTypes.map TypeDecl.metadataName).Nodup := by
  decide +kernel

/-- Mentions of the classes of the game. -/
def gameMentions : List Mention :=
  [{ name := "Game.Hero" }, { name := "Game.Menu" }, { name := "Game.Menu.Entry" }]

/-- Mentions of the same classes in another order and spelling, with a repeat and an unknown name. -/
def respelledMentions : List Mention :=
  [{ name := "global::Game.Menu.Entry" }, { name := "Game.Ghost" }, { name := "Game.Menu" },
   { name := "global::Game.Hero" }, { name := "Game.Menu" }]

/-- The respelled mentions of the game give the same run. -/
theorem generate_of_respelled_mentions :
    ∃ c, Compilation.ofTypes gameTypes gameMentions = .ok c ∧
      (∀ d, (∃ m ∈ gameMentions, c.lookup m.name = some d) ↔
        ∃ m ∈ respelledMentions, c.lookup m.name = some d) ∧
      ∃ c', Compilation.ofTypes gameTypes respelledMentions = .ok c' ∧
        Generation.Related Generation.SameUnits (Generation.ofCompilation c {})
          (Generation.ofCompilation c' {}) ∧
        ∀ x, Context.ofCompilation c {} = .ok x →
          x.generate.units = (gameTypes.filter fun d => x.Emits d).map x.unitOf := by
  obtain ⟨c, hc⟩ := Compilation.exists_ofTypes nodup_metadataName_gameTypes gameMentions
  have hlookup (name : String) : c.lookup name = (scan? gameTypes name).bind (gameTypes[·]?) := by
    rw [c.lookup_eq_scan, (Compilation.ofTypes_eq_ok hc).1]
  have hdenoted : gameMentions.map (fun m => c.lookup m.name) =
      [gameTypes[2]?, gameTypes[3]?, gameTypes[4]?] := by
    simp only [hlookup]
    decide +kernel
  have hdenoted' : respelledMentions.map (fun m => c.lookup m.name) =
      [gameTypes[4]?, none, gameTypes[3]?, gameTypes[2]?, gameTypes[3]?] := by
    simp only [hlookup]
    decide +kernel
  have hsame (d : TypeDecl) : (∃ m ∈ gameMentions, c.lookup m.name = some d) ↔
      ∃ m ∈ respelledMentions, c.lookup m.name = some d := by
    rw [← List.mem_map, ← List.mem_map, hdenoted, hdenoted']
    simp only [List.mem_cons, List.not_mem_nil, reduceCtorEq, or_false, false_or]
    tauto
  exact ⟨c, hc, hsame, generate_of_same_types_met {} hc hsame⟩

end SceneWiring
