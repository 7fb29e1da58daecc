import SceneWiring.CommandLine.Run
import SceneWiring.Proofs.AgreeingRuns
import SceneWiring.Proofs.NameLookup
/-!
# Runs on a file tree

What the program does to a file tree. Reading leaves the tree as it is, making folders leaves the
files as they are, and a write gives one file its content. Where a path leads is settled by the path
and the working folder alone, as long as it leads anywhere. What is generated is generated for the
snapshot and under the settings that the files hold.
-/

namespace SceneWiring.CommandLine

/-- A result with another wording for its error is the result. -/
theorem eq_ok_of_mapError_eq_ok {ε ε' α : Type} {wrap : ε → ε'} {x : Except ε α} {a : α}
    (h : x.mapError wrap = .ok a) : x = .ok a := by
  cases x with
  | ok b => exact congrArg Except.ok (Except.ok.inj h)
  | error e => cases h

namespace FileTree

/-- The place that a part leads to from another place. -/
def walk (place : Place) (part : String) : Place :=
  if part = "." then place else if part = ".." then place.dropLast else place ++ [part]

/-- The place that a path leads to from a working folder. -/
def placeOf (home : Place) (path : String) : Place :=
  let p := Path.ofText path
  p.parts.foldl walk (if p.absolute then [] else home)

/-- A step that succeeds leads where its part leads. -/
theorem step_eq_ok {t : FileTree} {place place' : Place} {part : String}
    (h : t.step place part = .ok place') : place' = walk place part := by
  unfold step at h
  unfold walk
  split at h
  · cases h
  · split at h
    · cases h
    · split at h
      · rename_i hdot
        rw [if_pos hdot]
        exact (Except.ok.inj h).symm
      · rename_i hdot
        rw [if_neg hdot]
        split at h
        · rename_i hdots
          rw [if_pos hdots]
          exact (Except.ok.inj h).symm
        · rename_i hdots
          rw [if_neg hdots]
          split at h
          · cases h
          · exact (Except.ok.inj h).symm

/-- Steps that succeed lead where their parts lead. -/
theorem foldlM_step_eq_ok {t : FileTree} {parts : List String} {place place' : Place}
    (h : parts.foldlM t.step place = .ok place') : place' = parts.foldl walk place := by
  induction parts generalizing place with
  | nil => exact (Except.ok.inj h).symm
  | cons part rest ih =>
    obtain ⟨next, hstep, hrest⟩ := exists_of_bind_eq_ok h
    rw [List.foldl_cons, ← step_eq_ok hstep]
    exact ih hrest

/-- A path that is accepted is taken apart. -/
theorem accept_eq_ok {path : String} {p : Path} (h : accept path = .ok p) :
    p = Path.ofText path := by
  unfold accept at h
  split at h
  · cases h
  · split at h
    · cases h
    · split at h
      · cases h
      · exact (Except.ok.inj h).symm

/-- A path that leads anywhere leads to its place. -/
theorem locate_eq_ok {t : FileTree} {path : String} {place : Place}
    (h : t.locate path = .ok place) : place = placeOf t.home path := by
  obtain ⟨p, haccept, h⟩ := exists_of_bind_eq_ok h
  obtain ⟨found, hfold, h⟩ := exists_of_bind_eq_ok h
  have hfound : found = place := by
    split at h
    · cases h
    · exact Except.ok.inj h
  subst hfound
  rw [foldlM_step_eq_ok hfold, accept_eq_ok haccept]
  rfl

/-- A file has the content that was given to it last. -/
theorem lookup_setContent (place other : Place) (content : String)
    (files : List (Place × String)) :
    (setContent place content files).lookup other =
      if other = place then some content else files.lookup other := by
  have hbeq (p : Place) (hne : other ≠ p) : (other == p) = false := beq_eq_false_iff_ne.2 hne
  induction files with
  | nil =>
    rw [setContent, List.lookup_cons, List.lookup_nil]
    by_cases hother : other = place
    · simp [hother]
    · simp [hbeq place hother, hother]
  | cons file rest ih =>
    obtain ⟨p, c⟩ := file
    rw [setContent]
    by_cases hp : p = place
    · rw [if_pos hp, List.lookup_cons, List.lookup_cons, hp]
      by_cases hother : other = place
      · simp [hother]
      · simp [hbeq place hother, hother]
    · rw [if_neg hp, List.lookup_cons, List.lookup_cons, ih]
      by_cases hother : other = p
      · simp [hother, hp]
      · simp [hbeq p hother]

/-- A write that succeeds gives the file at the place of the path its content and changes nothing
else. -/
theorem write_eq_ok {t t' : FileTree} {path content : String} (h : t.write path content = .ok t') :
    t'.home = t.home ∧ ∀ place, t'.content? place =
      if place = placeOf t.home path then some content else t.content? place := by
  obtain ⟨found, hlocate, h⟩ := exists_of_bind_eq_ok h
  split at h
  · cases h
  · cases h
    refine ⟨rfl, fun place => ?_⟩
    rw [content?, lookup_setContent, locate_eq_ok hlocate]
    rfl

/-- The files of the two trees are the same, and so is the working folder. -/
structure SameFiles (t t' : FileTree) : Prop where
  /-- The working folder is the same. -/
  home_eq : t'.home = t.home
  /-- The files are the same. -/
  files_eq : t'.files = t.files

/-- The action leaves all files as they are. -/
def Keeps {α : Type} (action : StateM FileTree α) : Prop :=
  ∀ t : FileTree, t.SameFiles (action.run t).2

/-- Doing nothing leaves all files as they are. -/
theorem keeps_pure {α : Type} (a : α) : Keeps (pure a) := fun _ => ⟨rfl, rfl⟩

/-- Two actions in a row leave all files as they are when each does. -/
theorem Keeps.bind {α β : Type} {action : StateM FileTree α} {next : α → StateM FileTree β}
    (h : Keeps action) (hnext : ∀ a, Keeps (next a)) : Keeps (action >>= next) := by
  intro t
  have hfirst := h t
  have hsecond := hnext (action.run t).1 (action.run t).2
  exact ⟨hsecond.home_eq.trans hfirst.home_eq, hsecond.files_eq.trans hfirst.files_eq⟩

/-- A folder that is made leaves all files as they are. -/
theorem sameFiles_of_addFolder {t t' : FileTree} {path : String} (h : t.addFolder path = .ok t') :
    t.SameFiles t' := by
  obtain ⟨p, -, h⟩ := exists_of_bind_eq_ok h
  split at h
  · cases h
  · obtain ⟨around, -, h⟩ := exists_of_bind_eq_ok h
    obtain ⟨place, -, h⟩ := exists_of_bind_eq_ok h
    split at h
    · cases h
    · split at h
      · cases h
      · cases h
        exact ⟨rfl, rfl⟩

/-- Making a folder leaves all files as they are. -/
theorem keeps_makeFolder (path : String) :
    Keeps (FileAccess.makeFolder path : StateM FileTree (Except FileError Unit)) := by
  intro t
  change t.SameFiles (update (·.addFolder path) t).2
  unfold update
  split
  · rename_i changed hchanged
    exact sameFiles_of_addFolder hchanged
  · exact ⟨rfl, rfl⟩

/-- Asking for a folder leaves all files as they are. -/
theorem keeps_isFolder (path : String) :
    Keeps (FileAccess.isFolder path : StateM FileTree Bool) := fun _ => ⟨rfl, rfl⟩

/-- Making folders leaves all files as they are. -/
theorem keeps_makeFolders (fuel : Nat) (path : String) :
    Keeps (makeFolders fuel path : StateM FileTree (Except FileError Unit)) := by
  -- A folder that is there already is all that is needed.
  have hpresent (path : String) (e : FileError) :
      Keeps (do if ← FileAccess.isFolder path then return .ok () else return .error e :
        StateM FileTree (Except FileError Unit)) := by
    refine (keeps_isFolder path).bind fun present => ?_
    split
    · exact keeps_pure _
    · exact keeps_pure _
  induction fuel generalizing path with
  | zero => exact keeps_pure _
  | succ fuel ih =>
    unfold makeFolders
    split
    · exact keeps_pure _
    · refine (keeps_makeFolder path).bind fun made => ?_
      split
      · exact keeps_pure _
      · split
        · exact keeps_pure _
        · refine (ih _).bind fun above => ?_
          split
          · exact keeps_pure _
          · refine (keeps_makeFolder path).bind fun again => ?_
            split
            · exact keeps_pure _
            · exact hpresent path _
      · exact hpresent path _

/-- The file at the path holds the snapshot. -/
def HoldsSnapshot (t : FileTree) (path : String) (s : Snapshot) : Prop :=
  ∃ text, t.read path = .ok text ∧ Snapshot.ofDocument (Json.parse text) = .ok s

/-- The settings are those given, with the file at the path laid over them if there is a path. -/
def Settles (t : FileTree) (given : Config) : Option String → Config → Prop
  | none, settings => settings = given
  | some path, settings =>
    ∃ text, t.read path = .ok text ∧ given.overlay (Json.parse text) = .ok settings

/-- The files hold all that a run depends on: the snapshot of the program, and the settings. -/
def Feeds (t : FileTree) (snapshot : String) (config? : Option String) (x : Context) : Prop :=
  ∃ s, t.HoldsSnapshot snapshot s ∧ x.compilation.types = s.types ∧
    x.compilation.mentions = s.mentions ∧ t.Settles s.config config? x.config

end FileTree

section Run

variable {α β ε : Type} {t t' : FileTree}

/-- Both of two parts of a run in a row are finished when the run is. -/
theorem run_bind_eq_ok {part : ExceptT RunError (StateM FileTree) α}
    {next : α → ExceptT RunError (StateM FileTree) β} {b : β}
    (h : (part >>= next).run.run t = (.ok b, t')) :
    ∃ a s, part.run.run t = (.ok a, s) ∧ (next a).run.run s = (.ok b, t') := by
  rw [ExceptT.run_bind, StateT.run_bind] at h
  cases hpart : part.run.run t with
  | mk r s =>
    rw [hpart] at h
    cases r with
    | ok a => exact ⟨a, s, rfl, h⟩
    | error e => cases h

/-- An action that does not stop the run has a result. -/
theorem run_attempt_eq_ok {wrap : ε → RunError} {action : StateM FileTree (Except ε α)} {a : α}
    (h : (attempt wrap action).run.run t = (.ok a, t')) : action.run t = (.ok a, t') := by
  cases haction : action.run t with
  | mk r s =>
    have hrun : (attempt wrap action).run.run t = (r.mapError wrap, s) := by
      change ((action.run t).1.mapError wrap, (action.run t).2) = _
      rw [haction]
    rw [hrun] at h
    obtain ⟨hr, rfl⟩ := Prod.mk.inj h
    rw [eq_ok_of_mapError_eq_ok hr]

/-- A result that does not stop the run is there, and no file is touched. -/
theorem run_demand_eq_ok {wrap : ε → RunError} {result : Except ε α} {a : α}
    (h : (demand wrap result : ExceptT RunError (StateM FileTree) α).run.run t = (.ok a, t')) :
    result = .ok a ∧ t' = t := by
  have hrun : (demand wrap result : ExceptT RunError (StateM FileTree) α).run.run t =
      (result.mapError wrap, t) := rfl
  rw [hrun] at h
  obtain ⟨hresult, ht⟩ := Prod.mk.inj h
  exact ⟨eq_ok_of_mapError_eq_ok hresult, ht.symm⟩

/-- A text that is read without stopping the run is that of a file, and no file is touched. -/
theorem run_readText_eq_ok {wrap : FileError → RunError} {path text : String}
    (h : (attempt wrap (FileAccess.readText path) :
      ExceptT RunError (StateM FileTree) String).run.run t = (.ok text, t')) :
    t.read path = .ok text ∧ t' = t := by
  have hread := run_attempt_eq_ok h
  obtain ⟨htext, ht⟩ := Prod.mk.inj hread
  exact ⟨htext, ht.symm⟩

/-- What is loaded is generated for what the files hold, and no file is touched. -/
theorem run_load_eq_ok {snapshot : String} {config? : Option String} {g : Generation}
    (h : (load snapshot config? : ExceptT RunError (StateM FileTree) Generation).run.run t =
      (.ok g, t')) : (∃ x, t.Feeds snapshot config? x ∧ g = x.generate) ∧ t' = t := by
  have hgenerate {c : Compilation} {config : Config} {s : FileTree}
      (h : (demand .generating (Generation.ofCompilation c config) :
        ExceptT RunError (StateM FileTree) Generation).run.run s = (.ok g, t')) :
      (∃ x : Context, x.compilation = c ∧ x.config = config ∧ g = x.generate) ∧ t' = s := by
    obtain ⟨hresult, ht⟩ := run_demand_eq_ok h
    refine ⟨?_, ht⟩
    unfold Generation.ofCompilation at hresult
    cases hcontext : Context.ofCompilation c config with
    | error failure =>
      rw [hcontext] at hresult
      cases hresult
    | ok x =>
      rw [hcontext] at hresult
      obtain ⟨hc, hconfig⟩ := Context.ofCompilation_eq_ok hcontext
      exact ⟨x, hc, hconfig, (Except.ok.inj hresult).symm⟩
  obtain ⟨text, s₁, hread, hparse⟩ := run_bind_eq_ok h
  obtain ⟨htext, rfl⟩ := run_readText_eq_ok hread
  obtain ⟨⟨c, config⟩, s₂, hdemand, hrest⟩ := run_bind_eq_ok hparse
  obtain ⟨hcompiled, rfl⟩ := run_demand_eq_ok hdemand
  obtain ⟨s, hs, htypes, hmentions, rfl⟩ := Compilation.ofDocument_eq_ok hcompiled
  clear h hparse
  cases config? with
  | none =>
    obtain ⟨⟨x, rfl, hconfig, hg⟩, ht⟩ := hgenerate hrest
    exact ⟨⟨x, ⟨s, ⟨text, htext, hs⟩, htypes, hmentions, hconfig⟩, hg⟩, ht⟩
  | some path =>
    obtain ⟨text', s₃, hread', hoverlay⟩ := run_bind_eq_ok hrest
    obtain ⟨htext', rfl⟩ := run_readText_eq_ok hread'
    obtain ⟨config', s₄, hconfig, hlast⟩ := run_bind_eq_ok hoverlay
    obtain ⟨hlaid, rfl⟩ := run_demand_eq_ok hconfig
    obtain ⟨⟨x, rfl, rfl, hg⟩, ht⟩ := hgenerate hlast
    have hlaid' := eq_ok_of_mapError_eq_ok hlaid
    exact ⟨⟨x, ⟨s, ⟨text, htext, hs⟩, htypes, hmentions, text', htext', hlaid'⟩, hg⟩, ht⟩

end Run

end SceneWiring.CommandLine
