import SceneWiring.Proofs.FileRuns
/-!
# Reports of commands

Both commands load the same files before they do anything else. So what keeps one of them from
generating keeps the other from it too; both then end with status 2 and leave the file tree as it
was. Otherwise both show the same diagnostics, and their status is 1 exactly when one of these is an
error. A check never changes the file tree.
-/

namespace SceneWiring.CommandLine

/-- What a command does on a file tree: its report, and the tree that it leaves. -/
def execute (command : Command) (t : FileTree) : Report × FileTree :=
  (run command : StateM FileTree Report).run t

namespace FileTree

/-- The files keep a run from generating. -/
inductive Obstructs (t : FileTree) (snapshot : String) (config? : Option String) : Prop
  /-- The snapshot cannot be read. -/
  | unreadSnapshot {e : FileError} (h : t.read snapshot = .error e)
  /-- The text of the snapshot is none. -/
  | malformedSnapshot {text : String} {fault : Json.Fault} (hread : t.read snapshot = .ok text)
      (h : Snapshot.ofDocument (Json.parse text) = .error fault)
  /-- Two declared types have one metadata name. -/
  | repeatedType {s : Snapshot} (hs : t.HoldsSnapshot snapshot s)
      (h : ¬(s.types.map TypeDecl.metadataName).Nodup)
  /-- The settings cannot be read. -/
  | unreadConfig {path : String} {e : FileError} (hpath : config? = some path)
      (h : t.read path = .error e)
  /-- The text of the settings does not fit those of the snapshot. -/
  | malformedConfig {s : Snapshot} {path text : String} {fault : Json.Fault}
      (hs : t.HoldsSnapshot snapshot s) (hpath : config? = some path)
      (hread : t.read path = .ok text) (h : s.config.overlay (Json.parse text) = .error fault)
  /-- A type that the settings name is not declared. -/
  | missingHost {s : Snapshot} {settings : Config} (hs : t.HoldsSnapshot snapshot s)
      (hsettles : t.Settles s.config config? settings)
      (h : scan? s.types settings.nodeType = none ∨
        scan? s.types settings.resourceType = none)

variable {t : FileTree} {snapshot : String} {config? : Option String}

/-- A file holds at most one snapshot. -/
theorem HoldsSnapshot.unique {s s' : Snapshot} (h : t.HoldsSnapshot snapshot s)
    (h' : t.HoldsSnapshot snapshot s') : s = s' := by
  obtain ⟨text, hread, hs⟩ := h
  obtain ⟨text', hread', hs'⟩ := h'
  rw [hread] at hread'
  cases hread'
  rw [hs] at hs'
  exact Except.ok.inj hs'

/-- A run has at most one set of settings. -/
theorem Settles.unique {given settings settings' : Config} (h : t.Settles given config? settings)
    (h' : t.Settles given config? settings') : settings = settings' := by
  cases config? with
  | none => exact Eq.trans h (Eq.symm h')
  | some path =>
    obtain ⟨text, hread, hlaid⟩ := h
    obtain ⟨text', hread', hlaid'⟩ := h'
    rw [hread] at hread'
    cases hread'
    rw [hlaid] at hlaid'
    exact Except.ok.inj hlaid'

/-- What a context needs to look up, the scan of its declarations finds. -/
theorem scan?_ne_none {x : Context} {name : String} {d : TypeDecl}
    (h : x.compilation.lookup name = some d) : scan? x.compilation.types name ≠ none := by
  rw [← Compilation.map_position_lookup, h]
  exact Option.some_ne_none _

/-- Files that feed a run do not keep it from generating. -/
theorem Feeds.not_obstructs {x : Context} (h : t.Feeds snapshot config? x) :
    ¬t.Obstructs snapshot config? := by
  obtain ⟨s, hs, htypes, -, hsettles⟩ := h
  obtain ⟨text, hread, hdocument⟩ := id hs
  intro hobstructs
  cases hobstructs with
  | unreadSnapshot hunread =>
    rw [hread] at hunread
    cases hunread
  | malformedSnapshot hread' hmalformed =>
    rw [hread] at hread'
    cases hread'
    rw [hdocument] at hmalformed
    cases hmalformed
  | repeatedType hs' hrepeated =>
    rw [hs'.unique hs, ← htypes] at hrepeated
    exact hrepeated x.compilation.distinct
  | unreadConfig hpath hunread =>
    subst hpath
    obtain ⟨text', hread', -⟩ := hsettles
    rw [hread'] at hunread
    cases hunread
  | malformedConfig hs' hpath hread' hmalformed =>
    subst hpath
    obtain ⟨text', hread'', hlaid⟩ := hsettles
    rw [hread''] at hread'
    cases hread'
    rw [hs'.unique hs, hlaid] at hmalformed
    cases hmalformed
  | missingHost hs' hsettles' hmissing =>
    cases hs'.unique hs
    rw [hsettles'.unique hsettles, ← htypes] at hmissing
    rcases hmissing with hnode | hresource
    · exact scan?_ne_none x.host.lookup_node hnode
    · exact scan?_ne_none x.host.lookup_resource hresource

/-- Settings that can be read and that fit are those of the run. -/
theorem exists_settles {s : Snapshot} (hs : t.HoldsSnapshot snapshot s)
    (h : ¬t.Obstructs snapshot config?) : ∃ settings, t.Settles s.config config? settings := by
  cases config? with
  | none => exact ⟨s.config, rfl⟩
  | some path =>
    cases hread : t.read path with
    | error e => exact absurd (.unreadConfig rfl hread) h
    | ok text =>
      cases hlaid : s.config.overlay (Json.parse text) with
      | error fault => exact absurd (.malformedConfig hs rfl hread hlaid) h
      | ok settings => exact ⟨settings, text, hread, hlaid⟩

/-- Files that do not keep a run from generating feed it. -/
theorem exists_feeds (h : ¬t.Obstructs snapshot config?) : ∃ x, t.Feeds snapshot config? x := by
  cases hread : t.read snapshot with
  | error e => exact absurd (.unreadSnapshot hread) h
  | ok text =>
    cases hdocument : Snapshot.ofDocument (Json.parse text) with
    | error fault => exact absurd (.malformedSnapshot hread hdocument) h
    | ok s =>
      have hs : t.HoldsSnapshot snapshot s := ⟨text, hread, hdocument⟩
      have hdistinct : (s.types.map TypeDecl.metadataName).Nodup := by
        by_contra hrepeated
        exact h (.repeatedType hs hrepeated)
      obtain ⟨settings, hsettles⟩ := exists_settles hs h
      obtain ⟨c, hc⟩ := Compilation.exists_ofTypes hdistinct s.mentions
      obtain ⟨htypes, hmentions⟩ := Compilation.ofTypes_eq_ok hc
      have hfound {name : String} (hscan : scan? s.types name ≠ none) :
          ∃ d, c.lookup name = some d := by
        rw [← htypes, ← Compilation.map_position_lookup] at hscan
        cases hlookup : c.lookup name with
        | none => exact absurd (by rw [hlookup, Option.map_none]) hscan
        | some d => exact ⟨d, rfl⟩
      obtain ⟨node, hnode⟩ := hfound fun hnone => h (.missingHost hs hsettles (.inl hnone))
      obtain ⟨resource, hresource⟩ := hfound fun hnone => h (.missingHost hs hsettles (.inr hnone))
      exact ⟨⟨c, settings, ⟨node, resource, hnode, hresource⟩⟩, s, hs, htypes, hmentions, hsettles⟩

end FileTree

section Load

variable {α β : Type} {t t' : FileTree} {snapshot : String} {config? : Option String}

/-- The first of two parts in a row that gives a result leads on to the second. -/
theorem run_bind_of_ok {part : ExceptT RunError (StateM FileTree) α}
    {next : α → ExceptT RunError (StateM FileTree) β} {a : α} (h : part.run.run t = (.ok a, t')) :
    (part >>= next).run.run t = (next a).run.run t' := by
  rw [ExceptT.run_bind, StateT.run_bind, h]
  rfl

/-- The first of two parts in a row that stops the run ends it. -/
theorem run_bind_of_error {part : ExceptT RunError (StateM FileTree) α}
    {next : α → ExceptT RunError (StateM FileTree) β} {e : RunError}
    (h : part.run.run t = (.error e, t')) : (part >>= next).run.run t = (.error e, t') := by
  rw [ExceptT.run_bind, StateT.run_bind, h]
  rfl

/-- An action with a result does not stop the run. -/
theorem run_attempt_of_ok {ε : Type} (wrap : ε → RunError)
    {action : StateM FileTree (Except ε α)} {a : α} (h : action.run t = (.ok a, t')) :
    (attempt wrap action).run.run t = (.ok a, t') := by
  have hrun : (attempt wrap action).run.run t =
      ((action.run t).1.mapError wrap, (action.run t).2) := rfl
  rw [hrun, h]
  rfl

/-- A result that is there does not stop the run. -/
theorem run_demand_of_ok {ε : Type} (wrap : ε → RunError) {result : Except ε α} {a : α}
    (h : result = .ok a) :
    (demand wrap result : ExceptT RunError (StateM FileTree) α).run.run t = (.ok a, t) := by
  rw [h]
  rfl

/-- The part of a run leaves the file tree as it is. -/
def OnlyReads (part : ExceptT RunError (StateM FileTree) α) : Prop := ∀ t, (part.run.run t).2 = t

/-- Two parts in a row leave the file tree as it is when each does. -/
theorem OnlyReads.bind {part : ExceptT RunError (StateM FileTree) α}
    {next : α → ExceptT RunError (StateM FileTree) β} (h : OnlyReads part)
    (hnext : ∀ a, OnlyReads (next a)) : OnlyReads (part >>= next) := by
  intro t
  have hpart := h t
  cases hrun : part.run.run t with
  | mk r s =>
    rw [hrun] at hpart
    cases hpart
    cases r with
    | ok a => rw [run_bind_of_ok hrun, hnext a]
    | error e => rw [run_bind_of_error hrun]

/-- Loading leaves the file tree as it is. -/
theorem onlyReads_load (snapshot : String) (config? : Option String) :
    OnlyReads (load snapshot config? : ExceptT RunError (StateM FileTree) Generation) := by
  have hread (wrap : FileError → RunError) (path : String) :
      OnlyReads (attempt wrap (FileAccess.readText path)) := fun _ => rfl
  have hdemand {ε γ : Type} (wrap : ε → RunError) (result : Except ε γ) :
      OnlyReads (demand wrap result) := fun _ => rfl
  refine (hread _ _).bind fun text => (hdemand _ _).bind fun made => ?_
  cases config? with
  | none => exact hdemand _ _
  | some path =>
    exact (hread _ _).bind fun text => (hdemand _ _).bind fun settings => hdemand _ _

/-- From files that feed a run everything is loaded. -/
theorem run_load_of_feeds {x : Context} (h : t.Feeds snapshot config? x) :
    (load snapshot config? : ExceptT RunError (StateM FileTree) Generation).run.run t =
      (.ok x.generate, t) := by
  obtain ⟨s, ⟨text, hread, hs⟩, htypes, hmentions, hsettles⟩ := h
  have hattempt (wrap : FileError → RunError) {path content : String}
      (hread : t.read path = .ok content) :
      (attempt wrap (FileAccess.readText path) :
        ExceptT RunError (StateM FileTree) String).run.run t = (.ok content, t) :=
    run_attempt_of_ok wrap (congrArg (·, t) hread)
  have hmade : Compilation.ofDocument (Json.parse text) = .ok (x.compilation, s.config) := by
    have htypes' := x.compilation.ofTypes_self
    rw [htypes, hmentions] at htypes'
    simp only [Compilation.ofDocument, hs, Except.mapError, Except.bind, Snapshot.compile, htypes',
      Except.map]
  have hgenerated : Generation.ofCompilation x.compilation x.config = .ok x.generate := by
    rw [Generation.ofCompilation, x.ofCompilation_self]
    rfl
  unfold load
  rw [run_bind_of_ok (hattempt _ hread), run_bind_of_ok (run_demand_of_ok _ hmade)]
  cases config? with
  | none =>
    have hconfig : x.config = s.config := hsettles
    rw [hconfig] at hgenerated
    exact run_demand_of_ok _ hgenerated
  | some path =>
    obtain ⟨text', hread', hlaid⟩ := hsettles
    have hlaid' : (s.config.overlay (Json.parse text')).mapError Failure.malformed =
        .ok x.config := by
      rw [hlaid]
      rfl
    dsimp only
    rw [run_bind_of_ok (hattempt _ hread'), run_bind_of_ok (run_demand_of_ok _ hlaid')]
    exact run_demand_of_ok _ hgenerated

/-- From files that keep a run from generating nothing is loaded. -/
theorem run_load_of_obstructs (h : t.Obstructs snapshot config?) :
    ∃ e, (load snapshot config? : ExceptT RunError (StateM FileTree) Generation).run.run t =
      (.error e, t) := by
  have htree := onlyReads_load snapshot config? t
  cases hload : (load snapshot config? :
      ExceptT RunError (StateM FileTree) Generation).run.run t with
  | mk r s =>
    rw [hload] at htree
    cases htree
    cases r with
    | error e => exact ⟨e, rfl⟩
    | ok g =>
      obtain ⟨⟨x, hfeeds, -⟩, -⟩ := run_load_eq_ok hload
      exact absurd h hfeeds.not_obstructs

end Load

section Execute

variable {t t₁ t₂ : FileTree} {snapshot : String} {config? : Option String}

/-- A command that is done has its report. -/
theorem execute_of_ok {command : Command} {report : Report}
    (h : (perform command : ExceptT RunError (StateM FileTree) Report).run.run t =
      (.ok report, t₁)) : execute command t = (report, t₁) := by
  rw [execute, run, StateT.run_bind, h]
  rfl

/-- A command that is stopped reports why. -/
theorem execute_of_error {command : Command} {e : RunError}
    (h : (perform command : ExceptT RunError (StateM FileTree) Report).run.run t =
      (.error e, t₁)) : execute command t = (.stopped e, t₁) := by
  rw [execute, run, StateT.run_bind, h]
  rfl

/-- A check whose files are not loaded is stopped. -/
theorem execute_check_of_error {e : RunError} (format : Format)
    (h : (load snapshot config? : ExceptT RunError (StateM FileTree) Generation).run.run t =
      (.error e, t₁)) : execute (.check snapshot config? format) t = (.stopped e, t₁) := by
  cases format with
  | text => exact execute_of_error (run_bind_of_error h)
  | json => exact execute_of_error (run_bind_of_error h)

/-- A generation whose files are not loaded is stopped. -/
theorem execute_generate_of_error {e : RunError} (out : String)
    (h : (load snapshot config? : ExceptT RunError (StateM FileTree) Generation).run.run t =
      (.error e, t₁)) : execute (.generate snapshot out config?) t = (.stopped e, t₁) :=
  execute_of_error (run_bind_of_error h)

/-- A check shows what was generated, in its format. -/
theorem execute_check_of_ok {g : Generation} (format : Format)
    (h : (load snapshot config? : ExceptT RunError (StateM FileTree) Generation).run.run t =
      (.ok g, t₁)) :
    execute (.check snapshot config? format) t =
      (match format with
        | .text => .finished g "" (g.diagnostics.map Diagnostic.render)
        | .json => .finished g (Diagnostic.renderJson g.diagnostics ++ "\n") [], t₁) := by
  cases format with
  | text => exact execute_of_ok (run_bind_of_ok h)
  | json => exact execute_of_ok (run_bind_of_ok h)

/-- A generation whose folder and files can be made shows what was generated. -/
theorem execute_generate_of_ok {g : Generation} {out : String} {t₀ : FileTree}
    (h : (load snapshot config? : ExceptT RunError (StateM FileTree) Generation).run.run t =
      (.ok g, t₀))
    (hfolders : (makeFolders (out.length + 1) out :
      StateM FileTree (Except FileError Unit)).run t₀ = (.ok (), t₁))
    (hfiles : (g.units.forM (writeUnit out) :
      ExceptT RunError (StateM FileTree) Unit).run.run t₁ = (.ok (), t₂)) :
    execute (.generate snapshot out config?) t =
      (.finished g ("generated " ++ toString g.units.length ++ " file(s) into " ++ out ++ "\n")
        (g.diagnostics.map Diagnostic.render), t₂) := by
  refine execute_of_ok ?_
  unfold perform
  rw [run_bind_of_ok h, run_bind_of_ok (run_attempt_of_ok _ hfolders), run_bind_of_ok hfiles]
  rfl

/-- A check leaves the file tree as it is. -/
theorem tree_execute_check (t : FileTree) (snapshot : String) (config? : Option String)
    (format : Format) : (execute (.check snapshot config? format) t).2 = t := by
  have htree := onlyReads_load snapshot config? t
  cases hload : (load snapshot config? :
      ExceptT RunError (StateM FileTree) Generation).run.run t with
  | mk r s =>
    rw [hload] at htree
    cases r with
    | ok g => rw [execute_check_of_ok format hload, htree]
    | error e => rw [execute_check_of_error format hload, htree]

end Execute

/-- The status of a finished run is 1 when some diagnostic is an error. -/
theorem exit_finished_eq_one_iff (g : Generation) (stdout : String) (stderr : List String) :
    (Report.finished g stdout stderr).exit = 1 ↔ ∃ d ∈ g.diagnostics, d.severity = .error := by
  have hexit : (Report.finished g stdout stderr).exit =
      if Diagnostic.hasErrors g.diagnostics then 1 else 0 := rfl
  rw [hexit, ite_eq_left_iff, Diagnostic.hasErrors, List.any_eq_true]
  simp [Diagnostic.isError]

/-- The status of a finished run is 0 when all diagnostics are warnings. -/
theorem exit_finished_eq_zero_iff (g : Generation) (stdout : String) (stderr : List String) :
    (Report.finished g stdout stderr).exit = 0 ↔ ∀ d ∈ g.diagnostics, d.severity = .warning := by
  have hexit : (Report.finished g stdout stderr).exit =
      if Diagnostic.hasErrors g.diagnostics then 1 else 0 := rfl
  have hwarning (d : Diagnostic) : d.isError = false ↔ d.severity = .warning := by
    rw [Diagnostic.isError]
    cases d.severity <;> decide
  rw [hexit, ite_eq_right_iff, Diagnostic.hasErrors]
  simp [hwarning]

/-- A check never changes the file tree. What is wrong with the files of a command, be it that the
snapshot or the settings cannot be read or parsed, that a type is declared twice or that a type named
in the settings is not declared, stops a check and a generation with the same report and status 2,
and both leave the file tree as it was. Otherwise a check shows a line for each diagnostic, and its
status is 1 exactly when one of them is an error and 0 exactly when all are warnings; a generation
whose folder and files can be made shows the same lines and has the same status. -/
theorem commands_report_alike (t : FileTree) (snapshot out : String) (config? : Option String) :
    (∀ format, (execute (.check snapshot config? format) t).2 = t) ∧
    (t.Obstructs snapshot config? → ∃ report, report.exit = 2 ∧
      (∀ format, execute (.check snapshot config? format) t = (report, t)) ∧
      execute (.generate snapshot out config?) t = (report, t)) ∧
    (¬t.Obstructs snapshot config? → ∃ x status, t.Feeds snapshot config? x ∧
      (status = 1 ↔ ∃ d ∈ x.generate.diagnostics, d.severity = .error) ∧
      (status = 0 ↔ ∀ d ∈ x.generate.diagnostics, d.severity = .warning) ∧
      execute (.check snapshot config? .text) t =
        (⟨status, "", x.generate.diagnostics.map Diagnostic.render⟩, t) ∧
      (execute (.check snapshot config? .json) t).1.exit = status ∧
      ∀ t₁ t₂,
        (makeFolders (out.length + 1) out :
          StateM FileTree (Except FileError Unit)).run t = (.ok (), t₁) →
        (x.generate.units.forM (writeUnit out) :
          ExceptT RunError (StateM FileTree) Unit).run.run t₁ = (.ok (), t₂) →
        execute (.generate snapshot out config?) t =
          (⟨status, "generated " ++ toString x.generate.units.length ++ " file(s) into " ++ out ++
            "\n", x.generate.diagnostics.map Diagnostic.render⟩, t₂)) := by
  refine ⟨tree_execute_check t snapshot config?, fun hobstructs => ?_, fun hfree => ?_⟩
  · obtain ⟨e, hload⟩ := run_load_of_obstructs hobstructs
    exact ⟨.stopped e, rfl, fun format => execute_check_of_error format hload,
      execute_generate_of_error out hload⟩
  · obtain ⟨x, hfeeds⟩ := FileTree.exists_feeds hfree
    have hload := run_load_of_feeds hfeeds
    refine ⟨x, _, hfeeds, exit_finished_eq_one_iff _ "" [], exit_finished_eq_zero_iff _ "" [],
      execute_check_of_ok .text hload, ?_, fun t₁ t₂ hfolders hfiles => ?_⟩
    · rw [execute_check_of_ok .json hload]
      rfl
    · exact execute_generate_of_ok hload hfolders hfiles

/-- A snapshot with a menu that has a method to call, and with a mention of a class that is not
declared. -/
def menuTree : FileTree where
  home := []
  folders := []
  files := [(["snapshot.json"],
    r#"[[["Node","Godot"],["Resource","Godot"],"# ++
    r#"["Menu","Game",null,"class",null,[],[],[],[],[],[["Open",[],false,[["OnReady"]]]]]],"# ++
    r#"[["Game.Menu"],["Game.Ghost"]]]"#)]

/-- What is generated for the menu. -/
def menuGeneration : Generation where
  units := [⟨"Partial_Game_Menu",
    "// <auto-generated />\nusing Godot;\nusing System;\n\nnamespace Game\n\x7b\n" ++
    "\tpublic partial class Menu\n\t\x7b\n\t\tpublic override void _Ready()\n\t\t\x7b\n" ++
    "\t\t\tbase._Ready();\n\n\t\t\tOpen();\n\t\t\x7d\n\t\x7d\n\x7d\n"⟩]
  diagnostics := [(Cause.unresolvedClass "Game.Ghost").diagnosticAt {}]

/-- The files with a folder and in it the unit of the menu. -/
def menuTreeAfter : FileTree where
  home := []
  folders := [["generated"]]
  files := menuTree.files ++
    menuGeneration.units.map fun u => (["generated", "Partial_Game_Menu.g.cs"], u.text)

/-- Settings that are not there stop both commands on the menu, and no folder is made. Without
settings both warn about the mention and end with status 0, and a generation leaves the unit of the
menu. -/
theorem menu_is_reported_alike :
    menuTree.Obstructs "snapshot.json" (some "settings.json") ∧
      (∃ report, report.exit = 2 ∧
        execute (.check "snapshot.json" (some "settings.json") .text) menuTree =
          (report, menuTree) ∧
        execute (.generate "snapshot.json" "generated" (some "settings.json")) menuTree =
          (report, menuTree)) ∧
      ¬menuTree.Obstructs "snapshot.json" none ∧
      execute (.check "snapshot.json" none .text) menuTree =
        (⟨0, "", menuGeneration.diagnostics.map Diagnostic.render⟩, menuTree) ∧
      execute (.generate "snapshot.json" "generated" none) menuTree =
        (⟨0, "generated 1 file(s) into generated\n",
          menuGeneration.diagnostics.map Diagnostic.render⟩, menuTreeAfter) := by
  have hobstructs : menuTree.Obstructs "snapshot.json" (some "settings.json") :=
    .unreadConfig rfl (show menuTree.read "settings.json" = .error .notFound by decide +kernel)
  have hload : (load "snapshot.json" none :
      ExceptT RunError (StateM FileTree) Generation).run.run menuTree =
        (.ok menuGeneration, menuTree) :=
    Prod.ext (by decide +kernel) (onlyReads_load _ _ _)
  have hfree : ¬menuTree.Obstructs "snapshot.json" none := by
    intro hstops
    obtain ⟨e, hstopped⟩ := run_load_of_obstructs hstops
    rw [hload] at hstopped
    cases hstopped
  have hstopped := (commands_report_alike menuTree "snapshot.json" "generated"
    (some "settings.json")).2.1 hobstructs
  have hdone := (commands_report_alike menuTree "snapshot.json" "generated" none).2.2 hfree
  obtain ⟨report, hexit, hcheck, hgenerate⟩ := hstopped
  obtain ⟨x, status, hfeeds, -, hzero, hcheck', -, hgenerate'⟩ := hdone
  have hx : x.generate = menuGeneration := by
    have hsame := (run_load_of_feeds hfeeds).symm.trans hload
    exact Except.ok.inj (congrArg Prod.fst hsame)
  rw [hx] at hzero hcheck' hgenerate'
  have hstatus : status = 0 := hzero.2 (by decide +kernel)
  subst hstatus
  have hfolders : (makeFolders ("generated".length + 1) "generated" :
      StateM FileTree (Except FileError Unit)).run menuTree =
        (.ok (), { menuTree with folders := [["generated"]] }) :=
    Prod.ext (by decide +kernel) (by decide +kernel)
  have hfiles : (menuGeneration.units.forM (writeUnit "generated") :
      ExceptT RunError (StateM FileTree) Unit).run.run
        { menuTree with folders := [["generated"]] } = (.ok (), menuTreeAfter) :=
    Prod.ext (by decide +kernel) (by decide +kernel)
  have hstdout : "generated " ++ toString menuGeneration.units.length ++ " file(s) into " ++
      "generated" ++ "\n" = "generated 1 file(s) into generated\n" := by
    decide +kernel
  rw [← hstdout]
  exact ⟨hobstructs, ⟨report, hexit, hcheck .text, hgenerate⟩, hfree, hcheck',
    hgenerate' _ _ hfolders hfiles⟩

end SceneWiring.CommandLine
