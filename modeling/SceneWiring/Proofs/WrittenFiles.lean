import Mathlib.Data.List.Dedup
import SceneWiring.Proofs.FileRuns
import SceneWiring.Proofs.UnitNames
/-!
# Files that are written

A successful run writes the file of each unit in turn, so a file holds the text of the last unit
that goes to its place. All units have files of their own exactly when the places are distinct, and
for names without slashes that is exactly when no two of the types with units are confused.
-/

namespace SceneWiring.CommandLine

/-- The place of the file for a unit. -/
def unitPlace (home : Place) (out : String) (u : GeneratedUnit) : Place :=
  FileTree.placeOf home (joinPath out (fileName u))

/-- The text of the last unit whose file is at a place. -/
def lastText? (home : Place) (out : String) (units : List GeneratedUnit) (place : Place) :
    Option String :=
  (units.reverse.find? fun u => unitPlace home out u == place).map (·.text)

/-- With one more unit in front the last text is the same, except where there was none. -/
theorem lastText?_cons (home : Place) (out : String) (u : GeneratedUnit)
    (units : List GeneratedUnit) (place : Place) :
    lastText? home out (u :: units) place =
      (lastText? home out units place).or
        (if place = unitPlace home out u then some u.text else none) := by
  rw [lastText?, List.reverse_cons, List.find?_append, Option.map_or, lastText?]
  congr 1
  by_cases hplace : place = unitPlace home out u
  · rw [if_pos hplace, List.find?_singleton, if_pos (beq_iff_eq.2 hplace.symm), Option.map_some]
  · have hbeq : ¬(unitPlace home out u == place) = true :=
      fun heq => hplace (beq_iff_eq.1 heq).symm
    rw [if_neg hplace, List.find?_singleton, if_neg hbeq, Option.map_none]

section Run

variable {t t' : FileTree} {out : String} {units : List GeneratedUnit}

/-- A unit that is written gives the file at its place its text. -/
theorem run_writeUnit_eq_ok {u : GeneratedUnit}
    (h : (writeUnit out u : ExceptT RunError (StateM FileTree) Unit).run.run t = (.ok (), t')) :
    t'.home = t.home ∧ ∀ place, t'.content? place =
      if place = unitPlace t.home out u then some u.text else t.content? place := by
  have hupdate := run_attempt_eq_ok h
  change FileTree.update (·.write (joinPath out (fileName u)) u.text) t = _ at hupdate
  unfold FileTree.update at hupdate
  split at hupdate
  · rename_i changed hwrite
    cases hupdate
    exact FileTree.write_eq_ok hwrite
  · cases hupdate

/-- Units that are written leave every file with the last text for its place, and the other files as
they are. -/
theorem run_writeUnits_eq_ok
    (h : (units.forM (writeUnit out) : ExceptT RunError (StateM FileTree) Unit).run.run t =
      (.ok (), t')) :
    t'.home = t.home ∧ ∀ place, t'.content? place =
      (lastText? t.home out units place).or (t.content? place) := by
  induction units generalizing t with
  | nil =>
    cases h
    exact ⟨rfl, fun _ => rfl⟩
  | cons u rest ih =>
    obtain ⟨⟨⟩, s, hu, hrest⟩ := run_bind_eq_ok h
    obtain ⟨hhome, hcontent⟩ := run_writeUnit_eq_ok hu
    obtain ⟨hhome', hcontent'⟩ := ih hrest
    refine ⟨hhome'.trans hhome, fun place => ?_⟩
    rw [hcontent', hhome, hcontent, lastText?_cons, Option.or_assoc]
    split
    · rw [Option.some_or]
    · rw [Option.none_or]

/-- A run that generates and writes gives the files of the units their texts and reports how many
units there are. -/
theorem run_generate_eq_ok {snapshot : String} {config? : Option String} {report : Report}
    (h : (perform (.generate snapshot out config?) :
      ExceptT RunError (StateM FileTree) Report).run.run t = (.ok report, t')) :
    ∃ x : Context,
      (load snapshot config? : ExceptT RunError (StateM FileTree) Generation).run.run t =
        (.ok x.generate, t) ∧
      report.stdout = "generated " ++ toString x.generate.units.length ++ " file(s) into " ++ out ++
        "\n" ∧
      t'.home = t.home ∧ ∀ place, t'.content? place =
        (lastText? t.home out x.generate.units place).or (t.content? place) := by
  obtain ⟨g, s₁, hload, hrest⟩ := run_bind_eq_ok h
  obtain ⟨⟨x, -, rfl⟩, rfl⟩ := run_load_eq_ok hload
  obtain ⟨⟨⟩, s₂, hfolders, hwrite⟩ := run_bind_eq_ok hrest
  obtain ⟨⟨⟩, s₃, hunits, hreport⟩ := run_bind_eq_ok hwrite
  have hkeeps := FileTree.keeps_makeFolders (out.length + 1) out s₁
  rw [run_attempt_eq_ok hfolders] at hkeeps
  obtain ⟨hhome, hcontent⟩ := run_writeUnits_eq_ok hunits
  cases hreport
  refine ⟨x, hload, rfl, hhome.trans hkeeps.home_eq, fun place => ?_⟩
  rw [hcontent, hkeeps.home_eq, FileTree.content?, hkeeps.files_eq]
  rfl

end Run

/-- Each unit has a file of its own: there are as many files as units, and the file of a unit holds
the text of the unit. -/
structure FileTree.HoldsEach (t : FileTree) (out : String) (units : List GeneratedUnit) : Prop where
  /-- The places of the files are as many as the units. -/
  count : (units.map (unitPlace t.home out)).dedup.length = units.length
  /-- The file of a unit holds its text. -/
  own : ∀ u ∈ units, t.content? (unitPlace t.home out u) = some u.text

instance (t : FileTree) (out : String) (units : List GeneratedUnit) :
    Decidable (t.HoldsEach out units) :=
  decidable_of_iff
    ((units.map (unitPlace t.home out)).dedup.length = units.length ∧
      ∀ u ∈ units, t.content? (unitPlace t.home out u) = some u.text)
    ⟨fun h => ⟨h.1, h.2⟩, fun h => ⟨h.count, h.own⟩⟩

/-- The last text for the place of a unit is its own when no two units have one place. -/
theorem lastText?_of_nodup {home : Place} {out : String} {units : List GeneratedUnit}
    (h : (units.map (unitPlace home out)).Nodup) {u : GeneratedUnit} (hu : u ∈ units) :
    lastText? home out units (unitPlace home out u) = some u.text := by
  unfold lastText?
  cases hfind : units.reverse.find? fun v => unitPlace home out v == unitPlace home out u with
  | none =>
    have hne := List.find?_eq_none.1 hfind u (List.mem_reverse.2 hu)
    exact absurd (beq_self_eq_true _) hne
  | some v =>
    have hv : v ∈ units := List.mem_reverse.1 (List.mem_of_find?_eq_some hfind)
    have hplace : unitPlace home out v = unitPlace home out u := by
      simpa using List.find?_some hfind
    rw [List.inj_on_of_nodup_map h hv hu hplace, Option.map_some]

/-- Written units have files of their own exactly when their places are distinct. -/
theorem FileTree.holdsEach_iff {t t' : FileTree} {out : String} {units : List GeneratedUnit}
    (hcontent : ∀ place, t'.content? place =
      (lastText? t'.home out units place).or (t.content? place)) :
    t'.HoldsEach out units ↔ (units.map (unitPlace t'.home out)).Nodup := by
  constructor
  · intro h
    have hlength := h.count.trans (List.length_map (unitPlace t'.home out)).symm
    have hsame := (List.dedup_sublist (units.map (unitPlace t'.home out))).length_eq.1 hlength
    exact List.dedup_eq_self.1 hsame
  · intro h
    refine ⟨?_, fun u hu => ?_⟩
    · rw [h.dedup, List.length_map]
    · rw [hcontent, lastText?_of_nodup h hu, Option.some_or]

/-- Units with places of their own have names of their own. -/
theorem nodup_hintNames_of_places {home : Place} {out : String} {units : List GeneratedUnit}
    (h : (units.map (unitPlace home out)).Nodup) : (units.map (·.hintName)).Nodup := by
  have hmap : units.map (unitPlace home out) =
      (units.map (·.hintName)).map fun name =>
        FileTree.placeOf home (joinPath out (name ++ ".g.cs")) := by
    rw [List.map_map]
    rfl
  rw [hmap] at h
  exact h.of_map _

/-- Any text has at least one part. -/
theorem splitSlashes_ne_nil (text : List Char) : splitSlashes text ≠ [] := by
  cases text with
  | nil => exact List.cons_ne_nil _ _
  | cons c rest =>
    rw [splitSlashes]
    split
    · exact List.cons_ne_nil _ _
    · split
      · exact List.cons_ne_nil _ _
      · exact List.cons_ne_nil _ _

/-- Texts between slashes stay when another slash and more follow. -/
theorem splitSlashes_append_slash (before after : List Char) :
    splitSlashes (before ++ '/' :: after) = splitSlashes before ++ splitSlashes after := by
  induction before with
  | nil => rfl
  | cons c rest ih =>
    rw [List.cons_append, splitSlashes, splitSlashes, ih]
    split
    · rfl
    · cases hrest : splitSlashes rest with
      | nil => exact absurd hrest (splitSlashes_ne_nil rest)
      | cons part parts => rfl

/-- A text without slashes is one part. -/
theorem splitSlashes_of_not_mem {text : List Char} (h : '/' ∉ text) :
    splitSlashes text = [text] := by
  induction text with
  | nil => rfl
  | cons c rest ih =>
    rw [List.mem_cons, not_or] at h
    rw [splitSlashes, if_neg (Ne.symm h.1), ih h.2]

/-- A name without slashes is one more part of a path that ends in a slash. -/
theorem Path.ofText_slash_append (folder : String) {name : String} (hslash : '/' ∉ name.toList)
    (hempty : name ≠ "") :
    (Path.ofText (folder ++ "/" ++ name)).parts = (Path.ofText (folder ++ "/")).parts ++ [name] ∧
      (Path.ofText (folder ++ "/" ++ name)).absolute =
        (Path.ofText (folder ++ "/")).absolute := by
  have hpath : (folder ++ "/" ++ name).toList = folder.toList ++ '/' :: name.toList := by
    simp
  have hfolder : (folder ++ "/").toList = folder.toList ++ '/' :: [] := by
    simp
  have hname : (!name.toList.isEmpty) = true := by
    simp [hempty]
  unfold Path.ofText
  dsimp only
  rw [hpath, hfolder, splitSlashes_append_slash, splitSlashes_append_slash,
    splitSlashes_of_not_mem hslash]
  constructor
  · simp [splitSlashes, hname]
  · cases folder.toList with
    | nil => rfl
    | cons c rest => rfl

/-- The path of a name in a folder is the name behind a text and a slash. -/
theorem exists_joinPath_eq (folder : String) :
    ∃ before, ∀ name, joinPath folder name = before ++ "/" ++ name := by
  by_cases hslash : folder.toList.getLast? = some '/'
  · have hfolder : folder = String.ofList folder.toList.dropLast ++ "/" := by
      have hsplit := List.dropLast_append_getLast? '/' hslash
      rw [← String.toList_inj, String.toList_append, String.toList_ofList]
      exact hsplit.symm
    refine ⟨String.ofList folder.toList.dropLast, fun name => ?_⟩
    rw [joinPath, if_pos hslash, ← hfolder]
  · refine ⟨folder, fun name => ?_⟩
    rw [joinPath, if_neg hslash]

/-- A name in a folder leads to that name in the place of the folder. -/
theorem placeOf_joinPath (home : Place) (folder : String) {name : String}
    (hslash : '/' ∉ name.toList) (hempty : name ≠ "") (hdot : name ≠ ".") (hdots : name ≠ "..") :
    FileTree.placeOf home (joinPath folder name) =
      FileTree.placeOf home (joinPath folder "") ++ [name] := by
  obtain ⟨before, hjoin⟩ := exists_joinPath_eq folder
  obtain ⟨hparts, habsolute⟩ := Path.ofText_slash_append before hslash hempty
  rw [hjoin, hjoin, String.append_empty]
  unfold FileTree.placeOf
  dsimp only
  rw [hparts, habsolute, List.foldl_append, List.foldl_cons, List.foldl_nil]
  generalize ((Path.ofText (before ++ "/")).parts.foldl FileTree.walk _ : Place) = place
  rw [FileTree.walk, if_neg hdot, if_neg hdots]

/-- The place of a unit whose name has no slash ends in the name of its file. -/
theorem unitPlace_eq (home : Place) (out : String) {u : GeneratedUnit}
    (h : '/' ∉ u.hintName.toList) :
    unitPlace home out u = FileTree.placeOf home (joinPath out "") ++ [fileName u] := by
  have hfile : (fileName u).toList = u.hintName.toList ++ ['.', 'g', '.', 'c', 's'] := by
    rw [fileName, String.toList_append]
    rfl
  have hlength : 5 ≤ (fileName u).toList.length := by
    rw [hfile, List.length_append]
    exact Nat.le_add_left _ _
  have hne (short : String) (hshort : short.toList.length < 5) : fileName u ≠ short := by
    intro heq
    rw [heq] at hlength
    omega
  have hslash : '/' ∉ (fileName u).toList := by
    rw [hfile, List.mem_append, not_or]
    exact ⟨h, by decide⟩
  exact placeOf_joinPath home out hslash (hne "" (by decide)) (hne "." (by decide))
    (hne ".." (by decide))

/-- Units whose names have no slashes have places of their own exactly when they have names of their
own. -/
theorem nodup_places_iff {home : Place} {out : String} {units : List GeneratedUnit}
    (h : ∀ u ∈ units, '/' ∉ u.hintName.toList) :
    (units.map (unitPlace home out)).Nodup ↔ (units.map (·.hintName)).Nodup := by
  refine ⟨nodup_hintNames_of_places, fun hnames => ?_⟩
  have hunits : units.Nodup := hnames.of_map _
  refine (List.nodup_map_iff_inj_on hunits).2 fun u hu v hv hplace => ?_
  rw [unitPlace_eq home out (h u hu), unitPlace_eq home out (h v hv)] at hplace
  have hfile : fileName u = fileName v := by simpa using hplace
  have hname : u.hintName = v.hintName := (String.append_left_inj ".g.cs").1 hfile
  exact List.inj_on_of_nodup_map hnames hu hv hname

/-- Units have names of their own exactly when no two of the types that get them are confused. A run
that generates and writes reports how many units there are and leaves in each file the last text for
its place. Each unit has a file of its own exactly when the places are distinct, which they are only
if the names are; for names without slashes that is again when no two types are confused. -/
theorem units_apart_iff (t t' : FileTree) (snapshot out : String) (config? : Option String)
    (report : Report) :
    (∀ x : Context, (x.generate.units.map (·.hintName)).Nodup ↔
      ∀ d e, x.Emits d → x.Emits e → d ≠ e → ¬d.Confused e) ∧
    ((perform (.generate snapshot out config?) :
      ExceptT RunError (StateM FileTree) Report).run.run t = (.ok report, t') →
    ∃ x : Context,
      (load snapshot config? : ExceptT RunError (StateM FileTree) Generation).run.run t =
        (.ok x.generate, t) ∧
      report.stdout = "generated " ++ toString x.generate.units.length ++ " file(s) into " ++ out ++
        "\n" ∧
      t'.home = t.home ∧
      (∀ place, t'.content? place =
        (lastText? t.home out x.generate.units place).or (t.content? place)) ∧
      (t'.HoldsEach out x.generate.units ↔
        (x.generate.units.map (unitPlace t.home out)).Nodup) ∧
      (t'.HoldsEach out x.generate.units → (x.generate.units.map (·.hintName)).Nodup) ∧
      ((∀ u ∈ x.generate.units, '/' ∉ u.hintName.toList) →
        (t'.HoldsEach out x.generate.units ↔
          ∀ d e, x.Emits d → x.Emits e → d ≠ e → ¬d.Confused e))) := by
  refine ⟨Context.nodup_hintNames_iff, fun h => ?_⟩
  obtain ⟨x, hload, hstdout, hhome, hcontent⟩ := run_generate_eq_ok h
  have hholds : t'.HoldsEach out x.generate.units ↔
      (x.generate.units.map (unitPlace t.home out)).Nodup := by
    rw [← hhome] at hcontent ⊢
    exact FileTree.holdsEach_iff hcontent
  refine ⟨x, hload, hstdout, hhome, hcontent, hholds, fun heach => ?_, fun hslash => ?_⟩
  · exact nodup_hintNames_of_places (hholds.1 heach)
  · rw [hholds, nodup_places_iff hslash, x.nodup_hintNames_iff]

/-- A snapshot with the types `A.B.C` and `A.B_C`, both with a method to call. -/
def confusedTree : FileTree where
  home := []
  folders := []
  files := [(["snapshot.json"],
    r#"[[["Node","Godot"],["Resource","Godot"],"# ++
    r#"["C","A.B",null,"class",null,[],[],[],[],[],[["Go",[],false,[["OnReady"]]]]],"# ++
    r#"["B_C","A",null,"class",null,[],[],[],[],[],[["Run",[],false,[["OnReady"]]]]]],"# ++
    r#"[["A.B.C"],["A.B_C"]]]"#)]

/-- The units of `A.B.C` and `A.B_C` have one name; two files are reported and one is left. -/
theorem one_file_for_confused_types :
    let generated := (load "snapshot.json" none :
      ExceptT RunError (StateM FileTree) Generation).run.run confusedTree
    let done := (perform (.generate "snapshot.json" "generated" none) :
      ExceptT RunError (StateM FileTree) Report).run.run confusedTree
    generated.1.map (fun g => g.units.map (·.hintName)) = .ok ["Partial_A_B_C", "Partial_A_B_C"] ∧
      done.1.map (·.stdout) = .ok "generated 2 file(s) into generated\n" ∧
      done.2.files.map (·.1) = [["snapshot.json"], ["generated", "Partial_A_B_C.g.cs"]] ∧
      generated.1.map (fun g => decide (done.2.HoldsEach "generated" g.units)) = .ok false := by
  decide +kernel

end SceneWiring.CommandLine
