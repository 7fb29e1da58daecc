import SceneWiring.Proofs.EntryMaps
import SceneWiring.Proofs.SettingValues
import SceneWiring.Proofs.SnapshotLayouts
/-!
# Overlays of settings

What a document that is laid over settings does to them. Main statements: an object sets exactly the
keys it names, so that two overlays in a row are one overlay of the two objects merged; an array of
no more values than there are keys is taken too, and puts every key that it does not reach back to
its default; everything else is refused. Settings read from an object are the default settings with
the object laid over them.
-/

namespace SceneWiring

namespace Json

/-! ## Merged objects -/

mutual

/-- The fields of a second object can be written behind those of a first. -/
theorem Fields.append {second : List (Quoted × Node)} {text' : List Char}
    (hsecond : Fields second text') : ∀ {first : List (Quoted × Node)} {text : List Char},
    Fields first text → ∃ body, Fields (first ++ second) body
  | _, _, .mk hkey hbefore hafter hvalue hmore => by
    obtain ⟨rest, hrest⟩ := MoreFields.append hsecond hmore
    exact ⟨_, .mk hkey hbefore hafter hvalue hrest⟩

/-- The fields of a second object can be written behind what follows a field of a first. -/
theorem MoreFields.append {second : List (Quoted × Node)} {text' : List Char}
    (hsecond : Fields second text') : ∀ {first : List (Quoted × Node)} {text : List Char},
    MoreFields first text → ∃ body, MoreFields (first ++ second) body
  | _, _, .close hblank => ⟨_, .comma hblank hblank hsecond⟩
  | _, _, .comma hbefore hafter hfields => by
    obtain ⟨rest, hrest⟩ := Fields.append hsecond hfields
    exact ⟨_, .comma hbefore hafter hrest⟩

end

end Json

open Json

namespace Config

/-- The last value under a key is the last of the values under it. -/
theorem lastValue?_eq_getLast? (key : String) (given : List (Quoted × Node)) :
    lastValue? key given = (valuesUnder key given).getLast? := by
  induction given with
  | nil => rfl
  | cons field given ih =>
    obtain ⟨k, node⟩ := field
    rw [lastValue?, ih]
    cases hkey : k.content with
    | error fault =>
      have hvalues : valuesUnder key ((k, node) :: given) = valuesUnder key given := by
        simp [valuesUnder, hkey]
      rw [hvalues]
      cases (valuesUnder key given).getLast? <;> rfl
    | ok content =>
      rw [valuesUnder_cons hkey]
      by_cases hname : content = key
      · rw [if_pos hname, List.getLast?_cons]
        cases (valuesUnder key given).getLast? <;> simp [hname]
      · rw [if_neg hname]
        cases (valuesUnder key given).getLast? <;> simp [hname]

/-- The keys of the settings as they are written are those of the settings. -/
theorem keys_written (c : Config) : c.written.map (·.1) = keys := rfl

/-- Every key of the settings has a value. -/
theorem isSome_value? (c : Config) : ∀ key ∈ keys, (c.value? key).isSome = true := by
  simp [keys_eq, value?, written, List.lookup_cons]

/-- The values of settings can be skipped. -/
theorem skipFault_written (c : Config) : ∀ entry ∈ c.written, entry.2.skipFault = none := by
  have htexts (contents : List String) : (Node.texts contents).skipFault = none := by
    rw [Node.texts, Node.list, Node.skipFault, skipItems_eq_none]
    exact ⟨rfl, List.forall_mem_map.2 fun _ _ => rfl⟩
  have hstring (content : String) : (Node.string content).skipFault = none := rfl
  simp [written, htexts, hstring]

/-- Settings are read from an object that names no key of them twice when they have the values it
names, and else the defaults. -/
theorem decoder_object_eq_ok_iff {given : List (Quoted × Node)}
    (hkeyed : (Node.object given .closed).Keyed)
    (hskip : ∀ field ∈ given, field.2.skipFault = none)
    (honce : ∀ key ∈ keys, (valuesUnder key given).length ≤ 1) {r : Config} :
    decoder documentRoom (.object given .closed) = .ok r ↔ ∀ key ∈ keys,
      r.value? key = (valuesUnder key given).head?.or (({} : Config).value? key) := by
  -- One bracket is entered before the values are read, which leaves room for an array of texts.
  have hroom : 1 < documentRoom - 1 := by decide
  have hlayout : (Node.object given .closed).Layout (fieldNames jsonFields) := ⟨rfl, honce⟩
  have hextras : (Node.object given .closed).ExtrasSkippable (fieldNames jsonFields) :=
    fun field hfield _ _ _ => hskip field hfield
  have hvalue : ∀ key node, (valuesUnder key given).head? = some node → node.skipFault = none := by
    intro key node hnode
    obtain ⟨field, hfield, rfl⟩ := List.mem_map.1 (List.mem_of_head? hnode)
    exact hskip field (List.mem_filter.1 hfield).1
  rw [decoder, record_object_eq_ok_iff jsonFields_independent, build_eq_some_iff hroom hvalue]
  exact ⟨fun h => h.2.2.2.2.2,
    fun h => ⟨by decide, hlayout, hkeyed, hextras, complete_jsonFields _, h⟩⟩

/-- Settings are read from a map when they have the values that are found in it, and else the
defaults. -/
theorem decoder_struct_eq_ok_iff {entries : List (String × Node)} (hentries : Ascending entries)
    (hskip : ∀ entry ∈ entries, entry.2.skipFault = none) {r : Config} :
    decoder documentRoom (.struct entries) = .ok r ↔
      ∀ key ∈ keys, r.value? key = (entries.lookup key).or (({} : Config).value? key) := by
  have hkeyed : (Node.struct entries).Keyed :=
    List.forall_mem_map.2 fun entry _ => ⟨entry.1, rfl⟩
  rw [Node.struct, decoder_object_eq_ok_iff hkeyed (List.forall_mem_map.2 hskip)
    fun key _ => hentries.valuesUnder_le_one key]
  simp only [head?_valuesUnder_struct]

/-! ## Overlays by their values -/

/-- An overlay is what its value makes of the settings. -/
theorem overlay_readsAs {text : String} {node : Node} {c : Config} :
    ReadsAs text node → c.overlay (parse text) =
      match node with
      | .object given _ => do
        let named ← addEntries Decoder.value documentRoom [] given
        decoder documentRoom (.struct (extend (extend [] c.written) named))
      | .array items ending => readPositional .misfit documentRoom jsonFields {} items ending
      | other => .error other.misfitFault := by
  intro h
  rw [ReadsAs] at h
  rw [overlay, h]
  rfl

/-- Settings that the values of a map are set among have these values, and else their own. -/
theorem lookup_extend_written (c : Config) {named : List (String × Node)} (h : Ascending named)
    (key : String) :
    (extend (extend [] c.written) named).lookup key = (named.lookup key).or (c.value? key) := by
  have hnodup : (c.written.map (·.1)).Nodup := by
    rw [keys_written]
    decide
  rw [lookup_extend _ h.nodup_keys, lookup_extend _ hnodup, List.lookup_nil, Option.or_none, value?]

/-- The values of settings with the values that an object names set among them can be skipped. -/
theorem skipFault_extend_written {text : String} {given : List (Quoted × Node)}
    (h : ReadsAs text (.object given .closed)) (c : Config) {named : List (String × Node)}
    (hnamed : ∀ entry ∈ named, ∃ field ∈ given, field.2 = entry.2) :
    ∀ entry ∈ extend (extend [] c.written) named, entry.2.skipFault = none := by
  intro entry hentry
  obtain hentry | hentry := mem_extend hentry
  · obtain hentry | hentry := mem_extend hentry
    · cases hentry
    · exact skipFault_written c entry hentry
  · obtain ⟨field, hfield, heq⟩ := hnamed entry hentry
    rw [← heq]
    exact h.skipFault_field field hfield

/-- An object laid over settings sets the keys it names and keeps the others. -/
theorem overlay_object_eq_ok_iff {text : String} {given : List (Quoted × Node)}
    (h : ReadsAs text (.object given .closed)) {c r : Config} :
    c.overlay (parse text) = .ok r ↔
      ∀ key ∈ keys, r.value? key = (lastValue? key given).or (c.value? key) := by
  obtain ⟨-, -, hkeyed, -⟩ := readFault_object_eq_none.1 (readsAs_iff.1 h).2
  obtain ⟨named, hnamed⟩ : ∃ named, addEntries Decoder.value documentRoom [] given = .ok named :=
    exists_addEntries hkeyed (fun field _ => ⟨field.2, rfl⟩) []
  obtain ⟨hascending, hgiven, hlookup⟩ := addEntries_spec hnamed
  have hmap : Ascending named := hascending .nil
  have hmerged : Ascending (extend (extend [] c.written) named) :=
    (Ascending.extend .nil c.written).extend named
  have hskip := skipFault_extend_written h c fun entry hentry =>
    (hgiven entry hentry).resolve_left List.not_mem_nil
  have hread : c.overlay (parse text) =
      decoder documentRoom (.struct (extend (extend [] c.written) named)) := by
    rw [overlay_readsAs h]
    simp only [hnamed]
    rfl
  rw [hread, decoder_struct_eq_ok_iff hmerged hskip]
  refine forall₂_congr fun key hkey => ?_
  -- The defaults are not asked for: the settings have a value under each of their keys.
  have hvalue : (c.value? key).or (({} : Config).value? key) = c.value? key :=
    Option.or_of_isSome (isSome_value? c key hkey)
  rw [lookup_extend_written c hmap, hlookup, List.lookup_nil, Option.or_none, Option.or_assoc, hvalue,
    lastValue?_eq_getLast?]

/-- An array laid over settings is settings in its own right, given in the order of the keys. -/
theorem overlay_array_eq_ok_iff {text : String} {items : List Node}
    (h : ReadsAs text (.array items .closed)) {c r : Config} :
    c.overlay (parse text) = .ok r ↔ items.length ≤ keys.length ∧
      ∀ key ∈ keys, r.value? key = ((keys.zip items).lookup key).or (({} : Config).value? key) := by
  have hskip : ∀ item ∈ items, item.skipFault = none :=
    (skipItems_eq_none.1 h.written.skipFault_eq).2
  have hvalue : ∀ key node, (keys.zip items).lookup key = some node → node.skipFault = none :=
    fun _ node hlookup => hskip node (List.of_mem_zip (mem_of_lookup_eq_some hlookup)).2
  rw [overlay_readsAs h, readPositional_eq_ok_iff jsonFields_independent, ← keys,
    build_eq_some_iff (by decide) hvalue]
  simp [Node.Layout, complete_jsonFields]

/-- A text is laid over settings exactly when it is an object, whose values come before the former
ones, or an array of no more values than there are keys, whose values come before the defaults. -/
theorem overlay_eq_ok_iff (c r : Config) (text : String) :
    c.overlay (parse text) = .ok r ↔
      (∃ given, ReadsAs text (.object given .closed) ∧
        ∀ key ∈ keys, r.value? key = (lastValue? key given).or (c.value? key)) ∨
      ∃ items, ReadsAs text (.array items .closed) ∧ items.length ≤ keys.length ∧
        ∀ key ∈ keys, r.value? key =
          ((keys.zip items).lookup key).or (({} : Config).value? key) := by
  constructor
  · intro hr
    obtain ⟨node, h, hresult⟩ := bind_eq_ok_iff.1 hr
    cases node with
    | object given ending =>
      obtain rfl : ending = .closed := (readFault_object_eq_none.1 (readsAs_iff.1 h).2).2.1
      exact .inl ⟨given, h, (overlay_object_eq_ok_iff h).1 hr⟩
    | array items ending =>
      obtain rfl : ending = .closed := closed_of_readFault_array (readsAs_iff.1 h).2
      exact .inr ⟨items, h, (overlay_array_eq_ok_iff h).1 hr⟩
    | _ => cases hresult
  · rintro (⟨given, h, hr⟩ | ⟨items, h, hr⟩)
    · exact (overlay_object_eq_ok_iff h).2 hr
    · exact (overlay_array_eq_ok_iff h).2 hr

/-- The empty array puts a setting back to its default. -/
theorem emptyArray_resets :
    ReadsAs "[]" (.array [] .closed) ∧
      ({ nodeType := "Engine.Node" } : Config).overlay (parse "[]") = .ok {} ∧
      ({} : Config).nodeType ≠ "Engine.Node" := by
  refine ⟨?_, ?_, by decide⟩
  · rw [ReadsAs]
    cbv
  · cbv

/-- The first value under a key that is named once at most is the last one. -/
theorem head?_valuesUnder {key : String} {given : List (Quoted × Node)}
    (honce : (valuesUnder key given).length ≤ 1) :
    (valuesUnder key given).head? = lastValue? key given := by
  rw [lastValue?_eq_getLast?]
  match valuesUnder key given, honce with
  | [], _ => rfl
  | [_], _ => rfl

/-- Settings are read from an object that names no key twice when they have the values it names, and
else the defaults. -/
theorem ofDocument_eq_ok_iff {text : String} {given : List (Quoted × Node)}
    (h : ReadsAs text (.object given .closed))
    (honce : ∀ key ∈ keys, (valuesUnder key given).length ≤ 1) {r : Config} :
    ofDocument (parse text) = .ok r ↔
      ∀ key ∈ keys, r.value? key = (lastValue? key given).or (({} : Config).value? key) := by
  obtain ⟨hparse, hfault⟩ := readsAs_iff.1 h
  obtain ⟨-, -, hkeyed, -⟩ := readFault_object_eq_none.1 hfault
  rw [ofDocument, Document.read_eq_ok_iff, hparse,
    decoder_object_eq_ok_iff hkeyed h.skipFault_field honce, and_iff_left rfl]
  refine forall₂_congr fun key hkey => ?_
  rw [head?_valuesUnder (honce key hkey)]

/-- Settings are read from an object that names no key of them twice as the object is laid over the
default settings: with the same result, or with a fault in both cases. -/
theorem ofDocument_eq_overlay {text : String} {given : List (Quoted × Node)}
    (h : ReadsAs text (.object given .closed))
    (honce : ∀ key ∈ keys, (valuesUnder key given).length ≤ 1) :
    (∃ r, ofDocument (parse text) = .ok r ∧ ({} : Config).overlay (parse text) = .ok r) ∨
      ∃ fault fault', ofDocument (parse text) = .error fault ∧
        ({} : Config).overlay (parse text) = .error fault' := by
  refine ok_or_error_of_toOption (Option.ext fun r => ?_)
  rw [toOption_eq_some_iff, toOption_eq_some_iff, ofDocument_eq_ok_iff h honce,
    overlay_object_eq_ok_iff h]

/-- Fields of settings: two keys named once, and a key that no setting has. -/
def notedFields : List (Quoted × Node) :=
  [(.plain "header", .string ""), (.plain "usings", .texts ["Godot"]),
    (.plain "note", .list [.bool true])]

/-- The text of these fields is read and laid over the defaults with the same result. -/
theorem notedFields_read_and_overlaid :
    ∃ r : Config, r = { header := "", usings := ["Godot"] } ∧
      ofDocument
        (parse "\x7b\"header\": \"\", \"usings\": [\"Godot\"], \"note\": [true]\x7d") = .ok r ∧
      ({} : Config).overlay
        (parse "\x7b\"header\": \"\", \"usings\": [\"Godot\"], \"note\": [true]\x7d") = .ok r := by
  have hreads : ReadsAs
      "\x7b\"header\": \"\", \"usings\": [\"Godot\"], \"note\": [true]\x7d"
      (.object notedFields .closed) := by
    rw [ReadsAs]
    cbv
  have honce : ∀ key ∈ keys, (valuesUnder key notedFields).length ≤ 1 := by decide
  have hread : ofDocument
      (parse "\x7b\"header\": \"\", \"usings\": [\"Godot\"], \"note\": [true]\x7d") =
        .ok { header := "", usings := ["Godot"] } := by cbv
  rcases ofDocument_eq_overlay hreads honce with ⟨r, h, h'⟩ | ⟨_, _, h, _⟩
  · exact ⟨r, Except.ok.inj (h.symm.trans hread), h, h'⟩
  · rw [hread] at h
    cases h

end Config

end SceneWiring
