import SceneWiring.Generation
import SceneWiring.Proofs.Agreement
/-!
# Runs over programs that agree

A class has the same additions and diagnostics in programs that agree under the same settings, except
that each addition is for the position of the class in its own program. The programs miss the same
host type if they miss any.
-/

namespace SceneWiring

/-- The addition for the class at another position. -/
def Addition.movedTo (position : Nat) (a : Addition) : Addition := { a with owner := position }

namespace Resolution

/-- The resolution with its additions for the class at another position. -/
def movedTo (r : Resolution) (position : Nat) : Resolution :=
  { r with
    additions := r.additions.map (·.movedTo position)
    holders_eq := by
      rw [List.filterMap_map]
      exact r.holders_eq }

/-- A clash does not depend on attributes. -/
theorem clash?_bare (r : Resolution) (site : Site) (request : Request) :
    r.clash? site.bare request = r.clash? site request := by
  unfold clash?
  cases request.strategy.companion? <;> cases site <;> rfl

/-- A clash does not depend on the position of the class. -/
theorem clash?_movedTo (r : Resolution) (position : Nat) (site : Site) (request : Request) :
    (r.movedTo position).clash? site request = r.clash? site request := by
  unfold clash?
  cases request.strategy.companion? with
  | none => rfl
  | some companion =>
    cases site with
    | member m =>
      rfl
    | type | method => rfl

/-- An addition that is pushed and moved is pushed where it is moved to. -/
theorem movedTo_push (r : Resolution) (owner position : Nat) (request : Request) :
    (r.push owner request).movedTo position = (r.movedTo position).push position request := by
  refine eq_of_lists ?_ rfl
  simp only [additions_push, movedTo, List.map_append, List.map_cons, List.map_nil, List.length_map]
  rfl

/-- Additions that are for a position already are not changed by moving them there. -/
theorem Numbered.movedTo_eq_self {r : Resolution} {position : Nat} (h : r.Numbered position) :
    r.movedTo position = r := by
  have hsame : r.additions.map (·.movedTo position) = r.additions := by
    refine List.map_congr_left (g := id) (fun a ha => ?_) |>.trans (List.map_id _)
    obtain ⟨k, hk⟩ := List.mem_iff_getElem?.1 ha
    obtain ⟨-, howner⟩ := h k a hk
    rw [Addition.movedTo, ← howner]
    rfl
  exact eq_of_lists hsame rfl

end Resolution

namespace Context.Agrees

variable {x x' : Context} {owner owner' : TypeDecl}

/-- A step gives the same in programs that agree, for the position of the class in its own. -/
theorem step_eq (h : x.Agrees x') (howner : owner.bare = owner'.bare) {o o' : Occurrence}
    (ho : o.bare = o'.bare) (r : Resolution) :
    (r.movedTo (x'.compilation.position owner')).step x' owner' o' =
      (r.step x owner o).movedTo (x'.compilation.position owner') := by
  have hjudge := h.judge_eq howner ho
  have hsite : o.site.bare = o'.site.bare := (congrArg Occurrence.site ho :)
  cases hgiven : x.judge owner o with
  | error d =>
    rw [Resolution.step_of_error r hgiven, Resolution.step_of_error _ (hjudge.symm.trans hgiven)]
    rfl
  | ok request =>
    have hclash : (r.movedTo (x'.compilation.position owner')).clash? o'.site request =
        r.clash? o.site request := by
      rw [Resolution.clash?_movedTo, ← Resolution.clash?_bare, ← hsite, Resolution.clash?_bare]
    cases hheld : r.clash? o.site request with
    | some d =>
      rw [Resolution.step_of_clash hgiven hheld,
        Resolution.step_of_clash (hjudge.symm.trans hgiven) (hclash.trans hheld)]
      rfl
    | none =>
      rw [Resolution.step_of_no_clash hgiven hheld,
        Resolution.step_of_no_clash (hjudge.symm.trans hgiven) (hclash.trans hheld),
        Resolution.movedTo_push]

/-- A run gives the same in programs that agree, for the position of the class in its own. -/
theorem foldl_step_eq (h : x.Agrees x') (howner : owner.bare = owner'.bare)
    {os os' : List Occurrence} (hos : os.map Occurrence.bare = os'.map Occurrence.bare)
    (r : Resolution) :
    os'.foldl (Resolution.step x' owner') (r.movedTo (x'.compilation.position owner')) =
      (os.foldl (Resolution.step x owner) r).movedTo (x'.compilation.position owner') := by
  induction os generalizing os' r with
  | nil =>
    rw [List.map_nil, eq_comm, List.map_eq_nil_iff] at hos
    rw [hos]
    rfl
  | cons o rest ih =>
    obtain ⟨o', rest', rfl, ho, hrest⟩ := List.map_eq_cons_iff.1 hos.symm
    rw [List.foldl_cons, List.foldl_cons, h.step_eq howner ho.symm]
    exact ih hrest.symm _

/-- A class has the same additions and diagnostics in programs that agree, for its position in its
own. -/
theorem resolveClass_eq (h : x.Agrees x') (d : TypeDecl) :
    x'.resolveClass d = (x.resolveClass d).movedTo (x'.compilation.position d) :=
  h.foldl_step_eq rfl rfl .start

end Context.Agrees

namespace Compilation

variable {c c' : Compilation}

/-- A name that denotes a declaration is found. -/
theorem require_of_some {name : String} {d : TypeDecl} (h : c.lookup name = some d) :
    c.require name = .ok ⟨d, h⟩ := by
  revert h
  unfold require
  generalize c.lookup name = found
  rintro rfl
  rfl

/-- A name that denotes nothing is missing. -/
theorem require_of_none {name : String} (h : c.lookup name = none) :
    c.require name = .error (.missingType name) := by
  revert h
  unfold require
  generalize c.lookup name = found
  rintro rfl
  rfl

end Compilation

namespace Context

variable {c c' : Compilation} {config : Config}

/-- A context is for the program and the settings that it is made of. -/
theorem ofCompilation_eq_ok {x : Context} (h : ofCompilation c config = .ok x) :
    x.compilation = c ∧ x.config = config := by
  unfold ofCompilation at h
  cases hfind : HostTypes.find c config with
  | error failure =>
    rw [hfind] at h
    cases h
  | ok host =>
    rw [hfind] at h
    cases h
    exact ⟨rfl, rfl⟩

/-- A context is what is made of its program and its settings. -/
theorem ofCompilation_self (x : Context) : ofCompilation x.compilation x.config = .ok x := by
  rw [ofCompilation, HostTypes.find, Compilation.require_of_some x.host.lookup_node]
  simp only [bind, Except.bind]
  rw [Compilation.require_of_some x.host.lookup_resource]
  rfl

/-- A missing root of the types fetched by path is reported first. -/
theorem ofCompilation_of_missing_node (hnode : c.lookup config.nodeType = none) :
    ofCompilation c config = .error (.missingType config.nodeType) := by
  rw [ofCompilation, HostTypes.find, Compilation.require_of_none hnode]
  rfl

/-- A missing root of the types loaded as resources is reported next. -/
theorem ofCompilation_of_missing_resource {node : TypeDecl}
    (hnode : c.lookup config.nodeType = some node)
    (hresource : c.lookup config.resourceType = none) :
    ofCompilation c config = .error (.missingType config.resourceType) := by
  rw [ofCompilation, HostTypes.find, Compilation.require_of_some hnode]
  simp only [bind, Except.bind]
  rw [Compilation.require_of_none hresource]
  rfl

end Context

/-- Under the same settings programs in which the same names denote something miss the same host type,
or they give a context each. -/
theorem Context.contexts_of_isSome_lookup {c c' : Compilation}
    (h : ∀ name, (c.lookup name).isSome = (c'.lookup name).isSome) (config : Config) :
    (∃ missing, ofCompilation c config = .error (.missingType missing) ∧
      ofCompilation c' config = .error (.missingType missing)) ∨
    ∃ x x', ofCompilation c config = .ok x ∧ ofCompilation c' config = .ok x' ∧
      x.compilation = c ∧ x'.compilation = c' ∧ x.config = config ∧ x'.config = config := by
  have cases_of (name : String) : (c.lookup name = none ∧ c'.lookup name = none) ∨
      ∃ d d', c.lookup name = some d ∧ c'.lookup name = some d' := by
    have hname := h name
    cases hd : c.lookup name <;> cases hd' : c'.lookup name <;> simp_all
  rcases cases_of config.nodeType with ⟨hn, hn'⟩ | ⟨n, n', hn, hn'⟩
  · exact .inl ⟨_, ofCompilation_of_missing_node hn, ofCompilation_of_missing_node hn'⟩
  · rcases cases_of config.resourceType with ⟨hr, hr'⟩ | ⟨r, r', hr, hr'⟩
    · exact .inl ⟨_, ofCompilation_of_missing_resource hn hr,
        ofCompilation_of_missing_resource hn' hr'⟩
    · -- The host types found make a context each.
      let x : Context := ⟨c, config, ⟨n, r, hn, hr⟩⟩
      let x' : Context := ⟨c', config, ⟨n', r', hn', hr'⟩⟩
      exact .inr ⟨x, x', x.ofCompilation_self, x'.ofCompilation_self, rfl, rfl, rfl, rfl⟩

namespace Compilation.Agrees

/-- In programs that agree the same names denote something. -/
theorem isSome_lookup_eq {c c' : Compilation} (h : c.Agrees c') (name : String) :
    (c.lookup name).isSome = (c'.lookup name).isSome := by
  have hsome := congrArg Option.isSome (h.lookup_eq name)
  rwa [Option.isSome_map, Option.isSome_map] at hsome

/-- Under the same settings programs that agree miss the same host type, or they give contexts that
agree. -/
theorem contexts {c c' : Compilation} (h : c.Agrees c') (config : Config) :
    (∃ missing, Context.ofCompilation c config = .error (.missingType missing) ∧
      Context.ofCompilation c' config = .error (.missingType missing)) ∨
    ∃ x x', Context.ofCompilation c config = .ok x ∧ Context.ofCompilation c' config = .ok x' ∧
      x.compilation = c ∧ x'.compilation = c' ∧ x.config = config ∧ x.Agrees x' := by
  rcases Context.contexts_of_isSome_lookup h.isSome_lookup_eq config with
    hmissing | ⟨x, x', hx, hx', rfl, rfl, hconfig, hconfig'⟩
  · exact .inl hmissing
  · exact .inr ⟨x, x', hx, hx', rfl, rfl, hconfig, hconfig.trans hconfig'.symm, h⟩

end Compilation.Agrees

/-- The outcomes of two runs are related: both miss the same host type, or the generations of both
stand in a relation. -/
inductive Generation.Related (r : Generation → Generation → Prop) :
    Except Failure Generation → Except Failure Generation → Prop
  /-- A host type is missing. -/
  | missing (name : String) : Related r (.error (.missingType name)) (.error (.missingType name))
  /-- Both runs generate. -/
  | generated {g g' : Generation} (h : r g g') : Related r (.ok g) (.ok g')

/-- The outcomes for programs in which the same names denote something are related when the
generations for their contexts are. -/
theorem Generation.related_of_isSome_lookup {c c' : Compilation}
    (h : ∀ name, (c.lookup name).isSome = (c'.lookup name).isSome) (config : Config)
    {r : Generation → Generation → Prop}
    (hr : ∀ x x' : Context, x.compilation = c → x'.compilation = c' → x.config = config →
      x'.config = config → r x.generate x'.generate) :
    Generation.Related r (Generation.ofCompilation c config)
      (Generation.ofCompilation c' config) := by
  unfold Generation.ofCompilation
  rcases Context.contexts_of_isSome_lookup h config with
    ⟨missing, hx, hx'⟩ | ⟨x, x', hx, hx', hc, hc', hconfig, hconfig'⟩
  · rw [hx, hx']
    exact .missing missing
  · rw [hx, hx']
    exact .generated (hr x x' hc hc' hconfig hconfig')

/-- The outcomes for programs that agree are related when the generations for contexts that agree
are. -/
theorem Compilation.Agrees.related {c c' : Compilation} (h : c.Agrees c') (config : Config)
    {r : Generation → Generation → Prop}
    (hr : ∀ x x' : Context, x.compilation = c → x'.compilation = c' → x.Agrees x' →
      r x.generate x'.generate) :
    Generation.Related r (Generation.ofCompilation c config)
      (Generation.ofCompilation c' config) := by
  refine Generation.related_of_isSome_lookup h.isSome_lookup_eq config ?_
  rintro x x' rfl rfl hconfig hconfig'
  exact hr x x' rfl rfl ⟨hconfig.trans hconfig'.symm, h⟩

end SceneWiring
