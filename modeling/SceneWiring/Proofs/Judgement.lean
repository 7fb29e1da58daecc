import SceneWiring.Resolution
/-!
# Judgement of single annotations

What an annotation may get when it is judged by itself. A request serves the annotation: it fills
the member, calls the method or lists the fields that the annotation stands on, with the options it
gives. A diagnostic points at what it stands on, and it is a warning exactly when that is the wrong
thing. What is judged then takes one step of the resolution.
-/

namespace SceneWiring

/-- The wording of the diagnostic has that text in it. -/
def Diagnostic.Names (d : Diagnostic) (text : String) : Prop :=
  text.toList <:+: d.message.toList

/-- The diagnostic is an error of that code that points at the member and names it. -/
structure Diagnostic.IsErrorAbout (d : Diagnostic) (code : String) (m : Member) : Prop where
  /-- It has the code. -/
  code_eq : d.code = code
  /-- It is an error. -/
  severity_eq : d.severity = .error
  /-- It points at the member. -/
  location_eq : d.location? = some m.location
  /-- Its wording names the member. -/
  names : d.Names m.name

/-- A cause whose wording begins with the name of the member is an error about the member. -/
theorem Cause.isErrorAbout_of_begins (cause : Cause) {m : Member}
    (hsevere : cause.severity = .error) (hbegins : m.name.toList <+: cause.message.toList) :
    (cause.diagnosticAt m.location).IsErrorAbout cause.code m :=
  ⟨rfl, hsevere, rfl, hbegins.isInfix⟩

/-- The annotation stands on what its kind may stand on. -/
def Occurrence.Fits (o : Occurrence) : Prop := o.annotation.kind.target = o.site.target

instance (o : Occurrence) : Decidable o.Fits := inferInstanceAs (Decidable (_ = _))

/-- Where a diagnostic about an annotation points: at the member or method that it stands on, and
at the attribute itself when that stands on the class or on the wrong thing. -/
def Occurrence.place (o : Occurrence) : Location :=
  match o.site with
  | .type => o.written.location
  | .member m => if o.Fits then m.location else o.written.location
  | .method m => if o.Fits then m.location else o.written.location

/-- The first rank that an annotation asks for; only a call can ask for one. -/
def Annotation.turn : Annotation → Int
  | .onReady order => order
  | .get _ | .find _ _ _ | .injectAncestor _ _ | .selectorEnum _ => 0

/-- The strategies that an annotation at a site of a class may be given. -/
inductive Context.Serves (x : Context) (owner : TypeDecl) : Site → Annotation → Strategy → Prop
  | getNode (m : Member) (options : FetchOptions) :
    x.Serves owner (.member m) (.get options) (.getNode (x.slot m options) options.property)
  | loadResource (m : Member) (options : FetchOptions) :
    x.Serves owner (.member m) (.get options)
      (.loadResource (x.slot m options) x.config.editorHint)
  | findNode (m : Member) (options : FetchOptions) (recursive owned : Bool) :
    x.Serves owner (.member m) (.find options recursive owned)
      (.findNode (x.slot m options) options.property recursive owned)
  | injectAncestor (m : Member) (type name : Option String) (ancestorName ancestorType : String)
      (source : Option String) :
    x.Serves owner (.member m) (.injectAncestor type name)
      (.injectAncestor m.name ancestorName ancestorType source)
  | callMethod (m : Method) (order : Int) :
    x.Serves owner (.method m) (.onReady order) (.callMethod m.name)
  | selectorEnum (name : String) :
    x.Serves owner .type (.selectorEnum (some name))
      (.selectorEnum owner.declaredName name (Context.listedFields owner))

namespace Context

variable {x : Context} {owner : TypeDecl}

/-- A judgement is right for an annotation: a request serves it at the rank it asks for; a
diagnostic points at it, and is an error unless the annotation stands on the wrong thing. -/
inductive Judged (x : Context) (owner : TypeDecl) (o : Occurrence) :
    Except Diagnostic Request → Prop
  | granted {request : Request} (serves : x.Serves owner o.site o.annotation request.strategy)
      (turn : request.order = o.annotation.turn) : x.Judged owner o (.ok request)
  | refused {d : Diagnostic} (place : d.location? = some o.place)
      (severity : d.isError = true ↔ o.Fits) : x.Judged owner o (.error d)

/-- An error at a member is right for an annotation that fits it. -/
theorem Judged.of_error {o : Occurrence} {cause : Cause} {l : Location} (hfits : o.Fits)
    (hplace : o.place = l) (hsevere : cause.severity = .error) :
    x.Judged owner o (.error (cause.diagnosticAt l)) := by
  have hsevere' : (cause.diagnosticAt l).isError = true := by
    rw [Diagnostic.isError, Cause.diagnosticAt, hsevere]
    rfl
  exact .refused (congrArg some hplace.symm) (iff_of_true hsevere' hfits)

/-- Requests for a node or resource are judged rightly. -/
theorem judged_get (m : Member) (written : Attribute) (options : FetchOptions) :
    x.Judged owner ⟨.member m, written, .get options⟩ (x.judgeGet owner m options) := by
  unfold judgeGet
  split
  · rename_i property hproperty
    exact .granted (hproperty ▸ .getNode m options) rfl
  · rename_i hproperty
    split
    · exact .granted (hproperty ▸ .getNode m options) rfl
    · exact .granted (.loadResource m options) rfl
    · exact .of_error rfl rfl rfl
    · exact .of_error rfl rfl rfl

/-- Requests for a node by its name are judged rightly. -/
theorem judged_find (m : Member) (written : Attribute) (options : FetchOptions)
    (recursive owned : Bool) :
    x.Judged owner ⟨.member m, written, .find options recursive owned⟩
      (x.judgeFind owner m options recursive owned) := by
  unfold judgeFind
  split
  · exact .of_error rfl rfl rfl
  · exact .granted (.findNode m options recursive owned) rfl

/-- Requests for a value from an ancestor are judged rightly. -/
theorem judged_inject (m : Member) (written : Attribute) (type name : Option String) :
    x.Judged owner ⟨.member m, written, .injectAncestor type name⟩
      (x.judgeInject m type name) := by
  unfold judgeInject
  dsimp only
  split
  · exact .of_error rfl rfl rfl
  · split
    · exact .granted (.injectAncestor m type name _ _ _) rfl
    · split
      · exact .of_error rfl rfl rfl
      · exact .granted (.injectAncestor m type name _ _ _) rfl
      · exact .of_error rfl rfl rfl

/-- Requests for a call are judged rightly. -/
theorem judged_call (m : Method) (written : Attribute) (order : Int) :
    x.Judged owner ⟨.method m, written, .onReady order⟩ (judgeCall m order) := by
  unfold judgeCall
  split
  · exact .granted (.callMethod m order) rfl
  · exact .of_error rfl rfl rfl

/-- Requests for an enumeration are judged rightly. -/
theorem judged_enum (written : Attribute) (name : Option String) :
    x.Judged owner ⟨.type, written, .selectorEnum name⟩
      (judgeEnum owner name written.location) := by
  unfold judgeEnum
  split
  · exact .of_error rfl rfl rfl
  · split
    · exact .granted (.selectorEnum _) rfl
    · exact .of_error rfl rfl rfl

/-- An annotation on the wrong thing is answered with a warning that points at the annotation. -/
theorem judge_misplaced {o : Occurrence} (h : ¬o.Fits) :
    x.judge owner o =
      .error ((Cause.misplaced o.annotation.kind o.site.target (o.site.name owner)).diagnosticAt
        o.written.location) := by
  obtain ⟨site, written, annotation⟩ := o
  cases site <;> cases annotation <;> first | rfl | exact absurd rfl h

/-- An annotation on the wrong thing is itself the place of the trouble. -/
theorem place_of_misplaced {o : Occurrence} (h : ¬o.Fits) : o.place = o.written.location := by
  unfold Occurrence.place
  split
  · rfl
  · exact if_neg h
  · exact if_neg h

/-- Every annotation is judged rightly. -/
theorem judged (x : Context) (owner : TypeDecl) (o : Occurrence) :
    x.Judged owner o (x.judge owner o) := by
  by_cases hfits : o.Fits
  · obtain ⟨site, written, annotation⟩ := o
    cases site with
    | type =>
      cases annotation with
      | selectorEnum name => exact judged_enum written name
      | get _ | find _ _ _ | injectAncestor _ _ | onReady _ => cases hfits
    | member m =>
      cases annotation with
      | get options => exact judged_get m written options
      | find options recursive owned => exact judged_find m written options recursive owned
      | injectAncestor type name => exact judged_inject m written type name
      | onReady _ | selectorEnum _ => cases hfits
    | method m =>
      cases annotation with
      | onReady order => exact judged_call m written order
      | get _ | find _ _ _ | injectAncestor _ _ | selectorEnum _ => cases hfits
  · rw [judge_misplaced hfits]
    have hplace := place_of_misplaced hfits
    refine .refused (congrArg some hplace.symm) (iff_of_false ?_ hfits)
    intro hsevere
    cases hsevere

/-- A strategy serves only annotations that stand on the right thing. -/
theorem Serves.fits {o : Occurrence} {s : Strategy}
    (h : x.Serves owner o.site o.annotation s) : o.Fits := by
  obtain ⟨site, written, annotation⟩ := o
  cases h <;> rfl

end Context

namespace Resolution

variable {x : Context} {owner : TypeDecl} {o : Occurrence}

/-- What the judgement refuses is reported. -/
theorem step_of_error {d : Diagnostic} (r : Resolution) (hjudge : x.judge owner o = .error d) :
    r.step x owner o = r.report d := by
  rw [step, hjudge]

/-- A request with a clash is reported. -/
theorem step_of_clash {r : Resolution} {request : Request} {d : Diagnostic}
    (hjudge : x.judge owner o = .ok request) (hclash : r.clash? o.site request = some d) :
    r.step x owner o = r.report d := by
  rw [step, hjudge]
  dsimp only
  rw [hclash]

/-- A request without a clash becomes an addition. -/
theorem step_of_no_clash {r : Resolution} {request : Request}
    (hjudge : x.judge owner o = .ok request) (hclash : r.clash? o.site request = none) :
    r.step x owner o = r.push (x.compilation.position owner) request := by
  rw [step, hjudge]
  dsimp only
  rw [hclash]

end Resolution

end SceneWiring
