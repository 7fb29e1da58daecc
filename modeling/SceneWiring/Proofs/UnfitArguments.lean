import Mathlib.Logic.Relation
import SceneWiring.Annotation
/-!
# Arguments that do not fit

Every annotation has slots for its arguments: some for positional arguments, some for named ones, and
each takes values of one type. An argument does not fit when it stands in no slot or is not of the type
that its slot takes. Main statement: replacing arguments that do not fit by others that do not fit, one
after the other, never changes what an attribute says; and the default of an annotation that fetches a
value is the text under `Default`, or else the last positional text, unless it is empty.
-/

namespace SceneWiring

/-! ## Slots -/

/-- What a slot takes. -/
inductive ArgumentType where
  | text
  | bool
  /-- An integer of 32 bits. -/
  | integer
  /-- The name of a type. -/
  | type
deriving DecidableEq, Repr

/-- A slot of the type takes the value. -/
def ArgumentType.takes : ArgumentType → Constant → Bool
  | .text, .text _ | .bool, .bool _ | .type, .type _ => true
  | .integer, .int value => -Int.pow 2 31 ≤ value ∧ value < Int.pow 2 31
  | _, _ => false

namespace AnnotationKind

/-- What the positional slot at an index takes, if there is one. A text is taken at any index. -/
def positionalSlot? : AnnotationKind → Nat → Option ArgumentType
  | .get, _ | .find, _ | .selectorEnum, _ => some .text
  | .injectAncestor, 0 => some .type
  | .injectAncestor, 1 => some .text
  | .injectAncestor, _ | .onReady, _ => none

/-- The named slots of the annotations that fetch a value. -/
def fetchSlots : List (String × ArgumentType) :=
  [("Default", .text), ("OrNull", .bool), ("Private", .bool), ("Property", .text)]

/-- The named slots of a kind. -/
def namedSlots : AnnotationKind → List (String × ArgumentType)
  | .get => fetchSlots
  | .find => fetchSlots ++ [("Recursive", .bool), ("Owned", .bool)]
  | .onReady => [("Order", .integer)]
  | .injectAncestor | .selectorEnum => []

/-- What the slot of a name takes, if there is one. -/
def namedSlot? (kind : AnnotationKind) (key : String) : Option ArgumentType :=
  kind.namedSlots.lookup key

end AnnotationKind

/-- There is no slot for the value, or the slot does not take it. -/
def Constant.Unfit (c : Constant) (slot? : Option ArgumentType) : Prop :=
  ∀ expected ∈ slot?, expected.takes c = false

instance (c : Constant) (slot? : Option ArgumentType) : Decidable (c.Unfit slot?) :=
  inferInstanceAs (Decidable (∀ expected ∈ slot?, expected.takes c = false))

/-- The second attribute is the first with one argument replaced, positional or named, that does not
fit before and after. -/
inductive Attribute.Replaced (kind : AnnotationKind) : Attribute → Attribute → Prop
  | positional {a : Attribute} {front back : List Constant} {old new : Constant}
    (args : a.args = front ++ old :: back)
    (unfit : old.Unfit (kind.positionalSlot? front.length))
    (unfit' : new.Unfit (kind.positionalSlot? front.length)) :
    Replaced kind a { a with args := front ++ new :: back }
  | named {a : Attribute} {front back : List (String × Constant)} {key : String}
    {old new : Constant} (named : a.named = front ++ (key, old) :: back)
    (unfit : old.Unfit (kind.namedSlot? key)) (unfit' : new.Unfit (kind.namedSlot? key)) :
    Replaced kind a { a with named := front ++ (key, new) :: back }

/-! ## What is read of a value that does not fit -/

namespace Constant

variable {c : Constant}

/-- No text is read of a value that a slot for texts does not take. -/
theorem text?_eq_none (h : ArgumentType.text.takes c = false) : c.text? = none := by
  cases c with
  | text => cases h
  | bool | int | type | other => rfl

/-- A text is read of a constant that is one, and of no other. -/
theorem text?_eq_some_iff {text : String} : c.text? = some text ↔ c = .text text := by
  cases c with
  | text value => rw [text?, Option.some_inj, Constant.text.injEq]
  | bool | int | type | other => exact iff_of_false nofun nofun

/-- Nothing is read as a text of a constant that is none. -/
theorem text?_eq_none_iff : c.text? = none ↔ ∀ text, c ≠ .text text := by
  rw [Option.eq_none_iff_forall_ne_some]
  exact forall_congr' fun text => not_congr text?_eq_some_iff

/-- No truth value is read of a value that a slot for truth values does not take. -/
theorem bool?_eq_none (h : ArgumentType.bool.takes c = false) : c.bool? = none := by
  cases c with
  | bool => cases h
  | text | int | type | other => rfl

/-- No type is read of a value that a slot for types does not take. -/
theorem type?_eq_none (h : ArgumentType.type.takes c = false) : c.type? = none := by
  cases c with
  | type => cases h
  | text | bool | int | other => rfl

/-- The integer of 32 bits, if the value is one. -/
def turn? (c : Constant) : Option Int :=
  c.int?.filter fun value => -Int.pow 2 31 ≤ value ∧ value < Int.pow 2 31

/-- No integer of 32 bits is read of a value that a slot for these does not take. -/
theorem turn?_eq_none (h : ArgumentType.integer.takes c = false) : c.turn? = none := by
  cases c with
  | int value => exact if_neg (ne_true_of_eq_false h)
  | text | bool | type | other => rfl

end Constant

namespace Attribute

/-- The turn of a method is the integer of 32 bits under `Order`, else zero. -/
theorem order_eq (a : Attribute) : a.order = ((a.named? "Order").bind Constant.turn?).getD 0 := by
  unfold order
  cases a.named? "Order" with
  | none => rfl
  | some c =>
    cases c with
    | int value =>
      dsimp only [Option.bind_some, Constant.int?, Constant.turn?]
      rw [Option.filter_some]
      by_cases hrange : -Int.pow 2 31 ≤ value ∧ value < Int.pow 2 31
      · rw [if_pos hrange, if_pos (decide_eq_true hrange)]
        rfl
      · rw [if_neg hrange, if_neg (mt of_decide_eq_true hrange)]
        rfl
    | text | bool | type | other => rfl

/-! ## What is read of the arguments -/

section

variable {α β : Type} {front back : List α} {old new : α}

/-- What is read of the values of a list does not change with a value of which nothing is read. -/
theorem filterMap_replaced {f : α → Option β} (hold : f old = none) (hnew : f new = none) :
    (front ++ new :: back).filterMap f = (front ++ old :: back).filterMap f := by
  rw [List.filterMap_append, List.filterMap_append, List.filterMap_cons_none hold,
    List.filterMap_cons_none hnew]

/-- What is read of the value at an index does not change when the same is read of the value that is
replaced there. -/
theorem bind_getElem?_replaced {f : α → Option β} {i : Nat}
    (h : i = front.length → f new = f old) :
    ((front ++ new :: back)[i]?).bind f = ((front ++ old :: back)[i]?).bind f := by
  rcases Nat.lt_trichotomy i front.length with hlt | heq | hgt
  · rw [List.getElem?_append_left hlt, List.getElem?_append_left hlt]
  · have hsame := h heq
    subst heq
    simpa using hsame
  · obtain ⟨k, hk⟩ := Nat.exists_eq_add_of_lt hgt
    have hindex : i - front.length = k + 1 := by omega
    rw [List.getElem?_append_right (Nat.le_of_lt hgt),
      List.getElem?_append_right (Nat.le_of_lt hgt), hindex, List.getElem?_cons_succ,
      List.getElem?_cons_succ]

/-- What is read of the value under a key does not change when the same is read of the value that is
replaced under it. -/
theorem bind_lookup_replaced {front back : List (String × α)} {f : α → Option β}
    {key key' : String} (h : key' = key → f new = f old) :
    ((front ++ (key, new) :: back).lookup key').bind f =
      ((front ++ (key, old) :: back).lookup key').bind f := by
  rw [List.lookup_append, List.lookup_append, List.lookup_cons, List.lookup_cons]
  cases front.lookup key' with
  | some value => rfl
  | none =>
    rw [Option.none_or, Option.none_or]
    by_cases hkey : key' = key
    · rw [beq_iff_eq.2 hkey]
      exact h hkey
    · rw [beq_eq_false_iff_ne.2 hkey]

end

variable {a b : Attribute} {kind : AnnotationKind} {β : Type}

/-- What is read of a named argument does not change when arguments that do not fit are replaced,
provided that nothing is read of a value that the slot does not take. -/
theorem Replaced.bind_named? (h : Replaced kind a b) {key : String} {expected : ArgumentType}
    (hslot : kind.namedSlot? key = some expected) {f : Constant → Option β}
    (hread : ∀ c, expected.takes c = false → f c = none) :
    (b.named? key).bind f = (a.named? key).bind f := by
  cases h with
  | positional args unfit unfit' => rfl
  | @named front back key' old new named unfit unfit' =>
    rw [named?, named?, named]
    refine bind_lookup_replaced fun hkey => ?_
    rw [← hkey] at unfit unfit'
    rw [hread new (unfit' expected hslot), hread old (unfit expected hslot)]

/-- So it is for the positional argument at an index. -/
theorem Replaced.bind_getElem? (h : Replaced kind a b) {i : Nat} {expected : ArgumentType}
    (hslot : kind.positionalSlot? i = some expected) {f : Constant → Option β}
    (hread : ∀ c, expected.takes c = false → f c = none) :
    (b.args[i]?).bind f = (a.args[i]?).bind f := by
  cases h with
  | named named unfit unfit' => rfl
  | @positional front back old new args unfit unfit' =>
    rw [args]
    refine bind_getElem?_replaced fun hindex => ?_
    rw [← hindex] at unfit unfit'
    rw [hread new (unfit' expected hslot), hread old (unfit expected hslot)]

/-- So it is for the last text, where a text is taken at any index. -/
theorem Replaced.lastText?_eq (h : Replaced kind a b)
    (hslot : ∀ i, kind.positionalSlot? i = some .text) : b.lastText? = a.lastText? := by
  cases h with
  | named named unfit unfit' => rfl
  | positional args unfit unfit' =>
    have hold := Constant.text?_eq_none (unfit .text (hslot _))
    have hnew := Constant.text?_eq_none (unfit' .text (hslot _))
    rw [lastText?, lastText?, args, filterMap_replaced hold hnew]

/-- So it is for the options of an annotation that fetches a value. -/
theorem Replaced.fetchOptions_eq (h : Replaced kind a b)
    (hpositional : ∀ i, kind.positionalSlot? i = some .text)
    (hnamed : ∀ slot ∈ AnnotationKind.fetchSlots, kind.namedSlot? slot.1 = some slot.2) :
    b.fetchOptions = a.fetchOptions := by
  have hlast := h.lastText?_eq hpositional
  have hdefault : b.namedText? "Default" = a.namedText? "Default" :=
    h.bind_named? (hnamed ("Default", .text) (by decide)) fun _ => Constant.text?_eq_none
  have horNull : b.namedBool? "OrNull" = a.namedBool? "OrNull" :=
    h.bind_named? (hnamed ("OrNull", .bool) (by decide)) fun _ => Constant.bool?_eq_none
  have hprivate : b.namedBool? "Private" = a.namedBool? "Private" :=
    h.bind_named? (hnamed ("Private", .bool) (by decide)) fun _ => Constant.bool?_eq_none
  have hproperty : b.namedText? "Property" = a.namedText? "Property" :=
    h.bind_named? (hnamed ("Property", .text) (by decide)) fun _ => Constant.text?_eq_none
  rw [b.fetchOptions_eq, a.fetchOptions_eq, hlast, hdefault, horNull, hprivate, hproperty]

/-- An annotation says the same when an argument that does not fit is replaced by another such. -/
theorem Replaced.readAs_eq (h : Replaced kind a b) : b.readAs kind = a.readAs kind := by
  cases kind with
  | get =>
    have hoptions := h.fetchOptions_eq (fun _ => rfl) (by decide)
    rw [readAs, readAs, hoptions]
  | find =>
    have hoptions := h.fetchOptions_eq (fun _ => rfl) (by decide)
    have hslots : AnnotationKind.find.namedSlot? "Recursive" = some .bool ∧
        AnnotationKind.find.namedSlot? "Owned" = some .bool := by decide
    have hrecursive : b.namedBool? "Recursive" = a.namedBool? "Recursive" :=
      h.bind_named? hslots.1 fun _ => Constant.bool?_eq_none
    have howned : b.namedBool? "Owned" = a.namedBool? "Owned" :=
      h.bind_named? hslots.2 fun _ => Constant.bool?_eq_none
    rw [readAs, readAs, hoptions, hrecursive, howned]
  | injectAncestor =>
    have htype : (b.args[0]?).bind Constant.type? = (a.args[0]?).bind Constant.type? :=
      h.bind_getElem? rfl fun _ => Constant.type?_eq_none
    have hname : (b.args[1]?).bind Constant.text? = (a.args[1]?).bind Constant.text? :=
      h.bind_getElem? rfl fun _ => Constant.text?_eq_none
    rw [readAs, readAs, htype, hname]
  | onReady =>
    have hslot : AnnotationKind.onReady.namedSlot? "Order" = some .integer := by decide
    have horder : (b.named? "Order").bind Constant.turn? =
        (a.named? "Order").bind Constant.turn? :=
      h.bind_named? hslot fun _ => Constant.turn?_eq_none
    rw [readAs, readAs, order_eq, order_eq, horder]
  | selectorEnum =>
    have hlast := h.lastText?_eq fun _ => rfl
    rw [readAs, readAs, hlast]

/-- Replacing an argument does not change the name of the attribute. -/
theorem Replaced.name_eq (h : Replaced kind a b) : b.name = a.name := by
  cases h <;> rfl

/-- The name stays the same through any number of replacements. -/
theorem name_eq_of_replaced (h : Relation.ReflTransGen (Replaced kind) a b) : b.name = a.name := by
  induction h with
  | refl => rfl
  | tail _ hstep ih => rw [hstep.name_eq, ih]

/-- What an annotation says stays the same through any number of replacements. -/
theorem readAs_eq_of_replaced (h : Relation.ReflTransGen (Replaced kind) a b) :
    b.readAs kind = a.readAs kind := by
  induction h with
  | refl => rfl
  | tail _ hstep ih => rw [hstep.readAs_eq, ih]

/-! ## The default of a fetching annotation -/

/-- The text is chosen as the default: it stands under `Default`, or no text does and it is the last
text among the positional arguments. -/
def ChosenDefault (a : Attribute) (text : String) : Prop :=
  a.named? "Default" = some (.text text) ∨
    (∀ other, a.named? "Default" ≠ some (.text other)) ∧
      ∃ front back, a.args = front ++ .text text :: back ∧ ∀ other, Constant.text other ∉ back

/-- The last text of the positional arguments has no text behind it. -/
theorem lastText?_eq_some_iff {text : String} :
    a.lastText? = some text ↔
      ∃ front back, a.args = front ++ .text text :: back ∧
        ∀ other, Constant.text other ∉ back := by
  have hnone (back : List Constant) :
      (∀ c ∈ back.reverse, c.text? = none) ↔ ∀ other, Constant.text other ∉ back := by
    simp only [List.mem_reverse, Constant.text?_eq_none_iff]
    constructor
    · intro h other hmem
      exact h _ hmem other rfl
    · intro h c hc other heq
      exact h other (heq ▸ hc)
  rw [lastText?, List.getLast?_filterMap, List.findSome?_eq_some_iff]
  constructor
  · rintro ⟨back, c, front, hargs, hc, hback⟩
    have hsplit : a.args = front.reverse ++ c :: back.reverse := by
      have hreverse := congrArg List.reverse hargs
      simpa using hreverse
    rw [Constant.text?_eq_some_iff.1 hc] at hsplit
    refine ⟨front.reverse, back.reverse, hsplit, (hnone _).1 ?_⟩
    rwa [List.reverse_reverse]
  · rintro ⟨front, back, hargs, hback⟩
    refine ⟨back.reverse, .text text, front.reverse, ?_, rfl, (hnone back).2 hback⟩
    rw [hargs]
    simp

/-- The text under a key is the named argument, if it is a text. -/
theorem namedText?_eq_some_iff {key text : String} :
    a.namedText? key = some text ↔ a.named? key = some (.text text) := by
  rw [namedText?, Option.bind_eq_some_iff]
  constructor
  · rintro ⟨c, hc, htext⟩
    rwa [Constant.text?_eq_some_iff.1 htext] at hc
  · intro h
    exact ⟨.text text, h, rfl⟩

/-- A text counts unless it is empty. -/
theorem nonEmpty_eq_some_iff {given text : String} :
    nonEmpty given = some text ↔ given = text ∧ text ≠ "" := by
  unfold nonEmpty
  split
  · rename_i hempty
    refine iff_of_false nofun ?_
    rintro ⟨rfl, hne⟩
    exact hne hempty
  · rename_i hne
    rw [Option.some_inj]
    constructor
    · rintro rfl
      exact ⟨rfl, hne⟩
    · intro h
      exact h.1

/-- The default is the text that is chosen, unless it is empty. -/
theorem fallback_fetchOptions_eq_some_iff {text : String} :
    a.fetchOptions.fallback = some text ↔ a.ChosenDefault text ∧ text ≠ "" := by
  have hnone : a.namedText? "Default" = none ↔
      ∀ other, a.named? "Default" ≠ some (.text other) := by
    rw [Option.eq_none_iff_forall_ne_some]
    exact forall_congr' fun other => not_congr namedText?_eq_some_iff
  have hchosen : (a.namedText? "Default").or a.lastText? = some text ↔ a.ChosenDefault text := by
    rw [Option.or_eq_some_iff, namedText?_eq_some_iff, hnone, lastText?_eq_some_iff]
    rfl
  have hfallback : a.fetchOptions.fallback =
      ((a.namedText? "Default").or a.lastText?).bind nonEmpty := by
    rw [fetchOptions_eq]
  rw [hfallback, Option.bind_eq_some_iff, ← hchosen]
  constructor
  · rintro ⟨given, hgiven, hkept⟩
    obtain ⟨rfl, hne⟩ := nonEmpty_eq_some_iff.1 hkept
    exact ⟨hgiven, hne⟩
  · rintro ⟨hgiven, hne⟩
    exact ⟨text, hgiven, nonEmpty_eq_some_iff.2 ⟨rfl, hne⟩⟩

end Attribute

/-- An annotation says the same when arguments that do not fit are replaced by others that do not fit,
any number of times. The default of an annotation that fetches a value is the text under `Default` or,
if there is none, the last text among the positional arguments; there is no default when that text is
empty. -/
theorem unfit_arguments_are_inert {a b : Attribute} {kind : AnnotationKind}
    (hkind : AnnotationKind.ofAttributeName a.name = some kind)
    (h : Relation.ReflTransGen (Attribute.Replaced kind) a b) :
    ∃ said : Annotation, said.kind = kind ∧ a.annotation? = some said ∧ b.annotation? = some said ∧
      ∀ options, (said = .get options ∨ ∃ recursive owned, said = .find options recursive owned) →
        ∀ text, options.fallback = some text ↔ a.ChosenDefault text ∧ text ≠ "" := by
  have hname : b.name = a.name := Attribute.name_eq_of_replaced h
  have hsame : b.readAs kind = a.readAs kind := Attribute.readAs_eq_of_replaced h
  refine ⟨a.readAs kind, kind_readAs a kind, ?_, ?_, ?_⟩
  · rw [Attribute.annotation?, hkind, Option.map_some]
  · rw [Attribute.annotation?, hname, hkind, Option.map_some, hsame]
  · intro options hfetches text
    have hoptions : options = a.fetchOptions := by
      rcases hfetches with hget | ⟨recursive, owned, hfind⟩
      · cases kind with
        | get =>
          cases hget
          rfl
        | find | injectAncestor | onReady | selectorEnum => cases hget
      · cases kind with
        | find =>
          cases hfind
          rfl
        | get | injectAncestor | onReady | selectorEnum => cases hfind
    rw [hoptions]
    exact Attribute.fallback_fetchOptions_eq_some_iff

/-- An attribute that finds nodes by a mask, with arguments that do not fit before and behind it. -/
def findEnemies : Attribute where
  name := "OnReadyFind"
  args := [.int 3, .text "Enemy*", .other]
  named := [("Default", .bool true), ("Owned", .bool false), ("Speed", .int 4)]

/-- The same with other arguments that do not fit. -/
def findEnemiesGarbled : Attribute where
  name := "OnReadyFind"
  args := [.int 3, .text "Enemy*", .type "Game.Enemy"]
  named := [("Default", .int 7), ("Owned", .bool false), ("Speed", .text "fast")]

/-- With a positional argument, the value under `Default` and an unknown argument replaced, the
attribute finds the same nodes. -/
theorem enemies_found_alike :
    AnnotationKind.ofAttributeName findEnemies.name = some .find ∧
      Relation.ReflTransGen (Attribute.Replaced .find) findEnemies findEnemiesGarbled ∧
      ∃ options, findEnemiesGarbled.annotation? = some (.find options true false) ∧
        findEnemies.annotation? = some (.find options true false) ∧
        options.fallback = some "Enemy*" ∧ findEnemies.ChosenDefault "Enemy*" := by
  have hkind : AnnotationKind.ofAttributeName findEnemies.name = some .find := by decide
  have hargument := @Attribute.Replaced.positional .find findEnemies [.int 3, .text "Enemy*"] []
    .other (.type "Game.Enemy") rfl (by decide) (by decide)
  have hdefault := @Attribute.Replaced.named .find
    { findEnemies with args := [.int 3, .text "Enemy*", .type "Game.Enemy"] } []
    [("Owned", .bool false), ("Speed", .int 4)] "Default" (.bool true) (.int 7) rfl (by decide)
    (by decide)
  have hunknown := @Attribute.Replaced.named .find
    { findEnemies with
      args := [.int 3, .text "Enemy*", .type "Game.Enemy"]
      named := [("Default", .int 7), ("Owned", .bool false), ("Speed", .int 4)] }
    [("Default", .int 7), ("Owned", .bool false)] [] "Speed" (.int 4) (.text "fast") rfl
    (by decide) (by decide)
  have hreplaced : Relation.ReflTransGen (Attribute.Replaced .find) findEnemies
      findEnemiesGarbled :=
    ((Relation.ReflTransGen.single hargument).tail hdefault).tail hunknown
  obtain ⟨said, -, hsaid, hgarbled, hfallback⟩ := unfit_arguments_are_inert hkind hreplaced
  have hread : findEnemies.annotation? =
      some (.find { fallback := some "Enemy*" } true false) := by decide
  obtain rfl : .find { fallback := some "Enemy*" } true false = said :=
    Option.some.inj (hread.symm.trans hsaid)
  have hchosen := (hfallback _ (.inr ⟨true, false, rfl⟩) "Enemy*").1 rfl
  exact ⟨hkind, hreplaced, _, hgarbled, hsaid, rfl, hchosen.1⟩

end SceneWiring
