import RoutingPlan.Definition.Json
import RoutingPlan.Proofs.Json.Printing

-- The many spellings of a definition. A field stands under any of its names and anywhere in its
-- object, an absent field is left out or null, and members of other names are passed over; but no
-- field is given twice, and the step never goes without saying.

namespace RoutingPlan.Definition

open Json (Tree)

namespace Field

variable {name : String} {f : Field}

-- No name is one of two fields.
theorem ofName?_eq_some : ofName? name = some f ↔ name ∈ f.names where
  mp h := by simpa using List.find?_some h
  mpr h := by
    cases f with
    | step | routeKey | children =>
      simp only [names, List.mem_cons, List.not_mem_nil, or_false] at h
      rcases h with rfl | rfl | rfl | rfl <;> decide

theorem ofName?_eq_none (h : ∀ f : Field, name ∉ f.names) : ofName? name = none :=
  Option.eq_none_iff_forall_ne_some.mpr fun f eq => h f (ofName?_eq_some.mp eq)

end Field

-- The fields that the members of an object name, one for each member that names one.
def fieldsNamed (ms : List (Option String × Tree)) : List Field :=
  ms.filterMap fun m => m.1.bind Field.ofName?

theorem fieldsNamed_cons (m : Option String × Tree) (ms : List (Option String × Tree)) :
    fieldsNamed (m :: ms) = (m.1.bind Field.ofName?).toList ++ fieldsNamed ms := by
  rw [fieldsNamed, List.filterMap_cons]
  cases m.1.bind Field.ofName? <;> rfl

-- A member under a name of no field.
def IsExtra (m : Option String × Tree) : Prop :=
  ∃ name, m.1 = some name ∧ ∀ f : Field, name ∉ f.names

inductive SpellsRoute : List (Option String × Tree) → Option String → Prop
  | absent : SpellsRoute [] none
  | null {name} : name ∈ Field.routeKey.names → SpellsRoute [(some name, .null)] none
  | given {name r} : name ∈ Field.routeKey.names →
    SpellsRoute [(some name, .string (some r))] (some r)

mutual

inductive Spells : Tree → Definition → Prop
  | mk {name s rs r cs ds extra ms} : name ∈ Field.step.names → SpellsRoute rs r →
    SpellsChildren cs ds → (∀ m ∈ extra, IsExtra m) →
    ms.Perm ((some name, .string (some s)) :: (rs ++ (cs ++ extra))) →
    Spells (.object ms) (mk s r ds)

inductive SpellsChildren : List (Option String × Tree) → Option (List Definition) → Prop
  | absent : SpellsChildren [] none
  | null {name} : name ∈ Field.children.names → SpellsChildren [(some name, .null)] none
  | given {name ts ds} : name ∈ Field.children.names → SpellsAll ts ds →
    SpellsChildren [(some name, .array ts)] (some ds)

inductive SpellsAll : List Tree → List Definition → Prop
  | nil : SpellsAll [] []
  | cons {t d ts ds} : Spells t d → SpellsAll ts ds → SpellsAll (t :: ts) (d :: ds)

end

-- The nodes that are reached through lists of children, in objects and in arrays.
inductive Node : Tree → Tree → Prop
  | root {t} : Node t t
  | member {ms name ts t node} : (some name, .array ts) ∈ ms → name ∈ Field.children.names →
    t ∈ ts → Node t node → Node (.object ms) node
  | element {s r ts rest t node} : t ∈ ts → Node t node →
    Node (.array (s :: r :: .array ts :: rest)) node

-- A node that gives a field twice, or no step, or one that is not a string.
def IsFaulty : Tree → Prop
  | .object ms =>
    ¬(fieldsNamed ms).Nodup ∨ .step ∉ fieldsNamed ms ∨
      ∃ name t, (some name, t) ∈ ms ∧ name ∈ Field.step.names ∧ t.string? = none
  | .array ts => ts.head?.bind Tree.string? = none
  | _ => True

-- What a field holds.
@[reducible]
def Content : Field → Type
  | .step     => String
  | .routeKey => Option String
  | .children => Option (List Definition)

def content? : (f : Field) → Tree → Option (Content f)
  | .step     => Tree.string?
  | .routeKey => optionalText?
  | .children => childrenOf?

namespace Draft

variable {d d' : Draft} {m : Option String × Tree}

def Has (d : Draft) : Field → Prop
  | .step     => d.step.isSome
  | .routeKey => d.routeKey.isSome
  | .children => d.children.isSome

def put? (d : Draft) : (f : Field) → Content f → Option Draft
  | .step     => d.setStep
  | .routeKey => d.setRouteKey
  | .children => d.setChildren

theorem put?_comm {f f' : Field} (c : Content f) (c' : Content f') :
    (d.put? f c).bind (put? · f' c') = (d.put? f' c').bind (put? · f c) := by
  cases f <;> cases f' <;> simp only [put?, setStep, setRouteKey, setChildren] <;>
    split <;> simp_all <;> split <;> simp_all

-- What one member adds.
def take? (d : Draft) : Option String × Tree → Option Draft
  | (none, _) => none
  | (some name, t) =>
    match Field.ofName? name with
    | none   => some d
    | some f => (content? f t).bind (d.put? f)

theorem take?_of_isExtra (h : IsExtra m) : d.take? m = some d := by
  have ⟨name, eq, other⟩ := h
  cases m with
  | mk k t =>
    subst eq
    simp [take?, Field.ofName?_eq_none other]

-- Two members can change places: they fill different fields, or the second of them fails.
theorem take?_comm (m m' : Option String × Tree) :
    (d.take? m).bind (take? · m') = (d.take? m').bind (take? · m) := by
  have ⟨k, t⟩ := m
  have ⟨k', t'⟩ := m'
  cases k with
  | none => cases d.take? (k', t') <;> rfl
  | some name =>
    cases k' with
    | none => cases d.take? (some name, t) <;> rfl
    | some name' =>
      simp only [take?]
      cases Field.ofName? name with
      | none   => simp
      | some f =>
        cases Field.ofName? name' with
        | none    => simp
        | some f' =>
          dsimp only
          generalize content? f t = c, content? f' t' = c'
          cases c <;> cases c' <;> simp [put?_comm]

-- A field is filled once.
theorem has_of_put? {f : Field} {c : Content f} (h : d.put? f c = some d') :
    ¬d.Has f ∧ ∀ g, d'.Has g ↔ d.Has g ∨ f = g := by
  cases f with
  | step | routeKey | children =>
    simp only [put?, setStep, setRouteKey, setChildren, Option.ite_none_right_eq_some,
      Option.some.injEq] at h
    have ⟨missing, eq⟩ := h
    subst eq
    refine ⟨by simpa [Has] using missing, fun g => ?_⟩
    cases g <;> simp_all [Has]

theorem has_of_take? (h : d.take? m = some d') :
    (∀ f, m.1.bind Field.ofName? = some f → ¬d.Has f) ∧
      ∀ f, d'.Has f ↔ d.Has f ∨ m.1.bind Field.ofName? = some f := by
  have ⟨k, t⟩ := m
  cases k with
  | none      => exact nomatch h
  | some name =>
    simp only [take?] at h
    simp only [Option.bind_some]
    cases field : Field.ofName? name with
    | none =>
      rw [field] at h
      cases h
      simp
    | some f =>
      rw [field] at h
      have ⟨c, _, put⟩ := Option.bind_eq_some_iff.mp h
      have ⟨missing, has⟩ := has_of_put? put
      simp [missing, has]

end Draft

section Members

variable {d d' : Draft} {m : Option String × Tree} {ms ms' : List (Option String × Tree)}

theorem ofMembers?_cons (d : Draft) (m : Option String × Tree) (ms : List (Option String × Tree)) :
    ofMembers? d (m :: ms) = (d.take? m).bind (ofMembers? · ms) := by
  have ⟨k, t⟩ := m
  cases k with
  | none      => rfl
  | some name =>
    rw [ofMembers?, Draft.take?]
    cases Field.ofName? name with
    | none   => rfl
    | some f =>
      cases f with
      | step     => cases eq : t.string?.bind d.setStep <;> simp [content?, Draft.put?, eq]
      | routeKey =>
        cases eq : (optionalText? t).bind d.setRouteKey <;> simp [content?, Draft.put?, eq]
      | children =>
        cases eq : (childrenOf? t).bind d.setChildren <;> simp [content?, Draft.put?, eq]

theorem ofMembers?_append (d : Draft) (ms ms' : List (Option String × Tree)) :
    ofMembers? d (ms ++ ms') = (ofMembers? d ms).bind (ofMembers? · ms') := by
  induction ms generalizing d with
  | nil => rfl
  | cons m ms ih => simp [ofMembers?_cons, Option.bind_assoc, ih]

theorem ofMembers?_eq_of_perm (h : ms.Perm ms') : ofMembers? d ms = ofMembers? d ms' := by
  induction h generalizing d with
  | nil               => rfl
  | cons m _ ih       => simp [ofMembers?_cons, ih]
  | swap m m' ms      => simp only [ofMembers?_cons, ← Option.bind_assoc, Draft.take?_comm m m']
  | trans _ _ ih₁ ih₂ => rw [ih₁, ih₂]

theorem ofMembers?_of_isExtra (h : ∀ m ∈ ms, IsExtra m) : ofMembers? d ms = some d := by
  induction ms with
  | nil          => rfl
  | cons m ms ih =>
    rw [ofMembers?_cons, Draft.take?_of_isExtra <| h m List.mem_cons_self, Option.bind_some]
    exact ih fun m mem => h m <| List.mem_cons_of_mem _ mem

theorem ofMembers?_eq_none_of_mem (mem : m ∈ ms) (bad : ∀ d : Draft, d.take? m = none) :
    ofMembers? d ms = none := by
  have ⟨before, after, eq⟩ := List.append_of_mem mem
  subst eq
  rw [ofMembers?_append]
  cases ofMembers? d before with
  | none   => rfl
  | some d => rw [Option.bind_some, ofMembers?_cons, bad, Option.bind_none]

-- What has been read names no field twice, and the fields that it names are those that are filled.
theorem has_of_ofMembers? (h : ofMembers? d ms = some d') :
    (fieldsNamed ms).Nodup ∧ (∀ f ∈ fieldsNamed ms, ¬d.Has f) ∧
      ∀ f, d'.Has f ↔ d.Has f ∨ f ∈ fieldsNamed ms := by
  induction ms generalizing d with
  | nil =>
    cases h
    simp [fieldsNamed]
  | cons m ms ih =>
    rw [ofMembers?_cons] at h
    have ⟨d₁, take, rest⟩ := Option.bind_eq_some_iff.mp h
    have ⟨missing, has⟩ := Draft.has_of_take? take
    have ⟨nodup, missing', has'⟩ := ih rest
    rw [fieldsNamed_cons]
    cases field : m.1.bind Field.ofName? <;> grind

end Members

theorem ofElements?_eq_none {ts : List Tree} (h : ts.head?.bind Tree.string? = none) :
    ofElements? ts = none := by
  fun_cases ofElements? ts <;> simp_all

theorem ofTree?_of_isFaulty {t : Tree} (h : IsFaulty t) : ofTree? t = none := by
  cases t with
  | null | bool | number | string => rfl
  | array ts => exact ofElements?_eq_none h
  | object ms =>
    refine Option.bind_eq_none_iff.mpr fun d read => ?_
    have ⟨nodup, _, has⟩ := has_of_ofMembers? read
    rcases h with twice | stepless | ⟨name, t, mem, step, other⟩
    case inl => exact absurd nodup twice
    case inr.inl =>
      have := (has .step).not.mpr (by simpa [Draft.Has] using stepless)
      simpa [Draft.finish, Draft.Has] using this
    case inr.inr =>
      have bad (d : Draft) : d.take? (some name, t) = none := by
        simp [Draft.take?, Field.ofName?_eq_some.mpr step, content?, other]
      exact nomatch (ofMembers?_eq_none_of_mem mem bad).symm.trans read

theorem ofTrees?_of_mem {t : Tree} {ts : List Tree} (mem : t ∈ ts) (h : ofTree? t = none) :
    ofTrees? ts = none := by
  induction mem with
  | head _      => simp [ofTrees?, h]
  | tail _ _ ih => simp [ofTrees?, ih]

-- What is wrong with a node is wrong with every tree that it is a node of.
theorem ofTree?_of_node {t node : Tree} (h : Node t node) (bad : ofTree? node = none) :
    ofTree? t = none := by
  induction h with
  | root => exact bad
  | @member ms name ts t node mem children inside _ ih =>
    have unread (d : Draft) : d.take? (some name, .array ts) = none := by
      simp [Draft.take?, Field.ofName?_eq_some.mpr children, content?, childrenOf?,
        ofTrees?_of_mem inside (ih bad)]
    rw [ofTree?, ofMembers?_eq_none_of_mem mem unread, Option.bind_none]
  | @element s r ts rest t node inside _ ih =>
    cases rest with
    | nil      => simp [ofTree?, ofElements?, childrenOf?, ofTrees?_of_mem inside (ih bad)]
    | cons _ _ => rfl

section Spells

variable {d : Draft} {ms : List (Option String × Tree)}

theorem ofMembers?_of_spellsRoute {r : Option String} (h : SpellsRoute ms r)
    (missing : d.routeKey = none) :
    ∃ k, k.getD none = r ∧ ofMembers? d ms = some { d with routeKey := k } := by
  cases h with
  | absent     => exact ⟨none, rfl, by rw [ofMembers?, ← missing]⟩
  | null named =>
    refine ⟨some none, rfl, ?_⟩
    simp [ofMembers?, Field.ofName?_eq_some.mpr named, optionalText?, Draft.setRouteKey, missing]
  | @given _ r named =>
    refine ⟨some (some r), rfl, ?_⟩
    simp [ofMembers?, Field.ofName?_eq_some.mpr named, optionalText?, Draft.setRouteKey, missing,
      Tree.string?]

mutual

theorem ofTree?_of_spells {t : Tree} {d : Definition} : Spells t d → ofTree? t = some d
  | @Spells.mk name s rs r cs ds extra ms step route children other perm => by
    have ⟨k, key, readRoute⟩ :=
      ofMembers?_of_spellsRoute (d := { step := some s }) route rfl
    have ⟨l, list, readChildren⟩ :=
      ofMembers?_of_spellsChildren (d := { step := some s, routeKey := k }) children rfl
    have readStep (ms : List (Option String × Tree)) :
        ofMembers? {} ((some name, .string (some s)) :: ms) = ofMembers? { step := some s } ms := by
      simp [ofMembers?, Field.ofName?_eq_some.mpr step, Tree.string?, Draft.setStep]
    rw [ofTree?, ofMembers?_eq_of_perm perm, readStep, ofMembers?_append, readRoute,
      Option.bind_some, ofMembers?_append, readChildren, Option.bind_some,
      ofMembers?_of_isExtra other, Option.bind_some, Draft.finish, ← key, ← list]
    rfl

theorem ofMembers?_of_spellsChildren {d : Draft} {ms : List (Option String × Tree)}
    {ds : Option (List Definition)} : SpellsChildren ms ds → d.children = none →
      ∃ l, l.getD none = ds ∧ ofMembers? d ms = some { d with children := l }
  | .absent, missing => ⟨none, rfl, by rw [ofMembers?, ← missing]⟩
  | .null named, missing => by
    refine ⟨some none, rfl, ?_⟩
    simp [ofMembers?, Field.ofName?_eq_some.mpr named, childrenOf?, Draft.setChildren, missing]
  | @SpellsChildren.given _ ts ds named all, missing => by
    refine ⟨some (some ds), rfl, ?_⟩
    simp [ofMembers?, Field.ofName?_eq_some.mpr named, childrenOf?, Draft.setChildren, missing,
      ofTrees?_of_spellsAll all]

theorem ofTrees?_of_spellsAll {ts : List Tree} {ds : List Definition} :
    SpellsAll ts ds → ofTrees? ts = some ds
  | .nil       => rfl
  | .cons h hs => by rw [ofTrees?, ofTree?_of_spells h, ofTrees?_of_spellsAll hs]

end

theorem height_le_membersHeight {k : Option String} {t : Tree} (mem : (k, t) ∈ ms) :
    t.height ≤ Tree.membersHeight ms := by
  induction ms with
  | nil          => exact nomatch mem
  | cons m ms ih =>
    rw [Tree.membersHeight]
    cases mem with
    | head _     => exact Nat.le_max_left ..
    | tail _ mem => exact (ih mem).trans <| Nat.le_max_right ..

mutual

-- A spelling is nested at least as deep as its definition; extra members can take it deeper.
theorem nesting_le_height {t : Tree} {d : Definition} : Spells t d → d.nesting ≤ t.height
  | @Spells.mk _ _ _ _ _ ds _ ms _ _ children _ perm => by
    cases children with
    | absent | null => exact Nat.le_add_right ..
    | @given name ts ds _ all =>
      have mem : (some name, .array ts) ∈ ms := perm.mem_iff.mpr (by simp)
      have inside := height_le_membersHeight mem
      have := maxNesting_le_elementsHeight all
      simp only [Json.Tree.height, nesting] at inside ⊢
      omega

theorem maxNesting_le_elementsHeight {ts : List Tree} {ds : List Definition} :
    SpellsAll ts ds → maxNesting ds ≤ Tree.elementsHeight ts
  | .nil       => Nat.le_refl _
  | .cons h hs => by
    have := nesting_le_height h
    have := maxNesting_le_elementsHeight hs
    simp only [maxNesting, Tree.elementsHeight]
    omega

end

end Spells

-- Every spelling of a definition is read as that definition, and a single faulty node is enough for
-- the whole text to be refused. The limit is one for what is read: a text that keeps to it has a
-- definition that does.
theorem fromJson_of_written {text : String} {t : Tree} (h : Tree.Written text t) :
    (∀ d, Spells t d → d.nesting ≤ 127 → fromJson text = .ok d) ∧
      (∀ d, Spells t d → d.nesting ≤ t.height) ∧
      ∀ node, Node t node → IsFaulty node →
        ∃ message, fromJson text = .error (.planParse message) := by
  have read : ofJson? text =
      (ofTree? t).bind fun d => if d.nesting ≤ maxJsonNesting then some d else none := by
    rw [ofJson?, Tree.ofText?_of_written h]
    rfl
  refine ⟨fun d spells within => ?_, fun d spells => nesting_le_height spells,
    fun node inside faulty => ⟨"not a plan definition in JSON", ?_⟩⟩
  case refine_1 =>
    simp [fromJson, read, ofTree?_of_spells spells, maxJsonNesting, within]
  case refine_2 =>
    simp [fromJson, read, ofTree?_of_node inside <| ofTree?_of_isFaulty faulty]

open Json (Value) in
theorem fromJson_of_written_office :
    fromJson (Value.object [
        ("Children", .array [.object [("RouteKey", .string "late"), ("serviceKey", .string "Close"),
          ("children", .null)]]),
        ("service_key", .string "Office"), ("note", .array [.bool true])]).pretty =
      .ok (mk "Office" none (some [mk "Close" (some "late") none])) ∧
    ∃ message, fromJson (Value.object [("step", .string "Office"),
        ("children", .array [.object [("step", .string "Close"), ("note", .null),
          ("ServiceKey", .string "Close")]])]).pretty = .error (.planParse message) := by
  have written {v : Value} (legible : v.Legible) : Tree.Written v.pretty (Tree.ofValue v) := by
    have := Tree.Written.mk Json.blanks_nil (v.spells_renderPretty 0 legible) Json.blanks_nil
    rwa [List.nil_append, List.append_nil] at this
  constructor
  case left =>
    have step₁ : "service_key" ∈ Field.step.names := by decide
    have step₂ : "serviceKey" ∈ Field.step.names := by decide
    have route : "RouteKey" ∈ Field.routeKey.names := by decide
    have children₁ : "Children" ∈ Field.children.names := by decide
    have children₂ : "children" ∈ Field.children.names := by decide
    have none : ∀ m ∈ ([] : List (Option String × Tree)), IsExtra m := nofun
    have note : ∀ m ∈ [(some "note", Tree.array [.bool true])], IsExtra m := fun _ mem =>
      List.mem_singleton.mp mem ▸ ⟨"note", rfl, fun f => by cases f <;> decide⟩
    have child : Spells _ (mk "Close" (some "late") .none) :=
      .mk step₂ (.given route) (.null children₂) none (.swap ..)
    refine (fromJson_of_written <| written ?_).left _
      (.mk step₁ .absent (.given children₁ (.cons child .nil)) note (.swap ..)) (by decide)
    simp [Value.Legible, Value.AreLegible, Value.AreLegibleMembers]
  case right =>
    have children : "children" ∈ Field.children.names := by decide
    refine (fromJson_of_written <| written ?_).right.right _
      (.member (.tail _ (.head _)) children (.head _) .root) (.inl (by decide))
    simp [Value.Legible, Value.AreLegible, Value.AreLegibleMembers]

end RoutingPlan.Definition
