import RoutingPlan.Bot
import RoutingPlan.Proofs.Definition.Interpreter
import RoutingPlan.Proofs.Plan.JsonText
import RoutingPlan.Proofs.Registry
import RoutingPlan.Proofs.Run.Audit

-- The built-in bot has an answer to everything. Two tables of words, the route keys of the plan and
-- the value that its second router sees have to fit together for that.

namespace RoutingPlan

open Json (Value)

namespace Outcome

-- From `c` on, the steps of some names were taken, and the last of them said something.
structure Answers (o : Outcome) (c : Context) (names : List String) : Prop where
  result : o.result = some (.ok ())
  output : ∃ text, o.context.output = some (.string text)
  steps  : o.context.records.map (·.step) = c.records.map (·.step) ++ names

variable {o : Outcome} {c c' : Context} {name : String} {names : List String} {es : List Event}

theorem Answers.after (h : o.Answers c names) : (o.after es).Answers c names :=
  ⟨h.result, h.output, h.steps⟩

theorem Answers.cons (h : o.Answers c' names)
    (record : c'.records.map (·.step) = c.records.map (·.step) ++ [name]) :
    o.Answers c (name :: names) :=
  ⟨h.result, h.output, by rw [h.steps, record, List.append_assoc, List.singleton_append]⟩

theorem Answers.closed (h : o.Answers c names) : o.closed.Answers c names := by
  obtain ⟨result, context, es⟩ := o
  cases h.result
  exact ⟨rfl, h.output, h.steps⟩

end Outcome

namespace Bot

open Definition

-- What a router goes by.
def heard (input : Value) : String :=
  Text.toLower (input.string?.getD "")

-- A key leads to an action of that name, which always has something to say.
def Voices (resolve : Resolver) (key : String) : Prop :=
  ∃ act, resolve key = .ok (.action key act) ∧
    ∀ input c, ∃ text, act input c = .done (some (.string text))

section Walk

variable {resolve : Resolver} {clock : Clock} {d child : Definition} {c : Context}
  {names : List String}

theorem walk_last (voice : Voices resolve d.step) (children : d.children = []) :
    (d.walk resolve clock c).Answers c [d.step] := by
  have ⟨act, resolved, speaks⟩ := voice
  have ⟨text, said⟩ := speaks c.workingInput c
  rw [walk_action resolved, said, children]
  exact ⟨rfl, ⟨text, rfl⟩, List.map_append⟩

theorem walk_chained (voice : Voices resolve d.step) (children : d.children = [child])
    (rest : ∀ c, (child.walk resolve clock c).Answers c names) :
    (d.walk resolve clock c).Answers c (d.step :: names) := by
  have ⟨act, resolved, speaks⟩ := voice
  have ⟨text, said⟩ := speaks c.workingInput c
  rw [walk_action resolved, said, children]
  exact ((rest _).cons List.map_append).after.after

-- A router leaves what there is to hear as it is.
theorem walk_wordRouter {name key : String} {rules : List Rule} {otherwise : Option String}
    (resolved : resolve d.step = .ok (wordRouter name rules otherwise))
    (decided : route rules otherwise (heard c.workingInput) = some key)
    (filled : Text.isBlank key = false) (found : lastWith? (some key) d.children = some child)
    (rest : ∀ c', c'.workingInput = c.workingInput →
      (child.walk resolve clock c').Answers c' names) :
    (d.walk resolve clock c).Answers c (name :: names) := by
  rw [walk_router resolved, ← heard, decided]
  simp only [Option.filter_some, filled, Bool.not_false, if_true, found]
  exact ((rest _ Context.workingInput_pushRecord).cons List.map_append).after.after

end Walk

section Registry

variable {step : Step} {name text : String} {i : Nat}

theorem resolve_registry (h : steps[i]? = some step) : registry.resolve step.name = .ok step :=
  Registry.resolve_registerAll (by decide) <| List.mem_of_getElem? h

theorem voices_support : Voices registry.resolve "SupportStep" :=
  ⟨_, resolve_registry (i := 3) rfl, fun _ _ => ⟨_, rfl⟩⟩

theorem voices_reply (h : steps[i]? = some (reply name text)) : Voices registry.resolve name :=
  ⟨_, resolve_registry h, fun _ _ => ⟨text, rfl⟩⟩

end Registry

-- The words of the business, which are route keys, too, and the steps that they lead to.
def offices : List (String × String) :=
  [("marketing", "MarketingStep"), ("billing", "BillingStep"), ("in-season", "InSeasonStep"),
    ("pre-season", "PreSeasonStep")]

-- The first office that a text asks for.
def officeFor? (text : String) : Option (String × String) :=
  offices.find? fun office => Text.contains text office.1

-- The steps that a text takes.
def itinerary (text : String) : List String :=
  "RootRouterStep" ::
    if Text.contains text "support" || Text.contains text "help" then
      ["SupportStep", "SupportRouterStep", "FirstLevelSupportStep"]
    else match officeFor? text with
      | some office => ["BusinessRouterStep", office.2]
      | none => ["FallbackStep"]

theorem voices_office {office : String × String} (h : office ∈ offices) :
    Voices registry.resolve office.2 := by
  simp only [offices, List.mem_cons, List.not_mem_nil, or_false] at h
  rcases h with rfl | rfl | rfl | rfl
  exacts [voices_reply (i := 5) rfl, voices_reply (i := 6) rfl, voices_reply (i := 7) rfl,
    voices_reply (i := 8) rfl]

-- The word of an office is the key under which the plan goes on to its step.
theorem lastWith?_office : ∀ office ∈ offices, Text.isBlank office.1 = false ∧
    ((lastWith? (some "business") definition.children).bind fun business =>
      lastWith? (some office.1) business.children) = some (.mk office.2 (some office.1) none) := by
  decide

theorem route_businessRules {text : String} :
    route businessRules none text = (officeFor? text).map (·.1) := by
  have rules : businessRules = offices.map fun office => ([office.1], office.1) := rfl
  simp only [route, rules, List.find?_map, Function.comp_def, List.any_cons, List.any_nil,
    Bool.or_false, officeFor?]
  cases offices.find? fun office => Text.contains text office.1 <;> rfl

theorem route_rootRules {text : String} : route rootRules (some "fallback") text =
    if Text.contains text "support" || Text.contains text "help" then some "support"
    else if (officeFor? text).isSome then some "business" else some "fallback" := by
  have rules : rootRules =
      [(["support", "help"], "support"), (offices.map (·.1), "business")] := rfl
  have asked : (officeFor? text).isSome = (offices.map (·.1)).any (Text.contains text) := by
    simp only [officeFor?, List.isSome_find?, List.any_map]
    rfl
  simp only [asked, route, rules, List.find?_cons, List.find?_nil, List.any_cons, List.any_nil,
    Bool.or_false]
  cases Text.contains text "support" || Text.contains text "help" with
  | true  => rfl
  | false => cases (offices.map (·.1)).any (Text.contains text) <;> rfl

theorem walk_definition {clock : Clock} {c : Context} :
    (definition.walk registry.resolve clock c).Answers c (itinerary (heard c.workingInput)) := by
  have root : registry.resolve "RootRouterStep" =
      .ok (wordRouter "RootRouterStep" rootRules (some "fallback")) :=
    resolve_registry (i := 0) rfl
  have decided := @route_rootRules (heard c.workingInput)
  rw [itinerary]
  split
  case isTrue support =>
    rw [if_pos support] at decided
    refine walk_wordRouter root decided rfl rfl fun c _ => ?_
    have level : registry.resolve "SupportRouterStep" =
        .ok (wordRouter "SupportRouterStep" [] (some "level-1")) :=
      resolve_registry (i := 2) rfl
    refine walk_chained voices_support rfl fun c => ?_
    refine walk_wordRouter level rfl rfl rfl fun c _ => ?_
    exact walk_last (voices_reply (i := 4) rfl) rfl
  case isFalse ordinary =>
    rw [if_neg ordinary] at decided
    cases asked : officeFor? (heard c.workingInput) with
    | none =>
      rw [asked] at decided
      refine walk_wordRouter root decided rfl rfl fun c _ => ?_
      exact walk_last (voices_reply (i := 9) rfl) rfl
    | some office =>
      rw [asked] at decided
      have business : registry.resolve "BusinessRouterStep" =
          .ok (wordRouter "BusinessRouterStep" businessRules none) :=
        resolve_registry (i := 1) rfl
      have mem : office ∈ offices := List.mem_of_find?_eq_some asked
      have ⟨filled, found⟩ := lastWith?_office office mem
      refine walk_wordRouter root decided rfl rfl fun c' same => ?_
      have decided : route businessRules none (heard c'.workingInput) = some office.1 := by
        rw [same, route_businessRules, asked]; rfl
      refine walk_wordRouter business decided filled found fun c _ => ?_
      exact walk_last (voices_office mem) rfl

-- Reads a definition from the characters of its text.
def ofChars? (cs : List Char) : Option Definition :=
  let tree := match Json.Tree.read (2 * cs.length + 2) cs with
    | some (t, rest) => if (Json.skipBlanks rest).isEmpty then some t else none
    | none => none
  (tree.bind ofTree?).filter (·.nesting ≤ maxJsonNesting)

theorem ofJson?_of_chars {text : String} {cs : List Char} {d : Definition}
    (chars : text.toList = cs) (read : ofChars? cs = some d) : ofJson? text = some d := by
  have tree : ofChars? text.toList =
      ((Json.Tree.ofText? text).bind ofTree?).filter (·.nesting ≤ maxJsonNesting) := rfl
  rw [← chars, tree, Option.filter_eq_some_iff] at read
  have ⟨t, parsed, defined⟩ := Option.bind_eq_some_iff.mp read.left
  simpa [ofJson?, parsed, defined] using read.right

set_option maxRecDepth 10000 in
-- The characters are told from the literal: to evaluate `String.toList` takes far longer than to
-- read them.
theorem ofJson?_planText : ofJson? planText = some definition :=
  ofJson?_of_chars String.toList_ofList (by decide +kernel)

theorem exists_compile_definition : ∃ p, definition.compile registry.resolve = .ok p := by
  have ok : (definition.compile registry.resolve).isOk := by decide +kernel
  cases h : definition.compile registry.resolve with
  | ok p    => exact ⟨p, rfl⟩
  | error e => simp [h, Except.isOk, Except.toBool] at ok

-- Whatever the input and the history, a run of the plan from its text ends with an answer, and the
-- steps that it takes are those of the words in the input.
theorem execute_planText : ∃ p, Plan.fromJson registry.resolve planText = .ok p ∧
    ∀ clock c n, c.records = [] → p.moves ≤ n →
      let run := (p.execute clock c n).1
      run.result? = some (.ok ()) ∧ (∃ text, run.context.output = some (.string text)) ∧
        run.context.records.map (·.step) = itinerary (Text.toLower (c.input.string?.getD "")) := by
  have ⟨p, loaded⟩ := exists_compile_definition
  refine ⟨p, ?_, fun clock c n fresh enough => ?_⟩
  case refine_1 =>
    have read : fromJson planText = .ok definition := by rw [fromJson, ofJson?_planText]
    exact Plan.fromJson_eq_ok_iff.mpr ⟨_, read, loaded⟩
  case refine_2 =>
    have input : c.workingInput = c.input := Context.workingInput_of_records_nil fresh
    have answers : ((Run.start p clock c).settle n).Answers c (itinerary (heard c.input)) := by
      rw [Run.settle_compile loaded enough, ← input, interpret]
      exact walk_definition.closed.after
    have steps := answers.steps
    rw [fresh, List.map_nil, List.nil_append] at steps
    exact ⟨answers.result, answers.output, steps⟩

-- A question in capital letters, within a conversation.
theorem execute_planText_season :
    ∃ p c, Plan.fromJson registry.resolve planText = .ok p ∧
      (Context.new ⟨⟨"run"⟩, ⟨0, 0⟩, 0⟩ (.string "What about PRE-SEASON?")).map
        (·.withHistory [⟨.user, "help"⟩]) = .ok c ∧ c.records = [] ∧
      let run := (p.execute (fun _ => (⟨0, 0⟩, ⟨0, 0⟩)) c p.moves).1
      run.result? = some (.ok ()) ∧ run.context.records.map (·.step) =
        ["RootRouterStep", "BusinessRouterStep", "PreSeasonStep"] := by
  have ⟨p, loaded, answers⟩ := execute_planText
  let c : Context := ⟨⟨"run"⟩, .string "What about PRE-SEASON?", none, none, [], [⟨.user, "help"⟩],
    ⟨0, 0⟩, ⟨0, false⟩⟩
  have ⟨result, _, steps⟩ := answers (fun _ => (⟨0, 0⟩, ⟨0, 0⟩)) c p.moves rfl (Nat.le_refl _)
  refine ⟨p, c, loaded, rfl, rfl, result, steps.trans ?_⟩
  decide +kernel

end Bot
end RoutingPlan
