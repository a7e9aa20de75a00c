import Mathlib.Data.Bool.AllAny
import RoutingPlan.Proofs.Settings.Layout
import RoutingPlan.Proofs.Toml.Keeping
import RoutingPlan.Proofs.Toml.Verbatim
import RoutingPlan.Settings

-- A value of the environment inside the quotes of a setting. References are replaced before the
-- text is read, so the value is read as TOML: it stays the value of its setting as long as all of
-- its characters stand for themselves, and no longer.

namespace RoutingPlan

namespace Toml

theorem get?_entriesToValues (key : String) (es : List (String × Item)) :
    Keyed.get? key (entriesToValues es) = (Keyed.get? key es).map Item.toValue := by
  induction es with
  | nil => rfl
  | cons e es ih => by_cases h : e.1 = key <;> simp [entriesToValues, Keyed.get?, h, ih]

end Toml

namespace Settings

open Toml (BareKey Document Table Value Verbatim)

-- A reference to a variable.
def reference (name : String) : String :=
  "$\x7b" ++ name ++ "\x7d"

-- Settings with only the path of a plan, between quotes.
def planText (path : String) : String :=
  "[plan]\npath = \"" ++ path ++ "\"\n"

-- The two lines of them.
def planLines (path : List Char) : List Char :=
  '[' :: ("plan".toList ++ [']', '\n']) ++
    ("path".toList ++ [' ', '=', ' '] ++ ('"' :: (path ++ ['"'])) ++ ['\n'])

theorem planText_eq (path : String) : planText path = String.ofList (planLines path.toList) := by
  have whole (p q : String) : (p ++ path ++ q).toList = p.toList ++ path.toList ++ q.toList := by
    simp
  have before : "[plan]\npath = \"".toList = '[' :: ("plan".toList ++ [']', '\n']) ++
      ("path".toList ++ [' ', '=', ' ', '"']) := by decide
  have after : "\"\n".toList = ['"', '\n'] := by decide
  have lines : (planText path).toList = planLines path.toList := by
    refine (whole _ _).trans <| (congrArg₂ (· ++ path.toList ++ ·) before after).trans ?_
    simp only [planLines, List.append_assoc, List.cons_append, List.nil_append]
  rw [← lines, String.ofList_toList]

section Expand

variable {env : Environment} {a name value b : String} {cs : List Char}

theorem no_reference_of_not_mem (h : '$' ∉ cs) : ¬['$', '{'] <:+: cs :=
  fun within => h (within.subset List.mem_cons_self)

-- A reference alone in a text.
theorem expand_reference {before after : String} (set : env name = some value)
    (closes : '}' ∉ name.toList) (start : '$' ∉ before.toList) (finish : '$' ∉ after.toList) :
    expand env (before ++ reference name ++ after) = before ++ value ++ after := by
  let l : Layout := ⟨[(before.toList, name.toList)], after.toList⟩
  have proper : l.Proper :=
    ⟨List.forall_mem_singleton.mpr (no_reference_of_not_mem start),
      List.forall_mem_singleton.mpr closes, no_reference_of_not_mem finish⟩
  have whole : l.text = (before ++ reference name ++ after).toList := by
    simp [l, Layout.text, Layout.fill, written, reference]
  rw [Layout.expand_eq_fill proper whole]
  simp [l, Layout.fill, valueOf, set, String.append_assoc]

-- A reference inside the path.
theorem expand_planText (set : env name = some value) (closes : '}' ∉ name.toList)
    (before : '$' ∉ a.toList) (after : '$' ∉ b.toList) :
    expand env (planText (a ++ reference name ++ b)) = planText (a ++ value ++ b) := by
  have apart {p q : String} (hp : '$' ∉ p.toList) (hq : '$' ∉ q.toList) :
      '$' ∉ (p ++ q).toList := by
    simp [hp, hq]
  have start : '$' ∉ ("[plan]\npath = \"" ++ a).toList := apart (by decide) before
  have finish : '$' ∉ (b ++ "\"\n").toList := apart after (by decide)
  have regroup (p s q : String) : p ++ (a ++ s ++ b) ++ q = p ++ a ++ s ++ (b ++ q) := by
    simp only [String.append_assoc]
  calc expand env (planText (a ++ reference name ++ b))
    _ = expand env ("[plan]\npath = \"" ++ a ++ reference name ++ (b ++ "\"\n")) :=
      congrArg (expand env) (regroup _ _ _)
    _ = "[plan]\npath = \"" ++ a ++ value ++ (b ++ "\"\n") :=
      expand_reference set closes start finish
    _ = planText (a ++ value ++ b) := (regroup _ _ _).symm

end Expand

section Read

variable {path : List Char} {s : Settings}

theorem bareKey_plan : BareKey "plan" :=
  ⟨by decide, by decide⟩

theorem bareKey_path : BareKey "path" :=
  ⟨by decide, by decide⟩

theorem takes_plan : Document.Takes .empty ('[' :: ("plan".toList ++ [']', '\n']))
    ⟨.new, .table [] "plan", .new⟩ :=
  Document.takes_section bareKey_plan rfl

theorem ofText?_planLines : Value.ofText? (String.ofList (planLines path)) =
    ((Document.lines ((planLines path).length + 1) .empty (planLines path)).bind
      Document.close).map Table.toValue :=
  Toml.ofText?_ofList (by rw [planLines, List.cons_append, List.head?_cons]; decide)

theorem ofToml?_planLines (verbatim : ∀ c ∈ path, Verbatim c) :
    (Value.ofText? (String.ofList (planLines path))).bind ofToml? =
      some { plan := { path := some (String.ofList path) } } := by
  have takes := takes_plan.append <|
    Document.takes_entry bareKey_path (Toml.spellsValue_verbatim verbatim) rfl
  rw [ofText?_planLines, planLines, takes.lines (Nat.lt_succ_self _)]
  rfl

-- What a section holds is what its field is read from.
theorem path_of_holds {whole : Table} {v : Value} (holds : whole.Holds ["plan"] "path" v)
    (read : ofToml? whole.toValue = some s) : v.string?.map some = some s.plan.path := by
  have ⟨u, plan, _, there⟩ := holds
  rw [Table.Holds, Table.get?] at there
  rw [Table.get?] at plan
  have section_read : planSection? (Toml.Item.table u).toValue =
      v.string?.map fun p => { path := some p } := by
    cases eq : v.string? <;>
      simp [Toml.Item.toValue, planSection?, fields, Toml.get?_entriesToValues, there, field, eq]
  simp only [ofToml?, Table.toValue, fields, Toml.get?_entriesToValues, List.map_cons,
    List.map_nil, plan, Option.map_some] at read
  obtain ⟨_, eq, read⟩ := Option.bind_eq_some_iff.mp read
  cases eq
  obtain ⟨section', plan_read, read⟩ := Option.bind_eq_some_iff.mp read
  obtain ⟨_, _, read⟩ := Option.bind_eq_some_iff.mp read
  obtain ⟨_, _, read⟩ := Option.bind_eq_some_iff.mp read
  obtain ⟨p, string, eq⟩ := Option.map_eq_some_iff.mp (section_read.symm.trans plan_read)
  cases read
  cases eq
  rw [string]
  rfl

-- If the path is what stands between the quotes, it is only because nothing there was special.
theorem verbatim_of_path
    (read : (Value.ofText? (String.ofList (planLines path))).bind ofToml? = some s)
    (h : s.plan.path = some (String.ofList path)) : ∀ c ∈ path, Verbatim c := by
  have ⟨_, document, read⟩ := Option.bind_eq_some_iff.mp read
  rw [ofText?_planLines] at document
  have ⟨whole, closed, eq⟩ := Option.map_eq_some_iff.mp document
  have ⟨d, lines, closed⟩ := Option.bind_eq_some_iff.mp closed
  subst eq
  have ⟨n, _, later⟩ := takes_plan ((planLines path).length + 1)
    ("path".toList ++ [' ', '=', ' '] ++ ('"' :: (path ++ ['"'])) ++ ['\n']) (Nat.lt_succ_self _)
  rw [← planLines] at later
  rw [later, List.append_assoc] at lines
  have ⟨v, rest, d', m, rest', value, defines, lines⟩ :=
    Document.exists_of_lines_entry bareKey_path (Text.stops_cons (by decide)) lines
  cases defines
  have secures : Document.Secures "plan" "path" v
      ⟨.new, .table [] "plan", Table.new.put "path" (.value v)⟩ :=
    .current rfl Table.get?_put_self
  have kept := path_of_holds ((secures.lines lines).close closed) read
  have ⟨p, string, eq⟩ := Option.map_eq_some_iff.mp kept
  rw [h] at eq
  cases eq
  exact Toml.verbatim_of_readValue value string

end Read

section Load

variable {env : Environment} {file name value a b : String}

theorem fromText_eq_ok_iff {text : String} {s : Settings} :
    fromText env text = .ok s ↔ (Value.ofText? (expand env text)).bind ofToml? = some s := by
  rw [fromText]
  cases (Value.ofText? (expand env text)).bind ofToml? <;> simp

-- With a value that stands for itself, the settings are those with the value in its place. With any
-- other value they are not, and neither is the path.
theorem load_planText (set : env name = some value) (closes : '}' ∉ name.toList)
    (start : ∀ c ∈ a.toList, c ≠ '$' ∧ Verbatim c)
    (finish : ∀ c ∈ b.toList, c ≠ '$' ∧ Verbatim c) :
    (load env file (some (planText (a ++ reference name ++ b))) =
        .ok { plan := { path := some (a ++ value ++ b) } } ↔ ∀ c ∈ value.toList, Verbatim c) ∧
    ∀ s, load env file (some (planText (a ++ reference name ++ b))) = .ok s →
      s.plan.path = some (a ++ value ++ b) → ∀ c ∈ value.toList, Verbatim c := by
  have before : '$' ∉ a.toList := fun dollar => (start _ dollar).left rfl
  have after : '$' ∉ b.toList := fun dollar => (finish _ dollar).left rfl
  have read {s : Settings} :
      load env file (some (planText (a ++ reference name ++ b))) = .ok s ↔
        (Value.ofText? (String.ofList (planLines (a ++ value ++ b).toList))).bind ofToml? =
          some s := by
    rw [load, fromText_eq_ok_iff, expand_planText set closes before after, planText_eq]
  have inside (s : Settings)
      (loaded : load env file (some (planText (a ++ reference name ++ b))) = .ok s)
      (path : s.plan.path = some (a ++ value ++ b)) : ∀ c ∈ value.toList, Verbatim c := by
    have verbatim := verbatim_of_path (read.mp loaded) (by rw [path, String.ofList_toList])
    refine fun c hc => verbatim c ?_
    simp [hc]
  refine ⟨⟨fun loaded => inside _ loaded rfl, fun verbatim => read.mpr ?_⟩, inside⟩
  rw [ofToml?_planLines, String.ofList_toList]
  intro c hc
  simp only [String.toList_append, List.mem_append] at hc
  rcases hc with (hc | hc) | hc
  · exact (start c hc).right
  · exact verbatim c hc
  · exact (finish c hc).right

-- All kinds of characters but those that mean something in a string.
theorem load_planText_plain :
    let value := "\tp lans/[x]/'é$\x7bC\x7d#="
    let env := Environment.ofVariables [("A B", value)]
    env "A B" = some value ∧
      load env "switchyard.toml" (some (planText ("~/" ++ reference "A B" ++ "/"))) =
        .ok { plan := { path := some ("~/" ++ value ++ "/") } } := by
  intro value env
  have set : env "A B" = some value := by decide +kernel
  have ⟨loaded, _⟩ := @load_planText env "switchyard.toml" "A B" value "~/" "/" set (by decide)
    (List.all_iff_forall_prop.mp <| by decide +kernel)
    (List.all_iff_forall_prop.mp <| by decide +kernel)
  exact ⟨set, loaded.mpr <| List.all_iff_forall_prop.mp <| by decide +kernel⟩

-- A value that closes the string ends the setting and makes another.
theorem load_planText_escaping :
    let value := "p\"\n[chat]\nprompt = \"q"
    let env := Environment.ofVariables [("A", value)]
    let loaded := load env "switchyard.toml" (some (planText ("" ++ reference "A" ++ "")))
    env "A" = some value ∧
      loaded = .ok { plan := { path := some "p" }, chat := { prompt := "q" } } ∧
      loaded ≠ .ok { plan := { path := some ("" ++ value ++ "") } } := by
  decide +kernel

end Load

end Settings
end RoutingPlan
