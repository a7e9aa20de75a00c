import RoutingPlan.Definition.Toml
import RoutingPlan.Proofs.Definition.JsonText
import RoutingPlan.Proofs.Plan.Unfolding
import RoutingPlan.Proofs.Toml.Lines
import RoutingPlan.Proofs.Toml.Nested

-- Definitions through their TOML texts and back.

namespace RoutingPlan.Definition

open Toml (Document Table Item BareKey)
open Toml.Document (Takes Receives within)

def routeEntry : Option String → List (String × Item)
  | none => []
  | some r => [("route_key", .value (.string r))]

def fields (s : String) (r : Option String) : Table :=
  ⟨false, false, ("step", .value (.string s)) :: routeEntry r⟩

mutual

-- The table that the lines of a definition make up.
def toTable : Definition → Table
  | mk s r none => fields s r
  | mk s r (some []) => (fields s r).put "children" (.value (.array []))
  | mk s r (some (c :: cs)) => (fields s r).put "children" (.tables (toTable c :: toTables cs))

def toTables : List Definition → List Table
  | [] => []
  | c :: cs => toTable c :: toTables cs

end

section Lines

variable {root : Table} {k : Nat} {s : String} {r : Option String}

theorem bareKey_step : BareKey "step" :=
  ⟨by decide, by decide⟩

theorem bareKey_route_key : BareKey "route_key" :=
  ⟨by decide, by decide⟩

theorem bareKey_children : BareKey "children" :=
  ⟨by decide, by decide⟩

theorem get?_children_fields : (fields s r).get? "children" = none := by
  cases r <;> rfl

theorem takes_fields :
    Takes (within "children" k root .new)
      (tomlLine "step" (Toml.renderString s) ++ tomlRoute r)
      (within "children" k root (fields s r)) := by
  have step : Takes (within "children" k root .new) (tomlLine "step" (Toml.renderString s))
      (within "children" k root (fields s none)) :=
    Document.takes_entry bareKey_step (Toml.spellsValue_renderString s) rfl
  refine step.append ?_
  cases r with
  | none   => exact Document.takes_nil
  | some r => exact Document.takes_entry bareKey_route_key (Toml.spellsValue_renderString r) rfl

theorem takes_empty_children :
    Takes (within "children" k root (fields s r)) (tomlLine "children" ['[', ']'])
      (within "children" k root ((fields s r).put "children" (.value (.array [])))) := by
  refine Document.takes_entry bareKey_children Toml.spellsValue_empty_array ?_
  cases r <;> rfl

theorem takes_tomlHeader {d d' : Document} (short : k + 1 < Toml.depthLimit)
    (opens : d.openElement (List.replicate k "children") "children" = some d') :
    Takes d (tomlHeader (k + 1)) d' := by
  have bare : ∀ name ∈ List.replicate k "children" ++ ["children"], BareKey name := by
    rw [← List.replicate_succ']
    exact fun name h => List.eq_of_mem_replicate h ▸ bareKey_children
  have header := Document.takes_header bare (by simpa using short) opens
  rw [← List.replicate_succ'] at header
  exact Document.takes_blank.append header

-- A header and the lines of one more child.
theorem takes_child {d : Document} {t : Table} {ts : List Table} (c : Definition)
    (short : k + 1 < Toml.depthLimit) (receives : Receives "children" k root)
    (reserved : d.reserve "children" k =
      (within "children" k root (t.put "children" (.tables ts))).close)
    (child : ∀ root, Receives "children" (k + 1) root → ∃ d',
      Takes (within "children" (k + 1) root .new) (c.renderToml (k + 1)) d' ∧
        d'.close = (within "children" (k + 1) root c.toTable).close) :
    ∃ d', Takes d (tomlHeader (k + 1) ++ c.renderToml (k + 1)) d' ∧ d'.close =
      (within "children" k root (t.put "children" (.tables (ts ++ [c.toTable])))).close := by
  have ⟨whole, opens, closes⟩ := Document.exists_openElement receives reserved
  have ⟨d', takes, filled⟩ := child whole (receives.succ closes)
  refine ⟨d', (takes_tomlHeader short opens).append takes, ?_⟩
  rw [filled, Document.close_element closes]

theorem height_pos (d : Definition) : 0 < d.height := by
  rw [height_eq]
  omega

mutual

-- Nothing is known about how the document goes on: what counts is the table that it is closed with.
theorem takes_renderToml : (d : Definition) → ∀ {k root}, k + d.height ≤ Toml.depthLimit →
    Receives "children" k root → ∃ d', Takes (within "children" k root .new) (d.renderToml k) d' ∧
      d'.close = (within "children" k root d.toTable).close
  | mk s r none, _, _, _, _ => ⟨_, takes_fields, rfl⟩
  | mk s r (some []), _, _, _, _ => ⟨_, takes_fields.append takes_empty_children, rfl⟩
  | mk s r (some (c :: cs)), k, root, shallow, receives => by
    simp only [height, maxHeight] at shallow
    have := c.height_pos
    have reserved := Document.reserve_within root k (get?_children_fields (s := s) (r := r))
    have ⟨d₁, takes₁, filled₁⟩ := takes_child c (by omega) receives reserved
      fun root receives => takes_renderToml c (by omega) receives
    have ⟨d₂, takes₂, filled₂⟩ := takes_renderTomls cs (by omega) receives filled₁
    refine ⟨d₂, ?_, filled₂⟩
    have := takes_fields.append (takes₁.append takes₂)
    simpa [renderToml, renderTomls] using this

-- The children after those whose tables are `ts`.
theorem takes_renderTomls : (cs : List Definition) → ∀ {k root} {t : Table} {ts} {d : Document},
    k + 1 + maxHeight cs ≤ Toml.depthLimit → Receives "children" k root →
      d.close = (within "children" k root (t.put "children" (.tables ts))).close → ∃ d',
        Takes d (renderTomls (k + 1) cs) d' ∧ d'.close =
          (within "children" k root (t.put "children" (.tables (ts ++ toTables cs)))).close
  | [], _, _, _, _, d, _, _, filled => by
    refine ⟨d, Document.takes_nil, ?_⟩
    rw [toTables, List.append_nil, filled]
  | c :: cs, _, _, _, _, _, shallow, receives, filled => by
    simp only [maxHeight] at shallow
    have := c.height_pos
    have ⟨d₁, takes₁, filled₁⟩ := takes_child c (by omega) receives
      (Document.reserve_of_close filled) fun root receives => takes_renderToml c (by omega) receives
    have ⟨d₂, takes₂, filled₂⟩ := takes_renderTomls cs (by omega) receives filled₁
    refine ⟨d₂, takes₁.append takes₂, ?_⟩
    rw [filled₂, List.append_assoc]
    rfl

end

end Lines

theorem tablesToValues_cons {t : Table} {ts : List Table} :
    Toml.tablesToValues (t :: ts) = t.toValue :: Toml.tablesToValues ts := by
  cases t
  rfl

-- The entries that come first.
theorem ofTomlEntries?_fields (s : String) (r : Option String) (es : List (String × Item)) :
    ofTomlEntries? {} (Toml.entriesToValues ((fields s r).entries ++ es)) =
      ofTomlEntries? { step := some s, routeKey := r.map some } (Toml.entriesToValues es) := by
  cases r <;> simp [fields, routeEntry, Toml.entriesToValues, Item.toValue, ofTomlEntries?,
    ofName?_step, ofName?_route_key, Toml.Value.string?, Draft.setStep, Draft.setRouteKey]

theorem ofToml?_fields_children (s : String) (r : Option String) (item : Item) :
    ofToml? ((fields s r).put "children" item).toValue =
      (ofTomlChildren? item.toValue).map fun cs => mk s r (some cs) := by
  rw [Table.put_of_get? get?_children_fields, Table.toValue, ofToml?, ofTomlEntries?_fields]
  simp only [Toml.entriesToValues, ofTomlEntries?, ofName?_children]
  cases ofTomlChildren? item.toValue with
  | none    => rfl
  | some cs => cases r <;> rfl

mutual

theorem ofToml?_toTable : (d : Definition) → ofToml? d.toTable.toValue = some d
  | mk s r none => by
    have entries := ofTomlEntries?_fields s r []
    rw [List.append_nil] at entries
    rw [toTable, Table.toValue, ofToml?, entries]
    cases r <;> rfl
  | mk s r (some []) => by
    rw [toTable, ofToml?_fields_children]
    rfl
  | mk s r (some (c :: cs)) => by
    rw [toTable, ofToml?_fields_children, Item.toValue, tablesToValues_cons, ofTomlChildren?,
      ofTomls?, ofToml?_toTable c, ofTomls?_toTables cs]
    rfl

theorem ofTomls?_toTables : (ds : List Definition) →
    ofTomls? (Toml.tablesToValues (toTables ds)) = some ds
  | []      => rfl
  | d :: ds => by
    rw [toTables, tablesToValues_cons, ofTomls?, ofToml?_toTable d, ofTomls?_toTables ds]

end

theorem exists_renderToml (d : Definition) (k : Nat) : ∃ cs, d.renderToml k = 's' :: cs :=
  match d with
  | mk _ _ none | mk _ _ (some []) | mk _ _ (some (_ :: _)) => ⟨_, rfl⟩

theorem ofText?_tomlText {d : Definition} (shallow : d.height ≤ Toml.depthLimit) :
    Toml.Value.ofText? d.tomlText = some d.toTable.toValue := by
  have taken : ∃ d', Takes .empty (d.renderToml 0) d' ∧ d'.close = some d.toTable :=
    takes_renderToml d (by omega) Document.receives_zero
  have ⟨d', takes, filled⟩ := taken
  have ⟨cs, first⟩ := exists_renderToml d 0
  have unmarked : (d.renderToml 0).head? ≠ some '\uFEFF' := by
    rw [first, List.head?_cons]
    decide
  rw [tomlText, Toml.ofText?_ofList unmarked, takes.lines (Nat.lt_succ_self _), Option.bind_some,
    filled, Option.map_some]

theorem eq_of_fromJson_jsonText {d e : Definition} (h : fromJson d.jsonText = .ok e) : e = d := by
  rw [fromJson, ofJson?_jsonText] at h
  split at h
  case h_1 read =>
    split at read
    · exact (Except.ok.inj h).symm.trans (Option.some.inj read).symm
    · cases read
  case h_2 => cases h

-- What the TOML text of a definition is read as is the definition, and so is what its JSON text is
-- read as, if it can be read.
theorem fromToml_tomlText {d : Definition} (levels : d.height < 80) :
    fromToml d.tomlText = .ok d ∧
      ∀ e, fromJson d.jsonText = .ok e → fromToml d.tomlText = .ok e := by
  have toml : fromToml d.tomlText = .ok d := by
    rw [fromToml, ofText?_tomlText (Nat.le_of_lt levels), Option.bind_some, ofToml?_toTable]
  exact ⟨toml, fun e json => eq_of_fromJson_jsonText json ▸ toml⟩

-- Strings for all of the ways to quote them, and lists of children of all kinds.
def knotty : Definition :=
  mk "lobby" none <| some [
    mk "say \"hi\" \\o/" (some "it's \"\"") (some []),
    mk "'\\\"" (some "\n\"\"\"'\"\"\"\"\\\r\n\x7f\té\"\"") <| some [
      mk "" (some "'''\n\"\"") none],
    mk "\"\"\"\t'''" none none]

theorem fromToml_tomlText_knotty : knotty.height < 80 ∧ fromToml knotty.tomlText = .ok knotty ∧
    ∀ e, fromJson knotty.jsonText = .ok e → fromToml knotty.tomlText = .ok e :=
  ⟨by decide, fromToml_tomlText (by decide)⟩

end RoutingPlan.Definition
