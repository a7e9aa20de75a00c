import RoutingPlan.Settings.Expansion
import RoutingPlan.Path
import RoutingPlan.Error
import RoutingPlan.Json.Value
import RoutingPlan.Toml.Reader

-- Settings: which plan to use, how a chat goes and whether runs are logged. They are written in
-- TOML, and everything has a default.

namespace RoutingPlan

structure Settings.PlanSection where
  -- The file of the plan; the built-in plan if there is none.
  path : Option String := none
deriving DecidableEq

structure Settings.ChatSection where
  -- How many messages go along from one turn to the next.
  historyLimit : Nat := 20
  prompt : String := "User > "
deriving DecidableEq

structure Settings.LogSection where
  enabled : Bool := false
  dir : String := "logs"
deriving DecidableEq

structure Settings where
  plan : Settings.PlanSection := {}
  chat : Settings.ChatSection := {}
  log : Settings.LogSection := {}
deriving DecidableEq

namespace Settings

open Toml (Value)

-- The value of a field: its default where it is absent, none where it is of the wrong kind.
def field {α : Type} (read : Value → Option α) (default : α) : Option Value → Option α
  | none => some default
  | some v => read v

-- The fields of a section in order, from a table or an array of them. A date is a table in which
-- none of them is.
def fields (names : List String) : Value → Option (List (Option Value))
  | .table es => some (names.map (Keyed.get? · es))
  | .array vs => some ((List.range names.length).map (vs[·]?))
  | .datetime => some (names.map fun _ => none)
  | _ => none

def limit? (v : Value) : Option Nat := do
  let n ← v.integer?
  if 0 ≤ n then some n.toNat else none

def planSection? (v : Value) : Option PlanSection := do
  match ← fields ["path"] v with
  | [path] => some { path := ← field (fun v => v.string?.map some) none path }
  | _ => none

def chatSection? (v : Value) : Option ChatSection := do
  match ← fields ["history_limit", "prompt"] v with
  | [historyLimit, prompt] =>
    some {
      historyLimit := ← field limit? 20 historyLimit
      prompt := ← field Value.string? "User > " prompt }
  | _ => none

def logSection? (v : Value) : Option LogSection := do
  match ← fields ["enabled", "dir"] v with
  | [enabled, dir] =>
    some {
      enabled := ← field Value.boolean? false enabled
      dir := ← field Value.string? "logs" dir }
  | _ => none

def ofToml? (v : Value) : Option Settings := do
  match ← fields ["plan", "chat", "log"] v with
  | [plan, chat, log] =>
    some {
      plan := ← field planSection? {} plan
      chat := ← field chatSection? {} chat
      log := ← field logSection? {} log }
  | _ => none

-- Reads settings once the references to the environment have been replaced in the text.
def fromText (env : Environment) (text : String) : Except Error Settings :=
  match (Value.ofText? (expand env text)).bind ofToml? with
  | some s => .ok s
  | none => .error (.settings "not settings in TOML")

-- Reads settings from the content of a file, which is none if it could not be read.
def load (env : Environment) (path : String) : Option String → Except Error Settings
  | some text => fromText env text
  | none => .error (.settingsNotFound path)

-- A path from the settings, seen from a directory unless it is absolute or begins at home.
def locate (home : Option String) (base path : String) : String :=
  Path.join base (Path.expandHome home path)

-- The file of the plan, seen from the directory of the settings.
def planPath (s : Settings) (home : Option String) (base : String) : Option String :=
  s.plan.path.map (locate home base)

-- The directory of the log, seen from the directory of the settings.
def logDir (s : Settings) (home : Option String) (base : String) : String :=
  locate home base s.log.dir

def toJson (s : Settings) : Json.Value :=
  .object [
    ("plan", .object [("path", (s.plan.path.map .string).getD .null)]),
    ("chat", .object [
      ("history_limit", .whole s.chat.historyLimit), ("prompt", .string s.chat.prompt)]),
    ("log", .object [("enabled", .bool s.log.enabled), ("dir", .string s.log.dir)])]

end Settings
end RoutingPlan
