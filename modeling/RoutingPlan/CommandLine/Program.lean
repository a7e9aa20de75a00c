import RoutingPlan.Bot
import RoutingPlan.Chat
import RoutingPlan.CommandLine.Arguments
import RoutingPlan.CommandLine.Failure
import RoutingPlan.Plan.File
import RoutingPlan.Settings

-- The program behind the command line. It is written for any host: what it asks of the machine it
-- runs on is gathered in `Host`, and `Program.execute` is everything it does with that.

namespace RoutingPlan.CommandLine

open Json (Value)

inductive Output where
  | out (text : String)
  | err (text : String)
  -- Text for the end of a file, which is made if it is not there, with the directories above it.
  -- Whether that succeeds makes no difference.
  | log (path : String) (text : String)

-- What the program asks of the machine it runs on.
structure Host (m : Type → Type) where
  contains : String → m Bool
  read : String → m (Except Fault String)
  -- The value of a variable of the environment.
  lookup : String → m (Option String)
  -- All lines of the standard input.
  inputLines : m (List String)
  now : m Instant
  -- The times of the records of a run.
  clock : m Clock
  freshRunId : m RunId
  emit : Output → m Unit
  -- Shows a prompt, reads a line and gives it to the chat, again and again until the chat is over.
  -- What there is to show of a turn comes before the next prompt.
  converse : Chat → String → (Turn → List Output) → m (Option Failure)

-- What the program does on its way to an end or a failure.
abbrev Program (m : Type → Type) := ExceptT Failure m

namespace Program

variable {m : Type → Type} [Monad m]

def ofExcept {α : Type} : Except Error α → Program m α
  | .ok a => pure a
  | .error e => throw (.ofError e)

def emit (host : Host m) (o : Output) : Program m Unit :=
  host.emit o

def seed (host : Host m) : Program m Context.Seed := do
  return ⟨← host.freshRunId, ← host.now, 0⟩

-- The values of some variables.
def environment (host : Host m) (names : List String) : Program m Settings.Environment := do
  let values ← names.mapM fun name => do
    let value ← host.lookup name
    return (name, value)
  return fun name => (Keyed.get? name values).join

-- The settings in a file, or the defaults where there is no file.
def settings (host : Host m) (path : String) : Program m Settings := do
  if ← host.contains path then
    let content := (← host.read path).toOption
    let env ← environment host ((content.map Settings.referencedNames).getD [])
    ofExcept (Settings.load env path content)
  else return {}

-- The plan in a file, or the plan of the built-in bot.
def plan (host : Host m) : Option String → Program m Plan
  | some path => do
    match Plan.ofFile Bot.registry.resolve path (← host.read path) with
    | .ok p => return p
    | .error e => throw (.because s!"failed to load plan from {path}" e)
  | none => ofExcept (Plan.fromJson Bot.registry.resolve Bot.planText)

-- The lines of a turn in the journal, if one is kept.
def journal (path : Option String) (t : Turn) : List Output :=
  path.toList.map (.log · (Journal.content t.journalLines))

def runOnce (host : Host m) (p : Plan) (path : Option String) (words : List String)
    (trace : Bool) : Program m Unit := do
  let words := " ".intercalate words
  let text ← if words.isEmpty then pure ("\n".intercalate (← host.inputLines)) else pure words
  let c ← ofExcept (Context.new (← seed host) (.string text))
  let t := p.answer (← host.clock) p.moves c
  if trace then emit host (.out (t.trace ++ "\n"))
  (journal path t).forM (emit host)
  match t.outcome? with
  | some (.ok (some output)) => emit host (.out (output.text ++ "\n"))
  | some (.error e) => throw (.ofError e)
  | some (.ok none) | none => return

def greeting : String :=
  "Switchyard v0.3.0\nType /quit to exit.\n\n"

-- What a chat shows of a turn.
def reply (t : Turn) : List Output :=
  match t.outcome? with
  | some (.ok output) =>
    let text := (output.map Value.text).getD ""
    [.out s!"Assistant > {text}\n"]
  | some (.error e) => [.err (Failure.ofError e).text]
  | none => []

def chat (host : Host m) (s : Settings) (p : Plan) (path : Option String) : Program m Unit := do
  emit host (.out greeting)
  path.forM fun path => emit host (.log path "")
  match ← host.converse (.start p s.chat.historyLimit ⟨0, false⟩) s.chat.prompt
      fun t => reply t ++ journal path t with
  | none => return
  | some f => throw f

-- The file of the journal, if one is to be kept.
def journalPath (host : Host m) (s : Settings) (home : Option String) (base : String) :
    Program m (Option String) := do
  if s.log.enabled then return some (Journal.filePath (s.logDir home base) (← host.now))
  else return none

def perform (host : Host m) (o : Options) (c : Command) : Program m Unit := do
  let config := o.config.getD "switchyard.toml"
  let base := (Path.parent? config).getD ""
  let s ← settings host config
  let home ← host.lookup "HOME"
  let p ← plan host (o.plan.or (s.planPath home base))
  match c with
  | .run words trace => runOnce host p (← journalPath host s home base) words trace
  | .chat => chat host s p (← journalPath host s home base)
  | .display => emit host (.out ((p.jsonText?.getD "") ++ "\n"))
  | .validate =>
    let root := (p.rootNode?.map (·.key)).getD ""
    emit host (.out s!"Plan OK: {p.nodeCount} nodes, root {root}\n")
  | .completions _ => return

def versionText : String :=
  "switchyard 0.3.0\n"

def usage : String :=
  "Route conversational input through a plan of steps\n\n" ++
  "Usage: switchyard [OPTIONS] [COMMAND]\n\n" ++
  "Commands:\n" ++
  "  chat         Start an interactive chat\n" ++
  "  run          Run a single input through the plan and exit\n" ++
  "  show         Print the loaded plan in normalized form\n" ++
  "  validate     Load the plan and report whether it is valid\n" ++
  "  completions  Generate shell completions\n" ++
  "  help         Print this message\n\n" ++
  "Options:\n" ++
  "  -c, --config <CONFIG>  Path to config file [default: switchyard.toml]\n" ++
  "  -p, --plan <PLAN>      Plan file to use instead of the configured one (.json or .toml)\n" ++
  "  -h, --help             Print help\n" ++
  "  -V, --version          Print version\n"

-- A line that makes the names of the commands known to a shell.
def completionScript : Shell → String
  | .bash => "complete -W 'chat run show validate completions help' switchyard\n"
  | .zsh => "compctl -k '(chat run show validate completions help)' switchyard\n"
  | .fish => "complete -c switchyard -f -a 'chat run show validate completions help'\n"
  | .elvish =>
    "set edit:completion:arg-completer[switchyard] = " ++
      "\x7b|@w| put chat run show validate completions help \x7d\n"
  | .powershell =>
    "Register-ArgumentCompleter -Native -CommandName switchyard -ScriptBlock " ++
      "\x7b 'chat', 'run', 'show', 'validate', 'completions', 'help' \x7d\n"

-- Everything the program does, up to the exit code.
def execute (host : Host m) (args : List String) : m Nat := do
  match Request.ofArguments args with
  | .misuse =>
    host.emit (.err usage)
    return 2
  | .help =>
    host.emit (.out usage)
    return 0
  | .version =>
    host.emit (.out versionText)
    return 0
  | .command _ (.completions shell) =>
    host.emit (.out (completionScript shell))
    return 0
  | .command o c =>
    match ← (perform host o c).run with
    | .ok () => return 0
    | .error f =>
      host.emit (.err f.text)
      return 1

end Program
end RoutingPlan.CommandLine
