import RoutingPlan.CommandLine.Program
import RoutingPlan.Files
import RoutingPlan.Text.Lines

-- Stages: the program can be rehearsed with files in memory, an input that is prepared, a clock
-- that stands still and an output that is collected.

namespace RoutingPlan.Rehearsal

open CommandLine

structure Stage where
  files : Files
  environment : Settings.Environment
  input : String
  now : Instant
  -- How many runs there have been.
  runs : Nat := 0
  out : String := ""
  err : String := ""

namespace Stage

def runId (n : Nat) : RunId :=
  ⟨s!"run{n}"⟩

def emit (s : Stage) : Output → Stage
  | .out text => { s with out := s.out ++ text }
  | .err text => { s with err := s.err ++ text }
  | .log path text =>
    match s.files.append path text with
    | .ok files => { s with files := files }
    | .error _ => s

-- Everything that a chat over the whole input shows.
def converse (s : Stage) (chat : Chat) (prompt : String) (display : Turn → List Output) :
    Option Failure × Stage :=
  let seeds (n : Nat) : Context.Seed := ⟨runId n, s.now, 0⟩
  let (turns, error) :=
    chat.turns (fun _ => .still s.now) chat.plan.moves seeds s.runs (Text.lines s.input)
  let shown := turns.flatMap (fun t => .out prompt :: display t) ++ [.out prompt]
  (error.map Failure.ofError, { shown.foldl emit s with runs := s.runs + turns.length })

def host : Host (StateM Stage) where
  contains path := return (← get).files.contains path
  read path := return (← get).files.read path
  lookup name := return (← get).environment name
  inputLines := return Text.lines (← get).input
  now := return (← get).now
  clock := return .still (← get).now
  freshRunId := modifyGet fun s => (runId s.runs, { s with runs := s.runs + 1 })
  emit o := modify (·.emit o)
  converse chat prompt display := modifyGet (·.converse chat prompt display)

-- The exit code of the program, and the stage after it.
def perform (s : Stage) (args : List String) : Nat × Stage :=
  (Program.execute host args).run s

end Stage
end RoutingPlan.Rehearsal
