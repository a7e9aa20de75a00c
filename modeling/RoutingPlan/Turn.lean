import RoutingPlan.Run
import RoutingPlan.Journal

-- Turns: whole runs of a plan, with all that came of them.

namespace RoutingPlan

open Json (Value)

-- The context with which a run begins, the run after its last move and the events on its way.
structure Turn where
  context : Context
  run : Run
  events : List Event

-- Runs a plan for at most the given number of moves.
def Plan.answer (p : Plan) (clock : Clock) (moves : Nat) (c : Context) : Turn :=
  let (run, events) := p.execute clock c moves
  ⟨c, run, events⟩

namespace Turn

-- The output of a run that has come to its end, if it left one, or the error that ended it.
def outcome? (t : Turn) : Option (Except Error (Option Value)) :=
  t.run.result?.map (·.map fun _ => t.run.context.output)

-- The records of the run as an indented JSON array.
def trace (t : Turn) : String :=
  (Value.array (t.run.context.records.map Record.toJson)).pretty

-- The lines of the events in a journal.
def journalLines (t : Turn) : List String :=
  t.events.map (Journal.line t.context.startedAt)

end Turn
end RoutingPlan
