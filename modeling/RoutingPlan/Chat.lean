import RoutingPlan.Turn

-- Chats: every line that somebody enters is a turn, until a line is blank or says goodbye. A turn
-- that fails is part of the conversation like any other. `Chat.turns` takes a whole list of lines.

namespace RoutingPlan

structure Chat where
  plan : Plan
  -- How many messages go along from one turn to the next.
  historyLimit : Nat
  -- The token that all turns go by.
  token : Token
  -- The context of the last turn.
  previous : Option Context

-- What comes of a line.
inductive Chat.Reaction where
  | leave
  | fail (e : Error)
  | answer (t : Turn)

namespace Chat

def start (plan : Plan) (historyLimit : Nat) (token : Token) : Chat :=
  ⟨plan, historyLimit, token, none⟩

def farewells : List String :=
  ["/quit", "/exit", "/q"]

-- Whether a line, without the blanks around it, ends the chat.
def isFarewell (text : String) : Bool :=
  text.isEmpty || farewells.contains text

-- The context of the next turn. The first one gets the token of the chat, and every other one the
-- token of the turn before it.
def nextContext (chat : Chat) (seed : Context.Seed) (text : String) : Except Error Context :=
  match chat.previous with
  | none => (Context.new seed (.string text)).map (·.withToken chat.token)
  | some c => c.nextTurn seed (.string text) chat.historyLimit

-- A turn makes at most the given number of moves.
def hear (chat : Chat) (clock : Clock) (moves : Nat) (seed : Context.Seed) (line : String) :
    Reaction :=
  let text := Text.trim line
  if isFarewell text then .leave
  else
    match chat.nextContext seed text with
    | .ok c => .answer (chat.plan.answer clock moves c)
    | .error e => .fail e

-- The chat after a turn.
def after (chat : Chat) (t : Turn) : Chat :=
  { chat with previous := some t.run.context }

-- The turns for a list of lines, and the error that ends the chat, if one does. The `n`-th turn has
-- the `n`-th clock and the `n`-th seed.
def turns (chat : Chat) (clocks : Nat → Clock) (moves : Nat) (seeds : Nat → Context.Seed)
    (n : Nat) : List String → List Turn × Option Error
  | [] => ([], none)
  | line :: lines =>
    match chat.hear (clocks n) moves (seeds n) line with
    | .leave => ([], none)
    | .fail e => ([], some e)
    | .answer t =>
      let (ts, e) := (chat.after t).turns clocks moves seeds (n + 1) lines
      (t :: ts, e)

end Chat
end RoutingPlan
