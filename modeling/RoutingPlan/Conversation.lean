import RoutingPlan.Context

-- Conversations: the context of the current turn, the one before it and the tokens that both go by.

namespace RoutingPlan

open Json (Value)

structure Conversation where
  current : Option Context := none
  previous : Option Context := none
  -- How many tokens there have been.
  tokens : Nat := 0
deriving DecidableEq

namespace Conversation

-- Goes on with a context; the current one becomes the previous one.
def advance (c : Conversation) (next : Context) : Conversation :=
  ⟨some next, c.current, c.tokens + 1⟩

def seed (c : Conversation) (runId : RunId) (startedAt : Instant) : Context.Seed :=
  ⟨runId, startedAt, c.tokens⟩

-- Begins anew, without history.
def start (c : Conversation) (runId : RunId) (startedAt : Instant) (input : Value) :
    Except Error Conversation :=
  (Context.new (c.seed runId startedAt) input).map c.advance

-- The next turn, or the first one.
def turn (c : Conversation) (runId : RunId) (startedAt : Instant) (input : Value) (limit : Nat) :
    Except Error Conversation :=
  (Context.follow c.current (c.seed runId startedAt) input limit).map c.advance

-- Changes the current context, if there is one.
def update (c : Conversation) (f : Context → Context) : Conversation :=
  { c with current := c.current.map f }

-- Gives the current context a token of its own.
def withFreshToken (c : Conversation) : Conversation :=
  { c.update (·.withToken ⟨c.tokens, false⟩) with tokens := c.tokens + 1 }

-- Has a token fire, for every context that goes by it.
def fire (c : Conversation) (token : Token) : Conversation :=
  { c with
    current := c.current.map (·.fire token.id)
    previous := c.previous.map (·.fire token.id) }

-- Has the token of the current context fire.
def cancel (c : Conversation) : Conversation :=
  match c.current with
  | some ctx => c.fire ctx.token
  | none => c

-- Has the token of the previous context fire.
def cancelPrevious (c : Conversation) : Conversation :=
  match c.previous with
  | some ctx => c.fire ctx.token
  | none => c

end Conversation
end RoutingPlan
