-- A broadcast channel of bounded length. Every reader sees what is published after it began to
-- read, but only the newest values are kept: a reader that falls behind is told once how many it
-- has missed.

namespace RoutingPlan

-- Everything published so far, oldest first, of which the last `capacity` values are kept.
structure Channel (α : Type) where
  capacity : Nat
  published : List α
  isOpen : Bool

-- The number of the value that a reader reads next.
abbrev Cursor := Nat

-- What a reader finds.
inductive Receipt (α : Type) where
  | item (a : α)
  | lagged (missed : Nat)
  | empty
  | closed

namespace Channel

variable {α : Type}

-- The capacity is rounded up to a power of two. There is no channel of capacity zero.
def create (capacity : Nat) : Option (Channel α) :=
  if capacity = 0 then none
  else some ⟨capacity.nextPowerOfTwo, [], true⟩

-- The capacity where nobody asks for another.
def defaultCapacity : Nat := 256

def ofDefault : Channel α :=
  ⟨defaultCapacity, [], true⟩

def publish (c : Channel α) (a : α) : Channel α :=
  { c with published := c.published ++ [a] }

def publishAll (c : Channel α) (as : List α) : Channel α :=
  { c with published := c.published ++ as }

def close (c : Channel α) : Channel α :=
  { c with isOpen := false }

-- A new reader begins after everything published so far.
def subscribe (c : Channel α) : Cursor :=
  c.published.length

-- The number of the oldest value that is kept.
def oldest (c : Channel α) : Cursor :=
  c.published.length - c.capacity

-- What a reader finds, and where it goes on. A closed channel still gives out what it keeps.
def receive (c : Channel α) (cursor : Cursor) : Receipt α × Cursor :=
  if cursor < c.oldest then (.lagged (c.oldest - cursor), c.oldest)
  else
    match c.published[cursor]? with
    | some a => (.item a, cursor + 1)
    | none => (if c.isOpen then .empty else .closed, cursor)

-- What a reader gets in at most `n` readings until there is nothing more.
def drain (c : Channel α) : Nat → Cursor → List α
  | 0, _ => []
  | n + 1, cursor =>
    match c.receive cursor with
    | (.item a, cursor) => a :: c.drain n cursor
    | (.lagged _, cursor) => c.drain n cursor
    | (.empty, _) | (.closed, _) => []

@[simp]
theorem publish_published (c : Channel α) (a : α) : (c.publish a).published = c.published ++ [a] :=
  rfl

end Channel
end RoutingPlan
