import RoutingPlan.Channel
import RoutingPlan.Event
import RoutingPlan.Json.Printer
import RoutingPlan.Path

-- The journal: writes the events of a channel as lines of JSON until its token fires or the channel
-- closes. In each round it looks at the channel first and, only when nothing waits there, at the
-- token. Between the two looks others can publish and the token can fire.

namespace RoutingPlan

open Json (Value)

inductive Journal.Phase where
  -- The channel is looked at next.
  | reading
  -- Nothing waited in the channel; the token is looked at next.
  | checking
  | stopped
deriving DecidableEq

structure Journal where
  cursor : Cursor
  written : List Event
  -- How many events the channel has reported as missed.
  missed : Nat
  phase : Journal.Phase
deriving DecidableEq

namespace Journal

-- A journal of what is published from now on.
def start (channel : Channel Event) : Journal :=
  ⟨channel.subscribe, [], 0, .reading⟩

-- One look at the channel.
def read (j : Journal) (channel : Channel Event) : Journal :=
  match channel.receive j.cursor with
  | (.item e, cursor) => { j with cursor := cursor, written := j.written ++ [e] }
  | (.lagged n, cursor) => { j with cursor := cursor, missed := j.missed + n }
  | (.empty, _) => { j with phase := .checking }
  | (.closed, _) => { j with phase := .stopped }

-- One look at the token.
def check (j : Journal) (fired : Bool) : Journal :=
  { j with phase := if fired then .stopped else .reading }

-- One look at whatever comes next.
def move (j : Journal) (channel : Channel Event) (fired : Bool) : Journal :=
  match j.phase with
  | .reading => j.read channel
  | .checking => j.check fired
  | .stopped => j

-- At most `n` looks while nothing is published and the token stays as it is.
def moves (channel : Channel Event) (fired : Bool) : Nat → Journal → Journal
  | 0, j => j
  | n + 1, j => moves channel fired n (j.move channel fired)

-- Looks enough for a journal that will stop: one for each event and three more.
def finish (j : Journal) (channel : Channel Event) (fired : Bool) : Journal :=
  moves channel fired (channel.published.length + 3) j

-- The line of an event: its members after the time at which it is written.
def line (time : Instant) (e : Event) : String :=
  (Value.object (("timestamp", .string time.offsetText) :: e.members)).compact

-- The lines of a journal, each with the time at which it was written.
def lines (time : Nat → Instant) (j : Journal) : List String :=
  j.written.zipIdx.map fun (e, n) => line (time n) e

-- What a file holds for a list of lines: each of them ends with a line feed.
def content (lines : List String) : String :=
  String.join (lines.map (· ++ "\n"))

-- The name of the file of a journal, after the time at which it begins.
def fileName (now : Instant) : String :=
  let d := now.date
  let s := now.secondOfDay
  String.ofList (Instant.padded 4 d.year.toNat ++ Instant.padded 2 d.month ++
    Instant.padded 2 d.day ++ '_' :: Instant.padded 2 (s / 3600) ++
    Instant.padded 2 (s / 60 % 60) ++ Instant.padded 2 (s % 60)) ++ ".jsonl"

-- The file of a journal that begins at a time, in a directory.
def filePath (dir : String) (now : Instant) : String :=
  Path.join dir (fileName now)

end Journal
end RoutingPlan
