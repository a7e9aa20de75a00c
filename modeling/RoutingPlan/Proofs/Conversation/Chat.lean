import RoutingPlan.Chat
import RoutingPlan.Proofs.Conversation.Transcript
import RoutingPlan.Proofs.Run.Drive
import RoutingPlan.Proofs.Run.Termination

-- Chats: each line up to the one that ends the chat is a turn of its own, however the runs before
-- it have ended, and takes along what is left of all that has been said until then.

namespace RoutingPlan

-- What has come of a run of the plan that has been taken to its end.
def Plan.RunsTo (p : Plan) (clock : Clock) (c : Context) (t : Turn) : Prop :=
  t.run.result?.isSome ∧ ∃ n, t = p.answer clock n c

section RunsTo

variable {p : Plan} {clock : Clock} {c : Context} {t : Turn} {m n : Nat}

-- A run that has come to its end makes no use of more moves.
theorem Plan.answer_eq_of_le (finished : (p.answer clock m c).run.result?.isSome) (le : m ≤ n) :
    p.answer clock n c = p.answer clock m c := by
  rw [answer, execute, Run.drive_eq_of_stuck (Run.move_eq_none_of_result? finished) le]
  rfl

theorem Plan.RunsTo.eq_answer (h : p.RunsTo clock c t)
    (finished : (p.answer clock n c).run.result?.isSome) : t = p.answer clock n c := by
  obtain ⟨finished', m, rfl⟩ := h
  cases Nat.le_total m n with
  | inl le => exact (answer_eq_of_le finished' le).symm
  | inr le => exact answer_eq_of_le finished le

theorem Plan.runsTo_answer (sound : p.Sound) (acyclic : p.Acyclic)
    (prompt : ∀ node ∈ p.nodes, ∀ x c, Invocation.Answers ⟨x, node.step, c⟩) (clock : Clock)
    (c : Context) : p.RunsTo clock c (p.answer clock p.moves c) :=
  ⟨Run.result?_execute_isSome sound acyclic prompt, p.moves, rfl⟩

theorem Plan.exists_context_answer_eq (p : Plan) (clock : Clock) (n : Nat) (c : Context) :
    ∃ output routeKey records,
      (p.answer clock n c).run.context = { c with output, routeKey, records } :=
  Run.exists_context_drive_eq n (.start p clock c)

end RunsTo

namespace Chat

open Context (lastOf)

-- A line ends the chat if nothing but blanks or a farewell stands in it.
def Ends (line : String) : Prop :=
  Text.trim line ∈ ["", "/quit", "/exit", "/q"]

instance : DecidablePred Ends :=
  fun line => inferInstanceAs <| Decidable (Text.trim line ∈ _)

-- The lines before the first one that ends the chat.
def heard (lines : List String) : List String :=
  lines.takeWhile (¬Ends ·)

-- What is said in the turn for a line.
def exchange (line : String) (t : Turn) : List Message :=
  ⟨.user, Text.trim line⟩ :: (t.run.context.output.map fun v => ⟨.assistant, v.text⟩).toList

def transcript (turns : List (String × Turn)) : List Message :=
  turns.flatMap fun (line, t) => exchange line t

-- The context in which a line is answered before which something has been said.
def contextFor (limit : Nat) (token : Token) (seed : Context.Seed) (said : List Message)
    (line : String) : Context :=
  { runId     := seed.runId
    input     := .string (Text.trim line)
    output    := none
    routeKey  := none
    records   := []
    history   := lastOf limit said
    startedAt := seed.startedAt
    token     := token }

def reply (chat : Chat) (clock : Clock) (moves : Nat) (seed : Context.Seed) (said : List Message)
    (line : String) : Turn :=
  chat.plan.answer clock moves (contextFor chat.historyLimit chat.token seed said line)

-- Whatever the next line is, its turn takes along what is left of what has been said.
def Remembers (chat : Chat) (said : List Message) : Prop :=
  ∀ seed line, ¬Ends line → chat.nextContext seed (Text.trim line) =
    .ok (contextFor chat.historyLimit chat.token seed said line)

variable {p : Plan} {limit : Nat} {token : Token} {chat : Chat} {said : List Message}
  {clock : Clock} {clocks : Nat → Clock} {seed seed' : Context.Seed} {seeds : Nat → Context.Seed}
  {moves n : Nat} {line line' : String} {lines : List String}

theorem isFarewell_trim_iff : isFarewell (Text.trim line) ↔ Ends line := by
  simp [isFarewell, farewells, Ends]

-- Both checks for blanks agree: what is left of a line that is trimmed is accepted as an input.
theorem isEmptyInput_trim (goesOn : ¬Ends line) :
    Context.isEmptyInput (.string (Text.trim line)) = false := by
  apply Bool.eq_false_iff.mpr
  intro blank
  exact goesOn <| by simp [Ends, Text.isBlank_trim_iff.mp blank]

theorem remembers_start : (start p limit token).Remembers [] := by
  intro seed line goesOn
  simp [start, nextContext, Context.new, isEmptyInput_trim goesOn, Except.map, contextFor, lastOf,
    Context.withToken]

-- What a turn leaves behind for the next one, whether its run has succeeded, failed or not ended.
theorem nextTurn_answer (goesOn : ¬Ends line') :
    let t := p.answer clock moves (contextFor limit token seed said line)
    t.run.context.nextTurn seed' (.string (Text.trim line')) limit =
      .ok (contextFor limit token seed' (said ++ exchange line t) line') := by
  intro t
  let c := contextFor limit token seed said line
  have ⟨output, routeKey, records, left⟩ := p.exists_context_answer_eq clock moves c
  let round : Context.Round :=
    ⟨output, routeKey, records, false, seed', .string (Text.trim line'), limit⟩
  have written : t.run.context = c.afterRun round :=
    left.trans <| by simp [Context.afterRun, round]
  have said' : (c.afterRun round).exchange = exchange line t := by
    rw [exchange, written]
    rfl
  calc t.run.context.nextTurn seed' (.string (Text.trim line')) limit
    _ = .ok (c.following round) := by
      rw [written, Context.nextTurn_afterRun, isEmptyInput_trim goesOn]
      rfl
    _ = .ok (contextFor limit token seed' (said ++ exchange line t) line') := by
      rw [Context.following, said']
      simp [contextFor, c, round, Context.lastOf_lastOf_append, Context.afterRun]

theorem remembers_after (chat : Chat) (clock : Clock) (moves : Nat) (seed : Context.Seed)
    (said : List Message) (line : String) :
    (chat.after (chat.reply clock moves seed said line)).Remembers
      (said ++ exchange line (chat.reply clock moves seed said line)) :=
  fun _ _ goesOn => nextTurn_answer goesOn

theorem turns_cons_of_ends (ends : Ends line) :
    chat.turns clocks moves seeds n (line :: lines) = ([], none) := by
  rw [turns, hear, if_pos (isFarewell_trim_iff.mpr ends)]

theorem heard_cons_of_ends (ends : Ends line) : heard (line :: lines) = [] := by
  simp [heard, ends]

theorem heard_cons (goesOn : ¬Ends line) : heard (line :: lines) = line :: heard lines := by
  simp [heard, goesOn]

namespace Remembers

variable (remembers : chat.Remembers said)
include remembers

theorem hear (goesOn : ¬Ends line) :
    chat.hear clock moves seed line = .answer (chat.reply clock moves seed said line) := by
  rw [Chat.hear, if_neg (mt isFarewell_trim_iff.mp goesOn), remembers seed line goesOn]
  rfl

theorem turns_cons (goesOn : ¬Ends line) {ts : List Turn} {e : Option Error}
    (later : (chat.after (chat.reply (clocks n) moves (seeds n) said line)).turns clocks moves seeds
      (n + 1) lines = (ts, e)) :
    chat.turns clocks moves seeds n (line :: lines) =
      (chat.reply (clocks n) moves (seeds n) said line :: ts, e) := by
  rw [Chat.turns, remembers.hear goesOn]
  simp only [later]

-- No line but the last one ends the chat, and no run does.
theorem exists_turns (clocks : Nat → Clock) (moves : Nat) (seeds : Nat → Context.Seed) (n : Nat)
    (lines : List String) :
    ∃ ts, chat.turns clocks moves seeds n lines = (ts, none) ∧ ts.length = (heard lines).length ∧
      ∀ k line t, ((heard lines).zip ts)[k]? = some (line, t) →
        t = chat.reply (clocks (n + k)) moves (seeds (n + k))
          (said ++ transcript (((heard lines).zip ts).take k)) line := by
  induction lines generalizing chat said n with
  | nil => exact ⟨[], rfl, rfl, by simp [heard]⟩
  | cons line lines ih =>
    by_cases ends : Ends line
    case pos =>
      rw [turns_cons_of_ends ends, heard_cons_of_ends ends]
      exact ⟨[], rfl, rfl, by simp⟩
    case neg =>
      have ⟨ts, later, length, each⟩ :=
        ih (remembers_after chat (clocks n) moves (seeds n) said line) (n + 1)
      refine ⟨_, remembers.turns_cons ends later, by simp [heard_cons ends, length], ?_⟩
      rw [heard_cons ends]
      intro k line' t h
      cases k with
      | zero =>
        cases h
        simp [transcript]
      | succ k =>
        have answered := each k line' t h
        rw [answered, Nat.add_right_comm, List.append_assoc]
        rfl

-- With moves enough for every run there is one way for a chat to go.
theorem exists_enough
    (returns : ∀ n c, c.records = [] → ∃ t, chat.plan.RunsTo (clocks n) c t)
    (seeds : Nat → Context.Seed) (n : Nat) (lines : List String) :
    ∃ ts enough, (∀ t ∈ ts, t.run.result?.isSome) ∧
      ∀ moves, enough ≤ moves → chat.turns clocks moves seeds n lines = (ts, none) := by
  induction lines generalizing chat said n with
  | nil => exact ⟨[], 0, by simp, fun _ _ => rfl⟩
  | cons line lines ih =>
    by_cases ends : Ends line
    case pos => exact ⟨[], 0, by simp, fun _ _ => turns_cons_of_ends ends⟩
    case neg =>
      obtain ⟨t, finished, m, rfl⟩ :=
        returns n (contextFor chat.historyLimit chat.token (seeds n) said line) rfl
      have ⟨ts, enough, ended, later⟩ :=
        ih (remembers_after chat (clocks n) m (seeds n) said line) returns (n + 1)
      refine ⟨_, max m enough, List.forall_mem_cons.mpr ⟨finished, ended⟩, fun moves le => ?_⟩
      have ⟨le, le'⟩ := Nat.max_le.mp le
      have same : chat.reply (clocks n) moves (seeds n) said line =
          chat.reply (clocks n) m (seeds n) said line :=
        Plan.answer_eq_of_le finished le
      rw [remembers.turns_cons ends (same ▸ later moves le'), same]
      rfl

end Remembers

-- A chat is one run for each line up to the first one that ends it, and each run, whether those
-- before it have succeeded or failed, begins with what is left of all that has been said.
theorem turns_eq_of_returns (clocks : Nat → Clock)
    (returns : ∀ n c, c.records = [] → ∃ t, p.RunsTo (clocks n) c t)
    (limit : Nat) (token : Token) (seeds : Nat → Context.Seed) (n : Nat) (lines : List String) :
    ∃ ts enough,
      (∀ moves, enough ≤ moves →
        (start p limit token).turns clocks moves seeds n lines = (ts, none)) ∧
      ts.length = (heard lines).length ∧
      ∀ k line t, ((heard lines).zip ts)[k]? = some (line, t) →
        p.RunsTo (clocks (n + k))
          { runId     := (seeds (n + k)).runId
            input     := .string (Text.trim line)
            output    := none
            routeKey  := none
            records   := []
            history   := lastOf limit (transcript (((heard lines).zip ts).take k))
            startedAt := (seeds (n + k)).startedAt
            token     := token } t := by
  have remembers : (start p limit token).Remembers [] := remembers_start
  have ⟨ts, enough, ended, all⟩ := remembers.exists_enough returns seeds n lines
  have ⟨ts', all', length, each⟩ := remembers.exists_turns clocks enough seeds n lines
  cases (all enough le_rfl).symm.trans all'
  refine ⟨ts, enough, all, length, fun k line t h => ?_⟩
  exact ⟨ended t (List.of_mem_zip <| List.mem_of_getElem? h).right, enough, each k line t h⟩

-- The clerk repeats what it is asked, and the desk knows no way on but "on", on which nothing is
-- answered after all.
def kiosk : Plan.Builder :=
  let (clerk, b) := Plan.Builder.empty.addStep <| .action "clerk" fun input _ => .done (some input)
  let (desk, b) := b.addStep <| .router "desk" fun input _ => .done (some input.text)
  let (file, b) := b.addStep <| .action "file" fun _ _ => .done none
  (b.branch desk "on" file).2.chainTo clerk desk

theorem acyclic_kiosk : kiosk.draft.Acyclic := by
  apply Plan.acyclic_of_ways [⟨0⟩, ⟨1⟩, ⟨2⟩] NodeId.index <;> decide +kernel

theorem runsTo_kiosk (clock : Clock) (c : Context) :
    kiosk.draft.RunsTo clock c (kiosk.draft.answer clock kiosk.draft.moves c) := by
  have built : kiosk.build ⟨0⟩ = .ok kiosk.draft := rfl
  refine Plan.runsTo_answer (Plan.sound_of_build built) acyclic_kiosk ?_ clock c
  refine List.forall_mem_cons.mpr ⟨?_, List.forall_mem_cons.mpr ⟨?_,
    List.forall_mem_cons.mpr ⟨?_, List.forall_mem_nil _⟩⟩⟩ <;> exact nofun

-- The second line is answered although its run fails, and the first and the third one are not.
def enquiries : List String :=
  ["  on ", "off\n", "\u3000on", " /q ", "on"]

def seedAt (n : Nat) : Context.Seed :=
  ⟨⟨toString n⟩, ⟨0, 0⟩, n⟩

-- Each record of a turn takes a second.
def clockAt (n : Nat) : Clock :=
  fun k => (⟨60 * n + k, 0⟩, ⟨60 * n + k + 1, 0⟩)

theorem turns_enquiries :
    (∀ n c, c.records = [] → ∃ t, kiosk.draft.RunsTo (clockAt n) c t) ∧
    ∃ ts enough,
      (∀ moves, enough ≤ moves →
        (start kiosk.draft 2 ⟨7, false⟩).turns clockAt moves seedAt 0 enquiries = (ts, none)) ∧
      ts.map (fun t => (t.context.history, t.run.result?)) =
        [([], some (.ok ())),
          ([⟨.user, "on"⟩], some (.error (.unmatchedRouteKey "desk" "off"))),
          ([⟨.user, "off"⟩, ⟨.assistant, "off"⟩], some (.ok ()))] := by
  have returns (n : Nat) (c : Context) (_ : c.records = []) :
      ∃ t, kiosk.draft.RunsTo (clockAt n) c t :=
    ⟨_, runsTo_kiosk _ c⟩
  have ⟨ts, enough, all, length, each⟩ :=
    turns_eq_of_returns clockAt returns 2 ⟨7, false⟩ seedAt 0 enquiries
  have three : heard enquiries = ["  on ", "off\n", "\u3000on"] := by
    decide +kernel
  rw [three] at length each
  obtain ⟨first, second, third, rfl⟩ := List.length_eq_three.mp length
  have asked (k : Nat) (before : List (String × Turn)) (line : String) (t : Turn)
      (returned : kiosk.draft.RunsTo (clockAt k)
        (contextFor 2 ⟨7, false⟩ (seedAt k) (transcript before) line) t) :
      t = kiosk.draft.answer (clockAt k) kiosk.draft.moves
        (contextFor 2 ⟨7, false⟩ (seedAt k) (transcript before) line) :=
    returned.eq_answer (runsTo_kiosk _ _).left
  obtain rfl := asked 0 [] _ first <| each 0 _ first rfl
  obtain rfl := asked 1 [_] _ second <| each 1 _ second rfl
  obtain rfl := asked 2 [_, _] _ third <| each 2 _ third rfl
  exact ⟨returns, _, enough, all, by decide +kernel⟩

end Chat
end RoutingPlan
