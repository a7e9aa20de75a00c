import RoutingPlan.Journal

-- A journal beside others who publish, close the channel and fire the token between any two of its
-- looks. What is published before the token fires is written, with one exception: what comes while
-- the journal, having found nothing in the channel, is about to look at the token.

namespace RoutingPlan

namespace Channel

variable {α : Type} {c : Channel α} {cursor : Cursor}

theorem receive_of_lt (keeps : c.oldest ≤ cursor) (h : cursor < c.published.length) :
    c.receive cursor = (.item c.published[cursor], cursor + 1) := by
  rw [receive, if_neg (Nat.not_lt.mpr keeps), List.getElem?_eq_getElem h]

theorem receive_of_le (keeps : c.oldest ≤ cursor) (h : c.published.length ≤ cursor) :
    c.receive cursor = (if c.isOpen then .empty else .closed, cursor) := by
  rw [receive, if_neg (Nat.not_lt.mpr keeps), List.getElem?_eq_none h]

end Channel

namespace Journal

section Read

variable {j : Journal} {channel : Channel Event} (keeps : channel.oldest ≤ j.cursor)

include keeps

theorem read_of_lt (h : j.cursor < channel.published.length) :
    j.read channel =
      { j with
        cursor  := j.cursor + 1
        written := j.written ++ [channel.published[j.cursor]] } := by
  rw [read, Channel.receive_of_lt keeps h]

theorem read_of_le (h : channel.published.length ≤ j.cursor) :
    j.read channel = { j with phase := if channel.isOpen then .checking else .stopped } := by
  rw [read, Channel.receive_of_le keeps h]
  cases channel.isOpen <;> rfl

end Read

-- What can happen next.
inductive Act where
  | publish (e : Event)
  | close
  | fire
  | look

structure Scene where
  channel : Channel Event
  fired : Bool
  journal : Journal

namespace Scene

-- A journal of what is published on a channel from now on.
def begun (channel : Channel Event) : Scene :=
  ⟨channel, false, .start channel⟩

-- Nobody publishes on a closed channel.
def after (s : Scene) : Act → Scene
  | .publish e => if s.channel.isOpen then { s with channel := s.channel.publish e } else s
  | .close     => { s with channel := s.channel.close }
  | .fire      => { s with fired := true }
  | .look      => { s with journal := s.journal.move s.channel s.fired }

def afterAll (s : Scene) (acts : List Act) : Scene :=
  acts.foldl after s

def unread (s : Scene) : List Event :=
  s.channel.published.drop s.journal.cursor

-- At no time is more unread than the channel keeps.
def KeepsUp (s : Scene) (acts : List Act) : Prop :=
  ∀ early, early <+: acts → (s.afterAll early).unread.length ≤ s.channel.capacity

variable {channel : Channel Event} {s : Scene} {a : Act} {acts : List Act}

theorem afterAll_append (acts' : List Act) :
    s.afterAll (acts ++ acts') = (s.afterAll acts).afterAll acts' :=
  List.foldl_append

@[simp]
theorem capacity_after : (s.after a).channel.capacity = s.channel.capacity := by
  cases a <;> simp only [after, Channel.close]
  case publish => split <;> rfl

theorem published_prefix_after : s.channel.published <+: (s.after a).channel.published := by
  cases a with
  | publish e =>
    rw [after]
    split
    · exact List.prefix_append ..
    · exact List.prefix_rfl
  | close | fire | look => exact List.prefix_rfl

theorem published_prefix_afterAll :
    s.channel.published <+: (s.afterAll acts).channel.published := by
  induction acts generalizing s with
  | nil => exact List.prefix_rfl
  | cons a acts ih => exact published_prefix_after.trans ih

theorem keepsUp_nil : s.KeepsUp [] ↔ s.unread.length ≤ s.channel.capacity := by
  simp [KeepsUp, afterAll]

theorem keepsUp_cons :
    s.KeepsUp (a :: acts) ↔ s.unread.length ≤ s.channel.capacity ∧ (s.after a).KeepsUp acts := by
  simp only [KeepsUp, capacity_after]
  refine ⟨fun h => ⟨h [] List.nil_prefix, fun early he => ?_⟩, fun ⟨now, later⟩ early he => ?_⟩
  · exact h (a :: early) <| List.cons_prefix_cons.mpr ⟨rfl, he⟩
  · cases early with
    | nil => exact now
    | cons b early =>
      have ⟨same, he⟩ := List.cons_prefix_cons.mp he
      exact same ▸ later early he

instance decidableKeepsUp (s : Scene) : (acts : List Act) → Decidable (s.KeepsUp acts)
  | []        => decidable_of_iff _ keepsUp_nil.symm
  | a :: acts =>
    have := decidableKeepsUp (s.after a) acts
    decidable_of_iff _ keepsUp_cons.symm

theorem KeepsUp.right {acts' : List Act} (keeps : s.KeepsUp (acts ++ acts')) :
    (s.afterAll acts).KeepsUp acts' := by
  induction acts generalizing s with
  | nil => exact keeps
  | cons a acts ih => exact ih (keepsUp_cons.mp keeps).right

theorem KeepsUp.left {acts' : List Act} (keeps : s.KeepsUp (acts ++ acts')) : s.KeepsUp acts :=
  fun early h => keeps early <| h.trans <| List.prefix_append ..

theorem oldest_le_cursor (keeps : s.unread.length ≤ s.channel.capacity) :
    s.channel.oldest ≤ s.journal.cursor := by
  rw [unread, List.length_drop] at keeps
  exact Nat.sub_le_of_le_add <| by omega

-- What a journal that keeps up has come to: all that was published before its cursor is written,
-- and it has not stopped without a reason.
structure Faithful (channel : Channel Event) (s : Scene) : Prop where
  published : s.channel.published = channel.published ++ (s.journal.written ++ s.unread)
  cursor    : s.journal.cursor = channel.published.length + s.journal.written.length
  stopped   : s.journal.phase = .stopped →
    s.fired = true ∨ s.channel.isOpen = false ∧ s.unread = []

theorem faithful_begun (channel : Channel Event) : (begun channel).Faithful channel where
  published := by simp [begun, unread, Journal.start, Channel.subscribe]
  cursor    := rfl
  stopped   := nofun

namespace Faithful

theorem cursor_le (h : s.Faithful channel) : s.journal.cursor ≤ s.channel.published.length := by
  rw [h.published, h.cursor, List.length_append, List.length_append]
  exact Nat.add_le_add_left (Nat.le_add_right ..) _

theorem publish (h : s.Faithful channel) (e : Event) : (s.after (.publish e)).Faithful channel := by
  rw [after]
  split
  case isFalse => exact h
  case isTrue opened =>
    have unread : (s.channel.published ++ [e]).drop s.journal.cursor = s.unread ++ [e] :=
      List.drop_append_of_le_length h.cursor_le
    refine ⟨?_, h.cursor, fun stopped => (h.stopped stopped).imp_right fun ⟨closed, _⟩ => ?_⟩
    · refine Eq.trans (congrArg (· ++ [e]) h.published) ?_
      simp only [Scene.unread, Channel.publish_published, unread, List.append_assoc]
    · simp [closed] at opened

theorem read (h : s.Faithful channel) (keeps : s.unread.length ≤ s.channel.capacity)
    (phase : s.journal.phase = .reading) :
    ({ s with journal := s.journal.read s.channel } : Scene).Faithful channel := by
  have keeps := oldest_le_cursor keeps
  by_cases more : s.journal.cursor < s.channel.published.length
  case pos =>
    have next : s.unread = s.channel.published[s.journal.cursor] ::
        s.channel.published.drop (s.journal.cursor + 1) :=
      List.drop_eq_getElem_cons more
    rw [read_of_lt keeps more]
    refine ⟨?_, ?_, fun stopped => absurd (phase.symm.trans stopped) nofun⟩
    · refine h.published.trans ?_
      rw [next, List.append_cons]
      rfl
    · refine (congrArg (· + 1) h.cursor).trans ?_
      rw [List.length_append, List.length_singleton, Nat.add_assoc]
  case neg =>
    have done : s.unread = [] := List.drop_eq_nil_of_le (Nat.not_lt.mp more)
    rw [read_of_le keeps (Nat.not_lt.mp more)]
    refine ⟨h.published, h.cursor, fun stopped => .inr ⟨?_, done⟩⟩
    cases opened : s.channel.isOpen
    case false => rfl
    case true  => simp [opened] at stopped

theorem look (h : s.Faithful channel) (keeps : s.unread.length ≤ s.channel.capacity) :
    (s.after .look).Faithful channel := by
  rw [after, move]
  cases phase : s.journal.phase with
  | reading  => exact h.read keeps phase
  | checking =>
    refine ⟨h.published, h.cursor, fun stopped => .inl ?_⟩
    simpa [check] using stopped
  | stopped  => exact h

theorem after (h : s.Faithful channel) (keeps : s.unread.length ≤ s.channel.capacity) (a : Act) :
    (s.after a).Faithful channel := by
  cases a with
  | publish e => exact h.publish e
  | close     =>
    exact ⟨h.published, h.cursor, fun stopped => (h.stopped stopped).imp_right (⟨rfl, ·.2⟩)⟩
  | fire      => exact ⟨h.published, h.cursor, fun _ => .inl rfl⟩
  | look      => exact h.look keeps

theorem afterAll (h : s.Faithful channel) (keeps : s.KeepsUp acts) :
    (s.afterAll acts).Faithful channel := by
  induction acts generalizing s with
  | nil => exact h
  | cons a acts ih =>
    have ⟨now, later⟩ := keepsUp_cons.mp keeps
    exact ih (h.after now a) later

theorem prefix_written_iff_le {s' : Scene} (h : s.Faithful channel) (h' : s'.Faithful channel)
    (grows : s.channel.published <+: s'.channel.published) :
    s.journal.written ++ s.unread <+: s'.journal.written ↔
      s.channel.published.length ≤ s'.journal.cursor := by
  rw [h.published, h'.published, List.prefix_append_right_inj] at grows
  rw [h.published, h'.cursor, List.length_append, Nat.add_le_add_iff_left]
  refine ⟨List.IsPrefix.length_le, fun le => ?_⟩
  exact List.prefix_of_prefix_length_le grows (List.prefix_append ..) le

end Faithful

-- Once the token has fired, a journal that does not look at the channel next never does again.
theorem written_afterAll_of_fired (fired : s.fired = true) (phase : s.journal.phase ≠ .reading) :
    (s.afterAll acts).journal.written = s.journal.written := by
  induction acts generalizing s with
  | nil => rfl
  | cons a acts ih =>
    cases a with
    | publish e =>
      have same : (s.after (.publish e)).journal = s.journal := by
        rw [after]
        split <;> rfl
      have fired' : (s.after (.publish e)).fired = s.fired := by
        rw [after]
        split <;> rfl
      exact (ih (fired'.trans fired) (same ▸ phase)).trans (congrArg written same)
    | close => exact ih (s := s.after .close) fired phase
    | fire  => exact ih (s := s.after .fire) rfl phase
    | look  =>
      have stays : (s.after .look).journal.phase = .stopped ∧
          (s.after .look).journal.written = s.journal.written := by
        rw [after, move]
        cases h : s.journal.phase with
        | reading  => exact absurd h phase
        | checking => simp [check, fired]
        | stopped  => exact ⟨h, rfl⟩
      exact (ih (s := s.after .look) fired (by simp [stays.left])).trans stays.right

-- A journal that has yet to look at the channel goes past all that has been published by now before
-- it looks at the token.
def Passes (n : Nat) (s : Scene) : Prop :=
  s.journal.phase = .reading ∨ n ≤ s.journal.cursor

theorem Passes.look {n : Nat} (h : s.Passes n) (le : n ≤ s.channel.published.length)
    (keeps : s.unread.length ≤ s.channel.capacity) : (s.after .look).Passes n := by
  have keeps := oldest_le_cursor keeps
  rw [Passes, after, move]
  cases phase : s.journal.phase with
  | reading =>
    by_cases more : s.journal.cursor < s.channel.published.length
    case pos =>
      simp only [read_of_lt keeps more]
      exact .inl phase
    case neg =>
      simp only [read_of_le keeps (Nat.not_lt.mp more)]
      exact .inr (Nat.le_trans le (Nat.not_lt.mp more))
  | checking => exact .inr <| h.resolve_left (by simp [phase])
  | stopped  => exact .inr <| h.resolve_left (by simp [phase])

theorem Passes.after {n : Nat} (h : s.Passes n) (le : n ≤ s.channel.published.length)
    (keeps : s.unread.length ≤ s.channel.capacity) (a : Act) : (s.after a).Passes n := by
  cases a with
  | publish e =>
    rw [Scene.after]
    split <;> exact h
  | close | fire => exact h
  | look         => exact h.look le keeps

theorem Passes.afterAll {n : Nat} (h : s.Passes n) (le : n ≤ s.channel.published.length)
    (keeps : s.KeepsUp acts) : (s.afterAll acts).Passes n := by
  induction acts generalizing s with
  | nil => exact h
  | cons a acts ih =>
    have ⟨now, later⟩ := keepsUp_cons.mp keeps
    exact ih (h.after le now a) (Nat.le_trans le published_prefix_after.length_le) later

theorem fired_afterAll (h : s.fired = false) (unfired : .fire ∉ acts) :
    (s.afterAll acts).fired = false := by
  induction acts generalizing s with
  | nil => exact h
  | cons a acts ih =>
    rw [List.mem_cons, not_or] at unfired
    refine ih (s := s.after a) ?_ unfired.right
    cases a with
    | publish e =>
      rw [after]
      split <;> exact h
    | fire         => exact absurd rfl unfired.left
    | close | look => exact h

-- The events published since the journal began.
def news (channel : Channel Event) (s : Scene) : List Event :=
  s.channel.published.drop channel.published.length

theorem Faithful.news_eq (h : s.Faithful channel) :
    s.news channel = s.journal.written ++ s.unread := by
  rw [news, h.published, List.drop_left]

-- When the token fires, all that has been published is written in the end unless there is something
-- of it that the journal has not seen and will not look for.
theorem written_iff_of_fire {before later : List Act} (unfired : .fire ∉ before)
    (keeps : (begun channel).KeepsUp (before ++ .fire :: later))
    (stopped : ((begun channel).afterAll (before ++ .fire :: later)).journal.phase = .stopped) :
    ((begun channel).afterAll before).news channel <+:
        ((begun channel).afterAll (before ++ .fire :: later)).journal.written ↔
      ((begun channel).afterAll before).journal.phase ≠ .checking ∨
        ((begun channel).afterAll before).unread = [] := by
  have faithful := (faithful_begun channel).afterAll keeps.left
  have faithful' := (faithful_begun channel).afterAll keeps
  have unfired := fired_afterAll (s := begun channel) rfl unfired
  have keeps := keeps.right
  rw [afterAll_append] at stopped faithful' ⊢
  rw [faithful.news_eq]
  generalize (begun channel).afterAll before = s at *
  have grows : s.channel.published <+: (s.afterAll (.fire :: later)).channel.published :=
    published_prefix_afterAll
  constructor
  case mp =>
    intro all
    refine Decidable.or_iff_not_imp_left.mpr fun phase => ?_
    have phase : s.journal.phase = .checking := Decidable.not_not.mp phase
    have same : (s.afterAll (.fire :: later)).journal.written = s.journal.written :=
      written_afterAll_of_fired (s := s.after .fire) rfl <| by simp [Scene.after, phase]
    have le := (same ▸ all).length_le
    rw [List.length_append] at le
    exact List.length_eq_zero_iff.mp <| by omega
  case mpr =>
    intro h
    have passes : s.Passes s.channel.published.length := by
      cases phase : s.journal.phase with
      | reading  => exact .inl phase
      | checking => exact .inr <| List.drop_eq_nil_iff.mp <| h.resolve_left (absurd phase)
      | stopped  =>
        have ⟨_, unread⟩ := (faithful.stopped phase).resolve_left (by simp [unfired])
        exact .inr <| List.drop_eq_nil_iff.mp unread
    have passes := Passes.afterAll (s := s.after .fire) passes (Nat.le_refl _)
      (keepsUp_cons.mp keeps).right
    refine (faithful.prefix_written_iff_le faithful' grows).mpr ?_
    exact passes.resolve_left fun reading => nomatch stopped.symm.trans reading

def ending : Event := ⟨⟨"run"⟩, .runCompleted 1⟩

theorem written_ending :
    .fire ∉ [Act.publish ending] ∧
    (begun .ofDefault).KeepsUp ([.publish ending] ++ .fire :: [.look, .look, .look]) ∧
    ((begun .ofDefault).afterAll
      ([.publish ending] ++ .fire :: [.look, .look, .look])).journal.phase = .stopped ∧
    ((begun .ofDefault).afterAll [.publish ending]).news .ofDefault <+:
      ((begun .ofDefault).afterAll
        ([.publish ending] ++ .fire :: [.look, .look, .look])).journal.written := by
  have unfired : .fire ∉ [Act.publish ending] := by simp
  have keeps :
      (begun .ofDefault).KeepsUp ([.publish ending] ++ .fire :: [.look, .look, .look]) := by
    decide
  exact ⟨unfired, keeps, rfl, (written_iff_of_fire unfired keeps rfl).mpr (.inl (by decide))⟩

-- The last event of a run comes, and the token fires, while the journal is about to look at the
-- token.
theorem lost_ending :
    .fire ∉ [Act.look, .publish ending] ∧
    (begun .ofDefault).KeepsUp ([.look, .publish ending] ++ .fire :: [.look]) ∧
    ((begun .ofDefault).afterAll
      ([.look, .publish ending] ++ .fire :: [.look])).journal.phase = .stopped ∧
    ending ∈ ((begun .ofDefault).afterAll [.look, .publish ending]).news .ofDefault ∧
    ending ∉ ((begun .ofDefault).afterAll
      ([.look, .publish ending] ++ .fire :: [.look])).journal.written := by
  refine ⟨by simp, by decide, rfl, ?_, ?_⟩ <;> decide

end Scene
end Journal
end RoutingPlan
