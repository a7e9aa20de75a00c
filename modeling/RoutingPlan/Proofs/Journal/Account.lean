import Mathlib.Algebra.GroupWithZero.Nat
import Mathlib.Algebra.Order.BigOperators.Group.List
import Mathlib.Data.List.Forall2
import RoutingPlan.Proofs.Journal.Interleaving

-- What becomes of every event that is published while there is a journal, also when the journal
-- does not keep up. Each look at the channel accounts for a stretch of the events: one that is
-- written, some that the channel no longer keeps, or none. The stretches come one after the other,
-- and what is left after them is unread.

namespace RoutingPlan

namespace Receipt

variable {α : Type}

def items : Receipt α → List α
  | item a                    => [a]
  | lagged _ | empty | closed => []

def missed : Receipt α → Nat
  | lagged n                => n
  | item _ | empty | closed => 0

-- The stretch of what has been published that a receipt accounts for.
def Covers : Receipt α → List α → Prop
  | item a, stretch                  => stretch = [a]
  | lagged n, stretch                => stretch.length = n
  | empty, stretch | closed, stretch => stretch = []

variable {r : Receipt α} {rs : List (Receipt α)} {stretch : List α} {stretches : List (List α)}

theorem Covers.sublist (h : r.Covers stretch) : r.items.Sublist stretch := by
  cases r with
  | item a                    => exact (show stretch = [a] from h) ▸ .refl _
  | lagged _ | empty | closed => exact List.nil_sublist _

theorem Covers.length_eq (h : r.Covers stretch) : stretch.length = r.items.length + r.missed := by
  cases r with
  | item a         => rw [show stretch = [a] from h]; rfl
  | lagged n       => exact h.trans (Nat.zero_add n).symm
  | empty | closed => rw [show stretch = [] from h]; rfl

theorem sublist_of_covers (h : List.Forall₂ Covers rs stretches) :
    (rs.flatMap items).Sublist stretches.flatten := by
  induction h with
  | nil => exact .refl _
  | cons covers _ ih =>
    rw [List.flatMap_cons, List.flatten_cons]
    exact covers.sublist.append ih

theorem length_flatten_of_covers (h : List.Forall₂ Covers rs stretches) :
    stretches.flatten.length = (rs.flatMap items).length + (rs.map missed).sum := by
  induction h with
  | nil => rfl
  | cons covers _ ih =>
    simp only [List.flatMap_cons, List.flatten_cons, List.map_cons, List.sum_cons,
      List.length_append, ih, covers.length_eq]
    omega

end Receipt

namespace Channel

variable {α : Type} {c : Channel α} {cursor : Cursor}

-- What a reader can find, and where it then goes on.
inductive Finds (c : Channel α) (cursor : Cursor) : Receipt α × Cursor → Prop
  | lagged (behind : cursor < c.oldest) : Finds c cursor (.lagged (c.oldest - cursor), c.oldest)
  | item (more : cursor < c.published.length) :
    Finds c cursor (.item c.published[cursor], cursor + 1)
  | empty (none : c.published.length ≤ cursor) : Finds c cursor (.empty, cursor)
  | closed (none : c.published.length ≤ cursor) (closed : c.isOpen = false) :
    Finds c cursor (.closed, cursor)

theorem finds_receive : c.Finds cursor (c.receive cursor) := by
  by_cases behind : cursor < c.oldest
  case pos =>
    rw [receive, if_pos behind]
    exact .lagged behind
  case neg =>
    have keeps := Nat.not_lt.mp behind
    by_cases more : cursor < c.published.length
    case pos =>
      rw [receive_of_lt keeps more]
      exact .item more
    case neg =>
      have none := Nat.not_lt.mp more
      rw [receive_of_le keeps none]
      cases opened : c.isOpen with
      | true  => exact .empty none
      | false => exact .closed none opened

variable {found : Receipt α × Cursor}

-- A reader gets on by the stretch that its receipt accounts for.
theorem Finds.exists_stretch (finds : c.Finds cursor found) (h : cursor ≤ c.published.length) :
    ∃ stretch, found.1.Covers stretch ∧
      c.published.drop cursor = stretch ++ c.published.drop found.2 ∧
      cursor ≤ found.2 ∧ found.2 ≤ c.published.length := by
  cases finds with
  | lagged behind =>
    have oldest : c.oldest ≤ c.published.length := Nat.sub_le ..
    have halves := List.take_append_drop (c.oldest - cursor) (c.published.drop cursor)
    rw [List.drop_drop, Nat.add_sub_cancel' (Nat.le_of_lt behind)] at halves
    refine ⟨_, ?_, halves.symm, Nat.le_of_lt behind, oldest⟩
    simp only [Receipt.Covers, List.length_take, List.length_drop]
    exact Nat.min_eq_left (Nat.sub_le_sub_right oldest cursor)
  | item more      => exact ⟨_, rfl, List.drop_eq_getElem_cons more, Nat.le_succ _, more⟩
  | empty | closed => exact ⟨[], rfl, rfl, Nat.le_refl _, h⟩

theorem Finds.of_closed (finds : c.Finds cursor found) (h : found.1 = .closed) :
    c.isOpen = false ∧ c.published.drop found.2 = [] := by
  cases finds with
  | lagged | item | empty => cases h
  | closed none closed    => exact ⟨closed, List.drop_eq_nil_of_le none⟩

end Channel

namespace Journal

-- What a journal does after it has found something in the channel.
def phaseAfter (phase : Phase) : Receipt Event → Phase
  | .item _ | .lagged _ => phase
  | .empty              => .checking
  | .closed             => .stopped

variable {j : Journal} {channel : Channel Event}

theorem read_eq :
    j.read channel =
      { cursor  := (channel.receive j.cursor).2
        written := j.written ++ (channel.receive j.cursor).1.items
        missed  := j.missed + (channel.receive j.cursor).1.missed
        phase   := phaseAfter j.phase (channel.receive j.cursor).1 } := by
  have finds : channel.Finds j.cursor (channel.receive j.cursor) := Channel.finds_receive
  rw [read]
  generalize channel.receive j.cursor = found at finds ⊢
  cases finds <;> simp [Receipt.items, Receipt.missed, phaseAfter]

namespace Scene

-- What the journal finds in the channel when it looks there next.
def receipt? (s : Scene) : Act → Option (Receipt Event)
  | .look                       =>
    if s.journal.phase = .reading then some (s.channel.receive s.journal.cursor).1 else none
  | .publish _ | .close | .fire => none

-- What the journal finds in the channel, look by look.
def receipts (s : Scene) : List Act → List (Receipt Event)
  | []        => []
  | a :: acts => (s.receipt? a).toList ++ (s.after a).receipts acts

-- What a journal has come to that has found these receipts.
structure Accounted (channel : Channel Event) (s : Scene) (receipts : List (Receipt Event)) :
    Prop where
  within    : channel.published.length ≤ s.journal.cursor ∧
    s.journal.cursor ≤ s.channel.published.length
  stretches : ∃ stretches, List.Forall₂ Receipt.Covers receipts stretches ∧
    s.news channel = stretches.flatten ++ s.unread
  written   : s.journal.written = receipts.flatMap Receipt.items
  missed    : s.journal.missed = (receipts.map Receipt.missed).sum
  checking  : s.journal.phase = .checking → receipts.getLast? = some .empty
  stopped   : s.journal.phase = .stopped →
    s.fired = true ∧ receipts.getLast? = some .empty ∨
    s.channel.isOpen = false ∧ receipts.getLast? = some .closed ∧ s.unread = []

variable {s : Scene} {receipts : List (Receipt Event)} {a : Act} {acts : List Act}

theorem accounted_begun (channel : Channel Event) : (begun channel).Accounted channel [] where
  within    := ⟨Nat.le_refl _, Nat.le_refl _⟩
  stretches := ⟨[], .nil, rfl⟩
  written   := rfl
  missed    := rfl
  checking  := nofun
  stopped   := nofun

namespace Accounted

variable (h : s.Accounted channel receipts)

include h

theorem publish (e : Event) : (s.after (.publish e)).Accounted channel receipts := by
  have ⟨begins, ends⟩ := h.within
  have ⟨stretches, covers, eq⟩ := h.stretches
  rw [after]
  split
  case isFalse => exact h
  case isTrue opened =>
    have news : (s.channel.published ++ [e]).drop channel.published.length =
        s.news channel ++ [e] :=
      List.drop_append_of_le_length (Nat.le_trans begins ends)
    have unread : (s.channel.published ++ [e]).drop s.journal.cursor = s.unread ++ [e] :=
      List.drop_append_of_le_length ends
    refine { h with within := ⟨begins, ?_⟩, stretches := ⟨stretches, covers, ?_⟩, stopped := ?_ }
    · rw [Channel.publish_published, List.length_append]
      exact Nat.le_add_right_of_le ends
    · rw [Scene.news, Scene.unread, Channel.publish_published, news, unread, eq,
        List.append_assoc]
    · exact fun stopped => (h.stopped stopped).imp_right fun closed =>
        absurd (closed.left.symm.trans opened) Bool.false_ne_true

theorem read (phase : s.journal.phase = .reading) :
    ({ s with journal := s.journal.read s.channel } : Scene).Accounted channel
      (receipts ++ [(s.channel.receive s.journal.cursor).1]) := by
  have ⟨begins, ends⟩ := h.within
  have ⟨stretches, covers, eq⟩ := h.stretches
  have ⟨stretch, covered, split, on, ends'⟩ := Channel.finds_receive.exists_stretch ends
  rw [read_eq]
  refine ⟨⟨Nat.le_trans begins on, ends'⟩, ⟨stretches ++ [stretch], ?_, ?_⟩, ?_, ?_, ?_, ?_⟩
  · exact List.rel_append covers (.cons covered .nil)
  · rw [List.flatten_append, List.flatten_singleton, List.append_assoc]
    exact eq.trans <| congrArg (stretches.flatten ++ ·) split
  · simp [h.written]
  · simp [h.missed]
  · rw [List.getLast?_concat]
    cases (s.channel.receive s.journal.cursor).1 with
    | item | lagged => exact fun checking => nomatch phase.symm.trans checking
    | empty         => exact fun _ => rfl
    | closed        => nofun
  · rw [List.getLast?_concat]
    intro stopped
    cases found : (s.channel.receive s.journal.cursor).1 with
    | item | lagged =>
      rw [found] at stopped
      cases phase.symm.trans stopped
    | empty =>
      rw [found] at stopped
      cases stopped
    | closed =>
      have ⟨closed, nothing⟩ := Channel.finds_receive.of_closed found
      exact .inr ⟨closed, rfl, nothing⟩

theorem look : (s.after .look).Accounted channel (receipts ++ (s.receipt? .look).toList) := by
  rw [Scene.after, move, receipt?]
  cases phase : s.journal.phase with
  | reading  => exact h.read phase
  | checking =>
    have last := h.checking phase
    rw [if_neg (by decide), Option.toList_none, List.append_nil]
    refine { h with checking := fun _ => last, stopped := fun stopped => .inl ⟨?_, last⟩ }
    simpa [check] using stopped
  | stopped  =>
    rw [if_neg (by decide), Option.toList_none, List.append_nil]
    exact h

theorem after (a : Act) : (s.after a).Accounted channel (receipts ++ (s.receipt? a).toList) := by
  cases a with
  | look      => exact h.look
  | publish e => simpa [receipt?] using h.publish e
  | close     =>
    rw [receipt?, Option.toList_none, List.append_nil]
    exact { h with stopped := fun stopped => (h.stopped stopped).imp_right (⟨rfl, ·.2⟩) }
  | fire      =>
    rw [receipt?, Option.toList_none, List.append_nil]
    exact { h with stopped := fun stopped => (h.stopped stopped).imp_left (⟨rfl, ·.2⟩) }

theorem afterAll : (s.afterAll acts).Accounted channel (receipts ++ s.receipts acts) := by
  induction acts generalizing s receipts with
  | nil =>
    rw [Scene.receipts, List.append_nil]
    exact h
  | cons a acts ih =>
    rw [Scene.receipts, ← List.append_assoc]
    exact ih (h.after a)

theorem sublist : s.journal.written.Sublist (s.news channel) := by
  have ⟨_, covers, eq⟩ := h.stretches
  rw [h.written, eq]
  exact (Receipt.sublist_of_covers covers).trans (List.sublist_append_left ..)

theorem length_news :
    (s.news channel).length = s.journal.written.length + s.journal.missed + s.unread.length := by
  have ⟨_, covers, eq⟩ := h.stretches
  rw [eq, List.length_append, Receipt.length_flatten_of_covers covers, ← h.written, ← h.missed]

end Accounted

-- Every event that is published is written, counted as missed or still unread. A journal that has
-- stopped has found its channel closed with nothing left in it, or its token fired.
theorem accounted_afterAll (channel : Channel Event) (acts : List Act) :
    let s := (begun channel).afterAll acts
    let receipts := (begun channel).receipts acts
    s.journal.written.Sublist (s.news channel) ∧
    s.journal.written = receipts.flatMap Receipt.items ∧
    s.journal.missed = (receipts.map Receipt.missed).sum ∧
    (∃ stretches, List.Forall₂ Receipt.Covers receipts stretches ∧
      s.news channel = stretches.flatten ++ s.unread) ∧
    (s.news channel).length = s.journal.written.length + s.journal.missed + s.unread.length ∧
    (s.journal.phase = .stopped →
      s.fired = true ∧ receipts.getLast? = some .empty ∨
      s.channel.isOpen = false ∧ receipts.getLast? = some .closed ∧ s.unread = [] ∧
        ((begun channel).KeepsUp acts → s.journal.written = s.news channel)) := by
  intro s receipts
  have account : s.Accounted channel ([] ++ receipts) := (accounted_begun channel).afterAll
  rw [List.nil_append] at account
  refine ⟨account.sublist, account.written, account.missed, account.stretches,
    account.length_news, fun stopped => (account.stopped stopped).imp_right ?_⟩
  rintro ⟨closed, last, nothing⟩
  refine ⟨closed, last, nothing, fun keeps => ?_⟩
  have faithful : s.Faithful channel := (faithful_begun channel).afterAll keeps
  rw [faithful.news_eq, nothing, List.append_nil]

-- Of three events the channel keeps the last two, also once it is closed.
theorem accounted_overrun :
    let channel : Channel Event := ⟨2, [], true⟩
    let event (n : Nat) : Event := ⟨⟨"run"⟩, .runCompleted n⟩
    let acts : List Act :=
      [.publish (event 1), .publish (event 2), .publish (event 3), .look, .look, .close, .look,
        .look]
    let s := (begun channel).afterAll acts
    ¬(begun channel).KeepsUp acts ∧ s.journal.phase = .stopped ∧ s.unread = [] ∧
      s.journal.written = [event 2, event 3] ∧ s.journal.missed = 1 ∧
      (s.news channel).length = s.journal.written.length + 1 := by
  intro channel event acts s
  have ⟨ended, unfired, written, missed⟩ : s.journal.phase = .stopped ∧ s.fired = false ∧
      s.journal.written = [event 2, event 3] ∧ s.journal.missed = 1 := by
    decide +kernel
  have ⟨_, _, _, _, length, stopped⟩ := accounted_afterAll channel acts
  have ⟨_, _, nothing, _⟩ := (stopped ended).resolve_left (by simp [s, unfired])
  rw [missed, nothing, List.length_nil, Nat.add_zero] at length
  exact ⟨by decide +kernel, ended, nothing, written, missed, length⟩

end Scene
end Journal
end RoutingPlan
