/-
# Batches are as long as they may be, and so no event waits in vain

A batch must not press a key and let it go again, or the press would not be seen.
A poll hands out the longest batch of which this is true
(`Channel.prefix_splitBatch_iff`). It hands out something while anything waits, so
events that wait are gone after as many polls at the latest
(`Channel.flatten_polled_quiet`).

Nor could the events be handed out earlier in another way. Take any timetable that
keeps the order of the events, waits for their arrival and separates each release
from the presses before it. By induction over the polls, the channel has always
handed out what the timetable has: the events that the timetable hands out at a
poll and the channel has not yet handed out may stand in one batch, so they are in
the batch of that poll (`Channel.Timetable.lt_length_polled`).

Key definitions: `Event.Undoes`, `Channel.KeepsPresses`, `Channel.sentBefore`,
`Channel.Timetable`, `Channel.HandedOutAt`.
Key theorems: `Channel.prefix_splitBatch_iff`, `Channel.flatten_polled_quiet`,
`Channel.Timetable.lt_length_polled`, `Channel.Timetable.exists_handedOutAt`,
`Channel.batches_are_longest_and_earliest`.
-/
import Mathlib.Data.List.Infix
import ScreenBridge.Proofs.Channel

namespace ScreenBridge

/-- The event is the release of the key that the earlier one pressed. -/
def Event.Undoes (e earlier : Event) : Prop :=
  earlier.motion = .down ∧ e.motion = .up ∧ e.key = earlier.key

namespace Channel

/-! ### The longest batch -/

/-- No key goes up after it went down. -/
def KeepsPresses (es : List Event) : Prop := es.Pairwise fun earlier e => ¬ e.Undoes earlier

/-- No key goes up after it went down, and none of the pressed ones goes up. -/
def KeepsPressesFrom (pressed : List Key) (es : List Event) : Prop :=
  (∀ e ∈ es, e.motion = .up → e.key ∉ pressed) ∧ KeepsPresses es

theorem keepsPressesFrom_nil_iff {es : List Event} : KeepsPressesFrom [] es ↔ KeepsPresses es := by
  simp [KeepsPressesFrom]

theorem keepsPressesFrom_down {e : Event} (hm : e.motion = .down) {pressed : List Key}
    {es : List Event} :
    KeepsPressesFrom pressed (e :: es) ↔ KeepsPressesFrom (e.key :: pressed) es := by
  simp only [KeepsPressesFrom, KeepsPresses, Event.Undoes, List.pairwise_cons, List.mem_cons, hm]
  grind

theorem keepsPressesFrom_up {e : Event} (hm : e.motion = .up) {pressed : List Key}
    {es : List Event} :
    KeepsPressesFrom pressed (e :: es) ↔ e.key ∉ pressed ∧ KeepsPressesFrom pressed es := by
  simp only [KeepsPressesFrom, KeepsPresses, Event.Undoes, List.pairwise_cons, List.forall_mem_cons, hm]
  grind

/-- **A batch is the longest that may be handed out.** Of the parts of the events,
from the front, those in which no key goes up after it went down are the parts of
the batch. -/
theorem prefix_splitBatch_iff : ∀ (es : List Event) (pressed : List Key) {first : List Event},
    first <+: (splitBatch pressed es).1 ↔ first <+: es ∧ KeepsPressesFrom pressed first
  | [], pressed, first => by
    simp only [splitBatch, List.prefix_nil, iff_self_and]
    rintro rfl
    simp [KeepsPressesFrom, KeepsPresses]
  | e :: es, pressed, [] => by simp [KeepsPressesFrom, KeepsPresses]
  | e :: es, pressed, d :: first => by
    cases hm : e.motion with
    | down =>
      rw [splitBatch_down hm, List.cons_prefix_cons, List.cons_prefix_cons,
        prefix_splitBatch_iff es (e.key :: pressed), and_assoc]
      refine and_congr_right fun hd => and_congr_right fun _ => ?_
      rw [hd, keepsPressesFrom_down hm]
    | up =>
      by_cases hk : e.key ∈ pressed
      -- the batch ends here, and nothing longer would do
      · rw [splitBatch_up_of_mem hm hk, List.cons_prefix_cons]
        refine ⟨fun h => absurd (List.prefix_nil.mp h) (List.cons_ne_nil _ _), ?_⟩
        rintro ⟨⟨rfl, -⟩, hkeeps⟩
        exact absurd hk ((keepsPressesFrom_up hm).mp hkeeps).1
      · rw [splitBatch_up_of_not_mem hm hk, List.cons_prefix_cons, List.cons_prefix_cons,
          prefix_splitBatch_iff es pressed, and_assoc]
        refine and_congr_right fun hd => and_congr_right fun _ => ?_
        rw [hd, keepsPressesFrom_up hm]
        exact (and_iff_right hk).symm

theorem prefix_poll_iff (c : Channel) {first : List Event} :
    first <+: c.poll.1 ↔ first <+: c.waiting ∧ KeepsPresses first :=
  (prefix_splitBatch_iff c.waiting []).trans (and_congr_right' keepsPressesFrom_nil_iff)

/-! ### Runs, one after another -/

theorem polled_append : ∀ (actions later : List ChannelAction) (c : Channel),
    c.polled (actions ++ later) = c.polled actions ++ (c.run actions).polled later
  | [], _, _ => rfl
  | .send e :: actions, later, c => polled_append actions later (c.act (.send e))
  | .close :: actions, later, c => polled_append actions later (c.act .close)
  | .poll :: actions, later, c =>
    congrArg (c.poll.1 :: ·) (polled_append actions later (c.act .poll))

theorem length_polled : ∀ (actions : List ChannelAction) (c : Channel),
    (c.polled actions).length = actions.count .poll
  | [], _ => rfl
  | .send _ :: actions, c => by simp [polled, length_polled actions]
  | .close :: actions, c => by simp [polled, length_polled actions]
  | .poll :: actions, c => by simp [polled, length_polled actions]

theorem sent_prefix_append : ∀ actions later : List ChannelAction,
    sent actions <+: sent (actions ++ later)
  | [], _ => List.nil_prefix
  | .send _ :: actions, later => List.cons_prefix_cons.mpr ⟨rfl, sent_prefix_append actions later⟩
  | .close :: _, _ => List.prefix_rfl
  | .poll :: actions, later => sent_prefix_append actions later

theorem delivered_append_waiting (actions : List ChannelAction) :
    (empty.polled actions).flatten ++ (empty.run actions).waiting = sent actions :=
  polled_append_waiting actions empty

theorem waiting_eq_drop (actions : List ChannelAction) :
    (empty.run actions).waiting = (sent actions).drop (empty.polled actions).flatten.length := by
  rw [← delivered_append_waiting actions, List.drop_left]

/-- While no event arrives, each poll leaves fewer to wait, until none does. -/
theorem flatten_polled_quiet : ∀ (later : List ChannelAction) (c : Channel),
    (∀ e, .send e ∉ later) → c.waiting.length ≤ later.count .poll →
    (c.polled later).flatten = c.waiting
  | [], c, _, hlen => by
    have hwait : c.waiting = [] := List.eq_nil_of_length_eq_zero (Nat.le_zero.mp hlen)
    rw [hwait]
    rfl
  | .send e :: _, _, hquiet, _ => absurd List.mem_cons_self (hquiet e)
  | .close :: later, c, hquiet, hlen =>
    flatten_polled_quiet later (c.act .close) (fun e he => hquiet e (List.mem_cons_of_mem _ he)) hlen
  | .poll :: later, c, hquiet, hlen => by
    have hsplit := poll_append_waiting c
    have hrest := flatten_polled_quiet later (c.act .poll)
      fun e he => hquiet e (List.mem_cons_of_mem _ he)
    rw [polled, List.flatten_cons, hrest]
    · exact hsplit
    · by_cases hwait : c.waiting = []
      · exact (congrArg List.length (poll_of_waiting_eq_nil hwait).2).trans_le (Nat.zero_le _)
      · have hpos := List.length_pos_iff.mpr (poll_ne_nil hwait)
        have hsum := congrArg List.length hsplit
        rw [List.length_append] at hsum
        rw [List.count_cons_self] at hlen
        change c.poll.2.waiting.length ≤ _
        omega

/-! ### Other timetables -/

/-- The events that are sent before a poll, where polls are counted from zero. -/
def sentBefore : ℕ → List ChannelAction → List Event
  | _, [] => []
  | n, .send e :: actions => e :: sentBefore n actions
  | _, .close :: _ => []
  | 0, .poll :: _ => []
  | n + 1, .poll :: actions => sentBefore n actions

/-- A timetable for the events that are sent: the poll at which each is handed out,
where events and polls are counted from zero. -/
structure Timetable (actions : List ChannelAction) (pollOf : ℕ → ℕ) : Prop where
  in_order : ∀ {i j}, i ≤ j → j < (sent actions).length → pollOf i ≤ pollOf j
  arrived : ∀ {i}, i < (sent actions).length → i < (sentBefore (pollOf i) actions).length
  apart : ∀ {i j e e'}, i < j → (sent actions)[i]? = some e → (sent actions)[j]? = some e' →
    e'.Undoes e → pollOf i ≠ pollOf j

/-- An event, by number, lies in the batch of a poll. -/
def HandedOutAt (batches : List (List Event)) (i poll : ℕ) : Prop :=
  (batches.take poll).flatten.length ≤ i ∧ i < (batches.take (poll + 1)).flatten.length

theorem sentBefore_poll : ∀ before later : List ChannelAction,
    sentBefore (before.count .poll) (before ++ .poll :: later) = sent before
  | [], _ => rfl
  | .send e :: before, later => by
    rw [List.count_cons_of_ne ChannelAction.noConfusion]
    exact congrArg (e :: ·) (sentBefore_poll before later)
  | .close :: _, _ => by simp [sentBefore, sent]
  | .poll :: before, later => by
    rw [List.count_cons_self]
    exact sentBefore_poll before later

theorem HandedOutAt.append {batches : List (List Event)} {i poll : ℕ}
    (h : HandedOutAt batches i poll) (hpoll : poll < batches.length) (later : List (List Event)) :
    HandedOutAt (batches ++ later) i poll := by
  unfold HandedOutAt
  rwa [List.take_append_of_le_length hpoll.le, List.take_append_of_le_length hpoll]

/-- What was handed out was handed out at some poll. -/
theorem exists_handedOutAt_of_lt {i : ℕ} (batches : List (List Event)) :
    i < batches.flatten.length → ∃ poll < batches.length, HandedOutAt batches i poll := by
  induction batches using List.reverseRecOn with
  | nil => exact fun h => absurd h (Nat.not_lt_zero i)
  | append_singleton batches batch ih =>
    intro h
    by_cases hi : i < batches.flatten.length
    · obtain ⟨poll, hpoll, hat⟩ := ih hi
      exact ⟨poll, by simp; omega, hat.append hpoll [batch]⟩
    · refine ⟨batches.length, by simp, ?_, ?_⟩
      · rw [List.take_left]
        exact Nat.le_of_not_lt hi
      · rwa [List.take_of_length_le (by simp)]

variable {actions : List ChannelAction} {pollOf : ℕ → ℕ}

/-- **The next batch catches up.** If the channel has handed out what a timetable
hands out before a poll, then after that poll it has handed out what the timetable
hands out at that poll, too. -/
theorem Timetable.lt_length_polled {before later : List ChannelAction}
    (h : Timetable (before ++ .poll :: later) pollOf)
    (hbefore : ∀ i < (sent (before ++ .poll :: later)).length, pollOf i < before.count .poll →
      i < (empty.polled before).flatten.length)
    {i : ℕ} (hi : i < (sent (before ++ .poll :: later)).length) (hpoll : pollOf i = before.count .poll) :
    i < (empty.polled (before ++ [.poll])).flatten.length := by
  let all := sent (before ++ .poll :: later)
  let done := (empty.polled before).flatten.length
  have hbatch : (empty.polled (before ++ [.poll])).flatten.length =
      done + (empty.run before).poll.1.length := by
    rw [polled_append, List.flatten_append, List.length_append]
    simp [polled, done]
  have harrived : i < (sent before).length := by
    have harrived := h.arrived hi
    rwa [hpoll, sentBefore_poll] at harrived
  rw [hbatch]
  by_contra hnot
  -- the timetable hands out all of these at the poll, for the channel has none of them
  let first := ((sent before).drop done).take (i + 1 - done)
  have hplace : ∀ {k} (hk : k < first.length), all[done + k]? = some first[k] ∧
      pollOf (done + k) = pollOf i := fun {k} hk => by
    have hki : done + k ≤ i := by simp [first] at hk; omega
    constructor
    · obtain ⟨rest, hrest⟩ := sent_prefix_append before (.poll :: later)
      rw [show all = sent before ++ rest from hrest.symm,
        List.getElem?_append_left (by omega), List.getElem?_eq_getElem (by omega)]
      simp [first]
    · refine le_antisymm (h.in_order hki hi) (Nat.le_of_not_lt fun hlt => ?_)
      have hdone := hbefore (done + k) (by omega) (hpoll ▸ hlt)
      exact absurd hdone (by simp [done])
  have hkeeps : KeepsPresses first := by
    refine List.pairwise_iff_getElem.mpr fun j k hj hk hjk hundoes => ?_
    exact h.apart (Nat.add_lt_add_left hjk done) (hplace hj).1 (hplace hk).1 hundoes
      ((hplace hj).2.trans (hplace hk).2.symm)
  have hfirst : first <+: (empty.run before).poll.1 := by
    rw [prefix_poll_iff, waiting_eq_drop]
    exact ⟨List.take_prefix _ _, hkeeps⟩
  have hlen := hfirst.length_le
  have hfull : first.length = i + 1 - done := by simp [first]; omega
  omega

/-- **No timetable is faster.** At every poll the channel has handed out what a
timetable hands out until then. -/
theorem Timetable.exists_handedOutAt (h : Timetable actions pollOf) (before : List ChannelAction) :
    ∀ later, actions = before ++ later → ∀ i < (sent actions).length,
      pollOf i < before.count .poll → ∃ poll ≤ pollOf i, HandedOutAt (empty.polled before) i poll := by
  induction before using List.reverseRecOn with
  | nil => exact fun _ _ i _ hlt => absurd hlt (Nat.not_lt_zero _)
  | append_singleton before a ih =>
    intro later hactions i hi hlt
    have hsplit : actions = before ++ a :: later := by
      rw [hactions, List.append_assoc, List.singleton_append]
    have hih := ih (a :: later) hsplit
    rw [polled_append]
    cases a with
    | send e => simpa [polled] using hih i hi (by simpa using hlt)
    | close => simpa [polled] using hih i hi (by simpa using hlt)
    | poll =>
      have hbefore : ∀ i < (sent (before ++ .poll :: later)).length, pollOf i < before.count .poll →
          i < (empty.polled before).flatten.length := fun i hi hlt => by
        obtain ⟨poll, -, -, hat⟩ := hih i (hsplit ▸ hi) hlt
        exact hat.trans_le (((List.take_prefix _ _).flatten).length_le)
      by_cases hearly : pollOf i < before.count .poll
      · obtain ⟨poll, hpoll, hat⟩ := hih i hi hearly
        exact ⟨poll, hpoll, hat.append (by rw [length_polled]; omega) _⟩
      · have hnow : pollOf i = before.count .poll := by
          rw [List.count_append, List.count_singleton_self] at hlt
          omega
        subst hsplit
        have hdone := h.lt_length_polled hbefore hi hnow
        rw [polled_append] at hdone
        obtain ⟨poll, hpoll, hat⟩ := exists_handedOutAt_of_lt _ hdone
        rw [List.length_append, length_polled] at hpoll
        exact ⟨poll, by rw [hnow]; exact Nat.le_of_lt_succ hpoll, hat⟩

/-- **Batches are as long as they may be, and no event is handed out later than it need
be.** A poll hands out the longest part, from the front, of the events that were
sent and not yet handed out, in which no key goes up after it went down. It hands
out something if anything is left, so that all is handed out after as many polls
as events are left, if no more arrive. And every timetable that keeps the order of
the events, waits for their arrival and hands out no press together with a later
release of its key, hands out each event at the same poll or at a later one. -/
theorem batches_are_longest_and_earliest (actions : List ChannelAction) :
    let undelivered := (sent actions).drop (empty.polled actions).flatten.length
    let batch := (empty.run actions).poll.1
    (empty.polled actions).flatten <+: sent actions ∧
    batch <+: undelivered ∧ KeepsPresses batch ∧
    (∀ first, first <+: undelivered → KeepsPresses first → first <+: batch) ∧
    (undelivered ≠ [] → batch ≠ []) ∧
    (∀ later, (∀ e, .send e ∉ later) → undelivered.length ≤ later.count .poll →
      (empty.polled (actions ++ later)).flatten = sent actions) ∧
    ∀ pollOf, Timetable actions pollOf → ∀ i < (sent actions).length,
      pollOf i < actions.count .poll →
      ∃ poll ≤ pollOf i, HandedOutAt (empty.polled actions) i poll := by
  intro undelivered batch
  have hall := delivered_append_waiting actions
  have hundelivered : (empty.run actions).waiting = undelivered := waiting_eq_drop actions
  obtain ⟨hbatch, hkeeps⟩ := (prefix_poll_iff (empty.run actions)).mp List.prefix_rfl
  rw [hundelivered] at hbatch
  refine ⟨⟨_, hall⟩, hbatch, hkeeps, fun first hfirst hkeeps => ?_, fun hleft => ?_,
    fun later hquiet hlen => ?_, fun pollOf h => h.exists_handedOutAt actions [] (List.append_nil _).symm⟩
  · rw [← hundelivered] at hfirst
    exact (prefix_poll_iff _).mpr ⟨hfirst, hkeeps⟩
  · rw [← hundelivered] at hleft
    exact poll_ne_nil hleft
  · rw [← hundelivered] at hlen
    rw [polled_append, List.flatten_append, flatten_polled_quiet later _ hquiet hlen, hall]

/-- Space is pressed, a letter too, and then Space is let go and pressed again. Handing
out one event at each poll takes four polls, and the channel needs two. -/
theorem four_events_in_two_polls :
    let actions : List ChannelAction :=
      [.send ⟨.down, .space⟩, .send ⟨.down, .keyA⟩, .send ⟨.up, .space⟩, .poll,
        .send ⟨.down, .space⟩, .poll, .poll, .poll]
    Timetable actions id ∧ (∃ poll ≤ 3, HandedOutAt (empty.polled actions) 3 poll) ∧
      HandedOutAt (empty.polled actions) 3 1 ∧
      (empty.polled (actions.take 4 ++ [.close, .poll])).flatten = sent (actions.take 4) := by
  intro actions
  have hone : Timetable actions id :=
    { in_order := fun hij _ => hij
      arrived := fun {i} hi => by
        have hchecked : ∀ i < 4, i < (sentBefore i actions).length := by decide
        exact hchecked i hi
      apart := fun hij _ _ _ => Nat.ne_of_lt hij }
  obtain ⟨-, -, -, -, -, -, hearliest⟩ := batches_are_longest_and_earliest actions
  obtain ⟨-, -, -, -, -, hquiet, -⟩ := batches_are_longest_and_earliest (actions.take 4)
  exact ⟨hone, hearliest id hone 3 (by decide) (by decide), by unfold HandedOutAt; decide,
    hquiet [.close, .poll] (by simp) (by decide)⟩

end Channel
end ScreenBridge
