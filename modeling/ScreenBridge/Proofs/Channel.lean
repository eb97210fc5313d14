/-
# A channel loses nothing

However sends, the closing of the sender and polls follow one another, the
batches polled so far, the events pending and those still queued are together
the events sent, in their order (`polled_append_waiting`). The receiver knows
that it has seen the end as soon as it polled after the sender had gone and has
handed out all that was sent (`isClosed_iff`), and from then on it stays so.

So it does not matter to a viewer how its input was cut into batches: its bridge
and its store end as if all events had been applied at once
(`Viewer.handleAll_eq`).

Key definitions: `ChannelAction`, `Channel.run`, `Channel.sent`,
`Channel.polled`, `Channel.PolledAfterClose`, `Viewer.handleAll`.
Key theorems: `Channel.splitBatch_append`, `Channel.polled_append_waiting`,
`Channel.isClosed_iff`, `Viewer.handleAll_eq`,
`Viewer.channel_delivers_what_was_sent`.
-/
import Mathlib.Data.List.Basic
import ScreenBridge.Proofs.Viewer
import ScreenBridge.Store.Memory

namespace ScreenBridge

/-- What happens to a channel: an event is sent, the sender goes, or the receiver
polls. -/
inductive ChannelAction
  | send (e : Event)
  | close
  | poll
  deriving DecidableEq, Repr

namespace Channel

/-- The channel after an action. -/
def act (c : Channel) : ChannelAction → Channel
  | .send e => (c.send e).2
  | .close => c.close
  | .poll => c.poll.2

/-- The channel after actions, one after another. -/
def run (c : Channel) (actions : List ChannelAction) : Channel := actions.foldl act c

/-- The events that are sent, until the sender goes. -/
def sent : List ChannelAction → List Event
  | [] => []
  | .send e :: actions => e :: sent actions
  | .close :: _ => []
  | .poll :: actions => sent actions

/-- The batches that were polled. -/
def polled (c : Channel) : List ChannelAction → List (List Event)
  | [] => []
  | .send e :: actions => polled (c.act (.send e)) actions
  | .close :: actions => polled (c.act .close) actions
  | .poll :: actions => c.poll.1 :: polled (c.act .poll) actions

/-- The events that wait, pending before queued. -/
def waiting (c : Channel) : List Event := c.pending ++ c.queued

/-- Some poll follows the closing of the sender. -/
def PolledAfterClose : List ChannelAction → Prop
  | [] => False
  | .send _ :: actions => PolledAfterClose actions
  | .close :: actions => .poll ∈ actions
  | .poll :: actions => PolledAfterClose actions

/-! ### Batches -/

theorem splitBatch_down {e : Event} (hm : e.motion = .down) (pressed : List Key) (es : List Event) :
    splitBatch pressed (e :: es) =
      (e :: (splitBatch (e.key :: pressed) es).1, (splitBatch (e.key :: pressed) es).2) := by
  simp only [splitBatch, hm]

theorem splitBatch_up_of_mem {e : Event} (hm : e.motion = .up) {pressed : List Key}
    (hk : e.key ∈ pressed) (es : List Event) : splitBatch pressed (e :: es) = ([], e :: es) := by
  simp only [splitBatch, hm, if_pos hk]

theorem splitBatch_up_of_not_mem {e : Event} (hm : e.motion = .up) {pressed : List Key}
    (hk : e.key ∉ pressed) (es : List Event) :
    splitBatch pressed (e :: es) = (e :: (splitBatch pressed es).1, (splitBatch pressed es).2) := by
  simp only [splitBatch, hm, if_neg hk]

/-- A batch and the rest are what was split. -/
theorem splitBatch_append : ∀ (es : List Event) (pressed : List Key),
    (splitBatch pressed es).1 ++ (splitBatch pressed es).2 = es
  | [], _ => rfl
  | e :: es, pressed => by
    cases hm : e.motion with
    | down =>
      rw [splitBatch_down hm]
      exact congrArg (e :: ·) (splitBatch_append es (e.key :: pressed))
    | up =>
      by_cases hk : e.key ∈ pressed
      · rw [splitBatch_up_of_mem hm hk, List.nil_append]
      · rw [splitBatch_up_of_not_mem hm hk]
        exact congrArg (e :: ·) (splitBatch_append es pressed)

theorem poll_append_waiting (c : Channel) : c.poll.1 ++ c.poll.2.waiting = c.waiting := by
  change (splitBatch [] c.waiting).1 ++ ((splitBatch [] c.waiting).2 ++ []) = c.waiting
  rw [List.append_nil, splitBatch_append]

theorem poll_ne_nil {c : Channel} (h : c.waiting ≠ []) : c.poll.1 ≠ [] := by
  obtain ⟨e, es, hwait⟩ := List.exists_cons_of_ne_nil h
  change (splitBatch [] c.waiting).1 ≠ []
  rw [hwait]
  cases hm : e.motion with
  | down => rw [splitBatch_down hm]; exact List.cons_ne_nil _ _
  | up => rw [splitBatch_up_of_not_mem hm List.not_mem_nil]; exact List.cons_ne_nil _ _

theorem poll_of_waiting_eq_nil {c : Channel} (h : c.waiting = []) :
    c.poll.1 = [] ∧ c.poll.2.waiting = [] :=
  List.append_eq_nil_iff.mp ((poll_append_waiting c).trans h)

/-! ### Runs -/

/-- **Nothing is lost, doubled or reordered.** What was polled and what waits is
what waited before and what was sent. -/
theorem polled_append_waiting : ∀ (actions : List ChannelAction) (c : Channel),
    (c.polled actions).flatten ++ (c.run actions).waiting =
      c.waiting ++ if c.canSend then sent actions else []
  | [], c => by simp [polled, run, sent]
  | .send e :: actions, c => by
    refine (polled_append_waiting actions (c.act (.send e))).trans ?_
    by_cases h : c.canSend = true
    · have hact : c.act (.send e) = { c with queued := c.queued ++ [e] } := by simp [act, send, h]
      have hcan : (c.act (.send e)).canSend = true := by rw [hact]; exact h
      rw [if_pos hcan, if_pos h, hact]
      simp [waiting, sent]
    · have hact : c.act (.send e) = c := by simp [act, send, h]
      rw [hact, if_neg h, if_neg h]
  | .close :: actions, c => by
    refine (polled_append_waiting actions (c.act .close)).trans ?_
    rw [if_neg (by simp [act, close, canSend]), sent, ite_self]
    rfl
  | .poll :: actions, c => by
    rw [polled, List.flatten_cons, List.append_assoc]
    refine (congrArg (c.poll.1 ++ ·) (polled_append_waiting actions (c.act .poll))).trans ?_
    rw [← List.append_assoc]
    exact congrArg (· ++ _) (poll_append_waiting c)

/-! ### The end of the input -/

/-- What the receiver knows about the sender is true, and it left nothing queued. -/
structure Sound (c : Channel) : Prop where
  senderOpen : c.closed = true → c.senderOpen = false
  queued : c.closed = true → c.queued = []

theorem sound_empty : empty.Sound where
  senderOpen h := by cases h
  queued h := by cases h

theorem Sound.send_eq {c : Channel} (h : c.Sound) (hc : c.closed = true) (e : Event) :
    c.send e = (false, c) :=
  if_neg (by simp [canSend, h.senderOpen hc])

theorem Sound.act {c : Channel} (h : c.Sound) (a : ChannelAction) : (c.act a).Sound := by
  cases a with
  | send e =>
    by_cases hs : c.canSend = true
    · have hclosed : ¬ c.closed = true := by
        intro hc
        simp [canSend, h.senderOpen hc] at hs
      have hact : c.act (.send e) = { c with queued := c.queued ++ [e] } := by
        simp [Channel.act, send, hs]
      rw [hact]
      exact ⟨fun hc => absurd hc hclosed, fun hc => absurd hc hclosed⟩
    · have hact : c.act (.send e) = c := by simp [Channel.act, send, hs]
      rw [hact]
      exact h
  | close => exact ⟨fun _ => rfl, h.queued⟩
  | poll =>
    refine ⟨fun hc => ?_, fun _ => rfl⟩
    rcases Bool.or_eq_true_iff.mp hc with hc | hc
    · exact h.senderOpen hc
    · exact (Bool.not_eq_eq_eq_not ..).mp hc

theorem Sound.run : ∀ (actions : List ChannelAction) {c : Channel}, c.Sound → (c.run actions).Sound
  | [], _, h => h
  | a :: actions, _, h => Sound.run actions (h.act a)

theorem poll_mem_of_polledAfterClose : ∀ {actions : List ChannelAction},
    PolledAfterClose actions → .poll ∈ actions
  | .send _ :: _, h => List.mem_cons_of_mem _ (poll_mem_of_polledAfterClose h)
  | .close :: _, h => List.mem_cons_of_mem _ h
  | .poll :: _, _ => List.mem_cons_self

/-- The receiver learns from a poll that the sender has gone. -/
theorem closed_run : ∀ (actions : List ChannelAction) (c : Channel),
    (c.run actions).closed = true ↔
      c.closed = true ∨ (c.senderOpen = false ∧ .poll ∈ actions) ∨ PolledAfterClose actions
  | [], c => by simp [run, PolledAfterClose]
  | .send e :: actions, c => by
    refine (closed_run actions (c.act (.send e))).trans ?_
    have hclosed : (c.act (.send e)).closed = c.closed := by simp only [act, send]; split <;> rfl
    have hsender : (c.act (.send e)).senderOpen = c.senderOpen := by
      simp only [act, send]; split <;> rfl
    simp [hclosed, hsender, PolledAfterClose]
  | .close :: actions, c => by
    refine (closed_run actions (c.act .close)).trans ?_
    have hpoll : PolledAfterClose actions → .poll ∈ actions := poll_mem_of_polledAfterClose
    simp only [act, close, PolledAfterClose, List.mem_cons, reduceCtorEq, false_or, true_and]
    tauto
  | .poll :: actions, c => by
    refine (closed_run actions (c.act .poll)).trans ?_
    simp only [act, poll, PolledAfterClose, List.mem_cons, true_or, and_true, Bool.or_eq_true,
      Bool.not_eq_true']
    tauto

theorem isClosed_eq_true_iff {c : Channel} :
    c.isClosed = true ↔ c.closed = true ∧ c.pending = [] := by
  simp [isClosed]

/-- The receiver has seen the end once it polled after the sender had gone and
was given all that was sent. -/
theorem isClosed_iff (actions : List ChannelAction) :
    (empty.run actions).isClosed = true ↔
      PolledAfterClose actions ∧ (empty.polled actions).flatten = sent actions := by
  have hall : (empty.polled actions).flatten ++ (empty.run actions).waiting = sent actions :=
    polled_append_waiting actions empty
  have hclosed : (empty.run actions).closed = true ↔ PolledAfterClose actions := by
    refine (closed_run actions empty).trans ?_
    simp [empty]
  rw [isClosed_eq_true_iff, hclosed]
  refine and_congr_right fun hpolled => ?_
  have hqueued := (sound_empty.run actions).queued (hclosed.mpr hpolled)
  rw [← hall, waiting, hqueued, List.append_nil]
  exact List.self_eq_append_right.symm

/-- After the end nothing comes any more. -/
theorem Sound.isClosed_run : ∀ (later : List ChannelAction) {c : Channel}, c.Sound →
    c.isClosed = true → (c.run later).isClosed = true ∧ ∀ batch ∈ c.polled later, batch = []
  | [], _, _, hc => ⟨hc, by simp [polled]⟩
  | .send e :: later, c, h, hc => by
    have hact : c.act (.send e) = c :=
      congrArg Prod.snd (h.send_eq (isClosed_eq_true_iff.mp hc).1 e)
    have hlater := h.isClosed_run later hc
    rw [← hact] at hlater
    exact hlater
  | .close :: later, c, h, hc => (h.act .close).isClosed_run later hc
  | .poll :: later, c, h, hc => by
    obtain ⟨hclosed, hpending⟩ := isClosed_eq_true_iff.mp hc
    have hwait : c.waiting = [] := by rw [waiting, hpending, h.queued hclosed, List.append_nil]
    obtain ⟨hbatch, hwait'⟩ := poll_of_waiting_eq_nil hwait
    have hc' : (c.act .poll).isClosed = true :=
      isClosed_eq_true_iff.mpr ⟨Bool.or_eq_true_iff.mpr (Or.inl hclosed),
        (List.append_eq_nil_iff.mp hwait').1⟩
    obtain ⟨hrun, hempty⟩ := (h.act .poll).isClosed_run later hc'
    refine ⟨hrun, fun batch hm => ?_⟩
    rcases List.mem_cons.mp hm with rfl | hm
    · exact hbatch
    · exact hempty batch hm

end Channel

/-! ### Batches that reach a bridge -/

section

variable {σ : Type} [Store σ]

theorem Bridge.applyAll_append : ∀ (es later : List Event) (b : Bridge) (s : σ),
    b.applyAll s (es ++ later) =
      match b.applyAll s es with
      | (.ok (), b, s) => b.applyAll s later
      | (.error err, b, s) => (.error err, b, s)
  | [], _, _, _ => rfl
  | e :: es, later, b, s => by
    simp only [List.cons_append, applyAll]
    split
    · exact applyAll_append es later _ _
    · rfl

end

namespace Viewer

variable {σ κ : Type} [Store σ]

/-- A viewer after something happened to its channel. At a poll it applies the
batch. -/
def handle (v : Viewer σ Channel κ) : ChannelAction → Viewer σ Channel κ
  | .send e => { v with input := (v.input.send e).2 }
  | .close => { v with input := v.input.close }
  | .poll => v.service.2

/-- A viewer after much happened to its channel. -/
def handleAll (v : Viewer σ Channel κ) (actions : List ChannelAction) : Viewer σ Channel κ :=
  actions.foldl handle v

theorem service_eq (v : Viewer σ Channel κ) :
    v.service.2.input = v.input.poll.2 ∧
      (v.service.2.bridge, v.service.2.store) = (v.bridge.applyAll v.store v.input.poll.1).2 := by
  obtain ⟨hb, hs, hi⟩ := bridge_store_input_service v
  exact ⟨hi, Prod.ext hb hs⟩

/-- **How the events are cut into batches does not matter.** If applying them
all at once does not fail, the viewer ends with the bridge and the store that
come of that. -/
theorem handleAll_eq : ∀ (actions : List ChannelAction) (v : Viewer σ Channel κ),
    (v.bridge.applyAll v.store (v.input.polled actions).flatten).1 = .ok () →
    ((v.handleAll actions).bridge, (v.handleAll actions).store) =
      (v.bridge.applyAll v.store (v.input.polled actions).flatten).2
  | [], _, _ => rfl
  | .send e :: actions, v, h => handleAll_eq actions (v.handle (.send e)) h
  | .close :: actions, v, h => handleAll_eq actions (v.handle .close) h
  | .poll :: actions, v, h => by
    obtain ⟨hinput, hboth⟩ := service_eq v
    have hnext := handleAll_eq actions (v.handle .poll)
    rw [show (v.handle .poll).input = v.input.act .poll from hinput] at hnext
    rw [Channel.polled, List.flatten_cons, Bridge.applyAll_append] at h ⊢
    rcases hx : v.bridge.applyAll v.store v.input.poll.1 with ⟨result, b, s⟩
    rw [hx] at h hboth
    cases result with
    | error err => cases h
    | ok _ =>
      obtain ⟨hb, hs⟩ := Prod.mk.inj hboth
      rw [show (v.handle .poll).bridge = b from hb,
        show (v.handle .poll).store = s from hs] at hnext
      exact hnext h

/-- **The channel delivers what was sent.** At every moment the batches polled,
the events pending and those queued are the events sent, and if any event waits
the next poll hands out some. The channel is closed exactly when a poll followed
the closing of the sender and all events sent were polled, and then it stays
closed and yields empty batches only. Two viewers with the same bridge and the
same store, whose channels carried the same events and were drained, end with the
same bridge and the same store, if the events can be applied. -/
theorem channel_delivers_what_was_sent (actions : List ChannelAction) :
    let c := Channel.empty.run actions
    (Channel.empty.polled actions).flatten ++ c.pending ++ c.queued = Channel.sent actions ∧
    (c.waiting ≠ [] → c.poll.1 ≠ []) ∧
    (c.isClosed = true ↔ Channel.PolledAfterClose actions ∧
      (Channel.empty.polled actions).flatten = Channel.sent actions) ∧
    (c.isClosed = true → ∀ later,
      (c.run later).isClosed = true ∧ ∀ batch ∈ c.polled later, batch = []) ∧
    ∀ (actions' : List ChannelAction) (v v' : Viewer σ Channel κ),
      v.input = .empty → v'.input = .empty → v'.bridge = v.bridge → v'.store = v.store →
      Channel.sent actions' = Channel.sent actions →
      c.waiting = [] → (Channel.empty.run actions').waiting = [] →
      (v.bridge.applyAll v.store (Channel.sent actions)).1 = .ok () →
      (v'.handleAll actions').bridge = (v.handleAll actions).bridge ∧
        (v'.handleAll actions').store = (v.handleAll actions).store := by
  intro c
  have hall := Channel.polled_append_waiting actions .empty
  refine ⟨?_, Channel.poll_ne_nil, Channel.isClosed_iff actions, fun hc later =>
    (Channel.sound_empty.run actions).isClosed_run later hc, ?_⟩
  · rw [List.append_assoc]
    exact hall
  · intro actions' v v' hv hv' hbridge hstore hsent hdrained hdrained' hok
    have hpolled : (v.input.polled actions).flatten = Channel.sent actions := by
      rw [show (Channel.empty.run actions).waiting = [] from hdrained, List.append_nil] at hall
      rw [hv, hall]
      rfl
    have hpolled' : (v'.input.polled actions').flatten = Channel.sent actions := by
      have hall' := Channel.polled_append_waiting actions' .empty
      rw [hdrained', List.append_nil] at hall'
      rw [hv', hall', hsent]
      rfl
    have hend := handleAll_eq actions v (hpolled ▸ hok)
    have hend' := handleAll_eq actions' v' (by rw [hpolled', hbridge, hstore]; exact hok)
    rw [hpolled', hbridge, hstore, ← hpolled, ← hend] at hend'
    exact Prod.mk.inj hend'

/-- A tap of a key ends the same way whether it arrives at once, so that its release
is kept back, or in two parts. -/
theorem tap_arrives_in_two_ways :
    let decoder : Decoder := ⟨⟨2, 2⟩, .standard⟩
    let v : Viewer MemoryStore Channel RecordingSink :=
      ⟨.zeroed 8, .empty, .empty, ⟨⟨2, 2⟩, .idle .standard, none⟩, .new decoder,
        ⟨.standard, 0, ⟨0, 0, 0⟩⟩⟩
    let atOnce : List ChannelAction := [.send ⟨.down, .space⟩, .send ⟨.up, .space⟩, .poll, .poll]
    let inParts : List ChannelAction :=
      [.send ⟨.down, .space⟩, .poll, .send ⟨.up, .space⟩, .poll]
    (v.handleAll inParts).bridge = (v.handleAll atOnce).bridge ∧
      (v.handleAll inParts).store = (v.handleAll atOnce).store := by
  intro decoder v atOnce inParts
  have hsame := (channel_delivers_what_was_sent atOnce).2.2.2.2 inParts v v
  exact hsame rfl rfl rfl rfl rfl rfl rfl rfl

end Viewer
end ScreenBridge
