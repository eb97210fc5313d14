/-
# Sources of input

The viewer polls its input and never waits for it. A poll yields the events that
arrived since the last one, the oldest first.

Two sources are here. A script plays batches of events, one for each poll. A
channel carries events from a sender, which reads lines of commands; it keeps
the release of a key back when the press is in the same poll, and all that
follows it, so that every press is seen for at least one tick.

Key definitions: `InputSource`, `Script`, `Channel`, `Channel.poll`,
`Channel.send`, `Channel.feed`, `Channel.isClosed`.
-/
import ScreenBridge.Input.Command
import ScreenBridge.Text.Lines

namespace ScreenBridge

/-- A source of events that is polled. -/
class InputSource (ι : Type) where
  poll : ι → List Event × ι

/-- Batches of events still to be played, and the number of polls so far. -/
structure Script where
  batches : List (List Event)
  polls : Nat
  deriving DecidableEq, Repr

namespace Script

/-- A script without batches. -/
def empty : Script := ⟨[], 0⟩

/-- Adds a batch at the end. -/
def push (s : Script) (batch : List Event) : Script :=
  { s with batches := s.batches ++ [batch] }

/-- Plays the next batch, or an empty one after the last. -/
def poll (s : Script) : List Event × Script :=
  (s.batches.headD [], ⟨s.batches.tail, s.polls + 1⟩)

instance : InputSource Script where
  poll := poll

end Script

/-- A channel of events with its two ends. -/
structure Channel where
  /-- Events sent and not yet received. -/
  queued : List Event
  /-- Events received and not yet handed out. -/
  pending : List Event
  /-- The sender is there. -/
  senderOpen : Bool
  /-- The receiver is there. -/
  receiverOpen : Bool
  /-- The receiver knows that the sender has gone. -/
  closed : Bool
  deriving DecidableEq, Repr

namespace Channel

/-- A channel through which nothing has gone. -/
def empty : Channel := ⟨[], [], true, true, false⟩

/-- The longest part of the events, from the front, in which no key goes up
after it went down, given the keys that went down before. Also the rest. -/
def splitBatch (pressed : List Key) : List Event → List Event × List Event
  | [] => ([], [])
  | e :: es =>
    match e.motion with
    | .down =>
      let (batch, rest) := splitBatch (e.key :: pressed) es
      (e :: batch, rest)
    | .up =>
      if e.key ∈ pressed then ([], e :: es)
      else
        let (batch, rest) := splitBatch pressed es
        (e :: batch, rest)

variable (c : Channel)

/-- Receives all that was sent and hands out the next batch. -/
def poll : List Event × Channel :=
  let (batch, rest) := splitBatch [] (c.pending ++ c.queued)
  (batch, { c with queued := [], pending := rest, closed := c.closed || !c.senderOpen })

/-- Has the sender gone and is nothing left to hand out, as far as the receiver
knows? -/
def isClosed : Bool := c.closed && c.pending.isEmpty

/-- Can an event be sent? -/
def canSend : Bool := c.senderOpen && c.receiverOpen

/-- Sends an event, if both ends are there. -/
def send (e : Event) : Bool × Channel :=
  if c.canSend then (true, { c with queued := c.queued ++ [e] }) else (false, c)

/-- Sends events until one cannot be sent. Also tells how many were. -/
def sendAll (c : Channel) : List Event → Nat × Channel
  | [] => (0, c)
  | e :: es =>
    match c.send e with
    | (true, c) =>
      let (n, c) := sendAll c es
      (n + 1, c)
    | (false, c) => (0, c)

/-- Sends the events of lines that are given as bytes, and tells how many were
sent. Malformed commands are passed over. A line that is not UTF-8 ends the
input, and so does an event that cannot be sent. -/
def feedLines (c : Channel) : List (List UInt8) → Nat × Channel
  | [] => (0, c)
  | line :: lines =>
    match Text.ofUtf8? line with
    | none => (0, c)
    | some text =>
      match Command.parse text with
      | .error _ => feedLines c lines
      | .ok events =>
        let (n, c) := c.sendAll events
        if n < events.length then (n, c)
        else
          let (m, c) := feedLines c lines
          (n + m, c)

/-- Sends the events of a stream of bytes, line by line. -/
def feed (bytes : List UInt8) : Nat × Channel :=
  c.feedLines (Text.byteLines bytes)

/-- Takes the sender away. -/
def close : Channel := { c with senderOpen := false }

/-- Takes the receiver away. -/
def dropReceiver : Channel := { c with receiverOpen := false }

instance : InputSource Channel where
  poll := poll

end Channel
end ScreenBridge
