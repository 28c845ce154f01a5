/-
Corpus/Source/Channel.lean

A producer and a worker on the two ends of a channel, move by move.

The channel keeps events in order and holds a bounded number of them.  A producer that finds
it full waits, and so does a worker that asks for an event and finds it empty while the producer
goes on.  A worker that finishes drops what is in flight; from then on the producer never waits,
but each of its events is refused, and the worker learns how the producer has ended.
-/
import Corpus.Source.Production

namespace Corpus

/-- How the task of a producer ended. -/
inductive Producer.Ending where
  /-- The producer came to its end, perhaps with a failure. -/
  | returned (result : Except String Unit)
  /-- The task broke down on the way. -/
  | lost (reason : String)

/-- What makes the job fail when a producer has ended so. -/
def Producer.Ending.fatal? : Producer.Ending → Option String
  | .returned (.ok ()) => none
  | .returned (.error message) => some message
  | .lost reason => some ("Producer task failed: " ++ reason)

/-- What a producer is going to do. -/
inductive Producer where
  /-- It has ended. -/
  | ended (ending : Producer.Ending)
  /-- It sends an event and goes on by whether that was taken. -/
  | sending (e : Event) (next : Bool → Producer)

namespace Producer

/-- A producer that sends given events, stops at the first one that is refused, and returns the
given result if none is. -/
def ofEvents (result : Except String Unit) : List Event → Producer
  | [] => .ended (.returned result)
  | e :: rest =>
    .sending e fun taken => if taken then ofEvents result rest else .ended (.returned (.ok ()))

/-- The events that a producer sends as long as none is refused. -/
def offered : Producer → List Event
  | .ended _ => []
  | .sending e next => e :: offered (next true)

/-- How a producer ends if none of its events is refused. -/
def ending : Producer → Ending
  | .ended ending => ending
  | .sending _ next => ending (next true)

@[simp] theorem offered_ofEvents (result : Except String Unit) (events : List Event) :
    (ofEvents result events).offered = events := by
  induction events with
  | nil => rfl
  | cons e rest ih => exact congrArg (e :: ·) ih

@[simp] theorem ending_ofEvents (result : Except String Unit) (events : List Event) :
    (ofEvents result events).ending = .returned result := by
  induction events with
  | nil => rfl
  | cons e rest ih => exact ih

end Producer

/-- A channel with what stands at its ends, and what has gone through it so far. -/
structure Channel where
  producer : Producer
  /-- The events that were sent and not yet taken, the oldest first. -/
  inFlight : List Event := []
  /-- The worker has not finished. -/
  listening : Bool := true
  /-- The records that the worker has counted. -/
  records : UInt64 := 0
  /-- The events that the channel took from the producer, the oldest first. -/
  sent : List Event := []
  /-- The events that were refused, the oldest first. -/
  refused : List Event := []
  /-- The events that the worker was given, the oldest first. -/
  given : List Event := []
  /-- The worker was told that there are no more. -/
  toldEnd : Bool := false

namespace Channel

/-- Who moves. -/
inductive Move where
  /-- The producer sends. -/
  | send
  /-- The worker asks for an event and is answered. -/
  | next
  /-- The worker finishes. -/
  | finish
  deriving DecidableEq, Repr

/-- The producer has ended. -/
def isEnded (c : Channel) : Bool :=
  match c.producer with
  | .ended _ => true
  | .sending _ _ => false

/-- The worker is given an event. -/
def give (c : Channel) (e : Event) (rest : List Event) : Channel :=
  { c with
    inFlight := rest
    given := c.given ++ [e]
    records := if e.isRecord then c.records + 1 else c.records }

/-- The channel after a move, unless the one who moves has to wait or is done. -/
def step? (c : Channel) : Move → Option Channel
  | .send =>
    match c.producer with
    | .ended _ => none
    | .sending e next =>
      -- once the worker has finished nobody waits for room
      if !c.listening then some { c with producer := next false, refused := c.refused ++ [e] }
      else if c.inFlight.length < channelDepth then
        some
          { c with
            producer := next true
            inFlight := c.inFlight ++ [e]
            sent := c.sent ++ [e] }
      else none
  | .next =>
    if !c.listening then none
    else
      match c.inFlight with
      | e :: rest => some (c.give e rest)
      -- while the producer goes on, the worker waits for what it sends
      | [] => if c.isEnded then some { c with toldEnd := true } else none
  | .finish => if c.listening then some { c with listening := false, inFlight := [] } else none

/-- The channel after some moves, if each of them can be made. -/
def run? (c : Channel) (moves : List Move) : Option Channel := moves.foldlM step? c

/-- What a worker that has finished learns as soon as the producer has ended. -/
def outcome? (c : Channel) : Option Outcome :=
  match c.listening, c.producer with
  | false, .ended ending => some { records := c.records, fatal := ending.fatal? }
  | _, _ => none

end Channel

/-- A channel that is opened for a producer. -/
def Producer.channel (p : Producer) : Channel := { producer := p }

end Corpus
