/-
Corpus/Source/Production.lean

Sources that work ahead of the worker.  A producer sends its events through a channel that
holds a bounded number of them; once the worker has stopped listening a send is refused, and
the producer stops without an error.

Producers of folders and archives have one shape: they list everything first and report what
is passed over, announce how many records will come, and then work the records off one by
one.
-/
import Corpus.Disk.Basic
import Corpus.Source.Event

namespace Corpus

/-- How many events the channel between a producer and the worker holds. -/
def channelDepth : Nat := 64

/-- The sending end of a channel: how many more events it takes, any number if there is no
limit, and what was sent, latest first. -/
structure Outbox where
  room : Option Nat
  sent : List Event := []
  deriving DecidableEq, Repr

namespace Outbox

/-- Sends an event, unless the worker has stopped listening. -/
def send (o : Outbox) (e : Event) : Bool × Outbox :=
  match o.room with
  | none => (true, { o with sent := e :: o.sent })
  | some 0 => (false, o)
  | some (n + 1) => (true, ⟨some n, e :: o.sent⟩)

/-- Sends events until one is refused. -/
def sendAll : List Event → Outbox → Bool × Outbox
  | [], o => (true, o)
  | e :: rest, o =>
    match o.send e with
    | (true, o) => sendAll rest o
    | (false, o) => (false, o)

end Outbox

/-- What a producer did: the events it sent, what it failed with, and the disk it left. -/
structure Production where
  sent : List Event
  fatal : Option String
  disk : Disk

namespace Production

/-- A producer that ends here. -/
def close (o : Outbox) (fatal : Option String) (disk : Disk) : Production :=
  ⟨o.sent.reverse, fatal, disk⟩

/-- A producer that fails before it lists anything. -/
def failed (message : String) (disk : Disk) : Production := ⟨[], some message, disk⟩

/-- A producer that sends given events and then ends as told. -/
def ofEvents (events : List Event) (fatal : Option String) (disk : Disk) (room : Option Nat) :
    Production :=
  match Outbox.sendAll events { room } with
  | (true, o) => close o fatal disk
  -- the worker has stopped listening, and that is no failure
  | (false, o) => close o none disk

variable {α : Type}

/-- Works entries off one by one and sends what becomes of each. -/
def workOff (work : Disk → α → Event × Disk) : List α → Disk → Outbox → Outbox × Disk
  | [], d, o => (o, d)
  | a :: rest, d, o =>
    match work d a with
    | (e, d) =>
      match o.send e with
      | (true, o) => workOff work rest d o
      | (false, o) => (o, d)

/-- The events of a listing, of what is passed over. -/
def passedOver (listing : List (Event ⊕ α)) : List Event :=
  listing.filterMap fun
    | .inl e => some e
    | .inr _ => none

/-- The entries of a listing that are worked off. -/
def eligible (listing : List (Event ⊕ α)) : List α :=
  listing.filterMap fun
    | .inl _ => none
    | .inr a => some a

/-- Reports what is passed over, announces the rest, and works it off if the preparation for
that succeeds. -/
def ofListing (listing : List (Event ⊕ α)) (prepare : Disk → Except String Unit × Disk)
    (work : Disk → α → Event × Disk) (d : Disk) (room : Option Nat) : Production :=
  let entries := eligible listing
  match Outbox.sendAll (passedOver listing) { room } with
  | (false, o) => close o none d
  | (true, o) =>
    match o.send (.discovered (UInt64.ofNat entries.length)) with
    | (false, o) => close o none d
    | (true, o) =>
      match prepare d with
      | (.error message, d) => close o (some message) d
      | (.ok (), d) =>
        match workOff work entries d o with
        | (o, d) => close o none d

end Production

/-- The source of a producer that works ahead of the worker as far as the channel allows. -/
def Source.ofProducer (provenance : Provenance) (produce : Option Nat → Production) : Source :=
  let events := (produce none).sent
  { provenance
    events
    finish := fun taken =>
      { records := UInt64.ofNat ((events.take taken).countP (·.isRecord))
        -- when the worker stops, the channel may have taken as many events more as it holds
        fatal := (produce (some (taken + channelDepth))).fatal } }

end Corpus
