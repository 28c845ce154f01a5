/-
Corpus/Extractor/Relay.lean

The feed of the extractor as a source, call by call.

A record that was read is announced first and waits in a slot; the next call gives it and reads
nothing.  So a worker that stops listening between the two leaves a record in the slot that was
announced and counted.
-/
import Corpus.Extractor.Feed

namespace Corpus

/-- A feed with the record that was announced and not yet given. -/
structure Relay where
  feed : Feed
  pending : Option Record := none
  deriving DecidableEq, Repr

namespace Relay

/-- A relay of which nothing was asked. -/
def ofOutput (output : Bytes) : Relay := { feed := .ofOutput output }

/-- The next event, if there is one. -/
def next (r : Relay) : Option Event × Relay :=
  match r.pending with
  | some record => (some (.record record), { r with pending := none })
  | none =>
    match r.feed.next with
    | (some record, feed) => (some (.discovered 1), ⟨feed, some record⟩)
    | (none, feed) => (none, ⟨feed, none⟩)

/-- The outcome when the worker stops listening. -/
def finish (r : Relay) (run : Execution) : Outcome := (r.feed.close run).outcome

end Relay

end Corpus
