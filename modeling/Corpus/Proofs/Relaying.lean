/-
Corpus/Proofs/Relaying.lean

What the feed of the extractor says as a source, call after call.

What a relay has still to say is one list of events, its script: the record in the slot, and then
the announcement and the record of each record to come.  A call takes the first event off that
list (`Relay.next_cases`), so the calls say

    discovered 1, record r₁, discovered 1, record r₂, …

and nothing after that (`Relay.calls_eq`).  The feed counts a record when it is announced, so
wherever the worker stops, the outcome tells the announcements that were made.  The source that a
job reads is this list with these outcomes (`relay_announces`).
-/
import Corpus.Extractor.Relay
import Corpus.Proofs.Feeding
import Corpus.Proofs.Promise

namespace Corpus

open Feed (isText record? toCome linesOf)

namespace Relay

/-! ### One call -/

/-- The events that a relay has still to give. -/
def script (r : Relay) : List Event :=
  (r.pending.map Event.record).toList ++ Event.announced (r.feed.toCome.filterMap record?)

/-- How many records an event announces, as the feed counts them. -/
def tick (e : Event) : Nat := if e = .discovered 1 then 1 else 0

/-- **One call** gives the first event of the script and counts what it announces, or there is
none and everything is read. -/
theorem next_cases (r : Relay) :
    (∃ e r', r.script = e :: r'.script ∧ r.next = (some e, r') ∧
      r'.feed.records = r.feed.records + UInt64.ofNat (tick e)) ∨
    ∃ r', r.script = [] ∧ r.next = (none, r') ∧ r'.script = [] ∧
      r'.feed.records = r.feed.records := by
  obtain ⟨feed, _ | record⟩ := r
  · -- the slot is empty, so the feed is asked
    rcases feed.next_cases with ⟨passed, line, rest, record, feed', hcome, hnone, hsome, hnext,
      hrest, hrecords, -⟩ | ⟨hnone, hnext⟩
    · refine .inl ⟨.discovered 1, ⟨feed', some record⟩, ?_, by simp only [next, hnext], hrecords⟩
      rw [script, script, hcome, hrest, Feed.filterMap_passed hnone hsome]
      rfl
    · generalize feed.malformed + _ = malformed at hnext
      refine .inr ⟨⟨⟨[], feed.records, malformed⟩, none⟩, ?_, by simp only [next, hnext], rfl, rfl⟩
      rw [script, List.filterMap_eq_nil_iff.mpr hnone]
      rfl
  · exact .inl ⟨.record record, ⟨feed, none⟩, rfl, rfl, (UInt64.add_zero _).symm⟩

/-! ### All calls -/

/-- The answers of some calls, one after the other, and the relay after them. -/
def calls : Nat → Relay → List (Option Event) × Relay
  | 0, r => ([], r)
  | n + 1, r =>
    let (answer, r) := r.next
    let (answers, r) := calls n r
    (answer :: answers, r)

/-- **So many calls** give so many events of the script, and then nothing.  The others are still to
be given, and the announcements among those given were counted. -/
theorem calls_eq (n : Nat) (r : Relay) :
    (calls n r).1 = (r.script.take n).map some ++ List.replicate (n - r.script.length) none ∧
      (calls n r).2.script = r.script.drop n ∧
      (calls n r).2.feed.records =
        r.feed.records + UInt64.ofNat ((r.script.take n).count (.discovered 1)) := by
  induction n generalizing r with
  | zero => exact ⟨by simp [calls], rfl, by simp [calls]⟩
  | succ n ih =>
    rcases next_cases r with ⟨e, r', hscript, hnext, hrecords⟩ | ⟨r', hscript, hnext, hrest,
      hrecords⟩
    · -- this call gives the head of the script, and the others go on with its tail
      obtain ⟨hanswers, hleft, hcount⟩ := ih r'
      rw [hscript, calls, hnext]
      refine ⟨?_, hleft, ?_⟩
      · show some e :: (calls n r').1 = _
        rw [hanswers, List.take_succ_cons, List.map_cons, List.length_cons,
          Nat.add_sub_add_right]
        rfl
      · show (calls n r').2.feed.records = _
        rw [hcount, hrecords, List.take_succ_cons, List.count_cons, Nat.add_comm, UInt64.ofNat_add,
          ← UInt64.add_assoc, tick]
        simp only [beq_iff_eq]
    · -- the script is at its end and stays there
      obtain ⟨hanswers, hleft, hcount⟩ := ih r'
      rw [hrest] at hanswers hleft hcount
      rw [hscript, calls, hnext]
      refine ⟨?_, hleft.trans (List.drop_nil.trans List.drop_nil.symm), ?_⟩
      · show none :: (calls n r').1 = _
        rw [hanswers]
        simp [List.replicate_succ]
      · show (calls n r').2.feed.records = _
        rw [hcount, hrecords]
        simp

end Relay

/-! ### The source of a job -/

/-- Every second event is an announcement, from the first one on. -/
theorem count_announced (records : List Record) (n : Nat) :
    ((Event.announced records).take n).count (.discovered 1) =
      (min n (2 * records.length) + 1) / 2 := by
  induction records generalizing n with
  | nil => simp [Event.announced]
  | cons r rest ih =>
    rw [announced_cons, List.length_cons]
    -- a record takes two events, so the induction goes on two of them behind
    rcases n with _ | _ | n
    · simp
    · rw [Nat.min_eq_left (by omega)]
      rfl
    · have hrecord : (Event.record r == Event.discovered 1) = false := rfl
      rw [List.take_succ_cons, List.take_succ_cons, List.count_cons_self, List.count_cons, ih,
        hrecord, if_neg Bool.false_ne_true]
      omega

/-- What is said at the end depends on the number of records only. -/
theorem Feed.outcome_close_congr {f f' : Feed} (h : f'.records = f.records) (run : Execution) :
    (f'.close run).outcome = (f.close run).outcome := by
  obtain ⟨lines, records, malformed⟩ := f
  obtain ⟨lines', records', malformed'⟩ := f'
  obtain rfl : records' = records := h
  rfl

/-- The slot holds a record iff it was announced last. -/
theorem Relay.pending_of_script {r : Relay} {records : List Record} {n : Nat}
    (h : r.script = (Event.announced records).drop n) :
    r.pending = if n % 2 = 1 then records[n / 2]? else none := by
  induction records generalizing n with
  | nil =>
    have hempty : r.script = [] := h.trans List.drop_nil
    rw [Relay.script, List.append_eq_nil_iff] at hempty
    simpa using hempty.1
  | cons record rest ih =>
    rcases n with _ | _ | n
    · -- an announcement comes next, so no record waits
      obtain ⟨feed, _ | waiting⟩ := r
      · rfl
      · cases h
    · obtain ⟨feed, _ | waiting⟩ := r
      · rw [script] at h
        cases hcome : feed.toCome.filterMap record? with
        | nil => rw [hcome] at h; cases h
        | cons first others => rw [hcome] at h; cases h
      · obtain ⟨hwaiting, -⟩ := List.cons.inj h
        exact congrArg some (Event.record.inj hwaiting)
    · show r.pending = if (n + 2) % 2 = 1 then (record :: rest)[(n + 2) / 2]? else none
      rw [ih (n := n) h, Nat.add_mod_right, Nat.add_div_right _ (by decide),
        List.getElem?_cons_succ]

/-- **The extractor as a source.**  Of the lines before the first one that is no text, the calls
announce each record and then give it, in order, and answer with nothing after the last one.  If
the worker stops between the two, the record announced is the one that waits.  The outcome tells as
many records as were announced.  The events and outcomes that a job sees are these. -/
theorem relay_announces (run : Execution) (provenance : Provenance) (n : Nat) :
    let records := ((linesOf run.output).takeWhile isText).filterMap record?
    let events := records.flatMap fun r => [.discovered 1, .record r]
    let answers := (Relay.calls n (.ofOutput run.output)).1
    let relay := (Relay.calls n (.ofOutput run.output)).2
    answers = (events.take n).map some ++ List.replicate (n - events.length) none ∧
      relay.pending = (if n % 2 = 1 then records[n / 2]? else none) ∧
      (relay.finish run).records = UInt64.ofNat (answers.count (some (.discovered 1))) ∧
      (run.source provenance).events = events ∧
      (run.source provenance).finish (min n events.length) = relay.finish run := by
  intro records events answers relay
  have hscript : (Relay.ofOutput run.output).script = events := rfl
  obtain ⟨hanswers, hleft, hcount⟩ := Relay.calls_eq n (.ofOutput run.output)
  rw [hscript] at hanswers hleft hcount
  have hsome : answers.count (some (.discovered 1)) = (events.take n).count (.discovered 1) := by
    show ((Relay.calls n (.ofOutput run.output)).1).count _ = _
    rw [hanswers, List.count_append, List.count_replicate,
      List.count_map_of_injective _ some (Option.some_injective Event)]
    rfl
  have hrecords : relay.feed.records = UInt64.ofNat ((events.take n).count (.discovered 1)) :=
    hcount.trans (UInt64.zero_add _)
  -- a job reads all records first; the stream gives the same ones while it goes on
  have hevents : (run.source provenance).events = events :=
    congrArg Event.announced (Feed.toList_eq (.ofOutput run.output))
  refine ⟨hanswers, Relay.pending_of_script hleft, ?_, hevents, ?_⟩
  · rw [hsome]
    exact hrecords
  · refine Feed.outcome_close_congr ?_ run
    show UInt64.ofNat _ = _
    have hcount : (events.take n).count (.discovered 1) = _ := count_announced records n
    have hlength : events.length = _ := length_announced records
    rw [hrecords, hcount, hlength]

end Corpus
