/-
Corpus/Proofs/Conveying.lean

What a channel does to the events of a producer.

Producer and worker move in any order, each whenever it can.  As long as the worker listens,

    events sent  =  events given ++ events in flight

and the events sent are the first of those that the producer has to send.  The channel adds nothing,
loses nothing and keeps the order; what is in flight is bounded, and dropped once the worker
finishes.  A producer waits for room only and a worker for an event or the end of the producer, so
they never wait for each other (`Channel.conveys_events`).

A worker that reads on until it is told the end has got all there is, whatever the order of moves,
and learns what the source that works ahead of it tells (`Channel.agrees_with_source`).
-/
import Corpus.Proofs.Stopping
import Corpus.Source.Channel
import Mathlib

namespace Corpus

/-- A producer that ends without a failure as soon as an event is refused. -/
def Producer.Stops : Producer → Prop
  | .ended _ => True
  | .sending _ next => next false = .ended (.returned (.ok ())) ∧ Stops (next true)

theorem Producer.stops_ofEvents (result : Except String Unit) (events : List Event) :
    (ofEvents result events).Stops := by
  induction events with
  | nil => trivial
  | cons e rest ih => exact ⟨rfl, ih⟩

namespace Channel

variable {p : Producer} {c c' : Channel} {m : Move} {moves : List Move}

/-! ### Moves -/

/-- What a move makes of a channel. -/
inductive Step (c : Channel) : Move → Channel → Prop where
  /-- An event is refused once the worker has finished. -/
  | refuse {e : Event} {next : Bool → Producer} (hproducer : c.producer = .sending e next)
      (hdeaf : c.listening = false) :
      Step c .send { c with producer := next false, refused := c.refused ++ [e] }
  /-- An event is taken where there is room. -/
  | accept {e : Event} {next : Bool → Producer} (hproducer : c.producer = .sending e next)
      (hlistening : c.listening = true) (hroom : c.inFlight.length < channelDepth) :
      Step c .send
        { c with producer := next true, inFlight := c.inFlight ++ [e], sent := c.sent ++ [e] }
  /-- The oldest event in flight is given to the worker. -/
  | give {e : Event} {rest : List Event} (hlistening : c.listening = true)
      (hflight : c.inFlight = e :: rest) : Step c .next (c.give e rest)
  /-- The worker is told that there are no more. -/
  | tell (hlistening : c.listening = true) (hflight : c.inFlight = [])
      (hended : c.isEnded = true) : Step c .next { c with toldEnd := true }
  /-- The worker finishes. -/
  | finish (hlistening : c.listening = true) :
      Step c .finish { c with listening := false, inFlight := [] }

/-- These are all moves that can be made. -/
theorem step?_eq_some_iff : c.step? m = some c' ↔ Step c m c' := by
  constructor
  · intro h
    cases m with
    | send =>
      rw [step?] at h
      split at h
      · cases h
      · rename_i e next hproducer
        split at h
        · rename_i hdeaf
          cases h
          exact .refuse hproducer (by simpa using hdeaf)
        · rename_i hlistening
          split at h
          · rename_i hroom
            cases h
            exact .accept hproducer (by simpa using hlistening) hroom
          · cases h
    | next =>
      rw [step?] at h
      split at h
      · cases h
      · rename_i hlistening
        split at h
        · rename_i e rest hflight
          cases h
          exact .give (by simpa using hlistening) hflight
        · rename_i hflight
          split at h
          · rename_i hended
            cases h
            exact .tell (by simpa using hlistening) hflight hended
          · cases h
    | finish =>
      rw [step?] at h
      split at h
      · rename_i hlistening
        cases h
        exact .finish hlistening
      · cases h
  · intro h
    cases h with
    | refuse hproducer hdeaf => simp [step?, hproducer, hdeaf]
    | accept hproducer hlistening hroom => simp [step?, hproducer, hlistening, hroom]
    | give hlistening hflight => simp [step?, hlistening, hflight]
    | tell hlistening hflight hended => simp [step?, hlistening, hflight, hended]
    | finish hlistening => simp [step?, hlistening]

theorem isEnded_iff : c.isEnded = true ↔ ∃ ending, c.producer = .ended ending := by
  rw [isEnded]
  cases c.producer with
  | ended ending => simp
  | sending e next => simp

theorem isEnded_eq_false_iff :
    c.isEnded = false ↔ ∃ e next, c.producer = .sending e next := by
  rw [isEnded]
  cases c.producer with
  | ended ending => simp
  | sending e next => simp

theorem run?_cons : c.run? (m :: moves) = (c.step? m).bind (·.run? moves) := rfl

theorem run?_append (more : List Move) :
    c.run? (moves ++ more) = (c.run? moves).bind (·.run? more) := by
  rw [run?, List.foldlM_append]
  rfl

/-- What every move preserves is preserved by a run. -/
theorem run_preserves {P : Channel → Prop} (hstep : ∀ {c m c'}, P c → Step c m c' → P c')
    (h : P c) (hrun : c.run? moves = some c') : P c' := by
  induction moves generalizing c with
  | nil =>
    cases hrun
    exact h
  | cons m rest ih =>
    rw [run?_cons] at hrun
    obtain ⟨next, hnext, hrest⟩ := Option.bind_eq_some_iff.mp hrun
    exact ih (hstep h (step?_eq_some_iff.mp hnext)) hrest

/-! ### What is conveyed -/

/-- What holds of a channel that was opened for a producer, whatever moves were made. -/
structure Conveys (p : Producer) (c : Channel) : Prop where
  /-- What the producer has sent and has still to send is what it had to send. -/
  script : c.refused = [] → p.offered = c.sent ++ c.producer.offered
  ending : c.refused = [] → p.ending = c.producer.ending
  /-- No event is lost, repeated or moved. -/
  whole : c.listening = true → c.sent = c.given ++ c.inFlight
  /-- Events are refused only after the worker has finished. -/
  taken : c.listening = true → c.refused = []
  begun : c.sent <+: p.offered
  order : c.given <+: c.sent
  bounded : c.inFlight.length ≤ channelDepth
  dropped : c.listening = false → c.inFlight = []
  ahead : c.sent.length ≤ c.given.length + channelDepth
  counted : c.records = UInt64.ofNat (c.given.countP (·.isRecord))
  told : c.toldEnd = true → c.isEnded = true ∧ c.inFlight = [] ∧ c.refused = [] ∧ c.given = c.sent
  stops : p.Stops → c.producer.Stops
  stopped : p.Stops → c.refused ≠ [] → c.producer = .ended (.returned (.ok ()))

namespace Conveys

theorem opened (p : Producer) : p.channel.Conveys p where
  script _ := rfl
  ending _ := rfl
  whole _ := rfl
  taken _ := rfl
  begun := List.nil_prefix
  order := List.nil_prefix
  bounded := Nat.zero_le _
  dropped _ := rfl
  ahead := Nat.zero_le _
  counted := rfl
  told := nofun
  stops h := h
  stopped _ h := absurd rfl h

/-- A producer that is still sending was not told of as having ended. -/
theorem not_told (h : c.Conveys p) {e : Event} {next : Bool → Producer}
    (hproducer : c.producer = .sending e next) : c.toldEnd = false := by
  rw [← Bool.not_eq_true]
  intro htold
  have hended := (h.told htold).1
  rw [isEnded, hproducer] at hended
  cases hended

/-- **One move.** -/
theorem step (h : c.Conveys p) (hstep : Step c m c') : c'.Conveys p := by
  cases hstep with
  | refuse hproducer hdeaf =>
    have hstops : p.Stops → _ := fun hp => hproducer ▸ h.stops hp
    refine { h with
      script := ?_, ending := ?_, taken := ?_, told := ?_, stops := ?_, stopped := ?_ }
    · simp
    · simp
    · simp [hdeaf]
    · simp [h.not_told hproducer]
    · intro hp
      show (_ : Producer).Stops
      rw [(hstops hp).1]
      trivial
    · exact fun hp _ => (hstops hp).1
  | @accept e next hproducer hlistening hroom =>
    have htaken := h.taken hlistening
    have hscript : p.offered = c.sent ++ [e] ++ (next true).offered := by
      rw [h.script htaken, hproducer, List.append_assoc]
      rfl
    have hending : p.ending = (next true).ending := by
      rw [h.ending htaken, hproducer]
      rfl
    have hwhole : c.sent ++ [e] = c.given ++ (c.inFlight ++ [e]) := by
      rw [h.whole hlistening, List.append_assoc]
    -- what is ahead of the worker is what is in flight
    have hahead : (c.sent ++ [e]).length ≤ c.given.length + channelDepth := by
      rw [hwhole]
      simp only [List.length_append, List.length_singleton]
      omega
    refine { h with
      script := fun _ => hscript, ending := fun _ => hending, whole := fun _ => hwhole,
      begun := ⟨_, hscript.symm⟩, order := ⟨_, hwhole.symm⟩, bounded := ?_, dropped := ?_,
      ahead := hahead, told := ?_, stops := ?_, stopped := ?_ }
    · simpa using hroom
    · simp [hlistening]
    · simp [h.not_told hproducer]
    · intro hp
      have hstops := h.stops hp
      rw [hproducer] at hstops
      exact hstops.2
    · exact fun _ hrefused => absurd htaken hrefused
  | @give e rest hlistening hflight =>
    have hwhole : c.sent = c.given ++ [e] ++ rest := by
      rw [h.whole hlistening, hflight, List.append_assoc]
      rfl
    refine { h with
      whole := fun _ => hwhole, order := ⟨rest, hwhole.symm⟩, bounded := ?_, dropped := ?_,
      ahead := ?_, counted := ?_, told := ?_ }
    · have hbounded := h.bounded
      rw [hflight, List.length_cons] at hbounded
      exact Nat.le_of_succ_le hbounded
    · simp [give, hlistening]
    · have hahead := h.ahead
      simp only [give, List.length_append, List.length_singleton]
      omega
    · simp only [give, List.countP_append, List.countP_singleton, h.counted]
      split
      · rw [UInt64.ofNat_add]
        rfl
      · rw [Nat.add_zero]
    · intro htold
      cases hflight.symm.trans (h.told htold).2.1
  | tell hlistening hflight hended =>
    have hwhole := h.whole hlistening
    rw [hflight, List.append_nil] at hwhole
    exact { h with told := fun _ => ⟨hended, hflight, h.taken hlistening, hwhole.symm⟩ }
  | finish hlistening =>
    refine { h with
      whole := nofun, taken := nofun, bounded := Nat.zero_le _, dropped := fun _ => rfl,
      told := fun htold => ?_ }
    obtain ⟨hended, -, hrefused, hgiven⟩ := h.told htold
    exact ⟨hended, rfl, hrefused, hgiven⟩

/-- **Any number of moves.** -/
theorem run (hrun : p.channel.run? moves = some c) : c.Conveys p :=
  run_preserves step (opened p) hrun

end Conveys

/-! ### Waiting -/

/-- The producer waits: it has an event to send and cannot. -/
def ProducerWaits (c : Channel) : Prop := c.isEnded = false ∧ c.step? .send = none

/-- The worker waits: for an event, or once it has finished for the producer to end. -/
def WorkerWaits (c : Channel) : Prop :=
  (c.listening = true ∧ c.step? .next = none) ∨ (c.listening = false ∧ c.isEnded = false)

/-- A producer waits for room alone. -/
theorem producerWaits_iff : c.ProducerWaits ↔
    c.isEnded = false ∧ c.listening = true ∧ channelDepth ≤ c.inFlight.length := by
  refine and_congr_right fun hgoing => ?_
  obtain ⟨e, next, hproducer⟩ := isEnded_eq_false_iff.mp hgoing
  rw [step?, hproducer]
  cases c.listening with
  | false => simp
  | true => simp

/-- A worker waits for a producer that has not ended and finds the channel empty. -/
theorem workerWaits_iff (h : c.listening = false → c.inFlight = []) :
    c.WorkerWaits ↔ c.inFlight = [] ∧ c.isEnded = false := by
  rw [WorkerWaits, step?]
  cases hlistening : c.listening with
  | false => simp [h hlistening]
  | true =>
    cases c.inFlight with
    | nil => simp
    | cons e rest => simp

/-- Where the worker waits the producer can send. -/
theorem WorkerWaits.send (hwaits : c.WorkerWaits) (h : c.listening = false → c.inFlight = []) :
    ∃ c', c.step? .send = some c' := by
  obtain ⟨hflight, hgoing⟩ := (workerWaits_iff h).mp hwaits
  by_contra hnone
  have hstuck : c.ProducerWaits :=
    ⟨hgoing, by simpa [Option.eq_none_iff_forall_ne_some] using hnone⟩
  have hfull := (producerWaits_iff.mp hstuck).2.2
  rw [hflight] at hfull
  exact absurd hfull (by decide)

/-- Where the producer waits the worker can go on, and once it finishes the producer can, too. -/
theorem ProducerWaits.go_on (hwaits : c.ProducerWaits) :
    (∃ c', c.step? .next = some c') ∧
      ∃ c', c.step? .finish = some c' ∧ ∃ c'', c'.step? .send = some c'' := by
  obtain ⟨hgoing, hlistening, hfull⟩ := producerWaits_iff.mp hwaits
  obtain ⟨e, next, hproducer⟩ := isEnded_eq_false_iff.mp hgoing
  obtain ⟨oldest, rest, hflight⟩ : ∃ oldest rest, c.inFlight = oldest :: rest := by
    apply List.exists_cons_of_length_pos
    exact Nat.lt_of_lt_of_le (by decide) hfull
  exact ⟨⟨_, step?_eq_some_iff.mpr (.give hlistening hflight)⟩,
    _, step?_eq_some_iff.mpr (.finish hlistening),
    _, step?_eq_some_iff.mpr (.refuse hproducer rfl)⟩

/-! ### After the worker has finished -/

/-- Once the worker has finished nothing is sent or given any more, and events are refused. -/
structure Closed (before c : Channel) : Prop where
  deaf : c.listening = false
  sent : c.sent = before.sent
  given : c.given = before.given
  refused : before.refused <+: c.refused

theorem Closed.step {before : Channel} (h : before.Closed c) (hstep : Step c m c') :
    before.Closed c' := by
  have hdeaf := h.deaf
  cases hstep with
  | refuse => exact { h with refused := h.refused.trans (List.prefix_append _ _) }
  | accept _ hlistening | give hlistening | tell hlistening | finish hlistening =>
    rw [hdeaf] at hlistening
    cases hlistening

theorem Closed.run (hdeaf : c.listening = false) (hrun : c.run? moves = some c') : c.Closed c' :=
  run_preserves Closed.step ⟨hdeaf, rfl, rfl, List.prefix_refl _⟩ hrun

/-- **A worker that has finished** is left alone by the producer after some more events, all of them
refused. -/
theorem exists_outcome (hdeaf : c.listening = false) :
    ∃ n c' o, c.run? (List.replicate n .send) = some c' ∧ c'.outcome? = some o := by
  generalize hproducer : c.producer = q
  induction q generalizing c with
  | ended ending => exact ⟨0, c, _, rfl, by rw [outcome?, hdeaf, hproducer]⟩
  | sending e next ih =>
    -- the next event is refused, and what is left of the producer goes on with that
    obtain ⟨n, c', o, hrun, houtcome⟩ := ih false
      (c := { c with producer := next false, refused := c.refused ++ [e] }) hdeaf rfl
    refine ⟨n + 1, c', o, ?_, houtcome⟩
    rw [List.replicate_succ, run?_cons, step?_eq_some_iff.mpr (.refuse hproducer hdeaf)]
    exact hrun

theorem outcome?_eq_some_iff {o : Outcome} : c.outcome? = some o ↔
    c.listening = false ∧ ∃ ending, c.producer = .ended ending ∧
      o = { records := c.records, fatal := ending.fatal? } := by
  rw [outcome?]
  constructor
  · intro h
    split at h
    · rename_i ending hdeaf hproducer
      exact ⟨hdeaf, ending, hproducer, (Option.some.inj h).symm⟩
    · cases h
  · rintro ⟨hdeaf, ending, hproducer, rfl⟩
    rw [hdeaf, hproducer]

/-- A producer that was still sending when the worker had finished has an event refused before it
ends. -/
theorem refused_of_outcome {o : Outcome} (hdeaf : c.listening = false) (hgoing : c.isEnded = false)
    (hrun : c.run? moves = some c') (houtcome : c'.outcome? = some o) : c'.refused ≠ [] := by
  obtain ⟨-, ending, hended, -⟩ := outcome?_eq_some_iff.mp houtcome
  cases moves with
  | nil =>
    cases hrun
    rw [isEnded, hended] at hgoing
    cases hgoing
  | cons m rest =>
    rw [run?_cons] at hrun
    obtain ⟨after, hafter, hrest⟩ := Option.bind_eq_some_iff.mp hrun
    cases step?_eq_some_iff.mp hafter with
    | refuse =>
      -- what was refused first stays refused
      have hclosed := Closed.run (by exact hdeaf) hrest
      exact hclosed.refused.ne_nil (by simp)
    | accept _ hlistening | give hlistening | tell hlistening | finish hlistening =>
      rw [hdeaf] at hlistening
      cases hlistening

/-- A worker that was told the end has got all events of the producer. -/
theorem Conveys.given_eq (h : c.Conveys p) (htold : c.toldEnd = true) : c.given = p.offered := by
  obtain ⟨hended, -, hrefused, hgiven⟩ := h.told htold
  obtain ⟨ending, hproducer⟩ := isEnded_iff.mp hended
  rw [h.script hrefused, hproducer, hgiven]
  exact (List.append_nil _).symm

/-- Who was told the end is never told anything else. -/
theorem toldEnd_of_run (htold : c.toldEnd = true) (hrun : c.run? moves = some c') :
    c'.toldEnd = true := by
  apply run_preserves (P := fun c => c.toldEnd = true) _ htold hrun
  intro c m c' htold hstep
  cases hstep with
  | tell => rfl
  | refuse | accept | give | finish => exact htold

/-- What makes the job fail after a producer that stops in time. -/
theorem Conveys.fatal {o : Outcome} (h : c.Conveys p) (hstops : p.Stops)
    (houtcome : c.outcome? = some o) :
    o.fatal = if c.refused = [] then p.ending.fatal? else none := by
  obtain ⟨-, ending, hended, rfl⟩ := outcome?_eq_some_iff.mp houtcome
  split
  · rename_i hrefused
    rw [h.ending hrefused, hended]
    rfl
  · rename_i hrefused
    have hstopped := h.stopped hstops hrefused
    rw [hended] at hstopped
    cases hstopped
    rfl

/-! ### The events of a producer -/

/-- **A channel conveys events.**  Whatever moves the producer and the worker have made: the worker
was given the first events that were sent, which are the first ones of the producer, and all of them
once it was told the end; the channel is bounded; the records are counted; producer and worker never
wait for each other; and once the worker has finished every event is refused, until the producer has
ended, without a failure if it stops at a refused event. -/
theorem conveys_events (p : Producer) (hrun : p.channel.run? moves = some c) :
    (c.given <+: c.sent ∧ c.sent <+: p.offered ∧
      (c.listening = true → c.sent = c.given ++ c.inFlight)) ∧
    (c.toldEnd = true → c.given = p.offered ∧
      ∀ more c', c.run? more = some c' → c'.given = p.offered) ∧
    c.inFlight.length ≤ channelDepth ∧
    (∀ o, c.outcome? = some o → o.records = UInt64.ofNat (c.given.countP (·.isRecord))) ∧
    ((c.WorkerWaits → ∃ c', c.step? .send = some c') ∧
      (c.ProducerWaits → (∃ c', c.step? .next = some c') ∧
        ∃ c', c.step? .finish = some c' ∧ ∃ c'', c'.step? .send = some c'')) ∧
    (c.listening = false →
      (∀ more c', c.run? more = some c' → c.Closed c') ∧
      ∃ n c' o, c.run? (List.replicate n .send) = some c' ∧ c'.outcome? = some o) ∧
    (p.Stops →
      (∀ o, c.outcome? = some o →
        o.fatal = if c.refused = [] then p.ending.fatal? else none) ∧
      (c.listening = false → c.isEnded = false → ∀ more c' o, c.run? more = some c' →
        c'.outcome? = some o → o.fatal = none)) := by
  have h : c.Conveys p := .run hrun
  have hlater : ∀ {more c'}, c.run? more = some c' → c'.Conveys p := by
    intro more c' hmore
    have hwhole : p.channel.run? (moves ++ more) = some c' := by
      rw [run?_append, hrun]
      exact hmore
    exact .run hwhole
  refine ⟨⟨h.order, h.begun, h.whole⟩, fun htold => ?_, h.bounded, fun o houtcome => ?_,
    ⟨fun hwaits => hwaits.send h.dropped, ProducerWaits.go_on⟩,
    fun hdeaf => ⟨fun more c' => Closed.run hdeaf, exists_outcome hdeaf⟩,
    fun hstops => ⟨fun o => h.fatal hstops, fun hdeaf hgoing more c' o hmore houtcome => ?_⟩⟩
  · exact ⟨h.given_eq htold, fun more c' hmore =>
      (hlater hmore).given_eq (toldEnd_of_run htold hmore)⟩
  · obtain ⟨-, ending, -, rfl⟩ := outcome?_eq_some_iff.mp houtcome
    exact h.counted
  · rw [(hlater hmore).fatal hstops houtcome,
      if_neg (refused_of_outcome hdeaf hgoing hmore houtcome)]

namespace Sample

/-- A producer with a record and more notices than the channel holds, that fails in the end. -/
def crowded : Producer :=
  .ofEvents (.error "nobody stopped me") (.record {} :: List.replicate 65 (.notice "more"))

/-- The channel is filled up, and filled up again after the record was given. -/
def filling : List Move := List.replicate 64 .send ++ [.next, .send]

end Sample

/-- The worker finishes while the producer waits for room: the last notice is refused, and the
failure is never heard of. -/
theorem conveys_events_crowded :
    ∃ full c o, Sample.crowded.channel.run? Sample.filling = some full ∧ full.ProducerWaits ∧
      full.run? [.finish, .send] = some c ∧ c.outcome? = some o ∧
      c.given = [.record {}] ∧ c.sent.length = 65 ∧ c.refused = [.notice "more"] ∧
      o.records = 1 ∧ o.fatal = none := by
  obtain ⟨full, hfull, hgoing, hlistening, hflight⟩ :
      ∃ full, Sample.crowded.channel.run? Sample.filling = some full ∧ full.isEnded = false ∧
        full.listening = true ∧ full.inFlight.length = 64 := ⟨_, rfl, rfl, rfl, rfl⟩
  obtain ⟨c, o, hrun, houtcome, hgiven, hsent, hrefused⟩ :
      ∃ c o, Sample.crowded.channel.run? (Sample.filling ++ [.finish, .send]) = some c ∧
        c.outcome? = some o ∧ c.given = [.record {}] ∧ c.sent.length = 65 ∧
        c.refused = [.notice "more"] := ⟨_, _, rfl, rfl, rfl, rfl, rfl⟩
  have hrest : full.run? [.finish, .send] = some c := by
    rw [run?_append, hfull] at hrun
    exact hrun
  obtain ⟨-, -, -, hrecords, -, -, hstops⟩ := conveys_events Sample.crowded hrun
  have hfatal := (hstops (Producer.stops_ofEvents _ _)).1 o houtcome
  refine ⟨full, c, o, hfull, producerWaits_iff.mpr ⟨hgoing, hlistening, hflight.ge⟩, hrest,
    houtcome, hgiven, hsent, hrefused, ?_, ?_⟩
  · rw [hrecords o houtcome, hgiven]
    rfl
  · rw [hfatal, hrefused]
    rfl

end Channel

/-! ### Sources that work ahead -/

namespace Production

variable (events : List Event) (fatal : Option String) (disk : Disk)

theorem sent_ofEvents : (ofEvents events fatal disk none).sent = events := by
  simp [ofEvents, Outbox.sendAll_unbounded, close]

/-- A producer of given events fails if all of them are sent. -/
theorem fatal_ofEvents (room : Nat) : (ofEvents events fatal disk (some room)).fatal =
    if events.length ≤ room then fatal else none := by
  rw [ofEvents, Outbox.sendAll_some]
  by_cases hroom : events.length ≤ room
  · rw [decide_eq_true hroom, if_pos hroom]
    rfl
  · rw [decide_eq_false hroom, if_neg hroom]
    rfl

end Production

/-- **A source that works ahead** tells what a channel conveys.  The worker is given its first
events; and the outcome is that of the source, but without a failure if an event was refused. -/
theorem Channel.agrees_with_source {c : Channel} {moves : List Move} (result : Except String Unit)
    (events : List Event) (provenance : Provenance) (disk : Disk) {o : Outcome}
    (hrun : (Producer.ofEvents result events).channel.run? moves = some c)
    (houtcome : c.outcome? = some o) :
    let source := Source.ofProducer provenance
      (Production.ofEvents events (Producer.Ending.returned result).fatal? disk)
    c.given <+: source.events ∧
      o = { source.finish c.given.length with
        fatal := if c.refused = [] then (source.finish c.given.length).fatal else none } := by
  intro source
  have h : c.Conveys (Producer.ofEvents result events) := .run hrun
  have hevents : source.events = events := Production.sent_ofEvents _ _ _
  have hgiven : c.given <+: events := by
    have hoffered := h.order.trans h.begun
    rwa [Producer.offered_ofEvents] at hoffered
  have hrecords : o.records = (source.finish c.given.length).records := by
    show o.records = UInt64.ofNat ((source.events.take c.given.length).countP (·.isRecord))
    obtain ⟨-, ending, -, rfl⟩ := outcome?_eq_some_iff.mp houtcome
    rw [hevents, ← List.prefix_iff_eq_take.mp hgiven]
    exact h.counted
  have hfatal : o.fatal =
      if c.refused = [] then (source.finish c.given.length).fatal else none := by
    rw [h.fatal (Producer.stops_ofEvents result events) houtcome]
    split
    · rename_i hrefused
      obtain ⟨-, ending, hended, -⟩ := outcome?_eq_some_iff.mp houtcome
      -- all events were sent, so they are no more than those given and those in flight
      have hscript := h.script hrefused
      rw [hended, Producer.offered_ofEvents] at hscript
      have hall : events.length ≤ c.given.length + channelDepth := by
        rw [hscript]
        simpa [Producer.offered] using h.ahead
      rw [Producer.ending_ofEvents]
      exact ((Production.fatal_ofEvents _ _ _ _).trans (if_pos hall)).symm
    · rfl
  refine ⟨hevents ▸ hgiven, ?_⟩
  rw [← hfatal]
  obtain ⟨-, ending, -, rfl⟩ := outcome?_eq_some_iff.mp houtcome
  rw [Outcome.mk.injEq]
  exact ⟨hrecords, rfl, rfl⟩

end Corpus
