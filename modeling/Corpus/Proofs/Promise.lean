/-
Corpus/Proofs/Promise.lean

Sources keep what they announce.  An announcement promises a number of records; a record, or
the report that one could not be made, settles one of them.  At no point has a source settled
more than it promised, and a source that was read to its end without a fatal outcome has
settled all of it.

The extractor's feed announces every record right before it gives it.  Folders and zip
archives announce all records at once, before the first of them.
-/
import Corpus.Ingest.Run

namespace Corpus

namespace Event

/-- The event settles a promised record. -/
def settles : Event → Bool
  | .record _ | .failed _ _ => true
  | _ => false

/-- How many records some events settle. -/
def settled (events : List Event) : Nat := events.countP settles

/-- How many records an event promises. -/
def promise : Event → Nat
  | .discovered n => n.toNat
  | _ => 0

/-- How many records some events promise. -/
def promised : List Event → Nat
  | [] => 0
  | e :: rest => e.promise + promised rest

@[simp] theorem settled_nil : settled [] = 0 := rfl

@[simp] theorem promised_nil : promised [] = 0 := rfl

@[simp] theorem promised_cons (e : Event) (rest : List Event) :
    promised (e :: rest) = e.promise + promised rest := rfl

theorem settled_cons (e : Event) (rest : List Event) :
    settled (e :: rest) = settled rest + if e.settles then 1 else 0 :=
  List.countP_cons

theorem settled_append (first second : List Event) :
    settled (first ++ second) = settled first + settled second :=
  List.countP_append

theorem promised_append (first second : List Event) :
    promised (first ++ second) = promised first + promised second := by
  induction first with
  | nil => simp
  | cons e rest ih => rw [List.cons_append, promised_cons, ih, promised_cons, Nat.add_assoc]

theorem settled_le_length (events : List Event) : settled events ≤ events.length :=
  List.countP_le_length

/-- A part of the events promises no more than all of them. -/
theorem promised_take_le (events : List Event) (k : Nat) :
    promised (events.take k) ≤ promised events := by
  calc promised (events.take k)
      ≤ promised (events.take k) + promised (events.drop k) := Nat.le_add_right _ _
    _ = promised events := by rw [← promised_append, List.take_append_drop]

/-- Events that settle nothing and promise nothing. -/
theorem silent {events : List Event}
    (h : ∀ e ∈ events, e.settles = false ∧ e.promise = 0) :
    settled events = 0 ∧ promised events = 0 := by
  induction events with
  | nil => exact ⟨rfl, rfl⟩
  | cons e rest ih =>
    obtain ⟨hs, hp⟩ := h e List.mem_cons_self
    obtain ⟨hsettled, hpromised⟩ := ih fun a ha => h a (List.mem_cons_of_mem e ha)
    rw [settled_cons, promised_cons, hs, hp, hsettled, hpromised]
    exact ⟨rfl, rfl⟩

end Event

open Event

/-- At no point more is settled than promised, promises stay countable, and a source that
reports no fatal outcome at its end has settled all it promised. -/
structure Source.KeepsPromise (s : Source) : Prop where
  kept : ∀ k, settled (s.events.take k) ≤ promised (s.events.take k)
  countable : promised s.events < UInt64.size
  fulfilled : (s.finish s.events.length).fatal = none → settled s.events = promised s.events

/-! ### The extractor's feed -/

theorem announced_cons (r : Record) (rest : List Record) :
    Event.announced (r :: rest) = .discovered 1 :: .record r :: Event.announced rest := rfl

theorem length_announced (records : List Record) :
    (Event.announced records).length = 2 * records.length := by
  induction records with
  | nil => rfl
  | cons r rest ih =>
    rw [announced_cons, List.length_cons, List.length_cons, ih, List.length_cons]
    omega

theorem promised_announced (records : List Record) :
    promised (Event.announced records) = records.length ∧
      settled (Event.announced records) = records.length := by
  induction records with
  | nil => exact ⟨rfl, rfl⟩
  | cons r rest ih =>
    rw [announced_cons, promised_cons, promised_cons, settled_cons, settled_cons, ih.1, ih.2,
      List.length_cons]
    refine ⟨?_, rfl⟩
    show 1 + (0 + rest.length) = rest.length + 1
    omega

/-- Each record was announced before it came. -/
theorem announced_kept (records : List Record) (k : Nat) :
    settled ((Event.announced records).take k) ≤ promised ((Event.announced records).take k) := by
  induction records generalizing k with
  | nil => simp [Event.announced]
  | cons r rest ih =>
    rw [announced_cons]
    -- an announcement and its record come together, and the cut may fall between them
    match k with
    | 0 => exact Nat.le_refl 0
    | 1 => exact Nat.zero_le _
    | k + 2 =>
      rw [List.take_succ_cons, List.take_succ_cons, settled_cons, settled_cons, promised_cons,
        promised_cons]
      have := ih k
      simp only [settles, promise, UInt64.toNat_one]
      simp only [Bool.false_eq_true, if_true, if_false]
      omega

theorem Execution.keepsPromise (run : Execution) (provenance : Provenance)
    (h : (run.source provenance).events.length < UInt64.size) :
    (run.source provenance).KeepsPromise := by
  have hevents : (run.source provenance).events =
      Event.announced (Feed.ofOutput run.output).toList := rfl
  obtain ⟨hpromised, hsettled⟩ := promised_announced (Feed.ofOutput run.output).toList
  refine ⟨fun k => ?_, ?_, fun _ => ?_⟩
  · rw [hevents]; exact announced_kept _ k
  · rw [hevents, length_announced] at h
    rw [hevents, hpromised]
    omega
  · rw [hevents, hpromised, hsettled]

/-! ### Listings -/

namespace Outbox

/-- There is room for so many more events. -/
def Takes (o : Outbox) (n : Nat) : Prop := ∀ m, o.room = some m → n ≤ m

theorem takes_none (n : Nat) (sent : List Event) : (⟨none, sent⟩ : Outbox).Takes n := by
  intro m h
  cases h

theorem takes_some {n m : Nat} (h : n ≤ m) (sent : List Event) :
    (⟨some m, sent⟩ : Outbox).Takes n := by
  intro m' hm
  cases hm
  exact h

/-- An event is sent if there is room for it. -/
theorem send_of_takes {o : Outbox} {n : Nat} (h : o.Takes (n + 1)) (e : Event) :
    ∃ o', o.send e = (true, o') ∧ o'.sent = e :: o.sent ∧ o'.Takes n := by
  obtain ⟨room, sent⟩ := o
  match room with
  | none => exact ⟨_, rfl, rfl, takes_none n _⟩
  | some 0 => exact absurd (h 0 rfl) (Nat.not_succ_le_zero n)
  | some (m + 1) => exact ⟨_, rfl, rfl, takes_some (Nat.le_of_succ_le_succ (h _ rfl)) _⟩

/-- Events are sent if there is room for them. -/
theorem sendAll_of_takes (events : List Event) :
    ∀ {o : Outbox} {n : Nat}, o.Takes (events.length + n) →
      ∃ o', sendAll events o = (true, o') ∧ o'.sent = events.reverse ++ o.sent ∧ o'.Takes n := by
  induction events with
  | nil => exact fun {o n} h => ⟨o, rfl, rfl, by simpa using h⟩
  | cons e rest ih =>
    intro o n h
    rw [List.length_cons, Nat.succ_add] at h
    obtain ⟨o₁, hsend, hsent₁, htakes₁⟩ := send_of_takes h e
    obtain ⟨o₂, hall, hsent₂, htakes₂⟩ := ih htakes₁
    refine ⟨o₂, by rw [sendAll, hsend]; exact hall, ?_, htakes₂⟩
    rw [hsent₂, hsent₁, List.reverse_cons, List.append_assoc, List.singleton_append]

/-- Without a bound all events are sent. -/
theorem sendAll_unbounded (events : List Event) :
    ∀ sent : List Event, sendAll events ⟨none, sent⟩ = (true, ⟨none, events.reverse ++ sent⟩) := by
  induction events with
  | nil => exact fun _ => rfl
  | cons e rest ih =>
    intro sent
    show sendAll rest ⟨none, e :: sent⟩ = _
    rw [ih, List.reverse_cons, List.append_assoc, List.singleton_append]

end Outbox

namespace Production

variable {α : Type}

/-- What becomes of entries that are worked off one after the other. -/
def worked (work : Disk → α → Event × Disk) : List α → Disk → List Event
  | [], _ => []
  | a :: rest, d => (work d a).1 :: worked work rest (work d a).2

theorem length_worked (work : Disk → α → Event × Disk) (entries : List α) (d : Disk) :
    (worked work entries d).length = entries.length := by
  induction entries generalizing d with
  | nil => rfl
  | cons a rest ih => rw [worked, List.length_cons, ih, List.length_cons]

theorem settled_worked {work : Disk → α → Event × Disk}
    (h : ∀ d a, (work d a).1.settles = true) (entries : List α) (d : Disk) :
    ∀ e ∈ worked work entries d, e.settles = true := by
  induction entries generalizing d with
  | nil => intro e he; cases he
  | cons a rest ih =>
    intro e he
    rcases List.mem_cons.mp he with rfl | he
    · exact h d a
    · exact ih _ e he

/-- The disk after some entries were worked off. -/
def leftBy (work : Disk → α → Event × Disk) (entries : List α) (d : Disk) : Disk :=
  entries.foldl (fun d a => (work d a).2) d

/-- Without a bound every entry is worked off. -/
theorem workOff_none (work : Disk → α → Event × Disk) (entries : List α) :
    ∀ (d : Disk) (sent : List Event), workOff work entries d ⟨none, sent⟩ =
      (⟨none, (worked work entries d).reverse ++ sent⟩, leftBy work entries d) := by
  induction entries with
  | nil => exact fun _ _ => rfl
  | cons a rest ih =>
    intro d sent
    have hstep : workOff work (a :: rest) d ⟨none, sent⟩ =
        workOff work rest (work d a).2 ⟨none, (work d a).1 :: sent⟩ := rfl
    rw [hstep, ih, worked, List.reverse_cons, List.append_assoc, List.singleton_append]
    rfl

/-- What is passed over of a listing are its events. -/
theorem mem_passedOver {listing : List (Event ⊕ α)} {e : Event} :
    e ∈ passedOver listing ↔ .inl e ∈ listing := by
  rw [passedOver, List.mem_filterMap]
  constructor
  · rintro ⟨item, hitem, hsome⟩
    cases item with
    | inl e' => cases hsome; exact hitem
    | inr a => cases hsome
  · exact fun h => ⟨_, h, rfl⟩

/-- Every item of a listing is passed over or worked off. -/
theorem length_passedOver (listing : List (Event ⊕ α)) :
    (passedOver listing).length + (eligible listing).length = listing.length := by
  induction listing with
  | nil => rfl
  | cons item rest ih =>
    cases item with
    | inl e =>
      show (passedOver rest).length + 1 + (eligible rest).length = rest.length + 1
      omega
    | inr a =>
      show (passedOver rest).length + ((eligible rest).length + 1) = rest.length + 1
      omega

variable (listing : List (Event ⊕ α)) (prepare : Disk → Except String Unit × Disk)
  (work : Disk → α → Event × Disk) (d : Disk)

/-- The announcement of a listing. -/
def announcement : Event := .discovered (UInt64.ofNat (eligible listing).length)

/-- What follows the announcement: nothing if the preparation fails. -/
def results : List Event :=
  match prepare d with
  | (.error _, _) => []
  | (.ok (), d) => worked work (eligible listing) d

/-- A producer that can send its announcement fails exactly if its preparation does. -/
theorem fatal_ofListing {room : Option Nat}
    (h : (⟨room, []⟩ : Outbox).Takes ((passedOver listing).length + 1)) :
    (ofListing listing prepare work d room).fatal =
      match prepare d with
      | (.error message, _) => some message
      | (.ok (), _) => none := by
  obtain ⟨o₁, hall, -, htakes⟩ := Outbox.sendAll_of_takes (passedOver listing) h
  obtain ⟨o₂, hsend, -, -⟩ := Outbox.send_of_takes htakes (announcement listing)
  rw [announcement] at hsend
  simp only [ofListing, hall, hsend]
  rcases prepare d with ⟨message | _, d'⟩ <;> rfl

/-- Without a bound, the events are what is passed over, the announcement, and the results. -/
theorem sent_ofListing :
    (ofListing listing prepare work d none).sent =
      passedOver listing ++ announcement listing :: results listing prepare work d := by
  simp only [ofListing, Outbox.sendAll_unbounded, Outbox.send, List.append_nil, results]
  -- a preparation that fails has no results
  rcases prepare d with ⟨message | _, d'⟩
  · simp [close, announcement]
  · simp [close, announcement, workOff_none]

/-- The results settle no more than was announced, and all of it unless the preparation
failed. -/
theorem length_results (h : (results listing prepare work d).length < UInt64.size) :
    (results listing prepare work d).length ≤ (announcement listing).promise ∧
      ((∃ message d', prepare d = (.error message, d')) ∨
        (results listing prepare work d).length = (announcement listing).promise) := by
  rw [results] at h ⊢
  generalize prepare d = prepared at h ⊢
  rcases prepared with ⟨message | _, d'⟩
  · exact ⟨Nat.zero_le _, .inl ⟨message, d', rfl⟩⟩
  · dsimp only at h ⊢
    rw [length_worked] at h ⊢
    have hpromise : (announcement listing).promise = (eligible listing).length :=
      Nat.mod_eq_of_lt h
    exact ⟨Nat.le_of_eq hpromise.symm, .inr hpromise.symm⟩

end Production

/-- Events that all settle a record promise none. -/
theorem Event.settled_of_forall {events : List Event} (h : ∀ e ∈ events, e.settles = true) :
    settled events = events.length ∧ promised events = 0 := by
  refine ⟨List.countP_eq_length.mpr h, ?_⟩
  induction events with
  | nil => rfl
  | cons e rest ih =>
    rw [promised_cons, ih fun a ha => h a (List.mem_cons_of_mem e ha)]
    have he := h e List.mem_cons_self
    cases e with
    | discovered n => exact absurd he Bool.false_ne_true
    | _ => rfl

open Production in
/-- A listing keeps its promise if nothing that is passed over counts as a record, and every
entry that is worked off does. -/
theorem Source.keepsPromise_ofListing {α : Type} (provenance : Provenance)
    (listing : List (Event ⊕ α)) (prepare : Disk → Except String Unit × Disk)
    (work : Disk → α → Event × Disk) (d : Disk)
    (hover : ∀ e ∈ passedOver listing, e.settles = false ∧ e.promise = 0)
    (hwork : ∀ d a, (work d a).1.settles = true)
    (hlength : (ofListing listing prepare work d none).sent.length < UInt64.size) :
    (Source.ofProducer provenance (ofListing listing prepare work d)).KeepsPromise := by
  let source := Source.ofProducer provenance (ofListing listing prepare work d)
  have hevents : source.events =
      passedOver listing ++ announcement listing :: results listing prepare work d :=
    sent_ofListing listing prepare work d
  have hresults : ∀ e ∈ results listing prepare work d, e.settles = true := by
    rw [results]
    rcases prepare d with ⟨message | _, d'⟩
    · intro e he; cases he
    · exact settled_worked hwork _ _
  have hfew : source.events.length < UInt64.size := hlength
  rw [hevents, List.length_append, List.length_cons] at hfew
  obtain ⟨hle, hall⟩ := length_results listing prepare work d (by omega)
  obtain ⟨hsettled, hpromised⟩ := settled_of_forall hresults
  obtain ⟨hover_settled, hover_promised⟩ := silent hover
  have htotal : promised source.events = (announcement listing).promise := by
    rw [hevents, promised_append, promised_cons, hover_promised, hpromised]
    omega
  refine ⟨fun k => ?_, ?_, fun hfatal => ?_⟩
  · -- before the announcement nothing is settled, after it at most the results are
    show settled (source.events.take k) ≤ promised (source.events.take k)
    rw [hevents, List.take_append, settled_append, promised_append]
    have hfirst := (silent fun e he => hover e (List.mem_of_mem_take he)
      : settled ((passedOver listing).take k) = 0 ∧ promised ((passedOver listing).take k) = 0)
    rw [hfirst.1, hfirst.2]
    cases k - (passedOver listing).length with
    | zero => exact Nat.le_refl 0
    | succ j =>
      rw [List.take_succ_cons, settled_cons, promised_cons]
      have hj := settled_le_length ((results listing prepare work d).take j)
      have hshort := List.length_take_le' j (results listing prepare work d)
      have hquiet : (announcement listing).settles = false := rfl
      rw [hquiet]
      simp only [Bool.false_eq_true, if_false]
      omega
  · show promised source.events < UInt64.size
    rw [htotal]
    exact UInt64.toNat_lt _
  · show settled source.events = promised source.events
    rw [htotal, hevents, settled_append, settled_cons, hover_settled, hsettled]
    have hquiet : (announcement listing).settles = false := rfl
    rw [hquiet]
    rcases hall with ⟨message, d', hprepare⟩ | hall
    · -- a preparation that fails is reported, and there was room for all that came before
      have hfail : (source.finish source.events.length).fatal = some message := by
        show (ofListing listing prepare work d (some (_ + channelDepth))).fatal = some message
        rw [fatal_ofListing _ _ _ _ (Outbox.takes_some _ _), hprepare]
        rw [hevents, List.length_append, List.length_cons]
        omega
      rw [show (source.finish source.events.length).fatal = none from hfatal] at hfail
      cases hfail
    · simp only [Bool.false_eq_true, if_false]
      omega

/-- A source without events keeps its promise. -/
theorem Source.keepsPromise_of_nil {s : Source} (h : s.events = []) : s.KeepsPromise := by
  refine ⟨fun k => ?_, ?_, fun _ => ?_⟩
  · rw [h, List.take_nil]; exact Nat.le_refl 0
  · rw [h]; exact Nat.zero_lt_of_ne_zero (by decide)
  · rw [h]; rfl

/-! ### The three sources -/

/-- What is passed over counts as no record if every event of the listing is a report of an
entry passed over. -/
theorem Production.quiet_passedOver {α : Type} {listing : List (Event ⊕ α)}
    (h : ∀ e, .inl e ∈ listing → ∃ entry, e = .skipped entry) :
    ∀ e ∈ passedOver listing, e.settles = false ∧ e.promise = 0 := by
  intro e he
  obtain ⟨entry, rfl⟩ := h e (mem_passedOver.mp he)
  exact ⟨rfl, rfl⟩

namespace Folder

theorem settles_extract (extractor : TextExtractor) (d : Disk) (c : Candidate) :
    (extract extractor d c).settles = true := by
  unfold extract
  split <;> rfl

theorem classify_inl {filter : EntryFilter} {root : Path} {file : FoundFile} {e : Event}
    (h : classify filter root file = .inl e) : ∃ entry, e = .skipped entry := by
  unfold classify at h
  dsimp only at h
  split at h
  · cases h
  · cases h; exact ⟨_, rfl⟩

/-- A folder gives one event for each of its files, and one more for the announcement. -/
theorem length_events {filter : EntryFilter} {extractor : TextExtractor} {d : Disk} {root : Path}
    {entries : List (Bytes × Node)} (hroot : d.node? root = .ok (.dir entries)) {source : Source}
    (hopen : openSource filter extractor d root = .ok source) :
    source.events.length = (Node.dir entries).visibleFiles.length + 1 := by
  rw [openSource, hroot] at hopen
  cases hopen
  show (produce filter extractor root (.dir entries) d none).sent.length = _
  rw [produce, Production.sent_ofListing, List.length_append, List.length_cons,
    Production.results, Production.length_worked, ← Nat.add_assoc, Production.length_passedOver,
    List.length_map]

/-- Folders keep their promise. -/
theorem keepsPromise {filter : EntryFilter} {extractor : TextExtractor} {d : Disk} {root : Path}
    {source : Source} (hopen : openSource filter extractor d root = .ok source)
    (hlength : source.events.length < UInt64.size) : source.KeepsPromise := by
  unfold openSource at hopen
  split at hopen
  · cases hopen
    refine Source.keepsPromise_ofListing _ _ _ _ _ (Production.quiet_passedOver ?_)
      (fun d c => settles_extract extractor d c) hlength
    intro e he
    obtain ⟨file, -, hfile⟩ := List.mem_map.mp he
    exact classify_inl hfile
  · cases hopen

end Folder

namespace Archive

/-- An entry comes to what becomes of its scratch file, unless it cannot be unpacked. -/
theorem unpack_cases (extractor : TextExtractor) (scratch : Path) (d : Disk) (p : Packed) :
    (∃ d', (unpack extractor scratch d p).1 =
      extractScratch extractor d' (scratchPath scratch p.index p.extension) p) ∨
    ∃ cause, (unpack extractor scratch d p).1 = .failed p.entry.name (unpackFailure ++ cause) := by
  unfold unpack
  dsimp only
  split
  · split
    · exact .inr ⟨_, rfl⟩
    · split
      · exact .inl ⟨_, rfl⟩
      · exact .inr ⟨_, rfl⟩
  · exact .inr ⟨_, rfl⟩

theorem settles_unpack (extractor : TextExtractor) (scratch : Path) (d : Disk) (p : Packed) :
    (unpack extractor scratch d p).1.settles = true := by
  rcases unpack_cases extractor scratch d p with ⟨d', hunpack⟩ | ⟨cause, hunpack⟩
  · rw [hunpack, extractScratch]
    split <;> rfl
  · rw [hunpack]
    rfl

theorem classify?_inl {filter : EntryFilter} {entry : Zip.Entry} {index : Nat} {e : Event}
    (h : classify? filter entry index = some (.inl e)) : ∃ entry, e = .skipped entry := by
  unfold classify? at h
  split at h
  · cases h
  · split at h
    · cases h
    · cases h; exact ⟨_, rfl⟩

/-- Zip archives keep their promise. -/
theorem keepsPromise {filter : EntryFilter} {extractor : TextExtractor} {d d' : Disk}
    {archive scratch : Path} {source : Source}
    (hopen : openSource filter extractor d archive scratch = .ok (source, d'))
    (hlength : source.events.length < UInt64.size) : source.KeepsPromise := by
  unfold openSource at hopen
  split at hopen
  · cases hopen
    cases hread : d.read archive with
    | error fault =>
      exact Source.keepsPromise_of_nil
        (by simp [Source.ofProducer, produce, hread, Production.failed])
    | ok content =>
      cases hzip : Zip.read? content with
      | none =>
        exact Source.keepsPromise_of_nil
          (by simp [Source.ofProducer, produce, hread, hzip, Production.failed])
      | some entries =>
        have hproduce : produce filter extractor archive scratch d =
            Production.ofListing (listing filter entries) (prepare scratch)
              (unpack extractor scratch) d := by
          funext room
          simp [produce, hread, hzip]
        rw [hproduce] at hlength ⊢
        refine Source.keepsPromise_ofListing _ _ _ _ _ (Production.quiet_passedOver ?_)
          (fun d p => settles_unpack extractor scratch d p) hlength
        intro e he
        obtain ⟨⟨entry, index⟩, -, hentry⟩ := List.mem_filterMap.mp he
        exact classify?_inl hentry
  · cases hopen

end Archive

namespace Ingestion

/-- Whatever a job opens keeps its promise. -/
theorem keepsPromise (x : Ingestion) {d d' : Disk} {kind : JobKind} {target staging : Path}
    {source : Source} (hopen : x.openSource d kind target staging = (.ok source, d'))
    (hlength : source.events.length < UInt64.size) : source.KeepsPromise := by
  cases kind with
  | folderSync => exact Folder.keepsPromise (Prod.ext_iff.mp hopen).1 hlength
  | archiveIndex =>
    simp only [openSource, openArchive] at hopen
    split at hopen
    · split at hopen
      · unfold openStream at hopen
        split at hopen
        · cases hopen
        · split at hopen
          · cases hopen
          · cases hopen
            exact Execution.keepsPromise _ _ hlength
      · split at hopen
        · split at hopen
          · rename_i hzip
            cases hopen
            exact Archive.keepsPromise hzip hlength
          · cases hopen
        · cases hopen
    · cases hopen

end Ingestion

end Corpus
