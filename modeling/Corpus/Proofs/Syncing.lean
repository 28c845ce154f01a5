/-
Corpus/Proofs/Syncing.lean

What a folder leaves in an index that it is synchronised into.

Every record or failure of a folder is that of an eligible file of the tree, extracted at the path
of the file and reported under its entry (`Folder.Locates`).  An entry has one object in the
index, whichever files share it, so

    objects  =  different entries among the records with enough text
    indexed  =  all records with enough text

(`Ingestion.folder_sync_locates`).  Both agree where no name holds a backslash; two files whose
places differ in the kind of slashes share their entry, and the index loses one of them
(`Folder.entry_shared`).
-/
import Corpus.Proofs.Locating
import Corpus.Proofs.Promise
import Corpus.Proofs.Stocking

namespace Corpus

/-! ### The events of a folder -/

/-- Work that leaves the disk alone is done on one disk. -/
theorem Production.worked_of_still {α : Type} (work : Disk → α → Event) (entries : List α)
    (d : Disk) : worked (fun d a => (work d a, d)) entries d = entries.map (work d) := by
  induction entries with
  | nil => rfl
  | cons a rest ih => rw [worked, ih, List.map_cons]

namespace Folder

variable {filter : EntryFilter} {extractor : TextExtractor} {d : Disk} {root : String}
  {top : Place} {es : List (Bytes × Node)}

theorem classify_of_eligible (root : Path) (f : FoundFile) {extension : String}
    (h : filter.eligible? (entryName f.place) = some extension) :
    classify filter root f =
      .inr ⟨pathOf root f.place, entryName f.place, extension, UInt64.ofNat f.content.length⟩ := by
  unfold classify
  dsimp only
  rw [h]

theorem classify_of_not_eligible (root : Path) (f : FoundFile)
    (h : filter.eligible? (entryName f.place) = none) :
    classify filter root f = .inl (.skipped (entryName f.place)) := by
  unfold classify
  dsimp only
  rw [h]

/-- What becomes of the files of a folder. -/
def listing (filter : EntryFilter) (root : String) (es : List (Bytes × Node)) :
    List (Event ⊕ Candidate) :=
  (Node.dir es).visibleFiles.map (classify filter (.ofText root))

/-- Nothing but skipped entries is passed over. -/
theorem skipped_of_mem_listing {e : Event} (h : .inl e ∈ listing filter root es) :
    ∃ entry, e = .skipped entry := by
  obtain ⟨f, -, hf⟩ := List.mem_map.mp h
  exact classify_inl hf

/-- A folder passes over the files that are not eligible, announces the others, and extracts
those. -/
theorem openSource_of_find (filter : EntryFilter) (extractor : TextExtractor)
    (hroot : d.find true (.ofText root) = .ok (top, .dir es)) :
    ∃ source, openSource filter extractor d (.ofText root) = .ok source ∧
      source.provenance = ⟨.folder, root⟩ ∧
      source.events = Production.passedOver (listing filter root es) ++
        Production.announcement (listing filter root es) ::
          (Production.eligible (listing filter root es)).map (extract extractor d) := by
  have hnode : d.node? (.ofText root) = .ok (.dir es) := by rw [Disk.node?, hroot]; rfl
  refine ⟨_, by rw [openSource, hnode], ?_, ?_⟩
  · exact congrArg (Provenance.mk .folder) (Text.decodeLossy_encode root)
  · show (produce filter extractor _ (.dir es) d none).sent = _
    rw [produce, Production.sent_ofListing]
    exact congrArg (fun results => _ ++ _ :: results) (Production.worked_of_still _ _ _)

/-- The candidates are the eligible files, each at its path and under its entry. -/
theorem mem_eligible {c : Candidate} : c ∈ Production.eligible (listing filter root es) ↔
    ∃ f ∈ (Node.dir es).visibleFiles,
      filter.eligible? (entryName f.place) = some c.extension ∧
      c = ⟨pathOf (.ofText root) f.place, entryName f.place, c.extension,
        UInt64.ofNat f.content.length⟩ := by
  rw [Production.eligible, listing, List.filterMap_map, List.mem_filterMap]
  refine exists_congr fun f => and_congr_right fun _ => ?_
  rw [Function.comp_apply]
  cases heligible : filter.eligible? (entryName f.place) with
  | none => simp [classify_of_not_eligible _ f heligible]
  | some extension =>
    rw [classify_of_eligible _ f heligible, Option.some.injEq, Option.some.injEq]
    constructor
    · rintro rfl
      exact ⟨rfl, rfl⟩
    · rintro ⟨rfl, hc⟩
      exact hc.symm

/-- The record of a text file holds its text. -/
theorem extract_of_find {c : Candidate} {place : Place} {text : String}
    (hkind : plainTypes.contains c.extension = true)
    (hfind : d.find true c.path = .ok (place, .file (Text.encode text)))
    (htext : Text.isBlankText text = false) :
    extract extractor d c = .record { path := c.entry, text, size := c.size } := by
  have hread : d.read c.path = .ok (Text.encode text) := by
    rw [Disk.read, Disk.node?, hfind]
    rfl
  have hextract : extractor.extract d c.path c.extension = .ok text := by
    rw [TextExtractor.extract, TextExtractor.rawText, if_pos hkind, hread]
    dsimp only
    rw [Text.decodeLossy_encode, htext]
    rfl
  rw [extract, hextract]

/-- **The files of a folder.**  What a source over a folder says of which file. -/
structure Locates (filter : EntryFilter) (extractor : TextExtractor) (d : Disk) (root : String)
    (top : Place) (es : List (Bytes × Node)) (source : Source) : Prop where
  /-- The walk finds the files of the tree that no hidden directory holds. -/
  found : ∀ f, f ∈ (Node.dir es).visibleFiles ↔
    (Node.dir es).at? f.place = some (.file f.content) ∧ Node.InSight f.place
  /-- It finds each of them once. -/
  once : ((Node.dir es).visibleFiles.map (·.place)).Nodup
  /-- A record or a failure comes from an eligible file, at its path and under its entry. -/
  settles : ∀ e, (e ∈ source.events ∧ e.settles = true) ↔
    ∃ f ∈ (Node.dir es).visibleFiles, ∃ extension,
      filter.eligible? (entryName f.place) = some extension ∧
      e = extract extractor d ⟨pathOf (.ofText root) f.place, entryName f.place, extension,
        UInt64.ofNat f.content.length⟩
  /-- The path leads to the file, unless it is too long to be followed. -/
  leads : ∀ f ∈ (Node.dir es).visibleFiles, (pathOf (.ofText root) f.place).bytes.length < 4096 →
    d.find true (pathOf (.ofText root) f.place) = .ok (top ++ f.place, .file f.content)
  /-- The root joined with the entry is that path iff no name holds a backslash. -/
  located : ∀ f ∈ (Node.dir es).visibleFiles,
    (Text.encode (source.provenance.filePath (entryName f.place)) =
      (pathOf (.ofText root) f.place).bytes ↔ IsPlain f.place)
  /-- Files share their entry iff their places differ in the kind of slashes only. -/
  shared : ∀ f ∈ (Node.dir es).visibleFiles, ∀ g ∈ (Node.dir es).visibleFiles,
    (entryName f.place = entryName g.place ↔
      (written f.place).map slash = (written g.place).map slash)
  /-- So files without a backslash have entries of their own. -/
  apart : ∀ f ∈ (Node.dir es).visibleFiles, ∀ g ∈ (Node.dir es).visibleFiles,
    IsPlain f.place → IsPlain g.place → entryName f.place = entryName g.place → f = g

/-- The names on the way to a file that was found are legible. -/
theorem legible_of_mem (hlegible : (Node.dir es).Legible) {f : FoundFile}
    (hf : f ∈ (Node.dir es).visibleFiles) : ∀ name ∈ f.place, Disk.IsLegible name :=
  hlegible.of_at? ((Node.mem_visibleFiles hlegible.distinct).mp hf).1

/-- Plain files have entries of their own. -/
theorem eq_of_entryName_eq (hlegible : (Node.dir es).Legible) {f g : FoundFile}
    (hf : f ∈ (Node.dir es).visibleFiles) (hg : g ∈ (Node.dir es).visibleFiles)
    (hfplain : IsPlain f.place) (hgplain : IsPlain g.place)
    (h : entryName f.place = entryName g.place) : f = g := by
  have hplace : f.place = g.place :=
    entryName_inj (Node.place_ne_nil hf) (Node.place_ne_nil hg)
      (fun name hname =>
        have hlegible := legible_of_mem hlegible hf name hname
        ⟨hlegible.toIsName, hlegible.text⟩)
      (fun name hname =>
        have hlegible := legible_of_mem hlegible hg name hname
        ⟨hlegible.toIsName, hlegible.text⟩) hfplain hgplain h
  exact List.inj_on_of_nodup_map (Node.nodup_visibleFiles hlegible.distinct) hf hg hplace

/-- No two plain files share their entry. -/
theorem nodup_entries (hlegible : (Node.dir es).Legible)
    (hplain : ∀ f ∈ (Node.dir es).visibleFiles, IsPlain f.place) :
    ((Node.dir es).visibleFiles.map fun f => entryName f.place).Nodup :=
  List.Nodup.map_on
    (fun f hf g hg => eq_of_entryName_eq hlegible hf hg (hplain f hf) (hplain g hg))
    (List.Nodup.of_map _ (Node.nodup_visibleFiles hlegible.distinct))

/-- The events of a folder that settle a record are the results of its candidates. -/
theorem mem_settling {events : List Event}
    (hevents : events = Production.passedOver (listing filter root es) ++
      Production.announcement (listing filter root es) ::
        (Production.eligible (listing filter root es)).map (extract extractor d)) (e : Event) :
    (e ∈ events ∧ e.settles = true) ↔
      ∃ c ∈ Production.eligible (listing filter root es), extract extractor d c = e := by
  rw [hevents, List.mem_append, List.mem_cons, List.mem_map]
  constructor
  · rintro ⟨hover | rfl | hresult, hsettles⟩
    -- neither what is passed over nor the announcement settles a record
    · have hquiet := Production.quiet_passedOver (fun _ => skipped_of_mem_listing) e hover
      rw [hquiet.1] at hsettles
      cases hsettles
    · cases hsettles
    · exact hresult
  · rintro ⟨c, hc, rfl⟩
    exact ⟨.inr (.inr ⟨c, hc, rfl⟩), settles_extract extractor d c⟩

theorem locates (hroot : d.find true (.ofText root) = .ok (top, .dir es))
    (hlegible : (Node.dir es).Legible) {source : Source}
    (hprovenance : source.provenance = ⟨.folder, root⟩)
    (hevents : source.events = Production.passedOver (listing filter root es) ++
      Production.announcement (listing filter root es) ::
        (Production.eligible (listing filter root es)).map (extract extractor d)) :
    Locates filter extractor d root top es source where
  found _ := Node.mem_visibleFiles hlegible.distinct
  once := Node.nodup_visibleFiles hlegible.distinct
  settles e := by
    rw [mem_settling hevents]
    constructor
    · rintro ⟨c, hc, rfl⟩
      obtain ⟨f, hf, heligible, hcandidate⟩ := mem_eligible.mp hc
      exact ⟨f, hf, c.extension, heligible, congrArg _ hcandidate⟩
    · rintro ⟨f, hf, extension, heligible, rfl⟩
      exact ⟨_, mem_eligible.mpr ⟨f, hf, heligible, rfl⟩, rfl⟩
  leads f hf hshort :=
    find_pathOf hroot (Node.place_ne_nil hf) (legible_of_mem hlegible hf)
      ((Node.mem_visibleFiles hlegible.distinct).mp hf).1 hshort
  located f hf := by
    rw [hprovenance]
    exact filePath_eq_iff root (Node.place_ne_nil hf)
      (fun name hname => (legible_of_mem hlegible hf name hname).toIsName)
      fun name hname => (legible_of_mem hlegible hf name hname).text
  shared f hf g hg :=
    entryName_eq_iff (fun name hname => (legible_of_mem hlegible hf name hname).text)
      fun name hname => (legible_of_mem hlegible hg name hname).text
  apart _ hf _ hg := eq_of_entryName_eq hlegible hf hg

end Folder

/-! ### Documents and objects -/

/-- The entry that an event adds to the index: that of a record with enough text. -/
def Worker.entryOf? (w : Worker) : Event → Option String
  | .record r => if w.isSubstantial r then some r.path else none
  | _ => none

/-- Documents are named by their entries. -/
theorem Worker.ids_documents (w : Worker) (events : List Event) :
    (events.filterMap w.documentOf?).map (·.id) =
      (events.filterMap w.entryOf?).map (Document.idOf w.provenance.root) := by
  rw [List.map_filterMap, List.map_filterMap]
  refine List.filterMap_congr fun e _ => ?_
  cases e with
  | record r =>
    rw [documentOf?, entryOf?]
    split <;> rfl
  | discovered _ | skipped _ | failed _ _ | notice _ => rfl

/-- Where the digest tells names apart, there are as many identifiers as names. -/
theorem length_dedup_map {α β : Type} [DecidableEq α] [DecidableEq β] {f : α → β} {l : List α}
    (h : ∀ a ∈ l, ∀ b ∈ l, f a = f b → a = b) :
    (l.map f).dedup.length = l.dedup.length := by
  -- as finite sets: an injective image has as many elements
  have hinjective : Set.InjOn f l.toFinset := fun a ha b hb =>
    h a (List.mem_toFinset.mp ha) b (List.mem_toFinset.mp hb)
  have himage : (l.map f).toFinset = l.toFinset.image f := by
    ext b
    simp
  rw [← List.card_toFinset, ← List.card_toFinset, himage, Finset.card_image_of_injOn hinjective]

/-- What is kept of a list, each element in another form. -/
theorem sublist_map_of_filterMap {α β : Type} {f : α → Option β} {g : α → β}
    (h : ∀ a b, f a = some b → g a = b) (l : List α) : (l.filterMap f).Sublist (l.map g) := by
  induction l with
  | nil => exact List.Sublist.refl []
  | cons a rest ih =>
    rw [List.filterMap_cons, List.map_cons]
    cases hkept : f a with
    | none => exact ih.cons _
    | some b => exact h a b hkept ▸ ih.cons_cons _

namespace Folder

variable {filter : EntryFilter} {extractor : TextExtractor} {d : Disk} {root : String}
  {es : List (Bytes × Node)}

/-- No file is a candidate twice. -/
theorem candidates_sublist (filter : EntryFilter) (root : String) (es : List (Bytes × Node)) :
    ((Production.eligible (listing filter root es)).map (·.entry)).Sublist
      ((Node.dir es).visibleFiles.map fun f => entryName f.place) := by
  rw [Production.eligible, listing, List.filterMap_map, List.map_filterMap]
  refine sublist_map_of_filterMap (fun f entry hentry => ?_) _
  rw [Function.comp_apply] at hentry
  cases heligible : filter.eligible? (entryName f.place) with
  | none =>
    rw [classify_of_not_eligible _ f heligible] at hentry
    cases hentry
  | some extension =>
    rw [classify_of_eligible _ f heligible] at hentry
    exact Option.some.inj hentry

/-- No file brings more than one entry. -/
theorem entries_sublist (w : Worker) {events : List Event}
    (hevents : events = Production.passedOver (listing filter root es) ++
      Production.announcement (listing filter root es) ::
        (Production.eligible (listing filter root es)).map (extract extractor d)) :
    (events.filterMap w.entryOf?).Sublist
      ((Node.dir es).visibleFiles.map fun f => entryName f.place) := by
  have hover : (Production.passedOver (listing filter root es)).filterMap w.entryOf? = [] := by
    refine List.filterMap_eq_nil_iff.mpr fun e he => ?_
    have hquiet := Production.quiet_passedOver (fun _ => skipped_of_mem_listing) e he
    cases e with
    | record r => exact absurd hquiet.1 nofun
    | discovered _ | skipped _ | failed _ _ | notice _ => rfl
  have hresults : (((Production.eligible (listing filter root es)).map
      (extract extractor d)).filterMap w.entryOf?).Sublist
        ((Production.eligible (listing filter root es)).map (·.entry)) := by
    rw [List.filterMap_map]
    refine sublist_map_of_filterMap (fun c entry hentry => ?_) _
    rw [Function.comp_apply, extract] at hentry
    split at hentry
    · rw [Worker.entryOf?] at hentry
      split at hentry <;> cases hentry
      rfl
    · cases hentry
  rw [hevents, List.filterMap_append, hover, List.nil_append, List.filterMap_cons]
  exact hresults.trans (candidates_sublist filter root es)

end Folder

/-! ### Synchronising -/

section Sync

variable {ε : Type} [SearchEngine ε] {index : ε → Index}

/-- A job whose source can be opened is a run of the worker. -/
theorem Ingestion.runJob_of_openSource (x : Ingestion) (interrupt : ε → Nat → Bool) (engine : ε)
    {d d' : Disk} (job : Job) (now : Instant) {source : Source}
    (hopen : x.openSource d job.kind job.target (x.stagingOf job.id) = (.ok source, d')) :
    let worker : Worker := ⟨source.provenance, x.settings.ingest⟩
    let q := worker.run interrupt source now (x.pipeline engine job d')
    (x.runJob interrupt engine d job now).engine = q.writer.engine ∧
      (x.runJob interrupt engine d job now).job = q.writer.job := by
  rw [runJob, hopen]
  exact ⟨rfl, rfl⟩

/-- A job over plain records that is not interrupted, and of which no call of the engine fails,
leaves one object for each identifier and counts every record with enough text. -/
theorem Ingestion.counts_of_openSource (hserves : SearchEngine.Serves index) (x : Ingestion)
    (interrupt : Recorded ε → Nat → Bool) (engine : ε) (hempty : index engine = {}) {d d' : Disk}
    (job : Job) (hnew : job.tally.indexed = 0) (now : Instant) {source : Source}
    (hopen : x.openSource d job.kind job.target (x.stagingOf job.id) = (.ok source, d'))
    (hplain : ∀ r, .record r ∈ source.events → r.staging? = none) :
    let worker : Worker := ⟨source.provenance, x.settings.ingest⟩
    let ended := x.runJob interrupt ⟨engine, []⟩ d job now
    let entries := source.events.filterMap worker.entryOf?
    (worker.consume interrupt source.events (x.pipeline ⟨engine, []⟩ job d')).interrupted =
      false →
    ended.engine.Unfailing →
      (index ended.engine.engine).objects.length =
        (entries.map (Document.idOf source.provenance.root)).dedup.length ∧
      ended.job.tally.indexed = UInt64.ofNat entries.length := by
  intro worker ended entries hrunning hcalls
  obtain ⟨hengine, hjob⟩ :=
    x.runJob_of_openSource interrupt (⟨engine, []⟩ : Recorded ε) job now hopen
  rw [hengine] at hcalls
  obtain ⟨hindex, hindexed⟩ := worker.run_stocks hserves now
    (p := x.pipeline ⟨engine, []⟩ job d') rfl rfl hnew hplain hrunning hcalls
  have hids := worker.ids_documents source.events
  refine ⟨?_, ?_⟩
  · rw [hengine, hindex]
    show ((index engine).addAll _).objects.length = _
    rw [hempty, Index.length_addAll, hids]
  · have hlength := congrArg List.length hids
    rw [List.length_map, List.length_map] at hlength
    rw [hjob, ← hlength]
    exact hindexed

omit [SearchEngine ε] in
/-- Folders give plain records. -/
theorem Folder.Locates.plain {filter : EntryFilter} {extractor : TextExtractor} {d : Disk}
    {root : String} {top : Place} {es : List (Bytes × Node)} {source : Source}
    (h : Locates filter extractor d root top es source) {r : Record}
    (hr : .record r ∈ source.events) : r.staging? = none := by
  obtain ⟨f, -, extension, -, hrecord⟩ := (h.settles (.record r)).mp ⟨hr, rfl⟩
  rw [extract] at hrecord
  split at hrecord <;> cases hrecord
  rfl

omit [SearchEngine ε] in
/-- The entry of a record is that of a file. -/
theorem Folder.Locates.mem_of_entry {filter : EntryFilter} {extractor : TextExtractor} {d : Disk}
    {root : String} {top : Place} {es : List (Bytes × Node)} {source : Source}
    (h : Locates filter extractor d root top es source) {w : Worker} {entry : String}
    (hentry : entry ∈ source.events.filterMap w.entryOf?) :
    entry ∈ (Node.dir es).visibleFiles.map fun f => entryName f.place := by
  obtain ⟨e, he, hsome⟩ := List.mem_filterMap.mp hentry
  cases e with
  | record r =>
    obtain ⟨f, hf, extension, -, hrecord⟩ := (h.settles (.record r)).mp ⟨he, rfl⟩
    rw [Worker.entryOf?] at hsome
    split at hsome <;> cases hsome
    rw [extract] at hrecord
    split at hrecord <;> cases hrecord
    exact List.mem_map.mpr ⟨f, hf, rfl⟩
  | discovered _ | skipped _ | failed _ _ | notice _ => cases hsome

/-- **Synchronising a folder.**  In a tree of legible names, what is extracted is what stands at
the path of each eligible file, reported under its entry.  A job that is not interrupted, and of
which no call of the engine fails, leaves one object in an empty index for each entry, if the
digest tells the entries apart, and counts one document for each record with enough text: as many
as there are objects iff no two of these records share their entry, and so wherever no name holds
a backslash. -/
theorem Ingestion.folder_sync_locates (hserves : SearchEngine.Serves index) (x : Ingestion)
    (interrupt : Recorded ε → Nat → Bool) (engine : ε) (hempty : index engine = {}) (d : Disk)
    (root id : String) (capacity : Nat) (started now : Instant) {top : Place}
    {es : List (Bytes × Node)} (hroot : d.find true (.ofText root) = .ok (top, .dir es))
    (hlegible : (Node.dir es).Legible) :
    ∃ source, x.openSource d .folderSync (.ofText root) (x.stagingOf id) = (.ok source, d) ∧
      Folder.Locates x.filter x.extractor d root top es source ∧
      let job := Job.start id .folderSync (.ofText root) capacity started
      let worker : Worker := ⟨source.provenance, x.settings.ingest⟩
      let ended := x.runJob interrupt ⟨engine, []⟩ d job now
      let objects := (index ended.engine.engine).objects
      let entries := source.events.filterMap worker.entryOf?
      (worker.consume interrupt source.events (x.pipeline ⟨engine, []⟩ job d)).interrupted =
        false →
      ended.engine.Unfailing →
      (∀ e ∈ entries, ∀ e' ∈ entries, Document.idOf root e = Document.idOf root e' → e = e') →
        objects.length = entries.dedup.length ∧
        ended.job.tally.indexed = UInt64.ofNat entries.length ∧
        (objects.length = entries.length ↔ entries.Nodup) ∧
        ((∀ f ∈ (Node.dir es).visibleFiles, Folder.IsPlain f.place) →
          ended.job.tally.indexed = UInt64.ofNat objects.length) := by
  obtain ⟨source, hopen, hprovenance, hevents⟩ :=
    Folder.openSource_of_find x.filter x.extractor hroot
  have hsource : x.openSource d .folderSync (.ofText root) (x.stagingOf id) = (.ok source, d) := by
    rw [openSource, hopen]
  have hlocates := Folder.locates hroot hlegible hprovenance hevents
  refine ⟨source, hsource, hlocates, ?_⟩
  intro job worker ended objects entries hrunning hcalls hdigest
  obtain ⟨hids, hcount⟩ := x.counts_of_openSource hserves interrupt engine hempty job rfl now
    hsource (fun r hr => hlocates.plain hr) hrunning hcalls
  -- one object for each identifier, and the digest tells the entries apart
  have hobjects : objects.length = entries.dedup.length := by
    rw [show source.provenance.root = root from congrArg Provenance.root hprovenance] at hids
    exact hids.trans (length_dedup_map hdigest)
  have hnodup : objects.length = entries.length ↔ entries.Nodup := by
    refine ⟨fun h => ?_, fun h => hobjects.trans (congrArg List.length h.dedup)⟩
    have hkept := (List.dedup_sublist entries).eq_of_length (hobjects.symm.trans h)
    exact hkept ▸ List.nodup_dedup entries
  refine ⟨hobjects, hcount, hnodup, fun hall => ?_⟩
  -- no two files share their entry, and no file brings two
  have hsome : entries.Nodup :=
    (Folder.entries_sublist worker hevents).nodup (Folder.nodup_entries hlegible hall)
  exact hcount.trans (congrArg UInt64.ofNat (hnodup.mpr hsome).symm)

end Sync

namespace Sample

/-- A disk with a folder of documents. -/
def library (es : List (Bytes × Node)) : Disk := ⟨.dir [(Text.encode "docs", .dir es)], [], []⟩

/-- A file below a directory and one beside it, whose places differ in the kind of slashes. -/
def slashed : List (Bytes × Node) :=
  [(Text.encode "a", .dir [(Text.encode "b.txt", .file (Text.encode "the first text"))]),
    (Text.encode "a\\b.txt", .file (Text.encode "the second text"))]

/-- The same with a name that holds no backslash. -/
def plainly : List (Bytes × Node) :=
  [(Text.encode "a", .dir [(Text.encode "b.txt", .file (Text.encode "the first text"))]),
    (Text.encode "a-b.txt", .file (Text.encode "the second text"))]

def folderJob : Job := .start "job" .folderSync (.ofText "docs") 50 default

theorem legible_encode (s : String)
    (h : Text.encode s ≠ [] ∧ Path.separator ∉ Text.encode s ∧ Text.encode s ≠ [46] ∧
      Text.encode s ≠ [46, 46] ∧ (Text.encode s).length ≤ Disk.maxName ∧
      (0 : UInt8) ∉ Text.encode s) : Disk.IsLegible (Text.encode s) :=
  ⟨⟨h.1, h.2.1, h.2.2.1, h.2.2.2.1⟩, ⟨s, rfl⟩, h.2.2.2.2.1, h.2.2.2.2.2⟩

/-- A file below a directory and one beside it. -/
theorem legible_pair {s : String} (hs : Disk.IsLegible (Text.encode s))
    (hother : Text.encode "a" ≠ Text.encode s) (first second : Bytes) :
    (Node.dir [(Text.encode "a", .dir [(Text.encode "b.txt", .file first)]),
      (Text.encode s, .file second)]).Legible := by
  have hbelow : (Node.dir [(Text.encode "b.txt", .file first)]).Legible :=
    .dir (List.nodup_singleton _)
      (List.forall_mem_singleton.mpr (legible_encode "b.txt" (by decide)))
      (List.forall_mem_singleton.mpr (.file first))
  refine .dir (by simpa using hother) (List.forall_mem_cons.mpr ⟨?_, ?_⟩)
    (List.forall_mem_cons.mpr ⟨hbelow, List.forall_mem_singleton.mpr (.file second)⟩)
  · exact legible_encode "a" (by decide)
  · exact List.forall_mem_singleton.mpr hs

/-- The files of such a tree. -/
def found (name : String) : List FoundFile :=
  [⟨[Text.encode "a", Text.encode "b.txt"], Text.encode "the first text"⟩,
    ⟨[Text.encode name], Text.encode "the second text"⟩]

set_option maxRecDepth 10000 in
theorem visible_plainly : (Node.dir plainly).visibleFiles = found "a-b.txt" := by cbv

set_option maxRecDepth 10000 in
theorem visible_slashed : (Node.dir slashed).visibleFiles = found "a\\b.txt" := by cbv

theorem entryName_below : Folder.entryName [Text.encode "a", Text.encode "b.txt"] = "a/b.txt" := by
  cbv

theorem entryName_plainly : Folder.entryName [Text.encode "a-b.txt"] = "a-b.txt" := by cbv

theorem entryName_slashed : Folder.entryName [Text.encode "a\\b.txt"] = "a/b.txt" := by cbv

set_option maxRecDepth 100000 in
theorem ids_plainly : Document.idOf "docs" "a/b.txt" ≠ Document.idOf "docs" "a-b.txt" := by
  decide

set_option maxRecDepth 10000 in
theorem find_library (es : List (Bytes × Node)) :
    (library es).find true (.ofText "docs") = .ok ([Text.encode "docs"], .dir es) := by cbv

end Sample

/-- Two files without a backslash become two objects of the index. -/
theorem Ingestion.folder_sync_locates_plainly :
    let ended := (Sample.ingestion {} 900).runJob (fun _ _ => false)
      (⟨{}, []⟩ : Recorded MemoryEngine) (Sample.library Sample.plainly) Sample.folderJob default
    ended.job.tally.indexed = UInt64.ofNat ended.engine.engine.index.objects.length := by
  intro ended
  have hlegible : (Node.dir Sample.plainly).Legible :=
    Sample.legible_pair (Sample.legible_encode "a-b.txt" (by decide)) (by decide) _ _
  obtain ⟨source, hopen, hlocates, hcounts⟩ := folder_sync_locates MemoryEngine.serves
    (Sample.ingestion {} 900) (fun _ _ => false) {} rfl (Sample.library Sample.plainly)
    "docs" "job" 50 default default (Sample.find_library _) hlegible
  have hends := (Sample.ingestion {} 900).runJob_of_openSource (fun _ _ => false)
    (⟨{}, []⟩ : Recorded MemoryEngine) Sample.folderJob default hopen
  have haccepts : ({} : MemoryEngine).Accepts := ⟨nofun, nofun, rfl, rfl⟩
  refine (hcounts (Worker.not_interrupted_of_never _ (fun _ _ => rfl) _ _) ?_ ?_).2.2.2 ?_
  · exact hends.1 ▸ haccepts.unfailing_run _ _ _ _ _ _ _
  · intro e he e' he' hsame
    have hnames : ∀ name ∈ (Node.dir Sample.plainly).visibleFiles.map (Folder.entryName ·.place),
        name = "a/b.txt" ∨ name = "a-b.txt" := by
      rw [Sample.visible_plainly]
      simp [Sample.found, Sample.entryName_below, Sample.entryName_plainly]
    rcases hnames e (hlocates.mem_of_entry he) with rfl | rfl <;>
      rcases hnames e' (hlocates.mem_of_entry he') with rfl | rfl
    · rfl
    · exact absurd hsame Sample.ids_plainly
    · exact absurd hsame.symm Sample.ids_plainly
    · rfl
  · rw [Sample.visible_plainly]
    intro f hf
    rcases List.mem_pair.mp hf with rfl | rfl <;>
    · rw [Folder.isPlain_iff]
      decide

namespace Sample

set_option maxRecDepth 10000 in
theorem eligible_slashed : (ingestion {} 900).filter.eligible? "a/b.txt" = some "txt" := by
  decide

/-- Both files of the tree are candidates. -/
theorem listing_slashed : Folder.listing (ingestion {} 900).filter "docs" slashed =
    [.inr ⟨Folder.pathOf (.ofText "docs") [Text.encode "a", Text.encode "b.txt"], "a/b.txt", "txt",
      14⟩,
    .inr ⟨Folder.pathOf (.ofText "docs") [Text.encode "a\\b.txt"], "a/b.txt", "txt", 15⟩] := by
  have hbelow := Folder.classify_of_eligible (.ofText "docs")
    ⟨[Text.encode "a", Text.encode "b.txt"], Text.encode "the first text"⟩
    (entryName_below ▸ eligible_slashed)
  have hbeside := Folder.classify_of_eligible (.ofText "docs")
    ⟨[Text.encode "a\\b.txt"], Text.encode "the second text"⟩
    (entryName_slashed ▸ eligible_slashed)
  rw [entryName_below] at hbelow
  rw [entryName_slashed] at hbeside
  rw [Folder.listing, visible_slashed]
  exact congrArg₂ (fun first second => [first, second]) hbelow hbeside

/-- Both files are extracted, and both texts are long enough. -/
theorem entries_slashed {top : Place} {source : Source}
    (hlocates : Folder.Locates (ingestion {} 900).filter (ingestion {} 900).extractor
      (library slashed) "docs" top slashed source)
    (hevents : source.events =
      Production.passedOver (Folder.listing (ingestion {} 900).filter "docs" slashed) ++
        Production.announcement (Folder.listing (ingestion {} 900).filter "docs" slashed) ::
          (Production.eligible (Folder.listing (ingestion {} 900).filter "docs" slashed)).map
            (Folder.extract (ingestion {} 900).extractor (library slashed)))
    (w : Worker) (hingest : w.ingest = {}) :
    source.events.filterMap w.entryOf? = ["a/b.txt", "a/b.txt"] := by
  have hbelow : Folder.extract (ingestion {} 900).extractor (library slashed)
      ⟨Folder.pathOf (.ofText "docs") [Text.encode "a", Text.encode "b.txt"], "a/b.txt", "txt",
        14⟩ = .record { path := "a/b.txt", text := "the first text", size := 14 } :=
    Folder.extract_of_find (by decide) (hlocates.leads ⟨_, Text.encode "the first text"⟩
      (by rw [visible_slashed]; exact List.mem_cons_self) (by decide)) (by decide)
  have hbeside : Folder.extract (ingestion {} 900).extractor (library slashed)
      ⟨Folder.pathOf (.ofText "docs") [Text.encode "a\\b.txt"], "a/b.txt", "txt", 15⟩ =
        .record { path := "a/b.txt", text := "the second text", size := 15 } :=
    Folder.extract_of_find (by decide) (hlocates.leads ⟨_, Text.encode "the second text"⟩
      (by rw [visible_slashed]; exact List.mem_cons_of_mem _ List.mem_cons_self) (by decide))
      (by decide)
  have hfirst : w.isSubstantial { path := "a/b.txt", text := "the first text", size := 14 } =
      true := by
    rw [Worker.isSubstantial, hingest]
    decide
  have hsecond : w.isSubstantial { path := "a/b.txt", text := "the second text", size := 15 } =
      true := by
    rw [Worker.isSubstantial, hingest]
    decide
  rw [hevents, listing_slashed]
  simp only [Production.passedOver, Production.eligible, Production.announcement,
    List.filterMap_cons, List.filterMap_nil, List.map_cons, List.map_nil, List.nil_append, hbelow,
    hbeside, Worker.entryOf?, hfirst, hsecond, if_true]

end Sample

/-- A file below a directory and one beside it share their entry, whose file path is that of the
first, and the index keeps one object for the two documents that were counted. -/
theorem Folder.entry_shared :
    let x := Sample.ingestion {} 900
    let place : Place := [Text.encode "a", Text.encode "b.txt"]
    let place' : Place := [Text.encode "a\\b.txt"]
    let ended := x.runJob (fun _ _ => false) (⟨{}, []⟩ : Recorded MemoryEngine)
      (Sample.library Sample.slashed) Sample.folderJob default
    (Node.dir Sample.slashed).Legible ∧
      (Node.dir Sample.slashed).visibleFiles.map (·.place) = [place, place'] ∧
      entryName place' = entryName place ∧
      Text.encode ((⟨.folder, "docs"⟩ : Provenance).filePath (entryName place')) =
        (pathOf (.ofText "docs") place).bytes ∧
      (pathOf (.ofText "docs") place').bytes ≠ (pathOf (.ofText "docs") place).bytes ∧
      ended.engine.Unfailing ∧
      ended.job.tally.indexed = 2 ∧ ended.engine.engine.index.objects.length = 1 := by
  intro x place place' ended
  obtain ⟨source, hopen, hprovenance, hevents⟩ := openSource_of_find x.filter
    x.extractor (Sample.find_library Sample.slashed)
  have hlegible : (Node.dir Sample.slashed).Legible :=
    Sample.legible_pair (Sample.legible_encode "a\\b.txt" (by decide)) (by decide) _ _
  have hsource : x.openSource (Sample.library Sample.slashed) Sample.folderJob.kind
      Sample.folderJob.target (x.stagingOf Sample.folderJob.id) =
        (.ok source, Sample.library Sample.slashed) :=
    congrArg (·, Sample.library Sample.slashed) hopen
  have hlocates := locates (Sample.find_library _) hlegible hprovenance hevents
  have hentries := Sample.entries_slashed hlocates hevents ⟨source.provenance, x.settings.ingest⟩
    rfl
  have haccepts : ({} : MemoryEngine).Accepts := ⟨nofun, nofun, rfl, rfl⟩
  have hcalls : ended.engine.Unfailing :=
    (x.runJob_of_openSource (fun _ _ => false) (⟨{}, []⟩ : Recorded MemoryEngine)
      Sample.folderJob default hsource).1 ▸ haccepts.unfailing_run _ _ _ _ _ _ _
  obtain ⟨hobjects, hindexed⟩ := x.counts_of_openSource MemoryEngine.serves (fun _ _ => false)
    {} rfl Sample.folderJob rfl default hsource
    (fun r hr => hlocates.plain hr) (Worker.not_interrupted_of_never _ (fun _ _ => rfl) _ _) hcalls
  rw [hentries] at hobjects hindexed
  refine ⟨hlegible, ?_, ?_, ?_, ?_, hcalls, hindexed, ?_⟩
  · rw [Sample.visible_slashed]
    rfl
  · exact Sample.entryName_slashed.trans Sample.entryName_below.symm
  · rw [Sample.entryName_slashed]
    decide
  · decide
  · rw [hobjects]
    simp

end Corpus
