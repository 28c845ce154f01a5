/-
Corpus/Proofs/Packing.lean

What a folder gives, and what an archive of the same files gives.

Both judge the entries by one filter.  But the walk of a folder never enters a hidden directory,
while an archive is judged entry by entry, and the filter looks at the last name only:

    entries of the archive  =  eligible files of the tree
    entries of the folder   =  those of them that no hidden directory holds

(`producers_agree_in_sight`).  So the two give the same entries, and announce the same number, iff
no eligible file stands below a hidden directory (`hidden_entry_packed`).
-/
import Corpus.Proofs.Syncing

namespace Corpus

open Event (promised promised_append promised_cons)

/-! ### The entries of events -/

namespace Event

/-- The entry of a record, or of the report that one could not be made. -/
def subject? : Event → Option String
  | .record r => some r.path
  | .failed entry _ => some entry
  | _ => none

/-- The entries for which there are records or failures. -/
def ingested (events : List Event) : List String := events.filterMap subject?

theorem settles_of_subject? {e : Event} {entry : String} (h : e.subject? = some entry) :
    e.settles = true := by
  cases e with
  | record _ | failed _ _ => rfl
  | discovered _ | skipped _ | notice _ => cases h

end Event

namespace Production

variable {α : Type}

/-- What becomes of entries that are worked off goes by their names. -/
theorem subject?_worked {work : Disk → α → Event × Disk} {name : α → String}
    (h : ∀ d a, (work d a).1.subject? = some (name a)) (entries : List α) (d : Disk) :
    (worked work entries d).map Event.subject? = entries.map fun a => some (name a) := by
  induction entries generalizing d with
  | nil => rfl
  | cons a rest ih => rw [worked, List.map_cons, List.map_cons, h, ih]

/-- A producer that reports every eligible item of its listing announces as many. -/
theorem ingested_of_events {listing : List (Event ⊕ α)} {events results : List Event}
    {name : α → String}
    (hevents : events = passedOver listing ++ announcement listing :: results)
    (hover : ∀ e, .inl e ∈ listing → ∃ entry, e = .skipped entry)
    (hresults : results.map Event.subject? = (eligible listing).map fun a => some (name a)) :
    Event.ingested events = (eligible listing).map name ∧
      promised events = (eligible listing).length % UInt64.size := by
  have hskipped : ∀ e ∈ passedOver listing,
      e.subject? = none ∧ e.settles = false ∧ e.promise = 0 := by
    intro e he
    obtain ⟨entry, rfl⟩ := hover e (mem_passedOver.mp he)
    exact ⟨rfl, rfl, rfl⟩
  have hsettles : ∀ e ∈ results, e.settles = true := by
    intro e he
    have hmem : e.subject? ∈ results.map Event.subject? := List.mem_map_of_mem he
    rw [hresults] at hmem
    obtain ⟨a, -, ha⟩ := List.mem_map.mp hmem
    exact Event.settles_of_subject? ha.symm
  constructor
  · have hfirst : (passedOver listing).filterMap Event.subject? = [] :=
      List.filterMap_eq_nil_iff.mpr fun e he => (hskipped e he).1
    have hlast : results.filterMap Event.subject? = (eligible listing).map name := by
      have hids := congrArg (List.filterMap id) hresults
      simpa [List.filterMap_map, Function.comp_def] using hids
    rw [Event.ingested, hevents, List.filterMap_append, hfirst, List.nil_append]
    exact hlast
  · rw [hevents, promised_append, (Event.silent fun e he => (hskipped e he).2).2, promised_cons,
      (Event.settled_of_forall hsettles).2]
    exact (Nat.zero_add _).trans (Nat.add_zero _)

end Production

/-! ### Folders -/

namespace Folder

variable {filter : EntryFilter} {extractor : TextExtractor} {d : Disk} {root : String}
  {top : Place} {es : List (Bytes × Node)}

theorem subject?_extract (extractor : TextExtractor) (d : Disk) (c : Candidate) :
    (extract extractor d c).subject? = some c.entry := by
  rw [extract]
  split <;> rfl

/-- The place is one of a file that the filter lets through. -/
def Eligible (filter : EntryFilter) (es : List (Bytes × Node)) (place : Place) : Prop :=
  (∃ content, (Node.dir es).at? place = some (.file content)) ∧
    (filter.eligible? (entryName place)).isSome = true

/-- A folder reports its candidates under their entries and announces as many. -/
theorem ingested_events {events : List Event}
    (hevents : events = Production.passedOver (listing filter root es) ++
      Production.announcement (listing filter root es) ::
        (Production.eligible (listing filter root es)).map (extract extractor d)) :
    Event.ingested events = (Production.eligible (listing filter root es)).map (·.entry) ∧
      promised events = (Event.ingested events).length % UInt64.size := by
  have hresults : ((Production.eligible (listing filter root es)).map (extract extractor d)).map
      Event.subject? =
        (Production.eligible (listing filter root es)).map fun c => some c.entry := by
    rw [List.map_map]
    exact List.map_congr_left fun c _ => subject?_extract extractor d c
  obtain ⟨hingested, hpromised⟩ :=
    Production.ingested_of_events hevents (fun _ => skipped_of_mem_listing) hresults
  refine ⟨hingested, ?_⟩
  rw [hingested, List.length_map]
  exact hpromised

/-- **The entries of a folder** are those of the eligible files in no hidden directory. -/
theorem mem_candidates (hlegible : (Node.dir es).Legible) (root entry : String) :
    entry ∈ (Production.eligible (listing filter root es)).map (·.entry) ↔
      ∃ place, Eligible filter es place ∧ Node.InSight place ∧ entry = entryName place := by
  rw [List.mem_map]
  constructor
  · rintro ⟨c, hc, rfl⟩
    obtain ⟨f, hf, heligible, hcandidate⟩ := mem_eligible.mp hc
    obtain ⟨hat, hsight⟩ := (Node.mem_visibleFiles hlegible.distinct).mp hf
    exact ⟨f.place, ⟨⟨f.content, hat⟩, Option.isSome_of_eq_some heligible⟩, hsight,
      congrArg Candidate.entry hcandidate⟩
  · rintro ⟨place, ⟨⟨content, hat⟩, heligible⟩, hsight, rfl⟩
    obtain ⟨extension, hextension⟩ := Option.isSome_iff_exists.mp heligible
    have hf : ⟨place, content⟩ ∈ (Node.dir es).visibleFiles :=
      (Node.mem_visibleFiles hlegible.distinct).mpr ⟨hat, hsight⟩
    exact ⟨⟨pathOf (.ofText root) place, entryName place, extension,
      UInt64.ofNat content.length⟩, mem_eligible.mpr ⟨_, hf, hextension, rfl⟩, rfl⟩

end Folder

/-! ### Archives -/

namespace Zip

/-- Putting an entry into a list keeps names from being listed twice. -/
theorem nodup_putEntry {es : List Entry} (h : (es.map (·.name)).Nodup) (e : Entry) :
    ((putEntry es e).map (·.name)).Nodup := by
  rw [putEntry]
  split
  · have hnames : (es.map fun o => if o.name == e.name then e else o).map (·.name) =
        es.map (·.name) := by
      rw [List.map_map]
      refine List.map_congr_left fun o _ => ?_
      by_cases ho : o.name = e.name <;> simp [ho]
    rw [hnames]
    exact h
  · rename_i hnew
    have hfresh : e.name ∉ es.map (·.name) := by
      intro hmem
      obtain ⟨o, ho, hname⟩ := List.mem_map.mp hmem
      exact hnew (List.any_eq_true.mpr ⟨o, ho, by simpa using hname⟩)
    rw [List.map_append, List.nodup_append]
    refine ⟨h, List.nodup_singleton _, fun name hname other hother heq => ?_⟩
    have hsame : name = e.name := heq.trans (List.mem_singleton.mp hother)
    exact hfresh (hsame ▸ hname)

/-- An archive lists every name once. -/
theorem nodup_names {content : Bytes} {entries : List Entry} (h : read? content = some entries) :
    (entries.map (·.name)).Nodup := by
  -- the directory is put into an empty list, entry by entry
  have hfold : ∀ (new old : List Entry), (old.map (·.name)).Nodup →
      ((new.foldl putEntry old).map (·.name)).Nodup := by
    intro new
    induction new with
    | nil => exact fun _ hold => hold
    | cons e rest ih => exact fun old hold => ih (putEntry old e) (nodup_putEntry hold e)
  rw [read?] at h
  obtain ⟨place, -, hplace⟩ := List.exists_of_findSome?_eq_some h
  obtain ⟨directory, -, hdirectory⟩ := Option.bind_eq_some_iff.mp hplace
  obtain ⟨listed, -, hlisted⟩ := Option.bind_eq_some_iff.mp hdirectory
  cases hlisted
  exact hfold _ [] List.nodup_nil

end Zip

namespace Archive

variable {filter : EntryFilter} {extractor : TextExtractor}

theorem subject?_unpack (extractor : TextExtractor) (scratch : Path) (d : Disk) (p : Packed) :
    (unpack extractor scratch d p).1.subject? = some p.entry.name := by
  rcases unpack_cases extractor scratch d p with ⟨d', hunpack⟩ | ⟨cause, hunpack⟩
  · rw [hunpack, extractScratch]
    split <;> rfl
  · rw [hunpack]
    rfl

theorem skipped_of_mem_listing {entries : List Zip.Entry} {e : Event}
    (h : .inl e ∈ listing filter entries) : ∃ entry, e = .skipped entry := by
  obtain ⟨⟨entry, index⟩, -, hentry⟩ := List.mem_filterMap.mp h
  exact classify?_inl hentry

/-- What is unpacked of an archive, by name. -/
theorem names_eligible (filter : EntryFilter) (entries : List Zip.Entry) :
    (Production.eligible (listing filter entries)).map (·.entry.name) =
      entries.filterMap fun e =>
        if e.isDir = false ∧ (filter.eligible? e.name).isSome = true then some e.name else none := by
  -- the index of an entry does not matter for its name
  conv_rhs => rw [← List.zipIdx_map_fst 0 entries, List.filterMap_map]
  rw [Production.eligible, listing, List.filterMap_filterMap, List.map_filterMap]
  refine List.filterMap_congr fun item _ => ?_
  obtain ⟨e, index⟩ := item
  rw [Function.comp_apply]
  dsimp only
  rw [classify?]
  cases e.isDir with
  | true => simp
  | false => cases filter.eligible? e.name <;> simp

/-- **The entries of an archive** are those that the filter lets through. -/
theorem mem_names_eligible {filter : EntryFilter} {entries : List Zip.Entry} {name : String} :
    name ∈ (Production.eligible (listing filter entries)).map (·.entry.name) ↔
      (∃ e ∈ entries, e.isDir = false ∧ e.name = name) ∧ (filter.eligible? name).isSome = true := by
  rw [names_eligible, List.mem_filterMap]
  constructor
  · rintro ⟨e, he, hsome⟩
    split at hsome
    · rename_i heligible
      cases hsome
      exact ⟨⟨e, he, heligible.1, rfl⟩, heligible.2⟩
    · cases hsome
  · rintro ⟨⟨e, he, hfile, rfl⟩, heligible⟩
    exact ⟨e, he, if_pos ⟨hfile, heligible⟩⟩

/-- A readable archive passes over what it does not unpack, announces the rest, and unpacks that. -/
theorem events_of_read (filter : EntryFilter) (extractor : TextExtractor) {d : Disk}
    {archive scratch : Path} {content : Bytes} {entries : List Zip.Entry}
    (hread : d.read archive = .ok content) (hzip : Zip.read? content = some entries) :
    ∃ source d', openSource filter extractor d archive scratch = .ok (source, d') ∧
      source.events = Production.passedOver (listing filter entries) ++
        Production.announcement (listing filter entries) ::
          Production.results (listing filter entries) (prepare scratch) (unpack extractor scratch)
            d := by
  have hfile : d.isFile archive = true := by
    rw [Disk.read] at hread
    rw [Disk.isFile]
    split at hread <;> cases hread
    rename_i hnode
    rw [hnode]
  refine ⟨_, _, by rw [openSource, if_pos hfile], ?_⟩
  show (produce filter extractor archive scratch d none).sent = _
  rw [produce, hread]
  dsimp only
  rw [hzip]
  exact Production.sent_ofListing _ _ _ _

theorem prepare_of_makeDirs {scratch : Path} {d : Disk} (h : (d.makeDirs scratch).1 = .ok ()) :
    ∃ d', prepare scratch d = (.ok (), d') := by
  obtain ⟨d', hdirs⟩ : ∃ d', d.makeDirs scratch = (.ok (), d') := ⟨_, Prod.ext h rfl⟩
  refine ⟨d', ?_⟩
  rw [prepare, hdirs]

/-- An archive reports its eligible entries under their names and announces as many. -/
theorem openSource_of_read (filter : EntryFilter) (extractor : TextExtractor) {d : Disk}
    {archive scratch : Path} {content : Bytes} {entries : List Zip.Entry}
    (hread : d.read archive = .ok content) (hzip : Zip.read? content = some entries)
    (hscratch : (d.makeDirs scratch).1 = .ok ()) :
    ∃ source d', openSource filter extractor d archive scratch = .ok (source, d') ∧
      Event.ingested source.events =
        (Production.eligible (listing filter entries)).map (·.entry.name) ∧
      promised source.events = (Event.ingested source.events).length % UInt64.size := by
  obtain ⟨source, d₁, hopen, hevents⟩ :=
    events_of_read filter extractor hread hzip
  obtain ⟨d', hprepare⟩ := prepare_of_makeDirs hscratch
  rw [Production.results, hprepare] at hevents
  obtain ⟨hingested, hpromised⟩ :=
    Production.ingested_of_events hevents (fun _ => skipped_of_mem_listing)
      (Production.subject?_worked (subject?_unpack extractor scratch) _ _)
  refine ⟨source, d₁, hopen, hingested, ?_⟩
  rw [hingested, List.length_map]
  exact hpromised

end Archive

/-! ### Both -/

/-- The archive lists the files of the tree, each under its place with slashes between the names,
and directories besides at most. -/
def Packs (es : List (Bytes × Node)) (entries : List Zip.Entry) : Prop :=
  ∀ name : String, (∃ e ∈ entries, e.isDir = false ∧ e.name = name) ↔
    ∃ place content, (Node.dir es).at? place = some (.file content) ∧
      Text.encode name = Folder.written place

section Both

variable {es : List (Bytes × Node)} (hlegible : (Node.dir es).Legible)
  (hplain : ∀ place content, (Node.dir es).at? place = some (.file content) →
    Folder.IsPlain place)

include hlegible hplain

/-- The files that an archive packs are named as entries of the folder are. -/
theorem Packs.iff {entries : List Zip.Entry} (h : Packs es entries) (name : String) :
    (∃ e ∈ entries, e.isDir = false ∧ e.name = name) ↔
      ∃ place content, (Node.dir es).at? place = some (.file content) ∧
        name = Folder.entryName place := by
  rw [h name]
  refine exists_congr fun place => exists_congr fun content => and_congr_right fun hat => ?_
  rw [← Folder.encode_entryName_of_isPlain (hplain place content hat) fun name hname =>
    (hlegible.of_at? hat name hname).text]
  exact ⟨fun hname => Text.encode_inj.mp hname, fun hname => congrArg Text.encode hname⟩

/-- Eligible files have entries of their own. -/
theorem Folder.Eligible.eq {filter : EntryFilter} {p q : Place} (hp : Eligible filter es p)
    (hq : Eligible filter es q) (h : entryName p = entryName q) : p = q := by
  obtain ⟨⟨first, hfirst⟩, -⟩ := hp
  obtain ⟨⟨second, hsecond⟩, -⟩ := hq
  have hbelow : ∀ {place : Place} {content : Bytes},
      (Node.dir es).at? place = some (.file content) → place ≠ [] := by
    rintro place content hat rfl
    cases hat
  exact entryName_inj (hbelow hfirst) (hbelow hsecond)
    (fun name hname =>
      have hlegible := hlegible.of_at? hfirst name hname
      ⟨hlegible.toIsName, hlegible.text⟩)
    (fun name hname =>
      have hlegible := hlegible.of_at? hsecond name hname
      ⟨hlegible.toIsName, hlegible.text⟩) (hplain p first hfirst) (hplain q second hsecond) h

/-- No entry of the folder comes twice. -/
theorem Folder.nodup_candidates (filter : EntryFilter) (root : String) :
    ((Production.eligible (listing filter root es)).map (·.entry)).Nodup := by
  have hall : ∀ f ∈ (Node.dir es).visibleFiles, IsPlain f.place := fun f hf =>
    hplain f.place f.content ((Node.mem_visibleFiles hlegible.distinct).mp hf).1
  exact (candidates_sublist filter root es).nodup (nodup_entries hlegible hall)

/-- A list of the eligible files in sight is one of all eligible files iff these are in sight. -/
theorem same_iff_inSight {filter : EntryFilter} {shown packed : List String}
    (hshown : shown.Nodup) (hpacked : packed.Nodup)
    (hmem : ∀ entry, entry ∈ shown ↔ ∃ place,
      Folder.Eligible filter es place ∧ Node.InSight place ∧ entry = Folder.entryName place)
    (hmem' : ∀ entry, entry ∈ packed ↔ ∃ place,
      Folder.Eligible filter es place ∧ entry = Folder.entryName place) :
    shown.length ≤ packed.length ∧
      ((∀ entry, entry ∈ shown ↔ entry ∈ packed) ↔
        ∀ place, Folder.Eligible filter es place → Node.InSight place) ∧
      (shown.length = packed.length ↔
        ∀ place, Folder.Eligible filter es place → Node.InSight place) := by
  have hsubset : shown ⊆ packed := fun entry hentry => by
    obtain ⟨place, heligible, -, hplace⟩ := (hmem entry).mp hentry
    exact (hmem' entry).mpr ⟨place, heligible, hplace⟩
  have hsubperm : shown.Subperm packed := hshown.subperm hsubset
  have hsame : (∀ entry, entry ∈ shown ↔ entry ∈ packed) ↔
      ∀ place, Folder.Eligible filter es place → Node.InSight place := by
    constructor
    · intro hall place heligible
      have hentry := (hall _).mpr ((hmem' _).mpr ⟨place, heligible, rfl⟩)
      obtain ⟨place', heligible', hsight, hplace⟩ := (hmem _).mp hentry
      rw [heligible.eq hlegible hplain heligible' hplace]
      exact hsight
    · intro hall entry
      refine ⟨fun hentry => hsubset hentry, fun hentry => ?_⟩
      obtain ⟨place, heligible, hplace⟩ := (hmem' entry).mp hentry
      exact (hmem entry).mpr ⟨place, heligible, hall place heligible, hplace⟩
  -- no entry comes twice, so lists of one length have the same members
  have hmany : shown.length = packed.length ↔ ∀ entry, entry ∈ shown ↔ entry ∈ packed := by
    refine ⟨fun h entry => (hsubperm.perm_of_length_le h.ge).mem_iff, fun h => ?_⟩
    exact ((List.perm_ext_iff_of_nodup hshown hpacked).mpr h).length_eq
  exact ⟨hsubperm.length_le, hsame, hmany.trans hsame⟩

/-- **Folders and archives.**  A folder of legible names without backslashes reports its eligible
files in no hidden directory, and a readable archive of the same files reports all eligible ones,
each of them once and announced beforehand.  So they report the same entries, and equally many,
iff no eligible file stands below a hidden directory. -/
theorem producers_agree_in_sight (filter : EntryFilter) (extractor : TextExtractor) {d : Disk}
    {root : String} {top : Place} (hroot : d.find true (.ofText root) = .ok (top, .dir es))
    {archive scratch : Path} {content : Bytes} {entries : List Zip.Entry}
    (hread : d.read archive = .ok content) (hzip : Zip.read? content = some entries)
    (hpacks : Packs es entries) (hscratch : (d.makeDirs scratch).1 = .ok ()) :
    ∃ folder packed d', Folder.openSource filter extractor d (.ofText root) = .ok folder ∧
      Archive.openSource filter extractor d archive scratch = .ok (packed, d') ∧
      let inFolder := Event.ingested folder.events
      let inArchive := Event.ingested packed.events
      (∀ entry, entry ∈ inFolder ↔ ∃ place,
        Folder.Eligible filter es place ∧ Node.InSight place ∧ entry = Folder.entryName place) ∧
      (∀ entry, entry ∈ inArchive ↔ ∃ place,
        Folder.Eligible filter es place ∧ entry = Folder.entryName place) ∧
      inFolder.Nodup ∧ inArchive.Nodup ∧
      promised folder.events = inFolder.length % UInt64.size ∧
      promised packed.events = inArchive.length % UInt64.size ∧
      inFolder.length ≤ inArchive.length ∧
      ((∀ entry, entry ∈ inFolder ↔ entry ∈ inArchive) ↔
        ∀ place, Folder.Eligible filter es place → Node.InSight place) ∧
      (inFolder.length = inArchive.length ↔
        ∀ place, Folder.Eligible filter es place → Node.InSight place) := by
  obtain ⟨folder, hfolder, -, hevents⟩ :=
    Folder.openSource_of_find filter extractor hroot
  obtain ⟨packed, d', hpacked, harchive, hannounced⟩ :=
    Archive.openSource_of_read filter extractor hread hzip hscratch
  obtain ⟨hreported, hpromised⟩ := Folder.ingested_events hevents
  refine ⟨folder, packed, d', hfolder, hpacked, ?_⟩
  intro inFolder inArchive
  have hmem : ∀ entry, entry ∈ inFolder ↔ ∃ place,
      Folder.Eligible filter es place ∧ Node.InSight place ∧ entry = Folder.entryName place := by
    intro entry
    rw [← Folder.mem_candidates hlegible root, ← hreported]
  have hmem' : ∀ entry, entry ∈ inArchive ↔ ∃ place,
      Folder.Eligible filter es place ∧ entry = Folder.entryName place := by
    intro entry
    show entry ∈ Event.ingested packed.events ↔ _
    rw [harchive, Archive.mem_names_eligible, hpacks.iff hlegible hplain]
    constructor
    · rintro ⟨⟨place, content, hat, rfl⟩, heligible⟩
      exact ⟨place, ⟨⟨content, hat⟩, heligible⟩, rfl⟩
    · rintro ⟨place, ⟨⟨content, hat⟩, heligible⟩, rfl⟩
      exact ⟨⟨place, content, hat, rfl⟩, heligible⟩
  have hnodup : inFolder.Nodup := by
    show (Event.ingested folder.events).Nodup
    rw [hreported]
    exact Folder.nodup_candidates hlegible hplain filter root
  -- an archive lists a name once, so what is left of its list does too
  have hnodup' : inArchive.Nodup := by
    show (Event.ingested packed.events).Nodup
    rw [harchive, Archive.names_eligible]
    refine (sublist_map_of_filterMap (fun e name hname => ?_) entries).nodup
      (Zip.nodup_names hzip)
    split at hname <;> cases hname
    rfl
  obtain ⟨hle, hsame, hmany⟩ := same_iff_inSight hlegible hplain hnodup hnodup' hmem hmem'
  exact ⟨hmem, hmem', hnodup, hnodup', hpromised, hannounced, hle, hsame, hmany⟩

end Both

namespace Sample

/-- A file below a hidden directory. -/
def hidden : List (Bytes × Node) :=
  [(Text.encode ".git", .dir [(Text.encode "a.txt", .file (Text.encode "the first text"))])]

/-- An archive of that file, which is stored as it is. -/
def zipped : Bytes :=
  [
    80, 75, 3, 4, 20, 0, 0, 0, 0, 0, 0, 0, 0, 0, 254, 223, 148, 20, 14, 0, 0, 0, 14, 0, 0, 0,
    10, 0, 0, 0, 46, 103, 105, 116, 47, 97, 46, 116, 120, 116, 116, 104, 101, 32, 102, 105,
    114, 115, 116, 32, 116, 101, 120, 116, 80, 75, 1, 2, 20, 0, 20, 0, 0, 0, 0, 0, 0, 0, 0, 0,
    254, 223, 148, 20, 14, 0, 0, 0, 14, 0, 0, 0, 10, 0, 0, 0, 0, 0, 0, 0, 0, 0, 0, 0, 0, 0, 0,
    0, 0, 0, 46, 103, 105, 116, 47, 97, 46, 116, 120, 116, 80, 75, 5, 6, 0, 0, 0, 0, 1, 0, 1,
    0, 56, 0, 0, 0, 54, 0, 0, 0, 0, 0
  ]

/-- A disk with a folder of documents and an archive beside it. -/
def both (es : List (Bytes × Node)) (archive : Bytes) : Disk :=
  ⟨.dir [(Text.encode "docs", .dir es), (Text.encode "a.zip", .file archive)], [], []⟩

theorem legible_hidden : (Node.dir hidden).Legible := by
  have hbelow : (Node.dir [(Text.encode "a.txt", .file (Text.encode "the first text"))]).Legible :=
    .dir (List.nodup_singleton _)
      (List.forall_mem_singleton.mpr (legible_encode "a.txt" (by decide)))
      (List.forall_mem_singleton.mpr (.file _))
  exact .dir (List.nodup_singleton _)
    (List.forall_mem_singleton.mpr (legible_encode ".git" (by decide)))
    (List.forall_mem_singleton.mpr hbelow)

/-- The place of the file. -/
def below : Place := [Text.encode ".git", Text.encode "a.txt"]

/-- There is no other file. -/
theorem below_of_at? {place : Place} {content : Bytes}
    (h : (Node.dir hidden).at? place = some (.file content)) : place = below := by
  cases place with
  | nil => cases h
  | cons name rest =>
    obtain ⟨c, hmem, hat⟩ := legible_hidden.distinct.at?_cons_iff.mp h
    have hdistinct := legible_hidden.distinct.child hmem
    cases List.mem_singleton.mp hmem
    cases rest with
    | nil => cases hat
    | cons next rest =>
      obtain ⟨c, hmem, hat⟩ := hdistinct.at?_cons_iff.mp hat
      cases List.mem_singleton.mp hmem
      cases rest with
      | nil => rfl
      | cons _ _ => cases hat

theorem at?_below :
    (Node.dir hidden).at? below = some (.file (Text.encode "the first text")) := rfl

set_option maxRecDepth 100000 in
theorem names_zipped :
    (Zip.read? zipped).map (fun es => es.map (·.name)) = some [".git/a.txt"] := by
  decide +kernel

/-- The archive holds the file of the tree. -/
theorem packs_zipped : ∃ entries, Zip.read? zipped = some entries ∧ Packs hidden entries := by
  obtain ⟨entries, hzip, hnames⟩ := Option.map_eq_some_iff.mp names_zipped
  refine ⟨entries, hzip, fun name => ?_⟩
  have hwritten : Text.encode ".git/a.txt" = Folder.written below := by decide
  have hfile : ∀ e : Zip.Entry, e.name = ".git/a.txt" → e.isDir = false := by
    intro e he
    rw [Zip.Entry.isDir, he]
    decide
  constructor
  · rintro ⟨e, he, -, rfl⟩
    have hmem : e.name ∈ entries.map (·.name) := List.mem_map_of_mem he
    rw [hnames, List.mem_singleton] at hmem
    exact ⟨below, _, at?_below, by rw [hmem, hwritten]⟩
  · rintro ⟨place, content, hat, hname⟩
    rw [below_of_at? hat, ← hwritten] at hname
    have hmem : name ∈ entries.map (·.name) := by
      rw [hnames, Text.encode_inj.mp hname]
      exact List.mem_singleton_self _
    obtain ⟨e, he, rfl⟩ := List.mem_map.mp hmem
    exact ⟨e, he, hfile e (Text.encode_inj.mp hname), rfl⟩

set_option maxRecDepth 10000 in
theorem find_both (es : List (Bytes × Node)) (archive : Bytes) :
    (both es archive).find true (.ofText "docs") = .ok ([Text.encode "docs"], .dir es) := by cbv

set_option maxRecDepth 10000 in
theorem read_both (es : List (Bytes × Node)) (archive : Bytes) :
    (both es archive).read (.ofText "a.zip") = .ok archive := by cbv

set_option maxRecDepth 10000 in
theorem makeDirs_both (es : List (Bytes × Node)) (archive : Bytes) :
    ((both es archive).makeDirs (.ofText "scratch")).1 = .ok () := by cbv

set_option maxRecDepth 10000 in
theorem eligible_below : ((⟨["txt"]⟩ : EntryFilter).eligible? ".git/a.txt").isSome = true := by
  decide

theorem entryName_hidden : Folder.entryName below = ".git/a.txt" := by cbv

end Sample

/-- The folder and the archive of a tree with a hidden directory do not report the same entries. -/
theorem producers_agree_in_sight_hidden :
    let d := Sample.both Sample.hidden Sample.zipped
    let extractor := (Sample.ingestion {} 900).extractor
    ∃ folder packed d',
      Folder.openSource ⟨["txt"]⟩ extractor d (.ofText "docs") = .ok folder ∧
      Archive.openSource ⟨["txt"]⟩ extractor d (.ofText "a.zip") (.ofText "scratch") =
        .ok (packed, d') ∧
      (Event.ingested folder.events).length < (Event.ingested packed.events).length := by
  intro d extractor
  obtain ⟨entries, hzip, hpacks⟩ := Sample.packs_zipped
  have hplain : ∀ place content, (Node.dir Sample.hidden).at? place = some (.file content) →
      Folder.IsPlain place := by
    intro place content hat
    rw [Sample.below_of_at? hat, Folder.isPlain_iff]
    decide
  obtain ⟨folder, packed, d', hfolder, hpacked, -, -, -, -, -, -, hle, -, hsame⟩ :=
    producers_agree_in_sight Sample.legible_hidden hplain ⟨["txt"]⟩ extractor
      (Sample.find_both _ _) (Sample.read_both _ _) hzip hpacks (Sample.makeDirs_both _ _)
  refine ⟨folder, packed, d', hfolder, hpacked, lt_of_le_of_ne hle fun heq => ?_⟩
  have hsight := hsame.mp heq Sample.below
    ⟨⟨_, Sample.at?_below⟩, Sample.entryName_hidden ▸ Sample.eligible_below⟩
  exact absurd (hsight (Text.encode ".git") (List.mem_singleton_self _)) (by decide)

/-- A folder passes over an eligible file below a hidden directory, and an archive of the same
file reports it. -/
theorem hidden_entry_packed :
    let d := Sample.both Sample.hidden Sample.zipped
    let extractor := (Sample.ingestion {} 900).extractor
    ∃ entries folder packed d',
      Zip.read? Sample.zipped = some entries ∧ Packs Sample.hidden entries ∧
      Folder.openSource ⟨["txt"]⟩ extractor d (.ofText "docs") = .ok folder ∧
      Archive.openSource ⟨["txt"]⟩ extractor d (.ofText "a.zip") (.ofText "scratch") =
        .ok (packed, d') ∧
      Event.ingested folder.events = [] ∧ promised folder.events = 0 ∧
      ".git/a.txt" ∈ Event.ingested packed.events := by
  intro d extractor
  obtain ⟨entries, hzip, hpacks⟩ := Sample.packs_zipped
  obtain ⟨folder, hfolder, -, hevents⟩ := Folder.openSource_of_find ⟨["txt"]⟩
    extractor (Sample.find_both Sample.hidden Sample.zipped)
  obtain ⟨packed, d', hpacked, harchive, -⟩ := Archive.openSource_of_read ⟨["txt"]⟩
    extractor (Sample.read_both Sample.hidden Sample.zipped) hzip
    (Sample.makeDirs_both Sample.hidden Sample.zipped)
  have hnone : Folder.listing ⟨["txt"]⟩ "docs" Sample.hidden = [] := by
    have hfiles : (Node.dir Sample.hidden).visibleFiles = [] := by cbv
    rw [Folder.listing, hfiles, List.map_nil]
  obtain ⟨hreported, hpromised⟩ := Folder.ingested_events hevents
  rw [hnone] at hreported
  refine ⟨entries, folder, packed, d', hzip, hpacks, hfolder, hpacked, hreported, ?_, ?_⟩
  · rw [hpromised, hreported]
    rfl
  · rw [harchive, Archive.mem_names_eligible]
    refine ⟨(hpacks _).mpr ⟨Sample.below, _, Sample.at?_below, by decide⟩, Sample.eligible_below⟩

end Corpus
