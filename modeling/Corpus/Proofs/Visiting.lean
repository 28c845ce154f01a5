/-
Corpus/Proofs/Visiting.lean

In which order the files of a folder are visited.

The walk takes up the entries of a directory by their names, and all that an entry holds before it
goes on to the next one.  So the places of the files that it meets increase strictly, name by name
(`Node.pairwise_visibleFiles`): a file a/z comes before one that is called a.txt, although it is
written behind it.

What is passed over and what is reported are two parts of these files, each of them in that order:

    skipped p₁ … skipped pₖ   discovered n   answer q₁ … answer qₙ     p₁ < … < pₖ,  q₁ < … < qₙ

(`walk_visits_in_order`).
-/
import Corpus.Proofs.Announcing
import Corpus.Proofs.Captioning

namespace Corpus

/-! ### The order of the walk -/

namespace Node

/-- Entries with different names are put into strictly increasing order. -/
theorem pairwise_sortEntries {α : Type} {es : List (Bytes × α)} (h : (es.map (·.1)).Nodup) :
    (sortEntries es).Pairwise fun a b => a.1 < b.1 := by
  have hsorted : (sortEntries es).Pairwise fun a b => nameLe a.1 b.1 = true :=
    List.pairwise_mergeSort
      (fun a b c hab hbc => by
        simp only [nameLe, decide_eq_true_eq] at hab hbc ⊢
        exact List.le_trans hab hbc)
      (fun a b => by simpa [nameLe] using List.le_total a.1 b.1) es
  have hkeys : ((sortEntries es).map (·.1)).Nodup :=
    ((List.mergeSort_perm es _).map (·.1)).nodup_iff.mpr h
  have hnodup : (sortEntries es).Pairwise fun a b => a.1 ≠ b.1 := List.pairwise_map.mp hkeys
  refine hsorted.imp₂ (fun a b hle hne => ?_) hnodup
  -- of two different names the one that is not greater is less
  by_contra hlt
  exact hne (List.le_antisymm (of_decide_eq_true hle) (List.not_lt.mp hlt))

/-- Files of different entries are in the order of the entries. -/
theorem pairwise_visibleFiles_of {es : List (Bytes × Node)} (h : (es.map (·.1)).Nodup)
    (heach : ∀ e ∈ es, ((entryFiles e.1 e.2).map (·.place)).Pairwise (· < ·)) :
    ((Node.dir es).visibleFiles.map (·.place)).Pairwise (· < ·) := by
  rw [visibleFiles_dir, List.map_flatMap, List.pairwise_flatMap]
  refine ⟨fun e he => heach e (mem_of_mem_sortEntries he), ?_⟩
  refine (pairwise_sortEntries h).imp fun hlt => ?_
  intro p hp q hq
  obtain ⟨f, hf, rfl⟩ := List.mem_map.mp hp
  obtain ⟨g, hg, rfl⟩ := List.mem_map.mp hq
  -- the places begin with the names of the entries, which differ
  obtain ⟨below, hbegins⟩ := place_of_mem_entryFiles hf
  obtain ⟨below', hbegins'⟩ := place_of_mem_entryFiles hg
  rw [hbegins, hbegins']
  exact List.Lex.rel hlt

theorem pairwise_entryFiles (n : Node) :
    ∀ name : Bytes, n.Distinct → ((entryFiles name n).map (·.place)).Pairwise (· < ·) := by
  induction n using entrywise with
  | file _ => exact fun name _ => List.pairwise_singleton _ _
  | link _ => exact fun _ _ => List.Pairwise.nil
  | dir es ih =>
    intro name h
    rw [entryFiles_dir]
    split
    · exact List.Pairwise.nil
    · -- the name of the directory in front of all places changes nothing in their order
      have hbelow := pairwise_visibleFiles_of (h [] es rfl) fun e he => ih e he e.1 (h.child he)
      rw [within, List.map_map, List.pairwise_map]
      exact (List.pairwise_map.mp hbelow).imp fun hlt => List.Lex.cons hlt

/-- **The files of a folder** are met in the order of their places. -/
theorem pairwise_visibleFiles {es : List (Bytes × Node)} (h : (Node.dir es).Distinct) :
    ((Node.dir es).visibleFiles.map (·.place)).Pairwise (· < ·) :=
  pairwise_visibleFiles_of (h [] es rfl) fun e he => pairwise_entryFiles e.2 e.1 (h.child he)

-- the directory `a` comes before the file `a.b`
example :
    (Node.dir [([97, 46, 98], .file []), ([97], .dir [([122], .file [])])]).visibleFiles.map
        (·.place) = [[[97], [122]], [[97, 46, 98]]] := by
  cbv

end Node

/-! ### What is visited -/

namespace EntryFilter

/-- Files that are passed over: hidden ones, metadata, and those of an extension that is not
allowed. -/
def Unwanted (filter : EntryFilter) (name : String) : Prop :=
  name.toList.head? = some '.' ∨ Text.toLower name ∈ metadataNames ∨
    Text.toLower (EntryName.extension name) ∉ filter.allowed

/-- An entry is passed over for the sake of its last name. -/
theorem eligible?_eq_none_iff (filter : EntryFilter) {entry name : String}
    (hlast : EntryName.last entry = name) (hname : EntryName.last name = name) :
    filter.eligible? entry = none ↔ filter.Unwanted name := by
  have hextension : EntryName.extension entry = EntryName.extension name := by
    have hchars : EntryName.lastChars entry.toList = EntryName.lastChars name.toList := by
      have hentry := congrArg String.toList (hlast.trans hname.symm)
      simpa [EntryName.last] using hentry
    rw [EntryName.extension, EntryName.extension, hchars]
  rw [eligible?, isIgnored, hlast, hextension, Unwanted]
  by_cases hhidden : name.toList.head? = some '.'
  · simp [hhidden]
  · by_cases hmeta : Text.toLower name ∈ metadataNames
    · simp [hmeta]
    · simp [hhidden, hmeta]

end EntryFilter

namespace Folder

/-- A regular file stands at the place, and no directory between the folder and the file is
hidden. -/
def Visited (es : List (Bytes × Node)) (place : Place) : Prop :=
  (∃ content, (Node.dir es).at? place = some (.file content)) ∧ Node.InSight place

/-- The file at the place is passed over for the sake of its name. -/
def Unwanted (filter : EntryFilter) (place : Place) : Prop :=
  ∃ name, place.getLast? = some (Text.encode name) ∧ filter.Unwanted name

/-- **A visit to a folder.**  Its events concern two lists of places. -/
structure Visits (filter : EntryFilter) (es : List (Bytes × Node)) (events : List Event)
    (skipped reported : List Place) : Prop where
  /-- Those of the first are passed over; those of the second are announced all together and then
  answered one by one, each with a record or a failure. -/
  told : ∃ answers, events = skipped.map (fun p => .skipped (entryName p)) ++
    .discovered (UInt64.ofNat reported.length) :: answers ∧
    List.Forall₂ (fun p e => e.Answers (entryName p)) reported answers
  /-- They are the visited files that are unwanted, and the others. -/
  mem_skipped : ∀ p, p ∈ skipped ↔ Visited es p ∧ Unwanted filter p
  mem_reported : ∀ p, p ∈ reported ↔ Visited es p ∧ ¬ Unwanted filter p
  /-- Both are in strictly increasing order, name by name and byte by byte. -/
  skipped_lt : skipped.Pairwise (· < ·)
  reported_lt : reported.Pairwise (· < ·)
  /-- Together they are all visited files. -/
  count : {p | Visited es p}.ncard = skipped.length + reported.length
  /-- The entry of a file is its place with slashes between the names, and no other file has it. -/
  entry : ∀ p, Visited es p → Text.encode (entryName p) = written p
  apart : ∀ p q, Visited es p → Visited es q → entryName p = entryName q → p = q

variable {filter : EntryFilter} {es : List (Bytes × Node)}

theorem mem_places (h : (Node.dir es).Distinct) {p : Place} :
    p ∈ (Node.dir es).visibleFiles.map (·.place) ↔ Visited es p := by
  rw [List.mem_map]
  constructor
  · rintro ⟨f, hf, rfl⟩
    obtain ⟨hat, hsight⟩ := (Node.mem_visibleFiles h).mp hf
    exact ⟨⟨f.content, hat⟩, hsight⟩
  · rintro ⟨⟨content, hat⟩, hsight⟩
    exact ⟨⟨p, content⟩, (Node.mem_visibleFiles h).mpr ⟨hat, hsight⟩, rfl⟩

/-- A file whose names are legible and plain is passed over iff its name is unwanted. -/
theorem eligible?_eq_none_iff (filter : EntryFilter) {p : Place} (hp : p ≠ [])
    (hnames : ∀ name ∈ p, Disk.IsLegible name) (hplain : IsPlain p) :
    filter.eligible? (entryName p) = none ↔ Unwanted filter p := by
  obtain ⟨front, last, rfl⟩ : ∃ front last, p = front ++ [last] :=
    ⟨p.dropLast, p.getLast hp, (List.dropLast_append_getLast hp).symm⟩
  have hlegible := hnames last (List.mem_append_right front (List.mem_singleton_self last))
  obtain ⟨name, rfl⟩ := hlegible.text
  have hlast := last_entryName hlegible.toIsName
    (fun part hpart => (hnames part (List.mem_append_left _ hpart)).text) hplain
  have hname : EntryName.last name = name :=
    EntryName.last_of_forall (isSeparator_of_encode hlegible.whole
      (hplain _ (List.mem_append_right front (List.mem_singleton_self _))))
  rw [filter.eligible?_eq_none_iff hlast hname, Unwanted, List.getLast?_concat]
  constructor
  · exact fun h => ⟨name, rfl, h⟩
  · rintro ⟨name', heq, h⟩
    exact Text.encode_inj.mp (Option.some.inj heq) ▸ h

/-! ### What is said of the files -/

/-- Places of files that are passed over, or that are not. -/
def placesWhere (filter : EntryFilter) (passed : Bool) (files : List FoundFile) : List Place :=
  (files.map (·.place)).filter fun p => (filter.eligible? (entryName p)).isNone == passed

/-- The events of what is passed over. -/
theorem passedOver_classify (root : Path) (files : List FoundFile) :
    Production.passedOver (files.map (classify filter root)) =
      (placesWhere filter true files).map fun p => .skipped (entryName p) := by
  rw [Production.passedOver, placesWhere, List.filterMap_map, List.filter_map, List.map_map,
    ← List.filterMap_eq_filter, List.map_filterMap]
  refine List.filterMap_congr fun f _ => ?_
  rw [Function.comp_apply]
  cases heligible : filter.eligible? (entryName f.place) with
  | none => simp [classify_of_not_eligible root f heligible, Option.guard, heligible]
  | some extension => simp [classify_of_eligible root f heligible, Option.guard, heligible]

/-- The others are answered in their own order. -/
theorem answers_classify (filter : EntryFilter) (extractor : TextExtractor) (d : Disk)
    (root : Path) (files : List FoundFile) :
    List.Forall₂ (fun p e => e.Answers (entryName p)) (placesWhere filter false files)
      ((Production.eligible (files.map (classify filter root))).map (extract extractor d)) := by
  have hplaces : (Production.eligible (files.map (classify filter root))).map (·.entry) =
      (placesWhere filter false files).map entryName := by
    rw [Production.eligible, placesWhere, List.filterMap_map, List.filter_map, List.map_map,
      List.map_filterMap, ← List.filterMap_eq_filter, List.map_filterMap]
    refine List.filterMap_congr fun f _ => ?_
    rw [Function.comp_apply]
    cases heligible : filter.eligible? (entryName f.place) with
    | none => simp [classify_of_not_eligible root f heligible, Option.guard, heligible]
    | some extension => simp [classify_of_eligible root f heligible, Option.guard, heligible]
  have hanswers : List.Forall₂ (fun entry e => e.Answers entry)
      ((Production.eligible (files.map (classify filter root))).map (·.entry))
      ((Production.eligible (files.map (classify filter root))).map (extract extractor d)) := by
    rw [List.forall₂_map_left_iff, List.forall₂_map_right_iff]
    exact List.forall₂_same.mpr fun c _ => answers_work extractor d c
  rw [hplaces, List.forall₂_map_left_iff] at hanswers
  exact hanswers

/-- **The order of a walk.**  A folder that can be read and whose names are text without
backslashes is read to the end: each regular file in no hidden directory is visited once, the
unwanted ones are passed over and the others answered, both in the order of their places, and
nothing is said of anything else. -/
theorem walk_visits_in_order (filter : EntryFilter) (extractor : TextExtractor) {d : Disk}
    {root : String} {top : Place} {es : List (Bytes × Node)}
    (hroot : d.find true (.ofText root) = .ok (top, .dir es)) (hlegible : (Node.dir es).Legible)
    (hplain : ∀ p, Visited es p → IsPlain p) :
    ∃ source skipped reported, openSource filter extractor d (.ofText root) = .ok source ∧
      Visits filter es source.events skipped reported := by
  obtain ⟨source, hopen, -, hevents⟩ := openSource_of_find filter extractor hroot
  have hdistinct := hlegible.distinct
  have hsorted := Node.pairwise_visibleFiles hdistinct
  have hnames : ∀ p, Visited es p → p ≠ [] ∧ (∀ name ∈ p, Disk.IsLegible name) ∧ IsPlain p := by
    intro p hp
    obtain ⟨content, hat⟩ := hp.1
    refine ⟨?_, hlegible.of_at? hat, hplain p hp⟩
    rintro rfl
    cases hat
  have hmem : ∀ passed p, p ∈ placesWhere filter passed (Node.dir es).visibleFiles ↔
      Visited es p ∧ (filter.eligible? (entryName p)).isNone = passed := by
    intro passed p
    rw [placesWhere, List.mem_filter, mem_places hdistinct, beq_iff_eq]
  -- the filter sees the entry, and judges it by the last name of the place
  have hunwanted : ∀ p, Visited es p →
      ((filter.eligible? (entryName p)).isNone = true ↔ Unwanted filter p) := by
    intro p hp
    obtain ⟨hne, hlegible, hplain⟩ := hnames p hp
    rw [Option.isNone_iff_eq_none, eligible?_eq_none_iff filter hne hlegible hplain]
  refine ⟨source, placesWhere filter true (Node.dir es).visibleFiles,
    placesWhere filter false (Node.dir es).visibleFiles, hopen, ?_⟩
  have hanswers := answers_classify filter extractor d (.ofText root) (Node.dir es).visibleFiles
  constructor
  case told =>
    refine ⟨_, ?_, hanswers⟩
    rw [hevents, listing, passedOver_classify, Production.announcement, hanswers.length_eq,
      List.length_map]
  case mem_skipped =>
    intro p
    rw [hmem]
    exact and_congr_right (hunwanted p)
  case mem_reported =>
    intro p
    rw [hmem]
    refine and_congr_right fun hp => ?_
    rw [← hunwanted p hp, Bool.not_eq_true]
  case skipped_lt => exact hsorted.filter _
  case reported_lt => exact hsorted.filter _
  case count =>
    -- the walk meets every visited file once, and each is passed over or not
    have hvisited : {p | Visited es p} =
        (((Node.dir es).visibleFiles.map (·.place)).toFinset : Set Place) := by
      ext p
      rw [Set.mem_ofPred_eq, List.coe_toFinset, Set.mem_ofPred_eq, mem_places hdistinct]
    rw [hvisited, Set.ncard_coe_finset,
      List.toFinset_card_of_nodup (Node.nodup_visibleFiles hdistinct), placesWhere, placesWhere,
      List.length_eq_length_filter_add fun p => (filter.eligible? (entryName p)).isNone]
    simp
  case entry =>
    intro p hp
    obtain ⟨-, hlegible, hplain⟩ := hnames p hp
    exact encode_entryName_of_isPlain hplain fun name hname => (hlegible name hname).text
  case apart =>
    intro p q hp hq heq
    obtain ⟨hpne, hplegible, hpplain⟩ := hnames p hp
    obtain ⟨hqne, hqlegible, hqplain⟩ := hnames q hq
    exact entryName_inj hpne hqne
      (fun name hname => ⟨(hplegible name hname).toIsName, (hplegible name hname).text⟩)
      (fun name hname => ⟨(hqlegible name hname).toIsName, (hqlegible name hname).text⟩)
      hpplain hqplain heq

end Folder

namespace Sample

/-- A file beside the directory of another, a hidden file, a hidden directory, and a link. -/
def mixed : List (Bytes × Node) :=
  [(Text.encode "a.txt", .file (Text.encode "the second text")),
    (Text.encode ".env", .file []),
    (Text.encode "a", .dir [(Text.encode "z.txt", .file (Text.encode "the first text"))]),
    (Text.encode "b.txt", .link (Text.encode "a.txt")),
    (Text.encode ".git", .dir [(Text.encode "c.txt", .file [])])]

theorem legible_mixed : (Node.dir mixed).Legible := by
  have hdir : ∀ s content, Disk.IsLegible (Text.encode s) →
      (Node.dir [(Text.encode s, .file content)]).Legible := fun s content hs =>
    .dir (List.nodup_singleton _) (List.forall_mem_singleton.mpr hs)
      (List.forall_mem_singleton.mpr (.file content))
  refine .dir (by decide) ?_ ?_
  · simp only [mixed, List.forall_mem_cons]
    refine ⟨legible_encode "a.txt" ?_, legible_encode ".env" ?_, legible_encode "a" ?_,
      legible_encode "b.txt" ?_, legible_encode ".git" ?_, List.forall_mem_nil _⟩ <;> decide
  · simp only [mixed, List.forall_mem_cons]
    exact ⟨.file _, .file _, hdir "z.txt" _ (legible_encode "z.txt" (by decide)), .leaf rfl,
      hdir "c.txt" _ (legible_encode "c.txt" (by decide)), List.forall_mem_nil _⟩

set_option maxRecDepth 10000 in
theorem places_mixed : (Node.dir mixed).visibleFiles.map (·.place) =
    [[Text.encode ".env"], [Text.encode "a", Text.encode "z.txt"], [Text.encode "a.txt"]] := by
  cbv

end Sample

/-- A hidden file is passed over, and a file two levels down is reported. -/
theorem walk_visits_mixed :
    ∃ source skipped reported,
      Folder.openSource ⟨["txt"]⟩ (Sample.ingestion {} 900).extractor
        (Sample.library Sample.mixed) (.ofText "docs") = .ok source ∧
      Folder.Visits ⟨["txt"]⟩ Sample.mixed source.events skipped reported ∧
      [Text.encode ".env"] ∈ skipped := by
  have hplain : ∀ p, Folder.Visited Sample.mixed p → Folder.IsPlain p := by
    intro p hp
    have hmem := (Folder.mem_places Sample.legible_mixed.distinct).mpr hp
    rw [Sample.places_mixed] at hmem
    have hall : ∀ place ∈ [[Text.encode ".env"], [Text.encode "a", Text.encode "z.txt"],
        [Text.encode "a.txt"]], (92 : UInt8) ∉ Folder.written place := by decide
    exact (Folder.isPlain_iff p).mpr (hall p hmem)
  obtain ⟨source, skipped, reported, hopen, hvisits⟩ :=
    Folder.walk_visits_in_order ⟨["txt"]⟩ (Sample.ingestion {} 900).extractor
      (Sample.find_library Sample.mixed) Sample.legible_mixed hplain
  refine ⟨source, skipped, reported, hopen, hvisits, (hvisits.mem_skipped _).mpr ⟨?_, ?_⟩⟩
  · exact ⟨⟨[], rfl⟩, List.forall_mem_nil _⟩
  · exact ⟨".env", rfl, .inl (by decide)⟩

end Corpus
