/-
Corpus/Proofs/Announcing.lean

What a producer says, and in which order.

A folder and an archive first report what they pass over and what they cannot read, then announce
how many entries they are going to report, and then say what became of each of these:

    aside*  discovered n  answer₁ … answerₙ

Whatever stands in the way of reading them, whatever is extracted, and wherever the worker stops
listening, what they have sent is the beginning of such a sequence (`producers_keep_form`).  It
stops short of the whole sequence in two cases only: a fatal fault before the announcement or right
after it, or an event that was refused, and behind that nothing more is extracted.
-/
import Corpus.Proofs.Stopping
import Corpus.Proofs.Syncing
import Corpus.Source.Trouble

namespace Corpus

/-! ### The form of what is sent -/

namespace Event

/-- An entry was passed over, or something is to be noted. -/
def isAside : Event → Bool
  | .skipped _ | .notice _ => true
  | _ => false

/-- The event says what became of an entry: a record of that name with a text that is not blank,
or the report that there is none. -/
def Answers (entry : String) : Event → Prop
  | .record r => r.path = entry ∧ Text.isBlankText r.text = false
  | .failed other _ => other = entry
  | _ => False

theorem Answers.not_aside {entry : String} {e : Event} (h : e.Answers entry) :
    e.isAside = false := by
  cases e with
  | record _ | failed _ _ | discovered _ => rfl
  | skipped _ | notice _ => exact h.elim

theorem countP_answers {entries : List String} {events : List Event}
    (h : List.Forall₂ Answers entries events) : events.countP isAside = 0 := by
  induction h with
  | nil => rfl
  | cons hfirst _ ih => rw [List.countP_cons, ih, hfirst.not_aside]; rfl

/-- Events of the form: asides, the announcement of so many entries as 64 bits can count them, and
an answer for each of the entries in turn. -/
def Form (entries : List String) (events : List Event) : Prop :=
  ∃ asides n answers, events = asides ++ .discovered n :: answers ∧
    (∀ e ∈ asides, e.isAside = true) ∧ n.toNat = entries.length % UInt64.size ∧
    List.Forall₂ Answers entries answers

/-- Any entries can be reported in that form. -/
theorem exists_form (entries : List String) : ∃ events, Form entries events := by
  refine ⟨_, [], UInt64.ofNat entries.length, entries.map (.failed · ""), rfl, nofun, rfl, ?_⟩
  rw [List.forall₂_map_right_iff]
  exact List.forall₂_same.mpr fun _ _ => rfl

end Event

namespace Production

/-- A producer of some entries, given what it does with each of its jobs and how much room there is
for its events, keeps to the form. -/
structure KeepsForm {α : Type} (entries : List String) (jobs : List α)
    (work : Disk → α → Event × Disk)
    (produce : (Disk → α → Event × Disk) → Option Nat → Production) : Prop where
  /-- What it sends is the beginning of one sequence of that form. -/
  begins : ∃ events, Event.Form entries events ∧ ∀ room, (produce work room).sent <+: events
  /-- It sends a whole sequence if no event is refused and it does not fail. -/
  whole : (produce work none).fatal = none → Event.Form entries (produce work none).sent
  /-- It fails before the announcement or right after it. -/
  fails : ∀ room, (produce work room).fatal ≠ none →
    (∀ e ∈ (produce work room).sent, e.isAside = true) ∨
      ∃ asides n, (produce work room).sent = asides ++ [.discovered n] ∧
        ∀ e ∈ asides, e.isAside = true
  /-- If an event is refused, it does not fail, and sends nothing more. -/
  refused : ∀ k, k < (produce work none).sent.length →
    (produce work (some k)).fatal = none ∧
      (produce work (some k)).sent = (produce work none).sent.take k
  /-- If none is, the room does not matter. -/
  unrefused : ∀ k, (produce work none).sent.length ≤ k → produce work (some k) = produce work none
  /-- It takes up no jobs but those whose events are sent, and the one whose event is refused:
  what would become of others makes no difference. -/
  idle : ∀ k work', (∀ a ∈ jobs.take (k - (produce work none).sent.countP Event.isAside), ∀ d,
    work' d a = work d a) → produce work' (some k) = produce work (some k)

variable {α : Type}

/-- A producer that fails before it lists anything. -/
theorem keepsForm_failed (entries : List String) (jobs : List α) (work : Disk → α → Event × Disk)
    (message : String) (d : Disk) : KeepsForm entries jobs work fun _ _ => failed message d where
  begins := by
    obtain ⟨events, hform⟩ := Event.exists_form entries
    exact ⟨events, hform, fun _ => List.nil_prefix⟩
  whole := nofun
  fails := fun _ _ => .inl nofun
  refused := nofun
  unrefused := fun _ _ => rfl
  idle := fun _ _ _ => rfl

/-- Entries that are worked off are answered in turn. -/
theorem answers_worked {work : Disk → α → Event × Disk} {name : α → String}
    (h : ∀ d a, (work d a).1.Answers (name a)) (entries : List α) :
    ∀ d, List.Forall₂ Event.Answers (entries.map name) (worked work entries d) := by
  induction entries with
  | nil => exact fun _ => .nil
  | cons a rest ih => exact fun d => .cons (h d a) (ih _)

section Listing

variable (listing : List (Event ⊕ α)) (prepare : Disk → Except String Unit × Disk)
  (work : Disk → α → Event × Disk) (d : Disk)

/-- All that a producer would send if it could prepare for its jobs. -/
def script : List Event :=
  passedOver listing ++ announcement listing :: worked work (eligible listing) (prepare d).2

/-- A producer that is not stopped sends its script, unless it fails right after its
announcement. -/
theorem script_cases :
    ((ofListing listing prepare work d none).fatal ≠ none ∧
      (ofListing listing prepare work d none).sent =
        passedOver listing ++ [announcement listing]) ∨
    ((ofListing listing prepare work d none).fatal = none ∧
      (ofListing listing prepare work d none).sent = script listing prepare work d) := by
  rw [ofListing_none, script]
  rcases prepare d with ⟨message | _, d'⟩
  · exact .inl ⟨Option.some_ne_none message, rfl⟩
  · exact .inr ⟨rfl, rfl⟩

/-- Wherever it is stopped, what it sends is the beginning of its script. -/
theorem sent_prefix_script (room : Option Nat) :
    (ofListing listing prepare work d room).sent <+: script listing prepare work d := by
  have hunbounded :
      (ofListing listing prepare work d none).sent <+: script listing prepare work d := by
    rcases script_cases listing prepare work d with ⟨-, hsent⟩ | ⟨-, hsent⟩
    · -- the announcement of a producer that fails is the last event it sends
      rw [hsent, script, List.append_cons _ _ (worked _ _ _)]
      exact List.prefix_append _ _
    · rw [hsent]
  cases room with
  | none => exact hunbounded
  | some k =>
    -- stopped by a refused event, or not stopped at all
    rcases Nat.lt_or_ge k (ofListing listing prepare work d none).sent.length with hlt | hle
    · rw [(ofListing_of_lt_length listing prepare work d hlt).2]
      exact (List.take_prefix _ _).trans hunbounded
    · rw [ofListing_of_length_le listing prepare work d hle]
      exact hunbounded

variable {name : α → String} (hover : ∀ e ∈ passedOver listing, e.isAside = true)
  (hwork : ∀ d a, (work d a).1.Answers (name a))

include hover hwork

/-- A script has the form if it passes over asides only and every job answers for its entry. -/
theorem form_script :
    Event.Form ((eligible listing).map name) (script listing prepare work d) :=
  ⟨passedOver listing, _, _, rfl, hover, by rw [List.length_map]; rfl,
    answers_worked hwork (eligible listing) (prepare d).2⟩

/-- The asides are what the listing passes over. -/
theorem countP_isAside :
    (ofListing listing prepare work d none).sent.countP Event.isAside =
      (passedOver listing).length := by
  have hanswers := Event.countP_answers (answers_worked hwork (eligible listing) (prepare d).2)
  have hannouncement : (announcement listing).isAside = false := rfl
  rcases script_cases listing prepare work d with ⟨-, hsent⟩ | ⟨-, hsent⟩
  · rw [hsent, List.countP_append, List.countP_singleton, hannouncement,
      List.countP_eq_length.mpr hover]
    rfl
  · rw [hsent, script, List.countP_append, List.countP_cons, hannouncement, hanswers,
      List.countP_eq_length.mpr hover]
    rfl

/-- **The form of a listing**, if it passes over asides only and every job answers for its
entry. -/
theorem keepsForm_ofListing :
    KeepsForm ((eligible listing).map name) (eligible listing) work
      fun work room => ofListing listing prepare work d room where
  begins := ⟨_, form_script listing prepare work d hover hwork,
    sent_prefix_script listing prepare work d⟩
  whole := by
    intro hfatal
    rcases script_cases listing prepare work d with ⟨hfails, -⟩ | ⟨-, hsent⟩
    · exact absurd hfatal hfails
    · rw [hsent]
      exact form_script listing prepare work d hover hwork
  fails := fun _ hfatal => .inr ⟨_, _, sent_of_fatal listing prepare work d hfatal, hover⟩
  refused := fun _ => ofListing_of_lt_length listing prepare work d
  unrefused := fun _ => ofListing_of_length_le listing prepare work d
  idle := by
    intro k work' hsame
    rw [countP_isAside listing prepare work d hover hwork] at hsame
    exact ofListing_congr listing prepare work work' d hsame

end Listing

end Production

/-! ### What a walk meets -/

namespace Node

/-- Sorting looks at the names only. -/
theorem sortEntries_map {α β : Type} (f : Bytes × α → β) (es : List (Bytes × α)) :
    sortEntries (es.map fun e => (e.1, f e)) = (sortEntries es).map fun e => (e.1, f e) :=
  (List.map_mergeSort (f := fun e : Bytes × α => (e.1, f e)) fun _ _ _ _ => rfl).symm

theorem findingsOfEach_eq (t : WalkTroubles) (es : List (Bytes × Node)) :
    findingsOfEach t es = es.map fun e => (e.1, entryFindings t e.1 e.2) := by
  induction es with
  | nil => rfl
  | cons e rest ih => rw [findingsOfEach, ih, List.map_cons]

/-- The findings below a directory: what is lost there, and those of its entries in order. -/
theorem findings_dir (t : WalkTroubles) (es : List (Bytes × Node)) :
    (Node.dir es).findings t =
      (t.lost []).map (fun (name?, fault) => .inl ⟨name?.map ([·]), fault⟩) ++
        (sortEntries es).flatMap fun e => entryFindings t e.1 e.2 := by
  show inWalkOrder t (findingsOfEach t es) = _
  rw [inWalkOrder, findingsOfEach_eq, sortEntries_map, List.flatMap_map]

theorem visibleFiles_dir (es : List (Bytes × Node)) :
    (Node.dir es).visibleFiles = (sortEntries es).flatMap fun e => entryFiles e.1 e.2 := by
  show inNameOrder (filesOfEach es) = _
  rw [inNameOrder, filesOfEach_eq, sortEntries_map, List.flatMap_map]

theorem entryFindings_dir (t : WalkTroubles) (name : Bytes) (es : List (Bytes × Node)) :
    entryFindings t name (.dir es) =
      if isHiddenName name then []
      else
        match t.closed [name] with
        | some fault => [.inl ⟨some [name], fault⟩]
        | none => ((Node.dir es).findings (t.below name)).map (Finding.within name) := rfl

/-- The files among some findings. -/
def filesAmong (findings : List Finding) : List FoundFile := findings.filterMap Sum.getRight?

theorem filesAmong_within (name : Bytes) (findings : List Finding) :
    filesAmong (findings.map (Finding.within name)) = within name (filesAmong findings) := by
  rw [filesAmong, filesAmong, within, List.filterMap_map, List.map_filterMap]
  refine List.filterMap_congr fun finding _ => ?_
  cases finding <;> rfl

theorem filesAmong_lost (lost : List (Option Bytes × Fault)) :
    filesAmong (lost.map fun (name?, fault) => .inl ⟨name?.map ([·]), fault⟩) = [] := by
  rw [filesAmong, List.filterMap_map]
  exact List.filterMap_eq_nil_iff.mpr fun _ _ => rfl

/-- The files met in a directory are those met of its entries, in order. -/
theorem filesAmong_findings (t : WalkTroubles) (es : List (Bytes × Node)) :
    filesAmong ((Node.dir es).findings t) =
      (sortEntries es).flatMap fun e => filesAmong (entryFindings t e.1 e.2) := by
  rw [findings_dir, filesAmong, List.filterMap_append, ← filesAmong, filesAmong_lost,
    List.nil_append, List.filterMap_flatMap]
  rfl

theorem mem_of_mem_sortEntries {es : List (Bytes × Node)} {e : Bytes × Node}
    (h : e ∈ sortEntries es) : e ∈ es :=
  (List.mergeSort_perm es _).mem_iff.mp h

/-- **Troubles** add no files and change no order, as far as that holds of the entries. -/
theorem filesAmong_findings_sublist {es : List (Bytes × Node)} (t : WalkTroubles)
    (h : ∀ e ∈ es, (filesAmong (entryFindings t e.1 e.2)).Sublist (entryFiles e.1 e.2)) :
    (filesAmong ((Node.dir es).findings t)).Sublist (Node.dir es).visibleFiles := by
  rw [filesAmong_findings, visibleFiles_dir]
  exact List.Sublist.flatMap_right _ fun e he => h e (mem_of_mem_sortEntries he)

theorem filesAmong_entryFindings_sublist (n : Node) :
    ∀ (name : Bytes) (t : WalkTroubles),
      (filesAmong (entryFindings t name n)).Sublist (entryFiles name n) := by
  induction n using entrywise with
  | file _ => exact fun _ _ => List.Sublist.refl _
  | link _ => exact fun _ _ => List.Sublist.refl _
  | dir es ih =>
    intro name t
    rw [entryFindings_dir, entryFiles_dir]
    split
    · exact List.Sublist.refl _
    · split
      · -- a closed directory is a fault in the place of all its files
        exact List.nil_sublist _
      · rw [filesAmong_within]
        exact (filesAmong_findings_sublist _ fun e he => ih e he e.1 _).map _

theorem findings_untroubled_of {es : List (Bytes × Node)}
    (h : ∀ e ∈ es, entryFindings {} e.1 e.2 = (entryFiles e.1 e.2).map .inr) :
    (Node.dir es).findings {} = (Node.dir es).visibleFiles.map .inr := by
  rw [findings_dir, visibleFiles_dir, List.map_flatMap]
  exact List.flatMap_congr fun e he => h e (mem_of_mem_sortEntries he)

theorem entryFindings_untroubled (n : Node) :
    ∀ name : Bytes, entryFindings {} name n = (entryFiles name n).map .inr := by
  induction n using entrywise with
  | file _ => exact fun _ => rfl
  | link _ => exact fun _ => rfl
  | dir es ih =>
    intro name
    rw [entryFindings_dir, entryFiles_dir]
    split
    · rfl
    · -- no troubles in a directory, so none in one of its entries
      show ((Node.dir es).findings {}).map (Finding.within name) = _
      rw [findings_untroubled_of fun e he => ih e he e.1, List.map_map, within, List.map_map]
      rfl

/-- Without troubles the walk meets the files, and nothing else. -/
theorem findings_untroubled (n : Node) : n.findings {} = n.visibleFiles.map .inr :=
  findings_untroubled_of fun e _ => entryFindings_untroubled e.2 e.1

/-- The files that the walk meets are among those that it meets without troubles, in the same
order. -/
theorem files_sublist (n : Node) (t : WalkTroubles) :
    (filesAmong (n.findings t)).Sublist n.visibleFiles :=
  filesAmong_findings_sublist t fun e _ =>
    filesAmong_entryFindings_sublist e.2 e.1 t

-- the directory `b` is closed and `.` is hidden, but `c` comes all the same
example :
    (Node.dir [([99], .file [1]), ([98], .dir [([97], .file [])]),
      ([46], .dir [([97], .file [])])]).findings
        { closed := fun place => if place = [[98]] then some .denied else none } =
      [.inl ⟨some [[98]], .denied⟩, .inr ⟨[[99]], [1]⟩] := by
  cbv

end Node

/-! ### Asides and answers -/

/-- A text that is extracted is not blank. -/
theorem TextExtractor.not_blank_of_extract {x : TextExtractor} {d : Disk} {path : Path}
    {extension text : String} (h : x.extract d path extension = .ok text) :
    Text.isBlankText text = false := by
  rw [extract] at h
  split at h
  · split at h
    · cases h
    · rename_i hblank
      cases h
      exact Bool.eq_false_of_not_eq_true hblank
  · cases h

namespace Folder

variable (t : WalkTroubles) (filter : EntryFilter) (extractor : TextExtractor) (root : Path)
  (top : Node) (d : Disk)

/-- The eligible entries that a walk meets, in the order in which it meets them. -/
def entriesMet : List String :=
  ((Node.filesAmong (top.findings t)).map fun f => entryName f.place).filter fun entry =>
    (filter.eligible? entry).isSome

/-- The jobs of a walk are its eligible entries. -/
theorem entry_jobs :
    (Production.eligible (listingDespite t filter root top)).map (·.entry) =
      entriesMet t filter top := by
  rw [Production.eligible, listingDespite, entriesMet, Node.filesAmong, List.filterMap_map,
    List.map_filterMap, List.map_filterMap, List.filter_filterMap]
  refine List.filterMap_congr fun finding _ => ?_
  cases finding with
  | inl f => rfl
  | inr file =>
    rw [Function.comp_apply, classifyFinding]
    cases heligible : filter.eligible? (entryName file.place) with
    | none =>
      rw [classify_of_not_eligible root file heligible]
      simp [Option.filter_some, heligible]
    | some extension =>
      rw [classify_of_eligible root file heligible]
      simp [Option.filter_some, heligible]

/-- Whatever a walk passes over is an aside. -/
theorem asides_listingDespite :
    ∀ e ∈ Production.passedOver (listingDespite t filter root top), e.isAside = true := by
  intro e he
  obtain ⟨finding, -, hfinding⟩ := List.mem_map.mp (Production.mem_passedOver.mp he)
  cases finding with
  | inl f => cases hfinding; rfl
  | inr file =>
    rw [classifyFinding] at hfinding
    cases hclass : classify filter root file with
    | inl e' =>
      rw [hclass] at hfinding
      cases hfinding
      obtain ⟨entry, rfl⟩ := classify_inl hclass
      rfl
    | inr c => rw [hclass] at hfinding; cases hfinding

theorem answers_work (c : Candidate) : (work extractor d c).1.Answers c.entry := by
  show (extract extractor d c).Answers c.entry
  rw [extract]
  split
  · rename_i text htext
    exact ⟨rfl, TextExtractor.not_blank_of_extract htext⟩
  · rfl

/-- Without troubles the walk is the one that runs. -/
theorem walkDespite_untroubled :
    walkDespite {} filter root top d (work extractor) = produce filter extractor root top d := by
  have hlisting : listingDespite {} filter root top =
      top.visibleFiles.map (classify filter root) := by
    rw [listingDespite, Node.findings_untroubled, List.map_map]
    refine List.map_congr_left fun file _ => ?_
    rw [Function.comp_apply, classifyFinding]
    generalize classify filter root file = item
    cases item <;> rfl
  funext room
  simp only [walkDespite, produce, hlisting]
  rfl

/-- A walk keeps to the form. -/
theorem keepsForm :
    Production.KeepsForm (entriesMet t filter top)
      (Production.eligible (listingDespite t filter root top)) (work extractor)
      (walkDespite t filter root top d) := by
  cases hclosed : t.closed [] with
  | some fault =>
    -- the walk fails before it has sent anything
    have hfails : walkDespite t filter root top d = fun _ _ =>
        .failed ("Cannot read folder " ++ root.shown ++ ": " ++
          WalkFault.text root ⟨some [], fault⟩) d := by
      funext work room
      simp only [walkDespite, hclosed]
    rw [hfails]
    exact Production.keepsForm_failed _ _ _ _ _
  | none =>
    have hlists : walkDespite t filter root top d = fun work room =>
        .ofListing (listingDespite t filter root top) (fun d => (.ok (), d)) work d room := by
      funext work room
      simp only [walkDespite, hclosed]
    rw [hlists, ← entry_jobs t filter root top]
    exact Production.keepsForm_ofListing _ _ _ _ (asides_listingDespite t filter root top)
      (answers_work extractor)

/-- A walk fails iff the folder itself cannot be opened. -/
theorem fatal_walkDespite (work : Disk → Candidate → Event × Disk) :
    (walkDespite t filter root top d work none).fatal = none ↔ t.closed [] = none := by
  cases hclosed : t.closed [] with
  | some fault => simp [walkDespite, hclosed, Production.failed]
  | none =>
    have hfatal := Production.fatal_ofListing (listingDespite t filter root top)
      (fun d => (.ok (), d)) work d (Outbox.takes_none _ [])
    simp only [walkDespite, hclosed, hfatal]

end Folder

namespace Archive

variable (t : ArchiveTroubles) (filter : EntryFilter) (extractor : TextExtractor)
  (archive scratch : Path) (d : Disk)

/-- The entries of an archive, none if it cannot be read. -/
def entriesOf : List Zip.Entry :=
  match d.read archive with
  | .ok content => (Zip.read? content).getD []
  | .error _ => []

/-- The eligible entries that are met when an archive is listed, in the order of its directory. -/
def entriesMet (entries : List Zip.Entry) : List String :=
  ((entries.zipIdx.filter fun (e, index) => (t.unlisted index).isNone && !e.isDir).map
    (·.1.name)).filter fun entry => (filter.eligible? entry).isSome

/-- The jobs of an archive are its eligible entries. -/
theorem entry_jobs (entries : List Zip.Entry) :
    (Production.eligible (listingDespite t filter entries)).map (·.entry.name) =
      entriesMet t filter entries := by
  rw [Production.eligible, listingDespite, entriesMet, List.filterMap_filterMap,
    List.map_filterMap, List.filter_map, List.filter_filter, ← List.filterMap_eq_filter,
    List.map_filterMap]
  refine List.filterMap_congr fun item _ => ?_
  obtain ⟨e, index⟩ := item
  dsimp only
  cases hunlisted : t.unlisted index with
  | some reason => simp [hunlisted]
  | none =>
    rw [classify?]
    cases hdir : e.isDir with
    | true => simp [hdir]
    | false => cases heligible : filter.eligible? e.name <;> simp [hunlisted, hdir, heligible]

/-- Whatever an archive passes over is an aside. -/
theorem asides_listingDespite (entries : List Zip.Entry) :
    ∀ e ∈ Production.passedOver (listingDespite t filter entries), e.isAside = true := by
  intro e he
  obtain ⟨⟨entry, index⟩, -, hitem⟩ :=
    List.mem_filterMap.mp (Production.mem_passedOver.mp he)
  dsimp only at hitem
  split at hitem
  · cases hitem; rfl
  · obtain ⟨name, rfl⟩ := classify?_inl hitem
    rfl

theorem answers_unpackDespite (p : Packed) :
    (unpackDespite t extractor scratch d p).1.Answers p.entry.name := by
  rw [unpackDespite]
  split
  · rfl
  · rcases unpack_cases extractor scratch d p with ⟨d', hunpack⟩ | ⟨cause, hunpack⟩
    · rw [hunpack, extractScratch]
      split
      · rename_i htext
        exact ⟨rfl, TextExtractor.not_blank_of_extract htext⟩
      · rfl
    · rw [hunpack]
      rfl

theorem readDespite_untroubled :
    readDespite {} filter archive scratch d (unpackDespite {} extractor scratch) =
      produce filter extractor archive scratch d := rfl

/-- Reading an archive keeps to the form. -/
theorem keepsForm :
    Production.KeepsForm (entriesMet t filter (entriesOf archive d))
      (Production.eligible (listingDespite t filter (entriesOf archive d)))
      (unpackDespite t extractor scratch) (readDespite t filter archive scratch d) := by
  cases hread : d.read archive with
  | error fault =>
    have hfails : readDespite t filter archive scratch d = fun _ _ =>
        .failed ("Cannot open archive " ++ archive.shown ++ ": " ++ fault.text) d := by
      funext work room
      simp only [readDespite, hread]
    rw [hfails]
    exact Production.keepsForm_failed _ _ _ _ _
  | ok content =>
    cases hzip : Zip.read? content with
    | none =>
      have hfails : readDespite t filter archive scratch d = fun _ _ =>
          .failed ("Unreadable archive " ++ archive.shown ++ ": ") d := by
        funext work room
        simp only [readDespite, hread, hzip]
      rw [hfails]
      exact Production.keepsForm_failed _ _ _ _ _
    | some entries =>
      have hlists : readDespite t filter archive scratch d = fun work room =>
          .ofListing (listingDespite t filter entries) (prepare scratch) work d room := by
        funext work room
        simp only [readDespite, hread, hzip]
      have hentries : entriesOf archive d = entries := by
        simp only [entriesOf, hread, hzip, Option.getD_some]
      rw [hlists, hentries, ← entry_jobs t filter entries]
      exact Production.keepsForm_ofListing _ _ _ _ (asides_listingDespite t filter entries)
        (answers_unpackDespite t extractor scratch)

/-- The scratch directory is made, or the disk says why not. -/
theorem prepare_cases :
    ((d.makeDirs scratch).1 = .ok () ∧ ∃ d', prepare scratch d = (.ok (), d')) ∨
      ((d.makeDirs scratch).1 ≠ .ok () ∧
        ∃ message d', prepare scratch d = (.error message, d')) := by
  rw [prepare]
  rcases d.makeDirs scratch with ⟨fault | _, d'⟩
  · exact .inr ⟨nofun, _, d', rfl⟩
  · exact .inl ⟨rfl, d', rfl⟩

/-- Reading an archive fails iff the archive cannot be read or the scratch directory not made. -/
theorem fatal_readDespite (work : Disk → Packed → Event × Disk) :
    (readDespite t filter archive scratch d work none).fatal = none ↔
      (∃ content entries, d.read archive = .ok content ∧ Zip.read? content = some entries) ∧
        (d.makeDirs scratch).1 = .ok () := by
  cases hread : d.read archive with
  | error fault => simp [readDespite, hread, Production.failed]
  | ok content =>
    cases hzip : Zip.read? content with
    | none => simp [readDespite, hread, hzip, Production.failed]
    | some entries =>
      have hfatal := Production.fatal_ofListing (listingDespite t filter entries)
        (prepare scratch) work d (Outbox.takes_none _ [])
      simp only [readDespite, hread, hzip, hfatal]
      rcases prepare_cases scratch d with ⟨hdirs, d', hprepare⟩ | ⟨hdirs, message, d', hprepare⟩
      · simp [hprepare, hdirs, hzip]
      · simp [hprepare, hdirs]

end Archive

/-! ### Both producers -/

/-- **What producers send.**  Whatever cannot be read of a folder or an archive, and whatever the
extractor makes of their entries, both keep to the form: asides, the announcement, and one answer
for each eligible entry in the order in which the walk or the directory of the archive has them.
A walk fails iff the folder itself cannot be opened, and an archive iff it cannot be read or
its scratch directory cannot be made.  Without troubles both are the producers that run. -/
theorem producers_keep_form (filter : EntryFilter) (extractor : TextExtractor) (d : Disk) :
    (∀ (t : WalkTroubles) (root : Path) (top : Node),
      let walk := Folder.walkDespite t filter root top d
      Production.KeepsForm (Folder.entriesMet t filter top)
        (Production.eligible (Folder.listingDespite t filter root top)) (Folder.work extractor)
        walk ∧
      ((walk (Folder.work extractor) none).fatal = none ↔ t.closed [] = none)) ∧
    (∀ (t : ArchiveTroubles) (archive scratch : Path),
      let entries := Archive.entriesOf archive d
      let read := Archive.readDespite t filter archive scratch d
      Production.KeepsForm (Archive.entriesMet t filter entries)
        (Production.eligible (Archive.listingDespite t filter entries))
        (Archive.unpackDespite t extractor scratch) read ∧
      ((read (Archive.unpackDespite t extractor scratch) none).fatal = none ↔
        (∃ content listed, d.read archive = .ok content ∧ Zip.read? content = some listed) ∧
          (d.makeDirs scratch).1 = .ok ())) ∧
    (∀ (root : Path) (top : Node), Folder.walkDespite {} filter root top d (Folder.work extractor) =
      Folder.produce filter extractor root top d) ∧
    (∀ archive scratch : Path,
      Archive.readDespite {} filter archive scratch d (Archive.unpackDespite {} extractor scratch) =
        Archive.produce filter extractor archive scratch d) := by
  refine ⟨fun t root top => ⟨?_, ?_⟩, fun t archive scratch => ⟨?_, ?_⟩, fun root top => ?_,
    fun archive scratch => ?_⟩
  · exact Folder.keepsForm t filter extractor root top d
  · exact Folder.fatal_walkDespite t filter root top d (Folder.work extractor)
  · exact Archive.keepsForm t filter extractor archive scratch d
  · exact Archive.fatal_readDespite t filter archive scratch d _
  · exact Folder.walkDespite_untroubled filter extractor root top d
  · exact Archive.readDespite_untroubled filter extractor archive scratch d

end Corpus
