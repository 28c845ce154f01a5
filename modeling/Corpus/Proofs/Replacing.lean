/-
Corpus/Proofs/Replacing.lean

What a failed adoption leaves of the thumbnails that were there.

Adoption removes what stands in the place of the document before it moves the staged directory
there.  Until then it does nothing but make directories, and a failure so early leaves all that was
there.  From then on nothing is left of it:

    adoption  =  removal of the old thumbnails, then `Thumbnails.shelve`

and a failure of the second part cannot bring them back (`Thumbnails.failed_adoption_keeps`).
-/
import Corpus.Proofs.Merging

namespace Corpus

namespace Disk

variable {d d' : Disk} {p : Path}

/-- More directories do not hide what a directory lists, and leave all that is below it. -/
theorem Grows.list (h : d.Grows d') {held : List (Bytes × Node)} (hlist : d.list p = .ok held) :
    ∃ now, d'.list p = .ok now ∧ ∀ place n, (Node.dir held).look place = some n →
      (Node.dir now).look place = some n := by
  obtain ⟨origin, hfind⟩ := find_of_list hlist
  have hsame : ∀ q, d.root.look q ≠ none → d'.root.look q = d.root.look q := fun q hq =>
    (h.look q).resolve_right fun hmade => hq hmade.1
  obtain ⟨now, hnow⟩ := find_dir_congr h.workingDir
    (fun q hq => hsame q (look_ne_none_of_mem_trail hfind q hq)) hfind
  refine ⟨now, ?_, fun place n hn => ?_⟩
  · rw [Disk.list, node?, hnow]
    rfl
  · have hwhole : ∀ {d : Disk} {es}, d.root.at? origin = some (.dir es) →
        d.root.look (origin ++ place) = (Node.dir es).look place := by
      intro d es hat
      rw [Node.look, Node.look, Node.at?_append, hat]
      rfl
    have hlook := hsame (origin ++ place) (by rw [hwhole (at?_of_find hfind), hn]; simp)
    rwa [hwhole (at?_of_find hfind), hwhole (at?_of_find hnow), hn] at hlook

/-- A path that leads to something leads to something when a link at its end is not followed, and
to no file if it led to none. -/
theorem find_unfollowed {origin : Place} {m : Node} (h : d.find true p = .ok (origin, m)) :
    ∃ place n, d.find false p = .ok (place, n) ∧ (m.isFile = false → n.isFile = false) := by
  obtain ⟨hzero, hempty, hshort, hwalk⟩ := walk_of_resolve (find_eq_ok.mp h)
  obtain ⟨place, n, hwalk', hnot⟩ := walk_unfollowed hwalk
  exact ⟨place, n, find_eq_ok.mpr ((resolve_eq_walk hzero hempty hshort).trans hwalk'), hnot⟩

end Disk

namespace Thumbnails

open Disk

variable {t : Thumbnails} {d d' : Disk} {staging target : Path} {id : String}

/-! ### The two parts of an adoption -/

/-- The second part of an adoption: the staged directory is moved to the place of the document, its
files get their names, and what is there is described. -/
def shelve (t : Thumbnails) (d : Disk) (staging : Path) (id : String) :
    Except AdoptError ImageMetadata × Disk :=
  match moveDir d staging (t.target id) with
  | (.error e, d) => (.error (.io e), d)
  | (.ok (), d) =>
    match d.list (t.target id) with
    | .error e => (.error (.io e), d)
    | .ok entries =>
      match renameEntries (t.target id) id (entries.map (·.1)) d with
      | (.error e, d) => (.error (.io e), d)
      | (.ok (), d) => (t.describe d (t.target id) id, d)

theorem adopt_eq_shelve {made cleared : Disk} (hdir : d.isDir staging = true)
    (hmake : d.makeDirs t.root = (.ok (), made)) (hclear : clear made (t.target id) = .ok cleared) :
    t.adopt d staging id = t.shelve cleared staging id := by
  rw [adopt, hdir, hmake, show t.root.join (.ofText id) = t.target id from rfl]
  simp only [Bool.not_true, Bool.false_eq_true, if_false, hclear]
  rfl

theorem adopt_of_unmade {made : Disk} {fault : Fault} (hdir : d.isDir staging = true)
    (hmake : d.makeDirs t.root = (.error fault, made)) :
    t.adopt d staging id = (.error (.io fault), made) := by
  rw [adopt, hdir, hmake]
  rfl

/-- Where nothing is staged nothing is changed. -/
theorem adopt_of_unstaged (hdir : d.isDir staging = false) : (t.adopt d staging id).2 = d := by
  rw [adopt, hdir, Bool.not_false, if_pos rfl]
  split <;> rfl

/-- **Clearing** takes away a directory that can be listed, and then nothing is found there. -/
theorem clear_of_list {held : List (Bytes × Node)} (hlist : d.list target = .ok held) :
    ∃ place n, d.find false target = .ok (place, n) ∧ n.isFile = false ∧
      clear d target = .ok (d.erase place) ∧
      (place ≠ [] → (d.erase place).exists? target = false) := by
  obtain ⟨origin, hfind⟩ := find_of_list hlist
  obtain ⟨place, n, hold, hnot⟩ := find_unfollowed hfind
  refine ⟨place, n, hold, hnot rfl, ?_, fun hplace => ?_⟩
  · have hthere : d.exists? target = true := by
      rw [exists?, node?, hfind]
      rfl
    rw [clear, hthere, if_pos rfl, removeDir, hold]
    cases n with
    | file _ => cases hnot rfl
    | dir _ | link _ => rfl
  · rw [exists?, node?]
    cases hfound : (d.erase place).find true target with
    | error fault => rfl
    | ok found =>
      -- whoever finds anything there would have to meet what was taken away
      obtain ⟨place', n', hagain, -⟩ := find_unfollowed hfound
      obtain ⟨-, haway⟩ := (Spares.erase d place).away_of_find
        (List.forall_mem_singleton.mpr (d.root.at?_erase_self hplace)) hagain
      exact absurd (List.prefix_refl place)
        (haway place (mem_trail_of_find hold) place List.mem_cons_self)

/-! ### Failures -/

/-- The adoption fails before it comes to remove what was there: there is no directory to be
adopted, or the directory of all thumbnails cannot be made. -/
def StopsEarly (t : Thumbnails) (d : Disk) (staging : Path) : Prop :=
  d.isDir staging = false ∨ ∃ e, (d.makeDirs t.root).1 = .error e

/-- **A failed adoption** leaves the thumbnails that were there if it fails early, and all else if
no directory was staged.  Any other failure is one of the second part, on a disk from which the old
thumbnails were removed; nothing is found in their place then. -/
theorem failed_adoption_keeps {held : List (Bytes × Node)} {e : AdoptError}
    (hheld : d.list (t.target id) = .ok held) (h : t.adopt d staging id = (.error e, d')) :
    (t.StopsEarly d staging → ∃ now, d'.list (t.target id) = .ok now ∧
        ∀ place n, (Node.dir held).look place = some n → (Node.dir now).look place = some n) ∧
      (d.isDir staging = false → d' = d) ∧
      (¬ t.StopsEarly d staging → ∃ made place n, d.makeDirs t.root = (.ok (), made) ∧
        made.find false (t.target id) = .ok (place, n) ∧
        clear made (t.target id) = .ok (made.erase place) ∧
        (place ≠ [] → (made.erase place).exists? (t.target id) = false) ∧
        t.shelve (made.erase place) staging id = (.error e, d')) := by
  have hunstaged : d.isDir staging = false → d' = d := by
    intro hnone
    have hsame : (t.adopt d staging id).2 = d := adopt_of_unstaged hnone
    rwa [h] at hsame
  refine ⟨fun hearly => ?_, hunstaged, fun hlate => ?_⟩
  · have hgrows : d.Grows d' := by
      rcases hearly with hnone | ⟨fault, hfault⟩
      · rw [hunstaged hnone]
        exact .refl d
      · cases hdir : d.isDir staging with
        | false =>
          rw [hunstaged hdir]
          exact .refl d
        | true =>
          -- what was made before the fault are directories
          have hmake : d.makeDirs t.root = (.error fault, (d.makeDirs t.root).2) :=
            Prod.ext hfault rfl
          rw [adopt_of_unmade hdir hmake] at h
          obtain rfl : (d.makeDirs t.root).2 = d' := congrArg Prod.snd h
          exact grows_makeDirs d t.root
    exact hgrows.list hheld
  · rw [StopsEarly, not_or, Bool.not_eq_false] at hlate
    obtain ⟨hdir, hmade⟩ := hlate
    rcases hmake : d.makeDirs t.root with ⟨result, made⟩
    cases result with
    | error fault => exact absurd ⟨fault, by rw [hmake]⟩ hmade
    | ok _ =>
      have hgrows := grows_makeDirs d t.root
      rw [hmake] at hgrows
      obtain ⟨now, hnow, -⟩ := hgrows.list hheld
      obtain ⟨place, n, hold, -, hclear, hgone⟩ := clear_of_list hnow
      exact ⟨made, place, n, rfl, hold, hclear, hgone,
        (adopt_eq_shelve hdir hmake hclear).symm.trans h⟩

end Thumbnails

/-! ### Thumbnails that are replaced by too few -/

namespace Sample

/-- A small thumbnail without a large one. -/
def smallAlone (name : String) : List (Bytes × Node) :=
  [(Text.encode (name ++ "_thumb_0_small.jpg"), .file [])]

/-- Two directories are staged for a document that has no thumbnails. -/
def queued : Disk :=
  walls [] [(Text.encode "1", .dir (pictures "x")), (Text.encode "2", .dir (smallAlone "y"))]

/-- The first one was adopted. -/
def furnished : Disk :=
  walls [(Text.encode "d", .dir (pictures "d"))] [(Text.encode "2", .dir (smallAlone "y"))]

/-- The second one was moved to its place. -/
def stripped : Disk := walls [(Text.encode "d", .dir (smallAlone "d"))] []

theorem list_furnished : furnished.list (gallery.target "d") = .ok (pictures "d") := by cbv

theorem list_stripped : stripped.list (gallery.target "d") = .ok (smallAlone "d") := by cbv

theorem adopt_queued :
    gallery.adopt queued (.ofText "/s/1") "d" = (.ok shown, furnished) := by
  have hstaged : queued.isDir (.ofText "/s/1") = true := by cbv
  have hmade : queued.makeDirs gallery.root = (.ok (), queued) := by cbv
  have hcleared : Thumbnails.clear queued (gallery.target "d") = .ok queued := by cbv
  have hmoved : Thumbnails.moveDir queued (.ofText "/s/1") (gallery.target "d") =
      (.ok (), walls [(Text.encode "d", .dir (pictures "x"))]
        [(Text.encode "2", .dir (smallAlone "y"))]) := by cbv
  have hlisted : (walls [(Text.encode "d", .dir (pictures "x"))]
      [(Text.encode "2", .dir (smallAlone "y"))]).list (gallery.target "d") =
        .ok (pictures "x") := by cbv
  have hrenamed : Thumbnails.renameEntries (gallery.target "d") "d" ((pictures "x").map (·.1))
      (walls [(Text.encode "d", .dir (pictures "x"))] [(Text.encode "2", .dir (smallAlone "y"))]) =
        (.ok (), furnished) := by cbv
  rw [Thumbnails.adopt_of_steps hstaged hmade hcleared hmoved hlisted hrenamed,
    describe_pictures list_furnished]

theorem describe_stripped :
    gallery.describe stripped (gallery.target "d") "d" = .error (.noThumbnails "d") := by
  have hnames : ((smallAlone "d").map fun e => Text.decodeLossy e.1) =
      ["d_thumb_0_small.jpg"] := by cbv
  have hthumbnails : ["d_thumb_0_small.jpg"].filter (Thumbnails.isThumbnail "d") =
      ["d_thumb_0_small.jpg"] := by decide +kernel
  rw [Thumbnails.describe_of_list list_stripped, hnames, Thumbnails.describeNames, hthumbnails,
    List.mergeSort_singleton]
  decide +kernel

theorem adopt_furnished :
    gallery.adopt furnished (.ofText "/s/2") "d" = (.error (.noThumbnails "d"), stripped) := by
  have hstaged : furnished.isDir (.ofText "/s/2") = true := by cbv
  have hmade : furnished.makeDirs gallery.root = (.ok (), furnished) := by cbv
  have hcleared : Thumbnails.clear furnished (gallery.target "d") =
      .ok (walls [] [(Text.encode "2", .dir (smallAlone "y"))]) := by cbv
  have hmoved : Thumbnails.moveDir (walls [] [(Text.encode "2", .dir (smallAlone "y"))])
      (.ofText "/s/2") (gallery.target "d") =
        (.ok (), walls [(Text.encode "d", .dir (smallAlone "y"))] []) := by cbv
  have hlisted : (walls [(Text.encode "d", .dir (smallAlone "y"))] []).list (gallery.target "d") =
      .ok (smallAlone "y") := by cbv
  have hrenamed : Thumbnails.renameEntries (gallery.target "d") "d" ((smallAlone "y").map (·.1))
      (walls [(Text.encode "d", .dir (smallAlone "y"))] []) = (.ok (), stripped) := by cbv
  rw [Thumbnails.adopt_of_steps hstaged hmade hcleared hmoved hlisted hrenamed, describe_stripped]

end Sample

/-- An adoption that ends without a large thumbnail has lost the one that was there. -/
theorem failed_adoption_loses_thumbnails :
    ¬ ∀ (t : Thumbnails) (d₀ d d' : Disk) (staging₀ staging : Path) (id : String)
      (m : ImageMetadata) (e : AdoptError) (held : List (Bytes × Node)),
      t.adopt d₀ staging₀ id = (.ok m, d) → d.list (t.target id) = .ok held →
      t.adopt d staging id = (.error e, d') →
        ∃ now, d'.list (t.target id) = .ok now ∧ held.map (·.1) ⊆ now.map (·.1) := by
  intro hkeeps
  obtain ⟨now, hnow, hsub⟩ := hkeeps _ _ _ _ _ _ _ _ _ _ Sample.adopt_queued
    Sample.list_furnished Sample.adopt_furnished
  obtain rfl : Sample.smallAlone "d" = now := Except.ok.inj (Sample.list_stripped.symm.trans hnow)
  exact absurd (hsub (List.mem_cons_self ..)) (by decide)

/-- The failure without a large thumbnail comes late, from a disk without the old thumbnails. -/
theorem failed_adoption_keeps_unless_stripped :
    ¬ Sample.gallery.StopsEarly Sample.furnished (.ofText "/s/2") ∧
      ∃ made place n, Sample.furnished.makeDirs Sample.gallery.root = (.ok (), made) ∧
        made.find false (Sample.gallery.target "d") = .ok (place, n) ∧
        Thumbnails.clear made (Sample.gallery.target "d") = .ok (made.erase place) ∧
        (place ≠ [] → (made.erase place).exists? (Sample.gallery.target "d") = false) ∧
        Sample.gallery.shelve (made.erase place) (.ofText "/s/2") "d" =
          (.error (.noThumbnails "d"), Sample.stripped) := by
  have hlate : ¬ Sample.gallery.StopsEarly Sample.furnished (.ofText "/s/2") := by
    have hstaged : Sample.furnished.isDir (.ofText "/s/2") = true := by cbv
    have hmade : Sample.furnished.makeDirs Sample.gallery.root = (.ok (), Sample.furnished) := by
      cbv
    rintro (hnone | ⟨fault, hfault⟩)
    · cases hstaged.symm.trans hnone
    · rw [hmade] at hfault
      cases hfault
  exact ⟨hlate, (Thumbnails.failed_adoption_keeps Sample.list_furnished
    Sample.adopt_furnished).2.2 hlate⟩

end Corpus
