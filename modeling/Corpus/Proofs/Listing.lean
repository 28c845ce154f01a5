/-
Corpus/Proofs/Listing.lean

What the walk of a folder finds.

In a tree whose directories list every name once, the walk finds the files that stand below no
hidden directory, each of them once:

    a file at p is found  iff  the tree has that file at p, and no directory on p is hidden

(`Node.mem_visibleFiles`, `Node.nodup_visibleFiles`).  Neither the order in which a directory
lists its entries nor the order in which the walk takes them up matters for that.
-/
import Corpus.Proofs.Places
import Corpus.Source.Folder
import Mathlib

namespace Corpus.Node

/-! ### Trees that list every name once -/

/-- No directory of the tree lists a name twice. -/
def Distinct (n : Node) : Prop :=
  ∀ place es, n.at? place = some (.dir es) → (es.map (·.1)).Nodup

/-- Looking a name up finds the entry of that name. -/
theorem lookup_eq_some_iff {es : List (Bytes × Node)} (h : (es.map (·.1)).Nodup) {name : Bytes}
    {c : Node} : es.lookup name = some c ↔ (name, c) ∈ es := by
  induction es with
  | nil => simp
  | cons e rest ih =>
    obtain ⟨other, n⟩ := e
    obtain ⟨hfirst, hrest⟩ := List.nodup_cons.mp h
    rw [List.lookup_cons]
    by_cases hname : name = other
    · subst hname
      have hnone : (name, c) ∉ rest := fun hmem => hfirst (List.mem_map.mpr ⟨_, hmem, rfl⟩)
      simp [hnone, eq_comm]
    · have hother : (name == other) = false := by simpa using hname
      simp only [hother, ih hrest, List.mem_cons, Prod.mk.injEq, hname, false_and, false_or]

variable {es : List (Bytes × Node)} {name : Bytes} {c : Node}

/-- What is true of all names in a tree is true of those on the way to a node. -/
theorem forall_name_of_at? {P : Bytes → Prop} {place : Place} : ∀ {n c : Node},
    (∀ above es, n.at? above = some (.dir es) → ∀ e ∈ es, P e.1) → n.at? place = some c →
      ∀ name ∈ place, P name := by
  induction place with
  | nil => exact fun _ _ => nofun
  | cons name rest ih =>
    intro n c h hat
    cases n with
    | dir es =>
      rw [at?_dir_cons, Option.bind_eq_some_iff] at hat
      obtain ⟨sub, hsub, hbelow⟩ := hat
      refine List.forall_mem_cons.mpr ⟨h [] es rfl _ (mem_of_lookup hsub), ih ?_ hbelow⟩
      intro above entries habove
      exact h (name :: above) entries (by rw [at?_dir_cons, hsub, Option.bind_some, habove])
    | file _ | link _ => cases hat

theorem Distinct.lookup_iff (h : (Node.dir es).Distinct) :
    es.lookup name = some c ↔ (name, c) ∈ es :=
  lookup_eq_some_iff (h [] es rfl)

/-- What stands below a directory stands below one of its entries. -/
theorem Distinct.at?_cons_iff (h : (Node.dir es).Distinct) {below : Place} {n : Node} :
    (Node.dir es).at? (name :: below) = some n ↔ ∃ c, (name, c) ∈ es ∧ c.at? below = some n := by
  rw [at?_dir_cons, Option.bind_eq_some_iff]
  exact exists_congr fun c => and_congr_left fun _ => h.lookup_iff

theorem Distinct.child (h : (Node.dir es).Distinct) (hmem : (name, c) ∈ es) : c.Distinct :=
  fun place entries hat => h (name :: place) entries (h.at?_cons_iff.mpr ⟨c, hmem, hat⟩)

mutual

/-- Induction over a tree: a directory is reached from its entries. -/
@[elab_as_elim]
theorem entrywise {motive : Node → Prop} (file : ∀ content, motive (.file content))
    (link : ∀ target, motive (.link target))
    (dir : ∀ es, (∀ e ∈ es, motive e.2) → motive (.dir es)) : ∀ n, motive n
  | .file content => file content
  | .link target => link target
  | .dir es => dir es (entrywise_each file link dir es)

theorem entrywise_each {motive : Node → Prop} (file : ∀ content, motive (.file content))
    (link : ∀ target, motive (.link target))
    (dir : ∀ es, (∀ e ∈ es, motive e.2) → motive (.dir es)) :
    ∀ es : List (Bytes × Node), ∀ e ∈ es, motive e.2
  | [], _, he => nomatch he
  | (_, n) :: rest, e, he => by
    rcases List.mem_cons.mp he with rfl | he
    · exact entrywise file link dir n
    · exact entrywise_each file link dir rest e he

end

/-! ### The files that are found -/

/-- Nothing is lost or added when listings are put in order. -/
theorem inNameOrder_perm (listings : List (Bytes × List FoundFile)) :
    (inNameOrder listings).Perm (listings.flatMap (·.2)) :=
  (List.mergeSort_perm listings _).flatMap_right _

theorem filesOfEach_eq (es : List (Bytes × Node)) :
    filesOfEach es = es.map fun e => (e.1, entryFiles e.1 e.2) := by
  induction es with
  | nil => rfl
  | cons e rest ih => rw [filesOfEach, ih, List.map_cons]

/-- The files below a directory are those of its entries. -/
theorem visibleFiles_perm (es : List (Bytes × Node)) :
    (Node.dir es).visibleFiles.Perm (es.flatMap fun e => entryFiles e.1 e.2) := by
  have hperm := inNameOrder_perm (filesOfEach es)
  have hfiles : (filesOfEach es).flatMap (·.2) = es.flatMap fun e => entryFiles e.1 e.2 := by
    rw [filesOfEach_eq, List.flatMap_map]
  exact hfiles ▸ hperm

theorem entryFiles_dir (name : Bytes) (es : List (Bytes × Node)) :
    entryFiles name (.dir es) =
      if isHiddenName name then [] else within name (Node.dir es).visibleFiles := rfl

/-- The place of a file begins with the name of its entry. -/
theorem place_of_mem_entryFiles {n : Node} {f : FoundFile} (h : f ∈ entryFiles name n) :
    ∃ below, f.place = name :: below := by
  cases n with
  | file content =>
    rw [entryFiles, List.mem_singleton] at h
    exact ⟨[], by rw [h]⟩
  | dir es =>
    rw [entryFiles_dir] at h
    split at h
    · cases h
    · obtain ⟨g, -, rfl⟩ := List.mem_map.mp h
      exact ⟨g.place, rfl⟩
  | link target =>
    rw [entryFiles] at h
    cases h

theorem place_ne_nil {f : FoundFile} (h : f ∈ (Node.dir es).visibleFiles) : f.place ≠ [] := by
  obtain ⟨e, -, he⟩ := List.mem_flatMap.mp ((visibleFiles_perm es).mem_iff.mp h)
  obtain ⟨below, hplace⟩ := place_of_mem_entryFiles he
  rw [hplace]
  exact List.cons_ne_nil _ _

theorem mem_within {files : List FoundFile} {place : Place} {content : Bytes} :
    ⟨name :: place, content⟩ ∈ within name files ↔ ⟨place, content⟩ ∈ files := by
  refine ⟨fun h => ?_, fun h => List.mem_map.mpr ⟨_, h, rfl⟩⟩
  obtain ⟨⟨place', content'⟩, hmem, heq⟩ := List.mem_map.mp h
  simp only [FoundFile.mk.injEq, List.cons.injEq, true_and] at heq
  rw [← heq.1, ← heq.2]
  exact hmem

/-- The files of a directory whose places begin with a name are those of the entries of that
name. -/
theorem mem_visibleFiles_cons {below : Place} {content : Bytes} :
    ⟨name :: below, content⟩ ∈ (Node.dir es).visibleFiles ↔
      ∃ c, (name, c) ∈ es ∧ ⟨name :: below, content⟩ ∈ entryFiles name c := by
  rw [(visibleFiles_perm es).mem_iff, List.mem_flatMap]
  constructor
  · rintro ⟨⟨other, c⟩, hmem, hfile⟩
    obtain ⟨_, hplace⟩ := place_of_mem_entryFiles hfile
    obtain ⟨rfl, -⟩ := List.cons.inj hplace
    exact ⟨c, hmem, hfile⟩
  · rintro ⟨c, hmem, hfile⟩
    exact ⟨(name, c), hmem, hfile⟩

/-- No directory on the way to the file is hidden. -/
def InSight (place : Place) : Prop := ∀ dir ∈ place.dropLast, isHiddenName dir = false

theorem inSight_cons {next : Bytes} {place : Place} :
    InSight (name :: next :: place) ↔ isHiddenName name = false ∧ InSight (next :: place) := by
  rw [InSight, InSight, List.dropLast_cons_of_ne_nil (List.cons_ne_nil _ _), List.forall_mem_cons]

/-- The files of an entry stand where the entry has them. -/
theorem mem_entryFiles (below : Place) :
    ∀ {name : Bytes} {n : Node} {content : Bytes}, n.Distinct →
      (⟨name :: below, content⟩ ∈ entryFiles name n ↔
        n.at? below = some (.file content) ∧ InSight (name :: below)) := by
  -- on the place: each of its names is one directory that the walk enters
  induction below with
  | nil =>
    intro name n content _
    have hsight : InSight [name] := nofun
    cases n with
    | file text => simp [entryFiles, at?, hsight, eq_comm]
    | link target => simp [entryFiles, at?]
    | dir es =>
      rw [entryFiles_dir, at?]
      refine ⟨fun hmem => ?_, fun h => by simp at h⟩
      split at hmem
      · cases hmem
      · exact absurd rfl (place_ne_nil (mem_within.mp hmem))
  | cons next below ih =>
    intro name n content hdistinct
    cases n with
    | file text => simp [entryFiles, at?, child?, entries]
    | link target => simp [entryFiles, at?, child?, entries]
    | dir es =>
      rw [entryFiles_dir, inSight_cons]
      cases isHiddenName name with
      | true => simp
      | false =>
        rw [if_neg Bool.false_ne_true, mem_within, mem_visibleFiles_cons,
          hdistinct.at?_cons_iff]
        constructor
        · rintro ⟨c, hmem, hfile⟩
          obtain ⟨hat, hsight⟩ := (ih (hdistinct.child hmem)).mp hfile
          exact ⟨⟨c, hmem, hat⟩, rfl, hsight⟩
        · rintro ⟨⟨c, hmem, hat⟩, -, hsight⟩
          exact ⟨c, hmem, (ih (hdistinct.child hmem)).mpr ⟨hat, hsight⟩⟩

/-- **The files that are found** are those of the tree in no hidden directory. -/
theorem mem_visibleFiles (h : (Node.dir es).Distinct) {f : FoundFile} :
    f ∈ (Node.dir es).visibleFiles ↔
      (Node.dir es).at? f.place = some (.file f.content) ∧ InSight f.place := by
  obtain ⟨place, content⟩ := f
  cases place with
  | nil => exact ⟨fun hmem => absurd rfl (place_ne_nil hmem), fun ⟨hat, _⟩ => by simp [at?] at hat⟩
  | cons name below =>
    rw [mem_visibleFiles_cons, h.at?_cons_iff]
    constructor
    · rintro ⟨c, hmem, hfile⟩
      obtain ⟨hat, hsight⟩ := (mem_entryFiles below (h.child hmem)).mp hfile
      exact ⟨⟨c, hmem, hat⟩, hsight⟩
    · rintro ⟨⟨c, hmem, hat⟩, hsight⟩
      exact ⟨c, hmem, (mem_entryFiles below (h.child hmem)).mpr ⟨hat, hsight⟩⟩

/-! ### Each file once -/

/-- Files of different entries stand at different places. -/
theorem nodup_flatMap_entryFiles (h : (es.map (·.1)).Nodup)
    (heach : ∀ e ∈ es, ((entryFiles e.1 e.2).map (·.place)).Nodup) :
    ((es.flatMap fun e => entryFiles e.1 e.2).map (·.place)).Nodup := by
  rw [List.map_flatMap, List.nodup_flatMap]
  refine ⟨heach, (List.pairwise_map.mp h).imp fun hne => ?_⟩
  intro place hfirst hsecond
  obtain ⟨f, hf, rfl⟩ := List.mem_map.mp hfirst
  obtain ⟨g, hg, hplace⟩ := List.mem_map.mp hsecond
  obtain ⟨_, hbegins⟩ := place_of_mem_entryFiles hf
  obtain ⟨_, hbegins'⟩ := place_of_mem_entryFiles hg
  rw [hplace, hbegins] at hbegins'
  exact hne (List.cons.inj hbegins').1

mutual

/-- An entry has no place twice. -/
theorem nodup_entryFiles (name : Bytes) :
    ∀ n : Node, n.Distinct → ((entryFiles name n).map (·.place)).Nodup
  | .file content, _ => List.nodup_singleton [name]
  | .dir es, h => by
    rw [entryFiles_dir]
    split
    · exact List.nodup_nil
    · -- the places below stay different when the name of the directory is put before each
      have hbelow : ((Node.dir es).visibleFiles.map (·.place)).Nodup :=
        ((visibleFiles_perm es).map _).nodup_iff.mpr
          (nodup_flatMap_entryFiles (h [] es rfl)
            (nodup_entryFiles_each es fun e he => h.child he))
      rw [within, List.map_map]
      have hmap : ((·.place) ∘ fun f : FoundFile => { f with place := name :: f.place }) =
          (name :: ·) ∘ (·.place) := rfl
      rw [hmap, ← List.map_map]
      exact hbelow.map fun _ _ heq => (List.cons.inj heq).2
  | .link _, _ => List.nodup_nil

/-- So none of some entries has. -/
theorem nodup_entryFiles_each :
    ∀ es : List (Bytes × Node), (∀ e ∈ es, e.2.Distinct) →
      ∀ e ∈ es, ((entryFiles e.1 e.2).map (·.place)).Nodup
  | [], _ => nofun
  | (name, n) :: rest, h => by
    intro e he
    rcases List.mem_cons.mp he with rfl | he
    · exact nodup_entryFiles name n (h (name, n) List.mem_cons_self)
    · exact nodup_entryFiles_each rest (fun e he => h e (List.mem_cons_of_mem _ he)) e he

end

/-- **No place is found twice.** -/
theorem nodup_visibleFiles (h : (Node.dir es).Distinct) :
    ((Node.dir es).visibleFiles.map (·.place)).Nodup :=
  ((visibleFiles_perm es).map _).nodup_iff.mpr
    (nodup_flatMap_entryFiles (h [] es rfl) (nodup_entryFiles_each es fun _ he => h.child he))

end Corpus.Node
