/-
Corpus/Proofs/Indexing.lean

Indexes behind engines.  An engine keeps an index if each of its calls either leaves the
index alone or has the effect that it is made for, and a batch whose commit is reported to
have succeeded was really added.  What an engine answers is otherwise open: a call may be
refused after it was carried out, and a task may fail or never end.

An object is full if it holds a document, and bare if an update made it from nothing but
image fields.  A client is shown the image fields in force, whatever the document said of its
images when it was added.
-/
import Corpus.Engine.Memory
import Corpus.Ingest.Writer

namespace Corpus

namespace Index

/-! ### Objects and their identifiers -/

/-- The identifiers of the objects. -/
def ids (x : Index) : List String := x.objects.map (·.id)

/-- Every object holds a document. -/
def IsFull (x : Index) : Prop := ∀ o ∈ x.objects, o.document.isSome

theorem mem_put {x : Index} {s o : Stored} (h : o ∈ (x.put s).objects) :
    o = s ∨ o ∈ x.objects := by
  unfold put at h
  split at h
  · obtain ⟨a, ha, rfl⟩ := List.mem_map.1 h
    split
    · exact .inl rfl
    · exact .inr ha
  · rcases List.mem_append.1 h with h | h
    · exact .inr h
    · exact .inl (List.mem_singleton.1 h)

theorem mem_ids_put {x : Index} {s : Stored} {id : String} :
    id ∈ (x.put s).ids ↔ id = s.id ∨ id ∈ x.ids := by
  unfold put ids
  split
  case isTrue h =>
    -- the identifiers stay what they are, and that of `s` is one of them
    have hmap : (x.objects.map fun o => if o.id == s.id then s else o).map (·.id) =
        x.objects.map (·.id) := by
      rw [List.map_map]
      refine List.map_congr_left fun o _ => ?_
      by_cases ho : o.id = s.id <;> simp [ho]
    obtain ⟨o, ho, hid⟩ := List.any_eq_true.1 h
    have hs : s.id ∈ x.objects.map (·.id) := List.mem_map.2 ⟨o, ho, by simpa using hid⟩
    rw [hmap]
    exact ⟨.inr, fun h => h.elim (fun e => e ▸ hs) fun h => h⟩
  case isFalse h =>
    rw [List.map_append, List.mem_append, List.map_singleton, List.mem_singleton, or_comm]

theorem get?_isSome_iff {x : Index} {id : String} : (x.get? id).isSome ↔ id ∈ x.ids := by
  simp [get?, ids]

/-! ### Adding and updating -/

theorem isFull_add {x : Index} (h : x.IsFull) (d : Document) : (x.add d).IsFull := by
  intro o ho
  rcases mem_put ho with rfl | ho
  · rfl
  · exact h o ho

theorem isFull_addAll {x : Index} (h : x.IsFull) (ds : List Document) :
    (x.addAll ds).IsFull := by
  induction ds generalizing x with
  | nil => exact h
  | cons d ds ih => exact ih (isFull_add h d)

theorem mem_ids_addAll {x : Index} {ds : List Document} {id : String} :
    id ∈ (x.addAll ds).ids ↔ id ∈ ds.map (·.id) ∨ id ∈ x.ids := by
  induction ds generalizing x with
  | nil => simp [addAll]
  | cons d ds ih =>
    rw [show x.addAll (d :: ds) = (x.add d).addAll ds from rfl, ih, add, mem_ids_put,
      List.map_cons, List.mem_cons, or_left_comm, or_assoc]

theorem isFull_update {x : Index} (h : x.IsFull) {patch : ImagePatch} (hid : patch.id ∈ x.ids) :
    (x.update patch).IsFull := by
  intro o ho
  rcases mem_put ho with rfl | ho
  · obtain ⟨old, hold⟩ := Option.isSome_iff_exists.1 (get?_isSome_iff.2 hid)
    rw [hold]
    exact h old (List.mem_of_find?_eq_some hold)
  · exact h o ho

theorem mem_ids_updateAll {x : Index} {patches : List ImagePatch} {id : String} :
    id ∈ (x.updateAll patches).ids ↔ id ∈ patches.map (·.id) ∨ id ∈ x.ids := by
  induction patches generalizing x with
  | nil => simp [updateAll]
  | cons patch patches ih =>
    rw [show x.updateAll (patch :: patches) = (x.update patch).updateAll patches from rfl, ih,
      update, mem_ids_put, List.map_cons, List.mem_cons, or_left_comm, or_assoc]

/-- Updates of objects that are there make no bare ones. -/
theorem isFull_updateAll {x : Index} (h : x.IsFull) {patches : List ImagePatch}
    (hids : ∀ patch ∈ patches, patch.id ∈ x.ids) : (x.updateAll patches).IsFull := by
  induction patches generalizing x with
  | nil => exact h
  | cons patch patches ih =>
    refine ih (isFull_update h (hids patch List.mem_cons_self)) fun q hq => ?_
    rw [update, mem_ids_put]
    exact .inr (hids q (List.mem_cons_of_mem patch hq))

end Index

/-! ### What a client is shown -/

/-- The object with the image fields in force in its document. -/
def Stored.shown (s : Stored) : Stored :=
  { s with document := s.document.map fun d => { d with images := s.images } }

namespace Index

/-- What is shown under an identifier. -/
def shown (x : Index) (id : String) : Option Stored := (x.get? id).map Stored.shown

theorem get?_put (x : Index) (s : Stored) (id : String) :
    (x.put s).get? id = if id = s.id then some s else x.get? id := by
  unfold put get?
  split
  case isTrue h =>
    -- exchanging an object keeps the identifiers, and so what is found first
    have hsame : ((fun o : Stored => o.id == id) ∘ fun o => if o.id == s.id then s else o) =
        fun o => o.id == id := by
      funext o
      by_cases ho : o.id = s.id <;> simp [ho]
    rw [List.find?_map, hsame]
    cases hfind : x.objects.find? (·.id == id) with
    | none =>
      have hne : id ≠ s.id := by
        rintro rfl
        obtain ⟨o, ho, hid⟩ := List.any_eq_true.1 h
        exact absurd hid (List.find?_eq_none.1 hfind o ho)
      simp [hne]
    | some o =>
      have hid : o.id = id := by simpa using List.find?_some hfind
      by_cases heq : id = s.id <;> simp [hid, heq]
  case isFalse h =>
    have hnone : x.objects.find? (·.id == s.id) = none := by
      rw [List.find?_eq_none]
      exact fun o ho hid => h (List.any_eq_true.2 ⟨o, ho, hid⟩)
    by_cases heq : id = s.id
    · rw [heq, List.find?_append, hnone]
      simp
    · have hne : s.id ≠ id := Ne.symm heq
      simp [List.find?_append, heq, hne]

/-- What is shown after a document was added. -/
theorem shown_add (x : Index) (d : Document) (id : String) :
    (x.add d).shown id = if id = d.id then some ⟨d.id, some d, d.images⟩ else x.shown id := by
  rw [shown, add, get?_put]
  split
  · rfl
  · rfl

/-- What is shown after image fields were set. -/
theorem shown_update (x : Index) (patch : ImagePatch) (id : String) :
    (x.update patch).shown id =
      if id = patch.id then
        some ⟨patch.id, ((x.shown patch.id).bind (·.document)).map fun d =>
          { d with images := patch.images }, patch.images⟩
      else x.shown id := by
  rw [shown, update, get?_put]
  split
  · rw [shown]
    cases x.get? patch.id with
    | none => rfl
    | some o => cases ho : o.document <;> simp [Stored.shown, ho]
  · rfl

/-- Updates show the same on indexes that show the same. -/
theorem shown_updateAll_congr {x y : Index} {id : String} (h : x.shown id = y.shown id)
    (patches : List ImagePatch) :
    (x.updateAll patches).shown id = (y.updateAll patches).shown id := by
  induction patches generalizing x y with
  | nil => exact h
  | cons patch patches ih =>
    -- an update of the object keeps its document, which is the same in both
    refine ih (x := x.update patch) (y := y.update patch) ?_
    rw [shown_update, shown_update]
    split
    · rename_i heq
      rw [← heq, h]
    · exact h

/-- Updates do not touch other objects. -/
theorem shown_updateAll_of_not_mem {x : Index} {patches : List ImagePatch} {id : String}
    (h : id ∉ patches.map (·.id)) : (x.updateAll patches).shown id = x.shown id := by
  induction patches generalizing x with
  | nil => rfl
  | cons patch patches ih =>
    rw [List.map_cons, List.mem_cons, not_or] at h
    rw [show x.updateAll (patch :: patches) = (x.update patch).updateAll patches from rfl,
      ih h.2, shown_update, if_neg h.1]

theorem addAll_append (x : Index) (ds es : List Document) :
    x.addAll (ds ++ es) = (x.addAll ds).addAll es := List.foldl_append

theorem updateAll_append (x : Index) (ps qs : List ImagePatch) :
    x.updateAll (ps ++ qs) = (x.updateAll ps).updateAll qs := List.foldl_append

/-- A document that is added before updates of others is shown as it was added. -/
theorem shown_add_updateAll {x : Index} {d : Document} {patches : List ImagePatch}
    (hfresh : d.id ∉ patches.map (·.id)) (id : String) :
    ((x.add d).updateAll patches).shown id =
      if id = d.id then some ⟨d.id, some d, d.images⟩ else (x.updateAll patches).shown id := by
  split
  · rename_i heq
    rw [heq, shown_updateAll_of_not_mem hfresh, shown_add, if_pos rfl]
  · rename_i hne
    refine shown_updateAll_congr ?_ patches
    rw [shown_add, if_neg hne]

/-- A document that is added without images and updated at last is shown as if it had been added
with them. -/
theorem shown_add_updateAll_concat {x : Index} {d : Document} {patches : List ImagePatch}
    (hfresh : d.id ∉ patches.map (·.id)) (images : ImageMetadata) (id : String) :
    ((x.add d).updateAll (patches ++ [⟨d.id, images⟩])).shown id =
      if id = d.id then some ⟨d.id, some { d with images }, images⟩
      else (x.updateAll patches).shown id := by
  rw [updateAll_append, show ((x.add d).updateAll patches).updateAll [⟨d.id, images⟩] =
    ((x.add d).updateAll patches).update ⟨d.id, images⟩ from rfl, shown_update,
    shown_add_updateAll hfresh, shown_add_updateAll hfresh, if_pos rfl]
  split
  · rfl
  · rfl

end Index

/-! ### Engines that keep an index -/

/-- The engine keeps an index, seen through `index`. -/
structure SearchEngine.Indexes {ε : Type} [SearchEngine ε] (index : ε → Index) : Prop where
  add : ∀ e batch, index (SearchEngine.add e batch).2 = index e ∨
    index (SearchEngine.add e batch).2 = (index e).addAll batch
  update : ∀ e patches, index (SearchEngine.update e patches).2 = index e ∨
    index (SearchEngine.update e patches).2 = (index e).updateAll patches
  await : ∀ e task limit, index (SearchEngine.await e task limit).2 = index e
  /-- A commit that is reported to have succeeded has been carried out. -/
  committed : ∀ e batch limit,
    (SearchEngine.commit limit (SearchEngine.add e batch)).1 = .ok () →
      index (SearchEngine.add e batch).2 = (index e).addAll batch

namespace SearchEngine.Indexes

variable {ε : Type} [SearchEngine ε] {index : ε → Index}

/-- The index after a commit, whatever is reported of it. -/
theorem commit_add (h : SearchEngine.Indexes index) (e : ε) (limit : Span)
    (batch : List Document) :
    index (SearchEngine.commit limit (SearchEngine.add e batch)).2 =
      index (SearchEngine.add e batch).2 := by
  rcases hadd : SearchEngine.add e batch with ⟨answer, engine⟩
  cases answer with
  | error fault => rfl
  | ok task => exact h.await engine task limit

/-- The index after an update, whatever is reported of it. -/
theorem commit_update (h : SearchEngine.Indexes index) (e : ε) (limit : Span)
    (patches : List ImagePatch) :
    index (SearchEngine.commit limit (SearchEngine.update e patches)).2 =
      index (SearchEngine.update e patches).2 := by
  rcases hupdate : SearchEngine.update e patches with ⟨answer, engine⟩
  cases answer with
  | error fault => rfl
  | ok task => exact h.await engine task limit

end SearchEngine.Indexes

/-- The engine keeps an index, and an update that is reported to have succeeded has been carried
out as well. -/
structure SearchEngine.Serves {ε : Type} [SearchEngine ε] (index : ε → Index) : Prop
    extends SearchEngine.Indexes index where
  updated : ∀ e patches limit,
    (SearchEngine.commit limit (SearchEngine.update e patches)).1 = .ok () →
      index (SearchEngine.update e patches).2 = (index e).updateAll patches

namespace MemoryEngine

theorem index_answer (e : MemoryEngine) (reply : Reply) (refusal : String) (changed : Index) :
    (e.answer reply refusal changed).2.index = e.index ∨
      (e.answer reply refusal changed).2.index = changed := by
  cases reply with
  | refuse | stall => exact .inl rfl
  | accept | reject | interrupt => exact .inr rfl

/-- The engine in memory keeps its index, whatever its script says. -/
theorem indexes : SearchEngine.Indexes MemoryEngine.index where
  add e batch := index_answer _ _ _ _
  update e patches := index_answer _ _ _ _
  await _ _ _ := rfl
  committed e batch limit h := by
    rcases hreply : takeReply e.addReplies with ⟨reply, rest⟩
    cases reply with
    | accept | reject | interrupt =>
      simp [SearchEngine.add, add, hreply, answer]
    | refuse =>
      simp [SearchEngine.commit, SearchEngine.add, add, hreply, answer] at h
    | stall =>
      simp [SearchEngine.commit, SearchEngine.add, SearchEngine.await, add, hreply, answer,
        await] at h

/-- The engine in memory carries out the updates that it reports to have succeeded. -/
theorem serves : SearchEngine.Serves MemoryEngine.index where
  toIndexes := indexes
  updated e patches limit h := by
    rcases hreply : takeReply e.updateReplies with ⟨reply, rest⟩
    cases reply with
    | accept | reject | interrupt =>
      simp [SearchEngine.update, update, hreply, answer]
    | refuse =>
      simp [SearchEngine.commit, SearchEngine.update, update, hreply, answer] at h
    | stall =>
      simp [SearchEngine.commit, SearchEngine.update, SearchEngine.await, update, hreply, answer,
        await] at h

end MemoryEngine

end Corpus
