/-
Corpus/Proofs/Identity.lean

Which entries share an identifier.

An identifier is made from a name: the root, a separator and the entry.  The separator may occur
in a root and in an entry, so the name does not always tell where the root ends:

    the names of two different pairs are equal exactly if one root goes on where the other ends
    with a separator and some text, and the entry below the shorter root begins with that text.

Beyond such an overlap only a collision of the digest can give two entries one identifier.
-/
import Corpus.Document.Basic

namespace Corpus

/-! ### Two parts and a separator between them -/

/-- A list splits at a separator in one way, unless one first part goes on behind it. -/
theorem append_cons_eq_append_cons_iff {α : Type} {c : α} {a b a' b' : List α} :
    a ++ c :: b = a' ++ c :: b' ↔
      (a = a' ∧ b = b') ∨ (∃ m, a' = a ++ c :: m ∧ b = m ++ c :: b') ∨
        ∃ m, a = a' ++ c :: m ∧ b' = m ++ c :: b := by
  constructor
  · intro h
    -- one first part goes on where the other one ends, perhaps with nothing
    rcases List.append_eq_append_iff.mp h with ⟨between, ha, hb⟩ | ⟨between, ha, hb⟩
    · cases between with
      | nil => exact .inl ⟨(ha.trans (List.append_nil a)).symm, (List.cons.inj hb).2⟩
      | cons first m =>
        obtain ⟨rfl, hrest⟩ := List.cons.inj hb
        exact .inr (.inl ⟨m, ha, hrest⟩)
    · cases between with
      | nil => exact .inl ⟨ha.trans (List.append_nil a'), (List.cons.inj hb).2.symm⟩
      | cons first m =>
        obtain ⟨rfl, hrest⟩ := List.cons.inj hb
        exact .inr (.inr ⟨m, ha, hrest⟩)
  · rintro (⟨rfl, rfl⟩ | ⟨m, rfl, rfl⟩ | ⟨m, rfl, rfl⟩) <;> simp

namespace Document

theorem toList_idName (root entry : String) :
    (idName root entry).toList = root.toList ++ '#' :: entry.toList := by
  simp [idName]

/-- The second root goes on where the first one ends, and the first entry begins with what the
second root has more. -/
def Overlap (root entry root' entry' : String) : Prop :=
  ∃ between, root' = idName root between ∧ entry = idName between entry'

/-- On characters. -/
theorem overlap_iff (root entry root' entry' : String) :
    Overlap root entry root' entry' ↔
      ∃ m, root'.toList = root.toList ++ '#' :: m ∧ entry.toList = m ++ '#' :: entry'.toList := by
  constructor
  · rintro ⟨between, rfl, rfl⟩
    exact ⟨between.toList, toList_idName root between, toList_idName between entry'⟩
  · rintro ⟨m, hroot, hentry⟩
    refine ⟨String.ofList m, String.toList_inj.mp ?_, String.toList_inj.mp ?_⟩
    · rw [toList_idName, String.toList_ofList, hroot]
    · rw [toList_idName, String.toList_ofList, hentry]

/-- Two pairs have one name if they are the same or overlap. -/
theorem idName_eq_iff (root entry root' entry' : String) :
    idName root entry = idName root' entry' ↔
      (root, entry) = (root', entry') ∨ Overlap root entry root' entry' ∨
        Overlap root' entry' root entry := by
  rw [← String.toList_inj, toList_idName, toList_idName, append_cons_eq_append_cons_iff,
    overlap_iff, overlap_iff, Prod.mk.injEq, String.toList_inj, String.toList_inj]

/-- **Identifiers.**  The names of two pairs of a root and an entry are equal exactly if the pairs
are the same or overlap, and under one root no two entries overlap.  So two records have documents
with one identifier exactly if they are the same entry of the same root, if they overlap, or if
the digests of two different names collide. -/
theorem ids_separate :
    (∀ root entry root' entry' : String, idName root entry = idName root' entry' ↔
      (root, entry) = (root', entry') ∨ Overlap root entry root' entry' ∨
        Overlap root' entry' root entry) ∧
    (∀ root entry entry' : String, ¬ Overlap root entry root entry') ∧
    ∀ (p p' : Provenance) (r r' : Record) (chars chars' : Nat),
      (ofRecord p r chars).id = (ofRecord p' r' chars').id ↔
        (p.root, r.path) = (p'.root, r'.path) ∨
        Overlap p.root r.path p'.root r'.path ∨ Overlap p'.root r'.path p.root r.path ∨
        (idName p.root r.path ≠ idName p'.root r'.path ∧
          NameId.ofName NameId.locations (idName p.root r.path) =
            NameId.ofName NameId.locations (idName p'.root r'.path)) := by
  refine ⟨idName_eq_iff, fun root entry entry' h => ?_, fun p p' r r' chars chars' => ?_⟩
  · -- the root would be longer than itself
    obtain ⟨m, hroot, -⟩ := (overlap_iff root entry root entry').mp h
    have hlength := congrArg List.length hroot
    rw [List.length_append, List.length_cons] at hlength
    omega
  · show idOf p.root r.path = idOf p'.root r'.path ↔ _
    -- under different names, only the digest can bring the identifiers together
    by_cases hname : idName p.root r.path = idName p'.root r'.path
    · have hpairs := (idName_eq_iff _ _ _ _).mp hname
      rw [idOf, idOf, hname]
      refine iff_of_true rfl ?_
      rcases hpairs with hsame | hover | hover
      · exact .inl hsame
      · exact .inr (.inl hover)
      · exact .inr (.inr (.inl hover))
    · have hpairs := mt (idName_eq_iff _ _ _ _).mpr hname
      rw [not_or, not_or] at hpairs
      rw [or_iff_right hpairs.1, or_iff_right hpairs.2.1, or_iff_right hpairs.2.2]
      exact ⟨fun hid => ⟨hname, hid⟩, fun hcollision => hcollision.2⟩

/-- A file of one folder, and a file of another folder whose name goes on from that of the first,
may have one name. -/
theorem names_overlap :
    ¬ ∀ root entry root' entry' : String, (root, entry) ≠ (root', entry') →
      idName root entry ≠ idName root' entry' := by
  intro h
  exact h "/data/a" "b#c.txt" "/data/a#b" "c.txt" (by decide) (by decide)

end Document

end Corpus
