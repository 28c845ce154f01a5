/-
Corpus/Proofs/Tailing.lean

What is kept of what an extractor writes beside its output.

It is read in chunks, and after each of them all but the end of the buffer is dropped.  Dropping
early does no harm to the end,

    lastOf n (lastOf n first ++ second)  =  lastOf n (first ++ second)

so what is kept at last is the end of all that was written, wherever the reads cut it
(`Diagnostics.collect_eq`, `Diagnostics.end_kept_however_cut`).  Meanwhile the buffer never holds
more than what is kept and one read (`Diagnostics.length_le_of_mem_buffers`).
-/
import Corpus.Extractor.Diagnostics
import Mathlib

namespace Corpus.Diagnostics

/-! ### Ends of texts -/

theorem lastOf_suffix {α : Type} (n : Nat) (s : List α) : lastOf n s <:+ s :=
  List.drop_suffix _ _

theorem length_lastOf {α : Type} (n : Nat) (s : List α) :
    (lastOf n s).length = min s.length n := by
  rw [lastOf, List.length_drop]
  omega

theorem length_lastOf_le {α : Type} (n : Nat) (s : List α) : (lastOf n s).length ≤ n := by
  rw [length_lastOf]
  exact Nat.min_le_right _ _

/-- The end of a text does not change when only an end of at least that length is kept of its
beginning. -/
theorem lastOf_append_lastOf {α : Type} (n : Nat) (first second : List α) :
    lastOf n (lastOf n first ++ second) = lastOf n (first ++ second) := by
  obtain ⟨front, hfront⟩ := lastOf_suffix n first
  have hlength := length_lastOf n first
  generalize lastOf n first = kept at hfront hlength ⊢
  subst hfront
  rw [List.length_append] at hlength
  rw [List.append_assoc, lastOf, lastOf]
  conv_rhs => rw [List.drop_append]
  have hgone : front.drop ((front ++ (kept ++ second)).length - n) = [] := by
    rw [List.drop_eq_nil_iff]
    simp only [List.length_append]
    omega
  rw [hgone, List.nil_append]
  congr 1
  simp only [List.length_append]
  omega

/-! ### Reading -/

/-- However the reads cut what the extractor wrote, the end of it is kept. -/
theorem collect_eq (chunks : List Bytes) : collect chunks = lastOf tailLimit chunks.flatten := by
  -- what was read so far is only there as its end, so the fold starts from an end
  have hfold : ∀ (chunks : List Bytes) (read : Bytes),
      chunks.foldl absorb (lastOf tailLimit read) = lastOf tailLimit (read ++ chunks.flatten) := by
    intro chunks
    induction chunks with
    | nil =>
      intro read
      rw [List.foldl_nil, List.flatten_nil, List.append_nil]
    | cons chunk rest ih =>
      intro read
      rw [List.foldl_cons, absorb, lastOf_append_lastOf, ih, List.flatten_cons, List.append_assoc]
  exact hfold chunks []

/-- The chunks are what reads of bounded size have given of what was written. -/
structure Cuts (written : Bytes) (chunks : List Bytes) : Prop where
  whole : chunks.flatten = written
  nonempty : ∀ chunk ∈ chunks, chunk ≠ []
  short : ∀ chunk ∈ chunks, chunk.length ≤ readLimit

/-- Reads of full size are one way to read what was written. -/
theorem cuts_reads (written : Bytes) : Cuts written (reads written) := by
  induction written using reads.induct with
  | case1 =>
    rw [reads]
    exact ⟨rfl, by simp, by simp⟩
  | case2 b rest ih =>
    rw [reads]
    refine ⟨?_, ?_, ?_⟩
    · rw [List.flatten_cons, ih.whole, List.cons_append, List.take_append_drop]
    · exact List.forall_mem_cons.mpr ⟨List.cons_ne_nil _ _, ih.nonempty⟩
    · refine List.forall_mem_cons.mpr ⟨?_, ih.short⟩
      rw [List.length_cons, List.length_take]
      have hlimit : readLimit = 4096 := rfl
      omega

/-- What is kept is the end of what was written. -/
theorem text_reads (written : Bytes) :
    text (reads written) = Text.decodeLossy (lastOf tailLimit written) := by
  rw [text, collect_eq, (cuts_reads written).whole]

/-! ### The buffer -/

/-- What the buffer holds in turn, beginning with what is kept so far: with each read put behind
it, and then cut down to its end. -/
def buffers (kept : Bytes) : List Bytes → List Bytes
  | [] => [kept]
  | chunk :: rest => kept :: (kept ++ chunk) :: buffers (absorb kept chunk) rest

/-- The buffer holds at last what is kept. -/
theorem getLast?_buffers (chunks : List Bytes) (kept : Bytes) :
    (buffers kept chunks).getLast? = some (chunks.foldl absorb kept) := by
  induction chunks generalizing kept with
  | nil => rfl
  | cons chunk rest ih =>
    rw [buffers, List.getLast?_cons, List.getLast?_cons, ih, List.foldl_cons]
    rfl

/-- **The buffer is bounded**: it never holds more than is kept and one read. -/
theorem length_le_of_mem_buffers {chunks : List Bytes}
    (hshort : ∀ chunk ∈ chunks, chunk.length ≤ readLimit) {kept : Bytes}
    (hkept : kept.length ≤ tailLimit) :
    ∀ held ∈ buffers kept chunks, held.length ≤ tailLimit + readLimit := by
  have hroom : kept.length ≤ tailLimit + readLimit := Nat.le_add_right_of_le hkept
  induction chunks generalizing kept with
  | nil => exact List.forall_mem_singleton.mpr hroom
  | cons chunk rest ih =>
    obtain ⟨hchunk, hrest⟩ := List.forall_mem_cons.mp hshort
    rw [buffers, List.forall_mem_cons, List.forall_mem_cons]
    refine ⟨hroom, ?_, ?_⟩
    · rw [List.length_append]
      exact Nat.add_le_add hkept hchunk
    · -- whatever was read, no more than the end of it goes into the next read
      have hcut : (absorb kept chunk).length ≤ tailLimit := length_lastOf_le _ _
      exact ih hrest hcut (Nat.le_add_right_of_le hcut)

/-- **The end is kept, however the reads cut.**  The diagnostics are the text of the last bytes that
were written, as many as are kept at most; the buffer stays bounded; and other reads of the same
bytes give the same diagnostics. -/
theorem end_kept_however_cut {written : Bytes} {chunks : List Bytes} (h : Cuts written chunks) :
    (∃ front kept, written = front ++ kept ∧ kept.length = min written.length tailLimit ∧
      (buffers [] chunks).getLast? = some kept ∧ text chunks = Text.decodeLossy kept) ∧
    (∀ held ∈ buffers [] chunks, held.length ≤ tailLimit + readLimit) ∧
    ∀ others, Cuts written others → text others = text chunks := by
  have hkept : ∀ {chunks}, Cuts written chunks → collect chunks = lastOf tailLimit written := by
    intro chunks hcuts
    rw [collect_eq, hcuts.whole]
  refine ⟨?_, length_le_of_mem_buffers h.short (Nat.zero_le _), fun others hothers => ?_⟩
  · obtain ⟨front, hfront⟩ := lastOf_suffix tailLimit written
    refine ⟨front, lastOf tailLimit written, hfront.symm, length_lastOf _ _, ?_, ?_⟩
    · rw [getLast?_buffers, ← hkept h]
      rfl
    · rw [text, hkept h]
  · rw [text, text, hkept hothers, hkept h]

namespace Sample

/-- What is left of the first read once its first byte is dropped: the second half of a character
stands at its beginning. -/
def remainder : Bytes := 0xA9 :: List.replicate 4094 97

/-- Two reads of full size and one byte more. -/
def overlong : List Bytes := [0xC3 :: remainder, List.replicate 4096 98, [99]]

end Sample

/-- One byte too many drops the first byte, and no other. -/
theorem end_kept_one_byte_over :
    Cuts Sample.overlong.flatten Sample.overlong ∧
      text Sample.overlong =
        Text.decodeLossy (Sample.remainder ++ (List.replicate 4096 98 ++ [99])) := by
  have hrest : (Sample.remainder ++ (List.replicate 4096 98 ++ [99])).length = tailLimit := by
    rw [List.length_append, List.length_append, Sample.remainder, List.length_cons,
      List.length_replicate, List.length_replicate]
    rfl
  have hcuts : Cuts Sample.overlong.flatten Sample.overlong := by
    refine ⟨rfl, ?_, ?_⟩
    · rw [Sample.overlong, List.forall_mem_cons, List.forall_mem_cons, List.forall_mem_singleton]
      exact ⟨List.cons_ne_nil _ _, List.cons_ne_nil _ _, List.cons_ne_nil _ _⟩
    · rw [Sample.overlong, List.forall_mem_cons, List.forall_mem_cons, List.forall_mem_singleton]
      refine ⟨?_, List.length_replicate.le, by decide⟩
      rw [Sample.remainder, List.length_cons, List.length_cons, List.length_replicate]
      exact Nat.le_refl _
  obtain ⟨⟨front, kept, hwritten, hlength, -, htext⟩, -, -⟩ := end_kept_however_cut hcuts
  have hwhole : Sample.overlong.flatten =
      [0xC3] ++ (Sample.remainder ++ (List.replicate 4096 98 ++ [99])) := by
    rw [Sample.overlong, List.flatten_cons, List.flatten_cons, List.flatten_singleton]
    rfl
  rw [hwhole, List.length_append, hrest, Nat.min_eq_right (Nat.le_add_left _ _)] at hlength
  rw [hwhole] at hwritten
  -- both ends have the length of what is kept at most
  obtain ⟨-, rfl⟩ := List.append_inj' hwritten (hrest.trans hlength.symm)
  exact ⟨hcuts, htext⟩

end Corpus.Diagnostics
