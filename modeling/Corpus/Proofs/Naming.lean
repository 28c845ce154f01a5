/-
Corpus/Proofs/Naming.lean

Names of entries that are made from text.

The bytes of a text hold a separator only if the text does, and a text that is read off bytes
holds one only if the bytes do: a character of more than one byte consists of bytes that are no
separator, and such bytes never give a small character.  So the name that a thumbnail gets is
the name of an entry again, and so is the identifier of a document.
-/
import Corpus.Document.Basic
import Corpus.Ingest.Thumbnails
import Corpus.Proofs.Walking
import Mathlib

namespace Corpus

namespace Text

/-! ### Small bytes of encoded text -/

/-- A small byte of a character is all of it. -/
theorem toNat_of_mem_utf8EncodeChar {c : Char} {b : UInt8} (h : b ∈ String.utf8EncodeChar c)
    (hb : b.toNat < 128) : b.toNat = c.toNat := by
  have hvalue : ∀ n : Nat, (UInt8.ofNat n).toNat = n % 256 := fun _ => rfl
  unfold String.utf8EncodeChar at h
  dsimp only at h
  split at h
  · rw [List.mem_singleton.mp h, hvalue] at hb ⊢
    show c.toNat % 256 = c.toNat
    have : c.toNat ≤ 127 := by assumption
    omega
  · -- every byte of a longer character has its highest bit set
    exfalso
    split at h
    · simp only [List.mem_cons, List.not_mem_nil, or_false] at h
      rcases h with rfl | rfl <;> rw [hvalue] at hb <;> omega
    · split at h
      · simp only [List.mem_cons, List.not_mem_nil, or_false] at h
        rcases h with rfl | rfl | rfl <;> rw [hvalue] at hb <;> omega
      · simp only [List.mem_cons, List.not_mem_nil, or_false] at h
        rcases h with rfl | rfl | rfl | rfl <;> rw [hvalue] at hb <;> omega

/-- A separator among the bytes of a text is one among its characters. -/
theorem mem_of_separator_mem_encodeChars {cs : List Char}
    (h : Path.separator ∈ encodeChars cs) : '/' ∈ cs := by
  obtain ⟨c, hc, hb⟩ := List.mem_flatMap.mp h
  have hvalue : c.toNat = 47 := (toNat_of_mem_utf8EncodeChar hb (by decide)).symm
  have heq : c = '/' := by rw [← Char.ofNat_toNat c, hvalue]
  exact heq ▸ hc

theorem length_le_flatMap {α β : Type} (emit : α → List β) {n : Nat}
    (h : ∀ a, n ≤ (emit a).length) (s : List α) : n * s.length ≤ (s.flatMap emit).length := by
  induction s with
  | nil => exact Nat.le_refl 0
  | cons a rest ih =>
    have := h a
    rw [List.flatMap_cons, List.length_append, List.length_cons, Nat.mul_succ]
    omega

theorem length_le_encodeChars (cs : List Char) : cs.length ≤ (encodeChars cs).length := by
  have h := length_le_flatMap String.utf8EncodeChar
    (fun c => List.length_pos_iff.mpr (String.utf8EncodeChar_ne_nil (c := c))) cs
  rwa [Nat.one_mul] at h

/-- Different texts have different bytes. -/
theorem encode_inj {s s' : String} : encode s = encode s' ↔ s = s' := by
  refine ⟨fun h => ?_, fun h => h ▸ rfl⟩
  have hbytes : s.toList.utf8Encode = s'.toList.utf8Encode := congrArg List.toByteArray h
  rw [← String.ofList_toList (s := s), ← String.ofList_toList (s := s')]
  exact String.toByteArray_inj.mp hbytes

/-- A text of three or more characters, none of them a separator, can name an entry. -/
theorem isName_encode {s : String} (hwhole : '/' ∉ s.toList) (hlength : 3 ≤ s.toList.length) :
    Disk.IsName (encode s) := by
  have hlong : 3 ≤ (encode s).length := Nat.le_trans hlength (length_le_encodeChars s.toList)
  refine ⟨?_, fun h => hwhole (mem_of_separator_mem_encodeChars h), ?_, ?_⟩ <;>
  · intro h
    rw [h] at hlong
    simp at hlong

/-! ### Small characters of decoded text -/

/-- The value of continuation bytes is at least what was read before them. -/
theorem le_of_readTail {n : Nat} {low high : UInt8} {value result : Nat} {s : Bytes}
    (h : (readTail n low high value s).1 = some result) : value * Nat.pow 64 n ≤ result := by
  induction n generalizing low high value s with
  | zero =>
    cases h
    exact Nat.le_of_eq (Nat.mul_one _)
  | succ n ih =>
    cases s with
    | nil => cases h
    | cons b rest =>
      rw [readTail] at h
      split at h
      · refine Nat.le_trans ?_ (ih h)
        show value * (64 ^ n * 64) ≤ (value * 64 + payload b) * 64 ^ n
        rw [Nat.add_mul, Nat.mul_comm (64 ^ n), ← Nat.mul_assoc]
        exact Nat.le_add_right _ _
      · cases h

/-- The first continuation byte lies within its bounds and counts for the value. -/
theorem le_of_readTail_succ {n : Nat} {low high : UInt8} {value result : Nat} {s : Bytes}
    (h : (readTail (n + 1) low high value s).1 = some result) :
    ∃ b : UInt8, low.toNat ≤ b.toNat ∧ b.toNat ≤ high.toNat ∧
      (value * 64 + b.toNat % 64) * Nat.pow 64 n ≤ result := by
  cases s with
  | nil => cases h
  | cons b rest =>
    rw [readTail] at h
    split at h
    · rename_i hwithin
      obtain ⟨hlow, hhigh⟩ := Bool.and_eq_true_iff.mp hwithin
      exact ⟨b, UInt8.le_iff_toNat_le.mp (of_decide_eq_true hlow),
        UInt8.le_iff_toNat_le.mp (of_decide_eq_true hhigh), le_of_readTail h⟩
    · cases h

/-- A character of several bytes is no small one. -/
theorem le_of_tailOf {b : UInt8} {n : Nat} {low high : UInt8} {result : Nat} {rest : Bytes}
    (hb : tailOf b = some (n, low, high))
    (h : (readTail n low high (b.toNat % Nat.pow 2 (6 - n)) rest).1 = some result) :
    128 ≤ result := by
  -- one case for each kind of first byte: the bounds keep the value from being written shorter
  unfold tailOf at hb
  repeat' split at hb
  all_goals
    cases hb
    try
      rename_i hfirst
      obtain ⟨next, hlow, hhigh, hle⟩ := le_of_readTail_succ h
      simp [UInt8.le_iff_toNat_le, ← UInt8.toNat_inj] at hfirst hlow hhigh hle
      omega

theorem mem_of_mem_readTail {n : Nat} {low high : UInt8} {value : Nat} {s : Bytes} {b : UInt8}
    (h : b ∈ (readTail n low high value s).2) : b ∈ s := by
  induction n generalizing low high value s with
  | zero => exact h
  | succ n ih =>
    cases s with
    | nil => cases h
    | cons first rest =>
      rw [readTail] at h
      split at h
      · exact List.mem_cons_of_mem _ (ih h)
      · exact h

theorem mem_of_mem_decodeNext {first b : UInt8} {rest : Bytes}
    (h : b ∈ (decodeNext first rest).2) : b ∈ rest := by
  unfold decodeNext at h
  split at h
  · exact h
  · split at h
    · exact h
    · exact mem_of_mem_readTail h

/-- Only the byte itself is read as a separator. -/
theorem eq_separator_of_decodeNext {first : UInt8} {rest : Bytes}
    (h : (decodeNext first rest).1 = some '/') : first = Path.separator := by
  unfold decodeNext at h
  split at h
  · rename_i hsmall
    have hvalue : (Char.ofNat first.toNat).toNat = 47 := by rw [Option.some.inj h]; rfl
    have hvalid : first.toNat.isValidChar := by
      have := UInt8.lt_iff_toNat_lt.mp hsmall
      exact .inl (Nat.lt_trans this (by decide))
    rw [Char.toNat_ofNat, if_pos hvalid] at hvalue
    exact UInt8.toNat_inj.mp hvalue
  · split at h
    · cases h
    · rename_i n low high hfirst
      obtain ⟨value, hread, hslash⟩ := Option.map_eq_some_iff.mp h
      have hlarge := le_of_tailOf hfirst hread
      have hvalue : (Char.ofNat value).toNat = 47 := by rw [hslash]; rfl
      rw [Char.toNat_ofNat] at hvalue
      split at hvalue <;> omega

/-- A separator among the characters read off bytes is one among the bytes. -/
theorem separator_mem_of_mem_decodeLossy {bytes : Bytes} (h : '/' ∈ (decodeLossy bytes).toList) :
    Path.separator ∈ bytes := by
  rw [decodeLossy, String.toList_ofList] at h
  obtain ⟨part, hpart, hslash⟩ := List.mem_map.mp h
  have hsome : part = some '/' := by
    cases part with
    | none => cases hslash
    | some c => exact congrArg some hslash
  subst hsome
  clear h hslash
  -- by the length of what is left to read
  induction hn : bytes.length using Nat.strongRecOn generalizing bytes with
  | ind n ih =>
    cases bytes with
    | nil => rw [decodeParts_nil] at hpart; cases hpart
    | cons first rest =>
      rw [decodeParts_cons] at hpart
      rcases List.mem_cons.mp hpart with hhere | hlater
      · rw [eq_separator_of_decodeNext hhere.symm]
        exact List.mem_cons_self
      · have hshorter : (decodeNext first rest).2.length < n := by
          have := length_decodeNext_le first rest
          rw [List.length_cons] at hn
          omega
        exact List.mem_cons_of_mem _ (mem_of_mem_decodeNext (ih _ hshorter hlater rfl))

end Text

/-! ### Thumbnails and documents -/

namespace Thumbnails

/-- The place that a name has among characters is that of some of its own. -/
theorem mem_of_mem_afterLast? {part s tail : List Char} (h : afterLast? part s = some tail)
    {c : Char} (hc : c ∈ tail) : c ∈ s := by
  induction s generalizing tail with
  | nil =>
    rw [afterLast?] at h
    split at h <;> cases h
    exact hc
  | cons first rest ih =>
    rw [afterLast?] at h
    cases hrest : afterLast? part rest with
    | some later =>
      rw [hrest] at h
      cases h
      exact List.mem_cons_of_mem _ (ih hrest hc)
    | none =>
      rw [hrest] at h
      dsimp only at h
      split at h
      · cases h
        exact List.mem_of_mem_drop hc
      · cases h

/-- The name that a thumbnail gets can name an entry if its old one can and the identifier of
its document holds no separator. -/
theorem isName_canonicalName {id renamed : String} {entry : Bytes} (hid : '/' ∉ id.toList)
    (hentry : Disk.IsName entry) (h : canonicalName (Text.decodeLossy entry) id = some renamed) :
    Disk.IsName (Text.encode renamed) := by
  obtain ⟨cs, hcs, rfl⟩ := Option.map_eq_some_iff.mp h
  rw [canonicalChars] at hcs
  split at hcs
  · obtain ⟨size, hsize, rfl⟩ := Option.map_eq_some_iff.mp hcs
    refine Text.isName_encode ?_ ?_
    · rw [String.toList_ofList]
      intro hslash
      rcases List.mem_append.mp hslash with hslash | hslash
      · rcases List.mem_append.mp hslash with hslash | hslash
        · exact hid hslash
        · exact absurd hslash (by decide)
      · exact hentry.whole
          (Text.separator_mem_of_mem_decodeLossy (mem_of_mem_afterLast? hsize hslash))
    · rw [String.toList_ofList, List.length_append, List.length_append]
      have : marker.length = 9 := by decide
      omega
  · cases hcs

end Thumbnails

namespace NameId

theorem separator_not_mem_hexByte (b : UInt8) : '/' ∉ hexByte b := by
  have hdigit : ∀ n < 16, Nat.digitChar n ≠ '/' := by decide
  have hsmall : b.toNat < 256 := UInt8.toNat_lt b
  simp only [hexByte, List.mem_cons, List.not_mem_nil, or_false, not_or]
  exact ⟨(hdigit _ (by omega)).symm, (hdigit _ (by omega)).symm⟩

/-- A written identifier holds no separator. -/
theorem separator_not_mem_hyphenated (bytes : Bytes) : '/' ∉ (hyphenated bytes).toList := by
  rw [hyphenated, String.toList_ofList]
  intro h
  obtain ⟨⟨b, i⟩, -, hc⟩ := List.mem_flatMap.mp h
  dsimp only at hc
  split at hc
  · rcases List.mem_cons.mp hc with hc | hc
    · exact absurd hc (by decide)
    · exact separator_not_mem_hexByte b hc
  · exact separator_not_mem_hexByte b hc

theorem length_le_hyphenated (bytes : Bytes) :
    2 * bytes.length ≤ (hyphenated bytes).toList.length := by
  rw [hyphenated, String.toList_ofList, ← List.length_zipIdx (i := 0)]
  refine Text.length_le_flatMap _ (fun item => ?_) _
  split
  split <;> simp [hexByte]

/-- The identifier of a name can name an entry. -/
theorem isName_ofName (space : Bytes) (name : String) :
    Disk.IsName (Text.encode (ofName space name)) := by
  refine Text.isName_encode (separator_not_mem_hyphenated _)
    (Nat.le_trans ?_ (length_le_hyphenated _))
  have hdigest : (Sha1.digest (space ++ Text.encode name)).length = 20 := by
    simp [Sha1.digest, Sha1.bytesOfNat]
  rw [stamp, List.length_map, List.length_zipIdx, List.length_take, hdigest]
  decide

end NameId

end Corpus
