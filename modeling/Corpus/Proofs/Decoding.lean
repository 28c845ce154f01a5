/-
Corpus/Proofs/Decoding.lean

Decoding takes back what encoding wrote.

A character is written as a first byte, which tells how many bytes follow it and between which
bounds the second one lies, and bytes that hold six bits of it each.  Reading adds the bits up
again, and no byte of the text behind is touched:

    decodeNext (first byte of c) (its other bytes ++ rest) = (c, rest)

(`Text.decodeNext_encodeChar`).  So a text is read off its own bytes, and nothing of it is lost
(`Text.decodeLossy_encode`).
-/
import Corpus.Text.Utf8
import Mathlib

namespace Corpus.Text

/-! ### First bytes -/

private theorem toNat_ofNat {n : Nat} (h : n < 256) : (UInt8.ofNat n).toNat = n :=
  Nat.mod_eq_of_lt h

/-- First bytes by their numbers. -/
theorem tailOf_eq (b : UInt8) :
    tailOf b =
      if 194 ≤ b.toNat ∧ b.toNat ≤ 223 then some (1, 0x80, 0xBF)
      else if b.toNat = 224 then some (2, 0xA0, 0xBF)
      else if b.toNat = 237 then some (2, 0x80, 0x9F)
      else if 225 ≤ b.toNat ∧ b.toNat ≤ 239 then some (2, 0x80, 0xBF)
      else if b.toNat = 240 then some (3, 0x90, 0xBF)
      else if b.toNat = 244 then some (3, 0x80, 0x8F)
      else if 241 ≤ b.toNat ∧ b.toNat ≤ 243 then some (3, 0x80, 0xBF)
      else none := by
  simp only [tailOf, Bool.and_eq_true, decide_eq_true_eq, beq_iff_eq, UInt8.le_iff_toNat_le,
    ← UInt8.toNat_inj]
  rfl

/-- The first byte of a character of three bytes bounds the second one, so that nothing is read
that has a shorter form or is a surrogate. -/
theorem tailOf_three (b : UInt8) (second : Nat) (hlow : 224 ≤ b.toNat) (hhigh : b.toNat ≤ 239)
    (hsecond : 128 ≤ second ∧ second ≤ 191) (hshort : b.toNat = 224 → 160 ≤ second)
    (hsurrogate : b.toNat = 237 → second ≤ 159) :
    ∃ low high, tailOf b = some (2, low, high) ∧ low.toNat ≤ second ∧ second ≤ high.toNat := by
  rw [tailOf_eq, if_neg (by omega)]
  split
  · exact ⟨0xA0, 0xBF, rfl, hshort ‹_›, hsecond.2⟩
  · split
    · exact ⟨0x80, 0x9F, rfl, hsecond.1, hsurrogate ‹_›⟩
    · rw [if_pos (by omega)]
      exact ⟨0x80, 0xBF, rfl, hsecond⟩

/-- The first byte of a character of four bytes bounds the second one, so that nothing is read that
has a shorter form or is too large for a character. -/
theorem tailOf_four (b : UInt8) (second : Nat) (hlow : 240 ≤ b.toNat) (hhigh : b.toNat ≤ 244)
    (hsecond : 128 ≤ second ∧ second ≤ 191) (hshort : b.toNat = 240 → 144 ≤ second)
    (hlarge : b.toNat = 244 → second ≤ 143) :
    ∃ low high, tailOf b = some (3, low, high) ∧ low.toNat ≤ second ∧ second ≤ high.toNat := by
  rw [tailOf_eq, if_neg (by omega), if_neg (by omega), if_neg (by omega), if_neg (by omega)]
  split
  · exact ⟨0x90, 0xBF, rfl, hshort ‹_›, hsecond.2⟩
  · split
    · exact ⟨0x80, 0x8F, rfl, hsecond.1, hlarge ‹_›⟩
    · rw [if_pos (by omega)]
      exact ⟨0x80, 0xBF, rfl, hsecond⟩

/-! ### Bytes that continue -/

/-- A byte within the bounds is read. -/
theorem readTail_continue {low high : UInt8} {k : Nat} (hk : k < 256) (hlow : low.toNat ≤ k)
    (hhigh : k ≤ high.toNat) (n value : Nat) (rest : Bytes) :
    readTail (n + 1) low high value (UInt8.ofNat k :: rest) =
      readTail n 0x80 0xBF (value * 64 + k % 64) rest := by
  have hcontinues : continues low high (UInt8.ofNat k) = true := by
    simp only [continues, Bool.and_eq_true, decide_eq_true_eq, UInt8.le_iff_toNat_le,
      toNat_ofNat hk]
    exact ⟨hlow, hhigh⟩
  rw [readTail, if_pos hcontinues, payload, toNat_ofNat hk]

/-- So is one that holds six bits of a character, where any of those may stand. -/
theorem readTail_payload (n value bits : Nat) (rest : Bytes) :
    readTail (n + 1) 0x80 0xBF value (UInt8.ofNat (bits % 64 + 128) :: rest) =
      readTail n 0x80 0xBF (value * 64 + bits % 64) rest := by
  rw [readTail_continue (by omega) (Nat.le_add_left 128 _)]
  · congr 1
    omega
  · show bits % 64 + 128 ≤ 191
    omega

/-! ### Characters -/

/-- A character of several bytes is read off its first byte and those behind it. -/
theorem decodeNext_of_tailOf {b low high : UInt8} {n : Nat} (hb : 128 ≤ b.toNat)
    (htail : tailOf b = some (n, low, high)) {rest after : Bytes} {value : Nat}
    (hread : readTail n low high (b.toNat % Nat.pow 2 (6 - n)) rest = (some value, after)) :
    decodeNext b rest = (some (Char.ofNat value), after) := by
  have hlong : ¬ b < 0x80 := by
    rw [UInt8.lt_iff_toNat_lt, Nat.not_lt]
    exact hb
  rw [decodeNext, if_neg hlong, htail]
  dsimp only
  rw [hread]
  rfl

/-- **One character** is read off its bytes, and what follows stays. -/
theorem decodeNext_encodeChar (c : Char) (rest : Bytes) :
    ∃ b more, String.utf8EncodeChar c = b :: more ∧
      decodeNext b (more ++ rest) = (some c, rest) := by
  have hvalid : c.val.toNat < 55296 ∨ 57343 < c.val.toNat ∧ c.val.toNat < 1114112 := c.valid
  have hc : Char.ofNat c.val.toNat = c := Char.ofNat_toNat c
  unfold String.utf8EncodeChar
  dsimp only
  -- one case for each number of bytes: the six-bit groups of the number add up to it again
  generalize c.val.toNat = v at hvalid hc ⊢
  split
  · refine ⟨_, _, rfl, ?_⟩
    have hb : (UInt8.ofNat v).toNat = v := toNat_ofNat (by omega)
    have hshort : UInt8.ofNat v < 0x80 := by
      rw [UInt8.lt_iff_toNat_lt, hb]
      show v < 128
      omega
    rw [decodeNext, if_pos hshort, hb, hc]
    rfl
  · split
    · refine ⟨_, _, rfl, ?_⟩
      have hb : (UInt8.ofNat (v / 64 % 32 + 192)).toNat = v / 64 % 32 + 192 :=
        toNat_ofNat (by omega)
      have htail : tailOf (UInt8.ofNat (v / 64 % 32 + 192)) = some (1, 0x80, 0xBF) := by
        rw [tailOf_eq, hb, if_pos (by omega)]
      rw [← hc]
      refine decodeNext_of_tailOf (by omega) htail ?_
      rw [List.cons_append, readTail_payload, readTail, hb]
      show (some ((v / 64 % 32 + 192) % 32 * 64 + v % 64), _) = _
      congr 2
      omega
    · split
      · refine ⟨_, _, rfl, ?_⟩
        have hb : (UInt8.ofNat (v / 4096 % 16 + 224)).toNat = v / 4096 % 16 + 224 :=
          toNat_ofNat (by omega)
        obtain ⟨low, high, htail, hlow, hhigh⟩ :=
          tailOf_three (UInt8.ofNat (v / 4096 % 16 + 224)) (v / 64 % 64 + 128)
            (by omega) (by omega) (by omega) (by omega) (by omega)
        rw [← hc]
        refine decodeNext_of_tailOf (by omega) htail ?_
        rw [List.cons_append, List.cons_append, readTail_continue (by omega) hlow hhigh,
          readTail_payload, readTail, hb]
        show (some (((v / 4096 % 16 + 224) % 16 * 64 + (v / 64 % 64 + 128) % 64) * 64 + v % 64),
          _) = _
        congr 2
        omega
      · refine ⟨_, _, rfl, ?_⟩
        have hb : (UInt8.ofNat (v / 262144 % 8 + 240)).toNat = v / 262144 % 8 + 240 :=
          toNat_ofNat (by omega)
        obtain ⟨low, high, htail, hlow, hhigh⟩ :=
          tailOf_four (UInt8.ofNat (v / 262144 % 8 + 240)) (v / 4096 % 64 + 128)
            (by omega) (by omega) (by omega) (by omega) (by omega)
        rw [← hc]
        refine decodeNext_of_tailOf (by omega) htail ?_
        rw [List.cons_append, List.cons_append, List.cons_append,
          readTail_continue (by omega) hlow hhigh, readTail_payload, readTail_payload, readTail, hb]
        show (some ((((v / 262144 % 8 + 240) % 8 * 64 + (v / 4096 % 64 + 128) % 64) * 64 +
          v / 64 % 64) * 64 + v % 64), _) = _
        congr 2
        omega

theorem decodeParts_encodeChars (cs : List Char) : decodeParts (encodeChars cs) = cs.map some := by
  -- on the characters, although decoding recurses on bytes: each of its steps takes up one of them
  induction cs with
  | nil => exact decodeParts_nil
  | cons c cs ih =>
    obtain ⟨b, more, hbytes, hnext⟩ := decodeNext_encodeChar c (encodeChars cs)
    have hencode : encodeChars (c :: cs) = b :: (more ++ encodeChars cs) := by
      rw [encodeChars, List.flatMap_cons, hbytes]
      rfl
    rw [hencode, decodeParts_cons, hnext, ih, List.map_cons]

/-- Text is read off its own bytes. -/
theorem decodeLossy_encode (s : String) : decodeLossy (encode s) = s := by
  rw [decodeLossy, encode, decodeParts_encodeChars, List.map_map]
  exact (congrArg String.ofList (List.map_id _)).trans String.ofList_toList

end Corpus.Text
