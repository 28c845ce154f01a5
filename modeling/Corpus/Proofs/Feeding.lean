/-
Corpus/Proofs/Feeding.lean

What the feed of the extractor gives, call after call.

A line that is text holds a record, is blank, or is malformed.  The feed reads lines as long as
they are text; the first one that is not ends it, as if the output had ended before.  Among the
lines before that, every record is given once and in its place, every malformed line is counted
once, and blank lines leave no trace.  After the last record each call answers that there is none.
-/
import Corpus.Extractor.Feed
import Mathlib

namespace Corpus

namespace Text

/-- Nothing is left of a text of blanks, and of no other. -/
theorem trimChars_eq_nil_iff (s : List Char) : trimChars s = [] ↔ ∀ c ∈ s, isBlank c = true := by
  rw [trimChars, dropEndWhile, List.reverse_eq_nil_iff, List.dropWhile_eq_nil_iff]
  simp only [List.mem_reverse]
  constructor
  · intro h
    -- what is left begins with no blank, so it is empty
    cases hrest : s.dropWhile isBlank with
    | nil => exact List.dropWhile_eq_nil_iff.mp hrest
    | cons c rest =>
      have hsome : s.dropWhile isBlank ≠ [] := by simp [hrest]
      have hhead := List.head_dropWhile_not isBlank hsome
      have hblank := h c (by rw [hrest]; exact List.mem_cons_self)
      simp [hrest, hblank] at hhead
  · intro h c hc
    exact h c ((List.dropWhile_sublist isBlank).subset hc)

end Text

namespace Feed

/-! ### Lines -/

/-- The line is text. -/
def isText (line : Bytes) : Bool := (Text.decode? line).isSome

/-- The line holds nothing but blanks. -/
def isBlank (line : Bytes) : Bool := (Text.decode? line).any Text.isBlankText

/-- The record that a line holds between blanks. -/
def record? (line : Bytes) : Option Record :=
  (Text.decode? line).bind fun text => Record.decode? (Text.encode (Text.trim text))

/-- The line is not blank, but holds no record. -/
def isMalformed (line : Bytes) : Bool := !isBlank line && (record? line).isNone

theorem decode?_nil : Record.decode? [] = none := by cbv

/-- A blank line holds no record. -/
theorem record?_of_isBlank {line : Bytes} (h : isBlank line = true) : record? line = none := by
  unfold isBlank at h
  cases htext : Text.decode? line with
  | none => rw [record?, htext, Option.bind_none]
  | some text =>
    rw [htext] at h
    have htrimmed : Text.trimChars text.toList = [] :=
      (Text.trimChars_eq_nil_iff text.toList).mpr (List.all_eq_true.mp h)
    rw [record?, htext, Option.bind_some, Text.encode, Text.toList_trim, htrimmed]
    exact decode?_nil

/-- What a line is read as. -/
theorem readLine_eq (line : Bytes) :
    readLine line =
      if isText line then
        match record? line with
        | some r => .record r
        | none => if isBlank line then .blank else .malformed
      else .broken := by
  rw [readLine, isText, record?, isBlank]
  cases Text.decode? line with
  | none => rfl
  | some text =>
    have hempty : (Text.trimChars text.toList).isEmpty = Text.isBlankText text := by
      rw [Bool.eq_iff_iff, List.isEmpty_iff, Text.trimChars_eq_nil_iff, Text.isBlankText,
        List.all_eq_true]
    simp only [hempty, Option.isSome_some, if_true, Option.bind_some, Option.any_some,
      Text.encode, Text.toList_trim]
    split
    · rename_i hblank
      have htrimmed := List.isEmpty_iff.mp (hempty.trans hblank)
      rw [htrimmed, show Text.encodeChars [] = [] from rfl, decode?_nil]
    · rfl

/-! ### One call -/

/-- The lines that are still to be read. -/
def toCome (f : Feed) : List Bytes := f.lines.takeWhile isText

/-- Lines of text without a record are passed over, and counted if they are malformed. -/
theorem nextAmong_passed (records malformed : UInt64) {passed : List Bytes}
    (h : ∀ line ∈ passed, isText line = true ∧ record? line = none) (rest : List Bytes) :
    nextAmong records malformed (passed ++ rest) =
      nextAmong records (malformed + UInt64.ofNat (passed.countP isMalformed)) rest := by
  induction passed generalizing malformed with
  | nil => simp
  | cons line passed ih =>
    obtain ⟨htext, hnone⟩ := h line List.mem_cons_self
    have hrest := fun counted => ih counted fun other hother =>
      h other (List.mem_cons_of_mem line hother)
    rw [List.cons_append, nextAmong, readLine_eq, htext, hnone]
    cases hblank : isBlank line with
    | true =>
      have hcount : ¬ isMalformed line = true := by simp [isMalformed, hblank]
      rw [List.countP_cons_of_neg hcount]
      exact hrest malformed
    | false =>
      have hcount : isMalformed line = true := by simp [isMalformed, hblank, hnone]
      rw [List.countP_cons_of_pos hcount, Nat.add_comm, UInt64.ofNat_add, ← UInt64.add_assoc]
      exact hrest (malformed + 1)

/-- Where no text follows, nothing more is given. -/
theorem nextAmong_dropWhile (records malformed : UInt64) (lines : List Bytes) :
    nextAmong records malformed (lines.dropWhile isText) = (none, ⟨[], records, malformed⟩) := by
  induction lines with
  | nil => rfl
  | cons line rest ih =>
    rw [List.dropWhile_cons]
    split
    · exact ih
    · rename_i hbroken
      rw [nextAmong, readLine_eq, if_neg hbroken]

/-- **One call** gives the next record, or there is none to come.  The lines before the record
are used up, and the malformed ones among them are counted. -/
theorem next_cases (f : Feed) :
    (∃ passed line rest r f', f.toCome = passed ++ line :: rest ∧
      (∀ other ∈ passed, record? other = none) ∧ record? line = some r ∧
      f.next = (some r, f') ∧ f'.toCome = rest ∧ f'.records = f.records + 1 ∧
      f'.malformed = f.malformed + UInt64.ofNat (passed.countP isMalformed)) ∨
    (∀ line ∈ f.toCome, record? line = none) ∧
      f.next = (none, ⟨[], f.records,
        f.malformed + UInt64.ofNat (f.toCome.countP isMalformed)⟩) := by
  obtain ⟨tail, htail⟩ : ∃ tail, tail = f.lines.dropWhile isText := ⟨_, rfl⟩
  have hlines : f.lines = f.toCome ++ tail := by
    rw [htail]
    exact List.takeWhile_append_dropWhile.symm
  have htext : ∀ line ∈ f.toCome, isText line = true := fun line hline =>
    List.mem_takeWhile_imp hline
  cases hfind : f.toCome.find? fun line => (record? line).isSome with
  | none =>
    have hnone : ∀ line ∈ f.toCome, record? line = none := by
      intro line hline
      simpa using List.find?_eq_none.mp hfind line hline
    refine .inr ⟨hnone, ?_⟩
    rw [next, hlines, nextAmong_passed _ _ fun line hline => ⟨htext line hline, hnone line hline⟩,
      htail]
    exact nextAmong_dropWhile _ _ _
  | some line =>
    obtain ⟨hsome, passed, rest, hsplit, hpassed⟩ := List.find?_eq_some_iff_append.mp hfind
    obtain ⟨r, hrecord⟩ := Option.isSome_iff_exists.mp hsome
    have hnone : ∀ other ∈ passed, record? other = none := by
      intro other hother
      simpa using hpassed other hother
    rw [hsplit] at hlines htext
    refine .inl ⟨passed, line, rest, r, ⟨rest ++ tail, f.records + 1,
      f.malformed + UInt64.ofNat (passed.countP isMalformed)⟩, hsplit, hnone, hrecord, ?_, ?_,
      rfl, rfl⟩
    · have hskip := nextAmong_passed f.records f.malformed (fun other hother =>
        ⟨htext other (List.mem_append_left _ hother), hnone other hother⟩)
        (line :: (rest ++ tail))
      rw [next, hlines, List.append_assoc, List.cons_append, hskip, nextAmong, readLine_eq,
        htext line (by simp), hrecord]
      rfl
    · -- the text ends where it did before
      have hend : tail.takeWhile isText = [] := by
        rw [htail]
        exact List.takeWhile_eq_nil_iff.mpr (List.dropWhile_get_zero_not isText f.lines)
      have htext' : ∀ other ∈ rest, isText other = true := fun other hother =>
        htext other (by simp [hother])
      rw [toCome, List.takeWhile_append_of_pos htext', hend, List.append_nil]

/-! ### All calls -/

/-- The answers of some calls, one after the other, and the feed after them. -/
def calls : Nat → Feed → List (Option Record) × Feed
  | 0, f => ([], f)
  | n + 1, f =>
    let (answer, f) := f.next
    let (answers, f) := calls n f
    (answer :: answers, f)

/-- A feed with nothing to come stays what it is. -/
theorem calls_of_done {f : Feed} (h : f.lines = []) (n : Nat) :
    calls n f = (List.replicate n none, f) := by
  obtain ⟨lines, records, malformed⟩ := f
  obtain rfl : lines = [] := h
  induction n with
  | zero => rfl
  | succ n ih =>
    rw [calls, show next ⟨[], records, malformed⟩ = (none, ⟨[], records, malformed⟩) from rfl]
    simp only [ih, List.replicate_succ]

/-- Lines without records before a line with one. -/
theorem filterMap_passed {passed : List Bytes} (hnone : ∀ other ∈ passed, record? other = none)
    {line : Bytes} {r : Record} (hsome : record? line = some r) (rest : List Bytes) :
    (passed ++ line :: rest).filterMap record? = r :: rest.filterMap record? := by
  rw [List.filterMap_append, List.filterMap_eq_nil_iff.mpr hnone, List.nil_append,
    List.filterMap_cons_some hsome]

/-- **So many calls** give so many of the records to come, in order, and then nothing.  They use
up lines from the first one on, all of them if they give nothing at last, and count each once. -/
theorem calls_eq (n : Nat) (f : Feed) :
    ∃ taken rest, f.toCome = taken ++ rest ∧
      taken.filterMap record? = (f.toCome.filterMap record?).take n ∧
      (rest = [] ∨ n ≤ (f.toCome.filterMap record?).length) ∧
      (calls n f).1 = ((f.toCome.filterMap record?).take n).map some ++
        List.replicate (n - (f.toCome.filterMap record?).length) none ∧
      (calls n f).2.records =
        f.records + UInt64.ofNat (min n (f.toCome.filterMap record?).length) ∧
      (calls n f).2.malformed = f.malformed + UInt64.ofNat (taken.countP isMalformed) := by
  induction n generalizing f with
  | zero => exact ⟨[], f.toCome, rfl, rfl, .inr (Nat.zero_le _), by simp [calls], by simp [calls],
      by simp [calls]⟩
  | succ n ih =>
    rcases next_cases f with ⟨passed, line, rest, r, f', hcome, hnone, hsome, hnext, hrest,
      hrecords, hmalformed⟩ | ⟨hnone, hnext⟩
    · -- the first call gives a record, the others go on behind its line
      obtain ⟨taken, rest', hsplit, htaken, hused, hanswers, hcount, hcount'⟩ := ih f'
      rw [hrest] at hsplit htaken hused hanswers hcount
      have hfirst : ¬ isMalformed line = true := by simp [isMalformed, hsome]
      refine ⟨passed ++ line :: taken, rest', by rw [hcome, hsplit]; simp, ?_, ?_, ?_, ?_, ?_⟩
      · rw [hcome, filterMap_passed hnone hsome, filterMap_passed hnone hsome, htaken,
          List.take_succ_cons]
      · rw [hcome, filterMap_passed hnone hsome, List.length_cons]
        exact hused.imp_right Nat.succ_le_succ
      · rw [hcome, filterMap_passed hnone hsome, calls, hnext]
        simp [hanswers]
      · rw [hcome, filterMap_passed hnone hsome, calls, hnext]
        show (calls n f').2.records = _
        rw [hcount, hrecords, List.length_cons, Nat.add_min_add_right, Nat.add_comm _ 1,
          UInt64.ofNat_add, ← UInt64.add_assoc]
        rfl
      · rw [calls, hnext]
        show (calls n f').2.malformed = _
        rw [hcount', hmalformed, List.countP_append, List.countP_cons_of_neg hfirst,
          UInt64.ofNat_add, UInt64.add_assoc]
    · -- the first call gives nothing, and neither do the others
      have hrecords : f.toCome.filterMap record? = [] := List.filterMap_eq_nil_iff.mpr hnone
      rw [calls, hnext]
      simp only [calls_of_done, hrecords]
      refine ⟨f.toCome, [], by simp, by simp [hrecords], .inl rfl, ?_, by simp, rfl⟩
      simp [List.replicate_succ]

/-- The records among the lines that are left. -/
theorem recordsOnto_eq (acc : List Record) (lines : List Bytes) :
    recordsOnto acc lines = ((lines.takeWhile isText).filterMap record?).reverse ++ acc := by
  induction lines generalizing acc with
  | nil => rfl
  | cons line rest ih =>
    rw [recordsOnto, readLine_eq, List.takeWhile_cons]
    cases isText line with
    | false => rfl
    | true =>
      simp only [if_true]
      cases hrecord : record? line with
      | some r => simp [ih, List.filterMap_cons_some hrecord]
      | none =>
        rw [List.filterMap_cons_none hrecord]
        cases isBlank line <;> exact ih acc

/-- The records that a job is given are those that the calls give. -/
theorem toList_eq (f : Feed) : f.toList = f.toCome.filterMap record? := by
  rw [toList, recordsOnto_eq, List.append_nil, List.reverse_reverse, toCome]

/-- **The feed of an output.**  Of the lines before the first one that is no text, the calls
give every record once and in order, and none after the last one.  They count the records they
gave, and once each malformed line they came by; these are all of them when nothing is left. -/
theorem calls_deliver (output : Bytes) (n : Nat) :
    let readable := (linesOf output).takeWhile isText
    let records := readable.filterMap record?
    let f := (calls n (ofOutput output)).2
    (calls n (ofOutput output)).1 =
        (records.take n).map some ++ List.replicate (n - records.length) none ∧
      f.records = UInt64.ofNat (min n records.length) ∧
      (∃ taken rest, readable = taken ++ rest ∧ taken.filterMap record? = records.take n ∧
        (rest = [] ∨ n ≤ records.length) ∧
        f.malformed = UInt64.ofNat (taken.countP isMalformed)) ∧
      (ofOutput output).toList = records := by
  intro readable records f
  obtain ⟨taken, rest, hsplit, htaken, hused, hanswers, hrecords, hmalformed⟩ :=
    calls_eq n (ofOutput output)
  refine ⟨hanswers, ?_, ⟨taken, rest, hsplit, htaken, hused, ?_⟩, toList_eq _⟩
  · exact hrecords.trans (UInt64.zero_add _)
  · exact hmalformed.trans (UInt64.zero_add _)

/-- Behind a line that is no text a record is lost, and the line itself is not counted. -/
theorem calls_end_at_broken_line :
    let output := 0xFF :: newline :: Text.encode "[\"A/2\"]"
    (linesOf output).map isMalformed = [true, false] ∧
      (linesOf output).filterMap record? = [{ path := "A/2" }] ∧
      calls 2 (ofOutput output) = ([none, none], ⟨[], 0, 0⟩) := by
  refine ⟨?_, ?_, ?_⟩
  · cbv
  · cbv
  · cbv

end Feed

end Corpus
