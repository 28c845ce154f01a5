/-
Corpus/Proofs/Describing.lean

What adopted thumbnails are called, and what is said of them.

The name of a thumbnail is settled: what stands before its last marker gives way to the identifier
of the document, and a settled name stays as it is (`settledName_settledName`).  A directory whose
entries were renamed one by one lists the settled names and no others, each with a node that was
there before (`Node.settleNames_spec`), so

    names afterwards  =  settled names of those before

whichever entry came first.  What is said of the names is their smallest large one and all their
small ones in order, and does not depend on the order in which they are listed
(`describeNames_spec`, `describeNames_perm`).
-/
import Corpus.Proofs.Adopting
import Corpus.Proofs.Decoding

namespace Corpus

namespace Thumbnails

/-! ### The last occurrence -/

theorem eq_append_of_afterLast? {part : List Char} :
    ∀ {s tail : List Char}, afterLast? part s = some tail →
      ∃ front, s = front ++ (part ++ tail) := by
  intro s
  induction s with
  | nil =>
    intro tail h
    rw [afterLast?] at h
    split at h
    · rename_i hpart
      cases h
      exact ⟨[], by rw [List.isEmpty_iff.mp hpart]; rfl⟩
    · cases h
  | cons c rest ih =>
    intro tail h
    rw [afterLast?] at h
    cases hlater : afterLast? part rest with
    | some later =>
      rw [hlater] at h
      cases h
      obtain ⟨front, hfront⟩ := ih hlater
      exact ⟨c :: front, congrArg (c :: ·) hfront⟩
    | none =>
      rw [hlater] at h
      dsimp only at h
      split at h
      · rename_i hhere
        cases h
        obtain ⟨after, hafter⟩ := List.isPrefixOf_iff_prefix.mp hhere
        exact ⟨[], by rw [← hafter, List.drop_left]; rfl⟩
      · cases h

/-- What follows the last occurrence is no longer than what follows any. -/
theorem exists_afterLast? (part tail front : List Char) :
    ∃ last, afterLast? part (front ++ (part ++ tail)) = some last ∧
      last.length ≤ tail.length := by
  induction front with
  | nil =>
    rw [List.nil_append]
    cases hs : part ++ tail with
    | nil =>
      obtain ⟨hpart, -⟩ := List.append_eq_nil_iff.mp hs
      exact ⟨[], by rw [afterLast?, hpart]; rfl, Nat.zero_le _⟩
    | cons c rest =>
      rw [afterLast?]
      cases hlater : afterLast? part rest with
      | some later =>
        -- the occurrence at the start is not the last one
        obtain ⟨front, hfront⟩ := eq_append_of_afterLast? hlater
        have hlengths := congrArg List.length hs
        rw [hfront] at hlengths
        simp only [List.length_append, List.length_cons] at hlengths
        exact ⟨later, rfl, by omega⟩
      | none =>
        have hhere : part.isPrefixOf (c :: rest) = true :=
          List.isPrefixOf_iff_prefix.mpr (hs ▸ List.prefix_append part tail)
        dsimp only
        rw [if_pos hhere, ← hs, List.drop_left]
        exact ⟨tail, rfl, Nat.le_refl _⟩
  | cons c front ih =>
    -- a later occurrence is looked for first, so one more character in front is not seen
    obtain ⟨last, hlast, hle⟩ := ih
    rw [List.cons_append, afterLast?, hlast]
    exact ⟨last, rfl, hle⟩

theorem isSome_afterLast?_iff {part s : List Char} :
    (afterLast? part s).isSome = true ↔ part <:+: s := by
  constructor
  · intro h
    obtain ⟨tail, htail⟩ := Option.isSome_iff_exists.mp h
    obtain ⟨front, hfront⟩ := eq_append_of_afterLast? htail
    exact ⟨front, tail, by rw [hfront, List.append_assoc]⟩
  · rintro ⟨front, tail, rfl⟩
    obtain ⟨last, hlast, -⟩ := exists_afterLast? part tail front
    rw [List.append_assoc, hlast]
    rfl

/-- Whatever is put before the last occurrence, it is the last one. -/
theorem afterLast?_append {part s tail : List Char} (h : afterLast? part s = some tail)
    (front : List Char) : afterLast? part (front ++ (part ++ tail)) = some tail := by
  obtain ⟨last, hlast, hle⟩ := exists_afterLast? part tail front
  obtain ⟨before, hbefore⟩ := eq_append_of_afterLast? h
  obtain ⟨before', hbefore'⟩ := eq_append_of_afterLast? hlast
  -- what begins with that occurrence is a part of what begins with the one that was last
  have hsuffix : part ++ last <:+ part ++ tail := by
    refine List.suffix_of_suffix_length_le ⟨before', hbefore'.symm⟩ ⟨front, rfl⟩ ?_
    rw [List.length_append, List.length_append]
    exact Nat.add_le_add_left hle _
  obtain ⟨between, hbetween⟩ := hsuffix
  obtain ⟨final, hfinal, hle'⟩ :=
    exists_afterLast? part last (before ++ between)
  rw [List.append_assoc, hbetween, ← hbefore, h] at hfinal
  obtain rfl : tail = final := Option.some.inj hfinal
  have hlength : (part ++ last).length = (part ++ tail).length := by
    rw [List.length_append, List.length_append]
    omega
  have hsame : part ++ last = part ++ tail :=
    List.IsSuffix.eq_of_length ⟨between, hbetween⟩ hlength
  rw [hlast, List.append_cancel_left hsame]

/-! ### Settled names -/

/-- A canonical name is its own. -/
theorem canonicalName_canonical {id name renamed : String}
    (h : canonicalName name id = some renamed) : canonicalName renamed id = some renamed := by
  obtain ⟨cs, hcs, rfl⟩ := Option.map_eq_some_iff.mp h
  rw [canonicalChars] at hcs
  split at hcs
  · rename_i hending
    obtain ⟨size, hsize, rfl⟩ := Option.map_eq_some_iff.mp hcs
    obtain ⟨front, hfront⟩ := eq_append_of_afterLast? hsize
    -- the ending is no longer than the marker and what follows
    have hsuffix : imageEnding <:+ marker ++ size := by
      have hname : imageEnding <:+ name.toList := List.isSuffixOf_iff_suffix.mp hending
      refine List.suffix_of_suffix_length_le hname ⟨front, hfront.symm⟩ ?_
      rw [List.length_append]
      exact Nat.le_add_right_of_le (by decide)
    have hending' : imageEnding.isSuffixOf (id.toList ++ marker ++ size) = true := by
      rw [List.isSuffixOf_iff_suffix, List.append_assoc]
      exact hsuffix.trans (List.suffix_append _ _)
    rw [canonicalName, String.toList_ofList, canonicalChars, if_pos hending', List.append_assoc,
      afterLast?_append hsize id.toList, Option.map_some, Option.map_some, List.append_assoc]
  · cases hcs

/-- The name that an entry has once the thumbnails of a document have theirs. -/
def settledName (id : String) (name : Bytes) : Bytes :=
  match canonicalName (Text.decodeLossy name) id with
  | some renamed => Text.encode renamed
  | none => name

/-- A settled name is its own. -/
theorem settledName_settledName (id : String) (name : Bytes) :
    settledName id (settledName id name) = settledName id name := by
  cases h : canonicalName (Text.decodeLossy name) id with
  | none =>
    have hsame : settledName id name = name := by rw [settledName, h]
    rw [hsame, hsame]
  | some renamed =>
    have hrenamed : settledName id name = Text.encode renamed := by rw [settledName, h]
    rw [hrenamed, settledName, Text.decodeLossy_encode, canonicalName_canonical h]

/-- A name that is text is still text once it is settled. -/
theorem settledName_text (id : String) {name : Bytes} (h : ∃ s, name = Text.encode s) :
    ∃ s, settledName id name = Text.encode s := by
  cases hcanonical : canonicalName (Text.decodeLossy name) id with
  | none =>
    have hsame : settledName id name = name := by rw [settledName, hcanonical]
    rwa [hsame]
  | some renamed => exact ⟨renamed, by rw [settledName, hcanonical]⟩

end Thumbnails

/-! ### Directories of settled names -/

namespace Node

open Thumbnails (settledName settledName_settledName)

/-- Putting an entry into a directory keeps names from being listed twice. -/
theorem nodup_putEntry {es : List (Bytes × Node)} (h : (es.map (·.1)).Nodup) (name : Bytes)
    (c : Node) : ((putEntry es name c).map (·.1)).Nodup := by
  rw [putEntry]
  split
  · have hnames : (es.map fun e => if e.1 == name then (name, c) else e).map (·.1) =
        es.map (·.1) := by
      rw [List.map_map]
      refine List.map_congr_left fun e _ => ?_
      by_cases he : e.1 = name <;> simp [he]
    rw [hnames]
    exact h
  · rename_i hnew
    have hfresh : name ∉ es.map (·.1) := by
      intro hmem
      obtain ⟨e, he, rfl⟩ := List.mem_map.mp hmem
      exact hnew (List.any_eq_true.mpr ⟨e, he, beq_self_eq_true _⟩)
    rw [List.map_append, List.map_singleton, List.nodup_append]
    refine ⟨h, List.nodup_singleton _, fun a ha b hb => ?_⟩
    rw [List.mem_singleton.mp hb]
    rintro rfl
    exact hfresh ha

/-- A renamed entry stands under its new name only. -/
theorem renameEntry_eq_ok {cur : List (Bytes × Node)} {a b : Bytes} {fault fault' : Option Fault}
    {top : Node} (h : (Node.dir cur).renameEntry a b fault fault' = .ok top) (hne : a ≠ b) :
    ∃ moved, cur.lookup a = some moved ∧
      top = .dir (putEntry (cur.filter (·.1 != a)) b moved) := by
  unfold renameEntry at h
  split at h
  · cases h
  · cases h
  · cases h
  · rename_i moved hmoved
    rw [if_neg hne] at h
    split at h
    · cases h
      rw [at?_dir_cons] at hmoved
      obtain ⟨c, hc, hat⟩ := Option.bind_eq_some_iff.mp hmoved
      cases hat
      exact ⟨moved, hc, rfl⟩
    · cases h

/-- What the names stand for once an entry was renamed. -/
theorem lookup_renamed {cur : List (Bytes × Node)} (a b name : Bytes) (moved : Node) :
    (putEntry (cur.filter (·.1 != a)) b moved).lookup name =
      if name = b then some moved else if name = a then none else cur.lookup name := by
  rw [lookup_putEntry, lookup_without]

theorem mem_names_iff {es : List (Bytes × Node)} {name : Bytes} :
    name ∈ es.map (·.1) ↔ ∃ c, es.lookup name = some c := by
  rw [← Option.isSome_iff_exists, ← any_eq_isSome_lookup, List.any_eq_true, List.mem_map]
  simp only [beq_iff_eq]

/-- The name that an entry has once those of some names are settled. -/
def settledAmong (id : String) (names : List Bytes) (name : Bytes) : Bytes :=
  if name ∈ names then settledName id name else name

theorem settledAmong_cons (id : String) {entry : Bytes} (rest : List Bytes)
    (h : settledName id entry = entry) (name : Bytes) :
    settledAmong id (entry :: rest) name = settledAmong id rest name := by
  by_cases hname : name = entry
  · subst hname
    rw [settledAmong, settledAmong, if_pos List.mem_cons_self, h]
    split <;> rfl
  · simp [settledAmong, hname]

/-- A name that is settled stays among any others. -/
theorem settledAmong_of_settled (id : String) (names : List Bytes) {name : Bytes}
    (h : settledName id name = name) : settledAmong id names name = name := by
  rw [settledAmong, h]
  split <;> rfl

/-- It is settled, if all names are among them that are not settled yet. -/
theorem settledAmong_eq {id : String} {names : List Bytes} {name : Bytes}
    (h : settledName id name ≠ name → name ∈ names) :
    settledAmong id names name = settledName id name := by
  by_cases hsettled : settledName id name = name
  · rw [settledAmong_of_settled id names hsettled, hsettled]
  · exact if_pos (h hsettled)

/-- What becomes of a directory when some names in it are settled. -/
structure Settles (id : String) (names : List Bytes) (cur fin : List (Bytes × Node)) : Prop where
  /-- No name is listed twice. -/
  nodup : (fin.map (·.1)).Nodup
  /-- An entry was there before, under the name that was settled. -/
  origin : ∀ name c, fin.lookup name = some c →
    ∃ old, cur.lookup old = some c ∧ name = settledAmong id names old
  /-- Every name that was there is there as it was settled. -/
  kept : ∀ old, cur.lookup old ≠ none → fin.lookup (settledAmong id names old) ≠ none

/-- One entry is renamed, and then the others are. -/
theorem Settles.cons {id : String} {entry : Bytes} {rest : List Bytes}
    {cur fin : List (Bytes × Node)} {moved : Node} (hmoved : cur.lookup entry = some moved)
    (h : Settles id rest
      (putEntry (cur.filter (·.1 != entry)) (settledName id entry) moved) fin) :
    Settles id (entry :: rest) cur fin := by
  have hsettled := settledName_settledName id entry
  have hstays := settledAmong_of_settled id rest hsettled
  have hentry : settledAmong id (entry :: rest) entry = settledName id entry :=
    if_pos List.mem_cons_self
  have hother : ∀ name, name ≠ entry →
      settledAmong id (entry :: rest) name = settledAmong id rest name := by
    intro name hname
    simp [settledAmong, hname]
  refine ⟨h.nodup, fun name c hc => ?_, fun old hold => ?_⟩
  · -- what comes from the settled name is the entry that was moved there
    obtain ⟨old, hold, hname⟩ := h.origin name c hc
    rw [lookup_renamed] at hold
    split at hold
    · rename_i heq
      cases hold
      exact ⟨entry, hmoved, by rw [hname, heq, hstays, hentry]⟩
    · split at hold
      · cases hold
      · rename_i hold'
        exact ⟨old, hold, by rw [hname, hother old hold']⟩
  · by_cases heq : old = entry
    · rw [heq, hentry, ← hstays]
      exact h.kept _ (by rw [lookup_renamed, if_pos rfl]; simp)
    · rw [hother old heq]
      refine h.kept old ?_
      rw [lookup_renamed]
      split
      · simp
      · exact hold

/-- Once all names are settled that were not, the directory lists the settled names and no
others. -/
theorem Settles.mem_names {id : String} {names : List Bytes} {cur fin : List (Bytes × Node)}
    (h : Settles id names cur fin)
    (hall : ∀ old ∈ cur.map (·.1), settledName id old ≠ old → old ∈ names) {name : Bytes} :
    name ∈ fin.map (·.1) ↔ ∃ old ∈ cur.map (·.1), settledName id old = name := by
  have hamong : ∀ old ∈ cur.map (·.1), settledAmong id names old = settledName id old :=
    fun old hold => settledAmong_eq (hall old hold)
  constructor
  · intro hname
    obtain ⟨c, hc⟩ := mem_names_iff.mp hname
    obtain ⟨old, hold, rfl⟩ := h.origin name c hc
    have hmem := mem_names_iff.mpr ⟨c, hold⟩
    exact ⟨old, hmem, (hamong old hmem).symm⟩
  · rintro ⟨old, hold, rfl⟩
    obtain ⟨c, hc⟩ := mem_names_iff.mp hold
    rw [← hamong old hold, mem_names_iff, ← Option.ne_none_iff_exists']
    exact h.kept old (by simp [hc])

/-- However the names are settled, the directory lists the same ones. -/
theorem Settles.perm {id : String} {names names' : List Bytes} {cur fin fin' : List (Bytes × Node)}
    (h : Settles id names cur fin) (h' : Settles id names' cur fin')
    (hall : ∀ old ∈ cur.map (·.1), settledName id old ≠ old → old ∈ names)
    (hall' : ∀ old ∈ cur.map (·.1), settledName id old ≠ old → old ∈ names') :
    (fin.map (·.1)).Perm (fin'.map (·.1)) :=
  (List.perm_ext_iff_of_nodup h.nodup h'.nodup).mpr fun _ =>
    (h.mem_names hall).trans (h'.mem_names hall').symm

/-- **Settling names.**  If nothing fails, the entries are those that were there, under settled
names. -/
theorem settleNames_spec (fault : Bytes → Option Fault) (id : String) (names : List Bytes)
    (htext : ∀ name ∈ names, ∃ s, name = Text.encode s) :
    ∀ {cur fin : List (Bytes × Node)}, (cur.map (·.1)).Nodup →
      settleNames fault id names (.dir cur) = (.ok (), .dir fin) → Settles id names cur fin := by
  induction names with
  | nil =>
    intro cur fin hnodup h
    cases h
    have hsame : ∀ name, settledAmong id [] name = name := fun name => if_neg List.not_mem_nil
    refine ⟨hnodup, fun name c hc => ⟨name, hc, (hsame name).symm⟩, fun old hold => ?_⟩
    rwa [hsame]
  | cons entry rest ih =>
    intro cur fin hnodup h
    obtain ⟨name, rfl⟩ := htext entry List.mem_cons_self
    replace ih := @ih fun other hother => htext other (List.mem_cons_of_mem _ hother)
    -- a name that is settled is passed over, whether it is canonical or no thumbnail at all
    have hskip : settledName id (Text.encode name) = Text.encode name →
        settleNames fault id rest (.dir cur) = (.ok (), .dir fin) →
        Settles id (Text.encode name :: rest) cur fin := by
      intro hsettled hrest
      have hsettles := ih hnodup hrest
      have hcons := settledAmong_cons id rest hsettled
      exact ⟨hsettles.nodup, fun n c hc => by simpa only [hcons] using hsettles.origin n c hc,
        fun old hold => by simpa only [hcons] using hsettles.kept old hold⟩
    rw [settleNames] at h
    dsimp only at h
    rw [Text.decodeLossy_encode] at h
    cases hcanonical : Thumbnails.canonicalName name id with
    | none =>
      rw [hcanonical] at h
      exact hskip (by rw [settledName, Text.decodeLossy_encode, hcanonical]) h
    | some renamed =>
      have hsettled : settledName id (Text.encode name) = Text.encode renamed := by
        rw [settledName, Text.decodeLossy_encode, hcanonical]
      rw [hcanonical] at h
      dsimp only at h
      by_cases hsame : renamed = name
      · rw [if_pos hsame] at h
        exact hskip (hsettled.trans (congrArg Text.encode hsame)) h
      · rw [if_neg hsame] at h
        have hne : Text.encode name ≠ Text.encode renamed := fun heq =>
          hsame (Text.encode_inj.mp heq).symm
        split at h
        · rename_i top hrenamed
          obtain ⟨moved, hmoved, rfl⟩ := renameEntry_eq_ok hrenamed hne
          have hnodup' : ((cur.filter (·.1 != Text.encode name)).map (·.1)).Nodup :=
            hnodup.sublist (List.filter_sublist.map _)
          refine .cons hmoved ?_
          rw [hsettled]
          exact ih (nodup_putEntry hnodup' _ _) h
        · cases h

end Node

namespace Thumbnails

/-! ### What is said of names -/

/-- The name begins with the identifier, has the marker somewhere, and ends like a thumbnail of that
size. -/
structure IsSized (id ending name : String) : Prop where
  identifier : id.toList <+: name.toList
  marked : marker <:+: name.toList
  ending : ending.toList <:+ name.toList

theorem isSized_iff {id ending name : String} (h : imageEnding <:+ ending.toList) :
    (isThumbnail id name = true ∧ ending.toList.isSuffixOf name.toList = true) ↔
      IsSized id ending name := by
  rw [isThumbnail, Bool.and_eq_true, Bool.and_eq_true, List.isPrefixOf_iff_prefix,
    isSome_afterLast?_iff, List.isSuffixOf_iff_suffix, List.isSuffixOf_iff_suffix]
  constructor
  · rintro ⟨⟨⟨hid, hmarker⟩, -⟩, hending⟩
    exact ⟨hid, hmarker, hending⟩
  · rintro ⟨hid, hmarker, hending⟩
    exact ⟨⟨⟨hid, hmarker⟩, h.trans hending⟩, hending⟩

/-- The metadata of images says this of the names in a directory. -/
structure Describes (t : Thumbnails) (id : String) (names : List String) (m : ImageMetadata) :
    Prop where
  /-- The first image is the smallest of the large thumbnails. -/
  first : ∃ name ∈ names, IsSized id "_large.jpg" name ∧ m.firstImage = t.url id name ∧
    ∀ other ∈ names, IsSized id "_large.jpg" other → name ≤ other
  /-- The others are the small thumbnails, each once and in order. -/
  small : ∃ smalls : List String, m.allImages = smalls.map (t.url id) ∧
    smalls.Pairwise (· < ·) ∧ ∀ name, name ∈ smalls ↔ name ∈ names ∧ IsSized id "_small.jpg" name

variable {t : Thumbnails} {id : String} {names : List String}

theorem pairwise_mergeSort_nameLe (names : List String) :
    (names.mergeSort nameLe).Pairwise (· ≤ ·) := by
  have hsorted : (names.mergeSort nameLe).Pairwise fun a b => nameLe a b = true :=
    List.pairwise_mergeSort
      (fun a b c hab hbc => by
        simp only [nameLe, decide_eq_true_eq] at hab hbc ⊢
        exact String.le_trans hab hbc)
      (fun a b => by simpa [nameLe] using String.le_total a b) names
  exact hsorted.imp fun h => of_decide_eq_true h

/-- In a sorted list the first element of a kind is the smallest one. -/
theorem le_of_find? {l : List String} {p : String → Bool} (hsorted : l.Pairwise (· ≤ ·))
    {first : String} (h : l.find? p = some first) :
    ∀ other ∈ l, p other = true → first ≤ other := by
  intro other hother hp
  obtain ⟨-, before, after, rfl, hbefore⟩ := List.find?_eq_some_iff_append.mp h
  rcases List.mem_append.mp hother with hmem | hmem
  · have hnot := hbefore other hmem
    rw [hp] at hnot
    cases hnot
  · rcases List.mem_cons.mp hmem with rfl | hmem
    · exact String.le_refl _
    · exact List.rel_of_pairwise_cons (List.pairwise_append.mp hsorted).2.1 hmem

/-- **What is said of names.** -/
theorem describeNames_spec (hnodup : names.Nodup) {m : ImageMetadata}
    (h : t.describeNames id names = .ok m) : t.Describes id names m := by
  have hsorted := pairwise_mergeSort_nameLe (names.filter (isThumbnail id))
  have hmem : ∀ {ending name : String}, imageEnding <:+ ending.toList →
      ((name ∈ (names.filter (isThumbnail id)).mergeSort nameLe ∧
        ending.toList.isSuffixOf name.toList = true) ↔ name ∈ names ∧ IsSized id ending name) := by
    intro ending name hending
    rw [List.mem_mergeSort, List.mem_filter, and_assoc, isSized_iff hending]
  rw [describeNames] at h
  dsimp only at h
  split at h
  · rename_i first hfirst
    cases h
    constructor
    case first =>
      have hends : "_large.jpg".toList.isSuffixOf first.toList = true :=
        List.find?_some (p := fun s : String => "_large.jpg".toList.isSuffixOf s.toList) hfirst
      obtain ⟨hfirst', hsized⟩ :=
        (hmem (by decide)).mp ⟨List.mem_of_find?_eq_some hfirst, hends⟩
      refine ⟨first, hfirst', hsized, rfl, fun other hother hsized => ?_⟩
      obtain ⟨hother, hends⟩ := (hmem (by decide)).mpr ⟨hother, hsized⟩
      exact le_of_find? hsorted hfirst other hother hends
    case small =>
      refine ⟨_, rfl, ?_, fun name => ?_⟩
      · -- names that are listed once each are in strict order
        have hdistinct : ((names.filter (isThumbnail id)).mergeSort nameLe).Nodup :=
          List.nodup_mergeSort.mpr (hnodup.filter _)
        exact ((hsorted.and hdistinct).imp fun h => lt_of_le_of_ne h.1 h.2).filter _
      · rw [List.mem_filter]
        exact hmem (by decide)
  · cases h

/-- The order in which names are listed does not matter. -/
theorem describeNames_perm {names' : List String} (h : names.Perm names') :
    t.describeNames id names = t.describeNames id names' := by
  have hsame : (names.filter (isThumbnail id)).mergeSort nameLe =
      (names'.filter (isThumbnail id)).mergeSort nameLe := by
    refine List.Perm.eq_of_pairwise' (pairwise_mergeSort_nameLe _) (pairwise_mergeSort_nameLe _) ?_
    exact (List.mergeSort_perm _ _).trans ((h.filter _).trans (List.mergeSort_perm _ _).symm)
  rw [describeNames, describeNames, hsame]

end Thumbnails

end Corpus
