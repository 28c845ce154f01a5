/-
Corpus/Proofs/Confining.lean

Where archives write.

The name of a scratch file is made of the number of its entry and of an extension.  An extension is
what follows the last dot of the last name of the entry, and no letter becomes a separator in lower
case, so that whatever an entry is called,

    path of the scratch file  =  scratch directory / entry-<number>[.<extension>]

with one more name behind the directory, and another one for another number.  On the disk nothing
but these places changes: an entry that is unpacked finds them empty or as they were, and leaves
them so (`archive_confined`).
-/
import Corpus.Proofs.Captioning
import Corpus.Proofs.Retracing
import Corpus.Proofs.Stopping
import Corpus.Source.Trouble

namespace Corpus

/-! ### Separators and lower case -/

namespace Text

open EntryName (isSeparator)

/-- No capital letter has a separator for its small letter. -/
theorem lowercaseRuns_above : ∀ r ∈ lowercaseRuns, (92 : Int) < r.first + r.shift := by
  decide +kernel

theorem isSeparator_ofNat {n : Nat} (h : 92 < n) : isSeparator (Char.ofNat n) = false := by
  have hvalue : (Char.ofNat n).toNat = n ∨ (Char.ofNat n).toNat = 0 := by
    rw [Char.toNat_ofNat]
    split
    · exact .inl rfl
    · exact .inr rfl
  have hslash : Char.ofNat n ≠ '/' := by
    intro heq
    have hslash : ('/' : Char).toNat = 47 := rfl
    rw [heq, hslash] at hvalue
    omega
  have hbackslash : Char.ofNat n ≠ '\\' := by
    intro heq
    have hbackslash : ('\\' : Char).toNat = 92 := rfl
    rw [heq, hbackslash] at hvalue
    omega
  simp [isSeparator, hslash, hbackslash]

theorem lowerSimple_of_isSeparator {c : Char} (h : isSeparator (lowerSimple c) = true) :
    lowerSimple c = c := by
  rw [lowerSimple] at h ⊢
  split at h
  · rename_i r hfind
    have habove := lowercaseRuns_above r (List.mem_of_find?_eq_some hfind)
    have hcovers : r.covers c.toNat = true :=
      List.find?_some (p := fun r : CaseRun => r.covers c.toNat) hfind
    have hfirst : r.first ≤ c.toNat := by
      rw [CaseRun.covers, Bool.and_eq_true, Bool.and_eq_true] at hcovers
      exact of_decide_eq_true hcovers.1.1
    rw [isSeparator_ofNat (by omega)] at h
    cases h
  · rfl

/-- Only a separator is in lower case a separator. -/
theorem eq_of_isSeparator_lowerAt {before after : List Char} {c x : Char}
    (hx : x ∈ lowerAt before c after) (h : isSeparator x = true) : x = c := by
  rw [lowerAt] at hx
  split at hx
  · simp only [List.mem_cons, List.not_mem_nil, or_false] at hx
    rcases hx with rfl | rfl <;> cases h
  · split at hx
    · split at hx <;> cases List.mem_singleton.mp hx <;> cases h
    · rw [List.mem_singleton] at hx
      subst hx
      exact lowerSimple_of_isSeparator h

theorem mem_of_mem_lowerOnto {x : Char} (h : isSeparator x = true) (s : List Char) :
    ∀ written before, x ∈ lowerOnto written before s → x ∈ written ∨ x ∈ s := by
  induction s with
  | nil => exact fun written before hx => .inl (List.mem_reverse.mp hx)
  | cons c rest ih =>
    intro written before hx
    rw [lowerOnto] at hx
    rcases ih _ _ hx with hwritten | hrest
    · rcases List.mem_append.mp hwritten with hlow | hwritten
      · have heq := eq_of_isSeparator_lowerAt (List.mem_reverse.mp hlow) h
        exact .inr (heq ▸ List.mem_cons_self)
      · exact .inl hwritten
    · exact .inr (List.mem_cons_of_mem c hrest)

/-- A text without separators has none in lower case. -/
theorem forall_toLower {s : String} (h : ∀ c ∈ s.toList, isSeparator c = false) :
    ∀ c ∈ (toLower s).toList, isSeparator c = false := by
  intro c hc
  by_contra hseparator
  rw [Bool.not_eq_false] at hseparator
  rw [toLower, String.toList_ofList] at hc
  rcases mem_of_mem_lowerOnto hseparator s.toList [] [] hc with hnil | hmem
  · cases hnil
  · rw [h c hmem] at hseparator
    cases hseparator

end Text

namespace EntryName

theorem mem_of_mem_afterLast {p : Char → Bool} {s : List Char} {c : Char}
    (h : c ∈ afterLast p s) : c ∈ s ∧ p c = false := by
  have htake := List.mem_reverse.mp h
  refine ⟨List.mem_reverse.mp ((List.takeWhile_sublist _).subset htake), ?_⟩
  simpa using List.mem_takeWhile_imp htake

/-- The extension of an entry has no separator. -/
theorem forall_extension (entry : String) :
    ∀ c ∈ (extension entry).toList, isSeparator c = false := by
  intro c hc
  rw [extension, String.toList_ofList, extensionChars] at hc
  split at hc
  · cases hc
  · exact (mem_of_mem_afterLast (mem_of_mem_afterLast hc).1).2

end EntryName

/-- The extension of an eligible entry has no separator, whatever the entry is called. -/
theorem EntryFilter.forall_eligible {filter : EntryFilter} {entry extension : String}
    (h : filter.eligible? entry = some extension) :
    ∀ c ∈ extension.toList, EntryName.isSeparator c = false := by
  rw [eligible?] at h
  split at h
  · cases h
  · dsimp only at h
    split at h
    · rw [← Option.some.inj h]
      exact Text.forall_toLower (EntryName.forall_extension entry)
    · cases h

/-! ### Names of scratch files -/

namespace Archive

/-- The name of the scratch file of an entry. -/
def scratchFile (index : Nat) (extension : String) : String :=
  if extension.isEmpty then "entry-" ++ toString index else scratchName index extension

/-- The name of a scratch file is a word, the digits of the number, and at most an extension. -/
theorem toList_scratchFile (index : Nat) (extension : String) :
    ∃ tail, (tail = [] ∨ tail = '.' :: extension.toList) ∧
      (scratchFile index extension).toList =
        "entry-".toList ++ (Nat.toDigits 10 index ++ tail) := by
  have hdigits : (toString index).toList = Nat.toDigits 10 index := by
    rw [Nat.toString_eq_ofList_toDigits, String.toList_ofList]
  rw [scratchFile]
  split
  · exact ⟨[], .inl rfl, by rw [String.toList_append, hdigits, List.append_nil]⟩
  · refine ⟨'.' :: extension.toList, .inr rfl, ?_⟩
    rw [scratchName, String.toList_append, String.toList_append, String.toList_append, hdigits,
      List.append_assoc, List.append_assoc]
    rfl

theorem isName_scratchFile (index : Nat) {extension : String} (h : '/' ∉ extension.toList) :
    Disk.IsName (Text.encode (scratchFile index extension)) := by
  obtain ⟨tail, htail, hlist⟩ := toList_scratchFile index extension
  refine Text.isName_encode ?_ ?_
  · have hdigits : '/' ∉ Nat.toDigits 10 index := fun hmem =>
      absurd (Nat.isDigit_of_mem_toDigits (by decide) (by decide) hmem) (by decide)
    have hslash : '/' ∉ tail := by
      rcases htail with rfl | rfl
      · exact List.not_mem_nil
      · rw [List.mem_cons, not_or]
        exact ⟨by decide, h⟩
    rw [hlist, List.mem_append, List.mem_append, not_or, not_or]
    exact ⟨by decide, hdigits, hslash⟩
  · rw [hlist, List.length_append]
    show 3 ≤ 6 + _
    omega

/-- Another number gives another name. -/
theorem index_of_scratchFile {index other : Nat} {extension extension' : String}
    (h : scratchFile index extension = scratchFile other extension') : index = other := by
  -- the digits end where they should, for an extension begins with a dot
  have hdigits : ∀ (n : Nat) (e : String),
      ((scratchFile n e).toList.drop 6).takeWhile Char.isDigit = Nat.toDigits 10 n := by
    intro n e
    obtain ⟨tail, htail, hlist⟩ := toList_scratchFile n e
    have hdrop : ("entry-".toList ++ (Nat.toDigits 10 n ++ tail)).drop 6 =
        Nat.toDigits 10 n ++ tail := rfl
    rw [hlist, hdrop, List.takeWhile_append_of_pos fun c hc =>
      Nat.isDigit_of_mem_toDigits (by decide) (by decide) hc]
    rcases htail with rfl | rfl
    · exact List.append_nil _
    · exact List.append_nil _
  calc index = Nat.ofDigitChars 10 (Nat.toDigits 10 index) 0 := Nat.ofDigitChars_ten_toDigits.symm
    _ = Nat.ofDigitChars 10 (Nat.toDigits 10 other) 0 := by
      rw [← hdigits index extension, h, hdigits other extension']
    _ = other := Nat.ofDigitChars_ten_toDigits

theorem scratchPath_eq (dir : Path) (index : Nat) (extension : String) :
    scratchPath dir index extension = dir.child (Text.encode (scratchFile index extension)) := by
  rw [scratchPath, scratchFile]
  split <;> rfl

end Archive

/-! ### Ways to directories -/

namespace Disk

variable {d : Disk} {p : Path} {dir : Place} {es : List (Bytes × Node)}

/-- The way to a directory does not lead through its entries, except directories and links. -/
theorem not_prefix_of_mem_trail (h : d.find true p = .ok (dir, .dir es)) {name : Bytes}
    (hdir : ∀ es', d.root.at? (dir ++ [name]) ≠ some (.dir es'))
    (hlink : ∀ target, d.root.at? (dir ++ [name]) ≠ some (.link target)) :
    ∀ q ∈ d.trail true p, ¬ (dir ++ [name]) <+: q := by
  rintro q hq ⟨below, rfl⟩
  -- whatever was met is the directory at the end, or no file
  obtain ⟨c, hat, hc⟩ := found_of_mem_trailFrom (walk_of_resolve (find_eq_ok.mp h)).2.2.2 _ hq
  replace hc : c.isFile = false := hc.elim (fun heq => heq ▸ rfl) id
  rw [Node.at?_append, Option.bind_eq_some_iff] at hat
  obtain ⟨n, hn, hbelow⟩ := hat
  cases n with
  | dir es' => exact hdir es' hn
  | link target => exact hlink target hn
  | file content =>
    -- nothing stands below a file, and the file itself is no directory
    cases below with
    | nil => cases hbelow; cases hc
    | cons next below => cases hbelow

end Disk

/-! ### One entry after the other -/

/-- A producer that prepares itself leaves the disk as it was or has worked the first entries
off. -/
theorem Production.disk_ofListing {α : Type} (listing : List (Event ⊕ α))
    {prepare : Disk → Except String Unit × Disk} (work : Disk → α → Event × Disk) {d d₀ : Disk}
    (hprepare : prepare d = (.ok (), d₀)) (room : Option Nat) :
    (ofListing listing prepare work d room).disk = d ∨
      ∃ n, (ofListing listing prepare work d room).disk =
        leftBy work ((eligible listing).take n) d₀ := by
  cases room with
  | none =>
    rw [ofListing_none, hprepare]
    exact .inr ⟨(eligible listing).length, by rw [List.take_length]⟩
  | some k =>
    rcases Nat.lt_or_ge (passedOver listing).length k with hover | hover
    · rw [ofListing_of_lt listing prepare work d hover, hprepare]
      exact .inr ⟨_, rfl⟩
    · rw [ofListing_of_le listing prepare work d hover]
      exact .inl rfl

namespace Archive

open Disk Production

/-- The place of the scratch file of an entry. -/
def scratchPlace (dir : Place) (p : Packed) : Place :=
  dir ++ [Text.encode (scratchFile p.index p.extension)]

/-- Disk `d` is disk `d₀` except at some places, which are empty or as they were, all but one. -/
structure Confined (d₀ d : Disk) (zones : List Place) (current : Option Place) : Prop where
  spares : d₀.Spares d zones
  kept : ∀ z ∈ zones, current ≠ some z → d.root.at? z = none ∨ d.root.at? z = d₀.root.at? z

/-- The places of these where there is something that was not there before. -/
def made (d₀ d : Disk) (zones : List Place) : Set Place :=
  {z | z ∈ zones ∧ d₀.root.at? z = none ∧ d.root.at? z ≠ none}

namespace Confined

variable {d₀ d : Disk} {zones : List Place} {current : Option Place}

theorem refl (d : Disk) (zones : List Place) : Confined d d zones none :=
  ⟨.refl d zones, fun _ _ _ => .inr rfl⟩

theorem made_subset (h : Confined d₀ d zones current) :
    ∀ z ∈ made d₀ d zones, current = some z := by
  rintro z ⟨hz, hbefore, hnow⟩
  by_contra hother
  rcases h.kept z hz hother with hnone | hsame
  · exact hnow hnone
  · exact hnow (hsame.trans hbefore)

/-- There is one at most. -/
theorem subsingleton_made (h : Confined d₀ d zones current) : (made d₀ d zones).Subsingleton :=
  fun z hz z' hz' => Option.some.inj ((h.made_subset z hz).symm.trans (h.made_subset z' hz'))

theorem made_eq_empty (h : Confined d₀ d zones none) : made d₀ d zones = ∅ :=
  Set.eq_empty_of_forall_notMem fun z hz => by cases h.made_subset z hz

end Confined

/-- The directory where entries are unpacked, and the places of scratch files that are free or hold
a file. -/
structure Grounds (d₀ : Disk) (scratch : Path) (dir : Place) (zones : List Place) : Prop where
  found : ∃ es, d₀.find true scratch = .ok (dir, .dir es)
  below : ∀ z ∈ zones, ∃ name, z = dir ++ [name]
  free : ∀ z ∈ zones, ∀ n, d₀.root.at? z = some n → n.isFile = true

namespace Grounds

variable {d₀ d : Disk} {scratch : Path} {dir : Place} {zones : List Place}
  {current : Option Place} {name : Bytes}

/-- Different places of scratch files are apart. -/
theorem apart (h : Grounds d₀ scratch dir zones) {z : Place} (hz : z ∈ zones)
    (hne : z ≠ dir ++ [name]) : z.Apart (dir ++ [name]) := by
  obtain ⟨other, rfl⟩ := h.below z hz
  have hlength : (dir ++ [other]).length = (dir ++ [name]).length := by simp
  exact ⟨fun habove => hne (habove.eq_of_length hlength),
    fun hbelow => hne (hbelow.eq_of_length hlength.symm).symm⟩

/-- The way to the directory does not change. -/
theorem find (h : Grounds d₀ scratch dir zones) (hconfined : Confined d₀ d zones current) :
    ∃ es, d.find true scratch = .ok (dir, .dir es) := by
  obtain ⟨es, hfind⟩ := h.found
  have haway : ∀ q ∈ d₀.trail true scratch, ∀ z ∈ zones, ¬ z <+: q := by
    intro q hq z hz
    obtain ⟨name, rfl⟩ := h.below z hz
    refine not_prefix_of_mem_trail hfind (fun es' hat => ?_) (fun target hat => ?_) q hq
    · cases h.free _ hz _ hat
    · cases h.free _ hz _ hat
  exact hconfined.spares.find_dir haway hfind

theorem opens (h : Grounds d₀ scratch dir zones) (hconfined : Confined d₀ d zones current) :
    d.Opens scratch dir :=
  let ⟨_, hfind⟩ := h.find hconfined
  opens_of_find hfind

/-- The path of a scratch file leads to its place. -/
theorem resolve (h : Grounds d₀ scratch dir zones) (hconfined : Confined d₀ d zones current)
    (hname : IsName name) (hlink : ∀ target, d.root.at? (dir ++ [name]) ≠ some (.link target))
    (follow : Bool) :
    d.resolve follow (scratch.child name) =
      match pathFault? (scratch.child name) name with
      | some fault => .error fault
      | none => .ok (foundAt (dir ++ [name]) (d.root.at? (dir ++ [name]))) :=
  resolve_child (h.opens hconfined) hname fun _ => hlink

/-- What can be written is a scratch file at its place. -/
theorem put_of_write (h : Grounds d₀ scratch dir zones) (hconfined : Confined d₀ d zones current)
    (hname : IsName name) (hlink : ∀ target, d.root.at? (dir ++ [name]) ≠ some (.link target))
    {content : Bytes} {d' : Disk} (hwrite : d.write (scratch.child name) content = .ok d') :
    pathFault? (scratch.child name) name = none ∧
      (∀ es, d.root.at? (dir ++ [name]) ≠ some (.dir es)) ∧
      d' = d.put (dir ++ [name]) (.file content) :=
  write_child (h.opens hconfined) hname hlink hwrite

/-- A scratch file is removed if it is there and its path is not too long. -/
theorem discard_cases (h : Grounds d₀ scratch dir zones) (hconfined : Confined d₀ d zones current)
    (hname : IsName name) (hlink : ∀ target, d.root.at? (dir ++ [name]) ≠ some (.link target)) :
    (discard d (scratch.child name) = d ∧
      (pathFault? (scratch.child name) name = none →
        ∀ content, d.root.at? (dir ++ [name]) ≠ some (.file content))) ∨
    (discard d (scratch.child name) = d.erase (dir ++ [name]) ∧
      ∃ content, d.root.at? (dir ++ [name]) = some (.file content)) := by
  rw [discard, removeFile, Disk.find, h.resolve hconfined hname hlink false]
  cases pathFault? (scratch.child name) name with
  | some fault => exact .inl ⟨rfl, fun hnone => by cases hnone⟩
  | none =>
    cases hat : d.root.at? (dir ++ [name]) with
    | none => exact .inl ⟨rfl, fun _ _ hfile => by cases hfile⟩
    | some n =>
      cases n with
      | file content => exact .inr ⟨rfl, content, rfl⟩
      | dir _ => exact .inl ⟨rfl, fun _ _ hfile => by cases hfile⟩
      | link target => exact absurd hat (hlink target)

/-- The place of a scratch file is a zone or holds a directory, which nothing takes away. -/
structure Lands (d₀ : Disk) (dir : Place) (zones : List Place) (name : Bytes) : Prop where
  isName : IsName name
  lands : dir ++ [name] ∈ zones ∨ ∃ es, d₀.root.at? (dir ++ [name]) = some (.dir es)

/-- What stands at the place of a scratch file between two entries. -/
theorem at?_of_confined (h : Grounds d₀ scratch dir zones) (hconfined : Confined d₀ d zones none)
    (hlands : Lands d₀ dir zones name) :
    ((dir ++ [name] ∈ zones) ∧ ∀ n, d.root.at? (dir ++ [name]) = some n → n.isFile = true) ∨
      ∃ es, d.root.at? (dir ++ [name]) = some (.dir es) := by
  by_cases hzone : dir ++ [name] ∈ zones
  · refine .inl ⟨hzone, fun n hat => ?_⟩
    rcases hconfined.kept _ hzone (by simp) with hnone | hsame
    · rw [hnone] at hat
      cases hat
    · exact h.free _ hzone n (hsame.symm.trans hat)
  · obtain ⟨es, hat⟩ := hlands.lands.resolve_left hzone
    refine .inr ⟨es, (hconfined.spares.at? _ fun z hz => h.apart hz ?_).trans hat⟩
    exact fun heq => hzone (heq ▸ hz)

theorem not_link_of_confined (h : Grounds d₀ scratch dir zones)
    (hconfined : Confined d₀ d zones none) (hlands : Lands d₀ dir zones name) :
    ∀ target, d.root.at? (dir ++ [name]) ≠ some (.link target) := by
  intro target hat
  rcases h.at?_of_confined hconfined hlands with ⟨-, hfile⟩ | ⟨es, hdir⟩
  · cases hfile _ hat
  · cases hat.symm.trans hdir

/-- **While a scratch file is written** it is the only one. -/
theorem confined_write (h : Grounds d₀ scratch dir zones) (hconfined : Confined d₀ d zones none)
    (hlands : Lands d₀ dir zones name) {content : Bytes} {d' : Disk}
    (hwrite : d.write (scratch.child name) content = .ok d') :
    pathFault? (scratch.child name) name = none ∧ dir ++ [name] ∈ zones ∧
      Confined d₀ d' zones (some (dir ++ [name])) ∧
      d'.root.at? (dir ++ [name]) = some (.file content) := by
  obtain ⟨hfault, hnodir, rfl⟩ :=
    h.put_of_write hconfined hlands.isName (h.not_link_of_confined hconfined hlands) hwrite
  have hzone : dir ++ [name] ∈ zones := by
    rcases h.at?_of_confined hconfined hlands with ⟨hzone, -⟩ | ⟨es, hdir⟩
    · exact hzone
    · exact absurd hdir (hnodir es)
  have hput := Spares.put d (dir ++ [name]) (.file content)
  refine ⟨hfault, hzone, ⟨hconfined.spares.trans (hput.among hzone), ?_⟩, ?_⟩
  · intro z hz hother
    have hapart : (dir ++ [name]).Apart z :=
      (h.apart hz fun heq => hother (congrArg some heq.symm)).symm
    rw [hput.at? z fun y hy => List.mem_singleton.mp hy ▸ hapart]
    exact hconfined.kept z hz (by simp)
  · obtain ⟨es, hfind⟩ := h.find hconfined
    exact Node.at?_put_self ⟨dir, name, es, rfl, at?_of_find hfind⟩ (.file content)

/-- Once a scratch file is removed there is none. -/
theorem confined_erase (h : Grounds d₀ scratch dir zones) (hconfined : Confined d₀ d zones current)
    (hzone : dir ++ [name] ∈ zones) (hcurrent : ∀ z, current = some z → z = dir ++ [name]) :
    Confined d₀ (d.erase (dir ++ [name])) zones none := by
  have herase := Spares.erase d (dir ++ [name])
  refine ⟨hconfined.spares.trans (herase.among hzone), fun z hz _ => ?_⟩
  by_cases heq : z = dir ++ [name]
  · have hgone := d.root.at?_erase_self
      (List.append_ne_nil_of_right_ne_nil dir (List.cons_ne_nil name []))
    exact .inl (heq ▸ hgone)
  · rw [herase.at? z fun y hy => List.mem_singleton.mp hy ▸ (h.apart hz heq).symm]
    exact hconfined.kept z hz fun h => heq (hcurrent z h)

/-- **What is written is removed.** -/
theorem confined_discard_written (h : Grounds d₀ scratch dir zones)
    (hconfined : Confined d₀ d zones none) (hlands : Lands d₀ dir zones name) {content : Bytes}
    {d' : Disk} (hwrite : d.write (scratch.child name) content = .ok d') :
    Confined d₀ (discard d' (scratch.child name)) zones none := by
  obtain ⟨hfault, hzone, hwritten, hat⟩ := h.confined_write hconfined hlands hwrite
  have hlink : ∀ target, d'.root.at? (dir ++ [name]) ≠ some (.link target) := by
    intro target hlink
    cases hat.symm.trans hlink
  rcases h.discard_cases hwritten hlands.isName hlink with ⟨-, hstays⟩ | ⟨herase, -⟩
  · exact absurd hat (hstays hfault content)
  · rw [herase]
    exact h.confined_erase hwritten hzone fun z hz => (Option.some.inj hz).symm

/-- What cannot be written is removed if it was there. -/
theorem confined_discard (h : Grounds d₀ scratch dir zones) (hconfined : Confined d₀ d zones none)
    (hlands : Lands d₀ dir zones name) :
    Confined d₀ (discard d (scratch.child name)) zones none := by
  rcases h.discard_cases hconfined hlands.isName (h.not_link_of_confined hconfined hlands) with
    ⟨hsame, -⟩ | ⟨herase, content, hat⟩
  · rw [hsame]
    exact hconfined
  · rw [herase]
    rcases h.at?_of_confined hconfined hlands with ⟨hzone, -⟩ | ⟨es, hdir⟩
    · exact h.confined_erase hconfined hzone fun z hz => by cases hz
    · cases hat.symm.trans hdir

/-- **One entry** leaves the disk confined, whatever becomes of it. -/
theorem confined_unpack (h : Grounds d₀ scratch dir zones) (hconfined : Confined d₀ d zones none)
    (t : ArchiveTroubles) (extractor : TextExtractor) {p : Packed}
    (hlands : Lands d₀ dir zones (Text.encode (scratchFile p.index p.extension))) :
    Confined d₀ (unpackDespite t extractor scratch d p).2 zones none := by
  have hpath := scratchPath_eq scratch p.index p.extension
  rw [unpackDespite]
  split
  · exact hconfined
  · rw [unpack, hpath]
    split
    · dsimp only
      split
      · exact h.confined_discard hconfined hlands
      · rename_i d' hwrite
        -- the file is removed whether or not there is a text
        split <;> exact h.confined_discard_written hconfined hlands hwrite
    · exact hconfined

/-- **Any number of entries** do. -/
theorem confined_leftBy (h : Grounds d₀ scratch dir zones) (t : ArchiveTroubles)
    (extractor : TextExtractor) (jobs : List Packed)
    (hlands : ∀ p ∈ jobs, Lands d₀ dir zones (Text.encode (scratchFile p.index p.extension))) :
    ∀ d, Confined d₀ d zones none →
      Confined d₀ (leftBy (unpackDespite t extractor scratch) jobs d) zones none := by
  induction jobs with
  | nil => exact fun d hconfined => hconfined
  | cons p rest ih =>
    intro d hconfined
    exact ih (fun q hq => hlands q (List.mem_cons_of_mem p hq)) _
      (h.confined_unpack hconfined t extractor (hlands p List.mem_cons_self))

end Grounds

/-- What is unpacked is eligible, also where some entries cannot be listed. -/
theorem eligible_of_mem {t : ArchiveTroubles} {filter : EntryFilter} {entries : List Zip.Entry}
    {p : Packed} (h : p ∈ eligible (listingDespite t filter entries)) :
    filter.eligible? p.entry.name = some p.extension := by
  rw [eligible, listingDespite, List.filterMap_filterMap, List.mem_filterMap] at h
  obtain ⟨⟨entry, index⟩, -, hsome⟩ := h
  obtain ⟨item, hitem, hjob⟩ := Option.bind_eq_some_iff.mp hsome
  dsimp only at hitem
  split at hitem
  · rw [← Option.some.inj hitem] at hjob
    cases hjob
  · cases item with
    | inl e => cases hjob
    | inr q =>
      cases hjob
      obtain ⟨rfl, -, -, heligible⟩ := classify?_eq_inr_iff.mp hitem
      exact heligible

/-- Entries are unpacked in a directory that has no link under the name of a scratch file. -/
theorem exists_grounds {t : ArchiveTroubles} {filter : EntryFilter} {entries : List Zip.Entry}
    {scratch : Path} {d₀ : Disk} {dir : Place} {es : List (Bytes × Node)}
    (hfound : d₀.find true scratch = .ok (dir, .dir es))
    (hlink : ∀ p ∈ eligible (listingDespite t filter entries), ∀ target,
      d₀.root.at? (scratchPlace dir p) ≠ some (.link target)) :
    ∃ zones, zones ⊆ (eligible (listingDespite t filter entries)).map (scratchPlace dir) ∧
      Grounds d₀ scratch dir zones ∧
      ∀ p ∈ eligible (listingDespite t filter entries),
        Grounds.Lands d₀ dir zones (Text.encode (scratchFile p.index p.extension)) := by
  classical
  -- a directory under the name of a scratch file is never touched
  refine ⟨((eligible (listingDespite t filter entries)).map (scratchPlace dir)).filter fun z =>
    ∀ es', d₀.root.at? z ≠ some (.dir es'), List.filter_subset_self _, ⟨⟨es, hfound⟩, ?_, ?_⟩, ?_⟩
  · intro z hz
    obtain ⟨p, -, rfl⟩ := List.mem_map.mp (List.mem_filter.mp hz).1
    exact ⟨_, rfl⟩
  · intro z hz n hat
    obtain ⟨hmem, hdir⟩ := List.mem_filter.mp hz
    obtain ⟨p, hp, rfl⟩ := List.mem_map.mp hmem
    cases n with
    | file content => rfl
    | dir es' => exact absurd hat (of_decide_eq_true hdir es')
    | link target => exact absurd hat (hlink p hp target)
  · intro p hp
    have hextension := EntryFilter.forall_eligible (eligible_of_mem hp)
    refine ⟨isName_scratchFile p.index fun hslash => ?_, ?_⟩
    · cases hextension '/' hslash
    · by_cases hdir : ∃ es', d₀.root.at? (scratchPlace dir p) = some (.dir es')
      · exact .inr hdir
      · refine .inl (List.mem_filter.mpr ⟨List.mem_map_of_mem hp, decide_eq_true fun es' hat => ?_⟩)
        exact hdir ⟨es', hat⟩

/-- Directories under the names of scratch files stay. -/
theorem Grounds.widen {scratch : Path} {d₀ d : Disk} {dir : Place} {zones : List Place}
    {current : Option Place} {jobs : List Packed} (h : Grounds d₀ scratch dir zones)
    (hconfined : Confined d₀ d zones current) (hsubset : zones ⊆ jobs.map (scratchPlace dir)) :
    Confined d₀ d (jobs.map (scratchPlace dir)) current := by
  refine ⟨hconfined.spares.widen fun z hz => ⟨z, hsubset hz, List.prefix_refl z⟩, ?_⟩
  intro z hz hother
  by_cases hzone : z ∈ zones
  · exact hconfined.kept z hzone hother
  · obtain ⟨p, -, rfl⟩ := List.mem_map.mp hz
    refine .inr (hconfined.spares.at? _ fun y hy => h.apart hy ?_)
    rintro rfl
    exact hzone hy

/-- **The course of a reader.**  Scratch files are made and removed one after the other, at
whatever entry the reader stops. -/
theorem confined_of_read (t : ArchiveTroubles) (filter : EntryFilter) (extractor : TextExtractor)
    {archive scratch : Path} {d d₀ : Disk} {content : Bytes} {entries : List Zip.Entry}
    {dir : Place} {es : List (Bytes × Node)} {jobs : List Packed}
    (hjobs : jobs = eligible (listingDespite t filter entries))
    (hread : d.read archive = .ok content) (hzip : Zip.read? content = some entries)
    (hprepare : prepare scratch d = (.ok (), d₀))
    (hfound : d₀.find true scratch = .ok (dir, .dir es))
    (hlink : ∀ z ∈ jobs.map (scratchPlace dir), ∀ target, d₀.root.at? z ≠ some (.link target)) :
    (∀ before p after, jobs = before ++ p :: after →
      Confined d₀ (leftBy (unpackDespite t extractor scratch) before d₀)
        (jobs.map (scratchPlace dir)) none ∧
      ∀ part d', (leftBy (unpackDespite t extractor scratch) before d₀).write
          (scratchPath scratch p.index p.extension) part = .ok d' →
        Confined d₀ d' (jobs.map (scratchPlace dir)) (some (scratchPlace dir p))) ∧
    ∀ room stopped,
      stopped = readDespite t filter archive scratch d (unpackDespite t extractor scratch) room →
      stopped.disk = d ∨ Confined d₀ stopped.disk (jobs.map (scratchPlace dir)) none := by
  subst hjobs
  obtain ⟨zones, hsubset, hgrounds, hlands⟩ := exists_grounds hfound fun p hp =>
    hlink _ (List.mem_map_of_mem hp)
  have hleft : ∀ first ⊆ eligible (listingDespite t filter entries),
      Confined d₀ (leftBy (unpackDespite t extractor scratch) first d₀) zones none :=
    fun first hfirst => hgrounds.confined_leftBy t extractor first
      (fun p hp => hlands p (hfirst hp)) d₀ (.refl d₀ zones)
  constructor
  · intro before p after hjobs
    have hbefore := hleft before (hjobs ▸ List.subset_append_left _ _)
    refine ⟨hgrounds.widen hbefore hsubset, fun part d' hwrite => ?_⟩
    have hp := hlands p (hjobs ▸ List.mem_append_right _ List.mem_cons_self)
    rw [scratchPath_eq] at hwrite
    obtain ⟨-, -, hwritten, -⟩ := hgrounds.confined_write hbefore hp hwrite
    exact hgrounds.widen hwritten hsubset
  · intro room stopped hstopped
    simp only [readDespite, hread, hzip] at hstopped
    rcases disk_ofListing (listingDespite t filter entries) (unpackDespite t extractor scratch)
      hprepare room with hsame | ⟨n, hdisk⟩
    · exact .inl (hstopped ▸ hsame)
    · rw [hstopped, hdisk]
      exact .inr (hgrounds.widen (hleft _ (List.take_subset n _)) hsubset)

/-- The scratch file of an eligible entry is a direct child of the directory. -/
theorem scratchPath_child {filter : EntryFilter} {entry extension : String}
    (h : filter.eligible? entry = some extension) (dir : Path) (index : Nat) :
    ∃ name, IsName name ∧ scratchPath dir index extension = dir.child name ∧
      (scratchPath dir index extension).components = dir.components ++ [.name name] := by
  have hname : IsName (Text.encode (scratchFile index extension)) := by
    refine isName_scratchFile index fun hmem => ?_
    cases EntryFilter.forall_eligible h '/' hmem
  refine ⟨_, hname, scratchPath_eq dir index extension, ?_⟩
  rw [scratchPath_eq, Path.components_child dir hname]

/-- Entries of different numbers have different scratch files. -/
theorem components_scratchPath_ne {filter : EntryFilter}
    {entry entry' extension extension' : String} (h : filter.eligible? entry = some extension)
    (h' : filter.eligible? entry' = some extension') (dir : Path) {index index' : Nat}
    (hne : index ≠ index') : (scratchPath dir index extension).components ≠
      (scratchPath dir index' extension').components := by
  intro heq
  have hname : ∀ {entry extension : String}, filter.eligible? entry = some extension →
      ∀ index, IsName (Text.encode (scratchFile index extension)) :=
    fun h index => isName_scratchFile index fun hmem => by
      cases EntryFilter.forall_eligible h '/' hmem
  rw [scratchPath_eq, scratchPath_eq, Path.components_child dir (hname h index),
    Path.components_child dir (hname h' index'), List.append_right_inj, List.singleton_inj,
    Path.Component.name.injEq, Text.encode_inj] at heq
  exact hne (index_of_scratchFile heq)

end Archive

/-- **Archives stay in their scratch directory.**  Whatever an entry is called and whatever
extensions are allowed, the extension of an eligible entry has no separator of either kind, its
scratch file is a direct child of the directory, and entries of different numbers have different
ones.  On a disk whose scratch directory has no link under such a name, nothing but the scratch
files changes.  While the file of an entry is written, whatever was written of it, it is the only
one that was not there before; before and after that there is none, and so at the end, wherever the
reader stops and whatever could not be listed, opened, unpacked or extracted. -/
theorem archive_confined :
    (∀ (filter : EntryFilter) (entry extension : String),
      filter.eligible? entry = some extension →
      ('/' ∉ extension.toList ∧ '\\' ∉ extension.toList) ∧
      ∀ (dir : Path) (index : Nat), ∃ name, Disk.IsName name ∧
        Archive.scratchPath dir index extension = dir.child name ∧
        (Archive.scratchPath dir index extension).components = dir.components ++ [.name name]) ∧
    (∀ (filter : EntryFilter) (entry entry' extension extension' : String),
      filter.eligible? entry = some extension → filter.eligible? entry' = some extension' →
      ∀ (dir : Path) (index index' : Nat), index ≠ index' →
        (Archive.scratchPath dir index extension).components ≠
          (Archive.scratchPath dir index' extension').components) ∧
    ∀ (t : ArchiveTroubles) (filter : EntryFilter) (extractor : TextExtractor)
      (archive scratch : Path) (d d₀ : Disk) (content : Bytes) (entries : List Zip.Entry)
      (dir : Place) (es : List (Bytes × Node)),
      let jobs := Production.eligible (Archive.listingDespite t filter entries)
      let work := Archive.unpackDespite t extractor scratch
      let files := jobs.map (Archive.scratchPlace dir)
      d.read archive = .ok content → Zip.read? content = some entries →
      Archive.prepare scratch d = (.ok (), d₀) → d₀.find true scratch = .ok (dir, .dir es) →
      (∀ file ∈ files, ∀ target, d₀.root.at? file ≠ some (.link target)) →
      (∀ before p after, jobs = before ++ p :: after →
        let between := Production.leftBy work before d₀
        (Archive.Confined d₀ between files none ∧ Archive.made d₀ between files = ∅) ∧
        ∀ part d', between.write (Archive.scratchPath scratch p.index p.extension) part = .ok d' →
          Archive.Confined d₀ d' files (some (Archive.scratchPlace dir p)) ∧
          (Archive.made d₀ d' files).Subsingleton) ∧
      ∀ room, let stopped := (Archive.readDespite t filter archive scratch d work room).disk
        stopped = d ∨
          Archive.Confined d₀ stopped files none ∧ Archive.made d₀ stopped files = ∅ := by
  refine ⟨fun filter entry extension h => ⟨?_, fun dir index => ?_⟩, ?_, ?_⟩
  · have hextension := EntryFilter.forall_eligible h
    refine ⟨fun hmem => ?_, fun hmem => ?_⟩
    · cases hextension '/' hmem
    · cases hextension '\\' hmem
  · exact Archive.scratchPath_child h dir index
  · intro filter entry entry' extension extension' h h' dir index index' hne
    exact Archive.components_scratchPath_ne h h' dir hne
  · intro t filter extractor archive scratch d d₀ content entries dir es jobs work files hread hzip
      hprepare hfound hlink
    obtain ⟨hcourse, hend⟩ := Archive.confined_of_read t filter extractor rfl hread hzip hprepare
      hfound hlink
    constructor
    · intro before p after hjobs between
      obtain ⟨hbetween, hwhile⟩ := hcourse before p after hjobs
      refine ⟨⟨hbetween, hbetween.made_eq_empty⟩, fun part d' hwrite => ?_⟩
      have hwritten := hwhile part d' hwrite
      exact ⟨hwritten, hwritten.subsingleton_made⟩
    · intro room stopped
      exact (hend room _ rfl).imp id fun h => ⟨h, h.made_eq_empty⟩

namespace Sample

set_option maxRecDepth 10000 in
theorem find_scratched :
    scratched.find true (.ofText "scratch") = .ok ([Text.encode "scratch"], .dir []) := by cbv

theorem at?_scratched (name : Bytes) :
    scratched.root.at? ([Text.encode "scratch"] ++ [name]) = none := by
  have hdir : scratched.root.at? [Text.encode "scratch"] = some (.dir []) :=
    Disk.at?_of_find find_scratched
  rw [Node.at?_append, hdir]
  rfl

end Sample

/-- A photo is unpacked in a new directory, where nothing is left of it. -/
theorem archive_confined_album :
    let filter : EntryFilter := ⟨["png"]⟩
    let d := Sample.both Sample.album Sample.zippedAlbum
    let extractor := (Sample.ingestion {} 900).extractor
    let scratch := Path.ofText "scratch"
    filter.eligible? "photo.png" = some "png" ∧ '\\' ∉ "png".toList ∧
    (Archive.scratchPath scratch 0 "png").components ≠
      (Archive.scratchPath scratch 1 "png").components ∧
    ∃ entries, Zip.read? Sample.zippedAlbum = some entries ∧
      ∀ room, let stopped := (Archive.readDespite {} filter (.ofText "a.zip") scratch d
          (Archive.unpackDespite {} extractor scratch) room).disk
        stopped = d ∨ Archive.made Sample.scratched stopped
          ((Production.eligible (Archive.listingDespite {} filter entries)).map
            (Archive.scratchPlace [Text.encode "scratch"])) = ∅ := by
  intro filter d extractor scratch
  obtain ⟨hchild, hdifferent, hreader⟩ := archive_confined
  have heligible : filter.eligible? "photo.png" = some "png" := Sample.eligible_photo
  obtain ⟨entry, hzip, -⟩ := Sample.read_zippedAlbum
  refine ⟨heligible, (hchild filter _ _ heligible).1.2,
    hdifferent filter _ _ _ _ heligible heligible scratch 0 1 (by decide), [entry], hzip, ?_⟩
  have hlink : ∀ file ∈ (Production.eligible (Archive.listingDespite {} filter [entry])).map
      (Archive.scratchPlace [Text.encode "scratch"]), ∀ target,
        Sample.scratched.root.at? file ≠ some (.link target) := by
    intro file hfile target hat
    obtain ⟨p, -, rfl⟩ := List.mem_map.mp hfile
    cases (Sample.at?_scratched _).symm.trans hat
  obtain ⟨-, hend⟩ := hreader {} filter extractor (.ofText "a.zip") scratch d Sample.scratched _ _ _
    _ (Sample.read_both _ _) hzip Sample.prepare_album Sample.find_scratched hlink
  exact fun room => (hend room).imp id And.right

end Corpus
