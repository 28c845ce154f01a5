/-
Corpus/Proofs/Renaming.lean

Thumbnails are renamed while their directory is listed.

The canonical name of a thumbnail keeps what follows the last marker of its name, and nothing that
is put before that marker brings a later one about, even if the marker overlaps itself there.  So

    canonical name of a canonical name  =  that canonical name

and a listing that meets names which the renaming has made passes over them.  One renaming takes
away a name that is not canonical and makes one that is, so whatever is listed, in whatever order,
only canonical names are left once the others were met (`Node.named_settleNames`).  Nor does an
earlier renaming make a later one fail: the entries that are still to be met are where they were
(`Node.settleNames_eq_ok`).
-/
import Corpus.Proofs.Merging

namespace Corpus

namespace Thumbnails

/-! ### The last marker -/

/-- In text `s` the last occurrence of `part` is followed by `tail`. -/
structure FollowsLast (part s tail : List Char) : Prop where
  occurs : ∃ front, s = front ++ (part ++ tail)
  last : ∀ front tail', s = front ++ (part ++ tail') → tail.length ≤ tail'.length

theorem afterLast?_eq_some_iff {part s tail : List Char} :
    afterLast? part s = some tail ↔ FollowsLast part s tail := by
  constructor
  · intro h
    refine ⟨eq_append_of_afterLast? h, fun front tail' hs => ?_⟩
    obtain ⟨last, hlast, hle⟩ := exists_afterLast? part tail' front
    rw [← hs, h] at hlast
    obtain rfl : tail = last := Option.some.inj hlast
    exact hle
  · rintro ⟨⟨front, rfl⟩, hlast⟩
    obtain ⟨last, hfound, hle⟩ := exists_afterLast? part tail front
    obtain ⟨before, hbefore⟩ := eq_append_of_afterLast? hfound
    -- both are ends of one text, and neither is the longer one
    have hsame : part ++ last = part ++ tail := by
      have hge := hlast before last hbefore
      refine (List.suffix_of_suffix_length_le ⟨before, hbefore.symm⟩ ⟨front, rfl⟩
        ?_).eq_of_length ?_
      all_goals
        rw [List.length_append, List.length_append]
        omega
    rw [hfound, List.append_cancel_left hsame]

/-- A thumbnail has a canonical name: the identifier, the marker, and what follows the last marker
of its name. -/
theorem canonicalName_eq_some_iff {name id renamed : String} :
    canonicalName name id = some renamed ↔ imageEnding <:+ name.toList ∧
      ∃ size, FollowsLast marker name.toList size ∧
        renamed.toList = id.toList ++ marker ++ size := by
  rw [canonicalName, canonicalChars, Option.map_eq_some_iff]
  simp only [← afterLast?_eq_some_iff, ← List.isSuffixOf_iff_suffix]
  by_cases hending : imageEnding.isSuffixOf name.toList = true
  · simp only [hending, if_true, true_and, Option.map_eq_some_iff]
    constructor
    · rintro ⟨_, ⟨size, hsize, rfl⟩, rfl⟩
      exact ⟨size, hsize, String.toList_ofList⟩
    · rintro ⟨size, hsize, hrenamed⟩
      exact ⟨_, ⟨size, hsize, rfl⟩, by rw [← hrenamed, String.ofList_toList]⟩
  · simp [hending]

/-! ### Canonical names -/

/-- The name is not that of a thumbnail, or is its own canonical name. -/
def IsCanonical (id : String) (name : Bytes) : Prop :=
  ∀ renamed, canonicalName (Text.decodeLossy name) id = some renamed →
    renamed = Text.decodeLossy name

variable {id renamed : String} {name : Bytes}

theorem isCanonical_of_none (h : canonicalName (Text.decodeLossy name) id = none) :
    IsCanonical id name := by
  intro renamed hrenamed
  rw [h] at hrenamed
  cases hrenamed

theorem isCanonical_of_self
    (h : canonicalName (Text.decodeLossy name) id = some (Text.decodeLossy name)) :
    IsCanonical id name := by
  intro renamed hrenamed
  rw [h] at hrenamed
  exact (Option.some.inj hrenamed).symm

/-- What an entry is renamed to is canonical. -/
theorem isCanonical_encode {old : String} (h : canonicalName old id = some renamed) :
    IsCanonical id (Text.encode renamed) := by
  refine isCanonical_of_self ?_
  rw [Text.decodeLossy_encode]
  exact canonicalName_canonical h

end Thumbnails

namespace Node

open Thumbnails (canonicalName canonicalName_canonical IsCanonical isCanonical_of_none
  isCanonical_of_self isCanonical_encode)

variable {id renamed : String} {es cur fin : List (Bytes × Node)}

/-! ### What renaming leaves -/

/-- What becomes of entries when the thumbnails among them get their canonical names. -/
structure Named (id : String) (es fin : List (Bytes × Node)) : Prop where
  /-- Every name is canonical. -/
  canonical : ∀ name ∈ fin.map (·.1), IsCanonical id name
  /-- Where there was a thumbnail there is one under its canonical name. -/
  kept : ∀ old ∈ es.map (·.1), ∀ renamed, canonicalName (Text.decodeLossy old) id = some renamed →
    ∃ name ∈ fin.map (·.1), Text.decodeLossy name = renamed
  /-- Every entry was there before, under its name or as a thumbnail with that canonical name. -/
  origin : ∀ name c, fin.lookup name = some c → ∃ old, es.lookup old = some c ∧
    (name = old ∨ canonicalName (Text.decodeLossy old) id = some (Text.decodeLossy name))
  /-- What is no thumbnail stays as it was. -/
  others : ∀ old, canonicalName (Text.decodeLossy old) id = none → fin.lookup old = es.lookup old

/-- Canonical names stay. -/
theorem Named.refl (h : ∀ name ∈ es.map (·.1), IsCanonical id name) : Named id es es :=
  ⟨h, fun old hold renamed hrenamed => ⟨old, hold, (h old hold renamed hrenamed).symm⟩,
    fun name _ hc => ⟨name, hc, .inl rfl⟩, fun _ _ => rfl⟩

/-- One entry gets its canonical name, and then the others do. -/
theorem Named.cons {entry : Bytes} {moved : Node} (hmoved : cur.lookup entry = some moved)
    (hname : canonicalName (Text.decodeLossy entry) id = some renamed)
    (h : Named id (putEntry (cur.filter (·.1 != entry)) (Text.encode renamed) moved) fin) :
    Named id cur fin := by
  have hsettled : canonicalName (Text.decodeLossy (Text.encode renamed)) id = some renamed := by
    rw [Text.decodeLossy_encode]
    exact canonicalName_canonical hname
  refine ⟨h.canonical, fun old hold renamed' hrenamed => ?_, fun name c hc => ?_,
    fun old hold => ?_⟩
  case refine_1 =>
    by_cases hentry : old = entry
    · -- the entry itself stands under its canonical name, which it keeps
      subst hentry
      obtain rfl : renamed = renamed' := Option.some.inj (hname.symm.trans hrenamed)
      exact h.kept _ (mem_names_iff.mpr ⟨moved, by rw [lookup_renamed, if_pos rfl]⟩) _ hsettled
    · obtain ⟨c, hc⟩ := mem_names_iff.mp hold
      refine h.kept old (mem_names_iff.mpr ?_) renamed' hrenamed
      rw [lookup_renamed, if_neg hentry, hc]
      split
      · exact ⟨moved, rfl⟩
      · exact ⟨c, rfl⟩
  case refine_2 =>
    obtain ⟨old, hold, hsame⟩ := h.origin name c hc
    rw [lookup_renamed] at hold
    split at hold
    · rename_i hnew
      subst hnew
      refine ⟨entry, hmoved.trans hold, .inr ?_⟩
      rw [hname]
      rcases hsame with rfl | hcanonical
      · rw [Text.decodeLossy_encode]
      · exact hsettled.symm.trans hcanonical
    · split at hold
      · cases hold
      · exact ⟨old, hold, hsame⟩
  case refine_3 =>
    rw [h.others old hold, lookup_renamed, if_neg, if_neg]
    · rintro rfl
      rw [hname] at hold
      cases hold
    · rintro rfl
      rw [hsettled] at hold
      cases hold

/-- After one entry got its canonical name, fewer names are not canonical. -/
theorem mem_of_not_isCanonical_renamed {entry name : Bytes} {moved : Node}
    (hname : canonicalName (Text.decodeLossy entry) id = some renamed)
    (hmem : name ∈ (putEntry (cur.filter (·.1 != entry)) (Text.encode renamed) moved).map (·.1))
    (hnot : ¬ IsCanonical id name) : name ≠ entry ∧ name ∈ cur.map (·.1) := by
  obtain ⟨c, hc⟩ := mem_names_iff.mp hmem
  rw [lookup_renamed] at hc
  split at hc
  · rename_i hnew
    exact absurd (hnew ▸ isCanonical_encode hname) hnot
  · split at hc
    · cases hc
    · rename_i hentry
      exact ⟨hentry, mem_names_iff.mpr ⟨c, hc⟩⟩

/-- **Renaming leaves canonical names.**  If nothing fails, it is enough that no name is left out
that is not canonical. -/
theorem named_settleNames (fault : Bytes → Option Fault) (id : String) (listed : List Bytes) :
    ∀ {cur fin : List (Bytes × Node)},
      (∀ name ∈ cur.map (·.1), ¬ IsCanonical id name → name ∈ listed) →
      settleNames fault id listed (.dir cur) = (.ok (), .dir fin) → Named id cur fin := by
  induction listed with
  | nil =>
    intro cur fin hall h
    cases h
    exact .refl fun name hname => by_contra fun hnot => List.not_mem_nil (hall name hname hnot)
  | cons entry rest ih =>
    intro cur fin hall h
    -- a name that is canonical is passed over, and need not be listed
    have hskip : IsCanonical id entry →
        settleNames fault id rest (.dir cur) = (.ok (), .dir fin) → Named id cur fin := by
      intro hentry hrest
      refine ih (fun name hname hnot => ?_) hrest
      refine List.mem_of_ne_of_mem ?_ (hall name hname hnot)
      rintro rfl
      exact hnot hentry
    rw [settleNames] at h
    dsimp only at h
    cases hname : canonicalName (Text.decodeLossy entry) id with
    | none =>
      rw [hname] at h
      exact hskip (isCanonical_of_none hname) h
    | some renamed =>
      rw [hname] at h
      dsimp only at h
      by_cases hsame : renamed = Text.decodeLossy entry
      · rw [if_pos hsame] at h
        exact hskip (isCanonical_of_self (hsame ▸ hname)) h
      · rw [if_neg hsame] at h
        have hne : entry ≠ Text.encode renamed := by
          rintro rfl
          exact hsame (Text.decodeLossy_encode renamed).symm
        split at h
        · rename_i top hrenamed
          obtain ⟨moved, hmoved, rfl⟩ := renameEntry_eq_ok hrenamed hne
          refine .cons hmoved hname (ih (fun name hmem hnot => ?_) h)
          obtain ⟨hother, hbefore⟩ := mem_of_not_isCanonical_renamed hname hmem hnot
          exact List.mem_of_ne_of_mem hother (hall name hbefore hnot)
        · cases h

/-! ### Renaming does not fail -/

/-- A file is renamed onto a free name or onto a file. -/
theorem renameEntry_file {a b : Bytes} (hne : a ≠ b) {moved : Node}
    (hmoved : cur.lookup a = some moved) (hfile : moved.isFile = true)
    (hfiles : ∀ name c, cur.lookup name = some c → c.isFile = true) :
    (Node.dir cur).renameEntry a b none none =
      .ok (.dir (putEntry (cur.filter (·.1 != a)) b moved)) := by
  have hat : (Node.dir cur).at? [a] = some moved := by
    rw [at?_dir_cons, hmoved]
    rfl
  have hland : Disk.mayLand moved ((Node.dir cur).at? [b]) = .ok () := by
    cases hold : cur.lookup b with
    | none =>
      rw [at?_dir_cons, hold]
      rfl
    | some old =>
      rw [at?_dir_cons, hold]
      have holdFile := hfiles b old hold
      cases moved with
      | file _ =>
        cases old with
        | file _ => rfl
        | dir _ | link _ => cases holdFile
      | dir _ | link _ => cases hfile
  unfold renameEntry
  rw [hat]
  dsimp only
  rw [if_neg hne, hland]
  rfl

/-- **Renaming does not fail**, whatever was renamed before, if the entries are files and each name
that has to be renamed is met once. -/
theorem settleNames_eq_ok (fault : Bytes → Option Fault) (id : String) (listed : List Bytes) :
    ∀ {cur : List (Bytes × Node)}, (∀ name c, cur.lookup name = some c → c.isFile = true) →
      (∀ name ∈ listed, fault name = none ∧
        ∀ renamed, canonicalName (Text.decodeLossy name) id = some renamed →
          fault (Text.encode renamed) = none) →
      (∀ name ∈ listed, ¬ IsCanonical id name →
        name ∈ cur.map (·.1) ∧ listed.count name = 1) →
      ∃ fin, settleNames fault id listed (.dir cur) = (.ok (), .dir fin) := by
  induction listed with
  | nil => exact fun _ _ _ => ⟨_, rfl⟩
  | cons entry rest ih =>
    intro cur hfiles hfits honce
    have hlater : ∀ name ∈ rest, ¬ IsCanonical id name → name ≠ entry ∧ rest.count name = 1 := by
      intro name hmem hnot
      have hcount := (honce name (List.mem_cons_of_mem _ hmem) hnot).2
      have hpos := List.count_pos_iff.mpr hmem
      rw [List.count_cons] at hcount
      split at hcount
      · omega
      · rename_i hother
        refine ⟨fun heq => hother ?_, hcount⟩
        rw [heq]
        exact beq_self_eq_true entry
    have hskip : ∃ fin, settleNames fault id rest (.dir cur) = (.ok (), .dir fin) :=
      ih hfiles (fun name hmem => hfits name (List.mem_cons_of_mem _ hmem)) fun name hmem hnot =>
        ⟨(honce name (List.mem_cons_of_mem _ hmem) hnot).1, (hlater name hmem hnot).2⟩
    rw [settleNames]
    dsimp only
    cases hname : canonicalName (Text.decodeLossy entry) id with
    | none => exact hskip
    | some renamed =>
      dsimp only
      split
      · exact hskip
      · rename_i hother
        have hnot : ¬ IsCanonical id entry := fun h => hother (h renamed hname)
        have hne : entry ≠ Text.encode renamed := by
          rintro rfl
          exact hother (Text.decodeLossy_encode renamed).symm
        obtain ⟨moved, hmoved⟩ := mem_names_iff.mp (honce entry List.mem_cons_self hnot).1
        obtain ⟨hfault, hfault'⟩ := hfits entry List.mem_cons_self
        have hfile := hfiles entry moved hmoved
        rw [hfault, hfault' renamed hname, renameEntry_file hne hmoved hfile hfiles]
        refine ih (fun name c hc => ?_)
          (fun name hmem => hfits name (List.mem_cons_of_mem _ hmem)) fun name hmem hnot => ?_
        · rw [lookup_renamed] at hc
          split at hc
          · cases hc
            exact hfile
          · split at hc
            · cases hc
            · exact hfiles name c hc
        · -- a name that is still to be renamed is neither the one that is gone nor the new one
          obtain ⟨hentry, hcount⟩ := hlater name hmem hnot
          refine ⟨mem_names_iff.mpr ?_, hcount⟩
          rw [lookup_renamed, if_neg hentry, if_neg]
          · exact mem_names_iff.mp (honce name (List.mem_cons_of_mem _ hmem) hnot).1
          · rintro rfl
            exact hnot (isCanonical_encode hname)

end Node

namespace Thumbnails

open Disk

variable {id : String} {d d' : Disk} {dir : Path} {place : Place} {es : List (Bytes × Node)}
  {listed : List Bytes}

/-! ### The loop -/

/-- The entries of a directory are listed while they are renamed: in any order, with or without the
names that the renaming has made, and no name is left out that is not canonical. -/
structure Listed (id : String) (d : Disk) (dir : Path) (place : Place) (es : List (Bytes × Node))
    (listed : List Bytes) : Prop where
  reaches : d.Reaches dir place
  found : d.root.at? place = some (.dir es)
  names : ∀ name ∈ listed, IsName name
  complete : ∀ name ∈ es.map (·.1), ¬ IsCanonical id name → name ∈ listed

/-- Nothing but the renaming itself could make the renaming fail: the entries are files on one
device, their paths and those of their canonical names are short enough, and what has to be renamed
is there and is listed once. -/
structure Renamable (id : String) (d : Disk) (dir : Path) (place : Place)
    (es : List (Bytes × Node)) (listed : List Bytes) : Prop where
  files : ∀ e ∈ es, e.2.isFile = true
  oneDevice : ∀ a b, d.device (place ++ [a]) = d.device (place ++ [b])
  fits : ∀ name ∈ listed, pathFault? (dir.child name) name = none ∧
    ∀ renamed, canonicalName (Text.decodeLossy name) id = some renamed →
      pathFault? (dir.child (Text.encode renamed)) (Text.encode renamed) = none
  once : ∀ name ∈ listed, ¬ IsCanonical id name → name ∈ es.map (·.1) ∧ listed.count name = 1

/-- Adoption lists the entries of the directory to which it has moved them. -/
theorem listed_of_move {staging : Path} {origin : Place} {entries : List (Bytes × Node)}
    (hfiles : ∀ e ∈ es, e.2.isFile = true) (hlegible : (Node.dir es).Legible)
    (hfind : d.find false staging = .ok (origin, .dir es))
    (hgoal : d.resolve false dir = .ok (.free place))
    (hmove : moveDir d staging dir = (.ok (), d')) (hlist : d'.list dir = .ok entries) :
    Listed id d' dir place es (entries.map (·.1)) := by
  obtain ⟨hat, hreaches⟩ := arrives_of_move hfiles hlegible hfind hgoal hmove hlist
  obtain rfl : es = entries := Except.ok.inj ((hreaches.list hat).symm.trans hlist)
  refine ⟨hreaches, hat, fun name hname => ?_, fun name hname _ => hname⟩
  obtain ⟨e, he, rfl⟩ := List.mem_map.mp hname
  exact (hlegible.names [] es rfl e he).toIsName

/-- Canonical names are passed over. -/
theorem renameEntries_of_canonical (h : ∀ name ∈ listed, IsCanonical id name) (dir : Path)
    (d : Disk) : renameEntries dir id listed d = (.ok (), d) := by
  induction listed with
  | nil => rfl
  | cons entry rest ih =>
    obtain ⟨hentry, hrest⟩ := List.forall_mem_cons.mp h
    rw [renameEntries]
    split
    · exact ih hrest
    · rename_i renamed hname
      rw [if_pos (hentry renamed hname)]
      exact ih hrest

/-- A loop that comes to its end has left canonical names in the directory, and nothing else has
changed. -/
theorem Listed.named (h : Listed id d dir place es listed) (hplain : '/' ∉ id.toList)
    (hloop : renameEntries dir id listed d = (.ok (), d')) :
    ∃ fin, d'.list dir = .ok fin ∧ Node.Named id es fin ∧ d.Spares d' [place] := by
  obtain ⟨fin, hsettle, hat, hspares⟩ :=
    renameEntries_of_ok hplain listed h.names h.reaches h.found hloop
  exact ⟨fin, (h.reaches.spares hspares).list hat,
    Node.named_settleNames _ id listed h.complete hsettle, hspares⟩

/-- The loop comes to its end. -/
theorem Listed.renameEntries_eq_ok (h : Listed id d dir place es listed)
    (hplain : '/' ∉ id.toList) (hable : Renamable id d dir place es listed) :
    ∃ d', renameEntries dir id listed d = (.ok (), d') := by
  have hfiles : ∀ name c, es.lookup name = some c → c.isFile = true := by
    intro name c hc
    exact hable.files (name, c) (Node.mem_of_lookup hc)
  obtain ⟨fin, hsettle⟩ := Node.settleNames_eq_ok
    (fun name => pathFault? (dir.child name) name) id listed hfiles hable.fits hable.once
  obtain ⟨d', hloop, -, -⟩ :=
    renameEntries_eq hplain listed h.names d es h.reaches hable.oneDevice h.found
  exact ⟨d', by rw [hloop, hsettle]⟩

/-- **Canonical names settle.**  A canonical name is its own and has the form that it should, for
any name and identifier.  So the loop that renames the entries of a directory passes over what it
has made, leaves canonical names whatever it lists, and does not stop itself.  With a separator in
the identifier no entry can have a canonical name, and nothing is described for the document. -/
theorem canonical_names_settle (id : String) :
    (∀ name renamed, canonicalName name id = some renamed →
      canonicalName renamed id = some renamed ∧ imageEnding <:+ renamed.toList ∧
        ∃ size, FollowsLast marker name.toList size ∧
          renamed.toList = id.toList ++ marker ++ size) ∧
    (∀ name, (canonicalName name id).isSome = true ↔
      imageEnding <:+ name.toList ∧ marker <:+: name.toList) ∧
    (∀ d dir listed, (∀ name ∈ listed, IsCanonical id name) →
      renameEntries dir id listed d = (.ok (), d)) ∧
    ∀ d dir place es listed, Listed id d dir place es listed →
      ('/' ∉ id.toList →
        (∀ d', renameEntries dir id listed d = (.ok (), d') →
          ∃ fin, d'.list dir = .ok fin ∧ Node.Named id es fin ∧ d.Spares d' [place]) ∧
        (Renamable id d dir place es listed →
          ∃ d', renameEntries dir id listed d = (.ok (), d'))) ∧
      ('/' ∈ id.toList → d.Spelled → ∀ t m d', renameEntries dir id listed d = (.ok (), d') →
        describe t d' dir id ≠ .ok m) := by
  refine ⟨fun name renamed h => ?_, fun name => ?_,
    fun d dir _ h => renameEntries_of_canonical h dir d, fun d dir place es listed h =>
    ⟨fun hplain => ⟨fun d' hloop => h.named hplain hloop, h.renameEntries_eq_ok hplain⟩,
      fun hslash hspelled t m d' hloop hdescribe => ?_⟩⟩
  · have hown := canonicalName_canonical h
    exact ⟨hown, (canonicalName_eq_some_iff.mp hown).1, (canonicalName_eq_some_iff.mp h).2⟩
  · rw [canonicalName, canonicalChars, Option.isSome_map, ← List.isSuffixOf_iff_suffix,
      ← isSome_afterLast?_iff]
    split
    · rename_i hending
      rw [Option.isSome_map]
      simp [hending]
    · rename_i hending
      simp [hending]
  · have hspelled' : (renameEntries dir id listed d).2.Spelled := spelled_renameEntries hspelled
    rw [hloop] at hspelled'
    exact separator_not_mem_of_describe hspelled' hdescribe hslash

end Thumbnails

/-! ### Markers that overlap -/

namespace Sample

/-- An identifier that ends in most of a marker. -/
def hybrid : String := "d_thumb_0"

/-- Two thumbnails; in the name of the first one a marker begins where another one ends. -/
def overlapping : List (Bytes × Node) :=
  [(Text.encode "a_thumb_0_thumb_0_large.jpg", .file [1]),
    (Text.encode "b_thumb_0_small.jpg", .file [2])]

/-- They were moved to the place of their document. -/
def unsettled : Disk := walls [(Text.encode hybrid, .dir overlapping)] []

/-- The names are met from the last to the first one, and with the first name that was made. -/
def backwards : List Bytes :=
  [Text.encode "b_thumb_0_small.jpg", Text.encode "d_thumb_0_thumb_0_small.jpg",
    Text.encode "a_thumb_0_thumb_0_large.jpg"]

theorem canonicalName_small :
    Thumbnails.canonicalName "b_thumb_0_small.jpg" hybrid =
      some "d_thumb_0_thumb_0_small.jpg" := by
  decide +kernel

theorem canonicalName_large :
    Thumbnails.canonicalName "a_thumb_0_thumb_0_large.jpg" hybrid =
      some "d_thumb_0_thumb_0_large.jpg" := by
  decide +kernel

theorem isName_backwards : ∀ name ∈ backwards, Disk.IsName name := by
  simp only [backwards, List.forall_mem_cons]
  exact ⟨⟨by decide, by decide, by decide, by decide⟩,
    ⟨by decide, by decide, by decide, by decide⟩,
    ⟨by decide, by decide, by decide, by decide⟩, List.forall_mem_nil _⟩

theorem listed_backwards :
    Thumbnails.Listed hybrid unsettled (gallery.target hybrid)
      [Text.encode "t", Text.encode hybrid] overlapping backwards := by
  have hfree : (walls [] []).resolve false (gallery.target hybrid) =
      .ok (.free [Text.encode "t", Text.encode hybrid]) := by cbv
  have hmoved : (walls [] []).put [Text.encode "t", Text.encode hybrid] (.dir overlapping) =
      unsettled := by cbv
  have hreaches := (Disk.reaches_of_free hfree).spares (.put _ _ (.dir overlapping))
  rw [hmoved] at hreaches
  refine ⟨hreaches, by cbv, isName_backwards, fun name hname _ => ?_⟩
  have hall : ∀ name ∈ overlapping.map (·.1), name ∈ backwards := by decide
  exact hall name hname

theorem renamable_backwards :
    Thumbnails.Renamable hybrid unsettled (gallery.target hybrid)
      [Text.encode "t", Text.encode hybrid] overlapping backwards := by
  have hshort : ∀ name ∈ backwards, Disk.pathFault? ((gallery.target hybrid).child name) name =
      none := by
    decide +kernel
  have hlarge : Disk.pathFault? ((gallery.target hybrid).child
      (Text.encode "d_thumb_0_thumb_0_large.jpg")) (Text.encode "d_thumb_0_thumb_0_large.jpg") =
      none := by
    decide +kernel
  have hmade : Thumbnails.IsCanonical hybrid (Text.encode "d_thumb_0_thumb_0_small.jpg") :=
    Thumbnails.isCanonical_encode canonicalName_small
  refine ⟨by simp [overlapping, Node.isFile], fun _ _ => rfl, fun name hname => ?_,
    fun name hname hnot => ?_⟩
  · refine ⟨hshort name hname, fun renamed hrenamed => ?_⟩
    simp only [backwards, List.mem_cons, List.not_mem_nil, or_false] at hname
    rcases hname with rfl | rfl | rfl
    all_goals rw [Text.decodeLossy_encode] at hrenamed
    · rw [canonicalName_small] at hrenamed
      cases hrenamed
      exact hshort _ (by decide)
    · rw [Thumbnails.canonicalName_canonical canonicalName_small] at hrenamed
      cases hrenamed
      exact hshort _ (by decide)
    · rw [canonicalName_large] at hrenamed
      cases hrenamed
      exact hlarge
  · simp only [backwards, List.mem_cons, List.not_mem_nil, or_false] at hname
    rcases hname with rfl | rfl | rfl
    · exact ⟨by decide, by decide⟩
    · exact absurd hmade hnot
    · exact ⟨by decide, by decide⟩

end Sample

/-- The two thumbnails get their canonical names, though one of these is met again. -/
theorem canonical_names_settle_overlapping :
    ∃ d' fin, Thumbnails.renameEntries (Sample.gallery.target Sample.hybrid) Sample.hybrid
        Sample.backwards Sample.unsettled = (.ok (), d') ∧
      d'.list (Sample.gallery.target Sample.hybrid) = .ok fin ∧
      Node.Named Sample.hybrid Sample.overlapping fin := by
  obtain ⟨-, -, -, hloop⟩ := Thumbnails.canonical_names_settle Sample.hybrid
  obtain ⟨hsettles, hends⟩ := (hloop _ _ _ _ _ Sample.listed_backwards).1 (by decide)
  obtain ⟨d', hrenamed⟩ := hends Sample.renamable_backwards
  obtain ⟨fin, hlist, hnamed, -⟩ := hsettles d' hrenamed
  exact ⟨d', fin, hrenamed, hlist, hnamed⟩

end Corpus
