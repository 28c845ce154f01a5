/-
Corpus/Proofs/Readopting.lean

What is on the disk once thumbnails were adopted, and what adopting them again does.

An adoption that succeeds was able to follow every path it used, and these paths tell where the
changes on the disk were not: the way to the thumbnails leads neither through the staged directory
nor through the place of the document, and the way to the staged directory does not lead through
that place (`Thumbnails.Unhindered`).  So the staged directory is gone, the place of the document
holds its entries under settled names, and all else is as it was.  To adopt once more is to describe
those entries:

    adopt, then adopt again  =  adopt

(`Thumbnails.adoption_settles`).  Nothing depends on the order in which entries are listed, neither
those that are renamed nor those that are described.
-/
import Corpus.Proofs.Copying
import Corpus.Proofs.Describing
import Corpus.Proofs.Retracing

namespace Corpus

/-! ### Renaming that succeeded -/

namespace Disk

variable {d d' : Disk} {p : Path} {place : Place}

/-- An entry of a directory that was renamed was renamed within that directory. -/
theorem rename_child_of_ok (hopen : d.Opens p place) {a b : Bytes} (ha : IsName a) (hb : IsName b)
    {top : Node} (htop : d.root.at? place = some top)
    (h : d.rename (p.child a) (p.child b) = .ok d') :
    ∃ top', top.renameEntry a b (pathFault? (p.child a) a) (pathFault? (p.child b) b) =
        .ok top' ∧ d'.root.at? place = some top' ∧ d.Spares d' [place] := by
  have hdevice : d.device (place ++ [a]) = d.device (place ++ [b]) := by
    obtain ⟨origin, moved, found, hfind, hgoal, hsource, htarget⟩ := found_of_rename (.inl h)
    have hmoved := find_eq_ok.mp hfind
    have hlanding := hgoal
    rw [resolve_entry hopen ha htop] at hmoved
    rw [resolve_entry hopen hb htop] at hlanding
    split at hmoved
    · cases hmoved
    · split at hlanding
      · cases hlanding
      · -- both entries are where the directory has them, and the device is asked for there
        obtain rfl : foundAt (place ++ [b]) (top.at? [b]) = found := Except.ok.inj hlanding
        have horigin : place ++ [a] = origin := by
          cases hentry : top.at? [a] with
          | none =>
            rw [hentry] at hmoved
            cases hmoved
          | some n =>
            rw [hentry] at hmoved
            cases hmoved
            rfl
        by_contra hne
        rw [rename_of_find hfind hgoal hsource htarget (endsInSeparator_child hopen.nonempty hb),
          if_pos (horigin ▸ hne)] at h
        cases h
  have hrename := rename_child hopen ha hb hdevice htop
  split at hrename
  · rw [hrename] at h
    cases h
  · rename_i top' hlocal
    obtain ⟨d₁, hmoved, hat, hspares⟩ := hrename
    obtain rfl : d₁ = d' := Except.ok.inj (hmoved.symm.trans h)
    exact ⟨top', hlocal, hat, hspares⟩

theorem exists_find_of_isDir (h : d.isDir p = true) :
    ∃ place es, d.find true p = .ok (place, .dir es) := by
  rw [isDir, node?] at h
  cases hfind : d.find true p with
  | error fault =>
    rw [hfind] at h
    cases h
  | ok found =>
    obtain ⟨place, n⟩ := found
    rw [hfind] at h
    cases n with
    | dir es => exact ⟨place, es, rfl⟩
    | file _ | link _ => cases h

theorem isDir_of_list {es : List (Bytes × Node)} (h : d.list p = .ok es) : d.isDir p = true :=
  let ⟨_, hfind⟩ := find_of_list h
  isDir_of_find hfind

end Disk

namespace Thumbnails

open Disk

variable {t : Thumbnails} {d d' : Disk} {top : Place} {zones : List Place} {id : String}

/-- The entries of a directory that were renamed were renamed within it. -/
theorem renameEntries_of_ok {dir : Path} {place : Place} (hplain : '/' ∉ id.toList)
    (names : List Bytes) (hnames : ∀ name ∈ names, IsName name) :
    ∀ {d es d'}, d.Reaches dir place → d.root.at? place = some (.dir es) →
      renameEntries dir id names d = (.ok (), d') →
      ∃ fin, Node.settleNames (fun name => pathFault? (dir.child name) name) id names (.dir es) =
          (.ok (), .dir fin) ∧
        d'.root.at? place = some (.dir fin) ∧ d.Spares d' [place] := by
  induction names with
  | nil =>
    intro d es d' _ hdir h
    cases h
    exact ⟨es, rfl, hdir, .refl d _⟩
  | cons entry rest ih =>
    intro d es d' hreaches hdir h
    replace ih := @ih fun name hname => hnames name (List.mem_cons_of_mem _ hname)
    rw [renameEntries] at h
    rw [Node.settleNames]
    dsimp only at h ⊢
    cases hname : canonicalName (Text.decodeLossy entry) id with
    | none =>
      rw [hname] at h
      exact ih hreaches hdir h
    | some renamed =>
      rw [hname] at h
      dsimp only at h ⊢
      by_cases hsame : renamed = Text.decodeLossy entry
      · rw [if_pos hsame] at h ⊢
        exact ih hreaches hdir h
      · rw [if_neg hsame] at h ⊢
        split at h
        · rename_i d₁ hrename
          have hentry : IsName entry := hnames entry List.mem_cons_self
          obtain ⟨top', hlocal, hdir₁, hspares₁⟩ :=
            rename_child_of_ok (hreaches.opens hdir) hentry
              (isName_canonicalName hplain hentry hname) hdir hrename
          obtain ⟨es₁, rfl⟩ := Node.isDir_renameEntry hlocal
          obtain ⟨fin, hfin, hdir', hspares'⟩ := ih (hreaches.spares hspares₁) hdir₁ h
          rw [hlocal]
          exact ⟨fin, hfin, hdir', hspares₁.trans hspares'⟩
        · cases h

/-! ### Where the changes were not -/

/-- Staged thumbnails that nothing stands in the way of: no path that is still followed leads
through the place where they go, and that place is free. -/
structure Unhindered (t : Thumbnails) (d : Disk) (top : Place) (staging : Path) (id : String)
    (origin : Place) (es : List (Bytes × Node)) : Prop where
  rooted : t.Rooted d top [shelf top id]
  found : d.find false staging = .ok (origin, .dir es)
  away : ∀ q ∈ d.trail false staging, ¬ shelf top id <+: q
  free : d.root.at? (shelf top id) = none
  fits : pathFault? (t.target id) (Text.encode id) = none

variable {staging : Path} {origin : Place} {es : List (Bytes × Node)}

/-- **The way to the thumbnails** does not lead through what is gone, if the place of a document can
still be looked for. -/
theorem Rooted.of_resolve {tes : List (Bytes × Node)} (hid : IsName (Text.encode id))
    (hroot : d.find true t.root = .ok (top, .dir tes)) (hspares : d.Spares d' zones)
    (hlost : ∀ q ∈ d.trail true t.root, ∀ z ∈ zones, z <+: q → d'.root.look q = none)
    (htop : ∀ z ∈ zones, ¬ z <+: top) {follow : Bool} {found : Found}
    (htarget : d'.resolve follow (t.target id) = .ok found) : t.Rooted d top zones := by
  have hpart : ∀ q ∈ d.trail true t.root,
      d'.root.look q = none ∨ d'.root.look q = d.root.look q := by
    intro q hq
    by_cases hwithin : ∃ z ∈ zones, z <+: q
    · obtain ⟨z, hz, hprefix⟩ := hwithin
      exact .inl (hlost q hq z hz hprefix)
    · exact .inr (hspares.look q fun z hz hprefix => hwithin ⟨z, hz, hprefix⟩)
  have hsame := look_of_resolve_child hspares.workingDir hroot hid htarget
    (hspares.look top htop) hpart
  refine ⟨⟨tes, hroot⟩, fun q hq z hz hprefix => ?_⟩
  exact look_ne_none_of_mem_trail hroot q hq ((hsame q hq).symm.trans (hlost q hq z hz hprefix))

/-- Nothing is wrong with the path of the place of a document that can be looked for once it was
cleared. -/
theorem fits_of_clear (hopen : d.Opens t.root top) (hid : IsName (Text.encode id))
    (hlink : ∀ target, d.root.at? (shelf top id) ≠ some (.link target))
    (hclear : clear d (t.target id) = .ok d') {found : Found}
    (htarget : d'.resolve false (t.target id) = .ok found) :
    pathFault? (t.target id) (Text.encode id) = none := by
  cases hfault : pathFault? (t.target id) (Text.encode id) with
  | none => rfl
  | some fault =>
    have hresolve : ∀ follow, d.resolve follow (t.target id) = .error fault := by
      intro follow
      have hchild : d.resolve follow (t.target id) = _ := resolve_child hopen hid fun _ => hlink
      rw [← target, hfault] at hchild
      exact hchild
    -- nothing seems to be there, so nothing was cleared and the fault is still there
    have hgone : d.exists? (t.target id) = false := by
      rw [exists?, node?, find, hresolve]
      rfl
    rw [clear, hgone] at hclear
    obtain rfl : d = d' := Except.ok.inj hclear
    rw [hresolve] at htarget
    cases htarget

/-- **Clearing.**  If the staged directory could be moved once the place of the document had been
cleared, neither path led through that place. -/
theorem unhindered_of_clear (hid : IsName (Text.encode id)) {tes : List (Bytes × Node)}
    (hroot : d.find true t.root = .ok (top, .dir tes))
    (hstaged : d.find false staging = .ok (origin, .dir es))
    (hprevious : d.root.at? (shelf top id) = none ∨
      ∃ old, d.root.at? (shelf top id) = some (.dir old))
    (hapart : origin.Apart (shelf top id)) (hclear : clear d (t.target id) = .ok d')
    {found : Found} (htarget : d'.resolve false (t.target id) = .ok found)
    {origin' : Place} {moved : Node} (hmoved : d'.find false staging = .ok (origin', moved)) :
    t.Unhindered d' top staging id origin es ∧ d.Spares d' [shelf top id] := by
  have hopen := opens_of_find hroot
  have hlink : ∀ target, d.root.at? (shelf top id) ≠ some (.link target) := by
    intro target hat
    rcases hprevious with hnone | ⟨old, hold⟩
    · cases hnone.symm.trans hat
    · cases hold.symm.trans hat
  have hfits := fits_of_clear hopen hid hlink hclear htarget
  obtain ⟨d₁, hcleared, hfree, hspares⟩ := clear_of_opens hopen hid hfits hprevious
  obtain rfl : d₁ = d' := Except.ok.inj (hcleared.symm.trans hclear)
  have hgone : ∀ z ∈ [shelf top id], d₁.root.at? z = none := List.forall_mem_singleton.mpr hfree
  have htop : ∀ z ∈ [shelf top id], ¬ z <+: top := by
    rw [List.forall_mem_singleton]
    exact fun hprefix => by simpa [shelf] using hprefix.length_le
  have hrooted : t.Rooted d top [shelf top id] := .of_resolve hid hroot hspares
    (fun q _ z hz => Node.look_below_eq_none (hgone z hz)) htop htarget
  obtain ⟨htrail, haway⟩ := hspares.away_of_find hgone hmoved
  have hfound : d₁.find false staging = .ok (origin, .dir es) := by
    obtain ⟨es', hfind⟩ := hspares.find_dir haway hstaged
    have hat := hspares.at? origin (List.forall_mem_singleton.mpr hapart.symm)
    rw [at?_of_find hfind, at?_of_find hstaged] at hat
    cases hat
    exact hfind
  exact ⟨⟨hrooted.spares hspares, hfound,
    fun q hq => haway q (htrail ▸ hq) _ List.mem_cons_self, hfree, hfits⟩, hspares⟩

namespace Unhindered

/-- The place of the document is free. -/
theorem resolve_target (h : t.Unhindered d top staging id origin es)
    (hid : IsName (Text.encode id)) :
    d.resolve false (t.target id) = .ok (.free (shelf top id)) := by
  have hchild : d.resolve false (t.target id) = _ := resolve_child h.rooted.opens hid (by simp)
  rw [← target, h.fits, ← shelf, h.free] at hchild
  exact hchild

/-- The staged directory can be copied to where it goes. -/
theorem copyable (h : t.Unhindered d top staging id origin es) (hid : IsName (Text.encode id))
    (hlegible : (Node.dir es).Legible) (hapart : origin.Apart (shelf top id)) :
    d.Copyable staging origin (.dir es) (t.target id) (shelf top id) := by
  obtain ⟨tes, hroot⟩ := h.rooted.found
  exact copyable_of_free h.found hlegible.lawful (h.resolve_target hid) hapart.1
    ⟨top, Text.encode id, tes, rfl, at?_of_find hroot⟩

/-- What is copied is put there as a copy, and then removed. -/
theorem moveByCopy_eq (h : t.Unhindered d top staging id origin es) (hid : IsName (Text.encode id))
    (hlegible : (Node.dir es).Legible) (hapart : origin.Apart (shelf top id))
    (hmove : moveByCopy d staging (t.target id) = (.ok (), d')) :
    ∃ copies, (Node.dir es).Copies (.dir copies) ∧
      d' = (d.put (shelf top id) (.dir copies)).erase origin := by
  rw [moveByCopy] at hmove
  split at hmove
  · cases hmove
  · rename_i between hcopy
    obtain ⟨copies, hcopies, rfl⟩ := (h.copyable hid hlegible hapart).copyDir_copies
      (find_follow h.found).1 hcopy
    obtain ⟨es', hfind⟩ := find_dir_of_free h.free (.put d (shelf top id) (.dir copies)) h.found
    have hremove : (d.put (shelf top id) (.dir copies)).removeDir staging =
        .ok ((d.put (shelf top id) (.dir copies)).erase origin) := by
      rw [removeDir, hfind]
    rw [hremove] at hmove
    cases hmove
    exact ⟨copies, hcopies, rfl⟩

/-- **Moving**, by a rename or by copying, takes the staged directory away and puts it, or a copy of
it, where nothing stood. -/
theorem move_spec (h : t.Unhindered d top staging id origin es) (hid : IsName (Text.encode id))
    (hlegible : (Node.dir es).Legible) (hapart : origin.Apart top)
    (hmove : moveDir d staging (t.target id) = (.ok (), d')) :
    ∃ moved, (moved = es ∨ (Node.dir es).Copies (.dir moved)) ∧
      d'.root.at? (shelf top id) = some (.dir moved) ∧ d'.root.at? origin = none ∧
      d.Spares d' [origin, shelf top id] := by
  have hshelf : origin.Apart (shelf top id) := hapart.below _
  obtain ⟨tes, hroot⟩ := h.rooted.found
  have horigin : origin ≠ [] := by
    rintro rfl
    exact hapart.1 List.nil_prefix
  rw [moveDir] at hmove
  split at hmove
  · rename_i between hrename
    obtain rfl : between = d' := congrArg Prod.snd hmove
    obtain ⟨-, rfl⟩ := rename_onto h.found (h.resolve_target hid) hrename
    obtain ⟨hat, hspares⟩ := at?_shelf_of_move (at?_of_find hroot) hapart.1 (.dir es)
    refine ⟨es, .inl rfl, hat, ?_, hspares⟩
    -- what is put elsewhere does not bring the staged directory back
    exact (Node.at?_amend _ hshelf.symm (some (.dir es))).trans (d.root.at?_erase_self horigin)
  · obtain ⟨copies, hcopies, rfl⟩ := h.moveByCopy_eq hid hlegible hshelf hmove
    have hput : (d.put (shelf top id) (.dir copies)).root.at? (shelf top id) = _ :=
      Node.at?_put_self ⟨top, Text.encode id, tes, rfl, at?_of_find hroot⟩ (.dir copies)
    exact ⟨copies, .inr hcopies, (Node.at?_amend _ hshelf none).trans hput,
      Node.at?_erase_self _ horigin,
      ((Spares.put d _ _).among (by simp)).trans ((Spares.erase _ origin).among (by simp))⟩
  · cases hmove

/-- **Listing** what was moved takes a way to the thumbnails that does not lead through the staged
directory. -/
theorem rooted_of_list (h : t.Unhindered d top staging id origin es) (hid : IsName (Text.encode id))
    (hapart : origin.Apart top) (hgone : d'.root.at? origin = none)
    (hspares : d.Spares d' [origin, shelf top id]) {entries : List (Bytes × Node)}
    (hlist : d'.list (t.target id) = .ok entries) : t.Rooted d top [origin, shelf top id] := by
  obtain ⟨tes, hroot⟩ := h.rooted.found
  have hresolve : ∃ found, d'.resolve true (t.target id) = .ok found := by
    cases hfound : d'.resolve true (t.target id) with
    | ok found => exact ⟨found, rfl⟩
    | error fault =>
      rw [list, node?, find, hfound] at hlist
      cases hlist
  obtain ⟨found, hresolve⟩ := hresolve
  have htop : ∀ z ∈ [origin, shelf top id], ¬ z <+: top := by
    simpa using ⟨hapart.1, h.rooted.not_prefix_top List.mem_cons_self⟩
  refine .of_resolve hid hroot hspares (fun q hq z hz hprefix => ?_) htop hresolve
  rcases List.mem_cons.mp hz with rfl | hz
  · exact Node.look_below_eq_none hgone hprefix
  · exact absurd hprefix (h.rooted.away q hq z hz)

/-- **The staged directory is gone**: its path leads to nothing. -/
theorem not_exists (h : t.Unhindered d top staging id origin es) (hgone : d'.root.at? origin = none)
    (hspares : d.Spares d' [origin, shelf top id]) : d'.exists? staging = false := by
  rw [exists?, node?]
  cases hfind : d'.find true staging with
  | error fault => rfl
  | ok found =>
    exfalso
    obtain ⟨hfollow, htrail⟩ := find_follow h.found
    have hlost : ∀ {q}, origin <+: q → d'.root.look q = none := Node.look_below_eq_none hgone
    have hsame := look_of_find hspares.workingDir hfollow hfind fun q hq => by
      by_cases horigin : origin <+: q
      · exact .inl (hlost horigin)
      · exact .inr (hspares.look q (by simpa using ⟨horigin, h.away q (htrail ▸ hq)⟩))
    -- the path would have to end where nothing is left
    have hend := mem_trail_of_find hfollow
    exact look_ne_none_of_mem_trail hfollow origin hend
      ((hsame origin hend).symm.trans (hlost (List.prefix_refl _)))

end Unhindered

/-! ### The steps of an adoption -/

/-- An adoption of a staged directory that succeeded went through all of its steps. -/
theorem adopt_eq_ok {made : Disk} {m : ImageMetadata} (hstaged : d.isDir staging = true)
    (hmake : d.makeDirs t.root = (.ok (), made)) (h : t.adopt d staging id = (.ok m, d')) :
    ∃ cleared moved entries, clear made (t.target id) = .ok cleared ∧
      moveDir cleared staging (t.target id) = (.ok (), moved) ∧
      moved.list (t.target id) = .ok entries ∧
      renameEntries (t.target id) id (entries.map (·.1)) moved = (.ok (), d') ∧
      t.describe d' (t.target id) id = .ok m := by
  rw [adopt, hstaged, hmake, Bool.not_true, if_neg Bool.false_ne_true,
    show t.root.join (.ofText id) = t.target id from rfl] at h
  dsimp only at h
  split at h
  · cases h
  · rename_i cleared hclear
    split at h
    · cases h
    · rename_i moved hmove
      split at h
      · cases h
      · rename_i entries hlist
        split at h
        · cases h
        · rename_i renamed hrename
          obtain ⟨hdescribe, rfl⟩ := Prod.mk.inj h
          exact ⟨cleared, moved, entries, hclear, hmove, hlist, hrename, hdescribe⟩

/-- An adoption whose steps succeed describes what is there in the end. -/
theorem adopt_of_steps {made cleared moved renamed : Disk} {entries : List (Bytes × Node)}
    (hstaged : d.isDir staging = true) (hmake : d.makeDirs t.root = (.ok (), made))
    (hclear : clear made (t.target id) = .ok cleared)
    (hmove : moveDir cleared staging (t.target id) = (.ok (), moved))
    (hlist : moved.list (t.target id) = .ok entries)
    (hrename : renameEntries (t.target id) id (entries.map (·.1)) moved = (.ok (), renamed)) :
    t.adopt d staging id = (t.describe renamed (t.target id) id, renamed) := by
  rw [adopt, hstaged, show t.root.join (.ofText id) = t.target id from rfl]
  simp only [Bool.not_true, Bool.false_eq_true, if_false, hmake, hclear, hmove, hlist, hrename]

/-- What was moved was found, and so was the place where it went. -/
theorem found_of_move {source target : Path} (h : moveDir d source target = (.ok (), d')) :
    ∃ origin moved found, d.find false source = .ok (origin, moved) ∧
      d.resolve false target = .ok found := by
  have hrename : d.rename source target = .ok d' ∨
      d.rename source target = .error .otherDevice := by
    rw [moveDir] at h
    split at h
    · rename_i hrename
      exact .inl (hrename.trans (congrArg Except.ok (congrArg Prod.snd h)))
    · rename_i hrename
      exact .inr hrename
    · cases h
  obtain ⟨origin, moved, found, hfind, hresolve, -, -⟩ := found_of_rename hrename
  exact ⟨origin, moved, found, hfind, hresolve⟩

/-- What holds of the entries in the place of a document whose staged entries were adopted. -/
structure Shelved (t : Thumbnails) (id : String) (es fin : List (Bytes × Node))
    (m : ImageMetadata) : Prop where
  /-- No name is listed twice. -/
  nodup : (fin.map (·.1)).Nodup
  /-- The names are those that were staged, as they are settled. -/
  names : ∀ name, name ∈ fin.map (·.1) ↔ ∃ old ∈ es.map (·.1), settledName id old = name
  /-- Every node was staged, or is the copy of one that was. -/
  nodes : ∀ name c, (name, c) ∈ fin → ∃ old staged, (old, staged) ∈ es ∧
    name = settledName id old ∧ (c = staged ∨ staged.Copies c)
  /-- The metadata says what the names say. -/
  describes : t.Describes id (fin.map fun e => Text.decodeLossy e.1) m
  /-- The order in which the names are listed does not matter to it. -/
  anyOrder : ∀ listed, listed.Perm (fin.map fun e => Text.decodeLossy e.1) →
    t.describeNames id listed = .ok m

/-- Whatever entries are listed while they are renamed, as long as none is left out that has to be
renamed, the place of the document is described as it is here. -/
def Unordered (t : Thumbnails) (id : String) (es : List (Bytes × Node)) (moved : Disk)
    (m : ImageMetadata) : Prop :=
  ∀ listed renamed,
    (∀ name ∈ listed, IsName name ∧ ∃ s, name = Text.encode s) →
    (∀ old ∈ es.map (·.1), settledName id old ≠ old → old ∈ listed) →
    renameEntries (t.target id) id listed moved = (.ok (), renamed) →
      t.describe renamed (t.target id) id = .ok m

/-- **Renaming** settles the names of the directory, whatever is listed, and leaves all else. -/
theorem settles_of_reaches {dir : Path} {place : Place} (hreaches : d.Reaches dir place)
    (hplain : '/' ∉ id.toList) {cur : List (Bytes × Node)}
    (hdir : d.root.at? place = some (.dir cur)) (hnodup : (cur.map (·.1)).Nodup)
    {listed : List Bytes} (hlisted : ∀ name ∈ listed, IsName name ∧ ∃ s, name = Text.encode s)
    (h : renameEntries dir id listed d = (.ok (), d')) :
    ∃ fin, d'.root.at? place = some (.dir fin) ∧ d.Spares d' [place] ∧ d'.list dir = .ok fin ∧
      Node.Settles id listed cur fin := by
  obtain ⟨fin, hsettle, hat, hspares⟩ := renameEntries_of_ok hplain listed
    (fun name hname => (hlisted name hname).1) hreaches hdir h
  exact ⟨fin, hat, hspares, (hreaches.spares hspares).list hat,
    Node.settleNames_spec _ id listed (fun name hname => (hlisted name hname).2) hnodup hsettle⟩

/-- The same of the directory of a document. -/
theorem settles_of_rename (hroot : t.Rooted d top [shelf top id]) (hid : IsName (Text.encode id))
    (hfits : pathFault? (t.target id) (Text.encode id) = none) {cur : List (Bytes × Node)}
    (hdir : d.root.at? (shelf top id) = some (.dir cur)) (hnodup : (cur.map (·.1)).Nodup)
    {listed : List Bytes} (hlisted : ∀ name ∈ listed, IsName name ∧ ∃ s, name = Text.encode s)
    (h : renameEntries (t.target id) id listed d = (.ok (), d')) :
    ∃ fin, d'.root.at? (shelf top id) = some (.dir fin) ∧ d.Spares d' [shelf top id] ∧
      d'.list (t.target id) = .ok fin ∧ Node.Settles id listed cur fin := by
  have hplain : '/' ∉ id.toList := fun hslash => hid.whole
    (List.mem_flatMap.mpr ⟨'/', hslash, Text.separator_mem_encodeChar_iff.mpr rfl⟩)
  exact settles_of_reaches (hroot.reaches hid hfits) hplain hdir hnodup hlisted h

theorem describe_of_list {dir : Path} {fin : List (Bytes × Node)} (h : d.list dir = .ok fin) :
    t.describe d dir id = t.describeNames id (fin.map fun e => Text.decodeLossy e.1) := by
  rw [describe, h]

/-- What was moved holds nodes that were staged, or copies of them, under the names that were
staged. -/
structure Arrived (es cur : List (Bytes × Node)) : Prop where
  names : cur.map (·.1) = es.map (·.1)
  nodes : ∀ name c, (name, c) ∈ cur → ∃ staged, (name, staged) ∈ es ∧ (c = staged ∨ staged.Copies c)

theorem arrived_of_copies {cur : List (Bytes × Node)}
    (h : cur = es ∨ (Node.dir es).Copies (.dir cur)) : Arrived es cur := by
  rcases h with rfl | h
  · exact ⟨rfl, fun name c hc => ⟨c, hc, .inl rfl⟩⟩
  · refine ⟨?_, fun name c hc => ?_⟩
    · cases h with
      | dir names nodes => exact names
    · obtain ⟨staged, hstaged, hcopy⟩ := h.exists_of_mem hc
      exact ⟨staged, hstaged, .inr hcopy⟩

/-- The entries under settled names are as the metadata says. -/
theorem shelved_of_settles {cur fin : List (Bytes × Node)} (hlegible : (Node.dir es).Legible)
    (harrived : Arrived es cur) {listed : List Bytes}
    (hall : ∀ old ∈ es.map (·.1), settledName id old ≠ old → old ∈ listed)
    (h : Node.Settles id listed cur fin) {m : ImageMetadata}
    (hdescribe : t.describeNames id (fin.map fun e => Text.decodeLossy e.1) = .ok m) :
    t.Shelved id es fin m := by
  have hnames : ∀ name, name ∈ fin.map (·.1) ↔ ∃ old ∈ es.map (·.1), settledName id old = name := by
    intro name
    rw [← harrived.names] at hall ⊢
    exact h.mem_names hall
  have htext : ∀ name ∈ fin.map (·.1), ∃ s, name = Text.encode s := by
    intro name hname
    obtain ⟨old, hold, rfl⟩ := (hnames name).mp hname
    obtain ⟨e, he, rfl⟩ := List.mem_map.mp hold
    exact settledName_text id (hlegible.names [] es rfl e he).text
  -- names that are text are told apart by what is read off them
  have hdistinct : (fin.map fun e => Text.decodeLossy e.1).Nodup := by
    have hmap : (fin.map fun e => Text.decodeLossy e.1) =
        (fin.map (·.1)).map Text.decodeLossy := by rw [List.map_map]; rfl
    rw [hmap]
    refine h.nodup.map_on fun a ha b hb hsame => ?_
    obtain ⟨s, rfl⟩ := htext a ha
    obtain ⟨s', rfl⟩ := htext b hb
    rw [Text.decodeLossy_encode, Text.decodeLossy_encode] at hsame
    rw [hsame]
  refine ⟨h.nodup, hnames, fun name c hc => ?_, describeNames_spec hdistinct hdescribe,
    fun names hperm => (describeNames_perm hperm).trans hdescribe⟩
  obtain ⟨old, hold, rfl⟩ := h.origin name c ((Node.lookup_eq_some_iff h.nodup).mpr hc)
  have hnodup : (cur.map (·.1)).Nodup := harrived.names ▸ hlegible.distinct [] es rfl
  obtain ⟨staged, hstaged, hcopy⟩ :=
    harrived.nodes old c ((Node.lookup_eq_some_iff hnodup).mp hold)
  exact ⟨old, staged, hstaged,
    Node.settledAmong_eq (hall old (List.mem_map.mpr ⟨_, hstaged, rfl⟩)), hcopy⟩

/-- What has become of staged thumbnails that were adopted on disk `d`, where `made` is that disk
once the directory of all thumbnails was there. -/
structure Adopted (t : Thumbnails) (d made d' : Disk) (staging : Path) (id : String)
    (origin top : Place) (es : List (Bytes × Node)) (m : ImageMetadata) : Prop where
  /-- The staged directory is gone. -/
  gone : d'.exists? staging = false ∧ d'.root.at? origin = none
  /-- In the place of the document stand the entries that were staged, and no others. -/
  shelved : ∃ fin, d'.list (t.target id) = .ok fin ∧
    d'.root.at? (shelf top id) = some (.dir fin) ∧ t.Shelved id es fin m
  /-- Apart from these two places all is as it was. -/
  elsewhere : made.Spares d' [origin, shelf top id]
  /-- Making the directory of all thumbnails added directories at most, and none if it was there. -/
  grown : d.Grows made ∧ (d.isDir t.root = true → made = d)
  /-- Whatever was listed while the entries were renamed, the metadata is the same. -/
  unordered : ∀ cleared moved, clear made (t.target id) = .ok cleared →
    moveDir cleared staging (t.target id) = (.ok (), moved) → t.Unordered id es moved m
  /-- Adopting again says the same and changes nothing. -/
  again : t.adopt d' staging id = (.ok m, d')

/-- Where nothing is staged any more the place of the document is described. -/
theorem adopt_of_gone (hgone : d.exists? staging = false) (hdir : d.isDir (t.target id) = true) :
    t.adopt d staging id = (t.describe d (t.target id) id, d) := by
  have hmissing : d.isDir staging = false := by
    rw [exists?] at hgone
    rw [isDir]
    cases hnode : d.node? staging with
    | error fault => rfl
    | ok n =>
      rw [hnode] at hgone
      cases hgone
  rw [adopt, hmissing, Bool.not_false, if_pos rfl,
    show t.root.join (.ofText id) = t.target id from rfl, hdir, if_pos rfl]

/-- **Adoption settles.**  A directory of legible names is staged, apart from the directory of all
thumbnails, and a directory or nothing stands in the place of the document.  If adoption succeeds,
the staged entries have replaced what was there, and adopting them again changes nothing. -/
theorem adoption_settles {made : Disk} {tes : List (Bytes × Node)} {m : ImageMetadata}
    (hid : IsName (Text.encode id)) (hmake : d.makeDirs t.root = (.ok (), made))
    (hroot : made.find true t.root = .ok (top, .dir tes)) (hdir : d.isDir staging = true)
    (hstaged : made.find false staging = .ok (origin, .dir es)) (hlegible : (Node.dir es).Legible)
    (hprevious : ∀ n, d.root.at? (shelf top id) = some n → n.isDir = true)
    (hapart : origin.Apart top) (h : t.adopt d staging id = (.ok m, d')) :
    t.Adopted d made d' staging id origin top es m := by
  have hgrows : d.Grows made := by
    have hgrown := grows_makeDirs d t.root
    rwa [hmake] at hgrown
  have hvacant : made.root.at? (shelf top id) = none ∨
      ∃ old, made.root.at? (shelf top id) = some (.dir old) := by
    cases hat : made.root.at? (shelf top id) with
    | none => exact .inl rfl
    | some n =>
      have hdir := hgrows.isDir hprevious hat
      cases n with
      | dir old => exact .inr ⟨old, rfl⟩
      | file _ | link _ => cases hdir
  -- each step that succeeded says where its paths led
  obtain ⟨cleared, moved, entries, hclear, hmove, hlist, hrename, hdescribe⟩ :=
    adopt_eq_ok hdir hmake h
  obtain ⟨origin', n, found, hfound, htarget⟩ := found_of_move hmove
  obtain ⟨hway, hspares₁⟩ :=
    unhindered_of_clear hid hroot hstaged hvacant (hapart.below _) hclear htarget hfound
  obtain ⟨cur, hcur, hat, hgone, hspares₂⟩ := hway.move_spec hid hlegible hapart hmove
  have hrooted := (hway.rooted_of_list hid hapart hgone hspares₂ hlist).spares hspares₂
  have hrooted : t.Rooted moved top [shelf top id] :=
    hrooted.narrow (List.subset_cons_self _ _)
  have harrived := arrived_of_copies hcur
  have hnodup : (cur.map (·.1)).Nodup := harrived.names ▸ hlegible.distinct [] es rfl
  obtain rfl : cur = entries :=
    Except.ok.inj ((list_target hrooted hid hway.fits hat).symm.trans hlist)
  have hlisted : ∀ name ∈ cur.map (·.1), IsName name ∧ ∃ s, name = Text.encode s := by
    rw [harrived.names]
    intro name hname
    obtain ⟨e, he, rfl⟩ := List.mem_map.mp hname
    have hlegible := hlegible.names [] es rfl e he
    exact ⟨hlegible.toIsName, hlegible.text⟩
  obtain ⟨fin, hfin, hspares₃, hlist', hsettles⟩ :=
    settles_of_rename hrooted hid hway.fits hat hnodup hlisted hrename
  have hshelved : t.Shelved id es fin m := by
    rw [describe_of_list hlist'] at hdescribe
    exact shelved_of_settles hlegible harrived (fun old hold _ => harrived.names ▸ hold) hsettles
      hdescribe
  have hspares : cleared.Spares d' [origin, shelf top id] :=
    hspares₂.trans (hspares₃.among (by simp))
  have hgone' : d'.root.at? origin = none := by
    rw [hspares₃.at? origin (List.forall_mem_singleton.mpr (hapart.below _).symm), hgone]
  have hexists := hway.not_exists hgone' hspares
  constructor
  case gone => exact ⟨hexists, hgone'⟩
  case shelved => exact ⟨fin, hlist', hfin, hshelved⟩
  case elsewhere => exact (hspares₁.among (by simp)).trans hspares
  case grown =>
    refine ⟨hgrows, fun hthere => ?_⟩
    obtain ⟨place, entries, hfind⟩ := exists_find_of_isDir hthere
    exact (congrArg Prod.snd (hmake.symm.trans (makeDirs_of_find hfind)))
  case unordered =>
    intro cleared' moved' hclear' hmove' listed renamed hlisted' hall hrename'
    obtain rfl : cleared = cleared' := Except.ok.inj (hclear.symm.trans hclear')
    obtain rfl : moved = moved' := congrArg Prod.snd (hmove.symm.trans hmove')
    obtain ⟨fin', -, -, hlist'', hsettles'⟩ :=
      settles_of_rename hrooted hid hway.fits hat hnodup hlisted' hrename'
    rw [describe_of_list hlist'']
    refine hshelved.anyOrder _ ?_
    have hperm := hsettles'.perm hsettles (fun old hold => hall old (harrived.names ▸ hold))
      fun old hold _ => hold
    have hread := hperm.map Text.decodeLossy
    rw [List.map_map, List.map_map] at hread
    exact hread
  case again => rw [adopt_of_gone hexists (isDir_of_list hlist'), hdescribe]

end Thumbnails

/-! ### Two thumbnails that replace an old one -/

namespace Sample

/-- Where thumbnails are kept. -/
def gallery : Thumbnails := ⟨.ofText "/t", "/p"⟩

/-- The thumbnails of one image. -/
def pictures (name : String) : List (Bytes × Node) :=
  [(Text.encode (name ++ "_thumb_0_large.jpg"), .file []),
    (Text.encode (name ++ "_thumb_0_small.jpg"), .file [])]

/-- A disk with thumbnails that are kept and others that are staged. -/
def walls (kept staged : List (Bytes × Node)) : Disk :=
  ⟨.dir [(Text.encode "t", .dir kept), (Text.encode "s", .dir staged)], [], []⟩

/-- Thumbnails are staged for a document that has some. -/
def beforehand : Disk :=
  walls [(Text.encode "d", .dir [(Text.encode "old.jpg", .file [])])]
    [(Text.encode "1", .dir (pictures "x"))]

/-- They were adopted. -/
def afterwards : Disk := walls [(Text.encode "d", .dir (pictures "d"))] []

/-- What is said of them. -/
def shown : ImageMetadata :=
  { hasImages := true
    imageCount := 1
    firstImage := "/p/d/d_thumb_0_large.jpg"
    allImages := ["/p/d/d_thumb_0_small.jpg"] }

/-- The names that the thumbnails have in the end. -/
def pictureNames : List String := ["d_thumb_0_large.jpg", "d_thumb_0_small.jpg"]

theorem describe_pictures {d : Disk} (hlisted : d.list (gallery.target "d") = .ok (pictures "d")) :
    gallery.describe d (gallery.target "d") "d" = .ok shown := by
  have hnames : ((pictures "d").map fun e => Text.decodeLossy e.1) = pictureNames := by cbv
  have hthumbnails : pictureNames.filter (Thumbnails.isThumbnail "d") = pictureNames := by
    decide +kernel
  have hsorted : pictureNames.mergeSort Thumbnails.nameLe = pictureNames :=
    List.mergeSort_of_pairwise (by decide +kernel)
  rw [Thumbnails.describe_of_list hlisted, hnames, Thumbnails.describeNames, hthumbnails, hsorted]
  decide +kernel

theorem adopt_beforehand :
    gallery.adopt beforehand (.ofText "/s/1") "d" = (.ok shown, afterwards) := by
  have hstaged : beforehand.isDir (.ofText "/s/1") = true := by cbv
  have hmade : beforehand.makeDirs gallery.root = (.ok (), beforehand) := by cbv
  have hcleared : Thumbnails.clear beforehand (gallery.target "d") =
      .ok (walls [] [(Text.encode "1", .dir (pictures "x"))]) := by cbv
  have hmoved : Thumbnails.moveDir (walls [] [(Text.encode "1", .dir (pictures "x"))])
      (.ofText "/s/1") (gallery.target "d") =
        (.ok (), walls [(Text.encode "d", .dir (pictures "x"))] []) := by cbv
  have hlisted : (walls [(Text.encode "d", .dir (pictures "x"))] []).list (gallery.target "d") =
      .ok (pictures "x") := by cbv
  have hrenamed : Thumbnails.renameEntries (gallery.target "d") "d" ((pictures "x").map (·.1))
      (walls [(Text.encode "d", .dir (pictures "x"))] []) = (.ok (), afterwards) := by cbv
  rw [Thumbnails.adopt_of_steps hstaged hmade hcleared hmoved hlisted hrenamed,
    describe_pictures (by cbv)]

end Sample

/-- The thumbnails are adopted in the place of the old one. -/
theorem adoption_settles_gallery :
    Sample.gallery.Adopted Sample.beforehand Sample.beforehand Sample.afterwards (.ofText "/s/1")
      "d" [Text.encode "s", Text.encode "1"] [Text.encode "t"] (Sample.pictures "x")
      Sample.shown := by
  have hdir : Sample.beforehand.isDir (.ofText "/s/1") = true := by cbv
  have hmade : Sample.beforehand.makeDirs Sample.gallery.root = (.ok (), Sample.beforehand) := by
    cbv
  have hroot : Sample.beforehand.find true Sample.gallery.root = .ok ([Text.encode "t"],
      .dir [(Text.encode "d", .dir [(Text.encode "old.jpg", .file [])])]) := by cbv
  have hstaged : Sample.beforehand.find false (.ofText "/s/1") =
      .ok ([Text.encode "s", Text.encode "1"], .dir (Sample.pictures "x")) := by cbv
  have hlegible : (Node.dir (Sample.pictures "x")).Legible := by
    refine .dir (by decide) (fun e he => ?_) fun e he => ?_
    · simp only [Sample.pictures, List.mem_cons, List.not_mem_nil, or_false] at he
      rcases he with rfl | rfl
      all_goals
        exact ⟨⟨by decide, by decide, by decide, by decide⟩, ⟨_, rfl⟩, by decide, by decide⟩
    · simp only [Sample.pictures, List.mem_cons, List.not_mem_nil, or_false] at he
      rcases he with rfl | rfl
      all_goals exact .file []
  have hprevious : Sample.beforehand.root.at? (Thumbnails.shelf [Text.encode "t"] "d") =
      some (.dir [(Text.encode "old.jpg", .file [])]) := by cbv
  exact Thumbnails.adoption_settles ⟨by decide, by decide, by decide, by decide⟩
    hmade hroot hdir hstaged hlegible
    (fun n hn => Option.some.inj (hprevious.symm.trans hn) ▸ rfl) ⟨by decide, by decide⟩
    Sample.adopt_beforehand

end Corpus
