/-
Corpus/Proofs/Adopting.lean

What the adoption of thumbnails does, told by what is staged alone.

Adoption takes a staged directory away and puts it under the name of its document.  Whatever
was there before is gone, and the entries are renamed within the new directory, so the result
and what stands there in the end depend on the staged entries but not on the rest of the disk.
Nothing changes but at the two places and below them.

This holds as long as neither the path of the thumbnails nor that of the staged directory leads
through one of the places that change, and both lie on one device.
-/
import Corpus.Proofs.Naming

namespace Corpus

/-! ### Directories that are there -/

namespace Disk

variable {d : Disk} {p : Path} {place : Place} {es : List (Bytes × Node)}

theorem isDir_of_find (h : d.find true p = .ok (place, .dir es)) : d.isDir p = true := by
  rw [isDir, node?, h]
  rfl

/-- A directory that is there is not made again. -/
theorem makeDirs_of_find (h : d.find true p = .ok (place, .dir es)) :
    d.makeDirs p = (.ok (), d) := by
  obtain ⟨hzero, hempty, hshort, hwalk⟩ := walk_of_resolve (find_eq_ok.mp h)
  obtain ⟨place', n', hwalk', -⟩ := walk_unfollowed hwalk
  have hresolve : d.resolve false p = .ok (.node place' n') :=
    (resolve_eq_walk hzero hempty hshort).trans hwalk'
  have hmake : d.makeDir p = .error .present := by rw [makeDir, hresolve]
  rw [makeDirs, makeDirsFrom, if_neg (by simpa using hempty), hmake]
  simp only [isDir_of_find h, if_true]

variable {d' : Disk} {goal : Place}

/-- The path leads to the place whenever a directory stands there, whatever has changed at that
place and below it. -/
def Reaches (d : Disk) (p : Path) (goal : Place) : Prop :=
  ∀ d' es, d.Spares d' [goal] → d'.root.at? goal = some (.dir es) →
    d'.find true p = .ok (goal, .dir es)

namespace Reaches

theorem spares (h : d.Reaches p goal) (hspares : d.Spares d' [goal]) : d'.Reaches p goal :=
  fun d'' es hspares' => h d'' es (hspares.trans hspares')

theorem find (h : d.Reaches p goal) (hat : d.root.at? goal = some (.dir es)) :
    d.find true p = .ok (goal, .dir es) := h d es (.refl d _) hat

theorem opens (h : d.Reaches p goal) (hat : d.root.at? goal = some (.dir es)) : d.Opens p goal :=
  opens_of_find (h.find hat)

theorem list (h : d.Reaches p goal) (hat : d.root.at? goal = some (.dir es)) :
    d.list p = .ok es := by
  rw [Disk.list, node?, h.find hat]
  rfl

end Reaches

end Disk

/-! ### Renaming within a directory -/

/-- Whether a node may be moved to where another one may stand. -/
def Disk.mayLand (moved : Node) : Option Node → Except Fault Unit
  | some old => mayReplace moved old
  | none => .ok ()

/-- What renaming an entry makes of a directory, given what is wrong with the two paths. -/
def Node.renameEntry (top : Node) (a b : Bytes) (fault fault' : Option Fault) :
    Except Fault Node :=
  match fault, top.at? [a], fault' with
  | some e, _, _ => .error e
  | none, none, _ => .error .absent
  | none, some _, some e => .error e
  | none, some moved, none =>
    if a = b then .ok top
    else
      match Disk.mayLand moved (top.at? [b]) with
      | .ok () => .ok ((top.erase [a]).put [b] moved)
      | .error e => .error e

namespace Disk

variable {d : Disk} {p : Path} {place : Place}

/-- A rename whose paths can be followed. -/
theorem rename_of_find {source target : Path} {origin goal : Place} {moved : Node}
    {old : Option Node} (hfind : d.find false source = .ok (origin, moved))
    (hgoal : d.resolve false target = .ok (foundAt goal old)) (hsource : namesEntry source = true)
    (htarget : namesEntry target = true) (hend : endsInSeparator target.bytes = false) :
    d.rename source target =
      if d.device origin ≠ d.device goal then .error .otherDevice
      else if origin = goal then .ok d
      else if origin.isPrefixOf goal then .error .invalid
      else
        match mayLand moved old with
        | .ok () => .ok ((d.erase origin).put goal moved)
        | .error e => .error e := by
  cases old with
  | none =>
    simp [rename, hfind, hgoal, hsource, htarget, hend, foundAt, mayLand, bind, Except.bind]
  | some old =>
    simp only [rename, hfind, hgoal, hsource, htarget, foundAt, mayLand, bind, Except.bind]
    cases mayReplace moved old <;> simp

/-- What the path of an entry leads to in a directory. -/
theorem resolve_entry (hopen : d.Opens p place) {name : Bytes} (hname : IsName name) {top : Node}
    (htop : d.root.at? place = some top) : d.resolve false (p.child name) =
      match pathFault? (p.child name) name with
      | some fault => .error fault
      | none => .ok (foundAt (place ++ [name]) (top.at? [name])) := by
  have hchild : d.resolve false (p.child name) = _ := resolve_child hopen hname (by simp)
  rw [Node.at?_append, htop, Option.bind_some] at hchild
  exact hchild

/-- Moving an entry within a directory changes that directory alone. -/
theorem move_entry {top : Node} (htop : d.root.at? place = some top) (a b : Bytes)
    (moved : Node) :
    ((d.erase (place ++ [a])).put (place ++ [b]) moved).root.at? place =
        some ((top.erase [a]).put [b] moved) ∧
      d.Spares ((d.erase (place ++ [a])).put (place ++ [b]) moved) [place] := by
  constructor
  · show ((d.root.amend (place ++ [a]) none).amend (place ++ [b]) (some moved)).at? place = _
    rw [Node.at?_amend_below _ _ (by simp), Node.at?_amend_below _ _ (by simp), htop]
    rfl
  · -- both entries are in the directory
    have hwithin : ∀ name, ∀ z ∈ [place ++ [name]], ∃ z' ∈ [place], z' <+: z := by
      intro name z hz
      rw [List.mem_singleton.mp hz]
      exact ⟨place, List.mem_cons_self, List.prefix_append _ _⟩
    exact ((Spares.erase d (place ++ [a])).widen (hwithin a)).trans
      ((Spares.put _ (place ++ [b]) moved).widen (hwithin b))

/-- Renaming an entry of a directory changes that directory alone. -/
theorem rename_child (hopen : d.Opens p place) {a b : Bytes} (ha : IsName a) (hb : IsName b)
    (hdevice : d.device (place ++ [a]) = d.device (place ++ [b])) {top : Node}
    (htop : d.root.at? place = some top) :
    match top.renameEntry a b (pathFault? (p.child a) a) (pathFault? (p.child b) b) with
    | .error e => d.rename (p.child a) (p.child b) = .error e
    | .ok top' => ∃ d', d.rename (p.child a) (p.child b) = .ok d' ∧
        d'.root.at? place = some top' ∧ d.Spares d' [place] := by
  have hresolve : ∀ {name}, IsName name → _ := fun hname => resolve_entry hopen hname htop
  unfold Node.renameEntry
  cases hfault : pathFault? (p.child a) a with
  | some e =>
    simp [rename, find, hresolve ha, hfault, bind, Except.bind]
  | none =>
    cases hmoved : top.at? [a] with
    | none => simp [rename, find, hresolve ha, hfault, hmoved, foundAt, bind, Except.bind]
    | some moved =>
      cases hfault' : pathFault? (p.child b) b with
      | some e =>
        simp [rename, find, hresolve ha, hresolve hb, hfault, hmoved, hfault', foundAt, bind,
          Except.bind]
      | none =>
        have hfind : d.find false (p.child a) = .ok (place ++ [a], moved) := by
          rw [find, hresolve ha, hfault, hmoved]
          rfl
        have hgoal : d.resolve false (p.child b) =
            .ok (foundAt (place ++ [b]) (top.at? [b])) := by rw [hresolve hb, hfault']
        rw [rename_of_find hfind hgoal (namesEntry_child hopen.nonempty ha)
          (namesEntry_child hopen.nonempty hb) (endsInSeparator_child hopen.nonempty hb)]
        by_cases hab : a = b
        · subst hab
          simpa using ⟨htop, Spares.refl d [place]⟩
        · have hne : place ++ [a] ≠ place ++ [b] := by simpa using hab
          have hprefix : (place ++ [a]).isPrefixOf (place ++ [b]) = false := by
            rw [Bool.eq_false_iff, Ne, List.isPrefixOf_iff_prefix]
            exact fun h => hne (h.eq_of_length (by simp))
          obtain ⟨hat, hspares⟩ := move_entry htop a b moved
          cases hland : mayLand moved (top.at? [b]) with
          | error e => simp [hdevice, hab, hne, hprefix, hland]
          | ok _ => simpa [hdevice, hab, hne, hprefix, hland] using ⟨hat, hspares⟩

end Disk

/-- A directory whose entries are renamed stays one. -/
theorem Node.isDir_renameEntry {es : List (Bytes × Node)} {a b : Bytes}
    {fault fault' : Option Fault} {top : Node}
    (h : (Node.dir es).renameEntry a b fault fault' = .ok top) : ∃ es', top = .dir es' := by
  unfold renameEntry at h
  split at h
  · cases h
  · cases h
  · cases h
  · split at h
    · cases h
      exact ⟨es, rfl⟩
    · split at h
      · cases h
        exact ⟨_, rfl⟩
      · cases h

/-- What giving the thumbnails among some entries their names makes of a directory. -/
def Node.settleNames (fault : Bytes → Option Fault) (id : String) :
    List Bytes → Node → Except Fault Unit × Node
  | [], top => (.ok (), top)
  | entry :: rest, top =>
    let name := Text.decodeLossy entry
    match Thumbnails.canonicalName name id with
    | none => settleNames fault id rest top
    | some renamed =>
      if renamed = name then settleNames fault id rest top
      else
        let entry' := Text.encode renamed
        match top.renameEntry entry entry' (fault entry) (fault entry') with
        | .ok top => settleNames fault id rest top
        | .error e => (.error e, top)

theorem Node.isDir_settleNames (fault : Bytes → Option Fault) (id : String)
    (names : List Bytes) (es : List (Bytes × Node)) :
    ∃ es', (settleNames fault id names (.dir es)).2 = .dir es' := by
  induction names generalizing es with
  | nil => exact ⟨es, rfl⟩
  | cons entry rest ih =>
    rw [settleNames]
    dsimp only
    split
    · exact ih es
    · split
      · exact ih es
      · split
        · rename_i top hrenamed
          obtain ⟨es', rfl⟩ := isDir_renameEntry hrenamed
          exact ih es'
        · exact ⟨es, rfl⟩

namespace Thumbnails

open Disk

variable {t : Thumbnails} {d d' : Disk} {top : Place} {zones : List Place} {id : String}

/-! ### The directory of thumbnails -/

/-- The thumbnails have their directory, and the way to it does not lead through some places. -/
structure Rooted (t : Thumbnails) (d : Disk) (top : Place) (zones : List Place) : Prop where
  found : ∃ es, d.find true t.root = .ok (top, .dir es)
  away : ∀ q ∈ d.trail true t.root, ∀ z ∈ zones, ¬ z <+: q

namespace Rooted

theorem opens (h : t.Rooted d top zones) : d.Opens t.root top :=
  let ⟨_, hfind⟩ := h.found
  opens_of_find hfind

/-- Changes at places that the way avoids are not noticed on it. -/
theorem spares (h : t.Rooted d top zones) (hspares : d.Spares d' zones) :
    t.Rooted d' top zones := by
  obtain ⟨es, hfind⟩ := h.found
  refine ⟨hspares.find_dir h.away hfind, ?_⟩
  rw [hspares.trail h.away]
  exact h.away

theorem narrow (h : t.Rooted d top zones) {fewer : List Place} (hfewer : fewer ⊆ zones) :
    t.Rooted d top fewer :=
  ⟨h.found, fun q hq z hz => h.away q hq z (hfewer hz)⟩

theorem not_prefix_top (h : t.Rooted d top zones) {z : Place} (hz : z ∈ zones) :
    ¬ z <+: top := by
  obtain ⟨es, hfind⟩ := h.found
  exact h.away top (mem_trail_of_find hfind) z hz

end Rooted

/-- The path under which the thumbnails of a document are kept. -/
def target (t : Thumbnails) (id : String) : Path := t.root.child (Text.encode id)

/-- The place of the thumbnails of a document below that of all thumbnails. -/
def shelf (top : Place) (id : String) : Place := top ++ [Text.encode id]

/-- The path of a document leads to its place. -/
theorem Rooted.reaches (h : t.Rooted d top [shelf top id]) (hid : IsName (Text.encode id))
    (hfits : pathFault? (t.target id) (Text.encode id) = none) :
    d.Reaches (t.target id) (shelf top id) := by
  intro d' es hspares hat
  have hchild : d'.resolve true (t.target id) = _ :=
    resolve_child (h.spares hspares).opens hid (by rw [← shelf, hat]; simp)
  rw [← target, hfits, ← shelf, hat] at hchild
  exact find_eq_ok.mpr hchild

/-- What the path of a document's thumbnails leads to. -/
theorem node?_target (h : t.Rooted d top zones) (hid : IsName (Text.encode id))
    (hlink : ∀ target, d.root.at? (shelf top id) ≠ some (.link target)) :
    d.node? (t.target id) =
      match pathFault? (t.target id) (Text.encode id) with
      | some fault => .error fault
      | none => (d.root.at? (shelf top id)).elim (.error .absent) .ok := by
  have hresolve : d.resolve true (t.target id) =
      match pathFault? (t.target id) (Text.encode id) with
      | some fault => .error fault
      | none => .ok (foundAt (shelf top id) (d.root.at? (shelf top id))) :=
    resolve_child h.opens hid fun _ => hlink
  rw [node?, find, hresolve]
  cases pathFault? (t.target id) (Text.encode id) with
  | some fault => rfl
  | none => cases d.root.at? (shelf top id) <;> rfl

/-- What the directory of a document lists. -/
theorem list_target (h : t.Rooted d top zones) (hid : IsName (Text.encode id))
    (hfits : pathFault? (t.target id) (Text.encode id) = none) {es : List (Bytes × Node)}
    (hdir : d.root.at? (shelf top id) = some (.dir es)) : d.list (t.target id) = .ok es := by
  rw [list, node?_target h hid (by simp [hdir]), hfits, hdir]
  rfl

/-- The names of the entries in the directory of a document's thumbnails. -/
def names (t : Thumbnails) (d : Disk) (id : String) : Except Fault (List Bytes) :=
  (d.list (t.target id)).map fun es => es.map (·.1)

/-- The names in the directory of a document depend on what stands in its place. -/
theorem names_congr {top' : Place} {zones' : List Place} (h : t.Rooted d top zones)
    (h' : t.Rooted d' top' zones') (hid : IsName (Text.encode id))
    (hlink : ∀ target, d.root.at? (shelf top id) ≠ some (.link target))
    (hsame : d'.root.at? (shelf top' id) = d.root.at? (shelf top id)) :
    t.names d' id = t.names d id := by
  rw [names, names, list, list, node?_target h hid hlink,
    node?_target h' hid (by rwa [hsame]), hsame]

/-- The entries of a directory get their names in that directory alone. -/
theorem renameEntries_eq {dir : Path} {place : Place} (hplain : '/' ∉ id.toList)
    (names : List Bytes) (hnames : ∀ name ∈ names, IsName name) :
    ∀ d es, d.Reaches dir place → (∀ a b, d.device (place ++ [a]) = d.device (place ++ [b])) →
      d.root.at? place = some (.dir es) →
      ∃ d',
        renameEntries dir id names d =
          ((Node.settleNames (fun name => pathFault? (dir.child name) name) id names
            (.dir es)).1, d') ∧
        d'.root.at? place = some (Node.settleNames
          (fun name => pathFault? (dir.child name) name) id names (.dir es)).2 ∧
        d.Spares d' [place] := by
  induction names with
  | nil =>
    intro d es _ _ hdir
    exact ⟨d, rfl, hdir, .refl d _⟩
  | cons entry rest ih =>
    intro d es hreaches hdevice hdir
    have hrest := ih (fun name hname => hnames name (List.mem_cons_of_mem _ hname))
    rw [renameEntries, Node.settleNames]
    dsimp only
    cases hname : canonicalName (Text.decodeLossy entry) id with
    | none => exact hrest d es hreaches hdevice hdir
    | some renamed =>
      dsimp only
      split
      · exact hrest d es hreaches hdevice hdir
      · have hentry : IsName entry := hnames entry List.mem_cons_self
        have hrenamed : IsName (Text.encode renamed) := isName_canonicalName hplain hentry hname
        have hpath : dir.join (.ofText renamed) = dir.child (Text.encode renamed) := rfl
        have hrename := rename_child (hreaches.opens hdir) hentry hrenamed (hdevice _ _) hdir
        cases hlocal : (Node.dir es).renameEntry entry (Text.encode renamed)
            (pathFault? (dir.child entry) entry)
            (pathFault? (dir.child (Text.encode renamed)) (Text.encode renamed)) with
        | error e =>
          rw [hlocal] at hrename
          exact ⟨d, by rw [hpath, hrename], hdir, .refl d _⟩
        | ok top' =>
          rw [hlocal] at hrename
          -- the directory is as the renaming of its entries leaves it, and the rest goes on there
          obtain ⟨d₁, hmoved, hdir₁, hspares₁⟩ := hrename
          obtain ⟨es₁, rfl⟩ := Node.isDir_renameEntry hlocal
          have hdevice₁ : ∀ a b, d₁.device (place ++ [a]) = d₁.device (place ++ [b]) := by
            intro a b
            rw [hspares₁.device, hspares₁.device]
            exact hdevice a b
          obtain ⟨d', hresult, hdir', hspares'⟩ :=
            hrest d₁ es₁ (hreaches.spares hspares₁) hdevice₁ hdir₁
          refine ⟨d', ?_, hdir', hspares₁.trans hspares'⟩
          rw [hpath, hmoved]
          exact hresult

/-- What stands where the thumbnails of a document go is cleared away. -/
theorem clear_of_opens (hopen : d.Opens t.root top) (hid : IsName (Text.encode id))
    (hfits : pathFault? (t.target id) (Text.encode id) = none)
    (hvacant : d.root.at? (shelf top id) = none ∨
      ∃ old, d.root.at? (shelf top id) = some (.dir old)) :
    ∃ d', clear d (t.target id) = .ok d' ∧ d'.root.at? (shelf top id) = none ∧
      d.Spares d' [shelf top id] := by
  have hresolve : ∀ follow, d.resolve follow (t.target id) =
      .ok (foundAt (shelf top id) (d.root.at? (shelf top id))) := by
    intro follow
    have hchild : d.resolve follow (t.target id) = _ := resolve_child hopen hid (by
      intro _ link
      rcases hvacant with hnone | ⟨old, hold⟩
      · rw [← shelf, hnone]
        simp
      · rw [← shelf, hold]
        simp)
    rw [← target, hfits] at hchild
    exact hchild
  rcases hvacant with hnone | ⟨old, hold⟩
  · refine ⟨d, ?_, hnone, .refl d _⟩
    have hgone : d.exists? (t.target id) = false := by
      rw [exists?, node?, find, hresolve true, hnone]
      rfl
    rw [clear, hgone]
    rfl
  · have hthere : d.exists? (t.target id) = true := by
      rw [exists?, node?, find, hresolve true, hold]
      rfl
    refine ⟨d.erase (shelf top id), ?_, ?_, .erase d _⟩
    · rw [clear, hthere, if_pos rfl, removeDir, find, hresolve false, hold]
      rfl
    · exact d.root.at?_erase_self (List.append_ne_nil_of_right_ne_nil _ (List.cons_ne_nil _ _))

/-- A node that is moved to where the thumbnails of a document go stands there afterwards. -/
theorem at?_shelf_of_move {origin : Place} {entries : List (Bytes × Node)}
    (hdir : d.root.at? top = some (.dir entries)) (horigin : ¬ origin <+: top) (n : Node) :
    ((d.erase origin).put (shelf top id) n).root.at? (shelf top id) = some n ∧
      d.Spares ((d.erase origin).put (shelf top id) n) [origin, shelf top id] := by
  refine ⟨?_, ((Spares.erase d origin).among (by simp)).trans
    ((Spares.put _ (shelf top id) n).among (by simp))⟩
  -- the directory of all thumbnails still holds the place
  have hlook : (d.erase origin).root.look top = some (.dir []) :=
    (d.root.look_amend horigin none).trans (Node.look_of_at? hdir)
  obtain ⟨c, hc, hsurface⟩ := Option.map_eq_some_iff.mp hlook
  cases c with
  | dir entries' =>
    exact Node.at?_put_self ⟨top, Text.encode id, entries', rfl, hc⟩ n
  | file _ | link _ => cases hsurface

/-! ### Adoption -/

/-- What adopting some entries leads to: the answer, and the directory they end in. -/
def settle (t : Thumbnails) (id : String) (es : List (Bytes × Node)) :
    Except AdoptError ImageMetadata × Node :=
  match Node.settleNames (fun name => pathFault? ((t.target id).child name) name) id
      (es.map (·.1)) (.dir es) with
  | (.error e, dir) => (.error (.io e), dir)
  | (.ok (), dir) => (t.describeNames id (dir.entries.map fun e => Text.decodeLossy e.1), dir)

theorem isDir_settle (t : Thumbnails) (id : String) (es : List (Bytes × Node)) :
    ∃ es', (t.settle id es).2 = .dir es' := by
  rw [settle]
  obtain ⟨es', hlast⟩ := Node.isDir_settleNames
    (fun name => pathFault? ((t.target id).child name) name) id (es.map (·.1)) es
  refine ⟨es', ?_⟩
  rw [← hlast]
  split <;> (rename_i heq; rw [heq])

/-- The path of staged thumbnails leads to a directory with some entries, which no operation
fails to move to the place of a document's thumbnails.  That is free or held by an old
directory, and the two directories are not nested. -/
structure Staged (t : Thumbnails) (d : Disk) (top : Place) (staging : Path) (id : String)
    (origin : Place) (es : List (Bytes × Node)) : Prop where
  rooted : t.Rooted d top [origin, shelf top id]
  found : d.find false staging = .ok (origin, .dir es)
  away : ∀ q ∈ d.trail false staging, ¬ shelf top id <+: q
  movable : namesEntry staging = true
  names : ∀ e ∈ es, IsName e.1
  vacant : d.root.at? (shelf top id) = none ∨
    ∃ old, d.root.at? (shelf top id) = some (.dir old)
  fits : pathFault? (t.target id) (Text.encode id) = none
  oneDevice : ∀ below, d.device (shelf top id ++ below) = d.device origin

namespace Staged

variable {staging : Path} {origin : Place} {es : List (Bytes × Node)}

theorem apart (h : t.Staged d top staging id origin es) : origin.Apart (shelf top id) := by
  have horigin := mem_trail_of_find h.found
  refine ⟨fun hprefix => ?_, h.away origin horigin⟩
  rcases List.prefix_concat_iff.mp hprefix with heq | habove
  · exact h.away origin horigin (heq ▸ List.prefix_refl _)
  · exact h.rooted.not_prefix_top List.mem_cons_self habove

/-- What stands where the thumbnails of a document go is cleared away. -/
theorem clear_target (h : t.Staged d top staging id origin es) (hid : IsName (Text.encode id)) :
    ∃ d', clear d (t.target id) = .ok d' ∧ d'.root.at? (shelf top id) = none ∧
      d.Spares d' [shelf top id] :=
  clear_of_opens h.rooted.opens hid h.fits h.vacant

/-- The staged directory is moved to where nothing stands. -/
theorem move_staged (h : t.Staged d top staging id origin es) (hid : IsName (Text.encode id))
    (hfree : d.root.at? (shelf top id) = none) :
    ∃ d', moveDir d staging (t.target id) = (.ok (), d') ∧
      d'.root.at? (shelf top id) = some (.dir es) ∧ d.Spares d' [origin, shelf top id] := by
  have hgoal : d.resolve false (t.target id) = .ok (foundAt (shelf top id) none) := by
    have hchild : d.resolve false (t.target id) = _ :=
      resolve_child h.rooted.opens hid (by simp)
    rw [← target, h.fits, ← shelf, hfree] at hchild
    exact hchild
  have hne : origin ≠ shelf top id := fun heq => h.apart.1 (heq ▸ List.prefix_refl _)
  have hprefix : origin.isPrefixOf (shelf top id) = false := by
    rw [Bool.eq_false_iff, Ne, List.isPrefixOf_iff_prefix]
    exact h.apart.1
  have hdevice : d.device origin = d.device (shelf top id) := by
    rw [← h.oneDevice [], List.append_nil]
  have hrename : d.rename staging (t.target id) =
      .ok ((d.erase origin).put (shelf top id) (.dir es)) := by
    rw [rename_of_find h.found hgoal h.movable (namesEntry_child h.rooted.opens.nonempty hid)
      (endsInSeparator_child h.rooted.opens.nonempty hid)]
    simp [hne, hprefix, hdevice, mayLand]
  obtain ⟨entries, hroot⟩ := h.rooted.found
  exact ⟨_, by rw [moveDir, hrename], at?_shelf_of_move (at?_of_find hroot)
    (h.rooted.not_prefix_top List.mem_cons_self) (.dir es)⟩

/-- A change elsewhere leaves thumbnails staged. -/
theorem spares (h : t.Staged d top staging id origin es) (hspares : d.Spares d' zones)
    (hroot : ∀ q ∈ d.trail true t.root, ∀ z ∈ zones, ¬ z <+: q)
    (haway : ∀ q ∈ d.trail false staging, ∀ z ∈ zones, ¬ z <+: q)
    (hat : d'.root.at? origin = d.root.at? origin)
    (hvacant : d'.root.at? (shelf top id) = none ∨
      ∃ old, d'.root.at? (shelf top id) = some (.dir old)) :
    t.Staged d' top staging id origin es := by
  refine ⟨⟨?_, ?_⟩, ?_, ?_, h.movable, h.names, hvacant, h.fits, ?_⟩
  · obtain ⟨es', hfind⟩ := h.rooted.found
    exact hspares.find_dir hroot hfind
  · rw [hspares.trail hroot]
    exact h.rooted.away
  · obtain ⟨es', hfind⟩ := hspares.find_dir haway h.found
    have hsame : some (Node.dir es') = some (.dir es) := by
      rw [← at?_of_find hfind, ← at?_of_find h.found, hat]
    rw [hfind]
    cases hsame
    rfl
  · rw [hspares.trail haway]
    exact h.away
  · intro below
    rw [hspares.device, hspares.device]
    exact h.oneDevice below

/-- Thumbnails stay staged while the place of their document is cleared. -/
theorem cleared (h : t.Staged d top staging id origin es) (hspares : d.Spares d' [shelf top id])
    (hfree : d'.root.at? (shelf top id) = none) : t.Staged d' top staging id origin es := by
  refine h.spares hspares (fun q hq z hz => h.rooted.away q hq z (List.mem_cons_of_mem _ hz))
    (fun q hq z hz => ?_) (hspares.at? origin fun z hz => ?_) (.inl hfree)
  · rw [List.mem_singleton.mp hz]
    exact h.away q hq
  · rw [List.mem_singleton.mp hz]
    exact h.apart.symm

/-- **Adoption** answers what the staged entries alone decide, and leaves the directory that
they decide; elsewhere nothing changes. -/
theorem adopt_eq (h : t.Staged d top staging id origin es) (hid : IsName (Text.encode id))
    (hplain : '/' ∉ id.toList) :
    ∃ d', t.adopt d staging id = ((t.settle id es).1, d') ∧
      d'.root.at? (shelf top id) = some (t.settle id es).2 ∧
      d.Spares d' [origin, shelf top id] := by
  obtain ⟨rootEntries, hroot⟩ := h.rooted.found
  -- three changes, each in one of the two places: the place is cleared, the staged directory moved
  -- there, and its entries get their names
  obtain ⟨d₁, hclear, hfree, hspares₁⟩ := h.clear_target hid
  have hstaged₁ := h.cleared hspares₁ hfree
  obtain ⟨d₂, hmove, hdir₂, hspares₂⟩ := hstaged₁.move_staged hid hfree
  have hrooted₂ := hstaged₁.rooted.spares hspares₂
  have hdevice₂ : ∀ a b, d₂.device (shelf top id ++ [a]) = d₂.device (shelf top id ++ [b]) := by
    intro a b
    rw [hspares₂.device, hspares₂.device, hstaged₁.oneDevice, hstaged₁.oneDevice]
  have hnames : ∀ name ∈ es.map (·.1), IsName name := by
    intro name hname
    obtain ⟨e, he, rfl⟩ := List.mem_map.mp hname
    exact h.names e he
  obtain ⟨d₃, hrename, hdir₃, hspares₃⟩ :=
    renameEntries_eq hplain (es.map (·.1)) hnames d₂ es
      ((hrooted₂.narrow (List.subset_cons_self _ _)).reaches hid h.fits) hdevice₂ hdir₂
  have hwithin : ∀ {a b : Disk}, a.Spares b [shelf top id] →
      a.Spares b [origin, shelf top id] := fun hspares => hspares.among (by simp)
  have hspares : d.Spares d₃ [origin, shelf top id] :=
    ((hwithin hspares₁).trans hspares₂).trans (hwithin hspares₃)
  have hrooted₃ := hrooted₂.spares (hwithin hspares₃)
  have hlisted₂ := list_target hrooted₂ hid h.fits hdir₂
  obtain ⟨es₃, hlast⟩ := Node.isDir_settleNames
    (fun name => pathFault? ((t.target id).child name) name) id (es.map (·.1)) es
  rw [settle]
  rcases hlocal : Node.settleNames (fun name => pathFault? ((t.target id).child name) name) id
    (es.map (·.1)) (.dir es) with ⟨result, dir⟩
  rw [hlocal] at hlast hdir₃ hrename ⊢
  obtain rfl : dir = .dir es₃ := hlast
  refine ⟨d₃, ?_, by cases result <;> exact hdir₃, hspares⟩
  simp only [adopt, isDir_of_find (find_follow h.found).1, makeDirs_of_find hroot]
  rw [show t.root.join (.ofText id) = t.target id from rfl, hclear]
  simp only [hmove, hlisted₂, hrename]
  cases result with
  | error e => rfl
  | ok _ =>
    have hlisted₃ := list_target hrooted₃ hid h.fits hdir₃
    simp only [describe, hlisted₃]
    rfl

end Staged

end Thumbnails

end Corpus
