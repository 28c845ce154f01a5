/-
Corpus/Proofs/Copying.lean

What a directory becomes that is copied.

The nodes below a directory are copied one after the other, each directory before what it holds.  So
at every moment the copy holds all of some entries and nothing of the others, and nothing else on
the disk has changed:

    disk  =  disk before, with the entries copied so far put at one place

Copying that succeeds therefore leaves all names in their order, with the same bytes in the files
and some bytes for every link (`Disk.Copyable.copyDir_copies`), and it does succeed unless there is
a link or a path that is too long (`Disk.Copyable.copyDir_cases`).  Without links the copy is the
tree that was copied (`Node.Copies.eq_of_linkless`).
-/
import Corpus.Proofs.Landing
import Corpus.Proofs.Locating

namespace Corpus

/-! ### Trees put into trees -/

namespace Node

/-- Of two nodes put under one name the later one stays. -/
theorem putEntry_putEntry (es : List (Bytes × Node)) (name : Bytes) (a c : Node) :
    putEntry (putEntry es name a) name c = putEntry es name c := by
  have hthere : (putEntry es name a).any (·.1 == name) = true := by
    rw [any_eq_isSome_lookup, lookup_putEntry, if_pos rfl]
    rfl
  conv_lhs => rw [putEntry, if_pos hthere]
  rw [putEntry, putEntry]
  split
  · rw [List.map_map]
    refine List.map_congr_left fun e _ => ?_
    by_cases he : e.1 = name <;> simp [he]
  · rename_i hnew
    have hkept : (es.map fun e => if e.1 == name then (name, c) else e) = es := by
      conv_rhs => rw [← List.map_id es]
      refine List.map_congr_left fun e he => if_neg fun heq => hnew ?_
      exact List.any_eq_true.mpr ⟨e, he, heq⟩
    rw [List.map_append, hkept]
    simp

/-- A new name is listed behind all others. -/
theorem putEntry_of_fresh {es : List (Bytes × Node)} {name : Bytes}
    (h : name ∉ es.map (·.1)) (c : Node) : putEntry es name c = es ++ [(name, c)] := by
  rw [putEntry, if_neg]
  intro hthere
  obtain ⟨e, he, heq⟩ := List.any_eq_true.mp hthere
  exact h (List.mem_map.mpr ⟨e, he, eq_of_beq heq⟩)

/-- What is put below a node that was put is put into that node. -/
theorem put_put_below {n : Node} {p q : Place} (h : n.Holds p) (a c : Node) (hq : q ≠ []) :
    (n.put p a).put (p ++ q) c = n.put p (a.put q c) := by
  show (n.amend p (some a)).amend (p ++ q) (some c) = n.amend p (some (a.amend q (some c)))
  obtain ⟨above, name, es, rfl, habove⟩ := h
  induction above generalizing n with
  | nil =>
    cases habove
    rw [List.nil_append, amend_cons_dir, if_pos rfl, List.cons_append, List.nil_append,
      amend_cons_dir, if_neg hq, amend_cons_dir, if_pos rfl, lookup_amendEntry, if_pos rfl]
    exact congrArg Node.dir (putEntry_putEntry es name a _)
  | cons first rest ih =>
    cases n with
    | dir entries =>
      rw [at?_dir_cons] at habove
      obtain ⟨sub, hsub, hbelow⟩ := Option.bind_eq_some_iff.mp habove
      rw [List.cons_append, amend_cons_dir, if_neg (by simp), hsub, List.cons_append,
        amend_cons_dir, if_neg (by simp), lookup_putEntry, if_pos rfl, amend_cons_dir,
        if_neg (by simp), hsub]
      dsimp only
      rw [putEntry_putEntry, ih hbelow]
    | file _ | link _ => cases habove

/-- One tree is a copy of the other: directories list the same names in the same order, files hold
the same bytes, and a file stands for a link. -/
inductive Copies : Node → Node → Prop
  | file (content : Bytes) : Copies (.file content) (.file content)
  | link (target content : Bytes) : Copies (.link target) (.file content)
  | dir {es copies : List (Bytes × Node)} (names : copies.map (·.1) = es.map (·.1))
      (nodes : ∀ pair ∈ es.zip copies, Copies pair.1.2 pair.2.2) : Copies (.dir es) (.dir copies)

/-- An entry of a copied directory is the copy of one under the same name. -/
theorem Copies.exists_of_mem {es copies : List (Bytes × Node)}
    (h : (Node.dir es).Copies (.dir copies)) {name : Bytes} {c : Node}
    (hc : (name, c) ∈ copies) : ∃ n, (name, n) ∈ es ∧ n.Copies c := by
  cases h with
  | dir names nodes =>
    induction copies generalizing es with
    | nil => cases hc
    | cons first copies ih =>
      cases es with
      | nil => cases names
      | cons e es =>
        rw [List.map_cons, List.map_cons, List.cons.injEq] at names
        rw [List.zip_cons_cons, List.forall_mem_cons] at nodes
        rcases List.mem_cons.mp hc with rfl | hc
        · exact ⟨e.2, List.mem_cons.mpr (.inl (Prod.ext names.1 rfl)), nodes.1⟩
        · obtain ⟨n, hn, hcopy⟩ := ih hc names.2 nodes.2
          exact ⟨n, List.mem_cons_of_mem _ hn, hcopy⟩

/-- The tree has files and directories only. -/
inductive Linkless : Node → Prop
  | file (content : Bytes) : Linkless (.file content)
  | dir {es : List (Bytes × Node)} (nodes : ∀ e ∈ es, Linkless e.2) : Linkless (.dir es)

theorem Linkless.at? {place : Place} : ∀ {n c : Node}, n.Linkless → n.at? place = some c →
    c.Linkless := by
  induction place with
  | nil =>
    intro n c h hat
    cases hat
    exact h
  | cons name rest ih =>
    intro n c h hat
    cases h with
    | file content => cases hat
    | dir nodes =>
      rw [at?_dir_cons, Option.bind_eq_some_iff] at hat
      obtain ⟨sub, hsub, hbelow⟩ := hat
      exact ih (nodes _ (mem_of_lookup hsub)) hbelow

theorem eq_of_zip {es copies : List (Bytes × Node)} (names : copies.map (·.1) = es.map (·.1))
    (nodes : ∀ pair ∈ es.zip copies, pair.2.2 = pair.1.2) : copies = es := by
  induction copies generalizing es with
  | nil =>
    cases es with
    | nil => rfl
    | cons _ _ => cases names
  | cons first copies ih =>
    cases es with
    | nil => cases names
    | cons e es =>
      rw [List.map_cons, List.map_cons, List.cons.injEq] at names
      rw [List.zip_cons_cons, List.forall_mem_cons] at nodes
      rw [Prod.ext names.1 nodes.1, ih names.2 nodes.2]

/-- A copy of files and directories is what was copied. -/
theorem Copies.eq_of_linkless {n : Node} (hlinkless : n.Linkless) :
    ∀ {c : Node}, n.Copies c → c = n := by
  induction hlinkless with
  | file content =>
    intro c h
    cases h
    rfl
  | dir _ ih =>
    intro c h
    cases h with
    | dir names nodes =>
      exact congrArg Node.dir (eq_of_zip names fun pair hpair =>
        ih _ (List.of_mem_zip hpair).1 (nodes pair hpair))

end Node

/-- Apart from a place is what stands below a place apart from it. -/
theorem Place.Apart.below {p q : Place} (h : p.Apart q) (rest : Place) : p.Apart (q ++ rest) := by
  refine ⟨fun hp => ?_, fun hq => h.2 ((List.prefix_append q rest).trans hq)⟩
  rcases List.prefix_or_prefix_of_prefix hp (List.prefix_append q rest) with hpq | hqp
  · exact h.1 hpq
  · exact h.2 hqp

namespace Disk

variable {d d' : Disk} {p : Path} {q : Place}

/-! ### One entry -/

/-- The directories below one that can be opened can be opened. -/
theorem Opens.foldl_child {es : List (Bytes × Node)} (place : Place) :
    ∀ {p : Path} {q : Place}, d.Opens p q → (∀ name ∈ place, IsEntry name) →
      d.root.at? (q ++ place) = some (.dir es) →
      d.Opens (place.foldl Path.child p) (q ++ place) := by
  induction place with
  | nil =>
    intro p q hopen _ _
    rwa [List.append_nil]
  | cons name rest ih =>
    intro p q hopen hnames hat
    have hname := hnames name List.mem_cons_self
    rw [← List.singleton_append, ← List.append_assoc] at hat ⊢
    -- what is above something that stands there is a directory, too
    have hdir : ∃ above, d.root.at? (q ++ [name]) = some (.dir above) := by
      by_cases hrest : rest = []
      · subst hrest
        rw [List.append_nil] at hat
        exact ⟨es, hat⟩
      · exact Node.exists_dir_of_below hrest hat
    obtain ⟨above, hdir⟩ := hdir
    exact ih (hopen.child hname.toIsName hname.short hdir)
      (fun other hother => hnames other (List.mem_cons_of_mem _ hother)) hat

/-- A directory is made where nothing stands, unless something is wrong with its path. -/
theorem makeDirs_child {name : Bytes} (hopen : d.Opens p q) (hname : IsName name)
    (hfree : d.root.at? (q ++ [name]) = none) : d.makeDirs (p.child name) =
      match pathFault? (p.child name) name with
      | some fault => (.error fault, d)
      | none => (.ok (), d.put (q ++ [name]) (.dir [])) := by
  have hresolve : ∀ follow, d.resolve follow (p.child name) = _ := fun follow =>
    resolve_child hopen hname (by simp [hfree])
  rw [hfree] at hresolve
  rw [makeDirs, makeDirsFrom, if_neg (by simpa using child_ne_nil hopen.nonempty hname), makeDir]
  cases hfault : pathFault? (p.child name) name with
  | none =>
    simp only [hfault, foundAt] at hresolve
    rw [hresolve]
  | some fault =>
    simp only [hfault] at hresolve
    have hmissing : d.isDir (p.child name) = false := by
      rw [isDir, node?, find, hresolve]
      rfl
    rw [hresolve]
    dsimp only
    split
    · rename_i heq
      cases heq
    · -- a fault of the path itself is not one that the directory above could mend
      rename_i heq
      cases heq
      exact absurd hfault (pathFault?_ne_absent _ _)
    · rename_i heq
      cases heq
      rw [hmissing, if_neg Bool.false_ne_true]

/-- A file is written where nothing stands, unless something is wrong with its path. -/
theorem write_fresh {name : Bytes} (hopen : d.Opens p q) (hname : IsName name)
    (hfree : d.root.at? (q ++ [name]) = none) (content : Bytes) :
    d.write (p.child name) content =
      match pathFault? (p.child name) name with
      | some fault => .error fault
      | none => .ok (d.put (q ++ [name]) (.file content)) := by
  rw [write, resolve_child hopen hname (by simp [hfree]),
    endsInSeparator_child hopen.nonempty hname, hfree]
  cases pathFault? (p.child name) name <;> rfl

/-! ### All nodes below a directory -/

/-- A directory that can be copied to a free place: whatever changes there, one path leads to the
directory and another one to where it goes. -/
structure Copyable (d : Disk) (source : Path) (origin : Place) (top : Node) (target : Path)
    (goal : Place) : Prop where
  apart : goal.Apart origin
  there : d.root.at? origin = some top
  lawful : top.Lawful
  readable : ∀ d', d.Spares d' [goal] → d'.Opens source origin
  free : d.resolve false target = .ok (.free goal)
  holds : d.root.Holds goal

/-- A directory can be copied to a free place that is not within it. -/
theorem copyable_of_free {source target : Path} {origin goal : Place}
    {es : List (Bytes × Node)} (hfind : d.find false source = .ok (origin, .dir es))
    (hlawful : (Node.dir es).Lawful) (hgoal : d.resolve false target = .ok (.free goal))
    (houtside : ¬ origin <+: goal) (hholds : d.root.Holds goal) :
    d.Copyable source origin (.dir es) target goal := by
  have hthere := at?_of_find hfind
  refine ⟨⟨?_, houtside⟩, hthere, hlawful, fun d' hspares => ?_, hgoal, hholds⟩
  · exact not_below_free (at?_of_free hgoal) (Node.look_ne_none_of_at? hthere)
  · obtain ⟨es', hfind'⟩ := find_dir_of_free (at?_of_free hgoal) hspares hfind
    exact opens_of_find (find_follow hfind').1

/-- Nothing hinders the copying of a tree: there are no links in it, and no path below the two
directories is too long or holds a zero byte. -/
structure Feasible (source target : Path) (top : Node) : Prop where
  linkless : top.Linkless
  fits : ∀ above name n, top.at? (above ++ [name]) = some n →
    pathFault? ((above ++ [name]).foldl Path.child source) name = none ∧
      pathFault? ((above ++ [name]).foldl Path.child target) name = none

/-- Copying has come to a directory below its goal. -/
structure Reached (d base : Disk) (goal place : Place) : Prop where
  spares : d.Spares base [goal]
  holds : base.root.Holds (goal ++ place)

namespace Reached

variable {base : Disk} {goal place : Place}

theorem at?_put (h : d.Reached base goal place) (n : Node) (rest : Place) :
    (base.put (goal ++ place) n).root.at? (goal ++ place ++ rest) = n.at? rest :=
  Node.at?_put_append h.holds n rest

theorem spares_put (h : d.Reached base goal place) (n : Node) :
    d.Spares (base.put (goal ++ place) n) [goal] := by
  refine h.spares.trans ((Spares.put base (goal ++ place) n).widen fun z hz => ?_)
  rw [List.mem_singleton.mp hz]
  exact ⟨goal, List.mem_cons_self, List.prefix_append _ _⟩

/-- From a directory copying comes to those in it. -/
theorem enter (h : d.Reached base goal place) (done : List (Bytes × Node)) (name : Bytes) :
    d.Reached (base.put (goal ++ place) (.dir done)) goal (place ++ [name]) := by
  exact ⟨h.spares_put _, goal ++ place, name, done, (List.append_assoc _ _ _).symm,
    Node.at?_put_self h.holds _⟩

/-- What is put into a directory on the way is listed behind what is there. -/
theorem put_put (h : d.Reached base goal place) {done : List (Bytes × Node)} {name : Bytes}
    (hfresh : name ∉ done.map (·.1)) (c : Node) :
    (base.put (goal ++ place) (.dir done)).put (goal ++ (place ++ [name])) c =
      base.put (goal ++ place) (.dir (done ++ [(name, c)])) := by
  have hroot := Node.put_put_below h.holds (.dir done) c (List.cons_ne_nil name [])
  have hlisted : (Node.dir done).put [name] c = .dir (done ++ [(name, c)]) :=
    congrArg Node.dir (Node.putEntry_of_fresh hfresh c)
  rw [hlisted, List.append_assoc] at hroot
  rw [Disk.put, Disk.put, Disk.put, hroot]

end Reached

section Nodes

open Thumbnails (copyNodes)

variable {source target : Path} {origin goal : Place} {top : Node}

/-- A file, or what a link leads to, is read and written; what cannot be read stops the copying. -/
theorem copyNodes_leaf (d : Disk) (source target : Path) {n : Node} (hn : n.isDir = false)
    (steps : Place) (rest : List (Place × Node)) :
    (∃ content, d.read (steps.foldl Path.child source) = .ok content ∧
      copyNodes source target ((steps, n) :: rest) d =
        match d.write (steps.foldl Path.child target) content with
        | .ok between => copyNodes source target rest between
        | .error fault => (.error fault, d)) ∨
    (∃ fault fault', d.read (steps.foldl Path.child source) = .error fault ∧
      copyNodes source target ((steps, n) :: rest) d = (.error fault', d)) := by
  cases n with
  | dir es => cases hn
  | file _ | link _ =>
    simp only [copyNodes]
    cases d.read (steps.foldl Path.child source) with
    | ok content => exact .inl ⟨content, rfl, rfl⟩
    | error fault => cases fault <;> exact .inr ⟨_, _, rfl, rfl⟩

/-- A node is copied under its name, with all that it holds, before any other.  The copying stops
only if something hinders it. -/
def Transfers (d : Disk) (source : Path) (top : Node) (target : Path) (goal : Place)
    (n : Node) : Prop :=
  ∀ base place name done rest, d.Reached base goal place →
    top.at? (place ++ [name]) = some n → name ∉ done.map (·.1) →
      let copied := copyNodes source target
        ((place ++ [name], n) :: n.descendants (place ++ [name]) ++ rest)
        (base.put (goal ++ place) (.dir done))
      (∃ c, n.Copies c ∧ copied =
        copyNodes source target rest (base.put (goal ++ place) (.dir (done ++ [(name, c)])))) ∨
      (¬ Feasible source target top ∧ ∃ fault left, copied = (.error fault, left))

namespace Copyable

/-- The copy of a directory can be opened as far as it has come. -/
theorem opens (h : d.Copyable source origin top target goal) {base : Disk} {place : Place}
    (hreached : d.Reached base goal place) (hnames : ∀ name ∈ place, IsEntry name)
    (done : List (Bytes × Node)) : (base.put (goal ++ place) (.dir done)).Opens
      (place.foldl Path.child target) (goal ++ place) := by
  have hat := Node.at?_put_self hreached.holds (.dir done)
  have habove : ∃ es, (base.put (goal ++ place) (.dir done)).root.at? goal = some (.dir es) := by
    by_cases hplace : place = []
    · subst hplace
      rw [List.append_nil] at hat ⊢
      exact ⟨done, hat⟩
    · exact Node.exists_dir_of_below hplace hat
  obtain ⟨es, habove⟩ := habove
  have hopen := ((reaches_of_free h.free).spares (hreached.spares_put (.dir done))).opens habove
  exact hopen.foldl_child place hnames hat

/-- The path of a file that can be followed at all leads to that file. -/
theorem read_file (h : d.Copyable source origin top target goal) (hspares : d.Spares d' [goal])
    {place : Place} (hplace : place ≠ []) {content : Bytes}
    (hat : top.at? place = some (.file content))
    (hzero : (0 : UInt8) ∉ (place.foldl Path.child source).bytes)
    (hshort : (place.foldl Path.child source).bytes.length < 4096) :
    d'.read (place.foldl Path.child source) = .ok content := by
  have hstays : d'.root.at? (origin ++ place) = some (.file content) := by
    rw [hspares.at? _ fun z hz => List.mem_singleton.mp hz ▸ h.apart.below place, Node.at?_append,
      h.there]
    exact hat
  rw [read, node?, find_foldl_child place (h.readable d' hspares) hplace (h.lawful.of_at? hat)
    hstays hzero hshort]
  rfl

/-- The bytes that are read for a file are those of that file. -/
theorem read_eq (h : d.Copyable source origin top target goal) (hspares : d.Spares d' [goal])
    {place : Place} (hplace : place ≠ []) {content bytes : Bytes}
    (hat : top.at? place = some (.file content))
    (hread : d'.read (place.foldl Path.child source) = .ok bytes) : bytes = content := by
  have hbytes := hread
  rw [read, node?] at hread
  cases hfind : d'.find true (place.foldl Path.child source) with
  | error fault =>
    rw [hfind] at hread
    cases hread
  | ok found =>
    obtain ⟨hzero, -, hshort, -⟩ := walk_of_resolve (find_eq_ok.mp hfind)
    have hfile := h.read_file hspares hplace hat (by simpa using hzero) hshort
    exact Except.ok.inj (hbytes.symm.trans hfile)

/-- If a file cannot be read something hinders the copying. -/
theorem not_feasible_of_unread (h : d.Copyable source origin top target goal)
    (hspares : d.Spares d' [goal]) {above : Place} {name content : Bytes} {fault : Fault}
    (hat : top.at? (above ++ [name]) = some (.file content))
    (hread : d'.read ((above ++ [name]).foldl Path.child source) = .error fault) :
    ¬ Feasible source target top := by
  intro hfeasible
  obtain ⟨hzero, hshort, -⟩ := pathFault?_eq_none_iff.mp (hfeasible.fits above name _ hat).1
  rw [h.read_file hspares (by simp) hat (by simpa using hzero) hshort] at hread
  cases hread

/-- If something is wrong with the path of a copy it hinders the copying. -/
theorem not_feasible_of_fault {place : Place} {name : Bytes} {n : Node} {fault : Fault}
    (hat : top.at? (place ++ [name]) = some n)
    (hfault : pathFault? ((place.foldl Path.child target).child name) name = some fault) :
    ¬ Feasible source target top := by
  intro hfeasible
  have hfits := (hfeasible.fits place name n hat).2
  rw [List.foldl_concat, hfault] at hfits
  cases hfits

/-- The entries of a directory are copied in turn if each of them is. -/
theorem transfers_each {es : List (Bytes × Node)}
    (hes : ∀ e ∈ es, d.Transfers source top target goal e.2) :
    ∀ {base : Disk} {place : Place} {done : List (Bytes × Node)} (rest : List (Place × Node)),
      d.Reached base goal place → (∀ e ∈ es, top.at? (place ++ [e.1]) = some e.2) →
      ((done ++ es).map (·.1)).Nodup →
      let copied := copyNodes source target (Node.descendantsAll place es ++ rest)
        (base.put (goal ++ place) (.dir done))
      (∃ copies, copies.map (·.1) = es.map (·.1) ∧
          (∀ pair ∈ es.zip copies, pair.1.2.Copies pair.2.2) ∧ copied =
            copyNodes source target rest (base.put (goal ++ place) (.dir (done ++ copies)))) ∨
        (¬ Feasible source target top ∧ ∃ fault left, copied = (.error fault, left)) := by
  induction es with
  | nil =>
    intro base place done rest _ _ _
    exact .inl ⟨[], rfl, by simp, by rw [List.append_nil]; rfl⟩
  | cons e es ih =>
    obtain ⟨name, n⟩ := e
    intro base place done rest hreached hat hnodup
    have hfresh : name ∉ done.map (·.1) := by
      rw [List.map_append, List.map_cons] at hnodup
      exact fun hmem => List.disjoint_of_nodup_append hnodup hmem List.mem_cons_self
    rw [Node.descendantsAll, List.append_assoc]
    -- the first entry joins what is there, and the others follow it
    rcases hes _ List.mem_cons_self base place name done (Node.descendantsAll place es ++ rest)
      hreached (hat _ List.mem_cons_self) hfresh with ⟨c, hc, hone⟩ | hstopped
    · have hnodup' : ((done ++ [(name, c)] ++ es).map (·.1)).Nodup := by
        simpa using hnodup
      rw [hone]
      rcases ih (fun e he => hes e (List.mem_cons_of_mem _ he)) rest hreached
        (fun e he => hat e (List.mem_cons_of_mem _ he)) hnodup' with
        ⟨copies, hnames, hcopies, hall⟩ | hstopped
      · refine .inl ⟨(name, c) :: copies, by rw [List.map_cons, List.map_cons, hnames], ?_, ?_⟩
        · rw [List.zip_cons_cons, List.forall_mem_cons]
          exact ⟨hc, hcopies⟩
        · rw [hall, List.append_assoc, List.singleton_append]
      · exact .inr hstopped
    · exact .inr hstopped

/-- Where an entry goes nothing stands, and the directory around it can be opened. -/
theorem lands (h : d.Copyable source origin top target goal) {base : Disk} {place : Place}
    (hreached : d.Reached base goal place) {entry : Bytes} {n : Node}
    (hat : top.at? (place ++ [entry]) = some n) {done : List (Bytes × Node)}
    (hfresh : entry ∉ done.map (·.1)) :
    IsName entry ∧
      (base.put (goal ++ place) (.dir done)).Opens
        (place.foldl Path.child target) (goal ++ place) ∧
      (base.put (goal ++ place) (.dir done)).root.at? (goal ++ place ++ [entry]) =
        none := by
  have hnames := h.lawful.of_at? hat
  refine ⟨(hnames entry (by simp)).toIsName,
    h.opens hreached (fun other hother => hnames other (by simp [hother])) done, ?_⟩
  rw [hreached.at?_put, Node.at?_dir_cons, List.lookup_eq_none_iff.mpr, Option.bind_none]
  intro e he
  simpa using fun heq => hfresh (List.mem_map.mpr ⟨e, he, heq.symm⟩)

/-- A node that holds nothing arrives as the file that is read for it. -/
theorem transfers_leaf (h : d.Copyable source origin top target goal) {n : Node}
    (hn : n.isDir = false)
    (hcopies : ∀ {d' above name content}, d.Spares d' [goal] →
      top.at? (above ++ [name]) = some n →
      d'.read ((above ++ [name]).foldl Path.child source) = .ok content → n.Copies (.file content))
    (hunread : ∀ {d' above name fault}, d.Spares d' [goal] →
      top.at? (above ++ [name]) = some n →
      d'.read ((above ++ [name]).foldl Path.child source) = .error fault →
        ¬ Feasible source target top) :
    d.Transfers source top target goal n := by
  intro base place entry done rest hreached hat hfresh copied
  obtain ⟨hentry, hopen, hfree⟩ := h.lands hreached hat hfresh
  have hspares := hreached.spares_put (.dir done)
  have hbare : n.descendants (place ++ [entry]) = [] := by
    cases n with
    | file _ | link _ => rfl
    | dir _ => cases hn
  have hcopied : copied = copyNodes source target ((place ++ [entry], n) :: rest)
      (base.put (goal ++ place) (.dir done)) := by
    show copyNodes source target
      ((place ++ [entry], n) :: n.descendants (place ++ [entry]) ++ rest) _ = _
    rw [hbare, List.singleton_append]
  rw [hcopied]
  rcases copyNodes_leaf (base.put (goal ++ place) (.dir done)) source target hn
    (place ++ [entry]) rest with
    ⟨content, hread, hnext⟩ | ⟨fault, fault', hread, hstopped⟩
  · rw [hnext, List.foldl_concat, write_fresh hopen hentry hfree]
    cases hfault : pathFault? ((place.foldl Path.child target).child entry) entry with
    | none =>
      refine .inl ⟨.file content, hcopies hspares hat hread, ?_⟩
      dsimp only
      rw [List.append_assoc, hreached.put_put hfresh]
    | some fault => exact .inr ⟨not_feasible_of_fault hat hfault, fault, _, rfl⟩
  · exact .inr ⟨hunread hspares hat hread, fault', _, hstopped⟩

/-- **Copying a node.** -/
theorem transfers (h : d.Copyable source origin top target goal) (n : Node) :
    d.Transfers source top target goal n := by
  induction n using Node.entrywise with
  | file content =>
    refine h.transfers_leaf rfl (fun {d' above name bytes} hspares hat hread => ?_)
      fun hspares hat hread => h.not_feasible_of_unread hspares hat hread
    rw [h.read_eq hspares (by simp) hat hread]
    exact .file content
  | link target' =>
    exact h.transfers_leaf rfl (fun _ _ _ => .link target' _)
      fun _ hat _ hfeasible => nomatch hfeasible.linkless.at? hat
  | dir es ih =>
    intro base place entry done rest hreached hat hfresh
    obtain ⟨hentry, hopen, hfree⟩ := h.lands hreached hat hfresh
    rw [List.cons_append, copyNodes]
    dsimp only
    rw [List.foldl_concat, makeDirs_child hopen hentry hfree]
    cases hfault : pathFault? ((place.foldl Path.child target).child entry) entry with
    | some fault => exact .inr ⟨not_feasible_of_fault hat hfault, fault, _, rfl⟩
    | none =>
      dsimp only
      rw [List.append_assoc _ place, Node.descendants]
      -- the directory is made empty and filled before the copying goes on
      have hdistinct : (es.map (·.1)).Nodup := h.lawful.distinct _ es hat
      have hentries : ∀ e ∈ es, top.at? (place ++ [entry] ++ [e.1]) = some e.2 := by
        intro e he
        rw [Node.at?_append, hat, Option.bind_some, Node.at?_dir_cons,
          (Node.lookup_eq_some_iff hdistinct).mpr he]
        rfl
      refine (transfers_each ih rest (hreached.enter done entry) hentries
        (by simpa using hdistinct)).imp_left ?_
      rintro ⟨copies, hnames, hcopies, hall⟩
      refine ⟨.dir copies, .dir hnames hcopies, hall.trans ?_⟩
      rw [List.nil_append, hreached.put_put hfresh]

/-- **Copying a directory** puts a copy of it where nothing stood, or stops because something
hinders it. -/
theorem copyDir_cases {es : List (Bytes × Node)}
    (h : d.Copyable source origin (.dir es) target goal)
    (hsource : d.find true source = .ok (origin, .dir es)) :
    (∃ copies, (Node.dir es).Copies (.dir copies) ∧
        Thumbnails.copyDir d source target = (.ok (), d.put goal (.dir copies))) ∨
      (¬ Feasible source target (.dir es) ∧
        ∃ fault left, Thumbnails.copyDir d source target = (.error fault, left)) := by
  have hnode : d.node? source = .ok (.dir es) := by
    rw [node?, hsource]
    rfl
  have hreached : d.Reached d goal [] := ⟨.refl d _, by rw [List.append_nil]; exact h.holds⟩
  have hentries : ∀ e ∈ es, (Node.dir es).at? ([] ++ [e.1]) = some e.2 := by
    intro e he
    rw [List.nil_append, Node.at?_dir_cons, h.lawful.distinct.lookup_iff.mpr he]
    rfl
  have hnodup : ((([] : List (Bytes × Node)) ++ es).map (·.1)).Nodup :=
    h.lawful.distinct [] es rfl
  have hall := transfers_each (fun e _ => h.transfers e.2) [] hreached hentries hnodup
  rw [List.append_nil, List.append_nil] at hall
  rw [Thumbnails.copyDir, hnode, makeDirs_of_free h.free]
  refine hall.imp_left ?_
  rintro ⟨copies, hnames, hcopies, hcopied⟩
  exact ⟨copies, .dir hnames hcopies, hcopied⟩

/-- Copying that succeeds has put a copy of the directory where nothing stood. -/
theorem copyDir_copies {es : List (Bytes × Node)}
    (h : d.Copyable source origin (.dir es) target goal)
    (hsource : d.find true source = .ok (origin, .dir es))
    (hcopy : Thumbnails.copyDir d source target = (.ok (), d')) :
    ∃ copies, (Node.dir es).Copies (.dir copies) ∧ d' = d.put goal (.dir copies) := by
  rcases h.copyDir_cases hsource with ⟨copies, hcopies, hcopied⟩ | ⟨-, fault, left, hstopped⟩
  · exact ⟨copies, hcopies, congrArg Prod.snd (hcopy.symm.trans hcopied)⟩
  · cases hcopy.symm.trans hstopped

end Copyable

end Nodes

end Disk

end Corpus
