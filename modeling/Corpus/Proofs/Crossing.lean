/-
Corpus/Proofs/Crossing.lean

A directory is moved to another device.

There it cannot be renamed, so it is copied node by node and then removed.  Of files and directories
the copy is the tree that was copied, and what is put at one place does not depend on what is taken
away at a place apart from it,

    put at the goal, then erased at the origin  =  erased at the origin, then put at the goal

so the disk is left as the rename would have left it, were there one device only
(`Disk.Crosses.moveDir_eq`).  Copying such a tree does not fail unless a path is too long.
-/
import Corpus.Proofs.Copying

namespace Corpus

namespace Node

/-! ### Changes at places that are apart -/

/-- Entries of other names may be left out before or after one is put. -/
theorem filter_putEntry {a b : Bytes} (h : a ≠ b) (es : List (Bytes × Node)) (c : Node) :
    (putEntry es a c).filter (·.1 != b) = putEntry (es.filter (·.1 != b)) a c := by
  have hthere : (es.filter (·.1 != b)).any (·.1 == a) = es.any (·.1 == a) := by
    rw [any_eq_isSome_lookup, any_eq_isSome_lookup, lookup_without, if_neg h]
  rw [putEntry, putEntry, hthere]
  split
  · rw [List.filter_map]
    refine congrArg _ (List.filter_congr fun e _ => ?_)
    by_cases he : e.1 = a <;> simp [he]
  · rw [List.filter_append]
    simp [h]

/-- Of two nodes that are put under different names it does not matter which one comes first, if
the later name was listed before. -/
theorem putEntry_comm {a b : Bytes} (h : a ≠ b) {es : List (Bytes × Node)}
    (hb : es.any (·.1 == b) = true) (c c' : Node) :
    putEntry (putEntry es a c) b c' = putEntry (putEntry es b c') a c := by
  -- the later name is exchanged in both orders, so the listing keeps its order
  have hthere : ∀ other n, other ≠ b → (putEntry es other n).any (·.1 == b) = true := by
    intro other n hother
    rw [any_eq_isSome_lookup, lookup_putEntry, if_neg hother.symm, ← any_eq_isSome_lookup, hb]
  have hsame : (putEntry es b c').any (·.1 == a) = es.any (·.1 == a) := by
    rw [any_eq_isSome_lookup, any_eq_isSome_lookup, lookup_putEntry, if_neg h]
  conv_lhs => rw [putEntry, if_pos (hthere a c h)]
  conv_rhs => rw [putEntry, hsame]
  rw [putEntry, putEntry, if_pos hb]
  split
  · rw [List.map_map, List.map_map]
    refine List.map_congr_left fun e _ => ?_
    by_cases ha : e.1 = a
    · simp [ha, h]
    · by_cases hb : e.1 = b <;> simp [ha, hb, h.symm]
  · rw [List.map_append, List.map_singleton, if_neg (by simpa using h)]

/-- What is put in or below one entry does not depend on what is taken away in or below another. -/
theorem erase_put_beside {a b : Bytes} (h : a ≠ b) (es : List (Bytes × Node)) (rest below : Place)
    (c : Node) : ((Node.dir es).amend (a :: rest) (some c)).amend (b :: below) none =
      ((Node.dir es).amend (b :: below) none).amend (a :: rest) (some c) := by
  have hput : ∀ n, (putEntry es a n).lookup b = es.lookup b := fun n => by
    rw [lookup_putEntry, if_neg h.symm]
  have hput' : ∀ n, (putEntry es b n).lookup a = es.lookup a := fun n => by
    rw [lookup_putEntry, if_neg h]
  have herase : (es.filter (·.1 != b)).lookup a = es.lookup a := by rw [lookup_without, if_neg h]
  have hcomm : ∀ {sub} n n', es.lookup b = some sub →
      putEntry (putEntry es a n) b n' = putEntry (putEntry es b n') a n := by
    intro sub n n' hsub
    refine putEntry_comm h ?_ n n'
    rw [any_eq_isSome_lookup, hsub]
    rfl
  -- one entry is put or changed, if it is there, and the other one is left out or changed
  by_cases hrest : rest = [] <;> by_cases hbelow : below = []
  · simp only [amend_cons_dir, if_pos hrest, if_pos hbelow, amendEntry, filter_putEntry h]
  · cases hb : es.lookup b
    all_goals simp only [amend_cons_dir, if_pos hrest, if_neg hbelow, amendEntry, hput, hb]
    rw [hcomm _ _ hb]
  · cases ha : es.lookup a
    all_goals simp only [amend_cons_dir, if_neg hrest, if_pos hbelow, amendEntry, herase, ha]
    rw [filter_putEntry h]
  · cases ha : es.lookup a <;> cases hb : es.lookup b
    all_goals simp only [amend_cons_dir, if_neg hrest, if_neg hbelow, ha, hb, hput, hput']
    rw [hcomm _ _ hb]

/-- What is put at one place does not depend on what is taken away at a place apart from it. -/
theorem erase_put {p q : Place} (h : p.Apart q) (n c : Node) :
    (n.put p c).erase q = (n.erase q).put p c := by
  show (n.amend p (some c)).amend q none = (n.amend q none).amend p (some c)
  induction p generalizing n q with
  | nil => exact absurd List.nil_prefix h.1
  | cons a rest ih =>
    cases q with
    | nil => exact absurd List.nil_prefix h.2
    | cons b below =>
      cases n with
      | file _ | link _ => rfl
      | dir es =>
        by_cases hname : a = b
        · -- both are below one entry, if it is there
          subst hname
          have hapart : Place.Apart rest below :=
            ⟨fun hp => h.1 (by simpa using hp), fun hq => h.2 (by simpa using hq)⟩
          have hrest : rest ≠ [] := fun hnil => hapart.1 (hnil ▸ List.nil_prefix)
          have hbelow : below ≠ [] := fun hnil => hapart.2 (hnil ▸ List.nil_prefix)
          cases hsub : es.lookup a with
          | none => simp only [amend_cons_dir, if_neg hrest, if_neg hbelow, hsub]
          | some sub =>
            simp only [amend_cons_dir, if_neg hrest, if_neg hbelow, hsub, lookup_putEntry, if_pos,
              putEntry_putEntry]
            rw [ih hapart]
        · exact erase_put_beside hname es rest below c

/-! ### Nodes that are listed -/

/-- The nodes below each entry are listed among those below all of them. -/
theorem mem_descendantsAll {place : Place} {es : List (Bytes × Node)} {e : Bytes × Node}
    (he : e ∈ es) {node : Place × Node}
    (h : node = (place ++ [e.1], e.2) ∨ node ∈ e.2.descendants (place ++ [e.1])) :
    node ∈ descendantsAll place es := by
  induction es with
  | nil => cases he
  | cons first rest ih =>
    obtain ⟨name, c⟩ := first
    rw [descendantsAll, List.mem_append, List.mem_cons]
    rcases List.mem_cons.mp he with rfl | he
    · exact .inl h
    · exact .inr (ih he)

/-- Every node below another one is listed among those below it. -/
theorem mem_descendants_of_at? {below : Place} (hbelow : below ≠ []) :
    ∀ {place : Place} {n c : Node}, n.at? below = some c →
      (place ++ below, c) ∈ n.descendants place := by
  induction below with
  | nil => exact absurd rfl hbelow
  | cons name rest ih =>
    intro place n c hat
    cases n with
    | file _ | link _ => cases hat
    | dir es =>
      rw [at?_dir_cons, Option.bind_eq_some_iff] at hat
      obtain ⟨sub, hsub, hat⟩ := hat
      rw [descendants]
      refine mem_descendantsAll (mem_of_lookup hsub) ?_
      by_cases hrest : rest = []
      · subst hrest
        cases hat
        exact .inl rfl
      · rw [List.append_cons place name rest]
        exact .inr (ih hrest hat)

end Node

namespace Disk

variable {d d' : Disk}

/-- Whether something hinders the copying can be told from the nodes that are listed. -/
theorem feasible_of_descendants {source target : Path} {top : Node} (hlinkless : top.Linkless)
    (hfits : ∀ node ∈ top.descendants [],
      pathFault? (node.1.foldl Path.child source) (node.1.getLastD []) = none ∧
        pathFault? (node.1.foldl Path.child target) (node.1.getLastD []) = none) :
    Feasible source target top := by
  refine ⟨hlinkless, fun above name n hat => ?_⟩
  have hlisted : ([] ++ (above ++ [name]), n) ∈ top.descendants [] :=
    Node.mem_descendants_of_at? (by simp) hat
  have hnode := hfits _ hlisted
  rwa [List.nil_append, List.getLastD_concat] at hnode

/-! ### Places that directories hold -/

/-- The directory above a directory is one. -/
theorem exists_dir_of_dropLast {root : Node} {place : Place}
    (h : ∃ es, root.at? place = some (.dir es)) :
    ∃ es, root.at? place.dropLast = some (.dir es) := by
  rcases List.eq_nil_or_concat' place with rfl | ⟨above, name, rfl⟩
  · exact h
  · obtain ⟨es, hes⟩ := h
    rw [List.dropLast_concat]
    exact Node.exists_dir_of_below (List.cons_ne_nil name []) hes

theorem exists_dir_at_top {root : Node} {place : Place}
    (h : ∃ es, root.at? place = some (.dir es)) : ∃ es, root.at? [] = some (.dir es) := by
  by_cases hplace : place = []
  · exact hplace ▸ h
  · obtain ⟨es, hes⟩ := h
    exact Node.exists_dir_of_below hplace hes

/-- Steps from a directory lead from one directory to the next, so one of them holds the free place
that they lead to. -/
theorem holds_of_walk_free {root : Node} {follow : Bool} {links : Nat} {dirOnly : Bool}
    {place goal : Place} {s : List Bytes}
    (h : walk root follow links dirOnly place s = .ok (.free goal))
    (hplace : ∃ es, root.at? place = some (.dir es)) : root.Holds goal := by
  -- only a walk whose last step leads to nothing ends at a free place
  fun_induction walk root follow links dirOnly place s with
  | case3 links dirOnly place step rest hstep ih => exact ih h hplace
  | case4 links dirOnly place step rest hstep hup ih => exact ih h (exists_dir_of_dropLast hplace)
  | case6 links dirOnly place step rest hstep hup hlong hnone hrest =>
    cases h
    obtain ⟨es, hes⟩ := hplace
    exact ⟨place, step, es, rfl, hes⟩
  | case9 links dirOnly place step rest hstep hup hlong es hdir hrest ih => exact ih h ⟨es, hdir⟩
  | case15 dirOnly place step rest hstep hup hlong target hlink hrest links hempty start ih =>
    refine ih h ?_
    by_cases hroot : (target.head? == some Path.separator) = true
    · rw [show start = [] from if_pos hroot]
      exact exists_dir_at_top hplace
    · rw [show start = place from if_neg hroot]
      exact hplace
  | _ => cases h

/-- A free place that a path leads to is held by a directory, if the working directory is there. -/
theorem holds_of_free {p : Path} {goal : Place} {follow : Bool}
    (hworking : ∃ es, d.root.at? d.workingDir = some (.dir es))
    (h : d.resolve follow p = .ok (.free goal)) : d.root.Holds goal := by
  refine holds_of_walk_free (walk_of_resolve h).2.2.2 ?_
  split
  · exact exists_dir_at_top hworking
  · exact hworking

/-! ### One device -/

/-- The disk as one device. -/
def united (d : Disk) : Disk := { d with mounts := [] }

/-! ### Moving by copying -/

/-- A tree of files and directories stands at the end of one path and nothing at the end of another
one, which is not within the tree and on another device. -/
structure Crosses (d : Disk) (source target : Path) (origin goal : Place)
    (es : List (Bytes × Node)) : Prop where
  /-- The working directory is there. -/
  working : ∃ entries, d.root.at? d.workingDir = some (.dir entries)
  found : d.find false source = .ok (origin, .dir es)
  lawful : (Node.dir es).Lawful
  linkless : (Node.dir es).Linkless
  free : d.resolve false target = .ok (.free goal)
  outside : ¬ origin <+: goal
  stopped : d.rename source target = .error .otherDevice

namespace Crosses

variable {source target : Path} {origin goal : Place} {es : List (Bytes × Node)}

theorem holds (h : d.Crosses source target origin goal es) : d.root.Holds goal :=
  holds_of_free h.working h.free

theorem copyable (h : d.Crosses source target origin goal es) :
    d.Copyable source origin (.dir es) target goal :=
  copyable_of_free h.found h.lawful h.free h.outside h.holds

/-- What is left when the tree was copied and then removed. -/
def carried (d : Disk) (origin goal : Place) (es : List (Bytes × Node)) : Disk :=
  (d.put goal (.dir es)).erase origin

theorem removeDir_source (h : d.Crosses source target origin goal es) :
    (d.put goal (.dir es)).removeDir source = .ok (carried d origin goal es) := by
  obtain ⟨es', hfind⟩ := find_dir_of_free (at?_of_free h.free) (.put d goal (.dir es)) h.found
  rw [removeDir, hfind]
  rfl

/-- **Moving by copying** comes to its end, or stops because something hinders it. -/
theorem moveByCopy_cases (h : d.Crosses source target origin goal es) :
    Thumbnails.moveByCopy d source target = (.ok (), carried d origin goal es) ∨
      (¬ Feasible source target (.dir es) ∧
        ∃ fault left, Thumbnails.moveByCopy d source target = (.error fault, left)) := by
  rw [Thumbnails.moveByCopy]
  rcases h.copyable.copyDir_cases (find_follow h.found).1 with
    ⟨copies, hcopies, hcopied⟩ | ⟨hnot, fault, left, hstopped⟩
  · obtain rfl : copies = es := (Node.dir.inj (hcopies.eq_of_linkless h.linkless))
    rw [hcopied]
    dsimp only
    rw [h.removeDir_source]
    exact .inl rfl
  · rw [hstopped]
    exact .inr ⟨hnot, fault, left, rfl⟩

/-- Were there one device only, the rename would leave the same. -/
theorem rename_united (h : d.Crosses source target origin goal es) :
    d.united.rename source target = .ok (carried d origin goal es).united := by
  have hstopped : d.rename source target = .ok d ∨ d.rename source target = .error .otherDevice :=
    .inr h.stopped
  obtain ⟨-, -, -, -, -, hsource, htarget⟩ := found_of_rename hstopped
  have hwithin : ¬ origin.isPrefixOf goal = true := fun hle =>
    h.outside (List.isPrefixOf_iff_prefix.mp hle)
  have hdevice : ¬ d.united.device origin ≠ d.united.device goal := not_not_intro rfl
  rw [rename_dir_of_free (d := d.united) h.found h.free hsource htarget, if_neg hdevice,
    if_neg hwithin]
  have hroot : (d.root.put goal (.dir es)).erase origin =
      (d.root.erase origin).put goal (.dir es) :=
    Node.erase_put h.copyable.apart d.root (.dir es)
  rw [carried, united, put, erase, put, erase, hroot]
  rfl

/-- **Crossing.**  A tree of files and directories is moved to an absent target outside it, which is
on another device.  If copying it and removing it comes to an end, the disk is as the rename would
have left it: the tree stands at the target with all that it holds, nothing is left where it stood,
and all else is unchanged.  It does come to an end unless a path is too long. -/
theorem moveDir_eq (h : d.Crosses source target origin goal es) :
    ∃ crossed : Disk, d.united.rename source target = .ok crossed.united ∧
      (∀ d', Thumbnails.moveDir d source target = (.ok (), d') → d' = crossed) ∧
      (Feasible source target (.dir es) →
        Thumbnails.moveDir d source target = (.ok (), crossed)) ∧
      (∀ place, crossed.root.at? (goal ++ place) = (Node.dir es).at? place) ∧
      (∀ place, crossed.root.at? (origin ++ place) = none) ∧
      d.Spares crossed [origin, goal] := by
  have hmove : Thumbnails.moveDir d source target = Thumbnails.moveByCopy d source target := by
    rw [Thumbnails.moveDir, h.stopped]
  have horigin : origin ≠ [] := fun hnil => h.outside (hnil ▸ List.nil_prefix)
  refine ⟨carried d origin goal es, h.rename_united, fun d' hmoved => ?_, fun hfeasible => ?_,
    fun place => ?_, fun place => ?_, ?_⟩
  · rw [hmove] at hmoved
    rcases h.moveByCopy_cases with hcopied | ⟨-, fault, left, hstopped⟩
    · exact congrArg Prod.snd (hmoved.symm.trans hcopied)
    · cases hmoved.symm.trans hstopped
  · rw [hmove]
    exact h.moveByCopy_cases.resolve_right fun hstopped => hstopped.1 hfeasible
  · have hkept : (carried d origin goal es).root.at? (goal ++ place) =
        (d.root.put goal (.dir es)).at? (goal ++ place) :=
      Node.at?_amend _ (h.copyable.apart.symm.below place) none
    rw [hkept, Node.at?_put_append h.holds]
  · exact Node.at?_erase_append _ horigin place
  · exact ((Spares.put d goal (.dir es)).among (by simp)).trans
      ((Spares.erase _ origin).among (by simp))

end Crosses

end Disk

/-! ### A tree that crosses -/

namespace Sample

/-- A directory with a file and a directory, which holds a file and an empty directory. -/
def nested : List (Bytes × Node) :=
  [(Text.encode "a", .file [1]),
    (Text.encode "b", .dir [(Text.encode "c", .file [2]), (Text.encode "e", .dir [])])]

/-- It is staged on one device, and the thumbnails are on another one. -/
def twofold : Disk :=
  ⟨.dir [(Text.encode "t", .dir []), (Text.encode "s", .dir [(Text.encode "1", .dir nested)])], [],
    [[Text.encode "t"]]⟩

theorem isLegible_letter {s : String} (h : s ∈ ["a", "b", "c", "e"]) :
    Disk.IsLegible (Text.encode s) := by
  simp only [List.mem_cons, List.not_mem_nil, or_false] at h
  rcases h with rfl | rfl | rfl | rfl
  all_goals exact ⟨⟨by decide, by decide, by decide, by decide⟩, ⟨_, rfl⟩, by decide, by decide⟩

theorem legible_nested : (Node.dir nested).Legible := by
  have hempty : (Node.dir []).Legible :=
    .dir List.nodup_nil (List.forall_mem_nil _) (List.forall_mem_nil _)
  have hinner : (Node.dir [(Text.encode "c", .file [2]), (Text.encode "e", .dir [])]).Legible := by
    refine .dir (by decide) ?_ ?_
    all_goals simp only [List.forall_mem_cons]
    · exact ⟨isLegible_letter (by decide), isLegible_letter (by decide), List.forall_mem_nil _⟩
    · exact ⟨.file _, hempty, List.forall_mem_nil _⟩
  refine .dir (by decide) ?_ ?_
  all_goals simp only [nested, List.forall_mem_cons]
  · exact ⟨isLegible_letter (by decide), isLegible_letter (by decide), List.forall_mem_nil _⟩
  · exact ⟨.file _, hinner, List.forall_mem_nil _⟩

theorem linkless_nested : (Node.dir nested).Linkless := by
  refine .dir ?_
  simp only [nested, List.forall_mem_cons]
  refine ⟨.file _, .dir ?_, List.forall_mem_nil _⟩
  simp only [List.forall_mem_cons]
  exact ⟨.file _, .dir (List.forall_mem_nil _), List.forall_mem_nil _⟩

theorem crosses_twofold :
    twofold.Crosses (.ofText "/s/1") (.ofText "/t/d") [Text.encode "s", Text.encode "1"]
      [Text.encode "t", Text.encode "d"] nested :=
  ⟨⟨_, rfl⟩, by cbv, legible_nested.lawful, linkless_nested, by cbv, by decide, by cbv⟩

theorem feasible_nested :
    Disk.Feasible (.ofText "/s/1") (.ofText "/t/d") (.dir nested) :=
  Disk.feasible_of_descendants linkless_nested (by cbv; decide)

end Sample

/-- The tree is moved to the other device as a rename would have moved it. -/
theorem moveDir_eq_nested :
    ∃ crossed : Disk, Sample.twofold.united.rename (.ofText "/s/1") (.ofText "/t/d") =
        .ok crossed.united ∧
      Thumbnails.moveDir Sample.twofold (.ofText "/s/1") (.ofText "/t/d") = (.ok (), crossed) ∧
      crossed.root.at? [Text.encode "t", Text.encode "d", Text.encode "b", Text.encode "c"] =
        some (.file [2]) := by
  obtain ⟨crossed, hrename, -, hmove, hthere, -⟩ := Sample.crosses_twofold.moveDir_eq
  exact ⟨crossed, hrename, hmove Sample.feasible_nested,
    hthere [Text.encode "b", Text.encode "c"]⟩

end Corpus
