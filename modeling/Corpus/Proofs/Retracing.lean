/-
Corpus/Proofs/Retracing.lean

Paths that are followed again after a change.

A path that leads to something has met something all along its trail.  So if a path is followed on a
disk from which things were taken away, and leads to something still, nothing was taken away from
its trail (`Disk.look_of_find`), and it leads where it led before.  The same goes for the path of a
directory if that of one of its entries can be followed (`Disk.look_of_resolve_child`).

Directories that are made on the way to one add to the disk and change nothing that was there
(`Disk.grows_makeDirs`).
-/
import Corpus.Proofs.Walking

namespace Corpus.Disk

/-! ### Trails that were followed to their end -/

/-- What steps lead to was met at last, and before it there are directories and links only. -/
theorem found_of_mem_trailFrom {root : Node} {follow : Bool} {links : Nat} {dirOnly : Bool}
    {place q : Place} {s : List Bytes} {n : Node}
    (h : walk root follow links dirOnly place s = .ok (.node q n)) :
    ∀ z ∈ trailFrom root follow links dirOnly place s,
      ∃ m, root.at? z = some m ∧ (m = n ∨ m.isFile = false) := by
  fun_induction walk root follow links dirOnly place s with
  | case1 links dirOnly place m hm =>
    cases h
    rw [trailFrom, List.forall_mem_singleton]
    exact ⟨n, hm, .inl rfl⟩
  | case3 links dirOnly place step rest hstep ih =>
    rw [trailFrom_here hstep]
    exact ih h
  | case4 links dirOnly place step rest hstep hup ih =>
    rw [trailFrom_up hstep hup]
    exact ih h
  | case8 links dirOnly place step rest hstep hup hlong es hdir hrest =>
    cases h
    rw [trailFrom_last hstep hup hlong hdir hrest, List.forall_mem_singleton]
    exact ⟨_, hdir, .inl rfl⟩
  | case9 links dirOnly place step rest hstep hup hlong es hdir hrest ih =>
    rw [trailFrom_onward hstep hup hlong hdir hrest, List.forall_mem_cons]
    exact ⟨⟨_, hdir, .inr rfl⟩, ih h⟩
  | case10 links dirOnly place step rest hstep hup hlong content hfile hrest =>
    cases h
    rw [trailFrom_enter hstep hup hlong, Node.look_of_at? hfile]
    simp only [Node.surface_file, List.forall_mem_singleton]
    exact ⟨_, hfile, .inl rfl⟩
  | case12 links dirOnly place step rest hstep hup hlong target hlink hrest =>
    cases h
    rw [trailFrom_enter hstep hup hlong, Node.look_of_at? hlink]
    simp only [Node.surface_link, if_pos hrest, List.forall_mem_singleton]
    exact ⟨_, hlink, .inl rfl⟩
  | case15 dirOnly place step rest hstep hup hlong target hlink hrest links hempty start ih =>
    rw [trailFrom_through hstep hup hlong hlink hrest hempty, List.forall_mem_cons]
    exact ⟨⟨_, hlink, .inr rfl⟩, ih h⟩
  | _ => cases h

/-- A step that does not end on a free place was taken onto something. -/
theorem look_ne_none_of_enter {root : Node} {follow : Bool} {links : Nat} {dirOnly : Bool}
    {place : Place} {step : Bytes} {rest : List Bytes} {found : Found}
    (hstep : ¬ (step == [46]) = true) (hup : ¬ (step == [46, 46]) = true)
    (hlong : ¬ maxName < step.length)
    (h : walk root follow links dirOnly place (step :: rest) = .ok found)
    (hfound : rest = [] → ∃ q n, found = .node q n) : root.look (place ++ [step]) ≠ none := by
  intro hnone
  rw [Node.look, Option.map_eq_none_iff] at hnone
  rw [walk_enter hstep hup hlong, hnone] at h
  dsimp only at h
  split at h
  · rename_i hrest
    obtain ⟨q, n, rfl⟩ := hfound (List.isEmpty_iff.mp hrest)
    cases h
  · cases h

theorem at?_of_look {n : Node} {p : Place} {c : Node} (h : n.look p = some c.surface) :
    ∃ m, n.at? p = some m ∧ m.surface = c.surface := Option.map_eq_some_iff.mp h

/-- **Steps that are taken again.**  They led to a directory, and in another tree, where some of
what they met is gone, they lead on to something.  So nothing that they met is gone. -/
theorem look_of_walk {root root' : Node} {follow' : Bool} {links : Nat} {dirOnly : Bool}
    {place q : Place} {s : List Bytes} {es : List (Bytes × Node)} {more : List Bytes}
    {found : Found}
    (h : walk root true links dirOnly place s = .ok (.node q (.dir es)))
    (hmore : more = [] → follow' = true ∧ ∃ q' n', found = .node q' n')
    (hend : more ≠ [] → root'.look q = root.look q) :
    ∀ dirOnly', walk root' follow' links dirOnly' place (s ++ more) = .ok found →
      (∀ z ∈ trailFrom root true links dirOnly place s,
        root'.look z = none ∨ root'.look z = root.look z) →
      ∀ z ∈ trailFrom root true links dirOnly place s, root'.look z = root.look z := by
  fun_induction walk root true links dirOnly place s with
  | case1 links dirOnly place m hm =>
    cases h
    intro dirOnly' h' hpart
    rw [trailFrom, List.forall_mem_singleton] at hpart ⊢
    by_cases hnil : more = []
    · subst hnil
      rw [List.append_nil, walk] at h'
      refine hpart.resolve_left fun hnone => ?_
      rw [Node.look, Option.map_eq_none_iff] at hnone
      rw [hnone] at h'
      cases h'
    · exact hend hnil
  | case3 links dirOnly place step rest hstep ih =>
    intro dirOnly' h' hpart
    rw [List.cons_append, walk_here hstep] at h'
    rw [trailFrom_here hstep] at hpart ⊢
    exact ih h dirOnly' h' hpart
  | case4 links dirOnly place step rest hstep hup ih =>
    intro dirOnly' h' hpart
    rw [List.cons_append, walk_up hstep hup] at h'
    rw [trailFrom_up hstep hup] at hpart ⊢
    exact ih h dirOnly' h' hpart
  | case8 links dirOnly place step rest hstep hup hlong es' hdir hrest =>
    intro dirOnly' h' hpart
    rw [List.isEmpty_iff.mp hrest, List.cons_append, List.nil_append] at h'
    rw [trailFrom_last hstep hup hlong hdir hrest, List.forall_mem_singleton] at hpart ⊢
    exact hpart.resolve_left
      (look_ne_none_of_enter hstep hup hlong h' fun hnil => (hmore hnil).2)
  | case9 links dirOnly place step rest hstep hup hlong es' hdir hrest ih =>
    intro dirOnly' h' hpart
    rw [List.cons_append] at h'
    rw [trailFrom_onward hstep hup hlong hdir hrest, List.forall_mem_cons] at hpart ⊢
    -- more steps follow, so the other walk cannot have ended here
    have hgoes : rest ++ more ≠ [] := by
      intro hnil
      exact hrest (List.isEmpty_iff.mpr (List.append_eq_nil_iff.mp hnil).1)
    have hsame := hpart.1.resolve_left
      (look_ne_none_of_enter hstep hup hlong h' fun hnil => absurd hnil hgoes)
    -- the directory is still there, so both go on from it
    obtain ⟨m, hm, hsurface⟩ := at?_of_look (hsame.trans (Node.look_of_at? hdir))
    cases m with
    | dir es'' =>
      rw [walk_onward hstep hup hlong hm (by simpa using hgoes)] at h'
      exact ⟨hsame, ih h dirOnly' h' hpart.2⟩
    | file _ | link _ => cases hsurface
  | case15 dirOnly place step rest hstep hup hlong target hlink hrest links hempty start ih =>
    intro dirOnly' h' hpart
    rw [List.cons_append] at h'
    rw [trailFrom_through hstep hup hlong hlink hrest hempty, List.forall_mem_cons] at hpart ⊢
    have hsame := hpart.1.resolve_left (look_ne_none_of_enter hstep hup hlong h' fun hnil =>
      (hmore (List.append_eq_nil_iff.mp hnil).2).2)
    obtain ⟨m, hm, hsurface⟩ := at?_of_look (hsame.trans (Node.look_of_at? hlink))
    cases m with
    | link target' =>
      cases hsurface
      -- only at its end may the other walk not follow the link, and there it does
      have hfollows : ¬ ((rest ++ more).isEmpty && !dirOnly' && !follow') = true := by
        intro hstays
        simp only [Bool.and_eq_true, List.isEmpty_iff, List.append_eq_nil_iff] at hstays
        simp [(hmore hstays.1.1.2).1] at hstays
      rw [walk_through hstep hup hlong hm hfollows hempty, ← List.append_assoc] at h'
      exact ⟨hsame, ih h _ h' hpart.2⟩
    | file _ | dir _ => cases hsurface
  | _ => cases h

variable {d d' : Disk} {p : Path} {follow : Bool} {q : Place} {n : Node}
  {es : List (Bytes × Node)}

/-- Something stands all along the trail of a path that leads to something. -/
theorem look_ne_none_of_mem_trail (h : d.find follow p = .ok (q, n)) :
    ∀ z ∈ d.trail follow p, d.root.look z ≠ none := by
  intro z hz
  obtain ⟨m, hm, -⟩ := found_of_mem_trailFrom (walk_of_resolve (find_eq_ok.mp h)).2.2.2 z hz
  exact Node.look_ne_none_of_at? hm

/-- **A path that still leads to something** leads there on its old trail. -/
theorem look_of_find (hworking : d'.workingDir = d.workingDir)
    (h : d.find true p = .ok (q, .dir es)) {q' : Place} {n' : Node}
    (h' : d'.find true p = .ok (q', n'))
    (hpart : ∀ z ∈ d.trail true p, d'.root.look z = none ∨ d'.root.look z = d.root.look z) :
    ∀ z ∈ d.trail true p, d'.root.look z = d.root.look z := by
  have hwalk := (walk_of_resolve (find_eq_ok.mp h)).2.2.2
  have hwalk' := (walk_of_resolve (find_eq_ok.mp h')).2.2.2
  rw [hworking, ← List.append_nil (steps p.bytes)] at hwalk'
  exact look_of_walk hwalk (fun _ => ⟨rfl, q', n', rfl⟩) (fun hne => absurd rfl hne) _ hwalk' hpart

/-- **A directory one of whose entries can be looked for** is reached on its old trail. -/
theorem look_of_resolve_child (hworking : d'.workingDir = d.workingDir)
    (h : d.find true p = .ok (q, .dir es)) {name : Bytes} (hname : IsName name) {found : Found}
    (h' : d'.resolve follow (p.child name) = .ok found) (hend : d'.root.look q = d.root.look q)
    (hpart : ∀ z ∈ d.trail true p, d'.root.look z = none ∨ d'.root.look z = d.root.look z) :
    ∀ z ∈ d.trail true p, d'.root.look z = d.root.look z := by
  obtain ⟨-, hempty, -, hwalk⟩ := walk_of_resolve (find_eq_ok.mp h)
  have hwalk' := (walk_of_resolve h').2.2.2
  rw [hworking, isAbsolute_child hempty hname, steps_child hempty hname] at hwalk'
  exact look_of_walk hwalk (fun hnil => absurd hnil (List.cons_ne_nil _ _)) (fun _ => hend) _ hwalk'
    hpart

/-- **A path that is followed only now**, when what has changed is gone, did not lead through it
before. -/
theorem Spares.away_of_find {zones : List Place} (h : d.Spares d' zones)
    (hgone : ∀ z ∈ zones, d'.root.at? z = none) {q' : Place} {n' : Node}
    (h' : d'.find follow p = .ok (q', n')) :
    d'.trail follow p = d.trail follow p ∧
      ∀ q ∈ d.trail follow p, ∀ z ∈ zones, ¬ z <+: q := by
  have haway : ∀ q ∈ d'.trail follow p, ∀ z ∈ zones, ¬ z <+: q := fun q hq z hz hprefix =>
    look_ne_none_of_mem_trail h' q hq (Node.look_below_eq_none (hgone z hz) hprefix)
  have htrail : d.trail follow p = d'.trail follow p :=
    (resolve_congr h.workingDir.symm fun q hq => (h.look q (haway q hq)).symm).2
  exact ⟨htrail.symm, fun q hq => haway q (htrail ▸ hq)⟩

/-! ### Directories that are made -/

/-- Nothing stands at a free place. -/
theorem at?_of_walk_free {root : Node} {follow : Bool} {links : Nat} {dirOnly : Bool}
    {place q : Place} {s : List Bytes}
    (h : walk root follow links dirOnly place s = .ok (.free q)) : root.at? q = none := by
  fun_induction walk root follow links dirOnly place s with
  | case3 _ _ _ _ _ _ ih => exact ih h
  | case4 _ _ _ _ _ _ _ ih => exact ih h
  | case6 _ _ _ _ _ _ _ _ hnone => cases h; exact hnone
  | case9 _ _ _ _ _ _ _ _ _ _ _ ih => exact ih h
  | case15 _ _ _ _ _ _ _ _ _ _ _ _ _ ih => exact ih h
  | _ => cases h

theorem at?_of_free (h : d.resolve follow p = .ok (.free q)) : d.root.at? q = none :=
  at?_of_walk_free (walk_of_resolve h).2.2.2

/-- Disk `d'` is disk `d` with more directories: what was there looks as it did. -/
structure Grows (d d' : Disk) : Prop where
  workingDir : d'.workingDir = d.workingDir
  mounts : d'.mounts = d.mounts
  look : ∀ q, d'.root.look q = d.root.look q ∨
    d.root.look q = none ∧ d'.root.look q = some (.dir [])

namespace Grows

theorem refl (d : Disk) : d.Grows d := ⟨rfl, rfl, fun _ => .inl rfl⟩

theorem trans {d'' : Disk} (h : d.Grows d') (h' : d'.Grows d'') : d.Grows d'' := by
  refine ⟨h'.workingDir.trans h.workingDir, h'.mounts.trans h.mounts, fun q => ?_⟩
  rcases h.look q with hsame | ⟨hnone, hmade⟩
  · rcases h'.look q with hsame' | ⟨hnone', hmade'⟩
    · exact .inl (hsame'.trans hsame)
    · exact .inr ⟨hsame.symm.trans hnone', hmade'⟩
  · rcases h'.look q with hsame' | ⟨hnone', -⟩
    · exact .inr ⟨hnone, hsame'.trans hmade⟩
    · rw [hmade] at hnone'
      cases hnone'

/-- A directory that is put at a free place changes nothing that was there. -/
theorem put (h : d.resolve follow p = .ok (.free q)) : d.Grows (d.put q (.dir [])) := by
  have hfree := at?_of_free h
  refine ⟨rfl, rfl, fun z => ?_⟩
  by_cases hbelow : q <+: z
  · obtain ⟨rest, rfl⟩ := hbelow
    rw [Node.look_below_eq_none hfree (List.prefix_append q rest)]
    exact (Node.look_put_dir hfree rest).imp_right fun h => ⟨rfl, h⟩
  · exact .inl (d.root.look_amend hbelow (some (.dir [])))

theorem makeDir (h : d.makeDir p = .ok d') : d.Grows d' := by
  rw [Disk.makeDir] at h
  split at h
  · cases h
  · rename_i place hfree
    cases h
    exact put hfree
  · cases h

theorem settleDir (d : Disk) (p : Path) : d.Grows (d.settleDir p).2 := by
  rw [Disk.settleDir]
  split
  · rename_i hmake
    exact makeDir hmake
  · split <;> exact refl d

theorem makeDirsFrom (fuel : Nat) : ∀ (d : Disk) (p : Path), d.Grows (d.makeDirsFrom fuel p).2 := by
  induction fuel with
  | zero => exact fun d _ => refl d
  | succ fuel ih =>
    intro d p
    rw [Disk.makeDirsFrom]
    split
    · exact refl d
    · split
      · rename_i hmake
        exact makeDir hmake
      · split
        · exact refl d
        · rename_i parent _
          -- the directory above is made first
          have habove := ih d parent
          split
          · rename_i d₁ hparent
            rw [hparent] at habove
            exact habove.trans (settleDir d₁ p)
          · rename_i d₁ hparent
            rw [hparent] at habove
            exact habove
      · split <;> exact refl d

/-- Only directories stand where none but directories stood. -/
theorem isDir (h : d.Grows d') (hdir : ∀ n, d.root.at? q = some n → n.isDir = true) {n : Node}
    (hat : d'.root.at? q = some n) : n.isDir = true := by
  have hlook := Node.look_of_at? hat
  have hsurface : n.surface.isDir = true := by
    rcases h.look q with hsame | ⟨-, hmade⟩
    · rw [hsame] at hlook
      obtain ⟨m, hm, hsurface⟩ := at?_of_look hlook
      rw [← hsurface]
      cases m with
      | dir _ => rfl
      | file _ | link _ => cases hdir _ hm
    · rw [hmade] at hlook
      rw [← Option.some.inj hlook]
      rfl
  cases n with
  | dir _ => rfl
  | file _ | link _ => cases hsurface

end Grows

/-- **Making directories** changes nothing that was there. -/
theorem grows_makeDirs (d : Disk) (p : Path) : d.Grows (d.makeDirs p).2 := .makeDirsFrom _ d p

/-! ### What a rename has found -/

/-- Following a path never meets the border of a device. -/
theorem walk_ne_otherDevice (root : Node) (follow : Bool) (links : Nat) (dirOnly : Bool)
    (place : Place) (s : List Bytes) :
    walk root follow links dirOnly place s ≠ .error .otherDevice := by
  fun_induction walk root follow links dirOnly place s with
  | case3 _ _ _ _ _ _ ih => exact ih
  | case4 _ _ _ _ _ _ _ ih => exact ih
  | case9 _ _ _ _ _ _ _ _ _ _ _ ih => exact ih
  | case15 _ _ _ _ _ _ _ _ _ _ _ _ _ ih => exact ih
  | _ => simp

theorem resolve_ne_otherDevice (d : Disk) (follow : Bool) (p : Path) :
    d.resolve follow p ≠ .error .otherDevice := by
  rw [resolve]
  split
  · simp
  · split
    · simp
    · split
      · simp
      · exact walk_ne_otherDevice _ _ _ _ _ _

/-- A rename that succeeds, or that only the border of a device stops, has followed both paths. -/
theorem found_of_rename {source target : Path}
    (h : d.rename source target = .ok d' ∨ d.rename source target = .error .otherDevice) :
    ∃ origin moved found, d.find false source = .ok (origin, moved) ∧
      d.resolve false target = .ok found ∧ namesEntry source = true ∧
      namesEntry target = true := by
  rw [rename] at h
  cases hfind : d.find false source with
  | error e =>
    rw [hfind] at h
    rcases h with h | h
    · cases h
    · cases h
      rw [find] at hfind
      split at hfind
      · cases hfind
      · cases hfind
      · rename_i hresolve
        cases hfind
        exact absurd hresolve (d.resolve_ne_otherDevice _ _)
  | ok pair =>
    obtain ⟨origin, moved⟩ := pair
    cases hresolve : d.resolve false target with
    | error e =>
      rw [hfind, hresolve] at h
      rcases h with h | h
      · cases h
      · cases h
        exact absurd hresolve (d.resolve_ne_otherDevice _ _)
    | ok found =>
      refine ⟨origin, moved, found, rfl, rfl, ?_⟩
      cases hbusy : (!namesEntry source || !namesEntry target) with
      | false => simpa using hbusy
      | true =>
        simp only [hfind, hresolve, bind, Except.bind, hbusy, if_true] at h
        rcases h with h | h <;> cases h

end Corpus.Disk
