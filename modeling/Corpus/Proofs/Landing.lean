/-
Corpus/Proofs/Landing.lean

Where a path lands that leads to nothing yet.

The last step of such a path is free.  Once a directory is put there the path leads to it, whatever
else is put on the disk, and if something is taken away the path leads either there still or to
nothing at all (`Disk.walk_onto`):

    path to a free place, then changes  =  path to what stands at that place, or to nothing

So whoever has made a directory at the end of a path, and can list it afterwards, has come to that
very directory, and comes to it again whatever happens within (`Disk.Reaches`).
-/
import Corpus.Proofs.Adopting
import Corpus.Proofs.Retracing

namespace Corpus

namespace Node

/-- Only directories hold something. -/
theorem exists_dir_of_below {n c : Node} {p q : Place} (hq : q ≠ [])
    (h : n.at? (p ++ q) = some c) : ∃ es, n.at? p = some (.dir es) := by
  rw [at?_append] at h
  obtain ⟨m, hm, hbelow⟩ := Option.bind_eq_some_iff.mp h
  obtain ⟨name, rest, rfl⟩ := List.exists_cons_of_ne_nil hq
  cases m with
  | dir es => exact ⟨es, hm⟩
  | file _ | link _ => cases hbelow

/-- What was put at a place where nothing stood stands there, if a directory holds the place, and
otherwise nothing does. -/
theorem at?_put_of_none {n : Node} {p : Place} (h : n.at? p = none) (c : Node) :
    n.Holds p ∧ (n.put p c).at? p = some c ∨ ¬ n.Holds p ∧ (n.put p c).at? p = none := by
  by_cases hholds : n.Holds p
  · exact .inl ⟨hholds, at?_put_self hholds c⟩
  · refine .inr ⟨hholds, ?_⟩
    -- a directory around the place would hold it, and is not changed by what is put there
    by_contra hthere
    obtain ⟨m, hm⟩ := Option.ne_none_iff_exists'.mp hthere
    rcases List.eq_nil_or_concat p with rfl | ⟨above, name, rfl⟩
    · cases h
    · rw [List.concat_eq_append] at hm hholds
      obtain ⟨es, hes⟩ := exists_dir_of_below (List.cons_ne_nil name []) hm
      have hlook := n.look_amend (p := above ++ [name]) (q := above)
        (fun hle => by simpa using hle.length_le) (some c)
      rw [amend, look_of_at? hes] at hlook
      obtain ⟨m, hm, hsurface⟩ := Disk.at?_of_look hlook.symm
      cases m with
      | dir es' => exact hholds ⟨above, name, es', rfl, hm⟩
      | file _ | link _ => cases hsurface

theorem at?_of_look_dir {n : Node} {p : Place} (h : n.look p = some (.dir [])) :
    ∃ es, n.at? p = some (.dir es) := by
  obtain ⟨m, hm, hsurface⟩ := Option.map_eq_some_iff.mp h
  cases m with
  | dir es => exact ⟨es, hm⟩
  | file _ | link _ => cases hsurface

theorem at?_of_look_none {n : Node} {p : Place} (h : n.look p = none) : n.at? p = none :=
  Option.map_eq_none_iff.mp h

end Node

namespace Disk

/-- **Steps onto a free place.**  In another tree, where a directory may stand at that place and
where some of what the steps met may be gone, they lead to that place, or to nothing if they meet
something that is gone. -/
theorem walk_onto {root root' : Node} {links : Nat} {dirOnly : Bool} {place goal : Place}
    {s : List Bytes} (h : walk root false links dirOnly place s = .ok (.free goal))
    (hpart : ∀ z n, root.at? z = some n → n.isFile = false →
      root'.look z = none ∨ root'.look z = root.look z)
    (hgoal : ∀ n, root'.at? goal = some n → n.isDir = true) :
    ((∃ z, root.look z ≠ none ∧ root'.look z = none) ∧
        ∀ q n, walk root' true links dirOnly place s ≠ .ok (.node q n)) ∨
      (walk root' true links dirOnly place s = .ok (foundAt goal (root'.at? goal)) ∧
        ∀ z ∈ trailFrom root' true links dirOnly place s, z = goal ∨ root.look z ≠ none) := by
  -- both walks are told by the recursion of the first one, which meets no file before its end
  fun_induction walk root false links dirOnly place s with
  | case3 links dirOnly place step rest hstep ih =>
    rw [walk_here hstep, trailFrom_here hstep]
    exact ih h
  | case4 links dirOnly place step rest hstep hup ih =>
    rw [walk_up hstep hup, trailFrom_up hstep hup]
    exact ih h
  | case6 links dirOnly place step rest hstep hup hlong hnone hrest =>
    cases h
    -- the last step, whatever stands there now
    refine .inr ?_
    rw [walk_enter hstep hup hlong, trailFrom_enter hstep hup hlong, Node.look]
    cases hat : root'.at? (place ++ [step]) with
    | none => exact ⟨if_pos hrest, fun z hz => .inl (List.mem_singleton.mp hz)⟩
    | some n =>
      cases n with
      | dir es =>
        dsimp only [Option.map_some, Node.surface_dir]
        rw [if_pos hrest, if_pos hrest]
        exact ⟨rfl, fun z hz => .inl (List.mem_singleton.mp hz)⟩
      | file _ | link _ => cases hgoal _ hat
  | case9 links dirOnly place step rest hstep hup hlong es hdir hrest ih =>
    have hmet := Node.look_ne_none_of_at? hdir
    rcases hpart _ _ hdir rfl with hgone | hsame
    · -- more steps follow, and nothing is left that they could start from
      refine .inl ⟨⟨_, hmet, hgone⟩, fun q n => ?_⟩
      rw [walk_enter hstep hup hlong, Node.at?_of_look_none hgone]
      simp [hrest]
    · obtain ⟨es', hat⟩ := Node.at?_of_look_dir (hsame.trans (Node.look_of_at? hdir))
      rw [walk_onward hstep hup hlong hat hrest, trailFrom_onward hstep hup hlong hat hrest,
        List.forall_mem_cons]
      exact (ih h).imp_right fun honward => ⟨honward.1, .inr hmet, honward.2⟩
  | case15 dirOnly place step rest hstep hup hlong target hlink hrest links hempty start ih =>
    have hmet := Node.look_ne_none_of_at? hlink
    have hfollows : ¬ (rest.isEmpty && !dirOnly && !true) = true := by simp
    rcases hpart _ _ hlink rfl with hgone | hsame
    · -- without the link its place is free at best
      refine .inl ⟨⟨_, hmet, hgone⟩, fun q n => ?_⟩
      rw [walk_enter hstep hup hlong, Node.at?_of_look_none hgone]
      dsimp only
      split <;> simp
    · obtain ⟨m, hat, hsurface⟩ := at?_of_look (hsame.trans (Node.look_of_at? hlink))
      cases m with
      | link target' =>
        cases hsurface
        rw [walk_through hstep hup hlong hat hfollows hempty,
          trailFrom_through hstep hup hlong hat hfollows hempty, List.forall_mem_cons]
        exact (ih h).imp_right fun honward => ⟨honward.1, .inr hmet, honward.2⟩
      | dir _ | file _ => cases hsurface
  | _ => cases h

variable {d d' : Disk} {p : Path} {goal : Place}

/-- Disk `d'` is disk `d` after a directory may have been put at a free place, and after some of
what else was there may have been taken away. -/
structure Wanes (d d' : Disk) (goal : Place) : Prop where
  workingDir : d'.workingDir = d.workingDir
  look : ∀ q n, d.root.at? q = some n → n.isFile = false →
    d'.root.look q = none ∨ d'.root.look q = d.root.look q
  isDir : ∀ n, d'.root.at? goal = some n → n.isDir = true

/-- **A path to a free place** leads, once a directory may stand there and some of what it met may
be gone, to that place or, past what is gone, to nothing. -/
theorem resolve_onto (h : d.resolve false p = .ok (.free goal)) (hwanes : d.Wanes d' goal) :
    ((∃ z, d.root.look z ≠ none ∧ d'.root.look z = none) ∧
        ∀ q n, d'.find true p ≠ .ok (q, n)) ∨
      (d'.resolve true p = .ok (foundAt goal (d'.root.at? goal)) ∧
        ∀ z ∈ d'.trail true p, z = goal ∨ d.root.look z ≠ none) := by
  obtain ⟨hzero, hempty, hshort, hwalk⟩ := walk_of_resolve h
  have hresolve : d'.resolve true p = walk d'.root true maxLinks (endsInSeparator p.bytes)
      (if p.isAbsolute then [] else d.workingDir) (steps p.bytes) := by
    rw [resolve_eq_walk hzero hempty hshort, hwanes.workingDir]
  rw [trail, hwanes.workingDir, hresolve]
  refine (walk_onto hwalk hwanes.look hwanes.isDir).imp_left fun hlost => ⟨hlost.1, ?_⟩
  intro q n hfind
  rw [find_eq_ok, hresolve] at hfind
  exact hlost.2 q n hfind

/-- A directory is made at the end of a path that leads to a free place. -/
theorem makeDirs_of_free (h : d.resolve false p = .ok (.free goal)) :
    d.makeDirs p = (.ok (), d.put goal (.dir [])) := by
  have hempty : ¬ p.bytes.isEmpty = true := by simpa using (walk_of_resolve h).2.1
  rw [makeDirs, makeDirsFrom, if_neg hempty, makeDir, h]

/-- What renaming a directory onto a free place comes to. -/
theorem rename_dir_of_free {source target : Path} {origin : Place} {es : List (Bytes × Node)}
    (hfind : d.find false source = .ok (origin, .dir es))
    (hgoal : d.resolve false target = .ok (.free goal)) (hsource : namesEntry source = true)
    (htarget : namesEntry target = true) :
    d.rename source target =
      if d.device origin ≠ d.device goal then .error .otherDevice
      else if origin.isPrefixOf goal then .error .invalid
      else .ok ((d.erase origin).put goal (.dir es)) := by
  have hne : origin ≠ goal := by
    rintro rfl
    cases (at?_of_find hfind).symm.trans (at?_of_free hgoal)
  simp only [rename, hfind, hgoal, bind, Except.bind, hsource, htarget, Bool.not_true,
    Bool.or_self, Bool.false_eq_true, if_false, if_neg hne, Node.isDir, Bool.and_false]

/-- A directory that was renamed onto a free place was taken away where it stood and put there, and
that place is not within it. -/
theorem rename_onto {source target : Path} {origin : Place} {es : List (Bytes × Node)}
    (hfind : d.find false source = .ok (origin, .dir es))
    (hgoal : d.resolve false target = .ok (.free goal)) (h : d.rename source target = .ok d') :
    ¬ origin <+: goal ∧ d' = (d.erase origin).put goal (.dir es) := by
  obtain ⟨-, -, -, -, -, hsource, htarget⟩ := found_of_rename (.inl h)
  rw [rename_dir_of_free hfind hgoal hsource htarget] at h
  split at h
  · cases h
  · split at h
    · cases h
    · rename_i hwithin
      exact ⟨fun hle => hwithin (List.isPrefixOf_iff_prefix.mpr hle), (Except.ok.inj h).symm⟩

/-- Below a free place nothing stands. -/
theorem not_below_free {q : Place} (hfree : d.root.at? goal = none) (h : d.root.look q ≠ none) :
    ¬ goal <+: q := fun hbelow => h (Node.look_below_eq_none hfree hbelow)

/-- Whatever is put at a place where nothing stood, a directory is found where it was. -/
theorem find_dir_of_free {follow : Bool} {q : Place} {es : List (Bytes × Node)}
    (hfree : d.root.at? goal = none) (hspares : d.Spares d' [goal])
    (hfind : d.find follow p = .ok (q, .dir es)) : ∃ es', d'.find follow p = .ok (q, .dir es') := by
  refine hspares.find_dir (fun z hz => List.forall_mem_singleton.mpr ?_) hfind
  exact not_below_free hfree (look_ne_none_of_mem_trail hfind z hz)

/-- A path to a free place leads to the directory that is put there. -/
theorem reaches_of_free (h : d.resolve false p = .ok (.free goal)) : d.Reaches p goal := by
  intro d' es hspares hat
  have hfree := at?_of_free h
  have hsame : ∀ z, d.root.look z ≠ none → d'.root.look z = d.root.look z := fun z hz =>
    hspares.look z (List.forall_mem_singleton.mpr (not_below_free hfree hz))
  have hwanes : d.Wanes d' goal := by
    refine ⟨hspares.workingDir, fun q n hn _ => .inr (hsame q (Node.look_ne_none_of_at? hn)),
      fun n hn => ?_⟩
    cases hat.symm.trans hn
    rfl
  rcases resolve_onto h hwanes with ⟨⟨z, hz, hgone⟩, -⟩ | ⟨hresolve, -⟩
  · exact absurd (hsame z hz) (hgone ▸ hz.symm)
  · rw [hat] at hresolve
    exact find_eq_ok.mpr hresolve

theorem find_of_list {es : List (Bytes × Node)} (h : d.list p = .ok es) :
    ∃ place, d.find true p = .ok (place, .dir es) := by
  rw [list, node?] at h
  cases hfind : d.find true p with
  | error fault =>
    rw [hfind] at h
    cases h
  | ok found =>
    obtain ⟨place, n⟩ := found
    rw [hfind] at h
    cases n with
    | dir es' =>
      cases h
      exact ⟨place, rfl⟩
    | file _ | link _ => cases h

/-- **Whoever lists a directory** at the end of a path that led to a free place has come to that
place, and comes to it again. -/
theorem reaches_of_list (h : d.resolve false p = .ok (.free goal)) (hwanes : d.Wanes d' goal)
    {es : List (Bytes × Node)} (hlist : d'.list p = .ok es) :
    d'.root.at? goal = some (.dir es) ∧ d'.Reaches p goal := by
  obtain ⟨q, hfind⟩ := find_of_list hlist
  have hfree := at?_of_free h
  rcases resolve_onto h hwanes with ⟨-, hnothing⟩ | ⟨hresolve, htrail⟩
  · exact absurd hfind (hnothing q _)
  · rw [find_eq_ok.mp hfind, Except.ok.injEq] at hresolve
    obtain ⟨rfl, hat⟩ : q = goal ∧ d'.root.at? goal = some (.dir es) := by
      cases hat : d'.root.at? goal with
      | none =>
        rw [hat] at hresolve
        cases hresolve
      | some n =>
        rw [hat] at hresolve
        cases hresolve
        exact ⟨rfl, rfl⟩
    refine ⟨hat, fun d'' es hspares hat'' => ?_⟩
    -- what the path meets before its end was there while the place was free, so it is not within
    have hsame : ∀ z ∈ d'.trail true p, d''.root.look z = d'.root.look z := by
      intro z hz
      rcases htrail z hz with rfl | hthere
      · rw [Node.look_of_at? hat, Node.look_of_at? hat'']
        rfl
      · exact hspares.look z (List.forall_mem_singleton.mpr (not_below_free hfree hthere))
    obtain ⟨within, hfind''⟩ := find_dir_congr hspares.workingDir hsame hfind
    cases (at?_of_find hfind'').symm.trans hat''
    exact hfind''

end Disk

end Corpus
