/-
Corpus/Proofs/Walking.lean

Where paths lead, and how that depends on the disk.

The trail of a path is the list of places that following it looks at.  Two disks on which the
places of a trail have the same surfaces lead the path to the same place, so a change that
stays away from a trail is not noticed by whoever follows it.

A path that leads to a directory can be continued: the path of an entry leads to where the
entry is or would be.
-/
import Corpus.Disk.Basic
import Corpus.Proofs.Places

namespace Corpus

@[simp] theorem Node.surface_dir (es : List (Bytes × Node)) :
    (Node.dir es).surface = .dir [] := rfl

@[simp] theorem Node.surface_file (content : Bytes) :
    (Node.file content).surface = .file content := rfl

@[simp] theorem Node.surface_link (target : Bytes) :
    (Node.link target).surface = .link target := rfl

/-- What a path leads to, without what it holds. -/
def Found.surface : Found → Found
  | .node place n => .node place n.surface
  | .free place => .free place

namespace Node

theorem look_of_at? {n c : Node} {p : Place} (h : n.at? p = some c) :
    n.look p = some c.surface := by
  rw [look, h, Option.map_some]

theorem look_ne_none_of_at? {n c : Node} {p : Place} (h : n.at? p = some c) : n.look p ≠ none := by
  rw [look_of_at? h]
  exact Option.some_ne_none _

end Node

namespace Disk

/-! ### Trails -/

/-- Where following a link that stands in a directory begins. -/
def startOf (place : Place) (target : Bytes) : Place :=
  if target.head? == some Path.separator then [] else place

/-- The places that following steps looks at. -/
def trailFrom (root : Node) (follow : Bool) (links : Nat) (dirOnly : Bool) (place : Place) :
    List Bytes → List Place
  | [] => [place]
  | step :: rest =>
    if step == [46] then trailFrom root follow links dirOnly place rest
    else if step == [46, 46] then trailFrom root follow links dirOnly place.dropLast rest
    else if maxName < step.length then []
    else
      (place ++ [step]) ::
        match root.look (place ++ [step]) with
        | none | some (.file _) => []
        | some (.dir _) =>
          if rest.isEmpty then [] else trailFrom root follow links dirOnly (place ++ [step]) rest
        | some (.link target) =>
          if rest.isEmpty && !dirOnly && !follow then []
          else
            match links with
            | 0 => []
            | links + 1 =>
              if target.isEmpty then []
              else
                trailFrom root follow links (dirOnly || (rest.isEmpty && endsInSeparator target))
                  (startOf place target) (steps target ++ rest)
termination_by s => (links, s.length)

/-- The places that following a path looks at. -/
def trail (d : Disk) (follow : Bool) (p : Path) : List Place :=
  trailFrom d.root follow maxLinks (endsInSeparator p.bytes)
    (if p.isAbsolute then [] else d.workingDir) (steps p.bytes)

/-! ### One step -/

section Step

variable {root : Node} {follow : Bool} {links : Nat} {dirOnly : Bool} {place : Place}
  {step : Bytes} {rest : List Bytes}

theorem walk_here (hstep : (step == [46]) = true) :
    walk root follow links dirOnly place (step :: rest) =
      walk root follow links dirOnly place rest := by
  rw [walk, if_pos hstep]

theorem trailFrom_here (hstep : (step == [46]) = true) :
    trailFrom root follow links dirOnly place (step :: rest) =
      trailFrom root follow links dirOnly place rest := by
  rw [trailFrom, if_pos hstep]

variable (hstep : ¬ (step == [46]) = true)

include hstep

theorem walk_up (hup : (step == [46, 46]) = true) :
    walk root follow links dirOnly place (step :: rest) =
      walk root follow links dirOnly place.dropLast rest := by
  rw [walk, if_neg hstep, if_pos hup]

theorem trailFrom_up (hup : (step == [46, 46]) = true) :
    trailFrom root follow links dirOnly place (step :: rest) =
      trailFrom root follow links dirOnly place.dropLast rest := by
  rw [trailFrom, if_neg hstep, if_pos hup]

variable (hup : ¬ (step == [46, 46]) = true)

include hup

theorem walk_long (hlong : maxName < step.length) :
    walk root follow links dirOnly place (step :: rest) = .error .nameTooLong := by
  rw [walk, if_neg hstep, if_neg hup, if_pos hlong]

theorem trailFrom_long (hlong : maxName < step.length) :
    trailFrom root follow links dirOnly place (step :: rest) = [] := by
  rw [trailFrom, if_neg hstep, if_neg hup, if_pos hlong]

variable (hlong : ¬ maxName < step.length)

include hlong

theorem walk_enter : walk root follow links dirOnly place (step :: rest) =
    match root.at? (place ++ [step]) with
    | none => if rest.isEmpty then .ok (.free (place ++ [step])) else .error .absent
    | some (.dir es) =>
      if rest.isEmpty then .ok (.node (place ++ [step]) (.dir es))
      else walk root follow links dirOnly (place ++ [step]) rest
    | some (.file content) =>
      if rest.isEmpty && !dirOnly then .ok (.node (place ++ [step]) (.file content))
      else .error .notDirectory
    | some (.link target) =>
      if rest.isEmpty && !dirOnly && !follow then .ok (.node (place ++ [step]) (.link target))
      else
        match links with
        | 0 => .error .tooManyLinks
        | links + 1 =>
          if target.isEmpty then .error .absent
          else
            walk root follow links (dirOnly || (rest.isEmpty && endsInSeparator target))
              (startOf place target)
              (steps target ++ rest) := by
  rw [walk, if_neg hstep, if_neg hup, if_neg hlong]
  rfl

theorem trailFrom_enter : trailFrom root follow links dirOnly place (step :: rest) =
    (place ++ [step]) ::
      match root.look (place ++ [step]) with
      | none | some (.file _) => []
      | some (.dir _) =>
        if rest.isEmpty then [] else trailFrom root follow links dirOnly (place ++ [step]) rest
      | some (.link target) =>
        if rest.isEmpty && !dirOnly && !follow then []
        else
          match links with
          | 0 => []
          | links + 1 =>
            if target.isEmpty then []
            else
              trailFrom root follow links (dirOnly || (rest.isEmpty && endsInSeparator target))
                (startOf place target)
                (steps target ++ rest) := by
  rw [trailFrom, if_neg hstep, if_neg hup, if_neg hlong]

/-- From a directory the steps go on. -/
theorem walk_onward {es : List (Bytes × Node)} (hdir : root.at? (place ++ [step]) = some (.dir es))
    (hrest : ¬ rest.isEmpty = true) :
    walk root follow links dirOnly place (step :: rest) =
      walk root follow links dirOnly (place ++ [step]) rest := by
  rw [walk_enter hstep hup hlong, hdir]
  exact if_neg hrest

theorem trailFrom_onward {es : List (Bytes × Node)}
    (hdir : root.at? (place ++ [step]) = some (.dir es)) (hrest : ¬ rest.isEmpty = true) :
    trailFrom root follow links dirOnly place (step :: rest) =
      (place ++ [step]) :: trailFrom root follow links dirOnly (place ++ [step]) rest := by
  rw [trailFrom_enter hstep hup hlong, Node.look_of_at? hdir]
  exact congrArg _ (if_neg hrest)

/-- At a directory, the last step ends. -/
theorem trailFrom_last {es : List (Bytes × Node)}
    (hdir : root.at? (place ++ [step]) = some (.dir es)) (hrest : rest.isEmpty = true) :
    trailFrom root follow links dirOnly place (step :: rest) = [place ++ [step]] := by
  rw [trailFrom_enter hstep hup hlong, Node.look_of_at? hdir]
  exact congrArg _ (if_pos hrest)

/-- Through a link the steps go on from where it points. -/
theorem walk_through {target : Bytes} (hlink : root.at? (place ++ [step]) = some (.link target))
    (hfollows : ¬ (rest.isEmpty && !dirOnly && !follow) = true)
    (hempty : ¬ target.isEmpty = true) :
    walk root follow (links + 1) dirOnly place (step :: rest) =
      walk root follow links (dirOnly || (rest.isEmpty && endsInSeparator target))
        (startOf place target) (steps target ++ rest) := by
  rw [walk_enter hstep hup hlong, hlink]
  exact (if_neg hfollows).trans (if_neg hempty)

theorem trailFrom_through {target : Bytes}
    (hlink : root.at? (place ++ [step]) = some (.link target))
    (hfollows : ¬ (rest.isEmpty && !dirOnly && !follow) = true)
    (hempty : ¬ target.isEmpty = true) :
    trailFrom root follow (links + 1) dirOnly place (step :: rest) =
      (place ++ [step]) ::
        trailFrom root follow links (dirOnly || (rest.isEmpty && endsInSeparator target))
          (startOf place target) (steps target ++ rest) := by
  rw [trailFrom_enter hstep hup hlong, Node.look_of_at? hlink]
  exact congrArg _ ((if_neg hfollows).trans (if_neg hempty))

/-- Apart from what it holds, what steps lead to depends on the surfaces of the tree alone. -/
theorem walk_enter_surface :
    (walk root follow links dirOnly place (step :: rest)).map Found.surface =
      match root.look (place ++ [step]) with
      | none => if rest.isEmpty then .ok (.free (place ++ [step])) else .error .absent
      | some (.dir _) =>
        if rest.isEmpty then .ok (.node (place ++ [step]) (.dir []))
        else (walk root follow links dirOnly (place ++ [step]) rest).map Found.surface
      | some (.file content) =>
        if rest.isEmpty && !dirOnly then .ok (.node (place ++ [step]) (.file content))
        else .error .notDirectory
      | some (.link target) =>
        if rest.isEmpty && !dirOnly && !follow then .ok (.node (place ++ [step]) (.link target))
        else
          match links with
          | 0 => .error .tooManyLinks
          | links + 1 =>
            if target.isEmpty then .error .absent
            else
              (walk root follow links (dirOnly || (rest.isEmpty && endsInSeparator target))
                (startOf place target) (steps target ++ rest)).map Found.surface := by
  rw [walk_enter hstep hup hlong, Node.look]
  cases root.at? (place ++ [step]) with
  | none => dsimp only [Option.map]; split <;> rfl
  | some n =>
    cases n with
    | dir es => dsimp only [Option.map, Node.surface]; split <;> rfl
    | file content => dsimp only [Option.map, Node.surface]; split <;> rfl
    | link target =>
      dsimp only [Option.map, Node.surface]
      split
      · rfl
      · split
        · rfl
        · split <;> rfl

end Step

/-! ### Trails and walks -/

/-- Steps lead to the same place in trees that look alike along their trail. -/
theorem walk_congr {root root' : Node} (follow : Bool) (links : Nat) (dirOnly : Bool)
    (place : Place) (s : List Bytes)
    (h : ∀ q ∈ trailFrom root follow links dirOnly place s, root'.look q = root.look q) :
    (walk root' follow links dirOnly place s).map Found.surface =
        (walk root follow links dirOnly place s).map Found.surface ∧
      trailFrom root' follow links dirOnly place s =
        trailFrom root follow links dirOnly place s := by
  -- the trail stops where the walk does, so its recursion serves both
  fun_induction trailFrom root follow links dirOnly place s with
  | case1 links dirOnly place =>
    have hlook : root'.look place = root.look place := h place List.mem_cons_self
    rw [walk, walk, trailFrom]
    rw [Node.look, Node.look] at hlook
    refine ⟨?_, rfl⟩
    cases hthere : root.at? place with
    | none =>
      rw [hthere, Option.map_none, Option.map_eq_none_iff] at hlook
      rw [hlook]
    | some n =>
      rw [hthere] at hlook
      obtain ⟨c, hc, hsurface⟩ := Option.map_eq_some_iff.mp hlook
      simp only [hc, Except.map, Found.surface, hsurface]
  | case2 links dirOnly place step rest hstep ih =>
    rw [walk_here hstep, walk_here hstep, trailFrom_here hstep]
    exact ih h
  | case3 links dirOnly place step rest hstep hup ih =>
    rw [walk_up hstep hup, walk_up hstep hup, trailFrom_up hstep hup]
    exact ih h
  | case4 links dirOnly place step rest hstep hup hlong =>
    rw [walk_long hstep hup hlong, walk_long hstep hup hlong, trailFrom_long hstep hup hlong]
    exact ⟨rfl, rfl⟩
  | case5 links dirOnly place step rest hstep hup hlong hinto hlink =>
    have hlook := h _ List.mem_cons_self
    rw [walk_enter_surface hstep hup hlong, walk_enter_surface hstep hup hlong,
      trailFrom_enter hstep hup hlong, hlook]
    cases hthere : root.look (place ++ [step]) with
    | none => exact ⟨rfl, rfl⟩
    | some n =>
      rw [hthere] at h
      cases n with
      | file content => exact ⟨rfl, rfl⟩
      | dir es =>
        dsimp only at h ⊢
        by_cases hrest : rest.isEmpty = true
        · simp only [hrest, if_true, and_self]
        · rw [if_neg hrest] at h
          obtain ⟨hwalk, htrail⟩ := hinto fun q hq => h q (List.mem_cons_of_mem _ hq)
          rw [hwalk, htrail]
          exact ⟨rfl, rfl⟩
      | link target =>
        dsimp only at h ⊢
        by_cases hstays : (rest.isEmpty && !dirOnly && !follow) = true
        · simp only [hstays, if_true, and_self]
        · rw [if_neg hstays] at h
          cases links with
          | zero => exact ⟨rfl, rfl⟩
          | succ links =>
            dsimp only at h ⊢
            by_cases hempty : target.isEmpty = true
            · simp only [hempty, if_true, and_self]
            · rw [if_neg hempty] at h
              obtain ⟨hwalk, htrail⟩ := hlink target fun q hq => h q (List.mem_cons_of_mem _ hq)
              rw [hwalk, htrail]
              exact ⟨rfl, rfl⟩

/-- What steps lead to stands where they say. -/
theorem at?_of_walk {root : Node} {follow : Bool} {links : Nat} {dirOnly : Bool} {place q : Place}
    {s : List Bytes} {n : Node} (h : walk root follow links dirOnly place s = .ok (.node q n)) :
    root.at? q = some n := by
  -- the cases of a walk that arrives: no step is left, a step stays or goes up, a directory or a
  -- file or a link is the end, or it goes on from a directory or through a link
  fun_induction walk root follow links dirOnly place s with
  | case1 links dirOnly place m hm => cases h; exact hm
  | case3 _ _ _ _ _ _ ih => exact ih h
  | case4 _ _ _ _ _ _ _ ih => exact ih h
  | case8 _ _ _ _ _ _ _ _ _ hdir => cases h; exact hdir
  | case9 _ _ _ _ _ _ _ _ _ _ _ ih => exact ih h
  | case10 _ _ _ _ _ _ _ _ _ hfile => cases h; exact hfile
  | case12 _ _ _ _ _ _ _ _ _ hlink => cases h; exact hlink
  | case15 _ _ _ _ _ _ _ _ _ _ _ _ _ ih => exact ih h
  | _ => cases h

/-- What steps lead to is looked at. -/
theorem mem_trailFrom {root : Node} {follow : Bool} {links : Nat} {dirOnly : Bool}
    {place q : Place} {s : List Bytes} {n : Node}
    (h : walk root follow links dirOnly place s = .ok (.node q n)) :
    q ∈ trailFrom root follow links dirOnly place s := by
  fun_induction walk root follow links dirOnly place s with
  | case1 links dirOnly place m hm => cases h; simp [trailFrom]
  | case3 links dirOnly place step rest hstep ih =>
    rw [trailFrom_here hstep]
    exact ih h
  | case4 links dirOnly place step rest hstep hup ih =>
    rw [trailFrom_up hstep hup]
    exact ih h
  | case8 links dirOnly place step rest hstep hup hlong es hdir hrest
  | case10 links dirOnly place step rest hstep hup hlong content hfile hrest
  | case12 links dirOnly place step rest hstep hup hlong target hlink hrest =>
    cases h
    rw [trailFrom_enter hstep hup hlong]
    exact List.mem_cons_self
  | case9 links dirOnly place step rest hstep hup hlong es hdir hrest ih =>
    rw [trailFrom_onward hstep hup hlong hdir hrest]
    exact List.mem_cons_of_mem _ (ih h)
  | case15 dirOnly place step rest hstep hup hlong target hlink hrest links hempty start ih =>
    rw [trailFrom_through hstep hup hlong hlink hrest hempty]
    exact List.mem_cons_of_mem _ (ih h)
  | _ => cases h

/-- Steps that lead to a directory without following a link at their end lead there with
following it, too, and on the same trail. -/
theorem walk_follow {root : Node} {links : Nat} {dirOnly : Bool} {place q : Place}
    {s : List Bytes} {es : List (Bytes × Node)}
    (h : walk root false links dirOnly place s = .ok (.node q (.dir es))) :
    walk root true links dirOnly place s = .ok (.node q (.dir es)) ∧
      trailFrom root true links dirOnly place s = trailFrom root false links dirOnly place s := by
  fun_induction walk root false links dirOnly place s with
  | case1 links dirOnly place m hm =>
    cases h
    simp only [walk, trailFrom, hm, and_self]
  | case3 links dirOnly place step rest hstep ih =>
    rw [walk_here hstep, trailFrom_here hstep, trailFrom_here hstep]
    exact ih h
  | case4 links dirOnly place step rest hstep hup ih =>
    rw [walk_up hstep hup, trailFrom_up hstep hup, trailFrom_up hstep hup]
    exact ih h
  | case8 links dirOnly place step rest hstep hup hlong es' hdir hrest =>
    cases h
    rw [walk_enter hstep hup hlong, trailFrom_last hstep hup hlong hdir hrest,
      trailFrom_last hstep hup hlong hdir hrest, hdir]
    exact ⟨if_pos hrest, rfl⟩
  | case9 links dirOnly place step rest hstep hup hlong es' hdir hrest ih =>
    rw [walk_onward hstep hup hlong hdir hrest, trailFrom_onward hstep hup hlong hdir hrest,
      trailFrom_onward hstep hup hlong hdir hrest]
    exact (ih h).imp_right (congrArg _)
  | case15 dirOnly place step rest hstep hup hlong target hlink hrest links hempty start ih =>
    have hfollows : ¬ (rest.isEmpty && !dirOnly && !true) = true := by simp
    rw [walk_through hstep hup hlong hlink hfollows hempty,
      trailFrom_through hstep hup hlong hlink hfollows hempty,
      trailFrom_through hstep hup hlong hlink hrest hempty]
    exact (ih h).imp_right (congrArg _)
  | _ => cases h

/-- Steps that lead to something with following a link at their end lead to something without
following it, and if not to a file then to none. -/
theorem walk_unfollowed {root : Node} {links : Nat} {dirOnly : Bool} {place q : Place}
    {s : List Bytes} {n : Node} (h : walk root true links dirOnly place s = .ok (.node q n)) :
    ∃ q' n', walk root false links dirOnly place s = .ok (.node q' n') ∧
      (n.isFile = false → n'.isFile = false) := by
  fun_induction walk root true links dirOnly place s with
  | case1 links dirOnly place m hm =>
    cases h
    exact ⟨q, n, by rw [walk, hm], id⟩
  | case3 links dirOnly place step rest hstep ih =>
    rw [walk_here hstep]
    exact ih h
  | case4 links dirOnly place step rest hstep hup ih =>
    rw [walk_up hstep hup]
    exact ih h
  | case8 links dirOnly place step rest hstep hup hlong es hdir hrest =>
    exact ⟨_, _, by rw [walk_enter hstep hup hlong, hdir]; simp only [hrest]; rfl, fun _ => rfl⟩
  | case9 links dirOnly place step rest hstep hup hlong es hdir hrest ih =>
    rw [walk_onward hstep hup hlong hdir hrest]
    exact ih h
  | case10 links dirOnly place step rest hstep hup hlong content hfile hrest =>
    cases h
    exact ⟨_, _, by rw [walk_enter hstep hup hlong, hfile]; simp only [hrest]; rfl, id⟩
  | case15 dirOnly place step rest hstep hup hlong target hlink hrest links hempty start ih =>
    by_cases hend : (rest.isEmpty && !dirOnly && !false) = true
    · rw [walk_enter hstep hup hlong, hlink]
      exact ⟨_, _, if_pos hend, fun _ => rfl⟩
    · rw [walk_through hstep hup hlong hlink hend hempty]
      exact ih h
  -- a link at the end is followed here, so it is not what is found
  | case12 _ _ _ _ _ _ _ _ _ _ hend => simp at hend
  | _ => cases h

/-- Steps that lead to a directory can be continued from there. -/
theorem walk_append {root : Node} {links : Nat} {dirOnly : Bool} {place q : Place}
    {s : List Bytes} {es : List (Bytes × Node)}
    (h : walk root true links dirOnly place s = .ok (.node q (.dir es))) :
    ∃ left, ∀ follow dirOnly step more,
      walk root follow links dirOnly place (s ++ step :: more) =
        walk root follow left dirOnly q (step :: more) := by
  fun_induction walk root true links dirOnly place s with
  | case1 links dirOnly place m hm => cases h; exact ⟨links, fun _ _ _ _ => rfl⟩
  | case3 links dirOnly place first rest hfirst ih =>
    obtain ⟨left, hleft⟩ := ih h
    refine ⟨left, fun follow dirOnly step more => ?_⟩
    rw [List.cons_append, walk_here hfirst]
    exact hleft follow dirOnly step more
  | case4 links dirOnly place first rest hfirst hup ih =>
    obtain ⟨left, hleft⟩ := ih h
    refine ⟨left, fun follow dirOnly step more => ?_⟩
    rw [List.cons_append, walk_up hfirst hup]
    exact hleft follow dirOnly step more
  | case8 links dirOnly place first rest hfirst hup hlong es' hdir hrest =>
    cases h
    refine ⟨links, fun follow dirOnly step more => ?_⟩
    rw [List.isEmpty_iff.mp hrest, List.cons_append, walk_enter hfirst hup hlong, hdir]
    simp
  | case9 links dirOnly place first rest hfirst hup hlong es' hdir hrest ih =>
    obtain ⟨left, hleft⟩ := ih h
    refine ⟨left, fun follow dirOnly step more => ?_⟩
    rw [List.cons_append, walk_onward hfirst hup hlong hdir (by simp)]
    exact hleft follow dirOnly step more
  | case15 dirOnly place first rest hfirst hup hlong target hlink hrest links hempty start ih =>
    obtain ⟨left, hleft⟩ := ih h
    refine ⟨left, fun follow dirOnly step more => ?_⟩
    -- more steps follow the link, so it is not at their end
    have hmore : (rest ++ step :: more).isEmpty = false := by simp
    rw [List.cons_append, walk_through hfirst hup hlong hlink (by simp) hempty, hmore,
      Bool.false_and, Bool.or_false, ← List.append_assoc]
    exact hleft follow dirOnly step more
  | _ => cases h

/-! ### Paths -/

variable {d d' : Disk} {p : Path} {follow : Bool}

/-- A path leads to the same place on disks that look alike along its trail. -/
theorem resolve_congr (hworking : d'.workingDir = d.workingDir)
    (h : ∀ q ∈ d.trail follow p, d'.root.look q = d.root.look q) :
    (d'.resolve follow p).map Found.surface = (d.resolve follow p).map Found.surface ∧
      d'.trail follow p = d.trail follow p := by
  obtain ⟨hwalk, htrail⟩ := walk_congr follow maxLinks (endsInSeparator p.bytes)
    (if p.isAbsolute then [] else d.workingDir) (steps p.bytes) h
  refine ⟨?_, ?_⟩
  · rw [resolve, resolve, hworking]
    split
    · rfl
    · split
      · rfl
      · split
        · rfl
        · exact hwalk
  · rw [trail, trail, hworking]
    exact htrail

theorem find_eq_ok {q : Place} {n : Node} :
    d.find follow p = .ok (q, n) ↔ d.resolve follow p = .ok (.node q n) := by
  rw [find]
  cases d.resolve follow p with
  | error fault => simp
  | ok found => cases found <;> simp

/-- A path that leads to a directory still does on a disk that looks alike along its trail. -/
theorem find_dir_congr (hworking : d'.workingDir = d.workingDir)
    (h : ∀ q ∈ d.trail follow p, d'.root.look q = d.root.look q) {q : Place}
    {es : List (Bytes × Node)} (hfind : d.find follow p = .ok (q, .dir es)) :
    ∃ es', d'.find follow p = .ok (q, .dir es') := by
  obtain ⟨hresolve, -⟩ := resolve_congr hworking h
  rw [find_eq_ok.mp hfind] at hresolve
  cases hfound : d'.resolve follow p with
  | error fault => rw [hfound] at hresolve; cases hresolve
  | ok found =>
    rw [hfound] at hresolve
    cases found with
    | free place => cases hresolve
    | node place n =>
      cases n with
      | dir es' =>
        cases hresolve
        exact ⟨es', find_eq_ok.mpr hfound⟩
      | file content => cases hresolve
      | link target => cases hresolve

theorem walk_of_resolve {found : Found} (h : d.resolve follow p = .ok found) :
    p.bytes.contains 0 = false ∧ p.bytes ≠ [] ∧ p.bytes.length < 4096 ∧
      walk d.root follow maxLinks (endsInSeparator p.bytes)
        (if p.isAbsolute then [] else d.workingDir) (steps p.bytes) = .ok found := by
  rw [resolve] at h
  split at h
  · cases h
  · rename_i hzero
    split at h
    · cases h
    · rename_i hempty
      split at h
      · cases h
      · rename_i hlong
        exact ⟨by simpa using hzero, by simpa using hempty, by omega, h⟩

/-- Of a path that can be followed the steps decide. -/
theorem resolve_eq_walk (hzero : p.bytes.contains 0 = false) (hempty : p.bytes ≠ [])
    (hshort : p.bytes.length < 4096) :
    d.resolve follow p = walk d.root follow maxLinks (endsInSeparator p.bytes)
      (if p.isAbsolute then [] else d.workingDir) (steps p.bytes) := by
  rw [resolve, if_neg (by simpa using hzero), if_neg (by simpa using hempty),
    if_neg (by omega)]

theorem at?_of_find {q : Place} {n : Node} (h : d.find follow p = .ok (q, n)) :
    d.root.at? q = some n :=
  at?_of_walk (walk_of_resolve (find_eq_ok.mp h)).2.2.2

theorem mem_trail_of_find {q : Place} {n : Node} (h : d.find follow p = .ok (q, n)) :
    q ∈ d.trail follow p :=
  mem_trailFrom (walk_of_resolve (find_eq_ok.mp h)).2.2.2

/-- A path that leads to a directory, and is no link to one, leads there also for those who
follow links. -/
theorem find_follow {q : Place} {es : List (Bytes × Node)}
    (h : d.find false p = .ok (q, .dir es)) :
    d.find true p = .ok (q, .dir es) ∧ d.trail true p = d.trail false p := by
  obtain ⟨hzero, hempty, hshort, hwalk⟩ := walk_of_resolve (find_eq_ok.mp h)
  obtain ⟨hfollow, htrail⟩ := walk_follow hwalk
  exact ⟨find_eq_ok.mpr ((resolve_eq_walk hzero hempty hshort).trans hfollow), htrail⟩

/-! ### Entries -/

/-- The bytes can be the name of an entry. -/
structure IsName (name : Bytes) : Prop where
  nonempty : name ≠ []
  whole : Path.separator ∉ name
  notHere : name ≠ [46]
  notUp : name ≠ [46, 46]

/-- How the path of an entry is written. -/
theorem bytes_child {name : Bytes} (hp : p.bytes ≠ []) (hname : IsName name) :
    (∃ front, p.bytes = front ++ [Path.separator] ∧
      (p.child name).bytes = front ++ Path.separator :: name) ∨
    (p.child name).bytes = p.bytes ++ Path.separator :: name := by
  have hhead : (name.head? == some Path.separator) = false := by
    cases name with
    | nil => rfl
    | cons first rest =>
      have : first ≠ Path.separator := fun h => hname.whole (h ▸ List.mem_cons_self)
      simpa using this
  have hempty : p.bytes.isEmpty = false := by simpa using hp
  rw [Path.child, Path.join, joinWritten, hhead, if_neg Bool.false_ne_true, hempty,
    Bool.false_or]
  cases hlast : p.bytes.getLast? == some Path.separator with
  | false => exact .inr rfl
  | true =>
    obtain ⟨front, hfront⟩ := List.getLast?_eq_some_iff.mp (eq_of_beq hlast)
    refine .inl ⟨front, hfront, ?_⟩
    rw [if_pos rfl, hfront, List.append_assoc, List.singleton_append]

theorem steps_name {name : Bytes} (hname : IsName name) : steps name = [name] := by
  rw [steps, List.splitOn_eq_singleton hname.whole]
  simpa using hname.nonempty

/-- An entry is one more step. -/
theorem steps_child {name : Bytes} (hp : p.bytes ≠ []) (hname : IsName name) :
    steps (p.child name).bytes = steps p.bytes ++ [name] := by
  have hsplit : ∀ front : Bytes,
      steps (front ++ Path.separator :: name) = steps front ++ [name] := by
    intro front
    rw [← steps_name hname, steps, List.splitOn_append_cons_self, List.filter_append]
    rfl
  rcases bytes_child hp hname with ⟨front, hfront, hbytes⟩ | hbytes
  · have hdropped : steps (front ++ [Path.separator]) = steps front := by
      rw [steps, List.splitOn_append_cons_self, List.filter_append]
      simp [steps]
    rw [hbytes, hsplit, hfront, hdropped]
  · rw [hbytes, hsplit]

theorem isAbsolute_child {name : Bytes} (hp : p.bytes ≠ []) (hname : IsName name) :
    (p.child name).isAbsolute = p.isAbsolute := by
  rw [Path.isAbsolute, Path.isAbsolute]
  rcases bytes_child hp hname with ⟨front, hfront, hbytes⟩ | hbytes
  · rw [hbytes, hfront]
    cases front <;> rfl
  · rw [hbytes]
    cases hpb : p.bytes with
    | nil => exact absurd hpb hp
    | cons first rest => rfl

theorem endsInSeparator_child {name : Bytes} (hp : p.bytes ≠ []) (hname : IsName name) :
    endsInSeparator (p.child name).bytes = false := by
  have hlast : ∀ front : Bytes, (front ++ Path.separator :: name).getLast? = name.getLast? := by
    intro front
    rw [List.getLast?_append, List.getLast?_cons]
    cases hn : name.getLast? with
    | none => exact absurd (List.getLast?_eq_none_iff.mp hn) hname.nonempty
    | some last => rfl
  have hname' : name.getLast? ≠ some Path.separator := fun h =>
    hname.whole (List.mem_of_getLast? h)
  rw [endsInSeparator]
  rcases bytes_child hp hname with ⟨front, -, hbytes⟩ | hbytes <;>
  · rw [hbytes, hlast]
    simpa using hname'

theorem child_ne_nil {name : Bytes} (hp : p.bytes ≠ []) (hname : IsName name) :
    (p.child name).bytes ≠ [] := by
  rcases bytes_child hp hname with ⟨front, -, hbytes⟩ | hbytes <;>
  · rw [hbytes]
    simp

theorem namesEntry_child {name : Bytes} (hp : p.bytes ≠ []) (hname : IsName name) :
    namesEntry (p.child name) = true := by
  rw [namesEntry, steps_child hp hname, List.getLast?_concat]
  have := hname.notHere
  have := hname.notUp
  simp [*]

/-- The path leads to a directory at a place, from where it can be continued. -/
structure Opens (d : Disk) (p : Path) (place : Place) : Prop where
  nonempty : p.bytes ≠ []
  onward : ∃ left, ∀ follow dirOnly step more,
    walk d.root follow maxLinks dirOnly (if p.isAbsolute then [] else d.workingDir)
      (steps p.bytes ++ step :: more) = walk d.root follow left dirOnly place (step :: more)

theorem opens_of_find {q : Place} {es : List (Bytes × Node)}
    (h : d.find true p = .ok (q, .dir es)) : d.Opens p q := by
  obtain ⟨-, hempty, -, hwalk⟩ := walk_of_resolve (find_eq_ok.mp h)
  obtain ⟨left, hleft⟩ := walk_append hwalk
  exact ⟨hempty, left, hleft⟩

/-- What is wrong with the path of an entry, whatever the disk. -/
def pathFault? (p : Path) (name : Bytes) : Option Fault :=
  if p.bytes.contains 0 then some .zeroByte
  else if 4096 ≤ p.bytes.length then some .nameTooLong
  else if maxName < name.length then some .nameTooLong
  else none

theorem pathFault?_eq_none_iff {name : Bytes} : pathFault? p name = none ↔
    p.bytes.contains 0 = false ∧ p.bytes.length < 4096 ∧ name.length ≤ maxName := by
  constructor
  · intro h
    rw [pathFault?] at h
    split at h
    · cases h
    · split at h
      · cases h
      · split at h
        · cases h
        · rename_i hzero hlong hname
          exact ⟨by simpa using hzero, by omega, by omega⟩
  · rintro ⟨hzero, hlong, hname⟩
    rw [pathFault?, hzero, if_neg Bool.false_ne_true, if_neg (by omega), if_neg (by omega)]

/-- What is wrong with a path is never that something is missing. -/
theorem pathFault?_ne_absent (p : Path) (name : Bytes) : pathFault? p name ≠ some .absent := by
  rw [pathFault?]
  split
  · simp
  · split
    · simp
    · split <;> simp

/-- What a path leads to if that is a given node, or nothing, at a place. -/
def foundAt (place : Place) : Option Node → Found
  | some n => .node place n
  | none => .free place

/-- The path of an entry leads to where the entry is or would be, unless that is a link to be
followed. -/
theorem resolve_child {q : Place} {name : Bytes} (hopen : d.Opens p q) (hname : IsName name)
    (hlink : follow = true → ∀ target, d.root.at? (q ++ [name]) ≠ some (.link target)) :
    d.resolve follow (p.child name) =
      match pathFault? (p.child name) name with
      | some fault => .error fault
      | none => .ok (foundAt (q ++ [name]) (d.root.at? (q ++ [name]))) := by
  obtain ⟨left, hleft⟩ := hopen.onward
  have hhere : ¬ (name == [46]) = true := by simpa using hname.notHere
  have hup : ¬ (name == [46, 46]) = true := by simpa using hname.notUp
  have hempty : (p.child name).bytes.isEmpty = false := by
    simpa using child_ne_nil hopen.nonempty hname
  rw [resolve, pathFault?, hempty, endsInSeparator_child hopen.nonempty hname,
    isAbsolute_child hopen.nonempty hname, steps_child hopen.nonempty hname, hleft]
  cases (p.child name).bytes.contains 0 with
  | true => rfl
  | false =>
    simp only [Bool.false_eq_true, if_false]
    by_cases hlength : 4096 ≤ (p.child name).bytes.length
    · rw [if_pos hlength, if_pos hlength]
    · rw [if_neg hlength, if_neg hlength]
      by_cases hlong : maxName < name.length
      · rw [if_pos hlong, walk_long hhere hup hlong]
      · rw [if_neg hlong, walk_enter hhere hup hlong]
        cases hat : d.root.at? (q ++ [name]) with
        | none => rfl
        | some n =>
          cases n with
          | dir es => rfl
          | file content => rfl
          | link target =>
            cases follow with
            | false => rfl
            | true => exact absurd hat (hlink rfl target)

/-- An entry that is a directory can be opened in its turn. -/
theorem Opens.child {q : Place} {name : Bytes} (hopen : d.Opens p q) (hname : IsName name)
    (hlong : name.length ≤ maxName) {es : List (Bytes × Node)}
    (hdir : d.root.at? (q ++ [name]) = some (.dir es)) : d.Opens (p.child name) (q ++ [name]) := by
  obtain ⟨left, hleft⟩ := hopen.onward
  refine ⟨child_ne_nil hopen.nonempty hname, left, fun follow dirOnly step more => ?_⟩
  have hhere : ¬ (name == [46]) = true := by simpa using hname.notHere
  have hup : ¬ (name == [46, 46]) = true := by simpa using hname.notUp
  rw [isAbsolute_child hopen.nonempty hname, steps_child hopen.nonempty hname, List.append_assoc,
    List.singleton_append, hleft, walk_enter hhere hup (by omega), hdir]
  rfl

/-- What is written at the path of an entry that is no link is a file in its place. -/
theorem write_child {q : Place} {name content : Bytes} (hopen : d.Opens p q)
    (hname : IsName name) (hlink : ∀ target, d.root.at? (q ++ [name]) ≠ some (.link target))
    (h : d.write (p.child name) content = .ok d') :
    pathFault? (p.child name) name = none ∧ (∀ es, d.root.at? (q ++ [name]) ≠ some (.dir es)) ∧
      d' = d.put (q ++ [name]) (.file content) := by
  rw [write, resolve_child hopen hname fun _ => hlink,
    endsInSeparator_child hopen.nonempty hname] at h
  cases hfault : pathFault? (p.child name) name with
  | some fault => rw [hfault] at h; cases h
  | none =>
    rw [hfault] at h
    cases hat : d.root.at? (q ++ [name]) with
    | none =>
      rw [hat] at h
      exact ⟨rfl, by simp, (Except.ok.inj h).symm⟩
    | some n =>
      rw [hat] at h
      cases n with
      | file _ => exact ⟨rfl, by simp, (Except.ok.inj h).symm⟩
      | dir _ => cases h
      | link target => exact absurd hat (hlink target)

/-! ### Changes that stay within places -/

/-- Disk `d'` is disk `d` after changes at some places or below them. -/
structure Spares (d d' : Disk) (zones : List Place) : Prop where
  workingDir : d'.workingDir = d.workingDir
  mounts : d'.mounts = d.mounts
  look : ∀ q, (∀ z ∈ zones, ¬ z <+: q) → d'.root.look q = d.root.look q
  at? : ∀ q, (∀ z ∈ zones, z.Apart q) → d'.root.at? q = d.root.at? q

namespace Spares

variable {d'' : Disk} {zones : List Place}

theorem refl (d : Disk) (zones : List Place) : d.Spares d zones :=
  ⟨rfl, rfl, fun _ _ => rfl, fun _ _ => rfl⟩

theorem trans (h : d.Spares d' zones) (h' : d'.Spares d'' zones) : d.Spares d'' zones :=
  ⟨h'.workingDir.trans h.workingDir, h'.mounts.trans h.mounts,
    fun q hq => (h'.look q hq).trans (h.look q hq), fun q hq => (h'.at? q hq).trans (h.at? q hq)⟩

/-- Changes below places are changes below those above them. -/
theorem widen (h : d.Spares d' zones) {wider : List Place}
    (hwider : ∀ z ∈ zones, ∃ z' ∈ wider, z' <+: z) : d.Spares d' wider := by
  refine ⟨h.workingDir, h.mounts, fun q hq => h.look q fun z hz hzq => ?_,
    fun q hq => h.at? q fun z hz => ⟨fun hzq => ?_, fun hqz => ?_⟩⟩
  · obtain ⟨z', hz', habove⟩ := hwider z hz
    exact hq z' hz' (habove.trans hzq)
  · obtain ⟨z', hz', habove⟩ := hwider z hz
    exact (hq z' hz').1 (habove.trans hzq)
  · obtain ⟨z', hz', habove⟩ := hwider z hz
    -- both are above the changed place, so one of them is above the other
    rcases List.prefix_or_prefix_of_prefix habove hqz with hzq | hqz'
    · exact (hq z' hz').1 hzq
    · exact (hq z' hz').2 hqz'

/-- Changes at one of some places are changes at these. -/
theorem among {z : Place} (h : d.Spares d' [z]) (hz : z ∈ zones) : d.Spares d' zones := by
  refine h.widen fun z' hz' => ⟨z, hz, ?_⟩
  obtain rfl : z' = z := List.mem_singleton.mp hz'
  exact List.prefix_refl z'

theorem put (d : Disk) (place : Place) (n : Node) : d.Spares (d.put place n) [place] :=
  ⟨rfl, rfl, fun _ hq => d.root.look_amend (hq place List.mem_cons_self) (some n),
    fun _ hq => d.root.at?_amend (hq place List.mem_cons_self) (some n)⟩

theorem erase (d : Disk) (place : Place) : d.Spares (d.erase place) [place] :=
  ⟨rfl, rfl, fun _ hq => d.root.look_amend (hq place List.mem_cons_self) none,
    fun _ hq => d.root.at?_amend (hq place List.mem_cons_self) none⟩

theorem device (h : d.Spares d' zones) (place : Place) : d'.device place = d.device place := by
  rw [Disk.device, Disk.device, h.mounts]

/-- A path whose trail stays away from the changes leads to the same directory. -/
theorem find_dir (h : d.Spares d' zones)
    (haway : ∀ q ∈ d.trail follow p, ∀ z ∈ zones, ¬ z <+: q) {q : Place}
    {es : List (Bytes × Node)} (hfind : d.find follow p = .ok (q, .dir es)) :
    ∃ es', d'.find follow p = .ok (q, .dir es') :=
  find_dir_congr h.workingDir (fun q hq => h.look q (haway q hq)) hfind

theorem trail (h : d.Spares d' zones)
    (haway : ∀ q ∈ d.trail follow p, ∀ z ∈ zones, ¬ z <+: q) :
    d'.trail follow p = d.trail follow p :=
  (resolve_congr h.workingDir fun q hq => h.look q (haway q hq)).2

end Spares

end Disk

end Corpus
