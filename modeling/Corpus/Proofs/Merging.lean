/-
Corpus/Proofs/Merging.lean

How many of the staged files are left once they were adopted.

Adoption moves the staged directory as it is, whatever stood in its place and wherever the paths
lead on their way, and then renames its files one by one.  A file that is renamed onto a name that
another one has takes its place, so in the end

    files in the place of the document  =  different settled names of the staged files

and no file is lost if and only if no two of them settle on one name
(`Thumbnails.adoption_merges`).  Which order the files are listed in has no part in that.
-/
import Corpus.Proofs.Readopting
import Corpus.Proofs.Spelling

namespace Corpus

namespace Node

theorem linkless_of_files {es : List (Bytes × Node)} (hfiles : ∀ e ∈ es, e.2.isFile = true) :
    (Node.dir es).Linkless := by
  refine .dir fun e he => ?_
  have hfile := hfiles e he
  cases hn : e.2 with
  | file content => exact .file content
  | dir _ | link _ =>
    rw [hn] at hfile
    cases hfile

/-- What stands within a directory of files is a file. -/
theorem isFile_of_at? {es : List (Bytes × Node)} (hfiles : ∀ e ∈ es, e.2.isFile = true)
    {place : Place} (hplace : place ≠ []) {n : Node} (h : (Node.dir es).at? place = some n) :
    n.isFile = true := by
  obtain ⟨name, rest, rfl⟩ := List.exists_cons_of_ne_nil hplace
  rw [at?_dir_cons, Option.bind_eq_some_iff] at h
  obtain ⟨c, hc, hat⟩ := h
  have hc : c.isFile = true := hfiles _ (mem_of_lookup hc)
  cases c with
  | file content =>
    cases rest with
    | nil =>
      cases hat
      rfl
    | cons _ _ => cases hat
  | dir _ | link _ => cases hc

/-- What stands somewhere below the top is held by a directory. -/
theorem holds_of_at? {n c : Node} {p : Place} (hp : p ≠ []) (h : n.at? p = some c) : n.Holds p := by
  obtain ⟨above, name, rfl⟩ := (List.eq_nil_or_concat' p).resolve_left hp
  obtain ⟨es, hes⟩ := exists_dir_of_below (List.cons_ne_nil name []) h
  exact ⟨above, name, es, rfl, hes⟩

/-- Where a file stands, or nothing does, there is nothing but files from there on. -/
theorem isFile_of_look {n : Node} {p : Place} (h : ∀ m, n.at? p = some m → m.isFile = true)
    {q : Place} (hq : p <+: q) {m : Node} (hm : n.look q = some m) : m.isFile = true := by
  obtain ⟨rest, rfl⟩ := hq
  obtain ⟨c, hc, rfl⟩ := Option.map_eq_some_iff.mp hm
  rw [at?_append, Option.bind_eq_some_iff] at hc
  obtain ⟨top, htop, hat⟩ := hc
  have hfile := h top htop
  cases top with
  | file content =>
    cases rest with
    | nil =>
      cases hat
      rfl
    | cons _ _ => cases hat
  | dir _ | link _ => cases hfile

end Node

namespace Disk

variable {d d' : Disk}

/-! ### Files that are written -/

/-- Disk `d'` is disk `d` with other files: what is no file is as it was. -/
structure Refiled (d d' : Disk) : Prop where
  workingDir : d'.workingDir = d.workingDir
  look : ∀ q, d'.root.look q = d.root.look q ∨
    (∀ n, d.root.look q = some n → n.isFile = true) ∧
      (∀ n, d'.root.look q = some n → n.isFile = true)

namespace Refiled

theorem refl (d : Disk) : d.Refiled d := ⟨rfl, fun _ => .inl rfl⟩

theorem trans {d'' : Disk} (h : d.Refiled d') (h' : d'.Refiled d'') : d.Refiled d'' := by
  refine ⟨h'.workingDir.trans h.workingDir, fun q => ?_⟩
  rcases h.look q with hsame | ⟨hold, hnew⟩
  · rw [← hsame]
    exact h'.look q
  · rcases h'.look q with hsame' | ⟨-, hnew'⟩
    · rw [hsame']
      exact .inr ⟨hold, hnew⟩
    · exact .inr ⟨hold, hnew'⟩

/-- What is no file looks as it did. -/
theorem look_of_look (h : d.Refiled d') {q : Place} {n : Node} (hlook : d.root.look q = some n)
    (hn : n.isFile = false) : d'.root.look q = d.root.look q := by
  refine (h.look q).resolve_right fun hfiles => ?_
  rw [hfiles.1 n hlook] at hn
  cases hn

/-- A file that is put where a file stands, or nothing does. -/
theorem put {q : Place} (h : ∀ n, d.root.at? q = some n → n.isFile = true) (content : Bytes) :
    d.Refiled (d.put q (.file content)) := by
  refine ⟨rfl, fun z => ?_⟩
  by_cases hbelow : q <+: z
  · refine .inr ⟨fun n => Node.isFile_of_look h hbelow, fun n => Node.isFile_of_look ?_ hbelow⟩
    intro m hm
    have hput : (d.root.put q (.file content)).at? q = some (.file content) ∨
        (d.root.put q (.file content)).at? q = none := by
      cases hat : d.root.at? q with
      | none => exact (Node.at?_put_of_none hat _).imp And.right And.right
      | some old =>
        by_cases hq : q = []
        · subst hq
          exact .inl rfl
        · exact .inl (Node.at?_put_self (Node.holds_of_at? hq hat) _)
    rcases hput with hfile | hnone
    · cases hfile.symm.trans hm
      rfl
    · cases hnone.symm.trans hm
  · exact .inl (d.root.look_amend hbelow (some (.file content)))

theorem write {p : Path} {content : Bytes} (h : d.write p content = .ok d') : d.Refiled d' := by
  rw [Disk.write] at h
  split at h
  · rename_i place old hresolve
    cases h
    refine put (fun n hn => ?_) content
    cases (at?_of_find (find_eq_ok.mpr hresolve)).symm.trans hn
    rfl
  · cases h
  · rename_i place hresolve
    split at h
    · cases h
    · cases h
      refine put (fun n hn => ?_) content
      cases (at?_of_free hresolve).symm.trans hn
  · cases h

/-- Copying files leaves all that is no file. -/
theorem copyNodes {source target : Path} {nodes : List (Place × Node)}
    (hfiles : ∀ node ∈ nodes, node.2.isFile = true) :
    ∀ {d : Disk}, Thumbnails.copyNodes source target nodes d = (.ok (), d') → d.Refiled d' := by
  induction nodes with
  | nil =>
    intro d h
    cases h
    exact refl _
  | cons node rest ih =>
    intro d h
    obtain ⟨steps, n⟩ := node
    obtain ⟨hn, hrest⟩ := List.forall_mem_cons.mp hfiles
    have hleaf : n.isDir = false := by
      cases n with
      | file _ => rfl
      | dir _ | link _ => cases hn
    rcases copyNodes_leaf d source target hleaf steps rest with
      ⟨content, -, hnext⟩ | ⟨fault, fault', -, hstopped⟩
    · rw [hnext] at h
      split at h
      · rename_i between hwrite
        exact (write hwrite).trans (ih hrest h)
      · cases h
    · cases h.symm.trans hstopped

/-- The directory that files were copied into is a directory still, and one holds its place. -/
theorem isDir_of_put {goal : Place} (h : (d.put goal (.dir [])).Refiled d')
    (hfree : d.root.at? goal = none) {n : Node} (hn : d'.root.at? goal = some n) :
    n.isDir = true ∧ d.root.Holds goal := by
  rcases Node.at?_put_of_none hfree (.dir []) with ⟨hholds, hat⟩ | ⟨hnot, hnone⟩
  · have hlook := h.look_of_look (Node.look_of_at? hat) rfl
    rw [Node.look_of_at? hn, Disk.put, Node.look_of_at? hat, Option.some.injEq] at hlook
    cases n with
    | dir _ => exact ⟨rfl, hholds⟩
    | file _ | link _ => cases hlook
  · -- a directory around the place would have been there before
    exfalso
    have hgoal : goal ≠ [] := by
      rintro rfl
      cases hfree
    obtain ⟨above, name, rfl⟩ := (List.eq_nil_or_concat' goal).resolve_left hgoal
    obtain ⟨es, hes⟩ := Node.exists_dir_of_below (List.cons_ne_nil name []) hn
    have hlook : (d.put (above ++ [name]) (.dir [])).root.look above = d.root.look above :=
      d.root.look_amend (fun hle => by simpa using hle.length_le) (some (.dir []))
    rcases h.look above with hsame | ⟨-, hfile⟩
    · rw [Node.look_of_at? hes, hlook] at hsame
      obtain ⟨es', hat⟩ := Node.at?_of_look_dir hsame.symm
      exact hnot ⟨above, name, es', rfl, hat⟩
    · cases hfile _ (Node.look_of_at? hes)

/-- What was there and is no file is there when files were copied to a free place. -/
theorem look_of_put {goal : Place} (h : (d.put goal (.dir [])).Refiled d')
    (hfree : d.root.at? goal = none) {q : Place} {n : Node} (hat : d.root.at? q = some n)
    (hn : n.isFile = false) : d'.root.look q = d.root.look q := by
  have hput : (d.put goal (.dir [])).root.look q = d.root.look q :=
    d.root.look_amend (not_below_free hfree (Node.look_ne_none_of_at? hat)) (some (.dir []))
  refine (h.look_of_look (hput.trans (Node.look_of_at? hat)) ?_).trans hput
  cases n with
  | file _ => cases hn
  | dir _ | link _ => rfl

end Refiled

/-! ### Directories of files -/

variable {p : Path} {origin : Place} {es : List (Bytes × Node)}

/-- Steps that name an entry look at one. -/
theorem exists_mem_trailFrom {root : Node} {follow : Bool} {links : Nat} {dirOnly : Bool}
    {found : Found} {s : List Bytes} (hnamed : ∃ step ∈ s, step ≠ [46] ∧ step ≠ [46, 46]) :
    ∀ {place : Place}, walk root follow links dirOnly place s = .ok found →
      ∃ z ∈ trailFrom root follow links dirOnly place s, z ≠ [] := by
  induction s with
  | nil =>
    obtain ⟨step, hstep, -⟩ := hnamed
    cases hstep
  | cons step rest ih =>
    intro place h
    -- a step that stays or goes up is not the one that names the entry
    have hlater : step = [46] ∨ step = [46, 46] →
        ∃ named ∈ rest, named ≠ [46] ∧ named ≠ [46, 46] := by
      intro hdots
      obtain ⟨named, hmem, hnot⟩ := hnamed
      refine ⟨named, (List.mem_cons.mp hmem).resolve_left ?_, hnot⟩
      rintro rfl
      exact hdots.elim hnot.1 hnot.2
    by_cases hhere : (step == [46]) = true
    · rw [walk_here hhere] at h
      rw [trailFrom_here hhere]
      exact ih (hlater (.inl (eq_of_beq hhere))) h
    · by_cases hup : (step == [46, 46]) = true
      · rw [walk_up hhere hup] at h
        rw [trailFrom_up hhere hup]
        exact ih (hlater (.inr (eq_of_beq hup))) h
      · by_cases hlong : maxName < step.length
        · rw [walk_long hhere hup hlong] at h
          cases h
        · rw [trailFrom_enter hhere hup hlong]
          exact ⟨place ++ [step], List.mem_cons_self, by simp⟩

/-- A path that names an entry and leads to a directory of files does not lead to the top of the
disk: there is no way back there from a file. -/
theorem ne_nil_of_find {follow : Bool} (hfiles : ∀ e ∈ es, e.2.isFile = true)
    (hnamed : namesEntry p = true) (hfind : d.find follow p = .ok (origin, .dir es)) :
    origin ≠ [] := by
  rintro rfl
  have hwalk := (walk_of_resolve (find_eq_ok.mp hfind)).2.2.2
  have hstep : ∃ step ∈ steps p.bytes, step ≠ [46] ∧ step ≠ [46, 46] := by
    rw [namesEntry] at hnamed
    split at hnamed
    · rename_i step hlast
      exact ⟨step, List.mem_of_getLast? hlast, by simpa using hnamed⟩
    · cases hnamed
  obtain ⟨z, hz, hne⟩ := exists_mem_trailFrom hstep hwalk
  obtain ⟨m, hm, hlast⟩ := found_of_mem_trailFrom hwalk z hz
  have htop : d.root = .dir es := Option.some.inj (at?_of_find hfind)
  rw [htop] at hm
  have hfile := Node.isFile_of_at? hfiles hne hm
  rcases hlast with rfl | hnot
  · cases hfile
  · exact absurd hfile (by simp [hnot])

end Disk

namespace Thumbnails

open Disk

variable {t : Thumbnails} {d d' : Disk} {staging target : Path} {origin goal : Place} {id : String}
  {es : List (Bytes × Node)}

/-- A directory cannot be moved onto something else that is none. -/
theorem moveDir_ne_ok {place : Place} {n : Node}
    (hfind : d.find false staging = .ok (origin, .dir es))
    (hgoal : d.resolve false target = .ok (.node place n)) (hnot : n.isDir = false)
    (hmissing : d.exists? target = false) : moveDir d staging target ≠ (.ok (), d') := by
  have hne : origin ≠ place := by
    rintro rfl
    cases (at?_of_find hfind).symm.trans (at?_of_find (find_eq_ok.mpr hgoal))
    cases hnot
  have hempty : ¬ target.bytes.isEmpty = true := by simpa using (walk_of_resolve hgoal).2.1
  have hnone : d.isDir target = false := by
    rw [exists?] at hmissing
    rw [isDir]
    cases hnode : d.node? target with
    | error _ => rfl
    | ok _ =>
      rw [hnode] at hmissing
      cases hmissing
  -- a rename finds the wrong kind of node there, and copying cannot make a directory of it
  have hrename : ∀ moved, d.rename staging target ≠ .ok moved := by
    intro moved h
    obtain ⟨-, -, -, -, -, hsource, htarget⟩ := found_of_rename (.inl h)
    cases n with
    | dir _ => cases hnot
    | file _ | link _ =>
      simp only [rename, hfind, hgoal, bind, Except.bind, hsource, htarget, Bool.not_true,
        Bool.or_self, Bool.false_eq_true, if_false, if_neg hne, mayReplace] at h
      split at h
      · cases h
      · split at h <;> cases h
  have hmake : d.makeDirs target = (.error .present, d) := by
    rw [makeDirs, makeDirsFrom, if_neg hempty, makeDir, hgoal]
    simp only [hnone, Bool.false_eq_true, if_false]
  intro h
  rw [moveDir] at h
  split at h
  · rename_i moved hmoved
    exact hrename moved hmoved
  · rw [moveByCopy, copyDir] at h
    split at h
    · cases h
    · rename_i between hcopy
      split at hcopy
      · cases hcopy
      · rw [hmake] at hcopy
        cases hcopy
  · cases h

/-! ### Clearing a place -/

/-- What is cleared is taken away, if there is anything. -/
theorem clear_eq_ok (h : clear d target = .ok d') :
    d.exists? target = false ∧ d' = d ∨
      ∃ place n, d.find false target = .ok (place, n) ∧ n.isFile = false ∧ d' = d.erase place := by
  rw [clear] at h
  cases hthere : d.exists? target with
  | false =>
    rw [hthere] at h
    exact .inl ⟨rfl, (Except.ok.inj h).symm⟩
  | true =>
    rw [hthere, if_pos rfl, removeDir] at h
    split at h
    · cases h
    · rename_i place n hnot hfind
      refine .inr ⟨place, n, hfind, ?_, (Except.ok.inj h).symm⟩
      cases n with
      | file content => exact absurd rfl (hnot content)
      | dir _ | link _ => rfl
    · cases h

/-- The staged directory is as it was once the place was cleared, if it is still found. -/
theorem find_of_clear (hfiles : ∀ e ∈ es, e.2.isFile = true)
    (htop : ∀ n, d.find false target ≠ .ok ([], n))
    (hstaged : d.find false staging = .ok (origin, .dir es)) (hclear : clear d target = .ok d')
    {origin' : Place} {n : Node} (hfound : d'.find false staging = .ok (origin', n)) :
    d'.find false staging = .ok (origin, .dir es) := by
  obtain ⟨-, rfl⟩ | ⟨place, old, hold, hnot, rfl⟩ := clear_eq_ok hclear
  · exact hstaged
  · have hplace : place ≠ [] := by
      rintro rfl
      exact htop old hold
    have hgone : ∀ z ∈ [place], (d.erase place).root.at? z = none :=
      List.forall_mem_singleton.mpr (d.root.at?_erase_self hplace)
    obtain ⟨-, haway⟩ := (Spares.erase d place).away_of_find hgone hfound
    obtain ⟨es', hfind⟩ := (Spares.erase d place).find_dir haway hstaged
    -- what was cleared is no file, so it was not within the staged directory
    have hapart : place.Apart origin := by
      refine ⟨haway origin (mem_trail_of_find hstaged) place List.mem_cons_self, ?_⟩
      rintro ⟨rest, rfl⟩
      have hrest : rest ≠ [] := by
        rintro rfl
        exact haway origin (mem_trail_of_find hstaged) _ List.mem_cons_self
          (by rw [List.append_nil])
      have hat := at?_of_find hold
      rw [Node.at?_append, at?_of_find hstaged, Option.bind_some] at hat
      exact absurd (Node.isFile_of_at? hfiles hrest hat) (by simp [hnot])
    have hat := (Spares.erase d place).at? origin (List.forall_mem_singleton.mpr hapart)
    rw [at?_of_find hfind, at?_of_find hstaged] at hat
    cases hat
    exact hfind

/-- **A directory can be moved only onto a free place** once that was cleared. -/
theorem free_of_move (htop : ∀ n, d.find false target ≠ .ok ([], n))
    (hclear : clear d target = .ok d') (hfind : d'.find false staging = .ok (origin, .dir es))
    {moved : Disk} (hmove : moveDir d' staging target = (.ok (), moved)) :
    ∃ goal, d'.resolve false target = .ok (.free goal) := by
  obtain ⟨-, -, found, -, hgoal⟩ := found_of_move hmove
  cases found with
  | free goal => exact ⟨goal, hgoal⟩
  | node place n =>
    exfalso
    obtain ⟨hmissing, rfl⟩ | ⟨cleared, old, hold, -, rfl⟩ := clear_eq_ok hclear
    · -- nothing is found where links are followed, so what is there is no directory
      have hnot : n.isDir = false := by
        cases n with
        | file _ | link _ => rfl
        | dir entries =>
          rw [exists?, node?, (find_follow (find_eq_ok.mpr hgoal)).1] at hmissing
          cases hmissing
      exact moveDir_ne_ok hfind hgoal hnot hmissing hmove
    · -- what was cleared away would have to stand there again
      have hplace : cleared ≠ [] := by
        rintro rfl
        exact htop old hold
      obtain ⟨-, haway⟩ := (Spares.erase d cleared).away_of_find
        (List.forall_mem_singleton.mpr (d.root.at?_erase_self hplace)) (find_eq_ok.mpr hgoal)
      exact haway cleared (mem_trail_of_find hold) cleared List.mem_cons_self (List.prefix_refl _)

/-! ### Moving the files -/

/-- What was taken away and what was put on a free place leave the rest of the disk. -/
theorem look_erase_put (horigin : ¬ origin <+: goal) (hfree : d.root.at? goal = none) (n : Node)
    {q : Place} (hq : d.root.look q ≠ none) :
    ((d.erase origin).put goal n).root.look q = none ∨
      ((d.erase origin).put goal n).root.look q = d.root.look q := by
  have hput : ((d.erase origin).put goal n).root.look q = (d.erase origin).root.look q :=
    (d.erase origin).root.look_amend (not_below_free hfree hq) (some n)
  rw [hput]
  by_cases hbelow : origin <+: q
  · have hne : origin ≠ [] := fun h => horigin (h ▸ List.nil_prefix)
    exact .inl (Node.look_below_eq_none (d.root.at?_erase_self hne) hbelow)
  · exact .inr (d.root.look_amend hbelow none)

/-- A renamed directory stands where it was moved to, if it can be listed there. -/
theorem arrives_of_rename (hfind : d.find false staging = .ok (origin, .dir es))
    (hgoal : d.resolve false target = .ok (.free goal)) (hmove : d.rename staging target = .ok d')
    {entries : List (Bytes × Node)} (hlist : d'.list target = .ok entries) :
    d'.root.at? goal = some (.dir es) ∧ d'.Reaches target goal := by
  obtain ⟨horigin, rfl⟩ := rename_onto hfind hgoal hmove
  have hfree := at?_of_free hgoal
  have hfree' : (d.erase origin).root.at? goal = none := by
    have hlook : (d.erase origin).root.look goal = d.root.look goal :=
      d.root.look_amend horigin none
    exact Node.at?_of_look_none (hlook.trans (by rw [Node.look, hfree]; rfl))
  have hput : ((d.erase origin).put goal (.dir es)).root.at? goal = some (.dir es) ∨
      ((d.erase origin).put goal (.dir es)).root.at? goal = none :=
    (Node.at?_put_of_none hfree' _).imp And.right And.right
  -- with the staged directory no more is gone than what was in it
  have hwanes : d.Wanes ((d.erase origin).put goal (.dir es)) goal := by
    refine ⟨rfl, fun q n hn _ => look_erase_put horigin hfree _ (Node.look_ne_none_of_at? hn),
      fun n hn => ?_⟩
    rcases hput with hdir | hnone
    · cases hdir.symm.trans hn
      rfl
    · cases hnone.symm.trans hn
  obtain ⟨hat, hreaches⟩ := reaches_of_list hgoal hwanes hlist
  refine ⟨hput.resolve_right fun hnone => ?_, hreaches⟩
  cases hnone.symm.trans hat

theorem isFile_of_mem_descendantsAll (place : Place) (hfiles : ∀ e ∈ es, e.2.isFile = true) :
    ∀ node ∈ Node.descendantsAll place es, node.2.isFile = true := by
  induction es with
  | nil => exact nofun
  | cons e es ih =>
    obtain ⟨name, n⟩ := e
    obtain ⟨hn, hes⟩ := List.forall_mem_cons.mp hfiles
    cases n with
    | file content => exact List.forall_mem_cons.mpr ⟨rfl, ih hes⟩
    | dir _ | link _ => cases hn

/-- Copying a directory of files makes one directory and writes files. -/
theorem refiled_of_copyDir (hfiles : ∀ e ∈ es, e.2.isFile = true)
    (hfind : d.find false staging = .ok (origin, .dir es))
    (hgoal : d.resolve false target = .ok (.free goal))
    (hcopy : copyDir d staging target = (.ok (), d')) : (d.put goal (.dir [])).Refiled d' := by
  have hnode : d.node? staging = .ok (.dir es) := by
    rw [node?, (find_follow hfind).1]
    rfl
  rw [copyDir, hnode, makeDirs_of_free hgoal] at hcopy
  exact .copyNodes (isFile_of_mem_descendantsAll [] hfiles) hcopy

section Copied

variable {between : Disk} (hrefiled : (d.put goal (.dir [])).Refiled between)
  (hfree : d.root.at? goal = none)

include hrefiled hfree

/-- Where files were staged that were copied elsewhere, the directory is found and removed. -/
theorem eq_erase_of_removeDir (hfind : d.find false staging = .ok (origin, .dir es))
    (hremove : between.removeDir staging = .ok d') : d' = between.erase origin := by
  have hsame : ∀ q ∈ d.trail false staging, between.root.look q = d.root.look q := by
    intro q hq
    obtain ⟨m, hm, hlast⟩ :=
      found_of_mem_trailFrom (walk_of_resolve (find_eq_ok.mp hfind)).2.2.2 q hq
    refine hrefiled.look_of_put hfree hm ?_
    rcases hlast with rfl | hnot
    · rfl
    · exact hnot
  have hworking : between.workingDir = d.workingDir := hrefiled.workingDir
  obtain ⟨es', hfind'⟩ := find_dir_congr hworking hsame hfind
  rw [removeDir, hfind'] at hremove
  exact (Except.ok.inj hremove).symm

/-- With the staged directory no more is gone than what was in it. -/
theorem wanes_of_copy (horigin : origin ≠ []) : d.Wanes (between.erase origin) goal := by
  have hgone := between.root.at?_erase_self horigin
  have hstays : ∀ {q}, ¬ origin <+: q → (between.erase origin).root.look q = between.root.look q :=
    fun hbelow => between.root.look_amend hbelow none
  refine ⟨hrefiled.workingDir, fun q n hn hnot => ?_, fun n hn => ?_⟩
  · by_cases hbelow : origin <+: q
    · exact .inl (Node.look_below_eq_none hgone hbelow)
    · exact .inr ((hstays hbelow).trans (hrefiled.look_of_put hfree hn hnot))
  · have hbelow : ¬ origin <+: goal := fun hbelow =>
      Node.look_ne_none_of_at? hn (Node.look_below_eq_none hgone hbelow)
    obtain ⟨m, hm, hsurface⟩ := at?_of_look ((hstays hbelow).symm.trans (Node.look_of_at? hn))
    have hdir := (hrefiled.isDir_of_put hfree hm).1
    cases m with
    | dir _ =>
      cases n with
      | dir _ => rfl
      | file _ | link _ => cases hsurface
    | file _ | link _ => cases hdir

end Copied

/-- A copied directory of files stands where it was copied to, if it can be listed there once the
files were removed where they were staged. -/
theorem arrives_of_copy (hfiles : ∀ e ∈ es, e.2.isFile = true) (hlegible : (Node.dir es).Legible)
    (hnamed : namesEntry staging = true)
    (hfind : d.find false staging = .ok (origin, .dir es))
    (hgoal : d.resolve false target = .ok (.free goal))
    (hmove : moveByCopy d staging target = (.ok (), d'))
    {entries : List (Bytes × Node)} (hlist : d'.list target = .ok entries) :
    d'.root.at? goal = some (.dir es) ∧ d'.Reaches target goal := by
  have hfree := at?_of_free hgoal
  have horigin := ne_nil_of_find hfiles hnamed hfind
  rw [moveByCopy] at hmove
  split at hmove
  · cases hmove
  rename_i between hcopy
  split at hmove
  case h_2 => cases hmove
  rename_i removed hremove
  obtain rfl : removed = d' := congrArg Prod.snd hmove
  have hrefiled := refiled_of_copyDir hfiles hfind hgoal hcopy
  obtain rfl := eq_erase_of_removeDir hrefiled hfree hfind hremove
  obtain ⟨hat, hreaches⟩ :=
    reaches_of_list hgoal (wanes_of_copy hrefiled hfree horigin) hlist
  refine ⟨?_, hreaches⟩
  -- the directory was not removed with the staged one, so it is not within that
  have houtside : ¬ origin <+: goal := fun hbelow =>
    Node.look_ne_none_of_at? hat
      (Node.look_below_eq_none (between.root.at?_erase_self horigin) hbelow)
  have hapart : goal.Apart origin :=
    ⟨not_below_free hfree (Node.look_ne_none_of_at? (at?_of_find hfind)), houtside⟩
  have hkept : (between.erase origin).root.at? goal = between.root.at? goal :=
    between.root.at?_amend hapart.symm none
  have hcopyable := copyable_of_free hfind hlegible.lawful hgoal houtside
    (hrefiled.isDir_of_put hfree (hkept.symm.trans hat)).2
  obtain ⟨copies, hcopies, hbetween⟩ := hcopyable.copyDir_copies (find_follow hfind).1 hcopy
  rw [hkept, hbetween, hcopies.eq_of_linkless (Node.linkless_of_files hfiles)]
  exact Node.at?_put_self hcopyable.holds _

/-- **Moving** a directory of files onto a free place takes them there, if the place can be listed
afterwards, and to be listed it is reached again. -/
theorem arrives_of_move (hfiles : ∀ e ∈ es, e.2.isFile = true) (hlegible : (Node.dir es).Legible)
    (hfind : d.find false staging = .ok (origin, .dir es))
    (hgoal : d.resolve false target = .ok (.free goal))
    (hmove : moveDir d staging target = (.ok (), d'))
    {entries : List (Bytes × Node)} (hlist : d'.list target = .ok entries) :
    d'.root.at? goal = some (.dir es) ∧ d'.Reaches target goal := by
  rw [moveDir] at hmove
  split at hmove
  · rename_i moved hrename
    obtain rfl : moved = d' := congrArg Prod.snd hmove
    exact arrives_of_rename hfind hgoal hrename hlist
  · rename_i hdevice
    have hstopped : d.rename staging target = .ok d' ∨
        d.rename staging target = .error .otherDevice := .inr hdevice
    obtain ⟨-, -, -, -, -, hnamed, -⟩ := found_of_rename hstopped
    exact arrives_of_copy hfiles hlegible hnamed hfind hgoal hmove hlist
  · cases hmove

/-! ### Counting the files -/

/-- What has become of staged files under their settled names: those that were to have one name are
one file. -/
structure Merged (id : String) (es fin : List (Bytes × Node)) : Prop where
  /-- No name is listed twice. -/
  nodup : (fin.map (·.1)).Nodup
  /-- The names are those that were staged, as they are settled. -/
  names : ∀ name, name ∈ fin.map (·.1) ↔ ∃ old ∈ es.map (·.1), settledName id old = name
  /-- Every file was staged, under its name or under one that was settled so. -/
  files : ∀ name c, (name, c) ∈ fin → ∃ old, (old, c) ∈ es ∧ name = settledName id old
  /-- There are as many files as settled names. -/
  count : fin.length = (es.map fun e => settledName id e.1).dedup.length
  /-- Where these differ all files are there, each under its own name. -/
  whole : (es.map fun e => settledName id e.1).Nodup →
    fin.Perm (es.map fun e => (settledName id e.1, e.2))
  /-- The contents are those that were staged, as often as they were, in that case only. -/
  lossless : (fin.map (·.2)).Perm (es.map (·.2)) ↔ (es.map fun e => settledName id e.1).Nodup

/-- **Settled names tell the files apart.** -/
theorem merged_of_settles {fin : List (Bytes × Node)} {listed : List Bytes}
    (hnodup : (es.map (·.1)).Nodup)
    (hall : ∀ old ∈ es.map (·.1), settledName id old ≠ old → old ∈ listed)
    (h : Node.Settles id listed es fin) : Merged id es fin := by
  have hnames : ∀ name, name ∈ fin.map (·.1) ↔ ∃ old ∈ es.map (·.1), settledName id old = name :=
    fun name => h.mem_names hall
  have hfiles : ∀ name c, (name, c) ∈ fin → ∃ old, (old, c) ∈ es ∧ name = settledName id old := by
    intro name c hc
    obtain ⟨old, hold, rfl⟩ := h.origin name c ((Node.lookup_eq_some_iff h.nodup).mpr hc)
    have hmem := (Node.lookup_eq_some_iff hnodup).mp hold
    exact ⟨old, hmem, Node.settledAmong_eq (hall old (List.mem_map.mpr ⟨_, hmem, rfl⟩))⟩
  have hcount : fin.length = (es.map fun e => settledName id e.1).dedup.length := by
    have hperm : (fin.map (·.1)).Perm (es.map fun e => settledName id e.1).dedup := by
      refine (List.perm_ext_iff_of_nodup h.nodup (List.nodup_dedup _)).mpr fun name => ?_
      rw [hnames, List.mem_dedup, List.mem_map]
      simp only [List.mem_map, exists_exists_and_eq_and]
    rw [← hperm.length_eq, List.length_map]
  have hwhole : (es.map fun e => settledName id e.1).Nodup →
      fin.Perm (es.map fun e => (settledName id e.1, e.2)) := by
    intro hdistinct
    have hsub : fin ⊆ es.map fun e => (settledName id e.1, e.2) := by
      rintro ⟨name, c⟩ hc
      obtain ⟨old, hold, rfl⟩ := hfiles name c hc
      exact List.mem_map.mpr ⟨_, hold, rfl⟩
    -- as many entries as were staged, all different, can only be all of them
    refine (List.subperm_of_subset h.nodup.of_map hsub).perm_of_length_le ?_
    rw [hcount, hdistinct.dedup, List.length_map, List.length_map]
  refine ⟨h.nodup, hnames, hfiles, hcount, hwhole, fun hperm => ?_, fun hdistinct => ?_⟩
  · have hlength : (es.map fun e => settledName id e.1).dedup.length =
        (es.map fun e => settledName id e.1).length := by
      rw [← hcount, List.length_map]
      simpa using hperm.length_eq
    rw [← (List.dedup_sublist _).eq_of_length hlength]
    exact List.nodup_dedup _
  · have hcontents := (hwhole hdistinct).map (·.2)
    rwa [List.map_map] at hcontents

/-- **Adoption merges.**  A directory of files under legible names is staged, and what stands in the
place of the document is not the top of the disk.  If adoption succeeds the place of the document
holds one file for each settled name: as many as were staged, with the same contents, if and only if
no two names are settled alike.  This does not depend on what is listed while files are renamed, as
long as none is left out that has to be. -/
theorem adoption_merges {made : Disk} {m : ImageMetadata} (hspelled : d.Spelled)
    (hmake : d.makeDirs t.root = (.ok (), made))
    (htop : ∀ n, made.find false (t.target id) ≠ .ok ([], n)) (hdir : d.isDir staging = true)
    (hstaged : made.find false staging = .ok (origin, .dir es)) (hlegible : (Node.dir es).Legible)
    (hfiles : ∀ e ∈ es, e.2.isFile = true) (h : t.adopt d staging id = (.ok m, d')) :
    (∃ fin, d'.list (t.target id) = .ok fin ∧ Merged id es fin) ∧
      ∀ cleared moved, clear made (t.target id) = .ok cleared →
        moveDir cleared staging (t.target id) = (.ok (), moved) →
        ∀ listed renamed, (∀ name ∈ listed, IsName name ∧ ∃ s, name = Text.encode s) →
          (∀ old ∈ es.map (·.1), settledName id old ≠ old → old ∈ listed) →
          renameEntries (t.target id) id listed moved = (.ok (), renamed) →
            ∃ fin, renamed.list (t.target id) = .ok fin ∧ Merged id es fin := by
  obtain ⟨cleared, moved, entries, hclear, hmove, hlist, hrename, hdescribe⟩ :=
    adopt_eq_ok hdir hmake h
  have hplain : '/' ∉ id.toList := by
    have hspelled' := spelled_adopt (t := t) hspelled staging id
    rw [h] at hspelled'
    exact separator_not_mem_of_describe hspelled' hdescribe
  -- each step that succeeded says where its paths led
  obtain ⟨origin', n, -, hfound, -⟩ := found_of_move hmove
  have hfind := find_of_clear hfiles htop hstaged hclear hfound
  obtain ⟨goal, hgoal⟩ := free_of_move htop hclear hfind hmove
  obtain ⟨hat, hreaches⟩ := arrives_of_move hfiles hlegible hfind hgoal hmove hlist
  have hnodup : (es.map (·.1)).Nodup := hlegible.distinct [] es rfl
  have hmerged : ∀ listed renamed, (∀ name ∈ listed, IsName name ∧ ∃ s, name = Text.encode s) →
      (∀ old ∈ es.map (·.1), settledName id old ≠ old → old ∈ listed) →
      renameEntries (t.target id) id listed moved = (.ok (), renamed) →
        ∃ fin, renamed.list (t.target id) = .ok fin ∧ Merged id es fin := by
    intro listed renamed hlisted hall hrenamed
    obtain ⟨fin, -, -, hfin, hsettles⟩ :=
      settles_of_reaches hreaches hplain hat hnodup hlisted hrenamed
    exact ⟨fin, hfin, merged_of_settles hnodup hall hsettles⟩
  constructor
  · obtain rfl : es = entries := Except.ok.inj ((hreaches.list hat).symm.trans hlist)
    refine hmerged _ _ (fun name hname => ?_) (fun old hold _ => hold) hrename
    obtain ⟨e, he, rfl⟩ := List.mem_map.mp hname
    have hname := hlegible.names [] es rfl e he
    exact ⟨hname.toIsName, hname.text⟩
  · intro cleared' moved' hclear' hmove'
    obtain rfl : cleared = cleared' := Except.ok.inj (hclear.symm.trans hclear')
    obtain rfl : moved = moved' := congrArg Prod.snd (hmove.symm.trans hmove')
    exact hmerged

end Thumbnails

/-! ### Two thumbnails that get one name -/

namespace Sample

/-- Two thumbnails of one size. -/
def twins : List (Bytes × Node) :=
  [(Text.encode "a_thumb_0_large.jpg", .file [1]), (Text.encode "b_thumb_0_large.jpg", .file [2])]

/-- They are staged for a document that has none. -/
def twinned : Disk := walls [] [(Text.encode "1", .dir twins)]

/-- One of them is left once they were adopted. -/
def survivor : List (Bytes × Node) := [(Text.encode "d_thumb_0_large.jpg", .file [2])]

def merged : Disk := walls [(Text.encode "d", .dir survivor)] []

/-- What is said of it. -/
def lone : ImageMetadata :=
  { hasImages := true
    imageCount := 1
    firstImage := "/p/d/d_thumb_0_large.jpg"
    allImages := [] }

theorem list_merged : merged.list (gallery.target "d") = .ok survivor := by cbv

theorem describe_merged : gallery.describe merged (gallery.target "d") "d" = .ok lone := by
  have hnames : (survivor.map fun e => Text.decodeLossy e.1) = ["d_thumb_0_large.jpg"] := by cbv
  have hthumbnails : ["d_thumb_0_large.jpg"].filter (Thumbnails.isThumbnail "d") =
      ["d_thumb_0_large.jpg"] := by decide +kernel
  rw [Thumbnails.describe_of_list list_merged, hnames, Thumbnails.describeNames, hthumbnails,
    List.mergeSort_singleton]
  decide +kernel

theorem adopt_twinned :
    gallery.adopt twinned (.ofText "/s/1") "d" = (.ok lone, merged) := by
  have hstaged : twinned.isDir (.ofText "/s/1") = true := by cbv
  have hmade : twinned.makeDirs gallery.root = (.ok (), twinned) := by cbv
  have hcleared : Thumbnails.clear twinned (gallery.target "d") = .ok twinned := by cbv
  have hmoved : Thumbnails.moveDir twinned (.ofText "/s/1") (gallery.target "d") =
      (.ok (), walls [(Text.encode "d", .dir twins)] []) := by cbv
  have hlisted : (walls [(Text.encode "d", .dir twins)] []).list (gallery.target "d") =
      .ok twins := by cbv
  have hrenamed : Thumbnails.renameEntries (gallery.target "d") "d" (twins.map (·.1))
      (walls [(Text.encode "d", .dir twins)] []) = (.ok (), merged) := by cbv
  rw [Thumbnails.adopt_of_steps hstaged hmade hcleared hmoved hlisted hrenamed, describe_merged]

end Sample

/-- Of two thumbnails that are to have one name adoption drops one, and says nothing of it. -/
theorem adoption_drops_thumbnail :
    ¬ ∀ (t : Thumbnails) (d d' : Disk) (staging : Path) (id : String)
      (es : List (Bytes × Node)) (m : ImageMetadata), d.list staging = .ok es →
      (∀ e ∈ es, e.2.isFile = true ∧ ∃ s, e.1 = Text.encode s) →
      t.adopt d staging id = (.ok m, d') →
        ∃ fin, d'.list (t.target id) = .ok fin ∧ fin.length = es.length ∧
          (fin.map (·.2)).Perm (es.map (·.2)) := by
  intro hkeeps
  have hstaged : Sample.twinned.list (.ofText "/s/1") = .ok Sample.twins := by cbv
  have hfiles : ∀ e ∈ Sample.twins, e.2.isFile = true ∧ ∃ s, e.1 = Text.encode s := by
    simp only [Sample.twins, List.forall_mem_cons]
    exact ⟨⟨rfl, _, rfl⟩, ⟨rfl, _, rfl⟩, List.forall_mem_nil _⟩
  obtain ⟨fin, hfin, hlength, -⟩ :=
    hkeeps _ _ _ _ _ _ _ hstaged hfiles Sample.adopt_twinned
  obtain rfl : Sample.survivor = fin := Except.ok.inj (Sample.list_merged.symm.trans hfin)
  exact absurd hlength (by decide)

/-- The two thumbnails are merged into one. -/
theorem adoption_merges_twins :
    Sample.twinned.Spelled ∧ ∃ fin, Sample.merged.list (Sample.gallery.target "d") = .ok fin ∧
      Thumbnails.Merged "d" Sample.twins fin := by
  have hspelled : Sample.twinned.Spelled := by
    have htwins : (Node.dir Sample.twins).Spelled := by
      constructor <;> simp only [Sample.twins, List.forall_mem_cons]
      · exact ⟨by decide, by decide, List.forall_mem_nil _⟩
      · exact ⟨.file [1], .file [2], List.forall_mem_nil _⟩
    have hstaged : (Node.dir [(Text.encode "1", .dir Sample.twins)]).Spelled := by
      constructor <;> rw [List.forall_mem_singleton]
      · decide
      · exact htwins
    show (Node.dir [(Text.encode "t", .dir []), (Text.encode "s", _)]).Spelled
    constructor <;> simp only [List.forall_mem_cons]
    · exact ⟨by decide, by decide, List.forall_mem_nil _⟩
    · exact ⟨.dir (List.forall_mem_nil _) (List.forall_mem_nil _), hstaged, List.forall_mem_nil _⟩
  have hdir : Sample.twinned.isDir (.ofText "/s/1") = true := by cbv
  have hmade : Sample.twinned.makeDirs Sample.gallery.root = (.ok (), Sample.twinned) := by cbv
  have htop : Sample.twinned.find false (Sample.gallery.target "d") = .error .absent := by cbv
  have hstaged : Sample.twinned.find false (.ofText "/s/1") =
      .ok ([Text.encode "s", Text.encode "1"], .dir Sample.twins) := by cbv
  have hlegible : (Node.dir Sample.twins).Legible := by
    refine .dir (by decide) (fun e he => ?_) fun e he => ?_
    · simp only [Sample.twins, List.mem_cons, List.not_mem_nil, or_false] at he
      rcases he with rfl | rfl
      all_goals
        exact ⟨⟨by decide, by decide, by decide, by decide⟩, ⟨_, rfl⟩, by decide, by decide⟩
    · simp only [Sample.twins, List.mem_cons, List.not_mem_nil, or_false] at he
      rcases he with rfl | rfl
      · exact .file [1]
      · exact .file [2]
  have hfiles : ∀ e ∈ Sample.twins, e.2.isFile = true := by
    simp only [Sample.twins, List.forall_mem_cons]
    exact ⟨rfl, rfl, List.forall_mem_nil _⟩
  exact ⟨hspelled, (Thumbnails.adoption_merges hspelled hmade
    (fun n hn => by cases htop.symm.trans hn) hdir hstaged hlegible hfiles
    Sample.adopt_twinned).1⟩

end Corpus
