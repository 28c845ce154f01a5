/-
Corpus/Proofs/Spelling.lean

How the names on a disk are spelled.

A path is cut at its separators before it is followed, and so are the targets of links.  So no step
holds a separator, a new entry is named for the last step, and

    names without separators before  →  names without separators afterwards

for every operation on the disk and for all that adoption makes of them (`Disk.Spelled`).  A
document whose identifier holds a separator therefore never has a thumbnail
(`Thumbnails.separator_not_mem_of_describe`).
-/
import Corpus.Proofs.Landing

namespace Corpus

namespace Node

/-- No name in the tree holds a separator. -/
inductive Spelled : Node → Prop
  | file (content : Bytes) : Spelled (.file content)
  | link (target : Bytes) : Spelled (.link target)
  | dir {es : List (Bytes × Node)} (names : ∀ e ∈ es, Path.separator ∉ e.1)
      (nodes : ∀ e ∈ es, Spelled e.2) : Spelled (.dir es)

theorem mem_putEntry {es : List (Bytes × Node)} {name : Bytes} {c : Node} {e : Bytes × Node}
    (h : e ∈ putEntry es name c) : e = (name, c) ∨ e ∈ es := by
  rw [putEntry] at h
  split at h
  · obtain ⟨old, hold, rfl⟩ := List.mem_map.mp h
    by_cases hname : (old.1 == name) = true
    · exact .inl (if_pos hname)
    · rw [if_neg hname]
      exact .inr hold
  · rcases List.mem_append.mp h with hold | hnew
    · exact .inr hold
    · exact .inl (List.mem_singleton.mp hnew)

namespace Spelled

variable {n c : Node} {es : List (Bytes × Node)} {name : Bytes}

theorem lookup (h : (Node.dir es).Spelled) (hc : es.lookup name = some c) :
    Path.separator ∉ name ∧ c.Spelled := by
  cases h with
  | dir names nodes => exact ⟨names _ (mem_of_lookup hc), nodes _ (mem_of_lookup hc)⟩

theorem at? {p : Place} : ∀ {n c : Node}, n.Spelled → n.at? p = some c → c.Spelled := by
  induction p with
  | nil =>
    intro n c h hat
    cases hat
    exact h
  | cons name rest ih =>
    intro n c h hat
    cases n with
    | dir es =>
      rw [at?_dir_cons, Option.bind_eq_some_iff] at hat
      obtain ⟨sub, hsub, hbelow⟩ := hat
      exact ih (h.lookup hsub).2 hbelow
    | file _ | link _ => cases hat

/-- The last name of a place where something stands is spelled as all are. -/
theorem last_of_at? (h : n.Spelled) {above : Place} (hat : n.at? (above ++ [name]) = some c) :
    Path.separator ∉ name := by
  rw [at?_append, Option.bind_eq_some_iff] at hat
  obtain ⟨around, haround, hentry⟩ := hat
  cases around with
  | dir es =>
    rw [at?_dir_cons, Option.bind_eq_some_iff] at hentry
    obtain ⟨sub, hsub, -⟩ := hentry
    exact ((h.at? haround).lookup hsub).1
  | file _ | link _ => cases hentry

theorem putEntry (h : (Node.dir es).Spelled) (hname : Path.separator ∉ name) (hc : c.Spelled) :
    (Node.dir (Node.putEntry es name c)).Spelled := by
  cases h with
  | dir names nodes =>
    constructor
    · intro e he
      rcases mem_putEntry he with rfl | hold
      · exact hname
      · exact names e hold
    · intro e he
      rcases mem_putEntry he with rfl | hold
      · exact hc
      · exact nodes e hold

/-- A tree stays well spelled if the last name of the changed place is. -/
theorem amend {p : Place} {c : Option Node} (hc : ∀ m ∈ c, m.Spelled) :
    ∀ {n : Node}, n.Spelled → (∀ above name, p = above ++ [name] → Path.separator ∉ name) →
      (n.amend p c).Spelled := by
  induction p with
  | nil =>
    intro n h _
    cases c with
    | some m => exact hc m rfl
    | none => exact h
  | cons name rest ih =>
    intro n h hlast
    cases n with
    | dir es =>
      rw [amend_cons_dir]
      split
      · rename_i hrest
        subst hrest
        cases c with
        | some m => exact h.putEntry (hlast [] name rfl) (hc m rfl)
        | none =>
          cases h with
          | dir names nodes =>
            exact .dir (fun e he => names e (List.mem_filter.mp he).1)
              fun e he => nodes e (List.mem_filter.mp he).1
      · -- on the way down the names are those that are there
        cases hsub : es.lookup name with
        | none => exact h
        | some sub =>
          obtain ⟨hname, hspelled⟩ := h.lookup hsub
          exact h.putEntry hname (ih hspelled fun above last heq =>
            hlast (name :: above) last (by rw [heq]; rfl))
    | file _ | link _ =>
      rw [amend_cons_of_not_dir rfl]
      exact h

end Spelled

end Node

namespace Disk

/-! ### Steps -/

/-- What stands between separators holds none. -/
theorem separator_not_mem_splitOn (s : Bytes) :
    ∀ part ∈ s.splitOn Path.separator, Path.separator ∉ part := by
  induction s with
  | nil =>
    rw [List.splitOn_nil, List.forall_mem_singleton]
    exact List.not_mem_nil
  | cons first rest ih =>
    rw [List.splitOn_cons_eq_if_modifyHead]
    split
    · rw [List.forall_mem_cons]
      exact ⟨List.not_mem_nil, ih⟩
    · rename_i hne
      cases hparts : rest.splitOn Path.separator with
      | nil => exact nofun
      | cons part parts =>
        rw [hparts, List.forall_mem_cons] at ih
        rw [List.modifyHead_cons, List.forall_mem_cons]
        refine ⟨fun hmem => ?_, ih.2⟩
        rcases List.mem_cons.mp hmem with heq | hmem
        · exact hne (beq_iff_eq.mpr heq.symm)
        · exact ih.1 hmem

theorem separator_not_mem_step {path : Bytes} : ∀ step ∈ steps path, Path.separator ∉ step :=
  fun step hstep => separator_not_mem_splitOn path step (List.mem_filter.mp hstep).1

/-- A free place is named for a step. -/
theorem last_of_walk_free {root : Node} {follow : Bool} {links : Nat} {dirOnly : Bool}
    {place q : Place} {s : List Bytes}
    (h : walk root follow links dirOnly place s = .ok (.free q))
    (hsteps : ∀ step ∈ s, Path.separator ∉ step) :
    ∀ above name, q = above ++ [name] → Path.separator ∉ name := by
  fun_induction walk root follow links dirOnly place s with
  | case3 links dirOnly place step rest hstep ih =>
    exact ih h fun other hother => hsteps other (List.mem_cons_of_mem _ hother)
  | case4 links dirOnly place step rest hstep hup ih =>
    exact ih h fun other hother => hsteps other (List.mem_cons_of_mem _ hother)
  | case6 links dirOnly place step rest hstep hup hlong hnone hrest =>
    cases h
    intro above name heq
    obtain ⟨-, hname⟩ := List.append_inj' heq rfl
    cases hname
    exact hsteps _ List.mem_cons_self
  | case9 links dirOnly place step rest hstep hup hlong es hdir hrest ih =>
    exact ih h fun other hother => hsteps other (List.mem_cons_of_mem _ hother)
  | case15 dirOnly place step rest hstep hup hlong target hlink hrest links hempty start ih =>
    -- the target of a link is cut into steps as the path was
    refine ih h fun other hother => ?_
    rcases List.mem_append.mp hother with hlinked | hlater
    · exact separator_not_mem_step other hlinked
    · exact hsteps other (List.mem_cons_of_mem _ hlater)
  | _ => cases h

/-! ### Operations -/

/-- No name on the disk holds a separator. -/
def Spelled (d : Disk) : Prop := d.root.Spelled

namespace Spelled

variable {d d' : Disk} {p : Path} {follow : Bool} {place : Place} {n : Node}

theorem put_found (h : d.Spelled) {m : Node} (hfound : d.resolve follow p = .ok (.node place m))
    (hn : n.Spelled) : (d.put place n).Spelled := by
  refine Node.Spelled.amend (p := place) (c := some n) ?_ h fun above name heq => ?_
  · rintro _ ⟨⟩
    exact hn
  · subst heq
    exact Node.Spelled.last_of_at? h (at?_of_find (find_eq_ok.mpr hfound))

theorem put_free (h : d.Spelled) (hfree : d.resolve follow p = .ok (.free place))
    (hn : n.Spelled) : (d.put place n).Spelled := by
  refine Node.Spelled.amend (p := place) (c := some n) ?_ h ?_
  · rintro _ ⟨⟩
    exact hn
  · exact last_of_walk_free (walk_of_resolve hfree).2.2.2 separator_not_mem_step

theorem erase (h : d.Spelled) (hat : d.root.at? place = some n) : (d.erase place).Spelled := by
  refine Node.Spelled.amend (p := place) (c := none) nofun h fun above name heq => ?_
  subst heq
  exact Node.Spelled.last_of_at? h hat

theorem write {content : Bytes} (h : d.Spelled) (hwrite : d.write p content = .ok d') :
    d'.Spelled := by
  rw [Disk.write] at hwrite
  split at hwrite
  · rename_i hfound
    cases hwrite
    exact h.put_found hfound (.file content)
  · cases hwrite
  · rename_i hfree
    split at hwrite
    · cases hwrite
    · cases hwrite
      exact h.put_free hfree (.file content)
  · cases hwrite

theorem makeDir (h : d.Spelled) (hmake : d.makeDir p = .ok d') : d'.Spelled := by
  rw [Disk.makeDir] at hmake
  split at hmake
  · cases hmake
  · rename_i hfree
    cases hmake
    exact h.put_free hfree (.dir (List.forall_mem_nil _) (List.forall_mem_nil _))
  · cases hmake

theorem settleDir (h : d.Spelled) (p : Path) : (d.settleDir p).2.Spelled := by
  rw [Disk.settleDir]
  split
  · rename_i hmake
    exact h.makeDir hmake
  · split <;> exact h

theorem makeDirsFrom (fuel : Nat) :
    ∀ {d : Disk} (p : Path), d.Spelled → (d.makeDirsFrom fuel p).2.Spelled := by
  induction fuel with
  | zero => exact fun _ h => h
  | succ fuel ih =>
    intro d p h
    rw [Disk.makeDirsFrom]
    split
    · exact h
    · split
      · rename_i hmake
        exact h.makeDir hmake
      · split
        · exact h
        · rename_i parent _
          have habove := ih parent h
          split
          · rename_i d₁ hparent
            rw [hparent] at habove
            exact habove.settleDir p
          · rename_i d₁ hparent
            rw [hparent] at habove
            exact habove
      · split <;> exact h

theorem makeDirs (h : d.Spelled) (p : Path) : (d.makeDirs p).2.Spelled := makeDirsFrom _ p h

theorem removeDir (h : d.Spelled) (hremove : d.removeDir p = .ok d') : d'.Spelled := by
  rw [Disk.removeDir] at hremove
  split at hremove
  · cases hremove
  · rename_i hfind
    cases hremove
    exact h.erase (at?_of_find hfind)
  · cases hremove

/-- What is moved was spelled well where it stood, and goes where the target path leads to. -/
theorem rename {source target : Path} (h : d.Spelled) (hrename : d.rename source target = .ok d') :
    d'.Spelled := by
  obtain ⟨origin, moved, found, hfind, hgoal, hsource, htarget⟩ := found_of_rename (.inl hrename)
  have hmoved : moved.Spelled := Node.Spelled.at? h (at?_of_find hfind)
  have hrest := h.erase (at?_of_find hfind)
  have hlands : ∀ goal, (∀ above name, goal = above ++ [name] → Path.separator ∉ name) →
      ((d.erase origin).put goal moved).Spelled := by
    intro goal hlast
    refine Node.Spelled.amend (p := goal) (c := some moved) ?_ hrest hlast
    rintro _ ⟨⟩
    exact hmoved
  simp only [Disk.rename, hfind, hgoal, bind, Except.bind, hsource, htarget, Bool.not_true,
    Bool.or_self, Bool.false_eq_true, if_false] at hrename
  -- the new name is one from the tree if it is taken, and one from the path if it is free
  cases found with
  | node goal old =>
    have hlast : ∀ above name, goal = above ++ [name] → Path.separator ∉ name := by
      rintro above name rfl
      exact Node.Spelled.last_of_at? h (at?_of_find (find_eq_ok.mpr hgoal))
    dsimp only at hrename
    split at hrename
    · cases hrename
    · split at hrename
      · cases hrename
        exact h
      · split at hrename
        · cases hrename
        · split at hrename
          · cases hrename
          · cases hrename
            exact hlands goal hlast
  | free goal =>
    have hlast := last_of_walk_free (walk_of_resolve hgoal).2.2.2 separator_not_mem_step
    dsimp only at hrename
    split at hrename
    · cases hrename
    · split at hrename
      · cases hrename
        exact h
      · split at hrename
        · cases hrename
        · split at hrename
          · cases hrename
          · cases hrename
            exact hlands goal hlast

end Spelled

end Disk

namespace Thumbnails

variable {t : Thumbnails} {d d' : Disk} {source target : Path} {id : String}

/-! ### Adoption -/

theorem spelled_copyNodes {nodes : List (Place × Node)} :
    ∀ {d : Disk}, d.Spelled → (copyNodes source target nodes d).2.Spelled := by
  induction nodes with
  | nil => exact fun h => h
  | cons node rest ih =>
    obtain ⟨steps, n⟩ := node
    intro d h
    cases n with
    | dir es =>
      rw [copyNodes]
      split
      · rename_i between hmake
        have hmade := h.makeDirs (steps.foldl Path.child target)
        rw [hmake] at hmade
        exact ih hmade
      · rename_i between fault hmake
        have hmade := h.makeDirs (steps.foldl Path.child target)
        rw [hmake] at hmade
        exact hmade
    | file _ | link _ =>
      simp only [copyNodes]
      split
      · exact h
      · exact h
      · split
        · rename_i hwrite
          exact ih (h.write hwrite)
        · exact h

theorem spelled_copyDir (h : d.Spelled) : (copyDir d source target).2.Spelled := by
  rw [copyDir]
  split
  · exact h
  · have hmade := h.makeDirs target
    split
    · rename_i hmake
      rwa [hmake] at hmade
    · rename_i hmake
      rw [hmake] at hmade
      exact spelled_copyNodes hmade

theorem spelled_moveByCopy (h : d.Spelled) : (moveByCopy d source target).2.Spelled := by
  have hcopied : (copyDir d source target).2.Spelled := spelled_copyDir h
  rw [moveByCopy]
  split
  · rename_i hcopy
    rwa [hcopy] at hcopied
  · rename_i hcopy
    rw [hcopy] at hcopied
    split
    · rename_i hremove
      exact hcopied.removeDir hremove
    · exact hcopied

theorem spelled_moveDir (h : d.Spelled) : (moveDir d source target).2.Spelled := by
  rw [moveDir]
  split
  · rename_i hrename
    exact h.rename hrename
  · exact spelled_moveByCopy h
  · exact h

theorem spelled_clear (h : d.Spelled) (hclear : clear d target = .ok d') : d'.Spelled := by
  rw [clear] at hclear
  split at hclear
  · exact h.removeDir hclear
  · cases hclear
    exact h

theorem spelled_renameEntries {names : List Bytes} :
    ∀ {d : Disk}, d.Spelled → (renameEntries target id names d).2.Spelled := by
  induction names with
  | nil => exact fun h => h
  | cons entry rest ih =>
    intro d h
    rw [renameEntries]
    split
    · exact ih h
    · split
      · exact ih h
      · split
        · rename_i hrename
          exact ih (h.rename hrename)
        · exact h

/-- **Adoption** names nothing with a separator, whether it succeeds or not. -/
theorem spelled_adopt (h : d.Spelled) (staging : Path) (id : String) :
    (t.adopt d staging id).2.Spelled := by
  rw [adopt]
  split
  · split <;> exact h
  · have hmade := h.makeDirs t.root
    split
    · rename_i hmake
      rwa [hmake] at hmade
    · rename_i made hmake
      rw [hmake] at hmade
      split
      · exact hmade
      · rename_i cleared hclear
        have hcleared := spelled_clear hmade hclear
        have hmoved : (moveDir cleared staging (t.root.join (.ofText id))).2.Spelled :=
          spelled_moveDir hcleared
        split
        · rename_i hmove
          rwa [hmove] at hmoved
        · rename_i moved hmove
          rw [hmove] at hmoved
          split
          · exact hmoved
          · rename_i entries hlist
            have hrenamed : (renameEntries (t.root.join (.ofText id)) id (entries.map (·.1))
                moved).2.Spelled := spelled_renameEntries hmoved
            split
            · rename_i hrename
              rwa [hrename] at hrenamed
            · rename_i hrename
              rwa [hrename] at hrenamed

/-- **A document whose images are described** has no separator in its identifier: no entry of a
directory could be named for it. -/
theorem separator_not_mem_of_describe (h : d.Spelled) {dir : Path} {m : ImageMetadata}
    (hdescribe : t.describe d dir id = .ok m) : '/' ∉ id.toList := by
  intro hslash
  rw [describe] at hdescribe
  split at hdescribe
  · rename_i entries hlist
    rw [describeNames] at hdescribe
    dsimp only at hdescribe
    split at hdescribe
    · rename_i first hfirst
      have hmem := List.mem_of_find?_eq_some hfirst
      rw [List.mem_mergeSort, List.mem_filter] at hmem
      obtain ⟨hlisted, hthumbnail⟩ := hmem
      obtain ⟨e, he, rfl⟩ := List.mem_map.mp hlisted
      -- the name begins with the identifier, and so has its separator
      simp only [isThumbnail, Bool.and_eq_true, List.isPrefixOf_iff_prefix] at hthumbnail
      have hname := Text.separator_mem_of_mem_decodeLossy (hthumbnail.1.1.subset hslash)
      obtain ⟨place, hfind⟩ := Disk.find_of_list hlist
      cases Node.Spelled.at? h (Disk.at?_of_find hfind) with
      | dir names nodes => exact names e he hname
    · cases hdescribe
  · cases hdescribe

end Thumbnails

end Corpus
