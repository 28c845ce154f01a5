/-
Corpus/Proofs/Places.lean

What stands at the places of a file tree after a node was put into it or taken away.

At the place itself and below it stands what was put there, or nothing.  At places apart from
it, neither above nor below, everything stays as it was.  A directory above it holds something
else afterwards, but is still a directory: its surface is the same.
-/
import Corpus.Disk.Tree

namespace Corpus

/-! ### Entries -/

/-- Looking a name up where the entries of one name were left out. -/
theorem lookup_without {α β : Type} [BEq α] [LawfulBEq α] [DecidableEq α] (es : List (α × β))
    (name other : α) :
    (es.filter (·.1 != name)).lookup other = if other = name then none else es.lookup other := by
  induction es with
  | nil => simp
  | cons e rest ih =>
    obtain ⟨key, n⟩ := e
    by_cases hkey : key = name
    · subst hkey
      rw [List.filter_cons_of_neg (by simp), ih, List.lookup_cons]
      by_cases hother : other = key
      · simp [hother]
      · have hne : (other == key) = false := by simpa using hother
        simp [hne]
    · rw [List.filter_cons_of_pos (by simpa using hkey), List.lookup_cons, List.lookup_cons, ih]
      by_cases hother : other = key
      · subst hother
        simp [hkey]
      · have hne : (other == key) = false := by simpa using hother
        simp [hne]

namespace Node

/-- Exchanging the node under a name that is there. -/
theorem lookup_exchange (es : List (Bytes × Node)) (name other : Bytes) (c : Node) :
    (es.map fun e => if e.1 == name then (name, c) else e).lookup other =
      if other = name then (es.lookup name).map fun _ => c else es.lookup other := by
  induction es with
  | nil => simp
  | cons e rest ih =>
    obtain ⟨key, n⟩ := e
    by_cases hkey : key = name
    · subst hkey
      by_cases hother : other = key
      · subst hother
        simp
      · have hne : (other == key) = false := by simpa using hother
        simp only [List.map_cons, beq_self_eq_true, if_true, List.lookup_cons, hne, ih,
          if_neg hother]
    · have hkeep : (key == name) = false := by simpa using hkey
      have hne : (name == key) = false := by simpa using fun h => hkey h.symm
      rw [List.map_cons, hkeep, List.lookup_cons, List.lookup_cons, List.lookup_cons, hne]
      by_cases hother : other = key
      · subst hother
        simp [hkey]
      · have hne' : (other == key) = false := by simpa using hother
        simp only [Bool.false_eq_true, if_false, hne', ih]

theorem any_eq_isSome_lookup (es : List (Bytes × Node)) (name : Bytes) :
    es.any (·.1 == name) = (es.lookup name).isSome := by
  induction es with
  | nil => rfl
  | cons e rest ih =>
    obtain ⟨key, n⟩ := e
    rw [List.any_cons, List.lookup_cons, ih, BEq.comm]
    cases name == key <;> rfl

/-- A name stands for one of the entries. -/
theorem mem_of_lookup {es : List (Bytes × Node)} {name : Bytes} {c : Node}
    (h : es.lookup name = some c) : (name, c) ∈ es := by
  obtain ⟨before, after, rfl, -⟩ := List.lookup_eq_some_iff.mp h
  exact List.mem_append_right _ List.mem_cons_self

theorem lookup_putEntry (es : List (Bytes × Node)) (name other : Bytes) (c : Node) :
    (putEntry es name c).lookup other = if other = name then some c else es.lookup other := by
  unfold putEntry
  rw [any_eq_isSome_lookup]
  cases hold : es.lookup name with
  -- a name that is there keeps its place in the listing, a new one comes last
  | some n => rw [Option.isSome_some, if_pos rfl, lookup_exchange, hold, Option.map_some]
  | none =>
    rw [Option.isSome_none, if_neg Bool.false_ne_true, List.lookup_append]
    by_cases hother : other = name
    · subst hother
      simp [hold]
    · have hne : (other == name) = false := by simpa using hother
      simp [List.lookup_cons, hne, hother]

/-! ### Places -/

theorem at?_append (n : Node) (p q : Place) : n.at? (p ++ q) = (n.at? p).bind (·.at? q) := by
  induction p generalizing n with
  | nil => rfl
  | cons name rest ih =>
    rw [List.cons_append, at?, at?]
    cases n.child? name with
    | none => rfl
    | some c => exact ih c

/-- Nothing stands below what is no directory. -/
theorem at?_below_eq_none {n : Node} {p q : Place} (h : n.at? p = none) :
    n.at? (p ++ q) = none := by
  rw [at?_append, h, Option.bind_none]

@[simp] theorem at?_dir_cons (es : List (Bytes × Node)) (name : Bytes) (rest : Place) :
    (Node.dir es).at? (name :: rest) = (es.lookup name).bind (·.at? rest) := by
  rw [at?, child?, entries]
  cases es.lookup name <;> rfl

@[simp] theorem at?_file_cons (content : Bytes) (name : Bytes) (rest : Place) :
    (Node.file content).at? (name :: rest) = none := rfl

@[simp] theorem at?_link_cons (target : Bytes) (name : Bytes) (rest : Place) :
    (Node.link target).at? (name :: rest) = none := rfl

/-- A node without what it holds. -/
def surface : Node → Node
  | .dir _ => .dir []
  | n => n

/-- The surface of what stands at a place. -/
def look (n : Node) (p : Place) : Option Node := (n.at? p).map surface

theorem look_below_eq_none {n : Node} {p q : Place} (h : n.at? p = none) (hq : p <+: q) :
    n.look q = none := by
  obtain ⟨rest, rfl⟩ := hq
  rw [look, at?_below_eq_none h, Option.map_none]

/-- The place is one of an entry that a directory has or could have. -/
def Holds (n : Node) (p : Place) : Prop :=
  ∃ above name es, p = above ++ [name] ∧ n.at? above = some (.dir es)

end Node

/-- Neither place is at or below the other one. -/
def Place.Apart (p q : Place) : Prop := ¬ p <+: q ∧ ¬ q <+: p

theorem Place.Apart.symm {p q : Place} (h : p.Apart q) : q.Apart p := ⟨h.2, h.1⟩

namespace Node

/-! ### Changes at a place -/

/-- The entries with another node under a name, or with none. -/
def amendEntry (es : List (Bytes × Node)) (name : Bytes) : Option Node → List (Bytes × Node)
  | some c => putEntry es name c
  | none => es.filter (·.1 != name)

theorem lookup_amendEntry (es : List (Bytes × Node)) (name other : Bytes) (c : Option Node) :
    (amendEntry es name c).lookup other = if other = name then c else es.lookup other := by
  cases c with
  | some c => exact lookup_putEntry es name other c
  | none => exact lookup_without es name other

/-- The tree with another node at a place, or with none there. -/
def amend (n : Node) (p : Place) : Option Node → Node
  | some c => n.put p c
  | none => n.erase p

theorem amend_cons_dir (es : List (Bytes × Node)) (name : Bytes) (rest : Place)
    (c : Option Node) :
    (Node.dir es).amend (name :: rest) c =
      if rest = [] then .dir (amendEntry es name c)
      else match es.lookup name with
        | some sub => .dir (putEntry es name (sub.amend rest c))
        | none => .dir es := by
  cases rest with
  | nil => cases c <;> simp [amend, amendEntry, put, erase]
  | cons next rest =>
    rw [if_neg (List.cons_ne_nil _ _)]
    cases c <;> cases hsub : es.lookup name <;> simp [amend, put, erase, hsub]

theorem amend_cons_of_not_dir {n : Node} (h : n.isDir = false) (name : Bytes) (rest : Place)
    (c : Option Node) : n.amend (name :: rest) c = n := by
  cases n with
  | dir es => cases h
  | file content => cases c <;> rfl
  | link target => cases c <;> rfl

/-- What was put at a place stands there, if a directory holds the place. -/
theorem at?_put_append {n : Node} {p : Place} (h : n.Holds p) (c : Node) (q : Place) :
    (n.put p c).at? (p ++ q) = c.at? q := by
  show (n.amend p (some c)).at? (p ++ q) = c.at? q
  obtain ⟨above, name, es, rfl, habove⟩ := h
  -- on the way down to the directory that holds the place
  induction above generalizing n with
  | nil =>
    cases habove
    rw [List.nil_append, amend_cons_dir, if_pos rfl, List.cons_append, List.nil_append,
      at?_dir_cons, lookup_amendEntry, if_pos rfl, Option.bind_some]
  | cons first rest ih =>
    cases n with
    | dir entries =>
      rw [at?_dir_cons] at habove
      obtain ⟨sub, hsub, hbelow⟩ := Option.bind_eq_some_iff.mp habove
      rw [List.cons_append, amend_cons_dir, if_neg (by simp), hsub, List.cons_append, at?_dir_cons,
        lookup_putEntry, if_pos rfl, Option.bind_some]
      exact ih hbelow
    | file content => cases habove
    | link target => cases habove

theorem at?_put_self {n : Node} {p : Place} (h : n.Holds p) (c : Node) :
    (n.put p c).at? p = some c := by
  have hput := at?_put_append h c []
  rwa [List.append_nil] at hput

/-- Where something was taken away nothing is left. -/
theorem at?_erase_append (n : Node) {p : Place} (hp : p ≠ []) (q : Place) :
    (n.erase p).at? (p ++ q) = none := by
  show (n.amend p none).at? (p ++ q) = none
  induction p generalizing n with
  | nil => exact absurd rfl hp
  | cons name rest ih =>
    cases n with
    | dir es =>
      rw [amend_cons_dir]
      split
      · rename_i hrest
        subst hrest
        rw [List.cons_append, at?_dir_cons, lookup_amendEntry, if_pos rfl, Option.bind_none]
      · rename_i hrest
        cases hsub : es.lookup name with
        | none => rw [List.cons_append, at?_dir_cons, hsub, Option.bind_none]
        | some sub =>
          dsimp only
          rw [List.cons_append, at?_dir_cons, lookup_putEntry, if_pos rfl, Option.bind_some]
          exact ih sub hrest
    | file content => rfl
    | link target => rfl

theorem at?_erase_self (n : Node) {p : Place} (hp : p ≠ []) : (n.erase p).at? p = none := by
  have hgone := n.at?_erase_append hp []
  rwa [List.append_nil] at hgone

/-- Apart from the place nothing changes. -/
theorem at?_amend (n : Node) {p q : Place} (h : p.Apart q) (c : Option Node) :
    (n.amend p c).at? q = n.at? q := by
  induction p generalizing n q with
  | nil => exact absurd List.nil_prefix h.1
  | cons name rest ih =>
    cases q with
    | nil => exact absurd List.nil_prefix h.2
    | cons other below =>
      cases n with
      | dir es =>
        rw [amend_cons_dir]
        split
        · rename_i hrest
          subst hrest
          -- the places part in the last directory above the change
          have hne : other ≠ name := fun heq => h.1 (by simp [heq])
          rw [at?_dir_cons, at?_dir_cons, lookup_amendEntry, if_neg hne]
        · cases hsub : es.lookup name with
          | none => rfl
          | some sub =>
            dsimp only
            rw [at?_dir_cons, at?_dir_cons, lookup_putEntry]
            split
            · rename_i heq
              subst heq
              -- both are below one entry, and part further down
              have hapart : Place.Apart rest below :=
                ⟨fun hp => h.1 (by simpa using hp), fun hp => h.2 (by simpa using hp)⟩
              rw [hsub, Option.bind_some, Option.bind_some]
              exact ih sub hapart
            · rfl
      | file content => rw [amend_cons_of_not_dir rfl]
      | link target => rw [amend_cons_of_not_dir rfl]

/-- Only at the place and below it do surfaces change. -/
theorem look_amend (n : Node) {p q : Place} (h : ¬ p <+: q) (c : Option Node) :
    (n.amend p c).look q = n.look q := by
  induction p generalizing n q with
  | nil => exact absurd List.nil_prefix h
  | cons name rest ih =>
    cases n with
    | dir es =>
      rw [amend_cons_dir]
      cases q with
      | nil =>
        split
        · rfl
        -- a change below a directory leaves it a directory
        · cases es.lookup name <;> rfl
      | cons other below =>
        split
        · rename_i hrest
          subst hrest
          have hne : other ≠ name := fun heq => h (by simp [heq])
          rw [look, look, at?_dir_cons, at?_dir_cons, lookup_amendEntry, if_neg hne]
        · cases hsub : es.lookup name with
          | none => rfl
          | some sub =>
            dsimp only
            rw [look, look, at?_dir_cons, at?_dir_cons, lookup_putEntry]
            split
            · rename_i heq
              subst heq
              rw [hsub, Option.bind_some, Option.bind_some]
              exact ih sub fun hp => h (by simpa using hp)
            · rfl
    | file content => rw [amend_cons_of_not_dir rfl]
    | link target => rw [amend_cons_of_not_dir rfl]

/-- A change strictly below a place is a change of what stands there. -/
theorem at?_amend_below (n : Node) (p : Place) {q : Place} (hq : q ≠ []) (c : Option Node) :
    (n.amend (p ++ q) c).at? p = (n.at? p).map (·.amend q c) := by
  induction p generalizing n with
  | nil => rfl
  | cons name rest ih =>
    cases n with
    | dir es =>
      rw [List.cons_append, amend_cons_dir, if_neg (by simp [hq])]
      cases hsub : es.lookup name with
      | none => simp [hsub]
      | some sub =>
        dsimp only
        rw [at?_dir_cons, at?_dir_cons, lookup_putEntry, if_pos rfl, hsub, Option.bind_some,
          Option.bind_some]
        exact ih sub
    | file content => rw [List.cons_append, amend_cons_of_not_dir rfl]; rfl
    | link target => rw [List.cons_append, amend_cons_of_not_dir rfl]; rfl

/-- Where nothing stood there is an empty directory at most, once one was put there. -/
theorem look_put_dir {n : Node} {p : Place} (h : n.at? p = none) (q : Place) :
    (n.put p (.dir [])).look (p ++ q) = none ∨
      (n.put p (.dir [])).look (p ++ q) = some (.dir []) := by
  show (n.amend p (some (.dir []))).look (p ++ q) = none ∨
    (n.amend p (some (.dir []))).look (p ++ q) = some (.dir [])
  induction p generalizing n with
  | nil => cases h
  | cons name rest ih =>
    cases n with
    | dir es =>
      rw [at?_dir_cons] at h
      rw [amend_cons_dir]
      split
      · rw [look, List.cons_append, at?_dir_cons, lookup_amendEntry, if_pos rfl, Option.bind_some]
        rename_i hrest
        subst hrest
        cases q with
        | nil => exact .inr rfl
        | cons next below => exact .inl rfl
      · cases hsub : es.lookup name with
        | none =>
          left
          rw [look, List.cons_append, at?_dir_cons, hsub]
          rfl
        | some sub =>
          rw [hsub, Option.bind_some] at h
          rw [look, List.cons_append, at?_dir_cons, lookup_putEntry, if_pos rfl, Option.bind_some]
          exact ih h
    | file content | link target =>
      rw [amend_cons_of_not_dir rfl]
      exact .inl rfl

end Node

end Corpus
