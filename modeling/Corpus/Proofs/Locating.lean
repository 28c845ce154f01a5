/-
Corpus/Proofs/Locating.lean

Where the files of a folder are said to be.

The walk knows a file by its place, a list of names.  An entry writes that place down with slashes
between the names and turns every backslash into a slash,

    bytes of the entry  =  the written place, with slashes for backslashes

(`Folder.encode_entryName`), while the path that is opened keeps them.  So in a tree of names that
are text, two files share an entry iff their written places differ in the kind of slashes only
(`Folder.entryName_eq_iff`), and the root joined with the entry is the path of the file iff no name
on it holds a backslash (`Folder.filePath_eq_iff`).  The path of a file always leads to that file
(`Folder.find_pathOf`).
-/
import Corpus.Proofs.Decoding
import Corpus.Proofs.Listing
import Corpus.Proofs.Naming
import Corpus.Proofs.Walking

namespace Corpus

/-! ### Written places -/

namespace Folder

/-- A place with slashes between its names. -/
def written (place : Place) : Bytes := List.intercalate [Path.separator] place

/-- Slashes stand for backslashes. -/
def slash (b : UInt8) : UInt8 := if b = 92 then Path.separator else b

/-- No name of the place holds a backslash. -/
def IsPlain (place : Place) : Prop := ∀ name ∈ place, (92 : UInt8) ∉ name

theorem written_cons (name : Bytes) (rest : Place) :
    written (name :: rest) = name ++ rest.flatMap (Path.separator :: ·) := by
  induction rest generalizing name with
  | nil => exact List.intercalate_singleton.trans (List.append_nil name).symm
  | cons next rest ih =>
    rw [written, List.intercalate_cons_cons, List.flatMap_cons, List.append_assoc]
    exact congrArg (fun more => name ++ Path.separator :: more) (ih next)

/-- Places of names are told apart by how they are written. -/
theorem written_inj {p q : Place} (hp : p ≠ []) (hq : q ≠ [])
    (hpnames : ∀ name ∈ p, Disk.IsName name) (hqnames : ∀ name ∈ q, Disk.IsName name) :
    written p = written q ↔ p = q := by
  refine ⟨fun h => ?_, fun h => h ▸ rfl⟩
  rw [← List.splitOn_intercalate Path.separator (fun name hname => (hpnames name hname).whole) hp,
    ← List.splitOn_intercalate Path.separator (fun name hname => (hqnames name hname).whole) hq]
  exact congrArg _ h

/-- A written place holds a backslash iff a name does. -/
theorem isPlain_iff (place : Place) : IsPlain place ↔ (92 : UInt8) ∉ written place := by
  cases place with
  | nil => exact iff_of_true nofun List.not_mem_nil
  | cons name rest =>
    rw [written_cons, List.mem_append, List.mem_flatMap, not_or, not_exists, IsPlain,
      List.forall_mem_cons]
    refine and_congr_right fun _ => forall_congr' fun next => ?_
    rw [not_and, List.mem_cons, not_or]
    exact imp_congr_right fun _ => (and_iff_right (by decide)).symm

/-- No backslash is left. -/
theorem not_mem_map_slash (bytes : Bytes) : (92 : UInt8) ∉ bytes.map slash := by
  intro hmem
  obtain ⟨b, -, hb⟩ := List.mem_map.mp hmem
  rw [slash] at hb
  split at hb
  · cases hb
  · contradiction

/-- Writing slashes for backslashes changes exactly the places with backslashes. -/
theorem map_slash_eq_iff (bytes : Bytes) : bytes.map slash = bytes ↔ (92 : UInt8) ∉ bytes := by
  refine ⟨fun h => h ▸ not_mem_map_slash bytes, fun h => ?_⟩
  refine (List.map_congr_left fun b hb => ?_).trans (List.map_id _)
  exact if_neg fun heq : b = 92 => h (heq ▸ hb)

end Folder

/-! ### Entries -/

namespace Text

theorem encode_append (s t : String) : encode (s ++ t) = encode s ++ encode t := by
  rw [encode, String.toList_append, encodeChars, List.flatMap_append]
  rfl

/-- Only the backslash is written with the byte of a backslash. -/
theorem encode_slash (c : Char) :
    String.utf8EncodeChar (if c = '\\' then '/' else c) =
      (String.utf8EncodeChar c).map Folder.slash := by
  split
  · rename_i h
    rw [h]
    rfl
  · rename_i h
    symm
    rw [Folder.map_slash_eq_iff]
    intro hmem
    have hvalue := toNat_of_mem_utf8EncodeChar hmem (by decide)
    refine h ?_
    rw [← Char.ofNat_toNat c, ← hvalue]
    rfl

theorem encodeChars_slash (cs : List Char) :
    encodeChars (cs.map fun c => if c = '\\' then '/' else c) =
      (encodeChars cs).map Folder.slash := by
  rw [encodeChars, encodeChars, List.flatMap_map, List.map_flatMap]
  exact List.flatMap_congr fun c _ => encode_slash c

end Text

namespace Folder

/-- A place whose names are text is written as text. -/
theorem exists_encode_written {place : Place} (h : ∀ name ∈ place, ∃ s, name = Text.encode s) :
    ∃ s, written place = Text.encode s := by
  induction place with
  | nil => exact ⟨"", rfl⟩
  | cons name rest ih =>
    obtain ⟨s, rfl⟩ := h _ List.mem_cons_self
    cases rest with
    | nil => exact ⟨s, written_cons _ _ |>.trans (List.append_nil _)⟩
    | cons next rest =>
      obtain ⟨t, ht⟩ := ih fun name hname => h name (List.mem_cons_of_mem _ hname)
      refine ⟨s ++ "/" ++ t, ?_⟩
      rw [Text.encode_append, Text.encode_append, ← ht, written, List.intercalate_cons_cons]
      rfl

/-- **The bytes of an entry.** -/
theorem encode_entryName {place : Place} (h : ∀ name ∈ place, ∃ s, name = Text.encode s) :
    Text.encode (entryName place) = (written place).map slash := by
  obtain ⟨s, hs⟩ := exists_encode_written h
  -- the place is read as text, and no byte of it is lost by that
  have hname : entryName place =
      String.ofList (s.toList.map fun c => if c = '\\' then '/' else c) := by
    rw [entryName]
    change String.ofList ((Text.decodeLossy (written place)).toList.map _) = _
    rw [hs, Text.decodeLossy_encode]
  rw [hname, Text.encode, String.toList_ofList, Text.encodeChars_slash, hs]
  rfl

/-- Two files share an entry iff their written places differ in the kind of slashes only. -/
theorem entryName_eq_iff {p q : Place} (hp : ∀ name ∈ p, ∃ s, name = Text.encode s)
    (hq : ∀ name ∈ q, ∃ s, name = Text.encode s) :
    entryName p = entryName q ↔ (written p).map slash = (written q).map slash := by
  rw [← encode_entryName hp, ← encode_entryName hq]
  exact ⟨fun h => congrArg Text.encode h, fun h => Text.encode_inj.mp h⟩

/-- The entry of a plain place is the written place. -/
theorem encode_entryName_of_isPlain {place : Place} (hplain : IsPlain place)
    (h : ∀ name ∈ place, ∃ s, name = Text.encode s) :
    Text.encode (entryName place) = written place :=
  (encode_entryName h).trans ((map_slash_eq_iff _).mpr ((isPlain_iff place).mp hplain))

/-- Plain places have entries of their own. -/
theorem entryName_inj {p q : Place} (hp : p ≠ []) (hq : q ≠ [])
    (hpnames : ∀ name ∈ p, Disk.IsName name ∧ ∃ s, name = Text.encode s)
    (hqnames : ∀ name ∈ q, Disk.IsName name ∧ ∃ s, name = Text.encode s)
    (hpplain : IsPlain p) (hqplain : IsPlain q) (h : entryName p = entryName q) : p = q := by
  rw [← written_inj hp hq (fun name hname => (hpnames name hname).1)
      fun name hname => (hqnames name hname).1,
    ← encode_entryName_of_isPlain hpplain fun name hname => (hpnames name hname).2,
    ← encode_entryName_of_isPlain hqplain fun name hname => (hqnames name hname).2, h]

end Folder

/-! ### Paths -/

/-- What is joined begins with the second path, whatever follows in that. -/
theorem joinWritten_append {α : Type} [BEq α] (separator : α) (base : List α) {entry : List α}
    (h : entry ≠ []) (more : List α) :
    joinWritten separator base (entry ++ more) = joinWritten separator base entry ++ more := by
  have hhead : (entry ++ more).head? = entry.head? := List.head?_append_of_ne_nil _ h
  rw [joinWritten, joinWritten, hhead]
  split
  · rfl
  · split
    · exact (List.append_assoc _ _ _).symm
    · exact (List.append_assoc _ (separator :: entry) _).symm

/-- What is joined ends as the second path does. -/
theorem joinWritten_getLast? {α : Type} [BEq α] (separator : α) (base : List α) {entry : List α}
    (h : entry ≠ []) : (joinWritten separator base entry).getLast? = entry.getLast? := by
  rw [joinWritten]
  split
  · rfl
  · split
    · exact List.getLast?_append_of_ne_nil _ h
    · exact (List.getLast?_append_of_ne_nil _ (List.cons_ne_nil _ _)).trans
        (List.getLast?_cons_of_ne_nil h)

namespace Text

/-- Only the separator is written with the byte of a separator. -/
theorem separator_mem_encodeChar_iff {c : Char} :
    Path.separator ∈ String.utf8EncodeChar c ↔ c = '/' := by
  refine ⟨fun h => ?_, fun h => h ▸ List.mem_singleton.mpr rfl⟩
  have hone : Path.separator ∈ encodeChars [c] := List.mem_flatMap.mpr ⟨c, by simp, h⟩
  exact (List.mem_singleton.mp (mem_of_separator_mem_encodeChars hone)).symm

theorem head?_encodeChars (cs : List Char) :
    (encodeChars cs).head? = some Path.separator ↔ cs.head? = some '/' := by
  cases cs with
  | nil => exact iff_of_false nofun nofun
  | cons c rest =>
    rw [encodeChars, List.flatMap_cons, List.head?_append_of_ne_nil _ String.utf8EncodeChar_ne_nil,
      List.head?_cons, Option.some.injEq, ← separator_mem_encodeChar_iff]
    refine ⟨List.mem_of_head?, fun h => ?_⟩
    rw [separator_mem_encodeChar_iff.mp h]
    rfl

theorem getLast?_encodeChars (cs : List Char) :
    (encodeChars cs).getLast? = some Path.separator ↔ cs.getLast? = some '/' := by
  rcases List.eq_nil_or_concat cs with rfl | ⟨front, c, rfl⟩
  · exact iff_of_false nofun nofun
  · rw [encodeChars, List.concat_eq_append, List.flatMap_append, List.flatMap_singleton,
      List.getLast?_append_of_ne_nil _ String.utf8EncodeChar_ne_nil, List.getLast?_concat,
      Option.some.injEq, ← separator_mem_encodeChar_iff]
    refine ⟨List.mem_of_getLast?, fun h => ?_⟩
    rw [separator_mem_encodeChar_iff.mp h]
    rfl

/-- Text is joined as its bytes are. -/
theorem encode_joinWritten (base entry : List Char) :
    encodeChars (joinWritten '/' base entry) =
      joinWritten Path.separator (encodeChars base) (encodeChars entry) := by
  have hhead : ((encodeChars entry).head? == some Path.separator) =
      (entry.head? == some '/') := by
    rw [Bool.eq_iff_iff, beq_iff_eq, beq_iff_eq]
    exact head?_encodeChars entry
  have hlast : ((encodeChars base).getLast? == some Path.separator) =
      (base.getLast? == some '/') := by
    rw [Bool.eq_iff_iff, beq_iff_eq, beq_iff_eq]
    exact getLast?_encodeChars base
  have hempty : (encodeChars base).isEmpty = base.isEmpty := by
    cases base with
    | nil => rfl
    | cons c rest => simp [encodeChars, String.utf8EncodeChar_ne_nil]
  rw [joinWritten, joinWritten, hhead, hlast, hempty]
  split
  · rfl
  · split
    · exact List.flatMap_append
    · exact List.flatMap_append

end Text

namespace Path

/-- How the path of an entry is written whose directory's path does not end in a separator. -/
theorem bytes_child_of_getLast? {p : Path} {name : Bytes} (hp : p.bytes ≠ [])
    (hlast : p.bytes.getLast? ≠ some separator) (hname : Disk.IsName name) :
    (p.child name).bytes = p.bytes ++ separator :: name := by
  rcases Disk.bytes_child hp hname with ⟨front, hfront, -⟩ | hbytes
  · rw [hfront, List.getLast?_concat] at hlast
    exact absurd rfl hlast
  · exact hbytes

/-- The path of a place below such a directory. -/
theorem bytes_foldl_child (place : Place) :
    ∀ p : Path, p.bytes ≠ [] → p.bytes.getLast? ≠ some separator →
      (∀ name ∈ place, Disk.IsName name) →
      (place.foldl child p).bytes = p.bytes ++ place.flatMap (separator :: ·) := by
  -- no name ends in a separator, so none of the paths on the way does either
  induction place with
  | nil => exact fun p _ _ _ => (List.append_nil _).symm
  | cons name rest ih =>
    intro p hp hlast hnames
    have hname := hnames name List.mem_cons_self
    have hbytes := bytes_child_of_getLast? hp hlast hname
    have hnext : (p.child name).bytes.getLast? = name.getLast? :=
      joinWritten_getLast? separator p.bytes hname.nonempty
    have hends : (p.child name).bytes.getLast? ≠ some separator := by
      rw [hnext]
      exact fun h => hname.whole (List.mem_of_getLast? h)
    rw [List.foldl_cons, ih (p.child name) (by simp [hbytes]) hends
      fun other hother => hnames other (List.mem_cons_of_mem _ hother), hbytes, List.flatMap_cons,
      List.append_assoc]

end Path

namespace Folder

/-- The path of a place is the root joined with the written place. -/
theorem bytes_pathOf (root : Path) {place : Place} (hplace : place ≠ [])
    (hnames : ∀ name ∈ place, Disk.IsName name) :
    (pathOf root place).bytes = joinWritten Path.separator root.bytes (written place) := by
  cases place with
  | nil => exact absurd rfl hplace
  | cons name rest =>
    have hname := hnames name List.mem_cons_self
    have hlast : (root.child name).bytes.getLast? = name.getLast? :=
      joinWritten_getLast? Path.separator root.bytes hname.nonempty
    have hends : (root.child name).bytes.getLast? ≠ some Path.separator := by
      rw [hlast]
      exact fun h => hname.whole (List.mem_of_getLast? h)
    have hsome : (root.child name).bytes ≠ [] := by
      intro hempty
      rw [hempty] at hlast
      exact hname.nonempty (List.getLast?_eq_none_iff.mp hlast.symm)
    rw [written_cons, joinWritten_append _ _ hname.nonempty]
    exact Path.bytes_foldl_child rest (root.child name) hsome hends
      fun other hother => hnames other (List.mem_cons_of_mem _ hother)

/-- The file path of an entry is the root joined with the entry. -/
theorem encode_filePath (root entry : String) :
    Text.encode ((⟨.folder, root⟩ : Provenance).filePath entry) =
      joinWritten Path.separator (Text.encode root) (Text.encode entry) :=
  (congrArg Text.encodeChars String.toList_ofList).trans (Text.encode_joinWritten _ _)

/-- Joined with a root, a place and its entry are the same iff there is no backslash. -/
theorem joinWritten_slash_iff (base : Bytes) {place : Bytes}
    (hhead : place.head? ≠ some Path.separator) :
    joinWritten Path.separator base (place.map slash) = joinWritten Path.separator base place ↔
      (92 : UInt8) ∉ place := by
  refine ⟨fun h hmem => ?_, fun h => by rw [(map_slash_eq_iff _).mpr h]⟩
  have hrelative : ¬ (place.head? == some Path.separator) = true := by simpa using hhead
  rw [joinWritten, joinWritten, if_neg hrelative] at h
  split at h
  · -- the entry is absolute, so the joined path holds no backslash
    refine not_mem_map_slash place ?_
    rw [h]
    split
    · exact List.mem_append_right base hmem
    · exact List.mem_append_right base (List.mem_cons_of_mem _ hmem)
  · have hsame : place.map slash = place := by
      split at h
      · exact List.append_cancel_left h
      · exact (List.cons.inj (List.append_cancel_left h)).2
    exact (map_slash_eq_iff place).mp hsame hmem

/-- **The file path of a file** is the path that was opened iff no name on it holds a
backslash. -/
theorem filePath_eq_iff (root : String) {place : Place} (hplace : place ≠ [])
    (hnames : ∀ name ∈ place, Disk.IsName name)
    (htext : ∀ name ∈ place, ∃ s, name = Text.encode s) :
    Text.encode ((⟨.folder, root⟩ : Provenance).filePath (entryName place)) =
      (pathOf (.ofText root) place).bytes ↔ IsPlain place := by
  have hhead : (written place).head? ≠ some Path.separator := by
    obtain ⟨name, rest, rfl⟩ := List.exists_cons_of_ne_nil hplace
    have hname := hnames name List.mem_cons_self
    rw [written_cons, List.head?_append_of_ne_nil _ hname.nonempty]
    exact fun h => hname.whole (List.mem_of_head? h)
  rw [encode_filePath, bytes_pathOf _ hplace hnames, encode_entryName htext, isPlain_iff]
  exact joinWritten_slash_iff (Text.encode root) hhead

end Folder

/-! ### Legible trees -/

/-- The name is one of text that the system takes. -/
structure Disk.IsLegible (name : Bytes) : Prop extends Disk.IsName name where
  text : ∃ s, name = Text.encode s
  short : name.length ≤ Disk.maxName
  nonzero : (0 : UInt8) ∉ name

/-- The name is one that the system takes for an entry. -/
structure Disk.IsEntry (name : Bytes) : Prop extends Disk.IsName name where
  short : name.length ≤ Disk.maxName

theorem Disk.IsLegible.isEntry {name : Bytes} (h : Disk.IsLegible name) : Disk.IsEntry name :=
  ⟨h.toIsName, h.short⟩

/-- Every directory of the tree lists names that the system takes, each of them once. -/
structure Node.Lawful (n : Node) : Prop where
  distinct : n.Distinct
  names : ∀ place es, n.at? place = some (.dir es) → ∀ e ∈ es, Disk.IsEntry e.1

/-- Every directory of the tree lists legible names, each of them once. -/
structure Node.Legible (n : Node) : Prop where
  distinct : n.Distinct
  names : ∀ place es, n.at? place = some (.dir es) → ∀ e ∈ es, Disk.IsLegible e.1

namespace Node.Legible

variable {es : List (Bytes × Node)}

theorem child (h : (Node.dir es).Legible) {name : Bytes} {c : Node} (hmem : (name, c) ∈ es) :
    c.Legible :=
  ⟨h.distinct.child hmem, fun place entries hat =>
    h.names (name :: place) entries (h.distinct.at?_cons_iff.mpr ⟨c, hmem, hat⟩)⟩

/-- What is no directory holds no names. -/
theorem leaf {n : Node} (h : n.isDir = false) : n.Legible := by
  have hnone : ∀ place es, n.at? place ≠ some (.dir es) := by
    intro place es hat
    cases n with
    | dir _ => cases h
    | file _ | link _ => cases place <;> cases hat
  exact ⟨fun place es hat => absurd hat (hnone place es),
    fun place es hat => absurd hat (hnone place es)⟩

theorem file (content : Bytes) : (Node.file content).Legible := leaf rfl

/-- A directory of legible nodes under different legible names is legible. -/
theorem dir (hnodup : (es.map (·.1)).Nodup) (hnames : ∀ e ∈ es, Disk.IsLegible e.1)
    (hnodes : ∀ e ∈ es, e.2.Legible) : (Node.dir es).Legible := by
  have hbelow : ∀ name rest entries, (Node.dir es).at? (name :: rest) = some (.dir entries) →
      ∃ e ∈ es, e.2.at? rest = some (.dir entries) := by
    intro name rest entries hat
    rw [at?_dir_cons, Option.bind_eq_some_iff] at hat
    obtain ⟨c, hc, hat⟩ := hat
    exact ⟨(name, c), (lookup_eq_some_iff hnodup).mp hc, hat⟩
  constructor
  · rintro (_ | ⟨name, rest⟩) entries hat
    · cases hat
      exact hnodup
    · obtain ⟨e, he, hat⟩ := hbelow name rest entries hat
      exact (hnodes e he).distinct rest entries hat
  · rintro (_ | ⟨name, rest⟩) entries hat
    · cases hat
      exact hnames
    · obtain ⟨e, he, hat⟩ := hbelow name rest entries hat
      exact (hnodes e he).names rest entries hat

/-- The names on the way to a node are legible. -/
theorem of_at? {n c : Node} {place : Place} (h : n.Legible) (hat : n.at? place = some c) :
    ∀ name ∈ place, Disk.IsLegible name :=
  forall_name_of_at? h.names hat

theorem lawful {n : Node} (h : n.Legible) : n.Lawful :=
  ⟨h.distinct, fun place es hat e he => (h.names place es hat e he).isEntry⟩

end Node.Legible

/-- The names on the way to a node are such as the system takes. -/
theorem Node.Lawful.of_at? {n c : Node} {place : Place} (h : n.Lawful)
    (hat : n.at? place = some c) : ∀ name ∈ place, Disk.IsEntry name :=
  forall_name_of_at? h.names hat

namespace Disk

variable {d : Disk}

/-- Names lead from a directory down to the file that stands below it. -/
theorem find_foldl_child {content : Bytes} : ∀ (place : Place) {p : Path} {q : Place},
    d.Opens p q → place ≠ [] → (∀ name ∈ place, IsEntry name) →
      d.root.at? (q ++ place) = some (.file content) →
      (0 : UInt8) ∉ (place.foldl Path.child p).bytes →
      (place.foldl Path.child p).bytes.length < 4096 →
      d.find true (place.foldl Path.child p) = .ok (q ++ place, .file content)
  | [], _, _, _, hplace, _, _, _, _ => absurd rfl hplace
  | [name], p, q, hopen, _, hnames, hat, hzero, hshort => by
    have hname := hnames name List.mem_cons_self
    rw [List.foldl_cons, List.foldl_nil] at hzero hshort
    have hnofault : pathFault? (p.child name) name = none :=
      pathFault?_eq_none_iff.mpr ⟨by simpa using hzero, hshort, hname.short⟩
    rw [find_eq_ok, List.foldl_cons, List.foldl_nil,
      resolve_child hopen hname.toIsName fun _ target => by rw [hat]; simp, hnofault, hat]
    rfl
  | name :: next :: rest, p, q, hopen, _, hnames, hat, hzero, hshort => by
    have hname := hnames name List.mem_cons_self
    have hsplit : q ++ name :: next :: rest = (q ++ [name]) ++ next :: rest := by simp
    rw [hsplit, Node.at?_append, Option.bind_eq_some_iff] at hat
    obtain ⟨n, hdir, hbelow⟩ := hat
    -- only a directory has something below it
    cases n with
    | dir es =>
      rw [hsplit]
      refine find_foldl_child (next :: rest) (hopen.child hname.toIsName hname.short hdir)
        (List.cons_ne_nil _ _) (fun other hother => hnames other (List.mem_cons_of_mem _ hother))
        ?_ hzero hshort
      rw [Node.at?_append, hdir, Option.bind_some]
      exact hbelow
    | file text => cases hbelow
    | link target => cases hbelow

end Disk

namespace Folder

/-- A byte that is no separator is written only where a name holds it. -/
theorem mem_written {b : UInt8} {place : Place} (h : b ∈ written place) :
    b = Path.separator ∨ ∃ name ∈ place, b ∈ name := by
  cases place with
  | nil => cases h
  | cons name rest =>
    rw [written_cons, List.mem_append, List.mem_flatMap] at h
    rcases h with hfirst | ⟨next, hnext, hmem⟩
    · exact .inr ⟨name, List.mem_cons_self, hfirst⟩
    · rcases List.mem_cons.mp hmem with hseparator | hbyte
      · exact .inl hseparator
      · exact .inr ⟨next, List.mem_cons_of_mem _ hnext, hbyte⟩

/-- **The path of a file** leads to that file, unless it is too long to be followed. -/
theorem find_pathOf {d : Disk} {root : Path} {top place : Place} {es : List (Bytes × Node)}
    {content : Bytes} (hroot : d.find true root = .ok (top, .dir es)) (hplace : place ≠ [])
    (hnames : ∀ name ∈ place, Disk.IsLegible name)
    (hat : (Node.dir es).at? place = some (.file content))
    (hshort : (pathOf root place).bytes.length < 4096) :
    d.find true (pathOf root place) = .ok (top ++ place, .file content) := by
  have hzero : (0 : UInt8) ∉ (pathOf root place).bytes := by
    have hrootzero := (Disk.walk_of_resolve (Disk.find_eq_ok.mp hroot)).1
    rw [bytes_pathOf root hplace fun name hname => (hnames name hname).toIsName]
    intro hmem
    have hsomewhere : (0 : UInt8) ∈ root.bytes ∨ (0 : UInt8) ∈ written place := by
      rw [joinWritten] at hmem
      split at hmem
      · exact .inr hmem
      · split at hmem
        · exact List.mem_append.mp hmem
        · have hbyte : (0 : UInt8) ≠ Path.separator := by decide
          exact (List.mem_append.mp hmem).imp_right fun h =>
            (List.mem_cons.mp h).resolve_left hbyte
    rcases hsomewhere with hroot' | hwritten
    · rw [List.contains_eq_mem, decide_eq_false_iff_not] at hrootzero
      exact hrootzero hroot'
    · rcases mem_written hwritten with hseparator | ⟨name, hname, hbyte⟩
      · cases hseparator
      · exact (hnames name hname).nonzero hbyte
  refine Disk.find_foldl_child place (Disk.opens_of_find hroot) hplace
    (fun name hname => (hnames name hname).isEntry) ?_ hzero hshort
  rw [Node.at?_append, Disk.at?_of_find hroot, Option.bind_some]
  exact hat

end Folder

end Corpus
