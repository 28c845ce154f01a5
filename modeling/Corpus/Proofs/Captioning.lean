/-
Corpus/Proofs/Captioning.lean

What stands for the text of an image.

An image has no text of its own, and gets a caption that names the file it was read from.  A folder
reads the file itself, while an archive unpacks its entry into a scratch file first, so that

    caption of a folder    =  Image file: <last name of the entry>
    caption of an archive  =  Image file: entry-<number of the entry>.<extension>

(`captions_name_files_read`).  The caption of an archive tells an entry by its number alone, so it
names the entry only where that is named like its own scratch file; a photo in an archive is not
found by its name (`packed_image_named_by_number`).
-/
import Corpus.Proofs.Packing

namespace Corpus

/-! ### The last name of a path -/

namespace Path

variable {p : Path} {name : Bytes}

theorem Component.ofPart_name (hname : Disk.IsName name) :
    Component.ofPart name = some (.name name) := by
  have hempty : name.isEmpty = false := by simpa using hname.nonempty
  have hhere : (name == [46]) = false := by simpa using hname.notHere
  have hup : (name == [46, 46]) = false := by simpa using hname.notUp
  rw [Component.ofPart, hempty, hhere, hup]
  rfl

/-- A name behind the parts of a path is one step behind its steps; an empty part is none. -/
theorem components_of_parts {q : Path} {front : List Bytes} (hname : Disk.IsName name)
    (habsolute : q.isAbsolute = p.isAbsolute) (hfront : front ≠ [])
    (hparts : p.parts = front ∨ p.parts = front ++ [[]]) (hparts' : q.parts = front ++ [name]) :
    q.components = p.components ++ [.name name] := by
  have hempty : Component.ofPart [] = none := rfl
  rw [components, components, habsolute, hparts']
  split
  · rcases hparts with h | h <;> simp [h, Component.ofPart_name hname, hempty]
  · obtain ⟨first, rest, rfl⟩ := List.exists_cons_of_ne_nil hfront
    rcases hparts with h | h <;> simp [h, Component.ofPart_name hname, hempty]

/-- The steps of the path of an entry are those of the directory and the name of the entry. -/
theorem components_child (p : Path) (hname : Disk.IsName name) :
    (p.child name).components = p.components ++ [.name name] := by
  have hsplit : ∀ front : Bytes, (front ++ separator :: name).splitOn separator =
      front.splitOn separator ++ [name] := by
    intro front
    rw [List.splitOn_append_cons_self, List.splitOn_eq_singleton hname.whole]
  by_cases hp : p.bytes = []
  · have hhead : (name.head? == some separator) = false := by
      rw [beq_eq_false_iff_ne]
      exact fun h => hname.whole (List.mem_of_head? h)
    have hhere : (name == [46]) = false := by simpa using hname.notHere
    have hbytes : (p.child name).bytes = name := by
      rw [child, join, joinWritten, hp, hhead]
      rfl
    have hchild : (p.child name).components = [.name name] := by
      rw [components, isAbsolute, parts, hbytes, hhead, List.splitOn_eq_singleton hname.whole]
      show (if name == [46] then _ else _) ++ _ = _
      rw [hhere, Component.ofPart_name hname]
      rfl
    have hnone : p.components = [] := by
      rw [components, isAbsolute, parts, hp]
      rfl
    rw [hchild, hnone, List.nil_append]
  · have habsolute := Disk.isAbsolute_child hp hname
    -- a separator stands in front of the name, put there or the last one of the path
    rcases Disk.bytes_child hp hname with ⟨front, hfront, hbytes⟩ | hbytes
    · refine components_of_parts hname habsolute (List.splitOn_ne_nil separator front) (.inr ?_) ?_
      · rw [parts, hfront, List.splitOn_append_cons_self]
        rfl
      · rw [parts, hbytes, hsplit]
    · refine components_of_parts hname habsolute (List.splitOn_ne_nil separator p.bytes)
        (.inl rfl) ?_
      rw [parts, hbytes, hsplit]

/-- The path of an entry ends in the name of the entry. -/
theorem fileName?_child (p : Path) (hname : Disk.IsName name) :
    (p.child name).fileName? = some name := by
  rw [fileName?, components_child p hname, List.getLast?_concat]

end Path

/-! ### Captions -/

/-- The text of an image: the name of a file. -/
def caption (name : String) : String := "Image file: " ++ name

theorem isBlankText_caption (name : String) : Text.isBlankText (caption name) = false := by
  rw [Text.isBlankText, caption, String.toList_append]
  rfl

theorem caption_inj {first second : String} : caption first = caption second ↔ first = second := by
  refine ⟨fun h => ?_, fun h => h ▸ rfl⟩
  have hlists := congrArg String.toList h
  rw [caption, caption, String.toList_append, String.toList_append] at hlists
  exact String.toList_inj.mp (List.append_cancel_left hlists)

/-- No image is read as plain text. -/
theorem not_plain_of_image {extension : String} (h : imageTypes.contains extension = true) :
    plainTypes.contains extension = false := by
  have hall : ∀ e ∈ imageTypes, plainTypes.contains e = false := by decide
  exact hall extension (List.contains_iff_mem.mp h)

/-- An image is not even opened: its text is the caption of its path. -/
theorem TextExtractor.extract_image (x : TextExtractor) (d : Disk) {path : Path} {name : Bytes}
    {extension : String} (himage : imageTypes.contains extension = true)
    (hname : path.fileName? = some name) :
    x.extract d path extension = .ok (caption (Text.decodeLossy name)) := by
  have hraw : x.rawText d path extension = .ok (caption (Text.decodeLossy name)) := by
    rw [rawText, not_plain_of_image himage, if_neg Bool.false_ne_true, if_pos himage, hname]
    rfl
  rw [extract, hraw]
  dsimp only
  rw [isBlankText_caption]
  rfl

/-! ### Images of archives -/

/-- Entries that are worked off and what becomes of them, on one disk or another. -/
theorem Production.worked_spec {α : Type} (work : Disk → α → Event × Disk) (entries : List α) :
    ∀ d, (∀ e ∈ worked work entries d, ∃ a ∈ entries, ∃ d', e = (work d' a).1) ∧
      ∀ a ∈ entries, ∃ d', (work d' a).1 ∈ worked work entries d := by
  induction entries with
  | nil => exact fun d => ⟨nofun, nofun⟩
  | cons first rest ih =>
    intro d
    obtain ⟨hfrom, hto⟩ := ih (work d first).2
    constructor
    · intro e he
      rcases List.mem_cons.mp he with rfl | he
      · exact ⟨first, List.mem_cons_self, d, rfl⟩
      · obtain ⟨a, ha, d', hd'⟩ := hfrom e he
        exact ⟨a, List.mem_cons_of_mem first ha, d', hd'⟩
    · intro a ha
      rcases List.mem_cons.mp ha with rfl | ha
      · exact ⟨d, List.mem_cons_self⟩
      · obtain ⟨d', hd'⟩ := hto a ha
        exact ⟨d', List.mem_cons_of_mem _ hd'⟩

namespace Archive

/-- The name of the scratch file of an entry with an extension. -/
def scratchName (index : Nat) (extension : String) : String :=
  "entry-" ++ toString index ++ "." ++ extension

/-- No part of the name of a scratch file is a slash. -/
theorem slash_not_mem_scratchName (index : Nat) {extension : String}
    (hextension : '/' ∉ extension.toList) : '/' ∉ (scratchName index extension).toList := by
  have hindex : '/' ∉ (toString index).toList := by
    intro hmem
    rw [Nat.toString_eq_ofList_toDigits, String.toList_ofList] at hmem
    exact absurd (Nat.isDigit_of_mem_toDigits (by decide) (by decide) hmem) (by decide)
  rw [scratchName, String.toList_append, String.toList_append, String.toList_append]
  simp only [List.mem_append, not_or]
  exact ⟨⟨⟨by decide, hindex⟩, by decide⟩, hextension⟩

/-- The path of the scratch file of an image ends in its name. -/
theorem fileName?_scratchPath (dir : Path) (index : Nat) {extension : String}
    (himage : imageTypes.contains extension = true) :
    (scratchPath dir index extension).fileName? =
      some (Text.encode (scratchName index extension)) := by
  have hsome : extension.isEmpty = false := by
    have hall : ∀ e ∈ imageTypes, e.isEmpty = false := by decide
    exact hall extension (List.contains_iff_mem.mp himage)
  have hwhole : '/' ∉ extension.toList := by
    have hall : ∀ e ∈ imageTypes, '/' ∉ e.toList := by decide
    exact hall extension (List.contains_iff_mem.mp himage)
  -- too long a name to be `.` or `..`
  have hlong : 3 ≤ (scratchName index extension).toList.length := by
    rw [scratchName, String.toList_append, String.toList_append, String.toList_append,
      List.length_append, List.length_append, List.length_append]
    show 3 ≤ 6 + _ + _ + _
    omega
  have hchild : scratchPath dir index extension =
      dir.child (Text.encode (scratchName index extension)) := by
    rw [scratchPath, hsome]
    rfl
  rw [hchild]
  exact Path.fileName?_child dir
    (Text.isName_encode (slash_not_mem_scratchName index hwhole) hlong)

namespace Packed

/-- The entry is an image. -/
def IsImage (p : Packed) : Prop := imageTypes.contains p.extension = true

/-- The record of an entry, whose text is that of its scratch file if it is an image. -/
def Gives (p : Packed) (r : Record) : Prop :=
  r = recordOf p.entry r.text ∧
    (p.IsImage → r.text = caption (scratchName p.index p.extension))

end Packed

variable {filter : EntryFilter} {extractor : TextExtractor} {entries : List Zip.Entry}

/-- **One entry.**  It gives its record, or a failure; an image that was unpacked never fails. -/
theorem unpack_gives (extractor : TextExtractor) (scratch : Path) (d : Disk) (p : Packed) :
    (∃ r, (unpack extractor scratch d p).1 = .record r ∧ p.Gives r) ∨
      ∃ reason, (unpack extractor scratch d p).1 = .failed p.entry.name reason ∧
        (p.IsImage → ∃ cause, reason = unpackFailure ++ cause) := by
  rcases unpack_cases extractor scratch d p with ⟨d', hunpack⟩ | ⟨cause, hunpack⟩
  · -- an image gets its caption whatever its bytes are, anything else may have no text
    rw [hunpack, extractScratch]
    by_cases himage : p.IsImage
    · have hname := fileName?_scratchPath scratch p.index himage
      rw [extractor.extract_image d' himage hname, Text.decodeLossy_encode]
      exact .inl ⟨_, rfl, rfl, fun _ => rfl⟩
    · cases extractor.extract d' (scratchPath scratch p.index p.extension) p.extension with
      | ok text => exact .inl ⟨_, rfl, rfl, fun h => absurd h himage⟩
      | error e => exact .inr ⟨_, rfl, fun h => absurd h himage⟩
  · exact .inr ⟨_, hunpack, fun _ => ⟨cause, rfl⟩⟩

/-- An entry is unpacked iff it is no directory and the filter lets it through. -/
theorem classify?_eq_inr_iff {entry : Zip.Entry} {index : Nat} {p : Packed} :
    classify? filter entry index = some (.inr p) ↔ entry = p.entry ∧ index = p.index ∧
      entry.isDir = false ∧ filter.eligible? entry.name = some p.extension := by
  obtain ⟨index', entry', extension'⟩ := p
  rw [classify?]
  cases entry.isDir with
  | true => simp
  | false =>
    cases filter.eligible? entry.name with
    | none => simp
    | some extension =>
      simp only [Bool.false_eq_true, if_false, Option.some.injEq, Sum.inr.injEq,
        Packed.mk.injEq, true_and]
      exact and_left_comm

/-- The archive lists the entry at that index, as a file that the filter lets through. -/
structure Packed.Listed (filter : EntryFilter) (entries : List Zip.Entry) (p : Packed) : Prop where
  entry : entries[p.index]? = some p.entry
  file : p.entry.isDir = false
  eligible : filter.eligible? p.entry.name = some p.extension

/-- What is unpacked is what is listed. -/
theorem mem_eligible {p : Packed} :
    p ∈ Production.eligible (listing filter entries) ↔ p.Listed filter entries := by
  rw [Production.eligible, listing, List.filterMap_filterMap, List.mem_filterMap]
  constructor
  · rintro ⟨⟨entry, index⟩, hmem, hsome⟩
    have hclass : classify? filter entry index = some (.inr p) := by
      obtain ⟨item, hclass, hitem⟩ := Option.bind_eq_some_iff.mp hsome
      cases item with
      | inl e => cases hitem
      | inr q =>
        cases hitem
        exact hclass
    obtain ⟨rfl, rfl, hfile, heligible⟩ := classify?_eq_inr_iff.mp hclass
    exact ⟨List.mem_zipIdx_iff_getElem?.mp hmem, hfile, heligible⟩
  · rintro ⟨hat, hfile, heligible⟩
    refine ⟨(p.entry, p.index), List.mem_zipIdx_iff_getElem?.mpr hat, ?_⟩
    dsimp only
    rw [classify?_eq_inr_iff.mpr ⟨rfl, rfl, hfile, heligible⟩]
    rfl

/-- **The entries of an archive.**  Every record is that of an eligible entry.  If the scratch
directory can be made, every eligible entry has its record or a failure, and an image fails only if
it cannot be unpacked. -/
theorem gives_of_read (filter : EntryFilter) (extractor : TextExtractor) {d : Disk}
    {archive scratch : Path} {content : Bytes} (hread : d.read archive = .ok content)
    (hzip : Zip.read? content = some entries) :
    ∃ source d', openSource filter extractor d archive scratch = .ok (source, d') ∧
      (∀ r, .record r ∈ source.events →
        ∃ p ∈ Production.eligible (listing filter entries), p.Gives r) ∧
      ((d.makeDirs scratch).1 = .ok () →
        ∀ p ∈ Production.eligible (listing filter entries),
          (∃ r, .record r ∈ source.events ∧ p.Gives r) ∨
            ∃ reason, .failed p.entry.name reason ∈ source.events ∧
              (p.IsImage → ∃ cause, reason = unpackFailure ++ cause)) := by
  obtain ⟨source, d', hopen, hevents⟩ := events_of_read filter extractor hread hzip
  refine ⟨source, d', hopen, ?_, ?_⟩
  · intro r hr
    have hresult : .record r ∈ Production.results (listing filter entries) (prepare scratch)
        (unpack extractor scratch) d := by
      rw [hevents, List.mem_append, List.mem_cons] at hr
      rcases hr with hover | hannounced | hresult
      · -- nothing but skipped entries is passed over
        have hquiet := Production.quiet_passedOver (fun _ => skipped_of_mem_listing) _ hover
        cases hquiet.1
      · cases hannounced
      · exact hresult
    rw [Production.results] at hresult
    generalize prepare scratch d = prepared at hresult
    rcases prepared with ⟨message | _, d₁⟩
    · cases hresult
    · obtain ⟨p, hp, d₂, hgiven⟩ := (Production.worked_spec _ _ d₁).1 _ hresult
      rcases unpack_gives extractor scratch d₂ p with ⟨r', hr', hgives⟩ | ⟨reason, hfailed, -⟩
      · cases hgiven.trans hr'
        exact ⟨p, hp, hgives⟩
      · cases hgiven.trans hfailed
  · intro hscratch p hp
    obtain ⟨d₁, hprepare⟩ := prepare_of_makeDirs hscratch
    obtain ⟨d₂, hworked⟩ := (Production.worked_spec (unpack extractor scratch)
      (Production.eligible (listing filter entries)) d₁).2 p hp
    have hmem : (unpack extractor scratch d₂ p).1 ∈ source.events := by
      rw [hevents, Production.results, hprepare]
      exact List.mem_append_right _ (List.mem_cons_of_mem _ hworked)
    rcases unpack_gives extractor scratch d₂ p with ⟨r, hr, hgives⟩ | ⟨reason, hfailed, hcause⟩
    · rw [hr] at hmem
      exact .inl ⟨r, hmem, hgives⟩
    · rw [hfailed] at hmem
      exact .inr ⟨reason, hmem, hcause⟩

end Archive

/-! ### Images of folders -/

namespace EntryName

/-- The last name of an entry is what follows its last slash. -/
theorem last_append {name : String} (hname : ∀ c ∈ name.toList, isSeparator c = false)
    (front : String) : last (front ++ "/" ++ name) = name := by
  have hreverse : ((front ++ "/" ++ name).toList.reverse.takeWhile fun c => !isSeparator c) =
      name.toList.reverse := by
    rw [String.toList_append, String.toList_append, List.reverse_append, List.reverse_append,
      List.takeWhile_append_of_pos]
    · show _ ++ (('/' :: front.toList.reverse).takeWhile fun c => !isSeparator c) = _
      rw [List.takeWhile_cons_of_neg (by decide), List.append_nil]
    · intro c hc
      rw [hname c (List.mem_reverse.mp hc)]
      rfl
  rw [last, lastChars, afterLast, hreverse, List.reverse_reverse, String.ofList_toList]

theorem last_of_forall {name : String} (hname : ∀ c ∈ name.toList, isSeparator c = false) :
    last name = name := by
  have hreverse : (name.toList.reverse.takeWhile fun c => !isSeparator c) =
      name.toList.reverse := by
    rw [List.takeWhile_eq_self_iff]
    intro c hc
    rw [hname c (List.mem_reverse.mp hc)]
    rfl
  rw [last, lastChars, afterLast, hreverse, List.reverse_reverse, String.ofList_toList]

end EntryName

namespace Folder

/-- Without a slash or a backslash among its bytes, a name has no separator. -/
theorem isSeparator_of_encode {name : String} (hwhole : Path.separator ∉ Text.encode name)
    (hplain : (92 : UInt8) ∉ Text.encode name) :
    ∀ c ∈ name.toList, EntryName.isSeparator c = false := by
  intro c hc
  have hbytes : ∀ b ∈ String.utf8EncodeChar c, b ∈ Text.encode name := fun b hb =>
    List.mem_flatMap.mpr ⟨c, hc, hb⟩
  have hslash : c ≠ '/' := by
    rintro rfl
    exact hwhole (hbytes 47 (by decide))
  have hbackslash : c ≠ '\\' := by
    rintro rfl
    exact hplain (hbytes 92 (by decide))
  simp [EntryName.isSeparator, hslash, hbackslash]

theorem written_concat (front : Place) (name : Bytes) :
    written (front ++ [name]) =
      if front = [] then name else written front ++ Path.separator :: name := by
  cases front with
  | nil => exact (written_cons name []).trans (List.append_nil name)
  | cons first rest =>
    rw [if_neg (List.cons_ne_nil first rest), List.cons_append, written_cons, written_cons,
      List.flatMap_append, List.flatMap_singleton, List.append_assoc]

/-- The last name of a plain entry is that of its file. -/
theorem last_entryName {front : Place} {name : String}
    (hname : Disk.IsName (Text.encode name))
    (htext : ∀ part ∈ front, ∃ s, part = Text.encode s)
    (hplain : IsPlain (front ++ [Text.encode name])) :
    EntryName.last (entryName (front ++ [Text.encode name])) = name := by
  have hseparator : ∀ c ∈ name.toList, EntryName.isSeparator c = false :=
    isSeparator_of_encode hname.whole
      (hplain (Text.encode name) (List.mem_append_right front (List.mem_singleton_self _)))
  have hall : ∀ part ∈ front ++ [Text.encode name], ∃ s, part = Text.encode s := by
    intro part hpart
    rcases List.mem_append.mp hpart with h | h
    · exact htext part h
    · exact ⟨name, List.mem_singleton.mp h⟩
  have hbytes := encode_entryName_of_isPlain hplain hall
  rw [written_concat] at hbytes
  split at hbytes
  · rw [Text.encode_inj.mp hbytes]
    exact EntryName.last_of_forall hseparator
  · obtain ⟨s, hs⟩ := exists_encode_written htext
    have hentry : entryName (front ++ [Text.encode name]) = s ++ "/" ++ name := by
      apply Text.encode_inj.mp
      rw [hbytes, hs, Text.encode_append, Text.encode_append, List.append_assoc]
      rfl
    rw [hentry]
    exact EntryName.last_append hseparator s

variable {filter : EntryFilter} {extractor : TextExtractor} {d : Disk} {root : String}
  {top : Place} {es : List (Bytes × Node)}

/-- The record of an image in a folder names the file, and so its own entry where that is plain. -/
theorem captions_of_find (filter : EntryFilter) (extractor : TextExtractor)
    (hroot : d.find true (.ofText root) = .ok (top, .dir es)) (hlegible : (Node.dir es).Legible) :
    ∃ source, openSource filter extractor d (.ofText root) = .ok source ∧
      ∀ r, .record r ∈ source.events → ∃ f ∈ (Node.dir es).visibleFiles, ∃ extension,
        filter.eligible? (entryName f.place) = some extension ∧ r.path = entryName f.place ∧
        (imageTypes.contains extension = true → ∃ name,
          f.place.getLast? = some (Text.encode name) ∧ r.text = caption name ∧
          (IsPlain f.place → EntryName.last r.path = name)) := by
  obtain ⟨source, hopen, -, hevents⟩ := openSource_of_find filter extractor hroot
  refine ⟨source, hopen, ?_⟩
  intro r hr
  obtain ⟨c, hc, hrecord⟩ := (mem_settling hevents (.record r)).mp ⟨hr, rfl⟩
  obtain ⟨f, hf, heligible, hcandidate⟩ := mem_eligible.mp hc
  have hgiven : extractor.extract d c.path c.extension = .ok r.text ∧ r.path = c.entry := by
    rw [extract] at hrecord
    split at hrecord
    · rename_i text htext
      cases hrecord
      exact ⟨htext, rfl⟩
    · cases hrecord
  refine ⟨f, hf, c.extension, heligible, ?_, ?_⟩
  · rw [hgiven.2, hcandidate]
  · intro himage
    have hnames := legible_of_mem hlegible hf
    -- a file has a last name, in which its path ends
    obtain ⟨front, last, hplace⟩ : ∃ front last, f.place = front ++ [last] := by
      rcases List.eq_nil_or_concat f.place with hnil | ⟨front, last, hplace⟩
      · exact absurd hnil (Node.place_ne_nil hf)
      · exact ⟨front, last, hplace.trans List.concat_eq_append⟩
    rw [hplace] at hnames
    have hlast := hnames last (List.mem_append_right front (List.mem_singleton_self last))
    obtain ⟨name, rfl⟩ := hlast.text
    have hfile : c.path.fileName? = some (Text.encode name) := by
      rw [hcandidate, pathOf, hplace, List.foldl_append]
      exact Path.fileName?_child _ hlast.toIsName
    refine ⟨name, by rw [hplace, List.getLast?_concat], ?_, ?_⟩
    · have hcaption := extractor.extract_image d himage hfile
      rw [Text.decodeLossy_encode] at hcaption
      exact Except.ok.inj (hgiven.1.symm.trans hcaption)
    · intro hplain
      rw [hgiven.2, hcandidate]
      dsimp only
      rw [hplace] at hplain ⊢
      exact last_entryName hlast.toIsName
        (fun part hpart => (hnames part (List.mem_append_left _ hpart)).text) hplain

end Folder

/-! ### Both -/

/-- **Captions name the file that is read.**  A readable archive gives the image at each index of
its listing the caption of its scratch file, which tells the index and the extension; that is the
name of the entry only for entries named like their own scratch files.  No image that can be
unpacked fails.  A folder of legible names gives each image the caption of the file itself, and so
of its entry where no name holds a backslash. -/
theorem captions_name_files_read (filter : EntryFilter) (extractor : TextExtractor) {d : Disk}
    {archive scratch : Path} {content : Bytes} {entries : List Zip.Entry}
    (hread : d.read archive = .ok content) (hzip : Zip.read? content = some entries) :
    (∃ packed d', Archive.openSource filter extractor d archive scratch = .ok (packed, d') ∧
      (∀ r, .record r ∈ packed.events → ∃ p : Archive.Packed, p.Listed filter entries ∧
        r.path = p.entry.name ∧
        (p.IsImage →
          let number := "entry-" ++ toString p.index ++ "." ++ p.extension
          r.text = "Image file: " ++ number ∧
          (r.text = "Image file: " ++ EntryName.last r.path ↔ EntryName.last r.path = number))) ∧
      ((d.makeDirs scratch).1 = .ok () →
        ∀ p : Archive.Packed, p.Listed filter entries → p.IsImage →
          (∃ r, .record r ∈ packed.events ∧ p.Gives r) ∨
            ∃ cause, .failed p.entry.name (Archive.unpackFailure ++ cause) ∈ packed.events)) ∧
    ∀ root top es, d.find true (.ofText root) = .ok (top, .dir es) → (Node.dir es).Legible →
      ∃ folder, Folder.openSource filter extractor d (.ofText root) = .ok folder ∧
        ∀ r, .record r ∈ folder.events → ∃ f ∈ (Node.dir es).visibleFiles, ∃ extension,
          filter.eligible? (Folder.entryName f.place) = some extension ∧
          r.path = Folder.entryName f.place ∧
          (imageTypes.contains extension = true → Folder.IsPlain f.place →
            r.text = "Image file: " ++ EntryName.last r.path) := by
  refine ⟨?_, ?_⟩
  · obtain ⟨packed, d', hopen, hrecords, hresults⟩ :=
      Archive.gives_of_read filter extractor hread hzip
    refine ⟨packed, d', hopen, ?_, ?_⟩
    · intro r hr
      obtain ⟨p, hp, hrecord, htext⟩ := hrecords r hr
      refine ⟨p, Archive.mem_eligible.mp hp, congrArg Record.path hrecord, ?_⟩
      intro himage number
      have hcaption : r.text = caption number := htext himage
      refine ⟨hcaption, ?_⟩
      rw [hcaption]
      exact caption_inj.trans eq_comm
    · intro hscratch p hp himage
      rcases hresults hscratch p (Archive.mem_eligible.mpr hp) with
        hrecord | ⟨reason, hfailed, hcause⟩
      · exact .inl hrecord
      · obtain ⟨cause, rfl⟩ := hcause himage
        exact .inr ⟨cause, hfailed⟩
  · intro root top es hroot hlegible
    obtain ⟨folder, hopen, hrecords⟩ := Folder.captions_of_find filter extractor hroot hlegible
    refine ⟨folder, hopen, ?_⟩
    intro r hr
    obtain ⟨f, hf, extension, heligible, hpath, htext⟩ := hrecords r hr
    refine ⟨f, hf, extension, heligible, hpath, ?_⟩
    intro himage hplain
    obtain ⟨name, -, hcaption, hlast⟩ := htext himage
    rw [hcaption, hlast hplain]
    rfl

namespace Sample

/-- What stands for a photo. -/
def photo : Bytes := [137, 80, 78, 71]

def album : List (Bytes × Node) := [(Text.encode "photo.png", .file photo)]

/-- An archive of the photo, which is stored as it is. -/
def zippedAlbum : Bytes :=
  [
    80, 75, 3, 4, 20, 0, 0, 0, 0, 0, 0, 0, 33, 0, 165, 190, 235, 91, 4, 0, 0, 0, 4, 0, 0, 0,
    9, 0, 0, 0, 112, 104, 111, 116, 111, 46, 112, 110, 103, 137, 80, 78, 71, 80, 75, 1, 2, 20,
    0, 20, 0, 0, 0, 0, 0, 0, 0, 33, 0, 165, 190, 235, 91, 4, 0, 0, 0, 4, 0, 0, 0, 9, 0, 0, 0,
    0, 0, 0, 0, 0, 0, 0, 0, 128, 1, 0, 0, 0, 0, 112, 104, 111, 116, 111, 46, 112, 110, 103, 80,
    75, 5, 6, 0, 0, 0, 0, 1, 0, 1, 0, 55, 0, 0, 0, 43, 0, 0, 0, 0, 0
  ]

set_option maxRecDepth 100000 in
/-- The archive holds the photo. -/
theorem read_zippedAlbum : ∃ entry, Zip.read? zippedAlbum = some [entry] ∧
    entry.name = "photo.png" ∧ entry.isReadable = true ∧ entry.unpack? = some photo := by
  have hread : (Zip.read? zippedAlbum).map
      (·.map fun e => (e.name, e.isReadable, e.unpack?)) =
        some [("photo.png", true, some photo)] := by
    decide +kernel
  obtain ⟨entries, hentries, hmap⟩ := Option.map_eq_some_iff.mp hread
  obtain ⟨entry, rest, rfl, hentry, hrest⟩ := List.map_eq_cons_iff.mp hmap
  obtain rfl := List.map_eq_nil_iff.mp hrest
  obtain ⟨hname, hreadable⟩ := Prod.mk.inj hentry
  obtain ⟨hreadable, hunpack⟩ := Prod.mk.inj hreadable
  exact ⟨entry, hentries, hname, hreadable, hunpack⟩

/-- The disk once the scratch directory was made. -/
def scratched : Disk :=
  ⟨.dir [(Text.encode "docs", .dir album), (Text.encode "a.zip", .file zippedAlbum),
    (Text.encode "scratch", .dir [])], [], []⟩

set_option maxRecDepth 10000 in
theorem prepare_album :
    Archive.prepare (.ofText "scratch") (both album zippedAlbum) = (.ok (), scratched) := by
  cbv

set_option maxRecDepth 10000 in
theorem write_scratched :
    (scratched.write (Archive.scratchPath (.ofText "scratch") 0 "png") photo).isOk = true := by
  cbv

set_option maxRecDepth 10000 in
theorem eligible_photo : (⟨["png"]⟩ : EntryFilter).eligible? "photo.png" = some "png" := by decide

/-- The archive gives the photo the caption of its scratch file. -/
theorem events_zippedAlbum (extractor : TextExtractor) :
    ∃ entry packed d', Zip.read? zippedAlbum = some [entry] ∧ entry.name = "photo.png" ∧
      entry.isReadable = true ∧
      Archive.openSource ⟨["png"]⟩ extractor (both album zippedAlbum) (.ofText "a.zip")
        (.ofText "scratch") = .ok (packed, d') ∧
      packed.events =
        [.discovered 1, .record (Archive.recordOf entry "Image file: entry-0.png")] := by
  obtain ⟨entry, hzip, hname, hreadable, hunpack⟩ := read_zippedAlbum
  obtain ⟨packed, d', hopen, hevents⟩ :=
    Archive.events_of_read ⟨["png"]⟩ extractor (read_both album zippedAlbum) hzip
  refine ⟨entry, packed, d', hzip, hname, hreadable, hopen, ?_⟩
  have hlisting : Archive.listing ⟨["png"]⟩ [entry] = [.inr ⟨0, entry, "png"⟩] := by
    have hfile : entry.isDir = false := by
      rw [Zip.Entry.isDir, hname]
      decide
    have hclass : Archive.classify? ⟨["png"]⟩ entry 0 = some (.inr ⟨0, entry, "png"⟩) := by
      rw [Archive.classify?, hfile, hname, eligible_photo]
      rfl
    rw [Archive.listing, List.zipIdx_singleton, List.filterMap_cons]
    dsimp only
    rw [hclass]
    rfl
  have hunpacked : (Archive.unpack extractor (.ofText "scratch") scratched ⟨0, entry, "png"⟩).1 =
      .record (Archive.recordOf entry "Image file: entry-0.png") := by
    obtain ⟨d₁, hwrite⟩ : ∃ d₁, scratched.write
        (Archive.scratchPath (.ofText "scratch") 0 "png") photo = .ok d₁ := by
      have hok := write_scratched
      cases hwritten : scratched.write (Archive.scratchPath (.ofText "scratch") 0 "png") photo with
      | ok d₁ => exact ⟨d₁, rfl⟩
      | error fault =>
        rw [hwritten] at hok
        cases hok
    have himage : imageTypes.contains "png" = true := by decide
    have hcaption := extractor.extract_image d₁ himage
      (Archive.fileName?_scratchPath (.ofText "scratch") 0 himage)
    rw [Text.decodeLossy_encode] at hcaption
    rw [Archive.unpack, hreadable, if_pos rfl]
    dsimp only
    rw [hunpack, Option.getD_some, hwrite]
    dsimp only
    rw [Option.isSome_some, if_pos rfl, Archive.extractScratch, hcaption]
    rfl
  rw [hevents, hlisting, Production.results, prepare_album]
  show [Event.discovered 1, (Archive.unpack extractor _ scratched ⟨0, entry, "png"⟩).1] = _
  rw [hunpacked]

theorem legible_album : (Node.dir album).Legible :=
  .dir (List.nodup_singleton _)
    (List.forall_mem_singleton.mpr (legible_encode "photo.png" (by decide)))
    (List.forall_mem_singleton.mpr (.file _))

theorem visible_album : (Node.dir album).visibleFiles = [⟨[Text.encode "photo.png"], photo⟩] := by
  simp [album, Node.visibleFiles, Node.entries, Node.filesOfEach, Node.entryFiles,
    Node.inNameOrder, Node.sortEntries]

theorem entryName_photo : Folder.entryName [Text.encode "photo.png"] = "photo.png" := by cbv

end Sample

/-- One photo, in a folder and in an archive: both give it a caption, and only that of the folder is
its name. -/
theorem captions_name_files_read_album :
    let d := Sample.both Sample.album Sample.zippedAlbum
    let extractor := (Sample.ingestion {} 900).extractor
    (∃ packed d' r, Archive.openSource ⟨["png"]⟩ extractor d (.ofText "a.zip")
        (.ofText "scratch") = .ok (packed, d') ∧
      .record r ∈ packed.events ∧ r.path = "photo.png" ∧ r.text = "Image file: entry-0.png") ∧
    ∃ folder, Folder.openSource ⟨["png"]⟩ extractor d (.ofText "docs") = .ok folder ∧
      ∀ r, .record r ∈ folder.events → r.text = "Image file: " ++ EntryName.last r.path := by
  intro d extractor
  obtain ⟨entry, packed, d', hzip, hname, -, hopen, hevents⟩ := Sample.events_zippedAlbum extractor
  obtain ⟨⟨packed', d₁, hopen', -, hresults⟩, hfolders⟩ :=
    captions_name_files_read ⟨["png"]⟩ extractor
      (Sample.read_both Sample.album Sample.zippedAlbum) hzip
  cases hopen.symm.trans hopen'
  constructor
  · have hlisted : (⟨0, entry, "png"⟩ : Archive.Packed).Listed ⟨["png"]⟩ [entry] := by
      refine ⟨rfl, ?_, ?_⟩
      · show entry.isDir = false
        rw [Zip.Entry.isDir, hname]
        decide
      · show (⟨["png"]⟩ : EntryFilter).eligible? entry.name = some "png"
        rw [hname, Sample.eligible_photo]
    have himage : (⟨0, entry, "png"⟩ : Archive.Packed).IsImage :=
      (by decide : imageTypes.contains "png" = true)
    rcases hresults (Sample.makeDirs_both _ _) _ hlisted himage with
      ⟨r, hr, hrecord, htext⟩ | ⟨cause, hfailed⟩
    · have hnumber : caption (Archive.scratchName 0 "png") = "Image file: entry-0.png" := by decide
      exact ⟨packed, d', r, hopen, hr, (congrArg Record.path hrecord).trans hname,
        (htext himage).trans hnumber⟩
    · rw [hevents] at hfailed
      simp at hfailed
  · obtain ⟨folder, hfolder, hrecords⟩ :=
      hfolders "docs" _ _ (Sample.find_both Sample.album Sample.zippedAlbum) Sample.legible_album
    refine ⟨folder, hfolder, ?_⟩
    intro r hr
    obtain ⟨f, hf, extension, heligible, -, htext⟩ := hrecords r hr
    rw [Sample.visible_album] at hf
    obtain rfl := List.mem_singleton.mp hf
    rw [Sample.entryName_photo, Sample.eligible_photo] at heligible
    cases heligible
    refine htext (by decide) ?_
    rw [Folder.isPlain_iff]
    decide

/-- The photo in the archive is eligible and can be read, and its record names the scratch file
instead of the photo. -/
theorem packed_image_named_by_number :
    let d := Sample.both Sample.album Sample.zippedAlbum
    let extractor := (Sample.ingestion {} 900).extractor
    ∃ entry packed d' r, Zip.read? Sample.zippedAlbum = some [entry] ∧ entry.isReadable = true ∧
      (⟨["png"]⟩ : EntryFilter).eligible? entry.name = some "png" ∧
      imageTypes.contains "png" = true ∧
      Archive.openSource ⟨["png"]⟩ extractor d (.ofText "a.zip") (.ofText "scratch") =
        .ok (packed, d') ∧
      packed.events = [.discovered 1, .record r] ∧ r.path = entry.name ∧
      r.text ≠ "Image file: " ++ EntryName.last entry.name := by
  intro d extractor
  obtain ⟨entry, packed, d', hzip, hname, hreadable, hopen, hevents⟩ :=
    Sample.events_zippedAlbum extractor
  refine ⟨entry, packed, d', _, hzip, hreadable, ?_, by decide, hopen, hevents, rfl, ?_⟩
  · rw [hname, Sample.eligible_photo]
  · rw [hname]
    show "Image file: entry-0.png" ≠ "Image file: " ++ EntryName.last "photo.png"
    decide

end Corpus
