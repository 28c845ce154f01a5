/-
Corpus/Proofs/Stopping.lean

Where a producer stops when the worker stops listening.

A producer whose listing passes over p entries learns of that from the first event that is
refused.  After k events,

    k ≤ p      the announcement was not made: nothing is prepared, nothing worked off
    p < k      the first k - p entries were worked off, and the last of them was refused

(`Production.ofListing_of_le`, `Production.ofListing_of_lt`).  So what it has sent is the first k
events of all that it would send (`Production.ofListing_of_lt_length`), and what would become of
later entries is never found out (`Production.ofListing_congr`).
-/
import Corpus.Proofs.Promise

namespace Corpus

namespace Outbox

/-- With room for `k` events the first `k` are sent. -/
theorem sendAll_some (events : List Event) : ∀ (k : Nat) (sent : List Event),
    sendAll events ⟨some k, sent⟩ =
      (decide (events.length ≤ k), ⟨some (k - events.length), (events.take k).reverse ++ sent⟩) := by
  induction events with
  | nil => intro k sent; simp [sendAll]
  | cons e rest ih =>
    intro k sent
    cases k with
    | zero => simp [sendAll, send]
    | succ k =>
      have hsend : sendAll (e :: rest) ⟨some (k + 1), sent⟩ = sendAll rest ⟨some k, e :: sent⟩ := rfl
      rw [hsend, ih, List.length_cons, Nat.add_sub_add_right, List.take_succ_cons,
        List.reverse_cons, List.append_assoc, List.singleton_append]
      simp

end Outbox

namespace Production

variable {α : Type}

/-! ### Working entries off -/

/-- With room for `k` events, one entry more than that is worked off at most: the one whose event
is refused. -/
theorem workOff_some (work : Disk → α → Event × Disk) (entries : List α) :
    ∀ (d : Disk) (k : Nat) (sent : List Event), workOff work entries d ⟨some k, sent⟩ =
      (⟨some (k - entries.length), ((worked work entries d).take k).reverse ++ sent⟩,
        leftBy work (entries.take (k + 1)) d) := by
  induction entries with
  | nil => intro d k sent; simp [workOff, worked, leftBy]
  | cons a rest ih =>
    intro d k sent
    cases k with
    | zero =>
      -- the first entry is worked off before its event is refused
      simp [workOff, Outbox.send, leftBy]
    | succ k =>
      have hstep : workOff work (a :: rest) d ⟨some (k + 1), sent⟩ =
          workOff work rest (work d a).2 ⟨some k, (work d a).1 :: sent⟩ := rfl
      rw [hstep, ih, worked, List.length_cons, Nat.add_sub_add_right, List.take_succ_cons,
        List.reverse_cons, List.append_assoc, List.singleton_append, List.take_succ_cons]
      rfl

variable {work work' : Disk → α → Event × Disk} {entries : List α}

/-- What becomes of the first entries does not depend on the later ones. -/
theorem take_worked (work : Disk → α → Event × Disk) (entries : List α) :
    ∀ (k : Nat) (d : Disk), (worked work entries d).take k = worked work (entries.take k) d := by
  induction entries with
  | nil => intro k d; simp [worked]
  | cons a rest ih =>
    intro k d
    cases k with
    | zero => rfl
    | succ k => rw [worked, List.take_succ_cons, List.take_succ_cons, worked, ih]

/-- Entries are worked off alike if each of them is. -/
theorem worked_congr (h : ∀ a ∈ entries, ∀ d, work' d a = work d a) :
    ∀ d, worked work' entries d = worked work entries d ∧
      leftBy work' entries d = leftBy work entries d := by
  induction entries with
  | nil => exact fun d => ⟨rfl, rfl⟩
  | cons a rest ih =>
    intro d
    have hfirst := h a List.mem_cons_self d
    obtain ⟨hworked, hleft⟩ := ih (fun b hb => h b (List.mem_cons_of_mem a hb)) (work d a).2
    constructor
    · rw [worked, worked, hfirst, hworked]
    · show leftBy work' rest (work' d a).2 = leftBy work rest (work d a).2
      rw [hfirst, hleft]

/-! ### Listings -/

variable (listing : List (Event ⊕ α)) (prepare : Disk → Except String Unit × Disk)
  (work work' : Disk → α → Event × Disk) (d : Disk) {k : Nat}

/-- A producer that cannot make its announcement does nothing else. -/
theorem ofListing_of_le (h : k ≤ (passedOver listing).length) :
    ofListing listing prepare work d (some k) = ⟨(passedOver listing).take k, none, d⟩ := by
  simp only [ofListing, Outbox.sendAll_some]
  rcases Nat.lt_or_eq_of_le h with hlt | heq
  · rw [decide_eq_false (Nat.not_le.mpr hlt)]
    simp [close]
  · -- everything that is passed over is sent, and the announcement refused
    rw [decide_eq_true (Nat.le_of_eq heq.symm), heq, Nat.sub_self]
    simp [close, Outbox.send]

/-- A producer that makes its announcement works the first `k - p` entries off, unless it fails to
prepare for that. -/
theorem ofListing_of_lt (h : (passedOver listing).length < k) :
    ofListing listing prepare work d (some k) =
      match prepare d with
      | (.error message, d') =>
        ⟨passedOver listing ++ [announcement listing], some message, d'⟩
      | (.ok (), d') =>
        ⟨passedOver listing ++ announcement listing ::
            (worked work (eligible listing) d').take (k - (passedOver listing).length - 1),
          none, leftBy work ((eligible listing).take (k - (passedOver listing).length)) d'⟩ := by
  obtain ⟨j, rfl⟩ := Nat.exists_eq_add_of_lt h
  simp only [ofListing, Outbox.sendAll_some]
  rw [decide_eq_true (by omega), List.take_of_length_le (by omega),
    show (passedOver listing).length + j + 1 - (passedOver listing).length = j + 1 by omega]
  rcases prepare d with ⟨message | _, d'⟩
  · simp [Outbox.send, close, announcement]
  · simp [Outbox.send, close, announcement, workOff_some]

/-- A producer that is not stopped. -/
theorem ofListing_none :
    ofListing listing prepare work d none =
      match prepare d with
      | (.error message, d') =>
        ⟨passedOver listing ++ [announcement listing], some message, d'⟩
      | (.ok (), d') =>
        ⟨passedOver listing ++ announcement listing :: worked work (eligible listing) d', none,
          leftBy work (eligible listing) d'⟩ := by
  simp only [ofListing, Outbox.sendAll_unbounded, Outbox.send, List.append_nil]
  rcases prepare d with ⟨message | _, d'⟩
  · simp [close, announcement]
  · simp [close, announcement, workOff_none]

/-- A producer none of whose events is refused is not stopped at all. -/
theorem ofListing_of_length_le (h : (ofListing listing prepare work d none).sent.length ≤ k) :
    ofListing listing prepare work d (some k) = ofListing listing prepare work d none := by
  have hover : (passedOver listing).length < k := by
    rw [sent_ofListing, List.length_append, List.length_cons] at h
    omega
  rw [ofListing_none] at h ⊢
  rw [ofListing_of_lt listing prepare work d hover]
  generalize prepare d = prepared at h ⊢
  rcases prepared with ⟨message | _, d'⟩
  · rfl
  · simp only [List.length_append, List.length_cons, length_worked] at h
    dsimp only
    rw [List.take_of_length_le (by rw [length_worked]; omega), List.take_of_length_le (by omega)]

/-- A producer with a refused event has sent all before it and ends without a failure. -/
theorem ofListing_of_lt_length (h : k < (ofListing listing prepare work d none).sent.length) :
    (ofListing listing prepare work d (some k)).fatal = none ∧
      (ofListing listing prepare work d (some k)).sent =
        (ofListing listing prepare work d none).sent.take k := by
  rcases Nat.lt_or_ge (passedOver listing).length k with hover | hover
  · rw [ofListing_none] at h ⊢
    rw [ofListing_of_lt listing prepare work d hover]
    generalize prepare d = prepared at h ⊢
    rcases prepared with ⟨message | _, d'⟩
    · -- all events of a producer that fails to prepare are sent by then
      simp only [List.length_append, List.length_singleton] at h
      exact absurd h (by omega)
    · obtain ⟨j, rfl⟩ := Nat.exists_eq_add_of_lt hover
      refine ⟨rfl, ?_⟩
      dsimp only
      rw [Nat.add_assoc, Nat.add_sub_cancel_left, Nat.add_sub_cancel, List.take_length_add_append,
        List.take_succ_cons]
  · rw [ofListing_of_le listing prepare work d hover, sent_ofListing]
    exact ⟨rfl, (List.take_append_of_le_length hover).symm⟩

-- room for two events: `a` is worked off, and its event refused
example (d : Disk) :
    (ofListing [.inl (.skipped "x"), .inr "a", .inr "b"] (fun d => (.ok (), d))
      (fun d entry => (.failed entry "", d)) d (some 2)).sent = [.skipped "x", .discovered 2] :=
  rfl

/-- A producer stopped after `k` events does not find out what would become of the entries behind
the first `k - p`. -/
theorem ofListing_congr
    (h : ∀ a ∈ (eligible listing).take (k - (passedOver listing).length), ∀ d,
      work' d a = work d a) :
    ofListing listing prepare work' d (some k) = ofListing listing prepare work d (some k) := by
  rcases Nat.lt_or_ge (passedOver listing).length k with hover | hover
  · rw [ofListing_of_lt listing prepare work' d hover, ofListing_of_lt listing prepare work d hover]
    rcases prepare d with ⟨message | _, d'⟩
    · rfl
    · -- the events that are sent are those of one entry less
      have hsent := (worked_congr (fun a ha => h a (List.take_subset_take_left _
        (Nat.sub_le (k - (passedOver listing).length) 1) ha)) d').1
      dsimp only
      rw [take_worked, take_worked, hsent, (worked_congr h d').2]
  · rw [ofListing_of_le listing prepare work' d hover, ofListing_of_le listing prepare work d hover]

/-- A producer that fails has made its announcement and nothing else. -/
theorem sent_of_fatal {room : Option Nat}
    (h : (ofListing listing prepare work d room).fatal ≠ none) :
    (ofListing listing prepare work d room).sent =
      passedOver listing ++ [announcement listing] := by
  have hunbounded : (ofListing listing prepare work d none).fatal ≠ none →
      (ofListing listing prepare work d none).sent =
        passedOver listing ++ [announcement listing] := by
    rw [ofListing_none]
    rcases prepare d with ⟨message | _, d'⟩
    · exact fun _ => rfl
    · exact fun hfatal => absurd rfl hfatal
  cases room with
  | none => exact hunbounded h
  | some k =>
    rcases Nat.lt_or_ge k (ofListing listing prepare work d none).sent.length with hlt | hle
    · exact absurd (ofListing_of_lt_length listing prepare work d hlt).1 h
    · rw [ofListing_of_length_le listing prepare work d hle] at h ⊢
      exact hunbounded h

end Production

end Corpus
