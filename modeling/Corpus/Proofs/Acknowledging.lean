/-
Corpus/Proofs/Acknowledging.lean

When a batch counts as indexed.

A flush over a remote engine is a conversation: the batch goes out in one request, the answer names
a task, and the task is asked for until the flush ends.  The questions of a wait stand on a line of
time, each as long as its exchange takes, with the pause of the site between two of them:

    0 ---- elapsed ----|-- pause --|---- elapsed ----|-- pause --|---- elapsed ----| arrival
           "enqueued"                  "processing"                   "succeeded"

The batch is indexed iff the conversation acknowledges it (`EngineSite.Acknowledges`): the answer to
the batch was a success that names a task, and the word that the task succeeded arrived within the
limit, with nothing before it but word that it waits or is worked on.  All other conversations end
in an error, which says what went wrong (`EngineSite.FlushFault`).

Conversations are listed by a transport that records what is sent over another one, so they are
those of any server at all.  The induction is on the time that is left of the limit: a question that
brings word of an unfinished task is put in front of the rest of the wait (`EngineSite.Waits.cons`),
which gives the law of a whole wait (`EngineSite.asks_awaitFrom`) and of a commit
(`EngineSite.flushes_commit`).
-/
import Corpus.Engine.Remote
import Corpus.Proofs.Pipeline

namespace Corpus

/-! ### Conversations -/

/-- A request and what came of it. -/
structure Dialogue where
  request : HttpRequest
  exchange : Exchange

/-- A transport and everything that was sent over it, the oldest first. -/
structure Carried (τ : Type) where
  transport : τ
  sent : List Dialogue := []

variable {τ : Type} [Transport τ]

instance : Transport (Carried τ) where
  send t request :=
    let (exchange, transport) := Transport.send t.transport request
    (exchange, ⟨transport, t.sent ++ [⟨request, exchange⟩]⟩)

/-! ### What answers say -/

namespace Exchange

/-- The body of an answer that tells of a success. -/
def body? (x : Exchange) : Option Bytes := (x.answer.filter (·.isSuccess)).map (·.body)

/-- The task that a write was given. -/
def task? (x : Exchange) : Option UInt64 := x.body?.bind taskNumber?

/-- What is said of a task. -/
def view? (x : Exchange) : Option TaskView := x.body?.bind TaskView.read?

/-- How far the task is said to be. -/
def status? (x : Exchange) : Option TaskStatus := x.view?.map (·.status)

/-- The task waits or is worked on. -/
def TellsUnfinished (x : Exchange) : Prop :=
  x.status? = some .enqueued ∨ x.status? = some .processing

/-- The task succeeded. -/
def TellsSuccess (x : Exchange) : Prop := x.status? = some .succeeded

theorem TellsUnfinished.not_success {x : Exchange} (h : x.TellsUnfinished) : ¬ x.TellsSuccess := by
  intro hsuccess
  rcases h with h | h
  · cases h.symm.trans hsuccess
  · cases h.symm.trans hsuccess

/-- The body of a success, or what went wrong with the request. -/
def outcome (x : Exchange) (url : String) : Except EngineError Bytes :=
  match x.answer with
  | none =>
    .error (.request ("error sending request for url (" ++ HttpRequest.sentUrl url ++ ")"))
  | some response =>
    if response.isSuccess then .ok response.body else .error (.api response.status response.text)

/-- What was read from an answer, or why it could not be. -/
def read {α : Type} (x : Exchange) (url : String) (read? : Bytes → Option α) :
    Except EngineError α :=
  match x.outcome url with
  | .error e => .error e
  | .ok body =>
    match read? body with
    | none => .error EngineSite.unreadable
    | some value => .ok value

variable {α : Type} {x : Exchange} {url : String} {read? : Bytes → Option α}

theorem outcome_eq_ok_iff {body : Bytes} : x.outcome url = .ok body ↔ x.body? = some body := by
  unfold outcome body?
  rcases x.answer with _ | response
  · simp
  · cases hsuccess : response.isSuccess <;> simp [Option.filter, hsuccess]

theorem read_eq_ok_iff {value : α} :
    x.read url read? = .ok value ↔ x.body?.bind read? = some value := by
  constructor
  · intro h
    unfold read at h
    split at h
    · cases h
    · rename_i body hbody
      split at h
      · cases h
      · rename_i hread
        cases h
        rw [outcome_eq_ok_iff.mp hbody]
        exact hread
  · intro h
    obtain ⟨body, hbody, hread⟩ := Option.bind_eq_some_iff.mp h
    rw [read, outcome_eq_ok_iff.mpr hbody]
    dsimp only
    rw [hread]

/-- An answer that cannot be read says nothing. -/
theorem bind_eq_none_of_read {e : EngineError} (h : x.read url read? = .error e) :
    x.body?.bind read? = none := by
  rw [Option.eq_none_iff_forall_ne_some]
  intro value hvalue
  rw [read_eq_ok_iff.mpr hvalue] at h
  cases h

end Exchange

namespace EngineSite

variable (s : EngineSite)

/-- The request that writes a batch. -/
def postOf (batch : List Document) : HttpRequest :=
  { method := .post
    url := s.documentsUrl
    key := s.key
    body := some (.array (batch.map fun d => .record d.members)) }

/-- The question for a task. -/
def pollOf (task : UInt64) : HttpRequest :=
  { method := .get, url := s.taskUrl task, key := s.key, body := none }

/-! ### One request -/

/-- A request is not sent, or it is sent once and its answer is taken. -/
theorem ask_cases (method : HttpMethod) (url : String) (body : Option Json.Value) (t : Carried τ) :
    let request : HttpRequest := { method, url, key := s.key, body }
    (request.isSendable = false ∧
      s.ask method url body t = (.error (.request "builder error"), .zero, t)) ∨
    (request.isSendable = true ∧ ∃ x t',
      s.ask method url body t = (x.outcome url, x.elapsed, t') ∧
        t'.sent = t.sent ++ [⟨request, x⟩]) := by
  intro request
  cases hsendable : request.isSendable with
  | false =>
    refine .inl ⟨rfl, ?_⟩
    rw [ask]
    exact if_neg (by rw [hsendable]; exact Bool.false_ne_true)
  | true =>
    refine .inr ⟨rfl, (Transport.send t request).1, (Transport.send t request).2, ?_, rfl⟩
    rw [ask]
    exact if_pos hsendable

/-- Writing a batch takes one request, if it can be sent. -/
theorem enqueue_cases (batch : List Document) (t : Carried τ) :
    ((s.postOf batch).isSendable = false ∧
      s.enqueue .post (batch.map fun d => .record d.members) t =
        (.error (.request "builder error"), t)) ∨
    ((s.postOf batch).isSendable = true ∧ ∃ x t',
      s.enqueue .post (batch.map fun d => .record d.members) t =
          (x.read s.documentsUrl taskNumber?, t') ∧
        t'.sent = t.sent ++ [⟨s.postOf batch, x⟩]) := by
  rcases s.ask_cases .post s.documentsUrl
    (some (.array (batch.map fun d => .record d.members))) t with
    ⟨hsendable, h⟩ | ⟨hsendable, x, t', h, hsent⟩
  · exact .inl ⟨hsendable, by rw [enqueue, h]⟩
  · refine .inr ⟨hsendable, x, t', ?_, hsent⟩
    rw [enqueue, h, Exchange.read]
    cases x.outcome s.documentsUrl with
    | error e => rfl
    | ok body => cases hread : taskNumber? body <;> simp [hread]

/-- A question for a task takes one request, if it can be sent. -/
theorem view_cases (task : UInt64) (t : Carried τ) :
    ((s.pollOf task).isSendable = false ∧
      s.view task t = (.error (.request "builder error"), .zero, t)) ∨
    ((s.pollOf task).isSendable = true ∧ ∃ x t',
      s.view task t = (x.read (s.taskUrl task) TaskView.read?, x.elapsed, t') ∧
        t'.sent = t.sent ++ [⟨s.pollOf task, x⟩]) := by
  rcases s.ask_cases .get (s.taskUrl task) none t with
    ⟨hsendable, h⟩ | ⟨hsendable, x, t', h, hsent⟩
  · exact .inl ⟨hsendable, by rw [view, h]⟩
  · refine .inr ⟨hsendable, x, t', ?_, hsent⟩
    rw [view, h, Exchange.read]
    cases x.outcome (s.taskUrl task) with
    | error e => rfl
    | ok body => cases hread : TaskView.read? body <;> simp [hread]

/-! ### The wait for a task -/

/-- The time that questions take, with a pause after each of them. -/
def spent : List Dialogue → Nat
  | [] => 0
  | poll :: rest => poll.exchange.elapsed.nanos + s.pollInterval.nanos + spent rest

/-- Word that the task succeeded arrived while there was time, and after nothing but word that it
waits or is worked on. -/
def Succeeds (left : Nat) (polls : List Dialogue) : Prop :=
  ∃ before last after, polls = before ++ last :: after ∧
    (∀ poll ∈ before, poll.exchange.TellsUnfinished) ∧ last.exchange.TellsSuccess ∧
    s.spent before + last.exchange.elapsed.nanos ≤ left

/-- Why the wait for a task failed while so many nanoseconds were left of the limit: no question
could be sent, the time was up, or the last question brought no view of the task or word of its
failure. -/
inductive WaitFault (task : UInt64) (limit : Span) : Nat → List Dialogue → EngineError → Prop where
  | unsent (left : Nat) (polls : List Dialogue) : (s.pollOf task).isSendable = false →
      WaitFault task limit left polls (.request "builder error")
  | late (left : Nat) (polls : List Dialogue) : left ≤ s.spent polls →
      WaitFault task limit left polls (.timeout task limit)
  | unread (left : Nat) (before : List Dialogue) (last : Dialogue) (e : EngineError) :
      last.exchange.read (s.taskUrl task) TaskView.read? = .error e →
      WaitFault task limit left (before ++ [last]) e
  | ended (left : Nat) (before : List Dialogue) (last : Dialogue) (v : TaskView) :
      last.exchange.view? = some v → v.status = .failed ∨ v.status = .canceled →
      WaitFault task limit left (before ++ [last]) (.taskFailed task v.failure)

/-- What a wait comes to. -/
def Waits (task : UInt64) (limit : Span) (left : Nat) (polls : List Dialogue) :
    Except EngineError Unit → Prop
  | .ok () => s.Succeeds left polls
  | .error e => ¬ s.Succeeds left polls ∧ s.WaitFault task limit left polls e

theorem not_succeeds_nil (left : Nat) : ¬ s.Succeeds left [] := by
  rintro ⟨before, last, after, hnil, -⟩
  cases before <;> cases hnil

variable {s}

/-- A wait succeeds with its first question, or that one brings word of an unfinished task and the
rest succeeds in the time that remains. -/
theorem succeeds_cons_iff {left : Nat} {poll : Dialogue} {rest : List Dialogue} :
    s.Succeeds left (poll :: rest) ↔
      (poll.exchange.TellsSuccess ∧ poll.exchange.elapsed.nanos ≤ left) ∨
      (poll.exchange.TellsUnfinished ∧
        poll.exchange.elapsed.nanos + s.pollInterval.nanos ≤ left ∧
        s.Succeeds (left - poll.exchange.elapsed.nanos - s.pollInterval.nanos) rest) := by
  constructor
  · rintro ⟨before, last, after, hpolls, hbefore, hlast, htime⟩
    -- the word of success is that of the first question, or it comes later
    cases before with
    | nil =>
      obtain ⟨rfl, -⟩ := List.cons.inj hpolls
      refine .inl ⟨hlast, ?_⟩
      rw [spent, Nat.zero_add] at htime
      exact htime
    | cons first more =>
      obtain ⟨rfl, hrest⟩ := List.cons.inj hpolls
      obtain ⟨hfirst, hmore⟩ := List.forall_mem_cons.mp hbefore
      rw [spent] at htime
      exact .inr ⟨hfirst, by omega, more, last, after, hrest, hmore, hlast, by omega⟩
  · rintro (⟨hlast, htime⟩ | ⟨hfirst, htime, before, last, after, rfl, hbefore, hlast, hrest⟩)
    · refine ⟨[], poll, rest, rfl, nofun, hlast, ?_⟩
      rw [spent, Nat.zero_add]
      exact htime
    · refine ⟨poll :: before, last, after, rfl, ?_, hlast, ?_⟩
      · exact List.forall_mem_cons.mpr ⟨hfirst, hbefore⟩
      rw [spent]
      omega

/-- The fault of the rest of a wait is the fault of the whole. -/
theorem WaitFault.cons {task : UInt64} {limit : Span} {left : Nat} {poll : Dialogue}
    {rest : List Dialogue} {e : EngineError} (h : s.WaitFault task limit
      (left - poll.exchange.elapsed.nanos - s.pollInterval.nanos) rest e) :
    s.WaitFault task limit left (poll :: rest) e := by
  cases h with
  | unsent _ hsendable => exact .unsent left _ hsendable
  | late _ htime =>
    refine .late left _ ?_
    rw [spent]
    omega
  | unread before last _ hread => exact .unread left (poll :: before) last e hread
  | ended before last v hview hstatus => exact .ended left (poll :: before) last v hview hstatus

namespace Waits

variable {task : UInt64} {limit : Span} {left : Nat} {poll : Dialogue} {rest : List Dialogue}

/-- A question whose answer comes when the time is up. -/
theorem late (h : left < poll.exchange.elapsed.nanos) :
    s.Waits task limit left [poll] (.error (.timeout task limit)) := by
  refine ⟨?_, .late left [poll] ?_⟩
  · rw [succeeds_cons_iff]
    rintro (⟨-, htime⟩ | ⟨-, htime, -⟩) <;> omega
  · rw [spent]
    omega

/-- A question that brings no word of success or of an unfinished task. -/
theorem fault {e : EngineError} (hsuccess : ¬ poll.exchange.TellsSuccess)
    (hunfinished : ¬ poll.exchange.TellsUnfinished) (h : s.WaitFault task limit left [poll] e) :
    s.Waits task limit left [poll] (.error e) := by
  refine ⟨?_, h⟩
  rw [succeeds_cons_iff]
  rintro (⟨htells, -⟩ | ⟨htells, -⟩)
  · exact hsuccess htells
  · exact hunfinished htells

/-- A question whose answer does not tell of the task. -/
theorem unread {e : EngineError}
    (h : poll.exchange.read (s.taskUrl task) TaskView.read? = .error e) :
    s.Waits task limit left [poll] (.error e) := by
  have hnone : poll.exchange.status? = none :=
    congrArg (Option.map _) (Exchange.bind_eq_none_of_read h)
  refine fault ?_ ?_ (.unread left [] poll e h)
  · intro htells
    cases hnone.symm.trans htells
  · rintro (htells | htells) <;> cases hnone.symm.trans htells

/-- A question whose answer is that the task did not succeed. -/
theorem ended {v : TaskView} (hview : poll.exchange.view? = some v)
    (hstatus : v.status = .failed ∨ v.status = .canceled) :
    s.Waits task limit left [poll] (.error (.taskFailed task v.failure)) := by
  have htold : poll.exchange.status? = some v.status := congrArg (Option.map _) hview
  refine fault ?_ ?_ (.ended left [] poll v hview hstatus)
  · intro htells
    have := htold.symm.trans htells
    rcases hstatus with h | h <;> simp [h] at this
  · rintro (htells | htells) <;>
    · have := htold.symm.trans htells
      rcases hstatus with h | h <;> simp [h] at this

/-- A question that brings word of an unfinished task, when there is no time for a pause. -/
theorem outOfTime (hunfinished : poll.exchange.TellsUnfinished)
    (h : left ≤ poll.exchange.elapsed.nanos + s.pollInterval.nanos) :
    s.Waits task limit left [poll] (.error (.timeout task limit)) := by
  refine ⟨?_, .late left [poll] ?_⟩
  · rw [succeeds_cons_iff]
    rintro (⟨hsuccess, -⟩ | ⟨-, -, hrest⟩)
    · exact hunfinished.not_success hsuccess
    · exact s.not_succeeds_nil _ hrest
  · rw [spent]
    omega

/-- **One question.**  With word of an unfinished task and time for a pause, the wait goes on as
if it began behind the pause. -/
theorem cons {result : Except EngineError Unit} (hunfinished : poll.exchange.TellsUnfinished)
    (h : poll.exchange.elapsed.nanos + s.pollInterval.nanos < left)
    (hrest : s.Waits task limit (left - poll.exchange.elapsed.nanos - s.pollInterval.nanos) rest
      result) :
    s.Waits task limit left (poll :: rest) result := by
  cases result with
  | ok _ => exact succeeds_cons_iff.mpr (.inr ⟨hunfinished, Nat.le_of_lt h, hrest⟩)
  | error e =>
    obtain ⟨hfails, hfault⟩ := hrest
    constructor
    · rw [succeeds_cons_iff]
      rintro (⟨hsuccess, -⟩ | ⟨-, -, hsucceeds⟩)
      · exact hunfinished.not_success hsuccess
      · exact hfails hsucceeds
    · exact hfault.cons

end Waits

/-- What a wait makes of the transport, its questions and its end. -/
def Asks (s : EngineSite) (task : UInt64) (limit : Span) (left : Nat) (t : Carried τ)
    (ended : Except EngineError Unit × Carried τ) : Prop :=
  ∃ polls, ended.2.sent = t.sent ++ polls ∧ (∀ poll ∈ polls, poll.request = s.pollOf task) ∧
    s.Waits task limit left polls ended.1

/-- **The wait for a task.**  It asks for that task alone, and comes to what the answers tell. -/
theorem asks_awaitFrom (s : EngineSite) (task : UInt64) (limit : Span) (left : Nat) :
    ∀ t : Carried τ, s.Asks task limit left t (s.awaitFrom task limit left t) := by
  induction left using Nat.strongRecOn with
  | ind left ih =>
    intro t
    rw [awaitFrom]
    rcases s.view_cases task t with ⟨hsendable, h⟩ | ⟨-, x, t', h, hsent⟩
    · -- nothing is asked, which takes no time
      rw [h]
      dsimp only
      rw [if_neg (show ¬ left < Span.zero.nanos from Nat.not_lt_zero left)]
      exact ⟨[], (List.append_nil _).symm, nofun, s.not_succeeds_nil left,
        .unsent left [] hsendable⟩
    · -- the question may be the last one, which leaves the transport as it is now
      have hlast : ∀ result, s.Waits task limit left [⟨s.pollOf task, x⟩] result →
          s.Asks task limit left t (result, t') := by
        intro result hresult
        refine ⟨_, hsent, ?_, hresult⟩
        intro poll hpoll
        rw [List.mem_singleton.mp hpoll]
      rw [h]
      dsimp only
      by_cases hlate : left < x.elapsed.nanos
      · rw [if_pos hlate]
        exact hlast _ (.late hlate)
      rw [if_neg hlate]
      cases hread : x.read (s.taskUrl task) TaskView.read? with
      | error e => exact hlast _ (.unread hread)
      | ok v =>
        have hview : x.view? = some v := Exchange.read_eq_ok_iff.mp hread
        have hstatus : x.status? = some v.status := congrArg (Option.map _) hview
        -- both words of an unfinished task lead to a pause, if there is time for one
        have hunfinished (htells : x.TellsUnfinished) : s.Asks task limit left t
            (if left ≤ x.elapsed.nanos + s.pollInterval.nanos then
                (.error (.timeout task limit), t')
              else s.awaitFrom task limit (left - x.elapsed.nanos - s.pollInterval.nanos) t') := by
          split
          · rename_i htime
            exact hlast _ (.outOfTime htells htime)
          · rename_i htime
            have hpause := s.pollInterval_pos
            obtain ⟨polls, hmore, hrequests, hrest⟩ :=
              ih (left - x.elapsed.nanos - s.pollInterval.nanos) (by omega) t'
            refine ⟨⟨s.pollOf task, x⟩ :: polls, ?_, List.forall_mem_cons.mpr ⟨rfl, hrequests⟩,
              .cons htells (Nat.lt_of_not_le htime) hrest⟩
            rw [hmore, hsent, List.append_assoc]
            rfl
        dsimp only
        cases hword : v.status with
        | succeeded =>
          have htells : x.TellsSuccess := hstatus.trans (congrArg some hword)
          exact hlast _ (succeeds_cons_iff.mpr (.inl ⟨htells, Nat.le_of_not_lt hlate⟩))
        | failed => exact hlast _ (.ended hview (.inl hword))
        | canceled => exact hlast _ (.ended hview (.inr hword))
        | enqueued => exact hunfinished (.inl (hstatus.trans (congrArg some hword)))
        | processing => exact hunfinished (.inr (hstatus.trans (congrArg some hword)))

/-! ### The flush of a batch -/

variable (s : EngineSite)

/-- The batch goes out in the first request, and the others ask for the task that it was given.
Nothing is sent if the batch cannot be. -/
def Posts (batch : List Document) (made : List Dialogue) : Prop :=
  if (s.postOf batch).isSendable then
    ∃ post polls, made = post :: polls ∧ post.request = s.postOf batch ∧
      ∀ poll ∈ polls, ∃ task, post.exchange.task? = some task ∧ poll.request = s.pollOf task
  else made = []

/-- The answer to the batch was a success that names a task, and word came within the limit that
this task succeeded, after nothing but word that it waits or is worked on. -/
def Acknowledges (limit : Span) (made : List Dialogue) : Prop :=
  ∃ post polls task, made = post :: polls ∧ post.exchange.task? = some task ∧
    s.Succeeds limit.nanos polls

/-- Why a flush failed: the batch could not be sent, its answer was no success or names no task, or
the wait for the task failed. -/
inductive FlushFault (batch : List Document) (limit : Span) :
    List Dialogue → EngineError → Prop where
  | unsent : (s.postOf batch).isSendable = false →
      FlushFault batch limit [] (.request "builder error")
  | refused (post : Dialogue) (e : EngineError) :
      post.exchange.read s.documentsUrl taskNumber? = .error e → FlushFault batch limit [post] e
  | waiting (post : Dialogue) (polls : List Dialogue) (task : UInt64) (e : EngineError) :
      post.exchange.task? = some task → s.WaitFault task limit limit.nanos polls e →
      FlushFault batch limit (post :: polls) e

/-- What a flush comes to. -/
def Flushes (batch : List Document) (limit : Span) (made : List Dialogue) :
    Except EngineError Unit → Prop
  | .ok () => s.Acknowledges limit made
  | .error e => ¬ s.Acknowledges limit made ∧ s.FlushFault batch limit made e

variable {s}

/-- The batch is sent in one request, and in no other one. -/
theorem Posts.once {batch : List Document} {made : List Dialogue} (h : s.Posts batch made) :
    (made.map (·.request)).filter (·.method == .post) =
      if (s.postOf batch).isSendable then [s.postOf batch] else [] := by
  unfold Posts at h
  split at h
  · rename_i hsendable
    obtain ⟨post, polls, rfl, hpost, hpolls⟩ := h
    have hgets : (polls.map (·.request)).filter (·.method == .post) = [] := by
      rw [List.filter_eq_nil_iff]
      intro request hrequest
      obtain ⟨poll, hpoll, rfl⟩ := List.mem_map.mp hrequest
      obtain ⟨task, -, hask⟩ := hpolls poll hpoll
      rw [hask]
      exact Bool.false_ne_true
    rw [if_pos hsendable, List.map_cons, hpost, List.filter_cons, hgets]
    rfl
  · rename_i hsendable
    rw [h, if_neg hsendable]
    rfl

/-- A conversation whose first answer gave no task acknowledges nothing. -/
theorem not_acknowledges_of_task? {limit : Span} {post : Dialogue} {polls : List Dialogue}
    (h : post.exchange.task? = none) : ¬ s.Acknowledges limit (post :: polls) := by
  rintro ⟨post', polls', task, hmade, htask, -⟩
  obtain ⟨rfl, -⟩ := List.cons.inj hmade
  cases h.symm.trans htask

/-- With a task, the wait for it decides. -/
theorem acknowledges_cons_iff {limit : Span} {post : Dialogue} {polls : List Dialogue}
    {task : UInt64} (h : post.exchange.task? = some task) :
    s.Acknowledges limit (post :: polls) ↔ s.Succeeds limit.nanos polls := by
  constructor
  · rintro ⟨post', polls', task', hmade, -, hsucceeds⟩
    obtain ⟨-, rfl⟩ := List.cons.inj hmade
    exact hsucceeds
  · intro hsucceeds
    exact ⟨post, polls, task, rfl, h, hsucceeds⟩

/-- **The commit of a batch.**  It is sent once, and comes to what the conversation tells. -/
theorem flushes_commit (x : RemoteEngine (Carried τ)) (limit : Span) (batch : List Document) :
    let ended := SearchEngine.commit limit (SearchEngine.add x batch)
    ∃ made, ended.2.transport.sent = x.transport.sent ++ made ∧ x.site.Posts batch made ∧
      x.site.Flushes batch limit made ended.1 := by
  intro ended
  rcases x.site.enqueue_cases batch x.transport with
    ⟨hsendable, h⟩ | ⟨hsendable, answer, t, h, hsent⟩
  · have hended : ended = (.error (.request "builder error"), x) := by
      show SearchEngine.commit limit (x.moved (x.site.enqueue .post _ x.transport)) = _
      rw [h]
      rfl
    rw [hended]
    refine ⟨[], (List.append_nil _).symm, ?_, ?_, .unsent hsendable⟩
    · rw [Posts, if_neg (by rw [hsendable]; exact Bool.false_ne_true)]
    · rintro ⟨post, polls, task, hmade, -⟩
      cases hmade
  · have hended : ended = SearchEngine.commit limit
        (answer.read x.site.documentsUrl taskNumber?, { x with transport := t }) := by
      show SearchEngine.commit limit (x.moved (x.site.enqueue .post _ x.transport)) = _
      rw [h]
      rfl
    rw [hended]
    cases hread : answer.read x.site.documentsUrl taskNumber? with
    | error e =>
      have htask : answer.task? = none := Exchange.bind_eq_none_of_read hread
      refine ⟨_, hsent, ?_, not_acknowledges_of_task? htask, .refused _ e hread⟩
      rw [Posts, if_pos hsendable]
      exact ⟨_, [], rfl, rfl, nofun⟩
    | ok task =>
      have htask : answer.task? = some task := Exchange.read_eq_ok_iff.mp hread
      obtain ⟨polls, hpolls, hrequests, hwaits⟩ := x.site.asks_awaitFrom task limit limit.nanos t
      refine ⟨⟨x.site.postOf batch, answer⟩ :: polls, ?_, ?_, ?_⟩
      · show (x.site.awaitFrom task limit limit.nanos t).2.sent = _
        rw [hpolls, hsent, List.append_assoc]
        rfl
      · rw [Posts, if_pos hsendable]
        exact ⟨_, polls, rfl, rfl, fun poll hpoll => ⟨task, htask, hrequests poll hpoll⟩⟩
      · show x.site.Flushes batch limit _ (x.site.awaitFrom task limit limit.nanos t).1
        generalize (x.site.awaitFrom task limit limit.nanos t).1 = result at hwaits
        cases result with
        | ok _ => exact (acknowledges_cons_iff htask).mpr hwaits
        | error e =>
          obtain ⟨hfails, hfault⟩ := hwaits
          exact ⟨fun h => hfails ((acknowledges_cons_iff htask).mp h),
            .waiting _ polls task e htask hfault⟩

end EngineSite

namespace Writer

variable {ε : Type}

/-- All pending documents count as indexed from here to there, and nothing else changes. -/
structure Indexes (w q : Writer ε) : Prop where
  tally : q.job.tally =
    { w.job.tally with
      indexed := w.job.tally.indexed + UInt64.ofNat w.pending.length
      processed := w.job.tally.processed + UInt64.ofNat w.pending.length }
  errors : q.job.errors = w.job.errors
  rejected : q.rejected = w.rejected

/-- All pending documents count as failed from here to there, one message says why, and all their
identifiers are remembered. -/
structure Loses (w q : Writer ε) (e : EngineError) : Prop where
  tally : q.job.tally =
    { w.job.tally with
      failed := w.job.tally.failed + UInt64.ofNat w.pending.length
      processed := w.job.tally.processed + UInt64.ofNat w.pending.length }
  errors : q.job.errors = w.job.errors.push
    ("Batch of " ++ toString w.pending.length ++ " documents failed: " ++ e.message)
  rejected : q.rejected = w.rejected ++ w.pending.map (·.id)

end Writer

/-- **Batches are indexed iff the engine acknowledges them.**  Whatever the server answers and
however long it takes, a flush sends its batch once, if it can be sent at all, and then asks for the
task of the batch alone.  If the conversation acknowledges the batch within the limit, all its
documents count as indexed.  In every other case all of them count as failed and rejected, with one
message that says what went wrong. -/
theorem batches_indexed_iff_acknowledged (w : Writer (RemoteEngine (Carried τ)))
    (hpending : w.pending ≠ []) :
    let s := w.engine.site
    let q := w.flush.2
    q.pending = [] ∧ ∃ made,
      q.engine.transport.sent = w.engine.transport.sent ++ made ∧
      s.Posts w.pending made ∧
      ((made.map (·.request)).filter (·.method == .post) =
        if (s.postOf w.pending).isSendable then [s.postOf w.pending] else []) ∧
      (s.Acknowledges w.commitTimeout made → w.Indexes q) ∧
      (¬ s.Acknowledges w.commitTimeout made →
        ∃ e, s.FlushFault w.pending w.commitTimeout made e ∧ w.Loses q e) := by
  intro s q
  obtain ⟨made, hsent, hposts, hflushes⟩ :=
    EngineSite.flushes_commit w.engine w.commitTimeout w.pending
  refine ⟨Writer.flush_pending w, made, ?_⟩
  rcases w.flush_cases with ⟨hnone, -⟩ | ⟨-, _, _, hc, hq⟩ | ⟨-, e, _, _, hc, hq⟩
  · exact absurd hnone hpending
  · rw [hc] at hsent hflushes
    have hq' : q = _ := congrArg Prod.snd hq
    rw [hq']
    exact ⟨hsent, hposts, hposts.once, fun _ => ⟨rfl, rfl, rfl⟩, fun h => absurd hflushes h⟩
  · rw [hc] at hsent hflushes
    obtain ⟨hfails, hfault⟩ := hflushes
    have hq' : q = _ := congrArg Prod.snd hq
    rw [hq']
    exact ⟨hsent, hposts, hposts.once, fun h => absurd h hfails,
      fun _ => ⟨e, hfault, rfl, rfl, rfl⟩⟩

/-! ### A server that follows a script -/

/-- A server that gives its answers one after the other, whatever it is asked, and then none. -/
structure Scripted where
  answers : List Exchange

instance : Transport Scripted where
  send t _ :=
    match t.answers with
    | [] => (⟨none, .zero⟩, t)
    | x :: rest => (x, ⟨rest⟩)

namespace Sample

/-- An answer after so many milliseconds. -/
def answered (millis status : Nat) (body : String) : Exchange :=
  ⟨some ⟨status, Text.encode body⟩, .ofMillis millis⟩

/-- The answer to a batch, and word of its task. -/
def acceptance : Exchange := answered 5 202 "\x7b\"taskUid\":7\x7d"

def progress : Exchange := answered 10 200 "\x7b\"status\":\"processing\"\x7d"

def success (millis : Nat) : Exchange :=
  answered millis 200 "\x7b\"status\":\"succeeded\"\x7d"

def site : EngineSite :=
  { baseUrl := "http://search", index := "documents", key := none
    pollInterval := .ofMillis 50, pollInterval_pos := by decide }

/-- A writer with one document for a server that follows a script, when there are 100 milliseconds
for a commit. -/
def writerTo (answers : List Exchange) : Writer (RemoteEngine (Carried Scripted)) :=
  { engine := ⟨site, ⟨⟨answers⟩, []⟩⟩
    job := .start "job" .folderSync (.ofText "docs") 50 default
    commitTimeout := .ofMillis 100
    maintenanceTimeout := .ofMillis 100
    pending := [⟨"1", "a.txt", "some text", ".txt", 9, "docs/a.txt", .folder, "docs", none, {}⟩] }

end Sample

set_option maxRecDepth 100000 in
/-- Word of success counts when it arrives 100 milliseconds after the wait began, and one
millisecond later it does not. -/
theorem batches_indexed_iff_acknowledged_at_the_limit :
    let w := Sample.writerTo [Sample.acceptance, Sample.progress, Sample.success 40]
    let late := Sample.writerTo [Sample.acceptance, Sample.progress, Sample.success 41]
    (w.pending ≠ [] ∧ w.Indexes w.flush.2) ∧ late.pending ≠ [] ∧
      (∃ e, late.Loses late.flush.2 e) ∧
      late.flush.2.job.errors.entries =
        ["Batch of 1 documents failed: Task 7 did not finish within 100ms"] := by
  intro w late
  have hpending : w.pending ≠ [] := List.cons_ne_nil _ _
  have hlate : late.pending ≠ [] := List.cons_ne_nil _ _
  refine ⟨⟨hpending, ?_⟩, hlate, ?_, by decide +kernel⟩
  · obtain ⟨-, made, hsent, -, -, hindexed, -⟩ := batches_indexed_iff_acknowledged w hpending
    have hexchanges : made.map (·.exchange) =
        [Sample.acceptance, Sample.progress, Sample.success 40] := by
      rw [show made = w.flush.2.engine.transport.sent from hsent.symm]
      decide +kernel
    obtain ⟨post, polls, rfl, hpost, hpolls⟩ := List.map_eq_cons_iff.mp hexchanges
    obtain ⟨first, rest, rfl, hfirst, hrest⟩ := List.map_eq_cons_iff.mp hpolls
    obtain ⟨last, after, rfl, hlast, -⟩ := List.map_eq_cons_iff.mp hrest
    -- 10 milliseconds, a pause of 50 and another 40 make the limit of 100
    have hsucceeds : w.engine.site.Succeeds w.commitTimeout.nanos (first :: last :: after) := by
      refine ⟨[first], last, after, rfl, ?_, ?_, ?_⟩
      · intro poll hpoll
        rw [List.mem_singleton.mp hpoll, hfirst]
        exact .inr (by decide +kernel)
      · rw [hlast]
        exact (by decide +kernel : (Sample.success 40).status? = some .succeeded)
      · rw [EngineSite.spent, EngineSite.spent, hfirst, hlast]
        decide +kernel
    refine hindexed ⟨post, _, 7, rfl, ?_, hsucceeds⟩
    rw [hpost]
    decide +kernel
  · obtain ⟨-, made, -, -, -, hindexed, hlost⟩ := batches_indexed_iff_acknowledged late hlate
    have hnot : ¬ late.engine.site.Acknowledges late.commitTimeout made := fun h =>
      absurd (hindexed h).tally (by decide +kernel)
    obtain ⟨e, -, hloses⟩ := hlost hnot
    exact ⟨e, hloses⟩

end Corpus
