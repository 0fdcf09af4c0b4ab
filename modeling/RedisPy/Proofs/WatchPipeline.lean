import Mathlib
import RedisPy.Spec.WatchPipeline

/-! When a `Pipeline` gives its connection back as it should: what its cleanup needs of the
state that it starts in and of the answer to its UNWATCH. -/

namespace RedisPy

open Raising Course

namespace WatchPipeline

variable {cfg : PipelineSettings} {s : WatchPipeline}

/-! ### What always holds -/

/-- Each connection that was got is held or has been released, once. -/
def Counted (s : WatchPipeline) : Prop :=
  ∀ id, (s.released.map Prod.fst).count id + s.connection.toList.count id =
    if id < s.taken then 1 else 0

/-- No connection is in the pool with a WATCH. -/
def Unwatched (s : WatchPipeline) : Prop := ∀ p ∈ s.released, p.2 = false

def Inv (s : WatchPipeline) : Prop := Counted s ∧ Unwatched s

/-- The same connection and the same released ones. -/
def SameLeases (s s' : WatchPipeline) : Prop :=
  s'.connection = s.connection ∧ s'.released = s.released ∧ s'.taken = s.taken

theorem SameLeases.inv {s' : WatchPipeline} (h : SameLeases s s') (hs : Inv s) : Inv s' := by
  obtain ⟨hconn, hrel, htaken⟩ := h
  unfold Inv Counted Unwatched
  rw [hconn, hrel, htaken]
  exact hs

theorem SameLeases.refl (s : WatchPipeline) : SameLeases s s := ⟨rfl, rfl, rfl⟩

theorem draw_run (s : WatchPipeline) :
    draw.run s = .ok (s.outcomes.headD .ok) { s with outcomes := s.outcomes.tail } := rfl

theorem send_run (s : WatchPipeline) :
    send.run s =
      match s.outcomes.headD .ok with
      | .lost e => .error e { s with outcomes := s.outcomes.tail, session := {} }
      | .renewed => .ok () { s with outcomes := s.outcomes.tail, session := {} }
      | _ => .ok () { s with outcomes := s.outcomes.tail } := by
  unfold send
  rw [EStateM.run_bind, draw_run]
  cases s.outcomes.headD .ok <;> rfl

theorem send_keeps : Keeps Inv send := by
  intro s hs
  rw [send_run]
  cases s.outcomes.headD .ok <;> exact hs

theorem readResponse_run (c : ServerCommand) (s : WatchPipeline) :
    (readResponse c).run s =
      match s.outcomes.headD .ok with
      | .lost e => .error e { s with outcomes := s.outcomes.tail, session := {} }
      | .reply e =>
        .error e { s with outcomes := s.outcomes.tail, session := s.session.refuse c }
      | o =>
        match s.session.serve c with
        | none => .error { cls := .ResponseError } { s with outcomes := s.outcomes.tail }
        | some session => .ok o { s with outcomes := s.outcomes.tail, session := session } := by
  unfold readResponse
  rw [EStateM.run_bind, draw_run]
  cases s.outcomes.headD .ok with
  | lost e => rfl
  | reply e => rfl
  | _ =>
    simp only [EStateM.run_bind, EStateM.run_get]
    cases s.session.serve c <;> rfl

theorem readResponse_keeps (c : ServerCommand) : Keeps Inv (readResponse c) := by
  intro s hs
  rw [readResponse_run]
  split
  · exact hs
  · exact hs
  · split <;> exact hs

theorem run_discard {β : Type} (m : M β) (s : WatchPipeline) :
    (discard m : M Unit).run s =
      match m.run s with
      | .ok _ s' => .ok () s'
      | .error e s' => .error e s' := by
  change (Function.const β () <$> m).run s = _
  rw [run_map]
  cases m.run s <;> rfl

theorem discard_keeps {β : Type} {I : WatchPipeline → Prop} {m : M β} (h : Keeps I m) :
    Keeps I (discard m : M Unit) := by
  intro s hs
  have := h s hs
  rw [run_discard]
  cases hr : m.run s <;> rw [hr] at this <;> exact this

/-! ### The cleanup -/

def finished (s : WatchPipeline) : WatchPipeline :=
  { s with
    watching := false
    explicit_transaction := false
    released := s.released ++ s.connection.toList.map fun id => (id, s.session.watched)
    connection := none
    session := {} }

def unwatchSent : M Unit :=
  tryCatch (do
    send
    discard (readResponse .UNWATCH)) (fun e => do
    if e.isinstance .ConnectionError then disconnect else throw e)

/-- What the exchanges to come depend on. -/
structure Outlook where
  watching : Bool
  session : ServerSession
  outcomes : List ExchangeOutcome
  errors : List Exc

def outlook (s : WatchPipeline) : Outlook := ⟨s.watching, s.session, s.outcomes, s.errors⟩

namespace Outlook

variable (v : Outlook)

def next : ExchangeOutcome := v.outcomes.headD .ok

def dropNext : Outlook := { v with outcomes := v.outcomes.tail }

/-- The server forgets the connection. -/
def lose : Outlook := { v with session := {} }

/-- The answer to UNWATCH comes outside of a MULTI that queues it, or what comes is a
`ConnectionError`. -/
def AnswerFine : Prop :=
  match v.next with
  | .lost e => e.isinstance .ConnectionError = true
  | .reply e => e.isinstance .ConnectionError = true
  | _ => v.session.queueing = true → v.session.watched = false

/-- So does the UNWATCH, from its sending on. -/
def UnwatchFine : Prop :=
  match v.next with
  | .lost e => e.isinstance .ConnectionError = true
  | .renewed => v.dropNext.lose.AnswerFine
  | _ => v.dropNext.AnswerFine

/-- What `reset` needs to give a connection back: an UNWATCH that is sent is fine, and none is
left out. -/
def Ready : Prop :=
  (v.watching = true ∧ v.UnwatchFine) ∨ (v.watching = false ∧ v.session.watched = false)

end Outlook

theorem answer_post (s : WatchPipeline) :
    Post ((discard (readResponse .UNWATCH)).run s)
      (fun _ s' => SameLeases s s' ∧ s'.command_stack = s.command_stack ∧
        (s'.session.watched = false ↔ s.outlook.AnswerFine) ∧
        (s.session.watched = false → s'.session.watched = false))
      fun e s' => SameLeases s s' ∧ s'.command_stack = s.command_stack ∧
        (s.outlook.AnswerFine ↔ e.isinstance .ConnectionError = true) := by
  have hnext : s.outlook.next = s.outcomes.headD .ok := rfl
  have hsession : s.outlook.session = s.session := rfl
  unfold Outlook.AnswerFine
  rw [hnext, hsession, run_discard, readResponse_run]
  cases s.outcomes.headD .ok <;> cases hq : s.session.queueing <;> cases hw : s.session.watched <;>
    simp [Post, ServerSession.serve, SameLeases, hq, hw]

theorem unwatch_post (s : WatchPipeline) :
    Post ((do
        send
        discard (readResponse .UNWATCH) : M Unit).run s)
      (fun _ s' => SameLeases s s' ∧ s'.command_stack = s.command_stack ∧
        (s'.session.watched = false ↔ s.outlook.UnwatchFine) ∧
        (s.session.watched = false → s'.session.watched = false))
      fun e s' => SameLeases s s' ∧ s'.command_stack = s.command_stack ∧
        (s.outlook.UnwatchFine ↔ e.isinstance .ConnectionError = true) := by
  have hanswer := answer_post { s with outcomes := s.outcomes.tail }
  have hnext : s.outlook.next = s.outcomes.headD .ok := rfl
  unfold Outlook.UnwatchFine
  rw [hnext, EStateM.run_bind, send_run]
  cases s.outcomes.headD .ok with
  | lost e => exact ⟨SameLeases.refl s, rfl, Iff.rfl⟩
  | renewed =>
    refine (answer_post { s with outcomes := s.outcomes.tail, session := {} }).mono ?_ fun _ _ h => h
    exact fun _ _ h => ⟨h.1, h.2.1, h.2.2.1, fun _ => h.2.2.2 rfl⟩
  | _ => exact hanswer

/-- What the UNWATCH comes to. -/
theorem unwatchSent_cases (s : WatchPipeline) :
    (∃ s', unwatchSent.run s = .ok () s' ∧ SameLeases s s' ∧ s'.command_stack = s.command_stack ∧
        (s'.session.watched = false ↔ s.outlook.UnwatchFine) ∧
        (s.session.watched = false → s'.session.watched = false)) ∨
      ∃ e s', unwatchSent.run s = .error e s' ∧ SameLeases s s' ∧ ¬s.outlook.UnwatchFine := by
  have hpost := unwatch_post s
  unfold unwatchSent
  rw [run_tryCatch]
  cases hr : (do
      send
      discard (readResponse .UNWATCH) : M Unit).run s with
  | ok u s' =>
    rw [hr] at hpost
    exact .inl ⟨s', rfl, hpost⟩
  | error e s' =>
    rw [hr] at hpost
    obtain ⟨hsame, hstack, hfine⟩ := hpost
    by_cases he : e.isinstance .ConnectionError = true
    · refine .inl ⟨{ s' with session := {} }, ?_, hsame, hstack, iff_of_true rfl (hfine.mpr he),
        fun _ => rfl⟩
      simp only [he, if_true]
      rfl
    · refine .inr ⟨e, s', ?_, hsame, fun h => he (hfine.mp h)⟩
      simp only [he]
      rfl

theorem reset_run (s : WatchPipeline) :
    reset.run s =
      if s.watching = true ∧ s.connection ≠ none then
        match unwatchSent.run { s with command_stack := [], scripts := 0 } with
        | .ok _ s' => .ok () (finished s')
        | .error e s' => .error e s'
      else .ok () (finished { s with command_stack := [], scripts := 0 }) := by
  obtain ⟨stack, scripts, watching, explicit, connection, session, taken, released, outcomes⟩ := s
  cases watching with
  | false => rfl
  | true =>
    cases connection with
    | none => rfl
    | some id =>
      rw [if_pos ⟨rfl, by simp⟩]
      change (unwatchSent >>= fun _ => modify finished : M Unit).run _ = _
      rw [EStateM.run_bind]
      dsimp only
      cases unwatchSent.run _ <;> rfl

theorem finished_counted (hs : Counted s) : Counted (finished s) := by
  intro id
  have := hs id
  simp only [finished, List.map_append, List.count_append, Option.toList_none, List.count_nil]
  refine Eq.trans ?_ this
  cases s.connection <;> simp

theorem finished_unwatched_iff (hs : Unwatched s) :
    Unwatched (finished s) ↔ s.connection = none ∨ s.session.watched = false := by
  unfold Unwatched finished at *
  cases hc : s.connection with
  | none => simpa using hs
  | some c =>
    simp only [Option.toList_some, List.map_singleton, List.mem_append, List.mem_singleton]
    constructor
    · intro h
      exact .inr (h _ (.inr rfl))
    · rintro (h | h) p (hp | rfl)
      · exact hs p hp
      · cases h
      · exact hs p hp
      · exact h

/-- What `reset` needs of the state in which it starts. -/
def Resettable (s : WatchPipeline) : Prop :=
  s.connection = none ∨ s.outlook.Ready

/-- The pipeline holds nothing, each connection is back once, and none with a WATCH. -/
structure Released (s : WatchPipeline) : Prop where
  connection : s.connection = none
  watching : s.watching = false
  command_stack : s.command_stack = []
  once : ∀ id < s.taken, (s.released.map Prod.fst).count id = 1
  unwatched : Unwatched s

theorem released_finished (hs : Inv s) (hstack : s.command_stack = [])
    (h : s.connection = none ∨ s.session.watched = false) : Released (finished s) where
  connection := rfl
  watching := rfl
  command_stack := hstack
  once id hid := by
    have := finished_counted hs.1 id
    rwa [if_pos (show id < (finished s).taken from hid)] at this
  unwatched := (finished_unwatched_iff hs.2).mpr h

theorem reset_cases (s : WatchPipeline) :
    (∃ s', reset.run s = .ok () (finished s') ∧ SameLeases s s' ∧ s'.command_stack = [] ∧
        (s'.connection = none ∨ s'.session.watched = false ↔ Resettable s) ∧
        (s.session.watched = false → s'.session.watched = false)) ∨
      ∃ e s', reset.run s = .error e s' ∧ SameLeases s s' ∧ s'.connection ≠ none ∧ ¬Resettable s := by
  rw [reset_run]
  by_cases h : s.watching = true ∧ s.connection ≠ none
  · obtain ⟨hwatching, hconn⟩ := h
    have hres : Resettable s ↔ (outlook { s with command_stack := [], scripts := 0 }).UnwatchFine := by
      simp [Resettable, Outlook.Ready, outlook, hconn, hwatching]
    rw [if_pos ⟨hwatching, hconn⟩, hres]
    rcases unwatchSent_cases { s with command_stack := [], scripts := 0 } with
      ⟨s', hrun, hsame, hstack, hfine, hkeep⟩ | ⟨e, s', hrun, hsame, hfine⟩
    · have hheld : s'.connection ≠ none := fun hnone => hconn (hsame.1.symm.trans hnone)
      rw [hrun]
      exact .inl ⟨s', rfl, hsame, hstack, by rw [← hfine]; exact or_iff_right hheld, hkeep⟩
    · rw [hrun]
      exact .inr ⟨e, s', rfl, hsame, fun hnone => hconn (hsame.1.symm.trans hnone), hfine⟩
  · rw [if_neg h]
    refine .inl ⟨_, rfl, SameLeases.refl s, rfl, ?_, fun hwatched => hwatched⟩
    unfold Resettable
    by_cases hconn : s.connection = none
    · simp [hconn]
    · have hwatching : s.watching = false := by
        by_contra hw
        exact h ⟨by simpa using hw, hconn⟩
      simp [Outlook.Ready, outlook, hconn, hwatching]

theorem SameLeases.counted {s' : WatchPipeline} (h : SameLeases s s') (hs : Counted s) : Counted s' := by
  obtain ⟨hconn, hrel, htaken⟩ := h
  unfold Counted
  rw [hconn, hrel, htaken]
  exact hs

theorem reset_counted (hs : Counted s) : Counted (state (reset.run s)) := by
  rcases reset_cases s with ⟨s', hrun, hsame, -⟩ | ⟨e, s', hrun, hsame, -⟩
  · rw [hrun]
    exact finished_counted (hsame.counted hs)
  · rw [hrun]
    exact hsame.counted hs

/-- `reset` does what it should when the state that it starts in allows it, and only then. -/
theorem reset_released_iff (hs : Inv s) : Released (state (reset.run s)) ↔ Resettable s := by
  rcases reset_cases s with ⟨s', hrun, hsame, hstack, hres, -⟩ | ⟨e, s', hrun, hsame, hheld, hres⟩
  · have hinv : Inv s' := hsame.inv hs
    rw [hrun, ← hres, ← finished_unwatched_iff hinv.2]
    exact ⟨fun hrel => hrel.unwatched, fun hun =>
      released_finished hinv hstack ((finished_unwatched_iff hinv.2).mp hun)⟩
  · rw [hrun]
    exact iff_of_false (fun hrel => hheld hrel.connection) hres

/-- On a connection without a WATCH, `reset` gives none back with one. -/
theorem reset_post_of_unwatched (hs : Inv s) (h : s.session.watched = false) :
    Post (reset.run s) (fun _ => Inv) (fun _ => Inv) := by
  rcases reset_cases s with ⟨s', hrun, hsame, -, -, hkeep⟩ | ⟨e, s', hrun, hsame, -⟩
  · have hinv : Inv s' := hsame.inv hs
    rw [hrun]
    exact ⟨finished_counted hinv.1, (finished_unwatched_iff hinv.2).mpr (.inr (hkeep h))⟩
  · rw [hrun]
    exact hsame.inv hs

/-! ### What the other operations keep -/

theorem disconnect_keeps : Keeps Inv disconnect := Keeps.modify fun _ h => h

theorem callWithRetry_keeps {command : M Unit} {fail : Exc → M Unit} (hcommand : Keeps Inv command)
    (hfail : ∀ e, Keeps Inv (fail e)) (retries : Nat) :
    Keeps Inv (callWithRetry cfg command fail retries) := by
  induction retries with
  | zero =>
    exact Keeps.tryCatch hcommand fun e =>
      Keeps.ite (Keeps.bind (hfail e) fun _ => Keeps.throw e) (Keeps.throw e)
  | succ n ih =>
    exact Keeps.tryCatch hcommand fun e =>
      Keeps.ite (Keeps.bind (hfail e) fun _ => ih) (Keeps.throw e)

/-- After `disconnect` the connection has no WATCH, so that a `reset` is harmless. -/
theorem resetAndRaise_post {e : Exc} (hs : Inv s) (h : s.session.watched = false) :
    Post ((resetAndRaise e).run s) (fun _ => Inv) (fun _ => Inv) :=
  Post.bind (reset_post_of_unwatched hs h) fun _ _ hs' => Post.throw hs'

theorem disconnect_post (hs : Inv s) : Post (disconnect.run s)
    (fun _ s' => Inv s' ∧ s'.session.watched = false) (fun _ => Inv) := ⟨hs, rfl⟩

theorem disconnectResetRaise_keeps (e : Exc) : Keeps Inv (_disconnectResetRaise cfg e) :=
  fun _ hs => Post.bind (disconnect_post hs) fun _ _ hs' => Post.get_bind <|
    Post.ite (fun _ => resetAndRaise_post hs'.1 hs'.2) fun _ =>
      Post.ite (fun _ => hs'.1) fun _ => resetAndRaise_post hs'.1 hs'.2

theorem disconnectRaiseReset_keeps (e : Exc) : Keeps Inv (_disconnectRaiseReset cfg e) :=
  fun _ hs => Post.bind (disconnect_post hs) fun _ _ hs' => Post.get_bind <|
    Post.ite (fun _ => hs'.1) fun _ =>
      Post.ite (fun _ => hs'.1) fun _ => resetAndRaise_post hs'.1 hs'.2

theorem parseResponse_keeps (c : PipelineCommand) : Keeps Inv (parseResponse c) :=
  Keeps.bind (discard_keeps (readResponse_keeps c.command)) fun _ => Keeps.modify fun _ h => h

theorem noted_keeps {m : M Unit} (h : Keeps Inv m) : Keeps Inv (noted m) :=
  Keeps.tryCatch h fun e => Keeps.ite (Keeps.modify fun _ h => h) (Keeps.throw e)

theorem readQueued_keeps (cs : List PipelineCommand) : Keeps Inv (readQueued cs) := by
  induction cs with
  | nil => exact Keeps.pure ()
  | cons c cs ih =>
    exact Keeps.bind (noted_keeps (discard_keeps (readResponse_keeps c.command))) fun _ => ih

theorem parseAll_keeps (cs : List PipelineCommand) : Keeps Inv (parseAll cs) := by
  induction cs with
  | nil => exact Keeps.pure ()
  | cons c cs ih => exact Keeps.bind (noted_keeps (parseResponse_keeps c)) fun _ => ih

theorem raiseFirstError_keeps (o : ExchangeOutcome) : Keeps Inv (raiseFirstError o) := by
  refine Keeps.bind Keeps.get fun s => ?_
  cases firstError o s.errors with
  | none => exact Keeps.pure ()
  | some e => exact Keeps.throw e

theorem readExec_keeps : Keeps Inv readExec :=
  Keeps.tryCatch (readResponse_keeps .EXEC) fun _ =>
    Keeps.bind Keeps.get fun _ => Keeps.ite (Keeps.throw _) (Keeps.throw _)

theorem checkResponse_keeps (o : ExchangeOutcome) : Keeps Inv (checkResponse o) :=
  Keeps.ite (Keeps.throw _)
    (Keeps.ite (Keeps.bind disconnect_keeps fun _ => Keeps.throw _) (Keeps.pure _))

theorem finishTransaction_keeps (raise_on_error : Bool) : Keeps Inv (finishTransaction raise_on_error) := by
  refine Keeps.bind readExec_keeps fun o => ?_
  refine Keeps.bind (Keeps.modify fun _ h => h) fun _ => ?_
  refine Keeps.bind (checkResponse_keeps o) fun _ => ?_
  exact Keeps.ite (raiseFirstError_keeps o) (Keeps.pure ())

theorem executeTransaction_keeps (stack : List PipelineCommand) (raise_on_error : Bool) :
    Keeps Inv (_executeTransaction stack raise_on_error) := by
  refine Keeps.bind send_keeps fun _ => ?_
  refine Keeps.bind (Keeps.modify fun _ h => h) fun _ => ?_
  refine Keeps.bind (noted_keeps (discard_keeps (readResponse_keeps .MULTI))) fun _ => ?_
  exact Keeps.bind (readQueued_keeps stack) fun _ => finishTransaction_keeps raise_on_error

theorem executePipeline_keeps (stack : List PipelineCommand) (raise_on_error : Bool) :
    Keeps Inv (_executePipeline stack raise_on_error) := by
  refine Keeps.bind send_keeps fun _ => ?_
  refine Keeps.bind (Keeps.modify fun _ h => h) fun _ => ?_
  refine Keeps.bind (parseAll_keeps stack) fun _ => ?_
  exact Keeps.ite (raiseFirstError_keeps .ok) (Keeps.pure ())

theorem executeStack_keeps (raise_on_error : Bool) : Keeps Inv (executeStack cfg raise_on_error) :=
  Keeps.bind Keeps.get fun _ => callWithRetry_keeps
    (Keeps.ite (executeTransaction_keeps _ _) (executePipeline_keeps _ _)) disconnectRaiseReset_keeps _

/-- A connection that has just been got is the next one. -/
theorem inv_got (hs : Inv s) (h : s.connection = none) (outcomes : List ExchangeOutcome) :
    Inv { s with
      outcomes := outcomes, connection := some s.taken, session := {}, taken := s.taken + 1 } := by
  refine ⟨fun id => ?_, hs.2⟩
  have := hs.1 id
  rw [h] at this
  simp only [Option.toList_none, List.count_nil, Nat.add_zero] at this
  simp only [Option.toList_some, List.count_singleton, this]
  by_cases hlt : id < s.taken
  · simp [hlt, Nat.lt_succ_of_lt hlt, (Nat.ne_of_lt hlt).symm]
  · by_cases heq : id = s.taken
    · simp [heq]
    · have : ¬id < s.taken + 1 := by omega
      simp [hlt, this, Ne.symm heq]

theorem getConnection_run (s : WatchPipeline) :
    getConnection.run s =
      match s.outcomes.headD .ok with
      | .lost e => .error e { s with outcomes := s.outcomes.tail }
      | .reply e => .error e { s with outcomes := s.outcomes.tail }
      | _ => .ok () { s with
          outcomes := s.outcomes.tail, connection := some s.taken, session := {}, taken := s.taken + 1 } := by
  unfold getConnection
  rw [EStateM.run_bind, draw_run]
  cases s.outcomes.headD .ok <;> rfl

theorem getConnection_post (hs : Inv s) (h : s.connection = none) :
    Post (getConnection.run s) (fun _ => Inv) (fun _ => Inv) := by
  rw [getConnection_run]
  split
  · exact hs
  · exact hs
  · exact inv_got hs h _

theorem ensureConnection_keeps : Keeps Inv ensureConnection :=
  fun _ hs => Post.get_bind <|
    Post.ite (fun h => getConnection_post hs (Option.isNone_iff_eq_none.mp h)) fun _ => hs

theorem immediateExecuteCommand_keeps (c : PipelineCommand) :
    Keeps Inv (immediateExecuteCommand cfg c) :=
  Keeps.bind ensureConnection_keeps fun _ => callWithRetry_keeps
    (Keeps.bind send_keeps fun _ => parseResponse_keeps c) disconnectResetRaise_keeps _

theorem executeCommand_keeps (c : PipelineCommand) : Keeps Inv (executeCommand cfg c) :=
  Keeps.bind Keeps.get fun _ =>
    Keeps.ite (immediateExecuteCommand_keeps c) (Keeps.modify fun _ h => h)

theorem multi_keeps : Keeps Inv multi :=
  Keeps.bind Keeps.get fun _ =>
    Keeps.ite (Keeps.throw _) (Keeps.ite (Keeps.throw _) (Keeps.modify fun _ h => h))

theorem watch_keeps : Keeps Inv (watch cfg) :=
  Keeps.bind Keeps.get fun _ => Keeps.ite (Keeps.throw _) (executeCommand_keeps _)

theorem unwatch_keeps : Keeps Inv (unwatch cfg) :=
  Keeps.bind Keeps.get fun _ => Keeps.ite (executeCommand_keeps _) (Keeps.pure ())

/-! ### `execute` -/

/-- The state in which `execute` begins its `try` block, when it gets a connection. -/
def withConnection (s : WatchPipeline) : Option WatchPipeline :=
  if s.connection = none then
    match s.outcomes.headD .ok with
    | .lost _ => none
    | .reply _ => none
    | _ => some { s with
        outcomes := s.outcomes.tail, connection := some s.taken, session := {}, taken := s.taken + 1 }
  else some s

/-! #### What the outcomes come to -/

/-- How what is sent ends: it goes on, it raises, or `reset` is called before it raises. -/
inductive Ending where
  | returned (v : Outlook)
  | raised (v : Outlook)
  | reset (v : Outlook)

namespace Outlook

def sends (v : Outlook) : Outlook × Option Exc :=
  match v.next with
  | .lost e => (v.dropNext.lose, some e)
  | .renewed => (v.dropNext.lose, none)
  | _ => (v.dropNext, none)

/-- The reply to one of them is read. -/
def reads (c : ServerCommand) (v : Outlook) : Outlook × Option Exc :=
  match v.next with
  | .lost e => (v.dropNext.lose, some e)
  | .reply e => ({ v.dropNext with session := v.session.refuse c }, some e)
  | _ =>
    match v.session.serve c with
    | none => (v.dropNext, some { cls := .ResponseError })
    | some session => ({ v.dropNext with session := session }, none)

/-- One thing after another, up to the first exception. -/
def andThen (f g : Outlook → Outlook × Option Exc) (v : Outlook) : Outlook × Option Exc :=
  match f v with
  | (v, none) => g v
  | (v, some e) => (v, some e)

/-- An error reply is no exception. -/
def noting (f : Outlook → Outlook × Option Exc) (v : Outlook) : Outlook × Option Exc :=
  match f v with
  | (v, none) => (v, none)
  | (v, some e) =>
    if e.isinstance .ResponseError then ({ v with errors := v.errors ++ [e] }, none) else (v, some e)

/-- The pipeline learns from a reply whether it watches. -/
def parses (c : PipelineCommand) : Outlook → Outlook × Option Exc :=
  andThen (reads c.command) fun v => ({ v with watching := watchingAfter c v.watching }, none)

def readsEach (f : PipelineCommand → Outlook → Outlook × Option Exc) :
    List PipelineCommand → Outlook → Outlook × Option Exc
  | [], v => (v, none)
  | c :: cs, v => andThen (noting (f c)) (readsEach f cs) v

/-- No reply to the stack has been read. -/
def begins (v : Outlook) : Outlook × Option Exc := ({ v with errors := [] }, none)

/-- The first error is raised, if any is to be. -/
def raisesFirst (raise_on_error : Bool) (o : ExchangeOutcome) (v : Outlook) : Outlook × Option Exc :=
  (v, if raise_on_error then firstError o v.errors else none)

def readsExec (raise_on_error : Bool) (v : Outlook) : Outlook × Option Exc :=
  match v.next, v.reads .EXEC with
  | _, (v, some e) => (v, some (if e.isinstance .ExecAbortError then v.errors.headD e else e))
  | .nil, (v, none) =>
    ({ v with watching := false }, some { cls := .WatchError, msg := "Watched variable changed." })
  | .short, (v, none) =>
    ({ v with watching := false, session := {} },
      some { cls := .ResponseError, msg := "Wrong number of response items from pipeline execution" })
  | o, (v, none) => raisesFirst raise_on_error o { v with watching := false }

def transacts (stack : List PipelineCommand) (raise_on_error : Bool) : Outlook → Outlook × Option Exc :=
  andThen sends (andThen begins (andThen (noting (reads .MULTI))
    (andThen (readsEach (fun c => reads c.command) stack) (readsExec raise_on_error))))

def pipelines (stack : List PipelineCommand) (raise_on_error : Bool) : Outlook → Outlook × Option Exc :=
  andThen sends (andThen begins (andThen (readsEach parses stack) (raisesFirst raise_on_error .ok)))

/-- What is tried, over and over: after a supported error the connection is lost. A pipeline that
watches is done then, and is reset if it `resets`. -/
def tries (cfg : PipelineSettings) (resets : Bool) (f : Outlook → Outlook × Option Exc) :
    (retries : Nat) → Outlook → Ending
  | retries, v =>
    match f v with
    | (v, none) => .returned v
    | (v, some e) =>
      if cfg.supported_errors e then
        if v.watching then if resets then .reset v.lose else .raised v.lose
        else if cfg.retry_on_error e then
          match retries with
          | 0 => .raised v.lose
          | retries + 1 => tries cfg resets f retries v.lose
        else .reset v.lose
      else .raised v

/-- A command is executed at once. -/
def immediately (cfg : PipelineSettings) (c : PipelineCommand) : Outlook → Ending :=
  tries cfg true (andThen sends (parses c)) cfg.retries

def loads (cfg : PipelineSettings) : List Bool → Outlook → Ending
  | [], v => .returned v
  | exist :: exists_, v =>
    if exist then loads cfg exists_ v
    else
      match v.immediately cfg { command := .other } with
      | .returned v => loads cfg exists_ v
      | r => r

def loadsAll (cfg : PipelineSettings) (exists_ : List Bool) (v : Outlook) : Ending :=
  match v.immediately cfg { command := .other } with
  | .returned v => v.loads cfg exists_
  | r => r

def executes (cfg : PipelineSettings) (s : WatchPipeline) (raise_on_error : Bool) : Outlook → Ending :=
  tries cfg false
    (if cfg.transaction || s.explicit_transaction then transacts s.command_stack raise_on_error
      else pipelines s.command_stack raise_on_error) cfg.retries

end Outlook

/-- The connection can be given back in the end. -/
def Ending.Ready : Ending → Prop
  | .returned v => v.Ready
  | .raised v => v.Ready
  | .reset v => v.Ready

/-- What `execute` needs of its scripts: they are loaded, and what follows goes well, or the
pipeline is reset. -/
def Ending.Goes (r : Ending) (next : Outlook → Prop) : Prop :=
  match r with
  | .returned v => next v
  | .raised _ => False
  | .reset v => v.Ready

/-- What `execute` needs of the state before it and of the outcomes: with nothing to do it holds
no connection; otherwise it gets one, the scripts are loaded, and when the stack has been
executed `reset` can give the connection back. -/
def Executable (cfg : PipelineSettings) (exists_ : List Bool) (raise_on_error : Bool)
    (s : WatchPipeline) : Prop :=
  if s.command_stack = [] ∧ s.watching = false then s.connection = none
  else
    ∃ s₁, withConnection s = some s₁ ∧
      if s.scripts ≠ 0 then
        (s₁.outlook.loadsAll cfg (exists_.take s.scripts)).Goes fun v => (v.executes cfg s raise_on_error).Ready
      else (s₁.outlook.executes cfg s raise_on_error).Ready

/-- Without a connection the pipeline is as it was. -/
theorem ensureConnection_run (s : WatchPipeline) :
    (∃ s₁, withConnection s = some s₁ ∧ ensureConnection.run s = .ok () s₁) ∨
      ∃ e, withConnection s = none ∧
        ensureConnection.run s = .error e { s with outcomes := s.outcomes.tail } := by
  unfold withConnection
  by_cases hconn : s.connection = none
  · have hrun : ensureConnection.run s = getConnection.run s := by
      simp [ensureConnection, hconn]
    rw [hrun, getConnection_run, if_pos hconn]
    cases s.outcomes.headD .ok with
    | lost e => exact .inr ⟨e, rfl, rfl⟩
    | reply e => exact .inr ⟨e, rfl, rfl⟩
    | _ => exact .inl ⟨_, rfl, rfl⟩
  · have hrun : ensureConnection.run s = .ok () s := by
      simp [ensureConnection, hconn]
    rw [if_neg hconn]
    exact .inl ⟨s, rfl, hrun⟩

theorem released_of_idle (hs : Inv s) (h : s.command_stack = [] ∧ s.watching = false) :
    Released s ↔ s.connection = none := by
  refine ⟨fun hrel => hrel.connection, fun hconn => ⟨hconn, h.2, h.1, fun id hid => ?_, hs.2⟩⟩
  have := hs.1 id
  rwa [hconn, if_pos hid] at this

/-- The pipeline with this outlook. -/
def facing (s : WatchPipeline) (v : Outlook) : WatchPipeline :=
  { s with watching := v.watching, session := v.session, outcomes := v.outcomes, errors := v.errors }

/-- What is done on the connection comes to `r`. -/
def comes (s : WatchPipeline) (r : Outlook × Option Exc) : EStateM.Result Exc WatchPipeline Unit :=
  match r.2 with
  | none => .ok () (s.facing r.1)
  | some e => .error e (s.facing r.1)

/-- A program changes nothing but the outlook, and that as `f` says. -/
def Follows (m : M Unit) (f : Outlook → Outlook × Option Exc) : Prop :=
  ∀ s, m.run s = s.comes (f s.outlook)

theorem Follows.bind {m m' : M Unit} {f g : Outlook → Outlook × Option Exc} (hm : Follows m f)
    (hm' : Follows m' g) : Follows (m >>= fun _ => m') (Outlook.andThen f g) := by
  intro s
  rw [EStateM.run_bind, hm s]
  unfold Outlook.andThen
  rcases f s.outlook with ⟨v, _ | e⟩
  · exact hm' (s.facing v)
  · rfl

theorem Follows.noted {m : M Unit} {f : Outlook → Outlook × Option Exc} (hm : Follows m f) :
    Follows (noted m) (Outlook.noting f) := by
  intro s
  unfold WatchPipeline.noted Outlook.noting
  rw [run_tryCatch, hm s]
  rcases f s.outlook with ⟨v, _ | e⟩
  · rfl
  · simp only [comes]
    split <;> rfl

theorem follows_send : Follows send Outlook.sends := by
  intro s
  rw [send_run]
  change _ = s.comes (match s.outcomes.headD .ok with
    | .lost e => _
    | .renewed => _
    | _ => _)
  cases s.outcomes.headD .ok <;> rfl

theorem follows_read (c : ServerCommand) :
    Follows (discard (readResponse c)) (Outlook.reads c) := by
  intro s
  rw [run_discard, readResponse_run]
  change _ = s.comes (match s.outcomes.headD .ok with
    | .lost e => _
    | .reply e => _
    | _ => match s.session.serve c with
      | none => _
      | some session => _)
  cases s.outcomes.headD .ok with
  | lost e => rfl
  | reply e => rfl
  | _ => cases s.session.serve c <;> rfl

theorem follows_parse (c : PipelineCommand) : Follows (parseResponse c) (Outlook.parses c) :=
  (follows_read c.command).bind fun _ => rfl

theorem follows_readQueued (cs : List PipelineCommand) :
    Follows (readQueued cs) (Outlook.readsEach (fun c => Outlook.reads c.command) cs) := by
  induction cs with
  | nil => exact fun _ => rfl
  | cons c cs ih => exact (follows_read c.command).noted.bind ih

theorem follows_parseAll (cs : List PipelineCommand) :
    Follows (parseAll cs) (Outlook.readsEach Outlook.parses cs) := by
  induction cs with
  | nil => exact fun _ => rfl
  | cons c cs ih => exact (follows_parse c).noted.bind ih

theorem follows_begins :
    Follows (modify fun s => { s with errors := [] } : M Unit) Outlook.begins := fun _ => rfl

theorem follows_raisesFirst (raise_on_error : Bool) (o : ExchangeOutcome) :
    Follows (if raise_on_error then raiseFirstError o else pure ())
      (Outlook.raisesFirst raise_on_error o) := by
  intro s
  have herrors : s.outlook.errors = s.errors := rfl
  unfold Outlook.raisesFirst
  rw [herrors]
  cases raise_on_error with
  | false => rfl
  | true =>
    simp only [if_true, raiseFirstError, EStateM.run_bind, EStateM.run_get]
    cases firstError o s.errors <;> rfl

theorem follows_finish (raise_on_error : Bool) :
    Follows (finishTransaction raise_on_error) (Outlook.readsExec raise_on_error) := by
  intro s
  have hnext : s.outlook.next = s.outcomes.headD .ok := rfl
  have hsession : s.outlook.session = s.session := rfl
  have hrun : readExec.run s = match (readResponse .EXEC).run s with
      | .ok o s' => .ok o s'
      | .error e s' => .error (if e.isinstance .ExecAbortError then s'.errors.headD e else e) s' := by
    unfold readExec
    rw [run_tryCatch]
    cases (readResponse .EXEC).run s with
    | ok o s' => rfl
    | error e s' =>
      simp only [EStateM.run_bind, EStateM.run_get]
      split <;> rfl
  unfold finishTransaction Outlook.readsExec Outlook.reads
  rw [EStateM.run_bind, hrun, readResponse_run, hnext, hsession]
  cases s.outcomes.headD .ok with
  | lost e => rfl
  | reply e => rfl
  | nil => cases s.session.serve .EXEC <;> rfl
  | short => cases s.session.serve .EXEC <;> rfl
  | ok =>
    cases s.session.serve .EXEC with
    | none => rfl
    | some session => exact follows_raisesFirst raise_on_error .ok _
  | failed e =>
    cases s.session.serve .EXEC with
    | none => rfl
    | some session => exact follows_raisesFirst raise_on_error (.failed e) _
  | renewed =>
    cases s.session.serve .EXEC with
    | none => rfl
    | some session => exact follows_raisesFirst raise_on_error .renewed _

theorem follows_transaction (stack : List PipelineCommand) (raise_on_error : Bool) :
    Follows (_executeTransaction stack raise_on_error) (Outlook.transacts stack raise_on_error) :=
  follows_send.bind (follows_begins.bind ((follows_read .MULTI).noted.bind
    ((follows_readQueued stack).bind (follows_finish raise_on_error))))

theorem follows_pipeline (stack : List PipelineCommand) (raise_on_error : Bool) :
    Follows (_executePipeline stack raise_on_error) (Outlook.pipelines stack raise_on_error) :=
  follows_send.bind (follows_begins.bind ((follows_parseAll stack).bind
    (follows_raisesFirst raise_on_error .ok)))

/-- What is run on the connection ends like this. -/
def EndsAs (s : WatchPipeline) (r : EStateM.Result Exc WatchPipeline Unit) : Ending → Prop
  | .returned v => r = .ok () (s.facing v)
  | .raised v => ∃ e, r = .error e (s.facing v)
  | .reset v => ∃ e, r = .error e (state (reset.run (s.facing v)))

theorem resetAndRaise_run (e : Exc) (s : WatchPipeline) :
    ∃ e', (resetAndRaise e).run s = .error e' (state (reset.run s)) := by
  unfold resetAndRaise
  rw [EStateM.run_bind]
  cases reset.run s with
  | ok u s' => exact ⟨e, rfl⟩
  | error e' s' => exact ⟨e', rfl⟩

/-- What a lost connection comes to in `call_with_retry`. -/
structure Fails (cfg : PipelineSettings) (resets : Bool) (fail : Exc → M Unit) : Prop where
  watching : ∀ e (s : WatchPipeline), s.watching = true → s.EndsAs ((fail e).run s)
    (if resets then .reset s.outlook.lose else .raised s.outlook.lose)
  again : ∀ e (s : WatchPipeline), s.watching = false → cfg.retry_on_error e = true →
    (fail e).run s = .ok () (s.facing s.outlook.lose)
  done : ∀ e (s : WatchPipeline), s.watching = false → cfg.retry_on_error e = false →
    s.EndsAs ((fail e).run s) (.reset s.outlook.lose)

variable (cfg) in
theorem fails_disconnectResetRaise : Fails cfg true (_disconnectResetRaise cfg) where
  watching e s h := by
    have hrun : (_disconnectResetRaise cfg e).run s =
        (resetAndRaise { cls := .WatchError }).run (s.facing s.outlook.lose) := by
      simp [_disconnectResetRaise, disconnect, facing, outlook, Outlook.lose, h]
    rw [hrun]
    exact resetAndRaise_run _ _
  again e s h he := by
    simp [_disconnectResetRaise, disconnect, facing, outlook, Outlook.lose, h, he]
  done e s h he := by
    have hrun : (_disconnectResetRaise cfg e).run s =
        (resetAndRaise e).run (s.facing s.outlook.lose) := by
      simp [_disconnectResetRaise, disconnect, facing, outlook, Outlook.lose, h, he]
    rw [hrun]
    exact resetAndRaise_run _ _

variable (cfg) in
theorem fails_disconnectRaiseReset : Fails cfg false (_disconnectRaiseReset cfg) where
  watching e s h := by
    refine ⟨{ cls := .WatchError }, ?_⟩
    simp [_disconnectRaiseReset, disconnect, facing, outlook, Outlook.lose, h]
  again e s h he := by
    simp [_disconnectRaiseReset, disconnect, facing, outlook, Outlook.lose, h, he]
  done e s h he := by
    have hrun : (_disconnectRaiseReset cfg e).run s =
        (resetAndRaise e).run (s.facing s.outlook.lose) := by
      simp [_disconnectRaiseReset, disconnect, facing, outlook, Outlook.lose, h, he]
    rw [hrun]
    exact resetAndRaise_run _ _

theorem EndsAs.facing {v : Outlook} {r : EStateM.Result Exc WatchPipeline Unit} {x : Ending}
    (h : (s.facing v).EndsAs r x) : s.EndsAs r x := by
  cases x <;> exact h

theorem EndsAs.raises {m next : M Unit} {s' : WatchPipeline} {x : Ending} (h : s.EndsAs (m.run s') x)
    (hx : ∀ v, x ≠ .returned v) : s.EndsAs ((m >>= fun _ => next).run s') x := by
  rw [EStateM.run_bind]
  cases x with
  | returned v => exact absurd rfl (hx v)
  | raised v =>
    obtain ⟨e, he⟩ := h
    rw [he]
    exact ⟨e, rfl⟩
  | reset v =>
    obtain ⟨e, he⟩ := h
    rw [he]
    exact ⟨e, rfl⟩

/-- The connection is lost, and what is `next` is done if it is tried again. -/
theorem failed_ends {resets : Bool} {fail : Exc → M Unit} (hfail : Fails cfg resets fail) (e : Exc)
    (s : WatchPipeline) (v : Outlook) {next : M Unit} {r : Ending}
    (hnext : s.EndsAs (next.run (s.facing v.lose)) r) :
    s.EndsAs ((fail e >>= fun _ => next).run (s.facing v))
      (if v.watching then if resets then .reset v.lose else .raised v.lose
        else if cfg.retry_on_error e then r
        else .reset v.lose) := by
  by_cases hw : v.watching = true
  · have hends := (hfail.watching e (s.facing v) hw).facing
    rw [if_pos hw]
    exact hends.raises (by cases resets <;> simp)
  · rw [if_neg hw]
    rw [Bool.not_eq_true] at hw
    by_cases hretry : cfg.retry_on_error e = true
    · rw [if_pos hretry, EStateM.run_bind, hfail.again e (s.facing v) hw hretry]
      exact hnext
    · rw [if_neg hretry]
      have hends := (hfail.done e (s.facing v) hw (Bool.not_eq_true _ ▸ hretry)).facing
      exact hends.raises fun v h => by cases h

/-- The attempts follow the outlook. -/
theorem callWithRetry_ends {resets : Bool} {fail : Exc → M Unit} (hfail : Fails cfg resets fail)
    {m : M Unit} {f : Outlook → Outlook × Option Exc} (hm : Follows m f) (retries : Nat)
    (s : WatchPipeline) :
    s.EndsAs ((callWithRetry cfg m fail retries).run s) (s.outlook.tries cfg resets f retries) := by
  induction retries generalizing s with
  | zero =>
    unfold callWithRetry Outlook.tries
    rw [run_tryCatch, hm s]
    rcases f s.outlook with ⟨v, _ | e⟩
    · rfl
    · simp only [comes]
      split
      · exact failed_ends hfail e s v ⟨e, rfl⟩
      · exact ⟨e, rfl⟩
  | succ retries ih =>
    unfold callWithRetry Outlook.tries
    rw [run_tryCatch, hm s]
    rcases f s.outlook with ⟨v, _ | e⟩
    · rfl
    · simp only [comes]
      split
      · exact failed_ends hfail e s v (ih (s.facing v.lose)).facing
      · exact ⟨e, rfl⟩

/-- A pipeline that is reset while its stack is executed does not watch, on a connection that is
closed. -/
theorem tries_reset {f : Outlook → Outlook × Option Exc} {retries : Nat} {v w : Outlook}
    (h : v.tries cfg false f retries = .reset w) : w.watching = false ∧ w.session = {} := by
  induction retries generalizing v with
  | zero =>
    unfold Outlook.tries at h
    rcases hf : f v with ⟨u, _ | e⟩
    · simp [hf] at h
    · simp only [hf] at h
      split at h
      · split at h
        · cases h
        · rename_i hw
          split at h
          · cases h
          · cases h
            exact ⟨by simpa [Outlook.lose] using hw, rfl⟩
      · cases h
  | succ retries ih =>
    unfold Outlook.tries at h
    rcases hf : f v with ⟨u, _ | e⟩
    · simp [hf] at h
    · simp only [hf] at h
      split at h
      · split at h
        · cases h
        · rename_i hw
          split at h
          · exact ih h
          · cases h
            exact ⟨by simpa [Outlook.lose] using hw, rfl⟩
      · cases h

/-! #### The whole of it -/

theorem immediate_ends (c : PipelineCommand) (hconn : s.connection ≠ none) :
    s.EndsAs ((immediateExecuteCommand cfg c).run s) (s.outlook.immediately cfg c) := by
  have hrun : (immediateExecuteCommand cfg c).run s =
      (callWithRetry cfg (do
        send
        parseResponse c) (_disconnectResetRaise cfg) cfg.retries).run s := by
    simp [immediateExecuteCommand, ensureConnection, hconn]
  rw [hrun]
  exact callWithRetry_ends (fails_disconnectResetRaise cfg) (follows_send.bind (follows_parse c)) _ s

theorem loadMissing_ends (exists_ : List Bool) (hconn : s.connection ≠ none) :
    s.EndsAs ((loadMissing cfg exists_).run s) (s.outlook.loads cfg exists_) := by
  induction exists_ generalizing s with
  | nil => rfl
  | cons exist exists_ ih =>
    unfold loadMissing Outlook.loads
    cases exist with
    | true => exact ih hconn
    | false =>
      have hends : s.EndsAs ((immediateExecuteCommand cfg { command := .other }).run s) _ :=
        immediate_ends _ hconn
      simp only [Bool.not_false, if_true]
      generalize s.outlook.immediately cfg { command := .other } = r at hends
      cases r with
      | returned v =>
        rw [EStateM.run_bind, hends]
        exact (ih (s := s.facing v) hconn).facing
      | raised v => exact hends.raises fun v h => by cases h
      | reset v => exact hends.raises fun v h => by cases h

theorem loadScripts_ends (exists_ : List Bool) (hconn : s.connection ≠ none) :
    s.EndsAs ((loadScripts cfg exists_).run s) (s.outlook.loadsAll cfg (exists_.take s.scripts)) := by
  have hends : s.EndsAs ((immediateExecuteCommand cfg { command := .other }).run s) _ :=
    immediate_ends _ hconn
  unfold loadScripts Outlook.loadsAll
  rw [EStateM.run_bind, EStateM.run_get]
  simp only
  generalize s.outlook.immediately cfg { command := .other } = r at hends
  cases r with
  | returned v =>
    rw [EStateM.run_bind, hends]
    exact (loadMissing_ends (s := s.facing v) _ hconn).facing
  | raised v => exact hends.raises fun v h => by cases h
  | reset v => exact hends.raises fun v h => by cases h

theorem executeStack_ends (s : WatchPipeline) (raise_on_error : Bool) :
    s.EndsAs ((executeStack cfg raise_on_error).run s) (s.outlook.executes cfg s raise_on_error) := by
  have hrun : (executeStack cfg raise_on_error).run s =
      (callWithRetry cfg
        (if cfg.transaction || s.explicit_transaction then
            _executeTransaction s.command_stack raise_on_error
          else _executePipeline s.command_stack raise_on_error)
        (_disconnectRaiseReset cfg) cfg.retries).run s := rfl
  rw [hrun]
  refine callWithRetry_ends (fails_disconnectRaiseReset cfg) ?_ _ s
  split
  · exact follows_transaction _ _
  · exact follows_pipeline _ _

theorem resettable_of_held (hconn : s.connection ≠ none) : Resettable s ↔ s.outlook.Ready :=
  or_iff_right hconn

/-- Where the stack is executed on a connection, `finally` gives it back if it can. -/
theorem executed_resettable_iff (hs : Inv s) (hconn : s.connection ≠ none) (raise_on_error : Bool) :
    Resettable (state ((executeStack cfg raise_on_error).run s)) ↔ (s.outlook.executes cfg s raise_on_error).Ready := by
  have hends : s.EndsAs ((executeStack cfg raise_on_error).run s) _ := executeStack_ends s raise_on_error
  cases hr : s.outlook.executes cfg s raise_on_error with
  | returned v =>
    rw [hr] at hends
    rw [hends]
    exact resettable_of_held (s := s.facing v) hconn
  | raised v =>
    rw [hr] at hends
    obtain ⟨e, he⟩ := hends
    rw [he]
    exact resettable_of_held (s := s.facing v) hconn
  | reset v =>
    rw [hr] at hends
    obtain ⟨e, he⟩ := hends
    obtain ⟨hw, hsession⟩ := tries_reset hr
    have hready : v.Ready := .inr ⟨hw, by rw [hsession]⟩
    have hinv : Inv (s.facing v) := hs
    have hreleased := (reset_released_iff hinv).mpr (.inr hready)
    rw [he]
    exact iff_of_true (.inl hreleased.connection) hready

/-- The stack is executed on a connection. -/
theorem executing_released_iff (hs : Inv s) (hconn : s.connection ≠ none) (raise_on_error : Bool) :
    (Released (state ((tryFinally (executeStack cfg raise_on_error) reset).run s)) ↔
      (s.outlook.executes cfg s raise_on_error).Ready) ∧
      Counted (state ((tryFinally (executeStack cfg raise_on_error) reset).run s)) := by
  have hinv : Inv (state ((executeStack cfg raise_on_error).run s)) :=
    (executeStack_keeps raise_on_error s hs).state
  rw [state_tryFinally, reset_released_iff hinv]
  exact ⟨executed_resettable_iff hs hconn raise_on_error, reset_counted hinv.1⟩

theorem loadMissing_keeps (exists_ : List Bool) : Keeps Inv (loadMissing cfg exists_) := by
  induction exists_ with
  | nil => exact Keeps.pure ()
  | cons exist exists_ ih =>
    cases exist with
    | true => exact ih
    | false => exact Keeps.bind (immediateExecuteCommand_keeps _) fun _ => ih

theorem loadScripts_keeps (exists_ : List Bool) : Keeps Inv (loadScripts cfg exists_) :=
  Keeps.bind Keeps.get fun _ =>
    Keeps.bind (immediateExecuteCommand_keeps _) fun _ => loadMissing_keeps _

theorem ensureConnection_of_held (hconn : s.connection ≠ none) : ensureConnection.run s = .ok () s := by
  simp [ensureConnection, hconn]

/-- What `withConnection` leaves as it is. -/
theorem withConnection_held {s₁ : WatchPipeline} (h : withConnection s = some s₁) :
    s₁.connection ≠ none ∧ s₁.scripts = s.scripts ∧ s₁.command_stack = s.command_stack ∧
      s₁.explicit_transaction = s.explicit_transaction := by
  unfold withConnection at h
  split at h
  · split at h
    · cases h
    · cases h
    · cases h
      simp
  · rename_i hconn
    cases h
    exact ⟨hconn, rfl, rfl, rfl⟩

/-- On a connection, from the scripts on. -/
theorem loading_released_iff (hs : Inv s) (hconn : s.connection ≠ none) (exists_ : List Bool)
    (raise_on_error : Bool) :
    (Released (state ((do
        loadScripts cfg exists_
        ensureConnection
        tryFinally (executeStack cfg raise_on_error) reset : M Unit).run s)) ↔
      (s.outlook.loadsAll cfg (exists_.take s.scripts)).Goes fun v => (v.executes cfg s raise_on_error).Ready) ∧
      Counted (state ((do
        loadScripts cfg exists_
        ensureConnection
        tryFinally (executeStack cfg raise_on_error) reset : M Unit).run s)) := by
  have hends : s.EndsAs ((loadScripts cfg exists_).run s) _ := loadScripts_ends exists_ hconn
  rw [EStateM.run_bind]
  generalize s.outlook.loadsAll cfg (exists_.take s.scripts) = r at hends
  cases r with
  | returned v =>
    have hrun : (do
        ensureConnection
        tryFinally (executeStack cfg raise_on_error) reset : M Unit).run (s.facing v) =
        (tryFinally (executeStack cfg raise_on_error) reset).run (s.facing v) := by
      simp [ensureConnection, facing, hconn]
    rw [hends]
    simp only [hrun]
    exact executing_released_iff (s := s.facing v) hs hconn raise_on_error
  | raised v =>
    obtain ⟨e, he⟩ := hends
    rw [he]
    exact ⟨iff_of_false (fun hrel => hconn hrel.connection) id, hs.1⟩
  | reset v =>
    obtain ⟨e, he⟩ := hends
    have hinv : Inv (s.facing v) := hs
    rw [he]
    refine ⟨(reset_released_iff hinv).trans ?_, reset_counted hinv.1⟩
    exact resettable_of_held (s := s.facing v) hconn

variable (cfg) in
/-- `execute` ends as it should when the state that it starts in and the outcomes allow it, and
only then. -/
theorem execute_released_iff (hs : Inv s) (exists_ : List Bool) (raise_on_error : Bool) :
    (Released (state ((execute cfg exists_ raise_on_error).run s)) ↔
      Executable cfg exists_ raise_on_error s) ∧
      Counted (state ((execute cfg exists_ raise_on_error).run s)) := by
  unfold Executable
  by_cases hidle : s.command_stack = [] ∧ s.watching = false
  · have hrun : (execute cfg exists_ raise_on_error).run s = .ok () s := by
      simp [execute, hidle]
    rw [hrun, if_pos hidle]
    exact ⟨released_of_idle hs hidle, hs.1⟩
  · have hkept := ensureConnection_keeps s hs
    rw [if_neg hidle]
    rcases ensureConnection_run s with ⟨s₁, hwith, hgot⟩ | ⟨e, hwith, hfailed⟩
    · obtain ⟨hconn, hscripts, hstack, hexplicit⟩ := withConnection_held hwith
      have hexecutes (v : Outlook) :
          v.executes cfg s raise_on_error = v.executes cfg s₁ raise_on_error := by
        simp [Outlook.executes, hstack, hexplicit]
      rw [hgot] at hkept
      simp only [hwith, Option.some.injEq, exists_eq_left', hexecutes]
      by_cases hloads : s.scripts ≠ 0
      · have hrun : (execute cfg exists_ raise_on_error).run s = (do
            loadScripts cfg exists_
            ensureConnection
            tryFinally (executeStack cfg raise_on_error) reset : M Unit).run s₁ := by
          simp [execute, hidle, hloads, loadScripts, immediateExecuteCommand, hgot, hscripts,
            ensureConnection_of_held hconn]
        rw [hrun, if_pos hloads, ← hscripts]
        exact loading_released_iff hkept hconn exists_ raise_on_error
      · have hrun : (execute cfg exists_ raise_on_error).run s = (tryFinally (executeStack cfg raise_on_error) reset).run s₁ := by
          have hnone : s.scripts = 0 := not_not.mp hloads
          simp [execute, hidle, hnone, hgot]
        rw [hrun, if_neg hloads]
        exact executing_released_iff hkept hconn raise_on_error
    · have hrun : (execute cfg exists_ raise_on_error).run s = .error e { s with outcomes := s.outcomes.tail } := by
        by_cases hnone : s.scripts = 0 <;>
          simp [execute, hidle, hnone, loadScripts, immediateExecuteCommand, hfailed]
      rw [hrun]
      refine ⟨iff_of_false (fun hrel => hidle ⟨hrel.command_stack, hrel.watching⟩) ?_, hs.1⟩
      rintro ⟨s₁, hsome, -⟩
      rw [hwith] at hsome
      cases hsome

/-! ### Courses -/

/-- `execute`, `reset` and the exit from a context end as they should. -/
def EndsReleased (cfg : PipelineSettings) (s : WatchPipeline) (i : PipelineCall × List ExchangeOutcome) :
    Prop :=
  (∃ exists_ raise_on_error, i.1 = .execute exists_ raise_on_error) ∨ i.1 = .reset ∨ i.1 = .exit → Released (step cfg s i)

/-- What they need of the state before them and of what comes of their operations. -/
def Releasable (cfg : PipelineSettings) (s : WatchPipeline) (i : PipelineCall × List ExchangeOutcome) :
    Prop :=
  (∀ exists_ raise_on_error, i.1 = .execute exists_ raise_on_error →
      Executable cfg exists_ raise_on_error { s with outcomes := i.2 }) ∧
    (i.1 = .reset ∨ i.1 = .exit → Resettable { s with outcomes := i.2 })

theorem step_releases (hs : Inv s) (i : PipelineCall × List ExchangeOutcome) :
    (EndsReleased cfg s i ↔ Releasable cfg s i) ∧ (Releasable cfg s i → Inv (step cfg s i)) := by
  have hs' : Inv { s with outcomes := i.2 } := hs
  obtain ⟨call, outcomes⟩ := i
  cases call with
  | watch => exact ⟨by simp [EndsReleased, Releasable], fun _ => (watch_keeps _ hs').state⟩
  | unwatch => exact ⟨by simp [EndsReleased, Releasable], fun _ => (unwatch_keeps _ hs').state⟩
  | multi => exact ⟨by simp [EndsReleased, Releasable], fun _ => (multi_keeps _ hs').state⟩
  | execute_command c =>
    exact ⟨by simp [EndsReleased, Releasable], fun _ => (executeCommand_keeps c _ hs').state⟩
  | script => exact ⟨by simp [EndsReleased, Releasable], fun _ => hs'⟩
  | execute exists_ raise_on_error =>
    obtain ⟨hiff, hcount⟩ := execute_released_iff cfg hs' exists_ raise_on_error
    refine ⟨by simpa [EndsReleased, Releasable, step, WatchPipeline.call] using hiff,
      fun h => ⟨hcount, ?_⟩⟩
    exact (hiff.mpr (h.1 _ _ rfl)).unwatched
  | reset =>
    have hiff := reset_released_iff hs'
    refine ⟨by simpa [EndsReleased, Releasable, step, WatchPipeline.call] using hiff,
      fun h => ⟨reset_counted hs'.1, ?_⟩⟩
    exact (hiff.mpr (h.2 (.inl rfl))).unwatched
  | exit =>
    have hiff := reset_released_iff hs'
    refine ⟨by simpa [EndsReleased, Releasable, step, WatchPipeline.call] using hiff,
      fun h => ⟨reset_counted hs'.1, ?_⟩⟩
    exact (hiff.mpr (h.2 (.inr rfl))).unwatched

/-- In a run from a new pipeline, `execute`, `reset` and the exit from a context all end with
nothing held, each connection released once and none with a WATCH, just if each of them starts as
it needs to. -/
theorem releases_iff (cfg : PipelineSettings) (calls : List (PipelineCall × List ExchangeOutcome)) :
    Each (step cfg) (EndsReleased cfg) {} calls ↔ Each (step cfg) (Releasable cfg) {} calls := by
  have hnew : Inv {} := ⟨fun id => by simp, fun p hp => nomatch hp⟩
  have hall : Each (step cfg) (fun _ _ => True) {} calls := Each.trivial _ _
  apply each_good_iff (I := Inv) _ _ hnew hall
  · exact fun s i hs _ hok => ⟨(step_releases hs i).1.mpr hok, (step_releases hs i).2 hok⟩
  · exact fun s i hs _ hgood => (step_releases hs i).1.mp hgood

/-- The client's settings when nothing is set. -/
def plainPipeline : PipelineSettings where
  transaction := true
  retries := 0
  supported_errors e := e.isinstance .ConnectionError || e.isinstance .TimeoutError
  retry_on_error _ := false

/-- A watching pipeline whose UNWATCH meets a timeout keeps its connection. -/
theorem reset_timed_out :
    ¬Each (step plainPipeline) (EndsReleased plainPipeline) {}
      [(.watch, []), (.reset, [.ok, .lost { cls := .TimeoutError }])] := by
  rintro ⟨-, h, -⟩
  exact nomatch (h (.inr (.inl rfl))).connection

/-- A pipeline that has stopped watching keeps its connection when it executes nothing. -/
theorem idle_execute_keeps_connection :
    ¬Each (step plainPipeline) (EndsReleased plainPipeline) {}
      [(.watch, []), (.unwatch, []), (.execute [] true, [])] := by
  rintro ⟨-, -, h, -⟩
  exact nomatch (h (.inl ⟨[], true, rfl⟩)).connection

end WatchPipeline

end RedisPy
