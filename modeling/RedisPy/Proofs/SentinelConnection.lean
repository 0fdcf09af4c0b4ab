import Mathlib
import RedisPy.Spec.SentinelConnection

/-! Where reading from a connection that a sentinel manages comes to the same as from a plain
one, and which connections go back to the pool with a reply half read. -/

namespace RedisPy

open Raising

variable {σ : Type} (P : ReplyParser σ) (S : ReadSettings)

/-- What comes of a plain connection's read on one that a sentinel manages: a master that has
become a slave is left. -/
def managed : EStateM.Result Exc (ReadConn σ) PyVal → EStateM.Result Exc (ReadConn σ) PyVal
  | .ok v s => .ok v s
  | .error e s =>
    if e.isinstance .ReadOnlyError ∧ S.is_master then
      .error { cls := .ConnectionError, msg := "The previous master is now a slave" } s.disconnect
    else .error e s

/-- The handler of the override does this to any read. -/
theorem run_readOnlyFails (m : ReadM σ PyVal) (s : ReadConn σ) :
    (tryCatch m (readOnlyFails S)).run s = managed S (m.run s) := by
  rw [run_tryCatch]
  cases m.run s with
  | ok v s' => rfl
  | error e s' =>
    unfold managed readOnlyFails
    by_cases hr : e.isinstance .ReadOnlyError = true
    · by_cases hm : S.is_master = true
      · simp [hr, hm]
      · simp [hr, hm]
    · simp [hr]

/-- What a read comes to once the parser has returned or raised. -/
def afterParser (disconnect_on_error : Bool) (s : ReadConn σ) :
    Except Exc PyVal × σ → EStateM.Result Exc (ReadConn σ) PyVal
  | (.ok response, stream) => (raiseReply response).run { s with stream := stream }
  | (.error e, stream) =>
    let s : ReadConn σ := { s with stream := stream, torn := true }
    .error (readError S e) (if disconnect_on_error then s.disconnect else s)

/-- The parser's outcome for the arguments of the call. -/
def parsed (kw : ReadKwargs) (stream : σ) : Except Exc PyVal × σ :=
  P.read_response (kw.disable_decoding.getD false)
    (if S.passes_push_request then some (kw.push_request.getD false) else none) none stream

/-- The body of either `read_response`, where the caller has set no timeout. -/
theorem run_read (disable_decoding disconnect_on_error push_request : Bool)
    (read_timeout : Option Rat) (s : ReadConn σ) :
    (tryCatch (readReply P S disable_decoding push_request read_timeout)
        (readFails S none disconnect_on_error) >>= raiseReply).run s =
      afterParser S disconnect_on_error s (P.read_response disable_decoding
        (if S.passes_push_request then some push_request else none) read_timeout s.stream) := by
  rw [EStateM.run_bind, run_tryCatch]
  have hread : (readReply P S disable_decoding push_request read_timeout).run s =
      readReply P S disable_decoding push_request read_timeout s := rfl
  rw [hread, readReply]
  rcases P.read_response disable_decoding _ read_timeout s.stream with ⟨e | response, stream⟩
  · simp only [readFails, Option.isSome_none, Bool.false_eq_true, and_false, if_false]
    cases disconnect_on_error with
    | true => rfl
    | false => rfl
  · rfl

theorem run_call (kw : ReadKwargs) (s : ReadConn σ) :
    (Connection.call P S kw).run s =
      afterParser S (kw.disconnect_on_error.getD true) s (parsed P S kw s.stream) :=
  run_read P S ..

theorem run_managed_call (kw : ReadKwargs) (s : ReadConn σ) :
    (SentinelManagedConnection.call P S kw).run s =
      managed S (afterParser S (kw.disconnect_on_error.getD false) s (parsed P S kw s.stream)) := by
  rw [SentinelManagedConnection.call, run_readOnlyFails, Connection.readResponse, run_read]
  rfl

/-- The parser raises an error that the override does not disconnect for itself. -/
def Fails (kw : ReadKwargs) (stream : σ) (e : Exc) : Prop :=
  (parsed P S kw stream).1 = .error e ∧
    ¬ ((readError S e).isinstance .ReadOnlyError = true ∧ S.is_master = true)

/-- The defaults of the two calls agree unless the parser raises. -/
theorem managed_call_eq_iff (kw : ReadKwargs) (s : ReadConn σ) :
    (SentinelManagedConnection.call P S kw).run s = managed S ((Connection.call P S kw).run s) ↔
      kw.disconnect_on_error.isSome = true ∨ ∀ e, ¬ Fails P S kw s.stream e := by
  rw [run_managed_call, run_call]
  cases hkw : kw.disconnect_on_error with
  | some flag => exact iff_of_true rfl (.inl rfl)
  | none =>
    unfold Fails
    rcases parsed P S kw s.stream with ⟨e | response, stream⟩
    · by_cases hro : (readError S e).isinstance .ReadOnlyError = true ∧ S.is_master = true
      · simp only [afterParser, managed, if_pos hro, Option.getD_none, if_true, Bool.false_eq_true,
          if_false]
        refine iff_of_true rfl (.inr ?_)
        rintro _ ⟨he, hne⟩
        cases he
        exact hne hro
      · simp only [afterParser, managed, if_neg hro, Option.getD_none, if_true, Bool.false_eq_true,
          if_false]
        refine iff_of_false (fun h => ?_) ?_
        · cases congrArg (fun r => (state r).torn) h
        · rintro (h | h)
          · cases h
          · exact h e ⟨rfl, hro⟩
    · refine iff_of_true rfl (.inr ?_)
      rintro e ⟨he, -⟩
      cases he

/-- In asyncio the override has the defaults of the method that it overrides. -/
theorem async_managed_call_eq (kw : ReadKwargs) (s : ReadConn σ) :
    (AsyncSentinelManagedConnection.call P S kw).run s =
      managed S ((AsyncConnection.call P S kw).run s) :=
  run_readOnlyFails S _ s

section Pool

variable (retry : RetrySettings) (read : ReadM σ PyVal)

/-- The connection when the command has just been sent. -/
def justSent (stream : σ) : ReadConn σ := { stream := stream, connected := true, torn := false }

/-- The attempt ends with an error that leads to another one. -/
def RetriesFrom (stream : σ) : Prop :=
  ∃ e s, read.run (justSent stream) = .error e s ∧ e.isinstanceAny retry.supported_errors = true ∧
    retry.givesUp e = false

/-- The error with which the read of the attempt ended is not one that `_disconnect_raise` is
called with. -/
def Escapes (stream : σ) : Prop :=
  (∃ v s, read.run (justSent stream) = .ok v s ∧ ¬ s.Clean) ∨
    ∃ e s, read.run (justSent stream) = .error e s ∧ ¬ s.Clean ∧
      e.isinstanceAny retry.supported_errors = false

/-- The attempts that are made. -/
inductive Attempted : σ → List σ → σ → Prop
  | first {stream streams} : Attempted stream streams stream
  | next {stream next streams last} (h : RetriesFrom retry read stream)
      (hn : Attempted next streams last) : Attempted stream (next :: streams) last

variable {retry read} {stream : σ} {again : Exc → ReadM σ PyVal} {s s' : ReadConn σ} {v : PyVal}
  {e : Exc}

theorem run_attempt_ok (h : read.run (justSent stream) = .ok v s') :
    (executeAttempt retry read stream again).run s = .ok v s' := by
  change (tryCatch read _).run (justSent stream) = _
  rw [run_tryCatch, h]

theorem run_attempt_escapes (h : read.run (justSent stream) = .error e s')
    (he : e.isinstanceAny retry.supported_errors = false) :
    (executeAttempt retry read stream again).run s = .error e s' := by
  change (tryCatch read _).run (justSent stream) = _
  rw [run_tryCatch, h]
  simp [he]

theorem run_attempt_gives_up (h : read.run (justSent stream) = .error e s')
    (he : e.isinstanceAny retry.supported_errors = true) (hg : retry.givesUp e = true) :
    (executeAttempt retry read stream again).run s = .error e s'.disconnect := by
  change (tryCatch read _).run (justSent stream) = _
  rw [run_tryCatch, h]
  simp [he, hg]

theorem run_attempt_retries (h : read.run (justSent stream) = .error e s')
    (he : e.isinstanceAny retry.supported_errors = true) (hg : retry.givesUp e = false) :
    (executeAttempt retry read stream again).run s = (again e).run s'.disconnect := by
  change (tryCatch read _).run (justSent stream) = _
  rw [run_tryCatch, h]
  simp [he, hg]

theorem clean_disconnect (s : ReadConn σ) : s.disconnect.Clean := fun _ => rfl

/-- An attempt that is the last leaves the connection clean unless its error escapes. -/
theorem attempt_clean_iff (h : ¬ RetriesFrom retry read stream) :
    (state ((executeAttempt retry read stream again).run s)).Clean ↔ ¬ Escapes retry read stream := by
  unfold Escapes
  cases hr : read.run (justSent stream) with
  | ok v s' =>
    rw [run_attempt_ok hr]
    constructor
    · rintro hclean (⟨v', s'', hr', hnot⟩ | ⟨e, s'', hr', -⟩)
      · cases hr'
        exact hnot hclean
      · cases hr'
    · exact fun hno => not_not.mp fun hnot => hno (.inl ⟨v, s', rfl, hnot⟩)
  | error e s' =>
    cases he : e.isinstanceAny retry.supported_errors with
    | false =>
      rw [run_attempt_escapes hr he]
      constructor
      · rintro hclean (⟨v, s'', hr', -⟩ | ⟨e', s'', hr', hnot, -⟩)
        · cases hr'
        · cases hr'
          exact hnot hclean
      · exact fun hno => not_not.mp fun hnot => hno (.inr ⟨e, s', rfl, hnot, he⟩)
    | true =>
      cases hg : retry.givesUp e with
      | false => exact absurd ⟨e, s', hr, he, hg⟩ h
      | true =>
        rw [run_attempt_gives_up hr he hg]
        refine iff_of_true (clean_disconnect s') ?_
        rintro (⟨v, s'', hr', -⟩ | ⟨e', s'', hr', -, he'⟩)
        · cases hr'
        · cases hr'
          simp [he] at he'

theorem not_escapes_of_retries (h : RetriesFrom retry read stream) : ¬ Escapes retry read stream := by
  obtain ⟨e, s, hr, he, -⟩ := h
  rintro (⟨v, s', hr', -⟩ | ⟨e', s', hr', -, he'⟩)
  · rw [hr] at hr'
    cases hr'
  · rw [hr] at hr'
    cases hr'
    simp [he] at he'

/-- A command gives its connection back clean exactly if no error of an attempt escapes. -/
theorem executeCommand_clean_iff (streams : List σ) :
    (state ((executeCommand retry read stream streams).run s)).Clean ↔
      ∀ last, Attempted retry read stream streams last → ¬ Escapes retry read last := by
  have hone : ∀ {stream : σ} {streams : List σ} {P : σ → Prop}, ¬ RetriesFrom retry read stream →
      (P stream ↔ ∀ last, Attempted retry read stream streams last → P last) := by
    intro stream streams P hlast
    refine ⟨fun h last hm => ?_, fun h => h stream .first⟩
    cases hm with
    | first => exact h
    | next hr hn => exact absurd hr hlast
  induction streams generalizing stream s with
  | nil =>
    by_cases hr : RetriesFrom retry read stream
    · obtain ⟨e, s', hread, he, hg⟩ := hr
      rw [executeCommand, run_attempt_retries hread he hg]
      refine iff_of_true (clean_disconnect s') fun last hm => ?_
      cases hm
      exact not_escapes_of_retries ⟨e, s', hread, he, hg⟩
    · rw [executeCommand, attempt_clean_iff hr]
      exact hone (P := fun stream => ¬ Escapes retry read stream) hr
  | cons next streams ih =>
    by_cases hr : RetriesFrom retry read stream
    · have hstream := not_escapes_of_retries hr
      obtain ⟨e, s', hread, he, hg⟩ := id hr
      rw [executeCommand, run_attempt_retries hread he hg]
      refine Iff.trans ih ?_
      constructor
      · intro h last hm
        cases hm with
        | first => exact hstream
        | next hr hn => exact h last hn
      · exact fun h last hm => h last (.next hr hm)
    · rw [executeCommand, attempt_clean_iff hr]
      exact hone (P := fun stream => ¬ Escapes retry read stream) hr

end Pool

/-- Reading with the flag set leaves a connection that was clean clean. -/
theorem clean_afterParser_true (stream : σ) (outcome : Except Exc PyVal × σ) :
    (state (afterParser S true (justSent stream) outcome)).Clean := by
  rcases outcome with ⟨e | response, stream'⟩
  · exact clean_disconnect _
  · cases response with
    | exc e =>
      by_cases he : e.isinstance .ResponseError = true
      · simp only [afterParser, raiseReply, if_pos he]
        exact fun _ => rfl
      · simp only [afterParser, raiseReply, if_neg he]
        exact fun _ => rfl
    | _ => exact fun _ => rfl

/-- `execute_command` passes no other argument. -/
def decoding (disable_decoding : Bool) : ReadKwargs := { disable_decoding := disable_decoding }

theorem clean_managed {r : EStateM.Result Exc (ReadConn σ) PyVal} (h : (state r).Clean) :
    (state (managed S r)).Clean := by
  cases r with
  | ok v s => exact h
  | error e s =>
    by_cases hro : e.isinstance .ReadOnlyError = true ∧ S.is_master = true
    · rw [managed, if_pos hro]
      exact clean_disconnect s
    · rw [managed, if_neg hro]
      exact h

theorem not_escapes_of_clean {retry : RetrySettings} {read : ReadM σ PyVal} {stream : σ}
    (h : (state (read.run (justSent stream))).Clean) : ¬ Escapes retry read stream := by
  rintro (⟨v, s, hr, hnot⟩ | ⟨e, s, hr, hnot, -⟩)
  · rw [hr] at h
    exact hnot h
  · rw [hr] at h
    exact hnot h

/-- What escapes from an override without the flag is an error of the parser. -/
theorem escapes_managed_iff (retry : RetrySettings) (disable_decoding : Bool) (stream : σ) :
    Escapes retry (SentinelManagedConnection.call P S (decoding disable_decoding)) stream ↔
      ∃ e, Fails P S (decoding disable_decoding) stream e ∧
        (readError S e).isinstanceAny retry.supported_errors = false := by
  have hrun : (SentinelManagedConnection.call P S (decoding disable_decoding)).run (justSent stream) =
      managed S (afterParser S false (justSent stream)
        (parsed P S (decoding disable_decoding) stream)) :=
    run_managed_call P S (decoding disable_decoding) (justSent stream)
  cases hp : parsed P S (decoding disable_decoding) stream with
  | mk outcome stream' =>
    rw [hp] at hrun
    cases outcome with
    | ok response =>
      refine iff_of_false (not_escapes_of_clean ?_) ?_
      · rw [hrun]
        exact clean_managed S (clean_afterParser_true S stream (.ok response, stream'))
      · rintro ⟨e, ⟨he, -⟩, -⟩
        rw [hp] at he
        cases he
    | error e =>
      by_cases hro : (readError S e).isinstance .ReadOnlyError = true ∧ S.is_master = true
      · refine iff_of_false (not_escapes_of_clean ?_) ?_
        · rw [hrun, afterParser, managed, if_pos hro]
          exact clean_disconnect _
        · rintro ⟨e', ⟨he, hnot⟩, -⟩
          rw [hp] at he
          cases he
          exact hnot hro
      · rw [afterParser, managed, if_neg hro] at hrun
        constructor
        · rintro (⟨v, s, hr, -⟩ | ⟨e', s, hr, -, he'⟩)
          · rw [hrun] at hr
            cases hr
          · rw [hrun] at hr
            cases hr
            exact ⟨e, ⟨by rw [hp], hro⟩, he'⟩
        · rintro ⟨e', ⟨he, -⟩, he'⟩
          rw [hp] at he
          cases he
          refine .inr ⟨_, _, hrun, ?_, he'⟩
          intro hclean
          cases hclean rfl

/-- The asynchronous override leaves no reply half read. -/
theorem clean_async_managed (disable_decoding : Bool) (stream : σ) :
    (state ((AsyncSentinelManagedConnection.call P S (decoding disable_decoding)).run
      (justSent stream))).Clean := by
  rw [async_managed_call_eq]
  apply clean_managed
  exact (run_read P S disable_decoding true false S.socket_timeout (justSent stream)) ▸
    clean_afterParser_true S stream _

/-- Reading from a connection that a sentinel manages comes to what reading from a plain one comes
to exactly if the caller passes `disconnect_on_error` or the parser does not raise, and in asyncio
always. A command gives it back to the pool with a reply half read exactly if the parser raises
in an attempt and the retry does not support the error, and in asyncio never. -/
theorem sentinel_read_iff (P : ReplyParser σ) (S : ReadSettings) :
    (∀ kw s, (SentinelManagedConnection.call P S kw).run s =
        managed S ((Connection.call P S kw).run s) ↔
      kw.disconnect_on_error.isSome = true ∨ ∀ e, ¬ Fails P S kw s.stream e) ∧
    (∀ kw s, (AsyncSentinelManagedConnection.call P S kw).run s =
      managed S ((AsyncConnection.call P S kw).run s)) ∧
    (∀ retry disable_decoding stream streams s,
      let read := SentinelManagedConnection.call P S (decoding disable_decoding)
      (state ((executeCommand retry read stream streams).run s)).Clean ↔
        ∀ last e, Attempted retry read stream streams last →
          Fails P S (decoding disable_decoding) last e →
          (readError S e).isinstanceAny retry.supported_errors = true) ∧
    ∀ retry disable_decoding stream streams s,
      let read := AsyncSentinelManagedConnection.call P S (decoding disable_decoding)
      (state ((executeCommand retry read stream streams).run s)).Clean := by
  refine ⟨managed_call_eq_iff P S, async_managed_call_eq P S, ?_, ?_⟩
  · intro retry disable_decoding stream streams s read
    rw [executeCommand_clean_iff]
    constructor
    · intro h last e hlast hfails
      rw [← Bool.not_eq_false]
      intro hno
      exact h last hlast ((escapes_managed_iff P S retry disable_decoding last).mpr ⟨e, hfails, hno⟩)
    · intro h last hlast hescapes
      obtain ⟨e, hfails, hno⟩ := (escapes_managed_iff P S retry disable_decoding last).mp hescapes
      rw [h last e hlast hfails] at hno
      cases hno
  · intro retry disable_decoding stream streams s read
    rw [executeCommand_clean_iff]
    exact fun last _ => not_escapes_of_clean (clean_async_managed P S disable_decoding last)

/-- A parser that meets what is no reply -/
def brokenParser : ReplyParser Unit where
  read_response := fun _ _ _ stream => (.error { cls := .InvalidResponse, msg := "Protocol Error" }, stream)

/-- A protocol error leaves the connection up, with the reply half read, and `execute_command` gives
it back to the pool so. -/
theorem torn_reply_released :
    let S : ReadSettings := {}
    let read := SentinelManagedConnection.call brokenParser S {}
    ((state (read.run (justSent ()))).connected = true ∧
      (state ((Connection.call brokenParser S {}).run (justSent ()))).connected = false) ∧
    ¬ (state ((executeCommand {} read () []).run (justSent ()))).Clean := by
  intro S read
  refine ⟨⟨rfl, rfl⟩, fun h => ?_⟩
  cases h rfl

end RedisPy
