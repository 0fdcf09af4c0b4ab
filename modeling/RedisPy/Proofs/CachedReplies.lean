import RedisPy.Library.Course
import RedisPy.Spec.ClientCache

/-! When `read_response` on a caching connection reads the reply of a pipelined command:
it must not take `_current_command_cache_key`, which only `send_command` maintains, for
the key of that command. -/

namespace RedisPy.CacheProxyConnection

open Raising Course

variable {s : CacheProxyConnection} {frames rest : List CacheFrame} {lost : Exc}
  {reply : Except Exc PyVal} {meanwhile : Option (Keyed CacheEntry.cache_key)}

/-- The next reply of the server, and what comes behind it. -/
def nextReply : List CacheFrame → Option (Except Exc PyVal × List CacheFrame)
  | [] => none
  | .push _ :: frames => nextReply frames
  | .reply v :: frames => some (.ok v, frames)
  | .errorReply e _ :: frames => some (.error e, frames)

/-- The cache after the pushes before the next reply, unless one of them raises. -/
def invalidated (d : DefaultCache) : List CacheFrame → Except Exc DefaultCache
  | .push data :: frames =>
    match d.invalidate data with
    | (.ok (), d) => invalidated d frames
    | (.error e, _) => .error e
  | _ => .ok d

/-- What a call raises or returns. -/
def outcome {β : Type} : EStateM.Result Exc CacheProxyConnection β → Except Exc β
  | .ok b _ => .ok b
  | .error e _ => .error e

theorem decoded_error {redis_key : KeyName} {e : Exc} (h : redis_key.decoded = .error e) :
    e.isinstance .ResponseError = false := by
  cases redis_key with
  | str s => cases h
  | bytes b =>
    simp only [KeyName.decoded] at h
    split at h
    · cases h
    · obtain rfl := Except.error.inj h
      decide

theorem collectKeys_error {cache : Keyed CacheEntry.cache_key} {redis_keys : List KeyName}
    {keys_to_delete : List CacheKey} {response : List Bool} {e : Exc}
    (h : collectKeys cache keys_to_delete response redis_keys = .error e) :
    e.isinstance .ResponseError = false := by
  induction redis_keys generalizing keys_to_delete response with
  | nil => cases h
  | cons redis_key redis_keys ih =>
    unfold collectKeys at h
    split at h
    · rename_i e' hd
      obtain rfl := Except.error.inj h
      exact decoded_error hd
    · exact ih h

theorem popKeys_error {cache : Keyed CacheEntry.cache_key} {keys : List CacheKey} {e : Exc}
    (h : (popKeys cache keys).1 = .error e) : e.isinstance .ResponseError = false := by
  induction keys generalizing cache with
  | nil => cases h
  | cons key keys ih =>
    unfold popKeys at h
    split at h
    · exact ih h
    · obtain rfl := Except.error.inj h
      decide

/-- What an invalidation raises is no error reply. -/
theorem invalidate_error {d d' : DefaultCache} {data : Invalidation} {e : Exc}
    (h : d.invalidate data = (.error e, d')) : e.isinstance .ResponseError = false := by
  cases data with
  | none => cases h
  | some redis_keys =>
    simp only [DefaultCache.invalidate, DefaultCache.deleteByRedisKeys, deleteByRedisKeys] at h
    split at h
    · rename_i e' hc
      obtain ⟨he, -⟩ := Prod.mk.inj h
      obtain rfl := Except.error.inj he
      exact collectKeys_error hc
    · split at h
      · cases h
      · rename_i hp
        obtain ⟨he, -⟩ := Prod.mk.inj h
        obtain rfl := Except.error.inj he
        exact popKeys_error (congrArg Prod.fst hp)

theorem invalidated_error {d : DefaultCache} {e : Exc} (h : invalidated d frames = .error e) :
    e.isinstance .ResponseError = false := by
  induction frames generalizing d with
  | nil => cases h
  | cons frame frames ih =>
    cases frame with
    | push data =>
      unfold invalidated at h
      split at h
      · exact ih h
      · case h_2 e' d' hd =>
        obtain rfl := Except.error.inj h
        exact invalidate_error hd
    | reply v => cases h
    | errorReply e' he => cases h

/-- The state after a read: what has been received and the cache are all it changes. -/
def after (s : CacheProxyConnection) (frames : List CacheFrame) (d : DefaultCache) :
    CacheProxyConnection :=
  { s with received := frames, _cache := d }

/-- The state when the connection is lost. -/
def cut (s : CacheProxyConnection) : CacheProxyConnection :=
  { s with received := [], sent := s.replies.length, due := [] }

/-- A call that comes to `r` and leaves the connection in `s`. -/
def answers {β : Type} (r : Except Exc β) (s : CacheProxyConnection) :
    EStateM.Result Exc CacheProxyConnection β :=
  match r with
  | .ok b => .ok b s
  | .error e => .error e s

@[simp] theorem run_onCache {β : Type} (f : DefaultCache → β × DefaultCache) (s : CacheProxyConnection) :
    (onCache f).run s = .ok (f s._cache).1 { s with _cache := (f s._cache).2 } := rfl

theorem run_push {data : Invalidation} {d : DefaultCache}
    (hd : s._cache.invalidate data = (.ok (), d)) :
    (connReadResponse lost (.push data :: frames)).run s =
      (connReadResponse lost frames).run (s.after frames d) := by
  simp only [connReadResponse, _onInvalidationCallback, raises, EStateM.run_bind, EStateM.run_modify,
    Raising.run_tryCatch, run_onCache, hd, EStateM.run_pure, after]

theorem run_push_error {data : Invalidation} {d : DefaultCache} {e : Exc}
    (hd : s._cache.invalidate data = (.error e, d)) :
    (connReadResponse lost (.push data :: frames)).run s = .error e (s.after [] d).cut := by
  simp only [connReadResponse, _onInvalidationCallback, raises, EStateM.run_bind, EStateM.run_modify,
    Raising.run_tryCatch, run_onCache, hd, Raising.run_throw, connDisconnect, after, cut]

/-- The connection reads the next reply. -/
theorem run_connReadResponse {d : DefaultCache} (hreply : nextReply frames = some (reply, rest))
    (hd : invalidated s._cache frames = .ok d) :
    (connReadResponse lost frames).run s = answers reply (s.after rest d) := by
  induction frames generalizing s with
  | nil => cases hreply
  | cons frame frames ih =>
    cases frame with
    | push data =>
      unfold invalidated at hd
      split at hd
      · case h_1 d' hpush =>
        rw [run_push hpush]
        exact ih hreply hd
      · cases hd
    | reply v =>
      obtain ⟨rfl, rfl⟩ := by simpa [nextReply] using hreply
      obtain rfl := Except.ok.inj hd
      rfl
    | errorReply e he =>
      obtain ⟨rfl, rfl⟩ := by simpa [nextReply] using hreply
      obtain rfl := Except.ok.inj hd
      rfl

/-- A push raises before the reply is read. -/
theorem run_connReadResponse_error {e : Exc} (hd : invalidated s._cache frames = .error e) :
    ∃ d, (connReadResponse lost frames).run s = .error e (s.after [] d).cut := by
  induction frames generalizing s with
  | nil => cases hd
  | cons frame frames ih =>
    cases frame with
    | push data =>
      unfold invalidated at hd
      split at hd
      · case h_1 d' hpush =>
        rw [run_push hpush]
        exact ih hd
      · case h_2 e' d' hpush =>
        obtain rfl := Except.error.inj hd
        exact ⟨d', run_push_error hpush⟩
    | reply v => cases hd
    | errorReply e he => cases hd

theorem run_connReadResponse_none (hlost : lost.isinstance .ResponseError = false)
    (hreply : nextReply frames = none) :
    ∃ e d, (connReadResponse lost frames).run s = .error e (s.after [] d).cut ∧
      e.isinstance .ResponseError = false := by
  induction frames generalizing s with
  | nil => exact ⟨lost, s._cache, rfl, hlost⟩
  | cons frame frames ih =>
    cases frame with
    | push data =>
      cases hd : s._cache.invalidate data with
      | mk r d =>
        cases r with
        | ok =>
          rw [run_push hd]
          exact ih hreply
        | error e => exact ⟨e, d, run_push_error hd, invalidate_error hd⟩
    | reply v => cases hreply
    | errorReply e he => cases hreply

/-! ### The read of a pipelined reply -/

/-- The connection and its cache after the lookup that begins the read. -/
def lookedUp (s : CacheProxyConnection) : DefaultCache :=
  match s._current_command_cache_key with
  | none => s._cache
  | some key => (s._cache.get key).2

/-- The entry that `read_response` would return. -/
def validEntry (s : CacheProxyConnection) : Option CacheEntry :=
  s._current_command_cache_key.bind fun key =>
    (s._cache._cache.get? key).filter fun entry => entry.status = .VALID

/-- What the call comes to if it is a read. -/
def readOutcome (s : CacheProxyConnection) : CacheCall → Except Exc PyVal
  | .read_response lost _ meanwhile => outcome ((readResponse lost meanwhile).run s)
  | _ => .ok .none

/-- The replies that have not been read. -/
def unread (s : CacheProxyConnection) : List (Except Exc PyVal) :=
  s.received.filterMap CacheFrame.response

/-- The call reads the response to the `i`-th command, which was sent in a pipeline. -/
def Pipelined (s : CacheProxyConnection) (i : Nat) : CacheCall → Prop
  | .read_response _ _ _ => s.due.head? = some (.send_packed_command i)
  | _ => False

/-- A read for a pipelined command gives the reply of the server to it, not a value from the
cache, and leaves the replies to the later ones; as long as there is none it does not return
and takes no other. It stores nothing. -/
def Faithful (s : CacheProxyConnection) (call : CacheCall) : Prop :=
  ∀ i, Pipelined s i call →
    outcome (cachedResponse.run s) = .ok none ∧
    (match s.replies.drop i with
      | reply :: later => readOutcome s call = reply ∧ (step s call).unread = later
      | [] => (∃ e, readOutcome s call = .error e) ∧ (step s call).unread = s.unread) ∧
    (step s call).stored = s.stored

/-- Whether the response is one that is stored when its key has an entry. -/
def Storable : Except Exc PyVal → Prop
  | .ok .none => False
  | .ok _ => True
  | .error _ => False

/-- The cache when the response has been read, as the others have left it. -/
def contentThen (d : DefaultCache) (meanwhile : Option (Keyed CacheEntry.cache_key)) :
    Keyed CacheEntry.cache_key :=
  meanwhile.getD d._cache

/-- At the read of a pipelined reply no earlier reply is unread and no later one has been
thrown away, no pushed invalidation raises, and `_current_command_cache_key` is `None`, or has
no valid entry and, by the time the response is there, no entry at all, unless the response is
an error or `None`. -/
def InOrder (s : CacheProxyConnection) : CacheCall → Prop
  | .read_response _ _ meanwhile =>
    ∀ i, s.due.head? = some (.send_packed_command i) →
      validEntry s = none ∧ s.unread = s.replies.drop i ∧
      ∀ reply rest, nextReply s.received = some (reply, rest) →
        ∃ d, invalidated s.lookedUp s.received = .ok d ∧
          (Storable reply → ∀ key, s._current_command_cache_key = some key →
            (contentThen d meanwhile).get? key = none)
  | _ => True

/-- The state in which the connection is read. -/
def looked (s : CacheProxyConnection) : CacheProxyConnection :=
  { s with due := s.due.tail, _cache := s.lookedUp }

theorem run_cachedResponse (s : CacheProxyConnection) :
    cachedResponse.run s = .ok ((validEntry s).map (·.cache_value)) { s with _cache := s.lookedUp } := by
  obtain ⟨conn, cache, key, received, sent, replies, due, stored⟩ := s
  cases key with
  | none => rfl
  | some key =>
    simp only [cachedResponse, validEntry, lookedUp, EStateM.run_bind, EStateM.run_get, run_onCache,
      Option.bind_some, DefaultCache.get]
    cases cache._cache.get? key with
    | none => rfl
    | some entry => cases hstatus : entry.status <;> simp [hstatus, Option.filter]

@[simp] theorem lookedUp_due (due : List Sender) : lookedUp { s with due := due } = s.lookedUp := rfl

theorem readResponse_run_valid {entry : CacheEntry} (h : validEntry s = some entry) :
    (readResponse lost meanwhile).run s = .ok entry.cache_value s.looked := by
  have hrun := run_cachedResponse { s with due := s.due.tail }
  have hentry : validEntry { s with due := s.due.tail } = some entry := h
  simp only [readResponse, EStateM.run_bind, EStateM.run_modify, hrun, hentry]
  rfl

/-- What a read does that finds no valid entry. -/
theorem readResponse_run (h : validEntry s = none) :
    (readResponse lost meanwhile).run s =
      match (connReadResponse lost s.received).run s.looked with
      | .ok response s' =>
        match (storeResponse response).run
            { s' with _cache := { s'._cache with _cache := contentThen s'._cache meanwhile } } with
        | .ok _ s'' => .ok response s''
        | .error e s'' => .error e s''
      | .error e s' => .error e s' := by
  have hrun := run_cachedResponse { s with due := s.due.tail }
  have hentry : validEntry { s with due := s.due.tail } = none := h
  simp only [readResponse, EStateM.run_bind, EStateM.run_modify, hrun, hentry, Option.map_none]
  simp only [EStateM.run_get, lookedUp_due, looked]
  generalize (connReadResponse lost s.received).run _ = r
  cases r with
  | error e s' => rfl
  | ok response s' =>
    simp only [contentThen]
    generalize (storeResponse response).run _ = r'
    cases r' with
    | ok u s'' => rfl
    | error e s'' => rfl

/-- Something is stored just if there is a key, the response can be stored, and the key has
an entry. -/
theorem storeResponse_run (response : PyVal) (s : CacheProxyConnection) :
    ∃ d stored, (storeResponse response).run s = .ok () { s with _cache := d, stored := stored } ∧
      (stored = s.stored ↔ (Storable (.ok response) → ∀ key, s._current_command_cache_key = some key →
        s._cache._cache.get? key = none)) := by
  obtain ⟨conn, cache, key, received, sent, replies, due, stored⟩ := s
  cases key with
  | none => exact ⟨cache, stored, rfl, by simp⟩
  | some key =>
    by_cases hresponse : response = .none
    · subst hresponse
      exact ⟨_, stored, rfl, by simp [Storable]⟩
    · have hstorable : Storable (.ok response) := by
        cases response <;> first | exact trivial | exact absurd rfl hresponse
      cases hget : cache._cache.get? key with
      | none =>
        refine ⟨cache, stored, ?_, by simp [hget]⟩
        cases response <;> first
          | exact absurd rfl hresponse
          | simp [storeResponse, EStateM.run_bind, DefaultCache.get, hget]
      | some entry =>
        refine ⟨(cache.touch entry).set { entry with status := .VALID, cache_value := response },
          stored ++ [(key, response)], ?_, by simp [hstorable, hget]⟩
        cases response <;> first
          | exact absurd rfl hresponse
          | simp only [storeResponse, run_onCache, EStateM.run_bind, EStateM.run_get, EStateM.run_modify,
              DefaultCache.get, hget]

theorem unread_of_nextReply (h : nextReply frames = some (reply, rest)) :
    frames.filterMap CacheFrame.response = reply :: rest.filterMap CacheFrame.response := by
  induction frames with
  | nil => cases h
  | cons frame frames ih =>
    cases frame with
    | push data => exact ih h
    | reply v =>
      obtain ⟨rfl, rfl⟩ := by simpa [nextReply] using h
      rfl
    | errorReply e he =>
      obtain ⟨rfl, rfl⟩ := by simpa [nextReply] using h
      rfl

theorem unread_of_nextReply_none (h : nextReply frames = none) :
    frames.filterMap CacheFrame.response = [] := by
  induction frames with
  | nil => rfl
  | cons frame frames ih =>
    cases frame with
    | push data => exact ih h
    | reply v => cases h
    | errorReply e he => cases h

/-! ### What the server has replied -/

/-- The errors among the replies are error replies. -/
def Replied (s : CacheProxyConnection) : Prop :=
  ∀ e, .error e ∈ s.replies → e.isinstance .ResponseError = true

theorem modify_replied {f : CacheProxyConnection → CacheProxyConnection}
    (h : ∀ s, (f s).replies = s.replies) : Keeps Replied (modify f : M Unit) :=
  Keeps.modify fun s hs e he => hs e (h s ▸ he)

theorem raises_replied {β : Type} (x : Except Exc β) : Keeps Replied (raises x) := by
  cases x with
  | ok b => exact Keeps.pure b
  | error e => exact Keeps.throw e

theorem onInvalidationCallback_replied (data : Invalidation) :
    Keeps Replied (_onInvalidationCallback data) :=
  Keeps.bind (fun _ h => h) fun r => raises_replied r

theorem connReadResponse_replied (lost : Exc) (frames : List CacheFrame) :
    Keeps Replied (connReadResponse lost frames) := by
  induction frames with
  | nil => exact Keeps.bind (modify_replied (by intro; rfl)) fun _ => Keeps.throw lost
  | cons frame frames ih =>
    cases frame with
    | push data =>
      refine Keeps.bind (modify_replied (by intro; rfl)) fun _ => ?_
      refine Keeps.bind (Keeps.tryCatch (onInvalidationCallback_replied data) fun e => ?_) fun _ => ih
      exact Keeps.bind (modify_replied (by intro; rfl)) fun _ => Keeps.throw e
    | reply v => exact Keeps.bind (modify_replied (by intro; rfl)) fun _ => Keeps.pure v
    | errorReply e he => exact Keeps.bind (modify_replied (by intro; rfl)) fun _ => Keeps.throw e

theorem drain_replied {received : List CacheFrame → M Unit} {disconnect : M Unit}
    (hr : ∀ frames, Keeps Replied (received frames)) (hd : Keeps Replied disconnect)
    (frames : List CacheFrame) : Keeps Replied (drain received disconnect frames) := by
  induction frames with
  | nil => exact Keeps.pure _
  | cons frame frames ih =>
    cases frame with
    | push data =>
      refine Keeps.bind (hr frames) fun _ => Keeps.bind (Keeps.tryCatch
        (onInvalidationCallback_replied data) fun e => ?_) fun _ => ih
      exact Keeps.bind hd fun _ => Keeps.throw e
    | reply v => exact Keeps.bind (hr frames) fun _ => ih
    | errorReply e he => exact Keeps.bind (hr frames) fun _ => Keeps.throw e

theorem connSend_replied (n : Nat) (sent : Except Exc Unit) : Keeps Replied (connSend n sent) := by
  cases sent with
  | ok => exact modify_replied (by intro; rfl)
  | error e => exact Keeps.bind (modify_replied (by intro; rfl)) fun _ => Keeps.throw e

theorem sendCommand_replied (command : String) (keys : Option (List KeyName))
    (elsewhere : List CacheFrame) (sent : Except Exc Unit) :
    Keeps Replied (sendCommand command keys elsewhere sent) := by
  have hdue : Keeps Replied (modify fun s : CacheProxyConnection =>
      { s with due := s.due ++ [.send_command] }) := modify_replied fun _ => rfl
  have hsend := fun _ : Unit => hdue
  unfold sendCommand
  refine Keeps.bind ?_ fun _ => Keeps.bind Keeps.get fun s => Keeps.ite ?_ ?_
  · refine Keeps.bind Keeps.get fun s => drain_replied (fun frames => ?_) ?_ s.received
    · exact Keeps.modify fun _ h => h
    · exact Keeps.modify fun _ h => h
  · exact Keeps.bind (modify_replied fun _ => rfl) fun _ => Keeps.bind (connSend_replied 1 sent) hsend
  · cases keys with
    | none => exact Keeps.bind (Keeps.throw _) hsend
    | some keys =>
      refine Keeps.bind (modify_replied fun _ => rfl) fun _ => Keeps.bind (fun _ h => h) fun r => ?_
      cases r with
      | some entry =>
        refine Keeps.bind Keeps.get fun s' => Keeps.ite ?_ (hsend ())
        exact Keeps.bind (drain_replied (fun _ => Keeps.pure _) (Keeps.pure _) elsewhere) hsend
      | none =>
        exact Keeps.bind Keeps.get fun _ => Keeps.bind (fun _ h => h) fun _ =>
          Keeps.bind (connSend_replied 1 sent) hsend

theorem cachedResponse_replied : Keeps Replied cachedResponse := by
  unfold cachedResponse
  refine Keeps.bind Keeps.get fun s => ?_
  split
  · exact Keeps.pure _
  · refine Keeps.bind (fun _ h => h) fun r => ?_
    cases r <;> exact Keeps.pure _

theorem storeResponse_replied (response : PyVal) : Keeps Replied (storeResponse response) := by
  unfold storeResponse
  refine Keeps.bind Keeps.get fun s => ?_
  split
  · exact Keeps.pure _
  · split
    · exact fun _ h => h
    · refine Keeps.bind (fun _ h => h) fun r => ?_
      cases r with
      | none => exact Keeps.pure _
      | some entry => exact Keeps.bind (fun _ h => h) fun _ => Keeps.modify fun _ h => h

theorem readResponse_replied (lost : Exc) (meanwhile : Option (Keyed CacheEntry.cache_key)) :
    Keeps Replied (readResponse lost meanwhile) := by
  unfold readResponse
  refine Keeps.bind (Keeps.modify fun _ h => h) fun _ => Keeps.bind cachedResponse_replied fun r => ?_
  cases r with
  | some v => exact Keeps.pure v
  | none =>
    refine Keeps.bind Keeps.get fun s => Keeps.bind (connReadResponse_replied lost _) fun response => ?_
    refine Keeps.bind (Keeps.modify fun _ h => h) fun _ => ?_
    exact Keeps.bind (storeResponse_replied response) fun _ => Keeps.pure response

theorem step_replied (call : CacheCall) (h : Replied s) : Replied (step s call) := by
  cases call with
  | send_command command keys elsewhere sent =>
    exact (sendCommand_replied command keys elsewhere sent s h).state
  | send_packed_command n sent =>
    have hk : Keeps Replied (sendPackedCommand n sent) :=
      Keeps.bind Keeps.get fun _ => Keeps.bind (connSend_replied n sent) fun _ => Keeps.modify fun _ h => h
    exact (hk s h).state
  | read_response lost hlost meanwhile => exact (readResponse_replied lost meanwhile s h).state
  | others cache => exact h
  | receives frame =>
    have hadded : ∀ response, frame.response = some response → ∀ e, .error e ∈ s.replies ++ [response] →
        e.isinstance .ResponseError = true := by
      intro response hr e he
      rcases List.mem_append.mp he with he | he
      · exact h e he
      · cases frame with
        | push data => cases hr
        | reply v =>
          obtain rfl := Option.some.inj hr
          simp at he
        | errorReply e' herr =>
          obtain rfl := Option.some.inj hr
          obtain rfl : e = e' := by simpa using he
          exact herr
    unfold step
    split
    · rename_i hcall
      cases hcall
    · rename_i hcall
      cases hcall
    · rename_i hcall
      cases hcall
    · rename_i hcall
      cases hcall
      split
      · exact h
      · rename_i response hr
        split
        · exact hadded response hr
        · exact h
    · rename_i hcall
      cases hcall

/-! ### Faithful reads -/

theorem cachedResponse_none_iff : outcome (cachedResponse.run s) = .ok none ↔ validEntry s = none := by
  rw [run_cachedResponse]
  simp [outcome]

/-- A read that finds no valid entry is faithful just if the reply that comes next is the one
that is due, no push raises and the response of the server is not stored. -/
theorem faithful_iff_of_not_valid {i : Nat} {hlost : lost.isinstance .ResponseError = false}
    (hreplied : Replied s) (hentry : validEntry s = none)
    (hdue : s.due.head? = some (.send_packed_command i)) :
    Faithful s (.read_response lost hlost meanwhile) ↔
      s.unread = s.replies.drop i ∧ ∀ reply rest, nextReply s.received = some (reply, rest) →
        ∃ d, invalidated s.lookedUp s.received = .ok d ∧
          (Storable reply → ∀ key, s._current_command_cache_key = some key →
            (contentThen d meanwhile).get? key = none) := by
  have hrun : (readResponse lost meanwhile).run s = _ := readResponse_run hentry
  have hlooked : s.looked._cache = s.lookedUp := rfl
  have hcached : outcome (cachedResponse.run s) = .ok none := cachedResponse_none_iff.mpr hentry
  -- a read that raises what is no reply, with the connection lost, has come to no reply
  have hraised : ∀ {e : Exc} {d : DefaultCache}, e.isinstance .ResponseError = false →
      (readResponse lost meanwhile).run s = .error e (s.looked.after [] d).cut →
      (Faithful s (.read_response lost hlost meanwhile) ↔ s.unread = [] ∧ s.replies.drop i = []) := by
    intro e d he hrun
    have hout : readOutcome s (.read_response lost hlost meanwhile) = .error e := by
      simp [readOutcome, hrun, outcome]
    have hunread : (step s (.read_response lost hlost meanwhile)).unread = [] := by
      simp [step, hrun, Raising.state, unread, cut]
    have hstored : (step s (.read_response lost hlost meanwhile)).stored = s.stored := by
      simp [step, hrun, Raising.state, cut, after, looked]
    constructor
    · intro h
      have hread := (h i hdue).2.1
      rw [hout, hunread] at hread
      cases hdrop : s.replies.drop i with
      | nil =>
        rw [hdrop] at hread
        exact ⟨hread.2.symm, rfl⟩
      | cons reply later =>
        rw [hdrop] at hread
        have hmem : .error e ∈ s.replies := by
          rw [hread.1]
          exact List.mem_of_mem_drop (hdrop ▸ List.mem_cons_self)
        rw [hreplied e hmem] at he
        cases he
    · rintro ⟨hnone, hdrop⟩ j hj
      obtain rfl : i = j := by simpa [Pipelined, hdue] using hj
      refine ⟨hcached, ?_, hstored⟩
      rw [hdrop, hout, hunread]
      exact ⟨⟨e, rfl⟩, hnone.symm⟩
  -- one that takes a reply is faithful if that is the one that is due
  have htaken : ∀ {reply : Except Exc PyVal} {rest : List CacheFrame},
      nextReply s.received = some (reply, rest) →
      readOutcome s (.read_response lost hlost meanwhile) = reply →
      (step s (.read_response lost hlost meanwhile)).received = rest →
      (Faithful s (.read_response lost hlost meanwhile) ↔ s.unread = s.replies.drop i ∧
        (step s (.read_response lost hlost meanwhile)).stored = s.stored) := by
    intro reply rest hreply hout hrest
    have hunread : s.unread = reply :: (step s (.read_response lost hlost meanwhile)).unread := by
      rw [unread, unread_of_nextReply hreply, unread, hrest]
    constructor
    · intro h
      obtain ⟨-, hread, hstored⟩ := h i hdue
      refine ⟨?_, hstored⟩
      cases hdrop : s.replies.drop i with
      | nil =>
        rw [hdrop, hunread] at hread
        exact absurd hread.2 (by simp)
      | cons reply' later =>
        rw [hdrop, hout] at hread
        rw [hunread, hread.1, hread.2]
    · rintro ⟨hdrop, hstored⟩ j hj
      obtain rfl : i = j := by simpa [Pipelined, hdue] using hj
      refine ⟨hcached, ?_, hstored⟩
      rw [← hdrop, hunread]
      exact ⟨hout, rfl⟩
  cases hreply : nextReply s.received with
  | none =>
    obtain ⟨e, d, hconn, he⟩ : ∃ e d, (connReadResponse lost s.received).run s.looked = .error e _ ∧ _ :=
      run_connReadResponse_none hlost hreply
    rw [hconn] at hrun
    have hnone : s.unread = [] := unread_of_nextReply_none hreply
    rw [hraised he hrun, hnone]
    simp [eq_comm]
  | some r =>
    obtain ⟨reply, rest⟩ := r
    cases hd : invalidated s.lookedUp s.received with
    | error e =>
      obtain ⟨d, hconn⟩ : ∃ d, (connReadResponse lost s.received).run s.looked = .error e _ :=
        run_connReadResponse_error (hlooked ▸ hd)
      rw [hconn] at hrun
      rw [hraised (invalidated_error hd) hrun, unread, unread_of_nextReply hreply]
      simp
    | ok d =>
      have hconn : (connReadResponse lost s.received).run s.looked = _ :=
        run_connReadResponse hreply (hlooked ▸ hd)
      rw [hconn] at hrun
      cases reply with
      | error e =>
        rw [htaken hreply (by simp [readOutcome, hrun, outcome, answers])
          (by simp [step, hrun, Raising.state, answers, after])]
        have hstored : (step s (.read_response lost hlost meanwhile)).stored = s.stored := by
          simp [step, hrun, Raising.state, answers, after, looked]
        simp [hstored, Storable]
      | ok v =>
        have hstored := storeResponse_run v
          { s.looked.after rest d with _cache := { d with _cache := contentThen d meanwhile } }
        obtain ⟨d', stored, hstore, hiff⟩ := hstored
        have hafter : (readResponse lost meanwhile).run s = .ok v
            { s.looked.after rest d with _cache := d', stored := stored } := by
          rw [hrun]
          simp only [answers]
          exact (congrArg (fun r => match r with
            | .ok _ s'' => EStateM.Result.ok v s''
            | .error e s'' => .error e s'') hstore)
        have hkeep : (step s (.read_response lost hlost meanwhile)).stored = s.stored ↔
            stored = s.stored := by
          simp [step, hafter, Raising.state]
        rw [htaken hreply (by simp [readOutcome, hafter, outcome])
          (by simp [step, hafter, Raising.state, after]), hkeep]
        refine and_congr_right fun _ => (hiff.trans ⟨fun h => ?_, fun h => ?_⟩)
        · intro reply' rest' hr
          obtain ⟨rfl, rfl⟩ := by simpa using hr
          exact ⟨d, rfl, h⟩
        · obtain ⟨d'', hd'', hnone⟩ := h (.ok v) rest rfl
          obtain rfl := Except.ok.inj hd''
          exact hnone

theorem faithful_iff (hreplied : Replied s) (call : CacheCall) : Faithful s call ↔ InOrder s call := by
  cases call with
  | read_response lost hlost meanwhile =>
    by_cases hdue : ∃ i, s.due.head? = some (.send_packed_command i)
    · obtain ⟨i, hdue⟩ := hdue
      cases hentry : validEntry s with
      | none => simp [InOrder, hdue, hentry, faithful_iff_of_not_valid hreplied hentry hdue]
      | some entry =>
        refine ⟨fun h => absurd (cachedResponse_none_iff.mp (h i hdue).1) (by simp [hentry]),
          fun h => absurd (h i hdue).1 (by simp [hentry])⟩
    · exact ⟨fun _ i hi => absurd ⟨i, hi⟩ hdue, fun _ i hi => absurd ⟨i, hi⟩ hdue⟩
  | _ => simp [Faithful, InOrder, Pipelined]

/-- Whatever the cache holds, the pipelined replies of a course of calls on a connection are
read faithfully just if each such read is in order. -/
theorem pipelined_reads_faithful_iff (conn : Nat) (cache : DefaultCache) (calls : List CacheCall) :
    Each step Faithful { _conn := conn, _cache := cache } calls ↔
      Each step InOrder { _conn := conn, _cache := cache } calls := by
  refine each_good_iff (I := Replied) ?_ ?_ ?_ (Each.trivial _ calls)
  · exact fun s call h _ hok => ⟨(faithful_iff h call).mpr hok, step_replied call h⟩
  · exact fun s call h _ hgood => (faithful_iff h call).mp hgood
  · exact fun e he => absurd he List.not_mem_nil

/-- A cache that holds the value of `GET a`. -/
def cachedGet : CacheProxyConnection where
  _conn := 0
  _cache :=
    { _cache := (∅ : Keyed CacheEntry.cache_key).put ⟨⟨"GET", [.str "a"]⟩, .int 1, .VALID, 0⟩
      max_size := 10000
      allow_list := ["GET"] }

/-- `GET a` is answered from the cache; then a pipeline is sent on the connection. -/
def pipelineAfterHit : List CacheCall :=
  [.send_command "GET" (some [.str "a"]) [] (.ok ()), .read_response { cls := .TimeoutError } rfl none,
    .send_packed_command 1 (.ok ()), .receives (.reply (.int 2)),
    .read_response { cls := .TimeoutError } rfl none]

/-- The pipeline is given the cached value, and its reply is left for the next command. -/
theorem pipelineAfterHit_not_faithful : ¬ Each step Faithful cachedGet pipelineAfterHit := by
  rintro ⟨-, -, -, -, h, -⟩
  exact absurd (h 0 rfl).1 (by
    rw [cachedResponse_none_iff]
    decide)

end RedisPy.CacheProxyConnection
