import RedisPy.Spec.SentRequests
import RedisPy.Proofs.PooledCalls

/-! What a call on a pooled connection sends for its user: its commands as a whole, once for each
attempt. -/

namespace RedisPy

namespace Handshake

open Raising

variable {net : Network} {c : Settings} {client : Client} {rs : List Request} {L : List Request}
  {s : Wire}

/-- A program that sends nothing for the user. -/
abbrev Silent {β : Type} (m : M β) : Prop := ∀ L, Keeps (fun s => s.asked = L) m

theorem Silent.bind {β γ : Type} {m : M β} {f : β → M γ} (hm : Silent m) (hf : ∀ b, Silent (f b)) :
    Silent (m >>= f) := fun L => Keeps.bind (hm L) fun b => hf b L

theorem Silent.tryCatch {β : Type} {m : M β} {h : Exc → M β} (hm : Silent m) (hh : ∀ e, Silent (h e)) :
    Silent (tryCatch m h) := fun L => Keeps.tryCatch (hm L) fun e => hh e L

theorem Silent.ite {β : Type} {p : Prop} [Decidable p] {m m' : M β} (h : Silent m) (h' : Silent m') :
    Silent (if p then m else m') := fun L => Keeps.ite (h L) (h' L)

theorem silent_pure {β : Type} (b : β) : Silent (pure b : M β) := fun _ => Keeps.pure b

theorem silent_throw {β : Type} (e : Exc) : Silent (throw e : M β) := fun _ => Keeps.throw e

theorem silent_raises {β : Type} (x : Except Exc β) : Silent (raises x : M β) := by
  cases x with
  | ok b => exact silent_pure b
  | error e => exact silent_throw e

theorem silent_discard {β : Type} {m : M β} (h : Silent m) : Silent (discard m) :=
  fun L s hs => discard_post (h L s hs)

theorem silent_disconnect : Silent disconnect := fun _ _ h => h

theorem silent_tick : Silent tick := fun _ _ h => h

theorem asked_append (s : Wire) (rs : List Request) :
    { s with owed := s.owed ++ rs, sent := s.sent ++ rs.map (·, s.session) }.asked =
      s.asked ++ rs.filter fun r => !r.ofConnect := by
  simp only [Wire.asked, List.map_append, List.filter_append, List.map_map]
  congr 2
  exact List.map_id rs

/-- What sending requests adds, if it does not raise. -/
theorem transmit_asked (h : s.asked = L) : Post ((transmit net rs).run s)
    (fun _ s' => s'.asked = L ++ rs.filter fun r => !r.ofConnect) (fun _ s' => s'.asked = L) := by
  apply Post.bind (Q := fun _ s' => s'.asked = L) (silent_tick L s h)
  intro moment s' h'
  cases net.sends moment with
  | some e => exact Post.bind (silent_disconnect L s' h') fun _ s'' h'' => h''
  | none =>
    change Wire.asked _ = _
    rw [asked_append, h']

theorem silent_transmit (hrs : ∀ r ∈ rs, r.ofConnect = true) : Silent (transmit net rs) := by
  intro L s h
  refine (transmit_asked h).mono (fun _ s' h' => ?_) fun _ _ h' => h'
  have hnone : rs.filter (fun r => !r.ofConnect) = [] :=
    List.filter_eq_nil_iff.mpr fun r hr => by simp [hrs r hr]
  rw [h', hnone, List.append_nil]

theorem silent_readResponse (r : Request) : Silent (readResponse net r) := by
  intro L s h
  apply Post.bind (Q := fun _ s' => s'.asked = L) (silent_tick L s h)
  intro moment s' h'
  apply Post.get_bind
  cases s'.owed with
  | nil => exact Post.bind (silent_disconnect L s' h') fun _ s'' h'' => h''
  | cons due owed =>
    dsimp only
    cases net.answers moment due with
    | value v => exact h'
    | error e he => exact h'
    | lost e => exact Post.bind (silent_disconnect L s' h') fun _ s'' h'' => h''

theorem silent_exchange {r : Request} (hr : r.ofConnect = true) : Silent (exchange net r) := by
  refine Silent.bind (silent_transmit fun r' hr' => ?_) fun _ => silent_readResponse r
  rw [List.mem_singleton.mp hr']
  exact hr

theorem silent_exchangeOK {r : Request} {e : Exc} (hr : r.ofConnect = true) : Silent (exchangeOK net r e) :=
  (silent_exchange hr).bind fun _ => Silent.ite (silent_pure ()) (silent_throw e)

theorem silent_authenticate (auth : List String) : Silent (authenticate net c auth) := by
  refine Silent.ite ?_ (Silent.ite ?_ (Silent.ite ?_ (silent_pure ())))
  · exact (silent_exchange rfl).bind fun _ => Silent.ite (silent_raises _) (silent_pure ())
  · refine Silent.bind (silent_transmit fun r hr => ?_) fun _ => Silent.bind (Silent.tryCatch
      (silent_readResponse _) fun e => Silent.ite (silent_exchange rfl) (silent_throw e)) fun _ =>
        Silent.ite (silent_pure ()) (silent_throw _)
    rw [List.mem_singleton.mp hr]
    rfl
  · exact (silent_exchange rfl).bind fun _ => Silent.ite (silent_raises _) (silent_pure ())

theorem silent_setName : Silent (setName net c) := by
  unfold setName
  cases given c.client_name with
  | none => exact silent_pure ()
  | some name => exact silent_exchangeOK rfl

theorem silent_setInfo (attr : String) (value : Option String) : Silent (setInfo net attr value) := by
  unfold setInfo
  cases given value with
  | none => exact silent_pure ()
  | some value =>
    exact (silent_discard (silent_exchange rfl)).tryCatch fun e => Silent.ite (silent_pure ()) (silent_throw e)

theorem silent_setUp : Silent (setUp net c) :=
  (silent_setInfo _ _).bind fun _ => (silent_setInfo _ _).bind fun _ =>
    Silent.ite (silent_exchangeOK rfl) (silent_pure ())

theorem silent_sendEach (hrs : ∀ r ∈ rs, r.ofConnect = true) : Silent (sendEach net rs) := by
  induction rs with
  | nil => exact silent_pure ()
  | cons r rs ih =>
    refine Silent.bind (silent_transmit fun r' hr' => ?_) fun _ => ih fun r' hr' => hrs r' (.tail _ hr')
    rw [List.mem_singleton.mp hr']
    exact hrs r (.head _)

theorem silent_readInfos (rs : List Request) : Silent (readInfos net rs) := by
  induction rs with
  | nil => exact silent_pure ()
  | cons r rs ih =>
    exact Silent.bind ((silent_discard (silent_readResponse r)).tryCatch fun e =>
      Silent.ite (silent_pure ()) (silent_throw e)) fun _ => ih

theorem silent_readSelects (rs : List Request) : Silent (readSelects net rs) := by
  induction rs with
  | nil => exact silent_pure ()
  | cons r rs ih => exact (silent_readResponse r).bind fun _ => Silent.ite ih (silent_throw _)

theorem silent_onConnect : Silent (onConnect net c) := by
  refine (silent_raises _).bind fun auth => (silent_authenticate auth).bind fun _ =>
    silent_setName.bind fun _ => Silent.ite ?_ silent_setUp
  exact (silent_sendEach fun _ hr => ofConnect_of_mem hr).bind fun _ =>
    (silent_readInfos _).bind fun _ => silent_readSelects _

/-- The connection is greeted without a word from the user. -/
theorem silent_connect : Silent (connect net c) := by
  intro L s h
  apply Post.get_bind
  apply Post.ite
  · intro _
    exact h
  · intro _
    apply Post.bind (Q := fun _ s' => s'.asked = L)
    · apply Post.bind (Q := fun _ s' => s'.asked = L) (silent_tick L s h)
      intro moment s' h'
      cases net.opens moment with
      | some e => exact h'
      | none => exact h'
    · intro _ s' h'
      apply Post.tryCatch (silent_onConnect L s' h')
      intro e s'' h''
      split
      · exact h''
      · exact h''

theorem silent_checkReady (msg : String) : Silent (checkReady net c msg) := by
  refine Silent.bind (silent_connect.bind fun _ => silent_tick.bind fun moment => ?_) fun unread =>
    Silent.ite (silent_throw _) (silent_pure ())
  cases net.polls moment with
  | some unread => exact silent_pure unread
  | none => exact silent_disconnect.bind fun _ => silent_throw _

theorem silent_getConnection : Silent (getConnection net c) :=
  silent_connect.bind fun _ => (silent_checkReady _).tryCatch fun e =>
    Silent.ite (silent_disconnect.bind fun _ => silent_connect.bind fun _ => silent_checkReady _) (silent_throw e)

theorem silent_parseResponse (n : Nat) : Silent (parseResponse net client n) :=
  (silent_readResponse _).bind fun _ => silent_raises _

theorem silent_parseAll (ns : List Nat) : Silent (parseAll net client ns) := by
  induction ns with
  | nil => exact silent_pure []
  | cons n ns ih =>
    exact Silent.bind ((silent_parseResponse n).tryCatch fun e => Silent.ite (silent_pure _) (silent_throw e))
      fun _ => ih.bind fun _ => silent_pure _

theorem silent_noteReply (i : Nat) (r : Request) : Silent (noteReply net i r) :=
  Silent.tryCatch ((silent_discard (silent_readResponse r)).bind fun _ => silent_pure _) fun e =>
    Silent.ite (silent_pure _) (silent_throw e)

theorem silent_readQueued (i : Nat) (ns : List Nat) : Silent (readQueued net i ns) := by
  induction ns generalizing i with
  | nil => exact silent_pure []
  | cons n ns ih => exact (silent_noteReply i _).bind fun _ => (ih (i + 1)).bind fun _ => silent_pure _

theorem silent_finish (ns : List Nat) (raise_on_error : Bool) (errors : List (Nat × Exc)) (v : PyVal) :
    Silent (finish client ns raise_on_error errors v) := by
  unfold finish
  split
  · exact silent_throw _
  · refine Silent.ite (silent_disconnect.bind fun _ => silent_throw _) ?_
    split
    · exact (silent_raises _).bind fun _ => silent_raises _
    · exact silent_raises _
  · exact silent_throw _

theorem silent_disconnectRaise (e : Exc) : Silent (disconnectRaise client e) :=
  silent_disconnect.bind fun _ => Silent.ite (silent_pure ()) (silent_throw e)

/-- A program that sends the requests for the user, first of all and unless it raises, is one
attempt at them. -/
def Attempts {β : Type} (rs : List Request) (m : M β) : Prop :=
  ∀ L s, s.asked = L → Post (m.run s) (fun _ s' => s'.asked = L ++ rs)
    (fun _ s' => s'.asked = L ∨ s'.asked = L ++ rs)

theorem attempts_send {β : Type} {f : M β} (hrs : ∀ r ∈ rs, r.ofConnect = false) (hf : Silent f) :
    Attempts rs (sendPackedCommand net c rs >>= fun _ => f) := by
  intro L s h
  have hall : rs.filter (fun r => !r.ofConnect) = rs :=
    List.filter_eq_self.mpr fun r hr => by simp [hrs r hr]
  apply Post.bind (Q := fun _ s' => s'.asked = L ++ rs)
  · apply Post.bind (Q := fun _ s' => s'.asked = L)
    · exact (silent_connect L s h).mono (fun _ _ h' => h') fun _ _ h' => .inl h'
    · intro _ s' h'
      refine (transmit_asked h').mono (fun _ s'' h'' => ?_) fun _ _ h'' => .inl h''
      rw [h'', hall]
  · intro _ s' h'
    exact (hf _ s' h').mono (fun _ _ h'' => h'') fun _ _ h'' => .inr h''

/-- The client resends if the connection is closed and nothing is raised. -/
theorem disconnectRaise_asked {e : Exc} (he : client.supported_errors e = true) (h : s.asked = L) :
    Post ((disconnectRaise client e).run s) (fun _ s' => client.Resends ∧ s'.asked = L)
      (fun _ s' => s'.asked = L) := by
  refine Post.bind (Q := fun _ s' => s'.asked = L) (silent_disconnect L s h) fun _ s' h' => ?_
  apply Post.ite
  · intro hretry
    exact ⟨⟨e, he, hretry⟩, h'⟩
  · intro _
    exact h'

/-- So many times at least and at most have the requests been sent. -/
def SentTimes (client : Client) (rs L : List Request) (least most : Nat) (s : Wire) : Prop :=
  ∃ times, least ≤ times ∧ times ≤ most ∧ (2 ≤ times → client.Resends) ∧
    s.asked = L ++ (List.replicate times rs).flatten

theorem SentTimes.zero {most : Nat} (h : s.asked = L) : SentTimes client rs L 0 most s :=
  ⟨0, Nat.le_refl _, Nat.zero_le _, by omega, by simpa using h⟩

theorem SentTimes.one {least most : Nat} (hleast : least ≤ 1) (h : s.asked = L ++ rs) :
    SentTimes client rs L least (most + 1) s :=
  ⟨1, hleast, by omega, by omega, by simpa using h⟩

theorem SentTimes.succ {least most : Nat} (hagain : client.Resends)
    (h : SentTimes client rs (L ++ rs) least most s) : SentTimes client rs L least (most + 1) s := by
  obtain ⟨times, hleast, hmost, -, hasked⟩ := h
  refine ⟨times + 1, by omega, by omega, fun _ => hagain, ?_⟩
  rw [hasked, List.replicate_succ, List.flatten_cons, List.append_assoc]

theorem SentTimes.more {least most : Nat} (h : SentTimes client rs L least most s) :
    SentTimes client rs L least (most + 1) s := by
  obtain ⟨times, hleast, hmost, hrest⟩ := h
  exact ⟨times, hleast, by omega, hrest⟩

theorem SentTimes.of_raised {most : Nat} (h : s.asked = L ∨ s.asked = L ++ rs) :
    SentTimes client rs L 0 (most + 1) s := by
  rcases h with h | h
  · exact .zero h
  · exact .one (Nat.zero_le _) h

theorem callWithRetry_sent {β : Type} {command : M β} (hcommand : Attempts rs command) (retries : Nat)
    (h : s.asked = L) :
    Post ((callWithRetry client.supported_errors command (disconnectRaise client) retries).run s)
      (fun _ => SentTimes client rs L 1 (retries + 1)) (fun _ => SentTimes client rs L 0 (retries + 1)) := by
  induction retries generalizing s L with
  | zero =>
    apply Post.tryCatch ((hcommand L s h).mono (fun _ _ h' => .one (Nat.le_refl _) h') fun _ _ h' => h')
    intro e s' h'
    split
    · refine Post.bind (Q := fun _ => SentTimes client rs L 0 1) ?_ fun _ _ h'' => Post.throw h''
      rcases h' with h' | h'
      · exact (silent_disconnectRaise e _ s' h').mono (fun _ _ h'' => .zero h'') fun _ _ h'' => .zero h''
      · exact (silent_disconnectRaise e _ s' h').mono (fun _ _ h'' => .one (Nat.zero_le _) h'')
          fun _ _ h'' => .one (Nat.zero_le _) h''
    · exact Post.throw (.of_raised h')
  | succ retries ih =>
    apply Post.tryCatch ((hcommand L s h).mono (fun _ _ h' => .one (Nat.le_refl _) h') fun _ _ h' => h')
    intro e s' h'
    apply Post.ite
    · intro he
      -- the next attempts go on from what this one has sent
      rcases h' with h' | h'
      · refine Post.bind ((disconnectRaise_asked he h').mono (fun _ _ h'' => h'')
          fun _ _ h'' => .zero h'') fun _ s'' h'' => ?_
        exact (ih h''.2).mono (fun _ _ h₃ => h₃.more) fun _ _ h₃ => h₃.more
      · refine Post.bind ((disconnectRaise_asked he h').mono (fun _ _ h'' => h'')
          fun _ _ h'' => .one (Nat.zero_le _) h'') fun _ s'' h'' => ?_
        exact (ih h''.2).mono (fun _ _ h₃ => h₃.succ h''.1) fun _ _ h₃ => h₃.succ h''.1
    · intro _
      exact Post.throw (.of_raised h')

/-- Once it has its connection, a call sends its requests time after time. -/
theorem pooled_sent {β : Type} {command : M β} (hcommand : Attempts rs command) (h : s.asked = L) :
    Post ((getConnection net c >>= fun _ => callWithRetry client.supported_errors command
        (disconnectRaise client) client.retries).run s)
      (fun _ => SentTimes client rs L 1 (client.retries + 1))
      (fun _ => SentTimes client rs L 0 (client.retries + 1)) := by
  apply Post.bind (Q := fun _ s' => s'.asked = L)
  · exact (silent_getConnection L s h).mono (fun _ _ h' => h') fun _ _ h' => .zero h'
  · exact fun _ _ h' => callWithRetry_sent hcommand client.retries h'

theorem commands_asked {ns : List Nat} : ∀ r ∈ ns.map Request.command, r.ofConnect = false := by
  intro r hr
  obtain ⟨n, -, rfl⟩ := List.mem_map.mp hr
  rfl

theorem transaction_asked {ns : List Nat} :
    ∀ r ∈ Request.MULTI :: ns.map Request.command ++ [.EXEC], r.ofConnect = false := by
  intro r hr
  rcases List.mem_append.mp hr with hr | hr
  · rcases List.mem_cons.mp hr with rfl | hr
    · rfl
    · exact commands_asked r hr
  · rw [List.mem_singleton.mp hr]
    rfl

theorem attempts_executePipeline {ns : List Nat} {raise_on_error : Bool} :
    Attempts (ns.map .command) (_executePipeline net c client ns raise_on_error) := by
  refine attempts_send commands_asked ?_
  exact (silent_parseAll ns).bind fun response =>
    Silent.ite ((silent_raises _).bind fun _ => silent_pure response) (silent_pure response)

theorem silent_readExec (errors : List (Nat × Exc)) : Silent (readExec net errors) :=
  (silent_readResponse _).tryCatch fun _ => Silent.ite (silent_throw _) (silent_throw _)

theorem attempts_executeTransaction {ns : List Nat} {raise_on_error : Bool} :
    Attempts (.MULTI :: ns.map .command ++ [.EXEC]) (_executeTransaction net c client ns raise_on_error) := by
  refine attempts_send transaction_asked ?_
  exact (silent_noteReply 0 _).bind fun _ => (silent_readQueued 0 ns).bind fun _ =>
    (silent_readExec _).bind fun _ => silent_finish ns raise_on_error _ _

theorem executeCommand_sent (n : Nat) (h : s.asked = L) :
    Post ((executeCommand net c client n).run s)
      (fun _ => SentTimes client [.command n] L 1 (client.retries + 1))
      (fun _ => SentTimes client [.command n] L 0 (client.retries + 1)) :=
  pooled_sent (attempts_send (by simp [Request.ofConnect]) (silent_parseResponse n)) h

theorem execute_sent (transaction : Bool) (ns : List Nat) (raise_on_error : Bool) (h : s.asked = L) :
    Post ((execute net c client transaction ns raise_on_error).run s)
      (fun _ => SentTimes client (Call.execute transaction ns raise_on_error).batch L 1 (client.retries + 1))
      (fun _ => SentTimes client (Call.execute transaction ns raise_on_error).batch L 0
        (client.retries + 1)) := by
  cases ns with
  | nil => exact Post.pure (SentTimes.one (Nat.le_refl _) (by simpa [Call.batch] using h))
  | cons n ns =>
    rw [execute, if_neg (List.cons_ne_nil _ _)]
    cases transaction with
    | true => exact pooled_sent attempts_executeTransaction h
    | false => exact pooled_sent attempts_executePipeline h

/-- Sent not at all only if the program raises. -/
theorem SentTimes.of_post {β : Type} {m : M β} {most : Nat}
    (h : Post (m.run s) (fun _ => SentTimes client rs L 1 most) (fun _ => SentTimes client rs L 0 most)) :
    ∃ times, times ≤ most ∧ (2 ≤ times → client.Resends) ∧ (isOk (m.run s) = true → 1 ≤ times) ∧
      (state (m.run s)).asked = L ++ (List.replicate times rs).flatten := by
  cases hrun : m.run s with
  | ok b s' =>
    rw [hrun] at h
    obtain ⟨times, hleast, hmost, hagain, hasked⟩ := h
    exact ⟨times, hmost, hagain, fun _ => hleast, hasked⟩
  | error e s' =>
    rw [hrun] at h
    obtain ⟨times, -, hmost, hagain, hasked⟩ := h
    exact ⟨times, hmost, hagain, fun hok => (Bool.false_ne_true hok).elim, hasked⟩

/-- What one call sends for the user. -/
theorem step_asked (net : Network) (c : Settings) (client : Client) (s : Wire) (call : Call) :
    ∃ times, times ≤ client.retries + 1 ∧ (2 ≤ times → client.Resends) ∧
      (returns net c client s call = true → 1 ≤ times) ∧
      (step net c client s call).asked = s.asked ++ (List.replicate times call.batch).flatten := by
  cases call with
  | execute_command n => exact SentTimes.of_post (executeCommand_sent n rfl)
  | execute transaction ns raise_on_error =>
    exact SentTimes.of_post (execute_sent transaction ns raise_on_error rfl)
  | disconnect =>
    refine ⟨1, by omega, by omega, fun _ => Nat.le_refl _, ?_⟩
    simp [Call.batch, step, state, disconnect, Wire.asked]

/-- However calls end, what they send for the user is each call's requests as a whole, one call
after another: again only where the client resends, and at least once where the call returns. -/
theorem requests_sent_whole (net : Network) (c : Settings) (client : Client) (s : Wire)
    (calls : List Call) :
    ∃ sent, SentFor net c client s calls sent ∧ (run net c client s calls).asked = s.asked ++ sent := by
  induction calls generalizing s with
  | nil => exact ⟨[], .nil, (List.append_nil _).symm⟩
  | cons call calls ih =>
    obtain ⟨times, hmost, hagain, hreturns, hasked⟩ := step_asked net c client s call
    obtain ⟨sent, hsent, hrest⟩ := ih (step net c client s call)
    refine ⟨_, .cons times hmost hagain hreturns hsent, ?_⟩
    change (run net c client (step net c client s call) calls).asked = _
    rw [hrest, hasked, List.append_assoc]

end Handshake

end RedisPy
