import RedisPy.Proofs.Handshake
import RedisPy.Spec.PooledCalls

/-! The replies that calls on a pooled connection read, and the sessions that their commands
meet. -/

namespace RedisPy

namespace Handshake

open Raising

variable {net : Network} {c : Settings} {client : Client} {strict : Prop} {G : Session → Prop}
  {owed rs : List Request} {s : Wire}

/-- What the calls rest on. -/
structure Lawful (net : Network) (c : Settings) (client : Client) (strict : Prop) (G : Session → Prop) :
    Prop where
  careful : Careful net c G
  greeted : ∀ σ, Greeted c σ → G σ
  tidy : strict → client.Tidy

/-- What a command of the user's leaves behind when it raises: the connection may be out of step,
if it is closed for the exception. -/
def Aborted (client : Client) (strict : Prop) (G : Session → Prop) (e : Exc) (s : Wire) : Prop :=
  Idle strict G s ∨ (client.supported_errors e = true ∧ Log strict G s)

theorem Ready.log (h : Ready strict G rs s) : Log strict G s := by
  obtain ⟨owed, h, -⟩ := h
  exact h.toLog

theorem Idle.log (h : Idle strict G s) : Log strict G s := by
  rcases h with h | h
  · exact h.toLog
  · exact h.log

theorem Ready.idle_of_not_strict (hstrict : ¬ strict) (hrs : ∀ r ∈ rs, r.ofConnect = false)
    (h : Ready strict G rs s) : Idle strict G s := by
  obtain ⟨owed, h, hdue⟩ := h
  refine .inr ⟨owed, h, .inr ⟨hstrict, Nat.zero_le _, ?_⟩⟩
  rcases hdue with rfl | ⟨-, -, hof⟩
  · exact hrs
  · exact hof

theorem canRead_post (hlawful : Lawful net c client strict G) (h : Idle strict G s) :
    Post ((canRead net c).run s) (fun _ => Ready strict G []) (fun _ => Idle strict G) := by
  refine Post.bind (connect_post hlawful.careful hlawful.greeted h) fun _ s' ⟨owed, h', hdue⟩ => ?_
  have hready : Ready strict G [] { s' with now := s'.now + 1 } :=
    ⟨owed, ⟨h'.toLog.of_eq rfl rfl, h'.connected, h'.owes, h'.session⟩, hdue⟩
  apply Post.bind (Q := fun _ => Ready strict G [])
  · exact hready
  · intro moment s'' h''
    cases net.polls moment with
    | some unread => exact Post.pure h''
    | none => exact Post.bind (disconnect_post h''.log) fun _ _ h₃ => Post.throw (.inl h₃)

theorem checkReady_post (hlawful : Lawful net c client strict G) (msg : String) (h : Idle strict G s) :
    Post ((checkReady net c msg).run s) (fun _ => Ready strict G []) (fun _ => Idle strict G) := by
  refine Post.bind (canRead_post hlawful h) fun unread s' h' => ?_
  apply Post.ite
  · intro _
    exact Post.throw (.inr h')
  · intro _
    exact Post.pure h'

theorem getConnection_post (hlawful : Lawful net c client strict G) (h : Idle strict G s) :
    Post ((getConnection net c).run s) (fun _ => Ready strict G []) (fun _ => Idle strict G) := by
  refine Post.bind (connect_post hlawful.careful hlawful.greeted h) fun _ s₁ h₁ => ?_
  apply Post.tryCatch (checkReady_post hlawful "Connection has data" (.inr h₁))
  intro e s₂ h₂
  apply Post.ite
  · intro _
    refine Post.bind (disconnect_post h₂.log) fun _ s₃ h₃ => ?_
    refine Post.bind (connect_post hlawful.careful hlawful.greeted (.inl h₃)) fun _ s₄ h₄ => ?_
    exact checkReady_post hlawful "Connection not ready" (.inr h₄)
  · intro _
    exact Post.throw h₂

/-- Requests of the user's are sent on a connection that has been greeted. -/
theorem sendPackedCommand_post (hlawful : Lawful net c client strict G)
    (hrs : ∀ r ∈ rs, r.ofConnect = false) (h : Idle strict G s) :
    Post ((sendPackedCommand net c rs).run s) (fun _ => Ready strict G rs) (fun _ => Idle strict G) := by
  refine Post.bind (connect_post hlawful.careful hlawful.greeted h) fun _ s' ⟨owed, h', hdue⟩ => ?_
  refine (transmit_post h' fun _ _ _ _ hσ => hσ).mono (fun _ s'' h'' => ⟨_, h'', ?_⟩) fun _ _ h'' => .inl h''.1
  rcases hdue with rfl | ⟨hstrict, -, hof⟩
  · exact .inl rfl
  · refine .inr ⟨hstrict, ?_, fun r hr => (List.mem_append.mp hr).elim (hof r) (hrs r)⟩
    rw [List.length_append]
    exact Nat.le_add_left ..

/-- The next reply is read, whosever it is. -/
theorem Ready.read {r : Request} (hr : r.ofConnect = false) (h : Ready strict G (r :: rs) s) :
    Post ((readResponse net r).run s) (fun _ => Ready strict G rs) (fun e s' =>
      (Ready strict G rs s' ∧ e.isinstance .ResponseError = true) ∨
        (Gone strict G s' ∧ e.isinstance .ResponseError = false)) := by
  obtain ⟨owed, h, hdue⟩ := h
  obtain ⟨due, owed, rfl, hsame, hof, hrest⟩ :
      ∃ due owed', owed = due :: owed' ∧ (strict → r = due) ∧ due.ofConnect = false ∧ Due strict rs owed' := by
    rcases hdue with rfl | ⟨hstrict, hlength, hof⟩
    · exact ⟨r, rs, rfl, fun _ => rfl, hr, .inl rfl⟩
    · cases owed with
      | nil => exact absurd hlength (Nat.not_succ_le_zero _)
      | cons due owed =>
        refine ⟨due, owed, rfl, fun h => absurd h hstrict, hof due (List.mem_cons_self ..), .inr ⟨hstrict, ?_, ?_⟩⟩
        · exact Nat.le_of_succ_le_succ hlength
        · exact fun r hr => hof r (List.mem_cons_of_mem _ hr)
  refine (readResponse_post h hsame).mono ?_ ?_
  · rintro v s' ⟨h', -⟩
    refine ⟨owed, h'.mono ?_, hrest⟩
    rintro _ ⟨σ, hσ, rfl⟩
    cases due <;> first | exact hσ | cases hof
  · rintro e s' (⟨h', he⟩ | h')
    · exact .inl ⟨⟨owed, h', hrest⟩, he⟩
    · exact .inr h'

theorem Aborted.of_callback {e : Exc} {n : Nat} {v : PyVal} (hlawful : Lawful net c client strict G)
    (hrs : ∀ r ∈ rs, r.ofConnect = false) (he : client.callback n v = .error e)
    (hresp : e.isinstance .ResponseError = false) (h : Ready strict G rs s) : Aborted client strict G e s := by
  by_cases hstrict : strict
  · rcases hlawful.tidy hstrict n v e he with hresp' | hsupported
    · exact absurd hresp' (Bool.eq_false_iff.mp hresp)
    · exact .inr ⟨hsupported, h.log⟩
  · exact .inl (h.idle_of_not_strict hstrict hrs)

/-- A reply is read and turned into a result, or an error is. -/
theorem parseResponse_post {n : Nat} (hlawful : Lawful net c client strict G)
    (hrs : ∀ r ∈ rs, r.ofConnect = false) (h : Ready strict G (.command n :: rs) s) :
    Post ((parseResponse net client n).run s) (fun _ => Ready strict G rs) (fun e s' =>
      (Ready strict G rs s' ∧ e.isinstance .ResponseError = true) ∨
        (e.isinstance .ResponseError = false ∧ Aborted client strict G e s')) := by
  apply Post.bind (Q := fun _ => Ready strict G rs)
  · refine (Ready.read rfl h).mono (fun _ _ h' => h') ?_
    rintro e s' (h' | ⟨h', he⟩)
    · exact .inl h'
    · exact .inr ⟨he, .inl (.inl h')⟩
  · intro v s' h'
    cases hcallback : client.callback n v with
    | ok => exact h'
    | error e =>
      change _ ∨ _
      cases he : e.isinstance .ResponseError with
      | true => exact .inl ⟨h', rfl⟩
      | false => exact .inr ⟨rfl, Aborted.of_callback hlawful hrs hcallback he h'⟩

/-- Only error replies are results. -/
theorem noted_post {m : M PyVal} {Q : Wire → Prop} {E : Exc → Wire → Prop}
    (h : Post (m.run s) (fun _ => Q) (fun e s' =>
      (Q s' ∧ e.isinstance .ResponseError = true) ∨ (e.isinstance .ResponseError = false ∧ E e s'))) :
    Post ((noted m).run s) (fun _ => Q) E := by
  apply Post.tryCatch h
  rintro e s' (⟨h', he⟩ | ⟨he, h'⟩)
  · rw [if_pos he]
    exact h'
  · rw [if_neg (Bool.eq_false_iff.mp he)]
    exact h'

theorem commands_ofConnect (ns : List Nat) : ∀ r ∈ ns.map Request.command, r.ofConnect = false := by
  intro r hr
  obtain ⟨n, -, rfl⟩ := List.mem_map.mp hr
  rfl

theorem parseAll_post (hlawful : Lawful net c client strict G) (ns : List Nat)
    (h : Ready strict G (ns.map .command) s) :
    Post ((parseAll net client ns).run s) (fun _ => Ready strict G []) (Aborted client strict G) := by
  induction ns generalizing s with
  | nil => exact h
  | cons n ns ih =>
    refine Post.bind (noted_post (parseResponse_post hlawful (commands_ofConnect ns) h)) fun v s' h' => ?_
    refine Post.bind (ih h') fun vs s'' h'' => ?_
    exact Post.pure h''

/-- What needs no connection leaves it alone. -/
theorem raises_post {β : Type} (x : Except Exc β) {Q : Wire → Prop} {E : Exc → Wire → Prop}
    (h : Q s) (hE : ∀ e, E e s) : Post ((raises x).run s) (fun _ => Q) E := by
  cases x with
  | ok => exact h
  | error e => exact hE e

theorem executePipeline_post (hlawful : Lawful net c client strict G) (ns : List Nat) (raise_on_error : Bool)
    (h : Idle strict G s) : Post ((_executePipeline net c client ns raise_on_error).run s)
      (fun _ => Idle strict G) (Aborted client strict G) := by
  apply Post.bind (Q := fun _ => Ready strict G (ns.map .command))
  · exact (sendPackedCommand_post hlawful (commands_ofConnect ns) h).mono (fun _ _ h' => h') fun _ _ h' => .inl h'
  · intro _ s' h'
    refine Post.bind (parseAll_post hlawful ns h') fun vs s'' h'' => ?_
    split
    · refine Post.bind (raises_post (raiseFirstError vs) h'' fun _ => .inl (.inr h'')) fun _ s₃ h₃ => ?_
      exact Post.pure (.inr h₃)
    · exact Post.pure (.inr h'')

theorem noteReply_post {r : Request} (i : Nat) (hr : r.ofConnect = false) (h : Ready strict G (r :: rs) s) :
    Post ((noteReply net i r).run s) (fun _ => Ready strict G rs) (fun _ => Idle strict G) := by
  apply Post.tryCatch (F := fun e s' => (Ready strict G rs s' ∧ e.isinstance .ResponseError = true) ∨
    (Gone strict G s' ∧ e.isinstance .ResponseError = false))
  · exact Post.bind (discard_post (Ready.read hr h)) fun _ _ h' => Post.pure h'
  · rintro e s' (⟨h', he⟩ | ⟨h', he⟩)
    · rw [if_pos he]
      exact Post.pure h'
    · rw [if_neg (Bool.eq_false_iff.mp he)]
      exact Post.throw (.inl h')

theorem readQueued_post (ns : List Nat) (i : Nat) (h : Ready strict G (ns.map .command ++ rs) s) :
    Post ((readQueued net i ns).run s) (fun _ => Ready strict G rs) (fun _ => Idle strict G) := by
  induction ns generalizing i s with
  | nil => exact h
  | cons n ns ih =>
    refine Post.bind (noteReply_post i rfl h) fun found s' h' => ?_
    refine Post.bind (ih (i + 1) h') fun errors s'' h'' => ?_
    exact Post.pure h''

theorem readExec_post (errors : List (Nat × Exc)) (h : Ready strict G [.EXEC] s) :
    Post ((readExec net errors).run s) (fun _ => Ready strict G []) (fun _ => Idle strict G) := by
  apply Post.tryCatch (F := fun _ => Idle strict G)
  · refine (Ready.read rfl h).mono (fun _ _ h' => h') ?_
    rintro e s' (⟨h', -⟩ | ⟨h', -⟩)
    · exact .inr h'
    · exact .inl h'
  · intro e s' h'
    apply Post.ite
    · intro _
      exact Post.throw h'
    · intro _
      exact Post.throw h'

theorem finish_post (ns : List Nat) (raise_on_error : Bool) (errors : List (Nat × Exc)) (v : PyVal)
    (h : Ready strict G [] s) : Post ((finish client ns raise_on_error errors v).run s)
      (fun _ => Idle strict G) (fun _ => Idle strict G) := by
  unfold finish
  split
  · exact Post.throw (.inr h)
  · apply Post.ite
    · intro _
      exact Post.bind (disconnect_post h.log) fun _ _ h' => Post.throw (.inl h')
    · intro _
      split
      · refine Post.bind (raises_post _ h fun _ => .inr h) fun _ s' h' => ?_
        exact raises_post _ (.inr h') fun _ => .inr h'
      · exact raises_post _ (.inr h) fun _ => .inr h
  · exact Post.throw (.inr h)

theorem executeTransaction_post (hlawful : Lawful net c client strict G) (ns : List Nat)
    (raise_on_error : Bool) (h : Idle strict G s) :
    Post ((_executeTransaction net c client ns raise_on_error).run s)
      (fun _ => Idle strict G) (fun _ => Idle strict G) := by
  have hof : ∀ r ∈ Request.MULTI :: ns.map .command ++ [.EXEC], r.ofConnect = false := by
    refine List.forall_mem_cons.mpr ⟨rfl, fun r hr => ?_⟩
    rcases List.mem_append.mp hr with hr | hr
    · exact commands_ofConnect ns r hr
    · rw [List.mem_singleton.mp hr]
      rfl
  refine Post.bind (sendPackedCommand_post hlawful hof h) fun _ s₁ h₁ => ?_
  refine Post.bind (noteReply_post 0 rfl h₁) fun found s₂ h₂ => ?_
  refine Post.bind (readQueued_post ns 0 h₂) fun errors s₃ h₃ => ?_
  refine Post.bind (readExec_post _ h₃) fun v s₄ h₄ => ?_
  exact finish_post ns raise_on_error _ v h₄

theorem disconnectRaise_post {e : Exc} (h : Log strict G s) :
    Post ((disconnectRaise client e).run s) (fun _ => Idle strict G) (fun _ => Idle strict G) := by
  refine Post.bind (disconnect_post h) fun _ s' h' => ?_
  apply Post.ite
  · intro _
    exact Post.pure (.inl h')
  · intro _
    exact Post.throw (.inl h')

theorem Aborted.log {e : Exc} (h : Aborted client strict G e s) : Log strict G s := by
  rcases h with h | ⟨-, h⟩
  · exact h.log
  · exact h

theorem Aborted.idle {e : Exc} (h : Aborted client strict G e s) (he : ¬ client.supported_errors e = true) :
    Idle strict G s := by
  rcases h with h | ⟨he', -⟩
  · exact h
  · exact absurd he' he

/-- However often a call is made, the connection goes back as it should be. -/
theorem callWithRetry_post {β : Type} {command : M β}
    (hcommand : ∀ s, Idle strict G s →
      Post (command.run s) (fun _ => Idle strict G) (Aborted client strict G))
    (retries : Nat) (h : Idle strict G s) :
    Post ((callWithRetry client.supported_errors command (disconnectRaise client) retries).run s)
      (fun _ => Idle strict G) (fun _ => Idle strict G) := by
  induction retries generalizing s with
  | zero =>
    apply Post.tryCatch (hcommand s h)
    intro e s' h'
    split
    · exact Post.bind (disconnectRaise_post h'.log) fun _ _ h'' => Post.throw h''
    · exact Post.throw (h'.idle ‹_›)
  | succ retries ih =>
    apply Post.tryCatch (hcommand s h)
    intro e s' h'
    apply Post.ite
    · intro _
      exact Post.bind (disconnectRaise_post h'.log) fun _ _ h'' => ih h''
    · intro he
      exact Post.throw (h'.idle he)

theorem executeCommand_post (hlawful : Lawful net c client strict G) (n : Nat) (h : Idle strict G s) :
    Post ((executeCommand net c client n).run s) (fun _ => Idle strict G) (fun _ => Idle strict G) := by
  refine Post.bind (getConnection_post hlawful h) fun _ s₁ h₁ => ?_
  refine callWithRetry_post (fun s₂ h₂ => ?_) client.retries (.inr h₁)
  apply Post.bind (Q := fun _ => Ready strict G [.command n])
  · exact (sendPackedCommand_post hlawful (commands_ofConnect [n]) h₂).mono (fun _ _ h' => h')
      fun _ _ h' => .inl h'
  · intro _ s₃ h₃
    refine (parseResponse_post hlawful (List.forall_mem_nil _) h₃).mono (fun _ _ h' => .inr h') ?_
    rintro e s' (⟨h', -⟩ | ⟨-, h'⟩)
    · exact .inl (.inr h')
    · exact h'

theorem execute_post (hlawful : Lawful net c client strict G) (transaction : Bool) (ns : List Nat)
    (raise_on_error : Bool) (h : Idle strict G s) :
    Post ((execute net c client transaction ns raise_on_error).run s)
      (fun _ => Idle strict G) (fun _ => Idle strict G) := by
  apply Post.ite
  · intro _
    exact Post.pure h
  · intro _
    refine Post.bind (getConnection_post hlawful h) fun _ s₁ h₁ => ?_
    refine callWithRetry_post (fun s₂ h₂ => ?_) client.retries (.inr h₁)
    apply Post.ite
    · intro _
      exact (executeTransaction_post hlawful ns raise_on_error h₂).mono (fun _ _ h' => h') fun _ _ h' => .inl h'
    · intro _
      exact executePipeline_post hlawful ns raise_on_error h₂

theorem step_idle (hlawful : Lawful net c client strict G) (call : Call) (h : Idle strict G s) :
    Idle strict G (step net c client s call) := by
  cases call with
  | execute_command n => exact (executeCommand_post hlawful n h).state
  | execute transaction ns raise_on_error => exact (execute_post hlawful transaction ns raise_on_error h).state
  | disconnect => exact .inl h.log.disconnected

/-- Between calls the connection is as it is in the pool. -/
theorem run_idle (hlawful : Lawful net c client strict G) (calls : List Call) :
    Idle strict G (run net c client {} calls) := by
  refine Course.foldl_keeps (fun s call => step_idle hlawful call) (.inl ⟨⟨?_, ?_⟩, rfl, rfl⟩)
  · exact fun _ => List.forall_mem_nil _
  · exact List.forall_mem_nil _

/-- Every request is answered with `v`, and too late for `can_read`. -/
def answering (v : PyVal) : Network where
  answers _ _ := .value v

/-- A client without callbacks. -/
def plain : Client where
  callback _ v := .ok v

theorem callWithRetry_unsupported {β : Type} {command : M β} {e : Exc} {s' : Wire}
    (hcommand : command.run s = .error e s') (he : client.supported_errors e = false) (retries : Nat) :
    (callWithRetry client.supported_errors command (disconnectRaise client) retries).run s = .error e s' := by
  cases retries with
  | zero =>
    rw [callWithRetry, run_tryCatch, hcommand]
    dsimp only
    rw [he]
    rfl
  | succ retries =>
    rw [callWithRetry, run_tryCatch, hcommand]
    dsimp only
    rw [he]
    rfl

theorem parseResponse_run {n : Nat} {v : PyVal} {e : Exc} {due : Request} {s' : Wire}
    (hcallback : client.callback n v = .error e) (howed : s.owed = due :: owed)
    (hs' : s' = { s with
      owed := owed
      now := s.now + 1
      reads := s.reads ++ [(.command n, due)]
      session := s.session.serve due v }) :
    (parseResponse (answering v) client n).run s = .error e s' := by
  have hread : (readResponse (answering v) (.command n)).run s = .ok v s' := by
    simp only [readResponse, EStateM.run_bind, EStateM.run_get, tick_run, howed, hs']
    rfl
  simp only [parseResponse, EStateM.run_bind, hread, hcallback]
  rfl

theorem parseAll_run {n : Nat} {ns : List Nat} {e : Exc} {s' : Wire}
    (hparse : (parseResponse net client n).run s = .error e s') (hresp : e.isinstance .ResponseError = false) :
    (parseAll net client (n :: ns)).run s = .error e s' := by
  simp only [parseAll, noted, EStateM.run_bind, run_tryCatch, hparse, hresp]
  rfl

/-- Over every course of commands, pipelines and transactions, with every failure of the network
and every setting of the connection, each reply that is read is the reply to the request for which
it is read, just if a response callback raises nothing but error replies and what the connection's
retry is made for: on no other exception is the connection closed, and what is left unread of a
pipeline's replies is then read for the next command. -/
theorem replies_paired_iff (client : Client) :
    (∀ (net : Network) (c : Settings) (calls : List Call),
      ∀ p ∈ (run net c client {} calls).reads, p.1 = p.2) ↔ client.Tidy := by
  constructor
  · intro h n v e hcallback
    by_contra hnot
    obtain ⟨hresp, he⟩ := not_or.mp hnot
    have he := Bool.eq_false_iff.mpr he
    -- the pipeline's first reply raises, and its second one is left unread
    let left : Wire := {
      connected := true
      owed := [.command (n + 1)]
      now := 4
      reads := [(.command n, .command n)]
      sent := [(.command n, {}), (.command (n + 1), {})] }
    have hpipeline : (_executePipeline (answering v) {} client [n, n + 1] false).run
        { connected := true, now := 2 } = .error e left := by
      have hparse : (parseAll (answering v) client [n, n + 1]).run { left with
          owed := [.command n, .command (n + 1)], now := 3, reads := [] } = .error e left :=
        parseAll_run (parseResponse_run hcallback rfl rfl) (Bool.eq_false_iff.mpr hresp)
      change (parseAll (answering v) client [n, n + 1] >>= fun response => pure response).run { left with
        owed := [.command n, .command (n + 1)], now := 3, reads := [] } = _
      rw [EStateM.run_bind, hparse]
    have hfirst : step (answering v) {} client {} (.execute false [n, n + 1] false) = left := by
      have hrun : (execute (answering v) {} client false [n, n + 1] false).run {} = .error e left :=
        callWithRetry_unsupported hpipeline he client.retries
      rw [step, hrun]
      rfl
    -- the next command reads it
    have hsecond : (step (answering v) {} client left (.execute_command n)).reads =
        left.reads ++ [(.command n, .command (n + 1))] := by
      let mixed : Wire := { left with
        owed := [.command n]
        now := 7
        reads := left.reads ++ [(.command n, .command (n + 1))]
        sent := left.sent ++ [(.command n, {})] }
      have hcommand : (do
          sendPackedCommand (answering v) {} [.command n]
          parseResponse (answering v) client n : M PyVal).run { left with now := 5 } = .error e mixed := by
        change (parseResponse (answering v) client n).run { mixed with
          owed := [.command (n + 1), .command n], now := 6, reads := left.reads } = _
        exact parseResponse_run hcallback rfl rfl
      have hrun : (executeCommand (answering v) {} client n).run left = .error e mixed :=
        callWithRetry_unsupported hcommand he client.retries
      rw [step, hrun]
      rfl
    have hpaired := h (answering v) {} [.execute false [n, n + 1] false, .execute_command n]
      (.command n, .command (n + 1)) (by
        rw [run, List.foldl_cons, hfirst, List.foldl_cons, List.foldl_nil, hsecond]
        exact List.mem_append_right _ (List.mem_singleton_self _))
    have hsame : n = n + 1 := Request.command.inj hpaired
    omega
  · intro htidy net c calls
    have hlawful : Lawful net c client True (fun _ => True) :=
      ⟨.inr fun _ => trivial, fun _ _ => trivial, fun _ => htidy⟩
    exact (run_idle hlawful calls).log.paired trivial

end Handshake

end RedisPy
