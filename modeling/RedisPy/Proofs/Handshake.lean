import RedisPy.Spec.Handshake

/-! What a connection is after each of its operations: it is gone, or the replies that it owes
are those to the last requests, and it has been greeted. -/

namespace RedisPy

/-- The classes of an exception hold the bases of each of them. -/
theorem ExcClass.mro_trans (cls : ExcClass) : ∀ c ∈ cls.mro, ∀ d ∈ c.mro, d ∈ cls.mro := by
  cases cls with
  | user name => simp [mro]
  | _ => decide

theorem Exc.isinstance_of_base {e : Exc} {c d : ExcClass} (h : e.isinstance c = true)
    (hd : d ∈ c.mro) : e.isinstance d = true :=
  List.elem_eq_true_of_mem (e.cls.mro_trans c (List.mem_of_elem_eq_true h) d hd)

namespace Handshake

open Raising

variable {net : Network} {c : Settings} {strict : Prop} {G P : Session → Prop} {owed rs : List Request}
  {s : Wire}

/-- What has happened so far: each reply has been read for its own request, if that is asked for,
and what has been sent for the user has met a session as it should be. -/
structure Log (strict : Prop) (G : Session → Prop) (s : Wire) : Prop where
  paired : strict → ∀ p ∈ s.reads, p.1 = p.2
  greeted : ∀ p ∈ s.sent, p.1.ofConnect = false → G p.2

/-- The connection is there, with these replies to come. -/
structure Holds (strict : Prop) (G P : Session → Prop) (owed : List Request) (s : Wire) : Prop extends Log strict G s where
  connected : s.connected = true
  owes : s.owed = owed
  session : P s.session

structure Gone (strict : Prop) (G : Session → Prop) (s : Wire) : Prop extends Log strict G s where
  connected : s.connected = false
  owes : s.owed = []

/-- The replies to come are those to the requests; or there are as many at least, none of them to
the connection's own requests, if replies need not be read for their own requests. -/
def Due (strict : Prop) (rs owed : List Request) : Prop :=
  owed = rs ∨ (¬ strict ∧ rs.length ≤ owed.length ∧ ∀ r ∈ owed, r.ofConnect = false)

/-- A connection of the pool, or one on which requests have been sent. -/
def Ready (strict : Prop) (G : Session → Prop) (rs : List Request) (s : Wire) : Prop :=
  ∃ owed, Holds strict G G owed s ∧ Due strict rs owed

/-- As the connection is in the pool. -/
def Idle (strict : Prop) (G : Session → Prop) (s : Wire) : Prop := Gone strict G s ∨ Ready strict G [] s

theorem Log.of_eq {s' : Wire} (h : Log strict G s) (hreads : s'.reads = s.reads) (hsent : s'.sent = s.sent) :
    Log strict G s' :=
  ⟨hreads ▸ h.paired, hsent ▸ h.greeted⟩

theorem Holds.mono {Q : Session → Prop} (h : Holds strict G P owed s) (hPQ : ∀ σ, P σ → Q σ) : Holds strict G Q owed s :=
  ⟨h.toLog, h.connected, h.owes, hPQ _ h.session⟩

theorem Log.disconnected (h : Log strict G s) : Gone strict G { s with connected := false, session := {}, owed := [] } :=
  ⟨h.of_eq rfl rfl, rfl, rfl⟩

theorem disconnect_post (h : Log strict G s) {E : Exc → Wire → Prop} :
    Post (disconnect.run s) (fun _ => Gone strict G) E := h.disconnected

theorem tick_run (s : Wire) : tick.run s = .ok s.now { s with now := s.now + 1 } := rfl

/-- What comes of sending requests. -/
theorem transmit_post (h : Holds strict G P owed s) (hrs : ∀ r ∈ rs, r.ofConnect = false → ∀ σ, P σ → G σ) :
    Post ((transmit net rs).run s) (fun _ => Holds strict G P (owed ++ rs)) (fun e s' =>
      Gone strict G s' ∧ e.isinstance .ResponseError = false) := by
  cases hsends : net.sends s.now with
  | some e =>
    have hrun : (transmit net rs).run s =
        .error e.1 { s with now := s.now + 1, connected := false, session := {}, owed := [] } := by
      simp only [transmit, EStateM.run_bind, tick_run, hsends]
      rfl
    rw [hrun]
    exact ⟨⟨h.toLog.of_eq rfl rfl, rfl, rfl⟩, e.2⟩
  | none =>
    have hrun : (transmit net rs).run s =
        .ok () { s with now := s.now + 1, owed := s.owed ++ rs, sent := s.sent ++ rs.map (·, s.session) } := by
      simp only [transmit, EStateM.run_bind, tick_run, hsends]
      rfl
    rw [hrun]
    refine ⟨⟨h.paired, ?_⟩, h.connected, congrArg (· ++ rs) h.owes, h.session⟩
    intro p hp hof
    rcases List.mem_append.mp hp with hp | hp
    · exact h.greeted p hp hof
    · obtain ⟨r, hr, rfl⟩ := List.mem_map.mp hp
      exact hrs r hr hof _ h.session

theorem Log.read (h : Log strict G s) {r due : Request} (hdue : strict → r = due) {s' : Wire}
    (hreads : s'.reads = s.reads ++ [(r, due)]) (hsent : s'.sent = s.sent) : Log strict G s' where
  paired hstrict := by
    rw [hreads]
    intro p hp
    rcases List.mem_append.mp hp with hp | hp
    · exact h.paired hstrict p hp
    · rw [List.mem_singleton.mp hp]
      exact hdue hstrict
  greeted := hsent ▸ h.greeted

/-- What comes of reading the reply that is next. -/
theorem readResponse_post {r due : Request} (h : Holds strict G P (due :: owed) s) (hdue : strict → r = due) :
    Post ((readResponse net r).run s)
      (fun v s' => Holds strict G (fun σ' => ∃ σ, P σ ∧ σ' = σ.serve due v) owed s' ∧
        ∃ moment, net.answers moment due = .value v)
      (fun e s' => (Holds strict G P owed s' ∧ e.isinstance .ResponseError = true) ∨
        (Gone strict G s' ∧ e.isinstance .ResponseError = false)) := by
  have howes := h.owes
  cases hanswer : net.answers s.now due with
  | value v =>
    have hrun : (readResponse net r).run s =
        .ok v { s with
          now := s.now + 1
          owed := owed
          reads := s.reads ++ [(r, due)]
          session := s.session.serve due v } := by
      simp only [readResponse, EStateM.run_bind, EStateM.run_get, tick_run, howes, hanswer]
      rfl
    rw [hrun]
    exact ⟨⟨h.toLog.read hdue rfl rfl, h.connected, rfl, s.session, h.session, rfl⟩, s.now, hanswer⟩
  | error e he =>
    have hrun : (readResponse net r).run s =
        .error e { s with now := s.now + 1, owed := owed, reads := s.reads ++ [(r, due)] } := by
      simp only [readResponse, EStateM.run_bind, EStateM.run_get, tick_run, howes, hanswer]
      rfl
    rw [hrun]
    exact .inl ⟨⟨h.toLog.read hdue rfl rfl, h.connected, rfl, h.session⟩, he⟩
  | lost e =>
    have hrun : (readResponse net r).run s =
        .error e.1 { s with now := s.now + 1, connected := false, session := {}, owed := [] } := by
      simp only [readResponse, EStateM.run_bind, EStateM.run_get, tick_run, howes, hanswer]
      rfl
    rw [hrun]
    exact .inr ⟨⟨h.toLog.of_eq rfl rfl, rfl, rfl⟩, e.2⟩

/-- What a connection is after something has gone wrong on it. -/
def Failed (strict : Prop) (G P : Session → Prop) (E : Exc → Prop) (e : Exc) (s : Wire) : Prop :=
  Gone strict G s ∨ (Holds strict G P [] s ∧ E e)

theorem Failed.mono {Q : Session → Prop} {E F : Exc → Prop} {e : Exc} (h : Failed strict G P E e s)
    (hPQ : ∀ σ, P σ → Q σ) (hEF : E e → F e) : Failed strict G Q F e s := by
  rcases h with h | ⟨h, he⟩
  · exact .inl h
  · exact .inr ⟨h.mono hPQ, hEF he⟩

theorem Failed.log {E : Exc → Prop} {e : Exc} (h : Failed strict G P E e s) : Log strict G s := by
  rcases h with h | ⟨h, -⟩
  · exact h.toLog
  · exact h.toLog

/-- What comes of a command of the handshake. -/
theorem exchange_post {r : Request} (h : Holds strict G P [] s) (hr : r.ofConnect = true) :
    Post ((exchange net r).run s)
      (fun v s' => Holds strict G (fun σ' => ∃ σ, P σ ∧ σ' = σ.serve r v) [] s' ∧
        ∃ moment, net.answers moment r = .value v)
      (fun e s' => (Holds strict G P [] s' ∧ e.isinstance .ResponseError = true) ∨
        (Gone strict G s' ∧ e.isinstance .ResponseError = false)) := by
  refine Post.bind (Q := fun _ => Holds strict G P [r]) ?_ fun _ s' h' => readResponse_post h' fun _ => rfl
  refine Post.mono (transmit_post h ?_) (fun _ _ h' => h') fun _ _ h' => .inr h'
  intro r' hr' hof
  rw [List.mem_singleton.mp hr', hr] at hof
  cases hof

theorem exchangeOK_post {r : Request} {e : Exc} (h : Holds strict G P [] s) (hr : r.ofConnect = true)
    (he : e.isinstance .RedisError = true) :
    Post ((exchangeOK net r e).run s)
      (fun _ => Holds strict G (fun σ' => ∃ σ v, P σ ∧ isOK v = true ∧ σ' = σ.serve r v) [])
      (Failed strict G (fun _ => True) fun e' => e'.isinstance .RedisError = true) := by
  apply Post.bind (Q := fun v => Holds strict G (fun σ' => ∃ σ, P σ ∧ σ' = σ.serve r v) [])
  · refine (exchange_post h hr).mono (fun _ _ h' => h'.1) fun e' s' h' => ?_
    rcases h' with ⟨h', he'⟩ | ⟨h', -⟩
    · exact .inr ⟨h'.mono fun _ _ => trivial, Exc.isinstance_of_base he' (by decide)⟩
    · exact .inl h'
  · intro v s' h'
    apply Post.ite
    · intro hv
      refine Post.pure (h'.mono ?_)
      rintro σ' ⟨σ, hσ, rfl⟩
      exact ⟨σ, v, hσ, hv, rfl⟩
    · intro _
      exact Post.throw (.inr ⟨h'.mono fun _ _ => trivial, he⟩)

theorem discard_post {β : Type} {m : M β} {Q : Wire → Prop} {E : Exc → Wire → Prop}
    (h : Post (m.run s) (fun _ => Q) E) : Post ((discard m).run s) (fun _ => Q) E := by
  change Post (EStateM.map (fun _ => ()) m s) _ _
  unfold EStateM.map
  change Post (m s) _ _ at h
  cases hm : m s <;> rw [hm] at h <;> exact h

/-- What is raised while a connection is greeted and leaves it open: errors of the library's, but
for a credential provider's and for what comes of a HELLO that is not answered with a map. -/
def Expected (net : Network) (c : Settings) (e : Exc) : Prop :=
  e.isinstance .RedisError = true ∨ c.auth = .error e ∨ ¬ net.Maps

theorem Greets.authenticated {protocol : Nat} {sent args : List String} (hprotocol : protocol = c.protocol)
    (hauth : c.auth = .ok args) (hargs : args ≠ []) (hsent : sent.getLast? = args.getLast?) :
    Greets c none 0 { protocol := protocol, auth := some sent } where
  protocol := hprotocol
  auth := ⟨args, hauth, by rw [if_neg hargs]; exact ⟨sent, rfl, hsent⟩⟩
  name := rfl
  db := rfl

theorem Greets.anonymous {protocol : Nat} (hprotocol : protocol = c.protocol) (hauth : c.auth = .ok []) :
    Greets c none 0 { protocol := protocol } where
  protocol := hprotocol
  auth := ⟨[], hauth, rfl⟩
  name := rfl
  db := rfl

/-- A command of the handshake that fails. -/
theorem exchange_failed {Q : Session → Prop} {e : Exc} (hPQ : ∀ σ, P σ → Q σ)
    (h : (Holds strict G P [] s ∧ e.isinstance .ResponseError = true) ∨
      (Gone strict G s ∧ e.isinstance .ResponseError = false)) :
    Failed strict G Q (Expected net c) e s := by
  rcases h with ⟨h, he⟩ | ⟨h, -⟩
  · exact .inr ⟨h.mono hPQ, .inl (Exc.isinstance_of_base he (by decide))⟩
  · exact .inl h

/-- The reply to HELLO has another protocol, or is no map. -/
theorem expected_of_checkProtocol {moment protocol : Nat} {auth : List String} {v : PyVal} {e : Exc}
    (hanswer : net.answers moment (.HELLO protocol auth) = .value v)
    (hcheck : checkProtocol protocol v = .error e) : Expected net c e := by
  by_cases hmap : ∃ items, v = .dict items
  · obtain ⟨items, rfl⟩ := hmap
    dsimp only [checkProtocol] at hcheck
    split at hcheck
    · cases hcheck
    · cases hcheck
      exact .inl rfl
  · exact .inr (.inr fun hmaps => hmap (hmaps moment _ _ v hanswer))

/-- HELLO is sent and its reply, in one of the two libraries, is checked. -/
theorem greet_post {auth : List String} (checked : Bool) (h : Holds strict G (· = {}) [] s)
    (hgreets : ∀ v, Greets c none 0 (Session.serve {} (.HELLO c.protocol auth) v)) :
    Post ((do
        let handshake_metadata ← exchange net (.HELLO c.protocol auth)
        if checked then raises (checkProtocol c.protocol handshake_metadata) : M Unit).run s)
      (fun _ => Holds strict G (Greets c none 0) []) (Failed strict G (fun _ => True) (Expected net c)) := by
  apply Post.bind (Q := fun v s' => Holds strict G (Greets c none 0) [] s' ∧
    ∃ moment, net.answers moment (.HELLO c.protocol auth) = .value v)
  · refine (exchange_post h rfl).mono ?_ fun _ _ h' => exchange_failed (fun _ _ => trivial) h'
    rintro v s' ⟨h', hanswer⟩
    refine ⟨h'.mono ?_, hanswer⟩
    rintro _ ⟨_, rfl, rfl⟩
    exact hgreets v
  · rintro v s' ⟨h', moment, hanswer⟩
    apply Post.ite
    · intro _
      cases hcheck : checkProtocol c.protocol v with
      | ok => exact h'
      | error e => exact .inr ⟨h'.mono fun _ _ => trivial, expected_of_checkProtocol hanswer hcheck⟩
    · intro _
      exact Post.pure h'

theorem helloAuth_post {args : List String} (h : Holds strict G (· = {}) [] s) (hauth : c.auth = .ok args)
    (hargs : args ≠ []) : Post ((helloAuth net c args).run s) (fun _ => Holds strict G (Greets c none 0) [])
      (Failed strict G (fun _ => True) (Expected net c)) := by
  refine greet_post c.asyncio h fun v => ?_
  by_cases hone : args.length = 1
  · obtain ⟨a, rfl⟩ := List.length_eq_one_iff.mp hone
    exact Greets.authenticated rfl hauth hargs rfl
  · simp only [if_neg hone, Session.serve, if_neg hargs]
    exact Greets.authenticated rfl hauth hargs rfl

theorem hello_post (h : Holds strict G (· = {}) [] s) (hauth : c.auth = .ok []) :
    Post ((hello net c).run s) (fun _ => Holds strict G (Greets c none 0) [])
      (Failed strict G (fun _ => True) (Expected net c)) :=
  greet_post (!c.asyncio) h fun _ => Greets.anonymous rfl hauth

/-- What a server knows of a connection that has sent AUTH, if it has replied with `"OK"`. -/
theorem sendAuth_post {args : List String} (h : Holds strict G (· = {}) [] s) (hauth : c.auth = .ok args)
    (hargs : args ≠ []) (hprotocol : c.protocol = 2) :
    Post ((sendAuth net args).run s) (fun _ => Holds strict G (Greets c none 0) [])
      (Failed strict G (fun _ => True) (Expected net c)) := by
  -- the password is the last of what is sent, the user name given or not
  have hserved (sent : List String) (hsent : sent.getLast? = args.getLast?) (v : PyVal) (hv : isOK v = true) :
      Greets c none 0 (Session.serve {} (.AUTH sent) v) := by
    simp only [Session.serve, if_pos hv]
    exact Greets.authenticated hprotocol.symm hauth hargs hsent
  apply Post.bind (Q := fun _ => Holds strict G (· = {}) [.AUTH args])
  · refine Post.mono (transmit_post h ?_) (fun _ _ h' => h') fun _ _ h' => .inl h'.1
    intro r hr hof
    rw [List.mem_singleton.mp hr] at hof
    cases hof
  intro _ s' h'
  apply Post.bind (Q := fun v => Holds strict G (fun σ' => isOK v = true → Greets c none 0 σ') [])
  · apply Post.tryCatch ((readResponse_post h' fun _ => rfl).mono ?_ fun _ _ h'' => h'')
    · rintro e s'' (⟨h'', he⟩ | ⟨h'', he⟩)
      · apply Post.ite
        · intro _
          refine (exchange_post h'' rfl).mono ?_ fun _ _ h' => exchange_failed (fun _ _ => trivial) h'
          rintro v s₃ ⟨h₃, -⟩
          apply h₃.mono
          rintro _ ⟨_, rfl, rfl⟩ hv
          refine hserved _ ?_ v hv
          cases args.getLast? <;> rfl
        · intro _
          exact Post.throw (exchange_failed (fun _ _ => trivial) (.inl ⟨h'', he⟩))
      · split
        · exact absurd (Exc.isinstance_of_base ‹_› (by decide)) (Bool.eq_false_iff.mp he)
        · exact Post.throw (.inl h'')
    · rintro v s'' ⟨h'', -⟩
      apply h''.mono
      rintro _ ⟨_, rfl, rfl⟩ hv
      exact hserved args rfl v hv
  · intro v s'' h''
    apply Post.ite
    · intro hv
      exact Post.pure (h''.mono fun _ hσ => hσ hv)
    · intro _
      exact Post.throw (.inr ⟨h''.mono fun _ _ => trivial, .inl rfl⟩)

theorem authenticate_post {args : List String} (h : Holds strict G (· = {}) [] s) (hauth : c.auth = .ok args) :
    Post ((authenticate net c args).run s) (fun _ => Holds strict G (Greets c none 0) [])
      (Failed strict G (fun _ => True) (Expected net c)) := by
  apply Post.ite
  · intro ⟨hargs, _⟩
    exact helloAuth_post h hauth hargs
  · intro hnot
    apply Post.ite
    · intro hargs
      exact sendAuth_post h hauth hargs (not_not.mp fun hprotocol => hnot ⟨hargs, hprotocol⟩)
    · intro hargs
      rw [not_not.mp hargs] at hauth
      apply Post.ite
      · intro _
        exact hello_post h hauth
      · intro hprotocol
        refine Post.pure (h.mono ?_)
        rintro _ rfl
        exact Greets.anonymous (not_not.mp hprotocol).symm hauth

theorem setName_post (h : Holds strict G (Greets c none 0) [] s) :
    Post ((setName net c).run s) (fun _ => Holds strict G (Greets c (given c.client_name) 0) [])
      (Failed strict G (fun _ => True) (Expected net c)) := by
  rw [setName]
  cases hname : given c.client_name with
  | none => exact h
  | some name =>
    refine (exchangeOK_post h rfl rfl).mono ?_ fun _ _ h' => h'.mono (fun _ _ => trivial) .inl
    intro _ s' h'
    apply h'.mono
    rintro _ ⟨σ, v, hσ, hv, rfl⟩
    simp only [Session.serve, if_pos hv]
    exact ⟨hσ.protocol, hσ.auth, rfl, hσ.db⟩

theorem setInfo_post {attr : String} {value : Option String} (h : Holds strict G P [] s) :
    Post ((setInfo net attr value).run s) (fun _ => Holds strict G P [])
      (Failed strict G (fun _ => True) (Expected net c)) := by
  rw [setInfo]
  cases given value with
  | none => exact h
  | some value =>
    apply Post.tryCatch (discard_post ((exchange_post h rfl).mono ?_ fun _ _ h' => h'))
    · rintro e s' (⟨h', he⟩ | ⟨h', he⟩)
      · rw [if_pos he]
        exact h'
      · rw [if_neg (Bool.eq_false_iff.mp he)]
        exact .inl h'
    · rintro v s' ⟨h', -⟩
      apply h'.mono
      rintro _ ⟨σ, hσ, rfl⟩
      exact hσ

theorem select_post {name : Option String} (h : Holds strict G (Greets c name 0) [] s) :
    Post ((select net c).run s) (fun _ => Holds strict G (Greets c name c.db) [])
      (Failed strict G (fun _ => True) (Expected net c)) := by
  apply Post.ite
  · intro _
    refine (exchangeOK_post h rfl rfl).mono ?_ fun _ _ h' => h'.mono (fun _ _ => trivial) .inl
    intro _ s' h'
    apply h'.mono
    rintro _ ⟨σ, v, hσ, hv, rfl⟩
    simp only [Session.serve, if_pos hv]
    exact ⟨hσ.protocol, hσ.auth, hσ.name, rfl⟩
  · intro hdb
    rw [not_not.mp hdb]
    exact h

theorem setUp_post {name : Option String} (h : Holds strict G (Greets c name 0) [] s) :
    Post ((setUp net c).run s) (fun _ => Holds strict G (Greets c name c.db) [])
      (Failed strict G (fun _ => True) (Expected net c)) := by
  refine Post.bind (setInfo_post h) fun _ s₁ h₁ => ?_
  refine Post.bind (setInfo_post h₁) fun _ s₂ h₂ => ?_
  exact select_post h₂

theorem sendEach_post (hrs : ∀ r ∈ rs, r.ofConnect = true) (h : Holds strict G P owed s) :
    Post ((sendEach net rs).run s) (fun _ => Holds strict G P (owed ++ rs)) (fun _ => Gone strict G) := by
  induction rs generalizing owed s with
  | nil =>
    rw [List.append_nil]
    exact h
  | cons r rs ih =>
    apply Post.bind (Q := fun _ => Holds strict G P (owed ++ [r]))
    · refine Post.mono (transmit_post h ?_) (fun _ _ h' => h') fun _ _ h' => h'.1
      intro r' hr' hof
      rw [List.mem_singleton.mp hr', hrs r (List.mem_cons_self ..)] at hof
      cases hof
    · intro _ s' h'
      have hrest := ih (fun r' hr' => hrs r' (List.mem_cons_of_mem _ hr')) h'
      rwa [List.append_assoc] at hrest

theorem readInfos_post (hrs : ∀ r ∈ rs, ∃ attr value, r = .SETINFO attr value)
    (h : Holds strict G P (rs ++ owed) s) :
    Post ((readInfos net rs).run s) (fun _ => Holds strict G P owed) (fun _ => Gone strict G) := by
  induction rs generalizing s with
  | nil => exact h
  | cons r rs ih =>
    obtain ⟨attr, value, rfl⟩ := hrs r (List.mem_cons_self ..)
    apply Post.bind (Q := fun _ => Holds strict G P (rs ++ owed))
    · apply Post.tryCatch (discard_post ((readResponse_post h fun _ => rfl).mono ?_ fun _ _ h' => h'))
      · rintro e s' (⟨h', he⟩ | ⟨h', he⟩)
        · rw [if_pos he]
          exact h'
        · rw [if_neg (Bool.eq_false_iff.mp he)]
          exact h'
      · rintro v s' ⟨h', -⟩
        apply h'.mono
        rintro _ ⟨σ, hσ, rfl⟩
        exact hσ
    · intro _ s' h'
      exact ih (fun r' hr' => hrs r' (List.mem_cons_of_mem _ hr')) h'

theorem readSelects_post {name : Option String} (h : Holds strict G (Greets c name 0) (selects c) s) :
    Post ((readSelects net (selects c)).run s) (fun _ => Holds strict G (Greets c name c.db) [])
      (Failed strict G (fun _ => True) (Expected net c)) := by
  by_cases hdb : c.db ≠ 0
  · rw [selects, if_pos hdb] at h ⊢
    refine Post.bind (Q := fun v => Holds strict G (fun σ => isOK v = true → Greets c name c.db σ) [])
      ((readResponse_post h fun _ => rfl).mono ?_ fun _ _ h' => exchange_failed (fun _ _ => trivial) h') ?_
    · rintro v s' ⟨h', -⟩
      apply h'.mono
      rintro _ ⟨σ, hσ, rfl⟩ hv
      simp only [Session.serve, if_pos hv]
      exact ⟨hσ.protocol, hσ.auth, hσ.name, rfl⟩
    · intro v s' h'
      apply Post.ite
      · intro hv
        exact Post.pure (h'.mono fun _ hσ => hσ hv)
      · intro _
        exact Post.throw (.inr ⟨h'.mono fun _ _ => trivial, .inl rfl⟩)
  · rw [selects, if_neg hdb] at h ⊢
    rw [not_not.mp hdb]
    exact h

theorem setInfo_of_mem_infos {r : Request} (hr : r ∈ infos c) : ∃ attr value, r = .SETINFO attr value := by
  obtain ⟨p, -, hp⟩ := List.mem_filterMap.mp hr
  obtain ⟨value, -, rfl⟩ := Option.map_eq_some_iff.mp hp
  exact ⟨p.1, value, rfl⟩

theorem ofConnect_of_mem {r : Request} (hr : r ∈ infos c ++ selects c) : r.ofConnect = true := by
  rcases List.mem_append.mp hr with hr | hr
  · obtain ⟨attr, value, rfl⟩ := setInfo_of_mem_infos hr
    rfl
  · unfold selects at hr
    split at hr
    · rw [List.mem_singleton.mp hr]
      rfl
    · cases hr

/-- What is sent all at once comes to the same. -/
theorem setUpPipelined_post {name : Option String} (h : Holds strict G (Greets c name 0) [] s) :
    Post ((setUpPipelined net c).run s) (fun _ => Holds strict G (Greets c name c.db) [])
      (Failed strict G (fun _ => True) (Expected net c)) := by
  refine Post.bind ((sendEach_post (fun _ hr => ofConnect_of_mem hr) h).mono (fun _ _ h' => h')
    fun _ _ h' => .inl h') fun _ s₁ h₁ => ?_
  refine Post.bind ((readInfos_post (fun _ hr => setInfo_of_mem_infos hr) h₁).mono (fun _ _ h' => h')
    fun _ _ h' => .inl h') fun _ s₂ h₂ => ?_
  exact readSelects_post h₂

/-- A connection that has been opened is greeted, or what went wrong is told. -/
theorem onConnect_post (h : Holds strict G (· = {}) [] s) :
    Post ((onConnect net c).run s) (fun _ => Holds strict G (Greeted c) [])
      (Failed strict G (fun _ => True) (Expected net c)) := by
  cases hauth : c.auth with
  | error e =>
    simp only [onConnect, hauth]
    exact .inr ⟨h.mono fun _ _ => trivial, .inr (.inl hauth)⟩
  | ok args =>
    simp only [onConnect, hauth]
    change Post ((authenticate net c args >>= _).run s) _ _
    refine Post.bind (authenticate_post h hauth) fun _ s₁ h₁ => ?_
    refine Post.bind (setName_post h₁) fun _ s₂ h₂ => ?_
    apply Post.ite
    · intro _
      exact setUpPipelined_post h₂
    · intro _
      exact setUp_post h₂

/-- A connection that is open has been greeted, if sessions have to be as `G` says. -/
def Careful (net : Network) (c : Settings) (G : Session → Prop) : Prop :=
  (net.Maps ∧ c.Sound) ∨ ∀ σ, G σ

theorem openSocket_post (h : Log strict G s) :
    Post ((openSocket net).run s) (fun _ => Holds strict G (· = {}) []) fun _ s' => s' = { s with now := s.now + 1 } := by
  cases hopens : net.opens s.now with
  | some e =>
    have hrun : (openSocket net).run s = .error e { s with now := s.now + 1 } := by
      simp only [openSocket, EStateM.run_bind, tick_run, hopens]
      rfl
    rw [hrun]
    exact rfl
  | none =>
    have hrun : (openSocket net).run s =
        .ok () { s with now := s.now + 1, connected := true, session := {}, owed := [] } := by
      simp only [openSocket, EStateM.run_bind, tick_run, hopens]
      rfl
    rw [hrun]
    exact ⟨h.of_eq rfl rfl, rfl, rfl, rfl⟩

theorem Holds.ready (h : Holds strict G G owed s) : Ready strict G owed s := ⟨owed, h, .inl rfl⟩

/-- A connection of the pool that is connected has been greeted. -/
theorem connect_post (hcareful : Careful net c G) (hG : ∀ σ, Greeted c σ → G σ) (h : Idle strict G s) :
    Post ((connect net c).run s) (fun _ => Ready strict G []) (fun _ => Idle strict G) := by
  apply Post.get_bind
  rcases h with h | ⟨owed, h, hdue⟩
  · rw [if_neg (Bool.eq_false_iff.mp h.connected)]
    apply Post.bind (Q := fun _ => Holds strict G (· = {}) [])
    · refine (openSocket_post h.toLog).mono (fun _ _ h' => h') ?_
      rintro _ _ rfl
      exact .inl ⟨h.toLog.of_eq rfl rfl, h.connected, h.owes⟩
    · intro _ s' h'
      apply Post.tryCatch ((onConnect_post h').mono (fun _ _ h'' => (h''.mono hG).ready) fun _ _ h'' => h'')
      intro e s'' h''
      split
      · exact .inl h''.log.disconnected
      · rcases h'' with h'' | ⟨h'', hexpected⟩
        · exact .inl h''
        · refine .inr (h''.mono fun σ _ => ?_).ready
          rcases hcareful with ⟨hmaps, hsound⟩ | hall
          · rcases hexpected with he | hauth | hnot
            · exact absurd he ‹_›
            · exact absurd (hsound e hauth) ‹_›
            · exact absurd hmaps hnot
          · exact hall σ
  · rw [if_pos h.connected]
    exact ⟨owed, h, hdue⟩

end Handshake

end RedisPy
