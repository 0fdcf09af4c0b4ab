import RedisPy.Proofs.PooledCalls
import RedisPy.Spec.SingleConnection

/-! Tasks on one connection read the replies to their own commands, and the lock is never lost. -/

namespace RedisPy

namespace SingleConnection

open Handshake Interleave Raising

variable {net : Network} {c : Handshake.Settings} {client : Client} {strict : Prop} {G : Session → Prop}
  {s s' : Shared} {t t' : Task} {e : Event} {w : World Shared Task}

/-- What a task that has the lock needs of the connection. -/
inductive Need where
  | idle
  | reading (n : Nat)
  | closing

def Need.Met (strict : Prop) (G : Session → Prop) : Need → Wire → Prop
  | .idle => Handshake.Idle strict G
  | .reading n => Ready strict G [.command n]
  | .closing => Log strict G

/-- What a task needs while it has the lock. -/
def Task.held (t : Task) : List Need :=
  match t.phase with
  | .getConnection | .send _ => [.idle]
  | .read _ => [.reading t.n]
  | .fail _ _ => [.closing]
  | _ => []

/-- The lock is free and the connection as it is in a pool, or one task has the lock and the
connection is as it needs it. -/
inductive Fits (strict : Prop) (G : Session → Prop) : Bool → List Need → Wire → Prop
  | free {wire : Wire} : Handshake.Idle strict G wire → Fits strict G false [] wire
  | taken {need : Need} {wire : Wire} : need.Met strict G wire → Fits strict G true [need] wire

theorem Fits.perm {locked : Bool} {needs needs' : List Need} {wire : Wire}
    (h : Fits strict G locked needs wire) (hp : needs.Perm needs') : Fits strict G locked needs' wire := by
  cases h with
  | free h =>
    rw [hp.nil_eq.symm]
    exact .free h
  | taken h =>
    rw [List.perm_singleton.mp hp.symm]
    exact .taken h

theorem Need.Met.log {need : Need} {wire : Wire} (h : need.Met strict G wire) : Log strict G wire := by
  cases need with
  | idle => exact Handshake.Idle.log h
  | reading n => exact Ready.log h
  | closing => exact h

theorem Fits.log {locked : Bool} {needs : List Need} {wire : Wire}
    (h : Fits strict G locked needs wire) : Log strict G wire := by
  cases h with
  | free h => exact h.log
  | taken h => exact h.log

/-- What may become of a task and the connection, with the lock. -/
def Done (strict : Prop) (G : Session → Prop) (r : Shared × Task) : Prop :=
  Fits strict G r.1.locked r.2.held r.1.wire

theorem onWire_done {β : Type} {m : M β} {done : Shared → Shared × Task}
    {raised : Exc → Shared → Shared × Task} {Q : Wire → Prop} {E : Exc → Wire → Prop}
    (hm : Post (m.run s.wire) (fun _ => Q) E)
    (hdone : ∀ wire, Q wire → Done strict G (done { s with wire := wire }))
    (hraised : ∀ e wire, E e wire → Done strict G (raised e { s with wire := wire })) :
    Done strict G (onWire s m done raised) := by
  unfold onWire
  cases hr : m.run s.wire with
  | ok _ wire =>
    rw [hr] at hm
    exact hdone wire hm
  | error e wire =>
    rw [hr] at hm
    exact hraised e wire hm

theorem Done.taken {need : Need} (hs : s.locked = true) (hheld : t.held = [need])
    (hmet : need.Met strict G s.wire) : Done strict G (s, t) := by
  rw [Done, hs, hheld]
  exact .taken hmet

theorem releases_done (h : Handshake.Idle strict G s.wire) : Done strict G (releases t s) := .free h

theorem caught_done {k : Nat} {e : Exc} (hs : s.locked = true) (hlog : Log strict G s.wire)
    (hidle : client.supported_errors e = false → Handshake.Idle strict G s.wire) :
    Done strict G (caught client t k e s) := by
  unfold caught
  split
  · exact Done.taken hs rfl hlog
  · exact releases_done (hidle (Bool.eq_false_iff.mpr ‹_›))

/-- The reply to one command is all that is read. -/
theorem parseOne_post {n : Nat} {wire : Wire} (h : Ready strict G [.command n] wire) :
    Post ((parseResponse net client n).run wire) (fun _ => Handshake.Idle strict G)
      (fun _ => Handshake.Idle strict G) := by
  apply Post.bind (Q := fun _ => Ready strict G [])
  · refine (Ready.read rfl h).mono (fun _ _ h' => h') ?_
    rintro e s' (⟨h', -⟩ | ⟨h', -⟩)
    · exact .inr h'
    · exact .inl h'
  · intro v s' h'
    exact raises_post _ (.inr h') fun _ => .inr h'

/-- A turn of the task that has the lock. -/
theorem resume_done (hcareful : Careful net c G) (hG : ∀ σ, Greeted c σ → G σ)
    (hs : s.locked = true) {need : Need} (hheld : t.held = [need]) (hmet : need.Met strict G s.wire)
    (hr : resume net c client s t e = some (s', t')) : Done strict G (s', t') := by
  have hlawful : Lawful net c plain strict G := ⟨hcareful, hG, fun _ _ _ _ he => by cases he⟩
  have hnot {r : Shared × Task} (h : (none : Option (Shared × Task)) = some r) : Done strict G r := by
    cases h
  obtain ⟨n, phase⟩ := t
  cases phase with
  | starts => cases hheld
  | execute => cases hheld
  | ended => cases hheld
  | getConnection =>
    obtain rfl : Need.idle = need := List.head_eq_of_cons_eq hheld
    cases e with
    | cancel => exact hnot hr
    | goOn =>
      rw [← Option.some.inj hr]
      exact onWire_done (getConnection_post hlawful hmet) (fun wire h => Fits.free (.inr h))
        fun _ wire h => releases_done h
  | send k =>
    obtain rfl : Need.idle = need := List.head_eq_of_cons_eq hheld
    cases e with
    | cancel => exact hnot hr
    | goOn =>
      rw [← Option.some.inj hr]
      exact onWire_done (sendPackedCommand_post hlawful (commands_ofConnect [n]) hmet)
        (fun wire h => Done.taken hs rfl h) fun _ wire h => caught_done hs h.log fun _ => h
  | read k =>
    obtain rfl : Need.reading n = need := List.head_eq_of_cons_eq hheld
    cases e with
    | cancel => exact hnot hr
    | goOn =>
      rw [← Option.some.inj hr]
      exact onWire_done (parseOne_post hmet) (fun wire h => releases_done h)
        fun _ wire h => caught_done hs h.log fun _ => h
  | fail raised k =>
    obtain rfl : Need.closing = need := List.head_eq_of_cons_eq hheld
    cases e with
    | cancel =>
      rw [← Option.some.inj hr]
      exact onWire_done (disconnect_post hmet) (fun wire h => releases_done (.inl h))
        fun _ wire h => releases_done h
    | goOn =>
      rw [← Option.some.inj hr]
      refine onWire_done (disconnectRaise_post hmet) (fun wire h => ?_) fun _ wire h => releases_done h
      cases k with
      | zero => exact releases_done h
      | succ k => exact Done.taken hs rfl h

/-- A turn of a task that has no lock: it takes it if it is free, or leaves all as it is. -/
theorem resume_waiting (hheld : t.held = []) (hr : resume net c client s t e = some (s', t')) :
    (t'.held = [] ∧ s' = s) ∨
      (s.locked = false ∧ s'.locked = true ∧ s'.wire = s.wire ∧ t'.held = [.idle]) := by
  obtain ⟨n, phase⟩ := t
  cases phase with
  | getConnection => cases hheld
  | send k => cases hheld
  | read k => cases hheld
  | fail raised k => cases hheld
  | ended => cases hr
  | starts =>
    simp only [resume] at hr
    split at hr
    · cases hr
      exact .inl ⟨rfl, rfl⟩
    · split at hr
      · cases hr
      · split at hr
        · cases hr
          exact .inl ⟨rfl, rfl⟩
        · cases hr
          exact .inr ⟨Bool.eq_false_iff.mpr ‹_›, rfl, rfl, rfl⟩
  | execute =>
    simp only [resume] at hr
    split at hr
    · cases hr
      exact .inl ⟨rfl, rfl⟩
    · split at hr
      · cases hr
      · cases hr
        exact .inr ⟨Bool.eq_false_iff.mpr ‹_›, rfl, rfl, rfl⟩

theorem held_cases (t : Task) : t.held = [] ∨ ∃ need, t.held = [need] := by
  unfold Task.held
  split <;> first | exact .inl rfl | exact .inr ⟨_, rfl⟩

/-- One task at most has the lock, and the connection is as it needs it. -/
def Inv (strict : Prop) (G : Session → Prop) (w : World Shared Task) : Prop :=
  Fits strict G w.shared.locked (w.holdings Task.held) w.shared.wire

theorem advance_inv (hcareful : Careful net c G) (hG : ∀ σ, Greeted c σ → G σ)
    (w : World Shared Task) (move : Move Nat Event) (h : Inv strict G w) :
    Inv strict G ((program net c client).advance w move) := by
  refine @Program.advance_keeps _ _ _ _ (program net c client) (Inv strict G) (fun _ _ => True) ?_ ?_ w move h
    trivial
  · intro w n h
    rw [Inv, World.holdings_spawn rfl]
    exact h
  · intro w i e t s' t' h _ ht hr
    have hbefore := h.perm (World.holdings_perm ht)
    suffices hafter : Fits strict G s'.locked (t'.held ++ w.others Task.held i) s'.wire from
      hafter.perm (World.holdings_set_perm ht).symm
    rcases held_cases t with hheld | ⟨need, hheld⟩
    · rw [hheld, List.nil_append] at hbefore
      rcases resume_waiting hheld hr with ⟨hheld', rfl⟩ | ⟨hfree, htaken, hwire, hheld'⟩
      · rwa [hheld', List.nil_append]
      · rw [hheld', htaken, hwire]
        rw [hfree] at hbefore
        generalize w.others Task.held i = others at hbefore ⊢
        cases hbefore with
        | free hidle => exact .taken hidle
    · rw [hheld] at hbefore
      obtain ⟨hlocked, hothers, hmet⟩ : w.shared.locked = true ∧ w.others Task.held i = [] ∧
          need.Met strict G w.shared.wire := by
        generalize w.others Task.held i = others at hbefore ⊢
        generalize w.shared.locked = locked at hbefore ⊢
        cases hbefore with
        | taken hmet => exact ⟨rfl, rfl, hmet⟩
      rw [hothers, List.append_nil]
      exact resume_done hcareful hG hlocked hheld hmet hr

theorem run_inv (hcareful : Careful net c G) (hG : ∀ σ, Greeted c σ → G σ) (moves : List (Move Nat Event)) :
    Inv strict G (run net c client moves) := by
  refine Course.foldl_keeps (fun w move => advance_inv hcareful hG w move) (.free (.inl ⟨⟨?_, ?_⟩, rfl, rfl⟩))
  · exact fun _ => List.forall_mem_nil _
  · exact List.forall_mem_nil _

/-- How many turns a task takes at most, from where it is. -/
def Phase.rank (retries : Nat) : Phase → Nat
  | .starts => 3 * retries + 6
  | .getConnection => 3 * retries + 5
  | .execute => 3 * retries + 4
  | .send k => 3 * k + 3
  | .read k => 3 * k + 2
  | .fail _ k => 3 * k + 1
  | .ended => 0

def total (client : Client) (w : World Shared Task) : Nat :=
  (w.tasks.map fun t => t.phase.rank client.retries).sum

theorem onWire_cases {β : Type} {m : M β} {done : Shared → Shared × Task}
    {raised : Exc → Shared → Shared × Task} {P : Shared × Task → Prop} (hdone : ∀ s, P (done s))
    (hraised : ∀ e s, P (raised e s)) : P (onWire s m done raised) := by
  unfold onWire
  split
  · exact hdone _
  · exact hraised ..

/-- Every turn takes a task nearer to its end. -/
theorem resume_rank (hr : resume net c client s t e = some (s', t')) :
    t'.phase.rank client.retries < t.phase.rank client.retries := by
  obtain ⟨n, phase⟩ := t
  have hcaught (k : Nat) (j : Nat) (hj : 3 * k + 1 < j) (raised : Exc) (s : Shared) :
      (caught client ⟨n, phase⟩ k raised s).2.phase.rank client.retries < j := by
    unfold caught
    split
    · exact hj
    · exact Nat.lt_of_le_of_lt (Nat.zero_le _) hj
  have hturn {r : Shared × Task} (h : some r = some (s', t')) {j : Nat}
      (hlt : r.2.phase.rank client.retries < j) : t'.phase.rank client.retries < j := by
    rw [Option.some.inj h] at hlt
    exact hlt
  cases phase with
  | ended => cases hr
  | starts =>
    simp only [resume] at hr
    split at hr
    · exact hturn hr (Nat.succ_pos _)
    · split at hr
      · cases hr
      · split at hr
        · exact hturn hr (Nat.add_lt_add_left (by decide) _)
        · exact hturn hr (Nat.add_lt_add_left (by decide) _)
  | execute =>
    simp only [resume] at hr
    split at hr
    · exact hturn hr (Nat.succ_pos _)
    · split at hr
      · cases hr
      · exact hturn hr (Nat.lt_succ_self _)
  | getConnection =>
    cases e with
    | cancel => cases hr
    | goOn =>
      refine hturn hr (onWire_cases (P := fun r => r.2.phase.rank client.retries < _) ?_ ?_)
      · exact fun _ => Nat.lt_succ_self _
      · exact fun _ _ => Nat.succ_pos _
  | send k =>
    cases e with
    | cancel => cases hr
    | goOn =>
      refine hturn hr (onWire_cases (P := fun r => r.2.phase.rank client.retries < _) ?_ ?_)
      · exact fun _ => Nat.lt_succ_self _
      · exact hcaught k _ (Nat.add_lt_add_left (by decide) _)
  | read k =>
    cases e with
    | cancel => cases hr
    | goOn =>
      refine hturn hr (onWire_cases (P := fun r => r.2.phase.rank client.retries < _) ?_ ?_)
      · exact fun _ => Nat.succ_pos _
      · exact hcaught k _ (Nat.lt_succ_self _)
  | fail raised k =>
    cases e with
    | cancel =>
      refine hturn hr (onWire_cases (P := fun r => r.2.phase.rank client.retries < _) ?_ ?_)
      · exact fun _ => Nat.succ_pos _
      · exact fun _ _ => Nat.succ_pos _
    | goOn =>
      refine hturn hr (onWire_cases (P := fun r => r.2.phase.rank client.retries < _) (fun _ => ?_) ?_)
      · cases k with
        | zero => exact Nat.succ_pos _
        | succ k => exact Nat.lt_succ_self (3 * k + 3)
      · exact fun _ _ => Nat.succ_pos _

/-- The lock keeps a task waiting only while another one has it. -/
theorem resume_goOn (hwait : s.locked = true → t.held ≠ []) (hended : t.phase ≠ .ended) :
    ∃ r, resume net c client s t .goOn = some r := by
  obtain ⟨n, phase⟩ := t
  cases phase with
  | ended => exact absurd rfl hended
  | getConnection => exact ⟨_, rfl⟩
  | send k => exact ⟨_, rfl⟩
  | read k => exact ⟨_, rfl⟩
  | fail raised k => exact ⟨_, rfl⟩
  | starts =>
    have hfree : ¬ s.locked = true := fun h => hwait h rfl
    simp only [resume, reduceCtorEq, if_false, if_neg hfree]
    split
    · exact ⟨_, rfl⟩
    · exact ⟨_, rfl⟩
  | execute =>
    have hfree : ¬ s.locked = true := fun h => hwait h rfl
    simp only [resume, if_neg hfree]
    exact ⟨_, rfl⟩

/-- As long as a task has not ended, one of them can go on. -/
theorem goes_on (h : Inv strict G w) (ht : t ∈ w.tasks) (hended : t.phase ≠ .ended) :
    ∃ (i : Nat) (t : Task) (r : Shared × Task), w.tasks[i]? = some t ∧
      resume net c client w.shared t .goOn = some r := by
  have hreach {u : Task} (hu : u ∈ w.tasks) (hwait : w.shared.locked = true → u.held ≠ [])
      (hended : u.phase ≠ .ended) :
      ∃ (i : Nat) (t : Task) (r : Shared × Task), w.tasks[i]? = some t ∧
        resume net c client w.shared t .goOn = some r := by
    obtain ⟨i, hi⟩ := List.getElem?_of_mem hu
    obtain ⟨r, hr⟩ := resume_goOn hwait hended
    exact ⟨i, u, r, hi, hr⟩
  by_cases hlocked : w.shared.locked = true
  · obtain ⟨need, hneed⟩ : ∃ need, w.holdings Task.held = [need] := by
      rw [Inv, hlocked] at h
      generalize w.holdings Task.held = needs at h
      cases h with
      | taken => exact ⟨_, rfl⟩
    obtain ⟨u, hu, hheld⟩ := List.mem_flatMap.mp
      (show need ∈ w.holdings Task.held by rw [hneed]; exact List.mem_singleton_self _)
    refine hreach hu (fun _ hnil => ?_) fun hphase => ?_
    · rw [hnil] at hheld
      exact absurd hheld List.not_mem_nil
    · rw [Task.held, hphase] at hheld
      exact absurd hheld List.not_mem_nil
  · exact hreach ht (fun h => absurd h hlocked) hended

theorem sum_set_lt {f : Task → Nat} {tasks : List Task} {i : Nat} (ht : tasks[i]? = some t)
    (hlt : f t' < f t) : ((tasks.set i t').map f).sum < (tasks.map f).sum := by
  induction tasks generalizing i with
  | nil => cases ht
  | cons u us ih =>
    cases i with
    | zero =>
      cases ht
      exact Nat.add_lt_add_right hlt _
    | succ i => exact Nat.add_lt_add_left (ih ht) _

/-- The lock is never lost: after every run, wherever tasks have been cancelled and whatever has
failed, all of them come to an end if they go on, one after another. -/
theorem tasks_come_to_an_end (net : Network) (c : Handshake.Settings) (client : Client)
    (moves : List (Move Nat Event)) :
    ∃ turns : List Nat, ∀ t ∈ (run net c client (moves ++ turns.map (Move.resume · .goOn))).tasks,
      t.phase = .ended := by
  generalize hmeasure : total client (run net c client moves) = measure
  induction measure using Nat.strong_induction_on generalizing moves with
  | _ measure ih =>
    by_cases hall : ∀ t ∈ (run net c client moves).tasks, t.phase = .ended
    · refine ⟨[], ?_⟩
      rw [List.map_nil, List.append_nil]
      exact hall
    · push Not at hall
      obtain ⟨t, ht, hended⟩ := hall
      have hinv : Inv True (fun _ => True) (run net c client moves) :=
        run_inv (.inr fun _ => trivial) (fun _ _ => trivial) moves
      obtain ⟨i, u, ⟨s', u'⟩, hu, hr⟩ := goes_on hinv ht hended
      have hnext : run net c client (moves ++ [.resume i .goOn]) =
          { shared := s', tasks := (run net c client moves).tasks.set i u' } := by
        rw [run, List.foldl_append]
        exact Program.advance_resume hu hr
      have hlt : total client (run net c client (moves ++ [.resume i .goOn])) < measure := by
        rw [hnext, ← hmeasure]
        exact sum_set_lt hu (resume_rank hr)
      obtain ⟨turns, hturns⟩ := ih _ hlt (moves ++ [.resume i .goOn]) rfl
      refine ⟨i :: turns, ?_⟩
      rw [List.map_cons, List.append_cons]
      exact hturns

end SingleConnection

end RedisPy
