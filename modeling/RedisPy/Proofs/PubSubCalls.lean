import RedisPy.Library.Course
import RedisPy.Spec.PubSub

/-! How a command of a `PubSub` is sent, over whatever the reconnecting does. -/

namespace RedisPy

namespace PubSub

open Raising

variable {ν β : Type}

/-- The state after `conn.disconnect()`. -/
def disconnected (s : PubSub ν) : PubSub ν := state (disconnect.run s)

/-- The state with a new socket. -/
def reopened (s : PubSub ν) : PubSub ν := state (opened.run s)

/-- The request is under way, unless the connection is broken. -/
def appended (s : PubSub ν) (r : Request ν) : PubSub ν :=
  if s.alive then { s with requests := s.requests ++ [r] } else s

/-- Nothing stands between the client and the server. -/
def Up (s : PubSub ν) : Prop := s.sock = true ∧ s.alive = true

theorem Up.of_appended {s : PubSub ν} {r : Request ν} (h : Up (appended s r)) : Up s := by
  unfold appended at h
  split at h <;> exact h

theorem appended_registered {s : PubSub ν} {r : Request ν} :
    (appended s r).registered = s.registered := by
  unfold appended
  split <;> rfl

theorem appended_pending {s : PubSub ν} {r : Request ν} :
    (appended s r).pending_unsubscribe = s.pending_unsubscribe := by
  unfold appended
  split <;> rfl

theorem appended_connection {s : PubSub ν} {r : Request ν} :
    (appended s r).connection = s.connection := by
  unfold appended
  split <;> rfl

/-- An operation on a socket ends well, or with the exception that comes next. -/
theorem draw_post {s : PubSub ν} {Q : Unit → PubSub ν → Prop} {E : Exc → PubSub ν → Prop}
    (hok : ∀ os, (∀ o ∈ os, o ∈ s.outcomes) → Q () { s with outcomes := os })
    (herr : ∀ e os, (∀ o ∈ some e :: os, o ∈ s.outcomes) → E e { s with outcomes := os }) :
    Post (draw.run s) Q E := by
  unfold draw
  apply Post.get_bind
  cases hs : s.outcomes with
  | nil =>
    have := hok [] (by simp)
    rw [← hs] at this
    exact this
  | cons o os =>
    cases o with
    | none => exact hok os fun o ho => hs ▸ List.mem_cons_of_mem _ ho
    | some e => exact herr e os fun o ho => hs ▸ ho

/-- What is needed to see a request through: in `P` it is sent, which leads to `Q`; an
exception leaves `E`, which allows for reconnecting; `I` is left when that fails. -/
structure Sends (cfg : PubSubSettings ν) (connect : M ν Unit) (r : Request ν)
    (P Q I : PubSub ν → Prop) (E : Exc → PubSub ν → Prop) : Prop where
  outcomes : ∀ s os, P s → (∀ o ∈ os, o ∈ s.outcomes) → P { s with outcomes := os }
  sent : ∀ s, P s → Q (appended s r)
  lost : ∀ s e os, P s → some e ∈ s.outcomes → E e (disconnected { s with outcomes := os })
  down : ∀ s, P s → s.sock = false → Post (connect.run s) (fun _ => P) E
  up : ∀ s, s.sock = true → connect.run s = .ok () s
  error : ∀ e s, E e s → I s
  disconnected : ∀ e s, E e s → I (disconnected s)
  reconnect : ∀ e s, E e s → cfg.supported_errors e = true → cfg.retry_on_error e = true →
    Post (connect.run (PubSub.disconnected s)) (fun _ s' => P s' ∧ I s') (fun _ => I)

section
variable {cfg : PubSubSettings ν} {connect : M ν Unit} {r : Request ν} {P Q I : PubSub ν → Prop}
  {E : Exc → PubSub ν → Prop}

theorem sendCommand_post (h : Sends cfg connect r P Q I E) (s : PubSub ν) (hs : P s) :
    Post ((sendCommand connect r).run s) (fun _ => Q) E := by
  have hsend : ∀ s, P s → Post ((do
      tryCatch draw (fun e => do
        disconnect
        throw e)
      modify fun s => if s.alive then { s with requests := s.requests ++ [r] } else s :
      M ν Unit).run s) (fun _ => Q) E := by
    intro s hs
    apply Post.bind (Q := fun _ => P)
    · apply Post.tryCatch (F := fun e s' => ∃ os, some e ∈ s.outcomes ∧ s' = { s with outcomes := os })
      · exact draw_post (fun os hos => h.outcomes s os hs hos) fun e os he =>
          ⟨os, he _ List.mem_cons_self, rfl⟩
      · rintro e _ ⟨os, he, rfl⟩
        exact h.lost s e os hs he
    · exact fun _ s' hs' => h.sent s' hs'
  unfold sendCommand
  apply Post.get_bind
  by_cases hsock : s.sock = true
  · simp only [hsock, Bool.not_true]
    exact hsend s hs
  · have hdown : s.sock = false := by simpa using hsock
    simp only [hdown, Bool.not_false]
    apply Post.bind (h.down s hs hdown)
    exact fun _ => hsend

/-- A failed command is tried again on a new connection, if it may be. -/
theorem execute_post {command : M ν β} {Q : β → PubSub ν → Prop}
    (hcommand : ∀ s, P s → Post (command.run s) Q E)
    (herror : ∀ e s, E e s → I s) (hdisconnected : ∀ e s, E e s → I (disconnected s))
    (hreconnect : ∀ e s, E e s → cfg.supported_errors e = true → cfg.retry_on_error e = true →
      Post (connect.run (disconnected s)) (fun _ s' => P s' ∧ I s') (fun _ => I))
    (retries : Nat) (s : PubSub ν) (hs : P s) :
    Post ((_execute cfg connect command retries).run s) Q (fun _ => I) := by
  have hhandle : ∀ (m : M ν β) (e : Exc) (s : PubSub ν), E e s →
      (∀ s, P s ∧ I s → Post (m.run s) Q (fun _ => I)) →
      Post ((do
        if cfg.supported_errors e then
          _disconnectRaiseConnect cfg connect e
          m
        else throw e : M ν β).run s) Q (fun _ => I) := by
    intro m e s he hm
    apply Post.ite
    · intro hsup
      apply Post.bind (Q := fun _ s' => P s' ∧ I s')
      · apply Post.bind (Q := fun _ s' => s' = disconnected s)
        · exact rfl
        · rintro _ _ rfl
          apply Post.ite
          · exact hreconnect e s he hsup
          · exact fun _ => hdisconnected e s he
      · exact fun _ => hm
    · exact fun _ => herror e s he
  induction retries generalizing s with
  | zero =>
    apply Post.tryCatch (hcommand s hs)
    exact fun e s' he => hhandle (throw e) e s' he fun s hs => hs.2
  | succ retries ih =>
    apply Post.tryCatch (hcommand s hs)
    exact fun e s' he => hhandle _ e s' he fun s hs => ih s hs.1

/-- The first command of all gets a connection, without `on_connect`. -/
theorem executeCommand_post {J : PubSub ν → Prop} (h : Sends cfg connect r P Q I E)
    (hJ : ∀ s, I s → J s) (s : PubSub ν) (hs : s.connection = true → P s)
    (hfirst : s.connection = false → ∀ os, (∀ o ∈ os, o ∈ s.outcomes) →
      J { s with outcomes := os } ∧ P { reopened { s with outcomes := os } with connection := true }) :
    Post ((executeCommand cfg connect r).run s) (fun _ => Q) (fun _ => J) := by
  have hexecute : ∀ s, P s →
      Post ((_execute cfg connect (sendCommand connect r) cfg.retries).run s) (fun _ => Q) fun _ => J :=
    fun s hs => (execute_post (sendCommand_post h) h.error h.disconnected h.reconnect cfg.retries s
      hs).mono (fun _ _ h => h) fun _ => hJ
  unfold executeCommand
  apply Post.get_bind
  cases hconn : s.connection with
  | false =>
    simp only [Bool.not_false]
    apply Post.bind (Q := fun _ s' => P { reopened s' with connection := true })
    · exact draw_post (fun os hos => (hfirst hconn os hos).2) fun e os hos =>
        (hfirst hconn os fun o ho => hos o (List.mem_cons_of_mem _ ho)).1
    · exact fun _ s' hs' => hexecute _ hs'
  | true =>
    cases hasyncio : cfg.asyncio with
    | false => exact hexecute s (hs hconn)
    | true =>
      simp only [Bool.not_true]
      apply Post.bind (Q := fun _ => P)
      · by_cases hsock : s.sock = true
        · rw [h.up s hsock]
          exact hs hconn
        · exact (h.down s (hs hconn) (by simpa using hsock)).mono (fun _ _ h => h) fun e s h' =>
            hJ s (h.error e s h')
      · exact fun _ => hexecute

end

end PubSub

end RedisPy
