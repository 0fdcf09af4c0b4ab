import Mathlib.Data.List.Induction
import Mathlib.Data.List.Nodup
import RedisPy.Library.Course
import RedisPy.Spec.Lock

/-! Locks on one key exclude each other, whatever turns their calls and the clock of the
server take, if no token is made twice. -/

namespace RedisPy.Locks

open Interleave Exclusion Course

variable {locks : Nat → Lock} {s s' : State} {t t' : Task} {e : Event} {i n : Nat} {token : Token}
  {w : World State Task} {moves : List (Move Job Event)}

/-! ### What the server does -/

/-- A `SET` that succeeds finds no key; one that does not leaves the server as it is. -/
theorem Server.set_cases (s : Server) (token : Token) (px : Option Int) (by_ : Nat) :
    (s.key = none ∧ ∃ t, s.set token px by_ = (.ok true, { s with key := some ⟨token, t, by_⟩ })) ∨
      ∃ r, r ≠ .ok true ∧ s.set token px by_ = (r, s) := by
  unfold Server.set
  cases px with
  | none =>
    cases hkey : s.key with
    | none => exact .inl ⟨rfl, none, rfl⟩
    | some key => exact .inr ⟨.ok false, by simp, rfl⟩
  | some px =>
    by_cases hpx : px ≤ 0
    · exact .inr ⟨.error _, by simp, by simp only [if_pos hpx]; rfl⟩
    · cases hkey : s.key with
      | none => exact .inl ⟨rfl, some (s.now + px), by simp [hpx]⟩
      | some key => exact .inr ⟨.ok false, by simp, by simp [hpx]⟩

/-- A script changes nothing and returns 0, or it acts on the key, which has the token, and
leaves it to its owner. -/
def Acts (s : Server) (token : Token) (r : Int × Server) : Prop :=
  r = (0, s) ∨ ∃ key, s.key = some key ∧ key.token = token ∧ ∃ key', r = (1, { s with key := key' }) ∧
    ∀ k, key' = some k → k.token = key.token ∧ k.setBy = key.setBy

theorem pexpire_acts {s : Server} {key : Key} (hkey : s.key = some key) (ttl : Int) :
    Acts s key.token (1, s.pexpire key ttl) := by
  refine .inr ⟨key, hkey, rfl, _, rfl, fun k hk => ?_⟩
  split_ifs at hk
  obtain rfl := Option.some.inj hk
  exact ⟨rfl, rfl⟩

theorem luaRelease_acts (s : Server) (token : Token) : Acts s token (s.luaRelease token) := by
  unfold Server.luaRelease
  cases hkey : s.key with
  | none => exact .inl rfl
  | some key =>
    by_cases htoken : key.token = token
    · simp only [htoken, ne_eq, not_true, if_false]
      exact .inr ⟨key, hkey, htoken, none, rfl, fun k hk => nomatch hk⟩
    · exact .inl (if_pos htoken)

theorem luaExtend_acts (s : Server) (token : Token) (additional_time : Int) (replace_ttl : Bool) :
    Acts s token (s.luaExtend token additional_time replace_ttl) := by
  unfold Server.luaExtend
  cases hkey : s.key with
  | none => exact .inl rfl
  | some key =>
    by_cases htoken : key.token = token
    · by_cases hpttl : s.pttl key < 0
      · exact .inl (by simp only [htoken, ne_eq, not_true, if_false, if_pos hpttl])
      · simp only [htoken, ne_eq, not_true, if_false, if_neg hpttl]
        exact htoken ▸ pexpire_acts hkey _
    · exact .inl (if_pos htoken)

theorem luaReacquire_acts (s : Server) (token : Token) (timeout : Int) :
    Acts s token (s.luaReacquire token timeout) := by
  unfold Server.luaReacquire
  cases hkey : s.key with
  | none => exact .inl rfl
  | some key =>
    by_cases htoken : key.token = token
    · simp only [htoken, ne_eq, not_true, if_false]
      exact htoken ▸ pexpire_acts hkey timeout
    · exact .inl (if_pos htoken)

/-- A script changes nothing and the call raises, or it acts on the key with its token. -/
theorem runScript_cases (s : State) (token : Token) (script : Script) :
    (∃ msg, runScript s token script = (.error { cls := .LockNotOwnedError, msg := msg }, s)) ∨
      ∃ key, s.server.key = some key ∧ key.token = token ∧ ∃ key', runScript s token script =
        (.ok true, { s with server := { s.server with key := key' } }) ∧
          ∀ k, key' = some k → k.token = key.token ∧ k.setBy = key.setBy := by
  have hlua : ∃ r msg, Acts s.server token r ∧
      runScript s token script = (bool r.1 msg, { s with server := r.2 }) := by
    cases script with
    | release => exact ⟨_, _, luaRelease_acts s.server token, rfl⟩
    | extend additional_time replace_ttl =>
      exact ⟨_, _, luaExtend_acts s.server token additional_time replace_ttl, rfl⟩
    | reacquire timeout => exact ⟨_, _, luaReacquire_acts s.server token timeout, rfl⟩
  obtain ⟨r, msg, hacts, hrun⟩ := hlua
  rcases hacts with rfl | ⟨key, hkey, htoken, key', rfl, hsame⟩
  · exact .inl ⟨msg, hrun⟩
  · exact .inr ⟨key, hkey, htoken, key', hrun, hsame⟩

/-! ### What a turn does -/

/-- The tokens a task has, with the lock they were made for. -/
def Task.tokens : Task → List (Token × Nat)
  | .setting i attempt => [(attempt.token, i)]
  | .answered i attempt _ => [(attempt.token, i)]
  | .releasing i token => [(token, i)]
  | .scripting i _ token => [(token, i)]
  | _ => []

theorem tokenless (h : t.tokens = []) {p : Token × Nat → Prop} : ∀ x ∈ t.tokens, p x := by
  simp [h]

/-- Every token that is about was made, once and for one lock. -/
structure Issued (s : State) : Prop where
  once : (s.issued.map Prod.fst).Nodup
  cells : ∀ i token, s.token i = some (some token) → (token, i) ∈ s.issued
  key : ∀ key, s.server.key = some key → (key.token, key.setBy) ∈ s.issued

theorem Issued.server (h : Issued s) {server : Server}
    (hkey : ∀ key, server.key = some key → (key.token, key.setBy) ∈ s.issued) :
    Issued { s with server := server } :=
  ⟨h.once, h.cells, hkey⟩

theorem Issued.setToken (h : Issued s) {token : Option Token}
    (htoken : ∀ x, token = some x → (x, i) ∈ s.issued) : Issued (s.setToken i token) := by
  refine ⟨h.once, fun j x hx => ?_, h.key⟩
  simp only [State.setToken] at hx
  split_ifs at hx with hj
  · exact hj ▸ htoken x (Option.some.inj hx)
  · exact h.cells j x hx

theorem Issued.withToken (h : Issued s) (i : Nat) (script : Script) :
    ∀ x ∈ (withToken s i script).tokens, x ∈ s.issued := by
  unfold Locks.withToken
  cases htoken : s.token i with
  | none => exact tokenless rfl
  | some token =>
    cases token with
    | none => exact tokenless rfl
    | some token => exact fun x hx => List.mem_singleton.mp hx ▸ h.cells i token htoken

/-- A token belongs to one lock. -/
theorem Issued.owner (h : Issued s) {j : Nat} (hi : (token, i) ∈ s.issued) (hj : (token, j) ∈ s.issued) :
    i = j :=
  congrArg Prod.snd (List.inj_on_of_nodup_map h.once hi hj rfl)

/-- No token is made twice. -/
def Fresh (s : State) : Event → Prop
  | .begins _ token => token ∉ s.issued.map Prod.fst
  | _ => True

/-- A turn keeps track of the tokens. -/
theorem resume_issued (hr : resume locks s t e = some (s', t')) (hs : Issued s)
    (ht : ∀ x ∈ t.tokens, x ∈ s.issued) (he : Fresh s e) :
    Issued s' ∧ (∀ x ∈ t'.tokens, x ∈ s'.issued) ∧ ∀ x ∈ s.issued, x ∈ s'.issued := by
  unfold resume at hr
  split at hr
  · case h_1 i sleep blocking blocking_timeout monotonic token =>
    obtain ⟨rfl, rfl⟩ := Prod.mk.inj (Option.some.inj hr)
    have hmore : ∀ x ∈ s.issued, x ∈ s.issued ++ [(token, i)] := fun x => List.mem_append_left _
    refine ⟨⟨?_, fun j x hx => hmore _ (hs.cells j x hx), fun k hk => hmore _ (hs.key k hk)⟩, ?_, hmore⟩
    · rw [List.map_append, List.nodup_append]
      refine ⟨hs.once, List.nodup_singleton _, ?_⟩
      rintro a ha b hb rfl
      rw [List.map_singleton, List.mem_singleton] at hb
      rw [hb] at ha
      exact he ha
    · intro x hx
      rw [List.mem_singleton.mp hx]
      exact List.mem_append_right _ (List.mem_singleton.mpr rfl)
  · case h_2 i attempt monotonic =>
    have hattempt : (attempt.token, i) ∈ s.issued := ht _ (List.mem_singleton.mpr rfl)
    dsimp only at hr
    rcases Server.set_cases s.server attempt.token
        ((locks i).timeout.bind fun t => if t = 0 then none else some (milliseconds t)) i with
      ⟨-, t₀, hset⟩ | ⟨r, -, hset⟩
    · rw [hset] at hr
      obtain ⟨rfl, rfl⟩ := Prod.mk.inj (Option.some.inj hr)
      refine ⟨hs.server (fun k hk => ?_), fun x hx => List.mem_singleton.mp hx ▸ hattempt, fun _ => id⟩
      obtain rfl := Option.some.inj hk
      exact hattempt
    · rw [hset] at hr
      cases r with
      | ok r =>
        obtain ⟨rfl, rfl⟩ := Prod.mk.inj (Option.some.inj hr)
        exact ⟨hs, fun x hx => List.mem_singleton.mp hx ▸ hattempt, fun _ => id⟩
      | error e =>
        obtain ⟨rfl, rfl⟩ := Prod.mk.inj (Option.some.inj hr)
        exact ⟨hs, tokenless rfl, fun _ => id⟩
  · case h_3 i attempt monotonic =>
    obtain ⟨rfl, rfl⟩ := Prod.mk.inj (Option.some.inj hr)
    refine ⟨hs.setToken (fun x hx => ?_), tokenless rfl, fun _ => id⟩
    obtain rfl := Option.some.inj hx
    exact ht _ (List.mem_singleton.mpr rfl)
  · case h_4 i attempt monotonic =>
    split_ifs at hr
    · obtain ⟨rfl, rfl⟩ := Prod.mk.inj (Option.some.inj hr)
      exact ⟨hs, tokenless rfl, fun _ => id⟩
    · obtain ⟨rfl, rfl⟩ := Prod.mk.inj (Option.some.inj hr)
      exact ⟨hs, ht, fun _ => id⟩
  · case h_5 i monotonic =>
    split at hr
    · obtain ⟨rfl, rfl⟩ := Prod.mk.inj (Option.some.inj hr)
      exact ⟨hs, tokenless rfl, fun _ => id⟩
    · obtain ⟨rfl, rfl⟩ := Prod.mk.inj (Option.some.inj hr)
      exact ⟨hs, tokenless rfl, fun _ => id⟩
    · case h_3 token htoken =>
      obtain ⟨rfl, rfl⟩ := Prod.mk.inj (Option.some.inj hr)
      exact ⟨hs, fun x hx => List.mem_singleton.mp hx ▸ hs.cells i token htoken, fun _ => id⟩
  · case h_6 i expected_token monotonic =>
    obtain ⟨rfl, rfl⟩ := Prod.mk.inj (Option.some.inj hr)
    exact ⟨hs.setToken (fun x hx => nomatch hx), ht, fun _ => id⟩
  · split at hr <;>
    · obtain ⟨rfl, rfl⟩ := Prod.mk.inj (Option.some.inj hr)
      exact ⟨hs, tokenless rfl, fun _ => id⟩
  · obtain ⟨rfl, rfl⟩ := Prod.mk.inj (Option.some.inj hr)
    exact ⟨hs, hs.withToken _ _, fun _ => id⟩
  · split at hr <;>
    · obtain ⟨rfl, rfl⟩ := Prod.mk.inj (Option.some.inj hr)
      exact ⟨hs, tokenless rfl, fun _ => id⟩
  · obtain ⟨rfl, rfl⟩ := Prod.mk.inj (Option.some.inj hr)
    exact ⟨hs, hs.withToken _ _, fun _ => id⟩
  · case h_11 i script token monotonic =>
    rcases runScript_cases s token script with ⟨msg, hrun⟩ | ⟨key, hkey, -, key', hrun, hsame⟩
    · simp only [hrun] at hr
      obtain ⟨rfl, rfl⟩ := Prod.mk.inj (Option.some.inj hr)
      exact ⟨hs, tokenless rfl, fun _ => id⟩
    · simp only [hrun] at hr
      obtain ⟨rfl, rfl⟩ := Prod.mk.inj (Option.some.inj hr)
      refine ⟨hs.server (fun k hk => ?_), tokenless rfl, fun _ => id⟩
      obtain ⟨htoken, hby⟩ := hsame k hk
      rw [htoken, hby]
      exact hs.key key hkey
  · obtain ⟨rfl, rfl⟩ := Prod.mk.inj (Option.some.inj hr)
    exact ⟨hs, tokenless rfl, fun _ => id⟩
  · obtain ⟨rfl, rfl⟩ := Prod.mk.inj (Option.some.inj hr)
    exact ⟨hs, tokenless rfl, fun _ => id⟩
  · split at hr <;>
    · obtain ⟨rfl, rfl⟩ := Prod.mk.inj (Option.some.inj hr)
      exact ⟨hs, tokenless rfl, fun _ => id⟩
  · split at hr <;>
    · obtain ⟨rfl, rfl⟩ := Prod.mk.inj (Option.some.inj hr)
      exact ⟨hs, tokenless rfl, fun _ => id⟩
  · case h_16 ms =>
    obtain ⟨rfl, rfl⟩ := Prod.mk.inj (Option.some.inj hr)
    refine ⟨hs.server (fun k hk => ?_), tokenless rfl, fun _ => id⟩
    exact hs.key k (Option.filter_eq_some_iff.mp hk).1
  · obtain ⟨rfl, rfl⟩ := Prod.mk.inj (Option.some.inj hr)
    exact ⟨hs.server (fun k hk => nomatch hk), tokenless rfl, fun _ => id⟩
  · cases hr

/-- The lock that has the key -/
def holder (s : State) : Option Nat := s.server.key.map (·.setBy)

/-- The task takes its next turn at the server. -/
def Task.AtServer : Task → Prop
  | .setting _ _ => True
  | .scripting _ _ _ => True
  | .clock => True
  | _ => False

theorem resume_quiet (hr : resume locks s t e = some (s', t')) (hq : ¬ t.AtServer) :
    s'.server = s.server := by
  unfold resume at hr
  split at hr
  all_goals first
    | exact absurd trivial hq
    | exact absurd hr.symm (Option.some_ne_none _)
    | (cases hr; rfl)
    | (split at hr <;> (cases hr; rfl))

theorem deed_of_key_eq (h : s'.server.key = s.server.key) : deed s t s' = none := by
  unfold deed
  rw [h]
  split
  · case h_1 hnone hsome => rw [hnone] at hsome; cases hsome
  · case h_2 hsome hnone => rw [hsome] at hnone; cases hnone
  · case h_3 hsome hnone => rw [hsome] at hnone; cases hnone
  · rfl

/-- The operation of the lock `i` goes on. -/
def Task.GoesOn (i : Nat) : Task → Prop
  | .releasing j _ => j = i
  | .extending j _ _ => j = i
  | .reacquiring j _ => j = i
  | _ => False

/-- What a turn leaves alone: an operation raises `LockError`, or goes to the server, where
it raises `LockNotOwnedError` and changes nothing unless its lock has the key; `owned` answers. -/
def Guarded (s : State) (t : Task) (s' : State) (t' : Task) : Prop :=
  match t with
  | .scripting i _ token =>
    (s'.server = s.server ∧ ∃ msg, t' = .returned i (.error { cls := .LockNotOwnedError, msg := msg })) ∨
      ∃ key, s.server.key = some key ∧ key.token = token ∧ key.setBy = i
  | .setting i attempt =>
    s.server.key = none ∨ (s'.server = s.server ∧ t' ≠ .answered i attempt true)
  | .called i (.acquire _ _ _) => s'.server = s.server ∧ ∃ attempt, t' = .setting i attempt
  | .called i .owned => s'.server = s.server ∧ t' = .getting i
  | .called i _ => s'.server = s.server ∧ ((∃ msg, t' = lockError i msg) ∨ t'.GoesOn i)
  | .releasing i token => s'.server = s.server ∧ t' = .scripting i .release token
  | .extending i additional_time replace_ttl =>
    s'.server = s.server ∧ ∃ token, t' = .scripting i (.extend additional_time replace_ttl) token
  | .reacquiring i timeout => s'.server = s.server ∧ ∃ token, t' = .scripting i (.reacquire timeout) token
  | .got i stored_token =>
    s'.server = s.server ∧ ((∃ r, t' = .returned i (.ok r)) ∨ t' = .comparing i stored_token)
  | .comparing i _ => s'.server = s.server ∧ ∃ r, t' = .returned i (.ok r)
  | .clock => True
  | _ => s'.server = s.server

/-- A turn that looks at `self.local.token` finds the attribute, and one that takes the token from
there for a script finds a token. -/
def Tokened (s : State) : Task → Prop
  | .called i .release => (s.token i).isSome = true
  | .called i (.extend _ _) => (s.token i).isSome = true
  | .called i .reacquire => (s.token i).isSome = true
  | .extending i _ _ => ∃ token, s.token i = some (some token)
  | .reacquiring i _ => ∃ token, s.token i = some (some token)
  | .got i _ => (s.token i).isSome = true
  | .comparing i _ => (s.token i).isSome = true
  | _ => True

/-- What is raised without the attribute is no `LockError`. -/
theorem not_guarded_noToken {call : Call} (hacquire : ∀ a b c, call ≠ .acquire a b c)
    (howned : call ≠ .owned) : ¬ Guarded s (.called i call) s (noToken i) := by
  cases call with
  | acquire a b c => exact absurd rfl (hacquire a b c)
  | owned => exact absurd rfl howned
  | _ =>
    rintro ⟨-, ⟨msg, hmsg⟩ | hgoes⟩
    · simp [noToken, lockError] at hmsg
    · exact hgoes.elim

theorem withToken_guarded (s : State) (i : Nat) (script : Script) :
    (∃ token, withToken s i script = .scripting i script token) ↔ ∃ token, s.token i = some (some token) := by
  unfold withToken
  cases s.token i with
  | none => simp [noToken]
  | some token => cases token <;> simp

theorem resume_called {call : Call} (hr : resume locks s (.called i call) e = some (s', t')) :
    Guarded s (.called i call) s' t' ↔ Tokened s (.called i call) := by
  have hquiet := resume_quiet hr id
  cases call with
  | acquire sleep blocking blocking_timeout =>
    cases e with
    | begins monotonic token =>
      obtain ⟨rfl, rfl⟩ := Prod.mk.inj (Option.some.inj hr)
      exact iff_of_true ⟨rfl, _, rfl⟩ trivial
    | _ => cases hr
  | owned =>
    cases e with
    | turn monotonic =>
      obtain ⟨rfl, rfl⟩ := Prod.mk.inj (Option.some.inj hr)
      exact iff_of_true ⟨rfl, rfl⟩ trivial
    | _ => cases hr
  | release =>
    cases e with
    | turn monotonic =>
      simp only [resume] at hr
      split at hr
      · case h_1 htoken =>
        obtain ⟨rfl, rfl⟩ := Prod.mk.inj (Option.some.inj hr)
        exact iff_of_false (not_guarded_noToken (by simp) (by simp)) (by simp [Tokened, htoken])
      · case h_2 htoken =>
        obtain ⟨rfl, rfl⟩ := Prod.mk.inj (Option.some.inj hr)
        exact iff_of_true ⟨hquiet, .inl ⟨_, rfl⟩⟩ (by simp [Tokened, htoken])
      · case h_3 token htoken =>
        obtain ⟨rfl, rfl⟩ := Prod.mk.inj (Option.some.inj hr)
        exact iff_of_true ⟨hquiet, .inr rfl⟩ (by simp [Tokened, htoken])
    | _ => cases hr
  | extend additional_time replace_ttl =>
    cases e with
    | turn monotonic =>
      simp only [resume] at hr
      split at hr
      · case h_1 htoken =>
        obtain ⟨rfl, rfl⟩ := Prod.mk.inj (Option.some.inj hr)
        exact iff_of_false (not_guarded_noToken (by simp) (by simp)) (by simp [Tokened, htoken])
      · case h_2 htoken =>
        obtain ⟨rfl, rfl⟩ := Prod.mk.inj (Option.some.inj hr)
        exact iff_of_true ⟨hquiet, .inl ⟨_, rfl⟩⟩ (by simp [Tokened, htoken])
      · case h_3 token htoken htimeout =>
        obtain ⟨rfl, rfl⟩ := Prod.mk.inj (Option.some.inj hr)
        exact iff_of_true ⟨hquiet, .inl ⟨_, rfl⟩⟩ (by simp [Tokened, htoken])
      · case h_4 token timeout htoken htimeout =>
        obtain ⟨rfl, rfl⟩ := Prod.mk.inj (Option.some.inj hr)
        exact iff_of_true ⟨hquiet, .inr rfl⟩ (by simp [Tokened, htoken])
    | _ => cases hr
  | reacquire =>
    cases e with
    | turn monotonic =>
      simp only [resume] at hr
      split at hr
      · case h_1 htoken =>
        obtain ⟨rfl, rfl⟩ := Prod.mk.inj (Option.some.inj hr)
        exact iff_of_false (not_guarded_noToken (by simp) (by simp)) (by simp [Tokened, htoken])
      · case h_2 htoken =>
        obtain ⟨rfl, rfl⟩ := Prod.mk.inj (Option.some.inj hr)
        exact iff_of_true ⟨hquiet, .inl ⟨_, rfl⟩⟩ (by simp [Tokened, htoken])
      · case h_3 token htoken htimeout =>
        obtain ⟨rfl, rfl⟩ := Prod.mk.inj (Option.some.inj hr)
        exact iff_of_true ⟨hquiet, .inl ⟨_, rfl⟩⟩ (by simp [Tokened, htoken])
      · case h_4 token timeout htoken htimeout =>
        obtain ⟨rfl, rfl⟩ := Prod.mk.inj (Option.some.inj hr)
        exact iff_of_true ⟨hquiet, .inr rfl⟩ (by simp [Tokened, htoken])
    | _ => cases hr

theorem resume_got {stored_token : Option Token}
    (hr : resume locks s (.got i stored_token) e = some (s', t')) :
    Guarded s (.got i stored_token) s' t' ↔ Tokened s (.got i stored_token) := by
  cases e with
  | turn monotonic =>
    simp only [resume] at hr
    split at hr
    · case h_1 htoken =>
      obtain ⟨rfl, rfl⟩ := Prod.mk.inj (Option.some.inj hr)
      refine iff_of_false ?_ (by simp [Tokened, htoken])
      rintro ⟨-, ⟨r, hr⟩ | hcomparing⟩
      · simp [noToken] at hr
      · cases hcomparing
    · case h_2 htoken =>
      obtain ⟨rfl, rfl⟩ := Prod.mk.inj (Option.some.inj hr)
      exact iff_of_true ⟨rfl, .inl ⟨_, rfl⟩⟩ (by simp [Tokened, htoken])
    · case h_3 token htoken =>
      obtain ⟨rfl, rfl⟩ := Prod.mk.inj (Option.some.inj hr)
      exact iff_of_true ⟨rfl, .inr rfl⟩ (by simp [Tokened, htoken])
  | _ => cases hr

theorem resume_comparing {stored_token : Option Token}
    (hr : resume locks s (.comparing i stored_token) e = some (s', t')) :
    Guarded s (.comparing i stored_token) s' t' ↔ Tokened s (.comparing i stored_token) := by
  cases e with
  | turn monotonic =>
    simp only [resume] at hr
    split at hr
    · case h_1 htoken =>
      obtain ⟨rfl, rfl⟩ := Prod.mk.inj (Option.some.inj hr)
      refine iff_of_false ?_ (by simp [Tokened, htoken])
      rintro ⟨-, r, hr⟩
      simp [noToken] at hr
    · case h_2 token htoken =>
      obtain ⟨rfl, rfl⟩ := Prod.mk.inj (Option.some.inj hr)
      exact iff_of_true ⟨rfl, _, rfl⟩ (by simp [Tokened, htoken])
  | _ => cases hr

theorem resume_extending {additional_time : Int} {replace_ttl : Bool}
    (hr : resume locks s (.extending i additional_time replace_ttl) e = some (s', t')) :
    Guarded s (.extending i additional_time replace_ttl) s' t' ↔
      Tokened s (.extending i additional_time replace_ttl) := by
  cases e with
  | turn monotonic =>
    obtain ⟨rfl, rfl⟩ := Prod.mk.inj (Option.some.inj hr)
    exact (and_iff_right rfl).trans (withToken_guarded s i _)
  | _ => cases hr

theorem resume_reacquiring {timeout : Int}
    (hr : resume locks s (.reacquiring i timeout) e = some (s', t')) :
    Guarded s (.reacquiring i timeout) s' t' ↔ Tokened s (.reacquiring i timeout) := by
  cases e with
  | turn monotonic =>
    obtain ⟨rfl, rfl⟩ := Prod.mk.inj (Option.some.inj hr)
    exact (and_iff_right rfl).trans (withToken_guarded s i _)
  | _ => cases hr

theorem withToken_raises (script : Script) (h : ¬ ∃ token, s.token i = some (some token)) :
    ∃ e, withToken s i script = .returned i (.error e) := by
  unfold withToken
  split
  · exact ⟨_, rfl⟩
  · exact ⟨_, rfl⟩
  · case h_3 token htoken => exact absurd ⟨token, htoken⟩ h

/-- A turn that does not find what it looks at raises. -/
theorem resume_of_not_tokened (monotonic : Rat) (h : ¬ Tokened s t) :
    ∃ i e, resume locks s t (.turn monotonic) = some (s, .returned i (.error e)) := by
  cases t with
  | called i call =>
    cases call with
    | acquire sleep blocking blocking_timeout => exact absurd trivial h
    | owned => exact absurd trivial h
    | _ =>
      have hnone : s.token i = none := by simpa [Tokened] using h
      exact ⟨i, _, show _ = some (s, noToken i) by simp [resume, hnone]⟩
  | extending i additional_time replace_ttl =>
    obtain ⟨e, he⟩ := withToken_raises (.extend additional_time replace_ttl) h
    exact ⟨i, e, by simp only [resume, he]⟩
  | reacquiring i timeout =>
    obtain ⟨e, he⟩ := withToken_raises (.reacquire timeout) h
    exact ⟨i, e, by simp only [resume, he]⟩
  | got i stored_token =>
    have hnone : s.token i = none := by simpa [Tokened] using h
    exact ⟨i, _, show _ = some (s, noToken i) by simp [resume, hnone]⟩
  | comparing i stored_token =>
    have hnone : s.token i = none := by simpa [Tokened] using h
    exact ⟨i, _, show _ = some (s, noToken i) by simp [resume, hnone]⟩
  | _ => exact absurd trivial h

/-- A turn that looks at the attribute is taken with any clock, and only with that. -/
theorem tokened_of_no_turn (hr : resume locks s t e = some (s', t')) (he : ∀ monotonic, e ≠ .turn monotonic) :
    Tokened s t := by
  cases t with
  | called i call =>
    cases call with
    | acquire sleep blocking blocking_timeout => trivial
    | owned => trivial
    | _ =>
      cases e with
      | turn monotonic => exact absurd rfl (he monotonic)
      | _ => cases hr
  | setting i attempt => trivial
  | answered i attempt r => trivial
  | acquired i r => trivial
  | releasing i token => trivial
  | scripting i script token => trivial
  | getting i => trivial
  | returned i r => trivial
  | clock => trivial
  | _ =>
    cases e with
    | turn monotonic => exact absurd rfl (he monotonic)
    | _ => cases hr

/-- The `SET` of an attempt: it gets the key, or changes nothing. -/
theorem resume_setting {attempt : Attempt} (hr : resume locks s (.setting i attempt) e = some (s', t')) :
    (s.server.key = none ∧ t' = .answered i attempt true ∧
        ∃ k, s'.server.key = some k ∧ k.token = attempt.token ∧ k.setBy = i) ∨
      (s'.server = s.server ∧ (t' = .answered i attempt false ∨ ∃ e, t' = .acquired i (.error e))) := by
  cases e with
  | turn monotonic =>
    simp only [resume] at hr
    rcases Server.set_cases s.server attempt.token
        ((locks i).timeout.bind fun t => if t = 0 then none else some (milliseconds t)) i with
      ⟨hkey, t₀, hset⟩ | ⟨r, hne, hset⟩
    · rw [hset] at hr
      obtain ⟨rfl, rfl⟩ := Prod.mk.inj (Option.some.inj hr)
      exact .inl ⟨hkey, rfl, _, rfl, rfl, rfl⟩
    · rw [hset] at hr
      cases r with
      | ok r =>
        obtain ⟨rfl, rfl⟩ := Prod.mk.inj (Option.some.inj hr)
        cases r with
        | false => exact .inr ⟨rfl, .inl rfl⟩
        | true => exact absurd rfl hne
      | error e =>
        obtain ⟨rfl, rfl⟩ := Prod.mk.inj (Option.some.inj hr)
        exact .inr ⟨rfl, .inr ⟨e, rfl⟩⟩
  | _ => cases hr

theorem resume_scripting {script : Script} (hr : resume locks s (.scripting i script token) e = some (s', t'))
    (hs : Issued s) (ht : (token, i) ∈ s.issued) :
    (s'.server = s.server ∧ ∃ msg, t' = .returned i (.error { cls := .LockNotOwnedError, msg := msg })) ∨
      ∃ key, s.server.key = some key ∧ key.token = token ∧ key.setBy = i ∧
        ∀ k, s'.server.key = some k → k.setBy = i := by
  cases e with
  | turn monotonic =>
    simp only [resume] at hr
    rcases runScript_cases s token script with ⟨msg, hrun⟩ | ⟨key, hkey, htoken, key', hrun, hsame⟩
    · simp only [hrun] at hr
      obtain ⟨rfl, rfl⟩ := Prod.mk.inj (Option.some.inj hr)
      exact .inl ⟨rfl, msg, rfl⟩
    · simp only [hrun] at hr
      obtain ⟨rfl, rfl⟩ := Prod.mk.inj (Option.some.inj hr)
      have hkeyed : (token, key.setBy) ∈ s.issued := htoken ▸ hs.key key hkey
      have hby : key.setBy = i := hs.owner hkeyed ht
      exact .inr ⟨key, hkey, htoken, hby, fun k hk => (hsame k hk).2.trans hby⟩
  | _ => cases hr

theorem resume_clock (hr : resume locks s .clock e = some (s', t')) :
    s'.server.key = s.server.key ∨ s'.server.key = none := by
  cases e with
  | passes ms =>
    obtain ⟨rfl, rfl⟩ := Prod.mk.inj (Option.some.inj hr)
    cases hkey : s.server.key with
    | none => exact .inl rfl
    | some key =>
      simp only [Option.filter_some]
      split_ifs
      · exact .inl rfl
      · exact .inr rfl
  | expires =>
    obtain ⟨rfl, rfl⟩ := Prod.mk.inj (Option.some.inj hr)
    exact .inr rfl
  | _ => cases hr

/-- A turn leaves alone what is not its own just if it finds the attribute it looks at. -/
theorem resume_guarded_iff (hr : resume locks s t e = some (s', t')) (hs : Issued s)
    (ht : ∀ x ∈ t.tokens, x ∈ s.issued) : Guarded s t s' t' ↔ Tokened s t := by
  cases t with
  | called i call => exact resume_called hr
  | setting i attempt =>
    refine iff_of_true ?_ trivial
    rcases resume_setting hr with ⟨hkey, -⟩ | ⟨hserver, rfl | ⟨e, rfl⟩⟩
    · exact .inl hkey
    · exact .inr ⟨hserver, by simp⟩
    · exact .inr ⟨hserver, by simp⟩
  | scripting i script token =>
    refine iff_of_true ?_ trivial
    rcases resume_scripting hr hs (ht _ (List.mem_singleton.mpr rfl)) with h | ⟨key, hkey, htoken, hby, -⟩
    · exact .inl h
    · exact .inr ⟨key, hkey, htoken, hby⟩
  | releasing i token =>
    cases e with
    | turn monotonic =>
      obtain ⟨rfl, rfl⟩ := Prod.mk.inj (Option.some.inj hr)
      exact iff_of_true ⟨rfl, rfl⟩ trivial
    | _ => cases hr
  | extending i additional_time replace_ttl => exact resume_extending hr
  | reacquiring i timeout => exact resume_reacquiring hr
  | got i stored_token => exact resume_got hr
  | comparing i stored_token => exact resume_comparing hr
  | clock => exact iff_of_true trivial trivial
  | answered i attempt r => exact iff_of_true (resume_quiet hr id) trivial
  | acquired i r => exact iff_of_true (resume_quiet hr id) trivial
  | getting i => exact iff_of_true (resume_quiet hr id) trivial
  | returned i r => exact iff_of_true (resume_quiet hr id) trivial

/-- What a turn does to the lock as a whole is allowed to the one who takes it. -/
theorem resume_deed (hr : resume locks s t e = some (s', t')) (hs : Issued s)
    (ht : ∀ x ∈ t.tokens, x ∈ s.issued) :
    holderAfter (holder s) (deed s t s').toList = some (holder s') := by
  have hsame : s'.server.key = s.server.key →
      holderAfter (holder s) (deed s t s').toList = some (holder s') := by
    intro hkey
    rw [deed_of_key_eq hkey, holder, holder, hkey]
    rfl
  by_cases hat : t.AtServer
  · cases t with
    | setting i attempt =>
      rcases resume_setting hr with ⟨hnone, -, k, hk, -, hby⟩ | ⟨hserver, -⟩
      · simp [deed, holder, hnone, hk, hby, holderAfter, Exclusion.step]
      · exact hsame (congrArg Server.key hserver)
    | scripting i script token =>
      rcases resume_scripting hr hs (ht _ (List.mem_singleton.mpr rfl)) with
        ⟨hserver, -⟩ | ⟨key, hkey, -, hby, hafter⟩
      · exact hsame (congrArg Server.key hserver)
      · cases hkey' : s'.server.key with
        | some k =>
          have hby' := hafter k hkey'
          cases script <;> simp [deed, holder, hkey, hkey', hby, hby', holderAfter]
        | none =>
          cases script <;> simp [deed, holder, hkey, hkey', hby, holderAfter, Exclusion.step]
    | clock =>
      rcases resume_clock hr with hkey | hnone
      · exact hsame hkey
      · cases hkey : s.server.key with
        | none => exact hsame (hnone.trans hkey.symm)
        | some key => simp [deed, holder, hkey, hnone, holderAfter, Exclusion.step]
    | _ => exact hat.elim
  · exact hsame (congrArg Server.key (resume_quiet hr hat))

/-! ### A run -/

/-- The world after the moves. -/
def run (locks : Nat → Lock) (moves : List (Move Job Event)) : World State Task :=
  moves.foldl (program locks).advance (init locks)

/-- No token is made that has been made before. -/
def Distinct (w : World State Task) : Move Job Event → Prop
  | .spawn _ => True
  | .resume _ e => Fresh w.shared e

/-- Whoever takes a turn leaves alone what is not its own. -/
def Safe (locks : Nat → Lock) (w : World State Task) : Move Job Event → Prop
  | .spawn _ => True
  | .resume n e => ∀ t s' t', w.tasks[n]? = some t → resume locks w.shared t e = some (s', t') →
    Guarded w.shared t s' t'

/-- Whoever takes a turn finds what it looks at. -/
def HasToken (w : World State Task) : Move Job Event → Prop
  | .resume n (.turn _) => ∀ t, w.tasks[n]? = some t → Tokened w.shared t
  | _ => True

/-- What a move does to the lock as a whole. -/
def deedOf (locks : Nat → Lock) (w : World State Task) (m : Move Job Event) : Option (Deed Nat) :=
  match m with
  | .spawn _ => none
  | .resume n _ => w.tasks[n]?.bind fun t => deed w.shared t ((program locks).advance w m).shared

def deeds (locks : Nat → Lock) : World State Task → List (Move Job Event) → List (Deed Nat)
  | _, [] => []
  | w, m :: moves => (deedOf locks w m).toList ++ deeds locks ((program locks).advance w m) moves

structure Inv (w : World State Task) : Prop where
  issued : Issued w.shared
  tokens : ∀ t ∈ w.tasks, ∀ x ∈ t.tokens, x ∈ w.shared.issued

theorem advance_inv (w : World State Task) (m : Move Job Event) (hw : Inv w) (hm : Distinct w m) :
    Inv ((program locks).advance w m) := by
  refine Program.advance_keeps ?_ ?_ w m hw hm
  · intro w k hw
    refine ⟨hw.issued, fun t ht => ?_⟩
    rcases List.mem_append.mp ht with ht | ht
    · exact hw.tokens t ht
    · rw [List.mem_singleton.mp ht]
      cases k <;> exact tokenless rfl
  · intro w n e t s' t' hw hm ht hr
    obtain ⟨hs', ht', hmore⟩ := resume_issued hr hw.issued (hw.tokens t (List.mem_of_getElem? ht)) hm
    refine ⟨hs', fun u hu => ?_⟩
    rcases List.mem_or_eq_of_mem_set hu with hu | rfl
    · exact fun x hx => hmore x (hw.tokens u hu x hx)
    · exact ht'

theorem advance_safe_iff (w : World State Task) (m : Move Job Event) (hw : Inv w) :
    Safe locks w m ↔ HasToken w m := by
  cases m with
  | spawn k => exact Iff.rfl
  | resume n e =>
    have hiff : ∀ t s' t', w.tasks[n]? = some t → resume locks w.shared t e = some (s', t') →
        (Guarded w.shared t s' t' ↔ Tokened w.shared t) := fun t s' t' ht hr =>
      resume_guarded_iff hr hw.issued (hw.tokens t (List.mem_of_getElem? ht))
    cases e with
    | turn monotonic =>
      constructor
      · intro hsafe t ht
        by_contra hnot
        obtain ⟨i, e, hr⟩ : ∃ i e, resume locks w.shared t (.turn monotonic) = _ :=
          resume_of_not_tokened monotonic hnot
        exact hnot ((hiff t _ _ ht hr).mp (hsafe t _ _ ht hr))
      · exact fun htoken t s' t' ht hr => (hiff t s' t' ht hr).mpr (htoken t ht)
    | _ =>
      refine iff_of_true (fun t s' t' ht hr => (hiff t s' t' ht hr).mpr ?_) trivial
      exact tokened_of_no_turn hr (by simp)

/-- A move is a deed that the lock as a whole allows. -/
theorem advance_deed (w : World State Task) (m : Move Job Event) (hw : Inv w) :
    holderAfter (holder w.shared) (deedOf locks w m).toList =
      some (holder ((program locks).advance w m).shared) := by
  cases m with
  | spawn k => rfl
  | resume n e =>
    cases ht : w.tasks[n]? with
    | none => simp only [deedOf, ht, Program.advance_idle ht]; rfl
    | some t =>
      cases hr : (program locks).resume w.shared t e with
      | none =>
        simp only [deedOf, ht, Program.advance_stuck ht hr, Option.bind_some, deed_of_key_eq]
        rfl
      | some r =>
        obtain ⟨s', t'⟩ := r
        simp only [deedOf, ht, Program.advance_resume ht hr, Option.bind_some]
        exact resume_deed hr hw.issued (hw.tokens t (List.mem_of_getElem? ht))

/-- The locks on the key refine one lock that is held by one at a time. -/
theorem deeds_allowed (w : World State Task) (hw : Inv w)
    (hm : Each (program locks).advance Distinct w moves) :
    holderAfter (holder w.shared) (deeds locks w moves) =
      some (holder (moves.foldl (program locks).advance w).shared) := by
  induction moves generalizing w with
  | nil => rfl
  | cons m moves ih =>
    rw [deeds, holderAfter_append, advance_deed w m hw, Option.bind_some]
    exact ih _ (advance_inv w m hw hm.1) hm.2

/-- The task has made the key its own. -/
def Task.Won : Task → Prop
  | .answered _ _ r => r = true
  | .acquired _ r => r = .ok true
  | _ => False

/-- The `SET` of task `n` found no key, and left its token there. -/
def SetWhenAbsent (locks : Nat → Lock) (moves : List (Move Job Event)) (n : Nat) : Prop :=
  ∃ before e after i attempt, moves = before ++ .resume n e :: after ∧
    (run locks before).tasks[n]? = some (.setting i attempt) ∧
    (run locks before).shared.server.key = none ∧
    ∃ key, (run locks (before ++ [.resume n e])).shared.server.key = some key ∧
      key.token = attempt.token ∧ key.setBy = i

theorem SetWhenAbsent.concat (h : SetWhenAbsent locks moves n) (m : Move Job Event) :
    SetWhenAbsent locks (moves ++ [m]) n := by
  obtain ⟨before, e, after, i, attempt, rfl, hset⟩ := h
  exact ⟨before, e, after ++ [m], i, attempt, by simp, hset⟩

theorem won_of_resume (hr : resume locks s t e = some (s', t')) (hwon : t'.Won) :
    t.Won ∨ ∃ i attempt, t = .setting i attempt ∧ s.server.key = none ∧
      ∃ key, s'.server.key = some key ∧ key.token = attempt.token ∧ key.setBy = i := by
  by_cases htoken : Tokened s t
  case neg =>
    by_cases hturn : ∀ monotonic, e ≠ .turn monotonic
    · exact absurd (tokened_of_no_turn hr hturn) htoken
    · obtain ⟨monotonic, rfl⟩ := not_forall_not.mp hturn
      obtain ⟨i, e, hno⟩ : ∃ i e, resume locks s t (.turn monotonic) = _ :=
        resume_of_not_tokened monotonic htoken
      rw [hno] at hr
      obtain ⟨rfl, rfl⟩ := Prod.mk.inj (Option.some.inj hr)
      exact hwon.elim
  cases t with
  | setting i attempt =>
    rcases resume_setting hr with ⟨hnone, -, hkey⟩ | ⟨-, rfl | ⟨e, rfl⟩⟩
    · exact .inr ⟨i, attempt, rfl, hnone, hkey⟩
    · cases hwon
    · cases hwon
  | answered i attempt r =>
    cases r with
    | true => exact .inl rfl
    | false =>
      cases e with
      | turn monotonic =>
        simp only [resume] at hr
        split_ifs at hr
        · obtain ⟨rfl, rfl⟩ := Prod.mk.inj (Option.some.inj hr)
          cases hwon
        · obtain ⟨rfl, rfl⟩ := Prod.mk.inj (Option.some.inj hr)
          exact hwon.elim
      | _ => cases hr
  | called i call =>
    have hguarded := (resume_called hr).mpr htoken
    cases call with
    | acquire sleep blocking blocking_timeout =>
      obtain ⟨-, attempt, rfl⟩ := hguarded
      exact hwon.elim
    | owned =>
      obtain ⟨-, rfl⟩ := hguarded
      exact hwon.elim
    | _ =>
      obtain ⟨-, ⟨msg, rfl⟩ | hgoes⟩ := hguarded
      · exact hwon.elim
      · cases t' <;> first | exact hgoes.elim | exact hwon.elim
  | releasing i token =>
    cases e with
    | turn monotonic =>
      obtain ⟨rfl, rfl⟩ := Prod.mk.inj (Option.some.inj hr)
      exact hwon.elim
    | _ => cases hr
  | extending i additional_time replace_ttl =>
    obtain ⟨-, token, rfl⟩ := (resume_extending hr).mpr htoken
    exact hwon.elim
  | reacquiring i timeout =>
    obtain ⟨-, token, rfl⟩ := (resume_reacquiring hr).mpr htoken
    exact hwon.elim
  | scripting i script token =>
    cases e with
    | turn monotonic =>
      simp only [resume] at hr
      obtain ⟨rfl, rfl⟩ := Prod.mk.inj (Option.some.inj hr)
      exact hwon.elim
    | _ => cases hr
  | getting i =>
    cases e with
    | turn monotonic =>
      obtain ⟨rfl, rfl⟩ := Prod.mk.inj (Option.some.inj hr)
      exact hwon.elim
    | _ => cases hr
  | got i stored_token =>
    obtain ⟨-, ⟨r, rfl⟩ | rfl⟩ := (resume_got hr).mpr htoken
    · exact hwon.elim
    · exact hwon.elim
  | comparing i stored_token =>
    obtain ⟨-, r, rfl⟩ := (resume_comparing hr).mpr htoken
    exact hwon.elim
  | clock =>
    cases e with
    | turn monotonic => cases hr
    | begins monotonic token => cases hr
    | passes ms =>
      obtain ⟨rfl, rfl⟩ := Prod.mk.inj (Option.some.inj hr)
      exact hwon.elim
    | expires =>
      obtain ⟨rfl, rfl⟩ := Prod.mk.inj (Option.some.inj hr)
      exact hwon.elim
  | acquired i r => cases e <;> cases hr
  | returned i r => cases e <;> cases hr

/-- Whoever has won has set the key at a moment when there was none. -/
theorem setWhenAbsent_of_won (moves : List (Move Job Event))
    (ht : (run locks moves).tasks[n]? = some t) (hwon : t.Won) : SetWhenAbsent locks moves n := by
  induction moves using List.reverseRecOn generalizing n t with
  | nil => cases ht
  | append_singleton moves m ih =>
    have hrun : run locks (moves ++ [m]) = (program locks).advance (run locks moves) m := by
      simp [run]
    rw [hrun] at ht
    cases m with
    | spawn k =>
      rw [Program.advance, List.getElem?_append] at ht
      split_ifs at ht
      · exact (ih ht hwon).concat _
      · cases List.mem_singleton.mp (List.mem_of_getElem? ht)
        cases k <;> exact hwon.elim
    | resume k e =>
      cases hk : (run locks moves).tasks[k]? with
      | none =>
        rw [Program.advance_idle hk] at ht
        exact (ih ht hwon).concat _
      | some u =>
        cases hr : (program locks).resume (run locks moves).shared u e with
        | none =>
          rw [Program.advance_stuck hk hr] at ht
          exact (ih ht hwon).concat _
        | some r =>
          obtain ⟨s', u'⟩ := r
          have hnext := Program.advance_resume hk hr
          rw [hnext, List.getElem?_set] at ht
          split_ifs at ht with hkn hlt
          · obtain rfl := Option.some.inj ht
            rcases won_of_resume hr hwon with hu | ⟨i, attempt, rfl, hnone, hkey⟩
            · exact (ih (hkn ▸ hk) hu).concat _
            · subst hkn
              exact ⟨moves, e, [], i, attempt, rfl, hk, hnone, by rw [hrun, hnext]; exact hkey⟩
          · exact (ih ht hwon).concat _

/-- Locks on one key exclude each other: an operation of a lock that does not have the key changes
nothing at the server and raises; `acquire` returns true only if its `SET` found no key; and between
two acquisitions the holder releases the lock or the key expires. -/
structure Excludes (locks : Nat → Lock) (moves : List (Move Job Event)) : Prop where
  safe : Each (program locks).advance (Safe locks) (init locks) moves
  acquired : ∀ n i, (run locks moves).tasks[n]? = some (.acquired i (.ok true)) → SetWhenAbsent locks moves n
  released : ∀ before who between other rest,
    deeds locks (init locks) moves = before ++ .acquired who :: (between ++ .acquired other :: rest) →
      .released who ∈ between ∨ .expired ∈ between

theorem init_inv (locks : Nat → Lock) : Inv (init locks) := by
  refine ⟨⟨List.nodup_nil, fun i token h => ?_, fun _ h => (nomatch h)⟩, fun _ h => (nomatch h)⟩
  simp only [init] at h
  split_ifs at h
  cases h

/-- If no token is made twice, locks exclude each other just if every operation is called in a thread
that has made the lock or acquired it, or on a lock that is not `thread_local`, and no other thread
releases that lock between the two looks of an operation at the token. -/
theorem locks_exclude_iff (locks : Nat → Lock) (moves : List (Move Job Event))
    (h : Each (program locks).advance Distinct (init locks) moves) :
    Excludes locks moves ↔ Each (program locks).advance HasToken (init locks) moves := by
  have hiff : Each (program locks).advance (Safe locks) (init locks) moves ↔
      Each (program locks).advance HasToken (init locks) moves :=
    each_good_iff (fun w m hw hm hok => ⟨(advance_safe_iff w m hw).mpr hok, advance_inv w m hw hm⟩)
      (fun w m hw _ hsafe => (advance_safe_iff w m hw).mp hsafe) (init_inv locks) h
  refine ⟨fun hex => hiff.mp hex.safe, fun htoken =>
    ⟨hiff.mpr htoken, fun n i ht => setWhenAbsent_of_won moves ht rfl, ?_⟩⟩
  intro before who between other rest hdeeds
  have hallowed := deeds_allowed (init locks) (init_inv locks) h
  rw [hdeeds] at hallowed
  exact released_between (hallowed ▸ Option.some_ne_none _)

/-- Two locks and the clock: the first acquires the key and loses it, the second acquires
it, and the first releases it too late. -/
def lateRelease : List (Move Job Event) :=
  [.spawn .clock, .spawn (.call 0 (.acquire none none none)), .spawn (.call 1 (.acquire none (some false) none)),
    .resume 1 (.begins 0 7), .resume 1 (.turn 0), .resume 1 (.turn 0), .resume 0 .expires,
    .resume 2 (.begins 0 8), .resume 2 (.turn 0), .resume 2 (.turn 0),
    .spawn (.call 0 .release), .resume 3 (.turn 0), .resume 3 (.turn 0), .resume 3 (.turn 0)]

theorem locks_exclude_lateRelease : Excludes (fun _ => {}) lateRelease := by
  refine (locks_exclude_iff (fun _ => {}) lateRelease
    ⟨trivial, trivial, trivial, show (7 : Nat) ∉ ([] : List Nat) by decide, trivial, trivial, trivial,
      show (8 : Nat) ∉ [7] by decide, trivial, trivial, trivial, trivial, trivial, trivial, trivial⟩).mpr ?_
  refine ⟨trivial, trivial, trivial, trivial, ?_, ?_, trivial, trivial, ?_, ?_, trivial, ?_, ?_, ?_, trivial⟩
  all_goals
    intro t ht
    obtain rfl := Option.some.inj ht
    first | exact trivial | exact rfl

/-- The lock as two threads see it, of which the first has made it. -/
def twoThreads (i : Nat) : Lock := { constructed := i == 0 }

/-- One thread acquires the lock, the other one releases it. -/
def otherRelease : List (Move Job Event) :=
  [.spawn (.call 0 (.acquire none none none)), .resume 0 (.begins 0 7), .resume 0 (.turn 0), .resume 0 (.turn 0),
    .spawn (.call 1 .release), .resume 1 (.turn 0)]

/-- The second thread finds no token, and what is raised is no `LockError`. -/
theorem otherRelease_not_excluded : ¬ Excludes twoThreads otherRelease := by
  intro h
  obtain ⟨-, -, -, -, -, hrelease, -⟩ := h.safe
  obtain ⟨-, ⟨msg, hmsg⟩ | hgoes⟩ := hrelease _ _ _ rfl rfl
  · simp [noToken, lockError] at hmsg
  · exact hgoes

end RedisPy.Locks
