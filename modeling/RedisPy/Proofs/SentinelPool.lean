import RedisPy.Spec.SentinelPool

/-! Which connections a pool hands out after the sentinels have named a new master. -/

namespace RedisPy

namespace SentinelPool

open Course

variable {lib : Library} {max_connections : Nat} {p p' : Pool} {c : Conn} {call : Call}

/-- The connection, if it is connected, is one to the master. -/
def Tied (p : Pool) (c : Conn) : Prop := c.connected = true → p.master_address = some c.address

theorem Pool.Current.closed (h : ∀ c ∈ p._available_connections, c.connected = false) : p.Current :=
  fun c hc hconn => absurd hconn (Bool.eq_false_iff.mp (h c hc))

theorem closed_of_mem_map {cs : List Conn} (hc : c ∈ cs.map Conn.disconnect) : c.connected = false := by
  obtain ⟨c', -, rfl⟩ := List.mem_map.mp hc
  rfl

theorem Pool.Current.of_eq (h : p.Current) (hmaster : p'.master_address = p.master_address)
    (havailable : p'._available_connections = p._available_connections) : p'.Current := by
  unfold Pool.Current
  rw [hmaster, havailable]
  exact h

theorem Pool.Current.append (h : p.Current) (hc : Tied p c) :
    { p with _available_connections := p._available_connections ++ [c] }.Current := by
  intro c' hc' hconn
  rcases List.mem_append.mp hc' with hc' | hc'
  · exact h c' hc' hconn
  · obtain rfl := List.mem_singleton.mp hc'
    exact hc hconn

theorem master_getMasterAddress (p : Pool) (master : Address) :
    (p.getMasterAddress master).master_address = some master := by
  unfold Pool.getMasterAddress
  split
  · assumption
  · rfl

theorem handed_getMasterAddress (p : Pool) (master : Address) :
    (p.getMasterAddress master).handed = p.handed := by
  unfold Pool.getMasterAddress
  split <;> rfl

theorem Pool.Current.getMasterAddress (h : p.Current) (master : Address) :
    (p.getMasterAddress master).Current := by
  unfold Pool.getMasterAddress
  split
  · exact h
  · exact .closed fun c hc => closed_of_mem_map hc

/-- What a connection may come to, with its pool. -/
theorem connect_post (attempts : List Attempt) (h : p.Current) (c : Conn) :
    (connect p c attempts).1.Current ∧ (connect p c attempts).1.handed = p.handed ∧
      (Tied p c → Tied (connect p c attempts).1 (connect p c attempts).2) := by
  induction attempts generalizing p c with
  | nil => exact ⟨h, rfl, id⟩
  | cons attempt attempts ih =>
    unfold connect
    split
    · exact ⟨h, rfl, id⟩
    · cases attempt.master with
      | none => exact ih h c
      | some master =>
        obtain ⟨hcurrent, hhanded, htied⟩ :=
          ih (h.getMasterAddress master) { address := master, connected := attempt.opens }
        refine ⟨hcurrent, hhanded.trans (handed_getMasterAddress p master), fun _ => htied fun _ => ?_⟩
        exact master_getMasterAddress p master

/-- What is given back is dropped unless it is a connection to the master, or it need be one. -/
theorem Pool.Current.release (h : p.Current) (hc : lib = .redis ∨ Tied p c) : (p.release lib c).Current := by
  cases lib with
  | redis =>
    unfold Pool.release
    dsimp only
    split
    · exact h.append fun _ => of_decide_eq_true ‹_›
    · exact h.of_eq rfl rfl
  | asyncio =>
    rcases hc with hc | hc
    · cases hc
    · exact h.append hc

theorem handed_release : (p.release lib c).handed = p.handed := by
  cases lib with
  | redis =>
    unfold Pool.release
    dsimp only
    split <;> rfl
  | asyncio => rfl

theorem take_post (h : p.Current) (htake : p.take lib max_connections = some (p', c)) :
    p'.Current ∧ p'.handed = p.handed ∧ Tied p' c := by
  unfold Pool.take at htake
  split at htake
  · rename_i c' hlast
    cases htake
    refine ⟨fun c' hc' => h c' ((List.dropLast_sublist _).subset hc'), rfl, h c (List.mem_of_getLast? hlast)⟩
  · split at htake
    · cases htake
    · cases htake
      exact ⟨h.of_eq rfl rfl, rfl, fun hconn => by cases hconn⟩

/-- Every connection has been handed out as one to the master of then. -/
def Told (p : Pool) : Prop := ∀ h ∈ p.handed, h.2 = some h.1

theorem handOut_post (h : p.Current) (htold : Told p) (hc : Tied p c) :
    (handOut lib (p, c)).Current ∧ Told (handOut lib (p, c)) := by
  unfold handOut
  split
  · refine ⟨h.of_eq rfl rfl, fun given hgiven => ?_⟩
    rcases List.mem_append.mp hgiven with hgiven | hgiven
    · exact htold given hgiven
    · obtain rfl := List.mem_singleton.mp hgiven
      exact hc ‹_›
  · refine ⟨h.release (.inr hc), ?_⟩
    rw [Told, handed_release]
    exact htold

theorem getConnection_post (attempts : List Attempt) (unready : Option Unready) (h : p.Current)
    (htold : Told p) : (p.getConnection lib max_connections attempts unready).Current ∧
      Told (p.getConnection lib max_connections attempts unready) := by
  unfold Pool.getConnection
  cases htake : p.take lib max_connections with
  | none => exact ⟨h, htold⟩
  | some taken =>
    obtain ⟨p₁, c₁⟩ := taken
    obtain ⟨h₁, hhanded₁, htied₁⟩ := take_post h htake
    obtain ⟨h₂, hhanded₂, htied₂⟩ := connect_post attempts h₁ c₁
    have htold₂ : Told (connect p₁ c₁ attempts).1 := by
      rw [Told, hhanded₂, hhanded₁]
      exact htold
    cases unready with
    | none => exact handOut_post h₂ htold₂ (htied₂ htied₁)
    | some unready =>
      dsimp only
      split
      · obtain ⟨h₃, hhanded₃, htied₃⟩ :=
          connect_post unready.attempts h₂ (connect p₁ c₁ attempts).2.disconnect
        have htied := htied₃ fun hconn => by cases hconn
        have htold₃ : Told (connect (connect p₁ c₁ attempts).1 (connect p₁ c₁ attempts).2.disconnect
            unready.attempts).1 := by
          rw [Told, hhanded₃]
          exact htold₂
        split
        · refine ⟨h₃.release (.inr htied), ?_⟩
          rw [Told, handed_release]
          exact htold₃
        · exact handOut_post h₃ htold₃ htied
      · exact handOut_post h₂ htold₂ (htied₂ htied₁)

theorem step_post (h : p.Current) (htold : Told p) (hstale : lib = .redis ∨ ¬ p.Stale call) :
    (p.step lib max_connections call).Current ∧ Told (p.step lib max_connections call) := by
  cases call with
  | get_connection attempts unready => exact getConnection_post attempts unready h htold
  | release i =>
    cases hi : p._in_use_connections[i]? with
    | none =>
      simp only [Pool.step, hi]
      exact ⟨h, htold⟩
    | some c =>
      simp only [Pool.step, hi]
      constructor
      · refine Pool.Current.release (h.of_eq rfl rfl) (hstale.imp_right fun hnot hconn => ?_)
        exact Classical.byContradiction fun hmaster => hnot ⟨i, c, rfl, hi, hconn, hmaster⟩
      · rw [Told, handed_release]
        exact htold
  | lose i => exact ⟨h.of_eq rfl rfl, htold⟩
  | use i attempts =>
    cases hi : p._in_use_connections[i]? with
    | none =>
      simp only [Pool.step, hi]
      exact ⟨h, htold⟩
    | some c =>
      simp only [Pool.step, hi]
      obtain ⟨hcurrent, hhanded, -⟩ := connect_post attempts h c
      refine ⟨hcurrent.of_eq rfl rfl, ?_⟩
      change ∀ given ∈ (connect p c attempts).1.handed, _
      rw [hhanded]
      exact htold
  | disconnect inuse_connections => exact ⟨.closed fun c hc => closed_of_mem_map hc, htold⟩

/-- A connection to another master that `redis/asyncio` takes back may be handed out next. -/
theorem not_stale_of_current (hasyncio : lib = .asyncio) (h : (p.step lib max_connections call).Current) :
    ¬ p.Stale call := by
  rintro ⟨i, c, rfl, hi, hconn, hmaster⟩
  subst hasyncio
  simp only [Pool.step, hi] at h
  exact hmaster (h c (List.mem_append_right _ (List.mem_singleton_self _)) hconn)

theorem init_post : Pool.Current {} ∧ Told {} := by
  refine ⟨fun c hc => ?_, fun given hgiven => ?_⟩
  · cases hc
  · cases hgiven

/-- All along a course of calls, whichever masters the sentinels name and whatever fails, the pool
holds no connection that is still connected to another master than the last one, just if it is a
pool of `redis/connection.py`, or no connection is given back that is. -/
theorem pool_current_iff (lib : Library) (max_connections : Nat) (calls : List Call) :
    Each (Pool.step lib max_connections) (fun p call => (p.step lib max_connections call).Current) {} calls ↔
      Each (Pool.step lib max_connections) (fun p call => lib = .redis ∨ ¬ p.Stale call) {} calls := by
  refine each_good_iff (I := fun p => p.Current ∧ Told p) ?_ ?_ ?_ (Each.trivial _ _)
  · intro p call ⟨h, htold⟩ _ hstale
    have hpost : (p.step lib max_connections call).Current ∧ Told (p.step lib max_connections call) :=
      step_post h htold hstale
    exact ⟨hpost.1, hpost⟩
  · intro p call _ _ hgood
    cases lib with
    | redis => exact .inl rfl
    | asyncio => exact .inr (not_stale_of_current rfl hgood)
  · exact init_post

/-- Whatever happens, `get_connection` hands out connections to the master that the sentinels named
last, just if the pool is one of `redis/connection.py`, whose `release` asks `owns_connection`. -/
theorem handed_current_iff (lib : Library) :
    (∀ (max_connections : Nat) (calls : List Call),
      ∀ given ∈ (run lib max_connections calls).handed, given.2 = some given.1) ↔ lib = .redis := by
  constructor
  · intro h
    cases lib with
    | redis => rfl
    | asyncio =>
      have hgiven := h 2 [.get_connection [⟨some ("a", 1), true⟩] none,
        .get_connection [⟨some ("b", 2), true⟩] none, .release 0, .get_connection [] none]
        (("a", 1), some ("b", 2)) (by decide)
      exact absurd hgiven (by decide)
  · rintro rfl max_connections calls
    have hrun : (run .redis max_connections calls).Current ∧ Told (run .redis max_connections calls) :=
      foldl_keeps (I := fun p => p.Current ∧ Told p) (fun p call h => step_post h.1 h.2 (.inl rfl)) init_post
    exact hrun.2

end SentinelPool

end RedisPy
