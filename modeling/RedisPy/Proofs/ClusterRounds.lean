import RedisPy.Proofs.SlotLookup
import RedisPy.Spec.ClusterClient

/-! The retry loops of the two clients against a cluster whose nodes answer the
command or `MOVED`: what one round does, in terms that hold for both, and how the
loop's end becomes the end of `execute_command`. -/

namespace RedisPy

open NodesManager Raising

section
variable {α : Type}

@[simp] theorem run_onManager {β : Type} (m : NodesManager.M β) (w : RedisCluster) :
    (RedisCluster.onManager m).run w =
      match m.run w.nodes_manager with
      | .ok b nm => .ok b { w with nodes_manager := nm }
      | .error e nm => .error e { w with nodes_manager := nm } := rfl

open RedisCluster

/-- What the client does to have its next lookup know of a `MOVED` answer. -/
def Variant.relearn (cluster : Cluster α) : Variant → RedisCluster.M Unit
  | sync => onManager (RedisPy.Sync.NodesManager.initializeNodes cluster.cluster_slots)
  | asyncio => Asyncio.aclose

/-- The `except MovedError` arm, without the variable `moved`. -/
def Variant.onMoved (cluster : Cluster α) (e : Exc) (c : Variant) : RedisCluster.M Unit := do
  if ← countMoved then
    c.relearn cluster
    resetCounter
  else updateMovedException e

/-- The command has been sent to `t`, to which the sync client has a connection. -/
def Variant.sentTo (t : ClusterNode) (w : RedisCluster) : Variant → RedisCluster
  | sync =>
    { w with
      nodes_manager :=
        { w.nodes_manager with
          redis_connection := Function.update w.nodes_manager.redis_connection t true }
      sent := w.sent ++ [t.name] }
  | asyncio => { w with sent := w.sent ++ [t.name] }

/-- How a round finds its node: it is given, or it is looked up. -/
def Looks (c : Variant) (cluster : Cluster α) (w : RedisCluster) (given : Option ClusterNode)
    (t : ClusterNode) (w₁ : RedisCluster) : Prop :=
  match given with
  | some t' => t' = t ∧ w = w₁
  | none => (RedisCluster.getNodeFromSlot c cluster.slot).run w = .ok t w₁

/-- The loop, with `ttl` rounds to go, ends in `r`. -/
def Gives (c : Variant) (cluster : Cluster α) (ttl : Nat) (w : RedisCluster)
    (given : Option ClusterNode) (r : EStateM.Result Exc RedisCluster α) : Prop :=
  match c with
  | .sync => ∀ l : Sync.Locals ClusterNode ClusterNode, l.asking = false → l.moved = given.isNone →
      (∀ t, given = some t → l.target_node = some t) →
      forget ((Sync.attempts (RedisCluster.Sync.ops cluster) ttl).run (w, l)) = r
  | .asyncio => ∀ l : Asyncio.Locals, l.asking = false → l.moved = given.isNone →
      (∀ t, given = some t → l.target_node = some t) →
      forget ((Asyncio.attempts (RedisCluster.Asyncio.ops cluster) ttl).run (w, l)) = r

theorem gives_exhausted (c : Variant) (cluster : Cluster α) (w : RedisCluster)
    (given : Option ClusterNode) :
    Gives c cluster 0 w given (.error { cls := .ClusterError, msg := "TTL exhausted." } w) := by
  cases c <;> exact fun _ _ _ _ => rfl

theorem run_getRedisConnection (cluster : Cluster α) (t : ClusterNode) (w : RedisCluster) :
    ((RedisCluster.Sync.ops cluster).getRedisConnection t).run w =
      .ok t { w with
        nodes_manager :=
          { w.nodes_manager with
            redis_connection := Function.update w.nodes_manager.redis_connection t true } } := by
  cases h : w.nodes_manager.redis_connection t with
  | true =>
    have hu : Function.update w.nodes_manager.redis_connection t true =
        w.nodes_manager.redis_connection := by
      rw [← h, Function.update_eq_self]
    simp [RedisCluster.Sync.ops, h, hu]
  | false => simp [RedisCluster.Sync.ops, h, RedisPy.Sync.NodesManager.createRedisConnection]

/-- Up to the answer of its node, a round of the sync client. -/
theorem Sync.round_run {cluster : Cluster α} {w w₁ : RedisCluster} {given : Option ClusterNode}
    {t : ClusterNode} (l : Sync.Locals ClusterNode ClusterNode) (ha : l.asking = false)
    (hm : l.moved = given.isNone) (ht : ∀ t, given = some t → l.target_node = some t)
    (h : Looks .sync cluster w given t w₁) :
    ∃ l', l'.asking = false ∧ l'.connection = some t ∧ l'.redis_node = some t ∧
      EStateM.run (do
        let (redis_node, connection) ← Sync.acquire (RedisCluster.Sync.ops cluster)
        return some (← Sync.converse (RedisCluster.Sync.ops cluster) redis_node connection)) (w, l) =
        if cluster.owns t.name then .ok (some cluster.reply) (Variant.sync.sentTo t w₁, l')
        else .error (movedError (cluster.moved t)) (Variant.sync.sentTo t w₁, l') := by
  have hfind : (Sync.findTarget (RedisCluster.Sync.ops cluster)).run (w, l) =
      .ok () (w₁, { l with target_node := some t, moved := false }) := by
    obtain ⟨tn, rn, cn, ra, ak, mv⟩ := l
    cases given with
    | some t' =>
      obtain ⟨rfl, rfl⟩ := h
      obtain rfl : tn = some t' := ht t' rfl
      simp_all [Sync.findTarget, Sync.locals]
    | none =>
      have hrun : ((RedisCluster.Sync.ops cluster).getNodeFromSlot cluster.slot).run w = .ok t w₁ := h
      have hslot : ((RedisCluster.Sync.ops cluster).determineSlot).run w = .ok cluster.slot w := rfl
      simp only at ha hm
      simp [Sync.findTarget, Sync.locals, ha, hm, hslot, hrun, Sync.setLocals]
  refine ⟨{ l with target_node := some t, moved := false, redis_node := some t, connection := some t },
    ha, rfl, rfl, ?_⟩
  simp only [Sync.acquire, EStateM.run_bind, hfind, Sync.locals, EStateM.run_get, EStateM.run_pure,
    run_first, run_getRedisConnection, Sync.setLocals, EStateM.run_modify, Sync.converse, ha]
  by_cases ho : cluster.owns t.name = true
  · simp [RedisCluster.Sync.ops, transmit, answer, ho, Variant.sentTo]
  · simp [RedisCluster.Sync.ops, transmit, answer, ho, Variant.sentTo]

theorem Sync.releaseConnection_run {cluster : Cluster α} (w : RedisCluster)
    {l : Sync.Locals ClusterNode ClusterNode} {t : ClusterNode} (hc : l.connection = some t)
    (hr : l.redis_node = some t) :
    (Sync.releaseConnection (RedisCluster.Sync.ops cluster)).run (w, l) = .ok () (w, l) := by
  simp [Sync.releaseConnection, Sync.locals, hc, hr, RedisCluster.Sync.ops]

theorem Sync.handle_moved (cluster : Cluster α) (r : Redirect) (w : RedisCluster)
    (l : Sync.Locals ClusterNode ClusterNode) :
    (Sync.handle (RedisCluster.Sync.ops cluster) (movedError r)).run (w, l) =
      match (Variant.sync.onMoved cluster (movedError r)).run w with
      | .ok _ w' => .ok () (w', { l with moved := true })
      | .error e w' => .error e (w', l) := by
  have harm : Sync.handle (RedisCluster.Sync.ops cluster) (movedError r) = (do
      if ← first countMoved then
        first (Variant.sync.relearn cluster)
        first resetCounter
      else first (RedisCluster.updateMovedException (movedError r))
      Sync.setLocals fun l => { l with moved := true }) := rfl
  rw [harm]
  simp only [Variant.onMoved, EStateM.run_bind, run_first]
  cases countMoved.run w with
  | error e w' => rfl
  | ok due w' =>
    cases due with
    | true =>
      simp only [if_true, EStateM.run_bind, run_first]
      cases (Variant.sync.relearn cluster).run w' with
      | error e w'' => rfl
      | ok u w'' => rfl
    | false => rfl

/-- Up to the answer of its node, a round of the asyncio client. -/
theorem Asyncio.round_run {cluster : Cluster α} {w w₁ : RedisCluster} {given : Option ClusterNode}
    {t : ClusterNode} (l : Asyncio.Locals) (ha : l.asking = false) (hm : l.moved = given.isNone)
    (ht : ∀ t, given = some t → l.target_node = some t) (h : Looks .asyncio cluster w given t w₁) :
    (Asyncio.converse (RedisCluster.Asyncio.ops cluster)).run (w, l) =
      if cluster.owns t.name then
        .ok cluster.reply (Variant.asyncio.sentTo t w₁, { l with target_node := some t, moved := false })
      else .error (movedError (cluster.moved t))
        (Variant.asyncio.sentTo t w₁, { l with target_node := some t, moved := false }) := by
  have hsend : ∀ l : Asyncio.Locals, l.target_node = some t →
      (Asyncio.executeOnTarget (RedisCluster.Asyncio.ops cluster) .command).run (w₁, l) =
        if cluster.owns t.name then .ok cluster.reply (Variant.asyncio.sentTo t w₁, l)
        else .error (movedError (cluster.moved t)) (Variant.asyncio.sentTo t w₁, l) := by
    intro l hl
    by_cases ho : cluster.owns t.name = true <;>
      simp [Asyncio.executeOnTarget, Asyncio.locals, hl, RedisCluster.Asyncio.ops, transmit, answer,
        ho, Variant.sentTo]
  obtain ⟨tn, ra, ak, mv⟩ := l
  simp only at ha hm
  cases given with
  | some t' =>
    obtain ⟨rfl, rfl⟩ := h
    obtain rfl : tn = some t' := ht t' rfl
    simp [Asyncio.converse, Asyncio.locals, ha, hm, hsend]
  | none =>
    have hrun : ((RedisCluster.Asyncio.ops cluster).getNodeFromSlot cluster.slot).run w = .ok t w₁ := h
    have hslot : ((RedisCluster.Asyncio.ops cluster).determineSlot).run w = .ok cluster.slot w := rfl
    simp [Asyncio.converse, Asyncio.locals, ha, hm, hslot, hrun, Asyncio.setLocals, hsend]

theorem Asyncio.handle_moved (cluster : Cluster α) (r : Redirect) (w : RedisCluster)
    (l : Asyncio.Locals) :
    (Asyncio.handle (RedisCluster.Asyncio.ops cluster) (movedError r)).run (w, l) =
      match (Variant.asyncio.onMoved cluster (movedError r)).run w with
      | .ok _ w' => .ok () (w', { l with moved := true })
      | .error e w' => .error e (w', l) := by
  have harm : Asyncio.handle (RedisCluster.Asyncio.ops cluster) (movedError r) = (do
      if ← first countMoved then
        first (Variant.asyncio.relearn cluster)
        first resetCounter
      else first (RedisCluster.updateMovedException (movedError r))
      Asyncio.setLocals fun l => { l with moved := true }) := rfl
  rw [harm]
  simp only [Variant.onMoved, EStateM.run_bind, run_first]
  cases countMoved.run w with
  | error e w' => rfl
  | ok due w' =>
    cases due with
    | true =>
      simp only [if_true, EStateM.run_bind, run_first]
      cases (Variant.asyncio.relearn cluster).run w' with
      | error e w'' => rfl
      | ok u w'' => rfl
    | false => rfl

/-- The round in which the owner is asked is the last one. -/
theorem gives_owner {c : Variant} {cluster : Cluster α} {w w₁ : RedisCluster}
    {given : Option ClusterNode} {t : ClusterNode} (ttl : Nat) (h : Looks c cluster w given t w₁)
    (ho : cluster.owns t.name = true) :
    Gives c cluster (ttl + 1) w given (.ok cluster.reply (c.sentTo t w₁)) := by
  cases c with
  | sync =>
    intro l ha hm ht
    obtain ⟨l', -, hc, hr, hrun⟩ := Sync.round_run l ha hm ht h
    rw [if_pos ho] at hrun
    have hattempt : (Sync.attempt (RedisCluster.Sync.ops cluster)).run (w, l) =
        .ok (some cluster.reply) (Variant.sync.sentTo t w₁, l') := by
      unfold Sync.attempt
      rw [EStateM.run_bind, show (first _).run (w, l) = .ok () (w, l) from rfl]
      simp only [run_tryFinally, run_tryCatch, hrun, Sync.releaseConnection_run _ hc hr]
    rw [Sync.attempts, EStateM.run_bind, hattempt]
    rfl
  | asyncio =>
    intro l ha hm ht
    have hrun := Asyncio.round_run l ha hm ht h
    rw [if_pos ho] at hrun
    rw [Asyncio.attempts, EStateM.run_bind]
    unfold Asyncio.attempt
    rw [EStateM.run_bind, show (first _).run (w, l) = .ok () (w, l) from rfl]
    simp only [run_tryCatch, run_map, hrun]
    rfl

/-- After another answer the loop goes on, or ends in what the client met while relearning. -/
theorem gives_moved {c : Variant} {cluster : Cluster α} {w w₁ : RedisCluster}
    {given : Option ClusterNode} {t : ClusterNode} {ttl : Nat}
    {r : EStateM.Result Exc RedisCluster α} (h : Looks c cluster w given t w₁)
    (ho : cluster.owns t.name = false)
    (hr : match (c.onMoved cluster (movedError (cluster.moved t))).run (c.sentTo t w₁) with
      | .ok _ w₂ => Gives c cluster ttl w₂ none r
      | .error e w₂ => r = .error e w₂) :
    Gives c cluster (ttl + 1) w given r := by
  cases c with
  | sync =>
    intro l ha hm ht
    obtain ⟨l', ha', hc, hrn, hrun⟩ := Sync.round_run l ha hm ht h
    rw [if_neg (by simp [ho])] at hrun
    rw [Sync.attempts, EStateM.run_bind]
    unfold Sync.attempt
    rw [EStateM.run_bind, show (first _).run (w, l) = .ok () (w, l) from rfl]
    simp only [run_tryFinally, run_tryCatch, hrun, EStateM.run_bind, Sync.handle_moved]
    split at hr
    · rename_i w₂ hmoved
      simp only [EStateM.run_pure]
      rw [Sync.releaseConnection_run w₂ (l := { l' with moved := true }) hc hrn]
      exact hr _ ha' rfl (by simp)
    · rename_i e w₂ hmoved
      simp only [Sync.releaseConnection_run w₂ hc hrn]
      exact hr.symm
  | asyncio =>
    intro l ha hm ht
    have hrun := Asyncio.round_run l ha hm ht h
    rw [if_neg (by simp [ho])] at hrun
    rw [Asyncio.attempts, EStateM.run_bind]
    unfold Asyncio.attempt
    rw [EStateM.run_bind, show (first _).run (w, l) = .ok () (w, l) from rfl]
    simp only [run_tryCatch, run_map, hrun, EStateM.run_bind, Asyncio.handle_moved]
    split at hr
    · exact hr _ ha rfl (by simp)
    · exact hr.symm

/-! ### The whole command -/

/-- An outcome that is given back as it is, whatever the retry loop notes. -/
theorem forget_tryCatch {ω : Type} {m : EStateM Exc (RedisCluster × ω) α}
    {h : Exc → EStateM Exc (RedisCluster × ω) α} {s : RedisCluster × ω}
    (hh : ∀ e s', m.run s = .error e s' → (h e).run s' = .error e s') :
    forget ((tryCatch m h).run s) = forget (m.run s) := by
  rw [run_tryCatch]
  cases hr : m.run s with
  | ok a s' => rfl
  | error e s' => exact congrArg forget (hh e s' hr)

/-- A client that is not to be initialised looks the slot up and runs the loop,
once if what the loop raises allows no retry. -/
theorem executeCommand_of_gives {c : Variant} {cluster : Cluster α} {w w₁ : RedisCluster}
    {t : ClusterNode} {r : EStateM.Result Exc RedisCluster α}
    (hinit : c = .asyncio → w.initialize_ = false)
    (hlook : (RedisCluster.getNodeFromSlot c cluster.slot).run w = .ok t w₁)
    (hg : Gives c cluster RedisClusterRequestTTL w₁ (some t) r)
    (hr : ∀ e w', r = .error e w' → e.cls ∉ ERRORS_ALLOW_RETRY) :
    (c.executeCommand cluster).run w = r := by
  cases c with
  | sync =>
    have hrun : (Sync._executeCommand (RedisCluster.Sync.ops cluster) t).run w₁ = r :=
      (withLocals_run_eq _ _ _).trans (hg { target_node := some t } rfl rfl (by simp))
    have hnodes : (RedisCluster.Sync.dispatch cluster).determineNodes.run w = .ok [t] w₁ := by
      simp only [RedisCluster.Sync.dispatch, EStateM.run_bind, hlook, EStateM.run_pure]
    have heach : (Sync.executeOnEach (RedisCluster.Sync.ops cluster) [t] ∅).run w₁ =
        match r with
        | .ok a w' => .ok (Keyed.put ∅ (t.name, a)) w'
        | .error e w' => .error e w' := by
      simp only [Sync.executeOnEach, EStateM.run_bind, hrun]
      cases r <;> rfl
    have honce : forget ((Sync.executeOnce (RedisCluster.Sync.ops cluster)
        (RedisCluster.Sync.dispatch cluster)).run (w, false)) = r := by
      have hdefault : ((RedisCluster.Sync.dispatch cluster).isDefaultNode t).run w₁ =
        .ok (w₁.isDefaultNode t) w₁ := rfl
      simp only [Sync.executeOnce, EStateM.run_bind, run_first, hnodes, if_neg (List.cons_ne_nil t []),
        List.length_singleton, if_true, List.head?_cons, Option.elim_some, hdefault]
      cases w₁.isDefaultNode t <;> cases r <;> simp [heach, RedisCluster.Sync.dispatch, forget] <;> rfl
    change (withLocals false (Sync.executeAttempts (RedisCluster.Sync.ops cluster)
      (RedisCluster.Sync.dispatch cluster) w.cluster_error_retry_attempts)).run w = r
    rw [withLocals_run_eq]
    cases w.cluster_error_retry_attempts with
    | zero => exact honce
    | succ n =>
      refine (forget_tryCatch fun e s' he => ?_).trans honce
      rw [he] at honce
      have hno : e.cls ∉ (RedisCluster.Sync.dispatch cluster).errors_allow_retry :=
        hr e s'.1 honce.symm
      rw [if_neg hno, run_throw]
  | asyncio =>
    have hrun : (Asyncio._executeCommand (RedisCluster.Asyncio.ops cluster) t).run w₁ = r :=
      (withLocals_run_eq _ _ _).trans (hg { target_node := some t } rfl rfl (by simp))
    have hprep : (RedisCluster.Asyncio.prepare cluster).run (w, none) = .ok () (w, none) := by
      simp [RedisCluster.Asyncio.prepare, hinit rfl]
    have honce : forget ((RedisCluster.Asyncio.executeOnce cluster).run (w, none)) = r := by
      simp only [RedisCluster.Asyncio.executeOnce, EStateM.run_bind, run_first, hlook,
        EStateM.run_modify, hrun]
      cases r <;> rfl
    change (withLocals none (RedisCluster.Asyncio.executeAttempts cluster
      w.cluster_error_retry_attempts)).run w = r
    rw [withLocals_run_eq]
    cases w.cluster_error_retry_attempts with
    | zero => 
      rw [RedisCluster.Asyncio.executeAttempts, EStateM.run_bind, hprep]
      exact honce
    | succ n =>
      rw [RedisCluster.Asyncio.executeAttempts, EStateM.run_bind, hprep]
      refine (forget_tryCatch fun e s' he => ?_).trans honce
      rw [he] at honce
      rw [if_neg (hr e s'.1 honce.symm), run_throw]

theorem executeAttempts_prepare (cluster : Cluster α) (retry_attempts : Nat) :
    ∃ m, RedisCluster.Asyncio.executeAttempts cluster retry_attempts =
      (RedisCluster.Asyncio.prepare cluster >>= fun _ => m) := by
  cases retry_attempts <;> exact ⟨_, rfl⟩

/-- An asyncio client that is to be initialised does that first. -/
theorem executeCommand_initialize (cluster : Cluster α) (w : RedisCluster)
    (hinit : w.initialize_ = true) :
    match (RedisPy.Asyncio.NodesManager.initializeNodes cluster.cluster_slots).run w.nodes_manager with
    | .ok _ nm => (Variant.asyncio.executeCommand cluster).run w =
        (Variant.asyncio.executeCommand cluster).run { w with nodes_manager := nm, initialize_ := false }
    | .error e _ => ∃ w', (Variant.asyncio.executeCommand cluster).run w = .error e w' := by
  obtain ⟨m, hm⟩ := executeAttempts_prepare cluster w.cluster_error_retry_attempts
  have hexec : ∀ w', w'.cluster_error_retry_attempts = w.cluster_error_retry_attempts →
      (Variant.asyncio.executeCommand cluster).run w' =
        forget ((RedisCluster.Asyncio.prepare cluster >>= fun _ => m).run (w', none)) := by
    intro w' hw'
    rw [← hm, ← hw']
    exact withLocals_run_eq none _ w'
  rw [hexec w rfl, EStateM.run_bind]
  simp only [RedisCluster.Asyncio.prepare, hinit, RedisCluster.Asyncio.initializeClient,
    EStateM.run_bind, EStateM.run_get, if_true, run_first, run_tryCatch, run_onManager]
  cases (RedisPy.Asyncio.NodesManager.initializeNodes cluster.cluster_slots).run w.nodes_manager with
  | ok u nm =>
    simp only [hexec { w with nodes_manager := nm, initialize_ := false } rfl]
    simp [RedisCluster.Asyncio.prepare]
  | error e nm => exact ⟨_, rfl⟩

end

end RedisPy
