import RedisPy.Proofs.ClusterRounds
import RedisPy.Proofs.Reachable

/-! How redirections converge: against a cluster that answers truthfully, when
`execute_command` returns the owner's reply, and how many nodes are asked before. -/

namespace RedisPy

open NodesManager Raising RedisCluster

section
variable {α : Type}

/-- The cluster answers truthfully, as the client understands addresses:
`assignment` names the primary of each slot that has one. -/
structure Healthy (cluster : Cluster α) (assignment : Int → Option String) (s : Settings) : Prop where
  moved_slot : ∀ n, (cluster.moved n).slot_id = cluster.slot
  moved_addr : ∀ n, (cluster.moved n).host ≠ "" ∧ (cluster.moved n).port ≠ 0
  moved_owner : ∀ n, cluster.owns
    (getNodeName (s.resolveHost (cluster.moved n).host) (cluster.moved n).port) = true
  answers : ∀ n, ∃ reply, cluster.cluster_slots n = .ok reply
  hosts : ∀ n reply, cluster.cluster_slots n = .ok reply → ∀ e ∈ reply, e.primary.1 ≠ none
  primaries : ∀ n reply, cluster.cluster_slots n = .ok reply → ∀ e ∈ reply, ∀ i ∈ slotsOf e,
    assignment i = some (s.storedName (primaryAddr n e))
  replicas : ∀ n reply, cluster.cluster_slots n = .ok reply → ∀ e ∈ reply, ∀ a ∈ e.replicas,
    ∀ i, assignment i ≠ some (s.storedName (replyAddr a))
  covers : ∀ n reply, cluster.cluster_slots n = .ok reply → ∀ i, (assignment i).isSome →
    ∃ e ∈ reply, i ∈ slotsOf e
  owner : ∃ x, assignment cluster.slot = some x ∧ cluster.owns x = true

/-- `initialize` will succeed: there is a startup node to ask, and no slot is
missing where all are required. -/
def CanInitialize (assignment : Int → Option String) (nm : NodesManager) : Prop :=
  nm.startupNodes.items ≠ [] ∧
    (nm.require_full_coverage = true → ∀ i < REDIS_CLUSTER_HASH_SLOTS, (assignment (i : Int)).isSome)

variable {cluster : Cluster α} {assignment : Int → Option String}

theorem initialize_healthy (c : Variant) {nm : NodesManager} (hwf : nm.Wf)
    (h : Healthy cluster assignment nm.toSettings) :
    Post ((c.initializeNodes cluster.cluster_slots).run nm)
      (fun _ nm' => CanInitialize assignment nm ∧ nm'.Wf ∧ nm'.toSettings = nm.toSettings ∧
        ∃ t, nm'.Maps cluster.slot t ∧ cluster.owns t.name = true)
      (fun err _ => ¬ CanInitialize assignment nm ∧ err.cls ∉ ERRORS_ALLOW_RETRY) := by
  have ht : Truthful (fun i x => assignment i = some x) (fun i => (assignment i).isSome)
      (fun x => ∃ i, assignment i = some x) nm.toSettings cluster.cluster_slots := by
    refine ⟨fun n reply hr e he => ⟨h.primaries n reply hr e he, ?_⟩,
      fun n reply hr e he hnone => absurd hnone (h.hosts n reply hr e he), h.covers⟩
    rintro a ha ⟨i, hi⟩
    exact h.replicas n reply hr e he a ha i hi
  apply (initializeNodes_spec c cluster.cluster_slots nm hwf ht).mono
  · intro _ nm' hi
    obtain ⟨x, hx, ho⟩ := h.owner
    have hsome : ∀ i, (nm'.slotNodes i).isSome → (assignment i).isSome := by
      intro i hi'
      obtain ⟨nodes, hn⟩ := Option.isSome_iff_exists.mp hi'
      obtain ⟨t, tl, -, hP⟩ := hi.primary i nodes hn
      exact Option.isSome_iff_exists.mpr ⟨_, hP⟩
    refine ⟨⟨hi.startup, fun hreq i hlt => hsome i (hi.full hreq i hlt)⟩, hi.wf, hi.settings, ?_⟩
    obtain ⟨nodes, hn⟩ := Option.isSome_iff_exists.mp
      (hi.covers cluster.slot (Option.isSome_iff_exists.mpr ⟨x, hx⟩))
    obtain ⟨t, tl, rfl, hP⟩ := hi.primary _ nodes hn
    have hname : t.name = x := Option.some.inj (hP.symm.trans hx)
    exact ⟨t, ⟨hi.moved, tl, hn⟩, hname ▸ ho⟩
  · rintro err _ ⟨-, -, hf⟩
    cases hf with
    | disagree hd =>
      obtain ⟨-, i, x, y, hx, hy, hne⟩ := hd
      exact absurd (Option.some.inj (hx.symm.trans hy)) hne
    | silent hs =>
      obtain ⟨n, ⟨e, he⟩ | ⟨e, he, hnone⟩⟩ := hs
      · obtain ⟨reply, hr⟩ := h.answers n
        rw [he] at hr
        cases hr
      · exact absurd hnone (h.hosts n [e] he e List.mem_cons_self)
    | noStartup hcls hno => exact ⟨fun hc => hc.1 hno, by rw [hcls]; decide⟩
    | uncovered hcls hreq i hi hC => exact ⟨fun hc => hC (hc.2 hreq i hi), by rw [hcls]; decide⟩
    | noPrimary hcls hno =>
      obtain ⟨x, hx, -⟩ := h.owner
      obtain ⟨y, hy, hm⟩ := hno _ (Option.isSome_iff_exists.mpr ⟨x, hx⟩)
      exact absurd ⟨_, hy⟩ hm

/-- The client's table maps the command's slot to `t`. -/
structure Aimed (cluster : Cluster α) (assignment : Int → Option String) (w : RedisCluster)
    (t : ClusterNode) : Prop where
  wf : w.nodes_manager.Wf
  healthy : Healthy cluster assignment w.nodes_manager.toSettings
  maps : w.nodes_manager.Maps cluster.slot t

variable {c : Variant} {w : RedisCluster} {t : ClusterNode}

theorem run_lookup (c : Variant) (slot : Int) (w : RedisCluster) :
    (RedisCluster.getNodeFromSlot c slot).run w =
      match (c.getNodeFromSlot slot false none w.randint).run w.nodes_manager with
      | .ok t nm => .ok t { w with nodes_manager := nm }
      | .error e nm => .error e { w with nodes_manager := nm } := by
  unfold RedisCluster.getNodeFromSlot
  simp only [EStateM.run_bind, EStateM.run_get, run_onManager]
  cases (c.getNodeFromSlot slot false none w.randint).run w.nodes_manager <;> rfl

theorem Aimed.looks (h : Aimed cluster assignment w t) (c : Variant) :
    Looks c cluster w none t w := by
  unfold Looks
  rw [run_lookup, run_getNodeFromSlot c w.randint h.maps]

theorem Aimed.sentTo (h : Aimed cluster assignment w t) (c : Variant) (n : ClusterNode) :
    Aimed cluster assignment (c.sentTo n w) t := by
  cases c with
  | sync => exact ⟨h.wf.same rfl rfl rfl rfl rfl, h.healthy, h.maps⟩
  | asyncio => exact ⟨h.wf, h.healthy, h.maps⟩

@[simp] theorem sent_sentTo (c : Variant) (n : ClusterNode) (w : RedisCluster) :
    (c.sentTo n w).sent = w.sent ++ [n.name] := by
  cases c <;> rfl

/-- The next `MOVED` answer makes the client initialise itself anew. -/
def RedisCluster.Due (w : RedisCluster) : Prop :=
  w.reinitialize_steps ≠ 0 ∧ (w.reinitialize_counter + 1) % w.reinitialize_steps = 0

instance (w : RedisCluster) : Decidable w.Due := inferInstanceAs (Decidable (_ ∧ _))

theorem due_sentTo (c : Variant) (n : ClusterNode) (w : RedisCluster) :
    (c.sentTo n w).Due ↔ w.Due := by
  cases c <;> rfl

theorem run_countMoved (w : RedisCluster) :
    countMoved.run w =
      .ok (decide w.Due) { w with reinitialize_counter := w.reinitialize_counter + 1 } := rfl

/-! ### The table is patched -/

theorem onMoved_patch (c : Variant) (r : Redirect) (hdue : ¬ w.Due) :
    (c.onMoved cluster (movedError r)).run w =
      .ok () { w with
        reinitialize_counter := w.reinitialize_counter + 1
        nodes_manager := { w.nodes_manager with moved_exception := some r } } := by
  unfold Variant.onMoved
  rw [EStateM.run_bind, run_countMoved, decide_eq_false hdue]
  rfl

theorem onMoved_due (c : Variant) (e : Exc) (hdue : w.Due) :
    (c.onMoved cluster e).run w =
      match (c.relearn cluster).run { w with reinitialize_counter := w.reinitialize_counter + 1 } with
      | .ok _ w' => .ok () { w' with reinitialize_counter := 0 }
      | .error e w' => .error e w' := by
  unfold Variant.onMoved
  rw [EStateM.run_bind, run_countMoved, decide_eq_true hdue]
  simp only [if_true, EStateM.run_bind]
  cases (c.relearn cluster).run
    { w with reinitialize_counter := w.reinitialize_counter + 1 } <;> rfl

/-- The patched table leads to the owner. -/
theorem Aimed.patched (h : Aimed cluster assignment w t) (c : Variant) (n : ClusterNode)
    (counter : Nat) :
    ∃ x w', Looks c cluster { w with
        reinitialize_counter := counter
        nodes_manager := { w.nodes_manager with moved_exception := some (cluster.moved n) } }
        none x w' ∧ cluster.owns x.name = true ∧ w'.sent = w.sent := by
  have hslot := h.healthy.moved_slot n
  have hrej : ¬ c.Rejects (cluster.moved n) := by
    rintro ⟨-, hr⟩
    have := h.healthy.moved_addr n
    tauto
  obtain ⟨x, nm', hrun, hname, -⟩ :=
    getNodeFromSlot_redirected c w.randint (hslot ▸ h.maps) hrej
  refine ⟨x, { w with reinitialize_counter := counter, nodes_manager := nm' }, ?_, ?_, rfl⟩
  · unfold Looks
    rw [run_lookup]
    rw [hslot] at hrun
    exact congrArg (fun r => match r with
      | .ok t nm => EStateM.Result.ok t { w with reinitialize_counter := counter, nodes_manager := nm }
      | .error e nm => .error e { w with reinitialize_counter := counter, nodes_manager := nm }) hrun
  · rw [hname]
    exact h.healthy.moved_owner n

/-- One wrong node is asked, then the owner. -/
theorem gives_patched {w₀ : RedisCluster} {given : Option ClusterNode} (ttl : Nat)
    (h : Aimed cluster assignment w t) (hlook : Looks c cluster w₀ given t w)
    (ho : cluster.owns t.name = false) (hdue : ¬ w.Due) :
    ∃ x w', Gives c cluster (ttl + 2) w₀ given (.ok cluster.reply w') ∧ cluster.owns x = true ∧
      w'.sent = w.sent ++ [t.name, x] := by
  obtain ⟨x, w', hlook', hx, hsent⟩ :=
    (h.sentTo c t).patched c t ((c.sentTo t w).reinitialize_counter + 1)
  refine ⟨x.name, c.sentTo x w', gives_moved hlook ho ?_, hx, by simp [hsent]⟩
  rw [onMoved_patch c _ (fun hd => hdue ((due_sentTo c t w).mp hd))]
  exact gives_owner ttl hlook' hx

/-! ### The table is built anew -/

/-- The sync client asks for the topology at once, and then the owner. -/
theorem gives_reinitialized {w₀ : RedisCluster} {given : Option ClusterNode} (ttl : Nat)
    (h : Aimed cluster assignment w t) (hlook : Looks .sync cluster w₀ given t w)
    (ho : cluster.owns t.name = false) (hdue : w.Due) :
    (CanInitialize assignment w.nodes_manager → ∃ x w', Gives .sync cluster (ttl + 2) w₀ given
        (.ok cluster.reply w') ∧ cluster.owns x = true ∧ w'.sent = w.sent ++ [t.name, x]) ∧
      (¬ CanInitialize assignment w.nodes_manager → ∃ e w', Gives .sync cluster (ttl + 2) w₀ given
        (.error e w') ∧ e.cls ∉ ERRORS_ALLOW_RETRY) := by
  have h₁ := h.sentTo .sync t
  have hinit := initialize_healthy .sync h₁.wf h₁.healthy
  have hrun := @onMoved_due _ cluster _ .sync (movedError (cluster.moved t))
    ((due_sentTo .sync t w).mpr hdue)
  simp only [Variant.relearn, run_onManager] at hrun
  have hcan : CanInitialize assignment (Variant.sync.sentTo t w).nodes_manager ↔
    CanInitialize assignment w.nodes_manager := Iff.rfl
  rw [← hcan]
  cases hr : (Sync.NodesManager.initializeNodes cluster.cluster_slots).run
      (Variant.sync.sentTo t w).nodes_manager with
  | ok u nm =>
    rw [Variant.initializeNodes, hr] at hinit
    rw [hr] at hrun
    obtain ⟨hc, hwf, hset, x, hmaps, hx⟩ := hinit
    refine ⟨fun _ => ?_, fun hn => absurd hc hn⟩
    let w₂ : RedisCluster :=
      { Variant.sync.sentTo t w with nodes_manager := nm, reinitialize_counter := 0 }
    have haimed : Aimed cluster assignment w₂ x := ⟨hwf, hset ▸ h₁.healthy, hmaps⟩
    refine ⟨x.name, Variant.sync.sentTo x w₂, gives_moved hlook ho ?_, hx, ?_⟩
    · rw [hrun]
      exact gives_owner ttl (haimed.looks .sync) hx
    · simp [w₂]
  | error e nm =>
    rw [Variant.initializeNodes, hr] at hinit
    rw [hr] at hrun
    refine ⟨fun hc => absurd hc hinit.1, fun _ => ⟨e,
      { Variant.sync.sentTo t w with
        nodes_manager := nm, reinitialize_counter := w.reinitialize_counter + 1 },
      gives_moved hlook ho ?_, hinit.2⟩⟩
    rw [hrun]
    rfl

/-- The asyncio client only notes that it is to be initialised: the table stays. -/
theorem gives_acloses {w₀ : RedisCluster} {given : Option ClusterNode} (ttl : Nat)
    (h : Aimed cluster assignment w t) (hlook : Looks .asyncio cluster w₀ given t w)
    (ho : cluster.owns t.name = false) (hdue : w.Due) :
    ∃ w', Aimed cluster assignment w' t ∧ w'.sent = w.sent ++ [t.name] ∧
      w'.reinitialize_counter = 0 ∧ w'.reinitialize_steps = w.reinitialize_steps ∧
      ∀ r, Gives .asyncio cluster ttl w' none r → Gives .asyncio cluster (ttl + 1) w₀ given r := by
  have h₁ := h.sentTo .asyncio t
  have hrun := @onMoved_due _ cluster _ .asyncio (movedError (cluster.moved t))
    ((due_sentTo .asyncio t w).mpr hdue)
  simp only [Variant.relearn, Asyncio.aclose, EStateM.run_bind, EStateM.run_get] at hrun
  cases hi : (Variant.asyncio.sentTo t w).initialize_ with
  | true =>
    refine ⟨{ Variant.asyncio.sentTo t w with reinitialize_counter := 0, initialize_ := true },
      ⟨h₁.wf, h₁.healthy, h₁.maps⟩, rfl, rfl, rfl, fun r hr => gives_moved hlook ho ?_⟩
    rw [hrun, hi]
    exact hr
  | false =>
    refine ⟨{ Variant.asyncio.sentTo t w with
        reinitialize_counter := 0
        initialize_ := true
        nodes_manager := { w.nodes_manager with default_node := none } },
      ⟨h₁.wf.same rfl rfl rfl rfl rfl, h₁.healthy, h₁.maps⟩, rfl, rfl, rfl,
      fun r hr => gives_moved hlook ho ?_⟩
    rw [hrun, hi]
    exact hr

/-- With `reinitialize_steps = 1` it asks the same wrong node until the rounds are used up. -/
theorem gives_exhausts (ttl : Nat) {w₀ : RedisCluster} {given : Option ClusterNode}
    (h : Aimed cluster assignment w t) (hlook : Looks .asyncio cluster w₀ given t w)
    (ho : cluster.owns t.name = false) (hsteps : w.reinitialize_steps = 1) :
    ∃ w', Gives .asyncio cluster ttl w₀ given
      (.error { cls := .ClusterError, msg := "TTL exhausted." } w') := by
  induction ttl generalizing w w₀ given with
  | zero => exact ⟨w₀, gives_exhausted .asyncio cluster w₀ given⟩
  | succ ttl ih =>
    have hdue : w.Due := by simp [RedisCluster.Due, hsteps, Nat.mod_one]
    obtain ⟨w', h', -, -, hsteps', hr⟩ := gives_acloses ttl h hlook ho hdue
    obtain ⟨w'', hg⟩ := ih h' (h'.looks .asyncio) (hsteps'.trans hsteps)
    exact ⟨w'', hr _ hg⟩

/-! ### The whole command -/

/-- `execute_command` returns the owner's reply, and sends the command to nodes
that do not own the slot twice at most. -/
def Converges (c : Variant) (cluster : Cluster α) (w : RedisCluster) : Prop :=
  ∃ w' asked, (c.executeCommand cluster).run w = .ok cluster.reply w' ∧ w'.sent = w.sent ++ asked ∧
    (asked.filter (fun x => !cluster.owns x)).length ≤ 2

/-- When it does so, `t` being the node that the lookup of the slot finds and `nm`
the topology that it leaves: the node owns the slot, or the client does not
initialise itself anew on the first `MOVED`, or that succeeds. The asyncio client
patches its table on the second `MOVED`, unless every one is due; one that is
still to be initialised must be able to. -/
def ConvergesWhen (c : Variant) (cluster : Cluster α) (assignment : Int → Option String)
    (w : RedisCluster) (t : ClusterNode) (nm : NodesManager) : Prop :=
  match c with
  | .sync => cluster.owns t.name = true ∨ ¬ w.Due ∨ CanInitialize assignment nm
  | .asyncio =>
    if w.initialize_ then CanInitialize assignment w.nodes_manager
    else cluster.owns t.name = true ∨ w.reinitialize_steps ≠ 1

theorem Converges.of_run {w' : RedisCluster} {asked : List String}
    (h : (c.executeCommand cluster).run w = .ok cluster.reply w') (hs : w'.sent = w.sent ++ asked)
    (ha : (asked.filter (fun x => !cluster.owns x)).length ≤ 2) : Converges c cluster w :=
  ⟨w', asked, h, hs, ha⟩

theorem not_converges_of_error {e : Exc} {w' : RedisCluster}
    (h : (c.executeCommand cluster).run w = .error e w') : ¬ Converges c cluster w := by
  rintro ⟨w'', asked, hok, -⟩
  rw [h] at hok
  cases hok

/-- The client that is initialised. -/
theorem converges_iff_of_initialized {w₁ : RedisCluster} (hinit : c = .asyncio → w.initialize_ = false)
    (hlook : (RedisCluster.getNodeFromSlot c cluster.slot).run w = .ok t w₁)
    (h : Aimed cluster assignment w₁ t) (hsent : w₁.sent = w.sent) (hdue : w₁.Due ↔ w.Due)
    (hsteps : w₁.reinitialize_steps = w.reinitialize_steps) :
    Converges c cluster w ↔ ConvergesWhen c cluster assignment w t w₁.nodes_manager := by
  have hgiven : Looks c cluster w₁ (some t) t w₁ := ⟨rfl, rfl⟩
  have ok : ∀ {w'} asked, Gives c cluster RedisClusterRequestTTL w₁ (some t) (.ok cluster.reply w') →
      w'.sent = w₁.sent ++ asked → (asked.filter (fun x => !cluster.owns x)).length ≤ 2 →
      Converges c cluster w := fun _ hg hs ha =>
    .of_run (executeCommand_of_gives hinit hlook hg (by simp)) (hsent ▸ hs) ha
  have failed : ∀ {e w'}, Gives c cluster RedisClusterRequestTTL w₁ (some t) (.error e w') →
      e.cls ∉ ERRORS_ALLOW_RETRY → ¬ Converges c cluster w := fun hg he =>
    not_converges_of_error (executeCommand_of_gives hinit hlook hg fun _ _ h => by
      cases h
      exact he)
  cases ho : cluster.owns t.name with
  | true =>
    have hconv : Converges c cluster w :=
      ok [t.name] (gives_owner 15 hgiven ho) (sent_sentTo c t w₁) (by simp [ho])
    refine ⟨fun _ => ?_, fun _ => hconv⟩
    cases c with
    | sync => exact .inl ho
    | asyncio =>
      rw [ConvergesWhen, if_neg (by simp [hinit rfl])]
      exact .inl ho
  | false =>
    by_cases hd : w.Due
    · cases c with
      | sync =>
        obtain ⟨hok, herr⟩ := gives_reinitialized 14 h hgiven ho (hdue.mpr hd)
        by_cases hc : CanInitialize assignment w₁.nodes_manager
        · obtain ⟨x, w', hg, hx, hs⟩ := hok hc
          exact ⟨fun _ => .inr (.inr hc), fun _ => ok [t.name, x] hg hs (by simp [ho, hx])⟩
        · obtain ⟨e, w', hg, he⟩ := herr hc
          exact ⟨fun hconv => absurd hconv (failed hg he), fun hw => by
            simp [ConvergesWhen, ho, hd, hc] at hw⟩
      | asyncio =>
        rw [ConvergesWhen, if_neg (by simp [hinit rfl]), ho]
        by_cases hone : w.reinitialize_steps = 1
        · obtain ⟨w', hg⟩ := gives_exhausts RedisClusterRequestTTL h hgiven ho (hsteps.trans hone)
          exact ⟨fun hconv => absurd hconv (failed hg (by decide)), fun hw => by simp [hone] at hw⟩
        · obtain ⟨w', h', hs', hcount, hsteps', hr⟩ := gives_acloses 15 h hgiven ho (hdue.mpr hd)
          -- the counter starts again, so the second answer is not due
          have hnot : ¬ w'.Due := by
            rintro ⟨hne, hmod⟩
            rw [hcount, hsteps', hsteps] at hmod
            have : w.reinitialize_steps ∣ 1 := Nat.dvd_of_mod_eq_zero hmod
            exact hone (Nat.dvd_one.mp this)
          obtain ⟨x, w'', hg, hx, hs⟩ := gives_patched 13 h' (h'.looks .asyncio) ho hnot
          refine ⟨fun _ => .inr hone, fun _ => ok [t.name, t.name, x] (hr _ hg) ?_ ?_⟩
          · simp [hs, hs']
          · simp [ho, hx]
    · obtain ⟨x, w', hg, hx, hs⟩ := gives_patched 14 h hgiven ho fun hd' => hd (hdue.mp hd')
      have hconv : Converges c cluster w := ok [t.name, x] hg hs (by simp [ho, hx])
      refine ⟨fun _ => ?_, fun _ => hconv⟩
      cases c with
      | sync => exact .inr (.inl hd)
      | asyncio =>
        rw [ConvergesWhen, if_neg (by simp [hinit rfl])]
        refine .inr fun hone => hd ?_
        simp [RedisCluster.Due, hone, Nat.mod_one]

/-- Against a cluster that answers truthfully, `execute_command` of a command whose
slot the client's topology maps to some node converges exactly under this condition. -/
theorem executeCommand_converges_iff (c : Variant) (cluster : Cluster α)
    (assignment : Int → Option String) (w w₁ : RedisCluster) (t : ClusterNode)
    (hwf : w.nodes_manager.Wf) (h : Healthy cluster assignment w.nodes_manager.toSettings)
    (hmap : (RedisCluster.getNodeFromSlot c cluster.slot).run w = .ok t w₁) :
    Converges c cluster w ↔ ConvergesWhen c cluster assignment w t w₁.nodes_manager := by
  by_cases hinit : c = .asyncio ∧ w.initialize_ = true
  · obtain ⟨rfl, hi⟩ := hinit
    rw [ConvergesWhen, if_pos hi]
    have hrun := executeCommand_initialize cluster w hi
    have hspec := initialize_healthy .asyncio hwf h
    rw [Variant.initializeNodes] at hspec
    cases hr : (Asyncio.NodesManager.initializeNodes cluster.cluster_slots).run w.nodes_manager with
    | ok u nm =>
      rw [hr] at hrun hspec
      obtain ⟨hc, hwf', hset, t', hmaps, ho⟩ := hspec
      have ha : Aimed cluster assignment { w with nodes_manager := nm, initialize_ := false } t' :=
        ⟨hwf', hset ▸ h, hmaps⟩
      refine ⟨fun _ => hc, fun _ => .of_run (hrun.trans
        (executeCommand_of_gives (fun _ => rfl) (ha.looks .asyncio)
          (gives_owner 15 ⟨rfl, rfl⟩ ho) (by simp))) (sent_sentTo _ _ _) (by simp [ho])⟩
    | error e nm =>
      rw [hr] at hrun hspec
      obtain ⟨w', hrun⟩ := hrun
      exact ⟨fun hconv => absurd hconv (not_converges_of_error hrun), fun hc => absurd hc hspec.1⟩
  · have hinit' : c = .asyncio → w.initialize_ = false := fun hc => by
      simpa using fun hi => hinit ⟨hc, hi⟩
    have hmap' := hmap
    rw [run_lookup] at hmap'
    cases hr : (c.getNodeFromSlot cluster.slot false none w.randint).run w.nodes_manager with
    | error e nm =>
      rw [hr] at hmap'
      cases hmap'
    | ok t' nm =>
      rw [hr] at hmap'
      obtain ⟨rfl, rfl⟩ : t' = t ∧ { w with nodes_manager := nm } = w₁ := by simpa using hmap'
      obtain ⟨ha, hmaps⟩ := maps_of_getNodeFromSlot hr
      exact converges_iff_of_initialized hinit' hmap ⟨ha.wf hwf, ha.settings ▸ h, hmaps⟩ rfl Iff.rfl
        rfl

end

/-! ### A shard that has failed over -/

/-- The replica of `oneShard` has become its primary. -/
def failedOverRange : SlotRange :=
  { start := 0, stop := 1, primary := ("10.0.0.2", 7000), replicas := [("10.0.0.1", 7000)] }

def failedOver : Cluster String where
  args := "('GET', 'k')"
  slot := 0
  owns name := name = "10.0.0.2:7000"
  reply := "v"
  moved _ := ⟨0, "10.0.0.2", 7000⟩
  asking := "OK"
  cluster_slots _ := .ok [failedOverRange]

def failedOverPrimary (i : Int) : Option String :=
  if i = 0 ∨ i = 1 then some "10.0.0.2:7000" else none

theorem mem_slotsOf_failedOver {i : Int} : i ∈ slotsOf failedOverRange ↔ i = 0 ∨ i = 1 := by
  rw [show slotsOf failedOverRange = [0, 1] by decide]
  simp

theorem failedOver_healthy : Healthy failedOver failedOverPrimary {} where
  moved_slot _ := rfl
  moved_addr _ := (by decide : "10.0.0.2" ≠ "" ∧ (7000 : Int) ≠ 0)
  moved_owner _ := (by decide +kernel : failedOver.owns (getNodeName "10.0.0.2" 7000) = true)
  answers _ := ⟨_, rfl⟩
  hosts n reply hr e he := by
    obtain rfl : [failedOverRange] = reply := Except.ok.inj hr
    obtain rfl := List.mem_singleton.mp he
    exact Option.some_ne_none _
  primaries n reply hr e he i hi := by
    obtain rfl : [failedOverRange] = reply := Except.ok.inj hr
    obtain rfl := List.mem_singleton.mp he
    rw [failedOverPrimary, if_pos (mem_slotsOf_failedOver.mp hi)]
    exact congrArg some (by decide +kernel : "10.0.0.2:7000" = getNodeName "10.0.0.2" 7000)
  replicas n reply hr e he a ha i := by
    obtain rfl : [failedOverRange] = reply := Except.ok.inj hr
    obtain rfl := List.mem_singleton.mp he
    obtain rfl : a = (some "10.0.0.1", 7000) := List.mem_singleton.mp ha
    rw [failedOverPrimary]
    split
    · exact fun h => absurd (Option.some.inj h) (by decide +kernel)
    · simp
  covers n reply hr i hi := by
    obtain rfl : [failedOverRange] = reply := Except.ok.inj hr
    refine ⟨failedOverRange, by simp, mem_slotsOf_failedOver.mpr ?_⟩
    by_contra h
    rw [failedOverPrimary, if_neg h] at hi
    cases hi
  owner := ⟨"10.0.0.2:7000", by decide, by decide⟩

/-- A client that knows the shard as it was before. -/
def staleClient (c : Variant) (steps : Nat) : RedisCluster :=
  { nodes_manager := shardManager c, reinitialize_steps := steps }

theorem failedOver_not_converges :
    Healthy failedOver failedOverPrimary (staleClient .asyncio 1).nodes_manager.toSettings ∧
      (∃ t w₁, (RedisCluster.getNodeFromSlot .asyncio 0).run (staleClient .asyncio 1) = .ok t w₁) ∧
      ¬ Converges .asyncio failedOver (staleClient .asyncio 1) := by
  refine ⟨failedOver_healthy, exists_ok_of_isOk (by decide +kernel), ?_⟩
  rintro ⟨w', asked, hrun, -⟩
  have : isOk ((Variant.asyncio.executeCommand failedOver).run (staleClient .asyncio 1)) = false := by
    decide +kernel
  rw [hrun] at this
  cases this

theorem executeCommand_converges_failedOver :
    Converges .asyncio failedOver (staleClient .asyncio 5) := by
  obtain ⟨t, w₁, hmap⟩ : ∃ t w₁, (RedisCluster.getNodeFromSlot .asyncio failedOver.slot).run
    (staleClient .asyncio 5) = .ok t w₁ := exists_ok_of_isOk (by decide +kernel)
  exact (executeCommand_converges_iff .asyncio failedOver failedOverPrimary (staleClient .asyncio 5)
    w₁ t (reachable_wf (shardManager_reachable .asyncio)) failedOver_healthy hmap).mpr
    (.inr (by decide))

end RedisPy
