import RedisPy.Proofs.AtomicInitialize
import RedisPy.Proofs.PendingRedirects
import RedisPy.Proofs.StartupNodes

/-! Whether the slot table and the default node of the sync client speak of nodes in
`nodes_cache` alone, over redirections, failed connections and new topologies. -/

namespace RedisPy

open NodesManager Raising Course

/-- Every node that the topology speaks of is in `nodes_cache`, under its own name. -/
structure NodesManager.Consistent (nm : NodesManager) : Prop where
  slots_cache : ∀ i nodes, nm.slotNodes i = some nodes → ∀ n ∈ nodes, n.name ∈ nm.nodesCache.keys
  default_node : ∀ n, nm.default_node = some n → n.name ∈ nm.nodesCache.keys

/-- Each slot that is covered has a primary at its head. -/
def NodesManager.HeadsPrimary (nm : NodesManager) : Prop :=
  ∀ i nodes, nm.slotNodes i = some nodes →
    ∃ h tl, nodes = h :: tl ∧ nm.server_type h = some .PRIMARY

/-! ### Redirections -/

/-- Nodes may have come to `nodes_cache`; the rest of the topology is as it was. -/
structure Grown (nm nm' : NodesManager) : Prop where
  keys : ∀ k ∈ nm.nodesCache.keys, k ∈ nm'.nodesCache.keys
  slots : ∀ i, nm'.slotNodes i = nm.slotNodes i
  default_node : nm'.default_node = nm.default_node

theorem Grown.consistent {nm nm' : NodesManager} (h : Grown nm nm') (hc : nm.Consistent) :
    nm'.Consistent where
  slots_cache i nodes hi n hn := h.keys _ (hc.slots_cache i nodes (h.slots i ▸ hi) n hn)
  default_node n hn := h.keys _ (hc.default_node n (h.default_node ▸ hn))

theorem redirectedNode_grown (nm : NodesManager) (e : Redirect) :
    ∃ x nm₁, (redirectedNode Variant.sync.getNode Variant.sync.addNode e).run nm = .ok x nm₁ ∧
      Grown nm nm₁ ∧ x.name ∈ nm₁.nodesCache.keys := by
  have hrej : ¬ Variant.sync.Rejects e := fun h => nomatch h.1
  cases hk : nm.knownNode e with
  | some x =>
    have hmem : x.name ∈ nm.nodesCache.keys := by
      unfold NodesManager.knownNode at hk
      split at hk
      · exact List.mem_map_of_mem (Keyed.mem_of_get? hk)
      · cases hk
    by_cases ht : nm.server_type x = some .PRIMARY
    · refine ⟨x, nm, ?_, ⟨fun _ h => h, fun _ => rfl, rfl⟩, hmem⟩
      simp [redirectedNode, run_getNode .sync nm e hrej, hk, ht]
    · refine ⟨x, { nm with server_type := Function.update nm.server_type x (some .PRIMARY) }, ?_,
        ⟨fun _ h => h, fun _ => rfl, rfl⟩, hmem⟩
      simp [redirectedNode, run_getNode .sync nm e hrej, hk, ht, setServerType]
  | none =>
    obtain ⟨x, nm₁, hrun, hold, hslots, hdefault⟩ : ∃ x nm₁,
        (newClusterNode e.host e.port .PRIMARY).run nm = .ok x nm₁ ∧
          nm₁.nodesCache = nm.nodesCache ∧ (∀ i, nm₁.slotNodes i = nm.slotNodes i) ∧
          nm₁.default_node = nm.default_node := ⟨_, _, rfl, rfl, fun _ => rfl, rfl⟩
    obtain ⟨nm₂, hadd, hcache, hslots', hdefault'⟩ : ∃ nm₂,
        (Variant.sync.addNode x).run nm₁ = .ok () nm₂ ∧
          nm₂.nodesCache = nm.nodesCache.put x ∧ (∀ i, nm₂.slotNodes i = nm.slotNodes i) ∧
          nm₂.default_node = nm.default_node :=
      ⟨_, rfl, (Heap.read_write_self ..).trans (congrArg (Keyed.put · x) hold), hslots, hdefault⟩
    refine ⟨x, nm₂, ?_, ⟨fun k hk => ?_, hslots', hdefault'⟩, ?_⟩
    · simp only [redirectedNode, EStateM.run_bind, run_getNode .sync nm e hrej, hk, hrun, hadd,
        EStateM.run_pure]
    · rw [hcache]
      exact Keyed.mem_keys_put.mpr (.inr hk)
    · rw [hcache]
      exact Keyed.mem_keys_put.mpr (.inl rfl)

theorem slotNodes_rewritten {nm : NodesManager} {r : Ref} {l nodes : List ClusterNode} {i : Int}
    (h : NodesManager.slotNodes { nm with lists := nm.lists.write r l } i = some nodes) :
    nm.slotNodes i = some nodes ∨ nodes = l ∧ nm.slotNodes i = some (nm.lists.read r) := by
  obtain ⟨entry, hget, rfl⟩ := Option.map_eq_some_iff.mp h
  unfold slotNodes
  rw [show nm.slots_cache.get? i = some entry from hget]
  by_cases hr : entry.2 = r
  · refine .inr ⟨?_, congrArg (fun r' => some (nm.lists.read r')) hr⟩
    rw [hr]
    exact Heap.read_write_self ..
  · exact .inl (congrArg some (Heap.read_write_ne _ _ hr).symm)

/-- The list that is edited holds no node but its own and the one redirected to. -/
theorem failover_consistent (nm : NodesManager) (r : Ref) (x : ClusterNode) (hc : nm.Consistent)
    (hx : x.name ∈ nm.nodesCache.keys) :
    Post ((failover r x).run nm) (fun _ nm' => nm'.Consistent) (fun _ nm' => nm'.Consistent) := by
  unfold failover
  apply Post.get_bind
  apply Post.bind (Q := fun p nm' => nm' = nm ∧ p ∈ nm.lists.read r)
  · unfold item
    split
    · rename_i p hp
      exact ⟨rfl, List.mem_of_getElem? hp⟩
    · exact hc
  intro p nm₁ ⟨hnm₁, hp⟩
  rw [hnm₁]
  apply Post.bind (Q := fun _ nm₂ => nm₂.Consistent ∧ nm₂.nodesCache = nm.nodesCache ∧
    nm₂.lists = nm.lists)
  · exact Post.modify ⟨⟨hc.slots_cache, hc.default_node⟩, rfl, rfl⟩
  intro _ nm₂ ⟨hc₂, hcache, hlists⟩
  have hx₂ : x.name ∈ nm₂.nodesCache.keys := hcache ▸ hx
  apply Post.bind (Q := fun _ nm₃ => nm₃.Consistent ∧ x.name ∈ nm₃.nodesCache.keys)
  · apply Post.modify
    refine ⟨⟨fun i nodes hi n hn => ?_, hc₂.default_node⟩, hx₂⟩
    rcases slotNodes_rewritten hi with hold | ⟨rfl, hold⟩
    · exact hc₂.slots_cache i nodes hold n hn
    · rw [← hlists] at hn hp
      rcases List.mem_or_eq_of_mem_set hn with hmem | rfl
      · rcases List.mem_append.mp (List.mem_of_mem_eraseP hmem) with hmem | hmem
        · exact hc₂.slots_cache i _ hold n hmem
        · rw [List.mem_singleton.mp hmem]
          exact hc₂.slots_cache i _ hold p hp
      · exact hx₂
  intro _ nm₃ ⟨hc₃, hx₃⟩
  apply Post.get_bind
  apply Post.ite
  · intro _
    refine Post.modify ⟨hc₃.slots_cache, fun n hn => ?_⟩
    obtain rfl := Option.some.inj hn
    exact hx₃
  · exact fun _ => hc₃

theorem replaceNodes_consistent (nm : NodesManager) (slot : Int) (x : ClusterNode) (hwf : nm.Wf)
    (hc : nm.Consistent) (hx : x.name ∈ nm.nodesCache.keys) :
    Post ((replaceNodes slot x).run nm) (fun _ nm' => nm'.Consistent)
      (fun _ nm' => nm'.Consistent) := by
  apply Post.modify
  refine ⟨fun i nodes hi n hn => ?_, hc.default_node⟩
  simp only [slotNodes, Keyed.get?_put] at hi
  split at hi
  · simp only [Heap.alloc_fst, Option.map_some, Heap.read_alloc_self, Option.some.injEq] at hi
    rw [← hi] at hn
    rw [List.mem_singleton.mp hn]
    exact hx
  · obtain ⟨entry, hget, rfl⟩ := Option.map_eq_some_iff.mp hi
    rw [Heap.read_alloc_of_lt _ _ (hwf.slots entry (Keyed.mem_of_get? hget))] at hn
    exact hc.slots_cache i _ (by rw [slotNodes, hget]; rfl) n hn

theorem updateMovedSlots_consistent (nm : NodesManager) (hwf : nm.Wf) (hc : nm.Consistent) :
    (state (Variant.sync.updateMovedSlots.run nm)).Consistent := by
  rw [updateMovedSlots_eq]
  apply Post.state
  unfold NodesManager.updateMovedSlots
  apply Post.get_bind
  split
  · exact hc
  · rename_i e _
    obtain ⟨x, nm₁, hrun, hgrown, hx⟩ := redirectedNode_grown nm e
    have hc₁ := hgrown.consistent hc
    have hwf₁ : nm₁.Wf := by
      obtain ⟨x', nm', hrun', hx'⟩ := redirectedNode_spec .sync nm e fun h => nomatch h.1
      obtain ⟨-, rfl⟩ := EStateM.Result.ok.inj (hrun.symm.trans hrun')
      exact hx'.wf hwf
    simp only [EStateM.run_bind, hrun]
    change Post ((slotRef e.slot_id >>= _).run nm₁) _ _
    apply Post.bind (Q := fun _ nm₂ => nm₂ = nm₁)
    · unfold slotRef
      apply Post.get_bind
      split
      · exact rfl
      · exact hc₁
    intro r nm₂ hnm₂
    rw [hnm₂]
    apply Post.get_bind
    have hdone : ∀ nm₃ : NodesManager, nm₃.Consistent →
        NodesManager.Consistent { nm₃ with moved_exception := none } :=
      fun _ h => ⟨h.slots_cache, h.default_node⟩
    apply Post.ite
    · exact fun _ => Post.bind (failover_consistent nm₁ r x hc₁ hx) fun _ nm₃ h₃ =>
        Post.modify (hdone nm₃ h₃)
    · exact fun _ => Post.bind (replaceNodes_consistent nm₁ e.slot_id x hwf₁ hc₁ hx)
        fun _ nm₃ h₃ => Post.modify (hdone nm₃ h₃)

theorem getNodeFromSlot_consistent (nm : NodesManager) (slot : Int) (read_from_replicas : Bool)
    (server_type : Option ServerType) (randint : Nat → Nat → Nat) (hwf : nm.Wf)
    (hc : nm.Consistent) :
    (state ((Variant.sync.getNodeFromSlot slot read_from_replicas server_type randint).run
      nm)).Consistent := by
  have hmoved : Keeps (fun nm => nm.Wf ∧ nm.Consistent) (applyMoved Variant.sync.updateMovedSlots) := by
    refine Keeps.bind Keeps.get fun _ => Keeps.ite (fun nm₁ h => ?_) (Keeps.pure _)
    have hwf₁ := updateMovedSlots_wf .sync nm₁ h.1
    have hc₁ := updateMovedSlots_consistent nm₁ h.1 h.2
    cases hr : Variant.sync.updateMovedSlots.run nm₁ with
    | ok _ nm' => exact ⟨by rwa [hr] at hwf₁, by rwa [hr] at hc₁⟩
    | error _ nm' => exact ⟨by rwa [hr] at hwf₁, by rwa [hr] at hc₁⟩
  exact (getNodeFromSlot_keeps .sync slot read_from_replicas server_type randint hmoved
    (fun _ _ h => ⟨h.1.same rfl rfl rfl rfl rfl, h.2.slots_cache, h.2.default_node⟩) nm
      ⟨hwf, hc⟩).state.2

/-! ### New topologies -/

def Verdict.Refused (strict : Bool) : Verdict → Prop
  | .raised => True
  | .nameless _ => True
  | .disagreed _ => True
  | .surveyed _ reachable fully_covered =>
    reachable = false ∨ fully_covered = false ∧ strict = true

/-- No slot gets a primary that was first announced as a replica. If no node is announced
as a primary at all, the default node is at least announced. -/
def Verdict.Leads (default_node : Option ClusterNode) : Verdict → Prop
  | .surveyed s _ _ =>
    ((∃ name, (name, ServerType.PRIMARY) ∈ s.roles.items) →
        ∀ i, Survey.headRole s.leads i ≠ some .REPLICA) ∧
      ((¬ ∃ name, (name, ServerType.PRIMARY) ∈ s.roles.items) →
        ∀ n, default_node = some n → n.name ∈ s.roles.keys)
  | _ => True

/-- How an `initialize` comes out. -/
structure Settles (nm : NodesManager) (v : Verdict)
    (r : EStateM.Result Exc NodesManager Unit) : Prop where
  refused : v.Refused nm.require_full_coverage →
    isOk r = false ∧ ((state r).Consistent ↔ nm.Consistent)
  installed : ¬ v.Refused nm.require_full_coverage →
    ((state r).Consistent ∧ (isOk r = true → (state r).HeadsPrimary) ↔ v.Leads nm.default_node)

/-- The heads have the roles that the survey notes. -/
theorem Surveyed.headsPrimary_iff {nm nm₁ nm' : NodesManager} {tmp : Tmp} {s : Survey}
    (h : Surveyed nm nm₁ tmp s) (hslots : ∀ i, nm'.slotNodes i = slotList nm₁ tmp i)
    (hst : nm'.server_type = nm₁.server_type) :
    nm'.HeadsPrimary ↔ ∀ i, Survey.headRole s.leads i ≠ some .REPLICA := by
  constructor
  · intro hp i hrole
    have hhead := h.heads i
    rw [hrole] at hhead
    obtain ⟨m, hm, ht⟩ := Option.map_eq_some_iff.mp hhead
    obtain ⟨nodes, hl, hm⟩ := Option.bind_eq_some_iff.mp hm
    obtain ⟨p, tl, rfl, ht'⟩ := hp i nodes ((hslots i).trans hl)
    obtain rfl : p = m := Option.some.inj hm
    rw [hst, ht] at ht'
    cases ht'
  · intro hne i nodes hi
    rw [hslots] at hi
    obtain ⟨p, tl, rfl⟩ := h.exists_cons hi
    have hhead := h.heads i
    rw [slotHead, hi] at hhead
    obtain ⟨role, hrole, ht⟩ := Option.map_eq_some_iff.mp hhead.symm
    refine ⟨p, tl, rfl, ?_⟩
    rw [hst, ← ht]
    cases role with
    | PRIMARY => rfl
    | REPLICA => exact absurd hrole (hne i)

theorem initializeNodes_settles (nm : NodesManager) (cluster_slots : ClusterSlots) (hwf : nm.Wf) :
    Settles nm (nm.surveys cluster_slots)
      ((Variant.sync.initializeNodes cluster_slots).run nm) := by
  have hconc := initializeNodes_concluded cluster_slots nm hwf
  have hkeep := initializeNodes_untouched (untouched_default nm.default_node) .sync cluster_slots nm
    hwf rfl
  have hsame : ∀ nm', Extends nm nm' ∧ nm'.default_node = nm.default_node →
      (nm'.Consistent ↔ nm.Consistent) := by
    rintro nm' ⟨hext, hd⟩
    constructor
    · exact fun hc => ⟨fun i nodes hi n hn => hext.nodesCache ▸
        hc.slots_cache i nodes ((hext.slotNodes hwf i).trans hi) n hn,
        fun n hn => hext.nodesCache ▸ hc.default_node n (hd.trans hn)⟩
    · exact fun hc => ⟨fun i nodes hi n hn => hext.nodesCache.symm ▸
        hc.slots_cache i nodes ((hext.slotNodes hwf i).symm.trans hi) n hn,
        fun n hn => hext.nodesCache.symm ▸ hc.default_node n (hd.symm.trans hn)⟩
  generalize nm.surveys cluster_slots = v at hconc ⊢
  generalize (Variant.sync.initializeNodes cluster_slots).run nm = r at hconc hkeep ⊢
  have hrefused : ∀ {err : Exc} {nm' : NodesManager}, err.cls ≠ .IndexError →
      (err.cls = .IndexError ∨ Extends nm nm' ∧ nm'.default_node = nm.default_node) →
      (nm'.Consistent ↔ nm.Consistent) := fun hcls h => hsame _ (h.resolve_left hcls)
  cases hconc with
  | @raised err nm' h =>
    refine ⟨fun _ => ⟨rfl, hrefused (fun hcls => ?_) hkeep⟩, fun h => absurd trivial h⟩
    rw [Exc.isinstance, hcls] at h
    exact absurd h (by decide)
  | nameless hcls h =>
    exact ⟨fun _ => ⟨rfl, hrefused (by rw [hcls]; decide) hkeep⟩, fun h => absurd trivial h⟩
  | disagreed hcls h =>
    exact ⟨fun _ => ⟨rfl, hrefused (by rw [hcls]; decide) hkeep⟩, fun h => absurd trivial h⟩
  | refused hr hcls h hc =>
    exact ⟨fun _ => ⟨rfl, hrefused (by rw [hcls]; decide) hkeep⟩, fun h => absurd hr h⟩
  | @installs s reachable fully_covered tmp nm₁ nm' hr h hc hdefault =>
    refine ⟨fun h => absurd h hr, fun _ => ?_⟩
    have hwf' := (h.announced.ext.trans hc.ext).wf hwf
    have hinstall := (install_spec .sync nm' tmp hwf' (h.building.connected hc)).and
      (install_tables nm' tmp.nodes tmp.slots)
    change Post ((Sync.NodesManager.install tmp.nodes tmp.slots).run nm') _ _ at hinstall
    have hslots : ∀ nm'' : NodesManager, Installed nm' nm'' tmp → nm''.nodesCache = tmp.nodes →
        ∀ i nodes, nm''.slotNodes i = some nodes → ∀ n ∈ nodes, n.name ∈ nm''.nodesCache.keys := by
      intro nm'' hi hcache i nodes hnodes n hn
      rw [hcache]
      exact (h.announced.keys _).mpr (h.listed i nodes ((h.slotNodes hc hi i).symm.trans hnodes) n hn)
    unfold Verdict.Leads
    dsimp only
    rw [← h.announced.primary_iff]
    cases hrun : (Sync.NodesManager.install tmp.nodes tmp.slots).run nm' with
    | ok _ nm'' =>
      rw [hrun] at hinstall
      obtain ⟨⟨hi, -⟩, hcache, n, hn, hd, ht⟩ := hinstall
      rw [hc.server_type] at ht
      have hheads := h.headsPrimary_iff (h.slotNodes hc hi)
        (hi.server_type.trans hc.server_type)
      constructor
      · exact fun hall => ⟨fun _ => hheads.mp (hall.2 rfl), fun hno => absurd ⟨n, hn, ht⟩ hno⟩
      · rintro ⟨hlead, -⟩
        refine ⟨⟨hslots nm'' hi hcache, fun m hm => ?_⟩, fun _ => hheads.mpr (hlead ⟨n, hn, ht⟩)⟩
        obtain rfl : n = m := Option.some.inj (hd.symm.trans hm)
        rw [show (state (EStateM.Result.ok () nm'' : EStateM.Result Exc NodesManager Unit)).nodesCache
          = tmp.nodes from hcache]
        exact List.mem_map_of_mem hn
    | error err nm'' =>
      rw [hrun] at hinstall
      obtain ⟨⟨hi, -, hno⟩, hcache, hd⟩ := hinstall
      have hcache' : (state (EStateM.Result.error err nm'' :
        EStateM.Result Exc NodesManager Unit)).nodesCache = tmp.nodes := hcache
      have hno' : ¬ ∃ n ∈ tmp.nodes.items, nm₁.server_type n = some .PRIMARY := by
        rintro ⟨n, hn, ht⟩
        exact hno n hn (hc.server_type.symm ▸ ht)
      constructor
      · rintro ⟨hcons, -⟩
        refine ⟨fun hex => absurd hex hno', fun _ n hn => ?_⟩
        have hkey := hcons.default_node n ((hd.trans hdefault).trans hn)
        rw [hcache'] at hkey
        exact (h.announced.keys _).mp hkey
      · rintro ⟨-, hlisted⟩
        refine ⟨⟨hslots nm'' hi hcache, fun n hn => ?_⟩, fun hok => by cases hok⟩
        rw [hcache']
        exact (h.announced.keys _).mpr (hlisted hno' n (hdefault.symm.trans (hd.symm.trans hn)))

/-! ### A whole course -/

/-- The slot table or the default node speaks of a node of that name. -/
def NodesManager.SpeaksOf (nm : NodesManager) (name : String) : Prop :=
  (∃ i nodes, nm.slotNodes i = some nodes ∧ ∃ n ∈ nodes, n.name = name) ∨
    ∃ n, nm.default_node = some n ∧ n.name = name

/-- The state in which a failed connection has the topology asked for. -/
def NodesManager.dropped (nm : NodesManager) (target_node : ClusterNode) : NodesManager :=
  state ((do popStartupNode target_node.name; dropRedisConnection target_node : M Unit).run nm)

namespace TopologyCall

/-- The topology is consistent after the call, and a new one has its primaries at the heads. -/
def Sound (nm : NodesManager) (call : TopologyCall) : Prop :=
  (call.step .sync nm).Consistent ∧
    match call with
    | initializeClient _ _ | connectionFailed _ _ =>
      isOk ((call.run .sync).run nm) = true → (call.step .sync nm).HeadsPrimary
    | _ => True

/-- A new topology that is not refused has its primaries announced as such first. Where it
is refused after a failed connection, and the startup nodes are `nodes_cache` itself, the
topology does not speak of the node that has been dropped. -/
def Keeps (nm : NodesManager) : TopologyCall → Prop
  | initializeClient cluster_slots _ =>
    ¬ (nm.surveys cluster_slots).Refused nm.require_full_coverage →
      (nm.surveys cluster_slots).Leads nm.default_node
  | connectionFailed target_node cluster_slots =>
    let v := (nm.dropped target_node).surveys cluster_slots
    (v.Refused nm.require_full_coverage →
        nm.startup_nodes = nm.nodes_cache → ¬ nm.SpeaksOf target_node.name) ∧
      (¬ v.Refused nm.require_full_coverage → v.Leads nm.default_node)
  | _ => True

end TopologyCall

theorem dropped_wf {nm : NodesManager} (target_node : ClusterNode) (hwf : nm.Wf) :
    (nm.dropped target_node).Wf :=
  (popStartupNode_wf target_node.name hwf).same rfl rfl rfl rfl rfl

theorem nodesCache_dropped (nm : NodesManager) (target_node : ClusterNode) :
    (nm.dropped target_node).nodesCache =
      if nm.startup_nodes = nm.nodes_cache then nm.nodesCache.erase target_node.name
      else nm.nodesCache := by
  change (nm.dicts.write nm.startup_nodes (nm.startupNodes.erase target_node.name)).read
    nm.nodes_cache = _
  split
  · rename_i h
    rw [startupNodes, h, Heap.read_write_self, nodesCache]
  · rename_i h
    exact Heap.read_write_ne _ _ fun he => h he.symm

/-- The node that is dropped goes from `nodes_cache` too, if that is the same dictionary. -/
theorem dropped_consistent_iff {nm : NodesManager} (target_node : ClusterNode)
    (hc : nm.Consistent) :
    (nm.dropped target_node).Consistent ↔
      (nm.startup_nodes = nm.nodes_cache → ¬ nm.SpeaksOf target_node.name) := by
  have hcache := nodesCache_dropped nm target_node
  by_cases hsame : nm.startup_nodes = nm.nodes_cache
  · rw [if_pos hsame] at hcache
    have hkeys : ∀ n : ClusterNode, n.name ∈ (nm.dropped target_node).nodesCache.keys ↔
        n.name ∈ nm.nodesCache.keys ∧ n.name ≠ target_node.name := by
      intro n
      rw [hcache]
      exact Keyed.mem_keys_erase
    constructor
    · rintro hd - (⟨i, nodes, hi, n, hn, hname⟩ | ⟨n, hn, hname⟩)
      · exact ((hkeys n).mp (hd.slots_cache i nodes hi n hn)).2 hname
      · exact ((hkeys n).mp (hd.default_node n hn)).2 hname
    · intro hno
      refine ⟨fun i nodes hi n hn => (hkeys n).mpr ⟨hc.slots_cache i nodes hi n hn, fun hname => ?_⟩,
        fun n hn => (hkeys n).mpr ⟨hc.default_node n hn, fun hname => ?_⟩⟩
      · exact hno hsame (.inl ⟨i, nodes, hi, n, hn, hname⟩)
      · exact hno hsame (.inr ⟨n, hn, hname⟩)
  · rw [if_neg hsame] at hcache
    refine ⟨fun _ h => absurd h hsame, fun _ => ⟨fun i nodes hi n hn => ?_, fun n hn => ?_⟩⟩
    · rw [hcache]
      exact hc.slots_cache i nodes hi n hn
    · rw [hcache]
      exact hc.default_node n hn

/-- One call keeps the topology consistent just when it is in order. -/
theorem sound_iff (nm : NodesManager) (call : TopologyCall) (hwf : nm.Wf) (hc : nm.Consistent) :
    call.Sound nm ↔ call.Keeps nm := by
  cases call with
  | lookup slot read_from_replicas server_type randint =>
    have h := getNodeFromSlot_consistent nm slot read_from_replicas server_type randint hwf hc
    rw [← TopologyCall.step_lookup] at h
    exact ⟨fun _ => trivial, fun _ => ⟨h, trivial⟩⟩
  | moved e =>
    exact ⟨fun _ => trivial, fun _ => ⟨⟨hc.slots_cache, hc.default_node⟩, trivial⟩⟩
  | close =>
    exact ⟨fun _ => trivial, fun _ => ⟨⟨hc.slots_cache, fun n hn => nomatch hn⟩, trivial⟩⟩
  | initializeClient cluster_slots parser_setup =>
    have h := initializeNodes_settles nm cluster_slots hwf
    by_cases hr : (nm.surveys cluster_slots).Refused nm.require_full_coverage
    · obtain ⟨hno, hiff⟩ := h.refused hr
      exact ⟨fun _ h => absurd hr h, fun _ => ⟨hiff.mpr hc, fun hok => nomatch hno.symm.trans hok⟩⟩
    · exact (h.installed hr).trans ⟨fun h _ => h, fun h => h hr⟩
  | connectionFailed target_node cluster_slots =>
    have h := initializeNodes_settles (nm.dropped target_node) cluster_slots
      (dropped_wf target_node hwf)
    by_cases hr : ((nm.dropped target_node).surveys cluster_slots).Refused nm.require_full_coverage
    · obtain ⟨hno, hiff⟩ := h.refused hr
      have hdrop := hiff.trans (dropped_consistent_iff target_node hc)
      exact ⟨fun hs => ⟨fun _ => hdrop.mp hs.1, fun h => absurd hr h⟩,
        fun hk => ⟨hdrop.mpr (hk.1 hr), fun hok => nomatch hno.symm.trans hok⟩⟩
    · exact (h.installed hr).trans ⟨fun h => ⟨fun h' => absurd h' hr, fun _ => h⟩, fun h => h.2 hr⟩

theorem step_wf (nm : NodesManager) (call : TopologyCall) (hwf : nm.Wf) :
    (call.step .sync nm).Wf := by
  cases call with
  | lookup slot read_from_replicas server_type randint =>
    rw [TopologyCall.step_lookup]
    exact (getNodeFromSlot_wf .sync slot read_from_replicas server_type randint nm hwf).state
  | moved e => exact hwf.same rfl rfl rfl rfl rfl
  | close => exact hwf.same rfl rfl rfl rfl rfl
  | initializeClient cluster_slots _ => exact initializeNodes_wf .sync cluster_slots nm hwf
  | connectionFailed target_node cluster_slots =>
    exact initializeNodes_wf .sync cluster_slots (nm.dropped target_node) (dropped_wf target_node hwf)

/-- The topology stays consistent through a course of calls just if every call is in order. -/
theorem topology_sound_iff (settings : Settings) (startup_nodes : List (String × Int))
    (calls : List TopologyCall) :
    Each (TopologyCall.step .sync) TopologyCall.Sound (NodesManager.init settings startup_nodes)
        calls ↔
      Each (TopologyCall.step .sync) TopologyCall.Keeps (NodesManager.init settings startup_nodes)
        calls := by
  refine each_good_iff (I := fun nm => nm.Wf ∧ nm.Consistent) ?_ ?_ ?_ (Each.trivial _ calls)
  · rintro nm call ⟨hwf, hc⟩ - hkeep
    have hsound := (sound_iff nm call hwf hc).mpr hkeep
    exact ⟨hsound, step_wf nm call hwf, hsound.1⟩
  · rintro nm call ⟨hwf, hc⟩ - hsound
    exact (sound_iff nm call hwf hc).mp hsound
  · exact ⟨init_wf settings startup_nodes, fun i nodes hi => (nomatch hi), fun n hn => (nomatch hn)⟩

/-- The primary's connection fails, and no startup node can be reached. -/
def shardUnreachable : TopologyCall :=
  .connectionFailed { id := 1, host := "10.0.0.1", port := 7000 }
    fun _ => .error { cls := .ConnectionError, msg := "" }

/-- Two primaries that are each other's replica. -/
def crossedShards : ClusterSlots := fun _ =>
  .ok [{ start := 0, stop := 0, primary := ("10.0.0.1", 7000), replicas := [("10.0.0.2", 7000)] },
    { start := 1, stop := 1, primary := ("10.0.0.2", 7000), replicas := [("10.0.0.1", 7000)] }]

/-- A node that is dropped is dropped from `nodes_cache` alone; an empty topology leaves
the old default node; a primary that was first announced as a replica stays a replica. -/
theorem topology_unsound :
    ¬ Each (TopologyCall.step .sync) TopologyCall.Sound freshManager
        [.initializeClient oneShard none, shardUnreachable] ∧
      ¬ Each (TopologyCall.step .sync) TopologyCall.Sound freshManager
        [.initializeClient oneShard none, .initializeClient (fun _ => .ok []) none] ∧
      ¬ Each (TopologyCall.step .sync) TopologyCall.Sound freshManager
        [.initializeClient crossedShards none] := by
  refine ⟨fun h => ?_, fun h => ?_, fun h => ?_⟩
  · have hgone : ((shardUnreachable.step .sync (shardManager .sync)).slotNodes 0).any (fun nodes =>
        nodes.any fun n => decide (n.name ∉
          (shardUnreachable.step .sync (shardManager .sync)).nodesCache.keys)) = true := by
      decide +kernel
    obtain ⟨nodes, hi, hany⟩ := (Option.any_eq_true _ _).mp hgone
    obtain ⟨n, hn, hno⟩ := List.any_eq_true.mp hany
    exact of_decide_eq_true hno (h.2.1.1.slots_cache 0 nodes hi n hn)
  · have hstale : (TopologyCall.step .sync (shardManager .sync)
        (.initializeClient (fun _ => .ok []) none)).default_node.any (fun n => decide (n.name ∉
          (TopologyCall.step .sync (shardManager .sync)
            (.initializeClient (fun _ => .ok []) none)).nodesCache.keys)) = true := by
      decide +kernel
    obtain ⟨n, hn, hno⟩ := (Option.any_eq_true _ _).mp hstale
    exact of_decide_eq_true hno (h.2.1.1.default_node n hn)
  · have hok : isOk ((TopologyCall.run .sync (.initializeClient crossedShards none)).run
        freshManager) = true := by decide +kernel
    have hreplica : ((TopologyCall.step .sync freshManager
        (.initializeClient crossedShards none)).slotNodes 1).any (fun nodes =>
          nodes.head?.any fun p => decide ((TopologyCall.step .sync freshManager
            (.initializeClient crossedShards none)).server_type p ≠ some .PRIMARY)) = true := by
      decide +kernel
    obtain ⟨nodes, hi, hany⟩ := (Option.any_eq_true _ _).mp hreplica
    obtain ⟨p, tl, rfl, ht⟩ := h.1.2 hok 1 nodes hi
    exact of_decide_eq_true hany ht

end RedisPy
