import RedisPy.Proofs.ClusterSurvey
import RedisPy.Proofs.SlotFrame

/-! Whether a sync `initialize` that fails leaves the topology as it was, and what the
slot table of one that succeeds says. -/

namespace RedisPy

open NodesManager Raising

/-- The node is one that a caller can see. -/
def NodesManager.Shows (nm : NodesManager) (n : ClusterNode) : Prop :=
  n ∈ nm.nodesCache.items ∨ (∃ i nodes, nm.slotNodes i = some nodes ∧ n ∈ nodes) ∨
    nm.default_node = some n

/-- The topology that callers see is the same. -/
structure SameTopology (nm nm' : NodesManager) : Prop where
  nodes_cache : nm'.nodesCache = nm.nodesCache
  slots_cache : ∀ i, nm'.slotNodes i = nm.slotNodes i
  default_node : nm'.default_node = nm.default_node
  server_type : ∀ n, nm.Shows n → nm'.server_type n = nm.server_type n

/-- The entries of the replies that a survey has used. -/
def Verdict.ranges : Verdict → List (ClusterNode × SlotRange)
  | .raised => []
  | .nameless s => s.ranges
  | .disagreed s => s.ranges
  | .surveyed s _ _ => s.ranges

/-- The slots are exactly those of the replies used, each with the primary first announced. -/
def HeadedBy (nm nm' : NodesManager) (ranges : List (ClusterNode × SlotRange)) : Prop :=
  ∀ i, match Survey.owner nm ranges i with
    | none => nm'.slotNodes i = none
    | some name => ∃ h tl, nm'.slotNodes i = some (h :: tl) ∧ h.name = name

/-- `initialize` changes all or nothing. -/
def Atomic (nm : NodesManager) (cluster_slots : ClusterSlots) : Prop :=
  match (Variant.sync.initializeNodes cluster_slots).run nm with
  | .ok _ nm' => HeadedBy nm nm' (nm.surveys cluster_slots).ranges
  | .error err nm' => err.cls = .RedisClusterException ∧ SameTopology nm nm'

/-- No startup node raises what is no `Exception`, and none answers with one range whose
primary has no host. Where the new topology is refused, no
node of `nodes_cache` that has a client is announced first in a role other than its own;
where it is not, some node is announced first as a primary. -/
def AtomicWhen (nm : NodesManager) (cluster_slots : ClusterSlots) : Prop :=
  match nm.surveys cluster_slots with
  | .raised => False
  | .nameless _ => False
  | .disagreed s => s.clash = false
  | .surveyed s reachable fully_covered =>
    if reachable = false ∨ fully_covered = false ∧ nm.require_full_coverage = true then
      s.clash = false
    else ∃ name, (name, ServerType.PRIMARY) ∈ s.roles.items

/-- What grows keeps the tables that callers see. -/
theorem Extends.nodesCache {nm nm' : NodesManager} (h : Extends nm nm') :
    nm'.nodesCache = nm.nodesCache := by
  rw [NodesManager.nodesCache, NodesManager.nodesCache, h.dicts, h.nodes_cache]

theorem Extends.slotNodes {nm nm' : NodesManager} (h : Extends nm nm') (hwf : nm.Wf) (i : Int) :
    nm'.slotNodes i = nm.slotNodes i := by
  apply slotNodes_congr (by rw [h.slots_cache])
  exact fun entry he => h.lists _ (hwf.slots entry (Keyed.mem_of_get? he))

/-- What a failed call leaves as it was, whatever was announced. -/
theorem sameTopology_iff {nm nm₁ nm' : NodesManager} {nodes : Nodes} {s : Survey} (hwf : nm.Wf)
    (hdefault : ∀ n, nm.default_node = some n → nm.IsNode n) (h : Announced nm nm₁ nodes s)
    (hc : Connected nm₁ nm') (hd : nm'.default_node = nm.default_node) :
    SameTopology nm nm' ↔ s.clash = false := by
  have hext := h.ext.trans hc.ext
  have hst : ∀ n, nm'.server_type n = nm₁.server_type n := fun n => congrFun hc.server_type n
  rw [Bool.eq_false_iff, ne_eq, h.clash]
  constructor
  · rintro hsame ⟨n, hn, hdiff⟩
    exact hdiff ((hst n).symm.trans (hsame.server_type n (.inl hn)))
  · intro hclash
    refine ⟨hext.nodesCache, hext.slotNodes hwf, hd, fun n hn => ?_⟩
    rw [hst n]
    by_cases hcache : n ∈ nm.nodesCache.items
    · by_contra hdiff
      exact hclash ⟨n, hcache, hdiff⟩
    · apply h.others n _ hcache
      rcases hn with hn | ⟨i, ns, hi, hn⟩ | hn
      · exact absurd hn hcache
      · obtain ⟨entry, he, rfl⟩ := Option.map_eq_some_iff.mp hi
        exact hwf.nodes entry (Keyed.mem_of_get? he) n hn
      · exact hdefault n hn

/-- The new nodes are installed either way; a default node is chosen only if there is a
primary. -/
theorem install_tables (nm : NodesManager) (nodes : Nodes) (slots : Dict Int Ref) :
    Post ((Sync.NodesManager.install nodes slots).run nm)
      (fun _ nm' => nm'.nodesCache = nodes ∧
        ∃ n ∈ nodes.items, nm'.default_node = some n ∧ nm.server_type n = some .PRIMARY)
      (fun _ nm' => nm'.nodesCache = nodes ∧ nm'.default_node = nm.default_node) := by
  have hread : (nm.dicts.alloc nodes).2.read nm.dicts.next = nodes :=
    Heap.read_alloc_self nm.dicts nodes
  unfold Sync.NodesManager.install
  simp only [EStateM.run_bind, EStateM.run_modify, firstPrimary, EStateM.run_get, item]
  split
  · case h_1 a s hs =>
    split at hs
    · case h_1 n hn =>
      have hmem := List.mem_of_getElem? hn
      rw [getNodesByServerType, List.mem_filter] at hmem
      obtain ⟨hin, ht⟩ := hmem
      obtain ⟨rfl, rfl⟩ := EStateM.Result.ok.inj hs
      refine ⟨hread, n, ?_, rfl, by simpa using ht⟩
      rw [← hread]
      exact hin
    · cases hs
  · case h_2 err s hs =>
    split at hs
    · cases hs
    · obtain ⟨-, rfl⟩ := EStateM.Result.error.inj hs
      exact ⟨hread, rfl⟩

theorem Announced.primary_iff {nm nm' : NodesManager} {nodes : Nodes} {s : Survey}
    (h : Announced nm nm' nodes s) :
    (∃ n ∈ nodes.items, nm'.server_type n = some .PRIMARY) ↔
      ∃ name, (name, ServerType.PRIMARY) ∈ s.roles.items := by
  constructor
  · rintro ⟨n, hn, ht⟩
    obtain ⟨role, hr, ht'⟩ := h.types n hn
    obtain rfl : role = .PRIMARY := Option.some.inj (ht'.symm.trans ht)
    exact ⟨n.name, hr⟩
  · rintro ⟨name, hr⟩
    have hkey : name ∈ nodes.keys := (h.keys name).mpr (List.mem_map_of_mem hr)
    obtain ⟨n, hn, hname⟩ := List.mem_map.mp hkey
    obtain ⟨role, hr', ht⟩ := h.types n hn
    have hget := Keyed.get?_of_mem hr
    have hget' := Keyed.get?_of_mem hr'
    rw [show (n.name, role).1 = name from hname] at hget'
    obtain rfl : role = .PRIMARY := (Prod.ext_iff.mp (Option.some.inj (hget'.symm.trans hget))).2
    exact ⟨n, hn, ht⟩

/-- The installed slot table is the survey's. -/
theorem Surveyed.slotNodes {nm nm₁ nm₂ nm' : NodesManager} {tmp : Tmp} {s : Survey}
    (h : Surveyed nm nm₁ tmp s) (hc : Connected nm₁ nm₂) (hi : Installed nm₂ nm' tmp) (i : Int) :
    nm'.slotNodes i = slotList nm₁ tmp i := by
  unfold slotList NodesManager.slotNodes
  rw [hi.slots_cache, hi.lists]
  cases hget : tmp.slots.get? i with
  | none => rfl
  | some entry =>
    obtain ⟨hlt, -⟩ := h.building.slots entry (Keyed.mem_of_get? hget)
    exact congrArg some (hc.ext.lists _ hlt)

theorem Surveyed.exists_cons {nm nm₁ : NodesManager} {tmp : Tmp} {s : Survey} {i : Int}
    {nodes : List ClusterNode} (h : Surveyed nm nm₁ tmp s) (hi : slotList nm₁ tmp i = some nodes) :
    ∃ p tl, nodes = p :: tl := by
  obtain ⟨entry, hget, rfl⟩ := Option.map_eq_some_iff.mp hi
  exact List.exists_cons_of_ne_nil (h.nonempty entry (Keyed.mem_of_get? hget))

theorem Surveyed.headedBy {nm nm₁ nm₂ nm' : NodesManager} {tmp : Tmp} {s : Survey}
    (h : Surveyed nm nm₁ tmp s) (hc : Connected nm₁ nm₂) (hi : Installed nm₂ nm' tmp) :
    HeadedBy nm nm' s.ranges := by
  intro i
  rw [← h.owners i, slotOwner, slotHead, h.slotNodes hc hi]
  cases hl : slotList nm₁ tmp i with
  | none => rfl
  | some nodes =>
    obtain ⟨p, tl, rfl⟩ := h.exists_cons hl
    exact ⟨p, tl, rfl, rfl⟩

/-- A sync `initialize` is atomic just when no node that is kept clashes with a topology
that is refused, and a topology that is installed has a primary. -/
theorem initializeNodes_atomic_iff (nm : NodesManager) (cluster_slots : ClusterSlots)
    (hwf : nm.Wf) (hdefault : ∀ n, nm.default_node = some n → nm.IsNode n) :
    Atomic nm cluster_slots ↔ AtomicWhen nm cluster_slots := by
  have hconc := initializeNodes_concluded cluster_slots nm hwf
  have hkeep := initializeNodes_untouched (untouched_default nm.default_node) .sync cluster_slots nm
    hwf rfl
  have hindex : ∀ {err : Exc} {nm' : NodesManager}, err.cls = .RedisClusterException →
      (err.cls = .IndexError ∨ Extends nm nm' ∧ nm'.default_node = nm.default_node) →
      nm'.default_node = nm.default_node := by
    rintro err nm' hcls (hidx | hd)
    · rw [hcls] at hidx
      cases hidx
    · exact hd.2
  unfold Atomic AtomicWhen
  generalize nm.surveys cluster_slots = v at hconc ⊢
  generalize (Variant.sync.initializeNodes cluster_slots).run nm = r at hconc hkeep ⊢
  cases hconc with
  | @raised err nm' h =>
    refine ⟨fun hat => ?_, False.elim⟩
    have hexc : err.isinstance .Exception = true := by
      unfold Exc.isinstance
      rw [hat.1]
      decide
    rw [h] at hexc
    cases hexc
  | nameless hcls h =>
    refine ⟨fun hat => ?_, False.elim⟩
    cases hcls.symm.trans hat.1
  | disagreed hcls h =>
    have hsame := sameTopology_iff hwf hdefault h (.refl _) (hindex hcls hkeep)
    exact ⟨fun hat => hsame.mp hat.2, fun hclash => ⟨hcls, hsame.mpr hclash⟩⟩
  | refused hr hcls h hc =>
    have hsame := sameTopology_iff hwf hdefault h hc (hindex hcls hkeep)
    dsimp only
    rw [if_pos hr]
    exact ⟨fun hat => hsame.mp hat.2, fun hclash => ⟨hcls, hsame.mpr hclash⟩⟩
  | @installs s reachable fully_covered tmp nm₁ nm' hr h hc _ =>
    dsimp only
    rw [if_neg hr, ← h.announced.primary_iff]
    have hwf' := (h.announced.ext.trans hc.ext).wf hwf
    have hinstall := (install_spec .sync nm' tmp hwf' (h.building.connected hc)).and
      (install_tables nm' tmp.nodes tmp.slots)
    change Post ((Sync.NodesManager.install tmp.nodes tmp.slots).run nm') _ _ at hinstall
    cases hrun : (Sync.NodesManager.install tmp.nodes tmp.slots).run nm' with
    | ok _ nm'' =>
      rw [hrun] at hinstall
      obtain ⟨⟨hi, -⟩, -, n, hn, -, ht⟩ := hinstall
      rw [hc.server_type] at ht
      exact ⟨fun _ => ⟨n, hn, ht⟩, fun _ => h.headedBy hc hi⟩
    | error err nm'' =>
      rw [hrun] at hinstall
      obtain ⟨⟨-, hcls, hno⟩, -⟩ := hinstall
      constructor
      · rintro ⟨hcls', -⟩
        rw [hcls] at hcls'
        cases hcls'
      · rintro ⟨n, hn, ht⟩
        exact absurd (hc.server_type ▸ ht) (hno n hn)

/-- The shard is told of again. -/
theorem initializeNodes_atomic_shard : Atomic (shardManager .sync) oneShard := by
  apply (initializeNodes_atomic_iff (shardManager .sync) oneShard
    (reachable_wf (shardManager_reachable .sync)) ?_).mpr
  · have hroles : (match (shardManager .sync).surveys oneShard with
        | .surveyed s reachable _ =>
          reachable && decide (("10.0.0.1:7000", ServerType.PRIMARY) ∈ s.roles.items)
        | _ => false) = true := by decide +kernel
    have hfull : (shardManager .sync).require_full_coverage = false := by decide +kernel
    unfold AtomicWhen
    revert hroles
    generalize (shardManager .sync).surveys oneShard = v
    intro hroles
    cases v with
    | raised => cases hroles
    | nameless s => cases hroles
    | disagreed s => cases hroles
    | surveyed s reachable fully_covered =>
      obtain ⟨hr, hmem⟩ := Bool.and_eq_true_iff.mp hroles
      have hkept : ¬ (reachable = false ∨ fully_covered = false ∧
          (shardManager .sync).require_full_coverage = true) := by
        rw [hr, hfull]
        rintro (h | ⟨-, h⟩) <;> cases h
      dsimp only
      rw [if_neg hkept]
      exact ⟨_, of_decide_eq_true hmem⟩
  · have hid : ((shardManager .sync).default_node.all fun n =>
        decide (n.id < (shardManager .sync).nextNode ∧
          (shardManager .sync).resolveHost n.host = n.host)) = true := by decide +kernel
    intro n hn
    rw [hn] at hid
    obtain ⟨hlt, hhost⟩ := of_decide_eq_true hid
    exact ⟨hlt, hhost⟩

/-- A failover: the replica has become the primary. -/
def failedOverShard : ClusterSlots := fun _ =>
  .ok [{ start := 0, stop := 1, primary := ("10.0.0.2", 7000), replicas := [("10.0.0.1", 7000)] }]

def strictManager : NodesManager := { shardManager .sync with require_full_coverage := true }

/-- A lone primary that does not know its host. -/
def namelessShard : ClusterSlots := fun _ =>
  .ok [{ start := 0, stop := 1, primary := (none, 7000), replicas := [] }]

/-- An empty topology raises `IndexError` once the tables are replaced; one that does not
cover all slots is refused, but only after the old nodes have taken their new roles; a lone
primary without a host raises `TypeError`. -/
theorem failed_initialize_not_atomic :
    ¬ Atomic (shardManager .sync) (fun _ => .ok []) ∧ ¬ Atomic strictManager failedOverShard ∧
      ¬ Atomic (shardManager .sync) namelessShard := by
  refine ⟨?_, ?_, ?_⟩
  · intro hat
    unfold Atomic at hat
    have hcls : (match (Variant.sync.initializeNodes fun _ => .ok []).run (shardManager .sync) with
        | .ok _ _ => none
        | .error err _ => some err.cls) = some .IndexError := by decide +kernel
    revert hat hcls
    generalize (Variant.sync.initializeNodes fun _ => .ok []).run (shardManager .sync) = r
    intro hat hcls
    cases r with
    | ok _ nm' => cases hcls
    | error err nm' => cases hat.1.symm.trans (Option.some.inj hcls)
  · intro hat
    unfold Atomic at hat
    have herr : isOk ((Variant.sync.initializeNodes failedOverShard).run strictManager) = false := by
      decide +kernel
    have hflip : (strictManager.nodesCache.items.any fun n =>
        decide ((state ((Variant.sync.initializeNodes failedOverShard).run strictManager)).server_type n
          ≠ strictManager.server_type n)) = true := by decide +kernel
    obtain ⟨n, hn, hne⟩ := List.any_eq_true.mp hflip
    revert hat herr hne
    generalize (Variant.sync.initializeNodes failedOverShard).run strictManager = r
    intro hat herr hne
    cases r with
    | ok _ nm' => cases herr
    | error err nm' => exact of_decide_eq_true hne (hat.2.server_type n (.inl hn))
  · intro hat
    unfold Atomic at hat
    have hcls : (match (Variant.sync.initializeNodes namelessShard).run (shardManager .sync) with
        | .ok _ _ => none
        | .error err _ => some err.cls) = some .TypeError := by decide +kernel
    revert hat hcls
    generalize (Variant.sync.initializeNodes namelessShard).run (shardManager .sync) = r
    intro hat hcls
    cases r with
    | ok _ nm' => cases hcls
    | error err nm' => cases hat.1.symm.trans (Option.some.inj hcls)

end RedisPy
