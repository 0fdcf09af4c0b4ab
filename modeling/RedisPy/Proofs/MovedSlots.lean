import RedisPy.Proofs.Topology

/-! What `_update_moved_slots` does to the slot table: one lemma for how the
redirected node is found or made, one for each way the table is changed, and
from these the law of one redirection. -/

namespace RedisPy

open NodesManager Raising

@[simp] theorem ClusterNode.eq_iff (n m : ClusterNode) : n.eq m = true ↔ n.name = m.name := by
  simp [ClusterNode.eq]

/-- The names of a slot's nodes: what a comparison of node lists looks at. -/
def names (nodes : List ClusterNode) : List String := nodes.map ClusterNode.name

theorem mem_names {nodes : List ClusterNode} {x : String} :
    x ∈ names nodes ↔ ∃ n ∈ nodes, n.name = x := by
  simp [names]

theorem any_eq_iff {nodes : List ClusterNode} {x : ClusterNode} :
    nodes.any x.eq = true ↔ x.name ∈ names nodes := by
  rw [List.any_eq_true, mem_names]
  apply exists_congr
  intro n
  rw [ClusterNode.eq_iff, eq_comm (a := x.name)]

/-- The list after a failover to `x`. -/
def promote (x : ClusterNode) : List ClusterNode → List ClusterNode
  | [] => []
  | p :: tl => ((p :: tl ++ [p]).eraseP x.eq).set 0 x

/-- The node that `get_node` finds for a redirection, where it does not raise. -/
def NodesManager.knownNode (nm : NodesManager) (e : Redirect) : Option ClusterNode :=
  if e.host ≠ "" ∧ e.port ≠ 0 then nm.cachedNode e.host e.port else none

/-- The name under which the redirected node is looked for. -/
def NodesManager.redirectName (nm : NodesManager) (e : Redirect) : String :=
  getNodeName (nm.resolveHost e.host) e.port

/-- `get_node` raises on the redirection's address. -/
def Variant.Rejects (c : Variant) (e : Redirect) : Prop := c = asyncio ∧ (e.host = "" ∨ e.port = 0)

instance (c : Variant) (e : Redirect) : Decidable (c.Rejects e) := inferInstanceAs (Decidable (_ ∧ _))

/-- How finding or making the redirected node `x` changes the state. -/
structure Redirected (nm nm' : NodesManager) (e : Redirect) (x : ClusterNode) : Prop where
  name : x.name = nm.redirectName e
  primary : nm'.server_type x = some .PRIMARY
  known : nm.knownNode e = some x ∨ nm.knownNode e = none ∧ x.id = nm.nextNode
  lists : nm'.lists = nm.lists
  slots_cache : nm'.slots_cache = nm.slots_cache
  settings : nm'.toSettings = nm.toSettings
  wf : nm.Wf → nm'.Wf
  isNode : nm.Wf → nm'.IsNode x

theorem run_getNode (c : Variant) (nm : NodesManager) (e : Redirect) (h : ¬ c.Rejects e) :
    (c.getNode e.host e.port).run nm = .ok (nm.knownNode e) nm := by
  by_cases ha : e.host ≠ "" ∧ e.port ≠ 0
  · cases c <;>
      simp [Variant.getNode, Sync.NodesManager.getNode, Asyncio.NodesManager.getNode,
        NodesManager.knownNode, ha]
  · cases c with
    | sync => simp [Variant.getNode, Sync.NodesManager.getNode, NodesManager.knownNode, ha]
    | asyncio => exact absurd ⟨rfl, by tauto⟩ h

theorem run_getNode_rejects (c : Variant) (nm : NodesManager) (e : Redirect) (h : c.Rejects e) :
    ∃ err, (c.getNode e.host e.port).run nm = .error err nm := by
  obtain ⟨rfl, ha⟩ := h
  have ha' : ¬ (e.host ≠ "" ∧ e.port ≠ 0) := by tauto
  exact ⟨_, by simp [Variant.getNode, Asyncio.NodesManager.getNode, ha']; rfl⟩

theorem addNode_spec (c : Variant) (nm : NodesManager) (n : ClusterNode) :
    ∃ nodes, (c.addNode n).run nm =
        .ok () { nm with dicts := nm.dicts.write nm.nodes_cache nodes } ∧
      (nm.Wf → nm.IsNode n → Made nm nodes.items) := by
  cases c with
  | sync => exact ⟨_, rfl, fun hwf hn => Made.put (hwf.dicts _) hn⟩
  | asyncio =>
    exact ⟨_, rfl, fun hwf hn => made_setNodes false (hwf.dicts _) (Made.put (made_nil nm) hn)⟩

theorem redirectedNode_spec (c : Variant) (nm : NodesManager) (e : Redirect) (h : ¬ c.Rejects e) :
    ∃ x nm', (redirectedNode c.getNode c.addNode e).run nm = .ok x nm' ∧ Redirected nm nm' e x := by
  cases hk : nm.knownNode e with
  | some x =>
    obtain ⟨hmem, hname⟩ : x ∈ nm.nodesCache.items ∧ x.name = nm.redirectName e := by
      unfold NodesManager.knownNode at hk
      split at hk
      · exact Keyed.get?_eq_some.mp hk
      · cases hk
    have hnode : nm.Wf → nm.IsNode x := fun hwf => hwf.dicts nm.nodes_cache x hmem
    by_cases ht : nm.server_type x = some .PRIMARY
    · refine ⟨x, nm, ?_, ⟨hname, ht, .inl hk, rfl, rfl, rfl, id, hnode⟩⟩
      simp [redirectedNode, run_getNode c nm e h, hk, ht]
    · let nm₁ : NodesManager :=
        { nm with server_type := Function.update nm.server_type x (some .PRIMARY) }
      have hext : Extends nm nm₁ := setServerType_extends nm x .PRIMARY
      refine ⟨x, nm₁, ?_, ⟨hname, by simp [nm₁], .inl hk, rfl, rfl, rfl, hext.wf,
        fun hwf => hext.isNode (hnode hwf)⟩⟩
      simp [redirectedNode, run_getNode c nm e h, hk, ht, setServerType, nm₁]
  | none =>
    obtain ⟨x, nm₁, hrun, hext, hlists, hid, hnode, hname, ht, -⟩ :=
      newClusterNode_spec nm e.host e.port .PRIMARY
    obtain ⟨nodes, hadd, hmade⟩ := addNode_spec c nm₁ x
    refine ⟨x, { nm₁ with dicts := nm₁.dicts.write nm₁.nodes_cache nodes }, ?_,
      ⟨hname, ht, .inr ⟨hk, hid⟩, hlists, hext.slots_cache, hext.settings, ?_,
        fun _ => ⟨hnode.id, hnode.host⟩⟩⟩
    · simp only [redirectedNode, EStateM.run_bind, run_getNode c nm e h, hk, hrun, hadd,
        EStateM.run_pure]
    · intro hwf
      have hwf₁ := hext.wf hwf
      exact hwf₁.writeDict _ (hmade hwf₁ hnode)

theorem run_slotRef (nm : NodesManager) (slot : Int) {entry : Int × Ref}
    (h : nm.slots_cache.get? slot = some entry) : (slotRef slot).run nm = .ok entry.2 nm := by
  simp [slotRef, h]

theorem run_slotRef_none (nm : NodesManager) (slot : Int) (h : nm.slots_cache.get? slot = none) :
    ∃ err, (slotRef slot).run nm = .error err nm :=
  ⟨_, by simp [slotRef, h]; rfl⟩

/-- A failover swaps the redirected node to the front and makes the node that
stood there a replica. -/
theorem failover_spec (nm : NodesManager) (r : Ref) (x p : ClusterNode) (tl : List ClusterNode)
    (h : nm.lists.read r = p :: tl) :
    ∃ nm', (failover r x).run nm = .ok () nm' ∧
      nm'.lists = nm.lists.write r (promote x (p :: tl)) ∧
      nm'.slots_cache = nm.slots_cache ∧
      nm'.server_type = Function.update nm.server_type p (some .REPLICA) ∧
      nm'.nextNode = nm.nextNode ∧ nm'.dicts = nm.dicts ∧ nm'.toSettings = nm.toSettings := by
  by_cases hd : nm.default_node.any p.eq = true
  · simp [failover, h, item, setServerType, hd, promote]
  · simp [failover, h, item, setServerType, hd, promote]

/-! ### The list surgery -/

theorem promote_of_head {x p : ClusterNode} (tl : List ClusterNode) (h : p.name = x.name) :
    promote x (p :: tl) = x :: (tl ++ [p]).tail := by
  have hx : x.eq p = true := (ClusterNode.eq_iff x p).mpr h.symm
  cases tl <;> simp [promote, hx]

theorem promote_of_tail {x p : ClusterNode} {tl : List ClusterNode} (h : p.name ≠ x.name)
    (hx : x.name ∈ names tl) : promote x (p :: tl) = x :: (tl.eraseP x.eq ++ [p]) := by
  have hp : ¬ x.eq p = true := fun he => h ((ClusterNode.eq_iff x p).mp he).symm
  obtain ⟨n, hn, hname⟩ := mem_names.mp hx
  have hn' : x.eq n = true := (ClusterNode.eq_iff x n).mpr hname.symm
  simp only [promote, List.cons_append, List.eraseP_cons_of_neg hp, List.set_cons_zero,
    List.eraseP_append_left hn' [p] hn]

theorem names_eraseP (x : ClusterNode) (nodes : List ClusterNode) :
    names (nodes.eraseP x.eq) = (names nodes).erase x.name := by
  induction nodes with
  | nil => rfl
  | cons n nodes ih =>
    by_cases h : n.name = x.name
    · have hx : x.eq n = true := (ClusterNode.eq_iff x n).mpr h.symm
      simp [names, List.eraseP_cons_of_pos hx, h]
    · have hx : ¬ x.eq n = true := fun he => h ((ClusterNode.eq_iff x n).mp he).symm
      rw [List.eraseP_cons_of_neg hx]
      simpa [names, h] using ih

/-- Promoting a replica only reorders the slot's nodes. -/
theorem names_promote_perm {x p : ClusterNode} {tl : List ClusterNode} (h : p.name ≠ x.name)
    (hx : x.name ∈ names tl) : (names (promote x (p :: tl))).Perm (names (p :: tl)) := by
  rw [promote_of_tail h hx]
  have he : names (x :: (tl.eraseP x.eq ++ [p])) =
      (x.name :: (names tl).erase x.name) ++ [p.name] := by
    rw [← names_eraseP]
    simp [names]
  rw [he]
  apply (List.perm_append_singleton _ _).trans
  exact ((List.perm_cons_erase hx).symm).cons p.name

/-- Promoting the primary itself leaves it twice in the list, if it has replicas. -/
theorem not_nodup_promote_self {x p q : ClusterNode} (tl : List ClusterNode)
    (h : p.name = x.name) : ¬ (names (promote x (p :: q :: tl))).Nodup := by
  rw [promote_of_head _ h]
  simp [names, h]

/-! ### One call -/

/-- Everything one call of `_update_moved_slots` can do with the redirection `e` pending. -/
inductive Updated (c : Variant) (nm : NodesManager) (e : Redirect) :
    EStateM.Result Exc NodesManager Unit → Prop
  | rejected (err : Exc) (h : c.Rejects e) : Updated c nm e (.error err nm)
  | uncovered (err : Exc) {x : ClusterNode} {nm₁ : NodesManager} (h : ¬ c.Rejects e)
      (hx : Redirected nm nm₁ e x) (hs : nm.slots_cache.get? e.slot_id = none) :
      Updated c nm e (.error err nm₁)
  | failover {x p : ClusterNode} {tl : List ClusterNode} {r : Ref} {nm₁ nm' : NodesManager}
      (h : ¬ c.Rejects e) (hx : Redirected nm nm₁ e x)
      (hs : nm.slots_cache.get? e.slot_id = some (e.slot_id, r)) (hr : nm.lists.read r = p :: tl)
      (hmem : x.name ∈ names (p :: tl))
      (lists : nm'.lists = nm.lists.write r (promote x (p :: tl)))
      (slots_cache : nm'.slots_cache = nm.slots_cache)
      (server_type : nm'.server_type = Function.update nm₁.server_type p (some .REPLICA))
      (nextNode : nm'.nextNode = nm₁.nextNode) (dicts : nm'.dicts = nm₁.dicts)
      (settings : nm'.toSettings = nm₁.toSettings)
      (moved : nm'.moved_exception = none) : Updated c nm e (.ok () nm')
  | replaced {x : ClusterNode} {r : Ref} {nm₁ nm' : NodesManager}
      (h : ¬ c.Rejects e) (hx : Redirected nm nm₁ e x)
      (hs : nm.slots_cache.get? e.slot_id = some (e.slot_id, r))
      (hmem : x.name ∉ names (nm.lists.read r))
      (lists : nm'.lists = (nm.lists.alloc [x]).2)
      (slots_cache : nm'.slots_cache = nm.slots_cache.put (e.slot_id, nm.lists.next))
      (server_type : nm'.server_type = nm₁.server_type)
      (nextNode : nm'.nextNode = nm₁.nextNode) (dicts : nm'.dicts = nm₁.dicts)
      (settings : nm'.toSettings = nm₁.toSettings)
      (moved : nm'.moved_exception = none) : Updated c nm e (.ok () nm')

theorem updateMovedSlots_eq (c : Variant) :
    c.updateMovedSlots = NodesManager.updateMovedSlots c.getNode c.addNode := by
  cases c <;> rfl

theorem updateMovedSlots_cases (c : Variant) (nm : NodesManager) (e : Redirect)
    (he : nm.moved_exception = some e) : Updated c nm e (c.updateMovedSlots.run nm) := by
  rw [updateMovedSlots_eq]
  unfold NodesManager.updateMovedSlots
  simp only [EStateM.run_bind, EStateM.run_get, he]
  by_cases h : c.Rejects e
  · obtain ⟨err, hg⟩ := run_getNode_rejects c nm e h
    have hr : (redirectedNode c.getNode c.addNode e).run nm = .error err nm := by
      simp only [redirectedNode, EStateM.run_bind, hg]
    rw [hr]
    exact .rejected err h
  obtain ⟨x, nm₁, hrun, hx⟩ := redirectedNode_spec c nm e h
  rw [hrun]
  cases hs : nm.slots_cache.get? e.slot_id with
  | none =>
    obtain ⟨err, hr⟩ := run_slotRef_none nm₁ e.slot_id (hx.slots_cache ▸ hs)
    simp only [hr]
    exact .uncovered err h hx hs
  | some entry =>
    obtain ⟨slot, r⟩ := entry
    have hslot : slot = e.slot_id := Keyed.key_of_get? hs
    subst hslot
    simp only [run_slotRef nm₁ e.slot_id (hx.slots_cache ▸ hs), hx.lists]
    by_cases hmem : x.name ∈ names (nm.lists.read r)
    · rw [if_pos (any_eq_iff.mpr hmem)]
      obtain ⟨p, tl, hr⟩ : ∃ p tl, nm.lists.read r = p :: tl :=
        List.exists_cons_of_ne_nil (by rintro h0; simp [h0, names] at hmem)
      obtain ⟨nm', hf, hl, hsc, ht, hn, hd, hset⟩ := failover_spec nm₁ r x p tl (hx.lists ▸ hr)
      rw [EStateM.run_bind, hf]
      rw [hr] at hmem
      exact .failover h hx hs hr hmem (by simp [hl, hx.lists]) (hsc.trans hx.slots_cache) ht hn hd
        hset rfl
    · rw [if_neg (fun ha => hmem (any_eq_iff.mp ha))]
      exact .replaced h hx hs hmem (by simp [hx.lists]) (by simp [hx.lists, hx.slots_cache]) rfl rfl
        rfl rfl rfl

theorem mem_promote {x n : ClusterNode} {nodes : List ClusterNode} (h : n ∈ promote x nodes) :
    n = x ∨ n ∈ nodes := by
  cases nodes with
  | nil => exact absurd h (by simp [promote])
  | cons p tl =>
    rcases List.mem_or_eq_of_mem_set h with hm | rfl
    · have := List.mem_of_mem_eraseP hm
      simp only [List.mem_append, List.mem_singleton] at this
      rcases this with hm | rfl
      · exact .inr hm
      · exact .inr (by simp)
    · exact .inl rfl

/-- The invariant survives a redirection, whatever becomes of it. -/
theorem Updated.wf {c : Variant} {nm : NodesManager} {e : Redirect}
    {r : EStateM.Result Exc NodesManager Unit} (hu : Updated c nm e r) (hwf : nm.Wf) :
    (state r).Wf := by
  cases hu with
  | rejected err h => exact hwf
  | uncovered err h hx hs => exact hx.wf hwf
  | @failover x p tl r nm₁ nm' h hx hs hr hmem lists slots_cache server_type nextNode dicts settings =>
    have hwf₁ := hx.wf hwf
    have hold : Made nm₁ (p :: tl) := by
      rw [← hr, ← hx.lists]
      exact hwf₁.nodes _ (hx.slots_cache ▸ Keyed.mem_of_get? hs)
    have hmade : Made nm₁ (promote x (p :: tl)) := by
      intro n hn
      rcases mem_promote hn with rfl | hn
      · exact hx.isNode hwf
      · exact hold n hn
    exact hwf₁.writeList hmade (slots_cache.trans hx.slots_cache.symm) (hx.lists ▸ lists)
      nextNode settings dicts
  | @replaced x r nm₁ nm' h hx hs hmem lists slots_cache server_type nextNode dicts settings =>
    have hmade : Made nm₁ [x] := by
      intro n hn
      rw [List.mem_singleton.mp hn]
      exact hx.isNode hwf
    exact (hx.wf hwf).allocList hmade (hx.slots_cache ▸ hx.lists ▸ slots_cache)
      (hx.lists ▸ lists) nextNode settings dicts

theorem slotNodes_eq {nm : NodesManager} {slot : Int} {r : Ref}
    (h : nm.slots_cache.get? slot = some (slot, r)) : nm.slotNodes slot = some (nm.lists.read r) := by
  simp [slotNodes, h]

end RedisPy
