import RedisPy.Proofs.Reachable

/-! The law of one redirection: how the node list of a slot should look after
`_update_moved_slots`, and exactly when it does. -/

namespace RedisPy

open NodesManager Raising

/-- What handling the redirection `e` should do to its slot. Nodes are compared
by name, as `ClusterNode.__eq__` does. -/
structure MovedSlotLaw (nm nm' : NodesManager) (e : Redirect) : Prop where
  starts : ∃ x tl, nm'.slotNodes e.slot_id = some (x :: tl) ∧ x.name = nm.redirectName e ∧
    nm'.server_type x = some .PRIMARY ∧ (names (x :: tl)).Nodup
  replica : ∀ p tl, nm.slotNodes e.slot_id = some (p :: tl) → p.name ≠ nm.redirectName e →
    nm.redirectName e ∈ names tl →
      ∃ x tl', nm'.slotNodes e.slot_id = some (x :: tl') ∧
        (∀ n, n ∈ names (x :: tl') ↔ n ∈ names (p :: tl)) ∧
        p ∈ tl' ∧ nm'.server_type p = some .REPLICA
  primary : ∀ p tl, nm.slotNodes e.slot_id = some (p :: tl) → p.name = nm.redirectName e →
    ∃ nodes', nm'.slotNodes e.slot_id = some nodes' ∧ names nodes' = names (p :: tl)
  cleared : nm'.moved_exception = none

/-- `_update_moved_slots`, called with `e` pending, raises nothing and obeys the law. -/
def MovesSlot (c : Variant) (nm : NodesManager) (e : Redirect) : Prop :=
  ∃ nm', c.updateMovedSlots.run { nm with moved_exception := some e } = .ok () nm' ∧
    MovedSlotLaw nm nm' e

/-- The slot is covered, `get_node` takes the address, and the redirected node is
not the slot's primary: it is no node of the slot, or it is one of the replicas of
a list without repetitions. The one redirection to the primary that also goes
well is that of a slot without replicas whose node `nodes_cache` has lost or replaced. -/
def MovesSlotWhen (c : Variant) (nm : NodesManager) (e : Redirect) : Prop :=
  ¬ c.Rejects e ∧ ∃ nodes, nm.slotNodes e.slot_id = some nodes ∧
    (nm.redirectName e ∉ names nodes ∨
      (∃ p tl, nodes = p :: tl ∧ p.name ≠ nm.redirectName e ∧ nm.redirectName e ∈ names tl ∧
        (names (p :: tl)).Nodup) ∨
      ∃ p, nodes = [p] ∧ p.name = nm.redirectName e ∧ nm.knownNode e ≠ some p)

/-- After a failover the slot reads the promoted list. -/
theorem slotNodes_failover {nm nm' : NodesManager} {slot : Int} {r : Ref} {nodes : List ClusterNode}
    (hs : nm.slots_cache.get? slot = some (slot, r)) (hl : nm'.lists = nm.lists.write r nodes)
    (hsc : nm'.slots_cache = nm.slots_cache) : nm'.slotNodes slot = some nodes := by
  simp [slotNodes, hl, hsc, hs]

theorem slotNodes_replaced {nm nm' : NodesManager} {slot : Int} {x : ClusterNode}
    (hl : nm'.lists = (nm.lists.alloc [x]).2)
    (hsc : nm'.slots_cache = nm.slots_cache.put (slot, nm.lists.next)) :
    nm'.slotNodes slot = some [x] := by
  have : (nm.slots_cache.put (slot, nm.lists.next)).get? slot = some (slot, nm.lists.next) :=
    Keyed.get?_put_self nm.slots_cache (slot, nm.lists.next)
  simp [slotNodes, hl, hsc, this]

/-- A promoted replica: the law holds as far as the list had no repetitions. -/
theorem law_of_failover {nm nm' nm₁ : NodesManager} {e : Redirect} {x p : ClusterNode}
    {tl : List ClusterNode} (hx : x.name = nm.redirectName e)
    (ht : nm₁.server_type x = some .PRIMARY) (hp : p.name ≠ x.name) (htl : x.name ∈ names tl)
    (hs : nm.slotNodes e.slot_id = some (p :: tl))
    (hs' : nm'.slotNodes e.slot_id = some (promote x (p :: tl)))
    (hst : nm'.server_type = Function.update nm₁.server_type p (some .REPLICA))
    (hm : nm'.moved_exception = none) (hnd : (names (p :: tl)).Nodup) : MovedSlotLaw nm nm' e := by
  have hperm := names_promote_perm hp htl
  have hxp : x ≠ p := fun h => hp (h ▸ rfl)
  rw [promote_of_tail hp htl] at hs' hperm
  refine ⟨⟨x, _, hs', hx, ?_, hperm.nodup_iff.mpr hnd⟩, ?_, ?_, hm⟩
  · rw [hst, Function.update_of_ne hxp, ht]
  · intro p' tl' hs₀ _ _
    obtain ⟨rfl, rfl⟩ : p = p' ∧ tl = tl' := by simpa using hs.symm.trans hs₀
    refine ⟨x, _, hs', fun n => hperm.mem_iff, by simp, ?_⟩
    rw [hst, Function.update_self]
  · intro p' tl' hs₀ hp'
    obtain ⟨rfl, rfl⟩ : p = p' ∧ tl = tl' := by simpa using hs.symm.trans hs₀
    exact absurd (hp'.trans hx.symm) hp

/-- A redirection to a lone primary: the law holds if it is another object. -/
theorem law_of_lone {nm nm' nm₁ : NodesManager} {e : Redirect} {x p : ClusterNode}
    (hx : x.name = nm.redirectName e) (ht : nm₁.server_type x = some .PRIMARY)
    (hp : p.name = x.name) (hxp : x ≠ p) (hs : nm.slotNodes e.slot_id = some [p])
    (hs' : nm'.slotNodes e.slot_id = some [x])
    (hst : nm'.server_type = Function.update nm₁.server_type p (some .REPLICA))
    (hm : nm'.moved_exception = none) : MovedSlotLaw nm nm' e := by
  refine ⟨⟨x, [], hs', hx, ?_, by simp [names]⟩, ?_, ?_, hm⟩
  · rw [hst, Function.update_of_ne hxp, ht]
  · intro p' tl' hs₀ hp' _
    obtain ⟨rfl, rfl⟩ : p = p' ∧ [] = tl' := by simpa using hs.symm.trans hs₀
    exact absurd (hp.trans hx) hp'
  · intro p' tl' hs₀ _
    obtain ⟨rfl, rfl⟩ : p = p' ∧ [] = tl' := by simpa using hs.symm.trans hs₀
    exact ⟨[x], hs', by simp [names, hp]⟩

/-- A redirection to a node from elsewhere: the law always holds. -/
theorem law_of_replaced {nm nm' : NodesManager} {e : Redirect} {x : ClusterNode}
    {nodes : List ClusterNode} (hx : x.name = nm.redirectName e)
    (ht : nm'.server_type x = some .PRIMARY) (hmem : x.name ∉ names nodes)
    (hs : nm.slotNodes e.slot_id = some nodes) (hs' : nm'.slotNodes e.slot_id = some [x])
    (hm : nm'.moved_exception = none) : MovedSlotLaw nm nm' e := by
  refine ⟨⟨x, [], hs', hx, ht, by simp [names]⟩, ?_, ?_, hm⟩
  · intro p tl hs₀ _ htl
    obtain rfl : nodes = p :: tl := by simpa using hs.symm.trans hs₀
    exact absurd (hx ▸ List.mem_cons_of_mem _ htl) hmem
  · intro p tl hs₀ hp
    obtain rfl : nodes = p :: tl := by simpa using hs.symm.trans hs₀
    exact absurd (by simp [names, hp, hx]) hmem

theorem movesSlotWhen_of_law {c : Variant} {nm nm' : NodesManager} {e : Redirect}
    (hu : Updated c { nm with moved_exception := some e } e (.ok () nm'))
    (hlaw : MovedSlotLaw nm nm' e) : MovesSlotWhen c nm e := by
  obtain ⟨y, tl', hs', -, hy, hnd⟩ := hlaw.starts
  cases hu with
  | @failover x p tl r nm₁ _ h hx hs hr hmem lists slots_cache server_type =>
    have hs₀ : nm.slotNodes e.slot_id = some (p :: tl) := by
      rw [← hr]
      exact slotNodes_eq hs
    have hname : x.name = nm.redirectName e := hx.name
    have hp := slotNodes_failover hs lists slots_cache
    obtain hp : promote x (p :: tl) = y :: tl' := by simpa [hp] using hs'
    refine ⟨h, p :: tl, hs₀, ?_⟩
    by_cases hpx : p.name = x.name
    · cases tl with
      | nil =>
        refine .inr (.inr ⟨p, rfl, hpx.trans hname, fun hk => ?_⟩)
        -- the node found is the old primary, which has just been made a replica
        rcases hx.known with hk' | ⟨hk', -⟩
        · obtain rfl : p = x := by simpa using hk.symm.trans hk'
          obtain ⟨rfl, -⟩ : p = y ∧ [] = tl' := by simpa [promote_of_head] using hp
          simp [server_type] at hy
        · exact absurd (hk.symm.trans hk') (by simp)
      | cons q t => exact absurd (hp ▸ hnd) (not_nodup_promote_self t hpx)
    · have htl : x.name ∈ names tl := by
        rcases List.mem_cons.mp hmem with he | ht
        · exact absurd he.symm hpx
        · exact ht
      refine .inr (.inl ⟨p, tl, rfl, hname ▸ hpx, hname ▸ htl, ?_⟩)
      exact (names_promote_perm hpx htl).nodup_iff.mp (hp ▸ hnd)
  | replaced h hx hs hmem =>
    have hname := hx.name
    exact ⟨h, _, slotNodes_eq hs, .inl (hname ▸ hmem)⟩

theorem law_of_movesSlotWhen {c : Variant} {nm : NodesManager} {e : Redirect}
    {r : EStateM.Result Exc NodesManager Unit} (hwf : nm.Wf)
    (hu : Updated c { nm with moved_exception := some e } e r) (h : MovesSlotWhen c nm e) :
    ∃ nm', r = .ok () nm' ∧ MovedSlotLaw nm nm' e := by
  obtain ⟨hc, nodes, hs₀, hcase⟩ := h
  cases hu with
  | rejected err h => exact absurd h hc
  | uncovered err h hx hs => simp [slotNodes, hs] at hs₀
  | @replaced x r nm₁ nm' h hx hs hmem lists slots_cache server_type _ _ _ moved =>
    obtain rfl : nm.lists.read r = nodes := Option.some.inj ((slotNodes_eq hs).symm.trans hs₀)
    refine ⟨nm', rfl, law_of_replaced hx.name ?_ hmem hs₀ (slotNodes_replaced lists slots_cache)
      moved⟩
    rw [server_type]
    exact hx.primary
  | @failover x p tl r nm₁ nm' h hx hs hr hmem lists slots_cache server_type _ _ _ moved =>
    obtain rfl : p :: tl = nodes := hr ▸ Option.some.inj ((slotNodes_eq hs).symm.trans hs₀)
    have hname : x.name = nm.redirectName e := hx.name
    have hs' := slotNodes_failover hs lists slots_cache
    refine ⟨nm', rfl, ?_⟩
    rcases hcase with hno | ⟨p', tl', he, hp, htl, hnd⟩ | ⟨p', he, hp, hk⟩
    · exact absurd (hname ▸ hmem) hno
    · obtain ⟨rfl, rfl⟩ : p = p' ∧ tl = tl' := by simpa using he
      rw [← hname] at hp htl
      exact law_of_failover hname hx.primary hp htl hs₀ hs' server_type moved hnd
    · obtain ⟨rfl, rfl⟩ : p = p' ∧ tl = [] := by simpa using he
      rw [← hname] at hp
      have hxp : x ≠ p := by
        rintro rfl
        rcases hx.known with hk' | ⟨-, hid⟩
        · exact hk hk'
        · have hlt := (hwf.nodes _ (Keyed.mem_of_get? hs) x (by simp [hr])).id
          exact absurd hid (Nat.ne_of_lt hlt)
      rw [promote_of_head _ hp] at hs'
      exact law_of_lone hname hx.primary hp hxp hs₀ hs' server_type moved

/-- One redirection obeys the law exactly when it is not one of the kinds that
the list surgery does not expect. -/
theorem movesSlot_iff (c : Variant) (nm : NodesManager) (e : Redirect) (hwf : nm.Wf) :
    MovesSlot c nm e ↔ MovesSlotWhen c nm e := by
  have hu := updateMovedSlots_cases c { nm with moved_exception := some e } e rfl
  constructor
  · rintro ⟨nm', hr, hlaw⟩
    exact movesSlotWhen_of_law (hr ▸ hu) hlaw
  · exact law_of_movesSlotWhen hwf hu

theorem movesSlot_iff_shard :
    MovesSlot .sync (shardManager .sync) ⟨0, "10.0.0.2", 7000⟩ ↔
      MovesSlotWhen .sync (shardManager .sync) ⟨0, "10.0.0.2", 7000⟩ :=
  movesSlot_iff .sync (shardManager .sync) ⟨0, "10.0.0.2", 7000⟩
    (reachable_wf (shardManager_reachable .sync))

/-- A redirection to the slot's own primary leaves it in the list twice, as a
replica, and drops the replica. -/
theorem not_movesSlot_primary :
    (shardManager .sync).Wf ∧ ¬ MovesSlot .sync (shardManager .sync) ⟨0, "10.0.0.1", 7000⟩ := by
  refine ⟨reachable_wf (shardManager_reachable .sync), ?_⟩
  rintro ⟨nm', hrun, hlaw⟩
  obtain ⟨x, tl, hs, -, -, hnd⟩ := hlaw.starts
  have hn : ((state (Variant.sync.updateMovedSlots.run
      { shardManager .sync with moved_exception := some ⟨0, "10.0.0.1", 7000⟩ })).slotNodes 0).map
        names = some ["10.0.0.1:7000", "10.0.0.1:7000"] := by decide +kernel
  rw [hrun] at hn
  rw [show (state (.ok () nm')).slotNodes 0 = _ from hs] at hn
  rw [Option.some.inj hn] at hnd
  exact absurd hnd (by decide)

end RedisPy
