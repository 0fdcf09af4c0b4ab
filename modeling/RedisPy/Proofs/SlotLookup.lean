import RedisPy.Proofs.MovedSlotLaw

/-! What `get_node_from_slot` finds: a table without a pending redirection is only
read, and a pending one is worked off first, so that its node is found. -/

namespace RedisPy

open NodesManager Raising

/-- The table maps the slot to `t`, and no redirection is pending. -/
def NodesManager.Maps (nm : NodesManager) (slot : Int) (t : ClusterNode) : Prop :=
  nm.moved_exception = none ∧ ∃ tl, nm.slotNodes slot = some (t :: tl)

/-- The end of `get_node_from_slot`, with `read_from_replicas` off. -/
def Variant.pickNode (slot : Int) (randint : Nat → Nat → Nat) : Variant → NodesManager.M ClusterNode
  | sync => Sync.NodesManager.pickNode slot false none randint
  | asyncio => Asyncio.NodesManager.pickNode slot false

theorem getNodeFromSlot_eq (c : Variant) (slot : Int) (randint : Nat → Nat → Nat) :
    c.getNodeFromSlot slot false none randint =
      (applyMoved c.updateMovedSlots >>= fun _ => c.pickNode slot randint) := by
  cases c <;> rfl

theorem run_pickNode (c : Variant) {nm : NodesManager} {slot : Int} {t : ClusterNode}
    {tl : List ClusterNode} (randint : Nat → Nat → Nat) (h : nm.slotNodes slot = some (t :: tl)) :
    (c.pickNode slot randint).run nm = .ok t nm := by
  cases c with
  | sync => simp [Variant.pickNode, Sync.NodesManager.pickNode, h, item]
  | asyncio =>
    obtain ⟨entry, hentry, hread⟩ := Option.map_eq_some_iff.mp h
    simp [Variant.pickNode, Asyncio.NodesManager.pickNode, run_slotRef nm slot hentry, hread]

theorem pickNode_post (c : Variant) (nm : NodesManager) (slot : Int) (randint : Nat → Nat → Nat) :
    Post ((c.pickNode slot randint).run nm)
      (fun t nm' => nm' = nm ∧ ∃ tl, nm.slotNodes slot = some (t :: tl)) (fun _ _ => True) := by
  cases h : nm.slotNodes slot with
  | none =>
    cases c with
    | sync => simp [Variant.pickNode, Sync.NodesManager.pickNode, h, Post]
    | asyncio =>
      have hs : nm.slots_cache.get? slot = none := by simpa [slotNodes] using h
      obtain ⟨err, hr⟩ := run_slotRef_none nm slot hs
      simp [Variant.pickNode, Asyncio.NodesManager.pickNode, hr, Post]
  | some nodes =>
    cases nodes with
    | nil =>
      cases c with
      | sync => simp [Variant.pickNode, Sync.NodesManager.pickNode, h, Post]
      | asyncio =>
        obtain ⟨entry, hentry, hread⟩ := Option.map_eq_some_iff.mp h
        simp [Variant.pickNode, Asyncio.NodesManager.pickNode, run_slotRef nm slot hentry, hread, Post]
    | cons t tl =>
      rw [run_pickNode c randint h]
      exact ⟨rfl, tl, rfl⟩

/-- A table without a pending redirection is only read. -/
theorem run_getNodeFromSlot (c : Variant) {nm : NodesManager} {slot : Int} {t : ClusterNode}
    (randint : Nat → Nat → Nat) (h : nm.Maps slot t) :
    (c.getNodeFromSlot slot false none randint).run nm = .ok t nm := by
  obtain ⟨hm, tl, hs⟩ := h
  rw [getNodeFromSlot_eq]
  simp [applyMoved, hm, run_pickNode c randint hs]

/-- After `_update_moved_slots` nothing is pending. -/
structure Applied (nm nm' : NodesManager) : Prop where
  wf : nm.Wf → nm'.Wf
  settings : nm'.toSettings = nm.toSettings
  moved : nm'.moved_exception = none

theorem Updated.applied {c : Variant} {nm nm' : NodesManager} {e : Redirect} {u : Unit}
    (hu : Updated c nm e (.ok u nm')) : Applied nm nm' where
  wf := hu.wf
  settings := by
    cases hu with
    | failover h hx hs hr hmem lists slots_cache server_type nextNode dicts settings =>
      exact settings.trans hx.settings
    | replaced h hx hs hmem lists slots_cache server_type nextNode dicts settings =>
      exact settings.trans hx.settings
  moved := by
    cases hu with
    | failover => assumption
    | replaced => assumption

theorem applyMoved_post (c : Variant) (nm : NodesManager) :
    Post ((applyMoved c.updateMovedSlots).run nm) (fun _ nm' => Applied nm nm') (fun _ _ => True) := by
  unfold applyMoved
  apply Post.get_bind
  cases he : nm.moved_exception with
  | none => exact ⟨id, rfl, he⟩
  | some e =>
    have hu := updateMovedSlots_cases c nm e he
    simp only [Option.isSome_some, if_true]
    cases hr : c.updateMovedSlots.run nm with
    | ok u nm' => exact (hr ▸ hu).applied
    | error err nm' => trivial

/-- A lookup that finds a node leaves a table that maps the slot to it. -/
theorem maps_of_getNodeFromSlot {c : Variant} {nm nm₁ : NodesManager} {slot : Int} {t : ClusterNode}
    {randint : Nat → Nat → Nat}
    (h : (c.getNodeFromSlot slot false none randint).run nm = .ok t nm₁) :
    Applied nm nm₁ ∧ nm₁.Maps slot t := by
  have hp : Post ((c.getNodeFromSlot slot false none randint).run nm)
      (fun t nm' => Applied nm nm' ∧ nm'.Maps slot t) (fun _ _ => True) := by
    rw [getNodeFromSlot_eq]
    apply Post.bind (applyMoved_post c nm)
    intro _ nm' ha
    apply (pickNode_post c nm' slot randint).mono
    · rintro t _ ⟨rfl, htl⟩
      exact ⟨ha, ha.moved, htl⟩
    · exact fun _ _ h => h
  rw [h] at hp
  exact hp

theorem exists_promote {x p : ClusterNode} {tl : List ClusterNode} (h : x.name ∈ names (p :: tl)) :
    ∃ tl', promote x (p :: tl) = x :: tl' := by
  by_cases hp : p.name = x.name
  · exact ⟨_, promote_of_head tl hp⟩
  · have htl : x.name ∈ names tl := by
      rcases List.mem_cons.mp h with h | h
      · exact absurd h.symm hp
      · exact h
    exact ⟨_, promote_of_tail hp htl⟩

/-- A table that maps the slot to some node is patched by the redirection: it
maps the slot to the redirected node then. -/
theorem getNodeFromSlot_redirected (c : Variant) {nm : NodesManager} {t : ClusterNode} {e : Redirect}
    (randint : Nat → Nat → Nat) (hmaps : nm.Maps e.slot_id t) (hrej : ¬ c.Rejects e) :
    ∃ x nm', (c.getNodeFromSlot e.slot_id false none randint).run
        { nm with moved_exception := some e } = .ok x nm' ∧
      x.name = nm.redirectName e ∧ Applied nm nm' ∧ nm'.Maps e.slot_id x := by
  obtain ⟨-, tl, hs⟩ := hmaps
  let nm₀ : NodesManager := { nm with moved_exception := some e }
  have hu := updateMovedSlots_cases c nm₀ e rfl
  have key : ∃ x nm', c.updateMovedSlots.run nm₀ = .ok () nm' ∧ x.name = nm.redirectName e ∧
      ∃ tl', nm'.slotNodes e.slot_id = some (x :: tl') := by
    generalize hr : c.updateMovedSlots.run nm₀ = r at hu
    cases hu with
    | rejected err h => exact absurd h hrej
    | uncovered err h hx hno =>
      have : nm.slots_cache.get? e.slot_id = none := hno
      rw [slotNodes, this] at hs
      cases hs
    | @failover x p tl' r nm₁ nm' h hx hsc hread hmem lists slots_cache =>
      obtain ⟨tl'', hpro⟩ := exists_promote hmem
      exact ⟨x, nm', rfl, hx.name, tl'', hpro ▸ slotNodes_failover hsc lists slots_cache⟩
    | @replaced x r nm₁ nm' h hx hsc hmem lists slots_cache =>
      exact ⟨x, nm', rfl, hx.name, [], slotNodes_replaced lists slots_cache⟩
  obtain ⟨x, nm', hrun, hname, tl', hs'⟩ := key
  have ha : Applied nm₀ nm' := (hrun ▸ hu).applied
  refine ⟨x, nm', ?_, hname, ⟨fun hwf => ha.wf (hwf.same rfl rfl rfl rfl rfl), ha.settings, ha.moved⟩,
    ha.moved, tl', hs'⟩
  have happly : (applyMoved c.updateMovedSlots).run nm₀ = .ok () nm' := hrun
  change EStateM.run _ nm₀ = _
  rw [getNodeFromSlot_eq, EStateM.run_bind, happly]
  exact run_pickNode c randint hs'

end RedisPy
