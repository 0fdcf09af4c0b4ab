import RedisPy.Library.Course
import RedisPy.Proofs.SlotFrame
import RedisPy.Proofs.SlotLookup
import RedisPy.Proofs.TopologyFrame

/-! All commands of a client note their redirections in one place, and the next
lookup, of whatever slot, works the last one off. When no redirection is lost
between commands that take their turns in any order. -/

namespace RedisPy

open NodesManager Raising Course

/-- What a command does to the table in one step. -/
inductive RedirectCall where
  /-- `get_node_from_slot` -/
  | lookup (slot : Int) (read_from_replicas : Bool) (server_type : Option ServerType)
      (randint : Nat → Nat → Nat)
  /-- `update_moved_exception`, after a `MovedError` -/
  | moved (e : Redirect)
  | initializeNodes (cluster_slots : ClusterSlots)

/-- The table, and the latest redirection received for each slot since it was put in
place. -/
structure Told where
  nm : NodesManager
  latest : Int → Option Redirect := fun _ => none

/-- `initialize` has put a new table in place: it succeeded, or found no primary in the
new one. -/
def PutInPlace : EStateM.Result Exc NodesManager Unit → Prop
  | .ok _ _ => True
  | .error err _ => err.cls = .IndexError

instance : DecidablePred PutInPlace
  | .ok _ _ => isTrue trivial
  | .error err _ => inferInstanceAs (Decidable (err.cls = .IndexError))

namespace RedirectCall

def step (c : Variant) (w : Told) : RedirectCall → Told
  | lookup slot read_from_replicas server_type randint =>
    { w with nm := state ((c.getNodeFromSlot slot read_from_replicas server_type randint).run w.nm) }
  | moved e =>
    { nm := { w.nm with moved_exception := some e }
      latest := Function.update w.latest e.slot_id (some e) }
  | initializeNodes cluster_slots =>
    let r := (c.initializeNodes cluster_slots).run w.nm
    { nm := state r, latest := if PutInPlace r then fun _ => none else w.latest }

/-- A lookup of a slot that was redirected gets the node that the latest redirection
of the slot named. -/
def Follows (c : Variant) (w : Told) : RedirectCall → Prop
  | lookup slot read_from_replicas server_type randint =>
    ∀ e, w.latest slot = some e → ∃ n nm',
      (c.getNodeFromSlot slot read_from_replicas server_type randint).run w.nm = .ok n nm' ∧
        n.name = w.nm.redirectName e
  | _ => True

/-- The pending redirection is worked off without changing what another slot was
redirected to: no such slot holds the list object, or the list has no node of that
name, or both were redirected to one node. -/
def SparesOthers (w : Told) : Prop :=
  ∀ p, w.nm.moved_exception = some p → ∀ t e, t ≠ p.slot_id → w.latest t = some e →
    SharesList w.nm p.slot_id t →
      (∀ nodes, w.nm.slotNodes p.slot_id = some nodes → w.nm.redirectName p ∉ names nodes) ∨
        w.nm.redirectName e = w.nm.redirectName p

/-- A redirection comes when none of another slot is pending, for a slot that is
covered, with an address that `get_node` takes; a redirected slot is looked up for its
primary; and the redirection a lookup works off spares the others. -/
def InOrder (c : Variant) (w : Told) : RedirectCall → Prop
  | moved e => (∀ p, w.nm.moved_exception = some p → p.slot_id = e.slot_id) ∧ ¬ c.Rejects e ∧
      (w.nm.slotNodes e.slot_id).isSome
  | lookup slot read_from_replicas server_type _ =>
    ((w.latest slot).isSome → read_from_replicas = false ∧ server_type ≠ some .REPLICA) ∧
      SparesOthers w
  | initializeNodes _ => True

end RedirectCall

open RedirectCall

/-! ### The end of a lookup -/

/-- The end of `get_node_from_slot`. -/
def Variant.pickNodeOf (slot : Int) (read_from_replicas : Bool) (server_type : Option ServerType)
    (randint : Nat → Nat → Nat) : Variant → M ClusterNode
  | sync => Sync.NodesManager.pickNode slot read_from_replicas server_type randint
  | asyncio => Asyncio.NodesManager.pickNode slot read_from_replicas

theorem getNodeFromSlot_eq_bind (c : Variant) (slot : Int) (read_from_replicas : Bool)
    (server_type : Option ServerType) (randint : Nat → Nat → Nat) :
    c.getNodeFromSlot slot read_from_replicas server_type randint =
      (applyMoved c.updateMovedSlots >>= fun _ =>
        c.pickNodeOf slot read_from_replicas server_type randint) := by
  cases c <;> rfl

theorem run_pickNodeOf (c : Variant) {nm : NodesManager} {slot : Int} {t : ClusterNode}
    {tl : List ClusterNode} {server_type : Option ServerType} (randint : Nat → Nat → Nat)
    (h : nm.slotNodes slot = some (t :: tl)) (ht : server_type ≠ some .REPLICA) :
    (c.pickNodeOf slot false server_type randint).run nm = .ok t nm := by
  cases c with
  | asyncio => exact run_pickNode .asyncio randint h
  | sync =>
    have hp : server_type = none ∨ server_type = some .PRIMARY := by
      rcases server_type with _ | _ | _
      · exact .inl rfl
      · exact .inr rfl
      · exact absurd rfl ht
    rcases hp with rfl | rfl
    · exact run_pickNode .sync randint h
    · simp [Variant.pickNodeOf, Sync.NodesManager.pickNode, h, item]

/-- Only the load balancer may turn. -/
def SameTable (nm nm' : NodesManager) : Prop := ∃ lb, nm' = { nm with read_load_balancer := lb }

theorem SameTable.refl (nm : NodesManager) : SameTable nm nm := ⟨_, rfl⟩

theorem pickNodeOf_same (c : Variant) (nm : NodesManager) (slot : Int) (read_from_replicas : Bool)
    (server_type : Option ServerType) (randint : Nat → Nat → Nat) :
    Post ((c.pickNodeOf slot read_from_replicas server_type randint).run nm)
      (fun _ => SameTable nm) (fun _ => SameTable nm) := by
  have hlb : ∀ nm' lb, SameTable nm nm' → SameTable nm { nm' with read_load_balancer := lb } := by
    rintro _ lb ⟨_, rfl⟩
    exact ⟨lb, rfl⟩
  cases c with
  | sync =>
    exact sync_pickNode_keeps slot read_from_replicas server_type randint hlb nm (.refl nm)
  | asyncio => exact asyncio_pickNode_keeps slot read_from_replicas hlb nm (.refl nm)

/-! ### The invariant -/

/-- The latest redirection of a slot is pending, or worked off and in the table. -/
def Kept (nm : NodesManager) (t : Int) (e : Redirect) : Prop :=
  nm.moved_exception = some e ∨
    (∀ p, nm.moved_exception = some p → p.slot_id ≠ t) ∧
      ∃ h tl, nm.slotNodes t = some (h :: tl) ∧ h.name = nm.redirectName e

structure Told.Inv (c : Variant) (w : Told) : Prop where
  wf : w.nm.Wf
  pending : ∀ p, w.nm.moved_exception = some p →
    ¬ c.Rejects p ∧ (w.nm.slotNodes p.slot_id).isSome ∨ ∀ t, w.latest t = none
  latest : ∀ t e, w.latest t = some e → e.slot_id = t ∧ Kept w.nm t e

theorem inv_nothing {c : Variant} {nm : NodesManager} (hwf : nm.Wf) : Told.Inv c { nm := nm } :=
  ⟨hwf, fun _ _ => .inr fun _ => rfl, fun _ _ h => by cases h⟩

/-- A redirection that spares the others is worked off: the redirected slots read what
they were redirected to. -/
theorem Updated.kept {c : Variant} {w : Told} {p : Redirect} {u : Unit} {nm' : NodesManager}
    (hw : w.Inv c) (hp : w.nm.moved_exception = some p) (hspare : SparesOthers w)
    (hu : Updated c w.nm p (.ok u nm')) :
    ∀ t e, w.latest t = some e →
      ∃ h tl, nm'.slotNodes t = some (h :: tl) ∧ h.name = w.nm.redirectName e := by
  intro t e ht
  obtain ⟨hslot, hkept⟩ := hw.latest t e ht
  by_cases hts : t = p.slot_id
  · -- the slot of the pending redirection itself
    have he : e = p := by
      rcases hkept with h | ⟨h, -⟩
      · exact Option.some.inj (h.symm.trans hp)
      · exact absurd hts.symm (h p hp)
    subst he
    cases hu with
    | @failover x q tl r nm₁ _ h hx hs hr hmem lists slots_cache =>
      obtain ⟨tl', hpro⟩ := exists_promote hmem
      exact ⟨x, tl', hts ▸ hpro ▸ slotNodes_failover hs lists slots_cache, hx.name⟩
    | @replaced x r nm₁ _ h hx hs hmem lists slots_cache =>
      exact ⟨x, [], hts ▸ slotNodes_replaced lists slots_cache, hx.name⟩
  · have hold : ∃ h tl, w.nm.slotNodes t = some (h :: tl) ∧ h.name = w.nm.redirectName e := by
      rcases hkept with h | ⟨-, h⟩
      · rw [hp] at h
        rw [Option.some.inj h] at hts
        exact absurd hslot.symm hts
      · exact h
    cases hu with
    | @failover x q tl r nm₁ _ h hx hs hr hmem lists slots_cache =>
      by_cases hsh : SharesList w.nm p.slot_id t
      · have hname : w.nm.redirectName e = w.nm.redirectName p := by
          rcases hspare p hp t e hts ht hsh with hno | hname
          · exact absurd (hx.name ▸ hr ▸ hmem) (hno _ (slotNodes_eq hs))
          · exact hname
        obtain ⟨tl', hpro⟩ := exists_promote hmem
        obtain ⟨-, ha⟩ := slotNodes_write_shared hs slots_cache lists hsh
        exact ⟨x, tl', hpro ▸ ha, hx.name.trans hname.symm⟩
      · rw [slotNodes_write hs slots_cache lists hsh]
        exact hold
    | @replaced x r nm₁ _ h hx hs hmem lists slots_cache =>
      obtain ⟨y, tl, hread, hname⟩ := hold
      refine ⟨y, tl, ?_, hname⟩
      rw [slotNodes_congr, hread]
      · rw [slots_cache]
        exact Keyed.get?_put_ne w.nm.slots_cache hts
      · intro entry he
        rw [lists]
        exact Heap.read_alloc_of_lt _ _ (hw.wf.slots entry (Keyed.mem_of_get? he))

/-- What `get_node_from_slot` starts with, where something was redirected. -/
theorem applyMoved_kept {c : Variant} {w : Told} (hw : w.Inv c) (hspare : SparesOthers w)
    {t₀ : Int} {e₀ : Redirect} (h₀ : w.latest t₀ = some e₀) :
    ∃ nm', (applyMoved c.updateMovedSlots).run w.nm = .ok () nm' ∧ nm'.moved_exception = none ∧
      nm'.toSettings = w.nm.toSettings ∧ ∀ t e, w.latest t = some e →
        ∃ h tl, nm'.slotNodes t = some (h :: tl) ∧ h.name = w.nm.redirectName e := by
  unfold applyMoved
  simp only [EStateM.run_bind, EStateM.run_get]
  cases hp : w.nm.moved_exception with
  | none =>
    refine ⟨w.nm, rfl, hp, rfl, fun t e ht => ?_⟩
    obtain ⟨-, hk | ⟨-, hk⟩⟩ := hw.latest t e ht
    · rw [hp] at hk
      cases hk
    · exact hk
  | some p =>
    have hu := updateMovedSlots_cases c w.nm p hp
    simp only [Option.isSome_some, if_true]
    obtain ⟨hrej, hcov⟩ : ¬ c.Rejects p ∧ (w.nm.slotNodes p.slot_id).isSome := by
      rcases hw.pending p hp with h | h
      · exact h
      · rw [h t₀] at h₀
        cases h₀
    cases hr : c.updateMovedSlots.run w.nm with
    | error err nm' =>
      rw [hr] at hu
      cases hu with
      | rejected _ h => exact absurd h hrej
      | uncovered _ h hx hs => simp [slotNodes, hs] at hcov
    | ok u nm' =>
      rw [hr] at hu
      have ha := hu.applied
      exact ⟨nm', rfl, ha.moved, ha.settings, hu.kept hw hp hspare⟩

/-! ### Runs -/

theorem redirectName_eq {nm nm' : NodesManager} (h : nm'.toSettings = nm.toSettings) (e : Redirect) :
    nm'.redirectName e = nm.redirectName e := by
  rw [redirectName, redirectName, h]

theorem lookup_step {c : Variant} {w : Told} (slot : Int) (read_from_replicas : Bool)
    (server_type : Option ServerType) (randint : Nat → Nat → Nat) (hw : w.Inv c)
    (hok : InOrder c w (.lookup slot read_from_replicas server_type randint)) :
    Follows c w (.lookup slot read_from_replicas server_type randint) ∧
      (step c w (.lookup slot read_from_replicas server_type randint)).Inv c := by
  obtain ⟨hprimary, hspare⟩ := hok
  have hwf := (getNodeFromSlot_wf c slot read_from_replicas server_type randint w.nm hw.wf).state
  by_cases hnone : ∀ t, w.latest t = none
  · have habsurd : ∀ {t e}, w.latest t = some e → False := by
      intro t e ht
      rw [hnone t] at ht
      cases ht
    exact ⟨fun e he => (habsurd he).elim, hwf, fun _ _ => .inr hnone, fun t e ht => (habsurd ht).elim⟩
  · push Not at hnone
    obtain ⟨t₀, ht₀⟩ := hnone
    obtain ⟨e₀, he₀⟩ := Option.ne_none_iff_exists'.mp ht₀
    obtain ⟨nm₁, hrun, hm, hset, hkept⟩ := applyMoved_kept hw hspare he₀
    have heq : (c.getNodeFromSlot slot read_from_replicas server_type randint).run w.nm =
        (c.pickNodeOf slot read_from_replicas server_type randint).run nm₁ := by
      rw [getNodeFromSlot_eq_bind, EStateM.run_bind, hrun]
    refine ⟨fun e he => ?_, hwf, ?_, ?_⟩
    · obtain ⟨rfl, ht⟩ := hprimary (he ▸ rfl)
      obtain ⟨h, tl, hs, hname⟩ := hkept slot e he
      exact ⟨h, nm₁, heq.trans (run_pickNodeOf c randint hs ht), hname⟩
    -- a lookup that finds nothing, or a replica, still leaves the table worked off
    all_goals
      obtain ⟨lb, hlb⟩ := (pickNodeOf_same c nm₁ slot read_from_replicas server_type randint).state
      have hnm : (step c w (.lookup slot read_from_replicas server_type randint)).nm =
          { nm₁ with read_load_balancer := lb } := (congrArg state heq).trans hlb
      rw [hnm]
    · intro p hp
      rw [show nm₁.moved_exception = some p from hp] at hm
      cases hm
    · intro t e ht
      refine ⟨(hw.latest t e ht).1, .inr ⟨fun p hp => ?_, ?_⟩⟩
      · rw [show nm₁.moved_exception = some p from hp] at hm
        cases hm
      · obtain ⟨h, tl, hs, hname⟩ := hkept t e ht
        exact ⟨h, tl, hs, hname.trans (redirectName_eq hset e).symm⟩

theorem moved_step {c : Variant} {w : Told} (e : Redirect) (hw : w.Inv c)
    (hok : InOrder c w (.moved e)) : (step c w (.moved e)).Inv c := by
  obtain ⟨hpending, hrej, hcov⟩ := hok
  refine ⟨hw.wf.same rfl rfl rfl rfl rfl, ?_, ?_⟩
  · intro p hp
    obtain rfl : e = p := Option.some.inj hp
    exact .inl ⟨hrej, hcov⟩
  · intro t e' ht
    have ht' : Function.update w.latest e.slot_id (some e) t = some e' := ht
    by_cases hts : t = e.slot_id
    · rw [hts, Function.update_self] at ht'
      obtain rfl : e = e' := Option.some.inj ht'
      exact ⟨hts.symm, .inl rfl⟩
    · rw [Function.update_of_ne hts] at ht'
      obtain ⟨hslot, hk⟩ := hw.latest t e' ht'
      refine ⟨hslot, .inr ⟨fun p hp => ?_, ?_⟩⟩
      · obtain rfl : e = p := Option.some.inj hp
        exact fun h => hts h.symm
      · rcases hk with hk | ⟨-, hk⟩
        · exact absurd (hslot.symm.trans (hpending e' hk)) hts
        · exact hk

theorem initializeNodes_step {c : Variant} {w : Told} (cluster_slots : ClusterSlots)
    (hw : w.Inv c) : (step c w (.initializeNodes cluster_slots)).Inv c := by
  have hwf : (state ((c.initializeNodes cluster_slots).run w.nm)).Wf :=
    initializeNodes_wf c cluster_slots w.nm hw.wf
  by_cases hput : PutInPlace ((c.initializeNodes cluster_slots).run w.nm)
  · have hw' : step c w (.initializeNodes cluster_slots) =
        { nm := state ((c.initializeNodes cluster_slots).run w.nm) } := by
      simp only [step, if_pos hput]
    rw [hw']
    exact inv_nothing hwf
  · have hw' : step c w (.initializeNodes cluster_slots) =
        { nm := state ((c.initializeNodes cluster_slots).run w.nm), latest := w.latest } := by
      simp only [step, if_neg hput]
    rw [hw']
    have hkeep := initializeNodes_untouched (untouched_moved w.nm.moved_exception) c cluster_slots
      w.nm hw.wf rfl
    cases hr : (c.initializeNodes cluster_slots).run w.nm with
    | ok _ nm' =>
      rw [hr] at hput
      exact absurd trivial hput
    | error err nm' =>
      rw [hr] at hput hkeep hwf
      obtain ⟨hext, hm⟩ := hkeep.resolve_left hput
      have hslots : ∀ t nodes, w.nm.slotNodes t = some nodes → nm'.slotNodes t = some nodes := by
        intro t nodes hn
        have hsame : nm'.slotNodes t = w.nm.slotNodes t :=
          slotNodes_congr (by rw [hext.slots_cache])
            fun entry he => hext.lists _ (hw.wf.slots entry (Keyed.mem_of_get? he))
        exact hsame.trans hn
      refine ⟨hwf, fun p hp => ?_, fun t e ht => ?_⟩
      · refine (hw.pending p (hm.symm.trans hp)).imp (fun h => ⟨h.1, ?_⟩) id
        obtain ⟨nodes, hn⟩ := Option.isSome_iff_exists.mp h.2
        exact Option.isSome_iff_exists.mpr ⟨nodes, hslots _ _ hn⟩
      · obtain ⟨hslot, hk⟩ := hw.latest t e ht
        refine ⟨hslot, ?_⟩
        rcases hk with hk | ⟨hk, h, tl, hs, hname⟩
        · exact .inl (hm.trans hk)
        · exact .inr ⟨fun p hp => hk p (hm.symm.trans hp), h, tl, hslots _ _ hs,
            hname.trans (redirectName_eq hext.settings e).symm⟩

theorem step_inv {c : Variant} {w : Told} (call : RedirectCall) (hw : w.Inv c)
    (hok : InOrder c w call) : Follows c w call ∧ (step c w call).Inv c := by
  cases call with
  | lookup slot read_from_replicas server_type randint =>
    exact lookup_step slot read_from_replicas server_type randint hw hok
  | moved e => exact ⟨trivial, moved_step e hw hok⟩
  | initializeNodes cluster_slots => exact ⟨trivial, initializeNodes_step cluster_slots hw⟩

end RedisPy
