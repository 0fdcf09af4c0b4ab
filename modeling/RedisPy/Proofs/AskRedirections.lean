import RedisPy.Library.Course
import RedisPy.Spec.AskWatch
import RedisPy.Spec.ClusterScript
import RedisPy.Proofs.ClusterAttempts

/-! ASK redirections: when the command comes right after ASKING on the connection
that it is sent on. -/

namespace RedisPy

open Raising Wire Course

/-- Every command that goes to a node of an ASK redirection comes right after ASKING. -/
abbrev AskedFor {κ : Type} [DecidableEq κ] (w : Log κ Transmission) : Prop :=
  Preceded .ASKING (.command true) w

namespace Sync

variable {σ ρ κ α : Type} [DecidableEq κ] {ops : Ops σ ρ κ α}

/-- The log is in order. -/
abbrev WireOk (s : σ × Watch κ) : Prop := AskedFor s.2.wire

omit [DecidableEq κ] in
theorem keeps_watch {β : Type} (p : Watch κ → Prop) (m : EStateM Exc σ β) :
    Keeps (fun s : σ × Watch κ => p s.2) (first m) := Keeps.first

omit [DecidableEq κ] in
theorem keeps_watch_locals {β : Type} (p : Watch κ → Prop) (m : EStateM Exc σ β) :
    Keeps (fun s : (σ × Watch κ) × Locals ρ κ => p s.1.2) (first (first m)) :=
  keeps_first (keeps_watch p m)

theorem keeps_wireOk {β : Type} (m : EStateM Exc σ β) :
    Keeps (WireOk (σ := σ) (κ := κ)) (first m) := keeps_watch (fun watch => AskedFor watch.wire) m

theorem found_keeps {β : Type} (asked : Bool) (m : EStateM Exc σ β) :
    Keeps (WireOk (σ := σ) (κ := κ)) (Watch.found asked m) := by
  apply Keeps.bind (keeps_wireOk m)
  exact fun b s hs => hs

theorem watched_background (ops : Ops σ ρ κ α) : Background (watched ops) WireOk where
  attempt := keeps_wireOk _
  getNode _ := found_keeps _ _
  determineSlot := keeps_wireOk _
  getNodeFromSlot _ := found_keeps _ _
  popStartupNode _ := keeps_wireOk _
  countMoved := keeps_wireOk _
  resetCounter := keeps_wireOk _
  updateMovedException _ := keeps_wireOk _
  getRedisConnection _ := keeps_wireOk _
  getConnection _ := keeps_wireOk _
  disconnect _ := keeps_wireOk _
  forgetConnection _ := keeps_wireOk _
  initializeNodes := keeps_wireOk _
  release _ _ := keeps_wireOk _

/-- An attempt is in order: a node that an ASK redirection named is asked again, or
given up for the slot's own. -/
def InOrder (s : (σ × Watch κ) × Locals ρ κ) : Prop :=
  s.1.2.asked = true → s.2.asking = true ∨ s.2.moved = true

/-- ASKING comes before the command, if it has to. -/
structure Due (s : (σ × Watch κ) × Locals ρ κ) : Prop where
  wire : AskedFor s.1.2.wire
  asking : s.1.2.asked = true → s.2.asking = true

theorem findTarget_due (s : (σ × Watch κ) × Locals ρ κ) (hw : AskedFor s.1.2.wire) (hs : InOrder s) :
    Post ((findTarget (watched ops)).run s) (fun _ => Due) (fun _ => OfState WireOk) := by
  obtain ⟨⟨w, watch⟩, l⟩ := s
  unfold findTarget
  apply Post.bind (Q := fun l' s' => l = l' ∧ s' = ((w, watch), l))
  · exact ⟨rfl, rfl⟩
  rintro _ _ ⟨rfl, rfl⟩
  apply Post.ite
  · intro hasking
    apply Post.bind (Q := fun _ s' => AskedFor s'.1.2.wire ∧ s'.2 = l)
    · apply Post.first
      exact (found_keeps true (ops.getNode l.redirect_addr) (w, watch) hw).mono
        (fun _ _ h => ⟨h, rfl⟩) fun _ _ h => h
    · rintro n ⟨⟨w', watch'⟩, _⟩ ⟨hw', rfl⟩
      exact ⟨hw', fun _ => hasking⟩
  · intro hasking
    apply Post.ite
    · intro _
      apply Post.bind (keeps_first (keeps_wireOk ops.determineSlot) _ hw)
      rintro slot ⟨⟨w', watch'⟩, l'⟩ hw'
      apply Post.bind (Q := fun _ s' => AskedFor s'.1.2.wire ∧ s'.1.2.asked = false)
      · apply Post.first
        unfold watched Watch.found
        apply Post.bind (keeps_wireOk (ops.getNodeFromSlot slot) (w', watch') hw')
        exact fun _ _ h => ⟨h, rfl⟩
      · rintro n ⟨⟨w', watch'⟩, l'⟩ ⟨hw', hasked⟩
        exact ⟨hw', fun h => absurd (hasked.symm.trans h) Bool.false_ne_true⟩
    · intro hmoved
      exact ⟨hw, fun h => (hs h).resolve_right hmoved⟩

theorem keeps_due {β : Type} {m : EStateM Exc (σ × Watch κ) β}
    (h : ∀ watch, Keeps (fun s => s.2 = watch) m) :
    Keeps (Due (ρ := ρ)) (first m) := by
  rintro ⟨⟨w, watch⟩, l⟩ hs
  apply Post.first
  refine (h watch (w, watch) rfl).mono ?_ ?_
  · rintro _ ⟨w', _⟩ rfl
    exact ⟨hs.wire, hs.asking⟩
  · rintro _ ⟨w', _⟩ rfl
    exact ⟨hs.wire, hs.asking⟩

theorem acquire_due (s : (σ × Watch κ) × Locals ρ κ) (hw : AskedFor s.1.2.wire) (hs : InOrder s) :
    Post ((acquire (watched ops)).run s) (fun _ => Due) (fun _ => OfState WireOk) := by
  unfold acquire
  apply Post.bind (findTarget_due s hw hs)
  intro _ s₁ hs₁
  refine (connect_keeps (K := Due) ?_ ?_ ?_ ?_ s₁ hs₁).mono (fun _ _ h => h) fun _ _ h => h.wire
  · exact fun n => keeps_due fun watch => keeps_watch (· = watch) _
  · exact fun r => keeps_due fun watch => keeps_watch (· = watch) _
  · exact fun _ _ _ _ hs => ⟨⟨hs.wire, hs.asking⟩, hs.wire, hs.asking⟩
  · exact fun _ _ _ hs => ⟨hs.wire, hs.asking⟩

/-- The command is sent right after ASKING, on the same connection. -/
theorem converse_askedFor (r : ρ) (k : κ) (s : (σ × Watch κ) × Locals ρ κ) (hs : Due s) :
    Post ((converse (watched ops) r k).run s) (fun _ => OfState WireOk) (fun _ => OfState WireOk) := by
  have hrest : ∀ s : (σ × Watch κ) × Locals ρ κ, AskedFor s.1.2.wire →
      (s.1.2.asked = true → lastOn k s.1.2.wire = some .ASKING) → Post ((do
        first ((watched ops).sendCommand k .command)
        let response ← first ((watched ops).parseResponse r k .command)
        first ((watched ops).callback response) : Call (σ × Watch κ) ρ κ α).run s)
        (fun _ => OfState WireOk) (fun _ => OfState WireOk) := by
    rintro ⟨⟨w, watch⟩, l⟩ hw hlast
    apply Post.bind (Q := fun _ => OfState WireOk)
    · apply Post.first
      apply Post.bind (Q := fun _ => WireOk)
      · apply Preceded.concat hw
        intro he
        exact hlast (by simpa [Watch.transmission] using he)
      · exact fun _ s' hs' => keeps_wireOk (ops.sendCommand k .command) s' hs'
    · intro _ s₁ hs₁
      apply Post.bind (keeps_first (keeps_wireOk (ops.parseResponse r k .command)) s₁ hs₁)
      exact fun response s₂ hs₂ => keeps_first (keeps_wireOk (ops.callback response)) s₂ hs₂
  obtain ⟨⟨w, watch⟩, l⟩ := s
  unfold converse
  apply Post.bind (Q := fun l' s' => l = l' ∧ s' = ((w, watch), l))
  · exact ⟨rfl, rfl⟩
  rintro _ _ ⟨rfl, rfl⟩
  apply Post.ite
  · intro _
    have hsent : AskedFor (watch.wire ++ [(k, Transmission.ASKING)]) := hs.wire.concat (by simp)
    apply Post.bind (Q := fun _ s => s.1.2 = { watch with wire := watch.wire ++ [(k, .ASKING)] })
    · apply Post.first
      apply Post.bind (Q := fun _ s => s.2 = { watch with wire := watch.wire ++ [(k, .ASKING)] })
      · rfl
      · rintro _ ⟨w', _⟩ rfl
        refine (keeps_watch (· = _) (ops.sendCommand k .ASKING) (w', _) rfl).mono (fun _ _ h => h)
          fun _ s' h => ?_
        change AskedFor s'.2.wire
        rw [h]
        exact hsent
    · intro _ s₁ hs₁
      refine Post.bind ((keeps_watch_locals (· = _) (ops.parseResponse r k .ASKING) s₁ hs₁).mono
        (fun _ _ h => h) fun _ s' h => ?_) ?_
      · change AskedFor s'.1.2.wire
        rw [h]
        exact hsent
      · intro _ s₂ hs₂
        apply Post.bind (Q := fun _ s => s.1.2 = { watch with wire := watch.wire ++ [(k, .ASKING)] })
        · exact hs₂
        · intro _ s₃ hs₃
          apply hrest
          · rw [hs₃]
            exact hsent
          · rw [hs₃]
            exact fun _ => lastOn_concat
  · intro hasking
    exact hrest _ hs.wire fun h => absurd (hs.asking h) hasking

theorem attempt_askedFor (s : (σ × Watch κ) × Locals ρ κ) (hw : AskedFor s.1.2.wire) (hs : InOrder s) :
    Post ((attempt (watched ops)).run s) (fun _ => OfState WireOk) (fun _ => OfState WireOk) := by
  apply (watched_background ops).round (P := fun s => AskedFor s.1.2.wire ∧ InOrder s)
  · obtain ⟨⟨w, watch⟩, l⟩ := s
    apply Post.first
    refine (keeps_watch (· = watch) ops.attempt (w, watch) rfl).mono ?_ ?_
    · rintro _ ⟨w', _⟩ rfl
      exact ⟨hw, hs⟩
    · rintro _ ⟨w', _⟩ rfl
      exact hw
  · rintro s₁ ⟨hw₁, hs₁⟩
    apply Post.bind (acquire_due s₁ hw₁ hs₁)
    rintro ⟨r, k⟩ s₂ hs₂
    exact converse_askedFor r k s₂ hs₂

/-- The sync client, from any log in order. -/
theorem executeCommand_askedFor (ops : Ops σ ρ κ α) (target_node : ClusterNode) (w : σ)
    (watch : Watch κ) (hw : AskedFor watch.wire)
    (h : EachRound (attempt (watched ops)) InOrder RedisClusterRequestTTL
      ((w, watch), { target_node := some target_node })) :
    AskedFor (state ((_executeCommand (watched ops) target_node).run (w, watch))).2.wire := by
  unfold _executeCommand
  rw [state_withLocals]
  exact EachRound.keeps (f := attempts (watched ops)) (I := OfState WireOk) (fun _ h => h) (attempts_succ _)
    (fun s hw hs => attempt_askedFor s hw hs) h hw

end Sync

namespace Asyncio

namespace AskWorld

variable {κ α : Type} [DecidableEq κ] {s : AskWorld κ α}

/-- The log is in order. -/
abbrev WireOk (s : AskWorld κ α) : Prop := AskedFor s.watch.wire

omit [DecidableEq κ] in
theorem ofExcept_keeps {β : Type} (I : AskWorld κ α → Prop) (r : Except Exc β) :
    Keeps I (ofExcept r) := by
  intro s hs
  cases r <;> exact hs

omit [DecidableEq κ] in
/-- A connection that is free alone is taken. -/
theorem acquireConnection_post (name : String) (what : Sent) :
    Post ((acquireConnection name what).run s)
      (fun c s' => s'.watch = s.watch ∧ s'.now = s.now ∧ ∀ c', s._free name = [c'] → c = c')
      (fun _ s' => s'.watch = s.watch) := by
  unfold acquireConnection
  apply Post.get_bind
  cases hf : s._free name with
  | cons c free => exact ⟨rfl, rfl, fun c' hc => (List.cons.inj hc).1⟩
  | nil =>
    apply Post.get_bind
    refine (ofExcept_keeps (fun s' => s' = s) (s.now.connection what) s rfl).mono ?_ ?_
    · rintro c _ rfl
      exact ⟨rfl, rfl, fun c' hc => nomatch hc⟩
    · rintro e _ rfl
      rfl

/-- What a connection in use is seen to do while other tasks run. -/
structure Kept (c : κ) (what : Option Transmission) (s s' : AskWorld κ α) : Prop where
  wire : AskedFor s'.watch.wire
  lastOn : lastOn c s'.watch.wire = what
  asked : s'.watch.asked = s.watch.asked
  now : s'.now = s.now

theorem Kept.others {c : κ} {what : Option Transmission} {s₀ : AskWorld κ α} (h : Kept c what s₀ s)
    (o : OtherTasks κ) : Kept c what s₀ (state ((others c o).run s)) := by
  refine ⟨h.wire.append ?_, ?_, h.asked, h.now⟩
  · intro e he
    obtain ⟨k, -, rfl⟩ := List.mem_map.mp he
    simp
  · rw [← h.lastOn]
    apply lastOn_append_of_forall_ne
    intro e he
    obtain ⟨k, hk, rfl⟩ := List.mem_map.mp he
    simpa using (List.mem_filter.mp hk).2

/-- The connection is given back behind those that are free when the answer is read. -/
theorem exchange_post {c : κ} {what : Sent} {m : Option Transmission} {n : ClusterNode}
    {s₀ : AskWorld κ α} (h : Kept c m s₀ s) :
    Post ((do
      others c ((← get).now.sending what)
      ofExcept ((← get).now.send what)
      others c ((← get).now.reading what)
      tryFinally (do ofExcept ((← get).now.answer what)) (release n.name c) : M κ α α).run s)
      (fun _ s' => Kept c m s₀ s' ∧
        s'._free n.name = ((s₀.now.reading what).free n.name).filter (· ≠ c) ++ [c])
      (fun _ => WireOk) := by
  apply Post.get_bind
  apply Post.bind (Q := fun _ => Kept c m s₀)
  · exact h.others _
  intro _ s₁ hs₁
  apply Post.get_bind
  apply Post.bind ((ofExcept_keeps _ _ s₁ hs₁).mono (fun _ _ h => h) fun _ _ h => h.wire)
  intro _ s₂ hs₂
  apply Post.get_bind
  apply Post.bind (Q := fun _ s' => Kept c m s₀ s' ∧
    s'._free n.name = ((s₀.now.reading what).free n.name).filter (· ≠ c))
  · refine ⟨hs₂.others _, ?_⟩
    rw [hs₂.now]
  rintro _ s₃ ⟨hs₃, hfree⟩
  have hrelease : Kept c m s₀ (state ((release n.name c).run s₃)) :=
    ⟨hs₃.wire, hs₃.lastOn, hs₃.asked, hs₃.now⟩
  apply Post.tryFinally (R := fun _ s' => s' = s₃) (F := fun _ s' => s' = s₃)
  · exact ofExcept_keeps (fun s' => s' = s₃) _ s₃ rfl
  · rintro a _ rfl
    refine ⟨hrelease, ?_⟩
    rw [← hfree]
    exact Function.update_self ..
  · rintro e _ rfl
    exact hrelease.wire

/-- A command, on a connection where ASKING was the last one if it has to be. -/
theorem executeCommand_post {n : ClusterNode} (what : Sent) (hw : WireOk s)
    (h : what = .command → s.watch.asked = true →
      ∃ c, s._free n.name = [c] ∧ lastOn c s.watch.wire = some .ASKING) :
    Post ((executeCommand n what).run s)
      (fun _ s' => WireOk s' ∧ s'.watch.asked = s.watch.asked ∧ ∃ c,
        lastOn c s'.watch.wire = some (s.watch.transmission what) ∧
        s'._free n.name = ((s.now.reading what).free n.name).filter (· ≠ c) ++ [c])
      (fun _ => WireOk) := by
  unfold executeCommand
  apply Post.bind ((acquireConnection_post n.name what).mono (fun _ _ h => h) fun _ s' hs' => ?_)
  · rintro c s₁ ⟨hwatch, hnow, hc⟩
    apply Post.bind (Q := fun _ => Kept c (some (s.watch.transmission what)) s)
    · have hsent : AskedFor (s.watch.wire ++ [(c, s.watch.transmission what)]) := by
        apply hw.concat
        intro he
        have hwhat : what = .command ∧ s.watch.asked = true := by
          cases what <;> simp [Watch.transmission] at he ⊢
          exact he
        obtain ⟨c', hfree, hlast⟩ := h hwhat.1 hwhat.2
        rw [hc c' hfree]
        exact hlast
      refine ⟨?_, ?_, ?_, hnow⟩
      · change AskedFor (s₁.watch.wire ++ [(c, s₁.watch.transmission what)])
        rw [hwatch]
        exact hsent
      · change lastOn c (s₁.watch.wire ++ [(c, s₁.watch.transmission what)]) = _
        rw [hwatch]
        exact lastOn_concat
      · change s₁.watch.asked = s.watch.asked
        rw [hwatch]
    · intro _ s₂ hs₂
      exact (exchange_post hs₂).mono (fun _ s' hs' =>
        ⟨hs'.1.wire, hs'.1.asked, c, hs'.1.lastOn, hs'.2⟩) fun _ _ h => h
  · change AskedFor s'.watch.wire
    rw [hs']
    exact hw

theorem background : Background (ops : Asyncio.Ops (AskWorld κ α) α) WireOk where
  popStartupNode _ := Keeps.pure _
  countMoved _ hs := hs
  resetCounter := Keeps.pure _
  updateMovedException _ := Keeps.pure _
  aclose s hs := ofExcept_keeps WireOk s.now.aclose s hs

/-- An attempt is in order: a node that an ASK redirection named is asked again, or
given up for the slot's own; and when it has answered to ASKING none of its
connections is free. -/
def InOrder (s : AskWorld κ α × Locals) : Prop :=
  (s.1.watch.asked = true → s.2.asking = true ∨ s.2.moved = true) ∧
    (s.2.asking = true → ∀ n, (s.1.later 0).known = some n →
      ((s.1.later 0).reading .ASKING).free n.name = [])

/-- The same, once the attempt has begun. -/
structure Begun (s : AskWorld κ α × Locals) : Prop where
  wire : WireOk s.1
  asked : s.1.watch.asked = true → s.2.asking = true ∨ s.2.moved = true
  free : s.2.asking = true → ∀ n, s.1.now.known = some n → (s.1.now.reading .ASKING).free n.name = []

theorem executeOnTarget_askedFor (s : AskWorld κ α × Locals) (hw : WireOk s.1)
    (h : s.1.watch.asked = true → ∀ n, s.2.target_node = some n →
      ∃ c, s.1._free n.name = [c] ∧ lastOn c s.1.watch.wire = some .ASKING) :
    Post ((executeOnTarget ops .command).run s) (fun _ => OfState WireOk) (fun _ => OfState WireOk) := by
  obtain ⟨w, l⟩ := s
  unfold executeOnTarget
  apply Post.bind (Q := fun l' s' => l = l' ∧ s' = (w, l))
  · exact ⟨rfl, rfl⟩
  rintro _ _ ⟨rfl, rfl⟩
  cases hn : l.target_node with
  | none => exact hw
  | some n =>
    apply Post.first
    exact (executeCommand_post _ hw fun _ hasked => h hasked n hn).mono (fun _ _ h => h.1) fun _ _ h => h

theorem converse_askedFor (s : AskWorld κ α × Locals) (hs : Begun s) :
    Post ((converse ops).run s) (fun _ => OfState WireOk) (fun _ => OfState WireOk) := by
  obtain ⟨w, l⟩ := s
  unfold converse
  apply Post.bind (Q := fun l' s' => l = l' ∧ s' = (w, l))
  · exact ⟨rfl, rfl⟩
  rintro _ _ ⟨rfl, rfl⟩
  cases hasking : l.asking with
  | true =>
    simp only [ite_true]
    -- ASKING goes to the node, and the command after it on what is free then
    apply Post.bind (Q := fun t s' => t = w.now.known ∧ s'.2 = l ∧ WireOk s'.1 ∧ s'.1.now = w.now)
    · exact ⟨rfl, rfl, hs.wire, rfl⟩
    rintro target_node ⟨w₁, l₁⟩ ⟨rfl, hl₁, hw₁, hnow⟩
    obtain rfl : l = l₁ := hl₁.symm
    apply Post.bind (Q := fun _ s' => s' = (w₁, { l with target_node := w.now.known }))
    · exact rfl
    rintro _ _ rfl
    apply Post.bind (Q := fun _ s' => WireOk s'.1 ∧ ∀ n, s'.2.target_node = some n →
      ∃ c, s'.1._free n.name = [c] ∧ lastOn c s'.1.watch.wire = some .ASKING)
    · unfold executeOnTarget
      apply Post.bind (Q := fun l' s' => l'.target_node = w.now.known ∧
        s' = (w₁, { l with target_node := w.now.known }))
      · exact ⟨rfl, rfl⟩
      rintro l' _ ⟨hl', rfl⟩
      rw [hl']
      cases hknown : w.now.known with
      | none => exact hw₁
      | some n =>
        apply Post.first
        refine (executeCommand_post .ASKING hw₁ fun h => nomatch h).mono ?_ fun _ _ h => h
        rintro a w₂ ⟨hw₂, -, c, hlast, hfree⟩
        refine ⟨hw₂, fun n' hn' => ⟨c, ?_, hlast⟩⟩
        obtain rfl : n = n' := Option.some.inj hn'
        have hnil : (w₁.now.reading .ASKING).free n.name = [] := by
          rw [hnow]
          exact hs.free hasking n hknown
        rw [hfree, hnil]
        rfl
    · rintro _ ⟨w₂, l₂⟩ ⟨hw₂, hfree⟩
      apply Post.bind (Q := fun _ s' => s' = (w₂, { l₂ with asking := false }))
      · exact rfl
      rintro _ _ rfl
      exact executeOnTarget_askedFor _ hw₂ fun _ => hfree
  | false =>
    simp only [Bool.false_eq_true, ite_false]
    cases hmoved : l.moved with
    | true =>
      simp only [ite_true]
      apply Post.bind (Q := fun _ => OfState WireOk)
      · exact keeps_first (fun s hs => ofExcept_keeps WireOk s.now.slot s hs) _ hs.wire
      rintro slot ⟨w₁, l₁⟩ hw₁
      apply Post.bind (Q := fun _ s' => WireOk s'.1 ∧ s'.1.watch.asked = false)
      · apply Post.first
        apply Post.get_bind
        apply Post.bind (ofExcept_keeps WireOk w₁.now.node w₁ hw₁)
        exact fun n w₂ hw₂ => ⟨hw₂, rfl⟩
      rintro n ⟨w₂, l₂⟩ ⟨hw₂, hasked⟩
      apply Post.bind (Q := fun _ s' => WireOk s'.1 ∧ s'.1.watch.asked = false)
      · exact ⟨hw₂, hasked⟩
      rintro _ s₃ ⟨hw₃, hasked⟩
      exact executeOnTarget_askedFor s₃ hw₃ fun h => absurd (hasked.symm.trans h) Bool.false_ne_true
    | false =>
      simp only [Bool.false_eq_true, ite_false]
      apply executeOnTarget_askedFor _ hs.wire
      intro h
      have := hs.asked h
      simp [hasking, hmoved] at this

theorem attempt_askedFor (s : AskWorld κ α × Locals) (hw : WireOk s.1) (hs : InOrder s) :
    Post ((attempt ops).run s) (fun _ => OfState WireOk) (fun _ => OfState WireOk) := by
  apply background.round (P := Begun)
  · refine ⟨hw.append ?_, hs.1, hs.2⟩
    intro e he
    obtain ⟨k, -, rfl⟩ := List.mem_map.mp he
    simp
  · exact converse_askedFor

/-- The asyncio client, from any log in order. -/
theorem executeCommand_askedFor (target_node : ClusterNode) (w : AskWorld κ α) (hw : WireOk w)
    (h : EachRound (attempt ops) InOrder RedisClusterRequestTTL (w, { target_node := some target_node })) :
    WireOk (state ((_executeCommand ops target_node).run w)) := by
  unfold _executeCommand
  rw [state_withLocals]
  exact EachRound.keeps (f := attempts ops) (I := OfState WireOk) (fun _ h => h) (attempts_succ _)
    (fun s hw hs => attempt_askedFor s hw hs) h hw

end AskWorld

end Asyncio

/-- Whatever the environment does, every command that goes to a node of an ASK
redirection comes right after ASKING on its connection, if all attempts are in order. -/
theorem askedFor_of_inOrder {σ ρ κ α : Type} [DecidableEq κ] (target_node : ClusterNode) :
    (∀ (ops : Sync.Ops σ ρ κ α) (w : σ),
      EachRound (Sync.attempt (Sync.watched ops)) Sync.InOrder RedisClusterRequestTTL
        ((w, {}), { target_node := some target_node }) →
      AskedFor (state ((Sync._executeCommand (Sync.watched ops) target_node).run (w, {}))).2.wire) ∧
    (∀ w : Asyncio.AskWorld κ α, AskedFor w.watch.wire →
      EachRound (Asyncio.attempt Asyncio.AskWorld.ops) Asyncio.AskWorld.InOrder RedisClusterRequestTTL
        (w, { target_node := some target_node }) →
      AskedFor (state ((Asyncio._executeCommand Asyncio.AskWorld.ops target_node).run w)).watch.wire) :=
  ⟨fun ops w h => Sync.executeCommand_askedFor ops target_node w {} preceded_nil h,
    fun w hw h => Asyncio.AskWorld.executeCommand_askedFor target_node w hw h⟩

/-! ### A node that imports a slot -/

def askingNode : ClusterNode := ⟨0, "10.0.0.1", 7000⟩

def importingNode : ClusterNode := ⟨1, "10.0.0.2", 7000⟩

def askError : Exc := { cls := .AskError, redirect := some ⟨0, "10.0.0.2", 7000⟩ }

/-- An attempt of the sync client on the connection 0, where the command gets `answer`. -/
def askedAttempt (answer : Except Exc Unit) : Attempt Nat Nat Unit where
  known := some importingNode
  slot := .ok 0
  node := .ok askingNode
  redis := .ok 0
  conn := .ok 0
  send _ := .ok ()
  answer
    | .ASKING => .ok ()
    | .command => answer
  callback _ := .ok ()
  due := false
  disconnect := .ok ()
  initializeNodes := .ok ()
  release := .ok ()

/-- The answers to the command, one attempt after the other. -/
def askedScript (answers : List (Except Exc Unit)) : Script Nat Nat Unit where
  now := askedAttempt (.ok ())
  later n := askedAttempt (answers.getD n (.ok ()))

/-- The same for the asyncio client, with these connections of the importing node free
before the second attempt, and `reading` when ASKING is answered. -/
def askedWorld (answers : List (Except Exc Unit)) (before reading : List Nat) :
    Asyncio.AskWorld Nat Unit where
  now := { node := .ok askingNode, connection := fun _ => .ok 0, answer := fun _ => .ok () }
  later n :=
    { known := some importingNode
      node := .ok askingNode
      connection := fun _ => .ok 0
      answer
        | .ASKING => .ok ()
        | .command => answers.getD n (.ok ())
      before := { free := fun name => if name = importingNode.name ∧ n = 1 then before else [] }
      reading := fun _ => { free := fun name => if name = importingNode.name then reading else [] } }
  _free _ := []

/-- ASK and an answer, in the asyncio client on the only free connection, which another
task gives back in between. -/
theorem askedFor_importing :
    AskedFor (state ((Sync._executeCommand (Sync.watched Script.ops) askingNode).run
      (askedScript [.error askError], {}))).2.wire ∧
    AskedFor (state ((Asyncio._executeCommand Asyncio.AskWorld.ops askingNode).run
      (askedWorld [.error askError] [1] []))).watch.wire := by
  refine ⟨(askedFor_of_inOrder askingNode (α := Unit)).1 Script.ops _ ?_,
    (askedFor_of_inOrder (σ := Unit) (ρ := Unit) askingNode).2 _ preceded_nil ?_⟩
  · refine .next (fun h => nomatch h) rfl (.last (a := ()) (fun h => ?_) rfl)
    exact .inl rfl
  · refine .next ⟨fun h => (nomatch h), fun h => (nomatch h)⟩ rfl
      (.last (a := ()) ⟨fun _ => .inl rfl, fun _ n hn => ?_⟩ rfl)
    obtain rfl : importingNode = n := Option.some.inj hn
    rfl

/-- After TRYAGAIN the command is repeated without ASKING; and in the asyncio client,
when a second connection of the node is free, ASKING goes out on one and the command on
the other. -/
theorem not_askedFor_importing :
    ¬ AskedFor (state ((Sync._executeCommand (Sync.watched Script.ops) askingNode).run
      (askedScript [.error askError, .error { cls := .TryAgainError }], {}))).2.wire ∧
    ¬ AskedFor (state ((Asyncio._executeCommand Asyncio.AskWorld.ops askingNode).run
      (askedWorld [.error askError] [1, 2] [2]))).watch.wire := by
  constructor
  · intro h
    exact absurd (h [(0, .command false), (0, .ASKING), (0, .command true)] 0 [] (by decide +kernel))
      (by decide)
  · intro h
    exact absurd (h [(0, .command false), (1, .ASKING)] 2 [] (by decide +kernel)) (by decide)

end RedisPy
