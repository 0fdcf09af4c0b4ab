import RedisPy.Proofs.PipelineGroups
import RedisPy.Spec.PipelineTraffic

/-! What is sent and read by a cluster pipeline. A program with the record is the program without
it, and each of its parts adds to the record what it says. -/

namespace RedisPy

open Raising

namespace ClusterPipeline

section
variable {σ ρ κ α β γ : Type}

/-- The record is left out. -/
def unlogged (s : (σ × List (Deed α)) × PipelineBook ρ κ α) : σ × PipelineBook ρ κ α :=
  Prod.map Prod.fst id s

/-- The record is `l`, with more deeds of this kind. -/
def Beyond (D : Deed α → Prop) (l : List (Deed α))
    (s : (σ × List (Deed α)) × PipelineBook ρ κ α) : Prop :=
  ∃ more, s.1.2 = l ++ more ∧ ∀ d ∈ more, D d

theorem Beyond.refl (D : Deed α → Prop) (s : (σ × List (Deed α)) × PipelineBook ρ κ α) :
    Beyond D s.1.2 s := ⟨[], (List.append_nil _).symm, fun _ hd => absurd hd List.not_mem_nil⟩

theorem Beyond.trans {D : Deed α → Prop} {l : List (Deed α)}
    {s s' : (σ × List (Deed α)) × PipelineBook ρ κ α} (h : Beyond D l s) (h' : Beyond D s.1.2 s') :
    Beyond D l s' := by
  obtain ⟨more, hmore, hall⟩ := h
  obtain ⟨more', hmore', hall'⟩ := h'
  refine ⟨more ++ more', by rw [hmore', hmore, List.append_assoc], fun d hd => ?_⟩
  exact (List.mem_append.mp hd).elim (hall d) (hall' d)

theorem Beyond.mono {D D' : Deed α → Prop} {l : List (Deed α)}
    {s : (σ × List (Deed α)) × PipelineBook ρ κ α} (h : Beyond D l s) (hD : ∀ d, D d → D' d) :
    Beyond D' l s := by
  obtain ⟨more, hmore, hall⟩ := h
  exact ⟨more, hmore, fun d hd => hD d (hall d hd)⟩

theorem Beyond.eq {l : List (Deed α)} {s : (σ × List (Deed α)) × PipelineBook ρ κ α}
    (h : Beyond (fun _ => False) l s) : s.1.2 = l := by
  obtain ⟨more, hmore, hall⟩ := h
  rw [hmore, List.eq_nil_iff_forall_not_mem.mpr hall, List.append_nil]

/-- The program is another one with a record, to which deeds of this kind are added. -/
structure Logs (D : Deed α → Prop) (m : M (σ × List (Deed α)) ρ κ α β) (m' : M σ ρ κ α β) :
    Prop where
  projects : Projects unlogged m m'
  beyond : ∀ l, Keeps (Beyond D l) m

variable {D : Deed α → Prop} {m : M (σ × List (Deed α)) ρ κ α β} {m' : M σ ρ κ α β}

theorem Logs.pure (b : β) : Logs D (Pure.pure b : M (σ × List (Deed α)) ρ κ α β) (Pure.pure b) :=
  ⟨Projects.pure b, fun _ => Keeps.pure b⟩

theorem Logs.throw (e : Exc) : Logs D (MonadExcept.throw e : M (σ × List (Deed α)) ρ κ α β)
    (MonadExcept.throw e) :=
  ⟨Projects.throw e, fun _ => Keeps.throw e⟩

theorem Logs.bind {f : β → M (σ × List (Deed α)) ρ κ α γ} {f' : β → M σ ρ κ α γ} (hm : Logs D m m')
    (hf : ∀ b, Logs D (f b) (f' b)) : Logs D (m >>= f) (m' >>= f') :=
  ⟨Projects.bind hm.projects fun b => (hf b).projects,
    fun l => Keeps.bind (hm.beyond l) fun b => (hf b).beyond l⟩

theorem Logs.ite {c : Prop} [Decidable c] {m₁ : M (σ × List (Deed α)) ρ κ α β} {m₁' : M σ ρ κ α β}
    (h : Logs D m m') (h₁ : Logs D m₁ m₁') :
    Logs D (if c then m else m₁) (if c then m' else m₁') :=
  ⟨Projects.ite h.projects h₁.projects, fun l => Keeps.ite (h.beyond l) (h₁.beyond l)⟩

theorem Logs.tryCatch {h : Exc → M (σ × List (Deed α)) ρ κ α β} {h' : Exc → M σ ρ κ α β}
    (hm : Logs D m m') (hh : ∀ e, Logs D (h e) (h' e)) : Logs D (tryCatch m h) (tryCatch m' h') :=
  ⟨Projects.tryCatch hm.projects fun e => (hh e).projects,
    fun l => Keeps.tryCatch (hm.beyond l) fun e => (hh e).beyond l⟩

theorem Logs.tryFinally {f : M (σ × List (Deed α)) ρ κ α γ} {f' : M σ ρ κ α γ} (hm : Logs D m m')
    (hf : Logs D f f') : Logs D (tryFinally m f) (tryFinally m' f') :=
  ⟨Projects.tryFinally hm.projects hf.projects,
    fun l => Keeps.tryFinally (hm.beyond l) (hf.beyond l)⟩

/-- What the program without the record does, the other does, and adds to the record. -/
theorem Logs.post (h : Logs D m m') {s : (σ × List (Deed α)) × PipelineBook ρ κ α}
    {Q : β → σ × PipelineBook ρ κ α → Prop} {E : Exc → σ × PipelineBook ρ κ α → Prop}
    (hpost : Post (m'.run (unlogged s)) Q E) :
    Post (m.run s) (fun b s' => Q b (unlogged s') ∧ Beyond D s.1.2 s')
      fun e s' => E e (unlogged s') ∧ Beyond D s.1.2 s' :=
  (h.projects.post hpost).and (h.beyond s.1.2 s (Beyond.refl D s))

/-! ### The parts of an attempt -/

variable (ops : Ops σ ρ κ α) (steps : Nat → List (Step α))

theorem parseResponse_run (r : ρ) (c : κ) (p : Nat) (s : σ) (l : List (Deed α))
    (b : PipelineBook ρ κ α) :
    (first ((logging steps ops).parseResponse r c p) : M (σ × List (Deed α)) ρ κ α _).run ((s, l), b) =
      match (ops.parseResponse r c p).run s with
      | .ok v s' => .ok v ((s', l ++ [.reads p v]), b)
      | .error e s' => .error e ((s', l), b) := by
  change (first (do
      let v ← first (ops.parseResponse r c p)
      noteDeeds [.reads p v]
      return v)).run ((s, l), b) = _
  rw [run_first, EStateM.run_bind, run_first]
  cases (ops.parseResponse r c p).run s <;> rfl

end

end ClusterPipeline

end RedisPy
