/-! Programs that change a state and may raise, with the state kept as it stands
when they do: how raising, catching and cleaning up run. -/

namespace Raising

universe u

variable {ε σ α β : Type u}

@[simp] theorem run_throw (e : ε) (s : σ) :
    EStateM.run (throw e : EStateM ε σ α) s = .error e s := rfl

@[simp] theorem run_map (f : α → β) (m : EStateM ε σ α) (s : σ) :
    EStateM.run (f <$> m) s =
      match m.run s with
      | .ok a s' => .ok (f a) s'
      | .error e s' => .error e s' := rfl

/-- A handler starts from the state in which the exception was raised. -/
@[simp] theorem run_tryCatch (m : EStateM ε σ α) (h : ε → EStateM ε σ α) (s : σ) :
    EStateM.run (tryCatch m h) s =
      match m.run s with
      | .ok a s' => .ok a s'
      | .error e s' => (h e).run s' := by
  change EStateM.tryCatch m h s = _
  unfold EStateM.tryCatch EStateM.run
  cases m s <;> rfl

/-- The clean-up runs on both ways out, and an exception of its own wins. -/
@[simp] theorem run_tryFinally (m : EStateM ε σ α) (f : EStateM ε σ β) (s : σ) :
    EStateM.run (tryFinally m f) s =
      match m.run s with
      | .ok a s' =>
        match f.run s' with
        | .ok _ s'' => .ok a s''
        | .error e s'' => .error e s''
      | .error e s' =>
        match f.run s' with
        | .ok _ s'' => .error e s''
        | .error e' s'' => .error e' s'' := by
  change EStateM.map _ (tryFinally' m fun _ => f) s = _
  unfold EStateM.map EStateM.run tryFinally' EStateM.instMonadFinally
  cases hm : m s with
  | ok a s' => cases hf : f s' <;> simp [hm, hf]
  | error e s' => cases hf : f s' <;> simp [hm, hf]

/-- Run a program on the first component of a larger state. -/
def first {ω : Type u} (m : EStateM ε σ α) : EStateM ε (σ × ω) α := fun s =>
  match m.run s.1 with
  | .ok a s' => .ok a (s', s.2)
  | .error e s' => .error e (s', s.2)

@[simp] theorem run_first {ω : Type u} (m : EStateM ε σ α) (s : σ) (w : ω) :
    (first m).run (s, w) =
      match m.run s with
      | .ok a s' => .ok a (s', w)
      | .error e s' => .error e (s', w) := rfl

/-- Run a program with variables of its own, which are gone when it ends. -/
def withLocals {ω : Type u} (w : ω) (m : EStateM ε (σ × ω) α) : EStateM ε σ α := fun s =>
  match m.run (s, w) with
  | .ok a s' => .ok a s'.1
  | .error e s' => .error e s'.1

@[simp] theorem run_withLocals {ω : Type u} (w : ω) (m : EStateM ε (σ × ω) α) (s : σ) :
    (withLocals w m).run s =
      match m.run (s, w) with
      | .ok a s' => .ok a s'.1
      | .error e s' => .error e s'.1 := rfl

/-- An outcome without the variables. -/
def forget {ω : Type u} : EStateM.Result ε (σ × ω) α → EStateM.Result ε σ α
  | .ok a s => .ok a s.1
  | .error e s => .error e s.1

theorem withLocals_run_eq {ω : Type u} (w : ω) (m : EStateM ε (σ × ω) α) (s : σ) :
    (withLocals w m).run s = forget (m.run (s, w)) := by
  rw [run_withLocals]
  cases m.run (s, w) <;> rfl

/-- The outcome `r` of a run is a value and a state that meet `Q`, or an
exception and a state that meet `E`. -/
def Post (r : EStateM.Result ε σ α) (Q : α → σ → Prop) (E : ε → σ → Prop) : Prop :=
  match r with
  | .ok a s => Q a s
  | .error e s => E e s

variable {Q : α → σ → Prop} {E : ε → σ → Prop} {s : σ}

theorem Post.pure {a : α} (h : Q a s) : Post ((Pure.pure a : EStateM ε σ α).run s) Q E := h

theorem Post.throw {e : ε} (h : E e s) :
    Post ((MonadExcept.throw e : EStateM ε σ α).run s) Q E := h

theorem Post.modify {f : σ → σ} {Q : PUnit → σ → Prop} (h : Q ⟨⟩ (f s)) :
    Post ((modify f : EStateM ε σ PUnit).run s) Q E := h

theorem Post.set {s' : σ} {Q : PUnit → σ → Prop} (h : Q ⟨⟩ s') :
    Post ((set s' : EStateM ε σ PUnit).run s) Q E := h

theorem Post.mono {r : EStateM.Result ε σ α} {Q' : α → σ → Prop} {E' : ε → σ → Prop}
    (h : Post r Q E) (hQ : ∀ a s, Q a s → Q' a s) (hE : ∀ e s, E e s → E' e s) : Post r Q' E' := by
  cases r with
  | ok a s => exact hQ a s h
  | error e s => exact hE e s h

theorem Post.and {r : EStateM.Result ε σ α} {Q' : α → σ → Prop} {E' : ε → σ → Prop}
    (h : Post r Q E) (h' : Post r Q' E') : Post r (fun a s => Q a s ∧ Q' a s) fun e s => E e s ∧ E' e s := by
  cases r with
  | ok a s => exact ⟨h, h'⟩
  | error e s => exact ⟨h, h'⟩

theorem Post.bind {m : EStateM ε σ α} {f : α → EStateM ε σ β} {Q' : β → σ → Prop}
    (hm : Post (m.run s) Q E) (hf : ∀ a s', Q a s' → Post ((f a).run s') Q' E) :
    Post ((m >>= f).run s) Q' E := by
  rw [EStateM.run_bind]
  unfold Post at hm
  split at hm
  · rename_i a s' hr
    rw [hr]
    exact hf a s' hm
  · rename_i e s' hr
    rw [hr]
    exact hm

/-- Reading the state hands on the state itself. -/
theorem Post.get_bind {f : σ → EStateM ε σ β} {Q : β → σ → Prop}
    (h : Post ((f s).run s) Q E) : Post ((get >>= f).run s) Q E := h

theorem Post.ite {c : Prop} [Decidable c] {m m' : EStateM ε σ α}
    (h : c → Post (m.run s) Q E) (h' : ¬ c → Post (m'.run s) Q E) :
    Post ((if c then m else m').run s) Q E := by
  split
  · exact h ‹_›
  · exact h' ‹_›

theorem Post.tryCatch {m : EStateM ε σ α} {h : ε → EStateM ε σ α} {F : ε → σ → Prop}
    (hm : Post (m.run s) Q F) (hh : ∀ e s', F e s' → Post ((h e).run s') Q E) :
    Post ((tryCatch m h).run s) Q E := by
  rw [run_tryCatch]
  cases hr : m.run s with
  | ok a s' =>
    rw [hr] at hm
    exact hm
  | error e s' =>
    rw [hr] at hm
    exact hh e s' hm

/-- Whatever the program ends in is handed to the clean-up, which may still raise. -/
theorem Post.tryFinally {m : EStateM ε σ α} {f : EStateM ε σ β} {R : α → σ → Prop}
    {F : ε → σ → Prop} (hm : Post (m.run s) R F)
    (hQ : ∀ a s', R a s' → Post (f.run s') (fun _ => Q a) E)
    (hE : ∀ e s', F e s' → Post (f.run s') (fun _ => E e) E) :
    Post ((tryFinally m f).run s) Q E := by
  rw [run_tryFinally]
  cases hr : m.run s with
  | ok a s' =>
    rw [hr] at hm
    have := hQ a s' hm
    dsimp only
    cases hf : f.run s' <;> rw [hf] at this <;> exact this
  | error e s' =>
    rw [hr] at hm
    have := hE e s' hm
    dsimp only
    cases hf : f.run s' <;> rw [hf] at this <;> exact this

theorem Post.first {ω : Type u} {m : EStateM ε σ α} {w : ω} {Q : α → σ × ω → Prop}
    {E : ε → σ × ω → Prop} (h : Post (m.run s) (fun a s' => Q a (s', w)) fun e s' => E e (s', w)) :
    Post ((first m).run (s, w)) Q E := by
  rw [run_first]
  cases hr : m.run s <;> rw [hr] at h <;> exact h

/-- The program keeps the invariant on both ways out. -/
def Keeps (I : σ → Prop) (m : EStateM ε σ α) : Prop :=
  ∀ s, I s → Post (m.run s) (fun _ => I) (fun _ => I)

variable {I : σ → Prop}

theorem Keeps.pure (a : α) : Keeps I (Pure.pure a : EStateM ε σ α) := fun _ h => h

theorem Keeps.throw (e : ε) : Keeps I (MonadExcept.throw e : EStateM ε σ α) := fun _ h => h

theorem Keeps.modify {f : σ → σ} (h : ∀ s, I s → I (f s)) :
    Keeps I (modify f : EStateM ε σ PUnit) := h

theorem Keeps.get : Keeps I (MonadState.get : EStateM ε σ σ) := fun _ h => h

theorem Keeps.set {s' : σ} (h : I s') : Keeps I (MonadStateOf.set s' : EStateM ε σ PUnit) :=
  fun _ _ => h

theorem Keeps.bind {m : EStateM ε σ α} {f : α → EStateM ε σ β} (hm : Keeps I m)
    (hf : ∀ a, Keeps I (f a)) : Keeps I (m >>= f) :=
  fun s h => Post.bind (hm s h) fun a s' => hf a s'

theorem Keeps.ite {c : Prop} [Decidable c] {m m' : EStateM ε σ α} (h : Keeps I m)
    (h' : Keeps I m') : Keeps I (if c then m else m') := by
  split
  · exact h
  · exact h'

theorem Keeps.tryCatch {m : EStateM ε σ α} {h : ε → EStateM ε σ α} (hm : Keeps I m)
    (hh : ∀ e, Keeps I (h e)) : Keeps I (tryCatch m h) :=
  fun s hs => Post.tryCatch (hm s hs) fun e s' => hh e s'

theorem Keeps.tryFinally {m : EStateM ε σ α} {f : EStateM ε σ β} (hm : Keeps I m)
    (hf : Keeps I f) : Keeps I (tryFinally m f) :=
  fun s hs => Post.tryFinally (hm s hs) (fun _ s' => hf s') fun _ s' => hf s'

/-- What a program does with its first component only. -/
theorem Keeps.first {ω : Type u} {m : EStateM ε σ α} {I : ω → Prop} :
    Keeps (fun s : σ × ω => I s.2) (first m) := by
  rintro ⟨s, w⟩ h
  apply Post.first
  cases m.run s <;> exact h

/-- The program ends as `x` says, and changes the state only as `R` allows. -/
def Follows (R : σ → σ → Prop) (m : EStateM ε σ α) (x : Except ε α) : Prop :=
  ∀ s, Post (m.run s) (fun a s' => x = .ok a ∧ R s s') (fun e s' => x = .error e ∧ R s s')

section
variable {R : σ → σ → Prop}

theorem Follows.pure (hR : ∀ s, R s s) (a : α) :
    Follows R (Pure.pure a : EStateM ε σ α) (.ok a) := fun s => ⟨rfl, hR s⟩

theorem Follows.throw (hR : ∀ s, R s s) (e : ε) :
    Follows R (MonadExcept.throw e : EStateM ε σ α) (.error e) := fun s => ⟨rfl, hR s⟩

theorem Follows.bind {m : EStateM ε σ α} {f : α → EStateM ε σ β} {x : Except ε α}
    {y : α → Except ε β} (hR : ∀ s s' s'', R s s' → R s' s'' → R s s'') (hm : Follows R m x)
    (hf : ∀ a, Follows R (f a) (y a)) : Follows R (m >>= f) (x >>= y) := by
  intro s
  apply Post.bind ((hm s).mono (fun _ _ h => h) ?_)
  · intro a s' ⟨hx, hs'⟩
    rw [hx]
    exact (hf a s').mono (fun _ s'' h => ⟨h.1, hR s s' s'' hs' h.2⟩)
      fun _ s'' h => ⟨h.1, hR s s' s'' hs' h.2⟩
  · intro e s' ⟨hx, hs'⟩
    rw [hx]
    exact ⟨rfl, hs'⟩

theorem Follows.tryCatch {m : EStateM ε σ α} {h : ε → EStateM ε σ α} {x : Except ε α}
    {y : ε → Except ε α} (hR : ∀ s s' s'', R s s' → R s' s'' → R s s'') (hm : Follows R m x)
    (hh : ∀ e, Follows R (h e) (y e)) :
    Follows R (tryCatch m h) (tryCatch x y) := by
  intro s
  apply Post.tryCatch ((hm s).mono ?_ fun _ _ h => h)
  · intro e s' ⟨hx, hs'⟩
    rw [hx]
    exact (hh e s').mono (fun _ s'' h => ⟨h.1, hR s s' s'' hs' h.2⟩)
      fun _ s'' h => ⟨h.1, hR s s' s'' hs' h.2⟩
  · intro a s' ⟨hx, hs'⟩
    rw [hx]
    exact ⟨rfl, hs'⟩

end

section
variable {τ : Type u}

/-- An outcome, of whose state only what `π` shows is seen. -/
def through (π : τ → σ) : EStateM.Result ε τ α → EStateM.Result ε σ α
  | .ok a t => .ok a (π t)
  | .error e t => .error e (π t)

/-- What is seen of the program through `π` is another program. -/
def Projects (π : τ → σ) (m : EStateM ε τ α) (m' : EStateM ε σ α) : Prop :=
  ∀ t, through π (m.run t) = m'.run (π t)

variable {π : τ → σ} {m : EStateM ε τ α} {m' : EStateM ε σ α}

theorem Projects.pure (a : α) : Projects π (Pure.pure a : EStateM ε τ α) (Pure.pure a) := fun _ => rfl

theorem Projects.throw (e : ε) :
    Projects π (MonadExcept.throw e : EStateM ε τ α) (MonadExcept.throw e) := fun _ => rfl

theorem Projects.bind {f : α → EStateM ε τ β} {f' : α → EStateM ε σ β} (hm : Projects π m m')
    (hf : ∀ a, Projects π (f a) (f' a)) : Projects π (m >>= f) (m' >>= f') := by
  intro t
  rw [EStateM.run_bind, EStateM.run_bind, ← hm t]
  cases m.run t with
  | ok a t' => exact hf a t'
  | error e t' => rfl

theorem Projects.ite {c : Prop} [Decidable c] {m₁ : EStateM ε τ α} {m₁' : EStateM ε σ α}
    (h : Projects π m m') (h₁ : Projects π m₁ m₁') :
    Projects π (if c then m else m₁) (if c then m' else m₁') := by
  split
  · exact h
  · exact h₁

theorem Projects.tryCatch {h : ε → EStateM ε τ α} {h' : ε → EStateM ε σ α} (hm : Projects π m m')
    (hh : ∀ e, Projects π (h e) (h' e)) : Projects π (tryCatch m h) (tryCatch m' h') := by
  intro t
  rw [run_tryCatch, run_tryCatch, ← hm t]
  cases m.run t with
  | ok a t' => rfl
  | error e t' => exact hh e t'

theorem Projects.tryFinally {f : EStateM ε τ β} {f' : EStateM ε σ β} (hm : Projects π m m')
    (hf : Projects π f f') : Projects π (tryFinally m f) (tryFinally m' f') := by
  intro t
  rw [run_tryFinally, run_tryFinally, ← hm t]
  cases m.run t with
  | ok a t' =>
    simp only [through, ← hf t']
    cases f.run t' <;> rfl
  | error e t' =>
    simp only [through, ← hf t']
    cases f.run t' <;> rfl

/-- What is shown of the one is shown of the other. -/
theorem Projects.post (h : Projects π m m') {t : τ} {Q : α → σ → Prop} {E : ε → σ → Prop}
    (hpost : Post (m'.run (π t)) Q E) : Post (m.run t) (fun a t' => Q a (π t')) fun e t' => E e (π t') := by
  rw [← h t] at hpost
  cases hr : m.run t <;> rw [hr] at hpost <;> exact hpost

/-- A program on the first component, with another component beside it. -/
theorem Projects.first {ω : Type u} (h : Projects π m m') :
    Projects (Prod.map π (id : ω → ω)) (first m) (first m') := by
  rintro ⟨t, w⟩
  change _ = (Raising.first m').run (π t, w)
  rw [run_first, run_first, ← h t]
  cases m.run t <;> rfl

end

theorem bind_eq_ok {x : Except ε α} {f : α → Except ε β} {b : β} :
    (x >>= f) = .ok b ↔ ∃ a, x = .ok a ∧ f a = .ok b := by
  cases x with
  | ok a => exact ⟨fun h => ⟨a, rfl, h⟩, fun ⟨_, ha, h⟩ => by cases ha; exact h⟩
  | error e => exact ⟨fun h => (nomatch h), fun ⟨_, ha, _⟩ => (nomatch ha)⟩

/-- What is done to the state when a program has ended, one way or the other. -/
def settle (done undo : σ → σ) : EStateM.Result ε σ α → EStateM.Result ε σ α
  | .ok a s => .ok a (done s)
  | .error e s => .error e (undo s)

/-- The state in which a run ends, either way. -/
def state : EStateM.Result ε σ α → σ
  | .ok _ s => s
  | .error _ s => s

theorem state_withLocals {ω : Type u} (w : ω) (m : EStateM ε (σ × ω) α) (s : σ) :
    state ((withLocals w m).run s) = (state (m.run (s, w))).1 := by
  rw [run_withLocals]
  cases m.run (s, w) <;> rfl

/-- The clean-up has the last word on the state. -/
theorem state_tryFinally (m : EStateM ε σ α) (f : EStateM ε σ β) (s : σ) :
    state ((tryFinally m f).run s) = state (f.run (state (m.run s))) := by
  rw [run_tryFinally]
  cases m.run s with
  | ok a s' => simp only [state]; cases f.run s' <;> rfl
  | error e s' => simp only [state]; cases f.run s' <;> rfl

theorem Post.state {r : EStateM.Result ε σ α} {I : σ → Prop}
    (h : Post r (fun _ => I) (fun _ => I)) : I (state r) := by
  cases r <;> exact h

def isOk : EStateM.Result ε σ α → Bool
  | .ok _ _ => true
  | .error _ _ => false

theorem exists_ok_of_isOk {r : EStateM.Result ε σ α} (h : isOk r = true) : ∃ a s, r = .ok a s := by
  cases r with
  | ok a s => exact ⟨a, s, rfl⟩
  | error e s => cases h

theorem eq_ok_of_isOk {r : EStateM.Result ε σ PUnit} (h : isOk r = true) : r = .ok ⟨⟩ (state r) := by
  cases r with
  | ok a s => rfl
  | error e s => cases h

end Raising
