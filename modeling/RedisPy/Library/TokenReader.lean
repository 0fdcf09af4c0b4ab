import Mathlib
import RedisPy.Library.Reading

/-! Readers of a stream of tokens, which are lines and counted payloads, as trees of
requests. What a reader makes of the tokens alone is its meaning. A source answers the
requests out of a state, may be interrupted at each of them, and keeps what it needs for
the reader to start over. -/

namespace TokenReader

open Raising Reading

inductive Token (β : Type) where
  | line (text : β)
  | blob (length : Int) (payload : β)

/-- What is made of a token. -/
def Token.text {β : Type} : Token β → β
  | line text => text
  | blob _ payload => payload

/-- How much of a stream the tokens take. -/
def span {β : Type} (size : Token β → Nat) (ts : List (Token β)) : Nat := (ts.map size).sum

section
variable {β : Type} (size : Token β → Nat)

@[simp] theorem span_nil : span size [] = 0 := rfl

@[simp] theorem span_cons (t : Token β) (ts : List (Token β)) :
    span size (t :: ts) = size t + span size ts := List.sum_cons

@[simp] theorem span_append (ts us : List (Token β)) :
    span size (ts ++ us) = span size ts + span size us := by
  rw [span, List.map_append, List.sum_append]
  rfl

end

/-- A reader: it asks for lines and payloads, and hands frames of kind `φ` over for an
answer. It fails with `fail`, for good with `abort`, and gives up with `out`. -/
inductive Reader (ε β φ γ α : Type) where
  | ret (a : α)
  | fail (e : ε)
  | abort (e : ε)
  | out
  | line (next : β → Reader ε β φ γ α)
  | blob (length : Int) (next : β → Reader ε β φ γ α)
  | push (frame : φ) (next : γ → Reader ε β φ γ α)

variable {ε β φ γ α α' σ ω : Type}

namespace Reader

def bind : Reader ε β φ γ α → (α → Reader ε β φ γ α') → Reader ε β φ γ α'
  | ret a, f => f a
  | fail e, _ => fail e
  | abort e, _ => abort e
  | out, _ => out
  | line next, f => line fun b => bind (next b) f
  | blob n next, f => blob n fun b => bind (next b) f
  | push x next, f => push x fun g => bind (next g) f

def ofExcept : Except ε α → Reader ε β φ γ α
  | .ok a => ret a
  | .error e => fail e

/-- Read `n` values one after another. -/
def many (r : Reader ε β φ γ α) : Nat → Reader ε β φ γ (List α)
  | 0 => ret []
  | n + 1 => r.bind fun a => (many r n).bind fun as => ret (a :: as)

/-- Read `n` rounds, each folding what it reads into an accumulator. -/
def fold (step : α → Reader ε β φ γ α) : Nat → α → Reader ε β φ γ α
  | 0, acc => ret acc
  | n + 1, acc => (step acc).bind (fold step n)

/-- The reader makes a value of the first tokens, and hands over the frames, where `h`
answers. -/
inductive Yields (h : φ → Except ε γ) :
    Reader ε β φ γ α → List (Token β) → α → List (Token β) → List φ → Prop
  | ret {a : α} {ts : List (Token β)} : Yields h (.ret a) ts a ts []
  | line {next : β → Reader ε β φ γ α} {b : β} {ts rest : List (Token β)} {a : α} {xs : List φ}
      (hnext : Yields h (next b) ts a rest xs) : Yields h (.line next) (.line b :: ts) a rest xs
  | blob {n : Int} {next : β → Reader ε β φ γ α} {b : β} {ts rest : List (Token β)} {a : α}
      {xs : List φ} (hnext : Yields h (next b) ts a rest xs) :
      Yields h (.blob n next) (.blob n b :: ts) a rest xs
  | push {x : φ} {g : γ} {next : γ → Reader ε β φ γ α} {ts rest : List (Token β)} {a : α}
      {xs : List φ} (hx : h x = .ok g) (hnext : Yields h (next g) ts a rest xs) :
      Yields h (.push x next) ts a rest (x :: xs)

variable {h : φ → Except ε γ}

theorem Yields.bind {r : Reader ε β φ γ α} {f : α → Reader ε β φ γ α'} {ts mid rest : List (Token β)}
    {a : α} {b : α'} {xs ys : List φ} (hr : Yields h r ts a mid xs)
    (hf : Yields h (f a) mid b rest ys) : Yields h (r.bind f) ts b rest (xs ++ ys) := by
  induction hr with
  | ret => exact hf
  | line _ ih => exact .line (ih hf)
  | blob _ ih => exact .blob (ih hf)
  | push hx _ ih => exact .push hx (ih hf)

theorem yields_bind {r : Reader ε β φ γ α} {f : α → Reader ε β φ γ α'} {ts rest : List (Token β)}
    {b : α'} {zs : List φ} (h' : Yields h (r.bind f) ts b rest zs) :
    ∃ a mid xs ys, Yields h r ts a mid xs ∧ Yields h (f a) mid b rest ys ∧ zs = xs ++ ys := by
  induction r generalizing ts zs with
  | ret a => exact ⟨a, ts, [], zs, .ret, h', rfl⟩
  | fail e => cases h'
  | abort e => cases h'
  | out => cases h'
  | line next ih =>
    cases h' with
    | line h' =>
      obtain ⟨a, mid, xs, ys, hr, hf, rfl⟩ := ih _ h'
      exact ⟨a, mid, xs, ys, .line hr, hf, rfl⟩
  | blob n next ih =>
    cases h' with
    | blob h' =>
      obtain ⟨a, mid, xs, ys, hr, hf, rfl⟩ := ih _ h'
      exact ⟨a, mid, xs, ys, .blob hr, hf, rfl⟩
  | push x next ih =>
    cases h' with
    | push hx h' =>
      obtain ⟨a, mid, xs, ys, hr, hf, rfl⟩ := ih _ h'
      exact ⟨a, mid, _, ys, .push hx hr, hf, rfl⟩

/-- Tokens are read from the front. -/
theorem Yields.suffix {r : Reader ε β φ γ α} {ts rest : List (Token β)} {a : α} {xs : List φ}
    (hr : Yields h r ts a rest xs) : ∃ used, ts = used ++ rest := by
  induction hr with
  | ret => exact ⟨[], rfl⟩
  | line _ ih =>
    obtain ⟨used, rfl⟩ := ih
    exact ⟨_ :: used, rfl⟩
  | blob _ ih =>
    obtain ⟨used, rfl⟩ := ih
    exact ⟨_ :: used, rfl⟩
  | push _ _ ih => exact ih

/-- What comes behind the tokens makes no difference. -/
theorem Yields.append {r : Reader ε β φ γ α} {ts rest : List (Token β)} {a : α} {xs : List φ}
    (hr : Yields h r ts a rest xs) (us : List (Token β)) : Yields h r (ts ++ us) a (rest ++ us) xs := by
  induction hr with
  | ret => exact .ret
  | line _ ih => exact .line ih
  | blob _ ih => exact .blob ih
  | push hx _ ih => exact .push hx ih

theorem Yields.unique {r : Reader ε β φ γ α} {ts rest rest' : List (Token β)} {a a' : α} {xs xs' : List φ}
    (hr : Yields h r ts a rest xs) (hr' : Yields h r ts a' rest' xs') :
    a = a' ∧ rest = rest' ∧ xs = xs' := by
  induction hr generalizing xs' with
  | ret =>
    cases hr'
    exact ⟨rfl, rfl, rfl⟩
  | line _ ih =>
    cases hr' with
    | line hr' => exact ih hr'
  | blob _ ih =>
    cases hr' with
    | blob hr' => exact ih hr'
  | push hx _ ih =>
    cases hr' with
    | push hx' hr' =>
      obtain rfl := Except.ok.inj (hx.symm.trans hx')
      obtain ⟨ha, hrest, rfl⟩ := ih hr'
      exact ⟨ha, hrest, rfl⟩

/-- The frames that are handed over by the time these tokens have been read. -/
def handed (h : φ → Except ε γ) : Reader ε β φ γ α → List (Token β) → List φ
  | .line next, t :: ts => handed h (next t.text) ts
  | .blob _ next, t :: ts => handed h (next t.text) ts
  | .push x next, ts =>
    match h x with
    | .ok g => x :: handed h (next g) ts
    | .error _ => [x]
  | _, _ => []

/-- Where a reader hands no frame over, it hands none over at any moment. -/
theorem handed_nil {r : Reader ε β φ γ α} {ts rest used more : List (Token β)} {a : α}
    (hr : Yields h r ts a rest []) (hts : ts = used ++ more) : handed h r used = [] := by
  generalize hxs : ([] : List φ) = xs at hr
  induction hr generalizing used with
  | ret => exact hxs.symm ▸ rfl
  | line _ ih =>
    cases used with
    | nil => exact hxs.symm ▸ rfl
    | cons u used =>
      obtain ⟨rfl, htail⟩ := List.cons.inj hts
      exact ih htail hxs
  | blob _ ih =>
    cases used with
    | nil => exact hxs.symm ▸ rfl
    | cons u used =>
      obtain ⟨rfl, htail⟩ := List.cons.inj hts
      exact ih htail hxs
  | push => exact nomatch hxs

/-- As long as the first reader has not come to its value, nothing of what follows it is
handed over. -/
theorem handed_bind {r : Reader ε β φ γ α} {f : α → Reader ε β φ γ α'} {ts rest used more : List (Token β)}
    {t : Token β} {a : α} (hr : Yields h r ts a rest []) (hts : ts = used ++ t :: (more ++ rest)) :
    handed h (r.bind f) used = [] := by
  generalize hxs : ([] : List φ) = xs at hr
  induction hr generalizing used with
  | ret =>
    have hlen := congrArg List.length hts
    simp only [List.length_append, List.length_cons] at hlen
    omega
  | line _ ih =>
    cases used with
    | nil => exact hxs.symm ▸ rfl
    | cons u used =>
      obtain ⟨rfl, htail⟩ := List.cons.inj hts
      exact ih htail hxs
  | blob _ ih =>
    cases used with
    | nil => exact hxs.symm ▸ rfl
    | cons u used =>
      obtain ⟨rfl, htail⟩ := List.cons.inj hts
      exact ih htail hxs
  | push => exact nomatch hxs

/-! ### Readers that agree on short streams -/

/-- On streams of at most `k` tokens, what `r` makes of them `r'` makes of them too. -/
def Within (h : φ → Except ε γ) (k : Nat) (r r' : Reader ε β φ γ α) : Prop :=
  ∀ ts a rest xs, ts.length ≤ k → Yields h r ts a rest xs → Yields h r' ts a rest xs

theorem Within.refl (k : Nat) (r : Reader ε β φ γ α) : Within h k r r := fun _ _ _ _ _ h => h

theorem Within.ite {k : Nat} {c : Prop} [Decidable c] {r₁ r₁' r₂ r₂' : Reader ε β φ γ α}
    (h₁ : Within h k r₁ r₁') (h₂ : Within h k r₂ r₂') :
    Within h k (if c then r₁ else r₂) (if c then r₁' else r₂') := by
  split
  · exact h₁
  · exact h₂

theorem Within.bind {k : Nat} {r r' : Reader ε β φ γ α} {f f' : α → Reader ε β φ γ α'}
    (hr : Within h k r r') (hf : ∀ a, Within h k (f a) (f' a)) :
    Within h k (r.bind f) (r'.bind f') := by
  intro ts b rest zs hlen hy
  obtain ⟨a, mid, xs, ys, hr', hf', rfl⟩ := yields_bind hy
  obtain ⟨used, rfl⟩ := hr'.suffix
  rw [List.length_append] at hlen
  exact (hr _ a mid xs (by rw [List.length_append]; exact hlen) hr').bind
    (hf a mid b rest ys (by omega) hf')

theorem Within.many {k : Nat} {r r' : Reader ε β φ γ α} (hr : Within h k r r') (n : Nat) :
    Within h k (r.many n) (r'.many n) := by
  induction n with
  | zero => exact Within.refl k _
  | succ n ih => exact hr.bind fun a => ih.bind fun as => Within.refl k _

theorem Within.fold {k : Nat} {step step' : α → Reader ε β φ γ α}
    (hs : ∀ acc, Within h k (step acc) (step' acc)) (n : Nat) (acc : α) :
    Within h k (fold step n acc) (fold step' n acc) := by
  induction n generalizing acc with
  | zero => exact Within.refl k _
  | succ n ih => exact (hs acc).bind ih

theorem Within.push {k : Nat} {x : φ} {next next' : γ → Reader ε β φ γ α}
    (hn : ∀ g, Within h k (next g) (next' g)) : Within h k (.push x next) (.push x next') := by
  intro ts a rest xs hlen hy
  cases hy with
  | push hx hy => exact .push hx (hn _ ts a rest _ hlen hy)

theorem Within.blob {k n' : Int} {j : Nat} {next next' : β → Reader ε β φ γ α} (hk : n' = k)
    (hn : ∀ b, Within h j (next b) (next' b)) : Within h j (.blob k next) (.blob n' next') := by
  subst hk
  intro ts a rest xs hlen hy
  cases hy with
  | blob hy => exact .blob (hn _ _ a rest xs (Nat.le_of_succ_le hlen) hy)

/-- A line that is read makes the stream shorter. -/
theorem Within.line {k : Nat} {next next' : β → Reader ε β φ γ α}
    (hn : ∀ b, Within h k (next b) (next' b)) : Within h (k + 1) (.line next) (.line next') := by
  intro ts a rest xs hlen hy
  cases hy with
  | line hy => exact .line (hn _ _ a rest xs (Nat.le_of_succ_le_succ hlen) hy)

theorem within_line_zero {next : β → Reader ε β φ γ α} {r : Reader ε β φ γ α} :
    Within h 0 (.line next) r := by
  intro ts a rest xs hlen hy
  cases hy with
  | line => exact absurd hlen (Nat.not_succ_le_zero _)

end Reader

/-! ### Sources -/

/-- What a state answers the requests of a reader with. -/
structure Source (ε β φ γ σ : Type) where
  line : EStateM ε σ β
  blob : Int → EStateM ε σ β
  push : φ → EStateM ε σ γ
  /-- What is done before a reader fails for good. -/
  clear : EStateM ε σ Unit
  exhausted : ε

namespace Source

/-- Run a reader on a source. -/
def exec (S : Source ε β φ γ σ) : Reader ε β φ γ α → EStateM ε σ α
  | .ret a => pure a
  | .fail e => throw e
  | .abort e => do
    S.clear
    throw e
  | .out => throw S.exhausted
  | .line next => do exec S (next (← S.line))
  | .blob n next => do exec S (next (← S.blob n))
  | .push x next => do exec S (next (← S.push x))

theorem exec_bind (S : Source ε β φ γ σ) (r : Reader ε β φ γ α) (f : α → Reader ε β φ γ α') :
    S.exec (r.bind f) = S.exec r >>= fun a => S.exec (f a) := by
  induction r with
  | ret a => rfl
  | fail e => rfl
  | abort e =>
    simp only [Reader.bind, exec, bind_assoc]
    rfl
  | out => rfl
  | line next ih =>
    simp only [Reader.bind, exec, bind_assoc]
    exact congrArg _ (funext ih)
  | blob n next ih =>
    simp only [Reader.bind, exec, bind_assoc]
    exact congrArg _ (funext ih)
  | push x next ih =>
    simp only [Reader.bind, exec, bind_assoc]
    exact congrArg _ (funext ih)

theorem exec_many (S : Source ε β φ γ σ) (r : Reader ε β φ γ α) (n : Nat) :
    S.exec (r.many n) = readMany (S.exec r) n := by
  induction n with
  | zero => rfl
  | succ n ih =>
    simp only [Reader.many, exec_bind, ih, readMany]
    rfl

theorem exec_fold (S : Source ε β φ γ σ) (step : α → Reader ε β φ γ α) (n : Nat) (acc : α) :
    S.exec (Reader.fold step n acc) = readFold (fun a => S.exec (step a)) n acc := by
  induction n generalizing acc with
  | zero => rfl
  | succ n ih =>
    simp only [Reader.fold, exec_bind, readFold]
    exact congrArg _ (funext ih)

/-- The request that a token answers. -/
def ask (S : Source ε β φ γ σ) : Token β → EStateM ε σ β
  | .line _ => S.line
  | .blob n _ => S.blob n

/-- What a source is good for: `At` says which tokens have been read since the reader was
started and which are to come, and `Held` the same of a reader that was interrupted and is
to be started over. Both know how far from the start the interruptions to come will strike.
What is not `Fit` need not be read. -/
structure Sound (S : Source ε β φ γ σ) (h : φ → Except ε γ) (ω : Type) where
  At : σ → List (Token β) → List (Token β) → List Nat → Prop
  Held : σ → List (Token β) → List (Token β) → List Nat → Prop
  Fit : Token β → Prop
  size : Token β → Nat
  log : σ → List ω
  noted : φ → List ω
  ask_post : ∀ {s past t ts os}, At s past (t :: ts) os → Post ((S.ask t).run s)
    (fun b s' => b = t.text ∧ Fit t ∧ At s' (past ++ [t]) ts os ∧ log s' = log s)
    (fun _ s' => (∃ o os', os = o :: os' ∧ span size past ≤ o ∧ o < span size (past ++ [t]) ∧
      Held s' past (t :: ts) os' ∧ log s' = log s) ∨ ¬ Fit t)
  push_post : ∀ {s past ts os x g}, h x = .ok g → At s past ts os → Post ((S.push x).run s)
    (fun g' s' => g' = g ∧ At s' past ts os ∧ log s' = log s ++ noted x) (fun _ _ => False)
  /-- Behind the last token there is nothing to read. -/
  line_end : ∀ {s past os}, At s past [] os → Post (S.line.run s) (fun _ _ => False)
    (fun _ s' => Held s' past [] os.tail ∧ log s' = log s)

namespace Sound

variable {S : Source ε β φ γ σ} {h : φ → Except ε γ}

/-- An interruption has struck while one of the tokens of a value was waited for. -/
def Struck (V : S.Sound h ω) (r : Reader ε β φ γ α) (s : σ) (past ts rest : List (Token β))
    (os : List Nat) (s' : σ) : Prop :=
  ∃ o os' used t more, os = o :: os' ∧ ts = used ++ t :: (more ++ rest) ∧
    span V.size (past ++ used) ≤ o ∧ o < span V.size (past ++ used ++ [t]) ∧
    V.Held s' (past ++ used) (t :: (more ++ rest)) os' ∧
    V.log s' = V.log s ++ (r.handed h used).flatMap V.noted

/-- A reader on a sound source comes to its value, or an interruption strikes and it can
be started over, with some of its frames handed over already. -/
def Outcome (V : S.Sound h ω) (r : Reader ε β φ γ α) (s : σ) (past ts rest : List (Token β)) (a : α)
    (xs : List φ) (os : List Nat) (m : EStateM ε σ α) : Prop :=
  Post (m.run s)
    (fun a' s' => a' = a ∧ ∃ used, ts = used ++ rest ∧ (∀ t ∈ used, V.Fit t) ∧
      V.At s' (past ++ used) rest os ∧ V.log s' = V.log s ++ xs.flatMap V.noted)
    (fun _ s' => V.Struck r s past ts rest os s' ∨ ∃ t ∈ ts, ¬ V.Fit t)

/-- One token is asked for, and the reader goes on. -/
theorem outcome_ask (V : S.Sound h ω) {r : Reader ε β φ γ α} {next : β → Reader ε β φ γ α}
    {t : Token β} {ts rest past : List (Token β)} {a : α} {xs : List φ} {os : List Nat} {s : σ}
    {f : β → EStateM ε σ α} (hnil : r.handed h [] = [])
    (hcons : ∀ us, r.handed h (t :: us) = (next t.text).handed h us) (hs : V.At s past (t :: ts) os)
    (hsuffix : ∃ more, ts = more ++ rest)
    (hnext : ∀ s', V.At s' (past ++ [t]) ts os →
      V.Outcome (next t.text) s' (past ++ [t]) ts rest a xs os (f t.text)) :
    V.Outcome r s past (t :: ts) rest a xs os (S.ask t >>= f) := by
  unfold Outcome
  apply Post.bind ((V.ask_post hs).mono (fun _ _ h => h) ?_)
  · rintro _ s₁ ⟨rfl, hfit, hat, hlog⟩
    apply (hnext s₁ hat).mono
    · rintro _ s' ⟨rfl, used, rfl, hused, hat', hlog'⟩
      rw [List.append_assoc] at hat'
      exact ⟨rfl, t :: used, rfl, List.forall_mem_cons.mpr ⟨hfit, hused⟩, hat', by rw [hlog', hlog]⟩
    · rintro _ s' (⟨o, os', used, u, more, ho, rfl, hle, hlt, hheld, hlog'⟩ | ⟨u, hu, hunfit⟩)
      · refine .inl ⟨o, os', t :: used, u, more, ho, rfl, ?_, ?_, ?_, ?_⟩
        · rwa [List.append_assoc] at hle
        · rwa [List.append_assoc past] at hlt
        · rwa [List.append_assoc past] at hheld
        · rw [hlog', hlog, hcons]
      · exact .inr ⟨u, List.mem_cons_of_mem _ hu, hunfit⟩
  · rintro _ s' (⟨o, os', ho, hle, hlt, hheld, hlog⟩ | hunfit)
    · obtain ⟨more, rfl⟩ := hsuffix
      refine .inl ⟨o, os', [], t, more, ho, rfl, ?_, ?_, ?_, ?_⟩
      · rwa [List.append_nil]
      · rwa [List.append_nil]
      · rwa [List.append_nil]
      · rw [hlog, hnil, List.flatMap_nil, List.append_nil]
    · exact .inr ⟨t, List.mem_cons_self, hunfit⟩

theorem exec_post (V : S.Sound h ω) {r : Reader ε β φ γ α} {ts rest : List (Token β)} {a : α}
    {xs : List φ} (hr : Reader.Yields h r ts a rest xs) {s : σ} {past : List (Token β)} {os : List Nat}
    (hs : V.At s past ts os) : V.Outcome r s past ts rest a xs os (S.exec r) := by
  induction hr generalizing s past with
  | ret =>
    refine ⟨rfl, [], rfl, fun _ h => (nomatch h), by rwa [List.append_nil], ?_⟩
    rw [List.flatMap_nil, List.append_nil]
  | line hnext ih => exact V.outcome_ask rfl (fun _ => rfl) hs hnext.suffix fun s' hs' => ih hs'
  | blob hnext ih => exact V.outcome_ask rfl (fun _ => rfl) hs hnext.suffix fun s' hs' => ih hs'
  | @push x g next ts rest a xs hx hnext ih =>
    have hhanded : ∀ us, (Reader.push x next).handed h us = x :: (next g).handed h us := by
      intro us
      rw [Reader.handed, hx]
    apply Post.bind ((V.push_post hx hs).mono (fun _ _ h => h) fun _ _ h => h.elim)
    rintro _ s₁ ⟨rfl, hat, hlog⟩
    apply (ih hat).mono
    · rintro _ s' ⟨rfl, used, rfl, hused, hat', hlog'⟩
      exact ⟨rfl, used, rfl, hused, hat', by rw [hlog', hlog, List.flatMap_cons, List.append_assoc]⟩
    · rintro _ s' (⟨o, os', used, u, more, ho, rfl, hle, hlt, hheld, hlog'⟩ | hunfit)
      · refine .inl ⟨o, os', used, u, more, ho, rfl, hle, hlt, hheld, ?_⟩
        rw [hlog', hlog, hhanded, List.flatMap_cons, List.append_assoc]
      · exact .inr hunfit

end Sound

/-- A source that takes note of the frames that are handed over. -/
def logged (S : Source ε β Empty γ σ) (push : φ → EStateM ε (σ × List ω) γ) :
    Source ε β φ γ (σ × List ω) where
  line := first S.line
  blob n := first (S.blob n)
  push := push
  clear := first S.clear
  exhausted := S.exhausted

/-- It is as good as the source was. -/
def Sound.logged {S : Source ε β Empty γ σ} {h₀ : Empty → Except ε γ} (V : S.Sound h₀ Empty)
    {push : φ → EStateM ε (σ × List ω) γ} {h : φ → Except ε γ} (noted : φ → List ω)
    (hpush : ∀ {x g} (s : σ) (w : List ω), h x = .ok g →
      (push x).run (s, w) = .ok g (s, w ++ noted x)) : (S.logged push).Sound h ω where
  At s := V.At s.1
  Held s := V.Held s.1
  Fit := V.Fit
  size := V.size
  log := Prod.snd
  noted := noted
  ask_post := by
    rintro ⟨s, w⟩ past t ts os hs
    have hask : (S.logged push).ask t = first (S.ask t) := by cases t <;> rfl
    rw [hask]
    apply Post.first
    apply (V.ask_post hs).mono
    · exact fun _ s' ⟨hb, hfit, hat, _⟩ => ⟨hb, hfit, hat, rfl⟩
    · rintro _ s' (⟨o, os', ho, hle, hlt, hheld, -⟩ | hunfit)
      · exact .inl ⟨o, os', ho, hle, hlt, hheld, rfl⟩
      · exact .inr hunfit
  push_post := by
    rintro ⟨s, w⟩ past ts os x g hx hs
    change Post ((push x).run (s, w)) _ _
    rw [hpush s w hx]
    exact ⟨rfl, hs, rfl⟩
  line_end := by
    rintro ⟨s, w⟩ past os hs
    apply Post.first
    exact (V.line_end hs).mono (fun _ _ h => h) fun _ s' ⟨hheld, _⟩ => ⟨hheld, rfl⟩

end Source

/-! ### Reading a stream call by call -/

/-- The tokens are those of one value after another, each with its frames. -/
inductive Stream (h : φ → Except ε γ) (r : Nat → Reader ε β φ γ α) :
    List (Token β) → List (α × List φ) → Prop
  | nil : Stream h r [] []
  | cons {n : Nat} {ts rest : List (Token β)} {a : α} {xs : List φ} {parts : List (α × List φ)}
      (hr : Reader.Yields h (r n) ts a rest xs) (hrest : Stream h r rest parts) :
      Stream h r ts ((a, xs) :: parts)

theorem Stream.mono {h : φ → Except ε γ} {r r' : Nat → Reader ε β φ γ α}
    (hr : ∀ n k, Reader.Within h k (r n) (r' k)) {ts : List (Token β)} {parts : List (α × List φ)}
    (hts : Stream h r ts parts) : Stream h r' ts parts := by
  induction hts with
  | nil => exact .nil
  | cons hy _ ih => exact .cons (hr _ _ _ _ _ _ (Nat.le_refl _) hy) ih

/-- Call `m` so many times, whatever it raises: the values that it returns, and the state. -/
def callMany (m : EStateM ε σ α) : Nat → σ → List α × σ
  | 0, s => ([], s)
  | n + 1, s =>
    match m.run s with
    | .ok a s' => (a :: (callMany m n s').1, (callMany m n s').2)
    | .error _ s' => callMany m n s'

/-- What comes of a call that is to read the next value of a stream. -/
def CallPost (r : Reader ε β φ γ α) (h : φ → Except ε γ) (Idle : σ → List (Token β) → List Nat → Prop)
    (Fit : Token β → Prop) (size : Token β → Nat) (log : σ → List ω) (noted : φ → List ω) (s : σ)
    (ts rest : List (Token β)) (a : α) (xs : List φ) (os : List Nat) (m : EStateM ε σ α) : Prop :=
  Post (m.run s)
    (fun a' s' => a' = a ∧ ∃ used os', ts = used ++ rest ∧ (∀ t ∈ used, Fit t) ∧
      os = os'.map (· + span size used) ∧ Idle s' rest os' ∧ log s' = log s ++ xs.flatMap noted)
    (fun _ s' => (∃ o os' used t more, os = o :: os' ∧ ts = used ++ t :: (more ++ rest) ∧
      span size used ≤ o ∧ o < span size (used ++ [t]) ∧ Idle s' ts os' ∧
      log s' = log s ++ (r.handed h used).flatMap noted) ∨ ∃ t ∈ ts, ¬ Fit t)

/-- What one call of `m` makes of the next value of a stream, for which it bounds the
reader as it needs. -/
structure Resumes (m : EStateM ε σ α) (h : φ → Except ε γ) (r : Nat → Reader ε β φ γ α) (ω : Type) where
  Idle : σ → List (Token β) → List Nat → Prop
  Fit : Token β → Prop
  size : Token β → Nat
  log : σ → List ω
  noted : φ → List ω
  call_post : ∀ {s ts os n a rest xs}, Idle s ts os → Reader.Yields h (r n) ts a rest xs →
    ∃ k, Reader.Yields h (r k) ts a rest xs ∧
      CallPost (r k) h Idle Fit size log noted s ts rest a xs os m
  call_end : ∀ {s os}, Idle s [] os → Post (m.run s) (fun _ _ => False)
    (fun _ s' => Idle s' [] os.tail ∧ log s' = log s)

/-- A call prepares the source, runs the reader and tidies up. -/
theorem Source.Sound.callPost {S : Source ε β φ γ σ} {h : φ → Except ε γ} (V : S.Sound h ω)
    {m : EStateM ε σ α} {r : Reader ε β φ γ α} {s s₀ : σ} {done undo : σ → σ}
    {Idle : σ → List (Token β) → List Nat → Prop} {ts rest : List (Token β)} {a : α} {xs : List φ}
    {os : List Nat}
    (hm : m.run s = settle done undo ((S.exec r).run s₀))
    (hlog : V.log s₀ = V.log s) (hlogDone : ∀ s', V.log (done s') = V.log s')
    (hlogUndo : ∀ s', V.log (undo s') = V.log s') (hr : Reader.Yields h r ts a rest xs)
    (hs : V.At s₀ [] ts os)
    (hdone : ∀ s' used, ts = used ++ rest → V.At s' used rest os →
      ∃ os', os = os'.map (· + span V.size used) ∧ Idle (done s') rest os')
    (hundo : ∀ s' used t more os', ts = used ++ t :: (more ++ rest) →
      V.Held s' used (t :: (more ++ rest)) os' → Idle (undo s') ts os') :
    CallPost r h Idle V.Fit V.size V.log V.noted s ts rest a xs os m := by
  have hexec := V.exec_post hr hs
  unfold Source.Sound.Outcome at hexec
  unfold CallPost
  rw [hm]
  cases hrun : (S.exec r).run s₀ with
  | ok a' s' =>
    rw [hrun] at hexec
    obtain ⟨rfl, used, hts, hfit, hat, hlog'⟩ := hexec
    obtain ⟨os', hos, hidle⟩ := hdone s' used hts hat
    exact ⟨rfl, used, os', hts, hfit, hos, hidle, by rw [hlogDone, hlog', hlog]⟩
  | error e s' =>
    rw [hrun] at hexec
    rcases hexec with ⟨o, os', used, t, more, ho, hts, hle, hlt, hheld, hlog'⟩ | hunfit
    · exact .inl ⟨o, os', used, t, more, ho, hts, hle, hlt, hundo s' used t more os' hts hheld,
        by rw [hlogUndo, hlog', hlog]⟩
    · exact .inr hunfit

/-- So it does where nothing is left to read, and raises. -/
theorem Source.Sound.callEnd {S : Source ε β φ γ σ} {h : φ → Except ε γ} (V : S.Sound h ω)
    {m : EStateM ε σ α} {r : Reader ε β φ γ α} {s s₀ : σ} {done undo : σ → σ}
    {Idle : σ → List (Token β) → List Nat → Prop} {os : List Nat}
    (hm : m.run s = settle done undo ((S.exec r).run s₀))
    (hr : ∃ next, r = .line next) (hlog : V.log s₀ = V.log s) (hlogUndo : ∀ s', V.log (undo s') = V.log s')
    (hs : V.At s₀ [] [] os) (hundo : ∀ s', V.Held s' [] [] os.tail → Idle (undo s') [] os.tail) :
    Post (m.run s) (fun _ _ => False) (fun _ s' => Idle s' [] os.tail ∧ V.log s' = V.log s) := by
  obtain ⟨next, rfl⟩ := hr
  have hline : Post ((S.exec (.line next)).run s₀) (fun _ _ => False)
      (fun _ s' => V.Held s' [] [] os.tail ∧ V.log s' = V.log s₀) :=
    Post.bind (V.line_end hs) fun _ _ h => h.elim
  rw [hm]
  cases hrun : (S.exec (.line next)).run s₀ with
  | ok a' s' =>
    rw [hrun] at hline
    exact hline.elim
  | error e s' =>
    rw [hrun] at hline
    exact ⟨hundo s' hline.1, by rw [hlogUndo, hline.2, hlog]⟩

namespace Resumes

variable {m : EStateM ε σ α} {h : φ → Except ε γ} {r : Nat → Reader ε β φ γ α}

/-- No interruption strikes when frames have been handed over for a value that is not
finished. -/
structure Spares (size : Token β → Nat) (h : φ → Except ε γ) (r : Nat → Reader ε β φ γ α)
    (Safe : List (Token β) → List Nat → Prop) : Prop where
  tail : ∀ {ts o os}, Safe ts (o :: os) → Safe ts os
  next : ∀ {ts used rest os n a xs}, Reader.Yields h (r n) ts a rest xs → ts = used ++ rest →
    Safe ts (os.map (· + span size used)) → Safe rest os
  handed : ∀ {ts used t more rest o os k a xs}, Safe ts (o :: os) → Reader.Yields h (r k) ts a rest xs →
    ts = used ++ t :: (more ++ rest) → span size used ≤ o → o < span size (used ++ [t]) →
    (r k).handed h used = []

/-- After any number of calls some of the values have been returned, in order, and the rest
of the stream is still to be read. Each call has returned a value or met an interruption; if
these spare the frames, the frames of the returned values have been handed over once each,
in order, and no others. -/
theorem callMany_post (V : Resumes m h r ω) (Safe : List (Token β) → List Nat → Prop)
    {ts : List (Token β)} {parts : List (α × List φ)} (hts : Stream h r ts parts)
    (hfit : ∀ t ∈ ts, V.Fit t) (n : Nat) {s : σ} {os : List Nat} (hs : V.Idle s ts os) :
    ∃ j used rest os', ts = used ++ rest ∧ (callMany m n s).1 = (parts.take j).map Prod.fst ∧
      j ≤ parts.length ∧ Stream h r rest (parts.drop j) ∧ V.Idle (callMany m n s).2 rest os' ∧
      (Spares V.size h r Safe → Safe ts os → V.log (callMany m n s).2 =
        V.log s ++ ((parts.take j).flatMap Prod.snd).flatMap V.noted) ∧
      (parts.length + os.length ≤ n → j = parts.length ∧ rest = []) := by
  induction n generalizing s ts parts os with
  | zero =>
    refine ⟨0, [], ts, os, rfl, rfl, Nat.zero_le _, hts, hs, fun _ _ => (List.append_nil _).symm, fun hn => ?_⟩
    cases hts with
    | nil => exact ⟨rfl, rfl⟩
    | cons => simp at hn
  | succ n ih =>
    cases hts with
    | nil =>
      have hcall := V.call_end hs
      unfold callMany
      cases hrun : m.run s with
      | ok a s' =>
        rw [hrun] at hcall
        exact hcall.elim
      | error e s' =>
        rw [hrun] at hcall
        obtain ⟨j, used, rest, os', htok, hvals, hj, hrest, hidle, hlog, -⟩ :=
          ih Stream.nil (fun _ h => (nomatch h)) hcall.1
        obtain ⟨rfl, rfl⟩ := List.append_eq_nil_iff.mp htok.symm
        refine ⟨j, [], [], os', rfl, hvals, hj, hrest, hidle, fun hspares hsafe => ?_,
          fun _ => ⟨Nat.le_zero.mp hj, rfl⟩⟩
        rw [← hcall.2]
        apply hlog hspares
        cases os with
        | nil => exact hsafe
        | cons o os => exact hspares.tail hsafe
    | @cons k ts rest a xs parts hr hrest =>
      obtain ⟨k, hk, hcall⟩ := V.call_post hs hr
      unfold CallPost at hcall
      unfold callMany
      cases hrun : m.run s with
      | ok a' s' =>
        rw [hrun] at hcall
        obtain ⟨rfl, used, os', rfl, -, rfl, hidle, hlog⟩ := hcall
        obtain ⟨j, used', rest', os'', rfl, hvals, hj, hrest', hidle', hlog', hend⟩ :=
          ih hrest (fun t ht => hfit t (List.mem_append_right _ ht)) hidle
        refine ⟨j + 1, used ++ used', rest', os'', (List.append_assoc _ _ _).symm, congrArg _ hvals,
          Nat.succ_le_succ hj, hrest', hidle', fun hspares hsafe => ?_, fun hn => ?_⟩
        · rw [hlog' hspares (hspares.next hr rfl hsafe), hlog, List.take_succ_cons, List.flatMap_cons,
            List.flatMap_append, List.append_assoc]
        · rw [List.length_map, List.length_cons] at hn
          obtain ⟨rfl, rfl⟩ := hend (by omega)
          exact ⟨rfl, rfl⟩
      | error e s' =>
        rw [hrun] at hcall
        rcases hcall with ⟨o, os', used, t, more, rfl, hused, hle, hlt, hidle, hlog⟩ | ⟨t, ht, hunfit⟩
        · obtain ⟨j, used', rest', os'', htok, hvals, hj, hrest', hidle', hlog', hend⟩ :=
            ih (.cons hr hrest) hfit hidle
          refine ⟨j, used', rest', os'', htok, hvals, hj, hrest', hidle', fun hspares hsafe => ?_,
            fun hn => hend ?_⟩
          · rw [hlog' hspares (hspares.tail hsafe), hlog, hspares.handed hsafe hk hused hle hlt,
              List.flatMap_nil, List.append_nil]
          · rw [List.length_cons, List.length_cons] at hn
            rw [List.length_cons]
            omega
        · exact absurd (hfit t ht) hunfit

theorem length_callMany_le (n : Nat) (s : σ) : (callMany m n s).1.length ≤ n := by
  induction n generalizing s with
  | zero => exact Nat.le_refl 0
  | succ n ih =>
    unfold callMany
    cases m.run s with
    | ok a s' => exact Nat.succ_le_succ (ih s')
    | error e s' => exact Nat.le_succ_of_le (ih s')

/-- Where each call returns a value, each token is fit to be read. -/
theorem fit_of_callMany (V : Resumes m h r ω) {ts : List (Token β)} {parts : List (α × List φ)}
    (hts : Stream h r ts parts) {s : σ} {os : List Nat} (hs : V.Idle s ts os)
    (hall : (callMany m parts.length s).1.length = parts.length) : ∀ t ∈ ts, V.Fit t := by
  induction hts generalizing s os with
  | nil => exact fun _ h => (nomatch h)
  | @cons j ts rest a xs parts hr hrest ih =>
    obtain ⟨k, -, hcall⟩ := V.call_post hs hr
    unfold CallPost at hcall
    simp only [List.length_cons, callMany] at hall
    cases hrun : m.run s with
    | ok a' s' =>
      rw [hrun] at hcall hall
      obtain ⟨rfl, used, os', rfl, hused, -, hidle, -⟩ := hcall
      have hrest := ih hidle (Nat.succ.inj hall)
      exact fun t ht => (List.mem_append.mp ht).elim (hused t) (hrest t)
    | error e s' =>
      simp only [hrun] at hall
      have := length_callMany_le (m := m) parts.length s'
      omega

end Resumes

end TokenReader
