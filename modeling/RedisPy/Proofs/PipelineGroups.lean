import RedisPy.Library.Raising
import RedisPy.Spec.PipelineScript

/-! A scripted attempt of a cluster pipeline up to the replies: each command belongs to
one node, and has either its own reply or the error with which its node was lost. -/

namespace RedisPy

open Raising

namespace ClusterPipeline

variable {ρ κ α : Type} {args : Nat → List String}
  {callbacks : Nat → Option (ResponseCallback α)} {a : PipelineAttempt ρ κ α} {k : Nat}
  {s : Applications α × PipelineBook ρ κ α}

/-- Neither the callbacks' record nor the results change. -/
structure Same (s s' : Applications α × PipelineBook ρ κ α) : Prop where
  applications : s'.1 = s.1
  results : s'.2.results = s.2.results

theorem Same.refl (s : Applications α × PipelineBook ρ κ α) : Same s s := ⟨rfl, rfl⟩

theorem Same.trans (s s' s'' : Applications α × PipelineBook ρ κ α) (h : Same s s')
    (h' : Same s' s'') : Same s s'' :=
  ⟨h'.applications.trans h.applications, h'.results.trans h.results⟩

theorem follows_outcome {β : Type} (o : Except Exc β) :
    Follows Same (first (outcome o) : M (Applications α) ρ κ α β) o := by
  intro s
  rw [outcome_run]
  cases o with
  | ok b => exact ⟨rfl, Same.refl s⟩
  | error e => exact ⟨rfl, Same.refl s⟩

theorem follows_note (e : Lease.Event κ ρ) :
    Follows Same (note e : M (Applications α) ρ κ α Unit) (.ok ()) := fun _ => ⟨rfl, rfl, rfl⟩

/-! ### Grouping -/

theorem follows_releaseAll (ns : List (NodeCommands ρ κ)) :
    Follows Same (releaseAll (scripted args callbacks a k) ns) (a.released ns) := by
  induction ns with
  | nil => exact Follows.pure Same.refl ()
  | cons n ns ih =>
    exact Follows.bind Same.trans (x := .ok ()) (follows_note _) fun _ =>
      Follows.bind Same.trans (follows_outcome (a.release n.redis_node n.connection)) fun _ => ih

/-- As `Same`, but for the attempt that is under way. -/
structure Within (k : Nat) (s s' : Applications α × PipelineBook ρ κ α) : Prop where
  applied : s'.1.applied = s.1.applied
  results : s'.2.results = s.2.results
  attempt : s.1.attempt = k → s'.1.attempt = k

theorem Within.refl (s : Applications α × PipelineBook ρ κ α) : Within k s s :=
  ⟨rfl, rfl, fun h => h⟩

theorem Within.trans (s s' s'' : Applications α × PipelineBook ρ κ α) (h : Within k s s')
    (h' : Within k s' s'') : Within k s s'' :=
  ⟨h'.applied.trans h.applied, h'.results.trans h.results, fun hk => h'.attempt (h.attempt hk)⟩

theorem Same.within {s' : Applications α × PipelineBook ρ κ α} (h : Same s s') : Within k s s' :=
  ⟨by rw [h.applications], h.results, by rw [h.applications]; exact fun h => h⟩

/-- The commands of all nodes. -/
def commandsOf (nodes : NodeDict ρ κ) : List Nat := nodes.items.flatMap NodeCommands.commands

theorem commandsOf_put_new {nodes : NodeDict ρ κ} {n : NodeCommands ρ κ}
    (h : n.node_name ∉ nodes.keys) :
    commandsOf (nodes.put n) = commandsOf nodes ++ n.commands := by
  have hput : (nodes.put n).items = nodes.items ++ [n] := if_neg h
  unfold commandsOf
  rw [hput, List.flatMap_append, List.flatMap_singleton]

theorem commandsOf_put {nodes : NodeDict ρ κ} {n : NodeCommands ρ κ} (p : Nat)
    (h : n ∈ nodes.items) :
    (commandsOf (nodes.put { n with commands := n.commands ++ [p] })).Perm (commandsOf nodes ++ [p]) := by
  have hkey : n.node_name ∈ nodes.keys := List.mem_map_of_mem h
  have hput : (nodes.put { n with commands := n.commands ++ [p] }).items =
      Keyed.replace NodeCommands.node_name { n with commands := n.commands ++ [p] } nodes.items :=
    if_pos hkey
  obtain ⟨before, after, hitems⟩ := List.append_of_mem h
  have hnodup := nodes.nodup
  have hsame : ∀ m ∈ before ++ after, m.node_name ≠ n.node_name := by
    intro m hm heq
    rw [hitems, List.map_append, List.map_cons, List.nodup_middle] at hnodup
    apply (List.nodup_cons.mp hnodup).1
    rw [← heq, ← List.map_append]
    exact List.mem_map_of_mem hm
  have hkeep : ∀ l : List (NodeCommands ρ κ), (∀ m ∈ l, m.node_name ≠ n.node_name) →
      Keyed.replace NodeCommands.node_name { n with commands := n.commands ++ [p] } l = l := by
    intro l hl
    rw [Keyed.replace]
    exact (List.map_congr_left fun m hm => if_neg (hl m hm)).trans (List.map_id l)
  unfold commandsOf
  rw [hput, hitems]
  have hsplit : Keyed.replace NodeCommands.node_name { n with commands := n.commands ++ [p] }
      (before ++ n :: after) = before ++ { n with commands := n.commands ++ [p] } :: after := by
    have hbefore := hkeep before fun m hm => hsame m (List.mem_append_left _ hm)
    have hafter := hkeep after fun m hm => hsame m (List.mem_append_right _ hm)
    simp only [Keyed.replace, List.map_append, List.map_cons, if_true] at hbefore hafter ⊢
    rw [hbefore, hafter]
  rw [hsplit]
  simp only [List.flatMap_append, List.flatMap_cons, List.append_assoc]
  refine List.Perm.append_left _ (List.Perm.append_left _ ?_)
  exact List.perm_append_comm

theorem grouped_perm {ps : List Nat} {nodes nodes' : NodeDict ρ κ} {is_default_node d : Bool}
    (h : a.grouped args ps nodes is_default_node = .ok (nodes', d)) :
    (commandsOf nodes').Perm (commandsOf nodes ++ ps) := by
  induction ps generalizing nodes is_default_node with
  | nil =>
    obtain ⟨rfl, -⟩ : nodes = nodes' ∧ is_default_node = d := by simpa [PipelineAttempt.grouped] using h
    rw [List.append_nil]
  | cons p ps ih =>
    obtain ⟨node, -, h⟩ := bind_eq_ok.mp h
    obtain ⟨is_default, -, h⟩ := bind_eq_ok.mp h
    obtain ⟨n, hentry, h⟩ := bind_eq_ok.mp h
    refine (ih h).trans ?_
    have hput : (commandsOf (nodes.put { n with commands := n.commands ++ [p] })).Perm
        (commandsOf nodes ++ [p]) := by
      unfold PipelineAttempt.entry at hentry
      split at hentry
      · rename_i m hget
        cases hentry
        exact commandsOf_put p (Keyed.mem_of_get? hget)
      · rename_i hget
        obtain ⟨redis_node, -, hentry⟩ := bind_eq_ok.mp hentry
        obtain ⟨c, -, hentry⟩ := bind_eq_ok.mp hentry
        cases hentry
        rw [commandsOf_put_new (Keyed.get?_eq_none.mp hget)]
        exact List.Perm.refl _
    have := hput.append_right ps
    rwa [List.append_assoc] at this

/-! ### Writing and reading -/

/-- The commands of a lost connection have the error, those of another have `value`. -/
def Known (lost : Except Exc Bool) (value : Nat → PipelineResult α) (ps : List Nat)
    (results : Nat → PipelineResult α) : Prop :=
  (lost = .ok true ∧ ∃ e, PipelineAttempt.isLoss e = true ∧ ∀ q ∈ ps, results q = .error e) ∨
  (lost = .ok false ∧ ∀ q ∈ ps, results q = value q)

theorem Known.congr {lost : Except Exc Bool} {value results results' : Nat → PipelineResult α}
    {ps : List Nat} (h : Known lost value ps results) (hsame : ∀ q ∈ ps, results' q = results q) :
    Known lost value ps results' := by
  rcases h with ⟨hl, e, he, hr⟩ | ⟨hl, hr⟩
  · exact .inl ⟨hl, e, he, fun q hq => (hsame q hq).trans (hr q hq)⟩
  · exact .inr ⟨hl, fun q hq => (hsame q hq).trans (hr q hq)⟩

/-- Nothing changes but the results of these commands. -/
structure Only (ps : List Nat) (s s' : Applications α × PipelineBook ρ κ α) : Prop where
  applications : s'.1 = s.1
  others : ∀ q ∉ ps, s'.2.results q = s.2.results q

theorem Only.refl (ps : List Nat) (s : Applications α × PipelineBook ρ κ α) : Only ps s s :=
  ⟨rfl, fun _ _ => rfl⟩

theorem Only.trans {ps : List Nat} {s s' s'' : Applications α × PipelineBook ρ κ α}
    (h : Only ps s s') (h' : Only ps s' s'') : Only ps s s'' :=
  ⟨h'.applications.trans h.applications, fun q hq => (h'.others q hq).trans (h.others q hq)⟩

theorem Only.mono {ps qs : List Nat} {s s' : Applications α × PipelineBook ρ κ α}
    (h : Only ps s s') (hsub : ∀ q ∈ ps, q ∈ qs) : Only qs s s' :=
  ⟨h.applications, fun q hq => h.others q fun hp => hq (hsub q hp)⟩

theorem Same.only {s' : Applications α × PipelineBook ρ κ α} (h : Same s s') (ps : List Nat) :
    Only ps s s' := ⟨h.applications, fun q _ => by rw [h.results]⟩

def withResults (ps : List Nat) (r : PipelineResult α) (s : Applications α × PipelineBook ρ κ α) :
    Applications α × PipelineBook ρ κ α :=
  (s.1, { s.2 with results := fun q => if q ∈ ps then r else s.2.results q })

theorem setResults_run (ps : List Nat) (r : PipelineResult α) :
    (setResults ps r : M (Applications α) ρ κ α Unit).run s = .ok () (withResults ps r s) := rfl

theorem only_withResults (ps : List Nat) (r : PipelineResult α) : Only ps s (withResults ps r s) :=
  ⟨rfl, fun _ hq => if_neg hq⟩

theorem withResults_mem {ps : List Nat} (r : PipelineResult α) {q : Nat} (hq : q ∈ ps) :
    (withResults ps r s).2.results q = r := if_pos hq

theorem write_post (n : NodeCommands ρ κ) :
    Post ((n.write (scripted args callbacks a k)).run s)
      (fun _ s' => Only n.commands s s' ∧
        Known (a.writing n.commands) (fun _ => .ok none) n.commands s'.2.results)
      (fun e s' => a.writing n.commands = .error e ∧ s'.1 = s.1) := by
  have hsend : Follows Same (do
      first ((scripted args callbacks a k).packCommands n.commands)
      first ((scripted args callbacks a k).sendPackedCommand n.connection n.commands) :
        M (Applications α) ρ κ α Unit) (do a.packed n.commands; a.sent n.commands) :=
    Follows.bind Same.trans (follows_outcome _) fun _ => follows_outcome _
  have hreset := only_withResults (s := s) n.commands (.ok none)
  unfold NodeCommands.write
  rw [EStateM.run_bind, setResults_run]
  refine Post.tryCatch ((hsend _).mono ?_ fun _ _ h => h) ?_
  · intro _ s' ⟨hsent, hs'⟩
    refine ⟨hreset.trans (hs'.only _), .inr ⟨?_, fun q hq => ?_⟩⟩
    · unfold PipelineAttempt.writing
      rw [hsent]
    · rw [hs'.results]
      exact withResults_mem _ hq
  · intro e s' ⟨hsent, hs'⟩
    have honly := hreset.trans (hs'.only n.commands)
    by_cases he : PipelineAttempt.isLoss e = true
    · simp only [show e.isinstanceAny [.ConnectionError, .TimeoutError] = true from he, if_true]
      refine ⟨honly.trans (only_withResults _ _), .inl ⟨?_, e, he, fun q hq => withResults_mem _ hq⟩⟩
      unfold PipelineAttempt.writing
      rw [hsent]
      exact if_pos he
    · simp only [show ¬ e.isinstanceAny [.ConnectionError, .TimeoutError] = true from he]
      refine ⟨?_, honly.applications⟩
      unfold PipelineAttempt.writing
      rw [hsent]
      exact if_neg he

theorem getResult_run {σ : Type} (s : σ × PipelineBook ρ κ α) (p : Nat) :
    (getResult p : M σ ρ κ α (PipelineResult α)).run s = .ok (s.2.results p) s := rfl

/-- A command that has an error already is not read, whatever the operations are. -/
theorem readFrom_lost {σ : Type} {s : σ × PipelineBook ρ κ α} (ops : Ops σ ρ κ α)
    (n : NodeCommands ρ κ) (ps : List Nat) (h : ∀ q ∈ ps, ∃ e, s.2.results q = .error e) :
    (n.readFrom ops ps).run s = .ok () s := by
  induction ps with
  | nil => rfl
  | cons p ps ih =>
    obtain ⟨e, he⟩ := h p List.mem_cons_self
    have hone : (n.readOne ops p).run s = .ok true s := by
      unfold NodeCommands.readOne
      rw [EStateM.run_bind]
      rw [getResult_run, he]
      rfl
    unfold NodeCommands.readFrom
    rw [EStateM.run_bind, hone]
    exact ih fun q hq => h q (List.mem_cons_of_mem _ hq)

/-- From `s` to `s'` the replies to the last commands `ps` of a node have been read. -/
structure HasRead (a : PipelineAttempt ρ κ α) (commands ps : List Nat)
    (s s' : Applications α × PipelineBook ρ κ α) : Prop where
  only : Only commands s s'
  known : (a.reading ps = .ok true ∧
      ∃ e, PipelineAttempt.isLoss e = true ∧ ∀ q ∈ commands, s'.2.results q = .error e) ∨
    (a.reading ps = .ok false ∧ Only ps s s' ∧ ∀ q ∈ ps, s'.2.results q = a.reply q)

/-- The loop goes on with the reply as the result of the command. -/
theorem HasRead.cons {commands ps : List Nat} {p : Nat}
    {s' : Applications α × PipelineBook ρ κ α} (hp : p ∉ ps) (hmem : p ∈ commands)
    (hreading : a.reading (p :: ps) = a.reading ps)
    (h : HasRead a commands ps (withResults [p] (a.reply p) s) s') :
    HasRead a commands (p :: ps) s s' := by
  have hset : Only [p] s (withResults [p] (a.reply p) s) := only_withResults [p] _
  constructor
  · exact (hset.mono fun q hq => by rwa [List.mem_singleton.mp hq]).trans h.only
  · rw [hreading]
    rcases h.known with hread | ⟨hread, hps, hall⟩
    · exact .inl hread
    · refine .inr ⟨hread, ?_, ?_⟩
      · exact (hset.mono fun q hq => by rw [List.mem_singleton.mp hq]; exact List.mem_cons_self).trans
          (hps.mono fun q hq => List.mem_cons_of_mem _ hq)
      · intro q hq
        rcases List.mem_cons.mp hq with rfl | hq
        · rw [hps.others q hp]
          exact withResults_mem _ List.mem_cons_self
        · exact hall q hq

theorem readOne_run (n : NodeCommands ρ κ) (p : Nat) (h : s.2.results p = .ok none) :
    (n.readOne (scripted args callbacks a k) p).run s =
      match a.reply p with
      | .ok v => .ok true (withResults [p] (.ok v) s)
      | .error e => (n.failed p e : M (Applications α) ρ κ α Bool).run s := by
  have hread : (n.readOne (scripted args callbacks a k) p).run s =
      (tryCatch (do
          setResult p (.ok (← first ((scripted args callbacks a k).parseResponse n.redis_node
            n.connection p)))
          return true)
        (n.failed p) : M (Applications α) ρ κ α Bool).run s := by
    unfold NodeCommands.readOne
    rw [EStateM.run_bind, getResult_run, h]
  have hparse : (first ((scripted (ρ := ρ) (κ := κ) args callbacks a k).parseResponse n.redis_node
      n.connection p) : M (Applications α) ρ κ α _).run s = _ := outcome_run (a.reply p) s
  rw [hread, run_tryCatch, EStateM.run_bind, hparse]
  cases a.reply p <;> rfl

theorem readFrom_post (n : NodeCommands ρ κ) (ps : List Nat) (hps : ps.Nodup)
    (hsub : ∀ q ∈ ps, q ∈ n.commands) (hnone : ∀ q ∈ ps, s.2.results q = .ok none) :
    Post ((n.readFrom (scripted args callbacks a k) ps).run s)
      (fun _ => HasRead a n.commands ps s)
      (fun e s' => a.reading ps = .error e ∧ s'.1 = s.1) := by
  induction ps generalizing s with
  | nil => exact ⟨Only.refl _ s, .inr ⟨rfl, Only.refl _ s, fun _ h => (nomatch h)⟩⟩
  | cons p ps ih =>
    obtain ⟨hp, hps⟩ := List.nodup_cons.mp hps
    have hmem := hsub p List.mem_cons_self
    have hgoes : a.reading (p :: ps) = a.reading ps →
        Post ((n.readFrom (scripted args callbacks a k) ps).run (withResults [p] (a.reply p) s))
          (fun _ => HasRead a n.commands (p :: ps) s)
          (fun e s' => a.reading (p :: ps) = .error e ∧ s'.1 = s.1) := by
      intro hreading
      have hother : ∀ q ∈ ps, (withResults [p] (a.reply p) s).2.results q = .ok none := by
        intro q hq
        have hne : q ∉ [p] := by
          rw [List.mem_singleton]
          rintro rfl
          exact hp hq
        exact (if_neg hne).trans (hnone q (List.mem_cons_of_mem _ hq))
      refine (ih hps (fun q hq => hsub q (List.mem_cons_of_mem _ hq)) hother).mono ?_ ?_
      · exact fun _ _ h => h.cons hp hmem hreading
      · exact fun e s' h => ⟨hreading.trans h.1, h.2⟩
    unfold NodeCommands.readFrom
    rw [EStateM.run_bind, readOne_run n p (hnone p List.mem_cons_self)]
    cases hr : a.reply p with
    | ok v =>
      have := hgoes (by simp [PipelineAttempt.reading, hr])
      rwa [hr] at this
    | error e =>
      unfold NodeCommands.failed
      by_cases hloss : PipelineAttempt.isLoss e = true
      · simp only [show e.isinstanceAny [.ConnectionError, .TimeoutError] = true from hloss, if_true]
        refine ⟨only_withResults _ _, .inl ⟨?_, e, hloss, fun q hq => withResults_mem _ hq⟩⟩
        simp [PipelineAttempt.reading, hr, hloss]
      · simp only [show ¬ e.isinstanceAny [.ConnectionError, .TimeoutError] = true from hloss]
        by_cases hredis : e.isinstance .RedisError = true
        · simp only [hredis, if_true]
          have := hgoes (by simp [PipelineAttempt.reading, hr, hloss, hredis])
          rwa [hr] at this
        · simp only [hredis]
          exact ⟨by simp [PipelineAttempt.reading, hr, hloss, hredis], rfl⟩

/-- The replies of a node to which the commands have been written, or not, are read. -/
theorem read_post (n : NodeCommands ρ κ) (hnodup : n.commands.Nodup)
    (h : Known (a.writing n.commands) (fun _ => .ok none) n.commands s.2.results) :
    Post ((n.read (scripted args callbacks a k)).run s)
      (fun _ s' => Only n.commands s s' ∧ Known (a.lost n.commands) a.reply n.commands s'.2.results)
      (fun e s' => a.lost n.commands = .error e ∧ s'.1 = s.1) := by
  unfold NodeCommands.read
  rcases h with ⟨hwriting, e, he, hres⟩ | ⟨hwriting, hres⟩
  · rw [readFrom_lost _ n n.commands fun q hq => ⟨e, hres q hq⟩]
    exact ⟨Only.refl _ s, .inl ⟨by simp [PipelineAttempt.lost, hwriting]; rfl, e, he, hres⟩⟩
  · have hlost : a.lost n.commands = a.reading n.commands := by
      simp only [PipelineAttempt.lost, hwriting]
      rfl
    rw [hlost]
    refine (readFrom_post n n.commands hnodup (fun _ h => h) hres).mono ?_ fun _ _ h => h
    intro _ s' hread
    refine ⟨hread.only, ?_⟩
    rcases hread.known with ⟨hr, hall⟩ | ⟨hr, -, hall⟩
    · exact .inl ⟨hr, hall⟩
    · exact .inr ⟨hr, hall⟩

/-! ### All nodes -/

theorem writeAll_eq (ops : Ops (Applications α) ρ κ α) (ns : List (NodeCommands ρ κ)) :
    writeAll ops ns = ns.forM fun n => n.write ops := by
  induction ns with
  | nil => rfl
  | cons n ns ih =>
    rw [writeAll, ih]
    rfl

theorem readAll_eq (ops : Ops (Applications α) ρ κ α) (ns : List (NodeCommands ρ κ)) :
    readAll ops ns = ns.forM fun n => n.read ops := by
  induction ns with
  | nil => rfl
  | cons n ns ih =>
    rw [readAll, ih]
    rfl

/-- What is done for each node in turn changes the results of its own commands only. -/
theorem forM_nodes_post {f : NodeCommands ρ κ → M (Applications α) ρ κ α Unit}
    {x : NodeCommands ρ κ → Except Exc Unit}
    {K L : NodeCommands ρ κ → (Nat → PipelineResult α) → Prop} (ns : List (NodeCommands ρ κ))
    (hnodup : (ns.flatMap NodeCommands.commands).Nodup)
    (hK : ∀ n res res', K n res → (∀ q ∈ n.commands, res' q = res q) → K n res')
    (hL : ∀ n res res', L n res → (∀ q ∈ n.commands, res' q = res q) → L n res')
    (hf : ∀ n s, n.commands.Nodup → K n s.2.results → Post ((f n).run s)
      (fun _ s' => x n = .ok () ∧ Only n.commands s s' ∧ L n s'.2.results)
      (fun e s' => x n = .error e ∧ s'.1 = s.1))
    (h : ∀ n ∈ ns, K n s.2.results) :
    Post ((ns.forM f).run s)
      (fun _ s' => ns.forM x = .ok () ∧ Only (ns.flatMap NodeCommands.commands) s s' ∧
        ∀ n ∈ ns, L n s'.2.results)
      (fun e s' => ns.forM x = .error e ∧ s'.1 = s.1) := by
  induction ns generalizing s with
  | nil => exact ⟨rfl, Only.refl _ s, fun _ h => (nomatch h)⟩
  | cons n ns ih =>
    rw [List.flatMap_cons, List.nodup_append] at hnodup
    obtain ⟨hn, hns, hdisjoint⟩ := hnodup
    have hxs : (n :: ns).forM x = (x n >>= fun _ => ns.forM x) := rfl
    rw [hxs]
    apply Post.bind ((hf n s hn (h n List.mem_cons_self)).mono (fun _ _ h => h) ?_)
    · intro _ s₁ ⟨hx, honly, hdone⟩
      have hrest : ∀ m ∈ ns, K m s₁.2.results := by
        intro m hm
        refine hK m _ _ (h m (List.mem_cons_of_mem _ hm)) fun q hq => honly.others q fun hq' => ?_
        exact hdisjoint q hq' q (List.mem_flatMap.mpr ⟨m, hm, hq⟩) rfl
      refine (ih hns hrest).mono ?_ ?_
      · intro _ s' ⟨hrest, honly', hall⟩
        refine ⟨?_, ?_, ?_⟩
        · rw [hx]
          exact hrest
        · exact (honly.mono fun q hq => List.mem_append_left _ hq).trans
            (honly'.mono fun q hq => List.mem_append_right _ hq)
        · intro m hm
          rcases List.mem_cons.mp hm with rfl | hm
          · exact hL m _ _ hdone fun q hq => honly'.others q fun hq' => hdisjoint q hq q hq' rfl
          · exact hall m hm
      · intro e s' ⟨hrest, hs'⟩
        refine ⟨?_, hs'.trans honly.applications⟩
        rw [hx]
        exact hrest
    · intro e s₁ ⟨hx, hs₁⟩
      refine ⟨?_, hs₁⟩
      rw [hx]
      rfl

theorem Known.done {x : Except Exc Bool} {value results : Nat → PipelineResult α} {ps : List Nat}
    (h : Known x value ps results) : x.map (fun _ => ()) = .ok () := by
  rcases h with ⟨hx, -⟩ | ⟨hx, -⟩
  · rw [hx]
    rfl
  · rw [hx]
    rfl

theorem writeAll_post (ns : List (NodeCommands ρ κ))
    (hnodup : (ns.flatMap NodeCommands.commands).Nodup) :
    Post ((writeAll (scripted args callbacks a k) ns).run s)
      (fun _ s' => (ns.forM fun n => (a.writing n.commands).map fun _ => ()) = .ok () ∧
        Only (ns.flatMap NodeCommands.commands) s s' ∧
        ∀ n ∈ ns, Known (a.writing n.commands) (fun _ => .ok none) n.commands s'.2.results)
      (fun e s' => (ns.forM fun n => (a.writing n.commands).map fun _ => ()) = .error e ∧
        s'.1 = s.1) := by
  rw [writeAll_eq]
  exact forM_nodes_post (K := fun _ _ => True) ns hnodup (fun _ _ _ _ _ => trivial)
    (fun _ _ _ => Known.congr)
    (fun n s _ _ => (write_post n).mono (fun _ _ h => ⟨h.2.done, h.1, h.2⟩)
      fun _ _ h => ⟨by rw [h.1]; rfl, h.2⟩)
    fun _ _ => trivial

/-- Every node is done with: its connection is lost, or its commands have their replies. -/
theorem exchange_post (ns : List (NodeCommands ρ κ))
    (hnodup : (ns.flatMap NodeCommands.commands).Nodup) :
    Post ((exchange (scripted args callbacks a k) ns).run s)
      (fun _ s' => a.exchanged ns = .ok () ∧ s'.1 = s.1 ∧
        ∀ n ∈ ns, Known (a.lost n.commands) a.reply n.commands s'.2.results)
      (fun e s' => a.exchanged ns = .error e ∧ s'.1 = s.1) := by
  have hread := fun s₁ => forM_nodes_post (s := s₁)
    (f := fun n => n.read (scripted args callbacks a k))
    (x := fun n => (a.lost n.commands).map fun _ => ())
    (K := fun n => Known (a.writing n.commands) (fun _ => .ok none) n.commands)
    (L := fun n => Known (a.lost n.commands) a.reply n.commands) ns hnodup
    (fun _ _ _ => Known.congr) (fun _ _ _ => Known.congr)
    (fun n s hn h => (read_post n hn h).mono (fun _ _ h => ⟨h.2.done, h.1, h.2⟩)
      fun _ _ h => ⟨by rw [h.1]; rfl, h.2⟩)
  have hbody : Post ((do
      writeAll (scripted args callbacks a k) ns
      readAll (scripted args callbacks a k) ns : M (Applications α) ρ κ α Unit).run s)
      (fun _ s' => a.served ns = .ok () ∧ s'.1 = s.1 ∧
        ∀ n ∈ ns, Known (a.lost n.commands) a.reply n.commands s'.2.results)
      (fun e s' => a.served ns = .error e ∧ s'.1 = s.1) := by
    rw [readAll_eq]
    unfold PipelineAttempt.served
    apply Post.bind ((writeAll_post ns hnodup).mono (fun _ _ h => h) fun e s' h => ⟨by rw [h.1]; rfl, h.2⟩)
    intro _ s₁ ⟨hx, honly, hwritten⟩
    rw [hx]
    exact (hread s₁ hwritten).mono
      (fun _ s' h => ⟨h.1, h.2.1.applications.trans honly.applications, h.2.2⟩)
      fun _ s' h => ⟨h.1, h.2.trans honly.applications⟩
  unfold PipelineAttempt.exchanged
  apply Post.tryFinally hbody
  · intro _ s₁ ⟨hserved, hs₁, hall⟩
    refine (follows_releaseAll ns s₁).mono ?_ ?_
    · intro _ s' ⟨hreleased, hs'⟩
      rw [hreleased]
      exact ⟨hserved, hs'.applications.trans hs₁, fun n hn => by rw [hs'.results]; exact hall n hn⟩
    · intro e s' ⟨hreleased, hs'⟩
      rw [hreleased]
      exact ⟨rfl, hs'.applications.trans hs₁⟩
  · intro e s₁ ⟨hserved, hs₁⟩
    refine (follows_releaseAll ns s₁).mono ?_ ?_
    · intro _ s' ⟨hreleased, hs'⟩
      rw [hreleased]
      exact ⟨hserved, hs'.applications.trans hs₁⟩
    · intro e' s' ⟨hreleased, hs'⟩
      rw [hreleased]
      exact ⟨rfl, hs'.applications.trans hs₁⟩

end ClusterPipeline

end RedisPy
