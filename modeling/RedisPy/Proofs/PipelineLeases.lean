import RedisPy.Spec.PipelineScript

/-! What the sync `ClusterPipeline` does with the connections that it obtains from
the pools of the nodes. -/

namespace RedisPy

open Raising Lease

/-- How the grouping ends: with all commands, with a `ConnectionError` of
`get_connection`, or with another exception. -/
inductive Grouping where
  | done | refused | raised
  deriving DecidableEq

namespace Routing

variable {ρ κ : Type}

/-- An entry of `nodes`, with its connection and the client of its pool. -/
abbrev Entry (ρ κ : Type) := String × κ × ρ

/-- The connections that are obtained for the commands, after the ones there are, and
how that ends. -/
def group (r : Routing ρ κ) : List Nat → List (Entry ρ κ) → List (Entry ρ κ) × Grouping
  | [], opened => (opened, .done)
  | p :: ps, opened =>
    match r.targets p with
    | .ok [node] =>
      match r.isDefault node with
      | .error _ => (opened, .raised)
      | .ok _ =>
        if node.name ∈ opened.map Prod.fst then group r ps opened
        else
          match r.redis node, r.connection p with
          | .error _, _ => (opened, .raised)
          | .ok _, .error e => (opened, if e.isinstance .ConnectionError then .refused else .raised)
          | .ok redis, .ok c => group r ps (opened ++ [(node.name, c, redis)])
    | _ => (opened, .raised)

/-- The connections that are given back, until `release` raises. -/
def given (r : Routing ρ κ) : List (κ × ρ) → List (κ × ρ)
  | [] => []
  | x :: xs =>
    match r.release x.2 x.1 with
    | .ok _ => x :: given r xs
    | .error _ => [x]

theorem given_prefix (r : Routing ρ κ) (xs : List (κ × ρ)) : r.given xs <+: xs := by
  induction xs with
  | nil => exact List.prefix_refl _
  | cons x xs ih =>
    unfold given
    split
    · exact List.cons_prefix_cons.mpr ⟨rfl, ih⟩
    · exact List.cons_prefix_cons.mpr ⟨rfl, List.nil_prefix⟩

/-- All are given back just if `release` raises for none of them but the last. -/
theorem given_eq_iff (r : Routing ρ κ) (xs : List (κ × ρ)) :
    r.given xs = xs ↔ ∀ x ∈ xs.dropLast, ∃ u, r.release x.2 x.1 = .ok u := by
  induction xs with
  | nil => simp [given]
  | cons x xs ih =>
    unfold given
    cases hx : r.release x.2 x.1 with
    | ok u =>
      cases xs with
      | nil => simp [given]
      | cons y xs => simp [hx, ih]
    | error e =>
      cases xs with
      | nil => simp
      | cons y xs => simp [hx]

/-- Either nothing has been obtained when a command cannot be routed, or all that was
obtained is given back. -/
def Settles (r : Routing ρ κ) (stack : List Nat) : Prop :=
  if (r.group stack []).2 = .raised then (r.group stack []).1 = []
  else ∀ x ∈ ((r.group stack []).1.map Prod.snd).dropLast, ∃ u, r.release x.2 x.1 = .ok u

end Routing

namespace ClusterPipeline

open Routing

variable {σ ρ κ α β : Type} {ops : Ops σ ρ κ α} {r : Routing ρ κ}
  {s : σ × PipelineBook ρ κ α}

/-- The history of the connections does not change. -/
abbrev KeepsLeases (m : M σ ρ κ α β) : Prop := ∀ es, Keeps (fun s => s.2.leases = es) m

theorem keepsLeases_first (m : EStateM Exc σ β) :
    KeepsLeases (first m : M σ ρ κ α β) :=
  fun es => Keeps.first (I := fun b : PipelineBook ρ κ α => b.leases = es)

theorem keepsLeases_setResults (ps : List Nat) (res : PipelineResult α) :
    KeepsLeases (setResults ps res : M σ ρ κ α Unit) := fun _ _ h => h

theorem keepsLeases_getResult (p : Nat) : KeepsLeases (getResult p : M σ ρ κ α _) := fun _ _ h => h

theorem KeepsLeases.bind {γ : Type} {m : M σ ρ κ α β} {f : β → M σ ρ κ α γ} (hm : KeepsLeases m)
    (hf : ∀ b, KeepsLeases (f b)) : KeepsLeases (m >>= f) :=
  fun es => Keeps.bind (hm es) fun b => hf b es

theorem KeepsLeases.tryCatch {m : M σ ρ κ α β} {h : Exc → M σ ρ κ α β} (hm : KeepsLeases m)
    (hh : ∀ e, KeepsLeases (h e)) : KeepsLeases (tryCatch m h) :=
  fun es s hs => Post.tryCatch (hm es s hs) fun e s' hs' => hh e es s' hs'

theorem KeepsLeases.ite {c : Prop} [Decidable c] {m m' : M σ ρ κ α β} (h : KeepsLeases m)
    (h' : KeepsLeases m') : KeepsLeases (if c then m else m') := fun es => Keeps.ite (h es) (h' es)

theorem keepsLeases_pure (b : β) : KeepsLeases (pure b : M σ ρ κ α β) := fun _ => Keeps.pure b

theorem keepsLeases_throw (e : Exc) : KeepsLeases (throw e : M σ ρ κ α β) := fun _ => Keeps.throw e

/-! ### The parts that hold the connections as they are -/

theorem write_keepsLeases (n : NodeCommands ρ κ) : KeepsLeases (n.write ops) := by
  apply KeepsLeases.bind (keepsLeases_setResults _ _)
  intro _
  apply KeepsLeases.tryCatch
  · exact (keepsLeases_first _).bind fun _ => keepsLeases_first _
  · exact fun e => KeepsLeases.ite (keepsLeases_setResults _ _) (keepsLeases_throw e)

theorem readOne_keepsLeases (n : NodeCommands ρ κ) (p : Nat) : KeepsLeases (n.readOne ops p) := by
  apply KeepsLeases.bind (keepsLeases_getResult p)
  intro res
  split
  · apply KeepsLeases.tryCatch
    · apply (keepsLeases_first _).bind
      intro v
      exact (keepsLeases_setResults _ _).bind fun _ => keepsLeases_pure true
    · intro e
      apply KeepsLeases.ite
      · exact (keepsLeases_setResults _ _).bind fun _ => keepsLeases_pure false
      · apply KeepsLeases.ite
        · exact (keepsLeases_setResults _ _).bind fun _ => keepsLeases_pure true
        · exact keepsLeases_throw e
  · exact keepsLeases_pure true

theorem read_keepsLeases (n : NodeCommands ρ κ) (ps : List Nat) : KeepsLeases (n.readFrom ops ps) := by
  induction ps with
  | nil => exact keepsLeases_pure ()
  | cons p ps ih =>
    apply (readOne_keepsLeases n p).bind
    intro goes_on
    cases goes_on with
    | true => exact ih
    | false => exact keepsLeases_pure ()

theorem writeAll_keepsLeases (ns : List (NodeCommands ρ κ)) : KeepsLeases (writeAll ops ns) := by
  induction ns with
  | nil => exact keepsLeases_pure ()
  | cons n ns ih => exact (write_keepsLeases n).bind fun _ => ih

theorem readAll_keepsLeases (ns : List (NodeCommands ρ κ)) : KeepsLeases (readAll ops ns) := by
  induction ns with
  | nil => exact keepsLeases_pure ()
  | cons n ns ih => exact (read_keepsLeases n n.commands).bind fun _ => ih

theorem refresh_keepsLeases (is_default_node : Bool) : KeepsLeases (refresh ops is_default_node) := by
  apply (keepsLeases_first _).bind
  intro due
  apply KeepsLeases.ite
  · apply (keepsLeases_first _).bind
    exact fun _ => KeepsLeases.ite (keepsLeases_first _) (keepsLeases_pure ())
  · exact keepsLeases_pure ()

theorem retryAll_keepsLeases (ps : List Nat) : KeepsLeases (retryAll ops ps) := by
  induction ps with
  | nil => exact keepsLeases_pure ()
  | cons p ps ih =>
    apply KeepsLeases.bind
    · apply KeepsLeases.tryCatch
      · exact (keepsLeases_first _).bind fun _ => keepsLeases_setResults _ _
      · exact fun e => KeepsLeases.ite (keepsLeases_setResults _ _) (keepsLeases_throw e)
    · exact fun _ => ih

/-- A single command has connections of its own. -/
theorem retryCommands_keepsLeases (stack : List Nat) (is_default_node : Bool) :
    KeepsLeases (retryCommands ops stack is_default_node) := by
  intro es s hs
  apply Post.get_bind
  apply Post.ite
  · intro _
    exact ((refresh_keepsLeases is_default_node).bind fun _ => retryAll_keepsLeases _) es s hs
  · exact fun _ => hs

theorem respond_keepsLeases (stack : List Nat) (raise_on_error : Bool) :
    KeepsLeases (respond ops stack raise_on_error) := by
  have hbuild : KeepsLeases (buildResponse ops stack) := by
    induction stack with
    | nil => exact keepsLeases_pure []
    | cons p ps ih =>
      apply KeepsLeases.bind
      · unfold applyCallback
        cases ops.callback p with
        | none => exact keepsLeases_pure ()
        | some cb =>
          apply (keepsLeases_getResult p).bind
          exact fun _ => (keepsLeases_first _).bind fun _ => keepsLeases_setResults _ _
      · intro _
        apply (keepsLeases_getResult p).bind
        exact fun r => ih.bind fun rs => keepsLeases_pure (r :: rs)
  have hraise : KeepsLeases (raiseFirstError ops stack) := by
    clear hbuild
    induction stack with
    | nil => exact keepsLeases_pure ()
    | cons p ps ih =>
      apply (keepsLeases_getResult p).bind
      intro res
      cases res with
      | error e => exact keepsLeases_throw _
      | ok v => exact ih
  apply hbuild.bind
  intro response
  cases raise_on_error with
  | true => exact hraise.bind fun _ => keepsLeases_pure response
  | false => exact keepsLeases_pure response

/-! ### Releasing -/

/-- The connection of an entry, with the client of its pool. -/
def NodeCommands.lease (n : NodeCommands ρ κ) : κ × ρ := (n.connection, n.redis_node)

variable (ops r) in
/-- What is released is noted, whether `release` raises or not. -/
theorem releaseAll_leases (ns : List (NodeCommands ρ κ)) (s : σ × PipelineBook ρ κ α) :
    let es := s.2.leases ++ (r.given (ns.map NodeCommands.lease)).map fun x => .released x.1 x.2
    Post ((releaseAll (ops.routed r) ns).run s) (fun _ s' => s'.2.leases = es)
      (fun _ s' => s'.2.leases = es) := by
  induction ns generalizing s with
  | nil => simp [releaseAll, given, Post]
  | cons n ns ih =>
    obtain ⟨w, b⟩ := s
    cases hr : r.release n.redis_node n.connection with
    | error e =>
      simp [releaseAll, Ops.routed, outcome, note, given, NodeCommands.lease, hr, Post]
    | ok u =>
      have hnext := ih (w, { b with leases := b.leases ++ [.released n.connection n.redis_node] })
      have hrun : (releaseAll (ops.routed r) (n :: ns)).run (w, b) =
          (releaseAll (ops.routed r) ns).run
            (w, { b with leases := b.leases ++ [.released n.connection n.redis_node] }) := by
        simp [releaseAll, Ops.routed, outcome, note, hr]
      rw [hrun]
      simpa [given, NodeCommands.lease, hr] using hnext

variable (ops r) in
theorem exchange_leases (ns : List (NodeCommands ρ κ)) (s : σ × PipelineBook ρ κ α) :
    let es := s.2.leases ++ (r.given (ns.map NodeCommands.lease)).map fun x => .released x.1 x.2
    Post ((exchange (ops.routed r) ns).run s) (fun _ s' => s'.2.leases = es)
      (fun _ s' => s'.2.leases = es) := by
  have hkeep : KeepsLeases (do
      writeAll (ops.routed r) ns
      readAll (ops.routed r) ns : M σ ρ κ α Unit) :=
    (writeAll_keepsLeases ns).bind fun _ => readAll_keepsLeases ns
  apply Post.tryFinally (hkeep s.2.leases s rfl)
  · intro _ s' hs'
    have := releaseAll_leases ops r ns s'
    rwa [hs'] at this
  · intro _ s' hs'
    have := releaseAll_leases ops r ns s'
    rwa [hs'] at this

/-! ### Grouping -/

/-- An entry as the routing knows it. -/
def NodeCommands.entry (n : NodeCommands ρ κ) : Entry ρ κ := (n.node_name, n.lease)

/-- The entries there are, and the connections that they have obtained. -/
structure Opened (opened : List (Entry ρ κ)) (nodes : NodeDict ρ κ)
    (s : σ × PipelineBook ρ κ α) : Prop where
  entries : nodes.items.map NodeCommands.entry = opened
  leases : s.2.leases = takenThenGiven (opened.map Prod.snd) []

/-- How grouping leaves the history of connections when it raises. -/
def Abandoned (r : Routing ρ κ) (g : List (Entry ρ κ) × Grouping)
    (s : σ × PipelineBook ρ κ α) : Prop :=
  (g.2 = .raised ∧ s.2.leases = takenThenGiven (g.1.map Prod.snd) []) ∨
    (g.2 = .refused ∧ s.2.leases = takenThenGiven (g.1.map Prod.snd) (r.given (g.1.map Prod.snd)))

theorem entries_put {nodes : NodeDict ρ κ} {n : NodeCommands ρ κ} (cs : List Nat)
    (h : n ∈ nodes.items) :
    (nodes.put { n with commands := cs }).items.map NodeCommands.entry =
      nodes.items.map NodeCommands.entry := by
  have hkey : n.node_name ∈ nodes.keys := List.mem_map_of_mem h
  have hput : (nodes.put { n with commands := cs }).items =
      Keyed.replace NodeCommands.node_name { n with commands := cs } nodes.items := if_pos hkey
  rw [hput, Keyed.replace, List.map_map]
  apply List.map_congr_left
  intro m hm
  by_cases hk : m.node_name = n.node_name
  · have hmn : m = n := List.inj_on_of_nodup_map nodes.nodup hm h hk
    simp [hmn, NodeCommands.entry, NodeCommands.lease]
  · simp [hk]

theorem entries_put_new {nodes : NodeDict ρ κ} {n : NodeCommands ρ κ}
    (h : n.node_name ∉ nodes.items.map NodeCommands.node_name) :
    (nodes.put n).items.map NodeCommands.entry =
      nodes.items.map NodeCommands.entry ++ [n.entry] := by
  have hput : (nodes.put n).items = nodes.items ++ [n] := if_neg h
  rw [hput, List.map_append, List.map_singleton]

theorem names_of_entries {nodes : NodeDict ρ κ} {opened : List (Entry ρ κ)}
    (h : nodes.items.map NodeCommands.entry = opened) :
    nodes.items.map NodeCommands.node_name = opened.map Prod.fst := by
  rw [← h, List.map_map]
  rfl

theorem leases_of_entries {nodes : NodeDict ρ κ} {opened : List (Entry ρ κ)}
    (h : nodes.items.map NodeCommands.entry = opened) :
    nodes.items.map NodeCommands.lease = opened.map Prod.snd := by
  rw [← h, List.map_map]
  rfl

/-- A connection is refused: all are given back before that is raised again. -/
theorem refused_post {nodes : NodeDict ρ κ} {opened : List (Entry ρ κ)} {is_default_node : Bool}
    (e : Exc) (h : Opened opened nodes s) :
    Post ((do
      if e.isinstance .ConnectionError then
        releaseAll (ops.routed r) nodes.items
        first ops.initializeNodes
        if is_default_node then first ops.replaceDefaultNode
      throw e : M σ ρ κ α κ).run s) (fun _ _ => False)
      (fun _ => Abandoned r (opened, if e.isinstance .ConnectionError then .refused else .raised)) := by
  by_cases he : e.isinstance .ConnectionError = true
  · simp only [he, ite_true]
    have hrel := releaseAll_leases ops r nodes.items s
    rw [leases_of_entries h.entries, h.leases] at hrel
    have habandoned : ∀ s' : σ × PipelineBook ρ κ α, s'.2.leases =
        takenThenGiven (opened.map Prod.snd) [] ++
          (r.given (opened.map Prod.snd)).map (fun x => .released x.1 x.2) →
        Abandoned r (opened, .refused) s' := by
      intro s' hs'
      refine .inr ⟨rfl, ?_⟩
      simpa [takenThenGiven] using hs'
    apply Post.bind (hrel.mono (fun _ _ h => h) fun _ s' hs' => habandoned s' hs')
    intro _ s₁ hs₁
    apply Post.bind ((keepsLeases_first ops.initializeNodes _ s₁ hs₁).mono (fun _ _ h => h)
      fun _ s' hs' => habandoned s' hs')
    intro _ s₂ hs₂
    apply Post.ite
    · intro _
      apply Post.bind ((keepsLeases_first ops.replaceDefaultNode _ s₂ hs₂).mono (fun _ _ h => h)
        fun _ s' hs' => habandoned s' hs')
      exact fun _ s₃ hs₃ => habandoned s₃ hs₃
    · exact fun _ => habandoned s₂ hs₂
  · simp only [he]
    exact .inl ⟨rfl, h.leases⟩

/-- The entry of a node that has none. -/
theorem connectNode_post {nodes : NodeDict ρ κ} {opened : List (Entry ρ κ)}
    {is_default_node : Bool} (p : Nat) (ps : List Nat) (node : ClusterNode)
    (hp : r.targets p = .ok [node]) (hd : ∃ d, r.isDefault node = .ok d)
    (hnew : node.name ∉ opened.map Prod.fst) (h : Opened opened nodes s) :
    Post ((connectNode (ops.routed r) p node nodes is_default_node).run s)
      (fun n s' => n.node_name = node.name ∧
        r.group (p :: ps) opened = r.group ps (opened ++ [n.entry]) ∧
        s'.2.leases = takenThenGiven ((opened ++ [n.entry]).map Prod.snd) [])
      (fun _ => Abandoned r (r.group (p :: ps) opened)) := by
  obtain ⟨d, hd⟩ := hd
  unfold connectNode
  cases hr : r.redis node with
  | error e =>
    have hg : r.group (p :: ps) opened = (opened, .raised) := by simp [group, hp, hd, hnew, hr]
    rw [EStateM.run_bind, show (ops.routed r).getRedisConnection node = outcome (r.redis node) from rfl,
      outcome_run, hr, hg]
    exact .inl ⟨rfl, h.leases⟩
  | ok redis =>
    rw [EStateM.run_bind, show (ops.routed r).getRedisConnection node = outcome (r.redis node) from rfl,
      outcome_run, hr]
    apply Post.bind (Q := fun c s' => s' = s ∧ r.connection p = .ok c)
    · apply Post.tryCatch (F := fun e s' => s' = s ∧ r.connection p = .error e)
      · rw [show (ops.routed r).getConnection redis p = outcome (r.connection p) from rfl, outcome_run]
        cases r.connection p with
        | ok c => exact ⟨rfl, rfl⟩
        | error e => exact ⟨rfl, rfl⟩
      · rintro e _ ⟨rfl, hc⟩
        have hg : r.group (p :: ps) opened =
            (opened, if e.isinstance .ConnectionError then .refused else .raised) := by
          simp [group, hp, hd, hnew, hr, hc]
        rw [hg]
        exact (refused_post e h).mono (fun _ _ h => h.elim) fun _ _ h => h
    · rintro c s ⟨rfl, hc⟩
      refine ⟨rfl, ?_, ?_⟩
      · simp [group, hp, hd, hnew, hr, hc, NodeCommands.entry, NodeCommands.lease]
      · change s.2.leases ++ [.obtained c redis] = _
        rw [h.leases]
        simp [takenThenGiven, NodeCommands.entry, NodeCommands.lease]

theorem groupCommands_post {nodes : NodeDict ρ κ} {opened : List (Entry ρ κ)}
    {is_default_node : Bool} (ps : List Nat) (h : Opened opened nodes s) :
    Post ((groupCommands (ops.routed r) ps nodes is_default_node).run s)
      (fun res s' => (r.group ps opened).2 = .done ∧ Opened (r.group ps opened).1 res.1 s')
      (fun _ => Abandoned r (r.group ps opened)) := by
  induction ps generalizing s nodes opened is_default_node with
  | nil => exact ⟨rfl, h⟩
  | cons p ps ih =>
    unfold groupCommands
    have hnot : (∀ node, r.targets p ≠ .ok [node]) → r.group (p :: ps) opened = (opened, .raised) := by
      intro hp
      rcases ht : r.targets p with e | _ | ⟨node, _ | _⟩
      · simp [group, ht]
      · simp [group, ht]
      · exact absurd ht (hp node)
      · simp [group, ht]
    apply Post.bind (Q := fun node s' => s' = s ∧ r.targets p = .ok [node])
    · unfold targetNode
      rw [EStateM.run_bind, show (ops.routed r).determineNodes p = outcome (r.targets p) from rfl,
        outcome_run]
      have habandoned : (∀ node, r.targets p ≠ .ok [node]) → Abandoned r (r.group (p :: ps) opened) s := by
        intro hp
        rw [hnot hp]
        exact .inl ⟨rfl, h.leases⟩
      rcases ht : r.targets p with e | _ | ⟨node, _ | _⟩
      · exact habandoned (by simp [ht])
      · exact habandoned (by simp [ht])
      · exact ⟨rfl, rfl⟩
      · exact habandoned (by simp [ht])
    rintro node s ⟨rfl, hp⟩
    apply Post.bind (Q := fun d s' => s' = s ∧ r.isDefault node = .ok d)
    · rw [show (ops.routed r).isDefaultNode node = outcome (r.isDefault node) from rfl, outcome_run]
      cases hd : r.isDefault node with
      | ok d => exact ⟨rfl, rfl⟩
      | error e =>
        have hg : r.group (p :: ps) opened = (opened, .raised) := by simp [group, hp, hd]
        rw [hg]
        exact .inl ⟨rfl, h.leases⟩
    rintro d s ⟨rfl, hd⟩
    unfold nodeCommands
    cases hget : nodes.get? node.name with
    | some n =>
      have hmem := Keyed.mem_of_get? hget
      have hname : n.node_name = node.name := Keyed.key_of_get? hget
      have hold : node.name ∈ opened.map Prod.fst := by
        rw [← names_of_entries h.entries, ← hname]
        exact List.mem_map_of_mem hmem
      have hg : r.group (p :: ps) opened = r.group ps opened := by simp [group, hp, hd, hold]
      rw [hg]
      exact ih ⟨by rw [entries_put _ hmem, h.entries], h.leases⟩
    | none =>
      have hkeys : node.name ∉ nodes.items.map NodeCommands.node_name := Keyed.get?_eq_none.mp hget
      have hnew : node.name ∉ opened.map Prod.fst := by rwa [← names_of_entries h.entries]
      apply Post.bind (connectNode_post p ps node hp ⟨d, hd⟩ hnew h)
      rintro n s' ⟨hname, hg, hleases⟩
      rw [hg]
      apply ih
      constructor
      · rw [entries_put_new, h.entries]
        · rfl
        · rwa [show ({ n with commands := n.commands ++ [p] } : NodeCommands ρ κ).node_name = node.name
            from hname]
      · exact hleases

/-- For whatever else happens, every connection that the pipeline obtains is released
once, to its own pool, just if the routing settles. -/
theorem sendClusterCommands_returned_iff (ops : Ops σ ρ κ α) (r : Routing ρ κ) (stack : List Nat)
    (raise_on_error : Bool) (w : σ) (results : Nat → PipelineResult α) :
    Returned (state ((_sendClusterCommands (ops.routed r) stack raise_on_error).run
      (w, { results := results }))).2.leases ↔ r.Settles stack := by
  have hgiven : ∀ xs, Returned (takenThenGiven xs (r.given xs)) ↔
      ∀ x ∈ xs.dropLast, ∃ u, r.release x.2 x.1 = .ok u := fun xs =>
    (returned_takenThenGiven_iff (r.given_prefix xs)).trans (r.given_eq_iff xs)
  have hpost : Post ((_sendClusterCommands (ops.routed r) stack raise_on_error).run
      (w, { results := results }))
      (fun _ s' => Returned s'.2.leases ↔ r.Settles stack)
      (fun _ s' => Returned s'.2.leases ↔ r.Settles stack) := by
    have hopened : Opened [] (∅ : NodeDict ρ κ) (w, { results := results }) := ⟨rfl, rfl⟩
    unfold _sendClusterCommands
    apply Post.bind ((groupCommands_post stack hopened).mono (fun _ _ h => h) ?_)
    · rintro ⟨nodes, is_default_node⟩ s₁ ⟨hdone, hs₁⟩
      have hleases : ∀ s' : σ × PipelineBook ρ κ α, s'.2.leases =
          takenThenGiven ((r.group stack []).1.map Prod.snd) (r.given ((r.group stack []).1.map Prod.snd)) →
          (Returned s'.2.leases ↔ r.Settles stack) := by
        intro s' hs'
        rw [hs', hgiven, Settles, hdone]
        simp
      have hexchange := exchange_leases ops r nodes.items s₁
      rw [leases_of_entries hs₁.entries, hs₁.leases] at hexchange
      have hes : takenThenGiven ((r.group stack []).1.map Prod.snd) [] ++
          (r.given ((r.group stack []).1.map Prod.snd)).map (fun x => .released x.1 x.2) =
          takenThenGiven ((r.group stack []).1.map Prod.snd)
            (r.given ((r.group stack []).1.map Prod.snd)) := by
        simp [takenThenGiven]
      rw [hes] at hexchange
      apply Post.bind (hexchange.mono (fun _ _ h => h) fun _ s' hs' => hleases s' hs')
      intro _ s₂ hs₂
      apply Post.bind ((retryCommands_keepsLeases stack is_default_node _ s₂ hs₂).mono (fun _ _ h => h)
        fun _ s' hs' => hleases s' hs')
      intro _ s₃ hs₃
      exact (respond_keepsLeases stack raise_on_error _ s₃ hs₃).mono (fun _ s' hs' => hleases s' hs')
        fun _ s' hs' => hleases s' hs'
    · rintro e s' (⟨hraised, hs'⟩ | ⟨hrefused, hs'⟩)
      · rw [hs', returned_takenThenGiven_iff List.nil_prefix, Settles, hraised,
          if_pos rfl, eq_comm, List.map_eq_nil_iff]
      · rw [hs', hgiven, Settles, hrefused]
        simp
  cases hrun : (_sendClusterCommands (ops.routed r) stack raise_on_error).run
      (w, { results := results }) <;> rw [hrun] at hpost <;> exact hpost

/-- A pipeline over nothing but the outcomes of a routing. -/
def idleOps : Ops Unit Nat Nat Unit where
  args _ := ["GET", "k"]
  determineNodes _ := return []
  isDefaultNode _ := return false
  replaceDefaultNode := return ()
  initializeNodes := return ()
  getRedisConnection _ := return 0
  getConnection _ _ := return 0
  packCommands _ := return ()
  sendPackedCommand _ _ := return ()
  parseResponse _ _ _ := return none
  release _ _ := return ()
  countRetry := return false
  executeCommand _ := return .ok none
  callback _ := none

/-- The second command has two nodes. -/
def twoTargets : Routing Nat Nat where
  targets p := .ok (if p = 0 then [⟨0, "10.0.0.1", 7000⟩] else
    [⟨0, "10.0.0.1", 7000⟩, ⟨1, "10.0.0.2", 7000⟩])
  redis _ := .ok 0
  connection := .ok

/-- The connection for the first command is never released. -/
theorem not_returned_twoTargets :
    ¬ Returned (state ((_sendClusterCommands (idleOps.routed twoTargets) [0, 1] true).run
      ((), {}))).2.leases := by
  decide +kernel

end ClusterPipeline

end RedisPy
