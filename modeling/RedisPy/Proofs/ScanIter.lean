import RedisPy.Spec.ScanIter
import Mathlib.Data.List.Perm.Basic

/-! What `scan_iter` has asked and yielded after any number of rounds. The cursors it holds
are one for each node that is not done, and a round asks exactly these nodes once more. -/

namespace RedisPy

namespace ScanIter

variable {κ α : Type} [DecidableEq κ] {answer : κ → Nat → ScanPage α} {getNode : κ → Option κ}
  {default_nodes targets : List κ}

/-- The next page of a node. -/
def nextPage (answer : κ → Nat → ScanPage α) (s : ScanTrace κ α) (name : κ) : ScanPage α :=
  answer name (count name s)

section Scan

theorem count_append (name : κ) (s : ScanTrace κ α) (asked : List (κ × Int)) (ys : List α) :
    count name { asked := s.asked ++ asked, yielded := ys } =
      count name s + (asked.filter fun p => p.1 = name).length := by
  rw [count, count, List.filter_append, List.length_append]

/-- Asking other nodes does not change the next page of a node. -/
theorem nextPage_of_notMem {asked : List (κ × Int)} {name : κ} (h : ∀ p ∈ asked, p.1 ≠ name)
    (s : ScanTrace κ α) (ys : List α) :
    nextPage answer { asked := s.asked ++ asked, yielded := ys } name = nextPage answer s name := by
  have hnil : (asked.filter fun p => p.1 = name) = [] := by
    rw [List.filter_eq_nil_iff]
    exact fun p hp he => h p hp (of_decide_eq_true he)
  rw [nextPage, count_append, hnil, List.length_nil, Nat.add_zero, nextPage]

theorem askAll_eq (cursor : Int) (nodes : List κ) (hnodup : nodes.Nodup) (s : ScanTrace κ α)
    (res : Dict κ (ScanPage α)) :
    askAll answer cursor res s nodes =
      ((nodes.map fun name => (name, nextPage answer s name)).foldl Keyed.put res,
        { s with asked := s.asked ++ nodes.map fun name => (name, cursor) }) := by
  induction nodes generalizing s res with
  | nil => simp [askAll]
  | cons name nodes ih =>
    obtain ⟨hnew, hrest⟩ := List.nodup_cons.mp hnodup
    have hsame : (nodes.map fun n => (n, nextPage answer
        { s with asked := s.asked ++ [(name, cursor)] } n)) =
        nodes.map fun n => (n, nextPage answer s n) := by
      refine List.map_congr_left fun n hn => ?_
      rw [nextPage_of_notMem]
      intro p hp he
      rw [List.mem_singleton.mp hp] at he
      have hname : name = n := he
      exact hnew (hname ▸ hn)
    rw [askAll, ih hrest, hsame]
    simp [nextPage]

theorem parseScanResult_eq (items : List (κ × ScanPage α)) (cursors : Dict κ Int) (ret : List α) :
    parseScanResult cursors ret items =
      ((items.map fun p => (p.1, p.2.cursor)).foldl Keyed.put cursors,
        ret ++ items.flatMap fun p => p.2.data) := by
  induction items generalizing cursors ret with
  | nil => simp [parseScanResult]
  | cons p items ih =>
    obtain ⟨node_name, response⟩ := p
    rw [parseScanResult, ih]
    simp

variable (answer) in
/-- A `scan` takes the next page of each of its nodes. -/
theorem scan_eq (cursor : Int) {nodes : List κ} (hnodup : nodes.Nodup) (s : ScanTrace κ α) :
    ∃ d : Dict κ Int, d.items = (nodes.map fun name => (name, (nextPage answer s name).cursor)) ∧
      scan answer cursor nodes s =
        ((d, nodes.flatMap fun name => (nextPage answer s name).data),
          { s with asked := s.asked ++ nodes.map fun name => (name, cursor) }) := by
  have hkeys {β : Type} (f : κ → β) :
      ((nodes.map fun name => (name, f name)).foldl Keyed.put (∅ : Dict κ β)).items =
        nodes.map fun name => (name, f name) := by
    refine Keyed.items_foldl_put_of_nodup ?_
    change ((nodes.map fun name => (name, f name)).map Prod.fst).Nodup
    rw [List.map_map]
    simpa [Function.comp_def] using hnodup
  refine ⟨(nodes.map fun name => (name, (nextPage answer s name).cursor)).foldl Keyed.put ∅,
    hkeys _, ?_⟩
  simp only [scan, askAll_eq cursor nodes hnodup, parseScanResult_eq, hkeys, List.map_map,
    List.flatMap_map, List.nil_append, Function.comp_def]

end Scan

section Rounds

/-- One pass of the `for` loop asks each of its nodes once, with the cursor it holds. -/
theorem forLoop_eq {items : List (κ × Int)} (hnodup : (items.map Prod.fst).Nodup)
    (hknown : ∀ p ∈ items, getNode p.1 = some p.1) (s : ScanTrace κ α) :
    forLoop answer getNode default_nodes s items =
      .ok (items.map fun p => (p.1, (nextPage answer s p.1).cursor),
        { asked := s.asked ++ items
          yielded := s.yielded ++ items.flatMap fun p => (nextPage answer s p.1).data }) := by
  induction items generalizing s with
  | nil => simp [forLoop]
  | cons p items ih =>
    obtain ⟨name, cursor⟩ := p
    obtain ⟨hnew, hrest⟩ := List.nodup_cons.mp hnodup
    obtain ⟨d, hd, hscan⟩ := scan_eq answer cursor (List.nodup_singleton name) s
    have hget : d.get? name = some (name, (nextPage answer s name).cursor) :=
      Keyed.get?_of_mem (a := (name, (nextPage answer s name).cursor)) (by simp [hd])
    have hsame (ys : List α) : ∀ q ∈ items,
        nextPage answer { asked := s.asked ++ [(name, cursor)], yielded := ys } q.1 =
          nextPage answer s q.1 := by
      intro q hq
      refine nextPage_of_notMem ?_ s ys
      intro r hr he
      rw [List.mem_singleton.mp hr] at he
      exact hnew (List.mem_map.mpr ⟨q, hq, he.symm⟩)
    rw [List.map_singleton, List.flatMap_singleton] at hscan
    rw [forLoop, hknown (name, cursor) (by simp)]
    simp only [hscan, hget]
    rw [yieldFrom, ih hrest fun q hq => hknown q (by simp [hq])]
    have hnext := List.map_congr_left fun q hq => congrArg (fun page => (q.1, page.cursor))
      (hsame (s.yielded ++ (nextPage answer s name).data) q hq)
    have hdata := List.flatMap_congr fun q hq => congrArg ScanPage.data
      (hsame (s.yielded ++ (nextPage answer s name).data) q hq)
    simp only [bind, Except.bind, pure, Except.pure, hnext, hdata]
    simp

/-- The cursors held before round `r`: one for each node that is not done. -/
def active (answer : κ → Nat → ScanPage α) (targets : List κ) (r : Nat) : List (κ × Int) :=
  (targets.filter fun name => Asks answer name r).map fun name => (name, cursorDue answer name r)

/-- What has been asked and yielded in the first `n` rounds. -/
def taken (answer : κ → Nat → ScanPage α) (targets : List κ) (n : Nat) : ScanTrace κ α where
  asked := (List.range n).flatMap (active answer targets)
  yielded := (List.range n).flatMap fun r =>
    (targets.filter fun name => Asks answer name r).flatMap fun name => (answer name r).data

omit [DecidableEq κ] in
theorem asks_succ_iff {name : κ} {r : Nat} :
    Asks answer name (r + 1) ↔ Asks answer name r ∧ (answer name r).cursor ≠ 0 := by
  constructor
  · intro h
    exact ⟨fun j hj => h j (Nat.lt_succ_of_lt hj), h r (Nat.lt_succ_self r)⟩
  · rintro ⟨h, hr⟩ j hj
    rcases Nat.lt_succ_iff_lt_or_eq.mp hj with hj | rfl
    · exact h j hj
    · exact hr

/-- A node gets at most one request in a round. -/
theorem filter_active (hnodup : targets.Nodup) {name : κ} (hname : name ∈ targets) (r : Nat) :
    ((active answer targets r).filter fun p => p.1 = name) =
      if Asks answer name r then [(name, cursorDue answer name r)] else [] := by
  have hone : (targets.filter fun n => n = name) = [name] := by
    rw [List.filter_eq, List.count_eq_one_of_mem hnodup hname]
    rfl
  have hswap : ((active answer targets r).filter fun p => p.1 = name) =
      ((targets.filter fun n => n = name).filter fun n => Asks answer n r).map
        fun n => (n, cursorDue answer n r) := by
    rw [active, List.filter_map, List.filter_filter, List.filter_filter]
    refine congrArg _ (List.filter_congr fun n _ => ?_)
    exact Bool.and_comm _ _
  rw [hswap, hone]
  by_cases h : Asks answer name r <;> simp [h]

/-- The requests a node has had are those due to it. -/
theorem filter_taken (hnodup : targets.Nodup) {name : κ} (hname : name ∈ targets) (n : Nat) :
    ((taken answer targets n).asked.filter fun p => p.1 = name) =
      (due answer name n).map fun i => (name, cursorDue answer name i) := by
  induction n with
  | zero => rfl
  | succ n ih =>
    rw [taken] at ih ⊢
    rw [List.range_succ, List.flatMap_append, List.filter_append, ih, List.flatMap_singleton,
      filter_active hnodup hname, due, due, List.range_succ, List.filter_append, List.map_append]
    by_cases h : Asks answer name n <;> simp [h]

theorem count_taken (hnodup : targets.Nodup) {name : κ} (hname : name ∈ targets) {n : Nat}
    (h : Asks answer name n) : count name (taken answer targets n) = n := by
  have hall : due answer name n = List.range n := by
    refine List.filter_eq_self.mpr fun i hi => decide_eq_true fun j hj => ?_
    have hin := List.mem_range.mp hi
    exact h j (by omega)
  rw [count, filter_taken hnodup hname, List.length_map, hall, List.length_range]

theorem nextPage_taken (hnodup : targets.Nodup) {name : κ} (hname : name ∈ targets) {n : Nat}
    (h : Asks answer name n) : nextPage answer (taken answer targets n) name = answer name n := by
  rw [nextPage, count_taken hnodup hname h]

omit [DecidableEq κ] in
theorem taken_succ (n : Nat) : taken answer targets (n + 1) =
    { asked := (taken answer targets n).asked ++ active answer targets n
      yielded := (taken answer targets n).yielded ++
        (targets.filter fun name => Asks answer name n).flatMap fun name => (answer name n).data } := by
  simp [taken, List.range_succ]

omit [DecidableEq κ] in
/-- The cursors that are not 0 after a round are those held before the next. -/
theorem unfinished_eq (n : Nat) :
    unfinished ((targets.filter fun name => Asks answer name n).map
      fun name => (name, (answer name n).cursor)) = active answer targets (n + 1) := by
  rw [unfinished, active, List.filter_map, List.filter_filter]
  refine congrArg _ (List.filter_congr fun name _ => ?_)
  simp [asks_succ_iff, and_comm]

/-- A round of the `while` loop. -/
theorem forLoop_active (hnodup : targets.Nodup) (hknown : ∀ name ∈ targets, getNode name = some name)
    (n : Nat) :
    forLoop answer getNode default_nodes (taken answer targets n) (active answer targets n) =
      .ok ((targets.filter fun name => Asks answer name n).map
        fun name => (name, (answer name n).cursor), taken answer targets (n + 1)) := by
  have hmem {name : κ} (h : name ∈ targets.filter fun name => Asks answer name n) :
      name ∈ targets ∧ Asks answer name n := by simpa using h
  have hpage : ∀ name ∈ targets.filter fun name => Asks answer name n,
      nextPage answer (taken answer targets n) name = answer name n :=
    fun name h => nextPage_taken hnodup (hmem h).1 (hmem h).2
  rw [forLoop_eq]
  · have hnext := List.map_congr_left fun name h =>
      congrArg (fun page : ScanPage α => (name, page.cursor)) (hpage name h)
    have hdata := List.flatMap_congr fun name h => congrArg ScanPage.data (hpage name h)
    rw [taken_succ, active, List.map_map, List.flatMap_map, ← hnext, ← hdata]
    rfl
  · rw [active, List.map_map]
    simpa [Function.comp_def] using hnodup.filter _
  · intro p hp
    obtain ⟨name, h, rfl⟩ := List.mem_map.mp hp
    exact hknown name (hmem h).1

omit [DecidableEq κ] in
/-- With no cursor left a further round would ask nothing. -/
theorem active_succ_of_nil {n : Nat} (h : active answer targets n = []) :
    active answer targets (n + 1) = [] ∧ taken answer targets (n + 1) = taken answer targets n := by
  have hnone : (targets.filter fun name => Asks answer name n) = [] := List.map_eq_nil_iff.mp h
  constructor
  · rw [← unfinished_eq, hnone]
    rfl
  · rw [taken_succ, h, hnone]
    simp

/-- A run of the loop. -/
theorem whileLoop_eq (hnodup : targets.Nodup) (hknown : ∀ name ∈ targets, getNode name = some name)
    (n rounds : Nat) :
    whileLoop answer getNode default_nodes (active answer targets n) (taken answer targets n) rounds =
      .ok (active answer targets (n + rounds), taken answer targets (n + rounds)) := by
  induction rounds generalizing n with
  | zero => rfl
  | succ rounds ih =>
    have hnext := ih (n + 1)
    rw [Nat.add_right_comm] at hnext
    by_cases hnil : active answer targets n = []
    · obtain ⟨hactive, htaken⟩ := active_succ_of_nil hnil
      rw [hactive, htaken] at hnext
      rw [whileLoop, hnil, List.isEmpty_nil, if_pos rfl, ← Nat.add_assoc, ← hnext]
      cases rounds <;> rfl
    · rw [whileLoop, if_neg (by simpa using hnil), forLoop_active hnodup hknown]
      change whileLoop _ _ _ (unfinished _) _ _ = _
      rw [unfinished_eq, hnext, ← Nat.add_assoc]

theorem scanIter_eq (hnodup : targets.Nodup) (hknown : ∀ name ∈ targets, getNode name = some name)
    (rounds : Nat) :
    scanIter answer getNode default_nodes targets rounds =
      .ok (active answer targets (rounds + 1), taken answer targets (rounds + 1)) := by
  obtain ⟨d, hd, hscan⟩ := scan_eq answer 0 hnodup {}
  have hall : (targets.filter fun name => Asks answer name 0) = targets := by
    refine List.filter_eq_self.mpr fun name _ => decide_eq_true ?_
    exact fun j hj => absurd hj (Nat.not_lt_zero j)
  have hstart : unfinished d.items = active answer targets 1 := by
    rw [hd, ← unfinished_eq, hall]
    rfl
  have htaken : yieldFrom (targets.flatMap fun name => (nextPage answer {} name).data)
      { asked := [] ++ targets.map fun name => (name, (0 : Int)) } = taken answer targets 1 := by
    rw [taken_succ, active, hall]
    rfl
  rw [scanIter, hscan]
  simp only [hstart, htaken]
  rw [whileLoop_eq hnodup hknown, Nat.add_comm]

end Rounds

omit [DecidableEq κ] in
/-- The keys, node by node. -/
theorem perm_yielded (n : Nat) :
    (taken answer targets n).yielded.Perm
      (targets.flatMap fun name => (due answer name n).flatMap fun i => (answer name i).data) := by
  induction n with
  | zero =>
    simp [taken, due]
  | succ n ih =>
    rw [taken_succ]
    refine (ih.append_right _).trans ?_
    have hlast : ((targets.filter fun name => Asks answer name n).flatMap
          fun name => (answer name n).data) =
        targets.flatMap fun name => if Asks answer name n then (answer name n).data else [] := by
      clear ih
      induction targets with
      | nil => rfl
      | cons name targets ih =>
        by_cases h : Asks answer name n <;> simp [h, ih]
    rw [hlast]
    refine (List.flatMap_append_perm targets _ _).trans (List.Perm.of_eq ?_)
    refine List.flatMap_congr fun name _ => ?_
    rw [due, due, List.range_succ, List.filter_append, List.flatMap_append]
    by_cases h : Asks answer name n <;> simp [h]

omit [DecidableEq κ] in
/-- No cursor is left exactly when every node has returned 0. -/
theorem active_eq_nil_iff {n : Nat} : active answer targets (n + 1) = [] ↔
    ∀ name ∈ targets, ∃ i ≤ n, (answer name i).cursor = 0 := by
  rw [active, List.map_eq_nil_iff, List.filter_eq_nil_iff]
  refine forall₂_congr fun name _ => ?_
  simp [Asks, Nat.lt_succ_iff]

omit [DecidableEq κ] in
theorem exists_bound (h : ∀ name ∈ targets, ∃ i, (answer name i).cursor = 0) :
    ∃ n, ∀ name ∈ targets, ∃ i ≤ n, (answer name i).cursor = 0 := by
  induction targets with
  | nil => exact ⟨0, by simp⟩
  | cons name targets ih =>
    obtain ⟨i, hi⟩ := h name (by simp)
    obtain ⟨n, hn⟩ := ih fun m hm => h m (by simp [hm])
    refine ⟨max i n, ?_⟩
    intro m hm
    rcases List.mem_cons.mp hm with rfl | hm
    · exact ⟨i, Nat.le_max_left i n, hi⟩
    · obtain ⟨j, hj, hzero⟩ := hn m hm
      exact ⟨j, Nat.le_trans hj (Nat.le_max_right i n), hzero⟩

/-- `scan_iter` asks every node along its own cursors until one is 0, yields the keys of all
the pages, and stops when every cursor is 0. -/
theorem scan_iter_union (hnodup : targets.Nodup)
    (hknown : ∀ name ∈ targets, getNode name = some name) :
    (∀ rounds, ∃ cursors s,
      scanIter answer getNode default_nodes targets rounds = .ok (cursors, s) ∧
      (∀ name ∈ targets, ((s.asked.filter fun p => p.1 = name).map Prod.snd) =
        (due answer name (rounds + 1)).map (cursorDue answer name)) ∧
      (∀ p ∈ s.asked, p.1 ∈ targets) ∧
      s.yielded.Perm (targets.flatMap fun name =>
        (due answer name (rounds + 1)).flatMap fun i => (answer name i).data) ∧
      (cursors = [] ↔ ∀ name ∈ targets, ∃ i ≤ rounds, (answer name i).cursor = 0)) ∧
    ((∀ name ∈ targets, ∃ i, (answer name i).cursor = 0) →
      ∃ rounds s, scanIter answer getNode default_nodes targets rounds = .ok ([], s)) := by
  constructor
  · intro rounds
    refine ⟨_, _, scanIter_eq hnodup hknown rounds, ?_, ?_, perm_yielded _, active_eq_nil_iff⟩
    · intro name hname
      rw [filter_taken hnodup hname, List.map_map]
      rfl
    · intro p hp
      obtain ⟨r, -, hp⟩ := List.mem_flatMap.mp hp
      obtain ⟨name, hname, rfl⟩ := List.mem_map.mp hp
      exact (List.mem_filter.mp hname).1
  · intro hzero
    obtain ⟨rounds, hrounds⟩ : ∃ rounds, ∀ name ∈ targets, ∃ i ≤ rounds, (answer name i).cursor = 0 := exists_bound hzero
    refine ⟨rounds, taken answer targets (rounds + 1), ?_⟩
    rw [scanIter_eq hnodup hknown, active_eq_nil_iff.mpr hrounds]

/-- A node with two pages, and one that is done with its first. -/
theorem scan_iter_union_two :
    let answer : Nat → Nat → ScanPage Nat := fun name i =>
      if name = 0 ∧ i = 0 then ⟨17, [1, 2]⟩ else ⟨0, [3]⟩
    [0, 1].Nodup ∧ (∀ name ∈ [0, 1], some name = some name) ∧
      ∃ rounds s, scanIter answer some [] [0, 1] rounds = .ok ([], s) := by
  intro answer
  have hnodup : [0, 1].Nodup := by decide
  have hknown : ∀ name ∈ [0, 1], some name = some name := fun _ _ => rfl
  refine ⟨hnodup, hknown, (scan_iter_union hnodup hknown).2 ?_⟩
  intro name hname
  exact ⟨1, by simp [answer]⟩

end ScanIter

end RedisPy
