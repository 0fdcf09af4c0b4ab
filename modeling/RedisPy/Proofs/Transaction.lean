import Mathlib
import RedisPy.Library.Fallible
import RedisPy.Spec.Transaction

/-! The results of a transaction stand in the places of their commands. Inserting what is not in
the reply to `EXEC` at the places noted, the first place first, restores the order of the stack. -/

namespace RedisPy

namespace Transaction

open Raising Fallible

variable (callbacks : ResponseCallbacks)

/-- What is noted for the commands from the `i`-th one. -/
def noted : Nat → List (StackedCommand × QueuedAs) → List (Nat × PyVal)
  | _, [] => []
  | i, (command, queued) :: stack =>
    let rest := noted (i + 1) stack
    match command.empty, queued with
    | some v, _ => (i, v) :: rest
    | none, .rejected e _ => (i, .exc (annotateException e (i + 1) command)) :: rest
    | none, .accepted _ _ => rest

/-- The places before the one that an error is noted for are filled already. -/
theorem insertErrors_noted (stack : List (StackedCommand × QueuedAs)) (done : List PyVal) :
    insertErrors (done ++ execItems stack) (noted done.length stack) =
      done ++ entries done.length stack := by
  induction stack generalizing done with
  | nil => rfl
  | cons p stack ih =>
    obtain ⟨command, queued⟩ := p
    have hnext : ∀ v, insertErrors (done ++ v :: execItems stack) (noted (done.length + 1) stack) =
        done ++ v :: entries (done.length + 1) stack := by
      intro v
      have := ih (done ++ [v])
      simpa using this
    have hinsert : ∀ v, insertAt (done ++ execItems stack) done.length v = done ++ v :: execItems stack := by
      intro v
      simp [insertAt]
    cases he : command.empty with
    | some v =>
      simp only [noted, he, entries, execItems, List.filterMap_cons]
      rw [← execItems, insertErrors, List.foldl_cons, hinsert, ← insertErrors, hnext]
      cases queued <;> simp [entry, he]
    | none =>
      cases queued with
      | rejected e h =>
        simp only [noted, he, entries, execItems, List.filterMap_cons]
        rw [← execItems, insertErrors, List.foldl_cons, hinsert, ← insertErrors, hnext]
        simp [entry, he]
      | accepted q item =>
        simp only [noted, he, entries, execItems, List.filterMap_cons]
        rw [← execItems, hnext]
        simp [entry, he]

/-- One command takes the reply to it, if it was sent. -/
theorem run_noteReply (command : StackedCommand) (queued : QueuedAs) (i : Nat) (s : TransactionState)
    (rest : List TransactionReply) :
    ∃ found, (noteReply i command).run
        { s with unread := queueReplies [(command, queued)] ++ rest } =
          .ok found { s with unread := rest } ∧
      ∀ stack, noted i ((command, queued) :: stack) = found ++ noted (i + 1) stack := by
  cases he : command.empty with
  | some v =>
    refine ⟨[(i, v)], ?_, fun stack => ?_⟩
    · rw [noteReply, he]
      simp [queueReplies, he]
    · simp [noted, he]
  | none =>
    cases queued with
    | rejected e h =>
      refine ⟨[(i, .exc (annotateException e (i + 1) command))], ?_, fun stack => ?_⟩
      · have hreplies : queueReplies [(command, .rejected e h)] = [.error e] := by
          simp [queueReplies, he]
        have hread : EStateM.run (do let _ ← parseResponse; return [] : M (List (Nat × PyVal)))
            { s with unread := [.error e] ++ rest } = .error e { s with unread := rest } := rfl
        rw [noteReply, he, hreplies, run_tryCatch, hread]
        simp [h]
      · simp [noted, he]
    | accepted q item =>
      refine ⟨[], ?_, fun stack => ?_⟩
      · have hreplies : queueReplies [(command, .accepted q item)] = [.value q] := by
          simp [queueReplies, he]
        have hread : EStateM.run (do let _ ← parseResponse; return [] : M (List (Nat × PyVal)))
            { s with unread := [.value q] ++ rest } = .ok [] { s with unread := rest } := rfl
        rw [noteReply, he, hreplies, run_tryCatch, hread]
      · simp [noted, he]

theorem queueReplies_cons (p : StackedCommand × QueuedAs) (stack : List (StackedCommand × QueuedAs)) :
    queueReplies (p :: stack) = queueReplies [p] ++ queueReplies stack :=
  List.filterMap_append (l := [p])

/-- Each reply to a command that was sent is read, and no other. -/
theorem run_readQueued (stack : List (StackedCommand × QueuedAs)) (i : Nat)
    (errors : List (Nat × PyVal)) (s : TransactionState) (rest : List TransactionReply) :
    (readQueued i (stack.map Prod.fst) errors).run { s with unread := queueReplies stack ++ rest } =
      .ok (errors ++ noted i stack) { s with unread := rest } := by
  induction stack generalizing i errors with
  | nil => simp [readQueued, queueReplies, noted]
  | cons p stack ih =>
    obtain ⟨command, queued⟩ := p
    obtain ⟨found, hrun, hnoted⟩ := run_noteReply command queued i s (queueReplies stack ++ rest)
    rw [List.map_cons, readQueued, EStateM.run_bind, queueReplies_cons, List.append_assoc, hrun,
      hnoted, ← List.append_assoc]
    exact ih (i + 1) (errors ++ found)

theorem length_entries (i : Nat) (stack : List (StackedCommand × QueuedAs)) :
    (entries i stack).length = stack.length := by
  induction stack generalizing i with
  | nil => rfl
  | cons p stack ih => rw [entries, List.length_cons, List.length_cons, ih]

theorem run_raiseFirstError (i : Nat) (commands : List StackedCommand) (response : List PyVal)
    (s : TransactionState) :
    (raiseFirstError i commands response).run s =
      (raises ((firstError i commands response).elim (.ok ()) .error)).run s := by
  induction commands generalizing i response with
  | nil => cases response <;> rfl
  | cons command commands ih =>
    cases response with
    | nil => rfl
    | cons r response =>
      cases r with
      | exc e =>
        rw [raiseFirstError, firstError]
        split
        · rfl
        · exact ih (i + 1) response
      | _ => exact ih (i + 1) response

/-- What the call comes to once its replies have been read. -/
def outcome (stack : List (StackedCommand × QueuedAs)) (raise_on_error : Bool) :
    Except Exc (List PyVal) :=
  match if raise_on_error then firstError 0 (stack.map Prod.fst) (entries 0 stack) else none with
  | some e => .error e
  | none => runCallbacks callbacks (stack.map Prod.fst) (entries 0 stack)

theorem run_readMulti (multi : PyVal) (s : TransactionState) (rest : List TransactionReply) :
    readMulti.run { s with unread := .value multi :: rest } = .ok [] { s with unread := rest } := rfl

theorem run_readExec (v : PyVal) (errors : List (Nat × PyVal)) (s : TransactionState)
    (rest : List TransactionReply) :
    (readExec errors).run { s with unread := .value v :: rest } = .ok v { s with unread := rest } := rfl

/-- What is left to do with the results when all replies have been read. -/
theorem run_results (stack : List (StackedCommand × QueuedAs)) (raise_on_error : Bool)
    (s : TransactionState) :
    EStateM.run (do
      if raise_on_error then raiseFirstError 0 (stack.map Prod.fst) (entries 0 stack)
      raises (runCallbacks callbacks (stack.map Prod.fst) (entries 0 stack)) : M (List PyVal)) s =
        (raises (outcome callbacks stack raise_on_error)).run s := by
  unfold outcome
  cases raise_on_error with
  | false => rfl
  | true =>
    simp only [if_true]
    rw [EStateM.run_bind, run_raiseFirstError]
    cases firstError 0 (stack.map Prod.fst) (entries 0 stack) with
    | none => rfl
    | some e => rfl

/-- The replies to the whole transaction are read, and none after them. -/
theorem run_executeTransaction (multi : PyVal) (stack : List (StackedCommand × QueuedAs))
    (raise_on_error : Bool) (s : TransactionState) (rest : List TransactionReply) :
    ∃ s', (executeTransaction callbacks (stack.map Prod.fst) raise_on_error).run
        { s with unread := transactionReplies multi stack ++ rest } =
          (raises (outcome callbacks stack raise_on_error)).run s' ∧
      s'.unread = rest := by
  have hinsert : insertErrors (execItems stack) (noted 0 stack) = entries 0 stack :=
    insertErrors_noted stack []
  have hreplies : transactionReplies multi stack ++ rest =
      .value multi :: (queueReplies stack ++ (.value (.list (execItems stack)) :: rest)) := by
    simp [transactionReplies]
  have hlength : ¬ (entries 0 stack).length ≠ (stack.map Prod.fst).length := by
    simp [length_entries]
  rw [hreplies]
  let s₁ : TransactionState := { s with sent := s.sent ++ (("MULTI", []) ::
    ((stack.map Prod.fst).filter fun command => command.empty.isNone).map (fun c => (c.name, c.args))) ++
      [("EXEC", [])] }
  refine ⟨{ s₁ with unread := rest, watching := false }, ?_, rfl⟩
  rw [← run_results]
  have hqueued := run_readQueued stack 0 [] s₁ (.value (.list (execItems stack)) :: rest)
  rw [List.nil_append] at hqueued
  rw [executeTransaction, EStateM.run_bind, EStateM.run_modify]
  change EStateM.run (readMulti >>= _) { s₁ with unread := _ } = _
  rw [EStateM.run_bind, run_readMulti]
  change EStateM.run (readQueued _ _ _ >>= _) _ = _
  rw [EStateM.run_bind, hqueued]
  change EStateM.run (readExec _ >>= _) _ = _
  rw [EStateM.run_bind, run_readExec]
  change EStateM.run (if (insertErrors (execItems stack) (noted 0 stack)).length ≠ _ then _ else _) _ = _
  rw [hinsert, if_neg hlength]

/-- The callbacks leave each `EMPTY_RESPONSE` as it is. -/
def KeepsEmpty (stack : List (StackedCommand × QueuedAs)) : Prop :=
  ∀ p ∈ stack, ∀ v, p.1.empty = some v → runCallback callbacks p.1 v = .ok v

theorem entry_of_empty {command : StackedCommand} {v : PyVal} (h : command.empty = some v) (i : Nat)
    (queued : QueuedAs) : entry i command queued = v := by
  cases queued <;> simp [entry, h]

/-- If all replies can be decoded, the results are those that are due exactly if no
`EMPTY_RESPONSE` is changed. -/
theorem runCallbacks_eq_iff {stack : List (StackedCommand × QueuedAs)} {i : Nat} {data : List PyVal}
    (h : dueResults callbacks i stack = .ok data) :
    runCallbacks callbacks (stack.map Prod.fst) (entries i stack) = .ok data ↔
      KeepsEmpty callbacks stack := by
  induction stack generalizing i data with
  | nil =>
    cases h
    exact iff_of_true rfl (by simp [KeepsEmpty])
  | cons p stack ih =>
    obtain ⟨command, queued⟩ := p
    rw [dueResults] at h
    obtain ⟨r, hr, h⟩ := bind_ok h
    obtain ⟨data, hdata, h⟩ := bind_ok h
    cases h
    have hrest := ih hdata
    have hkeeps : KeepsEmpty callbacks ((command, queued) :: stack) ↔
        (∀ v, command.empty = some v → runCallback callbacks command v = .ok v) ∧
          KeepsEmpty callbacks stack := List.forall_mem_cons
    rw [hkeeps, ← hrest, List.map_cons, entries, runCallbacks]
    cases he : command.empty with
    | some v =>
      rw [dueResult, he] at hr
      rw [entry_of_empty he] at hr ⊢
      have hv : v = r := Except.ok.inj hr
      subst hv
      constructor
      · intro hrun
        obtain ⟨r', hr', hrun⟩ := bind_ok hrun
        obtain ⟨data', hdata', hrun⟩ := bind_ok hrun
        cases hrun
        exact ⟨fun w hw => Option.some.inj hw ▸ hr', hdata'⟩
      · rintro ⟨hv, hdata'⟩
        rw [hv v rfl, hdata']
        rfl
    | none =>
      rw [dueResult, he] at hr
      have hr : runCallback callbacks command (entry i command queued) = .ok r := hr
      rw [hr]
      constructor
      · intro hrun
        obtain ⟨r', hr', hrun⟩ := bind_ok hrun
        cases hr'
        obtain ⟨data', hdata', hrun⟩ := bind_ok hrun
        cases hrun
        exact ⟨fun w hw => (by cases hw), hdata'⟩
      · rintro ⟨-, hdata'⟩
        change (runCallbacks callbacks (stack.map Prod.fst) (entries (i + 1) stack) >>= _) = _
        rw [hdata']
        rfl

/-- The call has read the replies to the transaction, and raises the first error or returns the
results that are due, each in the place of its command. -/
structure Aligned (stack : List (StackedCommand × QueuedAs)) (raise_on_error : Bool)
    (rest : List TransactionReply) (r : EStateM.Result Exc TransactionState (List PyVal)) : Prop where
  consumed : (state r).unread = rest
  raised : ∀ e, raise_on_error = true →
    firstError 0 (stack.map Prod.fst) (entries 0 stack) = some e → ∃ s, r = .error e s
  returned : (raise_on_error = true → firstError 0 (stack.map Prod.fst) (entries 0 stack) = none) →
    ∀ data, dueResults callbacks 0 stack = .ok data → ∃ s, r = .ok data s

/-- A transaction that the server does not abort is aligned exactly if an error is raised, or a
reply cannot be decoded, or no callback changes an `EMPTY_RESPONSE`. -/
theorem executeTransaction_aligned_iff (multi : PyVal) (stack : List (StackedCommand × QueuedAs))
    (raise_on_error : Bool) (s : TransactionState) (rest : List TransactionReply) :
    Aligned callbacks stack raise_on_error rest
        ((executeTransaction callbacks (stack.map Prod.fst) raise_on_error).run
          { s with unread := transactionReplies multi stack ++ rest }) ↔
      (raise_on_error = true ∧ firstError 0 (stack.map Prod.fst) (entries 0 stack) ≠ none) ∨
      (∀ data, dueResults callbacks 0 stack ≠ .ok data) ∨ KeepsEmpty callbacks stack := by
  obtain ⟨s', hrun, hrest⟩ := run_executeTransaction callbacks multi stack raise_on_error s rest
  rw [hrun]
  have hconsumed : (state ((raises (outcome callbacks stack raise_on_error)).run s')).unread = rest := by
    rw [← hrest]
    cases outcome callbacks stack raise_on_error <;> rfl
  by_cases hfirst : raise_on_error = true ∧ firstError 0 (stack.map Prod.fst) (entries 0 stack) ≠ none
  · refine iff_of_true ⟨hconsumed, fun e _ he => ⟨s', ?_⟩, fun hno => absurd (hno hfirst.1) hfirst.2⟩
      (.inl hfirst)
    rw [outcome, if_pos hfirst.1, he]
    rfl
  · have hnone : (if raise_on_error then firstError 0 (stack.map Prod.fst) (entries 0 stack) else none) =
        none := by
      split
      · rename_i hr
        exact not_not.mp fun hne => hfirst ⟨hr, hne⟩
      · rfl
    have houtcome : outcome callbacks stack raise_on_error =
        runCallbacks callbacks (stack.map Prod.fst) (entries 0 stack) := by
      rw [outcome, hnone]
    rw [houtcome] at hconsumed ⊢
    rw [or_iff_right hfirst]
    constructor
    · rintro ⟨-, -, hreturned⟩
      have hreturned := hreturned fun hr => not_not.mp fun hne => hfirst ⟨hr, hne⟩
      by_cases hdue : ∃ data, dueResults callbacks 0 stack = .ok data
      · obtain ⟨data, hdata⟩ := hdue
        right
        rw [← runCallbacks_eq_iff callbacks hdata]
        obtain ⟨s'', hr⟩ := hreturned data hdata
        cases hc : runCallbacks callbacks (stack.map Prod.fst) (entries 0 stack) with
        | error e =>
          rw [hc] at hr
          cases hr
        | ok data' =>
          rw [hc] at hr
          cases hr
          rfl
      · left
        exact fun data hdata => hdue ⟨data, hdata⟩
    · intro h
      refine ⟨hconsumed, fun e hr he => absurd ⟨hr, by simp [he]⟩ hfirst, fun _ data hdata => ?_⟩
      cases h with
      | inl h => exact absurd hdata (h data)
      | inr h =>
        rw [(runCallbacks_eq_iff callbacks hdata).mpr h]
        exact ⟨s', rfl⟩

/-- A callback for `MGET` that takes no options, and `mget([])` in a transaction. -/
theorem decoded_empty_response :
    let callbacks : ResponseCallbacks := fun name =>
      if name = "MGET" then
        some fun r options => if options.isEmpty then .ok r else .error { cls := .TypeError }
      else none
    let mget : StackedCommand :=
      { name := "MGET", options := [("EMPTY_RESPONSE", .list []), ("keys", .list [])] }
    let stack := [(mget, QueuedAs.accepted .none .none)]
    let s : TransactionState := { unread := transactionReplies .none stack ++ [] }
    ¬ Aligned callbacks stack true [] ((executeTransaction callbacks (stack.map Prod.fst) true).run s) := by
  intro callbacks mget stack s h
  obtain ⟨s', hs⟩ := h.returned (fun _ => rfl) [.list []] rfl
  cases hs

end Transaction

end RedisPy
