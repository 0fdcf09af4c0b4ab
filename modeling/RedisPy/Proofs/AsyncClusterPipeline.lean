import Mathlib.Data.List.Flatten
import RedisPy.Library.Course
import RedisPy.Spec.AsyncClusterPipeline

/-! Whether the asyncio pipeline sends a command again that has its result already, and whether
that result stays. -/

namespace RedisPy

namespace AsyncClusterPipeline

open Raising Course

variable {n p : Nat} {r x : Result}

/-! ### What is done for a command -/

/-- The result is a reply that is no exception. -/
def answered : Result → Bool
  | some (.ok v) => !v.isException
  | _ => false

/-- The result that the deed gives the command. -/
def Deed.resultOf (p : Nat) : Deed → Option Result
  | .sent _ => none
  | .got q r => if q = p then some (some r) else none

/-- The results that a command has had, one after the other. -/
def history (p : Nat) (r : Result) (deeds : List Deed) : List Result :=
  r :: deeds.filterMap (Deed.resultOf p)

/-- A reply that is no exception stays. -/
def Settled (l : List Result) : Prop := l.Pairwise fun r r' => answered r = true → r' = r

/-- With these deeds, a command with this result is not sent again if that is a reply, and no reply
to it is followed by another result. -/
def Harmless (p : Nat) (r : Result) (deeds : List Deed) : Prop :=
  (answered r = true → .sent p ∉ deeds) ∧ Settled (history p r deeds)

theorem Harmless.sublist {ds ds' : List Deed} (h : Harmless p r ds) (hsub : ds'.Sublist ds) :
    Harmless p r ds' :=
  ⟨fun hr hin => h.1 hr (hsub.subset hin), h.2.sublist ((hsub.filterMap _).cons_cons r)⟩

theorem Settled.last {l : List Result} (h : Settled l) (hlast : l.getLast? = some x) (hr : r ∈ l)
    (hanswered : answered r = true) : x = r := by
  obtain ⟨l', rfl⟩ := List.getLast?_eq_some_iff.mp hlast
  rcases List.mem_append.mp hr with hr | hr
  · exact (List.pairwise_append.mp h).2.2 r hr x (List.mem_singleton_self x) hanswered
  · exact (List.mem_singleton.mp hr).symm

theorem Settled.append {l : List Result} (h : Settled l) (hlast : l.getLast? = some r)
    (hnew : answered r = true → x = r) : Settled (l ++ [x]) := by
  refine List.pairwise_append.mpr ⟨h, List.pairwise_singleton _ _, ?_⟩
  intro r' hr' x' hx' hanswered
  obtain rfl := List.mem_singleton.mp hx'
  obtain rfl := h.last hlast hr' hanswered
  exact hnew hanswered

/-! ### What the book says of a command -/

/-- What the tasks that are left do in the rest of the attempt. -/
def Book.toCome (b : Book) : List Deed := (resumeAll b.left b.meanwhile.flatten).2

/-- The command's result is the last one it has got. -/
def Tracks (p : Nat) (r : Result) (b : Book) : Prop :=
  (history p r b.deeds).getLast? = some (b.results p)

/-- The command's result is the last one it has got, and nothing is done to harm it. -/
structure Kept (p : Nat) (r : Result) (b : Book) : Prop where
  tracks : Tracks p r b
  harmless : Harmless p r (b.deeds ++ b.toCome)

/-- So it is, and no task that is left gets a result for it. -/
structure Alone (p : Nat) (r : Result) (b : Book) : Prop extends Kept p r b where
  alone : b.toCome.filterMap (Deed.resultOf p) = []

/-- So it is, and the command has no answer yet. -/
structure Open (p : Nat) (r : Result) (b : Book) : Prop extends Alone p r b where
  unanswered : answered (b.results p) = false

/-- An invariant that outlasts what the tasks do that are left, and the end of an attempt. -/
structure Lasts (I : Book → Prop) : Prop where
  awaits : Keeps I awaits
  leave : ∀ tasks, Keeps I (leave tasks)

/-- A deed for another command, or a sending of one that has no answer. -/
def Spared (p : Nat) (r : Result) (d : Deed) : Prop :=
  d.resultOf p = none ∧ (answered r = true → d ≠ .sent p)

section

variable {I J : Book → Prop}

/-- The invariant outlasts the sending of these commands, and whatever they come to. -/
structure Bears (I : Book → Prop) (ps : List Nat) : Prop where
  send : Keeps I (send ps)
  store : ∀ q ∈ ps, ∀ y, Keeps I (store q y)

theorem readResponses_keeps (hI : Lasts I) (a : Attempt) (ps : List Nat) (ret : Bool)
    (h : ∀ q ∈ ps, ∀ y, Keeps I (store q y)) : Keeps I (a.readResponses ps ret) := by
  induction ps generalizing ret with
  | nil => exact Keeps.pure ret
  | cons q ps ih =>
    obtain ⟨hq, hps⟩ := List.forall_mem_cons.mp h
    unfold Attempt.readResponses
    refine Keeps.bind hI.awaits fun _ => ?_
    split
    · exact Keeps.bind (hq _) fun _ => ih ret hps
    · exact Keeps.ite (Keeps.bind (hq _) fun _ => ih true hps) (Keeps.throw _)

theorem executePipeline_keeps (hI : Lasts I) (a : Attempt) (name : String) (ps : List Nat)
    (h : a.sends name = .ok () → Bears I ps) : Keeps I (a.executePipeline name ps) := by
  unfold Attempt.executePipeline
  refine Keeps.bind hI.awaits fun _ => ?_
  split
  · exact Keeps.throw _
  · rename_i hs
    exact Keeps.bind (h hs).send fun _ => readResponses_keeps hI a ps false (h hs).store

end

/-! ### The nodes of the commands -/

theorem foldl_keeps {I : Book → Prop} {ds : List Deed} (h : ∀ b, ∀ d ∈ ds, I b → I (b.note d)) {b : Book}
    (hb : I b) : I (ds.foldl Book.note b) := by
  induction ds generalizing b with
  | nil => exact hb
  | cons d ds ih =>
    exact ih (fun b' d' hd' => h b' d' (List.mem_cons_of_mem d hd')) (h b d List.mem_cons_self hb)

/-- What tasks from earlier attempts do in this one. -/
def late (s : Execution) (a : Attempt) : List Deed := (resumeAll s.left a.meanwhile.flatten).2

/-- The attempt has the command on its list, and comes to send it. -/
def Sends (n : Nat) (s : Execution) (a : Attempt) (p : Nat) : Prop :=
  a.initializes = .ok () ∧ p ∈ todo n s.results ∧ (∀ q ∈ todo n s.results, ∃ name, a.target q = .ok name) ∧
    ∃ name, a.target p = .ok name ∧ a.sends name = .ok ()

/-- No task is left running, and none goes on. -/
def Quiet : Round → Prop
  | .attempt a => a.connecting = [] ∧ a.meanwhile = []
  | .between events => events = []

end AsyncClusterPipeline

end RedisPy
