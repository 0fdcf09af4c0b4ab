import Mathlib.Logic.Function.Basic
import RedisPy.Spec.ClusterExecute
import RedisPy.Spec.Python

/-! `ClusterPipeline.execute` of `redis/asyncio/cluster.py`. The commands are numbered by
their `position`, their place on the stack. What the client and the nodes come to in an
attempt is given from outside, and so is what the tasks do that an earlier attempt has left
running. -/

namespace RedisPy

namespace AsyncClusterPipeline

/-- `PipelineCommand.result`; `none` is the `None` that it starts with. -/
abbrev Result := Option (Except Exc PyVal)

/-- The exception that a result is. -/
def exception : Result → Option Exc
  | some (.error e) => some e
  | some (.ok (.exc e)) => if e.isinstance .Exception then some e else none
  | _ => none

/-- `not cmd.result or isinstance(cmd.result, Exception)` -/
def isTodo : Result → Bool
  | none => true
  | some (.error _) => true
  | some (.ok v) => !v.truthy || v.isException

/-- Something that a task does for a command. -/
inductive Deed where
  | sent (p : Nat)
  | got (p : Nat) (r : Except Exc PyVal)

/-! ### Tasks that are left running -/

/-- A task of `execute_pipeline` that runs on when `gather` has raised: the commands whose replies
it has not read, and whether it has sent them. -/
structure LeftTask where
  commands : List Nat
  sent : Bool := false

/-- What such a task comes to: it is connected, or reads the next reply. -/
inductive TaskEvent where
  | connected
  | reply (r : Except Exc PyVal)

/-- `execute_pipeline` goes on. An exception of another kind ends it, and so does a connection
that fails: then the task has no more events. -/
def LeftTask.resume : LeftTask → TaskEvent → LeftTask × List Deed
  | { commands := ps, sent := false }, .connected => ({ commands := ps, sent := true }, ps.map .sent)
  | { commands := p :: ps, sent := true }, .reply (.ok v) =>
    ({ commands := ps, sent := true }, [.got p (.ok v)])
  | { commands := p :: ps, sent := true }, .reply (.error e) =>
    if e.isinstance .Exception then ({ commands := ps, sent := true }, [.got p (.error e)])
    else ({ commands := [], sent := true }, [])
  | t, _ => (t, [])

/-- What the tasks do in these events, each of them of one task. -/
def resumeAll : List LeftTask → List (Nat × TaskEvent) → List LeftTask × List Deed
  | left, [] => (left, [])
  | left, (i, event) :: events =>
    match left[i]? with
    | none => resumeAll left events
    | some t =>
      let (t, deeds) := t.resume event
      let (left, later) := resumeAll (left.set i t) events
      (left, deeds ++ later)

/-! ### Attempts -/

/-- What one attempt meets. -/
structure Attempt where
  /-- `client.initialize()`, if it is called. -/
  initializes : Except Exc Unit
  /-- The one node that a command is for. -/
  target : Nat → Except Exc String
  /-- Acquiring a node's connection and sending the commands on it. -/
  sends : String → Except Exc Unit
  parse_response : Nat → Except Exc PyVal
  /-- The nodes whose connections are still being opened when the others' tasks have ended. -/
  connecting : List String := []
  /-- Which of the exceptions that tasks raise comes first. -/
  first : Nat
  /-- `client.execute_command` -/
  execute_command : Nat → Except Exc PyVal
  /-- Looking up the default node, and replacing it. -/
  default_node : Except Exc Unit
  /-- The events of tasks from earlier attempts, at one point after the other where this attempt
  awaits something. -/
  meanwhile : List (List (Nat × TaskEvent)) := []

/-- The results, what has been done in the attempt, and the tasks that are left. -/
structure Book where
  results : Nat → Result := fun _ => none
  deeds : List Deed := []
  left : List LeftTask := []
  meanwhile : List (List (Nat × TaskEvent)) := []

namespace Book

def note (b : Book) (d : Deed) : Book :=
  { b with
    deeds := b.deeds ++ [d]
    results :=
      match d with
      | .sent _ => b.results
      | .got p r => Function.update b.results p (some r) }

/-- The tasks that are left go on. -/
def resume (b : Book) (events : List (Nat × TaskEvent)) : Book :=
  let (left, deeds) := resumeAll b.left events
  { deeds.foldl note b with left := left }

/-- What others have done while something was awaited. -/
def awaited (b : Book) : Book :=
  match b.meanwhile with
  | [] => b
  | events :: meanwhile => { b with meanwhile := meanwhile }.resume events

end Book

abbrev M := EStateM Exc Book

def awaits : M Unit := modify Book.awaited

def store (p : Nat) (r : Except Exc PyVal) : M Unit := modify fun b => b.note (.got p r)

def send (ps : List Nat) : M Unit := modify fun b => (ps.map Deed.sent).foldl Book.note b

/-- The attempt ends without these tasks. -/
def leave (tasks : List LeftTask) : M Unit := modify fun b =>
  { b with left := b.left ++ tasks, meanwhile := [] }

/-- `nodes[node.name][1].append(cmd)`, for a name that may be new. -/
def addTo (name : String) (p : Nat) : List (String × List Nat) → List (String × List Nat)
  | [] => [(name, [p])]
  | (name', ps) :: nodes =>
    if name' = name then (name', ps ++ [p]) :: nodes else (name', ps) :: addTo name p nodes

namespace Attempt

variable (a : Attempt)

/-- The commands by the nodes they are for. -/
def groupByNode : List Nat → List (String × List Nat) → Except Exc (List (String × List Nat))
  | [], nodes => .ok nodes
  | p :: ps, nodes =>
    match a.target p with
    | .error e => .error e
    | .ok name => groupByNode ps (addTo name p nodes)

/-- The loop of `ClusterNode.execute_pipeline` over the responses. -/
def readResponses : List Nat → Bool → M Bool
  | [], ret => return ret
  | p :: ps, ret => do
    awaits
    match a.parse_response p with
    | .ok v => do
      store p (.ok v)
      readResponses ps ret
    | .error e =>
      if e.isinstance .Exception then do
        store p (.error e)
        readResponses ps true
      else throw e

def executePipeline (name : String) (ps : List Nat) : M Bool := do
  awaits
  match a.sends name with
  | .error e => throw e
  | .ok () => do
    send ps
    a.readResponses ps false

/-- What these tasks raise, and whether one of the others met an error. -/
def runTasks : List (String × List Nat) → M (List Exc × Bool)
  | [] => return ([], false)
  | (name, ps) :: nodes => do
    let outcome ← tryCatch
      (do
        let ret ← a.executePipeline name ps
        return Except.ok ret)
      (fun e => return Except.error e)
    let (raised, errors) ← runTasks nodes
    match outcome with
    | .ok ret => return (raised, ret || errors)
    | .error e => return (e :: raised, errors)

/-- `asyncio.gather`. When a task raises, those that are reading end before the next attempt, since
the client disconnects its nodes; those that are still connecting are not disconnected, and are
left running. When none raises, these go on like the others. -/
def gather (nodes : List (String × List Nat)) : M (List Exc × Bool) := do
  let late := nodes.filter fun g => g.1 ∈ a.connecting
  let (raised, errors) ← a.runTasks (nodes.filter fun g => g.1 ∉ a.connecting)
  match raised with
  | [] => do
    let (raised, errors') ← a.runTasks late
    return (raised, errors || errors')
  | e :: raised => do
    leave (late.map fun g => { commands := g.2 })
    return (e :: raised, errors)

/-- A command that was redirected is sent on its own. -/
def redirect (p : Nat) : M Unit := do
  match exception ((← get).results p) with
  | none => return
  | some e =>
    if e.isinstanceAny [.TryAgainError, .MovedError, .AskError] then do
      send [p]
      awaits
      match a.execute_command p with
      | .ok v => store p (.ok v)
      | .error e => if e.isinstance .Exception then store p (.error e) else throw e
    else return

def redirectEach : List Nat → M Unit
  | [] => return
  | p :: ps => do
    a.redirect p
    redirectEach ps

end Attempt

/-- The first error among the commands' results is raised, with its message told anew. -/
def raiseError : List Nat → M Unit
  | [] => return
  | p :: ps => do
    match exception ((← get).results p) with
    | some e => throw e
    | none => raiseError ps

/-- What `_execute` does when a command met an error. -/
def onErrors (raise_on_error allow_redirections : Bool) (a : Attempt) (todo : List Nat) :
    M Unit := do
  (if allow_redirections then a.redirectEach todo else return : M Unit)
  (if raise_on_error then raiseError todo else return : M Unit)
  match a.default_node with
  | .ok () => return
  | .error e => throw e

def todo (n : Nat) (results : Nat → Result) : List Nat :=
  (List.range n).filter fun p => isTodo (results p)

/-- `_execute`, for a stack of `n` commands. -/
def _execute (n : Nat) (raise_on_error allow_redirections : Bool) (a : Attempt) :
    M (List Result) := do
  let todo := todo n (← get).results
  awaits
  match a.groupByNode todo [] with
  | .error e => throw e
  | .ok nodes =>
    let (raised, errors) ← a.gather nodes
    match raised with
    | e :: raised => throw ((e :: raised).getD a.first e)
    | [] =>
      (if errors then onErrors raise_on_error allow_redirections a todo else return : M Unit)
      return (List.range n).map (← get).results

/-- Between two attempts of `execute`; after the last the exception met is raised, if the
outcome is not known yet. -/
structure Execution where
  results : Nat → Result := fun _ => none
  left : List LeftTask := []
  /-- What was done in the last round. -/
  deeds : List Deed := []
  outcome : Option (Except Exc (List Result)) := none

/-- The state that an attempt starts in. -/
def Execution.book (s : Execution) (a : Attempt) : Book :=
  { results := s.results, left := s.left, meanwhile := a.meanwhile }

/-- The state that an attempt leaves. -/
def Execution.after (b : Book) (outcome : Option (Except Exc (List Result))) : Execution :=
  { results := b.results, left := b.left, deeds := b.deeds, outcome := outcome }

/-- One attempt of `execute`. -/
def attempt (n : Nat) (raise_on_error allow_redirections : Bool) (s : Execution) (a : Attempt) :
    Execution :=
  match a.initializes with
  | .error e => .after (s.book a) (some (.error e))
  | .ok () =>
    match (_execute n raise_on_error allow_redirections a).run (s.book a) with
    | .ok results b => .after b (some (.ok results))
    | .error e b => .after b (if e.cls ∈ ERRORS_ALLOW_RETRY then none else some (.error e))

/-- An attempt, or what happens from its end to the list of the next one, while the client is
closed, sleeps and is initialized. -/
inductive Round where
  | attempt (a : Attempt)
  | between (events : List (Nat × TaskEvent))

/-- One round of `execute`. -/
def round (n : Nat) (raise_on_error allow_redirections : Bool) (s : Execution) (r : Round) :
    Execution :=
  if s.outcome.isSome then { s with deeds := [] }
  else
    match r with
    | .attempt a => attempt n raise_on_error allow_redirections s a
    | .between events => .after (Book.resume { results := s.results, left := s.left } events) none

end AsyncClusterPipeline

end RedisPy
