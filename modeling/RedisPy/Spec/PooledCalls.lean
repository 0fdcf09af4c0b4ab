import RedisPy.Library.Course
import RedisPy.Spec.Handshake
import RedisPy.Spec.Transaction

/-! Calls on a connection of a pool, one after another (`redis/client.py`, `redis/asyncio/client.py`):
commands, pipelines and transactions, which take the connection from the pool and give it back. Commands are numbers,
so the errors of a pipeline are not annotated; `EMPTY_RESPONSE` and scripts are left out, and
pipelines that watch are in `WatchPipeline`. -/

namespace RedisPy

namespace Handshake

open Raising

/-- What a client has for its calls. -/
structure Client where
  /-- What the response callback of a command, if it has one, makes of a reply. -/
  callback : Nat → PyVal → Except Exc PyVal
  /-- `_retries` of the connection's `Retry`, which is not negative. -/
  retries : Nat := 0
  supported_errors : Exc → Bool := fun e => e.isinstanceAny [.ConnectionError, .TimeoutError, .SocketTimeout]
  /-- `isinstance(error, tuple(conn.retry_on_error))` -/
  retry_on_error : Exc → Bool := fun _ => false

/-- What a response callback raises is an error like those of replies, or the connection is closed
for it. -/
def Client.Tidy (client : Client) : Prop :=
  ∀ n v e, client.callback n v = .error e →
    e.isinstance .ResponseError = true ∨ client.supported_errors e = true

def callWithRetry {β : Type} (supported_errors : Exc → Bool) (command : M β) (fail : Exc → M Unit) :
    (retries : Nat) → M β
  | 0 => tryCatch command fun e => do
    if supported_errors e then fail e
    throw e
  | retries + 1 => tryCatch command fun e => do
    if supported_errors e then
      fail e
      callWithRetry supported_errors command fail retries
    else throw e

section
variable (net : Network) (c : Settings) (client : Client)

/-- "connections that the pool provides should be ready to send a command" -/
def checkReady (msg : String) : M Unit := do
  if ← canRead net c then throw { cls := .ConnectionError, msg := msg }

/-- `get_connection` of the pool, after which the connection goes back if it raises. -/
def getConnection : M Unit := do
  connect net c
  tryCatch (checkReady net c "Connection has data") fun e => do
    if e.isinstanceAny [.ConnectionError, .OSError] then
      disconnect
      connect net c
      checkReady net c "Connection not ready"
    else throw e

/-- `_disconnect_raise`, and `_disconnect_raise_reset` of a pipeline that does not watch. -/
def disconnectRaise (e : Exc) : M Unit := do
  disconnect
  if client.retry_on_error e then return () else throw e

def parseResponse (n : Nat) : M PyVal := do
  let response ← readResponse net (.command n)
  raises (client.callback n response)

def executeCommand (n : Nat) : M PyVal := do
  getConnection net c
  callWithRetry client.supported_errors (do
    sendPackedCommand net c [.command n]
    parseResponse net client n) (disconnectRaise client) client.retries

/-- An error reply is a result like any other. -/
def noted (m : M PyVal) : M PyVal :=
  tryCatch m fun e => if e.isinstance .ResponseError then return .exc e else throw e

/-- The replies to a pipeline, one after another. -/
def parseAll : List Nat → M (List PyVal)
  | [] => return []
  | n :: ns => do
    let r ← noted (parseResponse net client n)
    let rs ← parseAll ns
    return r :: rs

def raiseFirstError : List PyVal → Except Exc Unit
  | [] => .ok ()
  | .exc e :: rs => if e.isinstance .ResponseError then .error e else raiseFirstError rs
  | _ :: rs => raiseFirstError rs

def _executePipeline (ns : List Nat) (raise_on_error : Bool) : M (List PyVal) := do
  sendPackedCommand net c (ns.map .command)
  let response ← parseAll net client ns
  if raise_on_error then raises (raiseFirstError response)
  return response

/-- What is noted of the reply to MULTI or to a command that is queued: an error, and its place. -/
def noteReply (i : Nat) (r : Request) : M (List (Nat × Exc)) :=
  tryCatch (do
    discard (readResponse net r)
    return []) fun e => if e.isinstance .ResponseError then return [(i, e)] else throw e

/-- "and all the other commands", from the `i`-th one -/
def readQueued : Nat → List Nat → M (List (Nat × Exc))
  | _, [] => return []
  | i, n :: ns => do
    let found ← noteReply net i (.command n)
    let errors ← readQueued (i + 1) ns
    return found ++ errors

/-- "parse the EXEC": an aborted one raises the first error that was noted. -/
def readExec (errors : List (Nat × Exc)) : M PyVal :=
  tryCatch (readResponse net .EXEC) fun e =>
    if e.isinstance .ExecAbortError then throw ((errors.head?.map Prod.snd).getD e) else throw e

/-- The callbacks, run on what EXEC has returned. -/
def runCallbacks : List PyVal → List Nat → Except Exc (List PyVal)
  | v :: vs, n :: ns => do
    let r ← if v.isException then .ok v else client.callback n v
    let rs ← runCallbacks vs ns
    return r :: rs
  | _, _ => .ok []

/-- What becomes of the reply to EXEC. -/
def finish (ns : List Nat) (raise_on_error : Bool) (errors : List (Nat × Exc)) : PyVal → M (List PyVal)
  | .none => throw { cls := .WatchError, msg := "Watched variable changed." }
  | .list response => do
    let response := Transaction.insertErrors response (errors.map fun p => (p.1, .exc p.2))
    if response.length ≠ ns.length then
      disconnect
      throw { cls := .ResponseError, msg := "Wrong number of response items from pipeline execution" }
    else
      if raise_on_error then raises (raiseFirstError response)
      raises (runCallbacks client response ns)
  | _ => throw { cls := .AttributeError, msg := "object has no attribute 'insert'" }

def _executeTransaction (ns : List Nat) (raise_on_error : Bool) : M (List PyVal) := do
  sendPackedCommand net c (.MULTI :: ns.map .command ++ [.EXEC])
  let found ← noteReply net 0 .MULTI
  let errors ← readQueued net 0 ns
  let response ← readExec net (found ++ errors)
  finish client ns raise_on_error (found ++ errors) response

/-- `execute` of a pipeline that does not watch. -/
def execute (transaction : Bool) (ns : List Nat) (raise_on_error : Bool) : M (List PyVal) := do
  if ns = [] then return []
  else
    getConnection net c
    callWithRetry client.supported_errors
      (if transaction then _executeTransaction net c client ns raise_on_error
        else _executePipeline net c client ns raise_on_error)
      (disconnectRaise client) client.retries

inductive Call where
  | execute_command (n : Nat)
  | execute (transaction : Bool) (ns : List Nat) (raise_on_error : Bool)
  /-- `disconnect` of the pool. -/
  | disconnect

def step (s : Wire) : Call → Wire
  | .execute_command n => state ((executeCommand net c client n).run s)
  | .execute transaction ns raise_on_error => state ((execute net c client transaction ns raise_on_error).run s)
  | .disconnect => state (disconnect.run s)

def run (s : Wire) (calls : List Call) : Wire := calls.foldl (step net c client) s

end

end Handshake

end RedisPy
