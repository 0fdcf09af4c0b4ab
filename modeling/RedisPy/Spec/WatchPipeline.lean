import RedisPy.Library.Course
import RedisPy.Spec.Exceptions

/-! WATCH, the connection, the command stack and the scripts of a `Pipeline` (`redis/client.py`),
with what the server keeps for the connection. What comes of each operation on a connection is given
from outside. The values of replies are left out, but for errors and for which scripts the server
knows. -/

namespace RedisPy

open Raising

/-- What a command does to the state of its connection at the server. -/
inductive ServerCommand where
  | WATCH | UNWATCH | MULTI | EXEC | DISCARD | other
  deriving DecidableEq, Repr

/-- A command as it is passed; its name may be written in other letters than the code's own. -/
structure PipelineCommand where
  command : ServerCommand
  upper : Bool := true
  deriving DecidableEq, Repr

/-- What the server keeps for a connection. -/
structure ServerSession where
  /-- A WATCH is active. -/
  watched : Bool := false
  /-- MULTI has begun. -/
  queueing : Bool := false
  deriving DecidableEq, Repr

namespace ServerSession

/-- A command that the server takes, unless it does not belong here. -/
def serve (s : ServerSession) : ServerCommand → Option ServerSession
  | .WATCH => if s.queueing then none else some { s with watched := true }
  | .UNWATCH => if s.queueing then some s else some { s with watched := false }
  | .MULTI => if s.queueing then none else some { s with queueing := true }
  | .EXEC => if s.queueing then some {} else none
  | .DISCARD => if s.queueing then some {} else none
  | .other => some s

/-- A command that the server refuses; a refused EXEC discards. -/
def refuse (s : ServerSession) : ServerCommand → ServerSession
  | .EXEC => if s.queueing then {} else s
  | _ => s

end ServerSession

/-- What comes of an operation on a connection: a reply (`nil` of an EXEC whose watch was broken,
`short` of one with another number of results), an error reply, or the loss of the connection. -/
inductive ExchangeOutcome where
  | ok | nil | short
  /-- Results of which `e` is the first `ResponseError`. -/
  | failed (e : Exc)
  | reply (e : Exc)
  | lost (e : Exc)
  /-- Before something is sent a health check finds the connection lost and makes a new one. -/
  | renewed
  deriving DecidableEq, Repr

/-- What a `Pipeline` has from its client and from the `Retry` of its connections. -/
structure PipelineSettings where
  transaction : Bool
  /-- `_retries`, which is not negative. -/
  retries : Nat
  supported_errors : Exc → Bool
  /-- `isinstance(error, tuple(conn.retry_on_error))` -/
  retry_on_error : Exc → Bool

/-- A `Pipeline`. Each connection that it has got from the pool has a number. -/
structure WatchPipeline where
  command_stack : List PipelineCommand := []
  /-- `len(self.scripts)` -/
  scripts : Nat := 0
  watching : Bool := false
  explicit_transaction : Bool := false
  connection : Option Nat := none
  session : ServerSession := {}
  /-- So many connections have been got. -/
  taken : Nat := 0
  /-- Connections that are back in the pool, and whether with an active WATCH. -/
  released : List (Nat × Bool) := []
  /-- The errors among the replies of the stack that is being executed. -/
  errors : List Exc := []
  /-- What comes of the next operations. -/
  outcomes : List ExchangeOutcome := []
  deriving DecidableEq, Repr

namespace WatchPipeline

abbrev M (β : Type) := EStateM Exc WatchPipeline β

variable (cfg : PipelineSettings)

/-- `connection.disconnect()`, and the server forgets the connection. -/
def disconnect : M Unit := modify fun s => { s with session := {} }

/-- What comes of the next operation. -/
def draw : M ExchangeOutcome := do
  let s ← get
  modify fun s => { s with outcomes := s.outcomes.tail }
  return s.outcomes.headD .ok

/-- `send_command` or `send_packed_command`, which connects first if it has to. -/
def send : M Unit := do
  match ← draw with
  | .lost e =>
    disconnect
    throw e
  | .renewed => disconnect
  | _ => return ()

/-- `read_response` for a command that was sent. -/
def readResponse (c : ServerCommand) : M ExchangeOutcome := do
  match ← draw with
  | .lost e =>
    disconnect
    throw e
  | .reply e =>
    modify fun s => { s with session := s.session.refuse c }
    throw e
  | o =>
    match (← get).session.serve c with
    | none => throw { cls := .ResponseError }
    | some session =>
      modify fun s => { s with session := session }
      return o

def reset : M Unit := do
  modify fun s => { s with command_stack := [], scripts := 0 }
  let s ← get
  if s.watching && s.connection.isSome then
    tryCatch (do
      send
      discard (readResponse .UNWATCH)) (fun e => do
      if e.isinstance .ConnectionError then disconnect else throw e)
  modify fun s =>
    { s with
      watching := false
      explicit_transaction := false
      released := s.released ++ s.connection.toList.map fun id => (id, s.session.watched)
      connection := none
      session := {} }

def getConnection : M Unit := do
  match ← draw with
  | .lost e => throw e
  | .reply e => throw e
  | _ => modify fun s => { s with connection := some s.taken, session := {}, taken := s.taken + 1 }

def callWithRetry (command : M Unit) (fail : Exc → M Unit) : (retries : Nat) → M Unit
  | 0 => tryCatch command (fun e => do
      if cfg.supported_errors e then
        fail e
        throw e
      else throw e)
  | retries + 1 => tryCatch command (fun e => do
      if cfg.supported_errors e then
        fail e
        callWithRetry command fail retries
      else throw e)

def resetAndRaise (e : Exc) : M Unit := do
  reset
  throw e

def _disconnectResetRaise (e : Exc) : M Unit := do
  disconnect
  let s ← get
  if s.watching then resetAndRaise { cls := .WatchError }
  else if cfg.retry_on_error e then return ()
  else resetAndRaise e

def _disconnectRaiseReset (e : Exc) : M Unit := do
  disconnect
  let s ← get
  if s.watching then throw { cls := .WatchError }
  else if cfg.retry_on_error e then return ()
  else resetAndRaise e

/-- `command_name in self.UNWATCH_COMMANDS`, or `command_name == "WATCH"`. -/
def watchingAfter (c : PipelineCommand) (watching : Bool) : Bool :=
  if c.upper then
    match c.command with
    | .DISCARD | .EXEC | .UNWATCH => false
    | .WATCH => true
    | _ => watching
  else watching

def parseResponse (c : PipelineCommand) : M Unit := do
  discard (readResponse c.command)
  modify fun s => { s with watching := watchingAfter c s.watching }

/-- The connection that the pipeline holds, or one that it gets. -/
def ensureConnection : M Unit := do
  if (← get).connection.isNone then getConnection

def immediateExecuteCommand (c : PipelineCommand) : M Unit := do
  ensureConnection
  callWithRetry cfg (do
    send
    parseResponse c) (_disconnectResetRaise cfg) cfg.retries

def executeCommand (c : PipelineCommand) : M Unit := do
  let s ← get
  if (s.watching || c == { command := .WATCH }) && !s.explicit_transaction then
    immediateExecuteCommand cfg c
  else modify fun s => { s with command_stack := s.command_stack ++ [c] }

/-- An error reply is noted and the next reply is read. -/
def noted (m : M Unit) : M Unit :=
  tryCatch m (fun e =>
    if e.isinstance .ResponseError then modify fun s => { s with errors := s.errors ++ [e] }
    else throw e)

/-- The replies to the commands of a transaction. -/
def readQueued : List PipelineCommand → M Unit
  | [] => return ()
  | c :: cs => do
    noted (discard (readResponse c.command))
    readQueued cs

/-- The reply to EXEC. Where the transaction was discarded, the first error is the one raised. -/
def readExec : M ExchangeOutcome :=
  tryCatch (readResponse .EXEC) (fun e => do
    let s ← get
    if e.isinstance .ExecAbortError then throw (s.errors.headD e) else throw e)

/-- What the reply to EXEC is checked for. -/
def checkResponse (o : ExchangeOutcome) : M Unit :=
  if o = .nil then throw { cls := .WatchError, msg := "Watched variable changed." }
  else if o = .short then do
    disconnect
    throw
      { cls := .ResponseError
        msg := "Wrong number of response items from pipeline execution" }
  else return ()

/-- The first `ResponseError` of the response. -/
def firstError (o : ExchangeOutcome) (errors : List Exc) : Option Exc :=
  match o with
  | .failed e => if e.isinstance .ResponseError then some e else errors.head?
  | _ => errors.head?

def raiseFirstError (o : ExchangeOutcome) : M Unit := do
  match firstError o (← get).errors with
  | some e => throw e
  | none => return ()

/-- The rest of `_execute_transaction`, from the reply to EXEC on. -/
def finishTransaction (raise_on_error : Bool) : M Unit := do
  let o ← readExec
  modify fun s => { s with watching := false }
  checkResponse o
  if raise_on_error then raiseFirstError o

def _executeTransaction (stack : List PipelineCommand) (raise_on_error : Bool) : M Unit := do
  send
  modify fun s => { s with errors := [] }
  noted (discard (readResponse .MULTI))
  readQueued stack
  finishTransaction raise_on_error

/-- The replies of a pipeline without a transaction. -/
def parseAll : List PipelineCommand → M Unit
  | [] => return ()
  | c :: cs => do
    noted (parseResponse c)
    parseAll cs

def _executePipeline (stack : List PipelineCommand) (raise_on_error : Bool) : M Unit := do
  send
  modify fun s => { s with errors := [] }
  parseAll stack
  if raise_on_error then raiseFirstError .ok

/-- What `execute` does in its `try` block. -/
def executeStack (raise_on_error : Bool) : M Unit := do
  let s ← get
  callWithRetry cfg
    (if cfg.transaction || s.explicit_transaction then _executeTransaction s.command_stack raise_on_error
      else _executePipeline s.command_stack raise_on_error)
    (_disconnectRaiseReset cfg) cfg.retries

/-- The scripts that the server does not know are loaded. -/
def loadMissing : List Bool → M Unit
  | [] => return ()
  | exist :: exists_ => do
    if !exist then immediateExecuteCommand cfg { command := .other }
    loadMissing exists_

/-- `load_scripts`, where `SCRIPT EXISTS` is answered `exists_`. -/
def loadScripts (exists_ : List Bool) : M Unit := do
  let scripts := (← get).scripts
  immediateExecuteCommand cfg { command := .other }
  loadMissing cfg (exists_.take scripts)

def execute (exists_ : List Bool) (raise_on_error : Bool) : M Unit := do
  let s ← get
  if s.command_stack = [] ∧ s.watching = false then return ()
  else
    if s.scripts ≠ 0 then loadScripts cfg exists_
    ensureConnection
    tryFinally (executeStack cfg raise_on_error) reset

def multi : M Unit := do
  let s ← get
  if s.explicit_transaction then
    throw { cls := .RedisError, msg := "Cannot issue nested calls to MULTI" }
  else if s.command_stack ≠ [] then
    throw { cls := .RedisError, msg := "Commands without an initial WATCH have already been issued" }
  else modify fun s => { s with explicit_transaction := true }

def watch : M Unit := do
  let s ← get
  if s.explicit_transaction then
    throw { cls := .RedisError, msg := "Cannot issue a WATCH after a MULTI" }
  else executeCommand cfg { command := .WATCH }

def unwatch : M Unit := do
  if (← get).watching then executeCommand cfg { command := .UNWATCH }

/-! ### Courses -/

inductive PipelineCall where
  | watch | unwatch | multi
  | execute_command (c : PipelineCommand)
  /-- A script that is called on the pipeline is put among its `scripts`. -/
  | script
  /-- `exists_` is the answer to `SCRIPT EXISTS`, should it be sent. -/
  | execute (exists_ : List Bool) (raise_on_error : Bool)
  | reset
  /-- `__exit__` -/
  | exit
  deriving DecidableEq, Repr

def call : PipelineCall → M Unit
  | .watch => watch cfg
  | .unwatch => unwatch cfg
  | .multi => multi
  | .execute_command c => executeCommand cfg c
  | .script => modify fun s => { s with scripts := s.scripts + 1 }
  | .execute exists_ raise_on_error => execute cfg exists_ raise_on_error
  | .reset => WatchPipeline.reset
  | .exit => WatchPipeline.reset

/-- A call, with what comes of the operations in it, and the state after it. -/
def step (s : WatchPipeline) (i : PipelineCall × List ExchangeOutcome) : WatchPipeline :=
  state ((call cfg i.1).run { s with outcomes := i.2 })

end WatchPipeline

end RedisPy
