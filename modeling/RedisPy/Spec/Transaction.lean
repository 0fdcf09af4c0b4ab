import RedisPy.Library.Raising
import RedisPy.Spec.Python

/-! `Pipeline._execute_transaction` (`redis/client.py`, `redis/asyncio/client.py`), with the
replies that the server sends to it. -/

namespace RedisPy

open Raising

/-- The keyword arguments of a command, `EMPTY_RESPONSE` and `keys` among them. -/
abbrev CommandOptions := List (String × PyVal)

/-- A command of the stack; `args` is what `safe_str` makes of its other arguments. -/
structure StackedCommand where
  name : String
  args : List String := []
  options : CommandOptions := []

/-- `options[EMPTY_RESPONSE]` of a command that is not to be sent. -/
def StackedCommand.empty (command : StackedCommand) : Option PyVal :=
  command.options.lookup "EMPTY_RESPONSE"

/-- `response_callbacks`: what the callback of a name, if it has one, makes of a reply and the
options. -/
abbrev ResponseCallbacks := String → Option (PyVal → CommandOptions → Except Exc PyVal)

/-- A reply on the wire: a value, or an error that `read_response` raises. -/
inductive TransactionReply where
  | value (v : PyVal)
  | error (e : Exc)

/-- The connection, with the replies that are not read yet, and the pipeline's `watching`. -/
structure TransactionState where
  unread : List TransactionReply
  sent : List (String × List String) := []
  watching : Bool := false
  connected : Bool := true

namespace Transaction

abbrev M (β : Type) := EStateM Exc TransactionState β

def parseResponse : M PyVal := fun s =>
  match s.unread with
  | [] => .error { cls := .ConnectionError } { s with connected := false }
  | .value v :: unread => .ok v { s with unread := unread }
  | .error e :: unread => .error e { s with unread := unread }

def annotateException (e : Exc) (number : Nat) (command : StackedCommand) : Exc :=
  let cmd := " ".intercalate (command.name :: command.args)
  { e with msg := s!"Command # {number} ({cmd}) of pipeline caused error: {e.msg}" }

/-- "parse off the response for MULTI": an error is noted as that of the first place. -/
def readMulti : M (List (Nat × PyVal)) :=
  tryCatch (do
    let _ ← parseResponse
    return []) fun e =>
      if e.isinstance .ResponseError then return [(0, .exc e)] else throw e

/-- What is noted for the `i`-th command: an `EMPTY_RESPONSE`, or the error it is answered with. -/
def noteReply (i : Nat) (command : StackedCommand) : M (List (Nat × PyVal)) :=
  match command.empty with
  | some v => return [(i, v)]
  | none =>
    tryCatch (do
      let _ ← parseResponse
      return []) fun e =>
        if e.isinstance .ResponseError then
          return [(i, .exc (annotateException e (i + 1) command))]
        else throw e

/-- "and all the other commands", from the `i`-th one -/
def readQueued : Nat → List StackedCommand → List (Nat × PyVal) → M (List (Nat × PyVal))
  | _, [], errors => return errors
  | i, command :: commands, errors => do
    let found ← noteReply i command
    readQueued (i + 1) commands (errors ++ found)

/-- `raise` of what is no exception is a `TypeError`. -/
def raiseValue : PyVal → M PyVal
  | .exc e => throw e
  | _ => throw { cls := .TypeError, msg := "exceptions must derive from BaseException" }

/-- "parse the EXEC": an aborted one raises the first error that was noted. -/
def readExec (errors : List (Nat × PyVal)) : M PyVal :=
  tryCatch parseResponse fun e =>
    if e.isinstance .ExecAbortError then
      match errors with
      | (_, v) :: _ => raiseValue v
      | [] => throw e
    else throw e

/-- `response.insert(i, v)` -/
def insertAt (response : List PyVal) (i : Nat) (v : PyVal) : List PyVal :=
  response.take i ++ v :: response.drop i

/-- "put any parse errors into the response" -/
def insertErrors (response : List PyVal) (errors : List (Nat × PyVal)) : List PyVal :=
  errors.foldl (fun response p => insertAt response p.1 p.2) response

/-- `raise_first_error`, from the `i`-th reply -/
def raiseFirstError : Nat → List StackedCommand → List PyVal → M Unit
  | i, command :: commands, .exc e :: response =>
    if e.isinstance .ResponseError then throw (annotateException e (i + 1) command)
    else raiseFirstError (i + 1) commands response
  | i, _ :: commands, _ :: response => raiseFirstError (i + 1) commands response
  | _, _, _ => return ()

/-- The callback of the command, run on a reply that is no exception. -/
def runCallback (callbacks : ResponseCallbacks) (command : StackedCommand) (r : PyVal) :
    Except Exc PyVal :=
  if r.isException then .ok r
  else
    match callbacks command.name with
    | some callback => callback r (command.options.filter fun option => option.1 ≠ "keys")
    | none => .ok r

/-- "We have to run response callbacks manually" -/
def runCallbacks (callbacks : ResponseCallbacks) :
    List StackedCommand → List PyVal → Except Exc (List PyVal)
  | command :: commands, r :: response => do
    let r ← runCallback callbacks command r
    let data ← runCallbacks callbacks commands response
    return r :: data
  | _, _ => .ok []

def raises {β : Type} : Except Exc β → M β
  | .ok b => return b
  | .error e => throw e

/-- `_execute_transaction`, in both files. `EXEC` is answered with an array, null or an error. -/
def executeTransaction (callbacks : ResponseCallbacks) (commands : List StackedCommand)
    (raise_on_error : Bool) : M (List PyVal) := do
  modify fun s => { s with sent := s.sent ++ (("MULTI", []) ::
    (commands.filter fun command => command.empty.isNone).map (fun c => (c.name, c.args))) ++
      [("EXEC", [])] }
  let errors ← readMulti
  let errors ← readQueued 0 commands errors
  let response ← readExec errors
  modify fun s => { s with watching := false }
  match response with
  | .none => throw { cls := .WatchError, msg := "Watched variable changed." }
  | .list response =>
    let response := insertErrors response errors
    if response.length ≠ commands.length then
      modify fun s => { s with connected := false }
      throw { cls := .ResponseError, msg := "Wrong number of response items from pipeline execution" }
    else
      if raise_on_error then raiseFirstError 0 commands response
      raises (runCallbacks callbacks commands response)
  | _ => throw { cls := .AttributeError, msg := "object has no attribute 'insert'" }

end Transaction

/-- What the server makes of a command that is sent: it is rejected, or queued with a reply and
then run by `EXEC`, where it may still fail. -/
inductive QueuedAs where
  | rejected (e : Exc) (h : e.isinstance .ResponseError = true)
  | accepted (queued item : PyVal)

namespace Transaction

/-- The replies to the commands that are sent, before that of `EXEC`. -/
def queueReplies (stack : List (StackedCommand × QueuedAs)) : List TransactionReply :=
  stack.filterMap fun p =>
    match p.1.empty, p.2 with
    | some _, _ => none
    | none, .rejected e _ => some (.error e)
    | none, .accepted queued _ => some (.value queued)

/-- The items of `EXEC`, one for each command accepted for queueing. -/
def execItems (stack : List (StackedCommand × QueuedAs)) : List PyVal :=
  stack.filterMap fun p =>
    match p.1.empty, p.2 with
    | none, .accepted _ item => some item
    | _, _ => none

/-- All replies to the transaction. -/
def transactionReplies (multi : PyVal) (stack : List (StackedCommand × QueuedAs)) :
    List TransactionReply :=
  .value multi :: queueReplies stack ++ [.value (.list (execItems stack))]

/-- What belongs in the `i`-th place, before it is decoded. -/
def entry (i : Nat) (command : StackedCommand) : QueuedAs → PyVal
  | .rejected e _ => command.empty.getD (.exc (annotateException e (i + 1) command))
  | .accepted _ item => command.empty.getD item

def entries : Nat → List (StackedCommand × QueuedAs) → List PyVal
  | _, [] => []
  | i, (command, queued) :: stack => entry i command queued :: entries (i + 1) stack

/-- The first error among the entries, as it is to be raised. -/
def firstError : Nat → List StackedCommand → List PyVal → Option Exc
  | i, command :: commands, .exc e :: response =>
    if e.isinstance .ResponseError then some (annotateException e (i + 1) command)
    else firstError (i + 1) commands response
  | i, _ :: commands, _ :: response => firstError (i + 1) commands response
  | _, _, _ => none

/-- The result that is due: a reply is decoded, an error and an `EMPTY_RESPONSE` are not. -/
def dueResult (callbacks : ResponseCallbacks) (i : Nat) (command : StackedCommand) (queued : QueuedAs) :
    Except Exc PyVal :=
  if command.empty.isSome then .ok (entry i command queued)
  else runCallback callbacks command (entry i command queued)

def dueResults (callbacks : ResponseCallbacks) :
    Nat → List (StackedCommand × QueuedAs) → Except Exc (List PyVal)
  | _, [] => .ok []
  | i, (command, queued) :: stack => do
    let r ← dueResult callbacks i command queued
    let data ← dueResults callbacks (i + 1) stack
    return r :: data

end Transaction

end RedisPy
