import RedisPy.Spec.ClientInfo

/-! `Monitor.next_command` (`redis/client.py`). -/

namespace RedisPy

namespace Monitor

inductive ClientType where
  | lua | unix | tcp
  deriving DecidableEq, Repr

/-- What `next_command` returns, with times of the type that `float` gives. -/
structure Command (τ : Type) where
  time : τ
  db : Int
  client_address : Chars
  client_port : Chars
  client_type : ClientType
  command : Chars
  deriving DecidableEq, Repr

/-- `self.monitor_re.match(command_data)`, of `\[(\d+) (.*?)\] (.*)`: the three groups. -/
def monitorRe (command_data : Chars) : Option (Chars × Chars × Chars) :=
  match command_data with
  | '[' :: cs =>
    let db_id := cs.takeWhile Char.isDigit
    match cs.dropWhile Char.isDigit with
    | ' ' :: cs =>
      match Splitting.cutAt [']', ' '] cs with
      | some (client_info, cs) =>
        if db_id ≠ [] ∧ '\n' ∉ client_info then
          some (db_id, client_info, cs.takeWhile (· ≠ '\n'))
        else none
      | none => none
    | _ => none
  | _ => none

/-- `(.*?)(?<!\\)"` after the character `prev`: the group, with what follows the quote. -/
def closeQuote (prev : Char) : Chars → Option (Chars × Chars)
  | [] => none
  | c :: cs =>
    if c = '"' ∧ prev ≠ '\\' then some ([], cs)
    else if c = '\n' then none
    else (closeQuote c cs).map fun m => (c :: m.1, m.2)

/-- `self.command_re.findall(command)`, of `"(.*?)(?<!\\)"`. Every step takes a character at
least. -/
def findAll : Nat → Chars → List Chars
  | 0, _ => []
  | _ + 1, [] => []
  | fuel + 1, c :: cs =>
    if c = '"' then
      match closeQuote '"' cs with
      | some (group, rest) => group :: findAll fuel rest
      | none => findAll fuel cs
    else findAll fuel cs

/-- `command.replace('\\"', '"')` -/
def dropEscapes : Chars → Chars
  | [] => []
  | '\\' :: '"' :: cs => '"' :: dropEscapes cs
  | c :: cs => c :: dropEscapes cs

/-- `text.rsplit(":", 1)`, unpacked. -/
def rsplitColon (text : Chars) : Except Exc (Chars × Chars) :=
  match Splitting.splitOnce (· == ':') text.reverse with
  | [after, before] => .ok (before.reverse, after.reverse)
  | _ => .error { cls := .ValueError, msg := "not enough values to unpack (expected 2, got 1)" }

/-- The address, the port and the type of the client. -/
def clientOf (client_info : Chars) : Except Exc (Chars × Chars × ClientType) :=
  if client_info = "lua".toList then .ok ("lua".toList, [], .lua)
  else if "unix".toList.isPrefixOf client_info then
    .ok ("unix".toList, client_info.drop 5, .unix)
  else do
    let (client_address, client_port) ← rsplitColon client_info
    .ok (client_address, client_port, .tcp)

/-- `self.connection.encoder.decode(response, force=True)` where the response is `bytes`. -/
def decoded (decode : Bytes → Except Exc Chars) : ClientText → Except Exc Chars
  | .str text => .ok text
  | .bytes b => decode b

/-- `next_command`, from the response on. -/
def nextCommand {τ : Type} (float : Chars → Except Exc τ) (decode : Bytes → Except Exc Chars)
    (response : ClientText) : Except Exc (Command τ) := do
  let response ← decoded decode response
  match Splitting.splitOnce (· == ' ') response with
  | [command_time, command_data] =>
    match monitorRe command_data with
    | some (db_id, client_info, command) => do
      let command := dropEscapes ([' '].intercalate (findAll command.length command))
      let (client_address, client_port, client_type) ← clientOf client_info
      let time ← float command_time
      match Numeral.readInt db_id with
      | some db => .ok { time, db, client_address, client_port, client_type, command }
      | none => .error { cls := .ValueError, msg := "invalid literal for int() with base 10" }
    | none => .error { cls := .AttributeError, msg := "'NoneType' object has no attribute 'groups'" }
  | _ => .error { cls := .ValueError, msg := "not enough values to unpack (expected 2, got 1)" }

end Monitor

end RedisPy
