import RedisPy.Library.Splitting
import RedisPy.Spec.AsyncParsers
import RedisPy.Spec.ClientInfo
import RedisPy.Spec.MultiKeyCommands

/-! To which nodes a cluster client sends a command without explicit targets: the tables of
`redis/cluster.py`, `CommandsParser.get_keys` and `AsyncCommandsParser.get_keys`, and
`_determine_nodes` of both clients. Where the code chooses at random or in turn, all outcomes
are kept. -/

namespace RedisPy

namespace CommandRouting

/-- A value of `COMMAND_FLAGS`. -/
inductive NodeFlag where
  | PRIMARIES | REPLICAS | ALL_NODES | RANDOM | DEFAULT_NODE | SLOT_ID
  deriving DecidableEq, Repr

/-- `COMMAND_FLAGS`, the names by their flag. -/
def COMMAND_FLAGS : List (List String × NodeFlag) :=
  [
    (["ACL CAT", "ACL DELUSER", "ACL DRYRUN", "ACL GENPASS", "ACL GETUSER", "ACL HELP", "ACL LIST",
      "ACL LOG", "ACL LOAD", "ACL SAVE", "ACL SETUSER", "ACL USERS", "ACL WHOAMI", "AUTH",
      "CLIENT LIST", "CLIENT SETINFO", "CLIENT SETNAME", "CLIENT GETNAME", "CONFIG SET",
      "CONFIG REWRITE", "CONFIG RESETSTAT", "TIME", "PUBSUB CHANNELS", "PUBSUB NUMPAT",
      "PUBSUB NUMSUB", "PUBSUB SHARDCHANNELS", "PUBSUB SHARDNUMSUB", "PING", "INFO", "SHUTDOWN",
      "KEYS", "DBSIZE", "BGSAVE", "SLOWLOG GET", "SLOWLOG LEN", "SLOWLOG RESET", "WAIT", "WAITAOF",
      "SAVE", "MEMORY PURGE", "MEMORY MALLOC-STATS", "MEMORY STATS", "LASTSAVE",
      "CLIENT TRACKINGINFO", "CLIENT PAUSE", "CLIENT UNPAUSE", "CLIENT UNBLOCK", "CLIENT ID",
      "CLIENT REPLY", "CLIENT GETREDIR", "CLIENT INFO", "CLIENT KILL", "READONLY", "CLUSTER INFO",
      "CLUSTER MEET", "CLUSTER MYSHARDID", "CLUSTER NODES", "CLUSTER REPLICAS", "CLUSTER RESET",
      "CLUSTER SET-CONFIG-EPOCH", "CLUSTER SLOTS", "CLUSTER SHARDS", "CLUSTER COUNT-FAILURE-REPORTS",
      "CLUSTER KEYSLOT", "COMMAND", "COMMAND COUNT", "COMMAND LIST", "COMMAND GETKEYS", "CONFIG GET",
      "DEBUG", "RANDOMKEY", "READONLY", "READWRITE", "TIME", "TFUNCTION LOAD", "TFUNCTION DELETE",
      "TFUNCTION LIST", "TFCALL", "TFCALLASYNC", "GRAPH.CONFIG", "LATENCY HISTORY", "LATENCY LATEST",
      "LATENCY RESET", "MODULE LIST", "MODULE LOAD", "MODULE UNLOAD", "MODULE LOADEX"], .DEFAULT_NODE),
    (["FLUSHALL", "FLUSHDB", "FUNCTION DELETE", "FUNCTION FLUSH", "FUNCTION LIST", "FUNCTION LOAD",
      "FUNCTION RESTORE", "REDISGEARS_2.REFRESHCLUSTER", "SCAN", "SCRIPT EXISTS", "SCRIPT FLUSH",
      "SCRIPT LOAD"], .PRIMARIES),
    (["FUNCTION DUMP"], .RANDOM),
    (["CLUSTER COUNTKEYSINSLOT", "CLUSTER DELSLOTS", "CLUSTER DELSLOTSRANGE", "CLUSTER GETKEYSINSLOT",
      "CLUSTER SETSLOT"], .SLOT_ID)
  ]

/-- `SEARCH_COMMANDS[0]` -/
def SEARCH_COMMANDS : List String :=
  ["FT.CREATE", "FT.SEARCH", "FT.AGGREGATE", "FT.EXPLAIN", "FT.EXPLAINCLI", "FT,PROFILE",
   "FT.ALTER", "FT.DROPINDEX", "FT.ALIASADD", "FT.ALIASUPDATE", "FT.ALIASDEL", "FT.TAGVALS",
   "FT.SUGADD", "FT.SUGGET", "FT.SUGDEL", "FT.SUGLEN", "FT.SYNUPDATE", "FT.SYNDUMP",
   "FT.SPELLCHECK", "FT.DICTADD", "FT.DICTDEL", "FT.DICTDUMP", "FT.INFO", "FT._LIST",
   "FT.CONFIG", "FT.ADD", "FT.DEL", "FT.DROP", "FT.GET", "FT.MGET", "FT.SYNADD"]

def READ_COMMANDS : List String :=
  ["BITCOUNT", "BITPOS", "EVAL_RO", "EVALSHA_RO", "EXISTS", "GEODIST", "GEOHASH", "GEOPOS",
   "GEORADIUS", "GEORADIUSBYMEMBER", "GET", "GETBIT", "GETRANGE", "HEXISTS", "HGET", "HGETALL",
   "HKEYS", "HLEN", "HMGET", "HSTRLEN", "HVALS", "KEYS", "LINDEX", "LLEN", "LRANGE", "MGET",
   "PTTL", "RANDOMKEY", "SCARD", "SDIFF", "SINTER", "SISMEMBER", "SMEMBERS", "SRANDMEMBER",
   "STRLEN", "SUNION", "TTL", "ZCARD", "ZCOUNT", "ZRANGE", "ZSCORE"]

def upper (s : Chars) : Chars := s.map Char.toUpper

def lower (s : Chars) : Chars := s.map Char.toLower

/-- `command in names` -/
def among (names : List String) (command : Chars) : Bool := names.any fun n => n.toList == command

/-- `command_flags.get(command)` -/
def commandFlag (command : Chars) : Option NodeFlag :=
  (COMMAND_FLAGS.find? fun p => among p.1 command).map Prod.snd

/-! ### Arguments -/

inductive Arg where
  | str (s : Chars)
  | bytes (b : Bytes)
  | int (i : Int)
  deriving DecidableEq, Repr

namespace Arg

def encode : Arg → Bytes
  | str s => encodeText (String.ofList s)
  | bytes b => b
  | int i => decimal i

def hexDigits (b : UInt8) : Chars := [Nat.digitChar (b.toNat / 16), Nat.digitChar (b.toNat % 16)]

/-- A byte in `repr(b)`. -/
def reprByte (quote : Char) (b : UInt8) : Chars :=
  let c := Numeral.char b
  if c = quote ∨ b = 92 then [Char.ofNat 92, c]
  else if b = 9 then [Char.ofNat 92, 't']
  else if b = 10 then [Char.ofNat 92, 'n']
  else if b = 13 then [Char.ofNat 92, 'r']
  else if 32 ≤ b ∧ b < 127 then [c]
  else [Char.ofNat 92, 'x'] ++ hexDigits b

/-- `f"{arg}"` -/
def format : Arg → Chars
  | str s => s
  | int i => Numeral.intText i
  | bytes b =>
    let quote := if b.contains 39 && !b.contains 34 then Char.ofNat 34 else Char.ofNat 39
    'b' :: quote :: b.flatMap (reprByte quote) ++ [quote]

def strIfBytes : Arg → Arg
  | bytes b => str (decodeReplace b).toList
  | a => a

/-- `arg.lower()` -/
def lowered : Arg → Except Exc Arg
  | str s => .ok (str (lower s))
  | bytes b => .ok (bytes (b.map fun b => Numeral.byte (Numeral.char b).toLower))
  | int _ => .error { cls := .AttributeError, msg := "'int' object has no attribute 'lower'" }

/-- `arg.upper()`, of what `str_if_bytes` gives. -/
def uppered : Arg → Except Exc Chars
  | str s => .ok (upper s)
  | _ => .error { cls := .AttributeError, msg := "'int' object has no attribute 'upper'" }

/-- `int(arg)` -/
def toInt : Arg → Except Exc Int
  | str s => (Numeral.readInt s).elim (.error { cls := .ValueError }) .ok
  | bytes b => (Numeral.readInt (b.map Numeral.char)).elim (.error { cls := .ValueError }) .ok
  | int i => .ok i

end Arg

/-- `args[i:j]` -/
def sliceArgs (args : List Arg) (i j : Int) : List Arg :=
  (args.take (pyIndex args.length j)).drop (pyIndex args.length i)

/-- `args[pos]` -/
def argAt (args : List Arg) (pos : Int) : Except Exc Arg :=
  let i := if pos < 0 then args.length + pos else pos
  match (if i < 0 then none else args[i.toNat]?) with
  | some arg => .ok arg
  | none => .error { cls := .IndexError, msg := "list index out of range" }

/-- `range(start, stop, step)` -/
def pyRange (start stop step : Int) : Except Exc (List Int) :=
  if step = 0 then .error { cls := .ValueError, msg := "range() arg 3 must not be zero" }
  else
    let count :=
      if 0 < step then (stop - start + step - 1) / step else (start - stop - step - 1) / -step
    .ok ((List.range count.toNat).map fun k : Nat => start + k * step)

/-! ### The keys of a command -/

structure KeyPositions where
  first_key_pos : Int
  last_key_pos : Int
  step_count : Int
  deriving DecidableEq, Repr

/-- What `COMMAND` says of a command. -/
structure CommandInfo where
  name : Chars
  flags : List String
  positions : KeyPositions
  /-- `"subcommands"`, by their names, where the server sends them. -/
  subcommands : Option (List (Chars × KeyPositions))

/-- The commands parser, and the server that it asks. -/
structure CommandsParser where
  commands : Chars → Option CommandInfo
  /-- What the server says of its commands now. -/
  refreshed : Chars → Option CommandInfo
  /-- `COMMAND GETKEYS` -/
  getkeys : List Arg → Except Exc (List Arg)

def getPubsubKeys (args : List Arg) : Except Exc (Option (List Arg)) :=
  match args.map Arg.strIfBytes with
  | [] => .ok none
  | [_] => .ok none
  | command :: first :: rest => do
    let command ← command.uppered
    if among ["PUBSUB"] command then do
      let pubsub_type ← first.uppered
      if among ["CHANNELS", "NUMSUB", "SHARDCHANNELS", "SHARDNUMSUB"] pubsub_type then return some rest
      else return none
    else if among ["SUBSCRIBE", "PSUBSCRIBE", "UNSUBSCRIBE", "PUNSUBSCRIBE"] command then
      return some (first :: rest)
    else if among ["PUBLISH", "SPUBLISH"] command then return some [first]
    else return none

/-- `_get_moveable_keys`; the sync parser splits the command name. -/
def getMoveableKeys (asyncio : Bool) (p : CommandsParser) (args : List Arg) :
    Except Exc (Option (List Arg)) :=
  let pieces :=
    match asyncio, args with
    | false, .str s :: rest => (Splitting.words isSpaceChar s).map .str ++ rest
    | _, args => args
  match p.getkeys pieces with
  | .ok keys => .ok (some keys)
  | .error e =>
    if e.isinstance .ResponseError ∧ (e.msg.contains "Invalid arguments" ∨
        e.msg.contains "The command has no key arguments") then .ok none
    else .error e

/-- The positions of the keys; `none` for a command without keys. -/
def keyPositions (cmd_name : Chars) (command : CommandInfo) (args : List Arg) :
    Except Exc (Option KeyPositions) :=
  if command.positions = ⟨0, 0, 0⟩ then
    match command.subcommands with
    | none => .ok none
    | some subcommands => do
      let arg ← (← argAt args 1).lowered
      let subcmd_name := cmd_name ++ '|' :: arg.format
      return (subcommands.reverse.find? fun s => s.1 == subcmd_name).map Prod.snd
  else .ok (some command.positions)

/-- The keys at their positions. -/
def keysAt (positions : KeyPositions) (args : List Arg) : Except Exc (List Arg) := do
  let last_key_pos :=
    if positions.last_key_pos < 0 then (args.length : Int) - positions.last_key_pos.natAbs
    else positions.last_key_pos
  (← pyRange positions.first_key_pos (last_key_pos + 1) positions.step_count).mapM (argAt args)

/-- The end of `get_keys`, once the command is found. -/
def keysOf (asyncio : Bool) (p : CommandsParser) (cmd_name : Chars) (command : CommandInfo)
    (args : List Arg) : Except Exc (Option (List Arg)) :=
  if command.flags.contains "movablekeys" then getMoveableKeys asyncio p args
  else if command.flags.contains "pubsub" || command.name == "pubsub".toList then getPubsubKeys args
  else do
    match ← keyPositions cmd_name command args with
    | none => return none
    | some positions => return some (← keysAt positions args)

def getKeys (asyncio : Bool) (p : CommandsParser) (command : Chars) (args : List Arg) :
    Except Exc (Option (List Arg)) :=
  if args.isEmpty then .ok none
  else
    match p.commands (lower command) with
    | some info => keysOf asyncio p (lower command) info (.str command :: args)
    | none =>
      match Splitting.words isSpaceChar (lower command) with
      | [] => .error { cls := .IndexError, msg := "list index out of range" }
      | cmd_name :: subs =>
        match p.commands cmd_name with
        -- save the splitted command to args
        | some info => keysOf asyncio p cmd_name info ((cmd_name :: subs).map .str ++ args)
        | none =>
          match p.refreshed cmd_name with
          | some info => keysOf asyncio p cmd_name info (.str command :: args)
          | none => .error { cls := .RedisError }

/-! ### The slot of a command -/

/-- The outcomes there can be. -/
abbrev Outcomes (α : Type) := List (Except Exc α)

/-- `random.randrange(0, REDIS_CLUSTER_HASH_SLOTS)` -/
def randomSlot : Outcomes Arg := (List.range REDIS_CLUSTER_HASH_SLOTS).map fun slot : Nat => .ok (.int slot)

/-- The slot of all the keys. -/
def slotOfKeys (keys : List Arg) : Except Exc Arg :=
  match (keys.map fun key => keySlot key.encode).dedup with
  | [slot] => .ok (.int slot)
  | _ => .error { cls := .RedisClusterException }

/-- The keys of `EVAL` and `EVALSHA`: `args[3 : 3 + num_actual_keys]` after the command, and in
the asyncio client, which has the command apart, `args[2 : 2 + int(args[1])]`. -/
def evalKeys (asyncio : Bool) (command : Chars) (args : List Arg) : Except Exc (List Arg) :=
  match args with
  | _ :: numkeys :: _ => do
    let num_actual_keys ← numkeys.toInt
    if asyncio then return sliceArgs args 2 (2 + num_actual_keys)
    else return sliceArgs (.str command :: args) 3 (3 + num_actual_keys)
  | _ => .error { cls := .RedisClusterException }

/-- The slot by the keys, in `determine_slot` and `_determine_slot`. -/
def slotByKeys (asyncio : Bool) (p : CommandsParser) (command : Chars) (args : List Arg) : Outcomes Arg :=
  if among ["EVAL", "EVALSHA"] (upper command) then
    match evalKeys asyncio command args with
    | .error e => [.error e]
    | .ok [] => randomSlot
    | .ok keys => [slotOfKeys keys]
  else
    match getKeys asyncio p command args with
    | .error e => [.error e]
    | .ok keys =>
      match keys.getD [] with
      | [] =>
        if among ["FCALL", "FCALL_RO"] (upper command) then randomSlot
        else [.error { cls := .RedisClusterException }]
      | key :: keys => [slotOfKeys (key :: keys)]

/-- `determine_slot`, in the asyncio client `_determine_slot`. A slot id is handed on as it is,
and in the asyncio client as an `int`. -/
def determineSlot (asyncio : Bool) (p : CommandsParser) (command : Chars) (args : List Arg) : Outcomes Arg :=
  if commandFlag command = some .SLOT_ID then
    match args with
    | [] => [.error { cls := .IndexError }]
    | arg :: _ => [if asyncio then arg.toInt.map .int else .ok arg]
  else slotByKeys asyncio p command args

/-! ### The nodes of a command -/

/-- What a client knows of its cluster, and whether it reads from replicas. -/
structure Cluster (ν : Type) where
  default_node : ν
  primaries : List ν
  replicas : List ν
  nodes : List ν
  /-- The nodes of a slot, its primary first. -/
  slots_cache : Nat → Option (List ν)
  read_from_replicas : Bool

variable {ν : Type}

/-- `slots_cache.get(slot)`, whose keys are `int`s. -/
def Cluster.slotNodes (t : Cluster ν) : Arg → Option (List ν)
  | .int i => if i < 0 then none else t.slots_cache i.toNat
  | _ => none

/-- `get_node_from_slot`. The asyncio client does not catch the `KeyError` of a slot that the
cache has not. -/
def getNodeFromSlot (asyncio : Bool) (t : Cluster ν) (slot : Arg) (read_from_replicas : Bool) : Outcomes ν :=
  match t.slotNodes slot with
  | none => [.error { cls := if asyncio then .KeyError else .SlotNotCoveredError }]
  | some [] => [.error { cls := .SlotNotCoveredError }]
  | some (primary :: replicas) =>
    if read_from_replicas then (primary :: replicas).map .ok else [.ok primary]

/-- The node that holds the key's slot. -/
def nodeOfSlot (asyncio : Bool) (t : Cluster ν) (read : Bool) (slots : Outcomes Arg) : Outcomes (List ν) :=
  slots.flatMap fun slot =>
    match slot with
    | .error e => [.error e]
    | .ok slot =>
      (getNodeFromSlot asyncio t slot (t.read_from_replicas && read)).map fun node => node.map ([·])

/-- The nodes of a flag that names some. -/
def flaggedNodes (t : Cluster ν) : NodeFlag → Option (Outcomes (List ν))
  | .RANDOM => some (t.nodes.map fun node => .ok [node])
  | .PRIMARIES => some [.ok t.primaries]
  | .REPLICAS => some [.ok t.replicas]
  | .ALL_NODES => some [.ok t.nodes]
  | .DEFAULT_NODE => some [.ok [t.default_node]]
  | .SLOT_ID => none

/-- The name that the sync client looks up: with the first argument, if that is known. -/
def commandName (command : Chars) (args : List Arg) : Chars :=
  match args with
  | [] => upper command
  | arg :: _ =>
    let joined := upper (command ++ ' ' :: arg.format)
    if (commandFlag joined).isSome then joined else upper command

/-- `_determine_nodes` of the sync client. -/
def syncDetermineNodes (t : Cluster ν) (p : CommandsParser) (command : Chars) (args : List Arg) :
    Outcomes (List ν) :=
  let name := commandName command args
  match (commandFlag name).bind (flaggedNodes t) with
  | some nodes => nodes
  | none =>
    if among SEARCH_COMMANDS name then [.ok [t.default_node]]
    else nodeOfSlot false t (among READ_COMMANDS name) (determineSlot false p command args)

/-- `_determine_nodes` of the asyncio client. -/
def asyncDetermineNodes (t : Cluster ν) (p : CommandsParser) (command : Chars) (args : List Arg) :
    Outcomes (List ν) :=
  match (commandFlag command).bind (flaggedNodes t) with
  | some nodes => nodes
  | none => nodeOfSlot true t (among READ_COMMANDS command) (determineSlot true p command args)

def determineNodes (asyncio : Bool) (t : Cluster ν) (p : CommandsParser) (command : Chars)
    (args : List Arg) : Outcomes (List ν) :=
  if asyncio then asyncDetermineNodes t p command args else syncDetermineNodes t p command args

end CommandRouting

end RedisPy
