import RedisPy.Library.Keyed
import RedisPy.Spec.Python
import RedisPy.Spec.Text
import RedisPy.Spec.NodesManager

/-! The multi-key commands of a cluster (`ClusterMultiKeyCommands` of
`redis/commands/cluster.py`) with `key_slot` (`redis/crc.py`), and the store they work on.
Every slot is covered by a node that has its keys, be it the primary or a replica. -/

namespace RedisPy

/-- `crc_hqx` of one more byte: bit by bit, with the polynomial `0x1021`. -/
def crcByte (crc : UInt16) (b : UInt8) : UInt16 :=
  let shift (crc : UInt16) (_ : Nat) : UInt16 :=
    if crc &&& 0x8000 != 0 then (crc <<< 1) ^^^ 0x1021 else crc <<< 1
  (List.range 8).foldl shift (crc ^^^ (b.toUInt16 <<< 8))

def crcHqx (data : Bytes) (crc : UInt16) : UInt16 := data.foldl crcByte crc

/-- The part of a key between the first `{` and the first `}` after it, if there is something
between them; else the key. -/
def hashTag (key : Bytes) : Bytes :=
  match key.findIdx? (· = ascii '{') with
  | none => key
  | some start =>
    let rest := key.drop (start + 1)
    match rest.findIdx? (· = ascii '}') with
    | none => key
    | some length => if length = 0 then key else rest.take length

def keySlot (key : Bytes) : Nat := (crcHqx (hashTag key) 0).toNat % REDIS_CLUSTER_HASH_SLOTS

/-- `EncodableT`: a key or a value. -/
inductive EncodableT where
  | str (s : String)
  | bytes (b : Bytes)
  | int (i : Int)
  deriving DecidableEq, Repr

def EncodableT.encode : EncodableT → Bytes
  | str s => encodeText s
  | bytes b => b
  | int i => decimal i

namespace MultiKey

/-- What a key holds on the server. -/
inductive Entry where
  | string (v : Bytes)
  | other
  deriving DecidableEq

abbrev Store := Bytes → Option Entry

inductive Command where
  | MGET | MSET | EXISTS | DEL | UNLINK | TOUCH
  deriving DecidableEq, Repr

/-- What a command says of one of its keys. -/
inductive Answer where
  | value (v : Option Bytes)
  | stored
  | counted (n : Nat)
  deriving DecidableEq

inductive Reply where
  | values (vs : List (Option Bytes))
  | ok
  | integer (n : Nat)
  deriving DecidableEq

/-- The keys of a command, each with the value that is to be stored. -/
def Command.operands (c : Command) : List Bytes → List (Bytes × Bytes)
  | [] => []
  | key :: args =>
    match c, args with
    | .MSET, value :: args => (key, value) :: Command.operands c args
    | .MSET, [] => []
    | _, args => (key, []) :: Command.operands c args

/-- A command on one key: its answer, and what the key holds afterwards. -/
def Command.step (c : Command) (e : Option Entry) (value : Bytes) : Answer × Option Entry :=
  match c, e with
  | .MGET, some (.string v) => (.value (some v), e)
  | .MGET, _ => (.value none, e)
  | .MSET, _ => (.stored, some (.string value))
  | .EXISTS, _ | .TOUCH, _ => (.counted e.isSome.toNat, e)
  | .DEL, _ | .UNLINK, _ => (.counted e.isSome.toNat, none)

/-- A command on its keys, one after the other. -/
def Command.runEach (c : Command) (store : Store) : List (Bytes × Bytes) → List Answer × Store
  | [] => ([], store)
  | (key, value) :: operands =>
    let (answer, e) := c.step (store key) value
    let (answers, store) := c.runEach (Function.update store key e) operands
    (answer :: answers, store)

def Answer.toValue : Answer → Option Bytes
  | value v => v
  | _ => none

def Answer.toCount : Answer → Nat
  | counted n => n
  | _ => 0

/-- The reply to a command. -/
def Command.reply (c : Command) (answers : List Answer) : Reply :=
  match c with
  | .MGET => .values (answers.map Answer.toValue)
  | .MSET => .ok
  | _ => .integer (answers.map Answer.toCount).sum

/-- A command on one store. -/
def Command.run (c : Command) (store : Store) (args : List Bytes) : Reply × Store :=
  let (answers, store) := c.runEach store (c.operands args)
  (c.reply answers, store)

/-- A cluster: what each slot holds. -/
abbrev Cluster := Nat → Store

/-- One store with all the slots in it. -/
def Cluster.union (cluster : Cluster) : Store := fun key => cluster (keySlot key) key

/-- A command sent to the node of a slot, which refuses keys of other slots. -/
def executeCommand (c : Command) (cluster : Cluster) (slot : Nat) (args : List EncodableT) :
    Except Exc Reply × Cluster :=
  let args := args.map EncodableT.encode
  if (c.operands args).all fun operand => keySlot operand.1 = slot then
    let (reply, store) := c.run (cluster slot) args
    (.ok reply, Function.update cluster slot store)
  else (.error { cls := .ClusterCrossSlotError }, cluster)

/-- `slots_to_args.setdefault(slot, []).extend(args)` -/
def addToSlot (slots_to_args : Dict Nat (List EncodableT)) (slot : Nat) (args : List EncodableT) :
    Dict Nat (List EncodableT) :=
  slots_to_args.put (slot, ((slots_to_args.get? slot).map Prod.snd).getD [] ++ args)

def partitionKeysBySlot (keys : List EncodableT) : Dict Nat (List EncodableT) :=
  keys.foldl (fun d key => addToSlot d (keySlot key.encode) [key]) ∅

def partitionPairsBySlot (mapping : List (EncodableT × EncodableT)) : Dict Nat (List EncodableT) :=
  mapping.foldl (fun d pair => addToSlot d (keySlot pair.1.encode) [pair.1, pair.2]) ∅

/-- The commands of the pipeline reach their nodes in some order; the replies by slot. -/
def executeEach (c : Command) (cluster : Cluster) :
    List (Nat × List EncodableT) → List (Nat × Except Exc Reply) × Cluster
  | [] => ([], cluster)
  | (slot, args) :: commands =>
    let (reply, cluster) := executeCommand c cluster slot args
    let (replies, cluster) := executeEach c cluster commands
    ((slot, reply) :: replies, cluster)

/-- `_execute_pipeline_by_slot`, when the commands are executed in the order `order`: the
replies in the order of the slots, or the first error. -/
def executePipelineBySlot (c : Command) (cluster : Cluster) (slots_to_args : Dict Nat (List EncodableT))
    (order : List (Nat × List EncodableT)) : Except Exc (List Reply) × Cluster :=
  let (replies, cluster) := executeEach c cluster order
  (slots_to_args.items.mapM fun item => (replies.lookup item.1).getD (.error { cls := .KeyError }),
    cluster)

/-- The items of `_reorder_keys_by_command`'s dictionary. -/
def resultItems (slots_to_args : Dict Nat (List EncodableT)) (responses : List Reply) :
    List (EncodableT × Option Bytes) :=
  (slots_to_args.items.zip responses).flatMap fun p =>
    match p.2 with
    | .values response => p.1.2.zip response
    | _ => []

def reorderKeysByCommand (keys : List EncodableT) (slots_to_args : Dict Nat (List EncodableT))
    (responses : List Reply) : Except Exc (List (Option Bytes)) :=
  let results : Dict EncodableT (Option Bytes) :=
    (resultItems slots_to_args responses).foldl Keyed.put ∅
  keys.mapM fun key =>
    match results.get? key with
    | some (_, v) => .ok v
    | none => .error { cls := .KeyError }

section

variable (cluster : Cluster) (order : List (Nat × List EncodableT))

def mgetNonatomic (keys : List EncodableT) : Except Exc (List (Option Bytes)) × Cluster :=
  let slots_to_keys := partitionKeysBySlot keys
  let (res, cluster) := executePipelineBySlot .MGET cluster slots_to_keys order
  (res >>= reorderKeysByCommand keys slots_to_keys, cluster)

def msetNonatomic (mapping : List (EncodableT × EncodableT)) : Except Exc (List Reply) × Cluster :=
  executePipelineBySlot .MSET cluster (partitionPairsBySlot mapping) order

def splitCommandAcrossSlots (c : Command) (keys : List EncodableT) : Except Exc Nat × Cluster :=
  let (res, cluster) := executePipelineBySlot c cluster (partitionKeysBySlot keys) order
  (res.map fun replies => (replies.map fun reply =>
    match reply with
    | .integer n => n
    | _ => 0).sum, cluster)

end

end MultiKey

example : keySlot [0x66, 0x6f, 0x6f] = 12182 := by decide +kernel

end RedisPy
