import RedisPy.Spec.ClientInfo

/-! The parser of `CLUSTER NODES` and `CLUSTER REPLICAS` (`redis/_parsers/helpers.py`):
`_parse_node_line`, `_parse_slots` and `parse_cluster_nodes`. -/

namespace RedisPy

/-- The state of an entry of `migrations`. -/
inductive MigrationState where
  | migrating | importing
  deriving DecidableEq, Repr

/-- An entry of `migrations`. -/
structure Migration where
  slot : Chars
  node_id : Chars
  state : MigrationState
  deriving DecidableEq, Repr

structure NodeDict where
  node_id : Chars
  hostname : Chars
  flags : Chars
  master_id : Chars
  last_ping_sent : Chars
  last_pong_rcvd : Chars
  epoch : Chars
  slots : List (List Chars)
  migrations : List Migration
  connected : Bool
  deriving DecidableEq, Repr

def unpackError {α : Type} : Except Exc α :=
  .error { cls := .ValueError, msg := "not enough values to unpack" }

/-- `slot_id, node_id = s_range[1:-1].split(arrow, 1)` -/
def parseMigration (arrow : Chars) (state : MigrationState) (s_range : Chars) :
    Except Exc Migration :=
  match Splitting.cutAt arrow (s_range.drop 1).dropLast with
  | some (slot_id, node_id) => .ok ⟨slot_id, node_id, state⟩
  | none => unpackError

def migratingArrow : Chars := ['-', '>', '-']
def importingArrow : Chars := ['-', '<', '-']

/-- The loop of `_parse_slots`, after what it has read. -/
def parseSlotsFrom (slots : List (List Chars)) (migrations : List Migration) :
    List Chars → Except Exc (List (List Chars) × List Migration)
  | [] => .ok (slots, migrations)
  | s_range :: slot_ranges =>
    if (Splitting.cutAt migratingArrow s_range).isSome then do
      let entry ← parseMigration migratingArrow .migrating s_range
      parseSlotsFrom slots (migrations ++ [entry]) slot_ranges
    else if (Splitting.cutAt importingArrow s_range).isSome then do
      let entry ← parseMigration importingArrow .importing s_range
      parseSlotsFrom slots (migrations ++ [entry]) slot_ranges
    else parseSlotsFrom (slots ++ [s_range.splitOn '-']) migrations slot_ranges

def parseSlots (slot_ranges : List Chars) : Except Exc (List (List Chars) × List Migration) :=
  parseSlotsFrom [] [] slot_ranges

/-- `addr.split("@")[1].split(",")[1] if "@" in addr and "," in addr else ""` -/
def parseHostname (addr : Chars) : Except Exc Chars :=
  if '@' ∈ addr ∧ ',' ∈ addr then
    match (((addr.splitOn '@').getD 1 []).splitOn ',')[1]? with
    | some hostname => .ok hostname
    | none => .error { cls := .IndexError, msg := "list index out of range" }
  else .ok []

def parseNodeLine (line : Chars) : Except Exc (Chars × NodeDict) :=
  let line_items := line.splitOn ' '
  match line_items with
  | node_id :: addr :: flags :: master_id :: ping :: pong :: epoch :: connected :: rest => do
    let ip := (addr.splitOn '@').headD []
    let hostname ← parseHostname addr
    let (slots, migrations) ← if 9 ≤ line_items.length then parseSlots rest else .ok ([], [])
    .ok (ip,
      { node_id
        hostname
        flags
        master_id
        last_ping_sent := ping
        last_pong_rcvd := pong
        epoch
        slots
        migrations
        connected := connected = "connected".toList })
  | _ => unpackError

/-- The lines of bytes, after the one that is being read. -/
def byteLinesFrom (line : Bytes) : Bytes → List Bytes
  | [] => if line.isEmpty then [] else [line]
  | 13 :: 10 :: bs => line :: byteLinesFrom [] bs
  | b :: bs =>
    if b = 10 ∨ b = 13 then line :: byteLinesFrom [] bs else byteLinesFrom (line ++ [b]) bs

/-- `b.splitlines()` -/
def splitByteLines (b : Bytes) : List Bytes := byteLinesFrom [] b

/-- What the two commands answer: one text, or a list of lines. -/
inductive NodesResponse where
  | whole (text : ClientText)
  | lines (nodes : List ClientText)
  deriving DecidableEq, Repr

/-- The nodes that the loop goes through. -/
def NodesResponse.nodes : NodesResponse → List ClientText
  | whole (.str text) => (splitLines text).map .str
  | whole (.bytes b) => (splitByteLines b).map .bytes
  | lines nodes => nodes

def parseClusterNodes (response : NodesResponse) : Except Exc (Dict Chars NodeDict) := do
  let entries ← response.nodes.mapM fun node => parseNodeLine (strIfBytes node)
  .ok (entries.foldl Keyed.put ∅)

end RedisPy
