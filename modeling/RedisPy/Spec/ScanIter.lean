import RedisPy.Library.Keyed
import RedisPy.Spec.Exceptions

/-! `scan_iter` over a cluster (`redis/commands/cluster.py`), with `scan` and
`parse_scan_result` (`redis/cluster.py`). The asynchronous one does the same steps; it asks
the nodes of its first query at once, which no node can tell. -/

namespace RedisPy

/-- A reply to `SCAN`: the cursor, after `int()`, and the keys of the page. -/
structure ScanPage (α : Type) where
  cursor : Int
  data : List α

/-- What a call has done so far: the nodes it has asked, each with the cursor sent to it,
and the keys it has yielded. -/
structure ScanTrace (κ α : Type) where
  asked : List (κ × Int) := []
  yielded : List α := []

namespace ScanIter

variable {κ α : Type} [DecidableEq κ]

/-- How often a node has been asked. -/
def count (name : κ) (s : ScanTrace κ α) : Nat := (s.asked.filter fun p => p.1 = name).length

section

-- The answers of a node, one after the other, and the client's view of the nodes:
-- `get_node(node_name=...)` and the nodes of a `scan` without target nodes.
variable (answer : κ → Nat → ScanPage α) (getNode : κ → Option κ) (default_nodes : List κ)

/-- `SCAN cursor` on each of the nodes; the replies by the names of the nodes. -/
def askAll (cursor : Int) (res : Dict κ (ScanPage α)) (s : ScanTrace κ α) :
    List κ → Dict κ (ScanPage α) × ScanTrace κ α
  | [] => (res, s)
  | name :: nodes =>
    askAll cursor (res.put (name, answer name (count name s)))
      { s with asked := s.asked ++ [(name, cursor)] } nodes

/-- The loop of `parse_scan_result`. -/
def parseScanResult (cursors : Dict κ Int) (ret : List α) :
    List (κ × ScanPage α) → Dict κ Int × List α
  | [] => (cursors, ret)
  | (node_name, response) :: items =>
    parseScanResult (cursors.put (node_name, response.cursor)) (ret ++ response.data) items

def scan (cursor : Int) (target_nodes : List κ) (s : ScanTrace κ α) :
    (Dict κ Int × List α) × ScanTrace κ α :=
  let (res, s) := askAll answer cursor ∅ s target_nodes
  (parseScanResult ∅ [] res.items, s)

/-- `yield from data` -/
def yieldFrom (data : List α) (s : ScanTrace κ α) : ScanTrace κ α :=
  { s with yielded := s.yielded ++ data }

/-- The `for` loop: the cursors, each replaced by the one its node has returned. -/
def forLoop (s : ScanTrace κ α) : List (κ × Int) → Except Exc (List (κ × Int) × ScanTrace κ α)
  | [] => .ok ([], s)
  | (name, cursor) :: items =>
    let target_nodes := match getNode name with
      | some node => [node]
      | none => default_nodes
    let ((cur, data), s) := scan answer cursor target_nodes s
    match cur.get? name with
    | none => .error { cls := .KeyError }
    | some (_, next) => do
      let (items', s) ← forLoop (yieldFrom data s) items
      pure ((name, next) :: items', s)

/-- `{name: cursor for name, cursor in cursors.items() if cursor != 0}` -/
def unfinished (cursors : List (κ × Int)) : List (κ × Int) := cursors.filter fun p => p.2 ≠ 0

/-- At most so many rounds of the `while` loop, and the cursors it has then. -/
def whileLoop (cursors : List (κ × Int)) (s : ScanTrace κ α) :
    Nat → Except Exc (List (κ × Int) × ScanTrace κ α)
  | 0 => .ok (cursors, s)
  | rounds + 1 =>
    if cursors.isEmpty then .ok (cursors, s)
    else do
      let (next, s) ← forLoop answer getNode default_nodes s cursors
      whileLoop (unfinished next) s rounds

/-- `scan_iter`, up to so many rounds of its loop. It has stopped when no cursor is left. -/
def scanIter (target_nodes : List κ) (rounds : Nat) :
    Except Exc (List (κ × Int) × ScanTrace κ α) :=
  let ((cursors, data), s) := scan answer 0 target_nodes {}
  whileLoop answer getNode default_nodes (unfinished cursors.items) (yieldFrom data s) rounds

end

/-- A node is asked for the `i`-th time: no cursor it returned before was 0. -/
def Asks (answer : κ → Nat → ScanPage α) (name : κ) (i : Nat) : Prop :=
  ∀ j < i, (answer name j).cursor ≠ 0

instance (answer : κ → Nat → ScanPage α) (name : κ) (i : Nat) : Decidable (Asks answer name i) :=
  inferInstanceAs (Decidable (∀ j < i, (answer name j).cursor ≠ 0))

/-- The cursor a node is due to be asked with: the one it returned last. -/
def cursorDue (answer : κ → Nat → ScanPage α) (name : κ) : Nat → Int
  | 0 => 0
  | i + 1 => (answer name i).cursor

/-- The requests due to a node among its first `n`. -/
def due (answer : κ → Nat → ScanPage α) (name : κ) (n : Nat) : List Nat :=
  (List.range n).filter fun i => Asks answer name i

end ScanIter

end RedisPy
