import RedisPy.Library.Forest
import RedisPy.Spec.ClientInfo

/-! `ExecutionPlan` (`redis/commands/graph/execution_plan.py`): the tree of the operations that
a plan lists, and its string. The operations are objects that the loop holds references to; a
reference is a number here, in the order in which they are made. -/

namespace RedisPy

namespace ExecutionPlan

structure ProfileStats where
  records_produced : Int
  execution_time : Chars
  deriving DecidableEq, Repr

/-- An `Operation` without its children. -/
structure Operation where
  name : Chars
  args : Option Chars
  profile_stats : Option ProfileStats
  deriving DecidableEq, Repr

def Operation.str (op : Operation) : Chars :=
  match op.args with
  | none => op.name
  | some args => op.name ++ " | ".toList ++ args

/-- `pat in text` -/
def occurs (pat text : Chars) : Bool := (Splitting.cutAt pat text).isSome

def recordsProduced : Chars := "Records produced".toList

/-- `_create_operation`. What the two regular expressions read of the statistics is `stats`. -/
def createOperation (stats : Chars → Except Exc ProfileStats) : List Chars → Except Exc Operation
  | [] => .error { cls := .IndexError, msg := "list index out of range" }
  | name :: args =>
    match args.getLast? with
    | some last =>
      if occurs recordsProduced last then do
        let profile_stats ← stats last
        .ok ⟨stripText name, args.dropLast.head?.map stripText, some profile_stats⟩
      else .ok ⟨stripText name, args.head?.map stripText, none⟩
    | none => .ok ⟨stripText name, none, none⟩

/-- `current_op.count("    ")` -/
def countIndent : Chars → Nat
  | [] => 0
  | ' ' :: ' ' :: ' ' :: ' ' :: cs => countIndent cs + 1
  | _ :: cs => countIndent cs

/-- The state of `_operation_tree`: the operations made so far, which all hang under the first,
and its variables. The top of the stack comes first. -/
structure Builder where
  operations : Forest (Nat × Operation)
  made : Nat
  level : Int
  stack : List Nat
  current : Option Nat

/-- "initial state" -/
def Builder.initial : Builder where
  operations := .nil
  made := 0
  level := 0
  stack := []
  current := none

namespace Builder

variable (s : Builder) (child : Operation)

/-- `parent.append_child(child)`, `current = child` -/
def appendChild (parent : Nat) : Builder :=
  { s with
    operations := s.operations.appendChild (fun op => op.1 == parent) (s.made, child)
    made := s.made + 1
    current := some s.made }

/-- The branch of `op_level == level`. -/
def sameLevel : Except Exc Builder :=
  match s.current with
  | none =>
    .ok { s with
      operations := .cons (s.made, child) .nil .nil
      made := s.made + 1
      current := some s.made }
  | some _ =>
    match s.stack with
    | [] => .error { cls := .IndexError, msg := "pop from empty list" }
    | parent :: stack => .ok { s.appendChild child parent with stack }

/-- The branch of `op_level == level + 1`. -/
def nextLevel : Except Exc Builder :=
  match s.current with
  | none =>
    .error { cls := .AttributeError, msg := "'NoneType' object has no attribute 'append_child'" }
  | some current =>
    .ok { s.appendChild child current with stack := current :: s.stack, level := s.level + 1 }

/-- `for _ in range(times): current = stack.pop()` -/
def pops : Nat → Builder → Except Exc Builder
  | 0, s => .ok s
  | times + 1, s =>
    match s.stack with
    | [] => .error { cls := .IndexError, msg := "pop from empty list" }
    | current :: stack => pops times { s with current := some current, stack }

/-- The branch of `op_level < level`. -/
def goBack (op_level : Nat) : Except Exc Builder := do
  let levels_back := s.level - op_level + 1
  let s ← pops levels_back.toNat s
  .ok { s with level := s.level - levels_back }

/-- The iterations for one line. After `goBack` the loop comes round with the same line, and
`op_level` is `level + 1`. -/
def visitLine (stats : Chars → Except Exc ProfileStats) (s : Builder) (current_op : Chars) :
    Except Exc Builder := do
  let op_level := countIndent current_op
  if op_level = s.level then
    let child ← createOperation stats (current_op.splitOn '|')
    s.sameLevel child
  else if op_level = s.level + 1 then
    let child ← createOperation stats (current_op.splitOn '|')
    s.nextLevel child
  else if op_level < s.level then
    let s ← s.goBack op_level
    let child ← createOperation stats (current_op.splitOn '|')
    s.nextLevel child
  else .error { cls := .Exception, msg := "corrupted plan" }

end Builder

/-- `stack[0]`: the operation at the bottom of the stack, with its children. -/
def Builder.result (s : Builder) : Except Exc (Operation × Forest Operation) :=
  match s.stack.getLast?.bind fun root => s.operations.find? fun op => op.1 == root with
  | some (root, children) => .ok (root.2, children.map Prod.snd)
  | none => .error { cls := .IndexError, msg := "list index out of range" }

def operationTree (stats : Chars → Except Exc ProfileStats) (plan : List Chars) :
    Except Exc (Operation × Forest Operation) := do
  let s ← plan.foldlM (Builder.visitLine stats) Builder.initial
  s.result

/-- What `GRAPH.EXPLAIN` answers. -/
inductive PlanReply where
  | strs (plan : List Chars)
  | bytes (plan : List Bytes)

/-- The lines that `__init__` keeps as `self.plan`. -/
def PlanReply.lines (decode : Bytes → Except Exc Chars) : PlanReply → Except Exc (List Chars)
  | strs [] => .error { cls := .IndexError, msg := "list index out of range" }
  | bytes [] => .error { cls := .IndexError, msg := "list index out of range" }
  | strs plan => .ok plan
  | bytes plan => plan.mapM decode

/-- An `ExecutionPlan`. -/
structure Plan where
  plan : List Chars
  structured_plan : Operation × Forest Operation

def init (decode : Bytes → Except Exc Chars) (stats : Chars → Except Exc ProfileStats)
    (plan : PlanReply) : Except Exc Plan := do
  let plan ← plan.lines decode
  let structured_plan ← operationTree stats plan
  .ok { plan, structured_plan }

/-- `aggraget_str` -/
def aggregate (str_children : List Chars) : Chars :=
  ['\n'].intercalate ((str_children.flatMap splitLines).map ("    ".toList ++ ·))

/-- `_operation_traverse` of an operation, from what it makes of the children. -/
def traverse (op : Operation) (children : List Chars) : Chars :=
  if children.length = 0 then op.str else op.str ++ '\n' :: aggregate children

/-- What `_operation_traverse` makes of each operation of a list. -/
def traverseAll : Forest Operation → List Chars
  | .nil => []
  | .cons op children next => traverse op (traverseAll children) :: traverseAll next

def Plan.str (self : Plan) : Chars :=
  traverse self.structured_plan.1 (traverseAll self.structured_plan.2)

end ExecutionPlan

end RedisPy
