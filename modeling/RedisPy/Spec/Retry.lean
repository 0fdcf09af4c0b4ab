import RedisPy.Spec.Exceptions
import Mathlib

/-! `Retry.call_with_retry` (`redis/retry.py`; that of `redis/asyncio/retry.py` only awaits what
this one calls) and the classes of `redis/backoff.py`. A number is an `int`, which is exact, or
a `float`, whose operations do not raise: what raises is the conversion of an `int`. -/

namespace RedisPy

inductive PyNum (F : Type) where
  | int (i : Int)
  | float (x : F)
  deriving DecidableEq, Repr

/-- The operations of floats, rounded in any way. -/
structure FloatArith (F : Type) where
  ofInt : Int → F
  add : F → F → F
  sub : F → F → F
  mul : F → F → F
  div : F → F → F
  /-- `i / j`, rounded once -/
  divInt : Int → Int → F
  /-- `a < b`, which compares an `int` with a `float` exactly -/
  lt : PyNum F → PyNum F → Bool

/-- The least integer that rounds to `2 ^ n`, for numbers of which the greatest is
`2 ^ n - 2 ^ (k + 1)`. -/
@[irreducible] def roundsTo (n k : Nat) : Nat := 2 ^ n - 2 ^ k

/-- No `float` is at or above this, and no `int` that is converts to one. -/
def floatLimit : Nat := roundsTo 1024 970

/-- `float(i)` does not overflow. -/
def FitsFloat (i : Int) : Prop := i.natAbs < floatLimit

instance (i : Int) : Decidable (FitsFloat i) := inferInstanceAs (Decidable (_ < _))

/-- The number that it is, where floats are exact. -/
def PyNum.value : PyNum Rat → Rat
  | int i => i
  | float x => x

namespace PyNum

variable {F : Type} (A : FloatArith F)

/-- The float that an operand is converted to. -/
def toFloat : PyNum F → Except Exc F
  | int i =>
    if FitsFloat i then .ok (A.ofInt i)
    else .error { cls := .OverflowError, msg := "int too large to convert to float" }
  | float x => .ok x

/-- A binary operation: of two `int`s exactly, else of floats. -/
def arith (onInt : Int → Int → Int) (onFloat : F → F → F) : PyNum F → PyNum F → Except Exc (PyNum F)
  | int i, int j => .ok (int (onInt i j))
  | a, b => do
    let x ← a.toFloat A
    let y ← b.toFloat A
    return float (onFloat x y)

def add : PyNum F → PyNum F → Except Exc (PyNum F) := arith A (· + ·) A.add

def sub : PyNum F → PyNum F → Except Exc (PyNum F) := arith A (· - ·) A.sub

def mul : PyNum F → PyNum F → Except Exc (PyNum F) := arith A (· * ·) A.mul

/-- `a / 2` -/
def half : PyNum F → Except Exc (PyNum F)
  | int i =>
    if i.natAbs < 2 * floatLimit then .ok (float (A.divInt i 2))
    else .error { cls := .OverflowError, msg := "integer division result too large for a float" }
  | float x => .ok (float (A.div x (A.ofInt 2)))

/-- `min(a, b)`: the first one unless the other is less. -/
def min (a b : PyNum F) : PyNum F := if A.lt b a then b else a

def max (a b : PyNum F) : PyNum F := if A.lt a b then b else a

/-- `random.uniform(a, b)`, with what `random()` returns. -/
def uniform (a b : PyNum F) (random : F) : Except Exc (PyNum F) := do
  let width ← sub A b a
  let part ← mul A width (float random)
  add A a part

end PyNum

/-- The classes of `redis/backoff.py`; `NoBackoff` is `ConstantBackoff(0)`. -/
inductive Backoff (F : Type) where
  | ConstantBackoff (backoff : PyNum F)
  | ExponentialBackoff (cap base : PyNum F)
  | FullJitterBackoff (cap base : PyNum F)
  | EqualJitterBackoff (cap base : PyNum F)
  | DecorrelatedJitterBackoff (cap base previous_backoff : PyNum F)
  deriving DecidableEq, Repr

namespace Backoff

variable {F : Type} (A : FloatArith F)

def NoBackoff : Backoff F := ConstantBackoff (.int 0)

def reset : Backoff F → Backoff F
  | DecorrelatedJitterBackoff cap base _ => DecorrelatedJitterBackoff cap base (.int 0)
  | b => b

/-- `min(self._cap, self._base * 2**failures)` -/
def capped (cap base : PyNum F) (failures : Nat) : Except Exc (PyNum F) := do
  return PyNum.min A cap (← PyNum.mul A base (.int (2 ^ failures)))

/-- `compute`, and the backoff afterwards -/
def compute (b : Backoff F) (failures : Nat) (random : F) : Except Exc (PyNum F × Backoff F) :=
  match b with
  | ConstantBackoff backoff => .ok (backoff, b)
  | ExponentialBackoff cap base => do
    return (← capped A cap base failures, b)
  | FullJitterBackoff cap base => do
    return (← PyNum.uniform A (.int 0) (← capped A cap base failures) random, b)
  | EqualJitterBackoff cap base => do
    let temp ← PyNum.half A (← capped A cap base failures)
    return (← PyNum.add A temp (← PyNum.uniform A (.int 0) temp random), b)
  | DecorrelatedJitterBackoff cap base previous_backoff => do
    let max_backoff := PyNum.max A base (← PyNum.mul A previous_backoff (.int 3))
    let temp ← PyNum.uniform A base max_backoff random
    let previous_backoff := PyNum.min A cap temp
    return (previous_backoff, DecorrelatedJitterBackoff cap base previous_backoff)

end Backoff

structure Retry (F : Type) where
  _backoff : Backoff F
  _retries : Int
  _supported_errors : List ExcClass := [.ConnectionError, .TimeoutError, .SocketTimeout]

/-- What a call of `call_with_retry` came to: its result, how often it called `do`, and what it
called `fail` with. -/
structure RetryRun (α : Type) where
  result : Except Exc α
  calls : Nat
  failed : List Exc

/-- What goes on outside of the loop: the calls of `do`, of `fail` and of `sleep`, and the
numbers drawn, each in its order. -/
structure RetryWorld (F α : Type) where
  op : Nat → Except Exc α
  fail : Nat → Except Exc Unit := fun _ => .ok ()
  random : Nat → F
  sleep : Nat → PyNum F → Except Exc Unit := fun _ _ => .ok ()

namespace Retry

variable {F α : Type} (A : FloatArith F) (R : Retry F) (world : RetryWorld F α)

def supports (e : Exc) : Bool := e.isinstanceAny R._supported_errors

/-- What comes after `fail` and the check of the budget: `compute` and `sleep`. -/
def wait (b : Backoff F) (failures : Nat) : Except Exc (Backoff F) :=
  match b.compute A (failures + 1) (world.random failures) with
  | .error e => .error e
  | .ok (backoff, b) =>
    if A.lt (.int 0) backoff then
      match world.sleep failures backoff with
      | .error e => .error e
      | .ok () => .ok b
    else .ok b

/-- `while True`, for as many rounds as there is fuel; `failures` counts those that are over. -/
def loop (b : Backoff F) (failures : Nat) (failed : List Exc) : Nat → Option (RetryRun α)
  | 0 => none
  | fuel + 1 =>
    match world.op failures with
    | .ok a => some { result := .ok a, calls := failures + 1, failed := failed }
    | .error error =>
      if R.supports error then
        match world.fail failures with
        | .error e => some { result := .error e, calls := failures + 1, failed := failed ++ [error] }
        | .ok () =>
          if R._retries ≥ 0 ∧ (failures + 1 : Int) > R._retries then
            some { result := .error error, calls := failures + 1, failed := failed ++ [error] }
          else
            match wait A world b failures with
            | .error e => some { result := .error e, calls := failures + 1, failed := failed ++ [error] }
            | .ok b => loop b (failures + 1) (failed ++ [error]) fuel
      else some { result := .error error, calls := failures + 1, failed := failed }

def callWithRetry (fuel : Nat) : Option (RetryRun α) :=
  loop A R world R._backoff.reset 0 [] fuel

end Retry

end RedisPy
