import Mathlib.Logic.Function.Basic

/-! A heap of mutable objects: two variables that hold one address share the
object, and a fresh address is shared with nothing. -/

universe u

abbrev Ref := Nat

structure Heap (α : Type u) where
  obj : Ref → α
  /-- Every address from here on is unused. -/
  next : Ref

namespace Heap

variable {α : Type u}

def read (h : Heap α) (r : Ref) : α := h.obj r

def write (h : Heap α) (r : Ref) (a : α) : Heap α := { h with obj := Function.update h.obj r a }

/-- A new object with the content `a`, and its address. -/
def alloc (h : Heap α) (a : α) : Ref × Heap α :=
  (h.next, { obj := Function.update h.obj h.next a, next := h.next + 1 })

@[simp] theorem read_write_self (h : Heap α) (r : Ref) (a : α) : (h.write r a).read r = a := by
  simp [read, write]

theorem read_write_ne (h : Heap α) {r r' : Ref} (a : α) (hr : r' ≠ r) :
    (h.write r a).read r' = h.read r' := by
  simp [read, write, hr]

@[simp] theorem next_write (h : Heap α) (r : Ref) (a : α) : (h.write r a).next = h.next := rfl

@[simp] theorem alloc_fst (h : Heap α) (a : α) : (h.alloc a).1 = h.next := rfl

@[simp] theorem next_alloc (h : Heap α) (a : α) : (h.alloc a).2.next = h.next + 1 := rfl

@[simp] theorem read_alloc_self (h : Heap α) (a : α) : (h.alloc a).2.read h.next = a := by
  simp [read, alloc]

theorem read_alloc_of_lt (h : Heap α) {r : Ref} (a : α) (hr : r < h.next) :
    (h.alloc a).2.read r = h.read r := by
  have : r ≠ h.next := Nat.ne_of_lt hr
  simp [read, alloc, this]

end Heap
