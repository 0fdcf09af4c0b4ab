import RedisPy.Spec.Exceptions
import RedisPy.Library.Numeral

/-! The parts of the language that the modelled code computes with: byte strings,
the values a reply decodes to, dictionaries, `int()`, and decoding text with
`errors="replace"`. Integers are unbounded and nesting is as deep as the value:
the interpreter's own limits are not modelled. -/

namespace RedisPy

abbrev Bytes := List UInt8

/-- The byte of an ASCII character, `b"c"[0]`. -/
abbrev ascii (c : Char) : UInt8 := Numeral.byte c

def CR : UInt8 := 13
def LF : UInt8 := 10

/-- `SYM_CRLF` -/
def CRLF : Bytes := [CR, LF]

/-- A decoded reply. A `float` keeps what the interpreter's `float()` made of it. -/
inductive PyVal where
  | none
  | bool (b : Bool)
  | int (i : Int)
  | float (x : Rat)
  | bytes (b : Bytes)
  | str (s : String)
  | list (xs : List PyVal)
  | dict (items : List (PyVal × PyVal))
  | exc (e : Exc)
  deriving Repr, Inhabited

namespace PyVal

/-- `hash(v)` raises no `TypeError`. -/
def hashable : PyVal → Bool
  | list _ => false
  | dict _ => false
  | _ => true

/-- The number a value is, for `True == 1` and `1 == 1.0`. -/
def number : PyVal → Option Rat
  | bool b => some (if b then 1 else 0)
  | int i => some i
  | float x => some x
  | _ => Option.none

/-- `k == k'` for hashable values. Two exceptions are two objects, so they differ. -/
def keyEq (k k' : PyVal) : Bool :=
  match k, k' with
  | none, none => true
  | bytes a, bytes b => a == b
  | str a, str b => a == b
  | a, b =>
    match a.number, b.number with
    | some x, some y => x == y
    | _, _ => false

/-- `d[k] = v` on the items of a dictionary: an equal key keeps its place. -/
def setItem : List (PyVal × PyVal) → PyVal → PyVal → List (PyVal × PyVal)
  | [], k, v => [(k, v)]
  | (k', v') :: items, k, v =>
    if keyEq k' k then (k', v) :: items else (k', v') :: setItem items k v

/-- `bool(v)` -/
def truthy : PyVal → Bool
  | none => false
  | bool b => b
  | int i => i != 0
  | float x => x != 0
  | bytes b => !b.isEmpty
  | str s => !s.isEmpty
  | list xs => !xs.isEmpty
  | dict items => !items.isEmpty
  | exc _ => true

/-- `isinstance(v, Exception)` -/
def isException : PyVal → Bool
  | exc e => e.isinstance .Exception
  | _ => false

theorem keyEq_iff (a b : PyVal) :
    keyEq a b = true ↔ (a = none ∧ b = none) ∨ (∃ x, a = bytes x ∧ b = bytes x) ∨
      (∃ x, a = str x ∧ b = str x) ∨ ∃ x, a.number = some x ∧ b.number = some x := by
  cases a <;> cases b <;> simp [keyEq, number] <;> exact eq_comm

theorem keyEq_symm {a b : PyVal} (h : keyEq a b = true) : keyEq b a = true := by
  rw [keyEq_iff] at h ⊢
  rcases h with ⟨ha, hb⟩ | ⟨x, ha, hb⟩ | ⟨x, ha, hb⟩ | ⟨x, ha, hb⟩
  · exact .inl ⟨hb, ha⟩
  · exact .inr (.inl ⟨x, hb, ha⟩)
  · exact .inr (.inr (.inl ⟨x, hb, ha⟩))
  · exact .inr (.inr (.inr ⟨x, hb, ha⟩))

theorem keyEq_trans {a b c : PyVal} (hab : keyEq a b = true) (hbc : keyEq b c = true) :
    keyEq a c = true := by
  rw [keyEq_iff] at hab hbc ⊢
  rcases hab with ⟨rfl, rfl⟩ | ⟨x, rfl, rfl⟩ | ⟨x, rfl, rfl⟩ | ⟨x, ha, hb⟩
  · simpa [number] using hbc
  · simpa [number] using hbc
  · simpa [number] using hbc
  · rcases hbc with ⟨rfl, -⟩ | ⟨y, rfl, -⟩ | ⟨y, rfl, -⟩ | ⟨y, hb', hc⟩
    · cases hb
    · cases hb
    · cases hb
    · rw [hb, Option.some_inj] at hb'
      exact .inr (.inr (.inr ⟨x, ha, hb' ▸ hc⟩))

end PyVal

/-- `int(b)` on a byte string. -/
def int (b : Bytes) : Except Exc Int :=
  match Numeral.readInt (b.map Numeral.char) with
  | some i => .ok i
  | none => .error { cls := .ValueError, msg := "invalid literal for int() with base 10" }

/-- `str(i).encode()` -/
def decimal (i : Int) : Bytes := (Numeral.intText i).map Numeral.byte

theorem intText_ascii (i : Int) : ∀ c ∈ Numeral.intText i, c = '-' ∨ c.isDigit := by
  intro c hc
  cases i with
  | ofNat n => exact .inr (Numeral.natText_isDigit hc)
  | negSucc n =>
    rcases List.mem_cons.mp hc with rfl | hc
    · exact .inl rfl
    · exact .inr (Numeral.natText_isDigit hc)

theorem toNat_lt_of_numeral {c : Char} (h : c = '-' ∨ c.isDigit) : c.toNat < 58 := by
  rcases h with rfl | h
  · decide
  · exact Nat.lt_succ_of_le (Char.isDigit_iff_toNat.mp h).2

@[simp] theorem int_decimal (i : Int) : int (decimal i) = .ok i := by
  have hmap : (decimal i).map Numeral.char = Numeral.intText i := by
    rw [decimal, List.map_map]
    refine (List.map_congr_left fun c hc => ?_).trans (List.map_id _)
    have := toNat_lt_of_numeral (intText_ascii i c hc)
    exact Numeral.char_byte c (by omega)
  rw [int, hmap, Numeral.readInt_intText]

/-- A numeral has no line feed in it. -/
theorem LF_not_mem_decimal (i : Int) : LF ∉ decimal i := by
  intro h
  obtain ⟨c, hc, hb⟩ := List.mem_map.mp h
  have hlow : 45 ≤ c.toNat := by
    rcases intText_ascii i c hc with rfl | hd
    · decide
    · have := (Char.isDigit_iff_toNat.mp hd).1
      simp only [show '0'.toNat = 48 from rfl] at this
      omega
  have hlt := toNat_lt_of_numeral (intText_ascii i c hc)
  have hn := congrArg UInt8.toNat hb
  rw [Numeral.byte, UInt8.toNat_ofNat_of_lt' (show c.toNat < 256 by omega)] at hn
  change c.toNat = 10 at hn
  omega

/-- Is `b` a continuation byte between `lo` and `hi`? -/
def continues (b : UInt8) (lo hi : Nat) : Bool := lo ≤ b.toNat ∧ b.toNat ≤ hi

/-- The range of the second byte after a lead byte, and how many bytes follow
the lead byte: none for a byte that starts no sequence. -/
def utf8Lead (b : UInt8) : Option (Nat × Nat × Nat) :=
  let n := b.toNat
  if 0xC2 ≤ n ∧ n ≤ 0xDF then some (0x80, 0xBF, 1)
  else if n = 0xE0 then some (0xA0, 0xBF, 2)
  else if n = 0xED then some (0x80, 0x9F, 2)
  else if 0xE1 ≤ n ∧ n ≤ 0xEF then some (0x80, 0xBF, 2)
  else if n = 0xF0 then some (0x90, 0xBF, 3)
  else if 0xF1 ≤ n ∧ n ≤ 0xF3 then some (0x80, 0xBF, 3)
  else if n = 0xF4 then some (0x80, 0x8F, 3)
  else none

/-- Decode with the state of the sequence being read: the code point so far, how
many bytes are still due, and the range of the next one. An ill-formed sequence
becomes one U+FFFD for its longest well-formed start. -/
def utf8DecodeFrom (pending : Option (Nat × Nat × Nat × Nat)) : Bytes → List Char
  | [] => if pending.isSome then ['\uFFFD'] else []
  | b :: bs =>
    let start : List Char :=
      if b.toNat < 0x80 then Char.ofNat b.toNat :: utf8DecodeFrom none bs
      else match utf8Lead b with
        | some (lo, hi, due) =>
          let bits := b.toNat % (if due = 1 then 32 else if due = 2 then 16 else 8)
          utf8DecodeFrom (some (bits, due, lo, hi)) bs
        | none => '\uFFFD' :: utf8DecodeFrom none bs
    match pending with
    | none => start
    | some (point, due, lo, hi) =>
      if continues b lo hi then
        let point := point * 64 + b.toNat % 64
        if due ≤ 1 then Char.ofNat point :: utf8DecodeFrom none bs
        else utf8DecodeFrom (some (point, due - 1, 0x80, 0xBF)) bs
      else '\uFFFD' :: start

/-- `b.decode("utf-8", errors="replace")` -/
def decodeReplace (b : Bytes) : String := String.ofList (utf8DecodeFrom none b)

example : decodeReplace [0x45, 0xC3, 0xA9, 0xF0, 0x9F, 0x98, 0x80] = "Eé😀" := by decide
example : decodeReplace [0xE2, 0x28, 0xF0, 0x9F, 0x98, 0x41] = "\uFFFD(\uFFFDA" := by decide

end RedisPy
