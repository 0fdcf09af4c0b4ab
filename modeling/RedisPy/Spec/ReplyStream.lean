import RedisPy.Spec.AsyncParsers

/-! Streams of replies as tokens that stand on the wire. The sync parsers are the readers of
the asyncio ones, on a `SocketBuffer`. -/

namespace RedisPy

open TokenReader Raising

/-- The bytes of a token. -/
def wire : Token Bytes → Bytes
  | .line text => text ++ CRLF
  | .blob _ payload => payload ++ CRLF

def wires (ts : List (Token Bytes)) : Bytes := ts.flatMap wire

/-- How many bytes a token takes. -/
def size (t : Token Bytes) : Nat := (wire t).length

/-- A line has no line feed in it, and a payload is as long as its header says. -/
def wellFormed : Token Bytes → Prop
  | .line text => LF ∉ text
  | .blob n payload => n = payload.length

instance : DecidablePred wellFormed := fun t =>
  match t with
  | .line text => inferInstanceAs (Decidable (LF ∉ text))
  | .blob n payload => inferInstanceAs (Decidable (n = payload.length))

@[simp] theorem wires_nil : wires [] = [] := rfl

@[simp] theorem wires_cons (t : Token Bytes) (ts : List (Token Bytes)) :
    wires (t :: ts) = wire t ++ wires ts := rfl

@[simp] theorem wires_append (ts us : List (Token Bytes)) : wires (ts ++ us) = wires ts ++ wires us :=
  List.flatMap_append

theorem length_wires (ts : List (Token Bytes)) : (wires ts).length = span size ts := by
  induction ts with
  | nil => rfl
  | cons t ts ih => rw [wires_cons, List.length_append, span_cons, ih, size]

theorem wire_eq (t : Token Bytes) : wire t = t.text ++ CRLF := by cases t <;> rfl

theorem size_eq (t : Token Bytes) : size t = t.text.length + 2 := by
  rw [size, wire_eq, List.length_append]
  rfl

/-- Each token takes some bytes. -/
theorem length_le_span (ts : List (Token Bytes)) : ts.length ≤ span size ts := by
  induction ts with
  | nil => exact Nat.le_refl 0
  | cons t ts ih =>
    rw [List.length_cons, span_cons, size_eq]
    omega

theorem eq_nil_of_span {ts : List (Token Bytes)} (h : span size ts = 0) : ts = [] :=
  List.length_eq_zero_iff.mp (Nat.le_zero.mp (h ▸ length_le_span ts))

/-- `SocketBuffer` as a source of tokens. -/
def SocketBuffer.source : Source Exc Bytes Empty PyVal SocketBuffer where
  line := SocketBuffer.readline
  blob := SocketBuffer.read
  push := Empty.elim
  clear := pure ()
  exhausted := { cls := .RecursionError }

end RedisPy
