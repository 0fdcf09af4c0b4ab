import RedisPy.Spec.Python

/-! Text and its UTF-8, `s.encode()` and `b.decode()` with `errors="strict"`. Text has no
lone surrogates here. -/

namespace RedisPy

/-- `s.encode()` -/
def encodeText (s : String) : Bytes := s.toByteArray.data.toList

/-- `b.decode()`, which is a `UnicodeDecodeError` where there is no text. -/
def decodeText (b : Bytes) : Option String := String.fromUTF8? ⟨b.toArray⟩

theorem decodeText_eq_some {b : Bytes} {s : String} : decodeText b = some s ↔ b = encodeText s := by
  unfold decodeText encodeText String.fromUTF8?
  constructor
  · intro h
    split at h
    · cases h
      rfl
    · cases h
  · rintro rfl
    have h : ByteArray.mk s.toByteArray.data.toList.toArray = s.toByteArray := by simp
    rw [h, dif_pos s.isValidUTF8]
    rfl

@[simp] theorem decodeText_encodeText (s : String) : decodeText (encodeText s) = some s :=
  decodeText_eq_some.mpr rfl

end RedisPy
