import Envelope.Bytes.Basic

set_option autoImplicit false

namespace Envelope.Utf8

def encode (text : String) : Bytes :=
  text.toByteArray.data.toList

-- Refuses overlong forms, surrogates and everything else that is not well-formed UTF-8.
def decode? (bytes : Bytes) : Option String :=
  String.fromUTF8? ⟨bytes.toArray⟩

theorem decode?_encode (text : String) : decode? (encode text) = some text := by
  have valid : text.toByteArray.IsValidUTF8 := text.isValidUTF8
  simp [decode?, encode, String.fromUTF8?, String.fromUTF8, valid]

theorem eq_encode_of_decode? (bytes : Bytes) (text : String) (h : decode? bytes = some text) :
    bytes = encode text := by
  unfold decode? String.fromUTF8? at h
  split at h
  · cases h
    simp [encode, String.fromUTF8]
  · cases h

theorem decode?_eq_some_iff (bytes : Bytes) (text : String) :
    decode? bytes = some text ↔ bytes = encode text :=
  ⟨eq_encode_of_decode? bytes text, fun h => h ▸ decode?_encode text⟩

theorem encode_injective (a b : String) (h : encode a = encode b) : a = b := by
  have eq := congrArg decode? h
  simpa only [decode?_encode, Option.some.injEq] using eq

theorem encode_append (a b : String) : encode (a ++ b) = encode a ++ encode b := by
  simp [encode]

end Envelope.Utf8
