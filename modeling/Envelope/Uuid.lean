import Envelope.Bytes.Hex

set_option autoImplicit false

namespace Envelope.Uuid

-- The sixteen bytes of the UUID that a draw makes: the last byte drawn comes first, and the bits of
-- version and variant are set.
def bytesOf (drawn : Sized 16) : Bytes :=
  drawn.val.reverse.mapIdx fun i byte =>
    if i = 6 then (byte &&& 0x0F) ||| 0x40
    else if i = 8 then (byte &&& 0x3F) ||| 0x80
    else byte

def text (drawn : Sized 16) : String :=
  let bytes := bytesOf drawn
  let hex := fun (start count : Nat) => Hex.encode ((bytes.drop start).take count)
  hex 0 4 ++ "-" ++ hex 4 2 ++ "-" ++ hex 6 2 ++ "-" ++ hex 8 2 ++ "-" ++ hex 10 6

example : text ⟨(List.range 16).map UInt8.ofNat, by decide⟩ = "0f0e0d0c-0b0a-4908-8706-050403020100" := by
  decide +kernel

end Envelope.Uuid
