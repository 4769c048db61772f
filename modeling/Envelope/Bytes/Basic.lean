set_option autoImplicit false

namespace Envelope

abbrev Bytes := List UInt8

abbrev Sized (n : Nat) := { bytes : Bytes // bytes.length = n }

namespace Sized

def ofBytes? (n : Nat) (bytes : Bytes) : Option (Sized n) :=
  if h : bytes.length = n then some ⟨bytes, h⟩ else none

theorem of_bytes?_eq_some_iff (n : Nat) (bytes : Bytes) (sized : Sized n) :
    ofBytes? n bytes = some sized ↔ sized.val = bytes := by
  unfold ofBytes?
  split
  · rw [Option.some.injEq]
    exact ⟨fun eq => eq ▸ rfl, fun eq => Subtype.ext eq.symm⟩
  · rename_i wrong
    simp only [reduceCtorEq, false_iff]
    exact fun eq => wrong (eq ▸ sized.property)

theorem of_bytes?_val (n : Nat) (sized : Sized n) : ofBytes? n sized.val = some sized :=
  (of_bytes?_eq_some_iff n sized.val sized).mpr rfl

theorem of_bytes?_eq_none_iff (n : Nat) (bytes : Bytes) :
    ofBytes? n bytes = none ↔ bytes.length ≠ n := by
  unfold ofBytes?
  split <;> simp_all

def zero (n : Nat) : Sized n := ⟨List.replicate n 0, List.length_replicate⟩

end Sized

end Envelope
