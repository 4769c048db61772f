import Mathlib.Logic.Function.Iterate
import Envelope.Cipher.Gcm

set_option autoImplicit false

namespace Envelope

namespace Ghash

namespace Element

theorem high_add (x y : Element) : (x.add y).high = x.high ^^^ y.high := rfl

theorem low_add (x y : Element) : (x.add y).low = x.low ^^^ y.low := rfl

theorem add_comm (x y : Element) : x.add y = y.add x := by
  simp only [add, UInt64.xor_comm]

theorem add_assoc (x y z : Element) : (x.add y).add z = x.add (y.add z) := by
  simp only [add, UInt64.xor_assoc]

theorem add_self (x : Element) : x.add x = zero := by
  simp only [add, zero, UInt64.xor_self]

theorem zero_add (x : Element) : zero.add x = x := by
  simp only [add, zero, UInt64.zero_xor]

theorem add_left_comm (x y z : Element) : x.add (y.add z) = y.add (x.add z) := by
  rw [← add_assoc, add_comm x, add_assoc]

theorem add_add_add_comm (x y z w : Element) : (x.add y).add (z.add w) = (x.add z).add (y.add w) := by
  rw [add_assoc, add_left_comm y, ← add_assoc]

theorem add_right_inj (x y z : Element) : x.add y = x.add z ↔ y = z := by
  refine ⟨fun same => ?_, fun same => same ▸ rfl⟩
  have twice (w : Element) : x.add (x.add w) = w := by
    rw [← add_assoc, add_self, zero_add]
  rw [← twice y, same, twice]

theorem add_eq_add_iff (x y z w : Element) : x.add y = z.add w ↔ x.add z = y.add w := by
  have swapped : y.add (x.add y) = x ∧ y.add (z.add w) = z.add (y.add w) :=
    ⟨by rw [add_comm x, ← add_assoc, add_self, zero_add], add_left_comm ..⟩
  rw [← add_right_inj y, swapped.1, swapped.2, ← add_right_inj z, ← add_assoc z z, add_self, zero_add,
    add_comm z x]

theorem and_top_eq_zero_iff (word : UInt64) :
    word &&& 0x8000000000000000 = 0 ↔ word.toBitVec.getLsbD 63 = false := by
  have masked := BitVec.and_twoPow word.toBitVec 63
  cases top : word.toBitVec.getLsbD 63 with
  | false =>
    rw [top, if_neg Bool.false_ne_true] at masked
    exact iff_of_true (UInt64.toBitVec_inj.mp masked) rfl
  | true =>
    rw [top, if_pos rfl] at masked
    have alone : word &&& 0x8000000000000000 = 0x8000000000000000 := UInt64.toBitVec_inj.mp masked
    rw [alone]
    decide

theorem mul_word_fst (n : Nat) (word other : UInt64) (power sum rest : Element) :
    (mulWord n word power sum).1 = (mulWord n other power rest).1 := by
  induction n generalizing word other power sum rest with
  | zero => rfl
  | succ n ih => exact ih _ _ _ _ _

-- Multiplication is additive in the factor whose bits it goes through.
theorem mul_word_add (n : Nat) (word other : UInt64) (power sum rest : Element) :
    (mulWord n (word ^^^ other) power (sum.add rest)).2 =
      (mulWord n word power sum).2.add (mulWord n other power rest).2 := by
  induction n generalizing word other power sum rest with
  | zero => rfl
  | succ n ih =>
    simp only [mulWord, UInt64.shiftLeft_xor, and_top_eq_zero_iff, UInt64.toBitVec_xor,
      BitVec.getLsbD_xor, ← ih]
    congr 2
    cases word.toBitVec.getLsbD 63 <;> cases other.toBitVec.getLsbD 63 <;>
      simp only [Bool.xor_false, Bool.false_xor, Bool.xor_self, reduceCtorEq, if_true, if_false]
    · rw [add_assoc]
    · rw [add_assoc, add_comm rest, ← add_assoc]
    · rw [add_add_add_comm, add_self, add_comm _ zero, zero_add]

theorem mul_add (x y key : Element) : (x.add y).mul key = (x.mul key).add (y.mul key) := by
  have upper := mul_word_add 64 x.high y.high key zero zero
  rw [zero_add] at upper
  have power := mul_word_fst 64 (x.high ^^^ y.high) x.high key zero zero
  have otherPower := mul_word_fst 64 x.high y.high key zero zero
  simp only [mul, high_add, low_add, upper, power, ← otherPower]
  exact mul_word_add ..

theorem word_bytes_injective (w v : UInt64) (same : wordBytes w = wordBytes v) : w = v := by
  have numbers := congrArg (List.map UInt8.toNat) same
  simp only [wordBytes, List.map_cons, List.map_nil, UInt64.toNat_toUInt8, UInt64.toNat_shiftRight,
    UInt64.reduceToNat, Nat.reduceMod, Nat.shiftRight_eq_div_pow, Nat.reducePow, List.cons.injEq,
    and_true] at numbers
  have small := w.toNat_lt
  have smallToo := v.toNat_lt
  apply UInt64.toNat_inj.mp
  omega

theorem to_bytes_injective (x y : Element) (same : x.toBytes = y.toBytes) : x = y := by
  obtain ⟨high, low⟩ := List.append_inj same rfl
  obtain ⟨xHigh, xLow⟩ := x
  obtain ⟨yHigh, yLow⟩ := y
  rw [Element.mk.injEq]
  exact ⟨word_bytes_injective _ _ high, word_bytes_injective _ _ low⟩

end Element

theorem absorb_append (key sum : Element) (front back : List Element) :
    absorb key sum (front ++ back) = absorb key (absorb key sum front) back :=
  List.foldl_append

-- What a checksum has come to is multiplied by the key with every block that follows.
theorem absorb_add (key sum other : Element) (message : List Element) :
    absorb key (sum.add other) message =
      (absorb key sum message).add ((fun x => x.mul key)^[message.length] other) := by
  induction message generalizing sum other with
  | nil => rfl
  | cons block rest ih =>
    have step : ((sum.add other).add block).mul key = ((sum.add block).mul key).add (other.mul key) := by
      rw [Element.add_assoc, Element.add_comm other, ← Element.add_assoc, Element.mul_add]
    calc
      absorb key (sum.add other) (block :: rest)
        = absorb key (((sum.add block).mul key).add (other.mul key)) rest := congrArg (absorb key · rest) step
      _ = _ := ih ..

theorem iterate_mul_add (key x y : Element) (n : Nat) :
    (fun z => z.mul key)^[n] (x.add y) =
      ((fun z => z.mul key)^[n] x).add ((fun z => z.mul key)^[n] y) := by
  induction n generalizing x y with
  | zero => rfl
  | succ n ih => simp only [Function.iterate_succ_apply, Element.mul_add, ih]

theorem length_blocks (n : Nat) (bytes : Bytes) : (blocks n bytes).length = n := by
  induction n generalizing bytes with
  | zero => rfl
  | succ n ih => rw [blocks, List.length_cons, ih]

-- What associated data add to the checksum of a ciphertext of a given length.
def share (key : Element) (aad : Bytes) (length : Nat) : Element :=
  (((fun x => x.mul key)^[(length + 15) / 16] (absorb key Element.zero (blocksOf aad))).add
    (lengths aad.length length)).mul key

-- It is enough that what differs in the data comes to what differs in the lengths.
theorem share_eq_of_difference (key : Element) (aad other : Bytes) (length : Nat)
    (cancels : (fun x => x.mul key)^[(length + 15) / 16]
        ((absorb key Element.zero (blocksOf aad)).add (absorb key Element.zero (blocksOf other))) =
      (lengths aad.length length).add (lengths other.length length)) :
    share key aad length = share key other length := by
  rw [iterate_mul_add, Element.add_eq_add_iff] at cancels
  rw [share, share, cancels]

theorem checksum_eq (key : Element) (aad ciphertext : Bytes) :
    checksum key aad ciphertext =
      ((absorb key Element.zero (blocksOf ciphertext)).mul key).add
        (share key aad ciphertext.length) := by
  have count : (blocksOf ciphertext).length = (ciphertext.length + 15) / 16 := length_blocks ..
  rw [checksum, absorb_append, absorb_append, ← Element.zero_add (absorb key _ (blocksOf aad)),
    absorb_add, count, share, ← Element.mul_add, ← Element.add_assoc]
  rfl

theorem checksum_eq_iff (key : Element) (aad other ciphertext : Bytes) :
    checksum key aad ciphertext = checksum key other ciphertext ↔
      share key aad ciphertext.length = share key other ciphertext.length := by
  rw [checksum_eq, checksum_eq, Element.add_right_inj]

end Ghash

namespace Gcm

theorem tag_eq_iff (key : Key) (nonce : Nonce) (aad other masked : Bytes) :
    tag key nonce aad masked = tag key nonce other masked ↔
      Ghash.share (hashKey key) aad masked.length = Ghash.share (hashKey key) other masked.length := by
  rw [← Ghash.checksum_eq_iff]
  refine ⟨fun same => ?_, fun same => by rw [tag, tag, same]⟩
  have sums := Ghash.Element.to_bytes_injective _ _ same
  rwa [Ghash.Element.add_comm, Ghash.Element.add_comm (Ghash.checksum _ other _),
    Ghash.Element.add_right_inj] at sums

/-- What was sealed opens under other associated data exactly if these add the same to the checksum,
which does not depend on the nonce or on what was sealed, but for its length. -/
theorem opened?_sealed_iff (key : Key) (nonce : Nonce) (plaintext aad other : Bytes) :
    opened? key nonce (sealed key nonce plaintext aad) other = some plaintext ↔
      Openable plaintext other ∧
        Ghash.share (hashKey key) aad plaintext.length =
          Ghash.share (hashKey key) other plaintext.length := by
  rw [opened?_eq_some_iff, sealed, sealed, List.append_cancel_left_eq, tag_eq_iff, length_mask]

end Gcm

end Envelope
