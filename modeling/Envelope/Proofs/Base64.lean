import Envelope.Bytes.Base64
import Envelope.Proofs.Text
import Mathlib.Data.Nat.Digits.Defs
import Mathlib.Tactic.Ring

set_option autoImplicit false

namespace Envelope

namespace Base64

def value (base : Nat) (digits : List Nat) : Nat :=
  Nat.ofDigits base digits.reverse

theorem value_cons (base digit : Nat) (digits : List Nat) :
    value base (digit :: digits) = digit * base ^ digits.length + value base digits := by
  rw [value, List.reverse_cons, Nat.ofDigits_append, Nat.ofDigits_singleton, List.length_reverse]
  exact (Nat.add_comm _ _).trans (congrArg (· + value base digits) (Nat.mul_comm _ _))

theorem value_nil (base : Nat) : value base [] = 0 := rfl

theorem value_lt (base : Nat) (large : 1 < base) (digits : List Nat)
    (small : ∀ d ∈ digits, d < base) : value base digits < base ^ digits.length := by
  have bound := Nat.ofDigits_lt_base_pow_length large
    fun d member => small d (List.mem_reverse.mp member)
  rwa [List.length_reverse] at bound

theorem value_injective (base : Nat) (large : 1 < base) (digits others : List Nat)
    (length : digits.length = others.length) (small : ∀ d ∈ digits, d < base)
    (smallToo : ∀ d ∈ others, d < base) (same : value base digits = value base others) :
    digits = others := by
  have reversed : digits.reverse = others.reverse := by
    refine Nat.ofDigits_inj_of_len_eq large ?_ ?_ ?_ same
    · rw [List.length_reverse, List.length_reverse, length]
    · exact fun d member => small d (List.mem_reverse.mp member)
    · exact fun d member => smallToo d (List.mem_reverse.mp member)
  exact List.reverse_inj.mp reversed

def numbers (bytes : Bytes) : List Nat :=
  bytes.map UInt8.toNat

-- Digits of the alphabet in groups of four, of which the last may end in one or two padding signs.
structure Padded (chars : List Char) (digits : List Nat) (pads : Nat) : Prop where
  chars : chars = digits.map digitChar ++ List.replicate pads '='
  small : ∀ d ∈ digits, d < 64
  few : pads < 3
  groups : 4 ∣ digits.length + pads

-- Four digits are of as many bits as three bytes. With padding, the digits hold two zero bits more than
-- the bytes for each sign of it.
structure Spells (digits : List Nat) (pads : Nat) (bytes : Bytes) : Prop where
  length : 4 * (bytes.length + pads) = 3 * (digits.length + pads)
  value : value 64 digits = value 256 (numbers bytes) * 4 ^ pads

theorem digit_char_ne_pad_of_small (digits : List Nat) (small : ∀ d ∈ digits, d < 64) :
    '=' ∉ digits.map digitChar := by
  intro member
  obtain ⟨d, present, same⟩ := List.mem_map.mp member
  exact digit_char_ne_pad d (small d present) same

theorem padded_full (chars : List Char) (digits : List Nat) (pads p q r s : Nat)
    (padded : Padded chars digits pads) (small : ∀ d ∈ [p, q, r, s], d < 64) :
    Padded (digitChar p :: digitChar q :: digitChar r :: digitChar s :: chars)
      (p :: q :: r :: s :: digits) pads where
  chars := by rw [padded.chars]; rfl
  small := by
    simp only [List.forall_mem_cons] at small ⊢
    exact ⟨small.1, small.2.1, small.2.2.1, small.2.2.2.1, padded.small⟩
  few := padded.few
  groups := by
    have groups := padded.groups
    simp only [List.length_cons]
    omega

theorem pow_of_spells (digits : List Nat) (pads : Nat) (bytes : Bytes)
    (spells : Spells digits pads bytes) :
    64 ^ digits.length = 256 ^ bytes.length * 4 ^ pads := by
  have length := spells.length
  rw [show 64 = 2 ^ 6 from rfl, show 256 = 2 ^ 8 from rfl, show 4 = 2 ^ 2 from rfl, ← pow_mul,
    ← pow_mul, ← pow_mul, ← pow_add]
  congr 1
  omega

theorem spells_full (digits : List Nat) (pads : Nat) (bytes : Bytes) (a b c : UInt8)
    (spells : Spells digits pads bytes) :
    Spells (a.toNat / 4 :: (a.toNat % 4 * 16 + b.toNat / 16) ::
      (b.toNat % 16 * 4 + c.toNat / 64) :: c.toNat % 64 :: digits) pads (a :: b :: c :: bytes) where
  length := by
    have length := spells.length
    simp only [List.length_cons]
    omega
  value := by
    have places := pow_of_spells digits pads bytes spells
    have group : ((a.toNat / 4 * 64 + (a.toNat % 4 * 16 + b.toNat / 16)) * 64 +
        (b.toNat % 16 * 4 + c.toNat / 64)) * 64 + c.toNat % 64 =
          (a.toNat * 256 + b.toNat) * 256 + c.toNat := by omega
    calc value 64 (a.toNat / 4 :: (a.toNat % 4 * 16 + b.toNat / 16) ::
          (b.toNat % 16 * 4 + c.toNat / 64) :: c.toNat % 64 :: digits)
        = (((a.toNat / 4 * 64 + (a.toNat % 4 * 16 + b.toNat / 16)) * 64 +
            (b.toNat % 16 * 4 + c.toNat / 64)) * 64 + c.toNat % 64) * 64 ^ digits.length +
            value 64 digits := by
          simp only [value_cons, List.length_cons, pow_succ]
          ring
      _ = ((a.toNat * 256 + b.toNat) * 256 + c.toNat) * (256 ^ bytes.length * 4 ^ pads) +
            value 256 (numbers bytes) * 4 ^ pads := by rw [group, places, spells.value]
      _ = value 256 (numbers (a :: b :: c :: bytes)) * 4 ^ pads := by
          simp only [numbers, List.map_cons, value_cons, List.length_cons, List.length_map, pow_succ]
          ring

theorem padded_encode_chars (bytes : Bytes) :
    ∃ digits pads, Padded (encodeChars bytes) digits pads ∧ Spells digits pads bytes := by
  fun_induction encodeChars bytes with
  | case1 => exact ⟨[], 0, ⟨rfl, by simp, by decide, by simp⟩, rfl, rfl⟩
  | case2 a =>
    have aBound := a.toNat_lt
    refine ⟨[a.toNat / 4, a.toNat % 4 * 16], 2, ⟨rfl, ?_, by decide, by simp⟩, rfl, ?_⟩
    · simp only [List.forall_mem_cons, List.not_mem_nil, false_implies, implies_true, and_true]
      omega
    · simp only [numbers, List.map_cons, List.map_nil, value_cons, value_nil, List.length_cons,
        List.length_nil]
      omega
  | case3 a b =>
    have aBound := a.toNat_lt
    have bBound := b.toNat_lt
    refine ⟨[a.toNat / 4, a.toNat % 4 * 16 + b.toNat / 16, b.toNat % 16 * 4], 1,
      ⟨rfl, ?_, by decide, by simp⟩, rfl, ?_⟩
    · simp only [List.forall_mem_cons, List.not_mem_nil, false_implies, implies_true, and_true]
      omega
    · simp only [numbers, List.map_cons, List.map_nil, value_cons, value_nil, List.length_cons,
        List.length_nil]
      omega
  | case4 a b c rest ih =>
    have aBound := a.toNat_lt
    have bBound := b.toNat_lt
    have cBound := c.toNat_lt
    obtain ⟨digits, pads, padded, spells⟩ := ih
    refine ⟨_, pads, padded_full _ digits pads _ _ _ _ padded ?_,
      spells_full digits pads rest a b c spells⟩
    simp only [List.forall_mem_cons, List.not_mem_nil, false_implies, implies_true, and_true]
    omega

theorem spells_unique (digits others : List Nat) (pads otherPads : Nat) (bytes : Bytes)
    (few : pads < 3) (fewToo : otherPads < 3) (small : ∀ d ∈ digits, d < 64)
    (smallToo : ∀ d ∈ others, d < 64) (spells : Spells digits pads bytes)
    (spellsToo : Spells others otherPads bytes) : digits = others ∧ pads = otherPads := by
  have length := spells.length
  have lengthToo := spellsToo.length
  have samePads : pads = otherPads := by omega
  subst samePads
  refine ⟨value_injective 64 (by decide) digits others (by omega) small smallToo ?_, rfl⟩
  rw [spells.value, spellsToo.value]

theorem eq_encode_chars_of_spells (chars : List Char) (digits : List Nat) (pads : Nat) (bytes : Bytes)
    (padded : Padded chars digits pads) (spells : Spells digits pads bytes) :
    chars = encodeChars bytes := by
  obtain ⟨written, writtenPads, writing, written_spells⟩ := padded_encode_chars bytes
  obtain ⟨rfl, rfl⟩ := spells_unique digits written pads writtenPads bytes padded.few writing.few
    padded.small writing.small spells written_spells
  rw [padded.chars, writing.chars]

-- The text leaves no choice of the digits either: the first padding sign ends them.
theorem padded_unique (chars : List Char) (digits others : List Nat) (pads otherPads : Nat)
    (padded : Padded chars digits pads) (paddedToo : Padded chars others otherPads) :
    digits = others ∧ pads = otherPads := by
  have count (ds : List Nat) (n : Nat) (other : Padded chars ds n) : chars.count '=' = n := by
    have none := List.count_eq_zero.mpr (digit_char_ne_pad_of_small ds other.small)
    rw [other.chars, List.count_append, none, List.count_replicate_self, Nat.zero_add]
  have samePads : pads = otherPads :=
    (count digits pads padded).symm.trans (count others otherPads paddedToo)
  subst samePads
  have signs := List.append_cancel_right (padded.chars.symm.trans paddedToo.chars)
  have read (ds : List Nat) (small : ∀ d ∈ ds, d < 64) :
      (ds.map digitChar).map digit? = ds.map some := by
    rw [List.map_map]
    exact List.map_congr_left fun d member => digit?_digit_char d (small d member)
  have numbers := (read digits padded.small).symm.trans
    ((congrArg (List.map digit?) signs).trans (read others paddedToo.small))
  exact ⟨List.map_inj_right (fun _ _ => Option.some.inj) |>.mp numbers, rfl⟩

theorem exists_bytes (length number : Nat) (small : number < 256 ^ length) :
    ∃ bytes : Bytes, bytes.length = length ∧ value 256 (numbers bytes) = number := by
  induction length generalizing number with
  | zero => exact ⟨[], rfl, by simp at small; rw [small]; rfl⟩
  | succ length ih =>
    have positive : 0 < 256 ^ length := by positivity
    obtain ⟨bytes, long, rest⟩ := ih (number % 256 ^ length) (Nat.mod_lt _ positive)
    have first : number / 256 ^ length < 256 :=
      Nat.div_lt_of_lt_mul (by rwa [pow_succ] at small)
    refine ⟨UInt8.ofNat (number / 256 ^ length) :: bytes, by rw [List.length_cons, long], ?_⟩
    have longNumbers : (numbers bytes).length = length := by rw [numbers, List.length_map, long]
    rw [numbers, List.map_cons, value_cons, to_nat_of_nat_small _ first]
    change _ * 256 ^ (numbers bytes).length + value 256 (numbers bytes) = number
    rw [longNumbers, rest]
    exact Nat.div_add_mod' number (256 ^ length)

theorem exists_spells_iff (chars : List Char) (digits : List Nat) (pads : Nat)
    (padded : Padded chars digits pads) :
    (∃ bytes, Spells digits pads bytes) ↔ 4 ^ pads ∣ value 64 digits := by
  constructor
  · intro ⟨bytes, spells⟩
    exact ⟨_, spells.value.trans (Nat.mul_comm _ _)⟩
  · intro ⟨number, same⟩
    obtain ⟨groups, length⟩ := padded.groups
    have few := padded.few
    have places : 64 ^ digits.length = 4 ^ pads * 256 ^ (3 * groups - pads) := by
      rw [show 64 = 2 ^ 6 from rfl, show 256 = 2 ^ 8 from rfl, show 4 = 2 ^ 2 from rfl, ← pow_mul,
        ← pow_mul, ← pow_mul, ← pow_add]
      congr 1
      omega
    have bound := value_lt 64 (by decide) digits padded.small
    rw [same, places] at bound
    obtain ⟨bytes, long, spelt⟩ :=
      exists_bytes (3 * groups - pads) number (lt_of_mul_lt_mul_left' bound)
    exact ⟨bytes, by omega, by rw [same, spelt, Nat.mul_comm]⟩

theorem cases_of_mem_padded (chars : List Char) (digits : List Nat) (pads : Nat)
    (padded : Padded chars digits pads) (c : Char) (member : c ∈ chars) :
    (∃ d : Fin 64, digitChar d = c) ∨ c = '=' := by
  rw [padded.chars] at member
  rcases List.mem_append.mp member with digit | pad
  · obtain ⟨d, present, same⟩ := List.mem_map.mp digit
    exact .inl ⟨⟨d, padded.small d present⟩, same⟩
  · exact .inr (List.eq_of_mem_replicate pad)

theorem mem_alphabet_of_padded (chars : List Char) (digits : List Nat) (pads : Nat)
    (padded : Padded chars digits pads) (c : Char) (member : c ∈ chars) : c ∈ alphabet ∨ c = '=' := by
  have listed : ∀ d : Fin 64, digitChar d ∈ alphabet := by decide
  refine (cases_of_mem_padded chars digits pads padded c member).imp_left ?_
  rintro ⟨d, rfl⟩
  exact listed d

theorem solid_of_padded (chars : List Char) (digits : List Nat) (pads : Nat)
    (padded : Padded chars digits pads) : ∀ c ∈ chars, Text.isBlank c = false := by
  have solid : ∀ d : Fin 64, Text.isBlank (digitChar d) = false := by decide
  intro c member
  rcases cases_of_mem_padded chars digits pads padded c member with ⟨d, rfl⟩ | rfl
  · exact solid d
  · decide

theorem decode?_encode (bytes : Bytes) : decode? (encode bytes) = some bytes := by
  obtain ⟨digits, pads, padded, -⟩ := padded_encode_chars bytes
  rw [decode?, encode, String.toList_ofList,
    Text.trim_chars_of_solid _ (solid_of_padded _ digits pads padded), decode_chars?_encode_chars]

theorem decode?_eq_some_iff (text : String) (bytes : Bytes) :
    decode? text = some bytes ↔ Text.trim text = encode bytes := by
  rw [decode?, decode_chars?_eq_some_iff, Text.trim, encode, String.ofList_inj]

theorem padded_of_decode? (text : String) (bytes : Bytes) (read : decode? text = some bytes) :
    ∃ digits pads, Padded (Text.trim text).toList digits pads ∧ Spells digits pads bytes := by
  rw [(decode?_eq_some_iff text bytes).mp read, encode, String.toList_ofList]
  exact padded_encode_chars bytes

theorem decode?_of_padded (text : String) (digits : List Nat) (pads : Nat) (bytes : Bytes)
    (padded : Padded (Text.trim text).toList digits pads) (spells : Spells digits pads bytes) :
    decode? text = some bytes := by
  rw [decode?_eq_some_iff, encode, ← eq_encode_chars_of_spells _ digits pads bytes padded spells,
    String.ofList_toList]

theorem exists_decode?_iff (text : String) :
    (∃ bytes, decode? text = some bytes) ↔
      ∃ digits pads, Padded (Text.trim text).toList digits pads ∧ 4 ^ pads ∣ value 64 digits := by
  constructor
  · intro ⟨bytes, read⟩
    obtain ⟨digits, pads, padded, spells⟩ := padded_of_decode? text bytes read
    exact ⟨digits, pads, padded, (exists_spells_iff _ digits pads padded).mp ⟨bytes, spells⟩⟩
  · intro ⟨digits, pads, padded, zeros⟩
    obtain ⟨bytes, spells⟩ := (exists_spells_iff _ digits pads padded).mpr zeros
    exact ⟨bytes, decode?_of_padded text digits pads bytes padded spells⟩

theorem decode?_eq_none_of_not (text : String) (P : Prop)
    (holds : ∀ digits pads, Padded (Text.trim text).toList digits pads →
      4 ^ pads ∣ value 64 digits → P) (fails : ¬ P) : decode? text = none := by
  refine Option.eq_none_iff_forall_ne_some.mpr fun bytes read => fails ?_
  obtain ⟨digits, pads, padded, zeros⟩ := (exists_decode?_iff text).mp ⟨bytes, read⟩
  exact holds digits pads padded zeros

theorem alphabet_eq : String.ofList alphabet =
    "ABCDEFGHIJKLMNOPQRSTUVWXYZabcdefghijklmnopqrstuvwxyz0123456789+/" := by decide

/-- What is written of bytes is the number that they are, in digits of the alphabet and with padding. What
is read, up to white space around it, is what is written of some bytes and nothing else: a text of another
length, with a blank or another foreign sign in it, or with a bit set that the bytes have no use for is not
read. -/
theorem decode?_reads_encodings (text : String) :
    String.ofList alphabet = "ABCDEFGHIJKLMNOPQRSTUVWXYZabcdefghijklmnopqrstuvwxyz0123456789+/" ∧
      (∀ bytes, decode? text = some bytes ↔ Text.trim text = encode bytes) ∧
      (∀ bytes, decode? (encode bytes) = some bytes) ∧
      (∀ other bytes, decode? text = some bytes → decode? other = some bytes →
        Text.trim text = Text.trim other) ∧
      (∀ bytes, ∃ digits pads,
        Padded (encode bytes).toList digits pads ∧ Spells digits pads bytes) ∧
      ((∃ bytes, decode? text = some bytes) ↔
        ∃ digits pads, Padded (Text.trim text).toList digits pads ∧ 4 ^ pads ∣ value 64 digits) ∧
      (¬ 4 ∣ (Text.trim text).toList.length → decode? text = none) ∧
      (∀ c ∈ (Text.trim text).toList, Text.isBlank c = true ∨ c ∉ alphabet ∧ c ≠ '=' →
        decode? text = none) ∧
      ∀ digits pads, Padded (Text.trim text).toList digits pads → ¬ 4 ^ pads ∣ value 64 digits →
        decode? text = none := by
  refine ⟨alphabet_eq, decode?_eq_some_iff text, decode?_encode, ?_, ?_, exists_decode?_iff text,
    ?_, ?_, ?_⟩
  · intro other bytes read readToo
    rw [(decode?_eq_some_iff text bytes).mp read, (decode?_eq_some_iff other bytes).mp readToo]
  · intro bytes
    rw [encode, String.toList_ofList]
    exact padded_encode_chars bytes
  · refine decode?_eq_none_of_not text _ fun digits pads padded _ => ?_
    rw [padded.chars, List.length_append, List.length_map, List.length_replicate]
    exact padded.groups
  · intro c member foreign
    refine decode?_eq_none_of_not text
      (Text.isBlank c = false ∧ (c ∈ alphabet ∨ c = '=')) (fun digits pads padded _ => ?_) ?_
    · exact ⟨solid_of_padded _ digits pads padded c member,
        mem_alphabet_of_padded _ digits pads padded c member⟩
    · rintro ⟨solid, known⟩
      rcases foreign with blank | ⟨unlisted, unpadded⟩
      · rw [solid] at blank
        cases blank
      · exact known.elim unlisted unpadded
  · intro digits pads padded waste
    refine decode?_eq_none_of_not text _ (fun others otherPads paddedToo zeros => ?_) waste
    obtain ⟨rfl, rfl⟩ := padded_unique _ digits others pads otherPads padded paddedToo
    exact zeros

theorem decode?_reads_encodings_cases :
    decode? " +//+AQ==\n" = some [0xfb, 0xff, 0xfe, 0x01] ∧
      (decode? "+//+AQ==" = some [0xfb, 0xff, 0xfe, 0x01] ∧
        Text.trim " +//+AQ==\n" = Text.trim "+//+AQ==") ∧
      (¬ 4 ∣ (Text.trim "+//+AQ").toList.length ∧ decode? "+//+AQ" = none) ∧
      (' ' ∈ (Text.trim "+//+ AQ==").toList ∧ decode? "+//+ AQ==" = none) ∧
      ('-' ∈ (Text.trim "-//+AQ==").toList ∧ '-' ∉ alphabet ∧ decode? "-//+AQ==" = none) ∧
      Padded (Text.trim "+//+AR==").toList [62, 63, 63, 62, 0, 17] 2 ∧
      ¬ 4 ^ 2 ∣ value 64 [62, 63, 63, 62, 0, 17] ∧ decode? "+//+AR==" = none := by
  have whole : encode [0xfb, 0xff, 0xfe, 0x01] = "+//+AQ==" := by decide
  obtain ⟨-, reads, trips, unique, -⟩ := decode?_reads_encodings " +//+AQ==\n"
  obtain ⟨-, -, -, -, -, -, unpadded, -⟩ := decode?_reads_encodings "+//+AQ"
  obtain ⟨-, -, -, -, -, -, -, spaced, -⟩ := decode?_reads_encodings "+//+ AQ=="
  obtain ⟨-, -, -, -, -, -, -, foreign, -⟩ := decode?_reads_encodings "-//+AQ=="
  obtain ⟨-, -, -, -, -, -, -, -, waste⟩ := decode?_reads_encodings "+//+AR=="
  have read := (reads [0xfb, 0xff, 0xfe, 0x01]).mpr (whole ▸ by decide)
  have again := whole ▸ trips [0xfb, 0xff, 0xfe, 0x01]
  have short : ¬ 4 ∣ (Text.trim "+//+AQ").toList.length := by decide
  have blank : ' ' ∈ (Text.trim "+//+ AQ==").toList := by decide
  have other : '-' ∈ (Text.trim "-//+AQ==").toList := by decide
  have padded : Padded (Text.trim "+//+AR==").toList [62, 63, 63, 62, 0, 17] 2 :=
    ⟨by decide, by decide, by decide, by decide⟩
  have odd : ¬ 4 ^ 2 ∣ value 64 [62, 63, 63, 62, 0, 17] := by decide
  exact ⟨read, ⟨again, unique _ _ read again⟩, ⟨short, unpadded short⟩,
    ⟨blank, spaced ' ' blank (.inl rfl)⟩,
    ⟨other, by decide, foreign '-' other (.inr ⟨by decide, by decide⟩)⟩, padded, odd,
    waste _ _ padded odd⟩

end Base64

end Envelope
