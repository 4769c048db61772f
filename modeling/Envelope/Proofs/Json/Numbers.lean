import Envelope.Json.Parser
import Envelope.Json.Printer

set_option autoImplicit false

namespace Envelope

open Text (after? after?_eq_some_iff)

def Number.ofChars? (chars : List Char) : Option Number :=
  match Json.Numeral.scan chars with
  | some (numeral, []) => numeral.number?
  | _ => none

-- A number that a document may hold: an integer from -2^63 to 2^64 - 1, or a float that reads back as
-- itself.
def Number.Legible : Number → Prop
  | .int value => -9223372036854775808 ≤ value ∧ value < 18446744073709551616
  | .float value => Number.ofChars? value.chars = some (.float value)

namespace Json

def Closing (rest : List Char) : Prop :=
  ∀ c, rest.head? = some c → c = ',' ∨ c = ']' ∨ c = '}'

theorem closing_nil : Closing [] := by
  intro c head
  cases head

theorem closing_cons (c : Char) (rest : List Char) (closes : c = ',' ∨ c = ']' ∨ c = '}') :
    Closing (c :: rest) := by
  intro other head
  cases head
  exact closes

theorem after?_append_some (front chars found rest : List Char)
    (h : after? front chars = some found) : after? front (chars ++ rest) = some (found ++ rest) := by
  rw [after?_eq_some_iff] at h ⊢
  rw [h, List.append_assoc]

theorem after?_append_none (sign : Char) (chars rest : List Char) (closing : Closing rest)
    (open_ : sign ≠ ',' ∧ sign ≠ ']' ∧ sign ≠ '}') (h : after? [sign] chars = none) :
    after? [sign] (chars ++ rest) = none := by
  cases chars with
  | nil =>
    cases rest with
    | nil => rfl
    | cons c tail =>
      have different : sign ≠ c := by
        rintro rfl
        rcases closing sign rfl with comma | bracket | brace
        · exact open_.1 comma
        · exact open_.2.1 bracket
        · exact open_.2.2 brace
      simp [after?, different]
  | cons c tail =>
    by_cases same : sign = c
    · simp [after?, same] at h
    · simp [after?, same]

theorem is_digit_of_closing (rest : List Char) (closing : Closing rest) :
    rest.takeWhile Char.isDigit = [] ∧ rest.dropWhile Char.isDigit = rest := by
  cases rest with
  | nil => simp
  | cons c tail =>
    have plain : c.isDigit = false := by
      rcases closing c rfl with rfl | rfl | rfl <;> rfl
    simp [plain]

namespace Numeral

theorem take_while_digits_append (chars rest : List Char) (closing : Closing rest) :
    (chars ++ rest).takeWhile Char.isDigit = chars.takeWhile Char.isDigit := by
  rw [List.takeWhile_append, (is_digit_of_closing rest closing).1]
  split
  · rename_i whole
    have all := (List.takeWhile_prefix (l := chars) Char.isDigit).eq_of_length whole
    rw [List.append_nil, all]
  · rfl

theorem drop_while_digits_append (chars rest : List Char) (closing : Closing rest) :
    (chars ++ rest).dropWhile Char.isDigit = chars.dropWhile Char.isDigit ++ rest := by
  rw [List.dropWhile_append, (is_digit_of_closing rest closing).2]
  split
  · rename_i nothing
    rw [List.isEmpty_iff.mp nothing, List.nil_append]
  · rfl

theorem digits?_append (chars rest : List Char) (closing : Closing rest)
    (found : List Char × List Char) (h : digits? chars = some found) :
    digits? (chars ++ rest) = some (found.1, found.2 ++ rest) := by
  simp only [digits?] at h ⊢
  rw [take_while_digits_append chars rest closing, drop_while_digits_append chars rest closing]
  split at h
  · cases h
  · rename_i some_
    cases h
    simp [some_]

theorem whole?_append (chars rest : List Char) (closing : Closing rest)
    (found : List Char × List Char) (h : whole? chars = some found) :
    whole? (chars ++ rest) = some (found.1, found.2 ++ rest) := by
  simp only [whole?, Option.bind_eq_bind, Option.bind_eq_some_iff] at h
  obtain ⟨scanned, digits, checked⟩ := h
  simp only [whole?, digits?_append chars rest closing scanned digits, Option.bind_eq_bind,
    Option.bind_some]
  split at checked
  · cases checked
  · rename_i noZero
    cases checked
    rw [if_neg noZero]

theorem fraction?_append (chars rest : List Char) (closing : Closing rest)
    (found : List Char × List Char) (h : fraction? chars = some found) :
    fraction? (chars ++ rest) = some (found.1, found.2 ++ rest) := by
  unfold fraction? at h ⊢
  cases point : after? ['.'] chars with
  | some tail =>
    rw [point] at h
    rw [after?_append_some _ _ _ rest point]
    exact digits?_append tail rest closing found h
  | none =>
    rw [point] at h
    rw [after?_append_none '.' chars rest closing (by decide) point]
    cases h
    rfl

theorem split_sign_append (chars rest : List Char) (closing : Closing rest) :
    splitSign (chars ++ rest) = ((splitSign chars).1, (splitSign chars).2 ++ rest) := by
  unfold splitSign
  cases minus : after? ['-'] chars with
  | some tail => rw [after?_append_some _ _ _ rest minus]
  | none => rw [after?_append_none '-' chars rest closing (by decide) minus]

theorem exponent_sign_append (chars rest : List Char) (closing : Closing rest) :
    exponentSign (chars ++ rest) = ((exponentSign chars).1, (exponentSign chars).2 ++ rest) := by
  unfold exponentSign
  cases plus : after? ['+'] chars with
  | some tail => rw [after?_append_some _ _ _ rest plus]
  | none =>
    rw [after?_append_none '+' chars rest closing (by decide) plus]
    exact split_sign_append chars rest closing

theorem exponent_mark_append (chars rest : List Char) (closing : Closing rest) :
    (after? ['e'] (chars ++ rest)).or (after? ['E'] (chars ++ rest)) =
      ((after? ['e'] chars).or (after? ['E'] chars)).map (· ++ rest) := by
  cases lower : after? ['e'] chars with
  | some tail => simp [after?_append_some _ _ _ rest lower]
  | none =>
    rw [after?_append_none 'e' chars rest closing (by decide) lower]
    cases upper : after? ['E'] chars with
    | some tail => simp [after?_append_some _ _ _ rest upper]
    | none => simp [after?_append_none 'E' chars rest closing (by decide) upper]

theorem exponent?_append (chars rest : List Char) (closing : Closing rest)
    (found : Option Int × List Char) (h : exponent? chars = some found) :
    exponent? (chars ++ rest) = some (found.1, found.2 ++ rest) := by
  unfold exponent? at h ⊢
  rw [exponent_mark_append chars rest closing]
  cases mark : (after? ['e'] chars).or (after? ['E'] chars) with
  | none =>
    rw [mark] at h
    cases h
    rfl
  | some tail =>
    simp only [mark, Option.map_some, Option.bind_eq_bind, Option.bind_eq_some_iff] at h ⊢
    obtain ⟨scanned, digits, result⟩ := h
    refine ⟨(scanned.1, scanned.2 ++ rest), ?_, ?_⟩
    · rw [exponent_sign_append tail rest closing]
      exact digits?_append _ rest closing scanned digits
    · cases result
      rw [exponent_sign_append tail rest closing]
      rfl

theorem scan_append (chars rest : List Char) (closing : Closing rest)
    (found : Numeral × List Char) (h : scan chars = some found) :
    scan (chars ++ rest) = some (found.1, found.2 ++ rest) := by
  simp only [scan, Option.bind_eq_bind, Option.bind_eq_some_iff] at h
  obtain ⟨whole, wholeEq, fraction, fractionEq, exponent, exponentEq, result⟩ := h
  cases result
  simp only [scan, split_sign_append chars rest closing,
    whole?_append _ rest closing whole wholeEq, fraction?_append _ rest closing fraction fractionEq,
    exponent?_append _ rest closing exponent exponentEq, Option.bind_eq_bind, Option.bind_some,
    Option.pure_def]

theorem head_of_scan (chars : List Char) (found : Numeral × List Char)
    (h : scan chars = some found) :
    ∃ c tail, chars = c :: tail ∧ (c = '-' ∨ c.isDigit = true) := by
  simp only [scan, Option.bind_eq_bind, Option.bind_eq_some_iff] at h
  obtain ⟨whole, wholeEq, -⟩ := h
  cases chars with
  | nil => cases wholeEq
  | cons c tail =>
    refine ⟨c, tail, rfl, ?_⟩
    by_cases minus : c = '-'
    · exact Or.inl minus
    · have unsigned : after? ['-'] (c :: tail) = none := by simp [after?, Ne.symm minus]
      by_cases digit : c.isDigit = true
      · exact Or.inr digit
      · simp [whole?, digits?, splitSign, unsigned, digit] at wholeEq

theorem head_to_digits (n : Nat) (positive : n ≠ 0) : (Nat.toDigits 10 n).head? ≠ some '0' := by
  induction n using Nat.strongRecOn with
  | ind n ih =>
    by_cases small : n < 10
    · have every : ∀ m : Fin 10, m.val ≠ 0 → Nat.digitChar m ≠ '0' := by decide
      rw [Nat.toDigits_of_lt_base small]
      simpa using every ⟨n, small⟩ positive
    · rw [Nat.toDigits_of_base_le (by decide) (by omega), List.head?_append]
      have front := ih (n / 10) (by omega) (by omega)
      cases digits : Nat.toDigits 10 (n / 10) with
      | nil => exact absurd digits Nat.toDigits_ne_nil
      | cons d rest => simpa [digits] using front

theorem take_while_to_digits (n : Nat) :
    (Nat.toDigits 10 n).takeWhile Char.isDigit = Nat.toDigits 10 n ∧
      (Nat.toDigits 10 n).dropWhile Char.isDigit = [] := by
  have every : ∀ c ∈ Nat.toDigits 10 n, c.isDigit = true := fun c member =>
    Nat.isDigit_of_mem_toDigits (by decide) (by decide) member
  have nothing : (Nat.toDigits 10 n).dropWhile Char.isDigit = [] := by
    have dropped := @List.dropWhile_append_of_pos _ Char.isDigit (Nat.toDigits 10 n) [] every
    simpa only [List.append_nil, List.dropWhile_nil] using dropped
  have parts := List.takeWhile_append_dropWhile (p := Char.isDigit) (l := Nat.toDigits 10 n)
  rw [nothing, List.append_nil] at parts
  exact ⟨parts, nothing⟩

theorem whole?_to_digits (n : Nat) :
    whole? (Nat.toDigits 10 n) = some (Nat.toDigits 10 n, []) := by
  have someDigit : (Nat.toDigits 10 n).isEmpty = false := by
    simp [List.isEmpty_eq_false_iff, Nat.toDigits_ne_nil]
  have noZero : ¬ ((Nat.toDigits 10 n).length > 1 ∧ (Nat.toDigits 10 n).head? = some '0') := by
    rintro ⟨long, zero⟩
    by_cases positive : n = 0
    · simp [positive] at long
    · exact head_to_digits n positive zero
  simp only [whole?, digits?, take_while_to_digits, someDigit, Bool.false_eq_true, if_false,
    Option.bind_eq_bind, Option.bind_some, if_neg noZero]

theorem split_sign_to_digits (n : Nat) :
    splitSign (Nat.toDigits 10 n) = (false, Nat.toDigits 10 n) := by
  have unsigned : after? ['-'] (Nat.toDigits 10 n) = none := by
    cases digits : Nat.toDigits 10 n with
    | nil => rfl
    | cons c rest =>
      have digit : c.isDigit = true :=
        Nat.isDigit_of_mem_toDigits (b := 10) (n := n) (by decide) (by decide)
          (digits ▸ List.mem_cons_self)
      have different : '-' ≠ c := by
        rintro rfl
        cases digit
      simp [after?, different]
  simp only [splitSign, unsigned]

theorem scan_to_digits (negative : Bool) (n : Nat) :
    scan ((if negative then ['-'] else []) ++ Nat.toDigits 10 n) =
      some (⟨negative, n, 0, true⟩, []) := by
  have sign : splitSign ((if negative then ['-'] else []) ++ Nat.toDigits 10 n) =
      (negative, Nat.toDigits 10 n) := by
    cases negative with
    | false => exact split_sign_to_digits n
    | true => rfl
  simp only [scan, sign, whole?_to_digits, fraction?, exponent?, after?, Option.bind_eq_bind,
    Option.bind_some, Option.or_none, Option.pure_def, List.append_nil,
    Nat.ofDigitChars_ten_toDigits, List.length_nil, List.isEmpty_nil, Option.isNone_none,
    Option.getD_none, Bool.and_self]
  rfl

end Numeral

end Json

theorem Number.scan_int (value : Int) :
    Json.Numeral.scan (Number.int value).chars =
      some (⟨decide (value < 0), value.natAbs, 0, true⟩, []) := by
  have scanned := Json.Numeral.scan_to_digits (decide (value < 0)) value.natAbs
  simpa only [Number.chars, decide_eq_true_eq] using scanned

theorem Number.of_chars?_int (value : Int) (low : -9223372036854775808 ≤ value)
    (high : value < 18446744073709551616) :
    Number.ofChars? (Number.int value).chars = some (.int value) := by
  simp only [Number.ofChars?, Number.scan_int, Json.Numeral.number?]
  by_cases negative : value < 0
  · have size : value.natAbs ≠ 0 ∧ value.natAbs ≤ 9223372036854775808 := by omega
    simp only [negative, decide_true, not_true_eq_false, false_and, and_false, if_false, size, ne_eq,
      not_false_eq_true, and_self, if_true, Option.some.injEq, Number.int.injEq]
    omega
  · have size : value.natAbs < 18446744073709551616 := by omega
    simp only [negative, decide_false, Bool.false_eq_true, not_false_eq_true, size, and_self,
      if_true, Option.some.injEq, Number.int.injEq]
    omega

theorem Number.of_chars?_of_legible (n : Number) (legible : n.Legible) :
    Number.ofChars? n.chars = some n := by
  cases n with
  | int value => exact Number.of_chars?_int value legible.1 legible.2
  | float value => exact legible

def Number.numeral (n : Number) : Json.Numeral :=
  ((Json.Numeral.scan n.chars).map Prod.fst).getD ⟨false, 0, 0, true⟩

theorem Number.numeral_int (value : Int) :
    (Number.int value).numeral = ⟨decide (value < 0), value.natAbs, 0, true⟩ := by
  rw [numeral, scan_int, Option.map_some, Option.getD_some]

theorem Number.scan_chars (n : Number) (legible : n.Legible) :
    Json.Numeral.scan n.chars = some (n.numeral, []) ∧ n.numeral.number? = some n := by
  have reads := Number.of_chars?_of_legible n legible
  unfold Number.ofChars? at reads
  split at reads
  · rename_i numeral scanned
    have same : n.numeral = numeral := by
      rw [Number.numeral, scanned, Option.map_some, Option.getD_some]
    rw [same]
    exact ⟨scanned, reads⟩
  · cases reads

theorem Number.scan_of_legible (n : Number) (legible : n.Legible) (rest : List Char)
    (closing : Json.Closing rest) : Json.Numeral.scan (n.chars ++ rest) = some (n.numeral, rest) :=
  Json.Numeral.scan_append _ rest closing _ (n.scan_chars legible).1

theorem Number.head_of_legible (n : Number) (legible : n.Legible) :
    ∃ c tail, n.chars = c :: tail ∧ (c = '-' ∨ c.isDigit = true) :=
  Json.Numeral.head_of_scan n.chars _ (n.scan_chars legible).1

end Envelope
