import Envelope.Proofs.Json.Reading
import Mathlib.Data.List.Forall2

set_option autoImplicit false

namespace Envelope.Json

def units (c : Char) : List Nat :=
  if c.toNat < 0x10000 then [c.toNat]
  else [0xD800 + (c.toNat - 0x10000) / 0x400, 0xDC00 + (c.toNat - 0x10000) % 0x400]

def hexDigits (unit : Nat) : List Char :=
  [Nat.digitChar (unit / 0x1000), Nat.digitChar (unit / 0x100 % 0x10),
    Nat.digitChar (unit / 0x10 % 0x10), Nat.digitChar (unit % 0x10)]

-- Hex digits may be in either case.
def UnitText (unit : Nat) (chars : List Char) : Prop :=
  ∃ digits, chars = '\\' :: 'u' :: digits ∧ digits.map Char.toLower = hexDigits unit

def escapes : List (Char × Char) :=
  [('"', '"'), ('\\', '\\'), ('/', '/'), ('b', '\x08'), ('f', '\x0c'), ('n', '\n'), ('r', '\r'),
    ('t', '\t')]

inductive CharText : Char → List Char → Prop where
  | plain (c : Char) (visible : 0x20 ≤ c.toNat) (quote : c ≠ '"') (backslash : c ≠ '\\') :
    CharText c [c]
  | escaped (letter c : Char) (listed : (letter, c) ∈ escapes) : CharText c ['\\', letter]
  | units (c : Char) (parts : List (List Char)) (spelt : List.Forall₂ UnitText (units c) parts) :
    CharText c parts.flatten

def StringText (text : String) (chars : List Char) : Prop :=
  ∃ parts, List.Forall₂ CharText text.toList parts ∧ chars = '"' :: (parts.flatten ++ ['"'])

def PlainText (text : String) : Prop :=
  ∀ c ∈ text.toList, 0x20 ≤ c.toNat ∧ c ≠ '"' ∧ c ≠ '\\'

theorem string_text_of_plain (text : String) (plain : PlainText text) :
    StringText text ('"' :: (text.toList ++ ['"'])) := by
  refine ⟨text.toList.map fun c => [c], ?_, ?_⟩
  · rw [List.forall₂_map_right_iff, List.forall₂_same]
    intro c member
    obtain ⟨visible, quote, backslash⟩ := plain c member
    exact .plain c visible quote backslash
  · rw [← List.flatMap_def, List.flatMap_singleton']

theorem digit_of_large (c : Char) (large : ¬ c.toNat < 0x80) : Hex.digit? c = none := by
  have above (top : Char) (low : top.toNat < 0x80) : ¬ c ≤ top := by
    rw [Char.le_def, UInt32.le_iff_toNat_le]
    change ¬ c.toNat ≤ top.toNat
    omega
  simp only [Hex.digit?, above '9' (by decide), above 'f' (by decide), above 'F' (by decide), and_false,
    if_false]

theorem to_lower_of_large (c : Char) (large : ¬ c.toNat < 0x80) : c.toLower = c := by
  have outside : ¬ (65 ≤ c.val ∧ c.val ≤ 90) := by
    rw [UInt32.le_iff_toNat_le, UInt32.le_iff_toNat_le]
    change ¬ (65 ≤ c.toNat ∧ c.toNat ≤ 90)
    omega
  exact dif_neg outside

theorem digit_eq_some_iff (c : Char) (n : Nat) :
    Hex.digit? c = some n ↔ n < 0x10 ∧ c.toLower = Nat.digitChar n := by
  have ascii : ∀ m : Fin 0x80, ∀ n : Fin 0x10,
      Hex.digit? (Char.ofNat m) = some n.val ↔ (Char.ofNat m).toLower = Nat.digitChar n := by
    decide +kernel
  have bounded : ∀ m : Fin 0x80, (Hex.digit? (Char.ofNat m)).all (· < 0x10) = true := by
    decide +kernel
  have low : ∀ n : Fin 0x10, (Nat.digitChar n).toNat < 0x80 := by decide
  by_cases small : c.toNat < 0x80
  · have read := ascii ⟨c.toNat, small⟩
    have bound := bounded ⟨c.toNat, small⟩
    rw [Char.ofNat_toNat] at read bound
    constructor
    · intro digit
      rw [digit, Option.all_some, decide_eq_true_eq] at bound
      exact ⟨bound, (read ⟨n, bound⟩).mp digit⟩
    · intro ⟨bound, same⟩
      exact (read ⟨n, bound⟩).mpr same
  · rw [digit_of_large c small, to_lower_of_large c small]
    refine iff_of_false nofun fun ⟨bound, same⟩ => small ?_
    exact same ▸ low ⟨n, bound⟩

theorem unit?_eq_some_iff (a b c d : Char) (n : Nat) :
    unit? a b c d = some n ↔ n < 0x10000 ∧ [a, b, c, d].map Char.toLower = hexDigits n := by
  simp only [unit?, Option.bind_eq_bind, Option.bind_eq_some_iff, Option.pure_def,
    Option.some.injEq, digit_eq_some_iff, hexDigits, List.map_cons, List.map_nil,
    List.cons.injEq, and_true]
  constructor
  · rintro ⟨w, ⟨wSmall, hw⟩, x, ⟨xSmall, hx⟩, y, ⟨ySmall, hy⟩, z, ⟨zSmall, hz⟩, rfl⟩
    exact ⟨by omega, hw.trans (congrArg _ (by omega)), hx.trans (congrArg _ (by omega)),
      hy.trans (congrArg _ (by omega)), hz.trans (congrArg _ (by omega))⟩
  · rintro ⟨small, hw, hx, hy, hz⟩
    exact ⟨_, ⟨by omega, hw⟩, _, ⟨by omega, hx⟩, _, ⟨by omega, hy⟩, _, ⟨by omega, hz⟩, by omega⟩

theorem escape?_eq_some_iff (letter c : Char) :
    escape? letter = some c ↔ (letter, c) ∈ escapes := by
  constructor
  · intro read
    unfold escape? at read
    split_ifs at read with own
    · cases read
      rcases own with rfl | rfl | rfl <;> decide
    all_goals
      cases read
      subst letter
      decide
  · have every : ∀ pair ∈ escapes, escape? pair.1 = some pair.2 := by decide
    exact every (letter, c)

namespace Piece

inductive Written : Piece → List Char → Prop where
  | plain (c : Char) (quote : c ≠ '"') (backslash : c ≠ '\\') : Written (.plain c) [c]
  | escaped (letter c : Char) (listed : (letter, c) ∈ escapes) :
    Written (.escaped c) ['\\', letter]
  | unit (n : Nat) (chars : List Char) (small : n < 0x10000) (spelt : UnitText n chars) :
    Written (.unit n) chars

theorem scan_eq_nil_iff (chars rest : List Char) :
    scan chars = some ([], rest) ↔ chars = '"' :: rest := by
  constructor
  · intro scanned
    unfold scan at scanned
    split at scanned
    · cases scanned
    · simp [Option.bind_eq_some_iff] at scanned
    · simp [Option.bind_eq_some_iff] at scanned
    · split at scanned
      · rename_i quote
        cases scanned
        rw [quote]
      · simp [Option.bind_eq_some_iff] at scanned
  · rintro rfl
    rfl

theorem exists_of_scan (chars rest : List Char) (piece : Piece) (pieces : List Piece)
    (scanned : scan chars = some (piece :: pieces, rest)) :
    ∃ part tail, chars = part ++ tail ∧ Written piece part ∧ scan tail = some (pieces, rest) := by
  unfold scan at scanned
  split at scanned
  · cases scanned
  · rename_i a b c d tail
    simp only [Option.bind_eq_bind, Option.bind_eq_some_iff, Option.pure_def, Option.some.injEq,
      Prod.mk.injEq, List.cons.injEq] at scanned
    obtain ⟨n, read, ⟨others, after⟩, later, ⟨rfl, rfl⟩, rfl⟩ := scanned
    obtain ⟨small, spelt⟩ := (unit?_eq_some_iff a b c d n).mp read
    exact ⟨_, tail, rfl, .unit n _ small ⟨[a, b, c, d], rfl, spelt⟩, later⟩
  · rename_i letter tail _
    simp only [Option.bind_eq_bind, Option.bind_eq_some_iff, Option.pure_def, Option.some.injEq,
      Prod.mk.injEq, List.cons.injEq] at scanned
    obtain ⟨c, read, ⟨others, after⟩, later, ⟨rfl, rfl⟩, rfl⟩ := scanned
    exact ⟨_, tail, rfl, .escaped letter c ((escape?_eq_some_iff letter c).mp read), later⟩
  · rename_i c tail noUnit noEscape
    split at scanned
    · cases scanned
    · rename_i quote
      simp only [Option.bind_eq_bind, Option.bind_eq_some_iff, Option.pure_def, Option.some.injEq,
        Prod.mk.injEq, List.cons.injEq] at scanned
      obtain ⟨⟨others, after⟩, later, ⟨rfl, rfl⟩, rfl⟩ := scanned
      refine ⟨_, tail, rfl, .plain c quote ?_, later⟩
      -- A backslash at the end of the text has nothing behind it to scan.
      rintro rfl
      cases tail with
      | nil => cases later
      | cons letter tail => exact noEscape letter tail rfl rfl

theorem scan_append (piece : Piece) (part tail rest : List Char) (pieces : List Piece)
    (written : Written piece part) (later : scan tail = some (pieces, rest)) :
    scan (part ++ tail) = some (piece :: pieces, rest) := by
  cases written with
  | plain c quote backslash =>
    rw [List.singleton_append, scan, if_neg quote, later]
    · rfl
    · exact fun _ _ _ _ _ same _ => backslash same
    · exact fun _ _ same _ => backslash same
  | escaped letter c listed =>
    have read := (escape?_eq_some_iff letter c).mpr listed
    rw [List.cons_append, List.singleton_append, scan, read, later]
    · rfl
    · rintro _ _ _ _ _ rfl
      cases read
  | unit n chars small spelt =>
    obtain ⟨digits, rfl, lower⟩ := spelt
    have four : digits.length = 4 := by simpa [hexDigits] using congrArg List.length lower
    obtain ⟨a, b, c, d, rfl⟩ := List.length_eq_four.mp four
    have read := (unit?_eq_some_iff a b c d n).mpr ⟨small, lower⟩
    simp only [List.cons_append, List.nil_append, scan, read, later, Option.bind_eq_bind,
      Option.bind_some, Option.pure_def]

theorem scan_eq_some_iff (chars rest : List Char) (pieces : List Piece) :
    scan chars = some (pieces, rest) ↔
      ∃ parts, List.Forall₂ Written pieces parts ∧ chars = parts.flatten ++ '"' :: rest := by
  induction pieces generalizing chars with
  | nil =>
    rw [scan_eq_nil_iff]
    constructor
    · exact fun eq => ⟨[], .nil, eq⟩
    · rintro ⟨_, ⟨⟩, eq⟩
      exact eq
  | cons piece pieces ih =>
    constructor
    · intro scanned
      obtain ⟨part, tail, rfl, written, later⟩ := exists_of_scan chars rest piece pieces scanned
      obtain ⟨parts, others, rfl⟩ := (ih tail).mp later
      exact ⟨part :: parts, .cons written others, by rw [List.flatten_cons, List.append_assoc]⟩
    · rintro ⟨_, written, rfl⟩
      cases written with
      | cons here others =>
        rw [List.flatten_cons, List.append_assoc]
        exact scan_append piece _ _ rest pieces here ((ih _).mpr ⟨_, others, rfl⟩)

theorem to_nat_of_nat_of_valid (n : Nat) (valid : n.isValidChar) : (Char.ofNat n).toNat = n := by
  rw [Char.ofNat, dif_pos valid]
  rfl

theorem units_of_scalar (n : Nat) (small : n < 0x10000) (notHigh : isHighSurrogate n = false)
    (notLow : isLowSurrogate n = false) : units (Char.ofNat n) = [n] := by
  rw [is_high_surrogate_eq_false_iff] at notHigh
  rw [is_low_surrogate_eq_false_iff] at notLow
  have valid : n.isValidChar := by
    unfold Nat.isValidChar
    omega
  rw [units, to_nat_of_nat_of_valid n valid, if_pos small]

theorem units_of_pair (high low : Nat) (isHigh : isHighSurrogate high = true)
    (isLow : isLowSurrogate low = true) : units (Char.ofNat (surrogatePair high low)) = [high, low] := by
  simp only [isHighSurrogate, isLowSurrogate, Bool.and_eq_true, decide_eq_true_eq] at isHigh isLow
  have pair : surrogatePair high low = 0x10000 + (high - 0xD800) * 0x400 + (low - 0xDC00) := rfl
  generalize surrogatePair high low = n at pair
  have valid : n.isValidChar := by
    unfold Nat.isValidChar
    omega
  have first : 0xD800 + (n - 0x10000) / 0x400 = high := by omega
  have second : 0xDC00 + (n - 0x10000) % 0x400 = low := by omega
  rw [units, to_nat_of_nat_of_valid n valid, if_neg (by omega), first, second]

theorem unit_text_of_written (n : Nat) (part : List Char) (written : Written (.unit n) part) :
    n < 0x10000 ∧ UnitText n part := by
  cases written with
  | unit _ _ small spelt => exact ⟨small, spelt⟩

theorem char_text_of_unit (n : Nat) (part : List Char) (notHigh : isHighSurrogate n = false)
    (notLow : isLowSurrogate n = false) (written : Written (.unit n) part) :
    CharText (Char.ofNat n) part := by
  obtain ⟨small, unit⟩ := unit_text_of_written n part written
  have one : List.Forall₂ UnitText (units (Char.ofNat n)) [part] := by
    rw [units_of_scalar n small notHigh notLow]
    exact .cons unit .nil
  rw [← List.append_nil part]
  exact .units _ [part] one

theorem exists_cons (piece : Piece) (rest : List Piece) (c : Char) (meant : List Char)
    (parts : List (List Char)) (read : (chars? rest).map (c :: ·) = some meant)
    (written : List.Forall₂ Written (piece :: rest) parts)
    (own : ∀ part, Written piece part → CharText c part)
    (later : ∀ meant parts, chars? rest = some meant → List.Forall₂ Written rest parts →
      ∃ others, List.Forall₂ CharText meant others ∧ others.flatten = parts.flatten) :
    ∃ others, List.Forall₂ CharText meant others ∧ others.flatten = parts.flatten := by
  obtain ⟨tail, readTail, rfl⟩ := Option.map_eq_some_iff.mp read
  obtain ⟨part, back, here, writtenBack, rfl⟩ := List.forall₂_cons_left_iff.mp written
  obtain ⟨others, spelt, same⟩ := later tail back readTail writtenBack
  exact ⟨part :: others, .cons (own part here) spelt,
    by rw [List.flatten_cons, List.flatten_cons, same]⟩

theorem exists_of_chars? (pieces : List Piece) (meant : List Char) (parts : List (List Char))
    (read : chars? pieces = some meant) (written : List.Forall₂ Written pieces parts) :
    ∃ others, List.Forall₂ CharText meant others ∧ others.flatten = parts.flatten := by
  fun_induction chars? pieces generalizing meant parts with
  | case1 =>
    cases read
    cases written
    exact ⟨[], .nil, rfl⟩
  | case2 | case6 | case7 | case9 => cases read
  | case3 c rest visible ih =>
    refine exists_cons (.plain c) rest c meant parts read written (fun part here => ?_) ih
    cases here with
    | plain _ quote backslash => exact .plain c (by simpa [isControl] using visible) quote backslash
  | case4 c rest ih =>
    refine exists_cons (.escaped c) rest c meant parts read written (fun part here => ?_) ih
    cases here with
    | escaped letter _ listed => exact .escaped letter c listed
  | case5 high low rest isHigh isLow ih =>
    obtain ⟨later, readLater, rfl⟩ := Option.map_eq_some_iff.mp read
    obtain ⟨first, _, writesHigh, writtenRest, rfl⟩ := List.forall₂_cons_left_iff.mp written
    obtain ⟨second, tail, writesLow, writtenLater, rfl⟩ := List.forall₂_cons_left_iff.mp writtenRest
    obtain ⟨others, spelt, same⟩ := ih later tail readLater writtenLater
    have both : List.Forall₂ UnitText (units (Char.ofNat (surrogatePair high low)))
        [first, second] := by
      rw [units_of_pair high low isHigh isLow]
      exact .cons (unit_text_of_written high first writesHigh).2
        (.cons (unit_text_of_written low second writesLow).2 .nil)
    refine ⟨_, .cons (.units _ _ both) spelt, ?_⟩
    simp only [List.flatten_cons, List.flatten_nil, List.append_nil, List.append_assoc, same]
  | case8 n next rest notHigh notLow ih =>
    rw [Bool.not_eq_true] at notHigh notLow
    exact exists_cons (.unit n) (.unit next :: rest) _ meant parts read written
      (fun part here => char_text_of_unit n part notHigh notLow here) ih
  | case10 n rest _ whole ih =>
    rw [Bool.not_eq_true, Bool.or_eq_false_iff] at whole
    exact exists_cons (.unit n) rest _ meant parts read written
      (fun part here => char_text_of_unit n part whole.1 whole.2 here) ih

theorem exists_pieces_of_char_text (c : Char) (part : List Char) (spelt : CharText c part) :
    ∃ front others, List.Forall₂ Written front others ∧ others.flatten = part ∧
      ∀ rest, chars? (front ++ rest) = (chars? rest).map (c :: ·) := by
  cases spelt with
  | plain _ visible quote backslash =>
    have shown : isControl c = false := by simpa [isControl] using visible
    exact ⟨_, _, .cons (.plain c quote backslash) .nil, by simp, fun rest => by simp [chars?, shown]⟩
  | escaped letter _ listed =>
    exact ⟨_, _, .cons (.escaped letter c listed) .nil, by simp, fun rest => by simp [chars?]⟩
  | units _ parts unitTexts =>
    have valid := c.valid
    change c.toNat.isValidChar at valid
    unfold Nat.isValidChar at valid
    by_cases small : c.toNat < 0x10000
    · rw [units, if_pos small, List.forall₂_cons_left_iff] at unitTexts
      obtain ⟨part, _, unit, ⟨⟩, rfl⟩ := unitTexts
      have notHigh := (is_high_surrogate_eq_false_iff c.toNat).mpr (by omega)
      have notLow := (is_low_surrogate_eq_false_iff c.toNat).mpr (by omega)
      refine ⟨_, _, .cons (.unit c.toNat part small unit) .nil, rfl, fun rest => ?_⟩
      rw [List.singleton_append, chars?_unit c.toNat notHigh notLow, Char.ofNat_toNat]
    · have isHigh : isHighSurrogate (0xD800 + (c.toNat - 0x10000) / 0x400) = true := by
        simp only [isHighSurrogate, Bool.and_eq_true, decide_eq_true_eq]
        omega
      have isLow : isLowSurrogate (0xDC00 + (c.toNat - 0x10000) % 0x400) = true := by
        simp only [isLowSurrogate, Bool.and_eq_true, decide_eq_true_eq]
        omega
      have pair : surrogatePair (0xD800 + (c.toNat - 0x10000) / 0x400)
          (0xDC00 + (c.toNat - 0x10000) % 0x400) = c.toNat := by
        unfold surrogatePair
        omega
      rw [units, if_neg small, List.forall₂_cons_left_iff] at unitTexts
      obtain ⟨first, _, highUnit, lowUnits, rfl⟩ := unitTexts
      obtain ⟨second, _, lowUnit, ⟨⟩, rfl⟩ := List.forall₂_cons_left_iff.mp lowUnits
      refine ⟨_, _, .cons (.unit _ first (by omega) highUnit)
        (.cons (.unit _ second (by omega) lowUnit) .nil), rfl, fun rest => ?_⟩
      simp only [List.cons_append, List.nil_append, chars?, isHigh, isLow, if_true, pair,
        Char.ofNat_toNat]

theorem exists_pieces (meant : List Char) (parts : List (List Char))
    (spelt : List.Forall₂ CharText meant parts) :
    ∃ pieces others, List.Forall₂ Written pieces others ∧ others.flatten = parts.flatten ∧
      chars? pieces = some meant := by
  induction spelt with
  | nil => exact ⟨[], [], .nil, rfl, rfl⟩
  | cons here _ ih =>
    obtain ⟨pieces, others, written, same, read⟩ := ih
    obtain ⟨front, texts, writtenFront, sameFront, readFront⟩ := exists_pieces_of_char_text _ _ here
    refine ⟨front ++ pieces, texts ++ others, List.rel_append writtenFront written, ?_, ?_⟩
    · rw [List.flatten_append, List.flatten_cons, sameFront, same]
    · rw [readFront, read, Option.map_some]

theorem scan_text_iff (body rest : List Char) (text : String) :
    (∃ pieces, scan body = some (pieces, rest) ∧ text? pieces = some text) ↔
      ∃ chars, StringText text chars ∧ '"' :: body = chars ++ rest := by
  simp only [text?, Option.map_eq_some_iff, scan_eq_some_iff]
  constructor
  · rintro ⟨pieces, ⟨parts, written, rfl⟩, meant, read, rfl⟩
    obtain ⟨others, spelt, same⟩ := exists_of_chars? pieces meant parts read written
    exact ⟨_, ⟨others, by rwa [String.toList_ofList], rfl⟩, by simp [same]⟩
  · rintro ⟨_, ⟨parts, spelt, rfl⟩, eq⟩
    obtain ⟨pieces, others, written, same, read⟩ := exists_pieces _ parts spelt
    exact ⟨pieces, ⟨others, written, by simpa [same] using eq⟩, _, read, String.ofList_toList⟩

end Piece

end Envelope.Json
