import Envelope.Proofs.Json.Numbers
import Envelope.Proofs.Json.Tree

set_option autoImplicit false

namespace Envelope.Json

open Text (after? after?_append)

namespace Piece

def ofChar (c : Char) : Piece :=
  if c = '"' ∨ c = '\\' ∨ c = '\x08' ∨ c = '\x0c' ∨ c = '\n' ∨ c = '\r' ∨ c = '\t' then .escaped c
  else if c.toNat < 0x20 then .unit c.toNat
  else .plain c

theorem unit?_control (n : Nat) (control : n < 0x20) :
    unit? '0' '0' (Nat.digitChar (n / 16)) (Nat.digitChar (n % 16)) = some n := by
  have every : ∀ m : Fin 0x20,
      unit? '0' '0' (Nat.digitChar (m.val / 16)) (Nat.digitChar (m.val % 16)) = some m.val := by
    decide
  exact every ⟨n, control⟩

theorem scan_escape_char (c : Char) (rest : List Char) :
    scan (escapeChar c ++ rest) = (scan rest).map fun scanned => (ofChar c :: scanned.1, scanned.2) := by
  by_cases named : c = '"' ∨ c = '\\' ∨ c = '\x08' ∨ c = '\x0c' ∨ c = '\n' ∨ c = '\r' ∨ c = '\t'
  · rcases named with rfl | rfl | rfl | rfl | rfl | rfl | rfl <;>
      cases scanned : scan rest <;> simp [escapeChar, scan, escape?, scanned, ofChar]
  · have plain := named
    simp only [not_or] at plain
    obtain ⟨quote, backslash, backspace, feed, newline, carriage, tab⟩ := plain
    by_cases control : c.toNat < 0x20
    · simp only [escapeChar, quote, backslash, backspace, feed, newline, carriage, tab, control,
        if_false, if_true, controlEscape, ofChar, or_self, List.cons_append, List.nil_append, scan,
        unit?_control c.toNat control, Option.bind_eq_bind, Option.bind_some]
      cases scan rest <;> rfl
    · simp only [escapeChar, quote, backslash, backspace, feed, newline, carriage, tab, control,
        if_false, ofChar, or_self, List.cons_append, List.nil_append]
      rw [scan]
      · rw [if_neg quote]
        cases scan rest <;> rfl
      · exact fun _ _ _ _ _ same _ => backslash same
      · exact fun _ _ same _ => backslash same

theorem scan_escaped (chars rest : List Char) :
    scan (chars.flatMap escapeChar ++ '"' :: rest) = some (chars.map ofChar, rest) := by
  induction chars with
  | nil => simp [scan]
  | cons c tail ih =>
    rw [List.flatMap_cons, List.append_assoc, scan_escape_char, ih]
    rfl

theorem chars?_unit (n : Nat) (notHigh : isHighSurrogate n = false)
    (notLow : isLowSurrogate n = false) (rest : List Piece) :
    chars? (.unit n :: rest) = (chars? rest).map (Char.ofNat n :: ·) := by
  cases rest with
  | nil => simp [chars?, notHigh, notLow]
  | cons piece tail => cases piece <;> simp [chars?, notHigh, notLow]

theorem is_high_surrogate_eq_false_iff (n : Nat) :
    isHighSurrogate n = false ↔ n < 0xD800 ∨ 0xDC00 ≤ n := by
  simp only [isHighSurrogate, Bool.and_eq_false_iff, decide_eq_false_iff_not]
  omega

theorem is_low_surrogate_eq_false_iff (n : Nat) :
    isLowSurrogate n = false ↔ n < 0xDC00 ∨ 0xE000 ≤ n := by
  simp only [isLowSurrogate, Bool.and_eq_false_iff, decide_eq_false_iff_not]
  omega

theorem chars?_of_char (c : Char) (rest : List Piece) :
    chars? (ofChar c :: rest) = (chars? rest).map (c :: ·) := by
  unfold ofChar
  split
  · rfl
  · split
    · rename_i control
      have notHigh := (is_high_surrogate_eq_false_iff c.toNat).mpr (by omega)
      have notLow := (is_low_surrogate_eq_false_iff c.toNat).mpr (by omega)
      rw [chars?_unit c.toNat notHigh notLow, Char.ofNat_toNat]
    · rename_i visible
      simp [chars?, isControl, visible]

theorem text?_of_char (text : String) : text? (text.toList.map ofChar) = some text := by
  have back : ∀ chars : List Char, chars? (chars.map ofChar) = some chars := by
    intro chars
    induction chars with
    | nil => rfl
    | cons c tail ih => rw [List.map_cons, chars?_of_char, ih, Option.map_some]
  simp [text?, back]

end Piece

theorem quote_append (text : String) (rest : List Char) :
    quote text ++ rest = '"' :: (text.toList.flatMap escapeChar ++ '"' :: rest) := by
  simp [quote]

theorem skip_gaps_cons (c : Char) (rest : List Char) (solid : isGap c = false) :
    skipGaps (c :: rest) = c :: rest := by
  simp [skipGaps, solid]

mutual
def raw : Json → Raw
  | .null => .null
  | .bool b => .bool b
  | .num n => .num n.numeral
  | .str text => .str (text.toList.map Piece.ofChar)
  | .arr items => .arr (rawItems items)
  | .obj members => .obj (rawMembers members)
def rawItems : List Json → List Raw
  | [] => []
  | item :: rest => raw item :: rawItems rest
def rawMembers : List (String × Json) → List (List Piece × Raw)
  | [] => []
  | (key, value) :: rest => (key.toList.map Piece.ofChar, raw value) :: rawMembers rest
end

-- The text of the value scans as its tree, up to what closes it.
def Scans (value : Json) : Prop :=
  ∀ fuel rest, 2 * (chars value).length ≤ fuel → Closing rest →
    Raw.scan fuel (chars value ++ rest) = some (raw value, rest)

theorem chars_head (value : Json) (legible : ∀ n ∈ numbers value, n.Legible) :
    ∃ c tail, chars value = c :: tail ∧ isGap c = false ∧ c ≠ ']' := by
  cases value with
  | null => exact ⟨_, _, rfl, rfl, by decide⟩
  | bool b => cases b <;> exact ⟨_, _, rfl, rfl, by decide⟩
  | num n =>
    obtain ⟨c, tail, eq, sign⟩ := n.head_of_legible (legible n (by simp [numbers]))
    refine ⟨c, tail, eq, ?_, ?_⟩
    · rcases sign with rfl | digit
      · rfl
      · rw [← Bool.not_eq_true]
        simp only [isGap, Bool.or_eq_true, decide_eq_true_eq]
        rintro (((rfl | rfl) | rfl) | rfl) <;> cases digit
    · rintro rfl
      rcases sign with minus | digit
      · cases minus
      · cases digit
  | str s => exact ⟨_, _, rfl, rfl, by decide⟩
  | arr items => cases items <;> exact ⟨_, _, rfl, rfl, by decide⟩
  | obj members =>
    cases members with
    | nil => exact ⟨_, _, rfl, rfl, by decide⟩
    | cons member rest => exact ⟨_, _, rfl, rfl, by decide⟩

theorem scan_scalar_num (n : Number) (legible : n.Legible) (rest : List Char)
    (closing : Closing rest) : Raw.scanScalar (n.chars ++ rest) = some (.num n.numeral, rest) := by
  have scanned := n.scan_of_legible legible rest closing
  obtain ⟨c, tail, eq, sign⟩ := n.head_of_legible legible
  have different : 'n' ≠ c ∧ 't' ≠ c ∧ 'f' ≠ c := by
    refine ⟨?_, ?_, ?_⟩ <;>
      · rintro rfl
        rcases sign with minus | digit
        · cases minus
        · cases digit
  rw [eq, List.cons_append] at scanned ⊢
  simp only [Raw.scanScalar, after?, different, if_false, scanned, Option.map_some]

theorem scans_num (n : Number) (legible : n.Legible) : Scans (.num n) := by
  intro fuel rest enough closing
  have scanned := scan_scalar_num n legible rest closing
  obtain ⟨c, tail, eq, sign⟩ := n.head_of_legible legible
  have solid : isGap c = false ∧ c ≠ '{' ∧ c ≠ '[' ∧ c ≠ '"' := by
    rcases sign with rfl | digit
    · decide
    · refine ⟨?_, ?_, ?_, ?_⟩
      · rw [← Bool.not_eq_true]
        simp only [isGap, Bool.or_eq_true, decide_eq_true_eq]
        rintro (((rfl | rfl) | rfl) | rfl) <;> cases digit
      all_goals
        rintro rfl
        cases digit
  simp only [chars, eq, List.cons_append, List.length_cons] at enough scanned ⊢
  cases fuel with
  | zero => omega
  | succ fuel =>
    simp only [Raw.scan, skip_gaps_cons c _ solid.1, solid.2, if_false]
    exact scanned

theorem scans_str (text : String) : Scans (.str text) := by
  intro fuel rest enough _
  cases fuel with
  | zero => simp [chars, quote] at enough
  | succ fuel =>
    simp only [chars, quote_append, Raw.scan, skip_gaps_cons '"' _ rfl]
    simp [Piece.scan_escaped, raw]

theorem scans_word (value : Json) (word : value = .null ∨ ∃ b, value = .bool b) : Scans value := by
  intro fuel rest enough _
  rcases word with rfl | ⟨b, rfl⟩
  · cases fuel with
    | zero => simp [chars] at enough
    | succ fuel => rfl
  · cases b <;>
      · cases fuel with
        | zero => simp [chars] at enough
        | succ fuel => rfl

theorem scan_items_chars (items : List Json) (item : Json)
    (every : ∀ value ∈ item :: items, Scans value) (fuel : Nat) (rest : List Char)
    (enough : 2 * ((chars item).length + (itemsChars items).length) + 1 ≤ fuel) :
    Raw.scanItems fuel (chars item ++ (itemsChars items ++ rest)) =
      some (rawItems (item :: items), rest) := by
  induction items generalizing item fuel with
  | nil =>
    cases fuel with
    | zero => omega
    | succ fuel =>
      have scanned := every item List.mem_cons_self fuel (']' :: rest) (by omega)
        (closing_cons _ _ (by decide))
      simp [Raw.scanItems, itemsChars, scanned, skipGaps, isGap, rawItems]
  | cons next more ih =>
    simp only [itemsChars, List.cons_append, List.length_cons, List.length_append] at enough ⊢
    cases fuel with
    | zero => omega
    | succ fuel =>
      have scanned := every item List.mem_cons_self fuel
        (',' :: ((chars next ++ itemsChars more) ++ rest)) (by omega) (closing_cons _ _ (by decide))
      have scannedRest := ih next (fun value member => every value (List.mem_cons_of_mem _ member))
        fuel (by omega)
      rw [List.append_assoc] at scanned ⊢
      rw [rawItems]
      simp [Raw.scanItems, scanned, scannedRest, skipGaps, isGap]

theorem scan_members_chars (members : Table Json) (key : String) (value : Json)
    (every : ∀ member ∈ (key, value) :: members, Scans member.2) (fuel : Nat) (rest : List Char)
    (enough : 2 * ((chars value).length + (membersChars members).length) + 1 ≤ fuel) :
    Raw.scanMembers fuel (quote key ++ ':' :: (chars value ++ (membersChars members ++ rest))) =
      some (rawMembers ((key, value) :: members), rest) := by
  induction members generalizing key value fuel with
  | nil =>
    have scans : Scans value := every (key, value) List.mem_cons_self
    cases fuel with
    | zero => omega
    | succ fuel =>
      have scanned := scans fuel ('}' :: rest) (by omega) (closing_cons _ _ (by decide))
      simp [Raw.scanMembers, quote_append, skipGaps, isGap, after?, Piece.scan_escaped, membersChars,
        scanned, rawMembers]
  | cons next more ih =>
    obtain ⟨nextKey, nextValue⟩ := next
    have scans : Scans value := every (key, value) List.mem_cons_self
    simp only [membersChars, List.cons_append, List.length_cons, List.length_append] at enough ⊢
    cases fuel with
    | zero => omega
    | succ fuel =>
      have scanned := scans fuel
        (',' :: ((quote nextKey ++ ':' :: (chars nextValue ++ membersChars more)) ++ rest))
        (by omega) (closing_cons _ _ (by decide))
      have scannedRest := ih nextKey nextValue
        (fun member present => every member (List.mem_cons_of_mem _ present)) fuel (by omega)
      simp only [List.append_assoc, List.cons_append] at scanned ⊢
      rw [rawMembers]
      simp [Raw.scanMembers, quote_append key, skipGaps, isGap, after?, Piece.scan_escaped, scanned,
        scannedRest]

theorem scans_arr (items : List Json) (every : ∀ item ∈ items, Scans item)
    (legible : ∀ item ∈ items, ∀ n ∈ numbers item, n.Legible) : Scans (.arr items) := by
  intro fuel rest enough closing
  cases items with
  | nil =>
    cases fuel with
    | zero => simp [chars] at enough
    | succ fuel => rfl
  | cons item items =>
    simp only [chars, List.cons_append, List.length_cons, List.length_append] at enough ⊢
    cases fuel with
    | zero => omega
    | succ fuel =>
      have scanned := scan_items_chars items item every fuel rest (by omega)
      obtain ⟨c, tail, eq, solid, inside⟩ := chars_head item (legible item List.mem_cons_self)
      rw [eq, List.cons_append] at scanned
      rw [List.append_assoc, eq, List.cons_append, raw]
      simp [Raw.scan, skip_gaps_cons '[' _ rfl, skip_gaps_cons c _ solid, after?, Ne.symm inside,
        scanned]

theorem scans_obj (members : Table Json) (every : ∀ member ∈ members, Scans member.2) :
    Scans (.obj members) := by
  intro fuel rest enough closing
  cases members with
  | nil =>
    cases fuel with
    | zero => simp [chars] at enough
    | succ fuel => rfl
  | cons member members =>
    obtain ⟨key, value⟩ := member
    simp only [chars, List.cons_append, List.length_cons, List.length_append] at enough ⊢
    cases fuel with
    | zero => omega
    | succ fuel =>
      have scanned := scan_members_chars members key value every fuel rest (by omega)
      rw [quote_append] at scanned
      simp only [List.append_assoc, List.cons_append]
      rw [quote_append, raw]
      simp [Raw.scan, skip_gaps_cons '{' _ rfl, skip_gaps_cons '"' _ rfl, after?, scanned]

theorem scans_of_legible (value : Json) (legible : ∀ n ∈ numbers value, n.Legible) :
    Scans value := by
  induction value with
  | null => exact scans_word _ (Or.inl rfl)
  | bool b => exact scans_word _ (Or.inr ⟨b, rfl⟩)
  | num n => exact scans_num n (legible n (by simp [numbers]))
  | str text => exact scans_str text
  | arr items ih =>
    have inItems : ∀ item ∈ items, ∀ n ∈ numbers item, n.Legible := fun item member n inItem =>
      legible n ((mem_items_numbers_iff items n).mpr ⟨item, member, inItem⟩)
    exact scans_arr items (fun item member => ih item member (inItems item member)) inItems
  | obj members ih =>
    refine scans_obj members fun member present => ih member present fun n inMember => ?_
    exact legible n ((mem_members_numbers_iff members n).mpr ⟨member, present, inMember⟩)

theorem Raw.parse?_text (value : Json) (legible : ∀ n ∈ numbers value, n.Legible) :
    Raw.parse? (text value) = some (raw value) := by
  have scanned := scans_of_legible value legible (2 * (chars value).length + 2) [] (by omega)
    closing_nil
  rw [List.append_nil] at scanned
  simp [Raw.parse?, Raw.parseChars?, text, scanned, skipGaps]

theorem items?_raw_items (items : List Json) (levels : Nat)
    (every : ∀ item ∈ items, (raw item).value? levels = some item) :
    Raw.items? levels (rawItems items) = some items := by
  induction items with
  | nil => rfl
  | cons item rest ih =>
    obtain ⟨here, later⟩ := List.forall_mem_cons.mp every
    simp [rawItems, Raw.items?, here, ih later]

theorem members?_raw_members (members : Table Json) (levels : Nat)
    (every : ∀ member ∈ members, (raw member.2).value? levels = some member.2) :
    Raw.members? levels (rawMembers members) = some members := by
  induction members with
  | nil => rfl
  | cons member rest ih =>
    obtain ⟨here, later⟩ := List.forall_mem_cons.mp every
    simp [rawMembers, Raw.members?, Piece.text?_of_char, here, ih later]

theorem value?_raw (value : Json) (wellFormed : WellFormed value)
    (legible : ∀ n ∈ numbers value, n.Legible) (levels : Nat) (shallow : depth value ≤ levels) :
    (raw value).value? levels = some value := by
  induction value generalizing levels with
  | null | bool b => simp only [raw, Raw.value?]
  | num n =>
    have reads := (n.scan_chars (legible n (by simp [numbers]))).2
    simp only [raw, Raw.value?, reads, Option.map_some]
  | str text => simp only [raw, Raw.value?, Piece.text?_of_char, Option.map_some]
  | arr items ih =>
    have inner := (items_well_formed_iff items).mp wellFormed
    cases levels with
    | zero => simp [depth] at shallow
    | succ levels =>
      simp only [depth, Nat.add_le_add_iff_right, items_depth_le_iff] at shallow
      have every := items?_raw_items items levels fun item member =>
        ih item member (inner item member) (fun n inItem => legible n
          ((mem_items_numbers_iff items n).mpr ⟨item, member, inItem⟩)) levels (shallow item member)
      simp only [raw, Raw.value?, every, Option.map_some]
  | obj members ih =>
    have inner := (members_well_formed_iff members).mp wellFormed.2
    cases levels with
    | zero => simp [depth] at shallow
    | succ levels =>
      simp only [depth, Nat.add_le_add_iff_right, members_depth_le_iff] at shallow
      have every := members?_raw_members members levels fun member present =>
        ih member present (inner member present) (fun n inMember => legible n
          ((mem_members_numbers_iff members n).mpr ⟨member, present, inMember⟩)) levels
          (shallow member present)
      have kept := Table.put_all_of_nodup members [] wellFormed.1
      simp only [raw, Raw.value?, every, Option.map_some, kept, List.nil_append]

theorem items?_eq_none (items : List Json) (levels : Nat) (item : Json) (member : item ∈ items)
    (unread : (raw item).value? levels = none) : Raw.items? levels (rawItems items) = none := by
  induction items with
  | nil => cases member
  | cons head rest ih =>
    rw [rawItems, Raw.items?]
    rcases List.mem_cons.mp member with rfl | later
    · rw [unread, Option.bind_eq_bind, Option.bind_none]
    · rw [ih later]
      cases (raw head).value? levels <;> rfl

theorem members?_eq_none (members : Table Json) (levels : Nat) (member : String × Json)
    (present : member ∈ members) (unread : (raw member.2).value? levels = none) :
    Raw.members? levels (rawMembers members) = none := by
  induction members with
  | nil => cases present
  | cons head rest ih =>
    rw [rawMembers, Raw.members?, Piece.text?_of_char]
    rcases List.mem_cons.mp present with rfl | later
    · rw [unread]
      rfl
    · rw [ih later]
      cases (raw head.2).value? levels <;> rfl

theorem value?_raw_of_deep (value : Json) (levels : Nat) (deep : ¬ depth value ≤ levels) :
    (raw value).value? levels = none := by
  induction value generalizing levels with
  | null | bool | num | str => exact absurd (Nat.zero_le levels) deep
  | arr items ih =>
    cases levels with
    | zero => rfl
    | succ levels =>
      simp only [depth, Nat.add_le_add_iff_right, items_depth_le_iff,
        Classical.not_forall] at deep
      obtain ⟨item, member, deeper⟩ := deep
      rw [raw, Raw.value?, items?_eq_none items levels item member (ih item member levels deeper),
        Option.map_none]
  | obj members ih =>
    cases levels with
    | zero => rfl
    | succ levels =>
      simp only [depth, Nat.add_le_add_iff_right, members_depth_le_iff,
        Classical.not_forall] at deep
      obtain ⟨member, present, deeper⟩ := deep
      rw [raw, Raw.value?, members?_eq_none members levels member present
        (ih member present levels deeper), Option.map_none]

theorem parse?_text (value : Json) (wellFormed : WellFormed value)
    (legible : ∀ n ∈ numbers value, n.Legible) (shallow : depth value ≤ Raw.depthLimit) :
    parse? (text value) = some value := by
  rw [parse?, Raw.parse?_text value legible, Option.bind_some,
    value?_raw value wellFormed legible _ shallow]

/-- The plaintext of a value reads back as the value with the keys of its objects sorted. -/
theorem of_bytes?_canonical_bytes (value : Json) (wellFormed : WellFormed value)
    (legible : ∀ n ∈ numbers value, n.Legible) (shallow : depth value ≤ Raw.depthLimit) :
    ofBytes? (canonicalBytes value) = some (sortKeys value) := by
  have parsed := parse?_text (sortKeys value) (well_formed_sort_keys value wellFormed)
    (fun n member => legible n (mem_numbers_sort_keys value wellFormed n member))
    ((depth_sort_keys_le_iff value wellFormed _).mpr shallow)
  simp only [ofBytes?, canonicalBytes, Utf8.decode?_encode, Option.bind_some, canonical, parsed]

/-- The plaintext of a value that nests too deep does not read back. -/
theorem of_bytes?_canonical_bytes_of_deep (value : Json) (wellFormed : WellFormed value)
    (legible : ∀ n ∈ numbers value, n.Legible) (deep : ¬ depth value ≤ Raw.depthLimit) :
    ofBytes? (canonicalBytes value) = none := by
  have unread := value?_raw_of_deep (sortKeys value) Raw.depthLimit
    (mt (depth_sort_keys_le_iff value wellFormed _).mp deep)
  have tree := Raw.parse?_text (sortKeys value)
    fun n member => legible n (mem_numbers_sort_keys value wellFormed n member)
  simp only [ofBytes?, canonicalBytes, Utf8.decode?_encode, Option.bind_some, canonical, parse?, tree,
    unread]

end Envelope.Json
