import Envelope.Json.Fields
import Envelope.Proofs.Json.Strings
import Mathlib.Data.List.DropRight

set_option autoImplicit false

namespace Envelope.Json

open Text (after? after?_eq_some_iff)

def Gap (chars : List Char) : Prop :=
  ∀ c ∈ chars, isGap c = true

def MemberText (member : String × String) (chars : List Char) : Prop :=
  ∃ before name between after value behind,
    (Gap before ∧ Gap between ∧ Gap after ∧ Gap behind) ∧
      StringText member.1 name ∧ StringText member.2 value ∧
      chars = before ++ (name ++ (between ++ ':' :: (after ++ (value ++ behind))))

theorem gap_nil : Gap [] :=
  fun _ member => nomatch member

theorem member_text_of_plain (name text : String) (plainName : PlainText name)
    (plain : PlainText text) :
    MemberText (name, text) ('"' :: (name.toList ++ ['"']) ++ ':' :: '"' :: (text.toList ++ ['"'])) :=
  ⟨[], _, [], [], _, [], ⟨gap_nil, gap_nil, gap_nil, gap_nil⟩, string_text_of_plain name plainName,
    string_text_of_plain text plain, by rw [List.append_nil]; rfl⟩

inductive MembersText : Table String → List Char → Prop where
  | one (member : String × String) (part : List Char) (written : MemberText member part) :
    MembersText [member] part
  | more (member : String × String) (part : List Char) (rest : Table String) (tail : List Char)
    (written : MemberText member part) (later : MembersText rest tail) :
    MembersText (member :: rest) (part ++ ',' :: tail)

def ObjectText (members : Table String) (text : String) : Prop :=
  ∃ before inner behind, Gap before ∧ Gap behind ∧
    text.toList = before ++ '{' :: (inner ++ '}' :: behind) ∧
      (members = [] ∧ Gap inner ∨ MembersText members inner)

theorem skip_gaps_append (gap rest : List Char) (blank : Gap gap) :
    skipGaps (gap ++ rest) = skipGaps rest :=
  List.dropWhile_append_of_pos blank

theorem exists_gap (chars : List Char) : ∃ gap, Gap gap ∧ chars = gap ++ skipGaps chars :=
  ⟨chars.takeWhile isGap, fun _ member => List.mem_takeWhile_imp member,
    List.takeWhile_append_dropWhile.symm⟩

theorem skip_gaps_eq_cons_iff (chars rest : List Char) (c : Char) (solid : isGap c = false) :
    skipGaps chars = c :: rest ↔ ∃ gap, Gap gap ∧ chars = gap ++ c :: rest := by
  constructor
  · intro skipped
    obtain ⟨gap, blank, eq⟩ := exists_gap chars
    exact ⟨gap, blank, skipped ▸ eq⟩
  · rintro ⟨gap, blank, rfl⟩
    rw [skip_gaps_append gap _ blank]
    simp [skipGaps, solid]

theorem skip_gaps_eq_nil_iff (chars : List Char) : skipGaps chars = [] ↔ Gap chars :=
  List.dropWhile_eq_nil_iff

def StringAt (chars : List Char) (pieces : List Piece) (rest : List Char) : Prop :=
  ∃ body, skipGaps chars = '"' :: body ∧ Piece.scan body = some (pieces, rest)

theorem string_at_iff (chars rest : List Char) (text : String) :
    (∃ pieces, StringAt chars pieces rest ∧ Piece.text? pieces = some text) ↔
      ∃ gap string, Gap gap ∧ StringText text string ∧ chars = gap ++ (string ++ rest) := by
  constructor
  · rintro ⟨pieces, ⟨body, opened, scanned⟩, read⟩
    obtain ⟨gap, blank, rfl⟩ := (skip_gaps_eq_cons_iff chars body '"' (by decide)).mp opened
    obtain ⟨string, written, eq⟩ := (Piece.scan_text_iff body rest text).mp ⟨pieces, scanned, read⟩
    exact ⟨gap, string, blank, written, by rw [eq]⟩
  · rintro ⟨gap, string, blank, written, rfl⟩
    obtain ⟨body, eq⟩ : ∃ body, string ++ rest = '"' :: body := by
      obtain ⟨parts, -, rfl⟩ := written
      exact ⟨_, rfl⟩
    obtain ⟨pieces, scanned, read⟩ := (Piece.scan_text_iff body rest text).mpr ⟨string, written, eq.symm⟩
    refine ⟨pieces, ⟨body, ?_, scanned⟩, read⟩
    rw [eq, skip_gaps_eq_cons_iff _ body '"' (by decide)]
    exact ⟨gap, blank, rfl⟩

namespace Raw

theorem scan_scalar_cases (chars rest : List Char) (raw : Raw)
    (scanned : scanScalar chars = some (raw, rest)) :
    (∀ pieces, raw ≠ .str pieces) ∧ ∀ members, raw ≠ .obj members := by
  unfold scanScalar at scanned
  split at scanned
  · cases scanned
    exact ⟨nofun, nofun⟩
  · split at scanned
    · cases scanned
      exact ⟨nofun, nofun⟩
    · split at scanned
      · cases scanned
        exact ⟨nofun, nofun⟩
      · obtain ⟨numeral, -, eq⟩ := Option.map_eq_some_iff.mp scanned
        cases eq
        exact ⟨nofun, nofun⟩

theorem scan_str_iff (fuel : Nat) (chars rest : List Char) (pieces : List Piece) :
    scan (fuel + 1) chars = some (.str pieces, rest) ↔ StringAt chars pieces rest := by
  constructor
  · intro scanned
    rw [scan] at scanned
    split at scanned
    · cases scanned
    · rename_i c body front
      split at scanned
      · split at scanned
        · cases scanned
        · obtain ⟨_, -, eq⟩ := Option.map_eq_some_iff.mp scanned
          cases eq
      · split at scanned
        · split at scanned
          · cases scanned
          · obtain ⟨_, -, eq⟩ := Option.map_eq_some_iff.mp scanned
            cases eq
        · split at scanned
          · rename_i quote
            obtain ⟨string, read, eq⟩ := Option.map_eq_some_iff.mp scanned
            cases eq
            exact ⟨body, quote ▸ front, read⟩
          · exact absurd rfl ((scan_scalar_cases _ rest _ scanned).1 pieces)
  · rintro ⟨body, front, read⟩
    simp [scan, front, read]

theorem scan_members_cons_iff (fuel : Nat) (chars rest : List Char) (key : List Piece) (value : Raw)
    (more : List (List Piece × Raw)) :
    scanMembers (fuel + 1) chars = some ((key, value) :: more, rest) ↔
      ∃ afterKey named afterValue, StringAt chars key afterKey ∧ skipGaps afterKey = ':' :: named ∧
        scan fuel named = some (value, afterValue) ∧
        (more = [] ∧ skipGaps afterValue = '}' :: rest ∨
          ∃ tail, skipGaps afterValue = ',' :: tail ∧ scanMembers fuel tail = some (more, rest)) := by
  simp only [scanMembers, Option.bind_eq_bind, Option.bind_eq_some_iff, after?_eq_some_iff,
    List.singleton_append, StringAt]
  constructor
  · rintro ⟨body, opened, ⟨_, afterKey⟩, read, named, colon, ⟨_, afterValue⟩, scanned, last⟩
    simp only at colon scanned last
    split at last
    · cases last
    · rename_i c tail front
      split at last
      · rename_i comma
        obtain ⟨later, scannedLater, eq⟩ := Option.map_eq_some_iff.mp last
        cases eq
        exact ⟨afterKey, named, afterValue, ⟨body, opened, read⟩, colon, scanned,
          .inr ⟨tail, comma ▸ front, scannedLater⟩⟩
      · split at last
        · rename_i close
          cases last
          exact ⟨afterKey, named, afterValue, ⟨body, opened, read⟩, colon, scanned,
            .inl ⟨rfl, close ▸ front⟩⟩
        · cases last
  · rintro ⟨afterKey, named, afterValue, ⟨body, opened, read⟩, colon, scanned, last⟩
    refine ⟨body, opened, (key, afterKey), read, named, colon, (value, afterValue), scanned, ?_⟩
    rcases last with ⟨rfl, close⟩ | ⟨tail, comma, later⟩
    · simp [close]
    · simp [comma, later]

theorem scan_members_ne_nil (fuel : Nat) (chars rest : List Char) :
    scanMembers fuel chars ≠ some ([], rest) := by
  intro scanned
  cases fuel with
  | zero => cases scanned
  | succ fuel =>
    simp only [scanMembers, Option.bind_eq_bind, Option.bind_eq_some_iff] at scanned
    obtain ⟨_, _, _, _, _, _, value, _, last⟩ := scanned
    split at last
    · cases last
    · split at last
      · obtain ⟨_, -, eq⟩ := Option.map_eq_some_iff.mp last
        cases eq
      · split at last
        · cases last
        · cases last

end Raw

def MemberAt (chars : List Char) (key value : List Piece) (mark : Char) (rest : List Char) : Prop :=
  ∃ afterKey named afterValue, StringAt chars key afterKey ∧ skipGaps afterKey = ':' :: named ∧
    StringAt named value afterValue ∧ skipGaps afterValue = mark :: rest

theorem member_at_iff (chars rest : List Char) (mark : Char) (solid : isGap mark = false)
    (member : String × String) :
    (∃ key value, MemberAt chars key value mark rest ∧ Piece.text? key = some member.1 ∧
      Piece.text? value = some member.2) ↔
        ∃ part, MemberText member part ∧ chars = part ++ mark :: rest := by
  constructor
  · rintro ⟨key, value, ⟨afterKey, named, afterValue, keyAt, colon, valueAt, last⟩, name, text⟩
    obtain ⟨before, first, blank, writtenKey, rfl⟩ := (string_at_iff _ _ _).mp ⟨key, keyAt, name⟩
    obtain ⟨between, blankBetween, rfl⟩ :=
      (skip_gaps_eq_cons_iff afterKey named ':' (by decide)).mp colon
    obtain ⟨after, second, blankAfter, writtenValue, rfl⟩ :=
      (string_at_iff _ _ _).mp ⟨value, valueAt, text⟩
    obtain ⟨behind, blankBehind, rfl⟩ := (skip_gaps_eq_cons_iff afterValue rest mark solid).mp last
    exact ⟨_, ⟨before, first, between, after, second, behind,
      ⟨blank, blankBetween, blankAfter, blankBehind⟩, writtenKey, writtenValue, rfl⟩, by simp⟩
  · rintro ⟨_, ⟨before, first, between, after, second, behind,
      ⟨blank, blankBetween, blankAfter, blankBehind⟩, writtenKey, writtenValue, rfl⟩, rfl⟩
    have last : skipGaps (behind ++ mark :: rest) = mark :: rest :=
      (skip_gaps_eq_cons_iff _ rest mark solid).mpr ⟨behind, blankBehind, rfl⟩
    obtain ⟨value, valueAt, text⟩ :=
      (string_at_iff _ (behind ++ mark :: rest) _).mpr ⟨after, second, blankAfter, writtenValue, rfl⟩
    have colon := (skip_gaps_eq_cons_iff _ (after ++ (second ++ (behind ++ mark :: rest))) ':'
      (by decide)).mpr ⟨between, blankBetween, rfl⟩
    obtain ⟨key, keyAt, name⟩ := (string_at_iff _ _ _).mpr ⟨before, first, blank, writtenKey, rfl⟩
    refine ⟨key, value, ⟨_, _, _, ?_, colon, valueAt, last⟩, name, text⟩
    simpa only [List.append_assoc, List.cons_append] using keyAt

namespace Raw

theorem text_members?_cons_iff (key : List Piece) (value : Raw) (more : List (List Piece × Raw))
    (members : Table String) :
    textMembers? ((key, value) :: more) = some members ↔
      ∃ name pieces text rest, value = .str pieces ∧ Piece.text? key = some name ∧
        Piece.text? pieces = some text ∧ textMembers? more = some rest ∧
        members = (name, text) :: rest := by
  simp only [textMembers?, Option.bind_eq_bind, Option.bind_eq_some_iff, Option.pure_def,
    Option.some.injEq]
  constructor
  · rintro ⟨name, named, text, meant, rest, later, rfl⟩
    cases value with
    | str pieces => exact ⟨name, pieces, text, rest, rfl, named, meant, later, rfl⟩
    | _ => cases meant
  · rintro ⟨name, pieces, text, rest, rfl, named, meant, later, rfl⟩
    exact ⟨name, named, text, meant, rest, later, rfl⟩

theorem members_text_of_scan_members (fuel : Nat) (chars rest : List Char)
    (scanned : List (List Piece × Raw)) (members : Table String)
    (ran : scanMembers fuel chars = some (scanned, rest))
    (read : textMembers? scanned = some members) :
    ∃ part, MembersText members part ∧ chars = part ++ '}' :: rest := by
  induction scanned generalizing fuel chars members with
  | nil => exact absurd ran (scan_members_ne_nil fuel chars rest)
  | cons first more ih =>
    obtain ⟨key, value⟩ := first
    obtain ⟨name, pieces, text, others, rfl, named, meant, later, rfl⟩ :=
      (text_members?_cons_iff key value more members).mp read
    cases fuel with
    | zero => cases ran
    | succ fuel =>
      obtain ⟨afterKey, tail, afterValue, keyAt, colon, valueScanned, last⟩ :=
        (scan_members_cons_iff fuel chars rest key (.str pieces) more).mp ran
      cases fuel with
      | zero => cases valueScanned
      | succ fuel =>
        have valueAt := (scan_str_iff fuel tail afterValue pieces).mp valueScanned
        rcases last with ⟨rfl, close⟩ | ⟨next, comma, scannedLater⟩
        · cases later
          obtain ⟨part, written, rfl⟩ :=
            (member_at_iff chars rest '}' (by decide) (name, text)).mp
              ⟨key, pieces, ⟨afterKey, tail, afterValue, keyAt, colon, valueAt, close⟩, named, meant⟩
          exact ⟨part, .one _ part written, rfl⟩
        · obtain ⟨part, written, rfl⟩ :=
            (member_at_iff chars next ',' (by decide) (name, text)).mp
              ⟨key, pieces, ⟨afterKey, tail, afterValue, keyAt, colon, valueAt, comma⟩, named, meant⟩
          obtain ⟨tailPart, writtenLater, rfl⟩ := ih (fuel + 1) next others scannedLater later
          exact ⟨_, .more _ part others tailPart written writtenLater, by simp⟩

-- Each member takes one unit of fuel, and the value of the last one more.
theorem scan_members_of_members_text (fuel : Nat) (part rest : List Char) (members : Table String)
    (written : MembersText members part) (enough : members.length < fuel) :
    ∃ scanned, scanMembers fuel (part ++ '}' :: rest) = some (scanned, rest) ∧
      textMembers? scanned = some members := by
  induction written generalizing fuel with
  | one member part here =>
    obtain ⟨key, value, ⟨afterKey, tail, afterValue, keyAt, colon, valueAt, close⟩, named, meant⟩ :=
      (member_at_iff _ rest '}' (by decide) member).mpr ⟨part, here, rfl⟩
    obtain ⟨fuel, rfl⟩ : ∃ less, fuel = less + 2 := ⟨fuel - 2, by simp at enough; omega⟩
    have valueScanned := (scan_str_iff fuel tail afterValue value).mpr valueAt
    refine ⟨[(key, .str value)], ?_, ?_⟩
    · exact (scan_members_cons_iff _ _ rest key _ []).mpr
        ⟨afterKey, tail, afterValue, keyAt, colon, valueScanned, .inl ⟨rfl, close⟩⟩
    · exact (text_members?_cons_iff key _ [] _).mpr
        ⟨member.1, value, member.2, [], rfl, named, meant, rfl, rfl⟩
  | more member part others tailPart here _ ih =>
    obtain ⟨fuel, rfl⟩ : ∃ less, fuel = less + 2 := ⟨fuel - 2, by simp at enough; omega⟩
    obtain ⟨more, scannedLater, later⟩ := ih (fuel + 1) (by simp at enough; omega)
    obtain ⟨key, value, ⟨afterKey, tail, afterValue, keyAt, colon, valueAt, comma⟩, named, meant⟩ :=
      (member_at_iff _ (tailPart ++ '}' :: rest) ',' (by decide) member).mpr ⟨part, here, rfl⟩
    have valueScanned := (scan_str_iff fuel tail afterValue value).mpr valueAt
    refine ⟨(key, .str value) :: more, ?_, ?_⟩
    · rw [List.append_assoc, List.cons_append]
      exact (scan_members_cons_iff _ _ rest key _ more).mpr
        ⟨afterKey, tail, afterValue, keyAt, colon, valueScanned, .inr ⟨_, comma, scannedLater⟩⟩
    · exact (text_members?_cons_iff key _ more _).mpr
        ⟨member.1, value, member.2, others, rfl, named, meant, later, rfl⟩

theorem opened_of_scan_members (fuel : Nat) (chars rest : List Char)
    (members : List (List Piece × Raw)) (scanned : scanMembers fuel chars = some (members, rest)) :
    ∃ body, skipGaps chars = '"' :: body := by
  cases fuel with
  | zero => cases scanned
  | succ fuel =>
    simp only [scanMembers, Option.bind_eq_bind, Option.bind_eq_some_iff, after?_eq_some_iff] at scanned
    obtain ⟨body, opened, -⟩ := scanned
    exact ⟨body, opened⟩

theorem scan_members_skip_gaps (fuel : Nat) (chars : List Char) :
    scanMembers fuel (skipGaps chars) = scanMembers fuel chars := by
  cases fuel with
  | zero => rfl
  | succ fuel =>
    have twice : skipGaps (skipGaps chars) = skipGaps chars := List.dropWhile_idempotent isGap chars
    simp only [scanMembers, twice]

theorem scan_obj_iff (fuel : Nat) (chars rest : List Char) (members : List (List Piece × Raw)) :
    scan (fuel + 1) chars = some (.obj members, rest) ↔
      ∃ inner, skipGaps chars = '{' :: inner ∧
        (members = [] ∧ skipGaps inner = '}' :: rest ∨
          scanMembers fuel inner = some (members, rest)) := by
  constructor
  · intro scanned
    rw [scan] at scanned
    split at scanned
    · cases scanned
    · rename_i c inner front
      split at scanned
      · rename_i brace
        refine ⟨inner, brace ▸ front, ?_⟩
        split at scanned
        · rename_i closed
          cases scanned
          exact .inl ⟨rfl, (after?_eq_some_iff _ _ _).mp closed⟩
        · obtain ⟨_, ran, eq⟩ := Option.map_eq_some_iff.mp scanned
          cases eq
          exact .inr (scan_members_skip_gaps fuel inner ▸ ran)
      · split at scanned
        · split at scanned
          · cases scanned
          · obtain ⟨_, -, eq⟩ := Option.map_eq_some_iff.mp scanned
            cases eq
        · split at scanned
          · obtain ⟨_, -, eq⟩ := Option.map_eq_some_iff.mp scanned
            cases eq
          · exact absurd rfl ((scan_scalar_cases _ rest _ scanned).2 members)
  · rintro ⟨inner, front, ⟨rfl, closed⟩ | ran⟩
    · simp [scan, front, closed, after?]
    · obtain ⟨body, opened⟩ := opened_of_scan_members fuel inner rest members ran
      rw [← scan_members_skip_gaps, opened] at ran
      simp [scan, front, opened, after?, ran]

end Raw

theorem length_lt_of_members_text (members : Table String) (part : List Char)
    (written : MembersText members part) : members.length < part.length + 1 := by
  have nonempty (member : String × String) (part : List Char) (here : MemberText member part) :
      0 < part.length := by
    obtain ⟨before, name, between, after, value, behind, -, -, -, rfl⟩ := here
    simp only [List.length_append, List.length_cons]
    omega
  induction written with
  | one member part here =>
    have positive := nonempty member part here
    simp only [List.length_cons, List.length_nil]
    omega
  | more member part rest tail here _ ih =>
    simp only [List.length_cons, List.length_append]
    omega

theorem Raw.scan_object_iff (fuel : Nat) (chars rest : List Char) (members : Table String)
    (enough : chars.length ≤ fuel) :
    (∃ scanned, scan (fuel + 1) chars = some (.obj scanned, rest) ∧
      textMembers? scanned = some members) ↔
        ∃ before inner, Gap before ∧ chars = before ++ '{' :: (inner ++ '}' :: rest) ∧
          (members = [] ∧ Gap inner ∨ MembersText members inner) := by
  constructor
  · rintro ⟨scanned, ran, read⟩
    obtain ⟨inner, opened, body⟩ := (scan_obj_iff fuel chars rest scanned).mp ran
    obtain ⟨before, blank, rfl⟩ := (skip_gaps_eq_cons_iff chars inner '{' (by decide)).mp opened
    rcases body with ⟨rfl, closed⟩ | ran
    · cases read
      obtain ⟨gap, blankGap, rfl⟩ := (skip_gaps_eq_cons_iff inner rest '}' (by decide)).mp closed
      exact ⟨before, gap, blank, rfl, .inl ⟨rfl, blankGap⟩⟩
    · obtain ⟨part, written, rfl⟩ :=
        members_text_of_scan_members fuel inner rest scanned members ran read
      exact ⟨before, part, blank, rfl, .inr written⟩
  · rintro ⟨before, inner, blank, rfl, body⟩
    have opened := (skip_gaps_eq_cons_iff (before ++ '{' :: (inner ++ '}' :: rest)) _ '{'
      (by decide)).mpr ⟨before, blank, rfl⟩
    rcases body with ⟨rfl, blankInner⟩ | written
    · have closed := (skip_gaps_eq_cons_iff (inner ++ '}' :: rest) rest '}' (by decide)).mpr
        ⟨inner, blankInner, rfl⟩
      exact ⟨[], (scan_obj_iff fuel _ rest []).mpr ⟨_, opened, .inl ⟨rfl, closed⟩⟩, rfl⟩
    · have short := length_lt_of_members_text members inner written
      have fits : members.length < fuel := by
        simp only [List.length_append, List.length_cons] at enough
        omega
      obtain ⟨scanned, ran, read⟩ := scan_members_of_members_text fuel inner rest members written fits
      exact ⟨scanned, (scan_obj_iff fuel _ rest scanned).mpr ⟨_, opened, .inr ran⟩, read⟩

theorem Raw.parse?_eq_some_iff (text : String) (raw : Raw) :
    parse? text = some raw ↔
      ∃ rest, scan (2 * text.toList.length + 2) text.toList = some (raw, rest) ∧ Gap rest := by
  rw [parse?, parseChars?]
  constructor
  · intro parsed
    split at parsed
    · rename_i whole rest scanned
      split at parsed
      · rename_i ended
        cases parsed
        exact ⟨rest, scanned, (skip_gaps_eq_nil_iff rest).mp (List.isEmpty_iff.mp ended)⟩
      · cases parsed
    · cases parsed
  · rintro ⟨rest, scanned, blank⟩
    have ended : (skipGaps rest).isEmpty = true :=
      List.isEmpty_iff.mpr ((skip_gaps_eq_nil_iff rest).mpr blank)
    simp only [scanned, ended, if_true]

theorem Raw.text_map?_eq_some_iff (raw : Raw) (map : Table String) :
    textMap? raw = some map ↔
      ∃ scanned members, raw = .obj scanned ∧ textMembers? scanned = some members ∧
        map = Table.sorted members := by
  cases raw with
  | obj scanned =>
    rw [textMap?, Option.map_eq_some_iff]
    constructor
    · rintro ⟨members, read, rfl⟩
      exact ⟨scanned, members, rfl, read, rfl⟩
    · rintro ⟨_, members, ⟨⟩, read, rfl⟩
      exact ⟨members, read, rfl⟩
  | _ => simp [textMap?]

/-- A text is read as a map of strings exactly if it is an object of strings, and the map has its members
in the order of their keys. -/
theorem text_map?_parse?_iff (text : String) (map : Table String) :
    (Raw.parse? text).bind Raw.textMap? = some map ↔
      ∃ members, ObjectText members text ∧ map = Table.sorted members := by
  have enough : text.toList.length ≤ 2 * text.toList.length + 1 := by omega
  simp only [Option.bind_eq_some_iff, Raw.parse?_eq_some_iff, Raw.text_map?_eq_some_iff]
  constructor
  · rintro ⟨_, ⟨behind, ran, blank⟩, scanned, members, rfl, read, rfl⟩
    obtain ⟨before, inner, blankBefore, written, body⟩ :=
      (Raw.scan_object_iff _ _ behind members enough).mp ⟨scanned, ran, read⟩
    exact ⟨members, ⟨before, inner, behind, blankBefore, blank, written, body⟩, rfl⟩
  · rintro ⟨members, ⟨before, inner, behind, blankBefore, blank, written, body⟩, rfl⟩
    obtain ⟨scanned, ran, read⟩ := (Raw.scan_object_iff _ _ behind members enough).mpr
      ⟨before, inner, blankBefore, written, body⟩
    exact ⟨_, ⟨behind, ran, blank⟩, scanned, members, rfl, read, rfl⟩

end Envelope.Json
