import Envelope.Json.Basic

set_option autoImplicit false

namespace Envelope

abbrev Pointer := List String

namespace Pointer

def escapeChar (c : Char) : List Char :=
  if c = '~' then ['~', '0'] else if c = '/' then ['~', '1'] else [c]

def escape (segment : String) : String :=
  String.ofList (segment.toList.flatMap escapeChar)

-- A `~` that no `0` or `1` follows stands for itself.
def unescapeChars : List Char → List Char
  | '~' :: '0' :: rest => '~' :: unescapeChars rest
  | '~' :: '1' :: rest => '/' :: unescapeChars rest
  | c :: rest => c :: unescapeChars rest
  | [] => []

def unescape (segment : String) : String :=
  String.ofList (unescapeChars segment.toList)

def join (parent segment : String) : String :=
  parent ++ "/" ++ escape segment

def text (pointer : Pointer) : String :=
  pointer.foldl join ""

def cut : List Char → List (List Char)
  | [] => [[]]
  | c :: rest =>
    if c = '/' then [] :: cut rest
    else
      match cut rest with
      | part :: parts => (c :: part) :: parts
      | [] => [[c]]

-- The segments of a text. The empty text has none, and the first slash opens a segment.
def split (text : String) : Pointer :=
  match text.toList with
  | [] => []
  | '/' :: rest => (cut rest).map fun part => String.ofList (unescapeChars part)
  | chars => (cut chars).map fun part => String.ofList (unescapeChars part)

theorem unescape_chars_escape (chars : List Char) :
    unescapeChars (chars.flatMap escapeChar) = chars := by
  induction chars with
  | nil => rfl
  | cons c rest ih =>
    rw [List.flatMap_cons]
    by_cases tilde : c = '~'
    · subst tilde
      exact congrArg ('~' :: ·) ih
    · by_cases slash : c = '/'
      · subst slash
        exact congrArg ('/' :: ·) ih
      · simp only [escapeChar, if_neg tilde, if_neg slash, List.cons_append, List.nil_append]
        rw [unescapeChars, ih]
        · exact fun _ eq _ => tilde eq
        · exact fun _ eq _ => tilde eq

theorem unescape_escape (segment : String) : unescape (escape segment) = segment := by
  simp only [unescape, escape, String.toList_ofList, unescape_chars_escape, String.ofList_toList]

theorem slash_not_mem_escape (chars : List Char) : '/' ∉ chars.flatMap escapeChar := by
  intro member
  obtain ⟨c, -, inEscape⟩ := List.mem_flatMap.mp member
  unfold escapeChar at inEscape
  split at inEscape
  · simp at inEscape
  · split at inEscape
    · simp at inEscape
    · rename_i slash
      exact slash (List.mem_singleton.mp inEscape).symm

theorem cut_ne_nil (chars : List Char) : cut chars ≠ [] := by
  cases chars with
  | nil => simp [cut]
  | cons c rest =>
    rw [cut]
    split
    · simp
    · split <;> simp

theorem cut_append_slash (front back : List Char) :
    cut (front ++ '/' :: back) = cut front ++ cut back := by
  induction front with
  | nil => simp [cut]
  | cons c rest ih =>
    by_cases slash : c = '/'
    · simp [cut, slash, ih]
    · simp only [List.cons_append, cut, if_neg slash, ih]
      cases h : cut rest with
      | nil => exact absurd h (cut_ne_nil rest)
      | cons part parts => rfl

theorem cut_of_no_slash (chars : List Char) (none : '/' ∉ chars) : cut chars = [chars] := by
  induction chars with
  | nil => rfl
  | cons c rest ih =>
    simp only [List.mem_cons, not_or] at none
    simp only [cut, if_neg (Ne.symm none.1), ih none.2]

theorem to_list_join (parent segment : String) :
    (join parent segment).toList =
      parent.toList ++ '/' :: segment.toList.flatMap escapeChar := by
  simp [join, escape]

theorem split_join (parent segment : String) :
    split (join parent segment) = split parent ++ [segment] := by
  have last : (cut (segment.toList.flatMap escapeChar)).map
      (fun part => String.ofList (unescapeChars part)) = [segment] := by
    rw [cut_of_no_slash _ (slash_not_mem_escape _)]
    simp [unescape_chars_escape]
  unfold split
  rw [to_list_join]
  cases h : parent.toList with
  | nil => simpa using last
  | cons c rest =>
    by_cases slash : c = '/'
    · subst slash
      simp only [List.cons_append, cut_append_slash, List.map_append, last]
    · have cutWhole : cut (c :: rest ++ '/' :: segment.toList.flatMap escapeChar) =
          cut (c :: rest) ++ cut (segment.toList.flatMap escapeChar) := cut_append_slash _ _
      simp only [List.cons_append] at cutWhole
      simp [slash, cutWhole, last]

theorem text_append (pointer : Pointer) (segment : String) :
    text (pointer ++ [segment]) = join (text pointer) segment := by
  simp [text]

theorem split_foldl_join (pointer : Pointer) (start : String) :
    split (pointer.foldl join start) = split start ++ pointer := by
  induction pointer generalizing start with
  | nil => simp
  | cons segment rest ih =>
    rw [List.foldl_cons, ih, split_join, List.append_assoc]
    rfl

theorem split_empty : split "" = [] := by
  simp [split]

theorem split_text (pointer : Pointer) : split (text pointer) = pointer := by
  rw [text, split_foldl_join, split_empty, List.nil_append]

theorem text_injective (a b : Pointer) (h : text a = text b) : a = b := by
  have eq := congrArg split h
  simpa only [split_text] using eq

def indexSegment (index : Nat) : String :=
  String.ofList (Nat.toDigits 10 index)

def index? (segment : String) : Option Nat :=
  let digits := segment.toList
  if digits.isEmpty ∨ digits.any (fun c => !c.isDigit) ∨ (digits.length > 1 ∧ digits.head? = some '0')
  then none
  else some (Nat.ofDigitChars 10 digits 0)

end Pointer

namespace Json

def child? : Json → String → Option Json
  | .obj members, segment => Table.get? members segment
  | .arr items, segment => (Pointer.index? segment).bind fun index => items[index]?
  | _, _ => none

def at? : Json → Pointer → Option Json
  | value, [] => some value
  | value, segment :: rest => (child? value segment).bind fun child => at? child rest

theorem at?_append (value : Json) (front back : Pointer) :
    at? value (front ++ back) = (at? value front).bind fun found => at? found back := by
  induction front generalizing value with
  | nil => rfl
  | cons segment rest ih =>
    simp only [List.cons_append, at?]
    cases child? value segment with
    | none => rfl
    | some child => exact ih child

end Json

end Envelope
