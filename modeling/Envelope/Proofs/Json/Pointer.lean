import Envelope.Json.Pointer

set_option autoImplicit false

namespace Envelope.Pointer

theorem foldl_join (pointer : Pointer) (start : String) :
    pointer.foldl join start = start ++ text pointer := by
  induction pointer generalizing start with
  | nil => simp [text]
  | cons segment rest ih =>
    have whole : text (segment :: rest) = join "" segment ++ text rest := ih (join "" segment)
    rw [List.foldl_cons, ih, whole]
    simp [join, String.append_assoc]

theorem text_concat (front back : Pointer) : text (front ++ back) = text front ++ text back := by
  rw [text, List.foldl_append]
  exact foldl_join back (text front)

theorem to_list_text_cons (segment : String) (rest : Pointer) :
    (text (segment :: rest)).toList =
      '/' :: (segment.toList.flatMap escapeChar ++ (text rest).toList) := by
  have whole : text (segment :: rest) = join "" segment ++ text rest := foldl_join rest _
  rw [whole, String.toList_append, to_list_join]
  rfl

def replaceChar (old : Char) (new chars : List Char) : List Char :=
  chars.flatMap fun c => if c = old then new else [c]

def replacePair (first second new : Char) : List Char → List Char
  | a :: b :: rest =>
    if a = first ∧ b = second then new :: replacePair first second new rest
    else a :: replacePair first second new (b :: rest)
  | chars => chars

theorem replace_pair_cons_of_not (first second new a : Char) (rest : List Char)
    (other : a = first → rest.head? ≠ some second) :
    replacePair first second new (a :: rest) = a :: replacePair first second new rest := by
  cases rest with
  | nil => rfl
  | cons b rest =>
    have apart : ¬ (a = first ∧ b = second) := fun ⟨same, next⟩ => other same (congrArg some next)
    rw [replacePair, if_neg apart]

theorem head_replace_pair (first second new c : Char) (chars : List Char) (made : new ≠ c)
    (starts : (replacePair first second new chars).head? = some c) : chars.head? = some c := by
  cases chars with
  | nil => exact starts
  | cons a rest =>
    by_cases pair : a = first ∧ rest.head? = some second
    · obtain ⟨tail, rfl⟩ := List.head?_eq_some_iff.mp pair.2
      rw [replacePair, if_pos ⟨pair.1, rfl⟩] at starts
      exact absurd (Option.some.inj starts) made
    · rwa [replace_pair_cons_of_not first second new a rest fun same next => pair ⟨same, next⟩]
        at starts

-- The tilde goes first, or the tildes of the other replacement would be escaped in their turn.
theorem escape_eq_replace_char (chars : List Char) :
    chars.flatMap escapeChar = replaceChar '/' ['~', '1'] (replaceChar '~' ['~', '0'] chars) := by
  rw [replaceChar, replaceChar, List.flatMap_assoc]
  refine congrArg (fun f => chars.flatMap f) (funext fun c => ?_)
  by_cases tilde : c = '~'
  · subst tilde
    rfl
  · simp only [escapeChar, if_neg tilde, List.flatMap_cons, List.flatMap_nil, List.append_nil]

-- Reading back, the tilde goes last: what stands for one may be followed by a plain `1`.
theorem unescape_eq_replace_pair (chars : List Char) :
    unescapeChars chars = replacePair '~' '0' '~' (replacePair '~' '1' '/' chars) := by
  induction chars using unescapeChars.induct with
  | case1 rest ih =>
    have kept : replacePair '~' '1' '/' ('~' :: '0' :: rest) =
        '~' :: '0' :: replacePair '~' '1' '/' rest := by
      rw [replace_pair_cons_of_not _ _ _ _ _ (by simp), replace_pair_cons_of_not _ _ _ _ _ (by simp)]
    rw [kept, unescapeChars, ih, replacePair, if_pos ⟨rfl, rfl⟩]
  | case2 rest ih =>
    rw [unescapeChars, ih, replacePair, if_pos ⟨rfl, rfl⟩,
      replace_pair_cons_of_not _ _ _ '/' _ (by simp)]
  | case3 c rest notZero notOne ih =>
    have zero : c = '~' → rest.head? ≠ some '0' := fun tilde next => by
      obtain ⟨tail, rfl⟩ := List.head?_eq_some_iff.mp next
      exact notZero tail tilde rfl
    have one : c = '~' → rest.head? ≠ some '1' := fun tilde next => by
      obtain ⟨tail, rfl⟩ := List.head?_eq_some_iff.mp next
      exact notOne tail tilde rfl
    have later : c = '~' → (replacePair '~' '1' '/' rest).head? ≠ some '0' := fun tilde starts =>
      zero tilde (head_replace_pair _ _ _ _ rest (by decide) starts)
    rw [unescapeChars, ih, replace_pair_cons_of_not _ _ _ c rest one,
      replace_pair_cons_of_not _ _ _ c _ later]
    · exact notZero
    · exact notOne
  | case4 => rfl

def Escaped (chars : List Char) : Prop :=
  ∀ front back, chars = front ++ '~' :: back → back.head? = some '0' ∨ back.head? = some '1'

theorem escaped_nil : Escaped [] := by
  intro front back split
  simp at split

theorem escaped_cons_iff (c : Char) (rest : List Char) :
    Escaped (c :: rest) ↔
      (c = '~' → rest.head? = some '0' ∨ rest.head? = some '1') ∧ Escaped rest := by
  constructor
  · intro escaped
    refine ⟨fun tilde => escaped [] rest (by rw [tilde]; rfl), fun front back split => ?_⟩
    exact escaped (c :: front) back (by rw [split]; rfl)
  · intro ⟨first, later⟩ front back split
    cases front with
    | nil =>
      obtain ⟨tilde, rfl⟩ := List.cons.inj split
      exact first tilde
    | cons _ front => exact later front back (List.cons.inj split).2

theorem escaped_cons_of_plain (c : Char) (rest : List Char) (plain : c ≠ '~')
    (escaped : Escaped rest) : Escaped (c :: rest) :=
  (escaped_cons_iff c rest).mpr ⟨fun tilde => absurd tilde plain, escaped⟩

theorem escaped_escape (chars rest : List Char) (escaped : Escaped rest) :
    Escaped (chars.flatMap escapeChar ++ rest) := by
  induction chars with
  | nil => exact escaped
  | cons c chars ih =>
    rw [List.flatMap_cons, List.append_assoc]
    by_cases tilde : c = '~'
    · subst tilde
      exact (escaped_cons_iff '~' _).mpr
        ⟨fun _ => .inl rfl, escaped_cons_of_plain '0' _ (by decide) ih⟩
    · by_cases slash : c = '/'
      · subst slash
        exact (escaped_cons_iff '~' _).mpr
          ⟨fun _ => .inr rfl, escaped_cons_of_plain '1' _ (by decide) ih⟩
      · simp only [escapeChar, if_neg tilde, if_neg slash, List.cons_append, List.nil_append]
        exact escaped_cons_of_plain c _ tilde ih

theorem escaped_text (pointer : Pointer) : Escaped (text pointer).toList := by
  induction pointer with
  | nil => exact escaped_nil
  | cons segment rest ih =>
    rw [to_list_text_cons]
    exact escaped_cons_of_plain '/' _ (by decide) (escaped_escape _ _ ih)

def rejoined (parts : List (List Char)) : List Char :=
  parts.flatMap fun part => '/' :: (unescapeChars part).flatMap escapeChar

theorem cut_append_of_no_slash (front rest : List Char) (none : '/' ∉ front) :
    ∃ part parts, cut rest = part :: parts ∧ cut (front ++ rest) = (front ++ part) :: parts := by
  induction front with
  | nil =>
    obtain ⟨part, parts, parted⟩ := List.exists_cons_of_ne_nil (cut_ne_nil rest)
    exact ⟨part, parts, parted, parted⟩
  | cons c front ih =>
    simp only [List.mem_cons, not_or] at none
    obtain ⟨part, parts, parted, whole⟩ := ih none.2
    refine ⟨part, parts, parted, ?_⟩
    rw [List.cons_append, cut, if_neg (Ne.symm none.1), whole]
    rfl

theorem rejoined_append (front rest : List Char) (noSlash : '/' ∉ front)
    (kept : ∀ part, (unescapeChars (front ++ part)).flatMap escapeChar =
      front ++ (unescapeChars part).flatMap escapeChar)
    (joined : rejoined (cut rest) = '/' :: rest) :
    rejoined (cut (front ++ rest)) = '/' :: (front ++ rest) := by
  obtain ⟨part, parts, parted, whole⟩ := cut_append_of_no_slash front rest noSlash
  rw [parted, rejoined, List.flatMap_cons] at joined
  rw [whole, rejoined, List.flatMap_cons, kept, List.cons_append, List.append_assoc,
    ← (List.cons.inj joined).2]
  rfl

-- The induction follows the reading: a pair, or a character that is no tilde, as every tilde is
-- the first of a pair.
theorem rejoined_cut (chars : List Char) (escaped : Escaped chars) :
    rejoined (cut chars) = '/' :: chars := by
  induction chars using unescapeChars.induct with
  | case1 rest ih =>
    have later := ((escaped_cons_iff _ _).mp ((escaped_cons_iff _ _).mp escaped).2).2
    exact rejoined_append ['~', '0'] rest (by decide) (fun _ => rfl) (ih later)
  | case2 rest ih =>
    have later := ((escaped_cons_iff _ _).mp ((escaped_cons_iff _ _).mp escaped).2).2
    exact rejoined_append ['~', '1'] rest (by decide) (fun _ => rfl) (ih later)
  | case3 c rest notZero notOne ih =>
    obtain ⟨followed, later⟩ := (escaped_cons_iff c rest).mp escaped
    have plain : c ≠ '~' := fun tilde => by
      rcases followed tilde with next | next
      · obtain ⟨tail, rfl⟩ := List.head?_eq_some_iff.mp next
        exact notZero tail tilde rfl
      · obtain ⟨tail, rfl⟩ := List.head?_eq_some_iff.mp next
        exact notOne tail tilde rfl
    by_cases slash : c = '/'
    · subst slash
      rw [cut, if_pos rfl, rejoined, List.flatMap_cons]
      exact congrArg ('/' :: ·) (ih later)
    · refine rejoined_append [c] rest (by simpa using Ne.symm slash) (fun part => ?_) (ih later)
      rw [List.singleton_append, unescapeChars, List.flatMap_cons, escapeChar, if_neg plain,
        if_neg slash]
      · exact fun _ same _ => plain same
      · exact fun _ same _ => plain same
  | case4 => rfl

theorem to_list_text_map (parts : List (List Char)) :
    (text (parts.map fun part => String.ofList (unescapeChars part))).toList = rejoined parts := by
  induction parts with
  | nil => rfl
  | cons part parts ih =>
    rw [List.map_cons, to_list_text_cons, ih, String.toList_ofList]
    rfl

theorem text_split_of_escaped (written : String)
    (rooted : written = "" ∨ ∃ rest, written.toList = '/' :: rest)
    (escaped : Escaped written.toList) : text (split written) = written := by
  rcases rooted with rfl | ⟨rest, starts⟩
  · rw [split_empty]
    rfl
  · apply String.toList_injective
    have later := ((escaped_cons_iff '/' rest).mp (starts ▸ escaped)).2
    simp only [split, starts, to_list_text_map, rejoined_cut rest later]

theorem rooted_text (pointer : Pointer) :
    text pointer = "" ∨ ∃ rest, (text pointer).toList = '/' :: rest := by
  cases pointer with
  | nil => exact .inl rfl
  | cons segment rest => exact .inr ⟨_, to_list_text_cons segment rest⟩

/-- A segment is escaped by replacing its tildes and then its slashes, and read back by undoing the
two in the other order; there is no slash in what is written, and a `0` or a `1` follows each tilde.
Splitting a joined text gives the segments of the parent and the new one, so pointers are read back
from their texts, which tell them apart. A text is joined again from its segments exactly if it is
empty or begins with a slash, and a `0` or a `1` follows each of its tildes. -/
theorem split_undoes_join :
    (∀ segment, unescape (escape segment) = segment ∧ '/' ∉ (escape segment).toList ∧
      Escaped (escape segment).toList) ∧
    (∀ segment,
      (escape segment).toList =
          replaceChar '/' ['~', '1'] (replaceChar '~' ['~', '0'] segment.toList) ∧
        (unescape segment).toList =
          replacePair '~' '0' '~' (replacePair '~' '1' '/' segment.toList)) ∧
    (∀ parent segment, split (join parent segment) = split parent ++ [segment]) ∧
    (∀ pointer : Pointer, split (pointer.foldl join "") = pointer) ∧
    (∀ pointer place : Pointer, pointer.foldl join "" = place.foldl join "" ↔ pointer = place) ∧
    ∀ written, (split written).foldl join "" = written ↔
      (written = "" ∨ ∃ rest, written.toList = '/' :: rest) ∧ Escaped written.toList := by
  refine ⟨fun segment => ⟨unescape_escape segment, ?_, ?_⟩, fun segment => ⟨?_, ?_⟩, split_join,
    split_text, fun pointer place => ⟨text_injective pointer place, congrArg text⟩,
    fun written => ⟨fun joined => ?_, fun ⟨rooted, escaped⟩ => ?_⟩⟩
  · rw [escape, String.toList_ofList]
    exact slash_not_mem_escape segment.toList
  · rw [escape, String.toList_ofList]
    simpa only [List.append_nil] using escaped_escape segment.toList [] escaped_nil
  · rw [escape, String.toList_ofList, escape_eq_replace_char]
  · rw [unescape, String.toList_ofList, unescape_eq_replace_pair]
  · rw [← joined]
    exact ⟨rooted_text _, escaped_text _⟩
  · exact text_split_of_escaped written rooted escaped

-- A tilde before an escaped slash is the one that is escaped, and what it stands for is no escape.
example : escape "a~1/b" = "a~01~1b" ∧ unescape "a~01~1b" = "a~1/b" ∧
    split "/~01//~1" = ["~1", "", "/"] := by
  decide

end Envelope.Pointer
