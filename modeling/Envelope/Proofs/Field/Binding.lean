import Envelope.Field.Prepared
import Envelope.Proofs.Field.Tagged
import Envelope.Proofs.Json.Pointer

set_option autoImplicit false

namespace Envelope

theorem split_at_element {α : Type} (front back left right : List α) (element : α)
    (split : front ++ back = left ++ element :: right) :
    (∃ between, left = front ++ between ∧ back = between ++ element :: right) ∨
      ∃ between, front = left ++ element :: between ∧ right = between ++ back := by
  rcases List.append_eq_append_iff.mp split with ⟨between, ends, rest⟩ | ⟨between, ends, rest⟩
  · exact .inl ⟨between, ends, rest⟩
  · cases between with
    | nil =>
      rw [List.append_nil] at ends
      exact .inl ⟨[], by rw [ends, List.append_nil], rest.symm⟩
    | cons first between =>
      obtain ⟨rfl, rfl⟩ := List.cons.inj rest
      exact .inr ⟨between, ends, rfl⟩

namespace Pointer

theorem eq_nil_of_slashless (pointer : Pointer) (front back : List Char) (slashless : '/' ∉ front)
    (split : (text pointer).toList = front ++ back) : front = [] := by
  cases front with
  | nil => rfl
  | cons first front =>
    cases pointer with
    | nil => cases split
    | cons segment rest =>
      rw [to_list_text_cons, List.cons_append] at split
      obtain ⟨rfl, -⟩ := List.cons.inj split
      exact absurd List.mem_cons_self slashless

theorem eq_of_append_text (left right : List Char) (pointer place : Pointer)
    (slashless : '/' ∉ left) (others : '/' ∉ right)
    (same : left ++ (text pointer).toList = right ++ (text place).toList) :
    left = right ∧ pointer = place := by
  rcases List.append_eq_append_iff.mp same with ⟨between, rfl, begins⟩ | ⟨between, rfl, begins⟩
  · obtain rfl := eq_nil_of_slashless pointer between _
      (fun member => others (List.mem_append_right _ member)) begins
    exact ⟨(List.append_nil _).symm, text_injective _ _ (String.toList_injective begins)⟩
  · obtain rfl := eq_nil_of_slashless place between _
      (fun member => slashless (List.mem_append_right _ member)) begins
    exact ⟨List.append_nil _, (text_injective _ _ (String.toList_injective begins)).symm⟩

theorem bar_not_mem_escape_char (c : Char) (other : c ≠ '|') : '|' ∉ escapeChar c := by
  unfold escapeChar
  split
  · simp
  · split
    · simp
    · simpa using Ne.symm other

theorem bar_of_escape (chars left right : List Char)
    (split : chars.flatMap escapeChar = left ++ '|' :: right) :
    ∃ front back, chars = front ++ '|' :: back ∧ left = front.flatMap escapeChar ∧
      right = back.flatMap escapeChar := by
  induction chars generalizing left with
  | nil => simp at split
  | cons c rest ih =>
    rw [List.flatMap_cons] at split
    rcases split_at_element _ _ left right '|' split with ⟨between, eq, later⟩ | ⟨between, here, eq⟩
    · obtain ⟨front, back, rfl, rfl, rfl⟩ := ih between later
      exact ⟨c :: front, back, rfl, eq, rfl⟩
    · obtain rfl : c = '|' := by
        apply Decidable.byContradiction
        intro other
        exact bar_not_mem_escape_char c other (by simp [here])
      have alone : escapeChar '|' = ['|'] := by decide
      rw [alone] at here
      obtain ⟨rfl, rfl⟩ : left = [] ∧ between = [] := by
        cases left with
        | nil => exact ⟨rfl, (List.cons.inj here).2.symm⟩
        | cons first left => simp at here
      exact ⟨[], rest, rfl, rfl, eq⟩

end Pointer

def Aad.pathMark : String := "|path:"

-- The path goes through a key that ends in the mark, the rest is the place, and the other tenant runs
-- on, behind the mark, to where that key ends.
def Overruns (tenant : String) (pointer : Pointer) (other : String) (place : Pointer) : Prop :=
  ∃ front key, pointer = front ++ (key ++ Aad.pathMark) :: place ∧
    other = tenant ++ Aad.pathMark ++ Pointer.text (front ++ [key])

namespace Pointer

theorem escape_injective (chars others : List Char)
    (same : chars.flatMap escapeChar = others.flatMap escapeChar) : chars = others := by
  have eq := congrArg unescapeChars same
  simpa only [unescape_chars_escape] using eq

theorem to_list_text_marked (key : String) (place : Pointer) :
    (text ((key ++ Aad.pathMark) :: place)).toList =
      (text [key]).toList ++ Aad.pathMark.toList ++ (text place).toList := by
  have plain : Aad.pathMark.toList.flatMap escapeChar = Aad.pathMark.toList := by decide
  rw [to_list_text_cons, to_list_text_cons, String.toList_append, List.flatMap_append, plain]
  simp [text]

theorem text_marked (front place : Pointer) (key : String) :
    text (front ++ (key ++ Aad.pathMark) :: place) =
      text (front ++ [key]) ++ Aad.pathMark ++ text place := by
  apply String.toList_injective
  rw [text_concat, text_concat, String.toList_append, to_list_text_marked]
  simp only [String.toList_append, List.append_assoc]

-- The induction is on the path: the mark is met in its first key, or further on.
theorem marked_of_text (pointer place : Pointer) (before : List Char)
    (split : (text pointer).toList = before ++ Aad.pathMark.toList ++ (text place).toList) :
    ∃ front key, pointer = front ++ (key ++ Aad.pathMark) :: place ∧
      before = (text (front ++ [key])).toList := by
  have mark : Aad.pathMark.toList = '|' :: "path:".toList := by decide
  induction pointer generalizing before with
  | nil => simp [text, mark] at split
  | cons segment rest ih =>
    rw [to_list_text_cons, mark, List.append_assoc, List.cons_append] at split
    cases before with
    | nil => simp at split
    | cons first before =>
      rw [List.cons_append] at split
      obtain ⟨rfl, deeper⟩ := List.cons.inj split
      rcases split_at_element _ _ before _ '|' deeper with ⟨between, rfl, later⟩ | ⟨between, here, later⟩
      · rw [← List.cons_append, ← mark, ← List.append_assoc] at later
        obtain ⟨front, key, rfl, rfl⟩ := ih between later
        refine ⟨segment :: front, key, rfl, ?_⟩
        rw [List.cons_append, to_list_text_cons]
      · obtain ⟨chars, back, spelled, rfl, rfl⟩ := bar_of_escape segment.toList before between here
        have plain : "path:".toList.flatMap escapeChar = "path:".toList := by decide
        obtain ⟨ends, rfl⟩ := eq_of_append_text _ _ place rest (by decide)
          (slash_not_mem_escape back) later
        obtain rfl := escape_injective _ _ (plain.trans ends)
        have key : (String.ofList chars).toList = chars := String.toList_ofList
        have marked : segment = String.ofList chars ++ Aad.pathMark := by
          apply String.toList_injective
          rw [spelled, String.toList_append, key, mark]
        refine ⟨[], String.ofList chars, by rw [marked]; rfl, ?_⟩
        rw [List.nil_append, to_list_text_cons, key]
        simp [text]

end Pointer

theorem field_aad_eq (tenant path : String) :
    fieldAad tenant path =
      "tenant:" ++ (tenant ++ Aad.pathMark ++ path) ++ ("|enc:" ++ Marker.currentVersion) := by
  simp only [fieldAad, Aad.ofDocumentField, Aad.pathMark, String.append_assoc]

theorem field_aad_eq_iff_marked (tenant path other place : String) :
    Utf8.encode (fieldAad tenant path) = Utf8.encode (fieldAad other place) ↔
      tenant ++ Aad.pathMark ++ path = other ++ Aad.pathMark ++ place := by
  constructor
  · intro same
    have texts := Utf8.encode_injective _ _ same
    rw [field_aad_eq, field_aad_eq] at texts
    exact (String.append_right_inj _).mp ((String.append_left_inj _).mp texts)
  · intro same
    rw [field_aad_eq, field_aad_eq, same]

theorem overruns_of_longer (tenant other : String) (pointer place : Pointer) (between : List Char)
    (longer : other.toList = tenant.toList ++ between)
    (same : Aad.pathMark.toList ++ (Pointer.text pointer).toList =
      between ++ (Aad.pathMark.toList ++ (Pointer.text place).toList)) :
    (tenant = other ∧ pointer = place) ∨ Overruns tenant pointer other place := by
  have mark : Aad.pathMark.toList = '|' :: "path:".toList := by decide
  cases between with
  | nil =>
    rw [List.append_nil] at longer
    rw [List.nil_append, List.append_cancel_left_eq] at same
    exact .inl ⟨(String.toList_injective longer).symm,
      Pointer.text_injective _ _ (String.toList_injective same)⟩
  | cons first between =>
    rw [mark, List.cons_append, List.cons_append, List.cons_append] at same
    obtain ⟨rfl, deeper⟩ := List.cons.inj same
    rcases split_at_element _ _ between _ '|' deeper with ⟨before, rfl, later⟩ | ⟨before, here, -⟩
    · rw [← List.cons_append, ← mark, ← List.append_assoc] at later
      obtain ⟨front, key, rfl, rfl⟩ := Pointer.marked_of_text pointer place before later
      refine .inr ⟨front, key, rfl, String.toList_injective ?_⟩
      rw [longer, ← List.cons_append, ← mark]
      simp only [String.toList_append, List.append_assoc]
    · have bar : '|' ∈ "path:".toList := by simp [here]
      exact absurd bar (by decide)

theorem marked_eq_of_overruns (tenant other : String) (pointer place : Pointer)
    (overruns : Overruns tenant pointer other place) :
    tenant ++ Aad.pathMark ++ Pointer.text pointer = other ++ Aad.pathMark ++ Pointer.text place := by
  obtain ⟨front, key, rfl, rfl⟩ := overruns
  simp only [Pointer.text_marked, String.append_assoc]

theorem marked_eq_iff (tenant other : String) (pointer place : Pointer) :
    tenant ++ Aad.pathMark ++ Pointer.text pointer = other ++ Aad.pathMark ++ Pointer.text place ↔
      (tenant = other ∧ pointer = place) ∨ Overruns tenant pointer other place ∨
        Overruns other place tenant pointer := by
  constructor
  · intro same
    have lists := congrArg String.toList same
    simp only [String.toList_append, List.append_assoc] at lists
    rcases List.append_eq_append_iff.mp lists with ⟨between, longer, rest⟩ | ⟨between, longer, rest⟩
    · rcases overruns_of_longer tenant other pointer place between longer rest with equal | overruns
      · exact .inl equal
      · exact .inr (.inl overruns)
    · rcases overruns_of_longer other tenant place pointer between longer rest with
        ⟨rfl, rfl⟩ | overruns
      · exact .inl ⟨rfl, rfl⟩
      · exact .inr (.inr overruns)
  · rintro (⟨rfl, rfl⟩ | overruns | overruns)
    · rfl
    · exact marked_eq_of_overruns tenant other pointer place overruns
    · exact (marked_eq_of_overruns other tenant place pointer overruns).symm

/-- Two values have the same associated data if tenant and path are the same, and else only if one
tenant runs on into the path of the other. -/
theorem field_aad_eq_iff (tenant other : String) (pointer place : Pointer) :
    Utf8.encode (fieldAad tenant (Pointer.text pointer)) =
        Utf8.encode (fieldAad other (Pointer.text place)) ↔
      (tenant = other ∧ pointer = place) ∨ Overruns tenant pointer other place ∨
        Overruns other place tenant pointer := by
  rw [field_aad_eq_iff_marked]
  exact marked_eq_iff tenant other pointer place

theorem tenants_share_field_aad :
    "/value" ∈ Tag.paths (Tag.tagged .null) ∧
      "/x|path:/value" ∈ Tag.paths (.obj [("x|path:", Tag.tagged .null)]) ∧
      Utf8.encode (fieldAad "a|path:/x" "/value") = Utf8.encode (fieldAad "a" "/x|path:/value") ∧
      "a|path:/x" ≠ "a" ∧ "/value" ≠ "/x|path:/value" := by
  have same : fieldAad "a|path:/x" "/value" = fieldAad "a" "/x|path:/value" := by decide
  exact ⟨by decide, by decide, congrArg Utf8.encode same, by decide, by decide⟩

theorem field_aad_separates (tenant other : String) (pointer place : Pointer)
    (plain : ∀ front back, tenant ≠ front ++ Aad.pathMark ++ back)
    (others : ∀ front back, other ≠ front ++ Aad.pathMark ++ back)
    (same : Utf8.encode (fieldAad tenant (Pointer.text pointer)) =
      Utf8.encode (fieldAad other (Pointer.text place))) :
    tenant = other ∧ pointer = place := by
  rw [field_aad_eq_iff_marked, marked_eq_iff] at same
  rcases same with equal | ⟨front, key, -, longer⟩ | ⟨front, key, -, longer⟩
  · exact equal
  · exact absurd longer (others tenant _)
  · exact absurd longer (plain other _)

end Envelope
