import Envelope.Text.Blank
import Mathlib.Data.List.TakeWhile

set_option autoImplicit false

namespace Envelope.Text

def SolidEnds (chars : List Char) : Prop :=
  ∀ c, chars.head? = some c ∨ chars.getLast? = some c → isBlank c = false

theorem trim_start_eq_self_iff (chars : List Char) :
    trimStart chars = chars ↔ ∀ c, chars.head? = some c → isBlank c = false := by
  cases chars with
  | nil => simp [trimStart]
  | cons first rest => simp [trimStart, List.dropWhile_eq_self_iff]

theorem trim_end_eq_self_iff (chars : List Char) :
    trimEnd chars = chars ↔ ∀ c, chars.getLast? = some c → isBlank c = false := by
  rw [trimEnd, List.reverse_eq_iff, trim_start_eq_self_iff, List.head?_reverse]

theorem trim_chars_eq_self_iff (chars : List Char) : trimChars chars = chars ↔ SolidEnds chars := by
  have both : SolidEnds chars ↔ trimStart chars = chars ∧ trimEnd chars = chars := by
    rw [trim_start_eq_self_iff, trim_end_eq_self_iff]
    exact ⟨fun solid => ⟨fun c first => solid c (.inl first), fun c last => solid c (.inr last)⟩,
      fun solid c ends => ends.elim (solid.1 c) (solid.2 c)⟩
  rw [both, trimChars]
  constructor
  · intro same
    -- Nothing is cut off at the start, since nothing comes back at the end.
    have short : (trimEnd (trimStart chars)).length ≤ (trimStart chars).length := by
      rw [trimEnd, List.length_reverse]
      exact (List.dropWhile_suffix isBlank).length_le.trans_eq List.length_reverse
    rw [same] at short
    have start : trimStart chars = chars := (List.dropWhile_suffix isBlank).eq_of_length_le short
    rw [start] at same
    exact ⟨start, same⟩
  · intro ⟨start, ends⟩
    rw [start, ends]

theorem trim_eq_self_iff (text : String) : trim text = text ↔ SolidEnds text.toList := by
  rw [← trim_chars_eq_self_iff, trim, ← String.toList_inj, String.toList_ofList]

theorem trim_chars_of_solid (chars : List Char) (solid : ∀ c ∈ chars, isBlank c = false) :
    trimChars chars = chars := by
  rw [trim_chars_eq_self_iff]
  exact fun c ends => solid c (ends.elim List.mem_of_head? List.mem_of_getLast?)

theorem trim_of_blank (text : String) (blank : ∀ c ∈ text.toList, isBlank c = true) :
    trim text = "" := by
  have nothing : trimStart text.toList = [] := List.dropWhile_eq_nil_iff.mpr blank
  rw [trim, trimChars, nothing]
  rfl

end Envelope.Text
