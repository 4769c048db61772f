set_option autoImplicit false

namespace Envelope.Text

def after? : List Char → List Char → Option (List Char)
  | [], rest => some rest
  | _ :: _, [] => none
  | f :: front, c :: rest => if f = c then after? front rest else none

def cutAt? (mark : Char) : List Char → Option (List Char × List Char)
  | [] => none
  | c :: rest =>
    if c = mark then some ([], rest)
    else (cutAt? mark rest).map fun parts => (c :: parts.1, parts.2)

theorem after?_eq_some_iff (front text rest : List Char) :
    after? front text = some rest ↔ text = front ++ rest := by
  induction front generalizing text with
  | nil => simp [after?]
  | cons f front ih =>
    cases text with
    | nil => simp [after?]
    | cons c text =>
      by_cases same : f = c
      · simp [after?, same, ih]
      · simp [after?, same, Ne.symm same]

theorem after?_append (front rest : List Char) : after? front (front ++ rest) = some rest :=
  (after?_eq_some_iff front _ rest).mpr rfl

theorem cut_at?_eq_some_iff (mark : Char) (text front rest : List Char) :
    cutAt? mark text = some (front, rest) ↔ text = front ++ mark :: rest ∧ mark ∉ front := by
  induction text generalizing front with
  | nil => simp [cutAt?]
  | cons c text ih =>
    by_cases same : c = mark
    · subst same
      cases front with
      | nil => simp [cutAt?, eq_comm]
      | cons f front => simp [cutAt?]; grind
    · cases front with
      | nil => simp [cutAt?, same]
      | cons f front =>
        simp only [cutAt?, if_neg same, Option.map_eq_some_iff, Prod.exists, Prod.mk.injEq,
          List.cons.injEq, List.cons_append, List.mem_cons, not_or]
        grind

theorem cut_at?_eq_none_iff (mark : Char) (text : List Char) :
    cutAt? mark text = none ↔ mark ∉ text := by
  induction text with
  | nil => simp [cutAt?]
  | cons c text ih =>
    by_cases same : c = mark
    · simp [cutAt?, same]
    · simp [cutAt?, same, Ne.symm same, ih]

end Envelope.Text
