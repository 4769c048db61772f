import Envelope.Action

set_option autoImplicit false

namespace Envelope

inductive Alike {ε α β : Type} (related : α → β → Prop) : Except ε α → Except ε β → Prop where
  | ok (a : α) (b : β) (same : related a b) : Alike related (.ok a) (.ok b)
  | error (cause : ε) : Alike related (.error cause) (.error cause)

namespace Action

variable {ε α β γ δ : Type}

-- The hosts may differ in all but the bytes that they give.
def Tandem (related : α → β → Prop) (one : Action ε α) (other : Action ε β) : Prop :=
  ∀ host twin, host.entropy = twin.entropy →
    (one host).2.entropy = (other twin).2.entropy ∧ Alike related (one host).1 (other twin).1

theorem tandem_pure (related : α → β → Prop) (a : α) (b : β) (same : related a b) :
    Tandem (ε := ε) related (pure a) (pure b) :=
  fun _ _ drawn => ⟨drawn, .ok a b same⟩

theorem tandem_error (related : α → β → Prop) (cause : ε) :
    Tandem related (ofExcept (.error cause)) (ofExcept (.error cause)) :=
  fun _ _ drawn => ⟨drawn, .error cause⟩

theorem tandem_bind (related : α → β → Prop) (final : γ → δ → Prop) (one : Action ε α)
    (other : Action ε β) (f : α → Action ε γ) (g : β → Action ε δ)
    (first : Tandem related one other) (next : ∀ a b, related a b → Tandem final (f a) (g b)) :
    Tandem final (one >>= f) (other >>= g) := by
  intro host twin same
  obtain ⟨drawn, results⟩ := first host twin same
  rw [bind_apply, bind_apply]
  rcases ran : one host with ⟨result, after⟩
  rcases twinRan : other twin with ⟨twinResult, twinAfter⟩
  rw [ran, twinRan] at drawn results
  cases results with
  | ok a b related => exact next a b related after twinAfter drawn
  | error cause => exact ⟨drawn, .error cause⟩

theorem tandem_draw (n : Nat) : Tandem Eq (draw n) (draw n) := by
  intro host twin same
  by_cases enough : host.entropy.Holds n
  · rw [draw_of_holds n host enough, draw_of_holds n twin (same ▸ enough), same]
    exact ⟨rfl, .ok _ _ rfl⟩
  · rw [draw_of_not_holds n host enough, draw_of_not_holds n twin (same ▸ enough)]
    exact ⟨same, .error _⟩

theorem tandem_report (event reported : Event) :
    Tandem (ε := ε) (fun _ _ => True) (report event) (report reported) :=
  fun _ _ same => ⟨same, .ok _ _ trivial⟩

theorem tandem_now : Tandem (ε := ε) (fun _ _ => True) now now :=
  fun _ _ same => ⟨same, .ok _ _ trivial⟩

theorem tandem_of_crypto (related : α → β → Prop) (one : Action CryptoError α)
    (other : Action CryptoError β) (tandem : Tandem related one other) :
    Tandem related (ofCrypto one) (ofCrypto other) := by
  intro host twin same
  obtain ⟨drawn, results⟩ := tandem host twin same
  rcases ran : one host with ⟨result, after⟩
  rcases twinRan : other twin with ⟨twinResult, twinAfter⟩
  rw [ran, twinRan] at drawn results
  simp only [ofCrypto, ran, twinRan]
  cases results with
  | ok a b related => exact ⟨drawn, .ok a b related⟩
  | error cause => exact ⟨drawn, .error (FieldError.crypto cause)⟩

end Action

end Envelope
