import Mathlib.Tactic.Common

/-! Results of C functions. A call returns, ends the process, or runs into undefined behaviour.
A model loop that is cut short reports `outOfFuel`, and its users prove that this does not occur. -/
namespace CProgram

inductive Outcome (α : Type) where
  | done (value : α)
  | exit (status : Nat)
  | fault
  | outOfFuel
deriving Repr, DecidableEq

namespace Outcome

def bind {α β : Type} (first : Outcome α) (next : α → Outcome β) : Outcome β :=
  match first with
  | .done value => next value
  | .exit status => .exit status
  | .fault => .fault
  | .outOfFuel => .outOfFuel

instance : Monad Outcome where
  pure := .done
  bind := bind

instance : LawfulMonad Outcome := LawfulMonad.mk' Outcome
  (fun first => by cases first <;> rfl)
  (fun _ _ => rfl)
  (fun first _ _ => by cases first <;> rfl)

variable {α β : Type}

@[simp] theorem pure_eq (value : α) : (pure value : Outcome α) = .done value := rfl

@[simp] theorem bind_done (value : α) (next : α → Outcome β) :
    ((Outcome.done value : Outcome α) >>= next) = next value := rfl

@[simp] theorem bind_exit (status : Nat) (next : α → Outcome β) :
    ((Outcome.exit status : Outcome α) >>= next) = .exit status := rfl

@[simp] theorem bind_fault (next : α → Outcome β) :
    ((Outcome.fault : Outcome α) >>= next) = .fault := rfl

@[simp] theorem bind_outOfFuel (next : α → Outcome β) :
    ((Outcome.outOfFuel : Outcome α) >>= next) = .outOfFuel := rfl

@[simp] theorem map_done (value : α) (f : α → β) : f <$> (Outcome.done value : Outcome α) = .done (f value) := rfl

theorem bind_success {first : Outcome α} {next : α → Outcome β} {result : β} :
    (first >>= next) = .done result ↔ ∃ value, first = .done value ∧ next value = .done result := by
  cases first <;> simp

theorem map_success {first : Outcome α} {f : α → β} {result : β} :
    (f <$> first) = .done result ↔ ∃ value, first = .done value ∧ f value = result := by
  cases first <;> simp [Functor.map,bind]

theorem pair_inj {a c : α} {b d : β} (same : Outcome.done (a,b) = .done (c,d)) : a = c ∧ b = d := Prod.mk.inj (done.inj same)

theorem bind_congr {first : Outcome α} {left right : α → Outcome β} (same : ∀ value, first = .done value → left value = right value) :
    first >>= left = first >>= right := by
  cases first with
  | done value => exact same value rfl
  | exit status => rfl
  | fault => rfl
  | outOfFuel => rfl

variable {γ : Type}

theorem map_return (first : Outcome α) (f : α → β) (g : β → γ) :
    g <$> (first >>= fun value => .done (f value)) = (fun value => g (f value)) <$> first := by
  cases first <;> rfl

end Outcome

end CProgram
