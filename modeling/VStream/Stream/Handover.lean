import Mathlib.Data.List.Basic

/-!
# Handing over in pieces

Each call is offered what is left of a message and takes a piece off its front,
or fails. Without a failure the pieces make up the message; the first failure
is the last call.
-/

namespace VStream.Handover
variable {α : Type}

/-- What a call is offered and how much of it is taken; `none` is a failure. -/
structure Call (α : Type) where
  offered : List α
  taken : Option Nat
  deriving DecidableEq

def Call.piece (c : Call α) : List α := c.offered.take (c.taken.getD 0)

def accepted (calls : List (Call α)) : List α := calls.flatMap Call.piece

inductive Hands : List α → List (Call α) → Prop where
  | done : Hands [] []
  | failed (message : List α) : Hands message [⟨message, none⟩]
  | took {message : List α} {k : Nat} {calls : List (Call α)} (inside : k ≤ message.length)
      (rest : Hands (message.drop k) calls) : Hands message (⟨message, some k⟩ :: calls)

section
variable {message : List α} {calls : List (Call α)}

theorem accepted_took (k : Nat) : accepted (⟨message, some k⟩ :: calls) = message.take k ++ accepted calls := rfl

theorem Hands.front (hands : Hands message calls) : accepted calls <+: message := by
  induction hands with
  | done => exact List.prefix_refl []
  | failed message => exact List.nil_prefix
  | @took message k calls inside rest ih =>
    obtain ⟨left, whole⟩ := ih
    refine ⟨left, ?_⟩
    rw [accepted_took, List.append_assoc, whole, List.take_append_drop]

theorem Hands.whole (hands : Hands message calls) (smooth : ∀ c ∈ calls, c.taken ≠ none) :
    accepted calls = message := by
  induction hands with
  | done => rfl
  | failed message => exact absurd rfl (smooth _ List.mem_cons_self)
  | @took message k calls inside rest ih =>
    rw [accepted_took, ih fun c member => smooth c (List.mem_cons_of_mem _ member), List.take_append_drop]

theorem Hands.failure (hands : Hands message calls) {before after : List (Call α)} {c : Call α}
    (split : calls = before ++ c :: after) (failed : c.taken = none) : after = [] := by
  have filled : ∀ before : List (Call α), before ++ c :: after ≠ [] := by simp
  induction hands generalizing before with
  | done => exact absurd split.symm (filled before)
  | failed message =>
    cases before with
    | nil => exact (List.cons.inj split).2.symm
    | cons d before => exact absurd (List.cons.inj split).2.symm (filled before)
  | took inside rest ih =>
    cases before with
    | nil =>
      rw [← (List.cons.inj split).1] at failed
      cases failed
    | cons d before => exact ih (List.cons.inj split).2

end

end VStream.Handover
