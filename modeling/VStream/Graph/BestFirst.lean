import Mathlib

/-!
# Best-first order

The order in which a best-first search takes the vertices of a weighted graph,
in exact arithmetic and whatever the costs are. `Offer` is what the vertices
taken so far offer for another one; the least offer is taken next.
-/

namespace VStream.BestFirst

variable {V C : Type} [AddCommMonoid C]

/-- The start is offered first, then every vertex that a taken one links to and that is not taken itself. -/
inductive Offer (link : V → V → C → Prop) (a : V) : List (V × C) → V → C → Prop where
  | start : Offer link a [] a 0
  | link {taken : List (V × C)} {v w : V} {d c : C} (source : (v, d) ∈ taken) (step : link v w c)
      (fresh : w ∉ taken.map Prod.fst) : Offer link a taken w (d + c)

section offers
variable {link : V → V → C → Prop} {a : V} {taken : List (V × C)} {v w : V} {d e : C}

theorem offer_nil : Offer link a [] w e ↔ w = a ∧ e = 0 := by
  constructor
  · intro offer
    cases offer with
    | start => exact ⟨rfl, rfl⟩
    | link source => cases source
  · rintro ⟨rfl, rfl⟩
    exact .start

/-- Once `v` is taken, the offers for other vertices stay, and its own links are added. -/
theorem offer_cons (taking : Offer link a taken v d) : Offer link a ((v, d) :: taken) w e ↔
    w ≠ v ∧ (Offer link a taken w e ∨ w ∉ taken.map Prod.fst ∧ ∃ c, link v w c ∧ e = d + c) := by
  constructor
  · intro offer
    cases offer with
    | link source step fresh =>
      rw [List.map_cons, List.mem_cons, not_or] at fresh
      refine ⟨fresh.1, ?_⟩
      rcases List.mem_cons.mp source with here | before
      · cases here
        exact .inr ⟨fresh.2, _, step, rfl⟩
      · exact .inl (.link before step fresh.2)
  · rintro ⟨other, offer | ⟨fresh, c, step, rfl⟩⟩
    · cases offer with
      | start => exact absurd (offer_nil.mp taking).1.symm other
      | link source step fresh =>
        apply Offer.link (List.mem_cons_of_mem _ source) step
        rw [List.map_cons, List.mem_cons, not_or]
        exact ⟨other, fresh⟩
    · apply Offer.link List.mem_cons_self step
      rw [List.map_cons, List.mem_cons, not_or]
      exact ⟨other, fresh⟩

end offers

variable [LinearOrder V] [LinearOrder C]

/-- The least offer and, of several, the one for the least vertex. -/
def Best (link : V → V → C → Prop) (a : V) (taken : List (V × C)) (w : V) (e : C) : Prop :=
  Offer link a taken w e ∧ ∀ w' e', Offer link a taken w' e' → e < e' ∨ e = e' ∧ w ≤ w'

/-- The vertices taken, each with its distance and the last one first. A goal is the last to be taken. -/
inductive Order (link : V → V → C → Prop) (a : V) (goal : V → Prop) : List (V × C) → Prop where
  | nil : Order link a goal []
  | cons {taken : List (V × C)} {w : V} {e : C} (order : Order link a goal taken)
      (inner : ∀ v ∈ taken.map Prod.fst, ¬goal v) (best : Best link a taken w e) : Order link a goal ((w, e) :: taken)

/-- The sums of a distance and a cost that the order depends on. -/
inductive Sum (link : V → V → C → Prop) (a : V) (goal : V → Prop) : C → Prop where
  | intro {taken : List (V × C)} {v w : V} {d c : C} (order : Order link a goal ((v, d) :: taken)) (inner : ¬goal v)
      (step : link v w c) (fresh : w ∉ ((v, d) :: taken).map Prod.fst) : Sum link a goal (d + c)

section best
variable {link : V → V → C → Prop} {a : V} {taken : List (V × C)} {w w' : V} {e e' : C}

theorem best_start : Best link a [] a 0 := by
  refine ⟨.start, fun w e offer => ?_⟩
  obtain ⟨rfl, rfl⟩ := offer_nil.mp offer
  exact .inr ⟨rfl, le_rfl⟩

theorem Best.unique (best : Best link a taken w e) (best' : Best link a taken w' e') :
    w = w' ∧ e = e' := by
  rcases best.2 w' e' best'.1 with less | ⟨rfl, first⟩
  · rcases best'.2 w e best.1 with less' | ⟨same, -⟩
    · exact absurd less less'.asymm
    · exact absurd same less.ne'
  · rcases best'.2 w e best.1 with less | ⟨-, second⟩
    · exact absurd less (lt_irrefl e)
    · exact ⟨le_antisymm first second, rfl⟩

end best

end VStream.BestFirst
