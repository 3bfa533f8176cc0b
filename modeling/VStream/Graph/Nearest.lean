import VStream.Graph.BestFirst
import VStream.Graph.ShortestPath

/-!
# The goal that is found

Where every link costs something, a best-first search takes the goals in the
order of their distances and, at one distance, of the vertices themselves. So
the goal that it ends at is told by the graph alone.
-/

namespace VStream.BestFirst
open ShortestPath

variable {V C : Type} [AddCommMonoid C] [LinearOrder V] [LinearOrder C] {link : V → V → C → Prop} {a : V}
  {goal : V → Prop} {taken : List (V × C)} {v w s : V} {d e k : C}

/-- `s` is a goal at distance `d`, and every other one is farther or, as far, comes later. -/
structure Nearest (link : V → V → C → Prop) (a : V) (goal : V → Prop) (s : V) (d : C) : Prop where
  here : goal s
  walk : Walk link a s d
  least : ∀ t k, goal t → Walk link a t k → d < k ∨ d = k ∧ s ≤ t

theorem Nearest.unique {t : V} (nearest : Nearest link a goal s d) (other : Nearest link a goal t e) :
    s = t ∧ d = e := by
  rcases nearest.least t e other.here other.walk with less | ⟨rfl, first⟩
  · rcases other.least s d nearest.here nearest.walk with less' | ⟨same, -⟩
    · exact absurd less less'.asymm
    · exact absurd same less.ne'
  · rcases other.least s d nearest.here nearest.walk with less | ⟨-, second⟩
    · exact absurd less (lt_irrefl d)
    · exact ⟨le_antisymm first second, rfl⟩

theorem Order.begun (order : Order link a goal taken) : taken = [] ∨ a ∈ taken.map Prod.fst := by
  induction order with
  | nil => exact .inl rfl
  | @cons taken w e _ _ best ih =>
    right
    rcases ih with rfl | member
    · obtain ⟨rfl, rfl⟩ := offer_nil.mp best.1
      exact List.mem_cons_self
    · exact List.mem_cons_of_mem _ member

/-- Every distance is that of a path through vertices taken. -/
theorem Order.path (order : Order link a goal taken) (member : (v, d) ∈ taken) :
    ∃ vs, Path link a vs v d ∧ ∀ x ∈ vs, x ∈ taken.map Prod.fst := by
  induction order generalizing v d with
  | nil => cases member
  | @cons taken w e _ _ best ih =>
    have further : ∀ x ∈ taken.map Prod.fst, x ∈ ((w, e) :: taken).map Prod.fst := fun x => List.mem_cons_of_mem w
    rcases List.mem_cons.mp member with here | before
    · cases here
      cases best.1 with
      | start => exact ⟨[a], .nil, fun x here => here⟩
      | link source step fresh =>
        obtain ⟨vs, path, inner⟩ := ih source
        refine ⟨w :: vs, .snoc path step fun seen => fresh (inner w seen), ?_⟩
        exact List.forall_mem_cons.mpr ⟨List.mem_cons_self, fun x seen => further x (inner x seen)⟩
    · obtain ⟨vs, path, inner⟩ := ih before
      exact ⟨vs, path, fun x seen => further x (inner x seen)⟩

/-- A sum that the order depends on is the length of a path. -/
theorem Sum.path (sum : Sum link a goal d) : ∃ vs w, Path link a vs w d := by
  cases sum with
  | intro order _ step fresh =>
    obtain ⟨vs, path, inner⟩ := order.path List.mem_cons_self
    exact ⟨_, _, .snoc path step fun seen => fresh (inner _ seen)⟩

section cut
variable [IsOrderedCancelAddMonoid C] (positive : ∀ v w c, link v w c → 0 < c)
include positive

/-- A walk that leaves the vertices taken does so by an offer, and goes on at a cost. -/
theorem cut (begun : taken = [] ∨ a ∈ taken.map Prod.fst)
    (final : ∀ v d k, (v, d) ∈ taken → Walk link a v k → d ≤ k) (walk : Walk link a w k)
    (fresh : w ∉ taken.map Prod.fst) : ∃ y e, Offer link a taken y e ∧ (y = w ∧ e ≤ k ∨ e < k) := by
  induction walk with
  | nil =>
    obtain rfl := begun.resolve_right fresh
    exact ⟨a, 0, .start, .inl ⟨rfl, le_rfl⟩⟩
  | @snoc v w d c walk step ih =>
    by_cases before : v ∈ taken.map Prod.fst
    · obtain ⟨⟨_, e⟩, source, rfl⟩ := List.mem_map.mp before
      have least := final _ e d source walk
      exact ⟨w, e + c, .link source step fresh, .inl ⟨rfl, add_le_add_left least c⟩⟩
    · obtain ⟨y, e, offer, close⟩ := ih before
      have least : e ≤ d := by
        rcases close with ⟨-, le⟩ | less
        · exact le
        · exact less.le
      exact ⟨y, e, offer, .inr (lt_add_of_le_of_pos least (positive v w c step))⟩

/-- The best offer is at most as far as any vertex not yet taken, and comes first of those as far. -/
theorem Best.least (best : Best link a taken v d) (begun : taken = [] ∨ a ∈ taken.map Prod.fst)
    (final : ∀ v d k, (v, d) ∈ taken → Walk link a v k → d ≤ k) (walk : Walk link a w k)
    (fresh : w ∉ taken.map Prod.fst) : d < k ∨ d = k ∧ v ≤ w := by
  obtain ⟨y, e, offer, close⟩ := cut positive begun final walk fresh
  rcases best.2 y e offer with less | ⟨rfl, first⟩
  · left
    rcases close with ⟨-, le⟩ | less'
    · exact less.trans_le le
    · exact less.trans less'
  · rcases close with ⟨rfl, le⟩ | less
    · exact le.lt_or_eq.imp_right fun same => ⟨same, first⟩
    · exact .inl less

/-- A vertex is taken with its distance. -/
theorem Order.final (order : Order link a goal taken) :
    ∀ v d k, (v, d) ∈ taken → Walk link a v k → d ≤ k := by
  induction order with
  | nil => exact fun v d k member => absurd member List.not_mem_nil
  | @cons taken w e order _ best ih =>
    intro v d k member walk
    rcases List.mem_cons.mp member with here | before
    · cases here
      have fresh : w ∉ taken.map Prod.fst := by
        cases best.1 with
        | start => exact List.not_mem_nil
        | link _ _ fresh => exact fresh
      rcases best.least positive order.begun ih walk fresh with less | ⟨same, -⟩
      · exact less.le
      · exact same.le
    · exact ih v d k before walk

/-- The goal at the end of an order is the nearest one. -/
theorem Order.nearest (order : Order link a goal ((s, d) :: taken)) (here : goal s) : Nearest link a goal s d := by
  obtain ⟨vs, path, -⟩ := order.path List.mem_cons_self
  cases order with
  | cons order inner best =>
    refine ⟨here, path.walk, fun t k other walk => ?_⟩
    exact best.least positive order.begun (order.final positive) walk fun member => inner t member other

end cut

/-! ### All costs together -/

section total
variable [IsOrderedAddMonoid C] {links : List (V × V × C)}

/-- What the links between these vertices cost. -/
def inner (links : List (V × V × C)) (vs : List V) : C :=
  (links.map fun link => if link.1 ∈ vs ∧ link.2.1 ∈ vs then link.2.2 else 0).sum

theorem inner_mono (nonneg : ∀ link ∈ links, 0 ≤ link.2.2) {vs vs' : List V} (more : ∀ x ∈ vs, x ∈ vs') :
    inner links vs ≤ inner links vs' := by
  apply List.sum_le_sum
  intro link member
  by_cases before : link.1 ∈ vs ∧ link.2.1 ∈ vs
  · rw [if_pos before, if_pos ⟨more _ before.1, more _ before.2⟩]
  · rw [if_neg before]
    split
    · exact nonneg link member
    · exact le_rfl

/-- A link to a new vertex has not been counted. -/
theorem inner_cons (nonneg : ∀ link ∈ links, 0 ≤ link.2.2) {vs : List V} {c : C} (source : v ∈ vs) (fresh : w ∉ vs)
    (listed : (v, w, c) ∈ links ∨ (w, v, c) ∈ links) : inner links vs + c ≤ inner links (w :: vs) := by
  obtain ⟨new, member, cost, before, after⟩ : ∃ new ∈ links, new.2.2 = c ∧ ¬(new.1 ∈ vs ∧ new.2.1 ∈ vs) ∧
      new.1 ∈ w :: vs ∧ new.2.1 ∈ w :: vs := by
    rcases listed with forth | back
    · exact ⟨_, forth, rfl, fun both => fresh both.2, List.mem_cons_of_mem _ source, List.mem_cons_self⟩
    · exact ⟨_, back, rfl, fun both => fresh both.1, List.mem_cons_self, List.mem_cons_of_mem _ source⟩
  obtain ⟨front, back, rfl⟩ := List.append_of_mem member
  have more : ∀ x ∈ vs, x ∈ w :: vs := fun x => List.mem_cons_of_mem w
  have first := inner_mono (fun link here => nonneg link (List.mem_append_left _ here)) more
  have second := inner_mono (fun link here => nonneg link (List.mem_append_right _ (List.mem_cons_of_mem _ here))) more
  simp only [inner, List.map_append, List.map_cons, List.sum_append, List.sum_cons] at first second ⊢
  rw [if_neg before, if_pos after, cost, zero_add, add_assoc, add_comm _ c]
  exact add_le_add first (add_le_add_right second c)

omit [LinearOrder V] in
theorem path_nonneg (nonneg : ∀ v w c, link v w c → 0 ≤ c) {vs : List V} (path : Path link a vs v d) : 0 ≤ d := by
  induction path with
  | nil => exact le_rfl
  | snoc _ step _ ih => exact add_nonneg ih (nonneg _ _ _ step)

/-- No path costs more than all links together. -/
theorem path_le (nonneg : ∀ link ∈ links, 0 ≤ link.2.2)
    (listed : ∀ v w c, link v w c → (v, w, c) ∈ links ∨ (w, v, c) ∈ links) {vs : List V} (path : Path link a vs v d) :
    d ≤ (links.map fun link => link.2.2).sum := by
  have within : v ∈ vs ∧ d ≤ inner links vs := by
    induction path with
    | nil =>
      refine ⟨List.mem_cons_self, List.sum_nonneg fun c counted => ?_⟩
      obtain ⟨link, member, rfl⟩ := List.mem_map.mp counted
      split
      · exact nonneg link member
      · exact le_rfl
    | @snoc vs v w d c path step fresh ih =>
      obtain ⟨source, le⟩ := ih
      exact ⟨List.mem_cons_self, (add_le_add_left le c).trans (inner_cons nonneg source fresh (listed v w c step))⟩
  apply within.2.trans
  apply List.sum_le_sum
  intro link member
  split
  · exact le_rfl
  · exact nonneg link member

end total

end VStream.BestFirst
