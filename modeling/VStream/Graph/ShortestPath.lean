import Mathlib

/-!
# Shortest paths by settling

A best-first search settles a vertex at a time. `Frontier` is what it keeps
between two settlements, `Frontier.settle` is one settlement, and
`Frontier.least` is why the vertex to be settled next has its final distance.
-/

namespace VStream.ShortestPath

variable {V C : Type} [AddCommMonoid C] [LinearOrder C] [IsOrderedAddMonoid C]

inductive Walk (link : V → V → C → Prop) (a : V) : V → C → Prop where
  | nil : Walk link a a 0
  | snoc {v w : V} {d c : C} : Walk link a v d → link v w c → Walk link a w (d + c)

/-- A walk without repeated vertices, with the vertices it visits. -/
inductive Path (link : V → V → C → Prop) (a : V) : List V → V → C → Prop where
  | nil : Path link a [a] a 0
  | snoc {vs : List V} {v w : V} {d c : C} :
      Path link a vs v d → link v w c → w ∉ vs → Path link a (w :: vs) w (d + c)

variable {link : V → V → C → Prop} {a : V}

omit [LinearOrder C] [IsOrderedAddMonoid C] in
theorem Path.walk {vs : List V} {v : V} {d : C} (path : Path link a vs v d) : Walk link a v d := by
  induction path with
  | nil => exact .nil
  | snoc _ step _ ih => exact .snoc ih step

/-- `settled` vertices have their final distance `dist`; `pending v` is the best distance known for a
vertex that a settled one links to. -/
structure Frontier (link : V → V → C → Prop) (a : V) (settled : V → Prop) (dist : V → C)
    (pending : V → Option C) : Prop where
  start : settled a ∨ ∃ e, pending a = some e ∧ e ≤ 0
  apart : ∀ {v d}, pending v = some d → ¬ settled v
  reached : ∀ {v d}, pending v = some d → ∃ vs, Path link a vs v d ∧ ∀ x ∈ vs, x = v ∨ settled x
  final : ∀ {v k}, settled v → Walk link a v k → dist v ≤ k
  relaxed : ∀ {v w c}, settled v → link v w c → settled w ∨ ∃ e, pending w = some e ∧ e ≤ dist v + c

namespace Frontier
variable {settled : V → Prop} {dist : V → C} {pending : V → Option C}

omit [IsOrderedAddMonoid C] in
theorem initial [DecidableEq V] (link : V → V → C → Prop) (a : V) :
    Frontier link a (fun _ => False) (fun _ => 0) (fun v => if v = a then some 0 else none) where
  start := .inr ⟨0, if_pos rfl, le_rfl⟩
  apart _ := not_false
  reached := by
    intro v d h
    split at h
    · rename_i same
      obtain rfl := Option.some.inj h
      subst same
      exact ⟨[v], .nil, by simp⟩
    · cases h
  final := False.elim
  relaxed := False.elim

theorem cut (f : Frontier link a settled dist pending) (nonneg : ∀ v w c, link v w c → 0 ≤ c)
    {v : V} {k : C} (walk : Walk link a v k) : settled v ∨ ∃ y e, pending y = some e ∧ e ≤ k := by
  induction walk with
  | nil => exact f.start.imp_right fun ⟨e, he, le⟩ => ⟨a, e, he, le⟩
  | @snoc v w d c walk step ih =>
    rcases ih with done | ⟨y, e, hy, le⟩
    · refine (f.relaxed done step).imp_right fun ⟨e, he, le⟩ => ⟨w, e, he, le.trans ?_⟩
      exact add_le_add_left (f.final done walk) c
    · exact .inr ⟨y, e, hy, le.trans (le_add_of_nonneg_right (nonneg _ _ _ step))⟩

/-- A least pending distance is the length of a shortest walk. -/
theorem least (f : Frontier link a settled dist pending) (nonneg : ∀ v w c, link v w c → 0 ≤ c)
    {u : V} {d : C} (minimal : ∀ y e, pending y = some e → d ≤ e) {k : C}
    (fresh : ¬ settled u) (walk : Walk link a u k) : d ≤ k := by
  rcases f.cut nonneg walk with done | ⟨y, e, hy, le⟩
  · exact absurd done fresh
  · exact (minimal y e hy).trans le

/-- Settling the least pending vertex `u` and relaxing its links. -/
theorem settle [DecidableEq V] (f : Frontier link a settled dist pending)
    (nonneg : ∀ v w c, link v w c → 0 ≤ c) {u : V} {d : C} (here : pending u = some d)
    (minimal : ∀ y e, pending y = some e → d ≤ e) (pending' : V → Option C)
    (apart : ∀ {v e}, pending' v = some e → v ≠ u ∧ ¬ settled v)
    (sound : ∀ {v e}, pending' v = some e → pending v = some e ∨ ∃ c, link u v c ∧ e = d + c)
    (keep : ∀ {v e}, v ≠ u → pending v = some e → ∃ e', pending' v = some e' ∧ e' ≤ e)
    (relax : ∀ {v c}, link u v c → v = u ∨ settled v ∨ ∃ e, pending' v = some e ∧ e ≤ d + c) :
    Frontier link a (fun v => v = u ∨ settled v) (Function.update dist u d) pending' where
  start := by
    by_cases same : a = u
    · exact .inl (.inl same)
    · rcases f.start with done | ⟨e, he, le⟩
      · exact .inl (.inr done)
      · obtain ⟨e', he', le'⟩ := keep same he
        exact .inr ⟨e', he', le'.trans le⟩
  apart h := by
    obtain ⟨other, fresh⟩ := apart h
    exact not_or.mpr ⟨other, fresh⟩
  reached := by
    intro v e h
    obtain ⟨other, fresh⟩ := apart h
    rcases sound h with old | ⟨c, step, rfl⟩
    · obtain ⟨vs, path, inner⟩ := f.reached old
      exact ⟨vs, path, fun x hx => (inner x hx).imp_right .inr⟩
    · obtain ⟨vs, path, inner⟩ := f.reached here
      refine ⟨v :: vs, path.snoc step fun member => ?_, ?_⟩
      · exact (inner v member).elim other fresh
      · intro x hx
        rcases List.mem_cons.mp hx with rfl | hx
        · exact .inl rfl
        · exact .inr (inner x hx)
  final := by
    intro v k done walk
    by_cases same : v = u
    · subst same
      rw [Function.update_self]
      exact f.least nonneg minimal (f.apart here) walk
    · rw [Function.update_of_ne same]
      exact f.final (done.resolve_left same) walk
  relaxed := by
    intro v w c done step
    by_cases same : v = u
    · subst same
      rw [Function.update_self]
      rcases relax step with rfl | old | waiting
      · exact .inl (.inl rfl)
      · exact .inl (.inr old)
      · exact .inr waiting
    · rw [Function.update_of_ne same]
      rcases f.relaxed (done.resolve_left same) step with old | ⟨e, he, le⟩
      · exact .inl (.inr old)
      · by_cases target : w = u
        · exact .inl (.inl target)
        · obtain ⟨e', he', le'⟩ := keep target he
          exact .inr ⟨e', he', le'.trans le⟩

end Frontier

end VStream.ShortestPath
