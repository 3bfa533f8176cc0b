import Mathlib

/-!
# Machines side by side

There is a machine of one kind at every address, and every event goes to one of
them. A run of them all is, at each address, the run of the machine there on its
own events.
-/

namespace VStream.Parallel
open Function

variable {ι σ ε ω ξ : Type} [DecidableEq ι]

/-- One machine: the state it ends in and what it puts out. -/
def alone (step : ε → σ → Except ξ (σ × List ω)) : List ε → σ → Except ξ (σ × List ω)
  | [], s => .ok (s, [])
  | e :: es, s => do
    let (s, out) ← step e s
    let (s, later) ← alone step es s
    return (s, out ++ later)

/-- All machines. What they put out has the address that it comes from. -/
def together (addr : ε → ι) (step : ε → σ → Except ξ (σ × List ω)) :
    List ε → (ι → σ) → Except ξ ((ι → σ) × List (ι × ω))
  | [], s => .ok (s, [])
  | e :: es, s => do
    let (t, out) ← step e (s (addr e))
    let (s, later) ← together addr step es (update s (addr e) t)
    return (s, out.map (addr e, ·) ++ later)

def own (addr : ε → ι) (i : ι) (es : List ε) : List ε := es.filter (addr · = i)

def outOf (i : ι) (out : List (ι × ω)) : List ω := (out.filter (·.1 = i)).map Prod.snd

section outputs
variable (i : ι) (out : List ω) (later : List (ι × ω))

theorem outOf_append (first : List (ι × ω)) : outOf i (first ++ later) = outOf i first ++ outOf i later := by
  rw [outOf, List.filter_append, List.map_append]
  rfl

theorem outOf_tagged : outOf i (out.map (i, ·)) = out := by
  rw [outOf, List.filter_eq_self.mpr (by simp), List.map_map]
  exact List.map_id out

theorem outOf_other {i j : ι} (other : j ≠ i) : outOf i (out.map (j, ·)) = [] := by
  rw [outOf, List.filter_eq_nil_iff.mpr (by simp [other]), List.map_nil]

/-- What comes from one address only. -/
theorem outOf_all {i : ι} {out : List (ι × ω)} (only : ∀ j, j ≠ i → outOf j out = []) :
    out.map Prod.snd = outOf i out := by
  rw [outOf, List.filter_eq_self.mpr]
  rintro ⟨j, w⟩ member
  by_contra other
  rw [decide_eq_true_eq] at other
  have here : w ∈ outOf j out := List.mem_map.mpr ⟨(j, w), List.mem_filter.mpr ⟨member, by simp⟩, rfl⟩
  rw [only j other] at here
  cases here

end outputs

theorem bind_returns {α β : Type} {x : Except ξ α} {f : α → Except ξ β} {b : β} (h : x >>= f = .ok b) :
    ∃ a, x = .ok a ∧ f a = .ok b := by
  cases x with
  | error stop => cases h
  | ok a => exact ⟨a, rfl, h⟩

section runs
variable {addr : ε → ι} {step : ε → σ → Except ξ (σ × List ω)}

theorem alone_cons {e : ε} {es : List ε} {s t u : σ} {now later : List ω} (first : step e s = .ok (u, now))
    (rest : alone step es u = .ok (t, later)) : alone step (e :: es) s = .ok (t, now ++ later) := by
  rw [alone, first]
  change (alone step es u >>= _) = _
  rw [rest]
  rfl

theorem together_cons {e : ε} {es : List ε} {s t : ι → σ} {u : σ} {now : List ω} {later : List (ι × ω)}
    (first : step e (s (addr e)) = .ok (u, now))
    (rest : together addr step es (update s (addr e) u) = .ok (t, later)) :
    together addr step (e :: es) s = .ok (t, now.map (addr e, ·) ++ later) := by
  rw [together, first]
  change (together addr step es (update s (addr e) u) >>= _) = _
  rw [rest]
  rfl

theorem own_here (e : ε) (es : List ε) : own addr (addr e) (e :: es) = e :: own addr (addr e) es := by
  rw [own, List.filter_cons_of_pos (by simp)]
  rfl

theorem own_other {i : ι} {e : ε} (other : addr e ≠ i) (es : List ε) : own addr i (e :: es) = own addr i es := by
  rw [own, List.filter_cons_of_neg (by simpa using other)]
  rfl

theorem own_own (i : ι) (es : List ε) : own addr i (own addr i es) = own addr i es := by
  simp [own, List.filter_filter]

theorem own_apart {i j : ι} (other : j ≠ i) (es : List ε) : own addr j (own addr i es) = [] := by
  rw [own, own, List.filter_filter, List.filter_eq_nil_iff]
  intro e _
  simp only [Bool.and_eq_true, decide_eq_true_eq, not_and]
  intro here
  rw [here]
  exact other

/-- A run of all machines runs each of them on its own events. -/
theorem together_alone {es : List ε} {s t : ι → σ} {out : List (ι × ω)}
    (run : together addr step es s = .ok (t, out)) (i : ι) :
    alone step (own addr i es) (s i) = .ok (t i, outOf i out) := by
  induction es generalizing s out with
  | nil =>
    cases run
    rfl
  | cons e es ih =>
    obtain ⟨⟨u, now⟩, first, run⟩ := bind_returns run
    obtain ⟨⟨t', later⟩, rest, run⟩ := bind_returns run
    cases run
    have after := ih rest
    rw [outOf_append]
    by_cases here : addr e = i
    · subst here
      rw [update_self] at after
      rw [own_here, outOf_tagged]
      exact alone_cons first after
    · rw [update_of_ne (Ne.symm here)] at after
      rw [own_other here, outOf_other now here]
      exact after

/-- The machines run together where each of them runs on its own events. -/
theorem together_runs {es : List ε} {s : ι → σ} (runs : ∀ i, ∃ result, alone step (own addr i es) (s i) = .ok result) :
    ∃ result, together addr step es s = .ok result := by
  induction es generalizing s with
  | nil => exact ⟨_, rfl⟩
  | cons e es ih =>
    obtain ⟨result, run⟩ := runs (addr e)
    rw [own_here] at run
    obtain ⟨⟨u, now⟩, first, run⟩ := bind_returns run
    obtain ⟨left, after, -⟩ := bind_returns run
    obtain ⟨⟨t, later⟩, rest⟩ : ∃ result, together addr step es (update s (addr e) u) = .ok result := by
      apply ih
      intro i
      by_cases here : i = addr e
      · subst here
        rw [update_self]
        exact ⟨left, after⟩
      · rw [update_of_ne here]
        have other := runs i
        rwa [own_other (Ne.symm here)] at other
    exact ⟨_, together_cons first rest⟩

/-- Only the order of the events at each address counts. -/
theorem together_interleaved {es es' : List ε} (same : ∀ i, own addr i es = own addr i es') {s t : ι → σ}
    {out : List (ι × ω)} (run : together addr step es s = .ok (t, out)) :
    ∃ out', together addr step es' s = .ok (t, out') ∧ ∀ i, outOf i out' = outOf i out := by
  have each := together_alone run
  obtain ⟨⟨t', out'⟩, run'⟩ : ∃ result, together addr step es' s = .ok result := by
    apply together_runs
    intro i
    exact ⟨_, same i ▸ each i⟩
  have both : ∀ i, (t' i, outOf i out') = (t i, outOf i out) := by
    intro i
    have here := together_alone run' i
    rw [← same i, each i] at here
    exact (Except.ok.inj here).symm
  obtain rfl : t' = t := funext fun i => (Prod.mk.inj (both i)).1
  exact ⟨out', run', fun i => (Prod.mk.inj (both i)).2⟩

/-- The events of one address by themselves do there what they do among the others. -/
theorem together_own {es : List ε} {s t : ι → σ} {out : List (ι × ω)} (run : together addr step es s = .ok (t, out))
    (i : ι) : ∃ t' out', together addr step (own addr i es) s = .ok (t', out') ∧ t' i = t i ∧
      outOf i out' = outOf i out ∧ ∀ j, j ≠ i → t' j = s j ∧ outOf j out' = [] := by
  have each := together_alone run
  have nothing : ∀ j, j ≠ i → alone step (own addr j (own addr i es)) (s j) = .ok (s j, []) := by
    intro j other
    rw [own_apart other]
    rfl
  obtain ⟨⟨t', out'⟩, run'⟩ : ∃ result, together addr step (own addr i es) s = .ok result := by
    apply together_runs
    intro j
    by_cases here : j = i
    · subst here
      rw [own_own]
      exact ⟨_, each j⟩
    · exact ⟨_, nothing j here⟩
  have each' := together_alone run'
  have here := each' i
  rw [own_own, each i] at here
  obtain ⟨state, output⟩ := Prod.mk.inj (Except.ok.inj here)
  refine ⟨t', out', run', state.symm, output.symm, ?_⟩
  intro j other
  obtain ⟨state, output⟩ := Prod.mk.inj (Except.ok.inj ((each' j).symm.trans (nothing j other)))
  exact ⟨state, output⟩

end runs

end VStream.Parallel
