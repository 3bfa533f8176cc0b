import VStream.Cpp.Outcome

/-!
# Ways to stop

`StopsBy` bounds the ways in which a program can stop. It goes through the
parts of a program as they are put together.
-/

namespace VStream.Cpp

/-- If the run stops, it stops in one of these ways. -/
def StopsBy {α : Type} (ways : Stop → Prop) (run : Exec α) : Prop := ∀ stop, run = .error stop → ways stop

theorem bind_error {α β : Type} {run : Exec α} {next : α → Exec β} {stop : Stop} (stopped : run >>= next = .error stop) :
    run = .error stop ∨ ∃ a, run = .ok a ∧ next a = .error stop := by
  cases result : run with
  | error other =>
    rw [result, error_bind] at stopped
    exact .inl (congrArg Except.error (Except.error.inj stopped))
  | ok a =>
    rw [result, ok_bind] at stopped
    exact .inr ⟨a, rfl, stopped⟩

theorem map_ok {α β : Type} {run : Exec α} {f : α → β} {b : β} (h : run.map f = .ok b) : ∃ a, run = .ok a ∧ f a = b := by
  cases result : run with
  | error stop =>
    rw [result] at h
    cases h
  | ok a =>
    rw [result] at h
    exact ⟨a, rfl, Except.ok.inj h⟩

namespace StopsBy
variable {α β ι σ ρ : Type} {ways : Stop → Prop}

@[simp] theorem ok (a : α) : StopsBy ways (.ok a : Exec α) := fun _ stopped => nomatch stopped

theorem error {stop : Stop} (way : ways stop) : StopsBy ways (.error stop : Exec α) := by
  intro other stopped
  obtain rfl := Except.error.inj stopped
  exact way

theorem imp {ways' : Stop → Prop} {run : Exec α} (stops : StopsBy ways run) (wider : ∀ stop, ways stop → ways' stop) :
    StopsBy ways' run :=
  fun stop stopped => wider stop (stops stop stopped)

theorem bind {run : Exec α} {next : α → Exec β} (first : StopsBy ways run)
    (rest : ∀ a, run = .ok a → StopsBy ways (next a)) : StopsBy ways (run >>= next) := by
  intro stop stopped
  rcases bind_error stopped with here | ⟨a, result, later⟩
  · exact first stop here
  · exact rest a result stop later

theorem map {run : Exec α} (first : StopsBy ways run) (f : α → β) : StopsBy ways (run.map f) := by
  intro stop stopped
  cases result : run with
  | error other =>
    rw [result] at stopped
    exact first stop (result.trans (congrArg Except.error (Except.error.inj stopped)))
  | ok a =>
    rw [result] at stopped
    cases stopped

theorem ite {p : Prop} [Decidable p] {yes no : Exec α} (first : p → StopsBy ways yes) (second : ¬p → StopsBy ways no) :
    StopsBy ways (if p then yes else no) := by
  by_cases holds : p
  · rw [if_pos holds]
    exact first holds
  · rw [if_neg holds]
    exact second holds

theorem foldlM {step : σ → ι → Exec σ} (each : ∀ s i, StopsBy ways (step s i)) (items : List ι) (s : σ) :
    StopsBy ways (items.foldlM step s) := by
  induction items generalizing s with
  | nil => exact ok s
  | cons i items ih =>
    rw [List.foldlM_cons]
    exact (each s i).bind fun s' _ => ih s'

/-- A loop that ends stops as one of its rounds does. -/
theorem loop {body : σ → Exec (Pass σ ρ)} {fuel : Nat} {s : σ} (each : ∀ s, StopsBy ways (body s))
    (ends : Cpp.loop body fuel s ≠ .error .diverges) : StopsBy ways (Cpp.loop body fuel s) := by
  intro stop stopped
  have other : stop ≠ .diverges := by
    rintro rfl
    exact ends stopped
  obtain ⟨s', -, here⟩ := loop_stopped stopped other
  exact each s' stop here

end StopsBy

end VStream.Cpp
