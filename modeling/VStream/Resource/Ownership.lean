import Mathlib

/-!
# Holders of resources

A table says which resource each holder has. It is covered by the resources in
use when it lists none that is not in use and none twice, and it accounts for
them when it lists each.
-/

namespace VStream.Resource
open Function

variable {ρ δ : Type*}

structure Covered (held : ρ → Option δ) (inUse : Set δ) : Prop where
  used : ∀ r d, held r = some d → d ∈ inUse
  unique : ∀ r r' d, held r = some d → held r' = some d → r = r'

structure Accounted (held : ρ → Option δ) (inUse : Set δ) : Prop extends Covered held inUse where
  holder : ∀ d ∈ inUse, ∃ r, held r = some d

variable {held : ρ → Option δ} {inUse : Set δ} {r : ρ} {d : δ}

theorem Accounted.mem_iff (accounted : Accounted held inUse) (d : δ) : d ∈ inUse ↔ ∃ r, held r = some d :=
  ⟨accounted.holder d, fun ⟨r, holds⟩ => accounted.used r d holds⟩

/-- The resources in use that no holder has. -/
def Leaked (held : ρ → Option δ) (inUse : Set δ) : Set δ := {d | d ∈ inUse ∧ ∀ r, held r ≠ some d}

theorem Covered.inUse_eq (covered : Covered held inUse) : inUse = {d | ∃ r, held r = some d} ∪ Leaked held inUse := by
  ext d
  by_cases holds : ∃ r, held r = some d
  · exact iff_of_true (covered.used _ _ holds.choose_spec) (.inl holds)
  · simp [Leaked, not_exists.mp holds]

theorem Accounted.leaked (accounted : Accounted held inUse) : Leaked held inUse = ∅ := by
  refine Set.eq_empty_of_forall_notMem fun d leaked => ?_
  obtain ⟨r, holds⟩ := accounted.holder d leaked.1
  exact leaked.2 r holds

variable [DecidableEq ρ]

theorem Covered.acquire (covered : Covered held inUse) (r : ρ) (fresh : d ∉ inUse) :
    Covered (update held r (some d)) (insert d inUse) where
  used s e holds := by
    by_cases here : s = r
    · rw [here, update_self] at holds
      exact .inl (Option.some.inj holds).symm
    · rw [update_of_ne here] at holds
      exact .inr (covered.used s e holds)
  unique s s' e holds holds' := by
    have free : ∀ t, held t ≠ some d := fun t same => fresh (covered.used t d same)
    by_cases here : s = r <;> by_cases here' : s' = r
    · rw [here, here']
    · rw [here, update_self] at holds
      rw [update_of_ne here', ← holds] at holds'
      exact absurd holds' (free s')
    · rw [here', update_self] at holds'
      rw [update_of_ne here, ← holds'] at holds
      exact absurd holds (free s)
    · rw [update_of_ne here] at holds
      rw [update_of_ne here'] at holds'
      exact covered.unique s s' e holds holds'

theorem Covered.drop (covered : Covered held inUse) (r : ρ) : Covered (update held r none) inUse where
  used s e holds := by
    by_cases here : s = r
    · rw [here, update_self] at holds
      cases holds
    · rw [update_of_ne here] at holds
      exact covered.used s e holds
  unique s s' e holds holds' := by
    by_cases here : s = r
    · rw [here, update_self] at holds
      cases holds
    by_cases here' : s' = r
    · rw [here', update_self] at holds'
      cases holds'
    rw [update_of_ne here] at holds
    rw [update_of_ne here'] at holds'
    exact covered.unique s s' e holds holds'

theorem Covered.lost {other : Option δ} (covered : Covered held inUse) (holds : held r = some d)
    (differs : other ≠ some d) (s : ρ) : update held r other s ≠ some d := by
  by_cases here : s = r
  · rwa [here, update_self]
  · rw [update_of_ne here]
    exact fun holds' => here (covered.unique s r d holds' holds)

theorem Covered.release (covered : Covered held inUse) (holds : held r = some d) :
    Covered (update held r none) (inUse \ {d}) where
  used s e holds' := by
    refine ⟨(covered.drop r).used s e holds', ?_⟩
    rintro rfl
    exact covered.lost holds (Option.some_ne_none e).symm s holds'
  unique := (covered.drop r).unique

theorem Accounted.acquire (accounted : Accounted held inUse) (vacant : held r = none) (fresh : d ∉ inUse) :
    Accounted (update held r (some d)) (insert d inUse) where
  toCovered := accounted.toCovered.acquire r fresh
  holder e used := by
    rcases used with rfl | before
    · exact ⟨r, update_self ..⟩
    · obtain ⟨s, holds⟩ := accounted.holder e before
      have other : s ≠ r := by
        rintro rfl
        rw [vacant] at holds
        cases holds
      exact ⟨s, by rw [update_of_ne other, holds]⟩

theorem Accounted.release (accounted : Accounted held inUse) (holds : held r = some d) :
    Accounted (update held r none) (inUse \ {d}) where
  toCovered := accounted.toCovered.release holds
  holder e used := by
    obtain ⟨s, holds'⟩ := accounted.holder e used.1
    have elsewhere : s ≠ r := by
      rintro rfl
      exact used.2 (Option.some.inj (holds'.symm.trans holds))
    exact ⟨s, by rw [update_of_ne elsewhere, holds']⟩

/-! ### Resources without a holder -/

theorem leaked_acquire (vacant : held r = none) (fresh : d ∉ inUse) :
    Leaked (update held r (some d)) (insert d inUse) = Leaked held inUse := by
  ext e
  constructor
  · rintro ⟨rfl | used, free⟩
    · exact absurd (update_self ..) (free r)
    · refine ⟨used, fun s holds => ?_⟩
      have other : s ≠ r := by
        rintro rfl
        cases vacant.symm.trans holds
      exact free s (by rwa [update_of_ne other])
  · rintro ⟨used, free⟩
    refine ⟨.inr used, fun s holds => ?_⟩
    by_cases here : s = r
    · rw [here, update_self] at holds
      obtain rfl := Option.some.inj holds
      exact fresh used
    · rw [update_of_ne here] at holds
      exact free s holds

theorem Covered.leaked_drop (covered : Covered held inUse) (holds : held r = some d) :
    Leaked (update held r none) inUse = insert d (Leaked held inUse) := by
  ext e
  constructor
  · rintro ⟨used, free⟩
    by_cases same : e = d
    · exact .inl same
    · refine .inr ⟨used, fun s holds' => ?_⟩
      have other : s ≠ r := by
        rintro rfl
        exact same (Option.some.inj (holds'.symm.trans holds))
      exact free s (by rwa [update_of_ne other])
  · rintro (rfl | ⟨used, free⟩)
    · exact ⟨covered.used _ _ holds, covered.lost holds (Option.some_ne_none e).symm⟩
    · refine ⟨used, fun s holds' => ?_⟩
      by_cases here : s = r
      · rw [here, update_self] at holds'
        cases holds'
      · rw [update_of_ne here] at holds'
        exact free s holds'

theorem Covered.leaked_release (covered : Covered held inUse) (holds : held r = some d) :
    Leaked (update held r none) (inUse \ {d}) = Leaked held inUse := by
  have dropped := covered.leaked_drop holds
  ext e
  constructor
  · rintro ⟨⟨used, other⟩, free⟩
    have leaked : e ∈ Leaked (update held r none) inUse := ⟨used, free⟩
    rw [dropped] at leaked
    exact leaked.resolve_left other
  · intro leaked
    have other : e ≠ d := by
      rintro rfl
      exact leaked.2 r holds
    have dropped' : e ∈ Leaked (update held r none) inUse := dropped ▸ .inr leaked
    exact ⟨⟨leaked.1, other⟩, dropped'.2⟩

theorem Covered.leaked_replace {old : δ} (covered : Covered held inUse) (holds : held r = some old)
    (fresh : d ∉ inUse) :
    Leaked (update held r (some d)) (insert d inUse) = insert old (Leaked held inUse) := by
  rw [← covered.leaked_drop holds, ← leaked_acquire (update_self r none held) fresh, update_idem]

end VStream.Resource
