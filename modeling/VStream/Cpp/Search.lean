import VStream.Cpp.Text

/-!
# Searches

Where `find` and `rfind` stop in a string that is put together from parts. A
part is `Apart` from a pattern where no end of the pattern but the whole begins
it, so that nothing is found across its start.
-/

namespace VStream.Cpp

/-- `max_size` of a string. -/
def maxSize : Nat := 2 ^ 63 - 1

def Apart (pat s : Bytes) : Prop := ∀ k < pat.length, 0 < k → ¬ pat.drop k <+: s

instance (pat s : Bytes) : Decidable (Apart pat s) := inferInstanceAs (Decidable (∀ k < _, _ → _))

theorem prefix_append_cases {pat a b : Bytes} (here : pat <+: a ++ b) :
    pat <+: a ∨ a.length < pat.length ∧ pat.drop a.length <+: b := by
  rcases Nat.lt_or_ge a.length pat.length with longer | inside
  · right
    obtain ⟨rest, split⟩ := here
    refine ⟨longer, rest, ?_⟩
    have behind := congrArg (List.drop a.length) split
    rwa [List.drop_append_of_le_length longer.le, List.drop_left] at behind
  · exact .inl (List.prefix_of_prefix_length_le here (List.prefix_append a b) inside)

theorem find_apart {pat a b : Bytes} (apart : Apart pat b) (absent : find pat a = none) :
    find pat (a ++ b) = (find pat b).map (a.length + ·) := by
  induction a with
  | nil => simp
  | cons c a ih =>
    have later : find pat a = none := by
      rw [find] at absent
      split at absent
      · cases absent
      · exact Option.map_eq_none_iff.mp absent
    have notHere : ¬ pat.isPrefixOf (c :: (a ++ b)) = true := by
      rw [List.isPrefixOf_iff_prefix, ← List.cons_append]
      intro here
      rcases prefix_append_cases here with inside | ⟨longer, across⟩
      · exact find_none_iff.mp absent inside.isInfix
      · exact apart _ longer (Nat.succ_pos _) across
    rw [List.cons_append, find, if_neg notHere, ih later, Option.map_map]
    congr 1
    funext i
    simp only [Function.comp_apply, List.length_cons]
    omega

theorem find_some_apart {pat a b : Bytes} {i : Nat} (apart : Apart pat b) (absent : find pat a = none)
    (here : find pat b = some i) : find pat (a ++ b) = some (a.length + i) := by
  rw [find_apart apart absent, here]
  rfl

/-- A part is apart from a pattern that has its first byte nowhere but at the start. -/
theorem apart_of_head {pat s : Bytes} (other : ∀ c ∈ s.head?, c ∉ pat.tail) : Apart pat s := by
  intro k inside some here
  obtain ⟨k, rfl⟩ : ∃ m, k = m + 1 := ⟨k - 1, by omega⟩
  rw [← List.drop_tail] at here
  cases behind : pat.tail.drop k with
  | nil =>
    have none := congrArg List.length behind
    rw [List.length_drop, List.length_tail, List.length_nil] at none
    omega
  | cons d rest =>
    have member : d ∈ pat.tail := List.mem_of_mem_drop (by rw [behind]; exact List.mem_cons_self)
    rw [behind] at here
    obtain ⟨more, rfl⟩ := here
    exact other d rfl member

theorem find_skip {pat a : Bytes} (some : pat ≠ []) (absent : ∀ c ∈ a, c ∉ pat) (b : Bytes) :
    find pat (a ++ b) = (find pat b).map (a.length + ·) := by
  induction a with
  | nil => simp
  | cons c a ih =>
    have notHere : ¬ pat.isPrefixOf (c :: (a ++ b)) = true := by
      rw [List.isPrefixOf_iff_prefix]
      intro here
      obtain ⟨d, rest, rfl⟩ := List.exists_cons_of_ne_nil some
      obtain rfl := (List.cons_prefix_cons.mp here).1
      exact absent d List.mem_cons_self List.mem_cons_self
    rw [List.cons_append, find, if_neg notHere, ih fun d member => absent d (List.mem_cons_of_mem _ member),
      Option.map_map]
    congr 1
    funext i
    simp only [Function.comp_apply, List.length_cons]
    omega

theorem rfind_none_iff {pat s : Bytes} : rfind pat s = none ↔ ¬ pat <:+: s := by
  induction s with
  | nil => rw [rfind]; split <;> simp_all
  | cons c s ih =>
    rw [rfind, List.infix_cons_iff, ← List.isPrefixOf_iff_prefix]
    cases later : rfind pat s with
    | some i =>
      rw [later] at ih
      simp only [reduceCtorEq, false_iff, not_not] at ih ⊢
      exact .inr ih
    | none =>
      have absent := ih.mp later
      dsimp only
      split
      · rename_i here
        simp [here]
      · rename_i here
        simp [here, absent]

theorem rfind_here {pat s : Bytes} {i : Nat} (found : rfind pat s = some i) : pat <+: s.drop i := by
  induction s generalizing i with
  | nil =>
    rw [rfind] at found
    split at found
    · rename_i empty
      rw [empty]
      exact List.nil_prefix
    · cases found
  | cons c s ih =>
    rw [rfind] at found
    split at found
    · rename_i j later
      obtain rfl := Option.some.inj found
      exact ih later
    · split at found
      · rename_i here
        obtain rfl := Option.some.inj found
        exact List.isPrefixOf_iff_prefix.mp here
      · cases found

theorem rfind_append {pat b : Bytes} {i : Nat} (a : Bytes) (found : rfind pat b = some i) :
    rfind pat (a ++ b) = some (a.length + i) := by
  induction a with
  | nil => simp [found]
  | cons c a ih =>
    rw [List.cons_append, rfind, ih, List.length_cons]
    simp only [Option.some.injEq]
    omega

theorem rfind_head {c : UInt8} {pat s : Bytes} (here : pat <+: s) (absent : c ∉ s) :
    rfind (c :: pat) (c :: s) = some 0 := by
  have none : rfind (c :: pat) s = none := by
    rw [rfind_none_iff]
    intro inside
    exact absent (inside.subset List.mem_cons_self)
  have first : (c :: pat).isPrefixOf (c :: s) = true :=
    List.isPrefixOf_iff_prefix.mpr ((List.prefix_cons_inj c).mpr here)
  rw [rfind, none]
  simp only [first, if_true]

/-- Two places of a pattern that does not overlap itself are a whole pattern apart. -/
theorem places_apart {pat s : Bytes} (unbordered : Apart pat pat) {i j : Nat} (first : pat <+: s.drop i)
    (second : pat <+: s.drop j) (before : i < j) : i + pat.length ≤ j := by
  by_contra overlap
  obtain ⟨d, rfl⟩ : ∃ d, j = i + d := ⟨j - i, by omega⟩
  obtain ⟨rest, split⟩ := first
  rw [← List.drop_drop, ← split, List.drop_append_of_le_length (by omega)] at second
  have across : pat.drop d <+: pat :=
    List.prefix_of_prefix_length_le (List.prefix_append _ rest) second (by rw [List.length_drop]; omega)
  exact unbordered d (by omega) (by omega) across

end VStream.Cpp
