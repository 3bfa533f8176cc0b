import VStream.Cpp.Outcome

/-!
# Loops over a map

A range-for goes from one key of the map to the next. Its body may change the
map, but an iterator whose element is erased cannot go on.
-/

namespace VStream.Cpp
open Std (TreeMap TransOrd LawfulEqOrd OrientedCmp ReflCmp)

section range
variable {α β σ : Type} [Ord α]

/-- `++` on the iterator at `key`. -/
def advance (m : TreeMap α β) (key : α) : Exec (Option α) :=
  if key ∈ m then .ok (m.keys.find? fun k => compare key k == .lt) else .error .undefined

def rangeRound (map : σ → TreeMap α β) (body : σ → α → Exec σ) : Option α × σ → Exec (Pass (Option α × σ) σ)
  | (none, s) => .ok (.leave s)
  | (some key, s) => do
    let s ← body s key
    let next ← advance (map s) key
    return .again (next, s)

/-- Fuel for the keys that are there at the start. -/
def rangeFor (map : σ → TreeMap α β) (body : σ → α → Exec σ) (s : σ) : Exec σ :=
  loop (rangeRound map body) ((map s).keys.length + 1) ((map s).keys.head?, s)

variable [TransOrd α] [LawfulEqOrd α]

theorem keys_ext {m m' : TreeMap α β} (same : ∀ k, k ∈ m ↔ k ∈ m') : m.keys = m'.keys := by
  have perm : m.keys.Perm m'.keys := by
    rw [List.perm_ext_iff_of_nodup TreeMap.nodup_keys TreeMap.nodup_keys]
    intro k
    rw [TreeMap.mem_keys, TreeMap.mem_keys]
    exact same k
  refine perm.eq_of_pairwise ?_ TreeMap.ordered_keys TreeMap.ordered_keys
  intro a b _ _ less greater
  rw [OrientedCmp.gt_of_lt less] at greater
  cases greater

theorem advance_split {m : TreeMap α β} {before after : List α} {key : α} (keys : m.keys = before ++ key :: after) :
    advance m key = .ok after.head? := by
  have member : key ∈ m := by
    rw [← TreeMap.mem_keys, keys]
    exact List.mem_append_right _ List.mem_cons_self
  have sorted := TreeMap.ordered_keys (t := m)
  rw [keys, List.pairwise_append, List.pairwise_cons] at sorted
  obtain ⟨-, ⟨above, -⟩, below⟩ := sorted
  have passed : before.find? (fun k => compare key k == .lt) = none := by
    rw [List.find?_eq_none]
    intro k earlier
    rw [OrientedCmp.gt_of_lt (below k earlier key List.mem_cons_self)]
    decide
  have equal : compare key key = .eq := ReflCmp.compare_self
  rw [advance, if_pos member, keys, List.find?_append, passed, Option.none_or, List.find?_cons, equal]
  cases after with
  | nil => rfl
  | cons next after =>
    rw [List.find?_cons, above next List.mem_cons_self]
    rfl

section rules
variable {map : σ → TreeMap α β} {body : σ → α → Exec σ} {keys : List α} {inv : List α → σ → Prop}
  (same : ∀ rest s, inv rest s → (map s).keys = keys)
include same

/-- While the body leaves the keys as they are, the loop goes through them in their order. -/
theorem rangeFor_through {before after done : List α} (split : keys = done ++ (before ++ after))
    (step : ∀ key ∈ before, ∀ rest s, inv (key :: rest) s → ∃ s', body s key = .ok s' ∧ inv rest s') {s : σ}
    (start : inv (before ++ after) s) : ∃ s', inv after s' ∧ ∀ fuel,
      loop (rangeRound map body) (before.length + fuel) ((before ++ after).head?, s) =
        loop (rangeRound map body) fuel (after.head?, s') := by
  induction before generalizing done s with
  | nil => exact ⟨s, start, fun fuel => by rw [List.length_nil, Nat.zero_add]; rfl⟩
  | cons key before ih =>
    obtain ⟨s₁, visited, kept⟩ := step key List.mem_cons_self _ s start
    have split' : keys = (done ++ [key]) ++ (before ++ after) := by rw [split]; simp
    obtain ⟨s', last, run⟩ := ih split' (fun key member => step key (List.mem_cons_of_mem _ member)) kept
    have next : advance (map s₁) key = .ok (before ++ after).head? := by
      have keys' : (map s₁).keys = done ++ key :: (before ++ after) := (same _ s₁ kept).trans split
      exact advance_split keys'
    refine ⟨s', last, fun fuel => ?_⟩
    have fuel' : (key :: before).length + fuel = before.length + fuel + 1 := by rw [List.length_cons]; omega
    rw [fuel', loop, List.cons_append, List.head?_cons, rangeRound, visited, ok_bind, next]
    exact run fuel

theorem rangeFor_visits (step : ∀ key ∈ keys, ∀ rest s, inv (key :: rest) s → ∃ s', body s key = .ok s' ∧ inv rest s')
    {s : σ} (start : inv keys s) : ∃ s', rangeFor map body s = .ok s' ∧ inv [] s' := by
  have split : keys = [] ++ (keys ++ []) := (List.append_nil keys).symm
  obtain ⟨s', last, run⟩ := rangeFor_through same split step (by simpa using start)
  refine ⟨s', ?_, last⟩
  have whole := run 1
  rw [List.append_nil] at whole
  rw [rangeFor, same _ s start, whole]
  rfl

/-- The loop stops where the body does, or where it has erased the element that it was called for. -/
theorem rangeFor_stops {before after : List α} {key : α} (split : keys = before ++ key :: after)
    (step : ∀ key ∈ before, ∀ rest s, inv (key :: rest) s → ∃ s', body s key = .ok s' ∧ inv rest s') {s : σ}
    {stop : Stop} (start : inv keys s)
    (stops : ∀ s, inv (key :: after) s → (body s key >>= fun s' => advance (map s') key) = .error stop) :
    rangeFor map body s = .error stop := by
  have split' : keys = [] ++ (before ++ key :: after) := split
  obtain ⟨s', here, run⟩ := rangeFor_through same split' step (split ▸ start)
  have fuel : (map s).keys.length + 1 = before.length + (after.length + 1 + 1) := by
    rw [same _ s start, split, List.length_append, List.length_cons]
    omega
  have stopped := stops s' here
  rw [rangeFor, fuel, same _ s start, split, run, List.head?_cons, loop, rangeRound]
  cases visited : body s' key with
  | error stop' =>
    rw [visited] at stopped
    exact congrArg Except.error (Except.error.inj stopped)
  | ok s₁ =>
    rw [visited, ok_bind] at stopped
    rw [ok_bind, stopped]
    rfl

end rules

/-- The visits of a loop that goes through: the body has left every key in the map that it was called for. -/
inductive Through (map : σ → TreeMap α β) (body : σ → α → Exec σ) : σ → List α → σ → Prop where
  | nil {s : σ} : Through map body s [] s
  | cons {s s₁ t : σ} {key : α} {keys : List α} (visited : body s key = .ok s₁) (stays : key ∈ map s₁)
      (later : Through map body s₁ keys t) : Through map body s (key :: keys) t

/-- Where only its own key can go, a loop that is left has visited every key. -/
theorem rangeFor_ok {map : σ → TreeMap α β} {body : σ → α → Exec σ} {inv : σ → Prop}
    (keeps : ∀ s key s₁, inv s → key ∈ map s → body s key = .ok s₁ → key ∈ map s₁ →
      inv s₁ ∧ ∀ k, k ∈ map s₁ ↔ k ∈ map s)
    {s t : σ} (start : inv s) (left : rangeFor map body s = .ok t) : Through map body s (map s).keys t ∧ inv t := by
  suffices visits : ∀ after before fuel s, inv s → (map s).keys = before ++ after →
      loop (rangeRound map body) fuel (after.head?, s) = .ok t → Through map body s after t ∧ inv t from
    visits _ [] _ s start rfl left
  intro after
  induction after with
  | nil =>
    intro before fuel s here _ left
    cases fuel with
    | zero => cases left
    | succ fuel =>
      cases left
      exact ⟨.nil, here⟩
  | cons key after ih =>
    intro before fuel s here keys left
    cases fuel with
    | zero => cases left
    | succ fuel =>
      rw [loop, List.head?_cons, rangeRound] at left
      obtain ⟨pass, round, left⟩ := bind_ok left
      obtain ⟨s₁, visited, round⟩ := bind_ok round
      obtain ⟨next, moved, round⟩ := bind_ok round
      cases round
      have stays : key ∈ map s₁ := by
        by_contra gone
        rw [advance, if_neg gone] at moved
        cases moved
      have member : key ∈ map s := by
        rw [← TreeMap.mem_keys, keys]
        exact List.mem_append_right _ List.mem_cons_self
      obtain ⟨here₁, same⟩ := keeps s key s₁ here member visited stays
      have keys₁ : (map s₁).keys = before ++ key :: after := (keys_ext same).trans keys
      rw [advance_split keys₁] at moved
      cases moved
      obtain ⟨later, last⟩ := ih (before ++ [key]) fuel s₁ here₁ (by rw [keys₁, List.append_assoc]; rfl) left
      exact ⟨.cons visited stays later, last⟩

end range

end VStream.Cpp
