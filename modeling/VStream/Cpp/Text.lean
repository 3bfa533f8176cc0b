import VStream.Cpp.Outcome

/-!
# `std::string` and C strings

Strings are byte lists. A search returns `none` where `std::string` returns
`npos`; `sizeT` gives the number that arithmetic on the result sees.
-/

namespace VStream.Cpp

abbrev Bytes := List UInt8

def text (s : String) : Bytes := s.toList.map fun c => c.toNat.toUInt8

theorem text_blank : text " " = [32] := by decide
theorem text_colon : text ":" = [58] := by decide

def npos : Nat := 2 ^ 64 - 1

/-- A search result as the `size_t` it is in the program. -/
def sizeT (pos : Option Nat) : Nat := pos.getD npos

/-- `a + b` on `size_t`. -/
def sizeAdd (a b : Nat) : Nat := (a + b) % 2 ^ 64

/-- `a - b` on `size_t`. -/
def sizeSub (a b : Nat) : Nat := (a + 2 ^ 64 - b) % 2 ^ 64

theorem sizeSub_of_le {a b : Nat} (le : b ≤ a) (fits : a < 2 ^ 64) : sizeSub a b = a - b := by
  unfold sizeSub; omega

/-- `s.find(pat)`: the first position at which `pat` stands. -/
def find (pat : Bytes) : Bytes → Option Nat
  | [] => if pat = [] then some 0 else none
  | c :: s => if pat.isPrefixOf (c :: s) then some 0 else (find pat s).map (· + 1)

def findFrom (pat s : Bytes) (pos : Nat) : Option Nat :=
  if pos ≤ s.length then (find pat (s.drop pos)).map (· + pos) else none

/-- `s.rfind(pat)`: the last position at which `pat` stands. -/
def rfind (pat : Bytes) : Bytes → Option Nat
  | [] => if pat = [] then some 0 else none
  | c :: s =>
    match rfind pat s with
    | some i => some (i + 1)
    | none => if pat.isPrefixOf (c :: s) then some 0 else none

/-- `s.substr(pos, n)`, with everything from `pos` on where `n` is `npos`. -/
def substr (s : Bytes) (pos n : Nat) : Exec Bytes :=
  if pos ≤ s.length then .ok (if n = npos then s.drop pos else (s.drop pos).take n) else .error (.thrown .outOfRange)

def erase (s : Bytes) (pos n : Nat) : Exec Bytes :=
  if pos ≤ s.length then .ok (s.take pos ++ s.drop (pos + n)) else .error (.thrown .outOfRange)

def replace (s : Bytes) (pos n : Nat) (new : Bytes) : Exec Bytes :=
  if pos ≤ s.length then .ok (s.take pos ++ new ++ s.drop (pos + n)) else .error (.thrown .outOfRange)

/-- What `substr` takes where its position is inside. -/
def stretch (s : Bytes) (pos n : Nat) : Bytes := if n = npos then s.drop pos else (s.drop pos).take n

theorem substr_inside {s : Bytes} {pos : Nat} (inside : pos ≤ s.length) (n : Nat) :
    substr s pos n = .ok (stretch s pos n) := if_pos inside

theorem stretch_length_le (s : Bytes) (pos n : Nat) : (stretch s pos n).length ≤ s.length - pos := by
  unfold stretch
  split
  · rw [List.length_drop]
  · rw [List.length_take, List.length_drop]
    exact Nat.min_le_right _ _

theorem le_stretch_length {s : Bytes} {n : Nat} (inside : n ≤ s.length) : n ≤ (stretch s 0 n).length := by
  unfold stretch
  split
  · exact inside
  · rw [List.drop_zero, List.length_take]
    exact Nat.le_min.mpr ⟨le_refl n, inside⟩

theorem find_some_iff {pat s : Bytes} {i : Nat} :
    find pat s = some i ↔ pat <+: s.drop i ∧ i ≤ s.length ∧ ∀ j < i, ¬ pat <+: s.drop j := by
  induction s generalizing i with
  | nil =>
    rw [find]
    split
    · rename_i h; subst h
      constructor
      · rintro h; obtain rfl := Option.some.inj h; simp
      · rintro ⟨-, h, -⟩; simp at h; rw [h]
    · rename_i h; simp [h]
  | cons c s ih =>
    rw [find]
    split
    · rename_i h
      rw [List.isPrefixOf_iff_prefix] at h
      constructor
      · rintro e; obtain rfl := Option.some.inj e; exact ⟨h, by simp, by simp⟩
      · rintro ⟨-, -, least⟩
        cases i with
        | zero => rfl
        | succ i => exact absurd h (least 0 (by omega))
    · rename_i h
      rw [List.isPrefixOf_iff_prefix] at h
      cases i with
      | zero =>
        constructor
        · intro e; simp at e
        · rintro ⟨e, -, -⟩; exact absurd e h
      | succ i =>
        have shift : (find pat s).map (· + 1) = some (i + 1) ↔ find pat s = some i := by
          simp
        rw [shift, ih]
        simp only [List.drop_succ_cons, List.length_cons, Nat.add_le_add_iff_right]
        refine and_congr_right fun _ => and_congr_right fun _ => ⟨?_, ?_⟩
        · intro least j hj
          cases j with
          | zero => exact h
          | succ j => exact least j (by omega)
        · intro least j hj
          exact least (j + 1) (by omega)

theorem find_le {pat s : Bytes} {pos : Nat} (found : find pat s = some pos) : pos ≤ s.length :=
  (find_some_iff.mp found).2.1

theorem find_none_iff {pat s : Bytes} : find pat s = none ↔ ¬ pat <:+: s := by
  induction s with
  | nil => rw [find]; split <;> simp_all
  | cons c s ih =>
    rw [find]
    split
    · rename_i h
      rw [List.isPrefixOf_iff_prefix] at h
      simp [h.isInfix]
    · rename_i h
      rw [List.isPrefixOf_iff_prefix] at h
      simp [ih, List.infix_cons_iff, h]

theorem find_first {c : UInt8} {pat before rest : Bytes} (absent : c ∉ before) (here : c :: pat <+: rest) :
    find (c :: pat) (before ++ rest) = some before.length := by
  induction before with
  | nil =>
    obtain ⟨rest, rfl⟩ := here
    simp [find]
  | cons d before ih =>
    simp only [List.mem_cons, not_or] at absent
    have differs : (c :: pat).isPrefixOf (d :: (before ++ rest)) = false := by
      simp [List.isPrefixOf, absent.1]
    simp [find, differs, ih absent.2]

theorem find_fits {pat s : Bytes} {i : Nat} (found : find pat s = some i) : i + pat.length ≤ s.length := by
  obtain ⟨here, inside, -⟩ := find_some_iff.mp found
  have fits := here.length_le
  rw [List.length_drop] at fits
  omega

/-- What is found stays where it is when the string grows. -/
theorem find_append {pat s : Bytes} {i : Nat} (found : find pat s = some i) (t : Bytes) : find pat (s ++ t) = some i := by
  have fits := find_fits found
  obtain ⟨here, inside, first⟩ := find_some_iff.mp found
  refine find_some_iff.mpr ⟨?_, by rw [List.length_append]; omega, fun j less earlier => first j less ?_⟩
  · rw [List.drop_append_of_le_length inside]
    exact here.trans (List.prefix_append _ _)
  · rw [List.drop_append_of_le_length (by omega)] at earlier
    exact List.prefix_of_prefix_length_le earlier (List.prefix_append _ _) (by rw [List.length_drop]; omega)

theorem find_of_append {pat s t : Bytes} {i : Nat} (found : find pat (s ++ t) = some i)
    (inside : i + pat.length ≤ s.length) : find pat s = some i := by
  obtain ⟨here, -, first⟩ := find_some_iff.mp found
  refine find_some_iff.mpr ⟨?_, by omega, fun j less earlier => first j less ?_⟩
  · rw [List.drop_append_of_le_length (by omega)] at here
    exact List.prefix_of_prefix_length_le here (List.prefix_append _ _) (by rw [List.length_drop]; omega)
  · rw [List.drop_append_of_le_length (by omega)]
    exact earlier.trans (List.prefix_append _ _)

theorem find_snoc {pat : Bytes} {c : UInt8} (other : pat.getLast? ≠ some c) (s : Bytes) :
    find pat (s ++ [c]) = find pat s := by
  cases here : find pat s with
  | some i => exact find_append here [c]
  | none =>
    by_contra found
    obtain ⟨i, found⟩ := Option.ne_none_iff_exists'.mp found
    have fits := find_fits found
    rw [List.length_append, List.length_singleton] at fits
    by_cases inside : i + pat.length ≤ s.length
    · rw [find_of_append found inside] at here
      cases here
    · obtain ⟨start, -, -⟩ := find_some_iff.mp found
      have behind := start.eq_of_length (by rw [List.length_drop, List.length_append, List.length_singleton]; omega)
      by_cases empty : pat = []
      · rw [empty] at inside
        rw [empty] at fits
        have none := find_none_iff.mp here
        rw [empty] at none
        exact none (List.nil_infix)
      · have before : i ≤ s.length := by
          have some := List.length_pos_iff.mpr empty
          omega
        rw [List.drop_append_of_le_length before] at behind
        rw [behind, List.getLast?_concat] at other
        exact other rfl

theorem rfind_snoc {pat : Bytes} {c : UInt8} (other : pat.getLast? ≠ some c) (some : pat ≠ []) (s : Bytes) :
    rfind pat (s ++ [c]) = rfind pat s := by
  have start : ∀ s : Bytes, pat <+: s ++ [c] → pat <+: s := by
    intro s here
    rcases List.prefix_concat_iff.mp here with whole | here
    · rw [whole, List.getLast?_concat] at other
      exact absurd rfl other
    · exact here
  induction s with
  | nil =>
    have none : ¬ pat.isPrefixOf [c] = true := by
      rw [List.isPrefixOf_iff_prefix]
      exact fun here => some (List.prefix_nil.mp (start [] here))
    simp [rfind, some, none]
  | cons d s ih =>
    have same : pat.isPrefixOf (d :: (s ++ [c])) = pat.isPrefixOf (d :: s) := by
      rw [Bool.eq_iff_iff, List.isPrefixOf_iff_prefix, List.isPrefixOf_iff_prefix]
      exact ⟨start (d :: s), fun here => here.trans (List.prefix_append (d :: s) [c])⟩
    rw [List.cons_append, rfind, rfind, ih, same]

theorem find_byte {c : UInt8} {before : Bytes} (absent : c ∉ before) (rest : Bytes) :
    find [c] (before ++ c :: rest) = some before.length :=
  find_first absent ⟨rest, rfl⟩

theorem rfind_fits {pat s : Bytes} {i : Nat} (found : rfind pat s = some i) : i + pat.length ≤ s.length := by
  induction s generalizing i with
  | nil =>
    rw [rfind] at found
    split at found
    · rename_i empty
      obtain rfl := Option.some.inj found
      simp [empty]
    · cases found
  | cons c s ih =>
    rw [rfind] at found
    split at found
    · rename_i j later
      obtain rfl := Option.some.inj found
      have fits := ih later
      rw [List.length_cons]
      omega
    · split at found
      · rename_i here
        obtain rfl := Option.some.inj found
        rw [Nat.zero_add]
        exact (List.isPrefixOf_iff_prefix.mp here).length_le
      · cases found

end VStream.Cpp
