import VStream.Cpp.Stream

/-!
# Round robin

The list of hosts is every word of the server file; `next` hands them out in turn.
-/

namespace VStream
open Cpp

structure RoundRobin where
  hosts : List Bytes := []
  index : Int := 0
  deriving DecidableEq

namespace RoundRobin

/-- The constructor's `while (file >> ip)`. -/
def readHosts : IStream × List Bytes → Exec (Pass (IStream × List Bytes) (List Bytes))
  | (file, hosts) =>
    let read := IStream.word [] file
    if read.2.fail then .ok (.leave hosts) else .ok (.again (read.2, hosts ++ [read.1]))

/-- `none` is a file that does not open. -/
def load : Option Bytes → Exec RoundRobin
  | none => .error (.exit 1)
  | some contents => do
    let hosts ← loop readHosts (contents.length + 1) (.of contents, [])
    return { hosts }

def next (rr : RoundRobin) : Exec (Bytes × RoundRobin) := do
  let idx := rr.index
  let successor ← toInt (rr.index + 1)
  let index ← intMod successor (castInt rr.hosts.length)
  if h : 0 ≤ idx ∧ idx.toNat < rr.hosts.length then return (rr.hosts[idx.toNat], { rr with index })
  else .error .undefined

/-! ### Loading -/

/-- A non-empty string without white space. -/
def Word (s : Bytes) : Prop := s ≠ [] ∧ ∀ c ∈ s, isSpace c = false

theorem word_read {s : IStream} (good : (IStream.word [] s).2.fail = false) :
    Word (IStream.word [] s).1 ∧ (IStream.word [] s).2.rest.length < s.rest.length := by
  have started : s.skip.fail = false := by
    by_contra failed
    rw [Bool.not_eq_false] at failed
    simp [IStream.word, failed] at good
  obtain ⟨c, rest, eq, plain, suffix⟩ := IStream.skip_good started
  have taken : (c :: rest).takeWhile (fun c => !isSpace c) =
      c :: rest.takeWhile fun c => !isSpace c := by simp [plain]
  have left : (c :: rest).dropWhile (fun c => !isSpace c) =
      rest.dropWhile fun c => !isSpace c := by simp [plain]
  simp only [IStream.word, eq, IStream.of, Bool.false_eq_true, ↓reduceIte, taken, left]
  refine ⟨⟨List.cons_ne_nil _ _, ?_⟩, ?_⟩
  · intro d member
    rcases List.mem_cons.mp member with rfl | later
    · exact plain
    · simpa using List.mem_takeWhile_imp later
  · have := (List.dropWhile_suffix (fun c => !isSpace c) (l := rest)).length_le
    have := suffix.length_le
    simp only [List.length_cons] at this
    omega

theorem load_words (contents : Bytes) :
    ∃ hosts, load (some contents) = .ok { hosts } ∧ ∀ w ∈ hosts, Word w := by
  have total : ∃ hosts, loop readHosts (contents.length + 1) (.of contents, []) = .ok hosts ∧ ∀ w ∈ hosts, Word w := by
    refine loop_total (fun s => ∀ w ∈ s.2, Word w) (fun hosts => ∀ w ∈ hosts, Word w) (fun s => s.1.rest.length) ?_
      (by simp) (Nat.lt_succ_self _)
    rintro ⟨file, hosts⟩ words
    cases failed : (IStream.word [] file).2.fail with
    | true => exact .inr ⟨hosts, by simp [readHosts, failed], words⟩
    | false =>
      refine .inl ⟨((IStream.word [] file).2, hosts ++ [(IStream.word [] file).1]), by simp [readHosts, failed],
        fun w member => ?_, (word_read failed).2⟩
      rcases List.mem_append.mp member with old | new
      · exact words w old
      · rw [List.mem_singleton.mp new]; exact (word_read failed).1
  obtain ⟨hosts, read, words⟩ := total
  exact ⟨hosts, by simp [load, read], words⟩

theorem word_line {gap w : Bytes} (spaces : ∀ c ∈ gap, isSpace c = true) (word : Word w) (rest : Bytes) :
    IStream.word [] (.of (gap ++ (w ++ 10 :: rest))) = (w, .of (10 :: rest)) := by
  obtain ⟨c, w', rfl⟩ := List.exists_cons_of_ne_nil word.1
  have plain := word.2
  have skipped : (IStream.of (gap ++ (c :: w' ++ 10 :: rest))).skip = .of (c :: w' ++ 10 :: rest) := by
    simp [IStream.skip, IStream.of, List.dropWhile_append_of_pos spaces, plain c (by simp)]
  have taken : (c :: w' ++ 10 :: rest).takeWhile (fun c => !isSpace c) = c :: w' := by
    rw [List.takeWhile_append_of_pos (by simpa using plain)]
    simp [show isSpace 10 = true from rfl]
  have left : (c :: w' ++ 10 :: rest).dropWhile (fun c => !isSpace c) = 10 :: rest := by
    rw [List.dropWhile_append_of_pos (by simpa using plain)]
    simp [show isSpace 10 = true from rfl]
  unfold IStream.word
  rw [skipped]
  simp only [IStream.of, taken, left]
  rfl

theorem readHosts_lines {hosts : List Bytes} (words : ∀ w ∈ hosts, Word w) (gap : Bytes)
    (spaces : ∀ c ∈ gap, isSpace c = true) (read : List Bytes) {fuel : Nat} (enough : hosts.length < fuel) :
    loop readHosts fuel (.of (gap ++ hosts.flatMap (· ++ [10])), read) = .ok (read ++ hosts) := by
  induction hosts generalizing gap read fuel with
  | nil =>
    obtain ⟨fuel, rfl⟩ : ∃ n, fuel = n + 1 := ⟨fuel - 1, by simp at enough; omega⟩
    have ended : (IStream.of gap).skip.fail = true := by
      simp [IStream.skip, IStream.of, List.dropWhile_eq_nil_iff.mpr spaces]
    simp [loop, readHosts, IStream.word, ended]
  | cons w hosts ih =>
    obtain ⟨fuel, rfl⟩ : ∃ n, fuel = n + 1 := ⟨fuel - 1, by simp at enough; omega⟩
    have shape : gap ++ (w :: hosts).flatMap (· ++ [10]) = gap ++ (w ++ 10 :: hosts.flatMap (· ++ [10])) := by simp
    have line := word_line spaces (words w (by simp)) (hosts.flatMap (· ++ [10]))
    have rest := ih (fun w member => words w (List.mem_cons_of_mem _ member)) [10]
      (by simp [show isSpace 10 = true from rfl]) (read ++ [w]) (Nat.lt_of_succ_lt_succ enough)
    rw [shape, loop, readHosts, line]
    simpa [IStream.of] using rest

theorem load_lines {hosts : List Bytes} (words : ∀ w ∈ hosts, Word w) :
    load (some (hosts.flatMap (· ++ [10]))) = .ok { hosts } := by
  have size : hosts.length ≤ (hosts.flatMap (· ++ [10])).length := by
    rw [List.length_flatMap]
    calc hosts.length = (hosts.map fun _ => 1).sum := by simp
      _ ≤ (hosts.map fun w => (w ++ [10]).length).sum := List.sum_le_sum fun w _ => by simp
  have read := readHosts_lines words [] (by simp) [] (Nat.lt_succ_of_le size)
  rw [List.nil_append, List.nil_append] at read
  rw [load, read]
  rfl

/-! ### The rotation -/

/-- The positions that the rotation goes through: `static_cast<int>(hosts.size())` may be negative. -/
def cycle (n : Nat) : Nat := (castInt n).natAbs

theorem cycle_bounds (n : Nat) : cycle n ≤ n ∧ cycle n ≤ 2 ^ 31 := by
  unfold cycle castInt
  rw [Int.bmod_def]
  split <;> omega

theorem cycle_fits {n : Nat} (fits : (n : Int) ≤ intMax) : cycle n = n := by
  rw [cycle, castInt_of_le fits, Int.natAbs_natCast]

section turns
variable {rr : RoundRobin} {j : Nat} (here : rr.index = (j % cycle rr.hosts.length : Nat))
include here

theorem next_turn (some : 0 < cycle rr.hosts.length) (fits : j % cycle rr.hosts.length + 1 < 2 ^ 31) :
    ∃ inside : j % cycle rr.hosts.length < rr.hosts.length, next rr = .ok (rr.hosts[j % cycle rr.hosts.length],
      { rr with index := ((j + 1) % cycle rr.hosts.length : Nat) }) := by
  have inside : j % cycle rr.hosts.length < rr.hosts.length :=
    (Nat.mod_lt _ some).trans_le (cycle_bounds _).1
  have remainder : intMod ((j % cycle rr.hosts.length + 1 : Nat) : Int) (castInt rr.hosts.length) =
      .ok (((j + 1) % cycle rr.hosts.length : Nat) : Int) := by
    have nonzero : castInt rr.hosts.length ≠ 0 := Int.natAbs_pos.mp some
    have remains : ((j % cycle rr.hosts.length + 1 : Nat) : Int).tmod (castInt rr.hosts.length) =
        (((j % cycle rr.hosts.length + 1) % cycle rr.hosts.length : Nat) : Int) := by
      rw [Int.ofNat_tmod]
      rcases Int.natAbs_eq (castInt rr.hosts.length) with positive | negative
      · rw [cycle, ← positive]
      · rw [cycle, negative, Int.tmod_neg, Int.natAbs_neg, Int.natAbs_natCast]
    rw [intMod, if_neg (by unfold intMin; omega), remains, Nat.mod_add_mod]
  refine ⟨inside, ?_⟩
  generalize j % cycle rr.hosts.length = k at here inside fits remainder ⊢
  have successor : toInt (rr.index + 1) = .ok ((k + 1 : Nat) : Int) := by
    rw [here, toInt_ok (by unfold intMin; omega) (by unfold intMax; omega)]
    rfl
  have bounds : 0 ≤ rr.index ∧ rr.index.toNat < rr.hosts.length := by
    rw [here, Int.toNat_natCast]
    exact ⟨Int.natCast_nonneg k, inside⟩
  have index : rr.index.toNat = k := by rw [here, Int.toNat_natCast]
  unfold next
  rw [successor, ok_bind, remainder, ok_bind, dif_pos bounds]
  simp only [index, pure_eq_ok]

/-- Otherwise the successor overflows or the remainder is by zero. -/
theorem next_stuck (stuck : ¬(0 < cycle rr.hosts.length ∧ j % cycle rr.hosts.length + 1 < 2 ^ 31)) :
    next rr = .error .undefined := by
  unfold next
  cases sum : toInt (rr.index + 1) with
  | error stop =>
    unfold toInt at sum
    split at sum
    · cases sum
    · obtain rfl := Except.error.inj sum
      rfl
  | ok successor =>
    obtain ⟨-, -, high⟩ := toInt_eq sum
    have zero : castInt rr.hosts.length = 0 := by
      rw [here] at high
      unfold intMax at high
      have none : ¬0 < cycle rr.hosts.length := fun some => stuck ⟨some, by omega⟩
      exact Int.natAbs_eq_zero.mp (Nat.eq_zero_of_not_pos none)
    rw [ok_bind, intMod, if_pos (.inl zero)]
    rfl

end turns

theorem next_eq {rr : RoundRobin} {j : Nat} (inside : j < rr.hosts.length) (here : rr.index = j)
    (fits : (rr.hosts.length : Int) ≤ intMax) :
    next rr = .ok (rr.hosts[j], { rr with index := ((j + 1) % rr.hosts.length : Nat) }) := by
  have whole : cycle rr.hosts.length = rr.hosts.length := cycle_fits fits
  have turn : j % cycle rr.hosts.length = j := by rw [whole, Nat.mod_eq_of_lt inside]
  unfold intMax at fits
  have index : rr.index = (j % cycle rr.hosts.length : Nat) := by rw [here, turn]
  obtain ⟨_, handed⟩ := next_turn index (by rw [whole]; omega) (by rw [turn]; omega)
  simpa only [whole, Nat.mod_eq_of_lt inside] using handed

end RoundRobin

end VStream
