import VStream.Cpp.Text

/-!
# Character arrays

`char a[n]` is a vector of `n` bytes. An access past the end of an array or of
a string is undefined.
-/

namespace VStream.Cpp

abbrev CharArray (n : Nat) := List.Vector UInt8 n

namespace CharArray
variable {n : Nat}

def zeros (n : Nat) : CharArray n := List.Vector.replicate n 0

/-- `memcpy(a, s.data() + offset, n)`; the terminator of `s` may be read. -/
def memcpy (n : Nat) (s : Bytes) (offset : Int) : Exec (CharArray n) :=
  if fits : 0 ≤ offset ∧ offset.toNat + n ≤ s.length + 1 then
    .ok ⟨((s ++ [0]).drop offset.toNat).take n, by simp; omega⟩
  else .error .undefined

/-- `std::string(a)`. -/
def cString (a : CharArray n) : Exec Bytes :=
  if 0 ∈ a.toList then .ok (a.toList.takeWhile (· ≠ 0)) else .error .undefined

/-- `strcpy(a, s.c_str())`. -/
def strcpy (a : CharArray n) (s : Bytes) : Exec (CharArray n) :=
  if fits : (s.takeWhile (· ≠ 0)).length < n then
    .ok ⟨s.takeWhile (· ≠ 0) ++ 0 :: a.toList.drop ((s.takeWhile (· ≠ 0)).length + 1), by
      simp only [List.length_append, List.length_cons, List.length_drop, List.Vector.toList_length]; omega⟩
  else .error .undefined

/-- Copying out of the middle of a string. -/
theorem memcpy_middle (before rest : Bytes) (a : CharArray n) {offset : Int} (here : offset = before.length) :
    memcpy n (before ++ (a.toList ++ rest)) offset = .ok a := by
  subst here
  rw [memcpy, dif_pos (by simp; omega)]
  congr 1
  apply List.Vector.eq
  simp [List.Vector.toList]

theorem takeWhile_plain {s : Bytes} (plain : 0 ∉ s) : s.takeWhile (· ≠ 0) = s := by
  rw [List.takeWhile_eq_self_iff]
  intro c member
  simpa using fun zero : c = 0 => plain (zero ▸ member)

theorem strcpy_ok (a : CharArray n) {s : Bytes} (fits : (s.takeWhile (· ≠ 0)).length < n) :
    ∃ b, strcpy a s = .ok b ∧
      b.toList = s.takeWhile (· ≠ 0) ++ 0 :: a.toList.drop ((s.takeWhile (· ≠ 0)).length + 1) :=
  ⟨_, dif_pos fits, rfl⟩

theorem strcpy_fits {a b : CharArray n} {s : Bytes} (copied : strcpy a s = .ok b) :
    (s.takeWhile (· ≠ 0)).length < n := by
  unfold strcpy at copied
  split at copied
  · rename_i fits
    exact fits
  · cases copied

theorem cString_append {a : CharArray n} {s rest : Bytes} (plain : 0 ∉ s) (contents : a.toList = s ++ 0 :: rest) :
    cString a = .ok s := by
  rw [cString, if_pos (by simp [contents]), contents, List.takeWhile_append_of_pos]
  · simp
  · intro c member
    simpa using fun zero : c = 0 => plain (zero ▸ member)

def cut (a : CharArray n) (k : Nat) : CharArray n :=
  ⟨a.toList.take k ++ List.replicate (n - k) 0, by
    simp only [List.length_append, List.length_take, List.Vector.toList_length, List.length_replicate]; omega⟩

theorem cut_toList (a : CharArray n) (k : Nat) : (a.cut k).toList = a.toList.take k ++ List.replicate (n - k) 0 := rfl

theorem cut_eq_self {a : CharArray n} {k : Nat} : a.cut k = a ↔ ∀ c ∈ a.toList.drop k, c = 0 := by
  have length : (a.toList.drop k).length = n - k := by rw [List.length_drop, List.Vector.toList_length]
  have parts : a.cut k = a ↔ a.toList.take k ++ List.replicate (n - k) 0 = a.toList.take k ++ a.toList.drop k := by
    rw [List.take_append_drop, ← cut_toList]
    exact ⟨fun h => congrArg _ h, fun h => List.Vector.eq _ _ h⟩
  rw [parts, List.append_cancel_left_eq, eq_comm, List.eq_replicate_iff]
  exact and_iff_right length

theorem cString_cut {a : CharArray n} {s : Bytes} (contents : a.cString = .ok s) (k : Nat) :
    (a.cut k).cString = .ok (s.take k) := by
  unfold cString at contents
  split at contents
  · rename_i terminated
    obtain rfl := Except.ok.inj contents
    have string : (a.cut k).toList.takeWhile (· ≠ 0) = (a.toList.takeWhile (· ≠ 0)).take k := by
      rw [cut_toList, List.take_takeWhile, List.takeWhile_append]
      split
      · rename_i whole
        rw [(List.takeWhile_prefix _).eq_of_length whole]
        simp
      · rfl
    have inside : 0 ∈ (a.cut k).toList := by
      rw [cut_toList, List.mem_append, List.mem_replicate]
      by_cases all : k < n
      · exact .inr ⟨by omega, rfl⟩
      · rw [List.take_of_length_le (by rw [List.Vector.toList_length]; omega)]
        exact .inl terminated
    rw [cString, if_pos inside, string]
  · cases contents

end CharArray

end VStream.Cpp
