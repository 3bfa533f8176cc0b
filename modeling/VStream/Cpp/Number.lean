import VStream.Cpp.Text

/-!
# Decimal text

`decimal` is what `<<` prints for an unsigned value and `signed` for a signed
one; `value` is the number a digit string denotes and `stoi` reads one.
-/

namespace VStream.Cpp

def isSpace (c : UInt8) : Bool := c == 32 || (9 ≤ c && c ≤ 13)

def isDigit (c : UInt8) : Bool := 48 ≤ c && c ≤ 57

def value (digits : Bytes) : Nat := digits.foldl (fun v c => 10 * v + (c.toNat - 48)) 0

def decimal (n : Nat) : Bytes := (Nat.toDigits 10 n).map fun c => c.toNat.toUInt8

def signed (n : Int) : Bytes := if n < 0 then 45 :: decimal n.natAbs else decimal n.natAbs

def sign : Bytes → Bool × Bytes
  | [] => (false, [])
  | c :: s => if c = 45 then (true, s) else if c = 43 then (false, s) else (false, c :: s)

/-- `std::stoi`: white space, a sign, digits, then anything. -/
def stoi (s : Bytes) : Exec Int :=
  let field := sign (s.dropWhile isSpace)
  let digits := field.2.takeWhile isDigit
  let n : Int := if field.1 then -value digits else value digits
  if digits = [] then .error (.thrown .invalidArgument)
  else if intMin ≤ n ∧ n ≤ intMax then .ok n
  else .error (.thrown .outOfRange)

theorem decimal_ne_nil (n : Nat) : decimal n ≠ [] := by
  simp [decimal, Nat.toDigits_ne_nil]

theorem toDigits_range {n : Nat} {d : Char} (member : d ∈ Nat.toDigits 10 n) : 48 ≤ d.toNat ∧ d.toNat ≤ 57 := by
  have digit := Nat.isDigit_of_mem_toDigits (by decide) (by decide) member
  simp only [Char.isDigit, Bool.and_eq_true, decide_eq_true_eq] at digit
  exact ⟨UInt32.le_iff_toNat_le.mp digit.1, UInt32.le_iff_toNat_le.mp digit.2⟩

theorem toDigits_byte {n : Nat} {d : Char} (member : d ∈ Nat.toDigits 10 n) : d.toNat.toUInt8.toNat = d.toNat := by
  have range := toDigits_range member
  exact UInt8.toNat_ofNat_of_lt' (by simp only [UInt8.size]; omega)

theorem decimal_isDigit {n : Nat} : ∀ c ∈ decimal n, isDigit c = true := by
  intro c member
  obtain ⟨d, hd, rfl⟩ := List.mem_map.mp member
  have range := toDigits_range hd
  simp only [isDigit, Bool.and_eq_true, decide_eq_true_eq, UInt8.le_iff_toNat_le, toDigits_byte hd]
  exact range

/-- No byte stands below the blank. -/
def Printable (s : Bytes) : Prop := ∀ c ∈ s, 32 ≤ c

@[simp] theorem printable_append {s t : Bytes} : Printable (s ++ t) ↔ Printable s ∧ Printable t :=
  List.forall_mem_append

@[simp] theorem printable_cons {c : UInt8} {s : Bytes} : Printable (c :: s) ↔ 32 ≤ c ∧ Printable s :=
  List.forall_mem_cons

@[simp] theorem printable_nil : Printable [] := fun _ => List.not_mem_nil.elim

@[simp] theorem printable_decimal (n : Nat) : Printable (decimal n) := by
  intro c member
  have digit := decimal_isDigit c member
  simp only [isDigit, Bool.and_eq_true, decide_eq_true_eq] at digit
  exact UInt8.le_trans (by decide) digit.1

@[simp] theorem printable_signed (n : Int) : Printable (signed n) := by
  unfold signed
  split <;> simp

theorem value_decimal (n : Nat) : value (decimal n) = n := by
  have chars : ∀ (l : List Char) (v : Nat), (∀ d ∈ l, d.toNat.toUInt8.toNat = d.toNat) →
      (l.map fun c => c.toNat.toUInt8).foldl (fun v c => 10 * v + (c.toNat - 48)) v = Nat.ofDigitChars 10 l v := by
    intro l
    induction l with
    | nil => intro v _; rfl
    | cons d l ih =>
      intro v bytes
      rw [List.map_cons, List.foldl_cons, bytes d List.mem_cons_self,
        ih _ fun e he => bytes e (List.mem_cons_of_mem _ he)]
      rfl
  rw [value, decimal, chars _ 0 fun _ => toDigits_byte, Nat.ofDigitChars_ten_toDigits]

theorem decimal_length_le {n k : Nat} (positive : 0 < k) (small : n < 10 ^ k) : (decimal n).length ≤ k := by
  simpa [decimal] using (Nat.length_toDigits_le_iff (by decide) positive).mpr small

theorem signed_length_le {n : Int} {k : Nat} (positive : 0 < k) (small : n.natAbs < 10 ^ k) :
    (signed n).length ≤ k + 1 := by
  have digits := decimal_length_le positive small
  unfold signed
  split
  · rw [List.length_cons]; omega
  · omega

theorem decimal_take {n k : Nat} (some : 0 < k) (short : k < (decimal n).length) :
    ∃ m < n, (decimal n).take k = decimal m := by
  induction n using Nat.strong_induction_on with
  | _ n ih =>
    by_cases digit : n < 10
    · rw [decimal, Nat.toDigits_of_lt_base digit] at short
      simp only [List.map_cons, List.map_nil, List.length_singleton] at short
      omega
    · have split : decimal n = decimal (n / 10) ++ [(n % 10).digitChar.toNat.toUInt8] := by
        rw [decimal, Nat.toDigits_of_base_le (by decide) (Nat.le_of_not_lt digit), List.map_append]
        rfl
      have less : n / 10 < n := Nat.div_lt_self (by omega) (by decide)
      rw [split, List.length_append, List.length_singleton] at short
      rw [split, List.take_append_of_le_length (Nat.le_of_lt_succ short)]
      rcases Nat.lt_or_ge k (decimal (n / 10)).length with shorter | whole
      · obtain ⟨m, smaller, cut⟩ := ih (n / 10) less shorter
        exact ⟨m, smaller.trans less, cut⟩
      · exact ⟨n / 10, less, List.take_of_length_le whole⟩

theorem stoi_digits {digits : Bytes} (some : digits ≠ []) (decimal : ∀ c ∈ digits, isDigit c = true)
    (small : value digits < 2 ^ 31) : stoi digits = .ok (value digits) := by
  obtain ⟨c, rest, rfl⟩ := List.exists_cons_of_ne_nil some
  have digit := decimal c List.mem_cons_self
  simp only [isDigit, Bool.and_eq_true, decide_eq_true_eq] at digit
  have solid : isSpace c = false := by
    simp only [isSpace, Bool.or_eq_false_iff, Bool.and_eq_false_iff, beq_eq_false_iff_ne, decide_eq_false_iff_not]
    refine ⟨fun h => ?_, .inr fun h => ?_⟩
    · rw [h] at digit; exact absurd digit.1 (by decide)
    · exact absurd (UInt8.le_trans digit.1 h) (by decide)
  have unsigned : sign (c :: rest) = (false, c :: rest) := by
    rw [sign, if_neg, if_neg]
    · intro h; rw [h] at digit; exact absurd digit.1 (by decide)
    · intro h; rw [h] at digit; exact absurd digit.1 (by decide)
  have whole : (c :: rest).takeWhile isDigit = c :: rest := List.takeWhile_eq_self_iff.mpr decimal
  unfold stoi
  rw [List.dropWhile_cons_of_neg (by simp [solid]), unsigned]
  simp only [whole, Bool.false_eq_true, if_false]
  rw [if_neg some]
  exact if_pos ⟨by unfold intMin; omega, by unfold intMax; omega⟩

/-! ### Widths of the printed fields -/

theorem ushort_length (n : UInt16) : (decimal n.toNat).length ≤ 5 :=
  decimal_length_le (by decide) (Nat.lt_of_lt_of_le n.toNat_lt (by decide))

theorem bool_length (b : Bool) : (decimal b.toNat).length ≤ 1 :=
  decimal_length_le (by decide) (Nat.lt_of_lt_of_le b.toNat_lt (by decide))

theorem int_length (n : Int32) : (signed n.toInt).length ≤ 11 := by
  have low := n.le_toInt
  have high := n.toInt_lt
  exact signed_length_le (k := 10) (by decide) (by omega)

theorem char_length (n : Int8) : (signed n.toInt).length ≤ 4 := by
  have low := n.le_toInt
  have high := n.toInt_lt
  exact signed_length_le (k := 3) (by decide) (by omega)

theorem byte_absent {c : UInt8} (other : isDigit c = false) (n : Nat) : c ∉ decimal n := by
  intro member
  rw [decimal_isDigit c member] at other
  cases other

end VStream.Cpp
