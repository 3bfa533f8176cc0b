import VStream.Cpp.Number

/-!
# Formatted extraction from a stream

`>>` skips white space, then reads a field. An extraction that is not attempted
leaves its variable alone; one that finds no digits stores zero and one that is
out of range stores the nearest bound, and both set the fail bit.
-/

namespace VStream.Cpp

structure IStream where
  rest : Bytes
  eof : Bool := false
  fail : Bool := false
  deriving DecidableEq

namespace IStream

def of (contents : Bytes) : IStream := { rest := contents }

/-- The sentry: after it the stream has failed or stands at a byte that is no white space. -/
def skip (s : IStream) : IStream :=
  if s.eof || s.fail then { s with fail := true }
  else
    match s.rest.dropWhile isSpace with
    | [] => { rest := [], eof := true, fail := true }
    | rest => { s with rest }

/-- A chain of extractions. -/
abbrev Extraction := StateM IStream

theorem bind_apply {α β : Type} (x : Extraction α) (f : α → Extraction β) (s : IStream) :
    (x >>= f) s = f (x s).1 (x s).2 := rfl

theorem pure_apply {α : Type} (a : α) (s : IStream) : (pure a : Extraction α) s = (a, s) := rfl

/-- An integer field. `convert` takes the sign and the magnitude to a value, and says whether it fits. -/
def number {α : Type} (convert : Bool → Nat → α × Bool) (old : α) : Extraction α := fun s =>
  let s := s.skip
  if s.fail then (old, s)
  else
    let field := sign s.rest
    let digits := field.2.takeWhile isDigit
    let rest := field.2.dropWhile isDigit
    let result := convert field.1 (value digits)
    (result.1, { rest, eof := rest.isEmpty, fail := digits.isEmpty || !result.2 })

def ushort : UInt16 → Extraction UInt16 :=
  number fun negative m =>
    if m < 2 ^ 16 then (if negative then -UInt16.ofNat m else UInt16.ofNat m, true) else (65535, false)

def uint32 : UInt32 → Extraction UInt32 :=
  number fun negative m =>
    if m < 2 ^ 32 then (if negative then -UInt32.ofNat m else UInt32.ofNat m, true) else (4294967295, false)

def int : Int → Extraction Int :=
  number fun negative m =>
    let v : Int := if negative then -m else m
    if v < intMin then (intMin, false) else if intMax < v then (intMax, false) else (v, true)

/-- `bool` is read as a `long`; anything but 0 and 1 stores `true` and fails. -/
def bool : Bool → Extraction Bool :=
  number fun negative m => (decide (m ≠ 0), decide (m = 0) || (decide (m = 1) && !negative))

example : (bool false (of [45, 49])).2.fail = true ∧ (bool true (of [45, 48])).1 = false := by decide

def char (old : UInt8) : Extraction UInt8 := fun s =>
  let s := s.skip
  if s.fail then (old, s)
  else
    match s.rest with
    | [] => (old, s)
    | c :: rest => (c, { s with rest })

/-- `>>` into a `std::string`. -/
def word (old : Bytes) : Extraction Bytes := fun s =>
  let s := s.skip
  if s.fail then (old, s)
  else
    let rest := s.rest.dropWhile fun c => !isSpace c
    (s.rest.takeWhile fun c => !isSpace c, { rest, eof := rest.isEmpty })

theorem skip_good {s : IStream} (good : s.skip.fail = false) :
    ∃ c rest, s.skip = of (c :: rest) ∧ isSpace c = false ∧ (c :: rest) <:+ s.rest := by
  unfold skip at good ⊢
  split at good
  · cases good
  · rename_i fresh
    rw [if_neg fresh]
    simp only [Bool.or_eq_true, not_or, Bool.not_eq_true] at fresh
    have left := List.dropWhile_suffix isSpace (l := s.rest)
    cases found : s.rest.dropWhile isSpace with
    | nil => rw [found] at good; cases good
    | cons c rest =>
      have plain := List.head_dropWhile_not (p := isSpace) (l := s.rest) (by rw [found]; simp)
      simp only [found, List.head_cons] at plain
      rw [found] at left
      exact ⟨c, rest, by simp [of, fresh], plain, left⟩

/-! ### What an extraction leaves alone -/

section untouched
variable {α : Type} {convert : Bool → Nat → α × Bool}

theorem number_stream (old old' : α) (s : IStream) : (number convert old s).2 = (number convert old' s).2 := by
  unfold number
  dsimp only
  split <;> rfl

theorem number_value (old old' : α) {s : IStream} (good : s.skip.fail = false) :
    number convert old s = number convert old' s := by
  unfold number
  simp only [good, Bool.false_eq_true, if_false]

theorem number_kept (old : α) {s : IStream} (failed : s.skip.fail = true) : number convert old s = (old, s.skip) := by
  unfold number
  simp only [failed, if_true]

theorem skip_failed {s : IStream} (failed : s.fail = true) : s.skip.fail = true := by
  unfold skip
  rw [failed, Bool.or_true, if_pos rfl]

theorem number_good {old : α} {s : IStream} (good : (number convert old s).2.skip.fail = false) :
    s.skip.fail = false := by
  by_contra failed
  rw [Bool.not_eq_false] at failed
  rw [number_kept old failed, skip_failed failed] at good
  cases good

end untouched

/-! ### Reading back what `<<` printed -/

/-- A field ends where these bytes begin. -/
def Ends (rest : Bytes) : Prop := ∀ c ∈ rest.head?, isDigit c = false

@[simp] theorem ends_nil : Ends [] := by simp [Ends]

@[simp] theorem ends_cons {c : UInt8} {rest : Bytes} : Ends (c :: rest) ↔ isDigit c = false := by simp [Ends]

@[simp] theorem number_space {α : Type} (convert : Bool → Nat → α × Bool) (old : α) (rest : Bytes) :
    number convert old (of (32 :: rest)) = number convert old (of rest) := by
  have same : (of (32 :: rest)).skip = (of rest).skip := by simp [skip, of, isSpace]
  simp only [number, same]

theorem digit_not_space {c : UInt8} (digit : isDigit c = true) : isSpace c = false := by
  simp only [isDigit, isSpace, Bool.and_eq_true, Bool.or_eq_false_iff, decide_eq_true_eq] at *
  grind

theorem takeWhile_digits {digits rest : Bytes} (decimal : ∀ c ∈ digits, isDigit c = true) (ends : Ends rest) :
    (digits ++ rest).takeWhile isDigit = digits := by
  rw [List.takeWhile_append_of_pos decimal]
  cases rest with
  | nil => simp
  | cons c rest => simp [ends_cons.mp ends]

theorem dropWhile_digits {digits rest : Bytes} (decimal : ∀ c ∈ digits, isDigit c = true) (ends : Ends rest) :
    (digits ++ rest).dropWhile isDigit = rest := by
  rw [List.dropWhile_append_of_pos decimal]
  cases rest with
  | nil => simp
  | cons c rest => simp [ends_cons.mp ends]

theorem skip_of_not_space {c : UInt8} {rest : Bytes} (plain : isSpace c = false) :
    (of (c :: rest)).skip = of (c :: rest) := by
  simp [skip, of, plain]

/-- Any digits are read, leading zeros included. -/
theorem number_digits {α : Type} {convert : Bool → Nat → α × Bool} {old : α} {digits rest : Bytes}
    (some : digits ≠ []) (decimal : ∀ c ∈ digits, isDigit c = true) (ends : Ends rest) :
    number convert old (of (digits ++ rest)) =
      ((convert false (value digits)).1,
        { rest, eof := rest.isEmpty, fail := !(convert false (value digits)).2 }) := by
  obtain ⟨c, digits', rfl⟩ := List.exists_cons_of_ne_nil some
  have digit := decimal c List.mem_cons_self
  have here : (of (c :: digits' ++ rest)).skip = of (c :: digits' ++ rest) :=
    skip_of_not_space (digit_not_space digit)
  have plain : sign (c :: digits' ++ rest) = (false, c :: digits' ++ rest) := by
    have minus : c ≠ 45 := by rintro rfl; exact absurd digit (by decide)
    have plus : c ≠ 43 := by rintro rfl; exact absurd digit (by decide)
    simp [sign, minus, plus]
  simp only [number, here]
  simp only [of, plain, takeWhile_digits decimal ends, dropWhile_digits decimal ends, List.isEmpty_cons, Bool.false_or]
  rfl

theorem number_decimal {α : Type} {convert : Bool → Nat → α × Bool} {old : α} {n : Nat} {rest : Bytes}
    (ends : Ends rest) :
    number convert old (of (decimal n ++ rest)) =
      ((convert false n).1, { rest, eof := rest.isEmpty, fail := !(convert false n).2 }) := by
  rw [number_digits (decimal_ne_nil n) decimal_isDigit ends, value_decimal]

theorem number_negative {α : Type} {convert : Bool → Nat → α × Bool} {old : α} {n : Nat} {rest : Bytes}
    (ends : Ends rest) :
    number convert old (of (45 :: decimal n ++ rest)) =
      ((convert true n).1, { rest, eof := rest.isEmpty, fail := !(convert true n).2 }) := by
  have here : (of (45 :: decimal n ++ rest)).skip = of (45 :: (decimal n ++ rest)) := skip_of_not_space (by decide)
  have found : (decimal n).isEmpty = false := by simp [decimal_ne_nil]
  simp only [number, here]
  simp only [of, sign, ↓reduceIte, takeWhile_digits decimal_isDigit ends, dropWhile_digits decimal_isDigit ends,
    value_decimal, found, Bool.false_or]
  rfl

theorem ushort_decimal (old n : UInt16) {rest : Bytes} (ends : Ends rest) :
    ushort old (of (decimal n.toNat ++ rest)) = (n, { rest, eof := rest.isEmpty }) := by
  rw [ushort, number_decimal ends]
  simp [show n.toNat < 65536 from n.toNat_lt]

theorem bool_decimal {old b : Bool} {rest : Bytes} (ends : Ends rest) :
    bool old (of (decimal b.toNat ++ rest)) = (b, { rest, eof := rest.isEmpty }) := by
  rw [bool, number_decimal ends]
  cases b <;> rfl

theorem int_signed {old n : Int} {rest : Bytes} (low : intMin ≤ n) (high : n ≤ intMax) (ends : Ends rest) :
    int old (of (signed n ++ rest)) = (n, { rest, eof := rest.isEmpty }) := by
  unfold signed
  split
  · rename_i negative
    have same : -(n.natAbs : Int) = n := by omega
    rw [int, number_negative ends]
    simp only [same, ↓reduceIte, Int.not_lt.mpr low, Int.not_lt.mpr high, Bool.not_true]
  · rename_i positive
    have same : (n.natAbs : Int) = n := by omega
    rw [int, number_decimal ends]
    simp only [same, Bool.false_eq_true, ↓reduceIte, Int.not_lt.mpr low, Int.not_lt.mpr high, Bool.not_true]

theorem ushort_missing (old : UInt16) (rest : Bytes) : (ushort old (of (0 :: rest))).1 = 0 := by
  have here : (of (0 :: rest)).skip = of (0 :: rest) := skip_of_not_space (by decide)
  simp only [ushort, number, here]
  simp [of, sign, isDigit, value]

/-! A field that is followed by another one leaves the stream good. -/

section fields
variable (rest : Bytes)

@[simp] theorem ushort_space (old : UInt16) : ushort old (of (32 :: rest)) = ushort old (of rest) :=
  number_space _ _ _

@[simp] theorem bool_space (old : Bool) : bool old (of (32 :: rest)) = bool old (of rest) := number_space _ _ _

@[simp] theorem int_space (old : Int) : int old (of (32 :: rest)) = int old (of rest) := number_space _ _ _

@[simp] theorem ushort_field (old n : UInt16) {c : UInt8} (ends : isDigit c = false) :
    ushort old (of (decimal n.toNat ++ c :: rest)) = (n, of (c :: rest)) := ushort_decimal _ _ (by simpa using ends)

@[simp] theorem bool_field (old b : Bool) {c : UInt8} (ends : isDigit c = false) :
    bool old (of (decimal b.toNat ++ c :: rest)) = (b, of (c :: rest)) := bool_decimal (by simpa using ends)

@[simp] theorem int_field (old : Int) (n : Int32) {c : UInt8} (ends : isDigit c = false) :
    int old (of (signed n.toInt ++ c :: rest)) = (n.toInt, of (c :: rest)) :=
  int_signed n.le_toInt (Int.le_sub_one_of_lt n.toInt_lt) (by simpa using ends)

@[simp] theorem int_field_char (old : Int) (n : Int8) {c : UInt8} (ends : isDigit c = false) :
    int old (of (signed n.toInt ++ c :: rest)) = (n.toInt, of (c :: rest)) := by
  have low := n.le_toInt
  have high := n.toInt_lt
  exact int_signed (by unfold intMin; omega) (by unfold intMax; omega) (by simpa using ends)

end fields

end IStream

end VStream.Cpp
