import VStream.Cpp.Stream

/-!
# Files of fields

A file that is read with `>>` only is the fields between its white space, and
it does not matter which white space stands between them.
-/

namespace VStream.Cpp

def fields (contents : Bytes) : List Bytes := (contents.splitOnP isSpace).filter (· ≠ [])

/-- Nothing but white space. -/
def Blank (s : Bytes) : Prop := ∀ c ∈ s, isSpace c = true

/-- A field: not empty and without white space. -/
def Solid (s : Bytes) : Prop := s ≠ [] ∧ ∀ c ∈ s, isSpace c = false

/-- White space or the end of the file comes next. -/
def Closes (rest : Bytes) : Prop := ∀ c ∈ rest.head?, isSpace c = true

section fields
variable {s field gap rest : Bytes}

@[simp] theorem fields_nil : fields [] = [] := by simp [fields]

theorem fields_space {c : UInt8} (space : isSpace c = true) (rest : Bytes) : fields (c :: rest) = fields rest := by
  have none : ∀ x ∈ ([] : Bytes), isSpace x = false := by simp
  have first := List.splitOnP_append_cons_of_forall_mem none c space rest
  rw [List.nil_append] at first
  rw [fields, first, List.filter_cons_of_neg (by simp), fields]

theorem fields_blank (blank : Blank gap) (rest : Bytes) : fields (gap ++ rest) = fields rest := by
  induction gap with
  | nil => rfl
  | cons c gap ih =>
    obtain ⟨space, blank⟩ := List.forall_mem_cons.mp blank
    rw [List.cons_append, fields_space space, ih blank]

theorem fields_solid (solid : Solid field) (closes : Closes rest) : fields (field ++ rest) = field :: fields rest := by
  cases rest with
  | nil =>
    rw [List.append_nil, fields, List.splitOnP_eq_singleton solid.2, List.filter_cons_of_pos (by simpa using solid.1)]
    rfl
  | cons c rest =>
    have space : isSpace c = true := closes c rfl
    rw [fields, List.splitOnP_append_cons_of_forall_mem solid.2 c space,
      List.filter_cons_of_pos (by simpa using solid.1), fields_space space, fields]

@[simp] theorem closes_nil : Closes [] := by simp [Closes]

@[simp] theorem closes_cons {c : UInt8} : Closes (c :: rest) ↔ isSpace c = true := by simp [Closes]

/-- What is left of a file is blank, or its first field stands behind a gap. -/
theorem split_first (s : Bytes) : Blank s ∨
    ∃ gap field rest, s = gap ++ (field ++ rest) ∧ Blank gap ∧ Solid field ∧ Closes rest := by
  have blank : Blank (s.takeWhile isSpace) := fun c member => List.mem_takeWhile_imp member
  have split := (s.takeWhile_append_dropWhile (p := isSpace)).symm
  cases left : s.dropWhile isSpace with
  | nil =>
    rw [left, List.append_nil] at split
    rw [split]
    exact .inl blank
  | cons c later =>
    have solid := List.head_dropWhile_not (p := isSpace) (l := s) (by rw [left]; simp)
    simp only [left, List.head_cons] at solid
    refine .inr ⟨s.takeWhile isSpace, c :: later.takeWhile fun c => !isSpace c,
      later.dropWhile fun c => !isSpace c, ?_, blank, ⟨List.cons_ne_nil _ _, ?_⟩, ?_⟩
    · rw [List.cons_append, List.takeWhile_append_dropWhile, ← left]
      exact split
    · intro d member
      rcases List.mem_cons.mp member with rfl | later
      · exact solid
      · simpa using List.mem_takeWhile_imp later
    · intro d first
      have stops := List.head?_dropWhile_not (fun c => !isSpace c) later
      rw [Option.mem_def.mp first] at stops
      simpa using stops

theorem fields_eq_nil (nothing : fields s = []) : Blank s := by
  rcases split_first s with blank | ⟨gap, field, rest, rfl, blank, solid, closes⟩
  · exact blank
  · rw [fields_blank blank, fields_solid solid closes] at nothing
    cases nothing

theorem fields_eq_cons {more : List Bytes} (some : fields s = field :: more) :
    ∃ gap rest, s = gap ++ (field ++ rest) ∧ Blank gap ∧ Solid field ∧ Closes rest ∧ fields rest = more := by
  rcases split_first s with blank | ⟨gap, first, rest, rfl, blank, solid, closes⟩
  · have nothing := fields_blank blank []
    rw [List.append_nil, fields_nil, some] at nothing
    cases nothing
  · rw [fields_blank blank, fields_solid solid closes] at some
    obtain ⟨rfl, rfl⟩ := List.cons.inj some
    exact ⟨gap, rest, rfl, blank, solid, closes, rfl⟩

/-- Fields on a line of their own, with one blank between them. -/
def row (fields : List Bytes) : Bytes := [32].intercalate fields ++ [10]

theorem fields_row {line : List Bytes} (solid : ∀ field ∈ line, Solid field) (rest : Bytes) :
    fields (row line ++ rest) = line ++ fields rest := by
  rw [row, List.append_assoc, List.singleton_append]
  induction line with
  | nil => exact fields_space (by decide) rest
  | cons field line ih =>
    obtain ⟨here, solid⟩ := List.forall_mem_cons.mp solid
    cases line with
    | nil =>
      rw [List.intercalate_singleton, fields_solid here (closes_cons.mpr (by decide)), fields_space (by decide)]
      rfl
    | cons next line =>
      rw [List.intercalate_cons_cons, List.append_assoc, List.append_assoc, List.singleton_append,
        fields_solid here (closes_cons.mpr (by decide)), fields_space (by decide), ih solid]
      rfl

theorem fields_rows {α : Type} {f : α → List Bytes} {records : List α}
    (solid : ∀ record ∈ records, ∀ field ∈ f record, Solid field) (rest : Bytes) :
    fields (records.flatMap (fun record => row (f record)) ++ rest) = records.flatMap f ++ fields rest := by
  induction records with
  | nil => rfl
  | cons record records ih =>
    obtain ⟨here, solid⟩ := List.forall_mem_cons.mp solid
    rw [List.flatMap_cons, List.flatMap_cons, List.append_assoc, List.append_assoc, fields_row here, ih solid]

theorem solid_decimal (n : Nat) : Solid (decimal n) :=
  ⟨decimal_ne_nil n, fun c member => IStream.digit_not_space (decimal_isDigit c member)⟩

theorem solid_append {s t : Bytes} (first : Solid s) (second : Solid t) : Solid (s ++ t) :=
  ⟨by simp [first.1], List.forall_mem_append.mpr ⟨first.2, second.2⟩⟩

theorem solid_signed (n : Int) : Solid (signed n) := by
  have minus : Solid [45] := ⟨by decide, by decide +kernel⟩
  unfold signed
  split
  · exact solid_append minus (solid_decimal _)
  · exact solid_decimal _

end fields

namespace IStream

/-- The stream is good; at the end of the file nothing is left of it. -/
structure Ready (s : IStream) : Prop where
  good : s.fail = false
  ended : s.eof = true → s.rest = []

theorem ready_of (contents : Bytes) : Ready (of contents) := ⟨rfl, fun ended => nomatch ended⟩

section reading
variable {s : IStream} {field : Bytes} {more : List Bytes}

theorem skip_gap {gap field rest : Bytes} (blank : Blank gap) (solid : Solid field) :
    (of (gap ++ (field ++ rest))).skip = of (field ++ rest) := by
  obtain ⟨c, field, rfl⟩ := List.exists_cons_of_ne_nil solid.1
  simp [skip, of, List.dropWhile_append_of_pos blank, solid.2 c]

/-- With a field to come, a stream stands in front of it. -/
theorem Ready.next (ready : Ready s) (some : fields s.rest = field :: more) :
    ∃ rest, s.skip = of (field ++ rest) ∧ Solid field ∧ Closes rest ∧ fields rest = more := by
  obtain ⟨gap, rest, split, blank, solid, closes, later⟩ := fields_eq_cons some
  have open' : s.eof = false := by
    by_contra ended
    rw [ready.ended (Bool.not_eq_false _ ▸ ended)] at some
    cases some
  have here : s = of (gap ++ (field ++ rest)) := by
    rw [← split]
    cases s with
    | mk rest eof fail =>
      obtain rfl : fail = false := ready.good
      obtain rfl : eof = false := open'
      rfl
  exact ⟨rest, by rw [here, skip_gap blank solid], solid, closes, later⟩

theorem ready_rest {rest : Bytes} : Ready { rest, eof := rest.isEmpty } := ⟨rfl, List.isEmpty_iff.mp⟩

theorem word_next (old : Bytes) (ready : Ready s) (some : fields s.rest = field :: more) :
    (word old s).1 = field ∧ Ready (word old s).2 ∧ fields (word old s).2.rest = more := by
  obtain ⟨rest, skipped, solid, closes, later⟩ := ready.next some
  have plain : ∀ c ∈ field, (!isSpace c) = true := by simpa using solid.2
  have taken : (field ++ rest).takeWhile (fun c => !isSpace c) = field := by
    rw [List.takeWhile_append_of_pos plain]
    cases rest with
    | nil => simp
    | cons c rest => simp [closes_cons.mp closes]
  have left : (field ++ rest).dropWhile (fun c => !isSpace c) = rest := by
    rw [List.dropWhile_append_of_pos plain]
    cases rest with
    | nil => simp
    | cons c rest => simp [closes_cons.mp closes]
  have read : word old s = (field, { rest, eof := rest.isEmpty }) := by
    unfold word
    rw [skipped]
    simp only [of, taken, left]
    rfl
  rw [read]
  exact ⟨rfl, ready_rest, later⟩

theorem word_last (old : Bytes) (nothing : fields s.rest = []) : (word old s).2.fail = true := by
  have failed : s.skip.fail = true := by
    unfold skip
    split
    · rfl
    · rw [List.dropWhile_eq_nil_iff.mpr (fields_eq_nil nothing)]
  unfold word
  rw [if_pos failed]
  exact failed

theorem int_next {n : Int} (old : Int) (ready : Ready s) (low : intMin ≤ n) (high : n ≤ intMax)
    (some : fields s.rest = signed n :: more) :
    (int old s).1 = n ∧ Ready (int old s).2 ∧ fields (int old s).2.rest = more := by
  obtain ⟨rest, skipped, solid, closes, later⟩ := ready.next some
  have ends : Ends rest := by
    intro c first
    have space := closes c first
    by_contra digit
    rw [digit_not_space (Bool.not_eq_false _ ▸ digit)] at space
    cases space
  have again : (of (signed n ++ rest)).skip = of (signed n ++ rest) := @skip_gap [] _ _ (by simp [Blank]) solid
  have read : int old s = int old (of (signed n ++ rest)) := by
    unfold int number
    rw [skipped, again]
  rw [read, int_signed low high ends]
  exact ⟨rfl, ready_rest, later⟩

end reading

end IStream

end VStream.Cpp
