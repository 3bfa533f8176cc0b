import VStream.Cpp.Search

/-!
# Header sections

A header section is the start line and the fields, each with its line end, and
an empty line. A text without line ends is found in it line by line.
-/

namespace VStream.Http
open Cpp

def lineEnd : Bytes := [13, 10]

/-- The lines with their ends. -/
def block (lines : List Bytes) : Bytes := lines.flatMap (· ++ lineEnd)

def Clean (line : Bytes) : Prop := line ≠ [] ∧ 13 ∉ line ∧ 10 ∉ line

instance : DecidablePred Clean := fun _ => inferInstanceAs (Decidable (_ ∧ _))

theorem block_cons (line : Bytes) (lines : List Bytes) : block (line :: lines) = line ++ lineEnd ++ block lines := rfl

theorem block_append (lines lines' : List Bytes) : block (lines ++ lines') = block lines ++ block lines' :=
  List.flatMap_append

/-- An empty line is found behind the last of the lines. -/
theorem find_blank_block {lines : List Bytes} (some : lines ≠ []) (clean : ∀ line ∈ lines, Clean line) (rest : Bytes) :
    find (lineEnd ++ lineEnd) (block lines ++ lineEnd ++ rest) = .some ((block lines).length - 2) := by
  induction lines with
  | nil => exact absurd rfl some
  | cons line lines ih =>
    obtain ⟨-, noReturn, noFeed⟩ := clean line List.mem_cons_self
    cases lines with
    | nil =>
      have shape : block [line] ++ lineEnd ++ rest = line ++ (lineEnd ++ lineEnd ++ rest) := by
        simp [block]
      have here : find (lineEnd ++ lineEnd) (line ++ (lineEnd ++ lineEnd ++ rest)) = .some line.length :=
        find_first noReturn (List.prefix_append [13, 10, 13, 10] rest)
      rw [shape, here, block_cons, List.length_append, List.length_append]
      rfl
    | cons next lines =>
      have later := ih (List.cons_ne_nil _ _) fun l member => clean l (List.mem_cons_of_mem _ member)
      obtain ⟨nonempty, noReturn', noFeed'⟩ := clean next (List.mem_cons_of_mem _ List.mem_cons_self)
      obtain ⟨c, next, rfl⟩ := List.exists_cons_of_ne_nil nonempty
      simp only [List.mem_cons, not_or] at noReturn' noFeed'
      have absent : find (lineEnd ++ lineEnd) (line ++ lineEnd) = none := by
        rw [find_none_iff]
        intro inside
        have returns := inside.sublist.count_le 13
        rw [List.count_append, List.count_append, List.count_eq_zero_of_not_mem noReturn] at returns
        exact absurd returns (by decide)
      have apart : Apart (lineEnd ++ lineEnd) (block ((c :: next) :: lines) ++ lineEnd ++ rest) := by
        apply apart_of_head
        intro d first
        obtain rfl : c = d := Option.some.inj first
        simp only [lineEnd, List.cons_append, List.nil_append, List.tail_cons, List.mem_cons, List.not_mem_nil,
          or_false, not_or]
        exact ⟨fun same => noFeed'.1 same.symm, fun same => noReturn'.1 same.symm, fun same => noFeed'.1 same.symm⟩
      have long : 2 ≤ (block ((c :: next) :: lines)).length := by
        rw [block_cons, List.length_append, List.length_append]
        change 2 ≤ _ + 2 + _
        omega
      rw [block_cons line, List.append_assoc, List.append_assoc, ← List.append_assoc (block _),
        find_some_apart apart absent later, List.length_append, List.length_append, List.length_append]
      simp only [Option.some.injEq]
      omega

/-! ### Searches by lines -/

section lines
variable {pat : Bytes} (clean : Clean pat)
include clean

theorem find_lineEnd (rest : Bytes) : find pat (lineEnd ++ rest) = (find pat rest).map (2 + ·) := by
  refine find_skip clean.1 ?_ rest
  intro c member inside
  rcases List.mem_cons.mp member with rfl | member
  · exact clean.2.1 inside
  · rw [List.mem_singleton.mp member] at inside
    exact clean.2.2 inside

theorem lineEnd_apart (rest : Bytes) : Apart pat (lineEnd ++ rest) := by
  apply apart_of_head
  intro c first
  obtain rfl : (13 : UInt8) = c := Option.some.inj first
  exact fun inside => clean.2.1 (List.mem_of_mem_tail inside)

theorem find_line {line : Bytes} (absent : find pat line = none) (rest : Bytes) :
    find pat (line ++ lineEnd ++ rest) = (find pat rest).map (line.length + 2 + ·) := by
  rw [List.append_assoc, find_apart (lineEnd_apart clean rest) absent, find_lineEnd clean, Option.map_map]
  congr 1
  funext i
  simp only [Function.comp_apply]
  omega

theorem find_block {before : List Bytes} (absent : ∀ line ∈ before, find pat line = none) (rest : Bytes) :
    find pat (block before ++ rest) = (find pat rest).map ((block before).length + ·) := by
  induction before with
  | nil => simp [block]
  | cons line before ih =>
    rw [block_cons, List.append_assoc, find_line clean (absent line List.mem_cons_self),
      ih fun l member => absent l (List.mem_cons_of_mem _ member), Option.map_map]
    congr 1
    funext i
    simp only [Function.comp_apply, List.length_append]
    change line.length + 2 + _ = line.length + 2 + _ + i
    omega

end lines

/-- The start line and the fields of a message. -/
structure Section where
  start : Bytes
  fields : List Bytes
  clean : ∀ line ∈ start :: fields, Clean line

namespace Section

def lines (s : Section) : List Bytes := s.start :: s.fields

def bytes (s : Section) : Bytes := block s.lines ++ lineEnd

theorem find_blank (s : Section) (rest : Bytes) :
    find (lineEnd ++ lineEnd) (s.bytes ++ rest) = some (s.bytes.length - 4) := by
  have found := find_blank_block (List.cons_ne_nil s.start s.fields) s.clean rest
  rw [bytes, List.length_append]
  exact found

theorem bytes_length (s : Section) : 4 ≤ s.bytes.length := by
  rw [bytes, lines, block_cons, List.length_append, List.length_append, List.length_append]
  change 4 ≤ _ + 2 + _ + 2
  omega

/-- Where no line has the text, what is found of it stands behind the section. -/
theorem find_behind (s : Section) {pat : Bytes} (clean : Clean pat) (absent : ∀ line ∈ s.lines, find pat line = none)
    (rest : Bytes) : find pat (s.bytes ++ rest) = (find pat rest).map (s.bytes.length + ·) := by
  rw [bytes, List.append_assoc, find_block clean absent, find_lineEnd clean, Option.map_map]
  congr 1
  funext i
  simp only [Function.comp_apply, List.length_append]
  change _ + (2 + i) = _ + 2 + i
  omega

/-- Where a line has the text, what is found is its first place in the first such line, and the next line end is the end
of that line. -/
theorem find_inside (s : Section) {pat line : Bytes} (clean : Clean pat)
    (first : s.lines.find? (fun line => (find pat line).isSome) = some line) (rest : Bytes) :
    ∃ front i back, s.bytes ++ rest = front ++ (line ++ lineEnd) ++ back ∧ find pat line = some i ∧
      find pat (s.bytes ++ rest) = some (front.length + i) ∧
      find lineEnd ((s.bytes ++ rest).drop (front.length + i)) = some (line.length - i) := by
  obtain ⟨here, before, after, split, absent⟩ := List.find?_eq_some_iff_append.mp first
  obtain ⟨i, found⟩ := Option.isSome_iff_exists.mp here
  have nowhere : ∀ line ∈ before, find pat line = none := by
    intro l member
    simpa using absent l member
  have shape : s.bytes ++ rest = block before ++ (line ++ lineEnd) ++ (block after ++ lineEnd ++ rest) := by
    rw [bytes, split, block_append, block_cons]
    simp only [List.append_assoc]
  have place : find pat (s.bytes ++ rest) = some ((block before).length + i) := by
    rw [shape, List.append_assoc, find_block clean nowhere, List.append_assoc, find_append found]
    rfl
  have noReturn : 13 ∉ line.drop i := by
    have member : line ∈ s.lines := List.mem_of_find?_eq_some first
    exact fun inside => (s.clean line member).2.1 (List.mem_of_mem_drop inside)
  have inside := find_le found
  have behind : (s.bytes ++ rest).drop ((block before).length + i) =
      line.drop i ++ (lineEnd ++ (block after ++ lineEnd ++ rest)) := by
    rw [shape, List.append_assoc, ← List.drop_drop, List.drop_left, List.append_assoc,
      List.drop_append_of_le_length inside]
  refine ⟨block before, i, block after ++ lineEnd ++ rest, shape, found, place, ?_⟩
  rw [behind, lineEnd, find_first noReturn (List.prefix_append [13, 10] _), List.length_drop]

end Section

end VStream.Http
