import VStream.Http.Section
import VStream.MiProxy.Requests

/-!
# The length of a response

`parse_header` searches the whole message for the text of the field, so what it
takes for the length may stand in another line or behind the header section.
-/

namespace VStream
open Cpp Http Connection

/-- A header section whose fields for the length are spelled as the proxy reads them. -/
structure ResponseHead extends Http.Section where
  spelled : ∀ line ∈ fields, text "Content-Length:" <+: line →
    ∃ digits, line = contentLength ++ digits ∧ Digits digits ∧ value digits < 2 ^ 63

namespace ResponseHead

/-- The number in the field for the length. -/
def length (h : ResponseHead) : Option Nat :=
  (h.fields.find? (text "Content-Length:").isPrefixOf).map fun line => value (line.drop contentLength.length)

/-- The lines before the field for the length. -/
def early (h : ResponseHead) : List Bytes :=
  h.start :: h.fields.takeWhile fun line => ! (text "Content-Length:").isPrefixOf line

end ResponseHead

/-- What stands behind the first text of the field in the first line that has it. -/
def behindText (lines : List Bytes) : Option Bytes :=
  (lines.find? fun line => (find contentLength line).isSome).bind fun line =>
    (find contentLength line).map fun i => line.drop (i + contentLength.length)

/-- The same for a body, as far as the next line end. -/
def behindTextIn (body : Bytes) : Option Bytes :=
  (find contentLength body).bind fun i =>
    (find crlf (body.drop i)).map fun j =>
      (body.drop (i + contentLength.length)).take (j - contentLength.length)

/-- The length is that of the field; without the field none is set. -/
def TakesLength (h : ResponseHead) (conn : Connection) : Prop :=
  match h.length with
  | some n => conn.parseHeader = .ok (0, { conn with serverMessageLen := h.bytes.length + n })
  | none => ∀ conn', conn.parseHeader ≠ .ok (0, conn')

/-- The number of the field is an `int`, and where a line before it has the text of the field, the same number stands
behind it; without the field there is no number behind the first such text of the section or else of the body. -/
def Undisturbed (h : ResponseHead) (body : Bytes) : Prop :=
  match h.length with
  | some n => n < 2 ^ 31 ∧ ∀ number ∈ behindText h.early, stoi number = .ok n
  | none => ∀ number ∈ (behindText h.lines).or (behindTextIn body), ∀ n, stoi number ≠ .ok n

theorem contentLength_clean : Clean contentLength := by decide +kernel

theorem contentLength_length : contentLength.length = 16 := by decide +kernel

theorem blankLine_lineEnd : blankLine = lineEnd ++ lineEnd := by decide

theorem stoi_range {s : Bytes} {n : Int} (read : stoi s = .ok n) : intMin ≤ n ∧ n ≤ intMax := by
  unfold stoi at read
  dsimp only at read
  split_ifs at read <;> cases read <;> assumption

/-- A line end is not within the text of the field. -/
theorem lineEnd_behind {s : Bytes} {i j : Nat} (here : contentLength <+: s.drop i)
    (found : find crlf (s.drop i) = some j) : contentLength.length ≤ j := by
  by_contra within
  obtain ⟨ends, -, -⟩ := find_some_iff.mp found
  rw [List.drop_drop] at ends
  have agree := places_agree here ends rfl (Nat.lt_of_not_ge within) (by decide)
  have member : (13 : UInt8) ∈ contentLength := List.mem_of_getElem? agree
  exact contentLength_clean.2.1 member

/-- The part of `parse_header` behind the first place of the text. -/
theorem parseHeader_found {conn : Connection} {endPos clPos conEnd : Nat} {number : Bytes}
    (fits : conn.serverMessage.length ≤ maxSize) (blank : find blankLine conn.serverMessage = some endPos)
    (field : find contentLength conn.serverMessage = some clPos)
    (line : find crlf (conn.serverMessage.drop clPos) = some conEnd)
    (cut : (conn.serverMessage.drop (clPos + contentLength.length)).take (conEnd - contentLength.length) = number) :
    conn.parseHeader = stoi number >>= fun length =>
      .ok (0, { conn with serverMessageLen := ((endPos + 4 + length) % 2 ^ 64).toNat }) := by
  have behind := lineEnd_behind (find_some_iff.mp field).1 line
  have inside := find_fits field
  have inside' := find_fits line
  rw [List.length_drop] at inside'
  rw [contentLength_length] at behind inside cut
  unfold maxSize at fits
  have next : findFrom crlf conn.serverMessage clPos = some (conEnd + clPos) := by
    rw [findFrom, if_pos (by omega), line]
    rfl
  have width : sizeSub (sizeSub (conEnd + clPos) clPos) 16 = conEnd - 16 := by
    rw [sizeSub_of_le (b := clPos) (by omega) (by omega), sizeSub_of_le (by omega) (by omega)]
    omega
  have taken : substr conn.serverMessage (clPos + 16) (conEnd - 16) = .ok number := by
    rw [substr, if_pos (by omega), if_neg (by unfold npos; omega), cut]
  unfold parseHeader
  rw [blank]
  dsimp only
  rw [field]
  dsimp only
  rw [next]
  dsimp only
  rw [width, taken, ok_bind]
  rfl

theorem parseHeader_text (h : ResponseHead) {body : Bytes} {conn : Connection}
    (message : conn.serverMessage = h.bytes ++ body) (fits : conn.serverMessage.length ≤ maxSize) :
    conn.parseHeader = match (behindText h.lines).or (behindTextIn body) with
      | none => .ok (-1, conn)
      | some number => stoi number >>= fun length =>
          .ok (0, { conn with serverMessageLen := ((h.bytes.length + length) % 2 ^ 64).toNat }) := by
  have four := h.bytes_length
  have blank : find blankLine conn.serverMessage = some (h.bytes.length - 4) := by
    rw [message, blankLine_lineEnd, h.find_blank]
  have whole : ((h.bytes.length - 4 : Nat) : Int) + 4 = h.bytes.length := by omega
  unfold behindText behindTextIn
  cases first : h.lines.find? (fun line => (find contentLength line).isSome) with
  | some line =>
    obtain ⟨front, i, back, shape, inLine, found, ends⟩ := h.find_inside contentLength_clean first body
    have fitsLine := find_fits inLine
    rw [← message] at shape found ends
    have cut : (conn.serverMessage.drop (front.length + i + contentLength.length)).take
        (line.length - i - contentLength.length) = line.drop (i + contentLength.length) := by
      rw [shape, Nat.add_assoc, List.append_assoc, ← List.drop_drop, List.drop_left, List.append_assoc,
        List.drop_append_of_le_length fitsLine]
      exact List.take_left' (by rw [List.length_drop]; omega)
    have parsed := parseHeader_found fits blank found (show find crlf _ = _ from ends) cut
    rw [parsed]
    dsimp only [Option.bind_some]
    rw [inLine]
    simp only [whole, Option.map_some]
    rfl
  | none =>
    have absent : ∀ line ∈ h.lines, find contentLength line = none := by
      intro line member
      simpa using List.find?_eq_none.mp first line member
    have behind := h.find_behind contentLength_clean absent body
    rw [← message] at behind
    dsimp only [Option.bind_none]
    rw [Option.none_or]
    cases inBody : find contentLength body with
    | none =>
      rw [inBody] at behind
      unfold parseHeader
      rw [blank]
      dsimp only
      rw [behind]
      rfl
    | some i =>
      rw [inBody, Option.map_some] at behind
      have suffix : ∀ n, conn.serverMessage.drop (h.bytes.length + n) = body.drop n := by
        intro n
        rw [message, ← List.drop_drop, List.drop_left]
      dsimp only [Option.bind_some]
      cases ends : find crlf (body.drop i) with
      | none =>
        have next : findFrom crlf conn.serverMessage (h.bytes.length + i) = none := by
          rw [findFrom, suffix, ends]
          split <;> rfl
        unfold parseHeader
        rw [blank]
        dsimp only
        rw [behind]
        dsimp only
        rw [next]
        rfl
      | some j =>
        have line : find crlf (conn.serverMessage.drop (h.bytes.length + i)) = some j := by rw [suffix, ends]
        have parsed := parseHeader_found fits blank behind line rfl
        rw [parsed, Nat.add_assoc, suffix]
        simp only [whole, Option.map_some]

/-! ### When the length is the right one -/

theorem behindText_append (lines lines' : List Bytes) :
    behindText (lines ++ lines') = (behindText lines).or (behindText lines') := by
  unfold behindText
  rw [List.find?_append]
  cases first : lines.find? (fun line => (find contentLength line).isSome) with
  | none => rfl
  | some line =>
    have here := List.find?_some first
    obtain ⟨i, found⟩ := Option.isSome_iff_exists.mp here
    rw [Option.some_or, Option.bind_some, found]
    rfl

/-- The field itself is the first line with its text, once no line before it has the text. -/
theorem behindText_field {h : ResponseHead} {n : Nat} (field : h.length = some n) :
    ∃ digits, Digits digits ∧ value digits = n ∧ n < 2 ^ 63 ∧
      behindText h.lines = (behindText h.early).or (some digits) := by
  obtain ⟨line, first, number⟩ := Option.map_eq_some_iff.mp field
  obtain ⟨named, before, after, split, others⟩ := List.find?_eq_some_iff_append.mp first
  have member : line ∈ h.fields := List.mem_of_find?_eq_some first
  obtain ⟨digits, rfl, decimal, small⟩ := h.spelled line member (List.isPrefixOf_iff_prefix.mp named)
  rw [List.drop_left] at number
  have early : h.early = h.start :: before := by
    rw [ResponseHead.early, split, List.takeWhile_append_of_pos others, List.takeWhile_cons_of_neg (by simp [named]),
      List.append_nil]
  have lines : h.lines = h.early ++ (contentLength ++ digits) :: after := by
    rw [early, Http.Section.lines, split]
    rfl
  have here : find contentLength (contentLength ++ digits) = some 0 :=
    find_some_iff.mpr ⟨List.prefix_append _ _, Nat.zero_le _, fun j before => absurd before (Nat.not_lt_zero j)⟩
  have text : behindText ((contentLength ++ digits) :: after) = some digits := by
    rw [behindText, List.find?_cons_of_pos (by rw [here]; rfl), Option.bind_some, here, Option.map_some, Nat.zero_add,
      List.drop_left]
  exact ⟨digits, decimal, number, number ▸ small, by rw [lines, behindText_append, text]⟩

/-- `parse_header` takes the length from the field, and from nothing else, exactly where nothing disturbs it. -/
theorem takesLength_iff (h : ResponseHead) {body : Bytes} {conn : Connection}
    (message : conn.serverMessage = h.bytes ++ body) (fits : conn.serverMessage.length ≤ maxSize) :
    TakesLength h conn ↔ Undisturbed h body := by
  have parsed := parseHeader_text h message fits
  unfold TakesLength Undisturbed
  cases field : h.length with
  | none =>
    dsimp only
    rw [parsed]
    cases (behindText h.lines).or (behindTextIn body) with
    | none => simp
    | some number =>
      dsimp only
      cases read : stoi number with
      | error stop => simp [read]
      | ok n => simp [read]
  | some n =>
    obtain ⟨digits, decimal, rfl, wide, lines⟩ := behindText_field field
    have short : h.bytes.length ≤ maxSize := by
      rw [message, List.length_append] at fits
      omega
    -- a number that gives the right length is the right number
    have same : ∀ m : Int, intMin ≤ m ∧ m ≤ intMax →
        (((h.bytes.length + m) % 2 ^ 64).toNat = h.bytes.length + value digits ↔ m = value digits) := by
      intro m range
      unfold intMin intMax at range
      unfold maxSize at short
      omega
    have taken : ∀ number, (stoi number >>= fun length =>
        .ok ((0 : Int), { conn with serverMessageLen := ((h.bytes.length + length) % 2 ^ 64).toNat })) =
          .ok (0, { conn with serverMessageLen := h.bytes.length + value digits }) ↔
        stoi number = .ok (value digits : Int) := by
      intro number
      cases read : stoi number with
      | error stop => simp
      | ok m => simpa using same m (stoi_range read)
    dsimp only
    rw [parsed, lines]
    cases behindText h.early with
    | none =>
      dsimp only [Option.none_or, Option.some_or]
      rw [taken digits]
      refine ⟨fun read => ⟨?_, fun _ member => nomatch member⟩, fun ⟨small, _⟩ => ?_⟩
      · have range := (stoi_range read).2
        unfold intMax at range
        omega
      · exact stoi_digits decimal.1 decimal.2 small
    | some number =>
      dsimp only [Option.some_or]
      rw [taken number]
      refine ⟨fun read => ⟨?_, ?_⟩, fun ⟨_, reads⟩ => reads number rfl⟩
      · have range := (stoi_range read).2
        unfold intMax at range
        omega
      · intro _ member
        obtain rfl := Option.some.inj member
        exact read

theorem spelled_of_drop {fields : List Bytes} (spelled : ∀ line ∈ fields, text "Content-Length:" <+: line →
    line = contentLength ++ line.drop 16 ∧ (line.drop 16 ≠ [] ∧ ∀ c ∈ line.drop 16, isDigit c = true) ∧
      value (line.drop 16) < 2 ^ 63) :
    ∀ line ∈ fields, text "Content-Length:" <+: line →
      ∃ digits, line = contentLength ++ digits ∧ Digits digits ∧ value digits < 2 ^ 63 :=
  fun line member named => ⟨line.drop 16, spelled line member named⟩

def plainHead : ResponseHead where
  start := text "HTTP/1.1 200 OK"
  fields := [text "Server: nginx", text "Content-Length: 5"]
  clean := by decide +kernel
  spelled := spelled_of_drop (by decide +kernel)

theorem takesLength_iff_sample :
    TakesLength plainHead { serverMessage := plainHead.bytes ++ text "hello" } ↔ Undisturbed plainHead (text "hello") :=
  takesLength_iff plainHead rfl (by decide +kernel)

/-- Another field's name ends in the text. -/
def decoyHead : ResponseHead where
  start := text "HTTP/1.1 200 OK"
  fields := [text "X-Content-Length: 7", text "Content-Length: 5"]
  clean := by decide +kernel
  spelled := spelled_of_drop (by decide +kernel)

def largeHead : ResponseHead where
  start := text "HTTP/1.1 200 OK"
  fields := [text "Content-Length: 2147483648"]
  clean := by decide +kernel
  spelled := spelled_of_drop (by decide +kernel)

def noLengthHead : ResponseHead where
  start := text "HTTP/1.1 200 OK"
  fields := [text "Connection: close"]
  clean := by decide +kernel
  spelled := spelled_of_drop (by decide +kernel)

/-- The decoy's number is taken, a large one throws, and without the field that of the body is taken. -/
theorem decoy_taken :
    ¬ TakesLength decoyHead { serverMessage := decoyHead.bytes ++ text "hello" } ∧
    ¬ TakesLength largeHead { serverMessage := largeHead.bytes } ∧
    ¬ TakesLength noLengthHead { serverMessage := noLengthHead.bytes ++ text "Content-Length: 7\r\n" } ∧
    ¬ ∀ (h : ResponseHead) (body : Bytes) (conn : Connection), conn.serverMessage = h.bytes ++ body →
      conn.serverMessage.length ≤ maxSize → TakesLength h conn := by
  have decoy : ¬ TakesLength decoyHead { serverMessage := decoyHead.bytes ++ text "hello" } := by
    have field : decoyHead.length = some 5 := by decide +kernel
    rw [TakesLength, field]
    decide +kernel
  have large : ¬ TakesLength largeHead { serverMessage := largeHead.bytes } := by
    have field : largeHead.length = some 2147483648 := by decide +kernel
    rw [TakesLength, field]
    decide +kernel
  refine ⟨decoy, large, ?_, fun always => decoy (always _ _ _ rfl (by decide +kernel))⟩
  have field : noLengthHead.length = none := by decide +kernel
  rw [TakesLength, field]
  intro never
  exact never { serverMessage := noLengthHead.bytes ++ text "Content-Length: 7\r\n", serverMessageLen := 45 }
    (by decide +kernel)

end VStream
