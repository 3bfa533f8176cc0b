import VStream.MiProxy.Steps

/-!
# Requests and responses

A request ends at its only blank line. A response says in its first
`Content-Length` field how long its body is, so that the proxy knows from any
part of it that holds the header where it ends.
-/

namespace VStream
open Cpp Connection

theorem crlf_eq : crlf = [13, 10] := by decide

theorem find_crlf {line : Bytes} (plain : 13 ∉ line) (rest : Bytes) : find crlf (line ++ (crlf ++ rest)) = some line.length := by
  rw [crlf_eq]
  exact find_first plain (List.prefix_append _ _)

structure Request where
  front : Bytes
  only : find blankLine (front ++ blankLine) = some front.length

namespace Request

def bytes (q : Request) : Bytes := q.front ++ blankLine

theorem ends (q : Request) : find blankLine q.bytes ≠ none := by
  rw [bytes, q.only]
  exact Option.some_ne_none _

theorem find_blankLine_part (q : Request) {part rest : Bytes} (split : q.bytes = part ++ rest) (more : rest ≠ []) :
    find blankLine part = none := by
  by_contra found
  obtain ⟨i, found⟩ := Option.ne_none_iff_exists'.mp found
  have whole := find_append found rest
  rw [← split, bytes, q.only] at whole
  obtain rfl := Option.some.inj whole
  have fits := find_fits found
  have total := congrArg List.length split
  have some := List.length_pos_iff.mpr more
  simp only [bytes, List.length_append] at total
  omega

end Request

/-- Header lines: those before the field for the length, that field, and those after it, up to the blank line. -/
def headerLines (before digits after : Bytes) : Bytes :=
  before ++ crlf ++ (contentLength ++ digits) ++ crlf ++ after ++ crlf

structure Response where
  before : Bytes
  digits : Bytes
  after : Bytes
  body : Bytes
  blank : find blankLine (headerLines before digits after ++ body) = some ((headerLines before digits after).length - 4)
  first : find contentLength (headerLines before digits after ++ body) = some (before.length + 2)
  number : digits ≠ [] ∧ ∀ c ∈ digits, isDigit c = true
  small : value digits < 2 ^ 31
  length : body.length = value digits
  fits : (headerLines before digits after ++ body).length < 2 ^ 64

namespace Response

def header (r : Response) : Bytes := headerLines r.before r.digits r.after
def bytes (r : Response) : Bytes := r.header ++ r.body

theorem header_length (r : Response) :
    r.header.length = r.before.length + 2 + (16 + r.digits.length) + 2 + r.after.length + 2 := by
  simp only [header, headerLines, List.length_append]
  rfl

theorem bytes_ne_nil (r : Response) : r.bytes ≠ [] := by
  have length := r.header_length
  intro empty
  have none := congrArg List.length empty
  rw [bytes, List.length_append, List.length_nil] at none
  omega

theorem digits_no_return (r : Response) : 13 ∉ contentLength ++ r.digits := by
  intro member
  rcases List.mem_append.mp member with name | digit
  · revert name
    decide
  · have decimal := r.number.2 13 digit
    revert decimal
    decide

/-- Where the header is, the length is known, whatever follows. -/
theorem announced_header (r : Response) (part : Bytes) :
    announced (r.header ++ part) = .ok (some r.bytes.length) := by
  have length := r.header_length
  have fits := r.fits
  have number := stoi_digits r.number.1 r.number.2 r.small
  have blank : find blankLine (r.header ++ part) = some (r.header.length - 4) :=
    find_append (find_of_append r.blank (by rw [← header]; change _ - 4 + 4 ≤ _; omega)) part
  have field : find contentLength (r.header ++ part) = some (r.before.length + 2) :=
    find_append (find_of_append r.first (by rw [← header]; change _ + 16 ≤ _; omega)) part
  have lines : r.header ++ part =
      (r.before ++ crlf) ++ ((contentLength ++ r.digits) ++ (crlf ++ (r.after ++ crlf ++ part))) := by
    simp only [header, headerLines, List.append_assoc]
  have bound : r.header.length + r.body.length < 2 ^ 64 := by rwa [← header, List.length_append] at fits
  have behind : (r.header ++ part).drop (r.before.length + 2) =
      (contentLength ++ r.digits) ++ (crlf ++ (r.after ++ crlf ++ part)) := by
    rw [lines]
    exact List.drop_left' (List.length_append ..)
  have line : findFrom crlf (r.header ++ part) (r.before.length + 2) =
      some (16 + r.digits.length + (r.before.length + 2)) := by
    rw [findFrom, if_pos (by rw [List.length_append]; omega), behind, find_crlf r.digits_no_return,
      List.length_append]
    rfl
  have width : sizeSub (sizeSub (16 + r.digits.length + (r.before.length + 2)) (r.before.length + 2)) 16 =
      r.digits.length := by
    have inner : sizeSub (16 + r.digits.length + (r.before.length + 2)) (r.before.length + 2) = 16 + r.digits.length := by
      rw [sizeSub_of_le (by omega) (by omega), Nat.add_sub_cancel]
    rw [inner, sizeSub_of_le (by omega) (by omega), Nat.add_sub_cancel_left]
  have cut : substr (r.header ++ part) (r.before.length + 2 + 16) r.digits.length = .ok r.digits := by
    have narrow : r.digits.length ≠ npos := by unfold npos; omega
    have name : contentLength.length = 16 := by decide
    rw [substr, if_pos (by rw [List.length_append]; omega), if_neg narrow, ← List.drop_drop, behind,
      List.append_assoc, List.drop_left' name, List.take_left' rfl]
  unfold announced parseHeader
  dsimp only
  rw [blank]
  dsimp only
  rw [field]
  dsimp only
  rw [line]
  dsimp only
  rw [width, cut, ok_bind, number, ok_bind]
  simp only [Except.map, pure_eq_ok]
  rw [if_neg (by decide)]
  have whole : ((r.header.length - 4 : Nat) : Int) + 4 + value r.digits = r.bytes.length := by
    rw [bytes, List.length_append, r.length]
    omega
  have wrap : ((r.bytes.length : Int) % 2 ^ 64).toNat = r.bytes.length := by
    rw [bytes, List.length_append]
    omega
  rw [whole, wrap]

theorem holds_header (r : Response) {part rest : Bytes} (split : r.bytes = part ++ rest)
    (found : find blankLine part ≠ none) : ∃ more, part = r.header ++ more := by
  obtain ⟨i, found⟩ := Option.ne_none_iff_exists'.mp found
  have length := r.header_length
  have whole := find_append found rest
  rw [← split, show find blankLine r.bytes = _ from r.blank, ← header] at whole
  have here := Option.some.inj whole
  have fits := find_fits found
  have four : blankLine.length = 4 := by decide
  have start : r.header <+: r.bytes := List.prefix_append _ _
  have inside : r.header <+: part :=
    List.prefix_of_prefix_length_le start (split ▸ List.prefix_append part rest) (by omega)
  exact ⟨_, inside.choose_spec.symm⟩

/-- The length that the proxy has kept when it has read `part`. -/
def known (r : Response) (part : Bytes) : Nat := if find blankLine part = none then 0 else r.bytes.length

theorem announced_part (r : Response) {part rest : Bytes} (split : r.bytes = part ++ rest) :
    announced part = .ok (if find blankLine part = none then none else some r.bytes.length) := by
  by_cases absent : find blankLine part = none
  · rw [if_pos absent, announced, parseHeader]
    dsimp only
    rw [absent]
    rfl
  · rw [if_neg absent]
    obtain ⟨more, rfl⟩ := r.holds_header split absent
    exact r.announced_header more

theorem expectedLen_part (r : Response) {part data rest : Bytes} (split : r.bytes = part ++ data ++ rest) :
    MiProxy.expectedLen (r.known part) (part ++ data) =
      .ok (if find blankLine (part ++ data) = none then none else some r.bytes.length) := by
  unfold MiProxy.expectedLen known
  by_cases absent : find blankLine part = none
  · rw [if_pos absent, if_pos rfl, r.announced_part split]
  · obtain ⟨i, found⟩ := Option.ne_none_iff_exists'.mp absent
    have some : r.bytes.length ≠ 0 := fun none => r.bytes_ne_nil (List.length_eq_zero_iff.mp none)
    rw [if_neg absent, if_neg some, find_append found data, if_neg (Option.some_ne_none i)]

theorem holds_blank (r : Response) {part : Bytes} (whole : r.bytes = part) : find blankLine part ≠ none := by
  rw [← whole, show find blankLine r.bytes = _ from r.blank]
  exact Option.some_ne_none _

theorem known_of_waits (r : Response) {part data rest : Bytes} (split : r.bytes = part ++ data ++ rest) {len : Nat}
    (waits : MiProxy.Waits (r.known part) (part ++ data) len) : len = r.known (part ++ data) ∧ rest ≠ [] := by
  have expected := r.expectedLen_part split
  cases waits with
  | header unknown =>
    rw [unknown] at expected
    have absent : find blankLine (part ++ data) = none := by
      by_contra found
      rw [if_neg found] at expected
      cases expected
    have before : find blankLine part = none := by
      by_contra found
      obtain ⟨i, found⟩ := Option.ne_none_iff_exists'.mp found
      rw [find_append found data] at absent
      cases absent
    constructor
    · unfold known
      rw [if_pos before, if_pos absent]
    · rintro rfl
      rw [List.append_nil] at split
      exact r.holds_blank split absent
  | body known' short =>
    rw [known'] at expected
    split at expected
    · cases expected
    · rename_i found
      obtain rfl := Option.some.inj (Except.ok.inj expected)
      constructor
      · unfold known
        rw [if_neg found]
      · rintro rfl
        rw [List.append_nil] at split
        rw [← split] at short
        exact absurd short (lt_irrefl _)

theorem rest_of_complete (r : Response) {part data rest : Bytes} (split : r.bytes = part ++ data ++ rest)
    (complete : MiProxy.Complete (r.known part) (part ++ data)) : rest = [] := by
  obtain ⟨len, expected, full⟩ := complete
  rw [r.expectedLen_part split] at expected
  split at expected
  · cases expected
  · obtain rfl := Option.some.inj (Except.ok.inj expected)
    have total := congrArg List.length split
    rw [List.length_append] at total
    exact List.length_eq_zero_iff.mp (by omega)

theorem append_inj {r r' : Response} {t t' : Bytes} (same : r.bytes ++ t = r'.bytes ++ t') :
    r.bytes = r'.bytes ∧ t = t' := by
  have length := r.announced_header (r.body ++ t)
  rw [← List.append_assoc, ← bytes, same, bytes, List.append_assoc, announced_header] at length
  exact List.append_inj same (Option.some.inj (Except.ok.inj length)).symm

def concat (rs : List Response) : Bytes := (rs.map bytes).flatten

theorem concat_append (rs rs' : List Response) : concat (rs ++ rs') = concat rs ++ concat rs' := by
  simp [concat]

/-- A stream of whole responses shows how many they are. -/
theorem concat_length {rs rs' : List Response} (same : concat rs = concat rs') : rs.length = rs'.length := by
  induction rs generalizing rs' with
  | nil =>
    cases rs' with
    | nil => rfl
    | cons r' rs' =>
      have empty : r'.bytes = [] := (List.append_eq_nil_iff.mp (show r'.bytes ++ concat rs' = [] from same.symm)).1
      exact absurd empty r'.bytes_ne_nil
  | cons r rs ih =>
    cases rs' with
    | nil =>
      have empty : r.bytes = [] := (List.append_eq_nil_iff.mp (show r.bytes ++ concat rs = [] from same)).1
      exact absurd empty r.bytes_ne_nil
    | cons r' rs' => rw [List.length_cons, List.length_cons, ih (append_inj (show r.bytes ++ _ = r'.bytes ++ _ from same)).2]

def samplePage : Response where
  before := text "HTTP/1.1 200 OK"
  digits := text "2"
  after := []
  body := text "ok"
  blank := by decide +kernel
  first := by decide +kernel
  number := by decide +kernel
  small := by decide +kernel
  length := by decide +kernel
  fits := by decide +kernel

def sampleManifest : Response where
  before := text "HTTP/1.1 200 OK\r\nContent-Type: text/xml"
  digits := text "13"
  after := []
  body := text "bitrate=\"500\""
  blank := by decide +kernel
  first := by decide +kernel
  number := by decide +kernel
  small := by decide +kernel
  length := by decide +kernel
  fits := by decide +kernel

def sampleChunk : Response where
  before := text "HTTP/1.1 200 OK\r\nContent-Type: video/f4f"
  digits := text "5"
  after := []
  body := text "video"
  blank := by decide +kernel
  first := by decide +kernel
  number := by decide +kernel
  small := by decide +kernel
  length := by decide +kernel
  fits := by decide +kernel

end Response

end VStream
