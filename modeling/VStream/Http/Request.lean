import VStream.Cpp.Search

/-!
# Request lines

The first line of a request holds the method, the URI and the version, with a
blank between them.
-/

namespace VStream.Http
open Cpp

def requestLine (msg : Bytes) : Bytes := msg.takeWhile (· ≠ 13)

def uriStart (msg : Bytes) : Nat := ((requestLine msg).takeWhile (· ≠ 32)).length + 1

def requestUri (msg : Bytes) : Bytes := ((requestLine msg).drop (uriStart msg)).takeWhile (· ≠ 32)

theorem requestUri_begins (msg : Bytes) : requestUri msg <+: msg.drop (uriStart msg) :=
  (List.takeWhile_prefix _).trans ((List.takeWhile_prefix _).drop (uriStart msg))

/-- What stands in the URI stands that far behind its start in the message. -/
theorem find_uri {pat msg : Bytes} {i : Nat} (found : find pat (requestUri msg) = some i) :
    pat <+: msg.drop (uriStart msg + i) ∧ i + pat.length ≤ (requestUri msg).length := by
  obtain ⟨here, -, -⟩ := find_some_iff.mp found
  refine ⟨?_, find_fits found⟩
  rw [← List.drop_drop]
  exact here.trans ((requestUri_begins msg).drop i)

theorem find_uri_first {pat msg : Bytes} {i : Nat} (found : find pat msg = some i) (behind : uriStart msg ≤ i)
    (inside : i + pat.length ≤ uriStart msg + (requestUri msg).length) :
    find pat (requestUri msg) = some (i - uriStart msg) := by
  obtain ⟨here, fits, first⟩ := find_some_iff.mp found
  obtain ⟨rest, split⟩ := requestUri_begins msg
  have suffix : find pat (msg.drop (uriStart msg)) = some (i - uriStart msg) := by
    refine find_some_iff.mpr ⟨?_, by rw [List.length_drop]; omega, fun j before earlier => ?_⟩
    · rw [List.drop_drop, Nat.add_sub_cancel' behind]
      exact here
    · rw [List.drop_drop] at earlier
      exact first (uriStart msg + j) (by omega) earlier
  rw [← split] at suffix
  exact find_of_append suffix (by omega)

end VStream.Http
