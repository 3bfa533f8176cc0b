import Mathlib.Data.List.Basic

/-!
# Buffers that are handed on whole

A reader appends what it reads to a buffer. As soon as the buffer holds a
complete message it hands all of it on, whatever follows the message. What it
hands on then depends on how the stream was cut, unless the stream is at most
one message.
-/

namespace VStream.Flushing
variable {α : Type}

section
variable (complete : List α → Prop) [DecidablePred complete] (handle : List α → List α)

/-- What is handed on of these reads. -/
def flush : List α → List (List α) → List α
  | _, [] => []
  | buffer, data :: reads =>
    if complete (buffer ++ data) then handle (buffer ++ data) ++ flush [] reads else flush (buffer ++ data) reads

/-- The buffers that are handed on when every element is read alone, and the one that is left. -/
def settle : List α → List α → List (List α) × List α
  | buffer, [] => ([], buffer)
  | buffer, a :: stream =>
    if complete (buffer ++ [a]) then ((buffer ++ [a]) :: (settle [] stream).1, (settle [] stream).2)
    else settle (buffer ++ [a]) stream

def Cut (limit : Nat) (stream : List α) (reads : List (List α)) : Prop :=
  reads.flatten = stream ∧ ∀ data ∈ reads, data ≠ [] ∧ data.length ≤ limit

end

theorem Cut.append {limit : Nat} {stream stream' : List α} {reads reads' : List (List α)} (cut : Cut limit stream reads)
    (cut' : Cut limit stream' reads') : Cut limit (stream ++ stream') (reads ++ reads') := by
  refine ⟨by rw [List.flatten_append, cut.1, cut'.1], ?_⟩
  intro data member
  rcases List.mem_append.mp member with before | behind
  · exact cut.2 data before
  · exact cut'.2 data behind

theorem Cut.one {limit : Nat} {data : List α} (some : data ≠ []) (fits : data.length ≤ limit) : Cut limit data [data] := by
  refine ⟨List.append_nil data, ?_⟩
  intro data' member
  rw [List.mem_singleton.mp member]
  exact ⟨some, fits⟩

theorem Cut.singles {limit : Nat} (fits : 1 ≤ limit) (stream : List α) : Cut limit stream (stream.map ([·])) := by
  induction stream with
  | nil => exact ⟨rfl, by simp⟩
  | cons a stream ih => exact (Cut.one (List.cons_ne_nil a []) fits).append ih

section
variable {complete : List α → Prop} [DecidablePred complete] {handle : List α → List α}

theorem flush_singles (buffer stream : List α) (reads : List (List α)) :
    flush complete handle buffer (stream.map ([·]) ++ reads) =
      ((settle complete buffer stream).1.map handle).flatten ++ flush complete handle (settle complete buffer stream).2 reads := by
  induction stream generalizing buffer with
  | nil => rfl
  | cons a stream ih =>
    rw [List.map_cons, List.cons_append, flush, settle]
    split
    · rw [ih, List.map_cons, List.flatten_cons, List.append_assoc]
    · exact ih _

theorem settle_quiet {buffer stream : List α} (quiet : (settle complete buffer stream).1 = []) :
    (settle complete buffer stream).2 = buffer ++ stream := by
  induction stream generalizing buffer with
  | nil => exact (List.append_nil buffer).symm
  | cons a stream ih =>
    rw [settle] at quiet ⊢
    split at quiet
    · cases quiet
    · rename_i more
      rw [if_neg more, ih quiet, List.append_assoc]
      rfl

theorem settle_open {buffer : List α} (empty : ¬ complete []) (start : ¬ complete buffer) (stream : List α) :
    ¬ complete (settle complete buffer stream).2 := by
  induction stream generalizing buffer with
  | nil => exact start
  | cons a stream ih =>
    rw [settle]
    split
    · exact ih empty
    · rename_i more
      exact ih more

theorem settle_last {buffer stream : List α} (some : (settle complete buffer stream).1 ≠ []) :
    ∃ before a rest, stream = before ++ a :: rest ∧ complete ((settle complete buffer before).2 ++ [a]) ∧
      settle complete buffer stream =
        ((settle complete buffer before).1 ++ [(settle complete buffer before).2 ++ [a]], rest) := by
  induction stream generalizing buffer with
  | nil => exact absurd rfl some
  | cons a stream ih =>
    rw [settle] at some ⊢
    by_cases here : complete (buffer ++ [a])
    · rw [if_pos here] at some ⊢
      by_cases quiet : (settle complete [] stream).1 = []
      · refine ⟨[], a, stream, rfl, here, ?_⟩
        rw [quiet, settle_quiet quiet]
        rfl
      · obtain ⟨before, b, rest, rfl, ended, same⟩ := ih quiet
        refine ⟨a :: before, b, rest, rfl, ?_⟩
        rw [settle, if_pos here, same]
        exact ⟨ended, rfl⟩
    · rw [if_neg here] at some ⊢
      obtain ⟨before, b, rest, rfl, ended, same⟩ := ih some
      refine ⟨a :: before, b, rest, rfl, ?_⟩
      rw [settle, if_neg here, same]
      exact ⟨ended, rfl⟩

/-- Messages that end where a delimiter ends, handled so that their last element and what follows them can be seen. -/
structure Delimited (complete : List α → Prop) (handle : List α → List α) : Prop where
  empty : ¬ complete []
  single : ∀ a, ¬ complete [a]
  append : ∀ {u} v, complete u → complete (u ++ v)
  prepend : ∀ u {v}, complete v → complete (u ++ v)
  turns : ∀ {buffer a}, ¬ complete buffer → complete (buffer ++ [a]) → buffer.getLast? ≠ some a
  last : ∀ {message}, message ≠ [] → (handle message).getLast? = message.getLast?
  longer : ∀ {buffer a} b, ¬ complete buffer → complete (buffer ++ [a]) →
    handle (buffer ++ [a] ++ [b]) ≠ handle (buffer ++ [a])

variable (delimited : Delimited complete handle)
include delimited

theorem Delimited.quiet {buffer : List α} {reads : List (List α)} (quiet : ¬ complete (buffer ++ reads.flatten)) :
    flush complete handle buffer reads = [] := by
  induction reads generalizing buffer with
  | nil => rfl
  | cons data reads ih =>
    rw [List.flatten_cons, ← List.append_assoc] at quiet
    rw [flush, if_neg (fun here => quiet (delimited.append _ here))]
    exact ih quiet

variable {limit : Nat} {buffer stream : List α} (start : ¬ complete buffer)
  (same : ∀ reads reads', Cut limit stream reads → Cut limit stream reads' →
    flush complete handle buffer reads = flush complete handle buffer reads')
include start same

/-- Where the cut makes no difference nothing is left behind a message. -/
theorem Delimited.rest_nil (room : 2 ≤ limit) (some : (settle complete buffer stream).1 ≠ []) :
    (settle complete buffer stream).2 = [] := by
  obtain ⟨before, a, rest, rfl, ended, settled⟩ := settle_last some
  rw [settled]
  dsimp only
  by_contra left
  obtain ⟨x, rest, rfl⟩ := List.exists_cons_of_ne_nil left
  have quiet : ¬ complete (x :: rest) := by
    have opened := settle_open delimited.empty start (before ++ a :: x :: rest)
    rw [settled] at opened
    exact opened
  have quiet' : ¬ complete rest := fun here => quiet (delimited.prepend [x] here)
  have singles := Cut.singles (show 1 ≤ limit by omega) before
  have alone : Cut limit (before ++ a :: x :: rest) (before.map ([·]) ++ ([a] :: (x :: rest).map ([·]))) :=
    singles.append (Cut.singles (show 1 ≤ limit by omega) (a :: x :: rest))
  have together : Cut limit (before ++ a :: x :: rest) (before.map ([·]) ++ ([a, x] :: rest.map ([·]))) :=
    singles.append ((Cut.one (List.cons_ne_nil a [x]) room).append (Cut.singles (show 1 ≤ limit by omega) rest))
  have equal := same _ _ alone together
  have longer : complete ((settle complete buffer before).2 ++ [a, x]) := by
    have more := delimited.append [x] ended
    rwa [List.append_assoc] at more
  rw [flush_singles, flush_singles, flush, flush, if_pos ended, if_pos longer, delimited.quiet, delimited.quiet,
    List.append_nil, List.append_nil] at equal
  · have differs := delimited.longer x (settle_open delimited.empty start before) ended
    rw [List.append_assoc] at differs
    exact differs (List.append_cancel_left equal).symm
  · rwa [List.nil_append, (Cut.singles (show 1 ≤ limit by omega) rest).1]
  · rwa [List.nil_append, (Cut.singles (show 1 ≤ limit by omega) (x :: rest)).1]

/-- Where the cut makes no difference a message that can be read at once is the only one. -/
theorem Delimited.at_most_one (room : 2 ≤ limit)
    (short : ∀ message ∈ (settle complete buffer stream).1.getLast?, message.length ≤ limit) :
    settle complete buffer stream = ([], buffer ++ stream) ∨ settle complete buffer stream = ([buffer ++ stream], []) := by
  by_cases some : (settle complete buffer stream).1 = []
  · exact .inl (Prod.ext some (settle_quiet some))
  apply Or.inr
  have none := delimited.rest_nil start same room some
  obtain ⟨before, a, rest, rfl, ended, settled⟩ := settle_last some
  rw [settled] at none short ⊢
  obtain rfl : rest = [] := none
  by_cases only : (settle complete buffer before).1 = []
  · rw [only, settle_quiet only, List.nil_append, List.append_assoc]
  exfalso
  obtain ⟨earlier, b, message, rfl, ended', settled'⟩ := settle_last only
  rw [settled'] at ended short
  dsimp only at ended short
  have fits := short (message ++ [a]) (by simp)
  rw [List.length_append, List.length_singleton] at fits
  have opened : ¬ complete message := by
    have opened := settle_open delimited.empty start (earlier ++ b :: message)
    rwa [settled'] at opened
  obtain ⟨c, inner, rfl⟩ : ∃ c inner, message = inner ++ [c] := by
    rcases List.eq_nil_or_concat message with rfl | ⟨inner, c, rfl⟩
    · exact absurd ended (delimited.single a)
    · exact ⟨c, inner, by simp⟩
  have turned := delimited.turns opened ended
  rw [List.getLast?_concat] at turned
  have singles := Cut.singles (show 1 ≤ limit by omega) earlier
  have whole : Cut limit (earlier ++ b :: (inner ++ [c]) ++ [a]) (earlier.map ([·]) ++ [[b], inner ++ [c] ++ [a]]) := by
    have last : Cut limit (inner ++ [c] ++ [a]) [inner ++ [c] ++ [a]] := by
      apply Cut.one (by simp)
      rwa [List.length_append, List.length_singleton]
    have joined := singles.append ((Cut.one (List.cons_ne_nil b []) (show 1 ≤ limit by omega)).append last)
    simpa using joined
  have split : Cut limit (earlier ++ b :: (inner ++ [c]) ++ [a]) (earlier.map ([·]) ++ [b :: (inner ++ [c]), [a]]) := by
    have first : Cut limit (b :: (inner ++ [c])) [b :: (inner ++ [c])] := by
      apply Cut.one (List.cons_ne_nil b (inner ++ [c]))
      rwa [List.length_cons]
    have joined := singles.append (first.append (Cut.one (List.cons_ne_nil a []) (show 1 ≤ limit by omega)))
    simpa using joined
  have equal := same _ _ whole split
  have longer : complete ((settle complete buffer earlier).2 ++ b :: (inner ++ [c])) := by
    have more := delimited.append (inner ++ [c]) ended'
    rwa [List.append_assoc] at more
  have ended'' : complete ([] ++ (inner ++ [c] ++ [a])) := ended
  have alone : ¬ complete ([] ++ [a]) := delimited.single a
  rw [flush_singles, flush_singles] at equal
  simp only [flush, if_pos ended', if_pos longer, if_pos ended'', if_neg alone, List.append_nil] at equal
  have last := congrArg List.getLast? (List.append_cancel_left equal)
  have first : (handle ([] ++ (inner ++ [c] ++ [a]))).getLast? = Option.some a := by
    rw [delimited.last (by simp)]
    simp
  have second : (handle ((settle complete buffer earlier).2 ++ b :: (inner ++ [c]))).getLast? = Option.some c := by
    have shape : (settle complete buffer earlier).2 ++ b :: (inner ++ [c]) =
        ((settle complete buffer earlier).2 ++ b :: inner) ++ [c] := by simp
    rw [delimited.last (by simp), shape, List.getLast?_concat]
  rw [List.getLast?_append, first, second] at last
  exact turned last.symm

end

end VStream.Flushing
