import VStream.MiProxy.Adaptation
import VStream.MiProxy.Containment
import VStream.MiProxy.Framing
import VStream.Stream.Flushing

/-!
# Requests in pieces

All that has been read of a client is passed on as one message as soon as there
is a blank line in it. Where requests follow one another, it depends on the
reads which of them are rewritten and what is passed on at all.
-/

namespace VStream
open Cpp Net Connection MiProxy Flushing

def passedOn : List Action → Bytes
  | [] => []
  | .forwarded _ message :: rest => message ++ passedOn rest
  | _ :: rest => passedOn rest

/-- What a client's reads make the proxy pass on, one message after the other. -/
def forwards (calls : RequestCalls) : Connection → List Bytes → Exec Bytes
  | _, [] => .ok []
  | conn, data :: reads => do
    let (conn', actions) ← handleClientConnection (some data) calls conn
    match conn' with
    | none => return passedOn actions
    | some conn' => do
      let later ← forwards calls conn' reads
      return passedOn actions ++ later

/-- It makes no difference how the stream is cut into reads of up to 1024 bytes. -/
def SameForwarded (calls : RequestCalls) (conn : Connection) (stream : Bytes) : Prop :=
  ∀ reads reads', Cut 1024 stream reads → Cut 1024 stream reads' → forwards calls conn reads = forwards calls conn reads'

/-- Not a whole request, or one and nothing behind it. -/
def AtMostOne (message : Bytes) : Prop := find blankLine message = none ∨ ∃ q : Request, message = q.bytes

/-! ### One request -/

theorem forwards_incomplete (calls : RequestCalls) {conn : Connection} {reads : List Bytes} (some : ∀ data ∈ reads, data ≠ [])
    (quiet : find blankLine (conn.clientMessage ++ reads.flatten) = none) : forwards calls conn reads = .ok [] := by
  induction reads generalizing conn with
  | nil => rfl
  | cons data reads ih =>
    have more : find blankLine (conn.clientMessage ++ data) = none := by
      by_contra found
      obtain ⟨i, found⟩ := Option.ne_none_iff_exists'.mp found
      rw [List.flatten_cons, ← List.append_assoc, find_append found] at quiet
      cases quiet
    have later : forwards calls { conn with clientMessage := conn.clientMessage ++ data } reads = .ok [] :=
      ih (fun data member => some data (List.mem_cons_of_mem _ member)) (by rwa [List.append_assoc])
    rw [forwards, handleClientConnection_eq calls conn (some data List.mem_cons_self)]
    dsimp only
    rw [if_pos more, ok_bind]
    dsimp only
    rw [later]
    rfl

theorem forwards_request (calls : RequestCalls) (q : Request) {conn : Connection} {reads : List Bytes}
    (some : ∀ data ∈ reads, data ≠ []) (any : reads ≠ []) (whole : conn.clientMessage ++ reads.flatten = q.bytes) :
    forwards calls conn reads =
      (handleRequestMessage calls { conn with clientMessage := q.bytes }).map fun result => passedOn result.2 := by
  induction reads generalizing conn with
  | nil => exact absurd rfl any
  | cons data reads ih =>
    rw [List.flatten_cons, ← List.append_assoc] at whole
    rw [forwards, handleClientConnection_eq calls conn (some data List.mem_cons_self)]
    dsimp only
    by_cases last : reads = []
    · subst last
      rw [List.flatten_nil, List.append_nil] at whole
      have ended := q.ends
      rw [whole, if_neg ended]
      cases handleRequestMessage calls { conn with clientMessage := q.bytes } with
      | error stop => rfl
      | ok result => exact congrArg Except.ok (List.append_nil _)
    · have rest : reads.flatten ≠ [] := by
        obtain ⟨next, reads, rfl⟩ := List.exists_cons_of_ne_nil last
        have nonempty := some next (by simp)
        simp [nonempty]
      have more := q.find_blankLine_part whole.symm rest
      have later : forwards calls { conn with clientMessage := conn.clientMessage ++ data } reads =
          (handleRequestMessage calls { conn with clientMessage := q.bytes }).map fun result => passedOn result.2 :=
        ih (fun data member => some data (List.mem_cons_of_mem _ member)) last whole
      rw [if_pos more, ok_bind]
      dsimp only
      rw [later]
      cases handleRequestMessage calls { conn with clientMessage := q.bytes } <;> rfl

theorem AtMostOne.same {conn : Connection} {stream : Bytes} (single : AtMostOne (conn.clientMessage ++ stream))
    (calls : RequestCalls) : SameForwarded calls conn stream := by
  rintro reads reads' ⟨rfl, cut⟩ ⟨same, cut'⟩
  have some : ∀ data ∈ reads, data ≠ [] := fun data member => (cut data member).1
  have some' : ∀ data ∈ reads', data ≠ [] := fun data member => (cut' data member).1
  rcases single with quiet | ⟨q, whole⟩
  · rw [forwards_incomplete calls some quiet, forwards_incomplete calls some' (by rwa [same])]
  · have empty : ∀ {reads : List Bytes}, (∀ data ∈ reads, data ≠ []) → reads.flatten = [] → reads = [] := by
      intro reads some none
      cases reads with
      | nil => rfl
      | cons data reads => exact absurd (List.append_eq_nil_iff.mp none).1 (some data List.mem_cons_self)
    by_cases any : reads = []
    · subst any
      rw [empty some' same]
    · have any' : reads' ≠ [] := by
        rintro rfl
        exact any (empty some same.symm)
      rw [forwards_request calls q some any whole, forwards_request calls q some' any' (by rwa [same])]

/-! ### What goes out -/

def Ended (message : Bytes) : Prop := find blankLine message ≠ none

instance : DecidablePred Ended := fun _ => inferInstanceAs (Decidable (¬ _))

def outgoing (throughput : ℚ) (bitrates : List Int) (message : Bytes) : Bytes :=
  if NamesChunk message then withBitrate message (chooseBitrate throughput bitrates) else message

theorem blankLine_eq : blankLine = [13, 10, 13, 10] := by decide

theorem ended_snoc {message : Bytes} {c : UInt8} (before : ¬ Ended message) (ended : Ended (message ++ [c])) :
    ∃ front, message ++ [c] = front ++ blankLine ∧ find blankLine (message ++ [c]) = some front.length := by
  obtain ⟨i, found⟩ := Option.ne_none_iff_exists'.mp ended
  have fits := find_fits found
  rw [List.length_append, List.length_singleton] at fits
  have outside : ¬ i + blankLine.length ≤ message.length := by
    intro inside
    rw [Ended, find_of_append found inside] at before
    exact before (Option.some_ne_none i)
  obtain ⟨start, within, -⟩ := find_some_iff.mp found
  have behind := start.eq_of_length (by rw [List.length_drop, List.length_append, List.length_singleton]; omega)
  refine ⟨(message ++ [c]).take i, ?_, ?_⟩
  · rw [behind, List.take_append_drop]
  · rw [List.length_take, Nat.min_eq_left within]
    exact found

theorem frontOf_snoc (message : Bytes) : frontOf (message ++ [10]) = frontOf message ∨
    frontOf (message ++ [10]) = frontOf message ++ [10] := by
  have line : (text " HTTP/1.1").getLast? ≠ some 10 := by decide
  unfold frontOf
  rw [find_snoc line]
  unfold stretch
  split
  · exact .inr rfl
  · cases here : find (text " HTTP/1.1") message with
    | none =>
      rename_i whole
      rw [here] at whole
      exact absurd rfl whole
    | some i =>
      rw [List.drop_zero, List.drop_zero]
      exact .inl (List.take_append_of_le_length (find_le here))

theorem rfind_front {pat : Bytes} (other : pat.getLast? ≠ some 10) (some : pat ≠ []) (message : Bytes) :
    rfind pat (frontOf (message ++ [10])) = rfind pat (frontOf message) := by
  rcases frontOf_snoc message with same | more
  · rw [same]
  · rw [more, rfind_snoc other some]

theorem outgoing_line (throughput : ℚ) (bitrates : List Int) (message : Bytes) :
    (outgoing throughput bitrates message).length < (outgoing throughput bitrates (message ++ [10])).length := by
  have path : pathStart (message ++ [10]) = pathStart message :=
    congrArg sizeT (rfind_front (by decide) (by decide) message)
  have seg : segStart (message ++ [10]) = segStart message :=
    congrArg sizeT (rfind_front (by decide) (by decide) message)
  have frag : fragStart (message ++ [10]) = fragStart message :=
    congrArg sizeT (rfind_front (by decide) (by decide) message)
  have same : NamesChunk (message ++ [10]) ↔ NamesChunk message := by
    unfold NamesChunk
    rw [path, seg, frag]
  unfold outgoing
  by_cases names : NamesChunk message
  · rw [if_pos names, if_pos (same.mpr names)]
    have front : ∀ n, (stretch message 0 n).length ≤ (stretch (message ++ [10]) 0 n).length := by
      intro n
      unfold stretch
      split
      · simp
      · simp only [List.drop_zero, List.length_take, List.length_append]
        omega
    have back := names.inside
    have before := front (sizeAdd (pathStart message) 1)
    unfold withBitrate
    rw [path, seg]
    simp only [List.length_append]
    have behind : (stretch (message ++ [10]) (segStart message) npos).length =
        (stretch message (segStart message) npos).length + 1 := by
      unfold stretch
      rw [if_pos rfl, if_pos rfl, List.length_drop, List.length_drop, List.length_append, List.length_singleton]
      omega
    omega
  · rw [if_neg names, if_neg (fun names' => names (same.mp names'))]
    simp

theorem outgoing_last (throughput : ℚ) (bitrates : List Int) {message : Bytes} (some : message ≠ []) :
    (outgoing throughput bitrates message).getLast? = message.getLast? := by
  unfold outgoing
  split
  · rename_i names
    have inside : segStart message < message.length := names.before
    unfold withBitrate stretch
    rw [if_pos rfl, List.getLast?_append, List.getLast?_drop, if_neg (by omega)]
    obtain ⟨c, last⟩ : ∃ c, message.getLast? = .some c := Option.ne_none_iff_exists'.mp (by simpa using some)
    rw [last]
    rfl
  · rfl

theorem delimited (throughput : ℚ) (bitrates : List Int) : Delimited Ended (outgoing throughput bitrates) where
  empty := by decide
  single c := by
    intro ended
    obtain ⟨i, found⟩ := Option.ne_none_iff_exists'.mp ended
    have fits := find_fits found
    have four : blankLine.length = 4 := by decide
    rw [List.length_singleton] at fits
    omega
  append v ended := by
    obtain ⟨i, found⟩ := Option.ne_none_iff_exists'.mp ended
    rw [Ended, find_append found v]
    exact Option.some_ne_none i
  prepend u v ended := by
    intro none
    rw [find_none_iff] at none
    apply ended
    rw [find_none_iff]
    exact fun here => none (here.trans (List.suffix_append u v).isInfix)
  turns := by
    intro message c before ended last
    obtain ⟨front, shape, -⟩ := ended_snoc before ended
    rw [blankLine_eq] at shape
    have split : message ++ [c] = (front ++ [13, 10, 13]) ++ [10] := by simpa using shape
    obtain ⟨rfl, same⟩ := List.append_inj' split rfl
    obtain rfl : c = 10 := by simpa using same
    simp at last
  last := outgoing_last throughput bitrates
  longer := by
    intro message c next before ended equal
    obtain ⟨front, shape, -⟩ := ended_snoc before ended
    by_cases line : next = 10
    · subst line
      have longer := outgoing_line throughput bitrates (message ++ [c])
      rw [equal] at longer
      omega
    · have last := congrArg List.getLast? equal
      rw [outgoing_last throughput bitrates (by simp), outgoing_last throughput bitrates (by simp), shape, blankLine_eq] at last
      simp at last
      exact line last

/-! ### Several requests -/

/-- The system does what the proxy asks of it. -/
structure Willing (calls : RequestCalls) : Prop where
  socket : 0 ≤ calls.socket
  resolved : calls.resolved = true
  connected : calls.connected = true
  sends : Moves calls.sends

theorem Willing.fine {calls : RequestCalls} (willing : Willing calls) (conn : Connection) : ¬ RequestFails calls conn := by
  rintro (⟨-, invalid | unresolved | unconnected⟩ | failed)
  · exact absurd willing.socket (by omega)
  · rw [willing.resolved] at unresolved
    cases unresolved
  · rw [willing.connected] at unconnected
    cases unconnected
  · exact handOver_smooth willing.sends _ failed

theorem Willing.request {calls : RequestCalls} (willing : Willing calls) {conn : Connection}
    (bitrates : conn.availableBitrates ≠ []) : ∃ next actions, handleRequestMessage calls conn = .ok (next, actions) ∧
      passedOn actions = outgoing conn.currentThroughput conn.availableBitrates conn.clientMessage ∧
      next.clientMessage = [] ∧ next.currentThroughput = conn.currentThroughput ∧
      next.availableBitrates = conn.availableBitrates := by
  have listed : ¬ conn.Unlisted := fun unlisted => bitrates unlisted.2
  rcases handleRequestMessage_cases calls listed with ⟨failed, -⟩ | ⟨-, ⟨next, actions⟩, handled⟩
  · exact absurd failed (willing.fine conn)
  obtain ⟨serverSocket, opened, asking, server, here, -, rfl, rfl⟩ := handleRequestMessage_parts handled
  have message := asking.rewritten_message
  have estimate := asking.rewritten_estimate
  have passed : passedOn (opened ++ [.forwarded serverSocket asking.rewritten.clientMessage]) =
      asking.rewritten.clientMessage := by
    cases server <;> exact List.append_nil _
  refine ⟨_, _, handled, ?_, rfl, ?_, ?_⟩
  · rw [passed, message, here]
    rfl
  · exact (congrArg Estimate.throughput estimate).trans (by rw [here]; rfl)
  · exact (congrArg Estimate.bitrates estimate).trans (by rw [here]; rfl)

theorem forwards_flush {calls : RequestCalls} (willing : Willing calls) {conn : Connection}
    (bitrates : conn.availableBitrates ≠ []) {reads : List Bytes} (some : ∀ data ∈ reads, data ≠ []) :
    forwards calls conn reads =
      .ok (flush Ended (outgoing conn.currentThroughput conn.availableBitrates) conn.clientMessage reads) := by
  induction reads generalizing conn with
  | nil => rfl
  | cons data reads ih =>
    have some' : ∀ data ∈ reads, data ≠ [] := fun data member => some data (List.mem_cons_of_mem _ member)
    rw [forwards, handleClientConnection_eq calls conn (some data List.mem_cons_self), flush]
    dsimp only
    by_cases more : find blankLine (conn.clientMessage ++ data) = none
    · have later : forwards calls { conn with clientMessage := conn.clientMessage ++ data } reads = _ := ih bitrates some'
      rw [if_pos more, ok_bind]
      dsimp only
      rw [later, if_neg (fun ended => ended more)]
      rfl
    · have listed : ({ conn with clientMessage := conn.clientMessage ++ data } : Connection).availableBitrates ≠ [] := bitrates
      obtain ⟨next, actions, handled, passed, cleared, throughput, same⟩ := willing.request listed
      have later : forwards calls next reads = _ := ih (by rw [same]; exact bitrates) some'
      rw [if_neg more, handled, ok_bind, ok_bind]
      dsimp only
      rw [later, cleared, throughput, same, if_pos (show Ended (conn.clientMessage ++ data) from more)]
      change Except.ok (passedOn actions ++ _) = _
      rw [passed]

/-- A stream is passed on in the same way however it is cut if it completes at most one request and holds nothing
behind that one. Where the last request that it completes fits into one read, only then. -/
theorem forwarding_cut (calls : RequestCalls) (conn : Connection) (stream : Bytes) :
    (AtMostOne (conn.clientMessage ++ stream) → SameForwarded calls conn stream) ∧
    (Willing calls → conn.availableBitrates ≠ [] → ¬ Ended conn.clientMessage →
      (∀ message ∈ (settle Ended conn.clientMessage stream).1.getLast?, message.length ≤ 1024) →
      (SameForwarded calls conn stream ↔ AtMostOne (conn.clientMessage ++ stream))) := by
  refine ⟨fun single => single.same calls, ?_⟩
  intro willing bitrates start short
  refine ⟨?_, fun single => single.same calls⟩
  intro same
  have flushed : ∀ reads reads', Cut 1024 stream reads → Cut 1024 stream reads' →
      flush Ended (outgoing conn.currentThroughput conn.availableBitrates) conn.clientMessage reads =
        flush Ended (outgoing conn.currentThroughput conn.availableBitrates) conn.clientMessage reads' := by
    intro reads reads' cut cut'
    have equal := same reads reads' cut cut'
    rw [forwards_flush willing bitrates (fun data member => (cut.2 data member).1),
      forwards_flush willing bitrates (fun data member => (cut'.2 data member).1)] at equal
    exact Except.ok.inj equal
  have opened : ∀ before, ¬ Ended (settle Ended conn.clientMessage before).2 := settle_open (by decide) start
  rcases (delimited _ _).at_most_one start flushed (by decide) short with quiet | only
  · have nothing := opened stream
    rw [quiet] at nothing
    exact .inl (not_not.mp nothing)
  · have some : (settle Ended conn.clientMessage stream).1 ≠ [] := by
      rw [only]
      exact List.cons_ne_nil _ []
    obtain ⟨before, c, rest, -, ended, settled⟩ := settle_last some
    rw [only] at settled
    obtain ⟨messages, -⟩ := Prod.mk.inj settled
    have last := congrArg List.getLast? messages
    rw [List.getLast?_concat] at last
    have whole : conn.clientMessage ++ stream = (settle Ended conn.clientMessage before).2 ++ [c] := Option.some.inj last
    obtain ⟨front, shape, found⟩ := ended_snoc (opened before) ended
    rw [whole, shape]
    rw [shape] at found
    exact .inr ⟨⟨front, found⟩, rfl⟩

/-- A request for a chunk in three reads. -/
def chunkPieces : List Bytes := [chunkRequest.take 9, (chunkRequest.drop 9).take 20, chunkRequest.drop 29]

theorem not_atMostOne_two : ¬ AtMostOne (chunkRequest ++ chunkRequest) := by
  rintro (none | ⟨q, whole⟩)
  · revert none
    decide +kernel
  · have found : find blankLine (chunkRequest ++ chunkRequest) = some 30 := by decide +kernel
    have size := congrArg List.length whole
    rw [whole, Request.bytes, q.only] at found
    rw [List.length_append, Request.bytes, List.length_append, Option.some.inj found] at size
    revert size
    decide

/-- One request is passed on in pieces as it is whole, and two of them are not. -/
theorem forwarding_cut_sample :
    forwards { socket := 6 } listed chunkPieces = forwards { socket := 6 } listed [chunkRequest] ∧
      forwards { socket := 6 } listed [chunkRequest] = .ok (withBitrate chunkRequest 10) ∧
      ¬ SameForwarded { socket := 6 } listed (chunkRequest ++ chunkRequest) := by
  have single : AtMostOne (listed.clientMessage ++ chunkRequest) := .inr ⟨⟨chunkRequest.take 30, by decide +kernel⟩, by decide +kernel⟩
  have pieces : Cut 1024 chunkRequest chunkPieces := ⟨by decide, by decide⟩
  have willing : Willing { socket := 6 } := ⟨by decide, rfl, rfl, Moves.nil⟩
  have last : ∀ message ∈ (settle Ended listed.clientMessage (chunkRequest ++ chunkRequest)).1.getLast?,
      message.length ≤ 1024 := by decide +kernel
  refine ⟨(forwarding_cut { socket := 6 } listed chunkRequest).1 single _ _ pieces (Cut.one (by decide) (by decide)), by decide +kernel, ?_⟩
  rw [(forwarding_cut { socket := 6 } listed (chunkRequest ++ chunkRequest)).2 willing (by decide) (by decide) last]
  exact not_atMostOne_two

/-- Of two requests for chunks that arrive together, the second one is passed on as it is. -/
theorem forwarding_depends_on_cut : ¬ ∀ (calls : RequestCalls) (conn : Connection) (stream : Bytes),
    SameForwarded calls conn stream := by
  intro always
  have one : Cut 1024 chunkRequest [chunkRequest] := Cut.one (by decide) (by decide)
  have apart : Cut 1024 (chunkRequest ++ chunkRequest) [chunkRequest, chunkRequest] := one.append one
  have together : Cut 1024 (chunkRequest ++ chunkRequest) [chunkRequest ++ chunkRequest] := Cut.one (by decide) (by decide)
  have same := always {} listed (chunkRequest ++ chunkRequest) _ _ apart together
  revert same
  decide +kernel

end VStream
