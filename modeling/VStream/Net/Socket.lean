import VStream.Cpp.Outcome
import VStream.Cpp.Text

/-!
# Stream sockets

A socket holds what its peer will have written by the time it closes. A
schedule says for each call how much of what could be moved is moved, or that
the peer is gone or does nothing; calls past its end move everything.
-/

namespace VStream.Net
open Cpp

/-- What one `recv` or `send` does. -/
inductive Transfer where
  | error
  | upTo (k : Nat)
  /-- The peer is gone: a `recv` returns -1, and a `send` raises SIGPIPE, which neither program handles. -/
  | broken
  /-- The peer neither moves a byte nor closes, and the call does not return. -/
  | blocked
  deriving DecidableEq, Repr

/-- The bytes moved of `offered` ones: at least one, unless none is offered. -/
def amount (offered : Nat) : Option Transfer → Option Nat
  | none => some offered
  | some (.upTo k) => some (min offered (max 1 k))
  | some _ => none

theorem amount_le {offered k : Nat} {t : Option Transfer} (moved : amount offered t = some k) : k ≤ offered := by
  unfold amount at moved
  split at moved
  · exact (Option.some.inj moved).ge
  · obtain rfl := Option.some.inj moved; exact Nat.min_le_left _ _
  · cases moved

structure Sock where
  incoming : Bytes
  recvs : List Transfer := []
  sends : List Transfer := []
  sent : Bytes := []
  closed : Bool := false
  deriving DecidableEq

namespace Sock

/-- `recv(s, buffer, n, 0)`: the bytes read, none at the end of the stream. `none` is the return value -1. -/
def recv (s : Sock) (n : Nat) : Exec (Option Bytes × Sock) :=
  if s.recvs.head? = some .blocked then .error .blocked
  else
    match amount (min n s.incoming.length) s.recvs.head? with
    | none => .ok (none, { s with recvs := s.recvs.tail })
    | some k => .ok (some (s.incoming.take k), { s with incoming := s.incoming.drop k, recvs := s.recvs.tail })

/-- No call takes more. -/
def sendMax : Nat := 2 ^ 31 - 1

/-- `send(s, data, size, 0)`: the number of bytes taken, or `none` for the return value -1. -/
def send (s : Sock) (data : Bytes) : Exec (Option Nat × Sock) :=
  if s.sends.head? = some .broken then .error .killed
  else if s.sends.head? = some .blocked then .error .blocked
  else
    match amount (min data.length sendMax) s.sends.head? with
    | none => .ok (none, { s with sends := s.sends.tail })
    | some k => .ok (some k, { s with sends := s.sends.tail, sent := s.sent ++ data.take k })

/-! ### One call -/

theorem recv_moved {s : Sock} {n k : Nat} (moved : amount (min n s.incoming.length) s.recvs.head? = some k) :
    s.recv n = .ok (some (s.incoming.take k), { s with incoming := s.incoming.drop k, recvs := s.recvs.tail }) := by
  rw [recv, if_neg (fun stuck => by rw [stuck] at moved; cases moved), moved]

theorem recv_some {s t : Sock} {n : Nat} {data : Bytes} (read : s.recv n = .ok (some data, t)) :
    ∃ k, amount (min n s.incoming.length) s.recvs.head? = some k ∧ data = s.incoming.take k ∧
      t = { s with incoming := s.incoming.drop k, recvs := s.recvs.tail } := by
  unfold recv at read
  split at read
  · cases read
  · split at read
    · cases read
    · rename_i k moved
      cases read
      exact ⟨k, moved, rfl, rfl⟩

/-- A `recv` does not come back. -/
def Hangs (recvs : List Transfer) (stop : Stop) : Prop := stop = .blocked ∧ .blocked ∈ recvs

theorem recv_stops {s : Sock} {n : Nat} {stop : Stop} (stopped : s.recv n = .error stop) : Hangs s.recvs stop := by
  unfold recv at stopped
  split at stopped
  · rename_i stuck
    exact ⟨(Except.error.inj stopped).symm, List.mem_of_head? stuck⟩
  · split at stopped <;> cases stopped

theorem recv_length {s t : Sock} {n : Nat} {data : Bytes} (read : s.recv n = .ok (some data, t)) : data.length ≤ n := by
  obtain ⟨k, moved, rfl, -⟩ := recv_some read
  have bound := amount_le moved
  rw [List.length_take]
  omega

theorem recv_takes {s t : Sock} {n : Nat} {data : Bytes} (sends : List Transfer) (read : s.recv n = .ok (some data, t)) :
    ({ s with sends } : Sock).recv n = .ok (some data, { t with sends }) := by
  obtain ⟨k, moved, rfl, rfl⟩ := recv_some read
  exact recv_moved moved

theorem send_moved {s : Sock} {data : Bytes} {k : Nat} (moved : amount (min data.length sendMax) s.sends.head? = some k) :
    s.send data = .ok (some k, { s with sends := s.sends.tail, sent := s.sent ++ data.take k }) := by
  rw [send, if_neg (fun broken => by rw [broken] at moved; cases moved),
    if_neg (fun stuck => by rw [stuck] at moved; cases moved), moved]

theorem send_inv {s t : Sock} {data : Bytes} {k : Nat} (sending : s.send data = .ok (some k, t)) :
    amount (min data.length sendMax) s.sends.head? = some k ∧
      t = { s with sends := s.sends.tail, sent := s.sent ++ data.take k } := by
  unfold send at sending
  split at sending
  · cases sending
  · split at sending
    · cases sending
    · split at sending
      · cases sending
      · rename_i moved
        cases sending
        exact ⟨moved, rfl⟩

/-- A size. -/
theorem send_four {s : Sock} {data : Bytes} {k : Nat} (four : data.length = 4) : amount 4 s.sends.head? = some k ↔
    s.send data = .ok (some k, { s with sends := s.sends.tail, sent := s.sent ++ data.take k }) := by
  have offered : min data.length sendMax = 4 := by rw [four]; rfl
  rw [← offered]
  exact ⟨send_moved, fun sending => (send_inv sending).1⟩

theorem send_some {s t : Sock} {data : Bytes} {k : Nat} (sending : s.send data = .ok (some k, t)) :
    k ≤ min data.length sendMax ∧ t.sent = s.sent ++ data.take k := by
  obtain ⟨moved, rfl⟩ := send_inv sending
  exact ⟨amount_le moved, rfl⟩

theorem send_none {s t : Sock} {data : Bytes} (sending : s.send data = .ok (none, t)) : t.sent = s.sent := by
  unfold send at sending
  split at sending
  · cases sending
  · split at sending
    · cases sending
    · split at sending
      · cases sending
        rfl
      · cases sending

theorem send_refused {s t : Sock} {data : Bytes} (sending : s.send data = .ok (none, t)) :
    s.sends.head? = some .error := by
  unfold send at sending
  split at sending
  · cases sending
  split at sending
  · cases sending
  · rename_i whole goes
    cases head : s.sends.head? with
    | none => rw [head] at sending; cases sending
    | some turn =>
      rw [head] at sending whole goes
      cases turn with
      | error => rfl
      | upTo k => cases sending
      | broken => exact absurd rfl whole
      | blocked => exact absurd rfl goes

/-- A `send` ends the process by a signal, or does not come back. -/
def Lost (sends : List Transfer) (stop : Stop) : Prop :=
  stop = .killed ∧ .broken ∈ sends ∨ stop = .blocked ∧ .blocked ∈ sends

theorem Lost.mono {sends sends' : List Transfer} {stop : Stop} (lost : Lost sends stop) (among : sends ⊆ sends') :
    Lost sends' stop :=
  lost.imp (fun h => ⟨h.1, among h.2⟩) fun h => ⟨h.1, among h.2⟩

/-- The peer is gone when something is sent to it, or a call waits for it for ever. -/
def Deserted (s : Sock) (stop : Stop) : Prop := Hangs s.recvs stop ∨ Lost s.sends stop

theorem send_error {s : Sock} {data : Bytes} {stop : Stop} (stopped : s.send data = .error stop) : ∃ rest,
    s.sends = .broken :: rest ∧ stop = .killed ∨ s.sends = .blocked :: rest ∧ stop = .blocked := by
  unfold send at stopped
  split at stopped
  · rename_i broken
    obtain ⟨rest, shape⟩ := List.head?_eq_some_iff.mp broken
    exact ⟨rest, .inl ⟨shape, (Except.error.inj stopped).symm⟩⟩
  · split at stopped
    · rename_i stuck
      obtain ⟨rest, shape⟩ := List.head?_eq_some_iff.mp stuck
      exact ⟨rest, .inr ⟨shape, (Except.error.inj stopped).symm⟩⟩
    · split at stopped <;> cases stopped

theorem send_stops {s : Sock} {data : Bytes} {stop : Stop} (stopped : s.send data = .error stop) : Lost s.sends stop := by
  obtain ⟨rest, ⟨shape, rfl⟩ | ⟨shape, rfl⟩⟩ := send_error stopped
  · exact .inl ⟨rfl, by simp [shape]⟩
  · exact .inr ⟨rfl, by simp [shape]⟩

theorem send_returns {s : Sock} {data : Bytes} : (∃ result, s.send data = .ok result) ↔
    s.sends.head? ≠ some .broken ∧ s.sends.head? ≠ some .blocked := by
  unfold send
  by_cases broken : s.sends.head? = some .broken
  · rw [if_pos broken]
    exact iff_of_false (by rintro ⟨result, h⟩; cases h) fun h => h.1 broken
  · by_cases stuck : s.sends.head? = some .blocked
    · rw [if_neg broken, if_pos stuck]
      exact iff_of_false (by rintro ⟨result, h⟩; cases h) fun h => h.2 stuck
    · rw [if_neg broken, if_neg stuck]
      refine iff_of_true ?_ ⟨broken, stuck⟩
      split <;> exact ⟨_, rfl⟩

theorem send_frame {s t : Sock} {data : Bytes} {taken : Option Nat} (sending : s.send data = .ok (taken, t)) :
    t = { s with sends := s.sends.tail, sent := t.sent } := by
  unfold send at sending
  split at sending
  · cases sending
  · split at sending
    · cases sending
    · split at sending <;> cases sending <;> rfl

theorem send_schedule {s t : Sock} {data : Bytes} {taken : Option Nat} (sending : s.send data = .ok (taken, t)) :
    t.sends = s.sends.tail := by
  rw [send_frame sending]

theorem send_pos {s t : Sock} {data : Bytes} {k : Nat} (sending : s.send data = .ok (some k, t))
    (some : 0 < data.length) : 0 < k := by
  obtain ⟨moved, -⟩ := send_inv sending
  have offered : 0 < min data.length sendMax := by unfold sendMax; omega
  unfold amount at moved
  split at moved
  · rw [← Option.some.inj moved]; exact offered
  · rw [← Option.some.inj moved]; omega
  · cases moved

def close (s : Sock) : Sock := { s with closed := true }

/-- The same socket when every `recv` delivers all that it asks for. -/
def whole (s : Sock) : Sock := { s with recvs := [] }

end Sock

/-! ### Calls that succeed -/

/-- Every call moves something. -/
def Moves (schedule : List Transfer) : Prop := ∀ t ∈ schedule, ∃ k, t = .upTo k

theorem Moves.nil : Moves [] := fun _ => List.not_mem_nil.elim

theorem Moves.tail {schedule : List Transfer} (moves : Moves schedule) : Moves schedule.tail :=
  fun t member => moves t (List.mem_of_mem_tail member)

theorem Moves.amount {schedule : List Transfer} (moves : Moves schedule) (n : Nat) :
    ∃ k, Net.amount n schedule.head? = some k ∧ min 1 n ≤ k ∧ k ≤ n := by
  cases schedule with
  | nil => exact ⟨n, rfl, Nat.min_le_right _ _, le_rfl⟩
  | cons first rest =>
    obtain ⟨k, rfl⟩ := moves first List.mem_cons_self
    exact ⟨min n (max 1 k), rfl, by omega, Nat.min_le_left _ _⟩

namespace Sock

/-- No `recv` fails. -/
def Smooth (s : Sock) : Prop := Moves s.recvs

theorem Smooth.amount {s : Sock} (smooth : s.Smooth) (n : Nat) :
    ∃ k, Net.amount n s.recvs.head? = some k ∧ min 1 n ≤ k ∧ k ≤ n :=
  Moves.amount smooth n

theorem Smooth.recv {s : Sock} (smooth : s.Smooth) (n : Nat) : ∃ data t, s.recv n = .ok (some data, t) := by
  obtain ⟨k, moved, -⟩ := smooth.amount (min n s.incoming.length)
  exact ⟨_, _, recv_moved moved⟩

theorem recv_cut {s : Sock} {data rest : Bytes} {k : Nat} (here : s.incoming = data ++ rest)
    (moved : Net.amount data.length s.recvs.head? = some k) (inside : k ≤ data.length) :
    s.recv data.length = .ok (some (data.take k), { s with incoming := data.drop k ++ rest, recvs := s.recvs.tail }) := by
  have offered : min data.length s.incoming.length = data.length := by
    rw [here, List.length_append]; omega
  rw [← offered] at moved
  rw [recv_moved moved, here]
  simp only [List.take_append_of_le_length inside, List.drop_append_of_le_length inside]

/-- Every `send` takes four bytes or more, or all that it is given. -/
def Writable (s : Sock) : Prop := ∀ t ∈ s.sends, ∃ k, 4 ≤ k ∧ t = .upTo k

/-- `t` is `s` after `data` has been sent. -/
structure Sent (s : Sock) (data : Bytes) (t : Sock) : Prop where
  sent : t.sent = s.sent ++ data
  writable : t.Writable
  incoming : t.incoming = s.incoming
  recvs : t.recvs = s.recvs
  closed : t.closed = s.closed

theorem Sent.trans {s t u : Sock} {first second : Bytes} (before : Sent s first t) (after : Sent t second u) :
    Sent s (first ++ second) u where
  sent := by rw [after.sent, before.sent, List.append_assoc]
  writable := after.writable
  incoming := after.incoming.trans before.incoming
  recvs := after.recvs.trans before.recvs
  closed := after.closed.trans before.closed

theorem Writable.amount {s : Sock} (writable : s.Writable) (n : Nat) :
    ∃ k, amount n s.sends.head? = some k ∧ min n 4 ≤ k ∧ k ≤ n := by
  cases schedule : s.sends with
  | nil => exact ⟨n, rfl, Nat.min_le_left _ _, le_rfl⟩
  | cons first rest =>
    obtain ⟨k, most, rfl⟩ := writable first (by simp [schedule])
    exact ⟨min n (max 1 k), rfl, by omega, Nat.min_le_left _ _⟩

theorem send_writable {s : Sock} (writable : s.Writable) (data : Bytes) :
    ∃ k t, s.send data = .ok (some k, t) ∧ min data.length 4 ≤ k ∧ k ≤ min data.length sendMax ∧
      Sent s (data.take k) t := by
  obtain ⟨k, moved, atLeast, atMost⟩ := writable.amount (min data.length sendMax)
  refine ⟨k, { s with sends := s.sends.tail, sent := s.sent ++ data.take k }, send_moved moved, ?_, atMost,
    rfl, fun t member => writable t (List.mem_of_mem_tail member), rfl, rfl, rfl⟩
  unfold sendMax at atLeast
  omega

theorem send_size {s : Sock} (writable : s.Writable) {data : Bytes} (size : data.length = 4) :
    ∃ t, s.send data = .ok (some 4, t) ∧ Sent s data t := by
  obtain ⟨k, t, sending, atLeast, atMost, sent⟩ := send_writable writable data
  obtain rfl : k = 4 := by omega
  rw [List.take_of_length_le (by omega)] at sent
  exact ⟨t, sending, sent⟩

theorem recv_exact (s : Sock) (data rest : Bytes) (here : s.incoming = data ++ rest) (ready : s.recvs = []) :
    s.recv data.length = .ok (some data, { s with incoming := rest }) := by
  obtain ⟨_, _, _, _⟩ := s
  obtain rfl : _ = data ++ rest := here
  obtain rfl : _ = [] := ready
  simp [recv, Net.amount]

theorem recv_append (s : Sock) (data rest : Bytes) (ready : s.recvs = []) :
    ({ s with incoming := data ++ rest } : Sock).recv data.length = .ok (some data, { s with incoming := rest }) :=
  recv_exact _ data rest rfl ready

end Sock

/-! ### Sizes on the wire -/

def htonl (n : UInt32) : Bytes := [n.toNat / 2 ^ 24, n.toNat / 2 ^ 16, n.toNat / 2 ^ 8, n.toNat].map Nat.toUInt8

def ntohl (bytes : Bytes) : UInt32 := (bytes.foldl (fun (v : Nat) (c : UInt8) => 256 * v + c.toNat) 0).toUInt32

theorem ntohl_htonl (n : UInt32) : ntohl (htonl n) = n := by
  have bound := n.toNat_lt
  have byte : ∀ m : Nat, m.toUInt8.toNat = m % 256 := fun m => UInt8.toNat_ofNat
  apply UInt32.toNat_inj.mp
  simp only [ntohl, htonl, List.map_cons, List.map_nil, List.foldl_cons, List.foldl_nil, byte,
    Nat.toUInt32_eq, UInt32.toNat_ofNat']
  omega

theorem ntohl_huge {c : UInt8} {bytes : Bytes} (printable : 32 ≤ c) (four : bytes.length = 3) :
    257 < (ntohl (c :: bytes)).toNat := by
  match bytes, four with
  | [d, e, f], _ =>
    have bound := c.toNat_lt
    have := d.toNat_lt
    have := e.toNat_lt
    have := f.toNat_lt
    have : 32 ≤ c.toNat := UInt8.le_iff_toNat_le.mp printable
    simp only [ntohl, List.foldl_cons, List.foldl_nil, Nat.toUInt32_eq, UInt32.toNat_ofNat']
    omega

@[simp] theorem htonl_length (n : UInt32) : (htonl n).length = 4 := rfl

/-- `memset(&v, 0, 4)` followed by a `recv` of these bytes into `v`. -/
def fill (bytes : Bytes) : Bytes := bytes ++ List.replicate (4 - bytes.length) 0

theorem fill_take_htonl {n : UInt32} (small : n.toNat < 256) {k : Nat} (short : k < 4) :
    ntohl (fill ((htonl n).take k)) = 0 := by
  have bytes : htonl n = [0, 0, 0, n.toNat.toUInt8] := by
    simp only [htonl, List.map_cons, List.map_nil]
    rw [Nat.div_eq_of_lt (by omega), Nat.div_eq_of_lt (by omega), Nat.div_eq_of_lt (by omega)]
    rfl
  rw [bytes]
  match k, short with
  | 0, _ => rfl
  | 1, _ => rfl
  | 2, _ => rfl
  | 3, _ => rfl

def frame (message : Bytes) : Bytes := htonl (UInt32.ofNat message.length) ++ message

end VStream.Net
