import VStream.Dns.Header
import VStream.Dns.Question
import VStream.Dns.Record
import VStream.Net.Socket

/-!
# Messages on a connection

`receive_all` and `send_all` of the two programs. Both receive into a buffer of
257 bytes with one `recv`; they differ in where they put the terminator.
-/

namespace VStream
open Cpp Net

def maxMessageSize : Nat := 256

/-- One `recv` into `char msg[MAX_MESSAGE_SIZE + 1]`, a terminator written at `terminator size`, and
`string(msg, size)`. Touching a byte outside `msg` is undefined. -/
def receiveInto (terminator : UInt32 → UInt32) (s : Sock) (size : UInt32) : Exec (Bytes × Sock) := do
  match ← s.recv size.toNat with
  | (none, _) => .error (.exit 1)
  | (some data, s) =>
    if maxMessageSize + 1 < data.length then .error .undefined
    else if maxMessageSize < (terminator size).toNat then .error .undefined
    else if maxMessageSize + 1 < size.toNat then .error .undefined
    else
      let msg := data ++ List.replicate (maxMessageSize + 1 - data.length) 0
      .ok ((msg.set (terminator size).toNat 0).take size.toNat, s)

/-- A message of at most 255 bytes that `recv` does not cut, or cuts in front of bytes that are zero,
is received as it was sent. -/
theorem receiveInto_padded (terminator : UInt32 → UInt32) {s t : Sock} {size : UInt32} {data : Bytes}
    (read : s.recv size.toNat = .ok (some data, t)) (small : size.toNat ≤ 255)
    (inside : (terminator size).toNat = size.toNat ∨ (terminator size).toNat = size.toNat + 1) :
    receiveInto terminator s size = .ok (data ++ List.replicate (size.toNat - data.length) 0, t) := by
  have short := Sock.recv_length read
  simp only [receiveInto, read, ok_bind]
  unfold maxMessageSize
  rw [if_neg (by omega), if_neg (by omega), if_neg (by omega)]
  have outside : size.toNat ≤ (terminator size).toNat := by omega
  have split : 256 + 1 - data.length = (size.toNat - data.length) + (257 - size.toNat) := by omega
  rw [List.take_set_of_le outside, split, List.replicate_add, ← List.append_assoc, List.take_left' (by simp; omega)]

theorem receiveInto_huge {terminator : UInt32 → UInt32} {s t : Sock} {size : UInt32} {data : Bytes}
    (read : s.recv size.toNat = .ok (some data, t)) (huge : 257 < size.toNat) :
    receiveInto terminator s size = .error .undefined := by
  simp only [receiveInto, read, ok_bind]
  unfold maxMessageSize
  rw [if_pos (show 256 + 1 < size.toNat by omega)]
  split_ifs <;> rfl

/-- A size, by one `recv` that must fill it. -/
def recvSize (s : Sock) : Exec (UInt32 × Sock) := do
  match ← s.recv 4 with
  | (some data, s) => if data.length = 4 then .ok (ntohl data, s) else .error (.exit 1)
  | (none, _) => .error (.exit 1)

namespace Nameserver

def receiveAll : Sock → UInt32 → Exec (Bytes × Sock) := receiveInto (· + 1)

/-- `send_all`: at least one `send`, then until everything is taken. -/
def sendAll (s : Sock) (message : Bytes) : Exec Sock :=
  loop (fun (s, sent) => do
    match ← s.send (message.drop sent) with
    | (none, _) => .error (.exit 1)
    | (some sval, s) =>
      if sent + sval < message.length then .ok (.again (s, sent + sval)) else .ok (.leave s))
    (message.length + 1) (s, 0)

theorem sendAll_ok {s : Sock} (writable : s.Writable) (message : Bytes) :
    ∃ t, sendAll s message = .ok t ∧ s.Sent message t := by
  refine loop_total (fun p => p.2 ≤ message.length ∧ s.Sent (message.take p.2) p.1) (s.Sent message)
    (fun p => message.length - p.2) ?_ ⟨Nat.zero_le _, by simp, writable, rfl, rfl, rfl⟩ (by simp)
  rintro ⟨s', sent⟩ ⟨inside, before⟩
  obtain ⟨k, t, sending, atLeast, atMost, after⟩ := Sock.send_writable before.writable (message.drop sent)
  rw [List.length_drop] at atLeast atMost
  have together : s.Sent (message.take (sent + k)) t := by
    rw [List.take_add]
    exact before.trans after
  dsimp only
  rw [sending, ok_bind]
  dsimp only
  by_cases more : sent + k < message.length
  · exact .inl ⟨(t, sent + k), if_pos more, ⟨more.le, together⟩, by simp only; omega⟩
  · rw [List.take_of_length_le (by omega)] at together
    exact .inr ⟨t, if_neg more, together⟩

theorem sendAll_frame {s : Sock} (writable : s.Writable) (message : Bytes) :
    ∃ t t', s.send (htonl (UInt32.ofNat message.length)) = .ok (some 4, t) ∧ sendAll t message = .ok t' ∧
      s.Sent (frame message) t' := by
  obtain ⟨t, sending, size⟩ := Sock.send_size writable (htonl_length (UInt32.ofNat message.length))
  obtain ⟨t', sentAll, whole⟩ := sendAll_ok size.writable message
  exact ⟨t, t', sending, sentAll, size.trans whole⟩

end Nameserver

namespace MiProxy

def receiveAll : Sock → UInt32 → Exec (Bytes × Sock) := receiveInto id

/-- `send_all`: `send` while bytes are left. -/
def sendAll (s : Sock) (data : Bytes) : Exec Sock :=
  loop (fun (s, total) => do
    if total < data.length then
      match ← s.send (data.drop total) with
      | (none, _) => .error (.thrown (.runtimeError "send failed"))
      | (some taken, s) =>
        if castInt taken < 0 then .error (.thrown (.runtimeError "send failed"))
        else .ok (.again (s, total + (castInt taken).toNat))
    else .ok (.leave s))
    (data.length + 1) (s, 0)

theorem castInt_taken {s t : Sock} {data : Bytes} {k : Nat} (sending : s.send data = .ok (some k, t)) : castInt k = k := by
  have bound := (Sock.send_some sending).1
  apply castInt_of_le
  unfold Sock.sendMax at bound
  unfold intMax
  omega

theorem sendAll_ok {s : Sock} (writable : s.Writable) (data : Bytes) :
    ∃ t, sendAll s data = .ok t ∧ s.Sent data t := by
  refine loop_total (fun p => p.2 ≤ data.length ∧ s.Sent (data.take p.2) p.1) (s.Sent data)
    (fun p => data.length - p.2) ?_ ⟨Nat.zero_le _, by simp, writable, rfl, rfl, rfl⟩ (by simp)
  rintro ⟨s', total⟩ ⟨inside, before⟩
  by_cases more : total < data.length
  · obtain ⟨k, t, sending, atLeast, atMost, after⟩ := Sock.send_writable before.writable (data.drop total)
    rw [List.length_drop] at atLeast atMost
    have taken := castInt_taken sending
    have together : s.Sent (data.take (total + k)) t := by
      rw [List.take_add]
      exact before.trans after
    refine .inl ⟨(t, total + k), ?_, ⟨by dsimp only; omega, together⟩, by dsimp only; omega⟩
    dsimp only
    rw [if_pos more, sending, ok_bind]
    dsimp only
    rw [taken, if_neg (by omega), Int.toNat_natCast]
  · rw [List.take_of_length_le (show data.length ≤ total by omega)] at before
    exact .inr ⟨s', if_neg more, before⟩

theorem sendAll_returns {s : Sock} (moves : Moves s.sends) (data : Bytes) : ∃ t, sendAll s data = .ok t := by
  suffices returns : ∃ t, sendAll s data = .ok t ∧ True from returns.imp fun _ => And.left
  refine loop_total (fun p => Moves p.1.sends) (fun _ => True) (fun p => data.length - p.2) ?_ moves (by simp)
  rintro ⟨s', total⟩ moves'
  by_cases more : total < data.length
  · obtain ⟨k, moved, atLeast, atMost⟩ := moves'.amount (min (data.drop total).length Sock.sendMax)
    have taken : castInt k = k := castInt_of_le (by unfold intMax; unfold Sock.sendMax at atMost; omega)
    rw [List.length_drop] at atLeast
    have some : 1 ≤ k := by unfold Sock.sendMax at atLeast; omega
    refine .inl ⟨({ s' with sends := s'.sends.tail, sent := s'.sent ++ (data.drop total).take k }, total + k), ?_,
      moves'.tail, by dsimp only; omega⟩
    dsimp only
    rw [if_pos more, Sock.send_moved moved, ok_bind]
    dsimp only
    rw [taken, if_neg (by omega), Int.toNat_natCast]
  · exact .inr ⟨s', if_neg more, trivial⟩

end MiProxy

/-! ### The wire format -/

/-- The messages the programs exchange. -/
inductive Encoded : Bytes → Prop where
  | header (header : DNSHeader) : Encoded header.encode
  | question (question : DNSQuestion) : Encoded question.encode
  | record (record : DNSRecord) : Encoded record.encode

theorem encoded_length_le {message : Bytes} (encoded : Encoded message) : message.length ≤ 224 := by
  cases encoded with
  | header header => exact (header.encode_length_le).trans (by decide)
  | question question =>
    have := question.front_length_le
    rw [question.encode_length]; omega
  | record record =>
    have := record.front_length_le
    rw [record.encode_length]; omega

theorem encoded_ne_nil {message : Bytes} (encoded : Encoded message) : message ≠ [] := by
  cases encoded with
  | header header =>
    unfold DNSHeader.encode
    simp only [ne_eq, List.append_eq_nil_iff, decimal_ne_nil, false_and, not_false_eq_true]
  | question question => exact List.ne_nil_of_length_pos (by rw [question.encode_length]; omega)
  | record record => exact List.ne_nil_of_length_pos (by rw [record.encode_length]; omega)

theorem size_toNat {n : Nat} (small : n ≤ 255) : (UInt32.ofNat n).toNat = n :=
  UInt32.toNat_ofNat_of_lt' (Nat.lt_of_le_of_lt small (by decide))

theorem Nameserver.receiveAll_padded {message data : Bytes} (encoded : Encoded message) {s t : Sock}
    (read : s.recv message.length = .ok (some data, t)) :
    receiveAll s (UInt32.ofNat message.length) =
      .ok (data ++ List.replicate (message.length - data.length) 0, t) := by
  have short := encoded_length_le encoded
  have size := size_toNat (n := message.length) (by omega)
  have next : (UInt32.ofNat message.length + 1).toNat = message.length + 1 := by
    rw [UInt32.toNat_add, size, UInt32.toNat_one]; omega
  rw [← size] at read
  have received := receiveInto_padded (· + 1) read (by omega) (.inr (by rw [next, size]))
  rwa [size] at received

theorem MiProxy.receiveAll_padded {message data : Bytes} (encoded : Encoded message) {s t : Sock}
    (read : s.recv message.length = .ok (some data, t)) :
    receiveAll s (UInt32.ofNat message.length) =
      .ok (data ++ List.replicate (message.length - data.length) 0, t) := by
  have short := encoded_length_le encoded
  have size := size_toNat (n := message.length) (by omega)
  rw [← size] at read
  have received := receiveInto_padded id read (by omega) (.inl rfl)
  rwa [size] at received

theorem Nameserver.receiveAll_whole {message : Bytes} (encoded : Encoded message) {s t : Sock}
    (read : s.recv message.length = .ok (some message, t)) :
    receiveAll s (UInt32.ofNat message.length) = .ok (message, t) := by
  simpa using receiveAll_padded encoded read

theorem MiProxy.receiveAll_whole {message : Bytes} (encoded : Encoded message) {s t : Sock}
    (read : s.recv message.length = .ok (some message, t)) :
    receiveAll s (UInt32.ofNat message.length) = .ok (message, t) := by
  simpa using receiveAll_padded encoded read

theorem recvSize_whole {s : Sock} {n : UInt32} {rest : Bytes} (here : s.incoming = htonl n ++ rest)
    (ready : s.recvs = []) : recvSize s = .ok (n, { s with incoming := rest }) := by
  have read := s.recv_exact (htonl n) rest here ready
  rw [htonl_length] at read
  simp [recvSize, read, ntohl_htonl]

/-- Decoding inverts encoding, and a message that is delivered whole is received as it was sent. -/
theorem wire_format :
    (∀ u header, DNSHeader.decode u (DNSHeader.encode header) = header) ∧
    (∀ u question, DNSQuestion.decode u (DNSQuestion.encode question) = .ok question) ∧
    (∀ u record, DNSRecord.decode u (DNSRecord.encode record) = .ok record) ∧
    ∀ message, Encoded message → message.length ≤ 255 ∧
      ∀ s t : Sock, s.recv message.length = .ok (some message, t) →
        Nameserver.receiveAll s (UInt32.ofNat message.length) = .ok (message, t) ∧
        MiProxy.receiveAll s (UInt32.ofNat message.length) = .ok (message, t) := by
  refine ⟨DNSHeader.decode_encode, DNSQuestion.decode_encode, DNSRecord.decode_encode, ?_⟩
  intro message encoded
  have short := encoded_length_le encoded
  exact ⟨by omega, fun s t read => ⟨Nameserver.receiveAll_whole encoded read, MiProxy.receiveAll_whole encoded read⟩⟩

end VStream
