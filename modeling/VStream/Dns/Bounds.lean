import VStream.Dns.Transport

/-!
# Accesses in bounds

The sizes on the wire are not checked, and the decoders copy a fixed number of
bytes from behind the first colon. Here is which messages keep every access
inside its buffer.
-/

namespace VStream
open Cpp Net

/-- Every access stays inside its buffer. -/
def InBounds {α : Type} (run : Exec α) : Prop := run ≠ .error .undefined

/-- `string(msg, size)` after `data` was received into the zeros of `msg`. -/
def received (size : UInt32) (data : Bytes) : Bytes := data ++ List.replicate (size.toNat - data.length) 0

/-- The bytes that are copied from: those behind the first colon, all where there is none. -/
def behindColon (message : Bytes) : Bytes :=
  match find (text ":") message with
  | none => message
  | some pos => message.drop (pos + 1)

/-- The bytes that are copied, counted from behind the colon; the last may be the terminator. -/
def field (start : Nat) (message : Bytes) : Bytes := ((behindColon message ++ [0]).drop start).take 100

/-- All 100 bytes of the field are there, and one of them is zero. -/
def FieldFits (start : Nat) (message : Bytes) : Prop :=
  start + 99 ≤ (behindColon message).length ∧ 0 ∈ field start message

theorem inBounds_ok {α : Type} (a : α) : InBounds (.ok a : Exec α) := by
  intro h
  cases h

theorem not_inBounds {α : Type} : ¬InBounds (.error .undefined : Exec α) := fun h => h rfl

/-! ### Receiving -/

theorem received_length {size : UInt32} {data : Bytes} (short : data.length ≤ size.toNat) :
    (received size data).length = size.toNat := by
  rw [received, List.length_append, List.length_replicate]
  omega

theorem receiveInto_eq {terminator : UInt32 → UInt32} {s t : Sock} {size : UInt32} {data : Bytes}
    (read : s.recv size.toNat = .ok (some data, t)) (outside : size.toNat ≤ (terminator size).toNat) :
    receiveInto terminator s size =
      if (terminator size).toNat ≤ maxMessageSize then .ok (received size data, t) else .error .undefined := by
  have short := Sock.recv_length read
  simp only [receiveInto, read, ok_bind]
  unfold maxMessageSize
  by_cases inside : (terminator size).toNat ≤ 256
  · rw [if_neg (by omega), if_neg (by omega), if_neg (by omega), if_pos inside]
    have split : 256 + 1 - data.length = (size.toNat - data.length) + (257 - size.toNat) := by omega
    rw [List.take_set_of_le outside, split, List.replicate_add, ← List.append_assoc, List.take_left' (by simp; omega)]
    rfl
  · rw [if_pos (show 256 < (terminator size).toNat by omega), if_neg inside, ite_self]

theorem Nameserver.receiveAll_eq {s t : Sock} {size : UInt32} {data : Bytes}
    (read : s.recv size.toNat = .ok (some data, t)) :
    receiveAll s size = if size.toNat ≤ 255 then .ok (received size data, t) else .error .undefined := by
  have bound := size.toNat_lt
  by_cases last : size.toNat = 2 ^ 32 - 1
  · -- the index of the terminator wraps to zero, but the string is still read past the buffer
    rw [if_neg (by omega)]
    exact receiveInto_huge read (by omega)
  · have next : (size + 1).toNat = size.toNat + 1 := by
      rw [UInt32.toNat_add, UInt32.toNat_one]
      omega
    rw [receiveAll, receiveInto_eq read (by rw [next]; omega), next]
    unfold maxMessageSize
    by_cases small : size.toNat ≤ 255
    · rw [if_pos (by omega), if_pos small]
    · rw [if_neg (by omega), if_neg small]

theorem MiProxy.receiveAll_eq {s t : Sock} {size : UInt32} {data : Bytes}
    (read : s.recv size.toNat = .ok (some data, t)) :
    receiveAll s size = if size.toNat ≤ 256 then .ok (received size data, t) else .error .undefined :=
  receiveInto_eq read le_rfl

/-! ### Decoding -/

theorem memcpy_behindColon (n k : Nat) {message : Bytes} (short : (message.length : Int) ≤ intMax) {offset : Int}
    (here : offset = castInt (sizeT (find (text ":") message)) + 1 + k) :
    CharArray.memcpy n message offset = CharArray.memcpy n (behindColon message) k := by
  rw [here]
  unfold behindColon
  cases found : find (text ":") message with
  | none =>
    have start : castInt (sizeT none) + 1 = 0 := by decide
    rw [start, zero_add]
  | some pos =>
    have inside := find_fits found
    rw [text_colon, List.length_singleton] at inside
    have index : castInt (sizeT (some pos)) = pos := castInt_of_le (by rw [sizeT, Option.getD_some]; omega)
    have offset : ((pos : Int) + 1 + k).toNat = pos + 1 + k := by omega
    rw [index]
    unfold CharArray.memcpy
    simp only [offset, Int.toNat_natCast, List.length_drop]
    by_cases fits : k + n ≤ message.length - (pos + 1) + 1
    · rw [dif_pos ⟨by omega, by omega⟩, dif_pos ⟨by omega, fits⟩]
      refine congrArg Except.ok (List.Vector.eq _ _ ?_)
      change ((message ++ [0]).drop (pos + 1 + k)).take n = ((message.drop (pos + 1) ++ [0]).drop k).take n
      rw [← List.drop_append_of_le_length inside, List.drop_drop]
    · rw [dif_neg (by omega), dif_neg (by omega)]

theorem memcpy_ok {n k : Nat} {s : Bytes} (fits : k + n ≤ s.length + 1) :
    ∃ a, CharArray.memcpy n s k = .ok a ∧ a.toList = ((s ++ [0]).drop k).take n := by
  unfold CharArray.memcpy
  rw [dif_pos ⟨by omega, by omega⟩]
  exact ⟨_, rfl, rfl⟩

theorem memcpy_past {n k : Nat} {s : Bytes} (past : ¬k + n ≤ s.length + 1) :
    CharArray.memcpy n s k = .error .undefined := by
  unfold CharArray.memcpy
  rw [dif_neg (by omega)]

theorem cString_inBounds {n : Nat} (a : CharArray n) : InBounds a.cString ↔ 0 ∈ a.toList := by
  unfold CharArray.cString
  split
  · rename_i terminated
    exact iff_of_true (inBounds_ok _) terminated
  · rename_i endless
    exact iff_of_false not_inBounds endless

theorem DNSQuestion.decode_eq (u : DNSQuestion) {message : Bytes} (short : (message.length : Int) ≤ intMax) :
    decode u message = CharArray.memcpy 100 (behindColon message) (0 : Nat) >>= fun QNAME =>
      .ok { QNAME, QTYPE := (fields u (.of message)).1.1, QCLASS := (fields u (.of message)).1.2 } := by
  have name : CharArray.memcpy 100 message (castInt (sizeT (find (text ":") message)) + 1) =
      CharArray.memcpy 100 (behindColon message) (0 : Nat) := memcpy_behindColon 100 0 short (by simp)
  unfold decode
  dsimp only
  rw [name]
  rfl

theorem DNSQuestion.decode_inBounds (u : DNSQuestion) {message : Bytes} (short : (message.length : Int) ≤ intMax) :
    InBounds (decode u message) ↔ 99 ≤ (behindColon message).length := by
  rw [decode_eq u short]
  by_cases fits : 0 + 100 ≤ (behindColon message).length + 1
  · obtain ⟨QNAME, copied, -⟩ := memcpy_ok fits
    rw [copied]
    exact iff_of_true (inBounds_ok _) (by omega)
  · rw [memcpy_past fits]
    exact iff_of_false not_inBounds (by omega)

theorem DNSQuestion.decode_name (u : DNSQuestion) {message : Bytes} (short : (message.length : Int) ≤ intMax)
    (fits : FieldFits 0 message) : ∃ question, decode u message = .ok question ∧
      question.QNAME.cString = .ok ((field 0 message).takeWhile (· ≠ 0)) := by
  obtain ⟨QNAME, copied, bytes⟩ := memcpy_ok (show 0 + 100 ≤ (behindColon message).length + 1 by have := fits.1; omega)
  have terminated : 0 ∈ QNAME.toList := by
    rw [bytes]
    exact fits.2
  refine ⟨_, by rw [decode_eq u short, copied]; rfl, ?_⟩
  rw [CharArray.cString, if_pos terminated, bytes]
  rfl

theorem DNSQuestion.name_inBounds (u : DNSQuestion) {message : Bytes} (short : (message.length : Int) ≤ intMax) :
    InBounds (decode u message >>= fun question => question.QNAME.cString) ↔ FieldFits 0 message := by
  rw [decode_eq u short, FieldFits]
  by_cases fits : 0 + 100 ≤ (behindColon message).length + 1
  · obtain ⟨QNAME, copied, bytes⟩ := memcpy_ok fits
    rw [copied, ok_bind, ok_bind, cString_inBounds, bytes]
    exact (and_iff_right (by omega)).symm
  · rw [memcpy_past fits]
    exact iff_of_false not_inBounds fun whole => fits (by omega)

theorem DNSRecord.decode_eq (u : DNSRecord) {message : Bytes} (short : (message.length : Int) ≤ intMax) :
    decode u message = CharArray.memcpy 100 (behindColon message) (0 : Nat) >>= fun NAME =>
      CharArray.memcpy 100 (behindColon message) (100 : Nat) >>= fun RDATA =>
        let (TYPE, CLASS, TTL, RDLENGTH) := (fields u (.of message)).1
        .ok { NAME, TYPE, CLASS, TTL, RDLENGTH, RDATA } := by
  have name : CharArray.memcpy 100 message (castInt (sizeT (find (text ":") message)) + 1) =
      CharArray.memcpy 100 (behindColon message) (0 : Nat) := memcpy_behindColon 100 0 short (by simp)
  have data : CharArray.memcpy 100 message (castInt (sizeT (find (text ":") message)) + 101) =
      CharArray.memcpy 100 (behindColon message) (100 : Nat) := memcpy_behindColon 100 100 short (by push_cast; ring)
  unfold decode
  dsimp only
  rw [name, data]
  rfl

theorem DNSRecord.decode_past (u : DNSRecord) {message : Bytes} (short : (message.length : Int) ≤ intMax)
    (past : (behindColon message).length < 199) : decode u message = .error .undefined := by
  rw [decode_eq u short]
  by_cases name : 0 + 100 ≤ (behindColon message).length + 1
  · obtain ⟨NAME, copied, -⟩ := memcpy_ok name
    rw [copied, ok_bind, memcpy_past (by omega)]
    rfl
  · rw [memcpy_past name]
    rfl

theorem DNSRecord.decode_inBounds (u : DNSRecord) {message : Bytes} (short : (message.length : Int) ≤ intMax) :
    InBounds (decode u message) ↔ 199 ≤ (behindColon message).length := by
  rcases Nat.lt_or_ge (behindColon message).length 199 with past | fits
  · rw [decode_past u short past]
    exact iff_of_false not_inBounds (by omega)
  · obtain ⟨NAME, copiedName, -⟩ := memcpy_ok (show 0 + 100 ≤ (behindColon message).length + 1 by omega)
    obtain ⟨RDATA, copiedData, -⟩ := memcpy_ok (show 100 + 100 ≤ (behindColon message).length + 1 by omega)
    rw [decode_eq u short, copiedName, ok_bind, copiedData]
    exact iff_of_true (inBounds_ok _) fits

theorem DNSRecord.data_inBounds (u : DNSRecord) {message : Bytes} (short : (message.length : Int) ≤ intMax) :
    InBounds (decode u message >>= fun record => record.RDATA.cString) ↔ FieldFits 100 message := by
  rw [FieldFits]
  rcases Nat.lt_or_ge (behindColon message).length 199 with past | fits
  · rw [decode_past u short past]
    exact iff_of_false not_inBounds fun whole => by omega
  · obtain ⟨NAME, copiedName, -⟩ := memcpy_ok (show 0 + 100 ≤ (behindColon message).length + 1 by omega)
    obtain ⟨RDATA, copiedData, bytes⟩ := memcpy_ok (show 100 + 100 ≤ (behindColon message).length + 1 by omega)
    rw [decode_eq u short, copiedName, ok_bind, copiedData, ok_bind]
    apply Iff.trans (cString_inBounds RDATA)
    rw [bytes]
    exact (and_iff_right fits).symm

/-! ### The receive path -/

section peers
variable {s t : Sock} {size : UInt32} {data : Bytes}

theorem receive_inBounds {α : Type} (next : Bytes → Exec α) {limit : Nat} {receive : Exec (Bytes × Sock)} {fits : Prop}
    (received_eq : receive = if size.toNat ≤ limit then .ok (received size data, t) else .error .undefined)
    (inside : size.toNat ≤ limit → (InBounds (next (received size data)) ↔ fits)) :
    InBounds (receive >>= fun message => next message.1) ↔ size.toNat ≤ limit ∧ fits := by
  rw [received_eq]
  by_cases small : size.toNat ≤ limit
  · rw [if_pos small, ok_bind, inside small]
    exact (and_iff_right small).symm
  · rw [if_neg small]
    exact iff_of_false not_inBounds fun both => small both.1

theorem received_short (short : data.length ≤ size.toNat) (small : size.toNat ≤ 256) :
    ((received size data).length : Int) ≤ intMax := by
  rw [received_length short]
  unfold intMax
  omega

/-- What a peer must announce and deliver for every access of the receive path to stay in bounds. -/
theorem receive_bounds (delivered : s.recv size.toNat = .ok (some data, t)) :
    (InBounds (Nameserver.receiveAll s size) ↔ size.toNat ≤ 255) ∧
    (InBounds (MiProxy.receiveAll s size) ↔ size.toNat ≤ 256) ∧
    (∀ u, InBounds (Nameserver.receiveAll s size >>= fun message => DNSQuestion.decode u message.1) ↔
      size.toNat ≤ 255 ∧ 99 ≤ (behindColon (received size data)).length) ∧
    (∀ u, InBounds (MiProxy.receiveAll s size >>= fun message => DNSRecord.decode u message.1) ↔
      size.toNat ≤ 256 ∧ 199 ≤ (behindColon (received size data)).length) ∧
    (∀ u, InBounds (Nameserver.receiveAll s size >>= fun message =>
        DNSQuestion.decode u message.1 >>= fun question => question.QNAME.cString) ↔
      size.toNat ≤ 255 ∧ FieldFits 0 (received size data)) ∧
    ∀ u, InBounds (MiProxy.receiveAll s size >>= fun message =>
        DNSRecord.decode u message.1 >>= fun record => record.RDATA.cString) ↔
      size.toNat ≤ 256 ∧ FieldFits 100 (received size data) := by
  have short := Sock.recv_length delivered
  have nameserver := Nameserver.receiveAll_eq delivered
  have proxy := MiProxy.receiveAll_eq delivered
  have alone : ∀ {limit : Nat}, InBounds (if size.toNat ≤ limit then .ok (received size data, t) else .error .undefined : Exec (Bytes × Sock)) ↔
      size.toNat ≤ limit := by
    intro limit
    split
    · exact iff_of_true (inBounds_ok _) ‹_›
    · exact iff_of_false not_inBounds ‹_›
  refine ⟨by rw [nameserver]; exact alone, by rw [proxy]; exact alone, ?_, ?_, ?_, ?_⟩
  · intro u
    exact receive_inBounds (DNSQuestion.decode u) nameserver fun small => DNSQuestion.decode_inBounds u (received_short short (by omega))
  · intro u
    exact receive_inBounds (DNSRecord.decode u) proxy fun small => DNSRecord.decode_inBounds u (received_short short small)
  · intro u
    exact receive_inBounds (fun message => DNSQuestion.decode u message >>= fun question => question.QNAME.cString)
      nameserver fun small => DNSQuestion.name_inBounds u (received_short short (by omega))
  · intro u
    exact receive_inBounds (fun message => DNSRecord.decode u message >>= fun record => record.RDATA.cString)
      proxy fun small => DNSRecord.data_inBounds u (received_short short small)

end peers

theorem receive_bounds_short : InBounds (Nameserver.receiveAll { incoming := text "1 1:" } 4) ∧
    ∀ u, ¬InBounds (Nameserver.receiveAll { incoming := text "1 1:" } 4 >>= fun message =>
      DNSQuestion.decode u message.1) := by
  have delivered : Sock.recv { incoming := text "1 1:" } (4 : UInt32).toNat = .ok (some (text "1 1:"), { incoming := [] }) := by
    decide
  obtain ⟨receiving, -, decoding, -⟩ := receive_bounds delivered
  exact ⟨receiving.mpr (by decide), fun u => (decoding u).not.mpr (by decide)⟩

/-- A size of 256 or 257, a message that ends behind its colon, and a name of 100 letters. -/
theorem receive_overflow :
    ¬InBounds (Nameserver.receiveAll { incoming := [] } 256) ∧ ¬InBounds (MiProxy.receiveAll { incoming := [] } 257) ∧
    (∀ u, ¬InBounds (DNSQuestion.decode u (text "1 1:"))) ∧ (∀ u, ¬InBounds (DNSRecord.decode u (text "1 1 0 8:"))) ∧
    ∀ u, ¬InBounds (DNSQuestion.decode u (text "1 1:" ++ List.replicate 100 97) >>= fun question =>
      question.QNAME.cString) := by
  refine ⟨not_not.mpr (by decide +kernel), not_not.mpr (by decide +kernel), fun u => ?_, fun u => ?_, fun u => ?_⟩
  · exact (DNSQuestion.decode_inBounds u (by decide)).not.mpr (by decide)
  · exact (DNSRecord.decode_inBounds u (by decide)).not.mpr (by decide)
  · exact (DNSQuestion.name_inBounds u (by decide)).not.mpr (by unfold FieldFits field; decide +kernel)

end VStream
