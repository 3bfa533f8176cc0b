import VStream.Dns.Cut
import VStream.System.Exchange

/-!
# Messages in segments

Each part of a query or a reply is read by one `recv`. Both programs come to
the right result when the first three of these calls are not cut, and the
fourth only where the missing bytes make no difference.
-/

namespace VStream
open Cpp Net

/-! ### One part -/

section parts
variable {s : Sock} {n : UInt32} {message rest : Bytes} {k : Nat}

theorem cutTo_all (message : Bytes) : cutTo message message.length = message := by simp [cutTo]

theorem htonl_recv (here : s.incoming = htonl n ++ rest) (moved : amount 4 s.recvs.head? = some k) (inside : k ≤ 4) :
    s.recv 4 = .ok (some ((htonl n).take k), { s with incoming := (htonl n).drop k ++ rest, recvs := s.recvs.tail }) :=
  Sock.recv_cut here moved inside

/-- `t` is `s` after one `recv` that left `rest`. -/
structure Next (s : Sock) (rest : Bytes) (t : Sock) : Prop where
  incoming : t.incoming = rest
  recvs : t.recvs = s.recvs.tail

theorem Next.smooth {t : Sock} (next : Next s rest t) (smooth : s.Smooth) : t.Smooth := by
  unfold Sock.Smooth
  rw [next.recvs]
  exact Moves.tail smooth

theorem recvSize_uncut (here : s.incoming = htonl n ++ rest) (moved : amount 4 s.recvs.head? = some 4) :
    ∃ t, recvSize s = .ok (n, t) ∧ Next s rest t := by
  have whole : (htonl n).take 4 = htonl n ∧ (htonl n).drop 4 = [] := ⟨rfl, rfl⟩
  refine ⟨{ s with incoming := rest, recvs := s.recvs.tail }, ?_, rfl, rfl⟩
  rw [recvSize, htonl_recv here moved le_rfl, ok_bind]
  simp [whole, ntohl_htonl]

theorem recvSize_cut (here : s.incoming = htonl n ++ rest) (moved : amount 4 s.recvs.head? = some k) (short : k < 4) :
    recvSize s = .error (.exit 1) := by
  rw [recvSize, htonl_recv here moved short.le, ok_bind]
  simp [List.length_take]; omega

theorem Nameserver.receiveAll_cut (encoded : Encoded message) (here : s.incoming = message ++ rest)
    (moved : amount message.length s.recvs.head? = some k) (inside : k ≤ message.length) :
    ∃ t, receiveAll s (UInt32.ofNat message.length) = .ok (cutTo message k, t) ∧ Next s (message.drop k ++ rest) t := by
  have received := receiveAll_padded encoded (Sock.recv_cut here moved inside)
  rw [List.length_take, Nat.min_eq_left inside] at received
  exact ⟨_, received, rfl, rfl⟩

theorem MiProxy.receiveAll_cut (encoded : Encoded message) (here : s.incoming = message ++ rest)
    (moved : amount message.length s.recvs.head? = some k) (inside : k ≤ message.length) :
    ∃ t, receiveAll s (UInt32.ofNat message.length) = .ok (cutTo message k, t) ∧ Next s (message.drop k ++ rest) t := by
  have received := receiveAll_padded encoded (Sock.recv_cut here moved inside)
  rw [List.length_take, Nat.min_eq_left inside] at received
  exact ⟨_, received, rfl, rfl⟩

structure Lost (s : Sock) : Prop where
  inside : ∃ c rest, s.incoming = c :: rest ∧ 32 ≤ c
  smooth : s.Smooth

theorem lost_header {header : DNSHeader} (here : s.incoming = header.encode.drop k ++ rest)
    (short : k < header.encode.length) (smooth : s.Smooth) : Lost s := by
  obtain ⟨c, left, eq⟩ := List.exists_cons_of_length_pos (show 0 < (header.encode.drop k).length by
    rw [List.length_drop]; omega)
  have member : c ∈ header.encode := List.mem_of_mem_drop (by rw [eq]; exact List.mem_cons_self)
  exact ⟨⟨c, left ++ rest, by rw [here, eq]; rfl, header.encode_printable c member⟩, smooth⟩

/-- The next size is read from the header's text. -/
theorem Lost.recv (lost : Lost s) : ∃ data t, s.recv 4 = .ok (some data, t) ∧ t.Smooth ∧
    data.length ≤ 4 ∧ 257 < (ntohl (fill data)).toNat := by
  obtain ⟨c, rest, here, printable⟩ := lost.inside
  have offered : 0 < min 4 s.incoming.length := by rw [here, List.length_cons]; omega
  obtain ⟨k, moved, some, atMost⟩ := lost.smooth.amount (min 4 s.incoming.length)
  obtain ⟨k, rfl⟩ : ∃ m, k = m + 1 := ⟨k - 1, by omega⟩
  have taken : s.incoming.take (k + 1) = c :: rest.take k := by rw [here, List.take_succ_cons]
  have four : (rest.take k).length ≤ 3 := by rw [List.length_take]; omega
  refine ⟨c :: rest.take k, { s with incoming := s.incoming.drop (k + 1), recvs := s.recvs.tail },
    by rw [Sock.recv_moved moved, ← taken], Moves.tail lost.smooth, by rw [List.length_cons]; omega, ?_⟩
  rw [fill, List.length_cons, List.cons_append]
  exact ntohl_huge printable (by rw [List.length_append, List.length_replicate]; omega)

end parts

/-! ### The nameserver -/

/-- Whether the first three calls that read these sizes and messages deliver all they ask for, and the
fourth one enough. -/
def Framed (recvs : List Transfer) (first second : Bytes) (enough : Nat → Prop) : Prop :=
  amount 4 recvs[0]? = some 4 ∧ amount first.length recvs[1]? = some first.length ∧ amount 4 recvs[2]? = some 4 ∧
    ∃ k, amount second.length recvs[3]? = some k ∧ enough k

theorem framed_iff {recvs : List Transfer} {first second : Bytes} {enough : Nat → Prop} :
    Framed recvs first second enough ↔ amount 4 recvs.head? = some 4 ∧
      amount first.length recvs.tail.head? = some first.length ∧ amount 4 recvs.tail.tail.head? = some 4 ∧
      ∃ k, amount second.length recvs.tail.tail.tail.head? = some k ∧ enough k := by
  simp [Framed, List.head?_eq_getElem?]

namespace Nameserver
variable (u : Unspecified) {s : Sock} {header : DNSHeader} {question : DNSQuestion}

theorem receiveQuery_header {n : UInt32} {message : Bytes} {s₁ s₂ : Sock} (size : recvSize s = .ok (n, s₁))
    (read : receiveAll s₁ n = .ok (message, s₂)) :
    receiveQuery u s = recvQuestionSize s₂ >>= fun r => receiveAll r.2 r.1 >>= fun m =>
      DNSQuestion.decode u.question m.1 >>= fun question => .ok (DNSHeader.decode u.header message, question, m.2) := by
  unfold receiveQuery
  generalize DNSHeader.decode u.header = decodeHeader, DNSQuestion.decode u.question = decodeQuestion
  rw [size, ok_bind]
  dsimp only
  rw [read]
  rfl

theorem recvQuestionSize_lost (lost : Lost s) :
    ∃ n t, recvQuestionSize s = .ok (n, t) ∧ receiveAll t n = .error .undefined := by
  obtain ⟨data, t, read, smooth, -, huge⟩ := lost.recv
  obtain ⟨more, t', next⟩ := smooth.recv (ntohl (fill data)).toNat
  exact ⟨_, t, by rw [recvQuestionSize, read, ok_bind], receiveInto_huge next huge⟩

theorem recvQuestionSize_cut {k : Nat} {rest : Bytes} {n : UInt32} (here : s.incoming = htonl n ++ rest)
    (small : n.toNat < 256) (moved : amount 4 s.recvs.head? = some k) (short : k < 4) :
    ∃ t, recvQuestionSize s = .ok (0, t) ∧ Next s ((htonl n).drop k ++ rest) t := by
  refine ⟨{ s with incoming := (htonl n).drop k ++ rest, recvs := s.recvs.tail }, ?_, rfl, rfl⟩
  rw [recvQuestionSize, htonl_recv here moved short.le, ok_bind]
  dsimp only
  rw [fill_take_htonl small short]

theorem recvQuestionSize_uncut {rest : Bytes} {n : UInt32} (here : s.incoming = htonl n ++ rest)
    (moved : amount 4 s.recvs.head? = some 4) : ∃ t, recvQuestionSize s = .ok (n, t) ∧ Next s rest t := by
  have filled : fill ((htonl n).take 4) = htonl n ∧ (htonl n).drop 4 = [] := ⟨rfl, rfl⟩
  refine ⟨{ s with incoming := rest, recvs := s.recvs.tail }, ?_, rfl, rfl⟩
  rw [recvQuestionSize, htonl_recv here moved le_rfl, ok_bind]
  simp [filled, ntohl_htonl]

theorem receiveAll_zero (smooth : s.Smooth) : ∃ t, receiveAll s 0 = .ok ([], t) := by
  obtain ⟨data, t, read⟩ := smooth.recv 0
  have nothing : data = [] := List.length_eq_zero_iff.mp (Nat.le_zero.mp (Sock.recv_length read))
  have received := receiveInto_padded (· + 1) (show s.recv (0 : UInt32).toNat = .ok (some data, t) from read) (by decide) (.inr rfl)
  exact ⟨t, by rw [receiveAll, received, nothing]; rfl⟩

theorem decode_nothing : DNSQuestion.decode u.question [] = .error .undefined := by
  have absent : find (text ":") [] = none := by decide
  have index : castInt (sizeT none) + 1 = 0 := by decide
  have past : CharArray.memcpy 100 [] 0 = .error .undefined := dif_neg (by decide)
  rw [DNSQuestion.decode, absent, index, past]
  rfl

theorem map_decoded {α β γ : Type} {x : Exec β} {a : α} {b : β} {c : γ} :
    Except.map (fun r : α × β × γ => (r.1, r.2.1)) (x >>= fun b => .ok (a, b, c)) = .ok (a, b) ↔ x = .ok b := by
  cases x <;> simp [Except.map]

theorem receiveQuery_stop {e : Stop} (size : recvSize s = .error e) : receiveQuery u s = .error e := by
  rw [receiveQuery, size, error_bind]

/-- A query is decoded as it was sent when its reads are framed, and only then. -/
theorem receiveQuery_segments (incoming : s.incoming = query header question) (smooth : s.Smooth) :
    (receiveQuery u s).map (fun r => (r.1, r.2.1)) = .ok (header, question) ↔
      Framed s.recvs header.encode question.encode question.Survives := by
  have short := encoded_length_le (.question question)
  have size₄ := size_toNat (show question.encode.length ≤ 255 by omega)
  have positive : 0 < question.encode.length := by rw [question.encode_length]; omega
  rw [query, frame, frame, List.append_assoc] at incoming
  rw [framed_iff]
  obtain ⟨k₁, moved₁, -, atMost₁⟩ := smooth.amount 4
  by_cases whole₁ : k₁ = 4
  swap
  · rw [receiveQuery_stop u (recvSize_cut incoming moved₁ (by omega))]
    exact iff_of_false (fun h => by cases h) fun framed => whole₁ (Option.some.inj (moved₁.symm.trans framed.1))
  subst whole₁
  obtain ⟨s₁, sized₁, next₁⟩ := recvSize_uncut incoming moved₁
  have smooth₁ := next₁.smooth smooth
  obtain ⟨k₂, moved₂, -, atMost₂⟩ := smooth₁.amount header.encode.length
  obtain ⟨s₂, read₂, next₂⟩ := receiveAll_cut (.header header) next₁.incoming moved₂ atMost₂
  have smooth₂ := next₂.smooth smooth₁
  rw [receiveQuery_header u sized₁ read₂, ← next₁.recvs]
  by_cases whole₂ : k₂ = header.encode.length
  swap
  · obtain ⟨n, t, sized, undefined⟩ := recvQuestionSize_lost (lost_header next₂.incoming (by omega) smooth₂)
    rw [sized, ok_bind, undefined]
    exact iff_of_false (fun h => by cases h) fun framed => whole₂ (Option.some.inj (moved₂.symm.trans framed.2.1))
  have incoming₂ := next₂.incoming
  rw [whole₂, List.drop_length, List.nil_append] at incoming₂
  rw [whole₂] at moved₂
  rw [whole₂, cutTo_all, DNSHeader.decode_encode, ← next₂.recvs]
  obtain ⟨k₃, moved₃, -, atMost₃⟩ := smooth₂.amount 4
  by_cases whole₃ : k₃ = 4
  swap
  · obtain ⟨s₃, sized₃, next₃⟩ := recvQuestionSize_cut incoming₂ (by rw [size₄]; omega) moved₃ (by omega)
    obtain ⟨t, read⟩ := receiveAll_zero (next₃.smooth smooth₂)
    rw [sized₃, ok_bind, read, ok_bind, decode_nothing]
    exact iff_of_false (fun h => by cases h) fun framed => whole₃ (Option.some.inj (moved₃.symm.trans framed.2.2.1))
  subst whole₃
  obtain ⟨s₃, sized₃, next₃⟩ := recvQuestionSize_uncut incoming₂ moved₃
  have smooth₃ := next₃.smooth smooth₂
  obtain ⟨k₄, moved₄, some, atMost₄⟩ := smooth₃.amount question.encode.length
  obtain ⟨s₄, read₄, next₄⟩ := receiveAll_cut (.question question) (next₃.incoming.trans (List.append_nil _).symm)
    moved₄ atMost₄
  rw [sized₃, ok_bind, read₄, ok_bind, ← next₃.recvs]
  have survives := DNSQuestion.decode_cut u.question question (k := k₄) (by omega)
  rw [map_decoded, survives]
  constructor
  · exact fun enough => ⟨moved₁, moved₂, moved₃, k₄, moved₄, enough⟩
  · rintro ⟨-, -, -, k, moved, enough⟩
    rw [Option.some.inj (moved₄.symm.trans moved)]
    exact enough

/-- Sockets on which the same was sent and will be taken. -/
structure SameOut (s t : Sock) : Prop where
  sends : s.sends = t.sends
  sent : s.sent = t.sent
  closed : s.closed = t.closed

theorem send_same {s t : Sock} (same : SameOut s t) (data : Bytes) :
    Matches (fun a b => a.1 = b.1 ∧ SameOut a.2 b.2) (s.send data) (t.send data) := by
  unfold Sock.send
  rw [same.sends]
  split
  · exact rfl
  split
  · exact rfl
  cases amount (min data.length Sock.sendMax) t.sends.head? with
  | none => exact ⟨rfl, rfl, same.sent, same.closed⟩
  | some k => exact ⟨rfl, rfl, congrArg (· ++ data.take k) same.sent, same.closed⟩

theorem sendAll_same {s t : Sock} (same : SameOut s t) (message : Bytes) :
    Matches SameOut (sendAll s message) (sendAll t message) := by
  let states (p q : Sock × Nat) : Prop := SameOut p.1 q.1 ∧ p.2 = q.2
  refine loop_rel ?_ _ (show states (s, 0) (t, 0) from ⟨same, rfl⟩)
  rintro ⟨s, sent⟩ ⟨t, _⟩ ⟨same, rfl⟩
  refine (send_same same (message.drop sent)).bind ?_
  rintro ⟨moved, s'⟩ ⟨_, t'⟩ ⟨rfl, same'⟩
  cases moved with
  | none => exact rfl
  | some k =>
    dsimp only
    split
    · exact ⟨same', rfl⟩
    · exact same'

theorem refuse_same {s t : Sock} (same : SameOut s t) (header : DNSHeader) :
    Matches SameOut (refuse s header) (refuse t header) := by
  unfold refuse
  generalize DNSHeader.encode { header with AA := true, RCODE := 3 } = message
  refine (send_same same _).bind fun first first' same₁ => ?_
  refine (sendAll_same same₁.2 message).bind fun s₂ t₂ same₂ => ?_
  exact ⟨same₂.sends, same₂.sent, rfl⟩

theorem sendRecord_same {s t : Sock} (same : SameOut s t) (header : DNSHeader) (record : DNSRecord) :
    Matches SameOut (sendRecord s header record) (sendRecord t header record) := by
  unfold sendRecord
  generalize DNSHeader.encode { header with AA := true } = first, DNSRecord.encode record = second
  refine (send_same same (htonl (UInt32.ofNat first.length))).bind ?_
  rintro ⟨moved, s₁⟩ ⟨_, t₁⟩ ⟨rfl, same₁⟩
  cases moved with
  | none => exact rfl
  | some k =>
    refine (sendAll_same same₁ first).bind fun s₂ t₂ same₂ => ?_
    refine (send_same same₂ (htonl (UInt32.ofNat second.length))).bind ?_
    rintro ⟨moved, s₃⟩ ⟨_, t₃⟩ ⟨rfl, same₃⟩
    by_cases four : moved = some 4
    · subst four
      exact (sendAll_same same₃ second).bind fun s₄ t₄ same₄ => ⟨same₄.sends, same₄.sent, rfl⟩
    · dsimp only
      split
      · rename_i here
        exact absurd (congrArg Prod.fst here) four
      · split
        · rename_i here
          exact absurd (congrArg Prod.fst here) four
        · exact rfl

theorem answerQuery_same {s t : Sock} (same : SameOut s t) (ns : Nameserver) (clientIP : Bytes) (header : DNSHeader)
    (question : DNSQuestion) : Matches (fun a b => SameOut a.1 b.1 ∧ a.2 = b.2)
      (answerQuery u ns clientIP header question s) (answerQuery u ns clientIP header question t) := by
  have refused (ns : Nameserver) : Matches (fun a b => SameOut a.1 b.1 ∧ a.2 = b.2)
      (refuse s header >>= fun s => .ok (s, ns)) (refuse t header >>= fun s => .ok (s, ns)) :=
    (refuse_same same header).bind fun _ _ same => ⟨same, rfl⟩
  unfold answerQuery
  cases question.QNAME.cString with
  | error e => exact rfl
  | ok domain =>
    simp only [ok_bind, pure_eq_ok]
    split
    · exact refused ns
    cases selectServer u.begin ns clientIP with
    | error e => exact rfl
    | ok selected =>
      simp only [ok_bind]
      split
      · exact refused selected.2
      cases makeRecord domain selected.1 with
      | error e => exact rfl
      | ok record => exact (sendRecord_same same header record).bind fun _ _ same => ⟨same, rfl⟩

theorem SameOut.trans {s t v : Sock} (first : SameOut s t) (second : SameOut t v) : SameOut s v :=
  ⟨first.sends.trans second.sends, first.sent.trans second.sent, first.closed.trans second.closed⟩

theorem recv_same {s t : Sock} {n : Nat} {data : Option Bytes} (read : s.recv n = .ok (data, t)) : SameOut t s := by
  unfold Sock.recv at read
  split at read
  · cases read
  · split at read <;> cases read <;> exact ⟨rfl, rfl, rfl⟩

theorem receiveInto_same {terminator : UInt32 → UInt32} {s t : Sock} {n : UInt32} {message : Bytes}
    (read : receiveInto terminator s n = .ok (message, t)) : SameOut t s := by
  obtain ⟨⟨data, s₁⟩, here, read⟩ := bind_ok read
  cases data with
  | none => cases read
  | some data =>
    dsimp only at read
    split_ifs at read
    cases read
    exact recv_same here

theorem receiveQuery_same {s t : Sock} (read : receiveQuery u s = .ok (header, question, t)) : SameOut t s := by
  unfold receiveQuery at read
  generalize DNSHeader.decode u.header = decodeHeader, DNSQuestion.decode u.question = decodeQuestion at read
  obtain ⟨⟨n, s₁⟩, size, read⟩ := bind_ok read
  obtain ⟨⟨message, s₂⟩, first, read⟩ := bind_ok read
  obtain ⟨⟨n', s₃⟩, size', read⟩ := bind_ok read
  obtain ⟨⟨message', s₄⟩, second, read⟩ := bind_ok read
  obtain ⟨question', -, read⟩ := bind_ok read
  obtain ⟨-, -, rfl⟩ : _ ∧ _ ∧ s₄ = t := by simpa using read
  have same₁ : SameOut s₁ s := by
    obtain ⟨⟨data, s'⟩, here, size⟩ := bind_ok size
    cases data with
    | none => cases size
    | some data =>
      dsimp only at size
      split at size <;> cases size
      exact recv_same here
  have same₃ : SameOut s₃ s₂ := by
    obtain ⟨⟨data, s'⟩, here, size'⟩ := bind_ok size'
    cases data with
    | none => cases size'
    | some data =>
      cases size'
      exact recv_same here
  exact (receiveInto_same second).trans (same₃.trans ((receiveInto_same first).trans same₁))

/-- The query is decoded and served as it is when every `recv` delivers all that it asks for. -/
def SameQuery (ns : Nameserver) (clientIP : Bytes) (s : Sock) : Prop :=
  (receiveQuery u s).map (fun r => (r.1, r.2.1)) = (receiveQuery u s.whole).map (fun r => (r.1, r.2.1)) ∧
    Matches (fun a b => SameOut a.1 b.1 ∧ a.2 = b.2) (handleConnection u ns clientIP s)
      (handleConnection u ns clientIP s.whole)

theorem sameQuery_iff (ns : Nameserver) (clientIP : Bytes) (incoming : s.incoming = query header question)
    (smooth : s.Smooth) :
    SameQuery u ns clientIP s ↔ Framed s.recvs header.encode question.encode question.Survives := by
  have incoming' : s.whole.incoming = query header question ++ [] := incoming.trans (List.append_nil _).symm
  have whole := receiveQuery_whole u incoming' rfl
  rw [← receiveQuery_segments u incoming smooth]
  unfold SameQuery
  rw [handleConnection, handleConnection, whole]
  constructor
  · exact fun same => same.1
  · intro decoded
    refine ⟨decoded, ?_⟩
    cases read : receiveQuery u s with
    | error e => rw [read] at decoded; cases decoded
    | ok r =>
      obtain ⟨header', question', t⟩ := r
      rw [read] at decoded
      obtain ⟨rfl, rfl⟩ : header' = header ∧ question' = question := by simpa [Except.map] using decoded
      obtain ⟨sends, sent, closed⟩ := receiveQuery_same u read
      have same : SameOut t { s.whole with incoming := [] } := ⟨sends, sent, closed⟩
      exact answerQuery_same u same ns clientIP header' question'

end Nameserver

/-! ### The proxy -/

namespace MiProxy
variable (u : Locals) {s : Sock} {header : DNSHeader} {record : DNSRecord} {ip : Bytes}

theorem handleDnsResponse_stop {e : Stop} (size : recvSize s = .error e) : handleDnsResponse u s = .error e := by
  rw [handleDnsResponse, size, error_bind]

theorem handleDnsResponse_header {n : UInt32} {message : Bytes} {s₁ s₂ : Sock} (size : recvSize s = .ok (n, s₁))
    (read : receiveAll s₁ n = .ok (message, s₂)) :
    handleDnsResponse u s = recvSize s₂ >>= fun r => receiveAll r.2 r.1 >>= fun m =>
      DNSRecord.decode u.record m.1 >>= fun record => record.RDATA.cString >>= fun ip => .ok (ip, m.2) := by
  unfold handleDnsResponse
  generalize DNSRecord.decode u.record = decodeRecord
  rw [size, ok_bind]
  dsimp only
  rw [read]
  rfl

theorem recvSize_lost (lost : Lost s) :
    recvSize s = .error (.exit 1) ∨ ∃ n t, recvSize s = .ok (n, t) ∧ receiveAll t n = .error .undefined := by
  obtain ⟨data, t, read, smooth, -, huge⟩ := lost.recv
  rw [recvSize, read, ok_bind]
  dsimp only
  split
  · rename_i four
    have filled : fill data = data := by rw [fill, four]; exact List.append_nil data
    rw [filled] at huge
    obtain ⟨more, t', next⟩ := smooth.recv (ntohl data).toNat
    exact .inr ⟨_, t, rfl, receiveInto_huge next huge⟩
  · exact .inl rfl

theorem map_address {α β : Type} {x : Exec α} {a : α} {b : β} :
    Except.map Prod.fst (x >>= fun a => (.ok (a, b) : Exec (α × β))) = .ok a ↔ x = .ok a := by
  cases x <;> simp [Except.map]

theorem take_whole_iff {k m : Nat} : ip.take (k - m) = ip ↔ ip = [] ∨ m + ip.length ≤ k := by
  rw [List.take_eq_self_iff]
  constructor
  · intro fits
    cases ip with
    | nil => exact .inl rfl
    | cons c ip => rw [List.length_cons] at *; right; omega
  · rintro (rfl | fits)
    · exact Nat.zero_le _
    · omega

/-- The address of a reply is read as it was sent when the reads are framed and reach its end, and only then. -/
theorem handleDnsResponse_segments (data : record.RDATA.cString = .ok ip)
    (incoming : s.incoming = frame header.encode ++ frame record.encode) (smooth : s.Smooth) :
    (handleDnsResponse u s).map Prod.fst = .ok ip ↔ Framed s.recvs header.encode record.encode
      fun k => ip = [] ∨ record.front.length + 101 + ip.length ≤ k := by
  rw [frame, frame, List.append_assoc] at incoming
  rw [framed_iff]
  obtain ⟨k₁, moved₁, -, atMost₁⟩ := smooth.amount 4
  by_cases whole₁ : k₁ = 4
  swap
  · rw [handleDnsResponse_stop u (recvSize_cut incoming moved₁ (by omega))]
    exact iff_of_false (fun h => by cases h) fun framed => whole₁ (Option.some.inj (moved₁.symm.trans framed.1))
  subst whole₁
  obtain ⟨s₁, sized₁, next₁⟩ := recvSize_uncut incoming moved₁
  have smooth₁ := next₁.smooth smooth
  obtain ⟨k₂, moved₂, -, atMost₂⟩ := smooth₁.amount header.encode.length
  obtain ⟨s₂, read₂, next₂⟩ := receiveAll_cut (.header header) next₁.incoming moved₂ atMost₂
  have smooth₂ := next₂.smooth smooth₁
  rw [handleDnsResponse_header u sized₁ read₂, ← next₁.recvs]
  by_cases whole₂ : k₂ = header.encode.length
  swap
  · refine iff_of_false (fun h => ?_) fun framed => whole₂ (Option.some.inj (moved₂.symm.trans framed.2.1))
    rcases recvSize_lost (lost_header next₂.incoming (by omega) smooth₂) with stop | ⟨n, t, sized, undefined⟩
    · rw [stop] at h; cases h
    · rw [sized, ok_bind, undefined] at h; cases h
  have incoming₂ := next₂.incoming
  rw [whole₂, List.drop_length, List.nil_append] at incoming₂
  rw [whole₂] at moved₂
  rw [← next₂.recvs]
  obtain ⟨k₃, moved₃, -, atMost₃⟩ := smooth₂.amount 4
  by_cases whole₃ : k₃ = 4
  swap
  · rw [recvSize_cut incoming₂ moved₃ (by omega)]
    exact iff_of_false (fun h => by cases h) fun framed => whole₃ (Option.some.inj (moved₃.symm.trans framed.2.2.1))
  subst whole₃
  obtain ⟨s₃, sized₃, next₃⟩ := recvSize_uncut incoming₂ moved₃
  have smooth₃ := next₃.smooth smooth₂
  obtain ⟨k₄, moved₄, some, atMost₄⟩ := smooth₃.amount record.encode.length
  obtain ⟨s₄, read₄, next₄⟩ := receiveAll_cut (.record record) (next₃.incoming.trans (List.append_nil _).symm)
    moved₄ atMost₄
  obtain ⟨decoded, arrived, address⟩ := DNSRecord.decode_cut u.record record data k₄
  rw [sized₃, ok_bind, read₄, ok_bind, arrived, ok_bind, address, ← next₃.recvs, Nat.sub_sub, map_address,
    Except.ok.injEq, take_whole_iff]
  constructor
  · exact fun enough => ⟨moved₁, moved₂, moved₃, k₄, moved₄, enough⟩
  · rintro ⟨-, -, -, k, moved, enough⟩
    rw [Option.some.inj (moved₄.symm.trans moved)]
    exact enough

end MiProxy

/-- Both programs read a message in segments as they read it whole exactly when the reads are framed. -/
theorem segmentation (u : Unspecified) (v : MiProxy.Locals) :
    (∀ ns clientIP header question (s : Sock), s.incoming = Nameserver.query header question → s.Smooth →
      (Nameserver.SameQuery u ns clientIP s ↔
        Framed s.recvs header.encode question.encode question.Survives)) ∧
    ∀ (header : DNSHeader) (record : DNSRecord) ip (s : Sock), record.RDATA.cString = .ok ip →
      s.incoming = frame header.encode ++ frame record.encode → s.Smooth →
      ((MiProxy.handleDnsResponse v s).map Prod.fst = (MiProxy.handleDnsResponse v s.whole).map Prod.fst ↔
        Framed s.recvs header.encode record.encode fun k => ip = [] ∨ record.front.length + 101 + ip.length ≤ k) := by
  refine ⟨fun ns clientIP header question s incoming smooth => Nameserver.sameQuery_iff u ns clientIP incoming smooth,
    fun header record ip s data incoming smooth => ?_⟩
  have incoming' : s.whole.incoming = frame header.encode ++ frame record.encode ++ [] :=
    incoming.trans (List.append_nil _).symm
  rw [← MiProxy.handleDnsResponse_segments v data incoming smooth, MiProxy.handleDnsResponse_record v incoming' rfl, data]
  rfl

/-- The proxy's own query, of which the first `recv` delivers one byte: the nameserver exits. -/
theorem one_byte_ends_nameserver :
    Nameserver.receiveQuery sampleUnspecified
        { incoming := Nameserver.query MiProxy.dnsHeader MiProxy.dnsQuestion, recvs := [.upTo 1] } =
      .error (.exit 1) ∧
    ¬ Nameserver.SameQuery sampleUnspecified { mode := .RR, rr := { hosts := [text "10.0.0.2"] } } (text "10.0.0.1")
      { incoming := Nameserver.query MiProxy.dnsHeader MiProxy.dnsQuestion, recvs := [.upTo 1] } := by
  generalize MiProxy.dnsHeader = header, MiProxy.dnsQuestion = question
  have incoming : ({ incoming := Nameserver.query header question, recvs := [.upTo 1] } : Sock).incoming =
      htonl (UInt32.ofNat header.encode.length) ++ (header.encode ++ frame question.encode) := List.append_assoc _ _ _
  have stop := Nameserver.receiveQuery_stop sampleUnspecified (recvSize_cut incoming (k := 1) rfl (by decide))
  have whole := Nameserver.receiveQuery_whole sampleUnspecified
    (s := ({ incoming := Nameserver.query header question, recvs := [.upTo 1] } : Sock).whole)
    (show _ = Nameserver.query header question ++ [] from (List.append_nil _).symm) rfl
  refine ⟨stop, fun same => ?_⟩
  rw [Nameserver.SameQuery, stop, whole] at same
  cases same.1

end VStream
