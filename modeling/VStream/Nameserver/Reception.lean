import VStream.Dns.Bounds
import VStream.Dns.Delivery
import VStream.Nameserver.Cache
import VStream.Nameserver.Rotation

/-!
# Connections that the nameserver survives

A client chooses the bytes it sends and, by closing, where they end.
`Survivable` is what has to arrive for `handle_connection` to return, and what
the client has to take.
-/

namespace VStream.Nameserver
open Cpp Net
open Std (TreeMap)

/-- The `recv`s of a connection deliver these two messages and leave `t`. -/
inductive Arrives : Sock → Bytes → Bytes → Sock → Prop where
  | intro {s s₁ s₂ s₃ t : Sock} {headerSize header questionSize question : Bytes}
      (size : s.recv 4 = .ok (some headerSize, s₁)) (whole : headerSize.length = 4)
      (read : s₁.recv (ntohl headerSize).toNat = .ok (some header, s₂)) (small : (ntohl headerSize).toNat ≤ 255)
      (size' : s₂.recv 4 = .ok (some questionSize, s₃))
      (read' : s₃.recv (ntohl (fill questionSize)).toNat = .ok (some question, t))
      (small' : (ntohl (fill questionSize)).toNat ≤ 255) :
      Arrives s (received (ntohl headerSize) header) (received (ntohl (fill questionSize)) question) t

def asked (question : Bytes) : Bytes := (field 0 question).takeWhile (· ≠ 0)

def Selects (begin : TreeMap UInt32 UInt32 → Nat) (ns : Nameserver) (clientIP : Bytes) : Prop :=
  ∃ ip ns', selectServer begin ns clientIP = .ok (ip, ns') ∧ (ip.takeWhile (· ≠ 0)).length < 100

/-- The calls of `send` go through for a refusal: the size may fail, but only by returning -1. -/
def RefusalGoes (sends : List Transfer) (header : DNSHeader) : Prop :=
  sends.head? ≠ some .broken ∧ sends.head? ≠ some .blocked ∧
    ∃ rest, remaining sends.tail (DNSHeader.encode { header with AA := true, RCODE := 3 }).length = some rest

/-- The calls of `send` go through for a record: the size of the header is taken in part at least, that of the record
whole. -/
def RecordGoes (sends : List Transfer) (header : DNSHeader) (record : DNSRecord) : Prop :=
  (∃ k, amount 4 sends.head? = some k) ∧
    ∃ rest, remaining sends.tail (DNSHeader.encode { header with AA := true }).length = some rest ∧
      amount 4 rest.head? = some 4 ∧ ∃ last, remaining rest.tail record.encode.length = some last

/-- The name that arrived is answered or refused, an address that is selected fits, and the reply goes. -/
def Answerable (begin : TreeMap UInt32 UInt32 → Nat) (ns : Nameserver) (clientIP : Bytes) (sends : List Transfer)
    (header : DNSHeader) (name : Bytes) : Prop :=
  if name = domainName then
    ∃ ip ns', selectServer begin ns clientIP = .ok (ip, ns') ∧
      if ip = [] then RefusalGoes sends header
      else (ip.takeWhile (· ≠ 0)).length < 100 ∧
        ∀ record, makeRecord domainName ip = .ok record → RecordGoes sends header record
  else RefusalGoes sends header

def Survivable (u : Unspecified) (ns : Nameserver) (clientIP : Bytes) (s : Sock) : Prop :=
  ∃ header question t, Arrives s header question t ∧ FieldFits 0 question ∧
    Answerable u.begin ns clientIP s.sends (DNSHeader.decode u.header header) (asked question)

/-! ### What arrives -/

section arriving
variable {u : Unspecified} {ns : Nameserver} {clientIP : Bytes} {s t : Sock} {header question : Bytes}

theorem Arrives.short (arrives : Arrives s header question t) : (question.length : Int) ≤ intMax := by
  cases arrives with
  | intro _ _ _ _ _ read' small' => exact received_short (Sock.recv_length read') (by omega)

theorem Arrives.sends (arrives : Arrives s header question t) : t.sends = s.sends ∧ t.sent = s.sent := by
  have kept : ∀ {s t : Sock} {n : Nat} {data : Bytes}, s.recv n = .ok (some data, t) → t.sends = s.sends ∧ t.sent = s.sent := by
    intro s t n data read
    obtain ⟨k, -, -, rfl⟩ := Sock.recv_some read
    exact ⟨rfl, rfl⟩
  cases arrives with
  | intro size _ read _ size' read' _ =>
    have first := kept size
    have second := kept read
    have third := kept size'
    have fourth := kept read'
    exact ⟨fourth.1.trans (third.1.trans (second.1.trans first.1)),
      fourth.2.trans (third.2.trans (second.2.trans first.2))⟩

theorem arrives_frames {first second rest : Bytes} (incoming : s.incoming = frame first ++ frame second ++ rest)
    (recvs : s.recvs = []) (small : first.length ≤ 255) (small' : second.length ≤ 255) :
    Arrives s first second { s with incoming := rest } := by
  have whole : ∀ {message : Bytes}, message.length ≤ 255 → ntohl (htonl (UInt32.ofNat message.length)) = UInt32.ofNat message.length ∧
      ntohl (fill (htonl (UInt32.ofNat message.length))) = UInt32.ofNat message.length ∧
      (UInt32.ofNat message.length).toNat = message.length ∧ received (UInt32.ofNat message.length) message = message := by
    intro message small
    have size := size_toNat small
    refine ⟨ntohl_htonl _, ?_, size, ?_⟩
    · rw [fill, htonl_length]
      simp [ntohl_htonl]
    · rw [received, size, Nat.sub_self, List.replicate_zero, List.append_nil]
  obtain ⟨first₁, -, first₃, first₄⟩ := whole small
  obtain ⟨-, second₂, second₃, second₄⟩ := whole small'
  simp only [frame, List.append_assoc] at incoming
  have size := s.recv_exact (htonl (UInt32.ofNat first.length)) _ incoming recvs
  have read := s.recv_append first (htonl (UInt32.ofNat second.length) ++ (second ++ rest)) recvs
  have size' := s.recv_append (htonl (UInt32.ofNat second.length)) (second ++ rest) recvs
  have read' := s.recv_append second rest recvs
  rw [← first₃, ← first₁] at read
  rw [← second₃, ← second₂] at read'
  have arrives := Arrives.intro size (htonl_length _) read (by rw [first₁, first₃]; exact small) size' read'
    (by rw [second₂, second₃]; exact small')
  rwa [first₁, first₄, second₂, second₄] at arrives

theorem recvSize_iff {n : UInt32} :
    recvSize s = .ok (n, t) ↔ ∃ data, s.recv 4 = .ok (some data, t) ∧ data.length = 4 ∧ n = ntohl data := by
  unfold recvSize
  rcases s.recv 4 with stop | ⟨_ | data, rest⟩
  · simp
  · simp
  · by_cases whole : data.length = 4
    · simp [whole, eq_comm, and_comm]
    · simp [whole]

theorem recvQuestionSize_iff {n : UInt32} :
    recvQuestionSize s = .ok (n, t) ↔ ∃ data, s.recv 4 = .ok (some data, t) ∧ n = ntohl (fill data) := by
  unfold recvQuestionSize
  rcases s.recv 4 with stop | ⟨_ | data, rest⟩
  · simp
  · simp
  · simp [eq_comm, and_comm]

theorem receiveAll_iff {n : UInt32} {message : Bytes} : receiveAll s n = .ok (message, t) ↔
    ∃ data, s.recv n.toNat = .ok (some data, t) ∧ n.toNat ≤ 255 ∧ message = received n data := by
  rcases read : s.recv n.toNat with stop | ⟨_ | data, rest⟩
  · simp [receiveAll, receiveInto, read]
  · simp [receiveAll, receiveInto, read]
  · rw [receiveAll_eq read]
    split
    · simp [*, eq_comm, and_comm]
    · simp [*]

theorem receiveQuery_arrives (arrives : Arrives s header question t) :
    receiveQuery u s = DNSQuestion.decode u.question question >>= fun question =>
      .ok (DNSHeader.decode u.header header, question, t) := by
  cases arrives with
  | intro size whole read small size' read' small' =>
    have headerSize := recvSize_iff.mpr ⟨_, size, whole, rfl⟩
    have headerRead := receiveAll_iff.mpr ⟨_, read, small, rfl⟩
    have questionSize := recvQuestionSize_iff.mpr ⟨_, size', rfl⟩
    have questionRead := receiveAll_iff.mpr ⟨_, read', small', rfl⟩
    unfold receiveQuery
    generalize DNSHeader.decode u.header = decodeHeader, DNSQuestion.decode u.question = decodeQuestion
    rw [headerSize, ok_bind]
    dsimp only
    rw [headerRead, ok_bind]
    dsimp only
    rw [questionSize, ok_bind]
    dsimp only
    rw [questionRead, ok_bind]
    rfl

theorem arrives_of_receiveQuery {decoded : DNSHeader} {asking : DNSQuestion}
    (h : receiveQuery u s = .ok (decoded, asking, t)) :
    ∃ header question, Arrives s header question t ∧ DNSQuestion.decode u.question question = .ok asking := by
  unfold receiveQuery at h
  obtain ⟨⟨headerSize, s₁⟩, gotSize, h⟩ := bind_ok h
  obtain ⟨⟨first, s₂⟩, gotHeader, h⟩ := bind_ok h
  obtain ⟨⟨questionSize, s₃⟩, gotSize', h⟩ := bind_ok h
  obtain ⟨⟨second, s₄⟩, gotQuestion, h⟩ := bind_ok h
  obtain ⟨asking', decoding, h⟩ := bind_ok h
  obtain ⟨-, rfl, rfl⟩ := Prod.mk.inj (Except.ok.inj h) |>.imp id Prod.mk.inj
  obtain ⟨_, size, whole, rfl⟩ := recvSize_iff.mp gotSize
  obtain ⟨_, read, small, rfl⟩ := receiveAll_iff.mp gotHeader
  obtain ⟨_, size', rfl⟩ := recvQuestionSize_iff.mp gotSize'
  obtain ⟨_, read', small', rfl⟩ := receiveAll_iff.mp gotQuestion
  exact ⟨_, _, .intro size whole read small size' read' small', decoding⟩

/-- From the decoded question on, a connection goes by the name that arrived. -/
theorem handleConnection_arrives (u : Unspecified) (ns : Nameserver) (clientIP : Bytes)
    (arrives : Arrives s header question t) (fits : FieldFits 0 question) :
    ∃ asking : DNSQuestion, asking.QNAME.cString = .ok (asked question) ∧
      handleConnection u ns clientIP s = answerQuery u ns clientIP (DNSHeader.decode u.header header) asking t := by
  obtain ⟨asking, decoding, name⟩ := DNSQuestion.decode_name u.question arrives.short fits
  refine ⟨asking, name, ?_⟩
  rw [handleConnection, receiveQuery_arrives arrives, decoding]
  rfl

theorem arrives_of_handleConnection {t' : Sock} {ns' : Nameserver} (h : handleConnection u ns clientIP s = .ok (t', ns')) :
    ∃ header question t, Arrives s header question t ∧ FieldFits 0 question := by
  obtain ⟨⟨decoded, asking, t⟩, received, h⟩ := bind_ok h
  obtain ⟨header, question, arrives, decoding⟩ := arrives_of_receiveQuery received
  obtain ⟨name, reading, -⟩ := bind_ok h
  refine ⟨header, question, t, arrives, (DNSQuestion.name_inBounds u.question arrives.short).mp ?_⟩
  rw [decoding, ok_bind]
  exact reading ▸ inBounds_ok name

/-- The ways in which a connection comes back, by the name asked for and the address selected. -/
inductive Outcome (begin : TreeMap UInt32 UInt32 → Nat) (ns : Nameserver) (clientIP : Bytes) (s : Sock)
    (question : Bytes) (decoded : DNSHeader) : Sock → Nameserver → Prop where
  | other {t : Sock} (name : asked question ≠ domainName) (sent : t.sent = s.sent ++ refusal decoded) :
      Outcome begin ns clientIP s question decoded t ns
  | nothing {t : Sock} {ns' : Nameserver} (name : asked question = domainName)
      (selected : selectServer begin ns clientIP = .ok ([], ns')) (sent : t.sent = s.sent ++ refusal decoded) :
      Outcome begin ns clientIP s question decoded t ns'
  | record {t : Sock} {ns' : Nameserver} {ip : Bytes} {record : DNSRecord} (name : asked question = domainName)
      (selected : selectServer begin ns clientIP = .ok (ip, ns')) (found : ip ≠ [])
      (made : makeRecord domainName ip = .ok record)
      (sent : t.sent = s.sent ++ (frame (DNSHeader.encode { decoded with AA := true }) ++ frame record.encode)) :
      Outcome begin ns clientIP s question decoded t { ns' with log := ns'.log ++ logLine clientIP ip }

theorem handleConnection_outcome (arrives : Arrives s header question t) (fits : FieldFits 0 question)
    (selects : asked question = domainName → Selects u.begin ns clientIP) (writable : s.Writable) :
    ∃ t' ns', handleConnection u ns clientIP s = .ok (t', ns') ∧
      Outcome u.begin ns clientIP s question (DNSHeader.decode u.header header) t' ns' := by
  obtain ⟨asking, name, handled⟩ := handleConnection_arrives u ns clientIP arrives fits
  have writable' : t.Writable := by
    rw [Sock.Writable, arrives.sends.1]
    exact writable
  rw [handled]
  by_cases valid : asked question = domainName
  · rw [valid] at name
    obtain ⟨ip, ns', selected, short⟩ := selects valid
    by_cases none : ip = []
    · rw [none] at selected
      obtain ⟨t', refused, -, sent⟩ := answerQuery_none u clientIP (DNSHeader.decode u.header header) name selected writable'
      rw [arrives.sends.2] at sent
      exact ⟨t', ns', refused, .nothing valid selected sent⟩
    · obtain ⟨record, made, -⟩ := makeRecord_ok (show (domainName.takeWhile (· ≠ 0)).length < 100 by decide) short
      obtain ⟨t', answered, -, sent⟩ := answerQuery_record u clientIP (DNSHeader.decode u.header header) name selected none
        made writable'
      rw [arrives.sends.2] at sent
      exact ⟨t', _, answered, .record valid selected none made sent⟩
  · obtain ⟨t', refused, -, sent⟩ := answerQuery_other u clientIP (DNSHeader.decode u.header header) name valid writable'
    rw [arrives.sends.2] at sent
    exact ⟨t', ns, refused, .other valid sent⟩

theorem selects_of_handleConnection {t' : Sock} {ns' : Nameserver}
    (h : handleConnection u ns clientIP s = .ok (t', ns')) : ∃ header question t, Arrives s header question t ∧
      FieldFits 0 question ∧ (asked question = domainName → Selects u.begin ns clientIP) := by
  obtain ⟨header, question, t, arrives, fits⟩ := arrives_of_handleConnection h
  refine ⟨header, question, t, arrives, fits, fun valid => ?_⟩
  obtain ⟨asking, name, handled⟩ := handleConnection_arrives u ns clientIP arrives fits
  rw [handled, answerQuery, name, valid, ok_bind, if_neg (not_not.mpr rfl)] at h
  obtain ⟨⟨ip, ns₁⟩, selected, h⟩ := bind_ok h
  refine ⟨ip, ns₁, selected, ?_⟩
  dsimp only at h
  split at h
  · rename_i none
    rw [none]
    decide
  · obtain ⟨record, made, -⟩ := bind_ok h
    obtain ⟨NAME, -, made⟩ := bind_ok made
    obtain ⟨RDATA, copied, -⟩ := bind_ok made
    exact CharArray.strcpy_fits copied

end arriving

/-! ### What goes out -/

section sending
variable {s t : Sock} {header : DNSHeader} {record : DNSRecord}

theorem refuse_returns : (∃ t, refuse s header = .ok t) ↔ RefusalGoes s.sends header := by
  have encoded := Encoded.header { header with AA := true, RCODE := 3 }
  constructor
  · rintro ⟨t, h⟩
    obtain ⟨taken, s₁, s₂, size, message, -⟩ := refuse_steps.mp h
    obtain ⟨rest, left, -⟩ := (sendAll_encoded encoded).mp message
    rw [Sock.send_schedule size] at left
    obtain ⟨whole, goes⟩ := Sock.send_returns.mp ⟨_, size⟩
    exact ⟨whole, goes, rest, left⟩
  · rintro ⟨whole, goes, rest, left⟩
    obtain ⟨⟨taken, s₁⟩, size⟩ := Sock.send_returns.mpr ⟨whole, goes⟩
    rw [← Sock.send_schedule size] at left
    exact ⟨_, refuse_steps.mpr ⟨taken, s₁, _, size, (sendAll_encoded encoded).mpr ⟨rest, left, rfl⟩, rfl⟩⟩

theorem sendRecord_returns : (∃ t, sendRecord s header record = .ok t) ↔ RecordGoes s.sends header record := by
  have first : ∀ {s t : Sock}, _ ↔ _ := @fun s t => @sendAll_encoded s t _ (.header { header with AA := true })
  have second : ∀ {s t : Sock}, _ ↔ _ := @fun s t => @sendAll_encoded s t _ (.record record)
  have steps : ∀ {t : Sock}, _ ↔ _ := @fun t => @sendRecord_steps s t header record
  unfold RecordGoes
  generalize DNSHeader.encode { header with AA := true } = response, record.encode = data at *
  constructor
  · rintro ⟨t, h⟩
    obtain ⟨k, s₁, s₂, s₃, s₄, size, message, size', message', -⟩ := steps.mp h
    obtain ⟨rest, left, rfl⟩ := first.mp message
    obtain ⟨last, left', -⟩ := second.mp message'
    rw [Sock.send_schedule size] at left
    rw [Sock.send_schedule size'] at left'
    exact ⟨⟨k, (Sock.send_inv size).1⟩, rest, left, (Sock.send_inv size').1, last, left'⟩
  · rintro ⟨⟨k, moved⟩, rest, left, moved', last, left'⟩
    have size := (Sock.send_four (htonl_length (UInt32.ofNat response.length))).mp moved
    have message := (@first { s with
      sends := s.sends.tail
      sent := s.sent ++ (htonl (UInt32.ofNat response.length)).take k } _).mpr ⟨rest, left, rfl⟩
    have size' := (@Sock.send_four { s with
      sends := rest
      sent := s.sent ++ (htonl (UInt32.ofNat response.length)).take k ++ response } _ _
        (htonl_length (UInt32.ofNat data.length))).mp moved'
    have message' := (@second { s with
      sends := rest.tail
      sent := s.sent ++ (htonl (UInt32.ofNat response.length)).take k ++ response ++
        (htonl (UInt32.ofNat data.length)).take 4 } _).mpr ⟨last, left', rfl⟩
    exact ⟨_, steps.mpr ⟨k, _, _, _, _, size, message, size', message', rfl⟩⟩

theorem answerQuery_returns (u : Unspecified) (ns : Nameserver) (clientIP : Bytes) {question : DNSQuestion} {name : Bytes}
    (cString : question.QNAME.cString = .ok name) : (∃ t ns', answerQuery u ns clientIP header question s = .ok (t, ns')) ↔
      Answerable u.begin ns clientIP s.sends header name := by
  have refusing : ∀ ns' : Nameserver, (∃ t ns'', (refuse s header >>= fun s => .ok (s, ns')) = .ok (t, ns'')) ↔
      RefusalGoes s.sends header := by
    intro ns'
    rw [← refuse_returns]
    constructor
    · rintro ⟨t, ns'', h⟩
      obtain ⟨t', refused, -⟩ := bind_ok h
      exact ⟨t', refused⟩
    · rintro ⟨t, refused⟩
      exact ⟨t, ns', by rw [refused]; rfl⟩
  unfold answerQuery Answerable
  rw [cString, ok_bind]
  by_cases valid : name = domainName
  swap
  · rw [if_pos valid, if_neg valid]
    exact refusing ns
  rw [if_neg (not_not.mpr valid), if_pos valid]
  cases selected : selectServer u.begin ns clientIP with
  | error stop => exact iff_of_false (by rintro ⟨t, ns', h⟩; cases h) (by rintro ⟨ip, ns', h, -⟩; cases h)
  | ok result =>
    obtain ⟨ip, ns'⟩ := result
    have alone : ∀ goes : Bytes → Prop, (∃ ip' ns'', (.ok (ip, ns') : Exec (Bytes × Nameserver)) = .ok (ip', ns'') ∧ goes ip') ↔
        goes ip := by
      intro goes
      constructor
      · rintro ⟨ip', ns'', same, h⟩
        obtain ⟨rfl, -⟩ := Prod.mk.inj (Except.ok.inj same)
        exact h
      · exact fun h => ⟨ip, ns', rfl, h⟩
    rw [ok_bind, alone]
    dsimp only
    by_cases none : ip = []
    · rw [if_pos none, if_pos none]
      exact refusing ns'
    · rw [if_neg none, if_neg none, valid]
      constructor
      · rintro ⟨t, ns'', h⟩
        obtain ⟨record, made, h⟩ := bind_ok h
        obtain ⟨t', sent, -⟩ := bind_ok h
        obtain ⟨NAME, -, rest⟩ := bind_ok made
        obtain ⟨RDATA, copied, -⟩ := bind_ok rest
        refine ⟨CharArray.strcpy_fits copied, fun record' made' => ?_⟩
        cases made.symm.trans made'
        exact sendRecord_returns.mp ⟨t', sent⟩
      · rintro ⟨short, goes⟩
        obtain ⟨record, made, -⟩ := makeRecord_ok (show (domainName.takeWhile (· ≠ 0)).length < 100 by decide) short
        obtain ⟨t, sent⟩ := sendRecord_returns.mpr (goes record made)
        exact ⟨t, _, by rw [made, ok_bind, sent]; rfl⟩

theorem handleConnection_returns {u : Unspecified} {ns : Nameserver} {clientIP : Bytes} :
    (∃ t ns', handleConnection u ns clientIP s = .ok (t, ns')) ↔ Survivable u ns clientIP s := by
  constructor
  · rintro ⟨t, ns', h⟩
    obtain ⟨header, question, t₀, arrives, fits⟩ := arrives_of_handleConnection h
    obtain ⟨asking, name, handled⟩ := handleConnection_arrives u ns clientIP arrives fits
    rw [handled] at h
    have goes := (answerQuery_returns u ns clientIP name).mp ⟨t, ns', h⟩
    rw [arrives.sends.1] at goes
    exact ⟨header, question, t₀, arrives, fits, goes⟩
  · rintro ⟨header, question, t₀, arrives, fits, goes⟩
    obtain ⟨asking, name, handled⟩ := handleConnection_arrives u ns clientIP arrives fits
    rw [← arrives.sends.1] at goes
    rw [handled]
    exact (answerQuery_returns u ns clientIP name).mpr goes

theorem sendAll_sent {message : Bytes} (h : sendAll s message = .ok t) : t.sent = s.sent ++ message :=
  ((sendAll_delivers s message).all h).2

theorem send_sent {data : Bytes} {taken : Option Nat} (sending : s.send data = .ok (taken, t)) :
    ∃ k, t.sent = s.sent ++ data.take k := by
  cases taken with
  | some k => exact ⟨k, (Sock.send_some sending).2⟩
  | none => exact ⟨0, by rw [Sock.send_none sending, List.take_zero, List.append_nil]⟩

theorem refuse_sent (h : refuse s header = .ok t) : ∃ k response,
    response = DNSHeader.encode { header with AA := true, RCODE := 3 } ∧
      t.sent = s.sent ++ (htonl (UInt32.ofNat response.length)).take k ++ response := by
  obtain ⟨taken, s₁, s₂, size, message, rfl⟩ := refuse_steps.mp h
  obtain ⟨k, front⟩ := send_sent size
  refine ⟨k, _, rfl, ?_⟩
  change s₂.sent = _
  rw [sendAll_sent message, front]

theorem sendRecord_sent (h : sendRecord s header record = .ok t) : ∃ k response,
    response = DNSHeader.encode { header with AA := true } ∧
      t.sent = s.sent ++ (htonl (UInt32.ofNat response.length)).take k ++ response ++ frame record.encode := by
  obtain ⟨k, s₁, s₂, s₃, s₄, size, message, size', message', rfl⟩ := sendRecord_steps.mp h
  have whole : (htonl (UInt32.ofNat record.encode.length)).take 4 = htonl (UInt32.ofNat record.encode.length) := rfl
  refine ⟨k, _, rfl, ?_⟩
  change s₄.sent = _
  rw [sendAll_sent message', (Sock.send_some size').2, whole, sendAll_sent message, (Sock.send_some size).2, frame, List.append_assoc,
    List.append_assoc]

end sending

/-! ### What an unanswered connection leaves -/

/-- `ns'` rotates, answers and has logged as `ns`. -/
structure Kept (ns ns' : Nameserver) : Prop where
  rr : ns'.rr = ns.rr
  findServer : ∀ (begin : TreeMap UInt32 UInt32 → Nat) (clientIP : Bytes),
    (ns'.geo.findServer begin clientIP).map Prod.fst = (ns.geo.findServer begin clientIP).map Prod.fst
  log : ns'.log = ns.log

/-- A record has been sent, whatever became of the size of the header in front of it. -/
def Answered (s t : Sock) : Prop :=
  ∃ (k : Nat) (header : DNSHeader) (record : DNSRecord),
    t.sent = s.sent ++ (htonl (UInt32.ofNat header.encode.length)).take k ++ header.encode ++ frame record.encode

section keeping
variable {u : Unspecified} {ns ns' : Nameserver} {clientIP : Bytes} {s t : Sock}

theorem Kept.refl (ns : Nameserver) : Kept ns ns := ⟨rfl, fun _ _ => rfl, rfl⟩

theorem next_mem {rr rr' : RoundRobin} {ip : Bytes} (h : rr.next = .ok (ip, rr')) : ip ∈ rr.hosts ∧ rr'.hosts = rr.hosts := by
  obtain ⟨successor, -, h⟩ := bind_ok h
  obtain ⟨index, -, h⟩ := bind_ok h
  split at h
  · rename_i inside
    obtain ⟨rfl, rfl⟩ := Prod.mk.inj (Except.ok.inj h)
    exact ⟨List.getElem_mem inside.2, rfl⟩
  · cases h

theorem selectServer_hosts {begin : TreeMap UInt32 UInt32 → Nat} {ip : Bytes}
    (h : selectServer begin ns clientIP = .ok (ip, ns')) : ns'.rr.hosts = ns.rr.hosts := by
  unfold selectServer at h
  split at h
  · obtain ⟨⟨ip', rr⟩, turn, h⟩ := bind_ok h
    cases h
    exact (next_mem turn).2
  · obtain ⟨⟨ip', geo⟩, found, h⟩ := bind_ok h
    cases h
    rfl

theorem selectServer_nothing {begin : TreeMap UInt32 UInt32 → Nat} (words : [] ∉ ns.rr.hosts)
    (h : selectServer begin ns clientIP = .ok ([], ns')) : Kept ns ns' := by
  unfold selectServer at h
  split at h
  · obtain ⟨⟨ip, rr⟩, turn, h⟩ := bind_ok h
    cases h
    exact absurd (next_mem turn).1 words
  · obtain ⟨⟨ip, geo⟩, nothing, h⟩ := bind_ok h
    cases h
    have keeps := Geography.findServer_nothing nothing
    refine ⟨rfl, fun begin' client => ?_, rfl⟩
    rw [Geography.findServer_respond, Geography.findServer_respond]
    exact keeps.respond client

theorem handleConnection_hosts (h : handleConnection u ns clientIP s = .ok (t, ns')) : ns'.rr.hosts = ns.rr.hosts := by
  obtain ⟨⟨decoded, asking, t₀⟩, -, h⟩ := bind_ok h
  obtain ⟨name, -, h⟩ := bind_ok h
  dsimp only at h
  split at h
  · obtain ⟨t₁, -, h⟩ := bind_ok h
    cases h
    rfl
  · obtain ⟨⟨ip, ns₁⟩, selected, h⟩ := bind_ok h
    have hosts := selectServer_hosts selected
    dsimp only at h
    split at h
    · obtain ⟨t₁, -, h⟩ := bind_ok h
      cases h
      exact hosts
    · obtain ⟨record, -, h⟩ := bind_ok h
      obtain ⟨t₁, -, h⟩ := bind_ok h
      cases h
      exact hosts

theorem handleConnection_unanswered (words : [] ∉ ns.rr.hosts) (h : handleConnection u ns clientIP s = .ok (t, ns'))
    (unanswered : ¬Answered s t) : Kept ns ns' := by
  obtain ⟨⟨header, question, t₀⟩, received, h⟩ := bind_ok h
  obtain ⟨_, _, arrives, -⟩ := arrives_of_receiveQuery received
  obtain ⟨name, -, h⟩ := bind_ok h
  dsimp only at h
  split at h
  · obtain ⟨t₁, -, h⟩ := bind_ok h
    cases h
    exact Kept.refl ns
  · obtain ⟨⟨ip, ns₁⟩, selected, h⟩ := bind_ok h
    dsimp only at h
    split at h
    · rename_i none
      obtain ⟨t₁, -, h⟩ := bind_ok h
      cases h
      rw [none] at selected
      exact selectServer_nothing words selected
    · obtain ⟨record, -, h⟩ := bind_ok h
      obtain ⟨t₁, sending, h⟩ := bind_ok h
      cases h
      obtain ⟨k, response, edited, sent⟩ := sendRecord_sent sending
      rw [arrives.sends.2, edited] at sent
      exact absurd ⟨k, _, record, sent⟩ unanswered

end keeping

/-! ### Runs -/

inductive Started : Nameserver → Prop where
  | rr {file : Option Bytes} {rr : RoundRobin} (loaded : RoundRobin.load file = .ok rr) : Started { mode := .RR, rr }
  | geo {u : Nat → Int × Int × Int} {file : Option Bytes} {geo : Geography} (loaded : Geography.load u file = .ok geo) :
      Started { mode := .GEO, geo }

theorem Started.words {ns : Nameserver} (started : Started ns) : [] ∉ ns.rr.hosts := by
  cases started with
  | @rr file rr loaded =>
    cases file with
    | none => cases loaded
    | some contents =>
      obtain ⟨hosts, read, words⟩ := RoundRobin.load_words contents
      cases read.symm.trans loaded
      exact fun empty => (words [] empty).1 rfl
  | geo => exact List.not_mem_nil

/-- `handle_connection` comes back from each of these connections in turn, and those without an answer change
nothing. -/
def Contained : Nameserver → List Accepted → Prop
  | _, [] => True
  | ns, c :: conns => ∃ t ns', handleConnection c.u ns c.clientIP c.sock = .ok (t, ns') ∧
      (¬Answered c.sock t → Kept ns ns') ∧ Contained ns' conns

def EachSurvivable : Nameserver → List Accepted → Prop
  | _, [] => True
  | ns, c :: conns => Survivable c.u ns c.clientIP c.sock ∧
      ∀ t ns', handleConnection c.u ns c.clientIP c.sock = .ok (t, ns') → EachSurvivable ns' conns

theorem contained_iff {ns : Nameserver} (words : [] ∉ ns.rr.hosts) {conns : List Accepted} :
    Contained ns conns ↔ EachSurvivable ns conns := by
  induction conns generalizing ns with
  | nil => exact Iff.rfl
  | cons c conns ih =>
    have rest : ∀ {t ns'}, handleConnection c.u ns c.clientIP c.sock = .ok (t, ns') →
        (Contained ns' conns ↔ EachSurvivable ns' conns) := by
      intro t ns' returned
      apply ih
      rw [handleConnection_hosts returned]
      exact words
    constructor
    · rintro ⟨t, ns', returned, -, contained⟩
      refine ⟨handleConnection_returns.mp ⟨t, ns', returned⟩, fun t' ns₁ returned' => ?_⟩
      cases returned.symm.trans returned'
      exact (rest returned).mp contained
    · rintro ⟨survivable, later⟩
      obtain ⟨t, ns', returned⟩ := handleConnection_returns.mpr survivable
      exact ⟨t, ns', returned, handleConnection_unanswered words returned, (rest returned).mpr (later t ns' returned)⟩

theorem contained_runs {ns : Nameserver} (words : [] ∉ ns.rr.hosts) {conns : List Accepted} :
    Contained ns conns ↔ ∃ result, runServer ns (conns.map .connected) = .ok result := by
  induction conns generalizing ns with
  | nil => exact iff_of_true trivial ⟨_, rfl⟩
  | cons c conns ih =>
    have rest : ∀ {t ns'}, handleConnection c.u ns c.clientIP c.sock = .ok (t, ns') →
        (Contained ns' conns ↔ ∃ result, runServer ns' (conns.map .connected) = .ok result) := by
      intro t ns' returned
      apply ih
      rw [handleConnection_hosts returned]
      exact words
    constructor
    · rintro ⟨t, ns', returned, -, contained⟩
      obtain ⟨later, ran⟩ := (rest returned).mp contained
      exact ⟨(t.sent :: later.1, later.2), by rw [List.map_cons, runServer, returned, ok_bind]; dsimp only; rw [ran]; rfl⟩
    · rintro ⟨result, ran⟩
      obtain ⟨⟨t, ns'⟩, returned, ran⟩ := bind_ok ran
      obtain ⟨later, ran, -⟩ := bind_ok ran
      exact ⟨t, ns', returned, handleConnection_unanswered words returned, (rest returned).mpr ⟨later, ran⟩⟩

/-- The server outlives a run exactly when each connection delivers a header and a question with a name in it, an
address can be selected for those that ask for the one name, and the client takes what is sent. -/
theorem server_contained {ns : Nameserver} (started : Started ns) (conns : List Accepted) :
    Contained ns conns ↔ EachSurvivable ns conns :=
  contained_iff started.words

def sampleServer : Nameserver := { mode := .RR, rr := { hosts := [text "10.0.0.2"] } }

theorem sampleServer_started : Started sampleServer :=
  .rr (show RoundRobin.load (some (text "10.0.0.2\n")) = .ok { hosts := [text "10.0.0.2"] } by decide +kernel)

/-- A query for the name, a query for another one in pieces, and a question that is too short. -/
def sampleClients : List Accepted :=
  [{ u := sampleUnspecified, clientIP := text "10.0.0.1", sock := (sampleArrival domainName).sock },
    { u := sampleUnspecified, clientIP := text "10.0.0.1"
      sock := { (sampleArrival (text "example.com")).sock with sends := [.error, .upTo 7] } },
    { u := sampleUnspecified, clientIP := text "10.0.0.9"
      sock := { incoming := frame sampleHeader.encode ++ frame (text "1 1:") } }]

/-- The server survives the first two clients, and the third one takes it down. -/
theorem server_contained_sample :
    (Contained sampleServer (sampleClients.take 2) ∧ EachSurvivable sampleServer (sampleClients.take 2)) ∧
      ¬Contained sampleServer sampleClients ∧ ¬EachSurvivable sampleServer sampleClients := by
  have words := sampleServer_started.words
  have survived : Contained sampleServer (sampleClients.take 2) := by
    have runs : ((runServer sampleServer ((sampleClients.take 2).map .connected)).map fun result => result.1.length) =
        .ok 2 := by decide +kernel
    obtain ⟨result, ran, -⟩ := map_ok runs
    exact (contained_runs words).mpr ⟨result, ran⟩
  have down : ¬Contained sampleServer sampleClients := by
    have stops : ((runServer sampleServer (sampleClients.map .connected)).map fun result => result.1.length) =
        .error .undefined := by decide +kernel
    intro contained
    obtain ⟨result, ran⟩ := (contained_runs words).mp contained
    rw [ran] at stops
    cases stops
  exact ⟨⟨survived, (server_contained sampleServer_started _).mp survived⟩,
    down, fun each => down ((server_contained sampleServer_started _).mpr each)⟩

def silent : Accepted := { u := sampleUnspecified, clientIP := text "10.0.0.1", sock := { incoming := [] } }

/-- It sends a query and closes before the reply. -/
def hasty : Accepted :=
  { u := sampleUnspecified, clientIP := text "10.0.0.1", sock := { (sampleArrival domainName).sock with sends := [.upTo 4, .broken] } }

theorem server_taken_down : Started sampleServer ∧
    handleConnection silent.u sampleServer silent.clientIP silent.sock = .error (.exit 1) ∧
    (handleConnection hasty.u sampleServer hasty.clientIP hasty.sock).map (fun result => result.1.sent) = .error .killed ∧
    ¬Contained sampleServer [silent] ∧ ¬Contained sampleServer [hasty] := by
  have ended : handleConnection silent.u sampleServer silent.clientIP silent.sock = .error (.exit 1) := rfl
  have killed : (handleConnection hasty.u sampleServer hasty.clientIP hasty.sock).map (fun result => result.1.sent) =
      .error .killed := by decide +kernel
  refine ⟨sampleServer_started, ended, killed, ?_, ?_⟩
  · rintro ⟨t, ns', returned, -⟩
    cases ended.symm.trans returned
  · rintro ⟨t, ns', returned, -⟩
    rw [returned] at killed
    cases killed

end VStream.Nameserver
