import VStream.Dns.Delivery
import VStream.Nameserver.RoundRobin
import VStream.Nameserver.Search

/-!
# One connection of the nameserver

`handle_connection` receives one query, answers it and closes the connection.
-/

namespace VStream
open Cpp Net
open Std (TreeMap)

inductive Mode where
  | RR | GEO
  deriving DecidableEq, Repr

structure Nameserver where
  mode : Mode
  rr : RoundRobin := {}
  geo : Geography := {}
  log : Bytes := []

/-- What the language leaves open in one call: the first entry of the cache and the contents of
uninitialised locals. -/
structure Unspecified where
  begin : TreeMap UInt32 UInt32 → Nat
  header : DNSHeader.Uninit
  question : DNSQuestion

namespace Nameserver

def selectServer (begin : TreeMap UInt32 UInt32 → Nat) (ns : Nameserver) (client : Bytes) :
    Exec (Bytes × Nameserver) :=
  match ns.mode with
  | .RR => do
    let (ip, rr) ← ns.rr.next
    return (ip, { ns with rr })
  | .GEO => do
    let (ip, geo) ← ns.geo.findServer begin client
    return (ip, { ns with geo })

/-- The size of the question. A `recv` that does not fill it leaves the rest zero. -/
def recvQuestionSize (s : Sock) : Exec (UInt32 × Sock) := do
  match ← s.recv 4 with
  | (some data, s) => .ok (ntohl (fill data), s)
  | (none, _) => .error (.exit 1)

/-- `handle_connection` up to the decoded question. -/
def receiveQuery (u : Unspecified) (s : Sock) : Exec (DNSHeader × DNSQuestion × Sock) := do
  let (headerSize, s) ← recvSize s
  let (message, s) ← receiveAll s headerSize
  let header := DNSHeader.decode u.header message
  let (questionSize, s) ← recvQuestionSize s
  let (message, s) ← receiveAll s questionSize
  let question ← DNSQuestion.decode u.question message
  return (header, question, s)

/-- The two paths with `RCODE` 3. A `send` of the size that fails is only reported. -/
def refuse (s : Sock) (header : DNSHeader) : Exec Sock := do
  let responseHeader := DNSHeader.encode { header with AA := true, RCODE := 3 }
  let (_, s) ← s.send (htonl (UInt32.ofNat responseHeader.length))
  let s ← sendAll s responseHeader
  return s.close

def makeRecord (domain ip : Bytes) : Exec DNSRecord := do
  let NAME ← CharArray.strcpy (.zeros 100) domain
  let RDATA ← CharArray.strcpy (.zeros 100) ip
  return { NAME, TYPE := 1, CLASS := 1, TTL := 0, RDLENGTH := UInt16.ofNat ip.length, RDATA }

def sendRecord (s : Sock) (header : DNSHeader) (record : DNSRecord) : Exec Sock := do
  let responseHeader := DNSHeader.encode { header with AA := true }
  let responseRecord := DNSRecord.encode record
  match ← s.send (htonl (UInt32.ofNat responseHeader.length)) with
  | (none, _) => .error (.exit 1)
  | (some _, s) =>
    let s ← sendAll s responseHeader
    match ← s.send (htonl (UInt32.ofNat responseRecord.length)) with
    | (some 4, s) =>
      let s ← sendAll s responseRecord
      return s.close
    | _ => .error (.exit 1)

def logLine (clientIP ip : Bytes) : Bytes := clientIP ++ text " " ++ domainName ++ text " " ++ ip ++ text "\n"

/-- `handle_connection` from the decoded question on. -/
def answerQuery (u : Unspecified) (ns : Nameserver) (clientIP : Bytes) (header : DNSHeader)
    (question : DNSQuestion) (s : Sock) : Exec (Sock × Nameserver) := do
  let domain ← question.QNAME.cString
  if domain ≠ domainName then
    let s ← refuse s header
    return (s, ns)
  else
    let (ip, ns) ← selectServer u.begin ns clientIP
    if ip = [] then
      let s ← refuse s header
      return (s, ns)
    else
      let record ← makeRecord domain ip
      let s ← sendRecord s header record
      return (s, { ns with log := ns.log ++ logLine clientIP ip })

def handleConnection (u : Unspecified) (ns : Nameserver) (clientIP : Bytes) (s : Sock) :
    Exec (Sock × Nameserver) := do
  let (header, question, s) ← receiveQuery u s
  answerQuery u ns clientIP header question s

/-! ### The parts of a connection -/

def query (header : DNSHeader) (question : DNSQuestion) : Bytes := frame header.encode ++ frame question.encode

theorem recvQuestionSize_whole {s : Sock} {n : UInt32} {rest : Bytes} (here : s.incoming = htonl n ++ rest)
    (ready : s.recvs = []) : recvQuestionSize s = .ok (n, { s with incoming := rest }) := by
  have read := s.recv_exact (htonl n) rest here ready
  rw [htonl_length] at read
  simp [recvQuestionSize, read, fill, ntohl_htonl]

theorem receiveQuery_frames (u : Unspecified) {s : Sock} {first second rest : Bytes} (header : Encoded first)
    (question : Encoded second) (incoming : s.incoming = frame first ++ frame second ++ rest) (recvs : s.recvs = []) :
    receiveQuery u s = DNSQuestion.decode u.question second >>= fun question =>
      .ok (DNSHeader.decode u.header first, question, { s with incoming := rest }) := by
  simp only [frame, List.append_assoc] at incoming
  have headerRead := receiveAll_whole header
    (s.recv_append first (htonl (UInt32.ofNat second.length) ++ (second ++ rest)) recvs)
  have questionSize := recvQuestionSize_whole
    (s := { s with incoming := htonl (UInt32.ofNat second.length) ++ (second ++ rest) }) rfl recvs
  have questionRead := receiveAll_whole question (s.recv_append second rest recvs)
  unfold receiveQuery
  generalize DNSHeader.decode u.header = decodeHeader, DNSQuestion.decode u.question = decodeQuestion
  rw [recvSize_whole incoming recvs, ok_bind]
  dsimp only
  rw [headerRead, ok_bind]
  dsimp only
  rw [questionSize, ok_bind]
  dsimp only
  rw [questionRead, ok_bind]
  rfl

theorem receiveQuery_whole (u : Unspecified) {s : Sock} {header : DNSHeader} {question : DNSQuestion} {rest : Bytes}
    (incoming : s.incoming = query header question ++ rest) (recvs : s.recvs = []) :
    receiveQuery u s = .ok (header, question, { s with incoming := rest }) := by
  rw [receiveQuery_frames u (.header header) (.question question) incoming recvs, DNSQuestion.decode_encode, ok_bind,
    DNSHeader.decode_encode]

theorem refuse_steps {s t : Sock} {header : DNSHeader} : refuse s header = .ok t ↔ ∃ taken s₁ s₂,
    s.send (htonl (UInt32.ofNat (DNSHeader.encode { header with AA := true, RCODE := 3 }).length)) = .ok (taken, s₁) ∧
      sendAll s₁ (DNSHeader.encode { header with AA := true, RCODE := 3 }) = .ok s₂ ∧ t = s₂.close := by
  unfold refuse
  dsimp only
  generalize DNSHeader.encode { header with AA := true, RCODE := 3 } = response
  constructor
  · intro h
    obtain ⟨⟨taken, s₁⟩, size, h⟩ := bind_ok h
    obtain ⟨s₂, message, h⟩ := bind_ok h
    exact ⟨taken, s₁, s₂, size, message, (Except.ok.inj h).symm⟩
  · rintro ⟨taken, s₁, s₂, size, message, rfl⟩
    rw [size, ok_bind]
    dsimp only
    rw [message]
    rfl

theorem sendRecord_steps {s t : Sock} {header : DNSHeader} {record : DNSRecord} :
    sendRecord s header record = .ok t ↔ ∃ k s₁ s₂ s₃ s₄,
      s.send (htonl (UInt32.ofNat (DNSHeader.encode { header with AA := true }).length)) = .ok (some k, s₁) ∧
        sendAll s₁ (DNSHeader.encode { header with AA := true }) = .ok s₂ ∧
        s₂.send (htonl (UInt32.ofNat record.encode.length)) = .ok (some 4, s₃) ∧
        sendAll s₃ record.encode = .ok s₄ ∧ t = s₄.close := by
  unfold sendRecord
  dsimp only
  generalize DNSHeader.encode { header with AA := true } = response, record.encode = data
  constructor
  · intro h
    obtain ⟨⟨taken, s₁⟩, size, h⟩ := bind_ok h
    cases taken with
    | none => cases h
    | some k =>
      obtain ⟨s₂, message, h⟩ := bind_ok h
      obtain ⟨⟨taken', s₃⟩, size', h⟩ := bind_ok h
      split at h
      · rename_i same
        obtain ⟨rfl, rfl⟩ := Prod.mk.inj same
        obtain ⟨s₄, message', h⟩ := bind_ok h
        exact ⟨k, s₁, s₂, _, s₄, size, message, size', message', (Except.ok.inj h).symm⟩
      · cases h
  · rintro ⟨k, s₁, s₂, s₃, s₄, size, message, size', message', rfl⟩
    rw [size, ok_bind]
    dsimp only
    rw [message, ok_bind, size', ok_bind]
    exact congrArg (· >>= fun s => .ok s.close) message'

theorem refuse_stops {s : Sock} {header : DNSHeader} {stop : Stop} (stopped : refuse s header = .error stop) :
    SendStops s.sends stop := by
  unfold refuse at stopped
  rcases bind_error stopped with lost | ⟨⟨taken, s₁⟩, size, stopped⟩
  · exact .inr (Sock.send_stops lost)
  rcases bind_error stopped with failed | ⟨s₂, -, stopped⟩
  · exact (sendAll_stops failed).mono (Sock.send_schedule size ▸ List.tail_subset _)
  · cases stopped

theorem sendRecord_stops {s : Sock} {header : DNSHeader} {record : DNSRecord} {stop : Stop}
    (stopped : sendRecord s header record = .error stop) : SendStops s.sends stop := by
  have left : ∀ {s t : Sock}, sendAll s (DNSHeader.encode { header with AA := true }) = .ok t → t.sends ⊆ s.sends := by
    intro s t message
    obtain ⟨rest, left, rfl⟩ := (sendAll_encoded (.header _)).mp message
    exact remaining_subset left
  unfold sendRecord at stopped
  dsimp only at stopped
  generalize DNSHeader.encode { header with AA := true } = response, record.encode = data at stopped left
  rcases bind_error stopped with lost | ⟨⟨taken, s₁⟩, size, stopped⟩
  · exact .inr (Sock.send_stops lost)
  have among₁ : s₁.sends ⊆ s.sends := Sock.send_schedule size ▸ List.tail_subset _
  cases taken with
  | none => exact .inl (Except.error.inj stopped).symm
  | some k =>
    rcases bind_error stopped with failed | ⟨s₂, message, stopped⟩
    · exact (sendAll_stops failed).mono among₁
    have among₂ : s₂.sends ⊆ s.sends := List.Subset.trans (left message) among₁
    rcases bind_error stopped with lost | ⟨⟨taken', s₃⟩, size', stopped⟩
    · exact .inr ((Sock.send_stops lost).mono among₂)
    have among₃ : s₃.sends ⊆ s.sends := List.Subset.trans (Sock.send_schedule size' ▸ List.tail_subset _) among₂
    split at stopped
    · rename_i same
      obtain ⟨-, rfl⟩ := Prod.mk.inj same
      rcases bind_error stopped with failed | ⟨s₄, -, stopped⟩
      · exact (sendAll_stops failed).mono among₃
      · cases stopped
    · exact .inl (Except.error.inj stopped).symm

theorem refuse_ok {s : Sock} (writable : s.Writable) (header : DNSHeader) :
    ∃ t, refuse s header = .ok t ∧ t.closed = true ∧
      t.sent = s.sent ++ frame (DNSHeader.encode { header with AA := true, RCODE := 3 }) := by
  obtain ⟨t, t', size, message, sent⟩ := sendAll_frame writable (DNSHeader.encode { header with AA := true, RCODE := 3 })
  exact ⟨t'.close, refuse_steps.mpr ⟨_, t, t', size, message, rfl⟩, rfl, sent.sent⟩

theorem sendRecord_ok {s : Sock} (writable : s.Writable) (header : DNSHeader) (record : DNSRecord) :
    ∃ t, sendRecord s header record = .ok t ∧ t.closed = true ∧
      t.sent = s.sent ++ (frame (DNSHeader.encode { header with AA := true }) ++ frame record.encode) := by
  obtain ⟨t, t', size, message, sent⟩ := sendAll_frame writable (DNSHeader.encode { header with AA := true })
  obtain ⟨t₁, t₂, size', message', sent'⟩ := sendAll_frame sent.writable record.encode
  exact ⟨t₂.close, sendRecord_steps.mpr ⟨_, t, t', t₁, t₂, size, message, size', message', rfl⟩, rfl, (sent.trans sent').sent⟩

/-- A C string padded to the size of the name and data fields. -/
def padded (s : Bytes) : Bytes := s ++ List.replicate (100 - s.length) 0

theorem padded_eq {s : Bytes} (short : s.length < 100) :
    padded s = s ++ 0 :: (CharArray.zeros 100).toList.drop (s.length + 1) := by
  have zeros : (CharArray.zeros 100).toList = List.replicate 100 0 := rfl
  rw [padded, zeros, List.drop_replicate, ← List.replicate_succ]
  congr 2; omega

/-- A record can be made where both strings fit up to their terminators; only that much is copied. -/
theorem makeRecord_ok {domain ip : Bytes} (name : (domain.takeWhile (· ≠ 0)).length < 100)
    (data : (ip.takeWhile (· ≠ 0)).length < 100) : ∃ record, makeRecord domain ip = .ok record ∧
      record.NAME.toList = padded (domain.takeWhile (· ≠ 0)) ∧ record.RDATA.toList = padded (ip.takeWhile (· ≠ 0)) ∧
      record.TYPE = 1 ∧ record.CLASS = 1 ∧ record.TTL = 0 ∧ record.RDLENGTH = UInt16.ofNat ip.length := by
  obtain ⟨NAME, copiedName, nameBytes⟩ := CharArray.strcpy_ok (.zeros 100) name
  obtain ⟨RDATA, copiedData, dataBytes⟩ := CharArray.strcpy_ok (.zeros 100) data
  refine ⟨_, by simp only [makeRecord, copiedName, copiedData]; rfl, ?_, ?_, rfl, rfl, rfl, rfl⟩
  · rw [nameBytes, padded_eq name]
  · rw [dataBytes, padded_eq data]

/-! ### The whole connection -/

def refusal (header : DNSHeader) : Bytes := frame (DNSHeader.encode { header with AA := true, RCODE := 3 })

def Answer (header : DNSHeader) (ip reply : Bytes) : Prop :=
  ∃ record : DNSRecord, record.TYPE = 1 ∧ record.CLASS = 1 ∧ record.TTL = 0 ∧
    record.NAME.toList = padded domainName ∧ record.RDATA.toList = padded ip ∧ record.RDLENGTH.toNat = ip.length ∧
    reply = frame (DNSHeader.encode { header with AA := true }) ++ frame record.encode

def Fits (ip : Bytes) : Prop := 0 ∉ ip ∧ ip.length < 100

theorem fits_domainName : Fits domainName := ⟨by decide, by decide⟩

theorem Fits.cString {a : CharArray 100} {ip : Bytes} (fits : Fits ip) (data : a.toList = padded ip) :
    a.cString = .ok ip := by
  rw [padded_eq fits.2] at data
  exact CharArray.cString_append fits.1 data

theorem frame_inj {message message' : Bytes} (same : frame message = frame message') : message = message' :=
  (List.append_inj same rfl).2

theorem Answer.unique {header : DNSHeader} {ip ip' reply : Bytes} (first : Answer header ip reply)
    (second : Answer header ip' reply) (fits : Fits ip) (fits' : Fits ip') : ip = ip' := by
  obtain ⟨record, -, -, -, -, data, -, rfl⟩ := first
  obtain ⟨record', -, -, -, -, data', -, same⟩ := second
  have encoded := frame_inj (List.append_cancel_left same)
  have decoded := DNSRecord.decode_encode record record
  rw [encoded, DNSRecord.decode_encode] at decoded
  obtain rfl := Except.ok.inj decoded
  exact (Except.ok.inj ((fits.cString data).symm.trans (fits'.cString data')))

section answers
variable (u : Unspecified) {ns ns' : Nameserver} (clientIP : Bytes) (header : DNSHeader) {question : DNSQuestion}
  {s : Sock} {ip : Bytes}

theorem handleConnection_whole {rest : Bytes} (incoming : s.incoming = query header question ++ rest)
    (recvs : s.recvs = []) :
    handleConnection u ns clientIP s = answerQuery u ns clientIP header question { s with incoming := rest } := by
  rw [handleConnection, receiveQuery_whole u incoming recvs]
  rfl

theorem answerQuery_other {name : Bytes} (cString : question.QNAME.cString = .ok name) (other : name ≠ domainName)
    (writable : s.Writable) : ∃ t, answerQuery u ns clientIP header question s = .ok (t, ns) ∧ t.closed = true ∧
      t.sent = s.sent ++ refusal header := by
  obtain ⟨t, refused, closed, sent⟩ := refuse_ok writable header
  exact ⟨t, by simp [answerQuery, cString, other, refused], closed, sent⟩

variable (cString : question.QNAME.cString = .ok domainName)
include cString

theorem answerQuery_none (selected : selectServer u.begin ns clientIP = .ok ([], ns')) (writable : s.Writable) :
    ∃ t, answerQuery u ns clientIP header question s = .ok (t, ns') ∧ t.closed = true ∧
      t.sent = s.sent ++ refusal header := by
  obtain ⟨t, refused, closed, sent⟩ := refuse_ok writable header
  exact ⟨t, by simp [answerQuery, cString, selected, refused], closed, sent⟩

theorem answerQuery_record (selected : selectServer u.begin ns clientIP = .ok (ip, ns')) (found : ip ≠ [])
    {record : DNSRecord} (made : makeRecord domainName ip = .ok record) (writable : s.Writable) :
    ∃ t, answerQuery u ns clientIP header question s =
        .ok (t, { ns' with log := ns'.log ++ logLine clientIP ip }) ∧ t.closed = true ∧
      t.sent = s.sent ++ (frame (DNSHeader.encode { header with AA := true }) ++ frame record.encode) := by
  obtain ⟨t, answered, closed, sent⟩ := sendRecord_ok writable header record
  exact ⟨t, by simp [answerQuery, cString, selected, found, made, answered], closed, sent⟩

theorem answerQuery_some (selected : selectServer u.begin ns clientIP = .ok (ip, ns')) (found : ip ≠ [])
    (fits : Fits ip) (writable : s.Writable) :
    ∃ t reply, answerQuery u ns clientIP header question s =
        .ok (t, { ns' with log := ns'.log ++ logLine clientIP ip }) ∧ t.closed = true ∧
      t.sent = s.sent ++ reply ∧ Answer header ip reply := by
  have plain := CharArray.takeWhile_plain fits.1
  obtain ⟨record, made, name, data, type, class', ttl, length⟩ := makeRecord_ok
    (show (domainName.takeWhile (· ≠ 0)).length < 100 by decide) (plain ▸ fits.2)
  obtain ⟨t, answered, closed, sent⟩ := answerQuery_record u clientIP header cString selected found made writable
  rw [plain] at data
  refine ⟨t, _, answered, closed, sent, record, type, class', ttl, name, data, ?_, rfl⟩
  rw [length, UInt16.toNat_ofNat_of_lt' (Nat.lt_trans fits.2 (by decide))]

/-- `strcpy` of a long address runs past the record. -/
theorem answerQuery_long (selected : selectServer u.begin ns clientIP = .ok (ip, ns')) (found : ip ≠ [])
    (long : 100 ≤ (ip.takeWhile (· ≠ 0)).length) :
    answerQuery u ns clientIP header question s = .error .undefined := by
  have overflow : CharArray.strcpy (.zeros 100) ip = .error .undefined := dif_neg (by omega)
  obtain ⟨NAME, copied, -⟩ := CharArray.strcpy_ok (.zeros 100) (s := domainName) (by decide)
  simp [answerQuery, cString, selected, found, makeRecord, copied, overflow]

end answers

/-! ### The loop of `run_server` -/

/-- A connection: its peer, and what the language leaves open in its call. -/
structure Accepted where
  u : Unspecified
  clientIP : Bytes
  sock : Sock

/-- What `accept` and `getpeername` give. -/
inductive Attempt where
  | failed
  | nameless
  | connected (c : Accepted)

/-- The loop over these attempts: what was sent on each connection. After the last of them the program waits in
`accept`. -/
def runServer (ns : Nameserver) : List Attempt → Exec (List Bytes × Nameserver)
  | [] => .ok ([], ns)
  | .failed :: _ => .error (.exit 1)
  | .nameless :: _ => .error (.exit 1)
  | .connected c :: attempts => do
    let (s, ns) ← handleConnection c.u ns c.clientIP c.sock
    let (replies, ns) ← runServer ns attempts
    return (s.sent :: replies, ns)

end Nameserver

end VStream
