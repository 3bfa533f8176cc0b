import VStream.Nameserver.Connection

/-!
# The proxy's side of a query

`request_dns` sends one query and reads one reply. The header of the reply is
decoded but nothing looks at its fields.
-/

namespace VStream.MiProxy
open Cpp Net

def dnsHeader : DNSHeader :=
  { ID := 1, QR := false, OPCODE := 1, AA := false, TC := false, RD := false, RA := false, Z := 0, RCODE := 0,
    QDCOUNT := 1, ANCOUNT := 0, NSCOUNT := 0, ARCOUNT := 0 }

def makeDnsHeader : Bytes := dnsHeader.encode

def makeDnsQuestion : Exec Bytes := do
  let QNAME ← CharArray.strcpy (.zeros 100) domainName
  return DNSQuestion.encode { QNAME, QTYPE := 1, QCLASS := 1 }

def handleDnsRequest (s : Sock) : Exec Sock := do
  let header := makeDnsHeader
  let question ← makeDnsQuestion
  let (_, s) ← s.send (htonl (UInt32.ofNat header.length))
  let s ← sendAll s header
  let (_, s) ← s.send (htonl (UInt32.ofNat question.length))
  sendAll s question

/-- What the locals of `handle_dns_response` hold before they are written. -/
structure Locals where
  header : DNSHeader.Uninit
  record : DNSRecord

def handleDnsResponse (u : Locals) (s : Sock) : Exec (Bytes × Sock) := do
  let (headerSize, s) ← recvSize s
  let (message, s) ← receiveAll s headerSize
  let _header := DNSHeader.decode u.header message
  let (recordSize, s) ← recvSize s
  let (message, s) ← receiveAll s recordSize
  let record ← DNSRecord.decode u.record message
  let ip ← record.RDATA.cString
  return (ip, s)

/-! ### The query -/

def dnsQuestion : DNSQuestion :=
  { QNAME := ⟨domainName ++ List.replicate (100 - domainName.length) 0, by decide⟩, QTYPE := 1, QCLASS := 1 }

theorem makeDnsQuestion_eq : makeDnsQuestion = .ok dnsQuestion.encode := by
  obtain ⟨QNAME, copied, bytes⟩ := CharArray.strcpy_ok (.zeros 100) (s := domainName) (by decide)
  have same : QNAME = dnsQuestion.QNAME := by
    apply List.Vector.eq
    rw [bytes]
    decide
  rw [makeDnsQuestion, copied, same]
  rfl

theorem dnsQuestion_name : dnsQuestion.QNAME.cString = .ok domainName :=
  Nameserver.fits_domainName.cString rfl

theorem sendAll_frame {s : Sock} (writable : s.Writable) (message : Bytes) :
    ∃ t t', s.send (htonl (UInt32.ofNat message.length)) = .ok (some 4, t) ∧ sendAll t message = .ok t' ∧
      s.Sent (frame message) t' := by
  obtain ⟨t, sending, size⟩ := Sock.send_size writable (htonl_length (UInt32.ofNat message.length))
  obtain ⟨t', sentAll, whole⟩ := sendAll_ok size.writable message
  exact ⟨t, t', sending, sentAll, size.trans whole⟩

theorem handleDnsRequest_ok {s : Sock} (writable : s.Writable) :
    ∃ t, handleDnsRequest s = .ok t ∧ s.Sent (Nameserver.query dnsHeader dnsQuestion) t := by
  obtain ⟨t, t', size, message, sent⟩ := sendAll_frame writable dnsHeader.encode
  obtain ⟨t₁, t₂, size', message', sent'⟩ := sendAll_frame sent.writable dnsQuestion.encode
  exact ⟨t₂, by simp [handleDnsRequest, makeDnsHeader, makeDnsQuestion_eq, size, message, size', message'],
    sent.trans sent'⟩

/-! ### The reply -/

theorem recvSize_end {s : Sock} (ended : s.incoming = []) (returns : s.recvs.head? ≠ some .blocked) :
    recvSize s = .error (.exit 1) := by
  unfold recvSize Sock.recv
  rw [ended, if_neg returns]
  cases moved : amount (min 4 ([] : Bytes).length) s.recvs.head? with
  | none => rfl
  | some k => simp

theorem recvSize_reads {s t : Sock} {n : UInt32} (read : recvSize s = .ok (n, t)) : s.incoming ≠ [] := by
  intro ended
  have returns : s.recvs.head? ≠ some .blocked := by
    intro stuck
    rw [recvSize, Sock.recv, if_pos stuck] at read
    cases read
  rw [recvSize_end ended returns] at read
  cases read

theorem handleDnsResponse_frames (u : Locals) {s : Sock} {first second rest : Bytes} (header : Encoded first)
    (record : Encoded second) (incoming : s.incoming = frame first ++ frame second ++ rest) (recvs : s.recvs = []) :
    handleDnsResponse u s = DNSRecord.decode u.record second >>= fun record =>
      record.RDATA.cString >>= fun ip => .ok (ip, { s with incoming := rest }) := by
  simp only [frame, List.append_assoc] at incoming
  have headerRead := receiveAll_whole header
    (s.recv_append first (htonl (UInt32.ofNat second.length) ++ (second ++ rest)) recvs)
  have recordSize := recvSize_whole
    (s := { s with incoming := htonl (UInt32.ofNat second.length) ++ (second ++ rest) }) rfl recvs
  have recordRead := receiveAll_whole record (s.recv_append second rest recvs)
  unfold handleDnsResponse
  generalize DNSRecord.decode u.record = decodeRecord
  rw [recvSize_whole incoming recvs, ok_bind]
  dsimp only
  rw [headerRead, ok_bind]
  dsimp only
  rw [recordSize, ok_bind]
  dsimp only
  rw [recordRead, ok_bind]
  rfl

theorem handleDnsResponse_record (u : Locals) {s : Sock} {header : DNSHeader} {record : DNSRecord} {rest : Bytes}
    (incoming : s.incoming = frame header.encode ++ frame record.encode ++ rest) (recvs : s.recvs = []) :
    handleDnsResponse u s = record.RDATA.cString >>= fun ip => .ok (ip, { s with incoming := rest }) := by
  rw [handleDnsResponse_frames u (.header header) (.record record) incoming recvs, DNSRecord.decode_encode, ok_bind]

/-- Behind a lone header the stream ends, and the process with it. -/
theorem handleDnsResponse_refused (u : Locals) {s : Sock} {first : Bytes} (header : Encoded first)
    (incoming : s.incoming = frame first) (recvs : s.recvs = []) : handleDnsResponse u s = .error (.exit 1) := by
  rw [frame, ← List.append_nil first] at incoming
  have headerRead := receiveAll_whole header (s.recv_append first [] recvs)
  have ended := recvSize_end (s := { s with incoming := [] }) rfl (by simp [recvs])
  unfold handleDnsResponse
  rw [recvSize_whole (by simpa using incoming) recvs, ok_bind]
  dsimp only
  rw [List.append_nil] at headerRead
  rw [headerRead, ok_bind]
  dsimp only
  rw [ended]
  rfl

end VStream.MiProxy
