import VStream.Nameserver.Residue
import VStream.Nameserver.Rotation

/-!
# The header of a reply

A reply begins with the header of the request, edited. `Format` is what the
message format asks of it.
-/

namespace VStream
open Cpp Net
open Std (TreeMap)

/-- The fields that are 0 in all messages. -/
structure DNSHeader.Plain (header : DNSHeader) : Prop where
  RD : header.RD = false
  RA : header.RA = false
  Z : header.Z = 0
  NSCOUNT : header.NSCOUNT = 0
  ARCOUNT : header.ARCOUNT = 0

namespace Nameserver

/-- The header of a reply that `record` follows, or nothing. -/
structure Format (request header : DNSHeader) (record : Option DNSRecord) : Prop where
  ID : header.ID = request.ID
  AA : header.AA = true
  plain : header.Plain
  refused : header.RCODE = 3 ↔ record = none
  answered : record ≠ none → header.RCODE = 0

def followed : Option DNSRecord → Bytes
  | none => []
  | some record => frame record.encode

def Conforms (request : DNSHeader) (reply : Bytes) : Prop :=
  ∃ header record, reply = frame header.encode ++ followed record ∧ Format request header record

/-! ### The two replies -/

theorem frame_append {message message' rest rest' : Bytes} (encoded : Encoded message) (encoded' : Encoded message')
    (same : frame message ++ rest = frame message' ++ rest') : message = message' ∧ rest = rest' := by
  have short := encoded_length_le encoded
  have short' := encoded_length_le encoded'
  simp only [frame, List.append_assoc] at same
  obtain ⟨sizes, behind⟩ := List.append_inj same rfl
  have equal := congrArg ntohl sizes
  rw [ntohl_htonl, ntohl_htonl] at equal
  have length := congrArg UInt32.toNat equal
  rw [size_toNat (by omega), size_toNat (by omega)] at length
  exact List.append_inj behind length

theorem followed_inj {record record' : Option DNSRecord} (same : followed record = followed record') :
    record = none ↔ record' = none := by
  have some : ∀ r : DNSRecord, frame r.encode ≠ [] := fun r => by simp [frame, htonl]
  cases record with
  | none =>
    cases record' with
    | none => exact Iff.rfl
    | some r => exact absurd same.symm (some r)
  | some r =>
    cases record' with
    | none => exact absurd same (some r)
    | some r' => simp

theorem conforms_iff {request header : DNSHeader} {record : Option DNSRecord} :
    Conforms request (frame header.encode ++ followed record) ↔ Format request header record := by
  constructor
  · rintro ⟨header', record', same, format⟩
    obtain ⟨encoded, behind⟩ := frame_append (.header header) (.header header') same
    obtain rfl := DNSHeader.encode_inj encoded
    have kind := followed_inj behind
    exact ⟨format.ID, format.AA, format.plain, format.refused.trans kind.symm,
      fun some => format.answered fun none => some (kind.mpr none)⟩
  · exact fun format => ⟨header, record, rfl, format⟩

theorem conforms_refusal {request : DNSHeader} : Conforms request (refusal request) ↔ request.Plain := by
  have reply : refusal request = frame (DNSHeader.encode { request with AA := true, RCODE := 3 }) ++ followed none :=
    (List.append_nil _).symm
  rw [reply, conforms_iff]
  constructor
  · rintro ⟨-, -, ⟨RD, RA, Z, NSCOUNT, ARCOUNT⟩, -, -⟩
    exact ⟨RD, RA, Z, NSCOUNT, ARCOUNT⟩
  · rintro ⟨RD, RA, Z, NSCOUNT, ARCOUNT⟩
    exact ⟨rfl, rfl, ⟨RD, RA, Z, NSCOUNT, ARCOUNT⟩, iff_of_true rfl rfl, fun some => absurd rfl some⟩

theorem conforms_record {request : DNSHeader} {record : DNSRecord} :
    Conforms request (frame (DNSHeader.encode { request with AA := true }) ++ frame record.encode) ↔
      request.Plain ∧ request.RCODE = 0 := by
  have reply : frame (DNSHeader.encode { request with AA := true }) ++ frame record.encode =
      frame (DNSHeader.encode { request with AA := true }) ++ followed (some record) := rfl
  rw [reply, conforms_iff]
  constructor
  · rintro ⟨-, -, ⟨RD, RA, Z, NSCOUNT, ARCOUNT⟩, -, some⟩
    exact ⟨⟨RD, RA, Z, NSCOUNT, ARCOUNT⟩, some (Option.some_ne_none record)⟩
  · rintro ⟨⟨RD, RA, Z, NSCOUNT, ARCOUNT⟩, zero⟩
    have other : ({ request with AA := true } : DNSHeader).RCODE ≠ 3 := by
      change request.RCODE ≠ 3
      rw [zero]
      decide
    exact ⟨rfl, rfl, ⟨RD, RA, Z, NSCOUNT, ARCOUNT⟩, iff_of_false other (Option.some_ne_none record), fun _ => zero⟩

/-! ### Every reply -/

section replies
variable {u : Unspecified} {ns ns' : Nameserver} {clientIP : Bytes} {s t t' : Sock} {header question : Bytes}

theorem Arrives.unique {header' question' : Bytes} {t' : Sock} (first : Arrives s header question t)
    (second : Arrives s header' question' t') : header = header' ∧ question = question' ∧ t = t' := by
  cases first with
  | intro size whole read small size' read' small' =>
    cases second with
    | intro size₁ whole₁ read₁ small₁ size₁' read₁' small₁' =>
      cases size.symm.trans size₁
      cases read.symm.trans read₁
      cases size'.symm.trans size₁'
      cases read'.symm.trans read₁'
      exact ⟨rfl, rfl, rfl⟩

/-- The query asks for the one name, and an address is found for the client. -/
def Found (begin : TreeMap UInt32 UInt32 → Nat) (ns : Nameserver) (clientIP question : Bytes) : Prop :=
  asked question = domainName ∧ ∃ ip ns', selectServer begin ns clientIP = .ok (ip, ns') ∧ ip ≠ []

theorem Outcome.conforms_iff {begin : TreeMap UInt32 UInt32 → Nat} {request : DNSHeader}
    (outcome : Outcome begin ns clientIP s question request t ns') :
    (∃ reply, t.sent = s.sent ++ reply ∧ Conforms request reply) ↔
      request.Plain ∧ (Found begin ns clientIP question → request.RCODE = 0) := by
  have only : ∀ {reply : Bytes}, t.sent = s.sent ++ reply →
      ((∃ reply, t.sent = s.sent ++ reply ∧ Conforms request reply) ↔ Conforms request reply) := by
    intro reply sent
    constructor
    · rintro ⟨reply', sent', conforms⟩
      obtain rfl := List.append_cancel_left (sent.symm.trans sent')
      exact conforms
    · exact fun conforms => ⟨reply, sent, conforms⟩
  cases outcome with
  | other name sent =>
    rw [only sent, conforms_refusal]
    exact (and_iff_left fun found => absurd found.1 name).symm
  | nothing name selected sent =>
    rw [only sent, conforms_refusal]
    refine (and_iff_left ?_).symm
    rintro ⟨-, ip, ns₁, selected', some⟩
    cases selected.symm.trans selected'
    exact absurd rfl some
  | record name selected found made sent =>
    rw [only sent, conforms_record]
    exact and_congr_right fun _ => ⟨fun zero _ => zero, fun zero => zero ⟨name, _, _, selected, found⟩⟩

/-- A reply keeps to the message format exactly where the request does in the fields that are 0 in all messages, and
has `RCODE` 0 if an address is found. -/
theorem reply_format_iff (arrives : Arrives s header question t) (writable : s.Writable)
    (returned : handleConnection u ns clientIP s = .ok (t', ns')) :
    (∃ reply, t'.sent = s.sent ++ reply ∧ Conforms (DNSHeader.decode u.header header) reply) ↔
      (DNSHeader.decode u.header header).Plain ∧
        (Found u.begin ns clientIP question → (DNSHeader.decode u.header header).RCODE = 0) := by
  obtain ⟨header', question', t₁, arrives', fits, selects⟩ := selects_of_handleConnection returned
  obtain ⟨rfl, rfl, rfl⟩ := arrives.unique arrives'
  obtain ⟨t₂, ns₂, returned', outcome⟩ := handleConnection_outcome arrives fits selects writable
  cases returned.symm.trans returned'
  exact outcome.conforms_iff

end replies

/-! ### Two requests -/

/-- A query with this header for this name. -/
def asking (header : DNSHeader) (name : Bytes) : Sock := { incoming := query header (sampleQuestion name) }

theorem asking_arrives (header : DNSHeader) (name : Bytes) :
    Arrives (asking header name) header.encode (sampleQuestion name).encode
      { asking header name with incoming := [] } := by
  have small := header.encode_length_le
  have small' := encoded_length_le (.question (sampleQuestion name))
  exact arrives_frames (List.append_nil _).symm rfl (by omega) (by omega)

theorem asking_whole (header : DNSHeader) (name : Bytes) (ns : Nameserver) :
    handleConnection sampleUnspecified ns (text "10.0.0.1") (asking header name) =
      answerQuery sampleUnspecified ns (text "10.0.0.1") header (sampleQuestion name)
        { asking header name with incoming := [] } :=
  handleConnection_whole sampleUnspecified (text "10.0.0.1") header (List.append_nil _).symm rfl

theorem asking_writable (header : DNSHeader) (name : Bytes) : (asking header name).Writable :=
  fun _ => List.not_mem_nil.elim

theorem asking_name {name : Bytes} (short : name.length < 100) :
    (sampleQuestion name).QNAME.cString = .ok (sampleArrival name).name :=
  (sampleArrival_ok short).cString

theorem asking_found (header : DNSHeader) : ∃ t ns' reply,
    handleConnection sampleUnspecified sampleServer (text "10.0.0.1") (asking header domainName) = .ok (t, ns') ∧
      t.sent = reply ∧ Answer header (text "10.0.0.2") reply := by
  have asked := asking_name (show domainName.length < 100 by decide)
  rw [show (sampleArrival domainName).name = domainName by decide] at asked
  have turn : RoundRobin.next { hosts := [text "10.0.0.2"] } =
      .ok (text "10.0.0.2", { hosts := [text "10.0.0.2"] }) := by decide
  have selected : selectServer sampleUnspecified.begin sampleServer (text "10.0.0.1") =
      .ok (text "10.0.0.2", sampleServer) := by
    simp only [selectServer, sampleServer, turn]
    rfl
  have writable : ({ asking header domainName with incoming := [] } : Sock).Writable :=
    asking_writable header domainName
  obtain ⟨t, reply, answered, -, sent, carries⟩ := answerQuery_some sampleUnspecified (text "10.0.0.1") header asked
    selected (by decide) ⟨by decide, by decide⟩ writable
  rw [← asking_whole] at answered
  exact ⟨t, _, reply, answered, sent, carries⟩

theorem reply_format_sample : ∃ t ns' reply,
    handleConnection sampleUnspecified sampleServer (text "10.0.0.1") (asking sampleHeader domainName) = .ok (t, ns') ∧
      t.sent = reply ∧ Conforms sampleHeader reply := by
  obtain ⟨t, ns', -, returned, -⟩ := asking_found sampleHeader
  have format := reply_format_iff (asking_arrives sampleHeader domainName) (asking_writable sampleHeader domainName)
    returned
  rw [DNSHeader.decode_encode] at format
  obtain ⟨reply, sent, conforms⟩ := format.mpr ⟨⟨rfl, rfl, rfl, rfl, rfl⟩, fun _ => rfl⟩
  exact ⟨t, ns', reply, returned, sent, conforms⟩

/-- `RD` comes back as it was sent, and so does an `RCODE` of 3 with a record behind it. -/
theorem reply_echoes :
    (∃ t ns', handleConnection sampleUnspecified sampleServer (text "10.0.0.1")
        (asking { sampleHeader with RD := true } (text "example.com")) = .ok (t, ns') ∧
      ¬Conforms { sampleHeader with RD := true } t.sent) ∧
    ∃ t ns', handleConnection sampleUnspecified sampleServer (text "10.0.0.1")
        (asking { sampleHeader with RCODE := 3 } domainName) = .ok (t, ns') ∧
      ¬Conforms { sampleHeader with RCODE := 3 } t.sent := by
  constructor
  · generalize recursing : ({ sampleHeader with RD := true } : DNSHeader) = header
    have asked := asking_name (show (text "example.com").length < 100 by decide)
    have other : (sampleArrival (text "example.com")).name ≠ domainName := by decide
    have writable : ({ asking header (text "example.com") with incoming := [] } : Sock).Writable :=
      asking_writable header (text "example.com")
    obtain ⟨t, refused, -, sent⟩ :=
      @answerQuery_other sampleUnspecified sampleServer (text "10.0.0.1") header _ _ _ asked other writable
    rw [← asking_whole] at refused
    refine ⟨t, sampleServer, refused, ?_⟩
    rw [show t.sent = refusal header from sent, conforms_refusal]
    intro plain
    have RD := plain.RD
    rw [← recursing] at RD
    cases RD
  · generalize refusing : ({ sampleHeader with RCODE := 3 } : DNSHeader) = header
    obtain ⟨t, ns', reply, returned, sent, record, -, -, -, -, -, -, rfl⟩ := asking_found header
    refine ⟨t, ns', returned, ?_⟩
    rw [sent]
    intro conforms
    have zero := (conforms_record.mp conforms).2
    rw [← refusing] at zero
    exact absurd zero (by decide)

end Nameserver

end VStream
