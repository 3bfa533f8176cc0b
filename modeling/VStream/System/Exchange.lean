import VStream.MiProxy.DnsClient
import VStream.Nameserver.Nearest

/-!
# One query between the two programs

The nameserver answers with one of two shapes. The proxy reads them both as if
they were the longer one.
-/

namespace VStream
open Cpp Net Nameserver MiProxy

/-- The proxy reads a reply to its end, and makes of it the address that was selected if there was one. -/
def Understood (v : Locals) (ip reply : Bytes) : Prop :=
  ∃ answer s, handleDnsResponse v { incoming := reply } = .ok (answer, s) ∧ (ip ≠ [] → answer = ip)

theorem request_query {p q : Sock} (writable : p.Writable) (fresh : p.sent = [])
    (requested : handleDnsRequest p = .ok q) : q.sent = query dnsHeader dnsQuestion := by
  obtain ⟨t, done, sent⟩ := handleDnsRequest_ok writable
  obtain rfl := Except.ok.inj (done.symm.trans requested)
  rw [sent.sent, fresh, List.nil_append]

section
variable (u : Unspecified) (v : Locals) {ns ns' : Nameserver} {clientIP ip : Bytes} {s : Sock}

theorem handleConnection_dnsQuestion (incoming : s.incoming = query dnsHeader dnsQuestion) (recvs : s.recvs = []) :
    handleConnection u ns clientIP s =
      answerQuery u ns clientIP dnsHeader dnsQuestion { s with incoming := [] } :=
  handleConnection_whole u clientIP dnsHeader (by rw [incoming, List.append_nil]) recvs

theorem understood_record {header : DNSHeader} {record : DNSRecord} {answer : Bytes}
    (data : record.RDATA.cString = .ok answer) :
    Understood v ip (frame header.encode ++ frame record.encode) ↔ (ip ≠ [] → answer = ip) := by
  have whole : ({ incoming := frame header.encode ++ frame record.encode } : Sock).incoming =
      frame header.encode ++ frame record.encode ++ [] := (List.append_nil _).symm
  have read := handleDnsResponse_record v whole rfl
  rw [data, ok_bind] at read
  constructor
  · rintro ⟨answer', s, done, same⟩
    obtain ⟨rfl, -⟩ := Prod.mk.inj (Except.ok.inj (read.symm.trans done))
    exact same
  · exact fun same => ⟨answer, _, read, same⟩

theorem not_understood_refusal (header : DNSHeader) : ¬ Understood v ip (refusal header) := by
  rintro ⟨answer, s, done, -⟩
  have refused := handleDnsResponse_refused v (s := { incoming := refusal header })
    (.header { header with AA := true, RCODE := 3 }) rfl rfl
  cases refused.symm.trans done

/-- The proxy understands the reply to its query when an address was selected that fits the record, and
only then. -/
theorem reply_understood {p q : Sock} (fresh : p.sent = []) (writable : p.Writable)
    (requested : handleDnsRequest p = .ok q) (incoming : s.incoming = q.sent) (recvs : s.recvs = [])
    (unsent : s.sent = []) (writable' : s.Writable) (selected : selectServer u.begin ns clientIP = .ok (ip, ns')) :
    (∃ t ns'', handleConnection u ns clientIP s = .ok (t, ns'') ∧ t.closed = true ∧ Understood v ip t.sent) ↔
      ip ≠ [] ∧ Fits ip := by
  have asked := dnsQuestion_name
  have served : handleConnection u ns clientIP s =
      answerQuery u ns clientIP dnsHeader dnsQuestion { s with incoming := [] } :=
    handleConnection_dnsQuestion u (incoming.trans (request_query writable fresh requested)) recvs
  have writable₀ : ({ s with incoming := [] } : Sock).Writable := writable'
  rw [served]
  by_cases none : ip = []
  · subst none
    obtain ⟨t, refused, -, sent⟩ := answerQuery_none u clientIP dnsHeader asked selected writable₀
    have reply : t.sent = refusal dnsHeader := by rw [sent, unsent, List.nil_append]
    constructor
    · rintro ⟨t', ns'', done, -, understood⟩
      obtain ⟨rfl, -⟩ := Prod.mk.inj (Except.ok.inj (refused.symm.trans done))
      exact absurd (reply ▸ understood) (not_understood_refusal v dnsHeader)
    · exact fun found => absurd rfl found.1
  by_cases long : 100 ≤ (ip.takeWhile (· ≠ 0)).length
  · have overflow := answerQuery_long u clientIP dnsHeader (s := { s with incoming := [] }) asked selected none long
    constructor
    · rintro ⟨t, ns'', done, -⟩
      cases overflow.symm.trans done
    · rintro ⟨-, plain, short⟩
      rw [CharArray.takeWhile_plain plain] at long
      omega
  · obtain ⟨record, made, -, data, -⟩ := makeRecord_ok (show (domainName.takeWhile (· ≠ 0)).length < 100 by decide)
      (Nat.lt_of_not_le long)
    obtain ⟨t, answered, closed, sent⟩ := answerQuery_record u clientIP dnsHeader asked selected none made writable₀
    have carried : Fits (ip.takeWhile (· ≠ 0)) :=
      ⟨fun zero => by simpa using List.mem_takeWhile_imp zero, Nat.lt_of_not_le long⟩
    have understood : Understood v ip t.sent ↔ (ip ≠ [] → ip.takeWhile (· ≠ 0) = ip) := by
      rw [sent, unsent, List.nil_append]
      exact understood_record v (carried.cString data)
    constructor
    · rintro ⟨t', ns'', done, -, read⟩
      obtain ⟨rfl, -⟩ := Prod.mk.inj (Except.ok.inj (answered.symm.trans done))
      exact ⟨none, understood.mp read none ▸ carried⟩
    · rintro ⟨-, plain, -⟩
      exact ⟨t, _, answered, closed, understood.mpr fun _ => CharArray.takeWhile_plain plain⟩

end

def sampleUnspecified : Unspecified := ⟨fun _ => 0, ⟨dnsHeader, 0, 0⟩, dnsQuestion⟩

def sampleLocals : Locals :=
  ⟨⟨dnsHeader, 0, 0⟩, { NAME := .zeros 100, TYPE := 0, CLASS := 0, TTL := 0, RDLENGTH := 0, RDATA := .zeros 100 }⟩

theorem writable_fresh (incoming : Bytes) : ({ incoming } : Sock).Writable := by simp [Sock.Writable]

theorem reply_understood_sample : ∃ q, handleDnsRequest { incoming := [] } = .ok q ∧
    ((∃ t ns, handleConnection sampleUnspecified { mode := .RR, rr := { hosts := [text "10.0.0.2"] } }
        (text "10.0.0.1") { incoming := q.sent } = .ok (t, ns) ∧ t.closed = true ∧
        Understood sampleLocals (text "10.0.0.2") t.sent) ↔ text "10.0.0.2" ≠ [] ∧ Fits (text "10.0.0.2")) := by
  obtain ⟨q, requested, -⟩ := handleDnsRequest_ok (writable_fresh [])
  exact ⟨q, requested, reply_understood sampleUnspecified sampleLocals rfl (writable_fresh []) requested rfl rfl rfl
    (writable_fresh _) (show selectServer sampleUnspecified.begin { mode := .RR, rr := { hosts := [text "10.0.0.2"] } }
      (text "10.0.0.1") = .ok (text "10.0.0.2", { mode := .RR, rr := { hosts := [text "10.0.0.2"] } }) from rfl)⟩

/-- The proxy's address is not in the topology: the reply is a lone header, and the proxy exits on it. -/
theorem refusal_ends_proxy : ∃ geo, Geography.load (fun _ => (0, 0, 0)) (some (text "NUM_NODES: 0 NUM_LINKS: 0")) = .ok geo ∧
    selectServer sampleUnspecified.begin { mode := .GEO, geo } (text "10.0.0.1") = .ok ([], { mode := .GEO, geo }) ∧
    ∃ q t, handleDnsRequest { incoming := [] } = .ok q ∧
      handleConnection sampleUnspecified { mode := .GEO, geo } (text "10.0.0.1") { incoming := q.sent } =
        .ok (t, { mode := .GEO, geo }) ∧
      handleDnsResponse sampleLocals { incoming := t.sent } = .error (.exit 1) := by
  have loaded : Geography.load (fun _ => (0, 0, 0)) (some (text "NUM_NODES: 0 NUM_LINKS: 0")) = .ok {} := rfl
  have selected : selectServer sampleUnspecified.begin { mode := .GEO } (text "10.0.0.1") = .ok ([], { mode := .GEO }) := by
    rw [selectServer, Geography.findServer_unknown]
    rfl
    simp
  obtain ⟨q, requested, sent⟩ := handleDnsRequest_ok (writable_fresh [])
  obtain ⟨t, refused, -, reply⟩ := answerQuery_none sampleUnspecified (text "10.0.0.1") dnsHeader dnsQuestion_name
    selected (writable_fresh [])
  refine ⟨{}, loaded, selected, q, t, requested, ?_, ?_⟩
  · rw [handleConnection_dnsQuestion _ (request_query (writable_fresh []) rfl requested) rfl]
    exact refused
  · exact handleDnsResponse_refused _ (.header _) reply rfl

end VStream
