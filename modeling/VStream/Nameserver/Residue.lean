import VStream.Nameserver.Reception

/-!
# What a reply reveals

Fields of a header that are not read keep what the memory held before, and the
reply repeats them. `Whole` is when every field is read.
-/

namespace VStream
open Cpp Net
open Std (TreeMap)

namespace DNSHeader

/-- The stream behind the first twelve fields; it does not depend on the variables that are read into. -/
def lead (s : IStream) : IStream :=
  let s := (IStream.ushort 0 s).2
  let s := (IStream.bool false s).2
  let s := (IStream.int 0 s).2
  let s := (IStream.bool false s).2
  let s := (IStream.bool false s).2
  let s := (IStream.bool false s).2
  let s := (IStream.bool false s).2
  let s := (IStream.int 0 s).2
  let s := (IStream.int 0 s).2
  let s := (IStream.ushort 0 s).2
  let s := (IStream.ushort 0 s).2
  (IStream.ushort 0 s).2

/-- The last field is still read: something is there, and no field in front of it failed. -/
def Whole (message : Bytes) : Prop := (lead (.of message)).skip.fail = false

section streams
variable (u : Uninit)

theorem ushort_stream (old : UInt16) (s : IStream) : (IStream.ushort old s).2 = (IStream.ushort 0 s).2 :=
  IStream.number_stream old 0 s

theorem bool_stream (old : Bool) (s : IStream) : (IStream.bool old s).2 = (IStream.bool false s).2 :=
  IStream.number_stream old false s

theorem int_stream (old : Int) (s : IStream) : (IStream.int old s).2 = (IStream.int 0 s).2 :=
  IStream.number_stream old 0 s

/-- A header that is not whole keeps its last field. -/
theorem decode_residue {message : Bytes} (cut : ¬Whole message) : (decode u message).ARCOUNT = u.header.ARCOUNT := by
  rw [Whole, Bool.not_eq_false, lead] at cut
  simp only [decode, fields, IStream.bind_apply, IStream.pure_apply, ushort_stream u.header.ID, bool_stream u.header.QR,
    int_stream u.header.OPCODE.toInt, bool_stream u.header.AA, bool_stream u.header.TC, bool_stream u.header.RD,
    bool_stream u.header.RA, int_stream u.Z, int_stream u.RCODE, ushort_stream u.header.QDCOUNT,
    ushort_stream u.header.ANCOUNT, ushort_stream u.header.NSCOUNT]
  exact congrArg Prod.fst (IStream.number_kept u.header.ARCOUNT cut)

theorem decode_whole (u' : Uninit) {message : Bytes} (whole : Whole message) : decode u message = decode u' message := by
  have ushort : ∀ (old old' : UInt16) {s : IStream}, s.skip.fail = false →
      (IStream.ushort old s).1 = (IStream.ushort old' s).1 := fun old old' _ good =>
    congrArg Prod.fst (IStream.number_value old old' good)
  have bool : ∀ (old old' : Bool) {s : IStream}, s.skip.fail = false →
      (IStream.bool old s).1 = (IStream.bool old' s).1 := fun old old' _ good =>
    congrArg Prod.fst (IStream.number_value old old' good)
  have int : ∀ (old old' : Int) {s : IStream}, s.skip.fail = false →
      (IStream.int old s).1 = (IStream.int old' s).1 := fun old old' _ good =>
    congrArg Prod.fst (IStream.number_value old old' good)
  rw [Whole, lead] at whole
  -- the stream is good in front of every field
  have nscount := IStream.number_good whole
  have ancount := IStream.number_good nscount
  have qdcount := IStream.number_good ancount
  have rcode := IStream.number_good qdcount
  have z := IStream.number_good rcode
  have ra := IStream.number_good z
  have rd := IStream.number_good ra
  have tc := IStream.number_good rd
  have aa := IStream.number_good tc
  have opcode := IStream.number_good aa
  have qr := IStream.number_good opcode
  have id := IStream.number_good qr
  simp only [decode, fields, IStream.bind_apply, IStream.pure_apply, ushort_stream u.header.ID, bool_stream u.header.QR,
    int_stream u.header.OPCODE.toInt, bool_stream u.header.AA, bool_stream u.header.TC, bool_stream u.header.RD,
    bool_stream u.header.RA, int_stream u.Z, int_stream u.RCODE, ushort_stream u.header.QDCOUNT,
    ushort_stream u.header.ANCOUNT, ushort_stream u.header.NSCOUNT, ushort_stream u'.header.ID,
    bool_stream u'.header.QR, int_stream u'.header.OPCODE.toInt, bool_stream u'.header.AA, bool_stream u'.header.TC,
    bool_stream u'.header.RD, bool_stream u'.header.RA, int_stream u'.Z, int_stream u'.RCODE,
    ushort_stream u'.header.QDCOUNT, ushort_stream u'.header.ANCOUNT, ushort_stream u'.header.NSCOUNT]
  rw [ushort u.header.ID u'.header.ID id, bool u.header.QR u'.header.QR qr,
    int u.header.OPCODE.toInt u'.header.OPCODE.toInt opcode, bool u.header.AA u'.header.AA aa,
    bool u.header.TC u'.header.TC tc, bool u.header.RD u'.header.RD rd, bool u.header.RA u'.header.RA ra, int u.Z u'.Z z,
    int u.RCODE u'.RCODE rcode, ushort u.header.QDCOUNT u'.header.QDCOUNT qdcount,
    ushort u.header.ANCOUNT u'.header.ANCOUNT ancount, ushort u.header.NSCOUNT u'.header.NSCOUNT nscount,
    ushort u.header.ARCOUNT u'.header.ARCOUNT whole]

end streams

theorem encode_inj {header header' : DNSHeader} (same : header.encode = header'.encode) : header = header' := by
  have decoded := decode_encode ⟨header, 0, 0⟩ header
  rw [same, decode_encode] at decoded
  exact decoded.symm

end DNSHeader

namespace Nameserver

/-- Runs that differ in the memory under the header send the same bytes, however the client takes them. -/
def SameReplies (u : Unspecified) (ns : Nameserver) (clientIP : Bytes) (s : Sock) : Prop :=
  ∀ sends header header' t t' ns₁ ns₂,
    handleConnection { u with header } ns clientIP { s with sends } = .ok (t, ns₁) →
    handleConnection { u with header := header' } ns clientIP { s with sends } = .ok (t', ns₂) → t.sent = t'.sent

section replies
variable {u : Unspecified} {ns : Nameserver} {clientIP : Bytes} {s t : Sock} {header question : Bytes}

theorem Arrives.takes (arrives : Arrives s header question t) (sends : List Transfer) :
    Arrives { s with sends } header question { t with sends } := by
  cases arrives with
  | intro size whole read small size' read' small' =>
    exact .intro (Sock.recv_takes sends size) whole (Sock.recv_takes sends read) small (Sock.recv_takes sends size')
      (Sock.recv_takes sends read') small'

theorem handleConnection_whole_header (arrives : Arrives s header question t) (whole : DNSHeader.Whole header)
    (memory memory' : DNSHeader.Uninit) : handleConnection { u with header := memory } ns clientIP s =
      handleConnection { u with header := memory' } ns clientIP s := by
  unfold handleConnection
  rw [receiveQuery_arrives arrives, receiveQuery_arrives arrives]
  dsimp only
  rw [DNSHeader.decode_whole memory memory' whole]
  rfl

theorem Outcome.header_unique {begin : TreeMap UInt32 UInt32 → Nat} {decoded decoded' : DNSHeader} {t t' : Sock}
    {ns₁ ns₂ : Nameserver} (first : Outcome begin ns clientIP s question decoded t ns₁)
    (second : Outcome begin ns clientIP s question decoded' t' ns₂) (same : t.sent = t'.sent) :
    decoded.ARCOUNT = decoded'.ARCOUNT := by
  have refusals : refusal decoded = refusal decoded' → decoded.ARCOUNT = decoded'.ARCOUNT := by
    intro equal
    unfold refusal at equal
    have inner := DNSHeader.encode_inj (frame_inj equal)
    have count := congrArg DNSHeader.ARCOUNT inner
    exact count
  cases first with
  | other name sent =>
    cases second with
    | other _ sent' => exact refusals (List.append_cancel_left (sent.symm.trans (same.trans sent')))
    | nothing name' => exact absurd name' name
    | record name' => exact absurd name' name
  | nothing name selected sent =>
    cases second with
    | other name' => exact absurd name name'
    | nothing _ _ sent' => exact refusals (List.append_cancel_left (sent.symm.trans (same.trans sent')))
    | record _ selected' found =>
      cases selected.symm.trans selected'
      exact absurd rfl found
  | record name selected found made sent =>
    cases second with
    | other name' => exact absurd name name'
    | nothing _ selected' =>
      cases selected.symm.trans selected'
      exact absurd rfl found
    | record _ selected' _ made' sent' =>
      cases selected.symm.trans selected'
      cases made.symm.trans made'
      rw [same, sent', List.append_cancel_left_eq, List.append_cancel_right_eq] at sent
      have equal := DNSHeader.encode_inj (frame_inj sent)
      exact (congrArg DNSHeader.ARCOUNT equal).symm

def memoryWith (ARCOUNT : UInt16) : DNSHeader.Uninit := ⟨{ sampleHeader with ARCOUNT }, 0, 0⟩

theorem replies_differ (arrives : Arrives s header question t) (fits : FieldFits 0 question)
    (selects : asked question = domainName → Selects u.begin ns clientIP) (cut : ¬DNSHeader.Whole header) :
    ¬SameReplies u ns clientIP s := by
  intro same
  have writable : ({ s with sends := [] } : Sock).Writable := fun _ => List.not_mem_nil.elim
  have run : ∀ ARCOUNT, ∃ t' ns', handleConnection { u with header := memoryWith ARCOUNT } ns clientIP
      { s with sends := [] } = .ok (t', ns') ∧ Outcome u.begin ns clientIP { s with sends := [] } question
        (DNSHeader.decode (memoryWith ARCOUNT) header) t' ns' := fun ARCOUNT =>
    handleConnection_outcome (arrives.takes []) fits selects writable
  obtain ⟨t₀, ns₀, returned₀, outcome₀⟩ := run 0
  obtain ⟨t₁, ns₁, returned₁, outcome₁⟩ := run 1
  have count := outcome₀.header_unique outcome₁ (same [] _ _ _ _ _ _ returned₀ returned₁)
  rw [DNSHeader.decode_residue _ cut, DNSHeader.decode_residue _ cut] at count
  exact absurd count (by decide)

/-- A reply reveals nothing exactly where every header that is answered is whole. -/
theorem replies_same_iff (u : Unspecified) (ns : Nameserver) (clientIP : Bytes) (s : Sock) :
    SameReplies u ns clientIP s ↔ ∀ header question t, Arrives s header question t → FieldFits 0 question →
      (asked question = domainName → Selects u.begin ns clientIP) → DNSHeader.Whole header := by
  constructor
  · intro same header question t arrives fits selects
    by_contra cut
    exact replies_differ arrives fits selects cut same
  · intro whole sends memory memory' t t' ns₁ ns₂ returned returned'
    obtain ⟨header, question, t₀, arrives, fits, selects⟩ := selects_of_handleConnection returned
    have good := whole header question _ (arrives.takes s.sends) fits selects
    rw [handleConnection_whole_header arrives good memory memory'] at returned
    cases returned.symm.trans returned'
    rfl

end replies

/-- A header of one letter. -/
theorem replies_differ_sample :
    ¬SameReplies sampleUnspecified sampleServer (text "10.0.0.1")
      { incoming := frame (text "x") ++ frame (sampleQuestion []).encode } := by
  have whole : DNSQuestion.encode (sampleQuestion []) = text "1 1:" ++ List.replicate 100 0 := by decide +kernel
  have incoming : ({ incoming := frame (text "x") ++ frame (sampleQuestion []).encode } : Sock).incoming =
      frame (text "x") ++ frame (sampleQuestion []).encode ++ [] := (List.append_nil _).symm
  have arrives := arrives_frames incoming rfl (by decide) (by rw [whole]; decide)
  apply replies_differ arrives
  · rw [whole]
    unfold FieldFits field
    decide +kernel
  · rw [whole]
    unfold asked field
    intro same
    exact absurd same (by decide +kernel)
  · unfold DNSHeader.Whole
    decide +kernel

end Nameserver

end VStream
