import VStream.Cpp.Stream

/-!
# DNS headers

The header of both programs, as text with a blank between the fields.
-/

namespace VStream
open Cpp

structure DNSHeader where
  ID : UInt16
  QR : Bool
  OPCODE : Int32
  AA : Bool
  TC : Bool
  RD : Bool
  RA : Bool
  Z : Int8
  RCODE : Int8
  QDCOUNT : UInt16
  ANCOUNT : UInt16
  NSCOUNT : UInt16
  ARCOUNT : UInt16
  deriving DecidableEq, Repr

namespace DNSHeader

def encode (header : DNSHeader) : Bytes :=
  decimal header.ID.toNat ++ text " " ++ decimal header.QR.toNat ++ text " " ++
  signed header.OPCODE.toInt ++ text " " ++ decimal header.AA.toNat ++ text " " ++
  decimal header.TC.toNat ++ text " " ++ decimal header.RD.toNat ++ text " " ++
  decimal header.RA.toNat ++ text " " ++ signed header.Z.toInt ++ text " " ++
  signed header.RCODE.toInt ++ text " " ++ decimal header.QDCOUNT.toNat ++ text " " ++
  decimal header.ANCOUNT.toNat ++ text " " ++ decimal header.NSCOUNT.toNat ++ text " " ++
  decimal header.ARCOUNT.toNat

/-- What the locals of `decode` hold before they are read into. -/
structure Uninit where
  header : DNSHeader
  Z : Int
  RCODE : Int

def fields (u : Uninit) : IStream.Extraction DNSHeader := do
  let ID ← IStream.ushort u.header.ID
  let QR ← IStream.bool u.header.QR
  let OPCODE ← IStream.int u.header.OPCODE.toInt
  let AA ← IStream.bool u.header.AA
  let TC ← IStream.bool u.header.TC
  let RD ← IStream.bool u.header.RD
  let RA ← IStream.bool u.header.RA
  let Z ← IStream.int u.Z
  let RCODE ← IStream.int u.RCODE
  let QDCOUNT ← IStream.ushort u.header.QDCOUNT
  let ANCOUNT ← IStream.ushort u.header.ANCOUNT
  let NSCOUNT ← IStream.ushort u.header.NSCOUNT
  let ARCOUNT ← IStream.ushort u.header.ARCOUNT
  return { ID, QR, OPCODE := Int32.ofInt OPCODE, AA, TC, RD, RA, Z := Int8.ofInt Z, RCODE := Int8.ofInt RCODE,
           QDCOUNT, ANCOUNT, NSCOUNT, ARCOUNT }

def decode (u : Uninit) (msgBuf : Bytes) : DNSHeader := (fields u (.of msgBuf)).1

theorem decode_encode (u : Uninit) (header : DNSHeader) : decode u (encode header) = header := by
  have last := IStream.ushort_decimal u.header.ARCOUNT header.ARCOUNT IStream.ends_nil
  rw [List.append_nil] at last
  unfold encode decode fields
  simp only [text_blank, List.append_assoc, List.cons_append, List.nil_append, IStream.bind_apply, IStream.pure_apply, IStream.ushort_space, IStream.bool_space,
    IStream.int_space, IStream.ushort_field, IStream.bool_field, IStream.int_field, IStream.int_field_char,
    show isDigit 32 = false from rfl, last, Int32.ofInt_toInt, Int8.ofInt_toInt]

theorem encode_length_le (header : DNSHeader) : header.encode.length ≤ 61 := by
  have ushort := ushort_length
  have bool := bool_length
  have op := int_length header.OPCODE
  have z := char_length header.Z
  have rcode := char_length header.RCODE
  unfold encode
  simp only [text_blank, List.length_append, List.length_singleton]
  linarith [ushort header.ID, bool header.QR, bool header.AA, bool header.TC, bool header.RD, bool header.RA,
    ushort header.QDCOUNT, ushort header.ANCOUNT, ushort header.NSCOUNT, ushort header.ARCOUNT]

theorem encode_printable (header : DNSHeader) : Printable header.encode := by
  unfold encode
  simp only [text_blank, printable_append, printable_cons, printable_nil, printable_decimal, printable_signed, and_true]
  decide

end DNSHeader

end VStream
