import VStream.Cpp.CharArray
import VStream.Cpp.Stream

/-!
# DNS records

Four numbers as text, a colon, then the 100 bytes of the name and the 100 bytes
of the data.
-/

namespace VStream
open Cpp

structure DNSRecord where
  NAME : CharArray 100
  TYPE : UInt16
  CLASS : UInt16
  TTL : UInt16
  RDLENGTH : UInt16
  RDATA : CharArray 100
  deriving DecidableEq

namespace DNSRecord

def encode (record : DNSRecord) : Bytes :=
  decimal record.TYPE.toNat ++ text " " ++ decimal record.CLASS.toNat ++ text " " ++
  decimal record.TTL.toNat ++ text " " ++ decimal record.RDLENGTH.toNat ++ text ":" ++
  record.NAME.toList ++ record.RDATA.toList

def fields (u : DNSRecord) : IStream.Extraction (UInt16 × UInt16 × UInt16 × UInt16) := do
  let TYPE ← IStream.ushort u.TYPE
  let CLASS ← IStream.ushort u.CLASS
  let TTL ← IStream.ushort u.TTL
  let RDLENGTH ← IStream.ushort u.RDLENGTH
  return (TYPE, CLASS, TTL, RDLENGTH)

/-- `u` is the local `record`, whose constructor sets only `NAME` and `RDATA`. -/
def decode (u : DNSRecord) (msgBuf : Bytes) : Exec DNSRecord := do
  let index := castInt (sizeT (find (text ":") msgBuf))
  let NAME ← CharArray.memcpy 100 msgBuf (index + 1)
  let RDATA ← CharArray.memcpy 100 msgBuf (index + 101)
  let (TYPE, CLASS, TTL, RDLENGTH) := (fields u (.of msgBuf)).1
  return { NAME, TYPE, CLASS, TTL, RDLENGTH, RDATA }

def front (record : DNSRecord) : Bytes :=
  decimal record.TYPE.toNat ++ 32 :: (decimal record.CLASS.toNat ++ 32 :: (decimal record.TTL.toNat ++
    32 :: decimal record.RDLENGTH.toNat))

theorem encode_eq (record : DNSRecord) :
    record.encode = record.front ++ 58 :: (record.NAME.toList ++ record.RDATA.toList) := by
  unfold encode front
  simp only [text_blank, text_colon, List.append_assoc, List.cons_append, List.nil_append]

theorem front_plain (record : DNSRecord) : 58 ∉ record.front := by
  simp [front, byte_absent (c := 58) rfl]

theorem front_length_le (record : DNSRecord) : record.front.length ≤ 23 := by
  have := ushort_length record.TYPE
  have := ushort_length record.CLASS
  have := ushort_length record.TTL
  have := ushort_length record.RDLENGTH
  simp only [front, List.length_append, List.length_cons]
  omega

theorem index_eq (record : DNSRecord) (rest : Bytes) :
    castInt (sizeT (find (text ":") (record.front ++ 58 :: rest))) = record.front.length := by
  have short := record.front_length_le
  rw [text_colon, find_byte record.front_plain, sizeT, Option.getD_some, castInt_of_le]
  unfold intMax; omega

theorem fields_front (u record : DNSRecord) (rest : Bytes) :
    (fields u (.of (record.front ++ 58 :: rest))).1 =
      (record.TYPE, record.CLASS, record.TTL, record.RDLENGTH) := by
  simp only [fields, front, List.append_assoc, List.cons_append, IStream.bind_apply, IStream.pure_apply,
    IStream.ushort_space, IStream.ushort_field, show isDigit 32 = false from rfl, show isDigit 58 = false from rfl]

theorem decode_front (u record : DNSRecord) (name data : CharArray 100) (rest : Bytes) :
    decode u (record.front ++ 58 :: (name.toList ++ (data.toList ++ rest))) =
      .ok { record with NAME := name, RDATA := data } := by
  have copiedName : CharArray.memcpy 100 (record.front ++ 58 :: (name.toList ++ (data.toList ++ rest)))
      (record.front.length + 1) = .ok name := by
    have shape : record.front ++ 58 :: (name.toList ++ (data.toList ++ rest)) =
        (record.front ++ [58]) ++ (name.toList ++ (data.toList ++ rest)) := by simp
    rw [shape]
    exact CharArray.memcpy_middle _ _ _ (by simp)
  have copiedData : CharArray.memcpy 100 (record.front ++ 58 :: (name.toList ++ (data.toList ++ rest)))
      (record.front.length + 101) = .ok data := by
    have shape : record.front ++ 58 :: (name.toList ++ (data.toList ++ rest)) =
        (record.front ++ 58 :: name.toList) ++ (data.toList ++ rest) := by simp
    rw [shape]
    exact CharArray.memcpy_middle _ _ _ (by simp)
  simp only [decode, index_eq, copiedName, copiedData, ok_bind, fields_front, pure_eq_ok]

theorem decode_encode (u record : DNSRecord) : decode u (encode record) = .ok record := by
  have decoded := decode_front u record record.NAME record.RDATA []
  rw [List.append_nil] at decoded
  rw [encode_eq, decoded]

theorem encode_length (record : DNSRecord) : record.encode.length = record.front.length + 201 := by
  simp only [encode_eq, List.length_append, List.length_cons, List.Vector.toList_length]

end DNSRecord

end VStream
