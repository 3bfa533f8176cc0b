import VStream.Cpp.CharArray
import VStream.Cpp.Stream

/-!
# DNS questions

Two numbers as text, a colon, then the 100 bytes of the name.
-/

namespace VStream
open Cpp

structure DNSQuestion where
  QNAME : CharArray 100
  QTYPE : UInt16
  QCLASS : UInt16
  deriving DecidableEq

/-- The name that the proxy asks for and the nameserver answers. -/
def domainName : Bytes := text "video.cse.umich.edu"

namespace DNSQuestion

def encode (question : DNSQuestion) : Bytes :=
  decimal question.QTYPE.toNat ++ text " " ++ decimal question.QCLASS.toNat ++ text ":" ++ question.QNAME.toList

def fields (u : DNSQuestion) : IStream.Extraction (UInt16 × UInt16) := do
  let QTYPE ← IStream.ushort u.QTYPE
  let QCLASS ← IStream.ushort u.QCLASS
  return (QTYPE, QCLASS)

/-- `u` is the local `question`, whose constructor sets only `QNAME`. -/
def decode (u : DNSQuestion) (msgBuf : Bytes) : Exec DNSQuestion := do
  let index := castInt (sizeT (find (text ":") msgBuf))
  let QNAME ← CharArray.memcpy 100 msgBuf (index + 1)
  let (QTYPE, QCLASS) := (fields u (.of msgBuf)).1
  return { QNAME, QTYPE, QCLASS }

def front (question : DNSQuestion) : Bytes :=
  decimal question.QTYPE.toNat ++ 32 :: decimal question.QCLASS.toNat

theorem encode_eq (question : DNSQuestion) :
    question.encode = question.front ++ 58 :: question.QNAME.toList := by
  unfold encode front
  simp only [text_blank, text_colon, List.append_assoc, List.cons_append, List.nil_append]

theorem front_plain (question : DNSQuestion) : 58 ∉ question.front := by
  simp [front, byte_absent (c := 58) rfl]

theorem front_length_le (question : DNSQuestion) : question.front.length ≤ 11 := by
  have := ushort_length question.QTYPE
  have := ushort_length question.QCLASS
  simp only [front, List.length_append, List.length_cons]
  omega

theorem index_eq (question : DNSQuestion) (rest : Bytes) :
    castInt (sizeT (find (text ":") (question.front ++ 58 :: rest))) = question.front.length := by
  have short := question.front_length_le
  rw [text_colon, find_byte question.front_plain, sizeT, Option.getD_some, castInt_of_le]
  unfold intMax; omega

theorem fields_front (u question : DNSQuestion) {c : UInt8} (ends : isDigit c = false) (rest : Bytes) :
    (fields u (.of (question.front ++ c :: rest))).1 = (question.QTYPE, question.QCLASS) := by
  simp only [fields, front, List.append_assoc, List.cons_append, IStream.bind_apply, IStream.pure_apply,
    IStream.ushort_space, IStream.ushort_field, show isDigit 32 = false from rfl, ends]

theorem decode_front (u question : DNSQuestion) (name : CharArray 100) (rest : Bytes) :
    decode u (question.front ++ 58 :: (name.toList ++ rest)) = .ok { question with QNAME := name } := by
  have copied : CharArray.memcpy 100 (question.front ++ 58 :: (name.toList ++ rest)) (question.front.length + 1) =
      .ok name := by
    have shape : question.front ++ 58 :: (name.toList ++ rest) =
        (question.front ++ [58]) ++ (name.toList ++ rest) := by simp
    rw [shape]
    exact CharArray.memcpy_middle _ _ _ (by simp)
  simp only [decode, index_eq, copied, ok_bind, fields_front u question (show isDigit 58 = false from rfl), pure_eq_ok]

theorem decode_encode (u question : DNSQuestion) : decode u (encode question) = .ok question := by
  have decoded := decode_front u question question.QNAME []
  rw [List.append_nil] at decoded
  rw [encode_eq, decoded]

theorem encode_length (question : DNSQuestion) : question.encode.length = question.front.length + 101 := by
  rw [encode_eq, List.length_append, List.length_cons, List.Vector.toList_length]

end DNSQuestion

end VStream
