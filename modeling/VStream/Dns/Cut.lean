import VStream.Dns.Question
import VStream.Dns.Record

/-!
# Messages that arrive cut

`receive_all` hands on what one `recv` delivers, with zeros up to the announced
size. Here is what a question and a record then decode to.
-/

namespace VStream
open Cpp

/-- A message of which the first `k` bytes arrived. -/
def cutTo (message : Bytes) (k : Nat) : Bytes := message.take k ++ List.replicate (message.length - k) 0

theorem cutTo_behind {front rest : Bytes} {k : Nat} (behind : front.length < k) :
    cutTo (front ++ 58 :: rest) k = front ++ 58 :: cutTo rest (k - front.length - 1) := by
  obtain ⟨m, rfl⟩ : ∃ m, k = front.length + (m + 1) := ⟨k - front.length - 1, by omega⟩
  simp only [cutTo, List.take_length_add_append, List.take_succ_cons, List.length_append, List.length_cons,
    List.append_assoc, List.cons_append]
  congr 4 <;> omega

theorem cutTo_front {front : Bytes} (rest : Bytes) {k : Nat} (plain : 58 ∉ front) (inFront : k ≤ front.length) :
    cutTo (front ++ 58 :: rest) k = front.take k ++ 0 :: List.replicate (front.length + rest.length - k) 0 ∧
      find (text ":") (cutTo (front ++ 58 :: rest) k) = none := by
  have shape : cutTo (front ++ 58 :: rest) k = front.take k ++ 0 :: List.replicate (front.length + rest.length - k) 0 := by
    rw [cutTo, List.take_append_of_le_length inFront, ← List.replicate_succ, List.length_append, List.length_cons]
    congr 2; omega
  refine ⟨shape, ?_⟩
  rw [find_none_iff, text_colon, List.singleton_infix_iff, shape]
  simp only [List.mem_append, List.mem_cons, List.mem_replicate, not_or]
  exact ⟨fun member => plain (List.mem_of_mem_take member), by decide, fun zero => absurd zero.2 (by decide)⟩

namespace DNSQuestion

theorem fields_cut (u question : DNSQuestion) {k : Nat} (some : 0 < k) (inFront : k ≤ question.front.length)
    (rest : Bytes) : (fields u (.of (question.front.take k ++ 0 :: rest))).1 = (question.QTYPE, question.QCLASS) ↔
      question.front.length ≤ k + if question.QCLASS = 0 then 2 else 0 := by
  have width : question.front.length = (decimal question.QTYPE.toNat).length + 1 + (decimal question.QCLASS.toNat).length := by
    simp only [front, List.length_append, List.length_cons]; omega
  have digits : 0 < (decimal question.QCLASS.toNat).length := List.length_pos_iff.mpr (decimal_ne_nil _)
  have zero : question.QCLASS = 0 → (decimal question.QCLASS.toNat).length = 1 := fun h => by rw [h]; rfl
  -- a number that is cut short is another number
  have smaller : ∀ (n : UInt16) (m : Nat), m < n.toNat → UInt16.ofNat m ≠ n ∧ (UInt16.ofNat m).toNat = m := by
    intro n m less
    have same : (UInt16.ofNat m).toNat = m := UInt16.toNat_ofNat_of_lt' (less.trans n.toNat_lt)
    exact ⟨fun h => by rw [← h, same] at less; exact lt_irrefl _ less, same⟩
  have plain : isDigit 0 = false := rfl
  have blank : isDigit 32 = false := rfl
  unfold fields
  simp only [IStream.bind_apply, IStream.pure_apply]
  rcases Nat.lt_or_ge k (decimal question.QTYPE.toNat).length with inType | pastType
  · obtain ⟨m, less, cut⟩ := decimal_take some inType
    obtain ⟨other, same⟩ := smaller question.QTYPE m less
    have taken : question.front.take k = decimal (UInt16.ofNat m).toNat := by
      rw [front, List.take_append_of_le_length inType.le, cut, same]
    rw [taken, IStream.ushort_field _ _ _ plain]
    apply iff_of_false (fun h => other (Prod.mk.inj h).1)
    split <;> omega
  rcases Nat.lt_or_ge ((decimal question.QTYPE.toNat).length + 1) k with inClass | atBlank
  · obtain ⟨j, rfl⟩ : ∃ j, k = (decimal question.QTYPE.toNat).length + (j + 1) :=
      ⟨k - (decimal question.QTYPE.toNat).length - 1, by omega⟩
    have taken : question.front.take ((decimal question.QTYPE.toNat).length + (j + 1)) =
        decimal question.QTYPE.toNat ++ 32 :: (decimal question.QCLASS.toNat).take j := by
      rw [front, List.take_length_add_append, List.take_succ_cons]
    rw [taken, List.append_assoc, List.cons_append, IStream.ushort_field _ _ _ blank, IStream.ushort_space]
    rcases Nat.lt_or_ge j (decimal question.QCLASS.toNat).length with short | whole
    · obtain ⟨m, less, cut⟩ := decimal_take (by omega) short
      obtain ⟨other, same⟩ := smaller question.QCLASS m less
      rw [cut, ← same, IStream.ushort_field _ _ _ plain]
      apply iff_of_false (fun h => other (Prod.mk.inj h).2)
      split
      · rename_i none; have := zero none; omega
      · omega
    · rw [List.take_of_length_le whole, IStream.ushort_field _ _ _ plain]
      exact iff_of_true rfl (by omega)
  · -- the first number is whole and there is no second one
    have missing : question.QTYPE = question.QTYPE ∧ 0 = question.QCLASS ↔
        question.front.length ≤ k + if question.QCLASS = 0 then 2 else 0 := by
      split
      · rename_i none; have := zero none; exact iff_of_true ⟨rfl, none.symm⟩ (by omega)
      · rename_i other; exact iff_of_false (fun h => other h.2.symm) (by omega)
    rw [← missing, ← Prod.mk.injEq]
    rcases Nat.lt_or_eq_of_le pastType with blankToo | rfl
    · have taken : question.front.take k = decimal question.QTYPE.toNat ++ [32] := by
        rw [front, show k = (decimal question.QTYPE.toNat).length + (0 + 1) by omega, List.take_length_add_append]
        rfl
      rw [taken, List.append_assoc, List.cons_append, IStream.ushort_field _ _ _ blank, IStream.ushort_space,
        List.nil_append, IStream.ushort_missing]
    · have taken : question.front.take (decimal question.QTYPE.toNat).length = decimal question.QTYPE.toNat := by
        rw [front, List.take_left]
      rw [taken, IStream.ushort_field _ _ _ plain, IStream.ushort_missing]

/-- A question survives a cut when only zeros are missing. It also does when the colon is missing, if the
name is the very bytes that stand in front of the colon. -/
def Survives (question : DNSQuestion) (k : Nat) : Prop :=
  (∀ c ∈ question.encode.drop k, c = 0) ∨
    k ≤ question.front.length ∧ question.QNAME.toList = question.front.take k ++ List.replicate (100 - k) 0 ∧
      question.front.length ≤ k + if question.QCLASS = 0 then 2 else 0

theorem eq_iff {a b : DNSQuestion} : a = b ↔ a.QNAME = b.QNAME ∧ (a.QTYPE, a.QCLASS) = (b.QTYPE, b.QCLASS) := by
  cases a; cases b; simp

theorem decode_cut (u question : DNSQuestion) {k : Nat} (some : 0 < k) :
    decode u (cutTo question.encode k) = .ok question ↔ question.Survives k := by
  have short := question.front_length_le
  rw [Survives, encode_eq]
  rcases Nat.lt_or_ge question.front.length k with behind | inFront
  · have missing : (question.front ++ 58 :: question.QNAME.toList).drop k =
        question.QNAME.toList.drop (k - question.front.length - 1) := by
      rw [show k = question.front.length + (k - question.front.length - 1 + 1) by omega, List.drop_length_add_append,
        List.drop_succ_cons]
      congr 1; omega
    have decoded := decode_front u question (question.QNAME.cut (k - question.front.length - 1)) []
    have cutName : cutTo question.QNAME.toList (k - question.front.length - 1) =
        (question.QNAME.cut (k - question.front.length - 1)).toList ++ [] := by
      rw [cutTo, List.append_nil, CharArray.cut_toList, List.Vector.toList_length]
    rw [cutTo_behind behind, cutName, decoded, missing, Except.ok.injEq, eq_iff, CharArray.cut_eq_self]
    exact ⟨fun h => .inl h.1, fun h => ⟨h.resolve_right fun far => by omega, rfl⟩⟩
  · obtain ⟨shape, noColon⟩ := cutTo_front question.QNAME.toList question.front_plain inFront
    have colon : ¬ ∀ c ∈ (question.front ++ 58 :: question.QNAME.toList).drop k, c = 0 := by
      rw [List.drop_append_of_le_length inFront]
      intro zeros
      exact absurd (zeros 58 (by simp)) (by decide)
    let name : CharArray 100 := ⟨question.front.take k ++ List.replicate (100 - k) 0, by
      rw [List.length_append, List.length_take, List.length_replicate]; omega⟩
    have copied : CharArray.memcpy 100 (cutTo (question.front ++ 58 :: question.QNAME.toList) k) 0 = .ok name := by
      have split : cutTo (question.front ++ 58 :: question.QNAME.toList) k =
          [] ++ (name.toList ++ List.replicate (question.front.length + 1) 0) := by
        rw [shape, ← List.replicate_succ, List.nil_append, List.Vector.toList_length]
        change _ = question.front.take k ++ List.replicate (100 - k) 0 ++ _
        rw [List.append_assoc, ← List.replicate_add]
        congr 2; omega
      rw [split]
      exact CharArray.memcpy_middle _ _ _ rfl
    have index : castInt (sizeT none) + 1 = 0 := by decide
    have named : name = question.QNAME ↔ question.QNAME.toList = question.front.take k ++ List.replicate (100 - k) 0 :=
      ⟨fun h => by rw [← h]; rfl, fun h => List.Vector.eq _ _ h.symm⟩
    have numbers := fields_cut u question some inFront
      (List.replicate (question.front.length + question.QNAME.toList.length - k) 0)
    rw [← shape] at numbers
    rw [decode, noColon]
    simp only [index, copied, ok_bind, pure_eq_ok, Except.ok.injEq, eq_iff, named]
    rw [numbers]
    exact ⟨fun h => .inr ⟨inFront, h⟩, fun h => (h.resolve_left colon).2⟩

end DNSQuestion

namespace DNSRecord

theorem decode_cut (u record : DNSRecord) {ip : Bytes} (data : record.RDATA.cString = .ok ip) (k : Nat) :
    ∃ decoded, decode u (cutTo record.encode k) = .ok decoded ∧
      decoded.RDATA.cString = .ok (ip.take (k - record.front.length - 101)) := by
  have short := record.front_length_le
  rw [encode_eq]
  rcases Nat.lt_or_ge record.front.length k with behind | inFront
  · obtain ⟨m, rfl⟩ : ∃ m, k = record.front.length + 1 + m := ⟨k - record.front.length - 1, by omega⟩
    have cutBoth : cutTo (record.NAME.toList ++ record.RDATA.toList) m =
        (record.NAME.cut m).toList ++ ((record.RDATA.cut (m - 100)).toList ++ []) := by
      rw [cutTo, List.take_append, List.length_append, CharArray.cut_toList, CharArray.cut_toList,
        List.Vector.toList_length, List.Vector.toList_length, List.append_nil]
      rcases Nat.le_total m 100 with inName | pastName
      · simp only [Nat.sub_eq_zero_of_le inName, List.take_zero, List.append_nil, List.nil_append, List.append_assoc,
          ← List.replicate_add]
        congr 2; omega
      · simp only [Nat.sub_eq_zero_of_le pastName, List.replicate_zero, List.append_nil, List.append_assoc]
        congr 3; omega
    rw [cutTo_behind behind, show record.front.length + 1 + m - record.front.length - 1 = m by omega, cutBoth, decode_front]
    refine ⟨_, rfl, ?_⟩
    rw [show record.front.length + 1 + m - record.front.length - 101 = m - 100 by omega]
    exact CharArray.cString_cut data (m - 100)
  · obtain ⟨shape, noColon⟩ := cutTo_front (record.NAME.toList ++ record.RDATA.toList) record.front_plain inFront
    have zeros : (CharArray.zeros 100).toList = List.replicate 100 0 := rfl
    have before : (record.front.take k ++ List.replicate (100 - k) 0).length = 100 := by
      rw [List.length_append, List.length_take, List.length_replicate]; omega
    let name : CharArray 100 := ⟨record.front.take k ++ List.replicate (100 - k) 0, before⟩
    have split : cutTo (record.front ++ 58 :: (record.NAME.toList ++ record.RDATA.toList)) k =
        (record.front.take k ++ List.replicate (100 - k) 0) ++
          ((CharArray.zeros 100).toList ++ List.replicate (record.front.length + 1) 0) := by
      rw [shape, ← List.replicate_succ, List.length_append, List.Vector.toList_length, List.Vector.toList_length, zeros,
        List.append_assoc, ← List.replicate_add, ← List.replicate_add]
      congr 2; omega
    have copiedName : CharArray.memcpy 100 (cutTo (record.front ++ 58 :: (record.NAME.toList ++ record.RDATA.toList)) k)
        (castInt (sizeT none) + 1) = .ok name := by
      rw [split]
      exact CharArray.memcpy_middle [] _ name (by decide)
    have copiedData : CharArray.memcpy 100 (cutTo (record.front ++ 58 :: (record.NAME.toList ++ record.RDATA.toList)) k)
        (castInt (sizeT none) + 101) = .ok (.zeros 100) := by
      rw [split]
      exact CharArray.memcpy_middle _ _ _ (by rw [before]; decide)
    refine ⟨_, by rw [decode, noColon, copiedName, copiedData]; rfl, ?_⟩
    rw [show k - record.front.length - 101 = 0 by omega, List.take_zero]
    rfl

end DNSRecord

end VStream
