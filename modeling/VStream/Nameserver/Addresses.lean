import VStream.Nameserver.Cache
import VStream.Nameserver.Rearrange

/-!
# Addresses in answers

An address becomes a number when a topology is loaded and text again in an
answer. It comes back as it was written only where it was written as `UINT_IP`
writes it.
-/

namespace VStream
open Cpp
open Std (TreeMap)

/-! ### Dotted quads -/

def quad (a b c d : Nat) : Bytes :=
  decimal a ++ text "." ++ decimal b ++ text "." ++ decimal c ++ text "." ++ decimal d

/-- Four numbers below 256 without leading zeros, and nothing else. -/
def Canonical (IP : Bytes) : Prop := ∃ a b c d, a < 256 ∧ b < 256 ∧ c < 256 ∧ d < 256 ∧ IP = quad a b c d

/-- An octet that is masked and shifted down. -/
theorem octet {IP mask : UInt32} {k : Nat} (narrow : k < 32) (shifted : mask.toNat >>> k = 255) :
    ((IP &&& mask) >>> UInt32.ofNat k).toNat = IP.toNat / 2 ^ k % 256 := by
  have amount : (UInt32.ofNat k).toNat % 32 = k := by
    rw [UInt32.toNat_ofNat_of_lt' (by simp only [UInt32.size]; omega), Nat.mod_eq_of_lt narrow]
  rw [UInt32.toNat_shiftRight, amount, UInt32.toNat_and, Nat.shiftRight_and_distrib, shifted, Nat.shiftRight_eq_div_pow]
  exact Nat.and_two_pow_sub_one_eq_mod _ 8

theorem uintIp_quad (IP : UInt32) :
    uintIp IP = quad (IP.toNat / 2 ^ 24 % 256) (IP.toNat / 2 ^ 16 % 256) (IP.toNat / 2 ^ 8 % 256)
      (IP.toNat / 2 ^ 0 % 256) := by
  have first := @octet IP 0xff000000 24 (by decide) (by decide)
  have second := @octet IP 0x00ff0000 16 (by decide) (by decide)
  have third := @octet IP 0x0000ff00 8 (by decide) (by decide)
  have fourth := @octet IP 0x000000ff 0 (by decide) (by decide)
  rw [uintIp, quad, ← first, ← second, ← third, ← fourth]
  rfl

theorem uintIp_canonical (IP : UInt32) : Canonical (uintIp IP) :=
  ⟨_, _, _, _, Nat.mod_lt _ (by decide), Nat.mod_lt _ (by decide), Nat.mod_lt _ (by decide), Nat.mod_lt _ (by decide),
    uintIp_quad IP⟩

/-- The digits of a number below 256, leading zeros allowed. -/
def Octet (digits : Bytes) (n : Nat) : Prop :=
  digits ≠ [] ∧ (∀ c ∈ digits, isDigit c = true) ∧ value digits = n ∧ n < 256

/-- A dotted quad and the number that it is. -/
inductive Dotted : Bytes → Nat → Prop where
  | quad {p q r s : Bytes} {a b c d : Nat} (first : Octet p a) (second : Octet q b) (third : Octet r c)
      (fourth : Octet s d) : Dotted (p ++ text "." ++ q ++ text "." ++ r ++ text "." ++ s)
        (a * 2 ^ 24 + b * 2 ^ 16 + c * 2 ^ 8 + d)

theorem octet_decimal {n : Nat} (small : n < 256) : Octet (decimal n) n :=
  ⟨decimal_ne_nil n, decimal_isDigit, value_decimal n, small⟩

namespace Cpp.IStream

theorem uint32_octet (old : UInt32) {digits : Bytes} {n : Nat} (octet : Octet digits n) {rest : Bytes}
    (ends : Ends rest) : uint32 old (of (digits ++ rest)) = (UInt32.ofNat n, { rest, eof := rest.isEmpty }) := by
  obtain ⟨some, decimal, rfl, small⟩ := octet
  have fits : value digits < 2 ^ 32 := by omega
  rw [uint32, number_digits some decimal ends]
  simp only [if_pos fits]
  rfl

theorem char_plain (old : UInt8) {c : UInt8} (plain : isSpace c = false) (rest : Bytes) :
    char old (of (c :: rest)) = (c, of rest) := by
  rw [char, skip_of_not_space plain]
  rfl

end Cpp.IStream

theorem Dotted.address {IP : Bytes} {n : Nat} (dotted : Dotted IP n) : IP ≠ text "NO_IP" := by
  cases dotted with
  | @quad p q r s a b c d first second third fourth =>
    intro same
    obtain ⟨c, digits, rfl⟩ := List.exists_cons_of_ne_nil first.1
    obtain rfl : c = 78 := (List.cons.inj same).1
    exact absurd (first.2.1 78 List.mem_cons_self) (by decide)

open IStream in
theorem ipUint_dotted {IP : Bytes} {n : Nat} (dotted : Dotted IP n) : (ipUint IP).toNat = n := by
  have address := dotted.address
  cases dotted with
  | @quad p q r s a b c d first second third fourth =>
    have shape : p ++ text "." ++ q ++ text "." ++ r ++ text "." ++ s =
        p ++ 46 :: (q ++ 46 :: (r ++ 46 :: (s ++ []))) := by
      simp only [List.append_assoc, List.append_nil]
      rfl
    have dot : isDigit 46 = false ∧ isSpace 46 = false := by decide
    have field : ∀ {digits : Bytes} {n : Nat}, Octet digits n → ∀ (old : UInt32) (rest : Bytes),
        uint32 old (of (digits ++ 46 :: rest)) = (UInt32.ofNat n, of (46 :: rest)) := fun octet old rest =>
      uint32_octet old octet (ends_cons.mpr dot.1)
    rw [ipUint, if_neg address, shape]
    dsimp only
    simp only [bind_apply, pure_apply, field first, field second, field third, char_plain _ dot.2,
      uint32_octet 0 fourth ends_nil]
    have whole : ∀ {digits : Bytes} {n : Nat}, Octet digits n → (UInt32.ofNat n).toNat = n := fun octet =>
      UInt32.toNat_ofNat_of_lt' (Nat.lt_trans octet.2.2.2 (by decide))
    simp only [UInt32.toNat_add, UInt32.toNat_shiftLeft, whole first, whole second, whole third, whole fourth,
      Nat.shiftLeft_eq]
    obtain ⟨-, -, -, first⟩ := first
    obtain ⟨-, -, -, second⟩ := second
    obtain ⟨-, -, -, third⟩ := third
    obtain ⟨-, -, -, fourth⟩ := fourth
    change (((a * 2 ^ 24 % 2 ^ 32 + b * 2 ^ 16 % 2 ^ 32) % 2 ^ 32 + c * 2 ^ 8 % 2 ^ 32) % 2 ^ 32 + d) % 2 ^ 32 = _
    omega

theorem dotted_quad {a b c d : Nat} (fits : a < 256 ∧ b < 256 ∧ c < 256 ∧ d < 256) :
    Dotted (quad a b c d) (a * 2 ^ 24 + b * 2 ^ 16 + c * 2 ^ 8 + d) := by
  obtain ⟨first, second, third, fourth⟩ := fits
  exact .quad (octet_decimal first) (octet_decimal second) (octet_decimal third) (octet_decimal fourth)

theorem ipUint_quad {a b c d : Nat} (fits : a < 256 ∧ b < 256 ∧ c < 256 ∧ d < 256) :
    (ipUint (quad a b c d)).toNat = a * 2 ^ 24 + b * 2 ^ 16 + c * 2 ^ 8 + d :=
  ipUint_dotted (dotted_quad fits)

/-- `UINT_IP` undoes `IP_UINT` on what it could have written itself, and on nothing else. -/
theorem uintIp_ipUint {IP : Bytes} : uintIp (ipUint IP) = IP ↔ Canonical IP := by
  constructor
  · intro same
    rw [← same]
    exact uintIp_canonical _
  · rintro ⟨a, b, c, d, first, second, third, fourth, rfl⟩
    rw [uintIp_quad, ipUint_quad ⟨first, second, third, fourth⟩]
    congr 1 <;> omega

theorem ipUint_uintIp (IP : UInt32) : ipUint (uintIp IP) = IP := by
  have bound := IP.toNat_lt
  have octet : ∀ n : Nat, n % 256 < 256 := fun n => Nat.mod_lt n (by decide)
  apply UInt32.toNat_inj.mp
  rw [uintIp_quad, ipUint_quad ⟨octet _, octet _, octet _, octet _⟩]
  omega

/-- Numbers and dotted quads without leading zeros are in bijection. -/
theorem addresses_inverse : Function.LeftInverse ipUint uintIp ∧ Set.LeftInvOn uintIp ipUint {IP | Canonical IP} ∧
    Set.InjOn ipUint {IP | Canonical IP} := by
  have back : Set.LeftInvOn uintIp ipUint {IP | Canonical IP} := fun IP canonical => uintIp_ipUint.mpr canonical
  exact ⟨ipUint_uintIp, back, back.injOn⟩

namespace Geography

/-! ### Nodes and their lines -/

/-- Every node comes from a line. -/
def Listed (lines : List (Int × Bytes × Bytes)) (geo : Geography) : Prop :=
  ∀ (id : Int) (node : Node), geo.nodes[id]? = some node → ∃ line ∈ lines, Node.make line.1 line.2.1 line.2.2 = .ok node

theorem addNode_listed {lines : List (Int × Bytes × Bytes)} {geo geo' : Geography} (listed : Listed lines geo)
    {id : Int} {type ip : Bytes} (added : geo.addNode id type ip = .ok geo') : Listed (lines ++ [(id, type, ip)]) geo' := by
  unfold addNode at added
  split at added
  · obtain ⟨node, made, added⟩ := bind_ok added
    cases added
    intro other node' entry
    dsimp only at entry
    rw [TreeMap.getElem?_insert] at entry
    split at entry
    · cases entry
      exact ⟨_, List.mem_append_right _ (List.mem_singleton_self _), made⟩
    · obtain ⟨line, member, made'⟩ := listed other node' entry
      exact ⟨line, List.mem_append_left _ member, made'⟩
  · cases added

theorem load_listed {u : Nat → Int × Int × Int} {contents : Bytes} {geo : Geography}
    (loaded : load u (some contents) = .ok geo) : Listed (nodeLines contents) geo := by
  rw [load_lines] at loaded
  obtain ⟨bare, added, loaded⟩ := bind_ok loaded
  have start : Listed [] {} := by
    intro id node entry
    simp at entry
  have listed := @foldlM_inv _ _ _ Listed (fun _ _ _ _ listed next => addNode_listed listed next) [] _ _ _ start added
  cases loaded
  intro id node entry
  rw [(addLinks_keeps _ _).1] at entry
  exact listed id node entry

theorem make_server {id : Int} {type ip : Bytes} {node : Node} (made : Node.make id type ip = .ok node)
    (server : node.type = .SERVER) : type = text "SERVER" ∧ node.ip = ipUint ip := by
  unfold Node.make at made
  split_ifs at made with client switch here <;> cases made
  · cases server
  · cases server
  · exact ⟨here, rfl⟩

/-- A server of the network stands in a line for a server, with its address. -/
theorem server_line {u : Nat → Int × Int × Int} {contents : Bytes} {geo : Geography}
    (loaded : load u (some contents) = .ok geo) {id : Int} (server : geo.network.type id = .SERVER) :
    ∃ line ∈ nodeLines contents, line.2.1 = text "SERVER" ∧ geo.network.ip id = ipUint line.2.2 := by
  change (geo.nodeAt id).type = .SERVER at server
  change ∃ line ∈ nodeLines contents, line.2.1 = text "SERVER" ∧ (geo.nodeAt id).ip = ipUint line.2.2
  unfold nodeAt at server ⊢
  rw [TreeMap.getD_eq_getD_getElem?] at server ⊢
  cases entry : geo.nodes[id]? with
  | none =>
    rw [entry] at server
    cases server
  | some node =>
    rw [entry] at server
    obtain ⟨line, member, made⟩ := load_listed loaded id node entry
    exact ⟨line, member, make_server made server⟩

/-! ### Answers -/

theorem reply_server {geo : Geography} {clientIP s : Bytes} (replied : geo.reply clientIP = .ok s) (some : s ≠ []) :
    ∃ id, geo.network.type id = .SERVER ∧ s = uintIp (geo.network.ip id) := by
  unfold reply at replied
  split at replied
  · cases replied
    exact absurd rfl some
  split at replied
  · cases replied
    exact absurd rfl some
  obtain ⟨found, searched, replied⟩ := bind_ok replied
  cases replied
  cases found with
  | server id => exact ⟨id, (lookup_server searched).1, rfl⟩
  | pastEnd => exact absurd rfl some
  | empty => exact absurd rfl some

theorem findServers_replies {fresh geo geo' : Geography} (consistent : Consistent fresh geo)
    {calls : List ((TreeMap UInt32 UInt32 → Nat) × Bytes)} {answers : List Bytes}
    (run : geo.findServers calls = .ok (answers, geo')) {s : Bytes} (member : s ∈ answers) :
    ∃ clientIP, fresh.reply clientIP = .ok s := by
  induction calls generalizing geo answers with
  | nil =>
    cases run
    cases member
  | cons call calls ih =>
    obtain ⟨⟨first, next⟩, called, run⟩ := bind_ok run
    obtain ⟨⟨rest, last⟩, later, run⟩ := bind_ok run
    cases run
    have replied := findServer_reply consistent call.1 call.2
    rw [called] at replied
    cases here : fresh.reply call.2 with
    | error stop =>
      rw [here] at replied
      exact replied.elim
    | ok answer =>
      rw [here] at replied
      obtain ⟨rfl, consistent'⟩ := replied
      rcases List.mem_cons.mp member with rfl | member
      · exact ⟨call.2, here⟩
      · exact ih consistent' later member

/-- A line for a server has no address. -/
def Unaddressed (contents : Bytes) : Prop :=
  ∃ line ∈ nodeLines contents, line.2.1 = text "SERVER" ∧ line.2.2 = text "NO_IP"

theorem uintIp_noIp : uintIp (ipUint (text "NO_IP")) = text "0.0.0.0" := by decide +kernel

/-- Every answer, but for 0.0.0.0 where a server has no address, is the address of a server's line as `UINT_IP` writes it,
which is the text in the line exactly where that is a dotted quad of its form. -/
theorem answers_listed {u : Nat → Int × Int × Int} {contents : Bytes} {fresh geo : Geography}
    (loaded : load u (some contents) = .ok fresh) {calls : List ((TreeMap UInt32 UInt32 → Nat) × Bytes)}
    {answers : List Bytes} (run : fresh.findServers calls = .ok (answers, geo)) :
    ∀ s ∈ answers, s ≠ [] → (Unaddressed contents → s ≠ text "0.0.0.0") →
      ∃ line ∈ nodeLines contents, line.2.1 = text "SERVER" ∧ line.2.2 ≠ text "NO_IP" ∧
        s = uintIp (ipUint line.2.2) ∧ (s = line.2.2 ↔ Canonical line.2.2) := by
  intro s member some other
  obtain ⟨clientIP, replied⟩ := findServers_replies (consistent_loaded loaded) run member
  obtain ⟨id, server, rfl⟩ := reply_server replied some
  obtain ⟨line, listed, type, ip⟩ := server_line loaded server
  rw [ip] at other ⊢
  refine ⟨line, listed, type, ?_, rfl, uintIp_ipUint⟩
  intro none
  apply other ⟨line, listed, type, none⟩
  rw [none]
  exact uintIp_noIp

/-- The one answer of a run on a file. -/
theorem one_answer {contents clientIP s : Bytes}
    (evaluated : (load sampleUninit (some contents) >>= fun geo =>
      geo.findServers [(fun _ => 0, clientIP)]).map Prod.fst = .ok [s]) : ∃ fresh geo, load sampleUninit (some contents) = .ok fresh ∧
    fresh.findServers [(fun _ => 0, clientIP)] = .ok ([s], geo) := by
  cases loaded : load sampleUninit (some contents) with
  | error stop =>
    rw [loaded] at evaluated
    cases evaluated
  | ok fresh =>
    rw [loaded, ok_bind] at evaluated
    cases run : fresh.findServers [(fun _ => 0, clientIP)] with
    | error stop =>
      rw [run] at evaluated
      cases evaluated
    | ok result =>
      rw [run] at evaluated
      obtain ⟨answers, geo⟩ := result
      obtain rfl : answers = [s] := Except.ok.inj evaluated
      exact ⟨fresh, geo, rfl, run⟩

theorem answers_listed_sample : ∃ fresh geo, load sampleUninit (some sampleFile) = .ok fresh ∧
    fresh.findServers [(fun _ => 0, text "10.0.0.1")] = .ok ([text "10.0.0.2"], geo) ∧
    ∃ line ∈ nodeLines sampleFile, line.2.1 = text "SERVER" ∧ line.2.2 ≠ text "NO_IP" ∧
      text "10.0.0.2" = uintIp (ipUint line.2.2) ∧ (text "10.0.0.2" = line.2.2 ↔ Canonical line.2.2) := by
  obtain ⟨fresh, geo, loaded, run⟩ := @one_answer sampleFile (text "10.0.0.1") (text "10.0.0.2") (by decide +kernel)
  have listed := answers_listed loaded run (text "10.0.0.2") (List.mem_singleton_self _) (by decide +kernel)
  exact ⟨fresh, geo, loaded, run, listed fun _ => by decide +kernel⟩

def paddedFile : Bytes := text "NUM_NODES: 2\n0 CLIENT 10.0.0.1\n1 SERVER 010.0.0.2\nNUM_LINKS: 1\n0 1 5\n"

def noAddressFile : Bytes := text "NUM_NODES: 2\n0 CLIENT 10.0.0.1\n1 SERVER NO_IP\nNUM_LINKS: 1\n0 1 5\n"

/-- An address with a leading zero comes back without it, and a server without an address answers as 0.0.0.0. -/
theorem address_not_listed :
    (∃ fresh geo, load sampleUninit (some noAddressFile) = .ok fresh ∧
      fresh.findServers [(fun _ => 0, text "10.0.0.1")] = .ok ([text "0.0.0.0"], geo)) ∧
    ¬ ∀ (u : Nat → Int × Int × Int) (contents : Bytes) (fresh geo : Geography), load u (some contents) = .ok fresh →
      ∀ (calls : List ((TreeMap UInt32 UInt32 → Nat) × Bytes)) (answers : List Bytes),
        fresh.findServers calls = .ok (answers, geo) → ∀ s ∈ answers, s ≠ [] →
          ∃ line ∈ nodeLines contents, line.2.1 = text "SERVER" ∧ line.2.2 ≠ text "NO_IP" ∧ s = line.2.2 := by
  refine ⟨one_answer (by decide +kernel), fun always => ?_⟩
  obtain ⟨fresh, geo, loaded, run⟩ := @one_answer paddedFile (text "10.0.0.1") (text "10.0.0.2") (by decide +kernel)
  have listed := always _ _ _ _ loaded _ _ run _ (List.mem_singleton_self _) (by decide +kernel)
  revert listed
  decide +kernel

end Geography

end VStream
