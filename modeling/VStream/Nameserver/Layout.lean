import VStream.Cpp.Fields
import VStream.Nameserver.Links
import VStream.Nameserver.RoundRobin

/-!
# Files of the nameserver

The list of servers and the topology as they are written down. A `Plan` is a
topology before it becomes a file; whatever white space the file has between
its fields, the constructor takes the plan in and nothing else.
-/

namespace VStream
open Cpp
open Std (TreeMap)

/-! ### Server lists -/

namespace RoundRobin

theorem readHosts_fields {s : IStream} (ready : s.Ready) (read : List Bytes) {fuel : Nat}
    (enough : s.rest.length < fuel) : loop readHosts fuel (s, read) = .ok (read ++ fields s.rest) := by
  induction fuel generalizing s read with
  | zero => omega
  | succ fuel ih =>
    cases some : fields s.rest with
    | nil =>
      have last := IStream.word_last [] some
      simp [loop, readHosts, last]
    | cons field more =>
      obtain ⟨first, ready', later⟩ := IStream.word_next [] ready some
      have shorter := (word_read ready'.good).2
      rw [loop, readHosts, ready'.good, first, ← later]
      simpa using ih ready' (read ++ [field]) (by omega)

/-- The list is the fields of the file, whatever its lines look like. -/
theorem load_fields (contents : Bytes) : load (some contents) = .ok { hosts := fields contents } := by
  have read := readHosts_fields (IStream.ready_of contents) [] (Nat.lt_succ_self _)
  have started : loop readHosts (contents.length + 1) (.of contents, []) = .ok ([] ++ fields contents) := read
  rw [load, started]
  rfl

end RoundRobin

namespace Geography

/-! ### Plans -/

/-- The word for a type in a file. -/
def word : NodeType → Bytes
  | .CLIENT => text "CLIENT"
  | .SWITCH => text "SWITCH"
  | .SERVER => text "SERVER"

structure Host where
  id : Int
  type : NodeType
  address : Option UInt32
  deriving DecidableEq

namespace Host

def ip (host : Host) : Bytes := host.address.elim (text "NO_IP") uintIp

def line (host : Host) : Int × Bytes × Bytes := (host.id, word host.type, host.ip)

def node (host : Host) : Node := { id := host.id, type := host.type, ip := host.address.getD 0 }

def fields (host : Host) : List Bytes := [signed host.id, word host.type, host.ip]

/-- Two hosts have neither an id nor an address in common. -/
def Apart (host other : Host) : Prop := host.id ≠ other.id ∧ (host.address = other.address → host.address = none)

instance : DecidableRel Apart := fun _ _ => inferInstanceAs (Decidable (_ ∧ _))

end Host

def InRange (n : Int) : Prop := intMin ≤ n ∧ n ≤ intMax

instance : DecidablePred InRange := fun _ => inferInstanceAs (Decidable (_ ∧ _))

/-- A topology that can be written down. The address 0.0.0.0 is what a file means by `NO_IP`. -/
structure Plan where
  hosts : List Host
  links : List (Int × Int × Int)
  apart : hosts.Pairwise Host.Apart
  zero : ∀ host ∈ hosts, host.address ≠ some 0
  ids : ∀ host ∈ hosts, InRange host.id
  costs : ∀ link ∈ links, InRange link.1 ∧ InRange link.2.1 ∧ InRange link.2.2
  counts : InRange hosts.length ∧ InRange links.length

namespace Plan

def linkFields (link : Int × Int × Int) : List Bytes := [signed link.1, signed link.2.1, signed link.2.2]

/-- The fields of a file with this plan. -/
def fields (plan : Plan) : List Bytes :=
  text "NUM_NODES:" :: signed plan.hosts.length :: plan.hosts.flatMap Host.fields ++
    text "NUM_LINKS:" :: signed plan.links.length :: plan.links.flatMap linkFields

/-- The file with a line for each host and each link. -/
def contents (plan : Plan) : Bytes :=
  row [text "NUM_NODES:", signed plan.hosts.length] ++ (plan.hosts.flatMap (fun host => row host.fields) ++
    (row [text "NUM_LINKS:", signed plan.links.length] ++ plan.links.flatMap fun link => row (linkFields link)))

/-- What a constructed object holds of a plan. -/
structure Loaded (plan : Plan) (geo : Geography) : Prop where
  nodes : ∀ (id : Int) (node : Node), geo.nodes[id]? = some node ↔ ∃ host ∈ plan.hosts, host.id = id ∧ host.node = node
  IPmap : ∀ (k : UInt32) (id : Int), geo.IPmap[k]? = some id ↔ ∃ host ∈ plan.hosts, host.id = id ∧ host.address = some k
  edges : ∀ a : Int, geo.edgesAt a = plan.links.flatMap (ends a)
  cache : geo.cache = ∅

end Plan

/-! ### Reading a plan -/

section reading
variable {s : IStream} {more : List Bytes}

theorem readNode_host {host : Host} (ready : s.Ready) (id : InRange host.id)
    (here : fields s.rest = host.fields ++ more) :
    (readNode s).1 = host.line ∧ (readNode s).2.Ready ∧ fields (readNode s).2.rest = more := by
  obtain ⟨first, ready₁, rest₁⟩ := IStream.int_next 0 ready id.1 id.2 here
  obtain ⟨second, ready₂, rest₂⟩ := IStream.word_next [] ready₁ rest₁
  obtain ⟨third, ready₃, rest₃⟩ := IStream.word_next [] ready₂ rest₂
  exact ⟨Prod.ext first (Prod.ext second third), ready₃, rest₃⟩

theorem linesOf_hosts {hosts : List Host} (ready : s.Ready) (ids : ∀ host ∈ hosts, InRange host.id)
    (here : fields s.rest = hosts.flatMap Host.fields ++ more) :
    linesOf hosts.length s = hosts.map Host.line ∧ (afterNodes hosts.length s).Ready ∧
      fields (afterNodes hosts.length s).rest = more := by
  induction hosts generalizing s with
  | nil => exact ⟨rfl, ready, here⟩
  | cons host hosts ih =>
    obtain ⟨id, ids⟩ := List.forall_mem_cons.mp ids
    rw [List.flatMap_cons, List.append_assoc] at here
    obtain ⟨line, ready', rest⟩ := readNode_host ready id here
    obtain ⟨lines, after⟩ := ih ready' ids rest
    exact ⟨congrArg₂ List.cons line lines, after⟩

theorem readLink_plan {link : Int × Int × Int} (u : Int × Int × Int) (ready : s.Ready)
    (costs : InRange link.1 ∧ InRange link.2.1 ∧ InRange link.2.2)
    (here : fields s.rest = Plan.linkFields link ++ more) :
    (readLink u s).1 = link ∧ (readLink u s).2.Ready ∧ fields (readLink u s).2.rest = more := by
  obtain ⟨origin, destination, cost⟩ := costs
  obtain ⟨first, ready₁, rest₁⟩ := IStream.int_next u.1 ready origin.1 origin.2 here
  obtain ⟨second, ready₂, rest₂⟩ := IStream.int_next u.2.1 ready₁ destination.1 destination.2 rest₁
  obtain ⟨third, ready₃, rest₃⟩ := IStream.int_next u.2.2 ready₂ cost.1 cost.2 rest₂
  exact ⟨Prod.ext first (Prod.ext second third), ready₃, rest₃⟩

/-- Every variable of a pass is read into. -/
theorem addedLinks_plan (u : Nat → Int × Int × Int) (i : Nat) {links : List (Int × Int × Int)} (ready : s.Ready)
    (costs : ∀ link ∈ links, InRange link.1 ∧ InRange link.2.1 ∧ InRange link.2.2)
    (here : fields s.rest = links.flatMap Plan.linkFields ++ more) : addedLinks u i links.length s = links := by
  induction links generalizing s i with
  | nil => rfl
  | cons link links ih =>
    obtain ⟨cost, costs⟩ := List.forall_mem_cons.mp costs
    rw [List.flatMap_cons, List.append_assoc] at here
    obtain ⟨first, ready', rest⟩ := readLink_plan (u i) ready cost here
    rw [List.length_cons, addedLinks, first, ih (i + 1) ready' costs rest]

theorem readCount_next {label : Bytes} {n : Nat} (ready : s.Ready) (count : InRange n)
    (here : fields s.rest = label :: signed n :: more) :
    (readCount s).1 = n ∧ (readCount s).2.Ready ∧ fields (readCount s).2.rest = more := by
  obtain ⟨-, ready₁, rest₁⟩ := IStream.word_next [] ready here
  obtain ⟨number, ready₂, rest₂⟩ := IStream.int_next 0 ready₁ count.1 count.2 rest₁
  have read : (readCount s).1 = (IStream.int 0 (IStream.word [] s).2).1.toNat := rfl
  exact ⟨by rw [read, number, Int.toNat_natCast], ready₂, rest₂⟩

end reading

/-! ### Taking a plan in -/

theorem dotted_uintIp (ip : UInt32) : Dotted (uintIp ip) ip.toNat := by
  obtain ⟨a, b, c, d, first, second, third, fourth, shape⟩ := uintIp_canonical ip
  have dotted := dotted_quad ⟨first, second, third, fourth⟩
  rw [← shape] at dotted
  have value := ipUint_dotted dotted
  rw [ipUint_uintIp] at value
  rw [value]
  exact dotted

theorem Host.dotted {host : Host} {n : Nat} : Dotted host.ip n ↔ ∃ ip, host.address = some ip ∧ ip.toNat = n := by
  constructor
  · intro dotted
    unfold Host.ip at dotted
    cases carries : host.address with
    | none =>
      rw [carries] at dotted
      exact absurd rfl dotted.address
    | some ip =>
      rw [carries] at dotted
      have value := ipUint_dotted dotted
      rw [Option.elim_some, ipUint_uintIp] at value
      exact ⟨ip, rfl, value⟩
  · intro carries
    obtain ⟨ip, carries, rfl⟩ := carries
    rw [Host.ip, carries]
    exact dotted_uintIp ip

theorem Host.ip_value (host : Host) : ipUint host.ip = host.address.getD 0 := by
  unfold Host.ip
  cases host.address with
  | none => rfl
  | some ip => exact ipUint_uintIp ip

theorem Host.wellFormed (host : Host) : WellFormed host.line := by
  constructor
  · unfold Recognised Host.line
    cases host.type with
    | CLIENT => exact .inl rfl
    | SWITCH => exact .inr (.inl rfl)
    | SERVER => exact .inr (.inr rfl)
  · cases carries : host.address with
    | none =>
      left
      change host.ip = _
      rw [Host.ip, carries]
      rfl
    | some ip => exact .inr ⟨ip.toNat, Host.dotted.mpr ⟨ip, carries, rfl⟩⟩

theorem Host.make (host : Host) : Node.make host.line.1 host.line.2.1 host.line.2.2 = .ok host.node := by
  have ip := host.ip_value
  unfold Node.make Host.line Host.node
  rw [← ip]
  cases host.type <;> rfl

theorem Host.Apart.different {host other : Host} (apart : host.Apart other) : Different host.line other.line := by
  refine ⟨apart.1, fun n both => ?_⟩
  obtain ⟨ip, here, same⟩ := Host.dotted.mp both.1
  obtain ⟨ip', there, same'⟩ := Host.dotted.mp both.2
  obtain rfl := UInt32.toNat_inj.mp (same.trans same'.symm)
  have none := apart.2 (here.trans there.symm)
  rw [here] at none
  cases none

namespace Plan
variable (plan : Plan)

def lines : List (Int × Bytes × Bytes) := plan.hosts.map Host.line

theorem wellFormed : ∀ line ∈ plan.lines, WellFormed line := by
  intro line member
  obtain ⟨host, -, rfl⟩ := List.mem_map.mp member
  exact host.wellFormed

theorem accepts : Accepts plan.lines := by
  have distinct : Distinct plan.lines := by
    apply List.pairwise_map.mpr
    exact plan.apart.imp fun apart => apart.different
  apply distinct.accepts plan.wellFormed
  intro line member _ _ both
  obtain ⟨host, here, rfl⟩ := List.mem_map.mp member
  obtain ⟨ip, carries, zero⟩ := Host.dotted.mp both.1
  obtain rfl : ip = 0 := UInt32.toNat_inj.mp zero
  exact plan.zero host here carries

theorem loaded_lines {bare : Geography} (added : addNodes plan.lines = .ok bare) :
    Loaded plan (bare.addLinks plan.links) := by
  have held := holds_lines plan.wellFormed added
  have only := (registered_lines added).only
  obtain ⟨nodes, IPmap, cache⟩ := addLinks_keeps bare plan.links
  have entry : ∀ host ∈ plan.hosts, bare.nodes[host.id]? = some host.node := by
    intro host member
    obtain ⟨node, made, entry⟩ := held.nodes host.line (List.mem_map_of_mem member)
    rw [host.make] at made
    cases made
    exact entry
  constructor
  case nodes =>
    intro id node
    rw [nodes]
    constructor
    · intro here
      obtain ⟨line, listed, same⟩ := only id node here
      obtain ⟨host, member, rfl⟩ := List.mem_map.mp listed
      have there := entry host member
      rw [show host.id = id from same, here] at there
      exact ⟨host, member, same, (Option.some.inj there).symm⟩
    · intro host
      obtain ⟨host, member, rfl, rfl⟩ := host
      exact entry host member
  case IPmap =>
    intro k id
    rw [IPmap, held.IPmap]
    constructor
    · intro line
      obtain ⟨line, listed, same, dotted⟩ := line
      obtain ⟨host, member, rfl⟩ := List.mem_map.mp listed
      obtain ⟨ip, carries, value⟩ := Host.dotted.mp dotted
      exact ⟨host, member, same, by rw [carries, UInt32.toNat_inj.mp value]⟩
    · intro host
      obtain ⟨host, member, same, carries⟩ := host
      exact ⟨host.line, List.mem_map_of_mem member, same, Host.dotted.mpr ⟨k, carries, rfl⟩⟩
  case edges =>
    intro a
    have nothing : bare.edgesAt a = [] := by
      rw [edgesAt, (addNodes_keeps added).2]
      simp
    rw [edgesAt_addLinks, nothing, List.nil_append]
  case cache => rw [cache, (addNodes_keeps added).1]

/-- However a file with the fields of a plan is laid out and whatever the variables held, it loads as one object, which
holds the hosts of the plan and its links from either end and in their order. -/
theorem load_plan : ∃ geo, Loaded plan geo ∧
    ∀ (u : Nat → Int × Int × Int) contents, Cpp.fields contents = plan.fields → load u (some contents) = .ok geo := by
  obtain ⟨bare, accepted⟩ := plan.accepts
  refine ⟨_, plan.loaded_lines accepted, fun u contents written => ?_⟩
  obtain ⟨hosts, ready, rest⟩ := readCount_next (IStream.ready_of contents) plan.counts.1 written
  obtain ⟨lines, ready, rest⟩ := linesOf_hosts ready plan.ids rest
  obtain ⟨links, ready, rest⟩ := readCount_next ready plan.counts.2 rest
  have added := addedLinks_plan u 0 ready plan.costs (by rw [rest, List.append_nil])
  have read : nodeLines contents = plan.lines := by
    rw [nodeLines, hosts, lines]
    rfl
  rw [load_lines, read, accepted, ok_bind, linkSection, hosts, links, added]

/-! ### Writing a plan -/

theorem solid_host (host : Host) : ∀ field ∈ host.fields, Solid field := by
  have type : Solid (word host.type) := by
    cases host.type <;> exact ⟨by decide, by decide +kernel⟩
  have address : Solid host.ip := by
    unfold Host.ip
    cases host.address with
    | none => exact ⟨by decide, by decide +kernel⟩
    | some ip =>
      have dot : Solid (text ".") := ⟨by decide, by decide +kernel⟩
      have octet := solid_decimal
      exact solid_append (solid_append (solid_append (solid_append (solid_append (solid_append (octet _) dot)
        (octet _)) dot) (octet _)) dot) (octet _)
  simp only [Host.fields, List.mem_cons, List.not_mem_nil, or_false, forall_eq_or_imp, forall_eq]
  exact ⟨solid_signed _, type, address⟩

theorem solid_link (link : Int × Int × Int) : ∀ field ∈ linkFields link, Solid field := by
  simp only [linkFields, List.mem_cons, List.not_mem_nil, or_false, forall_eq_or_imp, forall_eq]
  exact ⟨solid_signed _, solid_signed _, solid_signed _⟩

theorem solid_count {label : Bytes} (solid : Solid label) (n : Int) : ∀ field ∈ [label, signed n], Solid field := by
  simp only [List.mem_cons, List.not_mem_nil, or_false, forall_eq_or_imp, forall_eq]
  exact ⟨solid, solid_signed n⟩

theorem fields_contents : Cpp.fields plan.contents = plan.fields := by
  have nodes : Solid (text "NUM_NODES:") := ⟨by decide, by decide +kernel⟩
  have links : Solid (text "NUM_LINKS:") := ⟨by decide, by decide +kernel⟩
  have last := fields_rows (fun link (_ : link ∈ plan.links) => solid_link link) []
  rw [List.append_nil, fields_nil, List.append_nil] at last
  rw [contents, fields_row (solid_count nodes _), fields_rows fun host _ => solid_host host,
    fields_row (solid_count links _), last]
  rfl

/-! ### One plan for an object -/

theorem Host.node_inj {host other : Host} (zero : host.address ≠ some 0) (zero' : other.address ≠ some 0)
    (same : host.node = other.node) : host = other := by
  obtain ⟨id, type, address⟩ := host
  obtain ⟨id', type', address'⟩ := other
  obtain ⟨rfl, rfl, ip⟩ := Node.mk.inj same
  cases address with
  | none =>
    cases address' with
    | none => rfl
    | some ip' => exact absurd (congrArg some ip.symm) zero'
  | some k =>
    cases address' with
    | none => exact absurd (congrArg some ip) zero
    | some ip' => exact congrArg _ (congrArg some ip)

theorem Loaded.mem_iff {plan : Plan} {geo : Geography} (loaded : Loaded plan geo) {host : Host}
    (zero : host.address ≠ some 0) : host ∈ plan.hosts ↔ geo.nodes[host.id]? = some host.node := by
  rw [loaded.nodes]
  constructor
  · exact fun member => ⟨host, member, rfl, rfl⟩
  · intro there
    obtain ⟨other, member, -, same⟩ := there
    rw [← Host.node_inj (plan.zero other member) zero same]
    exact member

theorem hosts_nodup : plan.hosts.Nodup := plan.apart.imp fun apart same => apart.1 (congrArg Host.id same)

/-- An object holds at most one plan, up to the order of the hosts. -/
theorem Loaded.unique {plan plan' : Plan} {geo : Geography} (loaded : Loaded plan geo) (loaded' : Loaded plan' geo) :
    plan.hosts.Perm plan'.hosts := by
  apply (List.perm_ext_iff_of_nodup plan.hosts_nodup plan'.hosts_nodup).mpr
  intro host
  constructor
  · intro member
    have zero := plan.zero host member
    exact (loaded'.mem_iff zero).mpr ((loaded.mem_iff zero).mp member)
  · intro member
    have zero := plan'.zero host member
    exact (loaded.mem_iff zero).mpr ((loaded'.mem_iff zero).mp member)

/-- A plan comes back from its file, whatever white space the file has between its fields. -/
theorem layout_round_trip : ∃ geo, Loaded plan geo ∧ (∀ plan', Loaded plan' geo → plan.hosts.Perm plan'.hosts) ∧
    Cpp.fields plan.contents = plan.fields ∧
    ∀ (u : Nat → Int × Int × Int) contents, Cpp.fields contents = plan.fields → load u (some contents) = .ok geo := by
  obtain ⟨geo, loaded, reads⟩ := plan.load_plan
  exact ⟨geo, loaded, fun plan' loaded' => loaded.unique loaded', plan.fields_contents, reads⟩

def sample : Plan where
  hosts := [⟨0, .CLIENT, some 0x0a000001⟩, ⟨1, .SERVER, some 0x0a000002⟩]
  links := [(0, 1, 5)]
  apart := by decide
  zero := by decide
  ids := by decide
  costs := by decide
  counts := by decide

example : sample.contents = sampleFile := by decide +kernel

end Plan

end Geography

end VStream
