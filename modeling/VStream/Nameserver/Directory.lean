import VStream.Nameserver.Choice
import VStream.Nameserver.Layout
import VStream.Nameserver.Lookups

/-!
# What a written topology answers

From the text of a topology to the replies of the nameserver: every connection
that asks for the one name from a client of the plan is answered with the
address of the server nearest to that client in the plan.
-/

namespace VStream
open Cpp Net ShortestPath BestFirst
open Std (TreeMap)

namespace Geography.Plan

/-- A link of the plan from either end. Behind the client that asks no other client is passed. -/
def link (plan : Plan) (v w c : Int) : Prop :=
  ((v, w, c) ∈ plan.links ∨ (w, v, c) ∈ plan.links) ∧ ∃ host ∈ plan.hosts, host.id = w ∧ host.type ≠ .CLIENT

def Server (plan : Plan) (id : Int) : Prop := ∃ host ∈ plan.hosts, host.id = id ∧ host.type = .SERVER

/-- The client with this address is nearest to the server with the address `ip`. -/
def Chosen (plan : Plan) (clientIP ip : Bytes) : Prop :=
  ∃ client ∈ plan.hosts, client.type = .CLIENT ∧ client.address = some (ipUint clientIP) ∧
    ∃ server ∈ plan.hosts, ∃ d, Nearest plan.link client.id plan.Server server.id d ∧
      ip = uintIp (server.address.getD 0)

/-- Every link costs something, the costs fit an `int` together, and every client reaches a server. -/
structure Sound (plan : Plan) : Prop where
  positive : ∀ link ∈ plan.links, 0 < link.2.2
  total : (plan.links.map fun link => link.2.2).sum ≤ intMax
  reaches : ∀ client ∈ plan.hosts, client.type = .CLIENT →
    ∃ t k, Walk plan.link client.id t k ∧ plan.Server t

theorem mem_ends {v : Int} {n : Neighbor} {links : List (Int × Int × Int)} :
    n ∈ links.flatMap (ends v) ↔ (v, n.id, n.distance) ∈ links ∨ (n.id, v, n.distance) ∈ links := by
  rw [← List.count_pos_iff, ← List.count_pos_iff, ← List.count_pos_iff, count_ends, Nat.add_pos_iff_pos_or_pos]

section loaded
variable {plan : Plan} {geo : Geography} (loaded : Loaded plan geo)
include loaded

theorem Loaded.nodeAt {host : Host} (member : host ∈ plan.hosts) : geo.nodeAt host.id = host.node := by
  have entry := (loaded.nodes host.id host.node).mpr ⟨host, member, rfl, rfl⟩
  rw [Geography.nodeAt, TreeMap.getD_eq_getD_getElem?, entry]
  rfl

/-- An id without a host is taken for a client. -/
theorem Loaded.type {id : Int} {type : NodeType} (other : type ≠ .CLIENT) :
    geo.network.type id = type ↔ ∃ host ∈ plan.hosts, host.id = id ∧ host.type = type := by
  constructor
  · intro here
    cases entry : geo.nodes[id]? with
    | none =>
      have client : geo.network.type id = .CLIENT := by
        rw [network]
        dsimp only
        rw [Geography.nodeAt, TreeMap.getD_eq_getD_getElem?, entry]
        rfl
      exact absurd (here.symm.trans client) other
    | some node =>
      obtain ⟨host, member, rfl, rfl⟩ := (loaded.nodes id node).mp entry
      have at' := loaded.nodeAt member
      refine ⟨host, member, rfl, ?_⟩
      rw [← here, network]
      dsimp only
      rw [at']
      rfl
  · intro host
    obtain ⟨host, member, rfl, rfl⟩ := host
    rw [network]
    dsimp only
    rw [loaded.nodeAt member]
    rfl

theorem Loaded.network_link : geo.network.link = plan.link := by
  funext v w c
  apply propext
  have other : geo.network.type w ≠ .CLIENT ↔ ∃ host ∈ plan.hosts, host.id = w ∧ host.type ≠ .CLIENT := by
    constructor
    · intro inner
      obtain ⟨host, member, same, type⟩ := (loaded.type inner).mp rfl
      exact ⟨host, member, same, type ▸ inner⟩
    · intro host
      obtain ⟨host, member, same, inner⟩ := host
      rw [(loaded.type inner).mpr ⟨host, member, same, rfl⟩]
      exact inner
  unfold Network.link link
  rw [other]
  change (∃ n ∈ geo.edgesAt v, _) ↔ _
  simp only [loaded.edges, mem_ends]
  constructor
  · intro step
    obtain ⟨n, listed, rfl, rfl, inner⟩ := step
    exact ⟨listed, inner⟩
  · intro step
    exact ⟨⟨w, c⟩, step.1, rfl, rfl, step.2⟩

theorem Loaded.network_server : geo.network.Server = plan.Server :=
  funext fun _ => propext (loaded.type (by decide))

/-- The sums of every search are in range. -/
theorem Loaded.inRange (sound : plan.Sound) (origin x : Int)
    (sum : Sum geo.network.link origin geo.network.Server x) : intMin ≤ x ∧ x ≤ intMax := by
  rw [loaded.network_link] at sum
  obtain ⟨vs, w, path⟩ := sum.path
  have nonneg : ∀ v w c, plan.link v w c → 0 ≤ c := by
    intro v w c step
    rcases step.1 with forth | back
    · exact (sound.positive _ forth).le
    · exact (sound.positive _ back).le
  have low : 0 ≤ x := path_nonneg nonneg path
  have high := path_le (fun link member => (sound.positive link member).le) (fun v w c step => step.1) path
  exact ⟨(show intMin ≤ 0 by decide).trans low, high.trans sound.total⟩

theorem Loaded.reply (sound : plan.Sound) (clientIP : Bytes) :
    (∃ ip, plan.Chosen clientIP ip ∧ geo.reply clientIP = .ok ip) ∨
      (∀ ip, ¬plan.Chosen clientIP ip) ∧ geo.reply clientIP = .ok [] := by
  cases owner : geo.IPmap[ipUint clientIP]? with
  | none =>
    refine .inr ⟨fun ip chosen => ?_, by rw [Geography.reply, owner]⟩
    obtain ⟨client, member, -, carries, -⟩ := chosen
    rw [(loaded.IPmap _ client.id).mpr ⟨client, member, rfl, carries⟩] at owner
    cases owner
  | some origin =>
    obtain ⟨host, member, rfl, carries⟩ := (loaded.IPmap _ origin).mp owner
    have node := loaded.nodeAt member
    by_cases client : host.type = .CLIENT
    · have type : (geo.nodeAt host.id).type = .CLIENT := by
        rw [node]
        exact client
      have positive : ∀ v, ∀ n ∈ geo.edgesAt v, 0 < n.distance := by
        intro v n here
        rw [loaded.edges, mem_ends] at here
        rcases here with forth | back
        · exact sound.positive _ forth
        · exact sound.positive _ back
      have reachable := sound.reaches host member client
      rw [← loaded.network_link, ← loaded.network_server] at reachable
      obtain ⟨s, d, nearest, replied⟩ := reply_nearest owner type positive (loaded.inRange sound host.id) reachable
      rw [loaded.network_link, loaded.network_server] at nearest
      obtain ⟨server, listed, rfl, -⟩ := nearest.here
      rw [loaded.nodeAt listed] at replied
      exact .inl ⟨_, ⟨host, member, client, carries, server, listed, d, nearest, rfl⟩, replied⟩
    · have type : geo.network.type host.id ≠ .CLIENT := by
        change (geo.nodeAt host.id).type ≠ _
        rw [node]
        exact client
      refine .inr ⟨fun ip chosen => ?_, ?_⟩
      · obtain ⟨other, listed, also, carries', -⟩ := chosen
        have owner' := (loaded.IPmap _ other.id).mpr ⟨other, listed, rfl, carries'⟩
        rw [owner] at owner'
        have node' := loaded.nodeAt listed
        rw [← Option.some.inj owner', node] at node'
        exact client ((congrArg Node.type node').trans also)
      · rw [Geography.reply, owner]
        dsimp only
        rw [if_pos type]

end loaded

/-- A client is given one address. -/
theorem Chosen.unique {plan : Plan} {clientIP ip ip' : Bytes} (chosen : plan.Chosen clientIP ip)
    (chosen' : plan.Chosen clientIP ip') : ip = ip' := by
  obtain ⟨geo, loaded, -⟩ := plan.load_plan
  obtain ⟨client, member, -, carries, server, listed, d, nearest, rfl⟩ := chosen
  obtain ⟨client', member', -, carries', server', listed', d', nearest', rfl⟩ := chosen'
  have owner := (loaded.IPmap _ client.id).mpr ⟨client, member, rfl, carries⟩
  rw [(loaded.IPmap _ client'.id).mpr ⟨client', member', rfl, carries'⟩] at owner
  rw [Option.some.inj owner] at nearest'
  obtain ⟨same, -⟩ := nearest.unique nearest'
  have node := loaded.nodeAt listed
  rw [same, loaded.nodeAt listed'] at node
  rw [Host.node_inj (plan.zero server' listed') (plan.zero server listed) node]

end Geography.Plan

namespace Nameserver
open Geography

/-- What a connection is answered, and its line in the log. -/
def Handled (plan : Plan) (a : Arrival) (reply line : Bytes) : Prop :=
  (a.valid = true ∧ ∃ ip, plan.Chosen a.clientIP ip ∧ Answer a.header ip reply ∧ line = logLine a.clientIP ip) ∨
    (a.valid = false ∨ ∀ ip, ¬plan.Chosen a.clientIP ip) ∧ reply = refusal a.header ∧ line = []

theorem fits_uintIp (IP : UInt32) : Fits (uintIp IP) := by
  obtain ⟨a, b, c, d, first, second, third, fourth, shape⟩ := uintIp_canonical IP
  rw [shape]
  have dot : (0 : UInt8) ∉ text "." := by decide
  have octet : ∀ {n : Nat}, n < 256 → (0 : UInt8) ∉ decimal n ∧ (decimal n).length ≤ 3 := fun small =>
    ⟨byte_absent rfl _, decimal_length_le (by decide) (small.trans (by decide))⟩
  obtain ⟨plain₁, short₁⟩ := octet first
  obtain ⟨plain₂, short₂⟩ := octet second
  obtain ⟨plain₃, short₃⟩ := octet third
  obtain ⟨plain₄, short₄⟩ := octet fourth
  constructor
  · simp only [quad, List.mem_append, not_or]
    exact ⟨⟨⟨⟨⟨⟨plain₁, dot⟩, plain₂⟩, dot⟩, plain₃⟩, dot⟩, plain₄⟩
  · have one : (text ".").length = 1 := rfl
    simp only [quad, List.length_append, one]
    omega

section served
variable {plan : Plan} {geo : Geography} {ns : Nameserver}

theorem selectServer_some (serves : Serves geo ns) (begin : TreeMap UInt32 UInt32 → Nat) {clientIP ip : Bytes}
    (replied : geo.reply clientIP = .ok ip) :
    ∃ ns', selectServer begin ns clientIP = .ok (ip, ns') ∧ Serves geo ns' ∧ ns'.log = ns.log := by
  have selects := selectServer_reply serves begin clientIP
  rw [replied] at selects
  cases selected : selectServer begin ns clientIP with
  | error stop =>
    rw [selected] at selects
    exact selects.elim
  | ok result =>
    rw [selected] at selects
    obtain ⟨answer, ns'⟩ := result
    obtain ⟨rfl, serves', log⟩ := selects
    exact ⟨ns', rfl, serves', log⟩

theorem handleConnection_handled (loaded : Plan.Loaded plan geo) (sound : plan.Sound) (serves : Serves geo ns)
    {a : Arrival} (ok : a.WellFormed) : ∃ t ns' line, handleConnection a.u ns a.clientIP a.sock = .ok (t, ns') ∧
      Serves geo ns' ∧ Handled plan a t.sent line ∧ ns'.log = ns.log ++ line := by
  have incoming : a.sock.incoming = query a.header a.question ++ [] := (List.append_nil _).symm
  have writable : ({ a.sock with incoming := [] } : Sock).Writable := ok.writable
  rw [handleConnection_whole a.u a.clientIP a.header incoming rfl]
  cases valid : a.valid with
  | false =>
    have other : a.name ≠ domainName := fun same => by simp [Arrival.valid, same] at valid
    obtain ⟨t, refused, -, sent⟩ := answerQuery_other a.u a.clientIP a.header ok.cString other writable
    exact ⟨t, ns, [], refused, serves, .inr ⟨.inl valid, sent, rfl⟩, (List.append_nil _).symm⟩
  | true =>
    have asked : a.question.QNAME.cString = .ok domainName := by rw [ok.cString, eq_of_beq valid]
    rcases loaded.reply sound a.clientIP with ⟨ip, chosen, replied⟩ | ⟨nothing, replied⟩
    · obtain ⟨ns', selected, serves', log⟩ := selectServer_some serves a.u.begin replied
      obtain ⟨-, -, -, -, server, -, d, -, address⟩ := id chosen
      have found : ip ≠ [] := address ▸ uintIp_ne_nil _
      have fits : Fits ip := address ▸ fits_uintIp _
      obtain ⟨t, reply, answered, -, sent, carries⟩ :=
        answerQuery_some a.u a.clientIP a.header asked selected found fits writable
      refine ⟨t, _, logLine a.clientIP ip, answered, ⟨serves'.mode, serves'.geo⟩, .inl ⟨valid, ip, chosen, ?_, rfl⟩, ?_⟩
      · rw [sent]
        exact carries
      · exact congrArg (· ++ logLine a.clientIP ip) log
    · obtain ⟨ns', selected, serves', log⟩ := selectServer_some serves a.u.begin replied
      obtain ⟨t, refused, -, sent⟩ := answerQuery_none a.u a.clientIP a.header asked selected writable
      exact ⟨t, ns', [], refused, serves', .inr ⟨.inr nothing, sent, rfl⟩, log.trans (List.append_nil _).symm⟩

theorem serve_handled (loaded : Plan.Loaded plan geo) (sound : plan.Sound) (serves : Serves geo ns)
    {arrivals : List Arrival} (ok : ∀ a ∈ arrivals, a.WellFormed) :
    ∃ exchanges ns', serve ns arrivals = .ok (exchanges.map Prod.fst, ns') ∧
      List.Forall₂ (fun a exchange => Handled plan a exchange.1 exchange.2) arrivals exchanges ∧
      ns'.log = ns.log ++ exchanges.flatMap Prod.snd := by
  induction arrivals generalizing ns with
  | nil => exact ⟨[], ns, rfl, .nil, (List.append_nil _).symm⟩
  | cons a arrivals ih =>
    obtain ⟨here, ok⟩ := List.forall_mem_cons.mp ok
    obtain ⟨t, ns₁, line, handled, serves₁, exchange, log₁⟩ := handleConnection_handled loaded sound serves here
    obtain ⟨exchanges, ns', served, later, log⟩ := ih serves₁ ok
    refine ⟨(t.sent, line) :: exchanges, ns', serve_cons handled served, .cons exchange later, ?_⟩
    rw [log, log₁, List.append_assoc, List.flatMap_cons]

end served

/-- A nameserver started on the file of a sound plan answers every connection, whatever came before, with the address of
the server nearest to the client in the plan, refuses those that are not a client's, and logs what it answered. -/
theorem plan_served {plan : Plan} (sound : plan.Sound) (u : Nat → Int × Int × Int) {contents : Bytes}
    (written : Cpp.fields contents = plan.fields) {arrivals : List Arrival} (ok : ∀ a ∈ arrivals, a.WellFormed) :
    ∃ geo exchanges ns, load u (some contents) = .ok geo ∧
      serve (ofMap geo) arrivals = .ok (exchanges.map Prod.fst, ns) ∧
      List.Forall₂ (fun a exchange => Handled plan a exchange.1 exchange.2) arrivals exchanges ∧
      ns.log = exchanges.flatMap Prod.snd := by
  obtain ⟨geo, loaded, reads⟩ := plan.load_plan
  have read := reads u contents written
  have start : Serves geo (ofMap geo) := ⟨rfl, consistent_loaded read⟩
  obtain ⟨exchanges, ns, served, handled, log⟩ := serve_handled loaded sound start ok
  exact ⟨geo, exchanges, ns, read, served, handled, log⟩

theorem sample_sound : Plan.sample.Sound where
  positive := by decide
  total := by decide
  reaches := by
    intro client member type
    have first : client = ⟨0, .CLIENT, some 0x0a000001⟩ ∨ client = ⟨1, .SERVER, some 0x0a000002⟩ := by
      simpa [Plan.sample] using member
    rcases first with rfl | rfl
    · have step : Plan.sample.link 0 1 5 :=
        ⟨.inl List.mem_cons_self, ⟨1, .SERVER, some 0x0a000002⟩, by decide, rfl, by decide⟩
      exact ⟨1, 0 + 5, .snoc .nil step, ⟨1, .SERVER, some 0x0a000002⟩, by decide, rfl, rfl⟩
    · cases type

end Nameserver

end VStream
