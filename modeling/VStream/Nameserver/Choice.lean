import VStream.Graph.Nearest
import VStream.Nameserver.Distances

/-!
# The server that is chosen

Where every link costs something, the network alone says which server a client
is given: the nearest one and, of several as near, the one with the least id.
-/

namespace VStream
open Cpp ShortestPath BestFirst
open Std (TreeMap)

namespace Network
variable {net : Network} {origin : Int}

/-- A search whose rounds go through finds the nearest server, if it can reach any. -/
theorem search_nearest {fuel : Nat} (ends : net.search fuel origin ≠ .error .diverges)
    (goes : ∀ s, Rounds net.step (.start origin) s → ∃ p, net.step s = .ok p)
    (positive : ∀ v w c, net.link v w c → 0 < c)
    (reachable : ∃ t k, Walk net.link origin t k ∧ net.type t = .SERVER) :
    ∃ s d, net.search fuel origin = .ok (.server s) ∧ Nearest net.link origin net.Server s d := by
  obtain ⟨found, searched⟩ := loop_goes goes ends
  obtain ⟨last, rounds, left⟩ := loop_left searched
  have result := (sweeping_rounds rounds).left left
  obtain ⟨t, k, walk, server⟩ := reachable
  cases found with
  | server id =>
    obtain ⟨taken, tracks⟩ := tracks_rounds rounds
    rcases step_leave left with ⟨other, -⟩ | ⟨same, here⟩ | ⟨other, -⟩
    · cases other
    · cases same
      exact ⟨_, _, searched, tracks.order.nearest positive here⟩
    · cases other
  | pastEnd => exact absurd server (result t k walk)
  | empty => exact result.elim

end Network

namespace Geography
variable {geo : Geography} {clientIP : Bytes} {origin : Int}

theorem reply_nearest (owner : geo.IPmap[ipUint clientIP]? = some origin) (client : (geo.nodeAt origin).type = .CLIENT)
    (positive : ∀ v, ∀ n ∈ geo.edgesAt v, 0 < n.distance)
    (inRange : ∀ x, Sum geo.network.link origin geo.network.Server x → intMin ≤ x ∧ x ≤ intMax)
    (reachable : ∃ t k, Walk geo.network.link origin t k ∧ (geo.nodeAt t).type = .SERVER) :
    ∃ s d, Nearest geo.network.link origin geo.network.Server s d ∧
      geo.reply clientIP = .ok (uintIp (geo.nodeAt s).ip) := by
  have costs : ∀ v w c, geo.network.link v w c → 0 < c := by
    intro v w c link
    obtain ⟨n, member, -, rfl, -⟩ := link
    exact positive v n member
  have goes := Network.rounds_go_iff.mpr inRange
  obtain ⟨s, d, searched, nearest⟩ := Network.search_nearest (lookup_ends geo origin) goes costs reachable
  have type : geo.network.type origin = .CLIENT := client
  have looked : geo.lookup origin = .ok (.server s) := searched
  refine ⟨s, d, nearest, ?_⟩
  unfold reply
  rw [owner]
  dsimp only
  rw [if_neg (not_not.mpr type), looked]
  rfl

/-- Whatever was asked before and whatever the cache has thrown out, a client that can reach a server is answered with
the address of the nearest one, and of several as near of the one with the least id. -/
theorem findServer_exact {u : Nat → Int × Int × Int} {file : Option Bytes} {fresh geo : Geography}
    (loaded : load u file = .ok fresh) {calls : List ((TreeMap UInt32 UInt32 → Nat) × Bytes)} {answers : List Bytes}
    (run : fresh.findServers calls = .ok (answers, geo)) {clientIP : Bytes} {origin : Int}
    (owner : fresh.IPmap[ipUint clientIP]? = some origin) (client : (fresh.nodeAt origin).type = .CLIENT)
    (positive : ∀ v, ∀ n ∈ fresh.edgesAt v, 0 < n.distance)
    (inRange : ∀ x, Sum fresh.network.link origin fresh.network.Server x → intMin ≤ x ∧ x ≤ intMax)
    (reachable : ∃ t k, Walk fresh.network.link origin t k ∧ (fresh.nodeAt t).type = .SERVER)
    (begin : TreeMap UInt32 UInt32 → Nat) :
    ∃ s d geo', Nearest fresh.network.link origin fresh.network.Server s d ∧
      geo.findServer begin clientIP = .ok (uintIp (fresh.nodeAt s).ip, geo') := by
  obtain ⟨s, d, nearest, replied⟩ := reply_nearest owner client positive inRange reachable
  have consistent := findServers_consistent (consistent_loaded loaded) run
  have call := findServer_reply consistent begin clientIP
  rw [replied] at call
  cases called : geo.findServer begin clientIP with
  | error stop =>
    rw [called] at call
    exact call.elim
  | ok result =>
    rw [called] at call
    obtain ⟨answer, geo'⟩ := result
    obtain ⟨rfl, -⟩ := call
    exact ⟨s, d, geo', nearest, rfl⟩

def sampleCalls : List ((TreeMap UInt32 UInt32 → Nat) × Bytes) :=
  [(fun _ => 0, text "10.0.0.9"), (fun _ => 0, text "10.0.0.1")]

/-- Of the two servers behind the switch, which are as near as one another, the one with the smaller id answers, also when
it is asked again. -/
theorem findServer_exact_sample : ∃ fresh geo answers, load sampleUninit (some branchFile) = .ok fresh ∧
    fresh.findServers sampleCalls = .ok (answers, geo) ∧
    (geo.findServer (fun _ => 0) (text "10.0.0.1")).map Prod.fst = .ok (text "10.0.0.3") ∧
    ∃ s d geo', Nearest fresh.network.link 0 fresh.network.Server s d ∧
      geo.findServer (fun _ => 0) (text "10.0.0.1") = .ok (uintIp (fresh.nodeAt s).ip, geo') := by
  obtain ⟨fresh, branches⟩ := load_branches
  have asked : (load sampleUninit (some branchFile) >>= fun fresh => fresh.findServers sampleCalls).map (fun result =>
      (result.2.findServer (fun _ => 0) (text "10.0.0.1")).map Prod.fst) = .ok (.ok (text "10.0.0.3")) := by decide +kernel
  obtain ⟨⟨answers, geo⟩, run, again⟩ := map_ok asked
  rw [branches.loaded, ok_bind] at run
  have inRange : ∀ x, Sum fresh.network.link 0 fresh.network.Server x → intMin ≤ x ∧ x ≤ intMax := by
    intro x sum
    obtain ⟨vs, w, path⟩ := sum.path
    exact branches.short path
  exact ⟨fresh, geo, answers, branches.loaded, run, again, findServer_exact branches.loaded run branches.owner
    branches.client branches.positive inRange ⟨1, 0 + 7, .snoc .nil branches.first, branches.server⟩ fun _ => 0⟩

end Geography

end VStream
