import VStream.Cpp.Endings
import VStream.Nameserver.Search

/-!
# Answers of `findServer`

One answer on an empty cache is the nearest server, and any run of calls with
the cache answers as a freshly loaded topology does.
-/

namespace VStream.Geography
open Cpp ShortestPath
open Std (TreeMap)

/-! ### Making room in the cache -/

theorem firstKey_mem (begin : TreeMap UInt32 UInt32 → Nat) {cache : TreeMap UInt32 UInt32} (full : 0 < cache.size) :
    firstKey begin cache ∈ cache := by
  have inside : begin cache % cache.size < cache.keys.length := by
    rw [TreeMap.length_keys]; exact Nat.mod_lt _ full
  rw [firstKey, List.getD_eq_getElem _ _ inside, ← TreeMap.mem_keys]
  exact List.getElem_mem inside

theorem dumpCache_spec (begin : TreeMap UInt32 UInt32 → Nat) (cache : TreeMap UInt32 UInt32) :
    ∃ kept, dumpCache begin cache = .ok kept ∧ kept.size < cacheSize ∧
      ∀ k v : UInt32, kept[k]? = some v → cache[k]? = some v := by
  refine loop_total (fun left => ∀ k v : UInt32, left[k]? = some v → cache[k]? = some v)
    (fun left : TreeMap UInt32 UInt32 => left.size < cacheSize ∧ ∀ k v : UInt32, left[k]? = some v → cache[k]? = some v)
    (fun left : TreeMap UInt32 UInt32 => left.size) ?_ (fun _ _ h => h) (Nat.lt_succ_self _)
  intro left inv
  by_cases full : cacheSize ≤ left.size
  · have positive : 0 < left.size := Nat.lt_of_lt_of_le (by decide) full
    have less : (left.erase (firstKey begin left)).size < left.size := by
      rw [TreeMap.size_erase, if_pos (TreeMap.contains_iff_mem.mpr (firstKey_mem begin positive))]; omega
    refine .inl ⟨_, if_pos full, fun k v here => ?_, less⟩
    rw [TreeMap.getElem?_erase] at here
    split at here
    · cases here
    · exact inv k v here
  · exact .inr ⟨left, if_neg full, Nat.lt_of_not_le full, inv⟩

/-! ### One call -/

def lookup (geo : Geography) (origin : Int) : Exec Found := geo.network.search (geo.linked.length + 2) origin

def answer (geo : Geography) : Found → Bytes
  | .server id => uintIp (geo.network.ip id)
  | _ => []

section calls
variable {geo : Geography} {clientIP : Bytes} {origin : Int} (begin : TreeMap UInt32 UInt32 → Nat)

theorem findServer_unknown (absent : geo.IPmap[ipUint clientIP]? = none) :
    geo.findServer begin clientIP = .ok ([], geo) := by simp [findServer, absent]

theorem findServer_other (owner : geo.IPmap[ipUint clientIP]? = some origin)
    (other : geo.network.type origin ≠ .CLIENT) :
    geo.findServer begin clientIP = .ok ([], geo.touchNode origin) := by
  have type : ((geo.touchNode origin).nodeAt origin).type ≠ .CLIENT := by rw [nodeAt_touchNode]; exact other
  simp only [findServer, owner]
  rw [if_pos type]

theorem findServer_cached (owner : geo.IPmap[ipUint clientIP]? = some origin)
    (client : geo.network.type origin = .CLIENT) {server : UInt32} (cached : geo.cache[ipUint clientIP]? = some server) :
    geo.findServer begin clientIP = .ok (uintIp server, geo.touchNode origin) := by
  have type : ((geo.touchNode origin).nodeAt origin).type = .CLIENT := by rw [nodeAt_touchNode]; exact client
  have here : (geo.touchNode origin).cache[ipUint clientIP]? = some server := cached
  simp only [findServer, owner, here]
  rw [if_neg (not_not.mpr type)]

/-- What a call that searches returns, and what it does to the cache. -/
def Searched (geo : Geography) (client : UInt32) (result : Bytes × Geography) (found : Found) : Prop :=
  result.1 = geo.answer found ∧ result.2.network = geo.network ∧ result.2.IPmap = geo.IPmap ∧
    match found with
    | .server id => result.2.cache.size ≤ cacheSize ∧ ∀ k v : UInt32, result.2.cache[k]? = some v →
        k = client ∧ v = geo.network.ip id ∨ geo.cache[k]? = some v
    | _ => result.2.cache = geo.cache

theorem findServer_searched (owner : geo.IPmap[ipUint clientIP]? = some origin)
    (client : geo.network.type origin = .CLIENT) (uncached : geo.cache[ipUint clientIP]? = none) :
    Matches (Searched geo (ipUint clientIP)) (geo.findServer begin clientIP) (geo.lookup origin) := by
  have type : ((geo.touchNode origin).nodeAt origin).type = .CLIENT := by rw [nodeAt_touchNode]; exact client
  have missing : (geo.touchNode origin).cache[ipUint clientIP]? = none := uncached
  have searches := search_matches (geo.touchNode origin) origin
  rw [network_touchNode] at searches
  simp only [findServer, owner, missing]
  rw [if_neg (not_not.mpr type)]
  have returned : geo.lookup origin = geo.lookup origin >>= fun found => .ok found := by
    cases geo.lookup origin <;> rfl
  rw [returned]
  apply searches.bind
  rintro ⟨found, geo'⟩ _ ⟨rfl, keeps⟩
  have network : geo'.network = geo.network := keeps.network.trans (network_touchNode geo origin)
  have ip : ∀ id, (geo'.nodeAt id).ip = geo.network.ip id := fun id => congrFun (congrArg Network.ip network) id
  have cache : geo'.cache = geo.cache := keeps.cache
  dsimp only
  cases found with
  | server id =>
    obtain ⟨kept, done, room, old⟩ := dumpCache_spec begin geo'.cache
    simp only [done, ok_bind, ip]
    refine ⟨rfl, network, keeps.IPmap, ?_, ?_⟩
    · exact (TreeMap.size_insert_le).trans room
    · intro k v here
      rw [TreeMap.getElem?_insert] at here
      split at here
      · rename_i same
        exact .inl ⟨(Std.LawfulEqCmp.eq_of_compare same).symm, (Option.some.inj here).symm⟩
      · exact .inr (cache ▸ old k v here)
  | pastEnd => exact ⟨rfl, network, keeps.IPmap, cache⟩
  | empty => exact ⟨rfl, network, keeps.IPmap, cache⟩

end calls

/-! ### The nearest server -/

/-- On an empty cache the answer is the address of a server at the least distance from the client. -/
theorem findServer_nearest {u : Nat → Int × Int × Int} {file : Option Bytes} {geo : Geography}
    (loaded : load u file = .ok geo)
    (nonneg : ∀ v, ∀ n ∈ geo.edgesAt v, 0 ≤ n.distance)
    {clientIP : Bytes} {origin : Int} (owner : geo.IPmap[ipUint clientIP]? = some origin)
    (client : (geo.nodeAt origin).type = .CLIENT)
    (fits : ∀ vs v d, Path geo.network.link origin vs v d → intMin ≤ d ∧ d ≤ intMax)
    (reachable : ∃ t k, (geo.nodeAt t).type = .SERVER ∧ Walk geo.network.link origin t k)
    (begin : TreeMap UInt32 UInt32 → Nat) :
    ∃ geo' s d, geo.findServer begin clientIP = .ok (uintIp (geo.nodeAt s).ip, geo') ∧
      (geo.nodeAt s).type = .SERVER ∧ Walk geo.network.link origin s d ∧
      ∀ t k, (geo.nodeAt t).type = .SERVER → Walk geo.network.link origin t k → d ≤ k := by
  have uncached : geo.cache[ipUint clientIP]? = none := by rw [load_cache loaded]; simp
  have costs : ∀ v w c, geo.network.link v w c → 0 ≤ c := by
    rintro v w c ⟨n, member, -, rfl, -⟩
    exact nonneg v n member
  obtain ⟨found, searched, correct⟩ := Network.search_correct (linked_closed geo origin) List.mem_cons_self
    (show (origin :: geo.linked).length < geo.linked.length + 2 by simp) costs fits
  have call := findServer_searched begin owner client uncached
  rw [lookup, searched] at call
  obtain ⟨t, k, server, walk⟩ := reachable
  cases found with
  | server id =>
    obtain ⟨type, d, reached, least⟩ := correct
    cases result : geo.findServer begin clientIP with
    | error e => rw [result] at call; exact call.elim
    | ok pair =>
      rw [result] at call
      obtain ⟨answer, geo'⟩ := pair
      obtain ⟨rfl, -⟩ := call
      exact ⟨geo', id, d, rfl, type, reached, least⟩
  | pastEnd => exact absurd server (correct t k walk)
  | empty => exact correct.elim

def sampleFile : Bytes := text "NUM_NODES: 2\n0 CLIENT 10.0.0.1\n1 SERVER 10.0.0.2\nNUM_LINKS: 1\n0 1 5\n"

def sampleUninit (_ : Nat) : Int × Int × Int := (0, 0, 0)

theorem load_sample : ∃ geo, load sampleUninit (some sampleFile) = .ok geo ∧
    geo.edges.toList = [(0, [⟨1, 5⟩]), (1, [⟨0, 5⟩])] ∧ geo.nodeAt 0 = ⟨0, .CLIENT, 0x0a000001⟩ ∧
    geo.nodeAt 1 = ⟨1, .SERVER, 0x0a000002⟩ ∧ geo.IPmap[ipUint (text "10.0.0.1")]? = some 0 := by
  have contents : (load sampleUninit (some sampleFile)).map (fun geo =>
      (geo.edges.toList, geo.nodeAt 0, geo.nodeAt 1, geo.IPmap[ipUint (text "10.0.0.1")]?)) =
      .ok ([(0, [⟨1, 5⟩]), (1, [⟨0, 5⟩])], ⟨0, .CLIENT, 0x0a000001⟩, ⟨1, .SERVER, 0x0a000002⟩, some 0) := by
    decide +kernel
  cases loaded : load sampleUninit (some sampleFile) with
  | error e => rw [loaded] at contents; cases contents
  | ok geo =>
    rw [loaded] at contents
    simp only [Except.map, Except.ok.injEq, Prod.mk.injEq] at contents
    exact ⟨geo, rfl, contents⟩

/-- Three servers, one of them next to the client and two behind a switch. -/
def branchFile : Bytes :=
  text "NUM_NODES: 5\n0 CLIENT 10.0.0.1\n1 SERVER 10.0.0.2\n2 SERVER 10.0.0.3\n3 SERVER 10.0.0.4\n4 SWITCH NO_IP\n" ++
    text "NUM_LINKS: 4\n0 1 7\n0 4 1\n4 2 3\n4 3 3\n"

def branchEdges : List (Int × List Neighbor) :=
  [(0, [⟨1, 7⟩, ⟨4, 1⟩]), (1, [⟨0, 7⟩]), (2, [⟨4, 3⟩]), (3, [⟨4, 3⟩]), (4, [⟨0, 1⟩, ⟨2, 3⟩, ⟨3, 3⟩])]

/-- Those that do not lead to the client. -/
def branchLinks : List (Int × Int × Int) := [(0, 1, 7), (0, 4, 1), (2, 4, 3), (3, 4, 3), (4, 2, 3), (4, 3, 3)]

structure Branches (geo : Geography) : Prop where
  loaded : load sampleUninit (some branchFile) = .ok geo
  edges : geo.edges.toList = branchEdges
  types : (List.range 5).map (fun id => (geo.nodeAt id).type) = [.CLIENT, .SERVER, .SERVER, .SERVER, .SWITCH]
  owner : geo.IPmap[ipUint (text "10.0.0.1")]? = some 0

theorem load_branches : ∃ geo, Branches geo := by
  have contents : (load sampleUninit (some branchFile)).map (fun geo =>
      (geo.edges.toList, (List.range 5).map (fun id => (geo.nodeAt id).type), geo.IPmap[ipUint (text "10.0.0.1")]?)) =
      .ok (branchEdges, [.CLIENT, .SERVER, .SERVER, .SERVER, .SWITCH], some 0) := by decide +kernel
  obtain ⟨geo, loaded, seen⟩ := map_ok contents
  obtain ⟨edges, types, owner⟩ := (Prod.mk.inj seen).imp id Prod.mk.inj
  exact ⟨geo, loaded, edges, types, owner⟩

namespace Branches
variable {geo : Geography}

theorem client (branches : Branches geo) : (geo.nodeAt 0).type = .CLIENT :=
  congrArg (fun types => types.getD 0 .SWITCH) branches.types

theorem server (branches : Branches geo) : (geo.nodeAt 1).type = .SERVER :=
  congrArg (fun types => types.getD 1 .SWITCH) branches.types

theorem positive (branches : Branches geo) : ∀ v, ∀ n ∈ geo.edgesAt v, 0 < n.distance := by
  intro v n member
  obtain ⟨neighbors, entry, member⟩ := mem_edgesAt member
  rw [branches.edges] at entry
  exact (show ∀ e ∈ branchEdges, ∀ n ∈ e.2, 0 < n.distance by decide) _ entry n member

theorem link (branches : Branches geo) {v w c : Int} (step : geo.network.link v w c) :
    (v, w, c) ∈ branchLinks := by
  obtain ⟨n, member, rfl, rfl, inner⟩ := step
  obtain ⟨neighbors, entry, member⟩ := mem_edgesAt member
  rw [branches.edges] at entry
  have listed : ∀ e ∈ branchEdges, ∀ n ∈ e.2, n.id ≠ 0 → (e.1, n.id, n.distance) ∈ branchLinks := by decide
  refine listed _ entry n member fun back => inner ?_
  rw [back]
  exact branches.client

/-- The paths from the client, and where they have passed the switch. -/
theorem path (branches : Branches geo) {vs : List Int} {v d : Int} (path : Path geo.network.link 0 vs v d) :
    v = 0 ∧ d = 0 ∨ v = 1 ∧ d = 7 ∨ 4 ∈ vs ∧ (v = 4 ∧ d = 1 ∨ v = 2 ∧ d = 4 ∨ v = 3 ∧ d = 4) := by
  induction path with
  | nil => exact .inl ⟨rfl, rfl⟩
  | snoc _ step fresh ih =>
    have link := branches.link step
    simp only [branchLinks, List.mem_cons, Prod.mk.injEq, List.not_mem_nil, or_false] at link
    rcases link with ⟨rfl, rfl, rfl⟩ | ⟨rfl, rfl, rfl⟩ | ⟨rfl, rfl, rfl⟩ | ⟨rfl, rfl, rfl⟩ | ⟨rfl, rfl, rfl⟩ | ⟨rfl, rfl, rfl⟩ <;>
      simp_all

theorem short (branches : Branches geo) {vs : List Int} {v d : Int} (path : Path geo.network.link 0 vs v d) :
    intMin ≤ d ∧ d ≤ intMax := by
  rcases branches.path path with ⟨-, rfl⟩ | ⟨-, rfl⟩ | ⟨-, ⟨-, rfl⟩ | ⟨-, rfl⟩ | ⟨-, rfl⟩⟩ <;> decide

theorem first (branches : Branches geo) : geo.network.link 0 1 7 := by
  have entry : geo.edges[(0 : Int)]? = some [⟨1, 7⟩, ⟨4, 1⟩] :=
    TreeMap.mem_toList_iff_getElem?_eq_some.mp (by rw [branches.edges]; decide)
  refine ⟨⟨1, 7⟩, ?_, rfl, rfl, by simp [network, branches.server]⟩
  simp [network, edgesAt, TreeMap.getD_eq_getD_getElem?, entry]

end Branches

/-- The nearest server is not the one next to the client. -/
theorem findServer_nearest_sample : ∃ geo, load sampleUninit (some branchFile) = .ok geo ∧
    (geo.findServer (fun _ => 0) (text "10.0.0.1")).map Prod.fst = .ok (text "10.0.0.3") ∧
    ∃ geo' s d, geo.findServer (fun _ => 0) (text "10.0.0.1") = .ok (uintIp (geo.nodeAt s).ip, geo') ∧
      (geo.nodeAt s).type = .SERVER ∧ Walk geo.network.link 0 s d ∧
      ∀ t k, (geo.nodeAt t).type = .SERVER → Walk geo.network.link 0 t k → d ≤ k := by
  obtain ⟨geo, branches⟩ := load_branches
  have answer : (load sampleUninit (some branchFile)).map
      (fun geo => (geo.findServer (fun _ => 0) (text "10.0.0.1")).map Prod.fst) = .ok (.ok (text "10.0.0.3")) := by decide +kernel
  rw [branches.loaded] at answer
  refine ⟨geo, branches.loaded, Except.ok.inj answer, ?_⟩
  exact findServer_nearest branches.loaded (fun v n member => (branches.positive v n member).le) branches.owner
    branches.client (fun _ _ _ path => branches.short path) ⟨1, 0 + 7, branches.server, .snoc .nil branches.first⟩ fun _ => 0

end VStream.Geography
