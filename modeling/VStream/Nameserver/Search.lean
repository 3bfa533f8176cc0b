import VStream.Nameserver.Network

/-!
# `findServer`

`operator[]` inserts what it does not find, so a search changes the maps it
reads. It does not change their `network`, and finds what `Network.search` finds.
-/

namespace VStream
open Cpp
open Std (TreeMap)

def cacheSize : Nat := 32

namespace Geography

/-! ### Reading the maps -/

/-- The value of `nodes[id]`. -/
def nodeAt (geo : Geography) (id : Int) : Node := geo.nodes.getD id {}

/-- The value of `edges[id]`. -/
def edgesAt (geo : Geography) (id : Int) : List Neighbor := geo.edges.getD id []

/-- The effect of `nodes[id]`. -/
def touchNode (geo : Geography) (id : Int) : Geography := { geo with nodes := geo.nodes.insertIfNew id {} }

/-- The effect of `edges[id]`. -/
def touchEdges (geo : Geography) (id : Int) : Geography := { geo with edges := geo.edges.insertIfNew id [] }

def network (geo : Geography) : Network where
  type id := (geo.nodeAt id).type
  ip id := (geo.nodeAt id).ip
  neighbors := geo.edgesAt

@[simp] theorem nodeAt_touchNode (geo : Geography) (id other : Int) :
    (geo.touchNode id).nodeAt other = geo.nodeAt other := by
  simp only [nodeAt, touchNode, TreeMap.getD_insertIfNew]
  split
  · rename_i absent
    obtain ⟨same, missing⟩ := absent
    rw [← Std.LawfulEqCmp.eq_of_compare same, TreeMap.getD_eq_fallback missing]
  · rfl

@[simp] theorem edgesAt_touchEdges (geo : Geography) (id other : Int) :
    (geo.touchEdges id).edgesAt other = geo.edgesAt other := by
  simp only [edgesAt, touchEdges, TreeMap.getD_insertIfNew]
  split
  · rename_i absent
    obtain ⟨same, missing⟩ := absent
    rw [← Std.LawfulEqCmp.eq_of_compare same, TreeMap.getD_eq_fallback missing]
  · rfl

@[simp] theorem network_touchNode (geo : Geography) (id : Int) : (geo.touchNode id).network = geo.network := by
  simp only [network, nodeAt_touchNode]
  rfl

@[simp] theorem network_touchEdges (geo : Geography) (id : Int) : (geo.touchEdges id).network = geo.network := by
  have same : (geo.touchEdges id).edgesAt = geo.edgesAt := funext (edgesAt_touchEdges geo id)
  simp only [network, same]
  rfl

/-! ### The search -/

/-- One round of the inner loop. -/
def relax (visited : List Int) (current : Neighbor) : Geography × DistMap → Neighbor → Exec (Geography × DistMap)
  | (geo, distMap), neighbor =>
    if neighbor.id ∈ visited then .ok (geo, distMap)
    else
      let geo := geo.touchNode neighbor.id
      if (geo.nodeAt neighbor.id).type = .CLIENT then .ok (geo, distMap)
      else do
        let distance ← toInt (current.distance + neighbor.distance)
        match distMap[neighbor.id]? with
        | none => return (geo, distMap.insert neighbor.id distance)
        | some known => return (geo, distMap.insert neighbor.id (min known distance))

structure Search where
  geo : Geography
  current : Neighbor
  distMap : DistMap
  visited : List Int

/-- One round of `while (!distMap.empty())`. -/
def Search.step (s : Search) : Exec (Pass Search (Found × Geography)) :=
  if s.distMap.isEmpty then .ok (.leave (.empty, s.geo))
  else
    let currentID := s.current.id
    let geo := s.geo.touchNode currentID
    if (geo.nodeAt currentID).type = .SERVER then .ok (.leave (.server currentID, geo))
    else do
      let visited := currentID :: s.visited
      let geo := geo.touchEdges currentID
      let (geo, distMap) ← (geo.edgesAt currentID).foldlM (relax visited s.current) (geo, s.distMap.erase currentID)
      match minElement distMap with
      | some (id, distance) => return .again { geo, current := ⟨id, distance⟩, distMap, visited }
      | none => return .leave (.pastEnd, geo)

/-- The ids that can be visited: the origin and every id some link leads to. -/
def linked (geo : Geography) : List Int := geo.edges.toList.flatMap fun entry => entry.2.map Neighbor.id

def search (geo : Geography) (origin : Int) : Exec (Found × Geography) :=
  loop Search.step (geo.linked.length + 2)
    { geo, current := ⟨origin, 0⟩, distMap := TreeMap.empty.insert origin 0, visited := [] }

/-! ### Refinement -/

/-- `geo'` differs from `geo` at most by entries that `operator[]` inserted. -/
structure Keeps (geo geo' : Geography) : Prop where
  network : geo'.network = geo.network
  IPmap : geo'.IPmap = geo.IPmap
  cache : geo'.cache = geo.cache

theorem Keeps.refl (geo : Geography) : Keeps geo geo := ⟨rfl, rfl, rfl⟩

theorem Keeps.touchNode {geo geo' : Geography} (keeps : Keeps geo geo') (id : Int) : Keeps geo (geo'.touchNode id) :=
  ⟨(network_touchNode geo' id).trans keeps.network, keeps.IPmap, keeps.cache⟩

theorem Keeps.touchEdges {geo geo' : Geography} (keeps : Keeps geo geo') (id : Int) :
    Keeps geo (geo'.touchEdges id) :=
  ⟨(network_touchEdges geo' id).trans keeps.network, keeps.IPmap, keeps.cache⟩

theorem Keeps.type {geo geo' : Geography} (keeps : Keeps geo geo') (id : Int) :
    (geo'.nodeAt id).type = geo.network.type id := congrFun (congrArg Network.type keeps.network) id

theorem Keeps.neighbors {geo geo' : Geography} (keeps : Keeps geo geo') (id : Int) :
    geo'.edgesAt id = geo.network.neighbors id := congrFun (congrArg Network.neighbors keeps.network) id

theorem relax_matches {geo : Geography} (visited : List Int) (current : Neighbor) (a : Geography × DistMap)
    (distMap : DistMap) (n : Neighbor) (same : Keeps geo a.1 ∧ a.2 = distMap) :
    Matches (fun a distMap => Keeps geo a.1 ∧ a.2 = distMap) (relax visited current a n)
      (geo.network.relax visited current distMap n) := by
  obtain ⟨geo', _⟩ := a
  obtain ⟨keeps, rfl⟩ := same
  unfold relax Network.relax
  dsimp only at keeps ⊢
  by_cases seen : n.id ∈ visited
  · rw [if_pos seen, if_pos (.inl seen)]
    exact ⟨keeps, rfl⟩
  · rw [if_neg seen]
    have keeps' := keeps.touchNode n.id
    simp only [keeps'.type]
    by_cases client : geo.network.type n.id = .CLIENT
    · rw [if_pos client, if_pos (.inr client)]
      exact ⟨keeps', rfl⟩
    · rw [if_neg client, if_neg (not_or.mpr ⟨seen, client⟩)]
      cases toInt (current.distance + n.distance) with
      | error e => exact rfl
      | ok d =>
        simp only [ok_bind]
        split
        · rename_i missing; exact ⟨keeps', by simp [missing]⟩
        · rename_i known here; exact ⟨keeps', by simp [here]⟩

def Sees (geo : Geography) (s : Search) (t : Network.Search) : Prop :=
  Keeps geo s.geo ∧ s.current = t.current ∧ s.distMap = t.distMap ∧ s.visited = t.visited

def SameEnd (geo : Geography) (a : Found × Geography) (found : Found) : Prop := a.1 = found ∧ Keeps geo a.2

theorem step_matches {geo : Geography} (s : Search) (t : Network.Search) (sees : Sees geo s t) :
    Matches (PassRel (Sees geo) (SameEnd geo)) s.step (geo.network.step t) := by
  obtain ⟨geo', current, distMap, visited⟩ := s
  obtain ⟨current', distMap', visited'⟩ := t
  obtain ⟨keeps, rfl, rfl, rfl⟩ := sees
  have keeps' := keeps.touchNode current.id
  have keeps'' := keeps'.touchEdges current.id
  unfold Search.step Network.step
  simp only [keeps'.type, keeps''.neighbors]
  split
  · exact ⟨rfl, keeps⟩
  split
  · exact ⟨rfl, keeps'⟩
  refine (Matches.foldlM (relax_matches (current.id :: visited) current) _ ⟨keeps'', rfl⟩).bind ?_
  rintro ⟨geo₁, distMap₁⟩ _ ⟨keeps₁, rfl⟩
  dsimp only at keeps₁ ⊢
  cases minElement distMap₁ with
  | some least => exact ⟨keeps₁, rfl, rfl, rfl⟩
  | none => exact ⟨rfl, keeps₁⟩

theorem search_matches (geo : Geography) (origin : Int) :
    Matches (SameEnd geo) (geo.search origin) (geo.network.search (geo.linked.length + 2) origin) :=
  loop_rel step_matches _ ⟨Keeps.refl geo, rfl, rfl, rfl⟩

theorem mem_edgesAt {geo : Geography} {v : Int} {n : Neighbor} (member : n ∈ geo.edgesAt v) :
    ∃ neighbors, (v, neighbors) ∈ geo.edges.toList ∧ n ∈ neighbors := by
  simp only [edgesAt, TreeMap.getD_eq_getD_getElem?] at member
  cases here : geo.edges[v]? with
  | none => rw [here] at member; simp at member
  | some neighbors =>
    rw [here] at member
    exact ⟨neighbors, TreeMap.mem_toList_iff_getElem?_eq_some.mpr here, member⟩

theorem linked_closed (geo : Geography) (origin : Int) : geo.network.Closed (origin :: geo.linked) := by
  intro v n member
  obtain ⟨neighbors, entry, member⟩ := mem_edgesAt member
  exact List.mem_cons_of_mem _ (List.mem_flatMap.mpr ⟨_, entry, List.mem_map_of_mem member⟩)

/-! ### The cache -/

/-- `cache.begin()`: the standard leaves open which entry comes first. -/
def firstKey (begin : TreeMap UInt32 UInt32 → Nat) (cache : TreeMap UInt32 UInt32) : UInt32 :=
  cache.keys.getD (begin cache % cache.size) 0

/-- `while (cache.size() >= CACHE_SIZE)`. -/
def dumpCache (begin : TreeMap UInt32 UInt32 → Nat) (cache : TreeMap UInt32 UInt32) : Exec (TreeMap UInt32 UInt32) :=
  loop (fun cache => if cacheSize ≤ cache.size then .ok (.again (cache.erase (firstKey begin cache)))
    else .ok (.leave cache)) (cache.size + 1) cache

def findServer (begin : TreeMap UInt32 UInt32 → Nat) (geo : Geography) (clientIP : Bytes) : Exec (Bytes × Geography) :=
  let client := ipUint clientIP
  match geo.IPmap[client]? with
  | none => .ok ([], geo)
  | some origin =>
    let geo := geo.touchNode origin
    if (geo.nodeAt origin).type ≠ .CLIENT then .ok ([], geo)
    else
      match geo.cache[client]? with
      | some server => .ok (uintIp server, geo)
      | none => do
        let (found, geo) ← geo.search origin
        match found with
        | .server id =>
          let cache ← dumpCache begin geo.cache
          return (uintIp (geo.nodeAt id).ip, { geo with cache := cache.insert client (geo.nodeAt id).ip })
        | _ => return ([], geo)

end Geography

end VStream
