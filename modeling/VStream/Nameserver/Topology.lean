import VStream.Cpp.Stream

/-!
# Topologies

`Geography` as its constructor loads it from a file. The unordered maps are
`TreeMap`s; nothing depends on the order of their keys.
-/

namespace VStream
open Cpp
open Std (TreeMap)

inductive NodeType where
  | CLIENT | SWITCH | SERVER
  deriving DecidableEq, Repr

/-- The default is what `operator[]` inserts. -/
structure Node where
  id : Int := 0
  type : NodeType := .CLIENT
  ip : UInt32 := 0
  deriving DecidableEq, Repr

structure Neighbor where
  id : Int
  distance : Int
  deriving DecidableEq, Repr

structure Geography where
  nodes : TreeMap Int Node := ∅
  edges : TreeMap Int (List Neighbor) := ∅
  IPmap : TreeMap UInt32 Int := ∅
  cache : TreeMap UInt32 UInt32 := ∅

/-- `IP_UINT`. -/
def ipUint (IP : Bytes) : UInt32 :=
  if IP = text "NO_IP" then 0
  else
    let octets : IStream.Extraction UInt32 := do
      let a ← IStream.uint32 0
      let s ← IStream.char 0
      let b ← IStream.uint32 0
      let s ← IStream.char s
      let c ← IStream.uint32 0
      let _ ← IStream.char s
      let d ← IStream.uint32 0
      return (a <<< 24) + (b <<< 16) + (c <<< 8) + d
    (octets (.of IP)).1

/-- `UINT_IP`. -/
def uintIp (IP : UInt32) : Bytes :=
  decimal ((IP &&& 0xff000000) >>> 24).toNat ++ text "." ++ decimal ((IP &&& 0x00ff0000) >>> 16).toNat ++
  text "." ++ decimal ((IP &&& 0x0000ff00) >>> 8).toNat ++ text "." ++ decimal ((IP &&& 0x000000ff) >>> 0).toNat

def Node.make (id : Int) (type ip : Bytes) : Exec Node :=
  if type = text "CLIENT" then .ok { id, type := .CLIENT, ip := ipUint ip }
  else if type = text "SWITCH" then .ok { id, type := .SWITCH, ip := ipUint ip }
  else if type = text "SERVER" then .ok { id, type := .SERVER, ip := ipUint ip }
  else .error (.exit 1)

namespace Geography

/-! ### Loading -/

def addNode (geo : Geography) (id : Int) (type ip : Bytes) : Exec Geography :=
  if geo.nodes[id]? = none ∧ geo.IPmap[ipUint ip]? = none then do
    let node ← Node.make id type ip
    let IPmap := if ip ≠ text "NO_IP" then geo.IPmap.insert (ipUint ip) id else geo.IPmap
    return { geo with nodes := geo.nodes.insert id node, IPmap }
  else .error (.exit 1)

def readNodes : Nat → IStream → Geography → Exec (IStream × Geography)
  | 0, file, geo => .ok (file, geo)
  | n + 1, file, geo => do
    let ((id, type, ip), file) := (do
      let id ← IStream.int 0
      let type ← IStream.word []
      let ip ← IStream.word []
      return (id, type, ip) : IStream.Extraction (Int × Bytes × Bytes)) file
    let geo ← geo.addNode id type ip
    readNodes n file geo

/-- `edges[id]` gets one more neighbor; the list is created with it where there is none. -/
def addNeighbor (geo : Geography) (id : Int) (neighbor : Neighbor) : Geography :=
  match geo.edges[id]? with
  | none => { geo with edges := geo.edges.insert id [neighbor] }
  | some neighbors => { geo with edges := geo.edges.insert id (neighbors ++ [neighbor]) }

def addEdge (geo : Geography) (id1 id2 dist : Int) : Geography :=
  (geo.addNeighbor id1 ⟨id2, dist⟩).addNeighbor id2 ⟨id1, dist⟩

/-- `u i` is what `id1`, `id2` and `dist` hold before they are read into in pass `i`. -/
def readEdges (u : Nat → Int × Int × Int) : Nat → Nat → IStream → Geography → Geography
  | _, 0, _, geo => geo
  | i, n + 1, file, geo =>
    let ((id1, id2, dist), file) := (do
      let id1 ← IStream.int (u i).1
      let id2 ← IStream.int (u i).2.1
      let dist ← IStream.int (u i).2.2
      return (id1, id2, dist) : IStream.Extraction (Int × Int × Int)) file
    readEdges u (i + 1) n file (geo.addEdge id1 id2 dist)

/-- `NUM_NODES:` or `NUM_LINKS:` and the number behind it. -/
def readCount : IStream.Extraction Nat := do
  let _ ← IStream.word []
  let n ← IStream.int 0
  return n.toNat

/-- The constructor. `none` is a file that does not open. -/
def load (u : Nat → Int × Int × Int) : Option Bytes → Exec Geography
  | none => .error (.exit 1)
  | some contents => do
    let (nodeNum, file) := readCount (.of contents)
    let (file, geo) ← readNodes nodeNum file {}
    let (edgeNum, file) := readCount file
    return readEdges u 0 edgeNum file geo

/-! ### The lines of a file -/

/-- `file >> id >> type >> ip`. -/
def readNode : IStream.Extraction (Int × Bytes × Bytes) := do
  let id ← IStream.int 0
  let type ← IStream.word []
  let ip ← IStream.word []
  return (id, type, ip)

def linesOf : Nat → IStream → List (Int × Bytes × Bytes)
  | 0, _ => []
  | n + 1, file => (readNode file).1 :: linesOf n (readNode file).2

/-- The lines for the nodes of a file, each with its id, its type and its address. -/
def nodeLines (contents : Bytes) : List (Int × Bytes × Bytes) :=
  linesOf (readCount (.of contents)).1 (readCount (.of contents)).2

/-- What is behind the node lines. -/
def afterNodes : Nat → IStream → IStream
  | 0, file => file
  | n + 1, file => afterNodes n (readNode file).2

/-- The number of links and what is behind it. -/
def linkSection (contents : Bytes) : Nat × IStream :=
  readCount (afterNodes (readCount (.of contents)).1 (readCount (.of contents)).2)

/-- `file >> id1 >> id2 >> dist`. -/
def readLink (u : Int × Int × Int) : IStream.Extraction (Int × Int × Int) := do
  let id1 ← IStream.int u.1
  let id2 ← IStream.int u.2.1
  let dist ← IStream.int u.2.2
  return (id1, id2, dist)

/-- What the passes from pass `i` on add. -/
def addedLinks (u : Nat → Int × Int × Int) : Nat → Nat → IStream → List (Int × Int × Int)
  | _, 0, _ => []
  | i, n + 1, file => (readLink (u i) file).1 :: addedLinks u (i + 1) n (readLink (u i) file).2

def addNodes (nodes : List (Int × Bytes × Bytes)) : Exec Geography :=
  nodes.foldlM (fun geo node => geo.addNode node.1 node.2.1 node.2.2) {}

def addLinks (geo : Geography) (links : List (Int × Int × Int)) : Geography :=
  links.foldl (fun geo link => geo.addEdge link.1 link.2.1 link.2.2) geo

theorem readNodes_lines (n : Nat) (file : IStream) (geo : Geography) : readNodes n file geo =
    (linesOf n file).foldlM (fun geo line => geo.addNode line.1 line.2.1 line.2.2) geo >>= fun geo =>
      .ok (afterNodes n file, geo) := by
  induction n generalizing file geo with
  | zero => rfl
  | succ n ih =>
    rw [linesOf, List.foldlM_cons, bind_assoc]
    change (geo.addNode (readNode file).1.1 (readNode file).1.2.1 (readNode file).1.2.2 >>= fun geo =>
      readNodes n (readNode file).2 geo) = _
    simp only [ih]
    rfl

theorem readEdges_added (u : Nat → Int × Int × Int) (i n : Nat) (file : IStream) (geo : Geography) :
    readEdges u i n file geo = geo.addLinks (addedLinks u i n file) := by
  induction n generalizing i file geo with
  | zero => rfl
  | succ n ih => exact ih _ _ _

/-- The constructor takes in the node lines of its file, then the links. -/
theorem load_lines (u : Nat → Int × Int × Int) (contents : Bytes) : load u (some contents) =
    addNodes (nodeLines contents) >>= fun bare =>
      .ok (bare.addLinks (addedLinks u 0 (linkSection contents).1 (linkSection contents).2)) := by
  have nodesThenEdges : load u (some contents) = readNodes (readCount (.of contents)).1 (readCount (.of contents)).2 {} >>=
      fun result => .ok (readEdges u 0 (readCount result.1).1 (readCount result.1).2 result.2) := rfl
  rw [nodesThenEdges, readNodes_lines, bind_assoc]
  simp only [readEdges_added]
  rfl

/-! ### The loaded object -/

theorem addEdge_keeps (geo : Geography) (id1 id2 dist : Int) : (geo.addEdge id1 id2 dist).nodes = geo.nodes ∧
    (geo.addEdge id1 id2 dist).IPmap = geo.IPmap ∧ (geo.addEdge id1 id2 dist).cache = geo.cache := by
  unfold addEdge addNeighbor
  split <;> split <;> exact ⟨rfl, rfl, rfl⟩

theorem addLinks_keeps (geo : Geography) (links : List (Int × Int × Int)) :
    (geo.addLinks links).nodes = geo.nodes ∧ (geo.addLinks links).IPmap = geo.IPmap ∧
      (geo.addLinks links).cache = geo.cache := by
  unfold addLinks
  induction links generalizing geo with
  | nil => exact ⟨rfl, rfl, rfl⟩
  | cons link links ih =>
    rw [List.foldl_cons]
    obtain ⟨nodes, IPmap, cache⟩ := ih (geo.addEdge link.1 link.2.1 link.2.2)
    obtain ⟨nodes₁, IPmap₁, cache₁⟩ := addEdge_keeps geo link.1 link.2.1 link.2.2
    exact ⟨nodes.trans nodes₁, IPmap.trans IPmap₁, cache.trans cache₁⟩

theorem addNode_keeps {geo geo' : Geography} {id : Int} {type ip : Bytes}
    (h : geo.addNode id type ip = .ok geo') : geo'.cache = geo.cache ∧ geo'.edges = geo.edges := by
  unfold addNode at h
  split at h
  · obtain ⟨node, -, h⟩ := bind_ok h
    obtain rfl := Except.ok.inj h
    exact ⟨rfl, rfl⟩
  · cases h

theorem addNodes_keeps {lines : List (Int × Bytes × Bytes)} {bare : Geography} (added : addNodes lines = .ok bare) :
    bare.cache = ∅ ∧ bare.edges = ∅ := by
  refine @foldlM_inv _ _ _ (fun _ geo => geo.cache = ∅ ∧ geo.edges = ∅) ?_ [] _ _ _ ⟨rfl, rfl⟩ added
  intro done geo line geo' ⟨cache, edges⟩ next
  obtain ⟨cache', edges'⟩ := addNode_keeps next
  exact ⟨cache'.trans cache, edges'.trans edges⟩

theorem load_cache {u : Nat → Int × Int × Int} {file : Option Bytes} {geo : Geography}
    (h : load u file = .ok geo) : geo.cache = ∅ := by
  cases file with
  | none => cases h
  | some contents =>
    rw [load_lines] at h
    obtain ⟨bare, added, h⟩ := bind_ok h
    obtain rfl := Except.ok.inj h
    exact (addLinks_keeps bare _).2.2.trans (addNodes_keeps added).1

end Geography

end VStream
