import VStream.Nameserver.Sweep

/-!
# Topologies written in another order

Links may be listed in any order and from either end. The neighbors of a node
then come in another order, and every round of a search still leaves the same
distances.
-/

namespace VStream
open Cpp ShortestPath
open Std (TreeMap)

namespace Network

def SameMap (a b : DistMap) : Prop := ∀ v : Int, a[v]? = b[v]?

theorem SameMap.toList {a b : DistMap} (same : SameMap a b) : a.toList = b.toList :=
  TreeMap.equiv_iff_toList_eq.mp (.of_forall_constGet?_eq same)

theorem SameMap.isEmpty {a b : DistMap} (same : SameMap a b) : a.isEmpty = b.isEmpty := by
  rw [← TreeMap.isEmpty_toList, ← TreeMap.isEmpty_toList, same.toList]

theorem SameMap.minElement {a b : DistMap} (same : SameMap a b) : minElement a = minElement b := by
  unfold VStream.minElement
  rw [same.toList]

theorem SameMap.erase {a b : DistMap} (same : SameMap a b) (u : Int) : SameMap (a.erase u) (b.erase u) := by
  intro v
  rw [TreeMap.getElem?_erase, TreeMap.getElem?_erase, same v]

theorem SameMap.trans (a b c : DistMap) (first : SameMap a b) (second : SameMap b c) : SameMap a c :=
  fun v => (first v).trans (second v)

def offer (distMap : DistMap) (id distance : Int) : DistMap :=
  distMap.insert id ((distMap[id]?.map (min · distance)).getD distance)

theorem offer_getElem? (distMap : DistMap) (id distance v : Int) : (offer distMap id distance)[v]? =
    if id = v then some ((distMap[id]?.map (min · distance)).getD distance) else distMap[v]? := by
  rw [offer, TreeMap.getElem?_insert]
  by_cases here : id = v
  · simp [here]
  · simp [here]

theorem SameMap.offer {a b : DistMap} (same : SameMap a b) (id distance : Int) :
    SameMap (Network.offer a id distance) (Network.offer b id distance) := by
  intro v
  rw [offer_getElem?, offer_getElem?, same id, same v]

theorem offer_swap (distMap : DistMap) (id distance id' distance' : Int) :
    SameMap (offer (offer distMap id distance) id' distance') (offer (offer distMap id' distance') id distance) := by
  intro v
  simp only [offer_getElem?]
  by_cases same : id = id'
  · subst same
    by_cases here : id = v
    · cases distMap[id]? with
      | none => simp [here, min_comm]
      | some known => simp [here, min_right_comm]
    · simp [here]
  · by_cases here : id = v
    · subst here
      simp [Ne.symm same]
    · by_cases there : id' = v
      · subst there
        simp [same]
      · simp [here, there]

section relaxing
variable {net : Network} (visited : List Int) (current : Neighbor)

theorem relax_eq (distMap : DistMap) (n : Neighbor) : net.relax visited current distMap n =
    if n.id ∈ visited ∨ net.type n.id = .CLIENT then .ok distMap
    else toInt (current.distance + n.distance) >>= fun distance => .ok (offer distMap n.id distance) := rfl

theorem relax_same (a b : DistMap) (n : Neighbor) (same : SameMap a b) :
    Matches SameMap (net.relax visited current a n) (net.relax visited current b n) := by
  rw [relax_eq, relax_eq]
  split
  · exact same
  · cases toInt (current.distance + n.distance) with
    | error stop => exact rfl
    | ok distance => exact same.offer n.id distance

theorem toInt_error {n : Int} {stop : Stop} (h : toInt n = .error stop) : stop = .undefined := by
  unfold toInt at h
  split at h
  · cases h
  · exact (Except.error.inj h).symm

theorem relax_swap (distMap : DistMap) (n m : Neighbor) :
    Matches SameMap (net.relax visited current distMap n >>= fun after => net.relax visited current after m)
      (net.relax visited current distMap m >>= fun after => net.relax visited current after n) := by
  simp only [relax_eq]
  have refl : ∀ a, SameMap a a := fun a v => rfl
  by_cases skipped : n.id ∈ visited ∨ net.type n.id = .CLIENT
  · simp only [if_pos skipped, ok_bind]
    split
    · exact refl distMap
    · cases toInt (current.distance + m.distance) with
      | error stop => exact rfl
      | ok distance => exact refl _
  by_cases skipped' : m.id ∈ visited ∨ net.type m.id = .CLIENT
  · simp only [if_pos skipped', if_neg skipped, ok_bind]
    cases toInt (current.distance + n.distance) with
    | error stop => exact rfl
    | ok distance => exact refl _
  simp only [if_neg skipped, if_neg skipped']
  cases sum : toInt (current.distance + n.distance) with
  | error stop =>
    cases sum' : toInt (current.distance + m.distance) with
    | error stop' => exact (toInt_error sum).trans (toInt_error sum').symm
    | ok distance' => exact rfl
  | ok distance =>
    cases sum' : toInt (current.distance + m.distance) with
    | error stop' => exact rfl
    | ok distance' => exact offer_swap distMap n.id distance m.id distance'

/-- The order of the neighbors makes no difference to what relaxing them leaves. -/
theorem relaxAll_perm {a b : DistMap} (same : SameMap a b) {ns ms : List Neighbor} (perm : ns.Perm ms) :
    Matches SameMap (ns.foldlM (net.relax visited current) a) (ms.foldlM (net.relax visited current) b) := by
  have step : ∀ a b n, SameMap a b → Matches SameMap (net.relax visited current a n) (net.relax visited current b n) :=
    relax_same visited current
  have first := Matches.foldlM step ns same
  have second := Matches.foldlM_perm (fun a v => rfl) SameMap.trans step (relax_swap visited current) perm b
  exact first.trans SameMap.trans second

end relaxing

/-! ### Searches in step -/

/-- The same nodes, with the neighbors of each in another order. -/
structure Rewired (net net' : Network) : Prop where
  type : net'.type = net.type
  ip : net'.ip = net.ip
  neighbors : ∀ v, (net.neighbors v).Perm (net'.neighbors v)

structure InStep (s t : Search) : Prop where
  current : s.current = t.current
  distMap : SameMap s.distMap t.distMap
  visited : s.visited = t.visited

variable {net net' : Network}

theorem Rewired.step (rewired : Rewired net net') (s t : Search) (inStep : InStep s t) :
    Matches (PassRel InStep Eq) (net.step s) (net'.step t) := by
  obtain ⟨current, distMap, visited⟩ := s
  obtain ⟨current', distMap', visited'⟩ := t
  obtain ⟨rfl, same, rfl⟩ := inStep
  dsimp only at same
  have relax : net'.relax = net.relax := by
    unfold Network.relax
    rw [rewired.type]
  unfold Network.step
  simp only [rewired.type, relax, same.isEmpty]
  split
  · exact rfl
  split
  · exact rfl
  refine (relaxAll_perm _ current (same.erase current.id) (rewired.neighbors current.id)).bind fun after after' related => ?_
  rw [related.minElement]
  cases minElement after' with
  | none => exact rfl
  | some least => exact ⟨rfl, related, rfl⟩

theorem Rewired.search (rewired : Rewired net net') (fuel : Nat) (origin : Int) :
    net.search fuel origin = net'.search fuel origin := by
  have start : InStep (.start origin) (.start origin) := ⟨rfl, fun v => rfl, rfl⟩
  exact (loop_rel rewired.step fuel start).eq

end Network

namespace Geography
open Network (Rewired)

/-! ### Links of a file -/

/-- The links that a file goes on with, where all of them are there. -/
def linksOf : Nat → IStream → Option (List (Int × Int × Int))
  | 0, _ => some []
  | n + 1, file =>
    if (readLink (0, 0, 0) file).2.fail then none
    else (linksOf n (readLink (0, 0, 0) file).2).map ((readLink (0, 0, 0) file).1 :: ·)

/-- The nodes that a file goes on with, where all of them are there, and what is behind them. -/
def nodesOf : Nat → IStream → Option (List (Int × Bytes × Bytes) × IStream)
  | 0, file => some ([], file)
  | n + 1, file =>
    if (readNode file).2.fail then none
    else (nodesOf n (readNode file).2).map fun rest => ((readNode file).1 :: rest.1, rest.2)

/-- A complete file that lists these nodes and these links. -/
def Writes (contents : Bytes) (nodes : List (Int × Bytes × Bytes)) (links : List (Int × Int × Int)) : Prop :=
  ∃ file, nodesOf (readCount (.of contents)).1 (readCount (.of contents)).2 = some (nodes, file) ∧
    linksOf (readCount file).1 (readCount file).2 = some links

/-- The same links in another order, some of them from their other end. -/
def Rearranged (links links' : List (Int × Int × Int)) : Prop :=
  ∃ middle, links.Perm middle ∧
    List.Forall₂ (fun link link' => link' = link ∨ link' = (link.2.1, link.1, link.2.2)) middle links'

theorem readLink_whole (u : Int × Int × Int) {file : IStream} (whole : (readLink (0, 0, 0) file).2.fail = false) :
    readLink u file = readLink (0, 0, 0) file := by
  have good : ∀ {old : Int} {s : IStream}, (IStream.int old s).2.fail = false → s.skip.fail = false ∧ s.fail = false := by
    intro old s whole
    have sentry : s.skip.fail = false := by
      by_contra failed
      rw [Bool.not_eq_false] at failed
      rw [IStream.int, IStream.number_kept old failed, failed] at whole
      cases whole
    refine ⟨sentry, ?_⟩
    by_contra failed
    rw [IStream.skip_failed (by simpa using failed)] at sentry
    cases sentry
  have value : ∀ (old old' : Int) {s : IStream}, s.skip.fail = false → IStream.int old s = IStream.int old' s :=
    fun old old' _ sentry => IStream.number_value old old' sentry
  simp only [readLink, IStream.bind_apply, IStream.pure_apply] at whole ⊢
  obtain ⟨third, second⟩ := good whole
  obtain ⟨second, first⟩ := good second
  obtain ⟨first, -⟩ := good first
  rw [value u.1 0 first, value u.2.1 0 second, value u.2.2 0 third]

theorem linksOf_added (u : Nat → Int × Int × Int) {n : Nat} {file : IStream} {links : List (Int × Int × Int)}
    (written : linksOf n file = some links) (i : Nat) : addedLinks u i n file = links := by
  induction n generalizing file links i with
  | zero => exact Option.some.inj written
  | succ n ih =>
    rw [linksOf] at written
    split at written
    · cases written
    · rename_i whole
      rw [Bool.not_eq_true] at whole
      obtain ⟨rest, later, rfl⟩ := Option.map_eq_some_iff.mp written
      rw [addedLinks, readLink_whole (u i) whole, ih later]

theorem nodesOf_lines {n : Nat} {file file' : IStream} {nodes : List (Int × Bytes × Bytes)}
    (written : nodesOf n file = some (nodes, file')) : linesOf n file = nodes ∧ afterNodes n file = file' := by
  induction n generalizing file nodes with
  | zero =>
    cases written
    exact ⟨rfl, rfl⟩
  | succ n ih =>
    rw [nodesOf] at written
    split at written
    · cases written
    · obtain ⟨⟨rest, file''⟩, later, same⟩ := Option.map_eq_some_iff.mp written
      cases same
      obtain ⟨lines, behind⟩ := ih later
      exact ⟨congrArg _ lines, behind⟩

theorem load_writes {u : Nat → Int × Int × Int} {contents : Bytes} {nodes : List (Int × Bytes × Bytes)}
    {links : List (Int × Int × Int)} (written : Writes contents nodes links) {geo : Geography}
    (loaded : load u (some contents) = .ok geo) : ∃ bare, addNodes nodes = .ok bare ∧ geo = bare.addLinks links := by
  obtain ⟨file, read, written⟩ := written
  obtain ⟨lines, behind⟩ := nodesOf_lines read
  rw [load_lines, nodeLines, lines, linkSection, behind, linksOf_added u written] at loaded
  obtain ⟨bare, added, loaded⟩ := bind_ok loaded
  exact ⟨bare, added, (Except.ok.inj loaded).symm⟩

/-! ### The neighbors that links make -/

def ends (v : Int) (link : Int × Int × Int) : List Neighbor :=
  (if link.1 = v then [⟨link.2.1, link.2.2⟩] else []) ++ if link.2.1 = v then [⟨link.1, link.2.2⟩] else []

theorem edgesAt_addNeighbor (geo : Geography) (id : Int) (neighbor : Neighbor) (v : Int) :
    (geo.addNeighbor id neighbor).edgesAt v = geo.edgesAt v ++ if id = v then [neighbor] else [] := by
  unfold addNeighbor
  by_cases here : id = v
  · subst here
    cases known : geo.edges[id]? with
    | none => simp [edgesAt, TreeMap.getD_eq_getD_getElem?, known]
    | some neighbors => simp [edgesAt, TreeMap.getD_eq_getD_getElem?, known]
  · cases geo.edges[id]? with
    | none => simp [edgesAt, TreeMap.getD_insert, here]
    | some neighbors => simp [edgesAt, TreeMap.getD_insert, here]

theorem edgesAt_addLinks (geo : Geography) (links : List (Int × Int × Int)) (v : Int) :
    (geo.addLinks links).edgesAt v = geo.edgesAt v ++ links.flatMap (ends v) := by
  unfold addLinks
  induction links generalizing geo with
  | nil => simp
  | cons link links ih =>
    rw [List.foldl_cons, ih, addEdge, edgesAt_addNeighbor, edgesAt_addNeighbor, List.flatMap_cons, ends]
    simp only [List.append_assoc]

theorem Rearranged.neighbors {links links' : List (Int × Int × Int)} (same : Rearranged links links') (v : Int) :
    (links.flatMap (ends v)).Perm (links'.flatMap (ends v)) := by
  obtain ⟨middle, perm, turned⟩ := same
  apply (perm.flatMap_right (ends v)).trans
  clear perm
  induction turned with
  | nil => exact .nil
  | @cons link link' middle links' either _ ih =>
    rw [List.flatMap_cons, List.flatMap_cons]
    refine List.Perm.append ?_ ih
    rcases either with rfl | rfl
    · exact .refl _
    · exact List.perm_append_comm

theorem rewired_links (nodes : Geography) {links links' : List (Int × Int × Int)} (same : Rearranged links links') :
    Rewired (nodes.addLinks links).network (nodes.addLinks links').network := by
  have kept := (addLinks_keeps nodes links).1
  have kept' := (addLinks_keeps nodes links').1
  constructor
  case type =>
    funext id
    simp only [network, nodeAt, kept, kept']
  case ip =>
    funext id
    simp only [network, nodeAt, kept, kept']
  case neighbors =>
    intro v
    simp only [network, edgesAt_addLinks]
    exact (same.neighbors v).append_left _

/-! ### The answers -/

theorem lookup_rewired {geo geo' : Geography} (rewired : Rewired geo.network geo'.network) (origin : Int) :
    geo'.lookup origin = geo.lookup origin := by
  have here := lookup_ends geo origin
  have there := lookup_ends geo' origin
  unfold lookup Network.search at *
  rw [← loop_more (Nat.le_max_left _ (geo.linked.length + 2)) there,
    ← loop_more (Nat.le_max_right (geo'.linked.length + 2) _) here]
  exact (rewired.search _ origin).symm

theorem respond_rewired {geo geo' : Geography} (rewired : Rewired geo.network geo'.network)
    (IPmap : geo'.IPmap = geo.IPmap) (cache : geo'.cache = geo.cache) (clientIP : Bytes) :
    geo'.respond clientIP = geo.respond clientIP := by
  have answers : geo'.answer = geo.answer := by
    funext found
    unfold answer
    rw [rewired.ip]
  unfold respond
  simp only [IPmap, cache, rewired.type, lookup_rewired rewired, answers]

/-- Two files with the same nodes and the same links, in any order and from either end: every client that reaches a
server gets the same address from both. -/
theorem findServer_rearranged {contents contents' : Bytes} {nodes : List (Int × Bytes × Bytes)}
    {links links' : List (Int × Int × Int)} (written : Writes contents nodes links)
    (written' : Writes contents' nodes links') (same : Rearranged links links')
    {u u' : Nat → Int × Int × Int} {geo geo' : Geography} (loaded : load u (some contents) = .ok geo)
    (loaded' : load u' (some contents') = .ok geo') {clientIP : Bytes} {origin : Int}
    (owner : geo.IPmap[ipUint clientIP]? = some origin) (client : (geo.nodeAt origin).type = .CLIENT)
    (fits : ∀ vs v d, Path geo.network.link origin vs v d → intMin ≤ d ∧ d ≤ intMax)
    (reachable : ∃ t k, Walk geo.network.link origin t k ∧ (geo.nodeAt t).type = .SERVER)
    (begin begin' : TreeMap UInt32 UInt32 → Nat) :
    ∃ id, (geo.nodeAt id).type = .SERVER ∧
      (geo.findServer begin clientIP).map Prod.fst = .ok (uintIp (geo.nodeAt id).ip) ∧
      (geo'.findServer begin' clientIP).map Prod.fst = .ok (uintIp (geo.nodeAt id).ip) := by
  have uncached := load_cache loaded
  obtain ⟨id, found⟩ := Network.search_finds (lookup_ends geo origin) fits reachable
  have server := (lookup_server found).1
  have responds : geo.respond clientIP = .ok (uintIp (geo.nodeAt id).ip) := by
    have missing : geo.cache[ipUint clientIP]? = none := by rw [uncached]; simp
    unfold respond
    rw [owner]
    dsimp only
    rw [if_neg (not_not.mpr (show geo.network.type origin = .CLIENT from client)), missing, lookup, found]
    rfl
  obtain ⟨bare, added, rfl⟩ := load_writes written loaded
  obtain ⟨bare', added', rfl⟩ := load_writes written' loaded'
  obtain rfl := Except.ok.inj (added.symm.trans added')
  have kept := addLinks_keeps bare links
  have kept' := addLinks_keeps bare links'
  have responds' := respond_rewired (rewired_links bare same) (kept'.2.1.trans kept.2.1.symm)
    (kept'.2.2.trans kept.2.2.symm) clientIP
  exact ⟨id, server, (findServer_respond begin _ clientIP).trans responds,
    (findServer_respond begin' _ clientIP).trans (responds'.trans responds)⟩

def forkNodes : Bytes := text "NUM_NODES: 3\n0 CLIENT 10.0.0.1\n1 SERVER 10.0.0.2\n2 SERVER 10.0.0.3\n"

def forkFile : Bytes := forkNodes ++ text "NUM_LINKS: 2\n0 1 5\n0 2 5\n"

def turnedFile : Bytes := forkNodes ++ text "NUM_LINKS: 2\n2 0 5\n0 1 5\n"

theorem writes_fork : Writes forkFile [(0, text "CLIENT", text "10.0.0.1"), (1, text "SERVER", text "10.0.0.2"),
    (2, text "SERVER", text "10.0.0.3")] [(0, 1, 5), (0, 2, 5)] :=
  ⟨⟨text "\nNUM_LINKS: 2\n0 1 5\n0 2 5\n", false, false⟩, by decide +kernel, by decide +kernel⟩

theorem writes_turned : Writes turnedFile [(0, text "CLIENT", text "10.0.0.1"), (1, text "SERVER", text "10.0.0.2"),
    (2, text "SERVER", text "10.0.0.3")] [(2, 0, 5), (0, 1, 5)] :=
  ⟨⟨text "\nNUM_LINKS: 2\n2 0 5\n0 1 5\n", false, false⟩, by decide +kernel, by decide +kernel⟩

theorem load_fork : ∃ geo, load sampleUninit (some forkFile) = .ok geo ∧
    geo.edges.toList = [(0, [⟨1, 5⟩, ⟨2, 5⟩]), (1, [⟨0, 5⟩]), (2, [⟨0, 5⟩])] ∧
    (geo.nodeAt 0).type = .CLIENT ∧ (geo.nodeAt 1).type = .SERVER ∧ geo.IPmap[ipUint (text "10.0.0.1")]? = some 0 := by
  have contents : (load sampleUninit (some forkFile)).map (fun geo =>
      (geo.edges.toList, (geo.nodeAt 0).type, (geo.nodeAt 1).type, geo.IPmap[ipUint (text "10.0.0.1")]?)) =
      .ok ([(0, [⟨1, 5⟩, ⟨2, 5⟩]), (1, [⟨0, 5⟩]), (2, [⟨0, 5⟩])], .CLIENT, .SERVER, some 0) := by
    decide +kernel
  cases loaded : load sampleUninit (some forkFile) with
  | error stop => rw [loaded] at contents; cases contents
  | ok geo =>
    rw [loaded] at contents
    simp only [Except.map, Except.ok.injEq, Prod.mk.injEq] at contents
    exact ⟨geo, rfl, contents⟩

theorem findServer_rearranged_sample : ∃ geo geo', load sampleUninit (some forkFile) = .ok geo ∧
    load sampleUninit (some turnedFile) = .ok geo' ∧ ∃ id, (geo.nodeAt id).type = .SERVER ∧
      (geo.findServer (fun _ => 0) (text "10.0.0.1")).map Prod.fst = .ok (uintIp (geo.nodeAt id).ip) ∧
      (geo'.findServer (fun _ => 0) (text "10.0.0.1")).map Prod.fst = .ok (uintIp (geo.nodeAt id).ip) := by
  obtain ⟨geo, loaded, edges, client, server, owner⟩ := load_fork
  obtain ⟨geo', loaded'⟩ : ∃ geo', load sampleUninit (some turnedFile) = .ok geo' := by
    have opened : (load sampleUninit (some turnedFile)).isOk = true := by decide +kernel
    cases loaded' : load sampleUninit (some turnedFile) with
    | error stop => rw [loaded'] at opened; cases opened
    | ok geo' => exact ⟨geo', rfl⟩
  have first : geo.network.link 0 1 5 := by
    refine ⟨⟨1, 5⟩, ?_, rfl, rfl, by simp [network, server]⟩
    have entry : geo.edges[(0 : Int)]? = some [⟨1, 5⟩, ⟨2, 5⟩] :=
      TreeMap.mem_toList_iff_getElem?_eq_some.mp (by simp [edges])
    simp [network, edgesAt, TreeMap.getD_eq_getD_getElem?, entry]
  have onlyLinks : ∀ v w c, geo.network.link v w c → v = 0 ∧ w ≠ 0 ∧ c = 5 := by
    rintro v w c ⟨n, member, rfl, rfl, inner⟩
    have outside : n.id ≠ 0 := fun here => inner (by rw [here]; exact client)
    obtain ⟨neighbors, entry, member⟩ := mem_edgesAt member
    rw [edges] at entry
    simp only [List.mem_cons, Prod.mk.injEq, List.not_mem_nil, or_false] at entry
    rcases entry with ⟨rfl, rfl⟩ | ⟨rfl, rfl⟩ | ⟨rfl, rfl⟩
    · simp only [List.mem_cons, List.not_mem_nil, or_false] at member
      rcases member with rfl | rfl <;> exact ⟨rfl, outside, rfl⟩
    · exact absurd (congrArg Neighbor.id (List.mem_singleton.mp member)) outside
    · exact absurd (congrArg Neighbor.id (List.mem_singleton.mp member)) outside
  have paths : ∀ vs v d, Path geo.network.link 0 vs v d → v = 0 ∧ d = 0 ∨ v ≠ 0 ∧ d = 5 := by
    intro vs v d path
    induction path with
    | nil => exact .inl ⟨rfl, rfl⟩
    | snoc _ step _ ih =>
      obtain ⟨rfl, outside, rfl⟩ := onlyLinks _ _ _ step
      rcases ih with ⟨-, rfl⟩ | ⟨elsewhere, -⟩
      · exact .inr ⟨outside, rfl⟩
      · exact absurd rfl elsewhere
  have fits : ∀ vs v d, Path geo.network.link 0 vs v d → intMin ≤ d ∧ d ≤ intMax := by
    intro vs v d path
    rcases paths vs v d path with ⟨-, rfl⟩ | ⟨-, rfl⟩ <;> decide
  have rearranged : Rearranged [(0, 1, 5), (0, 2, 5)] [(2, 0, 5), (0, 1, 5)] :=
    ⟨[(0, 2, 5), (0, 1, 5)], .swap _ _ _, .cons (.inr rfl) (.cons (.inl rfl) .nil)⟩
  exact ⟨geo, geo', loaded, loaded', findServer_rearranged writes_fork writes_turned rearranged loaded loaded' owner
    client fits ⟨1, 0 + 5, .snoc .nil first, server⟩ _ _⟩

end Geography

end VStream
