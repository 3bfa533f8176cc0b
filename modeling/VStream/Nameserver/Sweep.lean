import VStream.Nameserver.Cache

/-!
# Searches that run out

Whatever the costs are, a search visits every node once at most. It finds a
server or sweeps all that the client reaches; then `*min_element` is taken of
an empty map.
-/

namespace VStream
open Cpp ShortestPath
open Std (TreeMap)

namespace Network

/-- The links of visited nodes lead to visited or pending ones, and no visited node is a server. -/
structure Swept (net : Network) (origin : Int) (visited : List Int) (distMap : DistMap) : Prop where
  start : origin ∈ visited ∨ ∃ e : Int, distMap[origin]? = some e
  linked : ∀ v ∈ visited, ∀ w c, net.link v w c → w ∈ visited ∨ ∃ e : Int, distMap[w]? = some e
  reached : ∀ v e : Int, distMap[v]? = some e →
    ∃ vs, Path net.link origin vs v e ∧ ∀ x ∈ vs, x = v ∨ x ∈ visited
  apart : ∀ v e : Int, distMap[v]? = some e → v ∉ visited
  once : visited.Nodup
  noServer : ∀ v ∈ visited, net.type v ≠ .SERVER

structure Sweeping (net : Network) (origin : Int) (s : Search) : Prop
    extends Swept net origin s.visited s.distMap where
  current : s.distMap[s.current.id]? = some s.current.distance

section sweeping
variable {net : Network} {origin : Int} {s : Search}

theorem sweeping_start (net : Network) (origin : Int) : Sweeping net origin (.start origin) where
  start := .inr ⟨0, by simp [Search.start]⟩
  linked v member := by
    intro w c step
    exact absurd member List.not_mem_nil
  reached v e here := by
    rw [start_pending] at here
    split at here
    · rename_i same
      obtain rfl := Option.some.inj here
      rw [same]
      exact ⟨[origin], .nil, fun x member => .inl (List.mem_singleton.mp member)⟩
    · cases here
  apart v e here := List.not_mem_nil
  once := List.nodup_nil
  noServer v member := absurd member List.not_mem_nil
  current := by simp [Search.start]

theorem Sweeping.settle (sweeping : Sweeping net origin s) (noServer : net.type s.current.id ≠ .SERVER)
    {after : DistMap} (relaxed : Relaxed net (s.current.id :: s.visited) s.current (net.neighbors s.current.id)
      (s.distMap.erase s.current.id) after) : Swept net origin (s.current.id :: s.visited) after := by
  -- what was visited or pending still is
  have kept : ∀ v : Int, (v ∈ s.visited ∨ ∃ e : Int, s.distMap[v]? = some e) →
      v ∈ s.current.id :: s.visited ∨ ∃ e : Int, after[v]? = some e := by
    intro v known
    by_cases here : v = s.current.id
    · rw [here]
      exact .inl List.mem_cons_self
    · rcases known with visited | ⟨e, pending⟩
      · exact .inl (List.mem_cons_of_mem _ visited)
      · obtain ⟨e', pending', -⟩ := relaxed.keep (erase_some.mpr ⟨here, pending⟩)
        exact .inr ⟨e', pending'⟩
  constructor
  case start => exact kept origin sweeping.start
  case linked =>
    intro v member w c step
    rcases List.mem_cons.mp member with rfl | visited
    · obtain ⟨n, neighbor, rfl, -, inner⟩ := step
      by_cases seen : n.id ∈ s.current.id :: s.visited
      · exact .inl seen
      · obtain ⟨e, pending, -⟩ := relaxed.reach n neighbor ⟨seen, inner⟩
        exact .inr ⟨e, pending⟩
    · exact kept w (sweeping.linked v visited w c step)
  case reached =>
    intro v e here
    rcases relaxed.sound here with old | ⟨n, neighbor, looked, rfl, rfl⟩
    · obtain ⟨vs, path, inner⟩ := sweeping.reached v e (erase_some.mp old).2
      exact ⟨vs, path, fun x member => (inner x member).imp_right (List.mem_cons_of_mem _)⟩
    · obtain ⟨vs, path, inner⟩ := sweeping.reached _ _ sweeping.current
      have visited : ∀ x ∈ vs, x ∈ s.current.id :: s.visited := fun x member => List.mem_cons.mpr (inner x member)
      refine ⟨n.id :: vs, path.snoc ⟨n, neighbor, rfl, rfl, looked.2⟩ fun member => looked.1 (visited _ member), ?_⟩
      intro x member
      exact (List.mem_cons.mp member).imp_right (visited x)
  case apart =>
    intro v e here
    rcases relaxed.sound here with old | ⟨n, -, looked, rfl, -⟩
    · obtain ⟨other, pending⟩ := erase_some.mp old
      exact fun seen => (List.mem_cons.mp seen).elim other (sweeping.apart v e pending)
    · exact looked.1
  case once => exact List.nodup_cons.mpr ⟨sweeping.apart _ _ sweeping.current, sweeping.once⟩
  case noServer =>
    intro v member
    rcases List.mem_cons.mp member with rfl | visited
    · exact noServer
    · exact sweeping.noServer v visited

theorem Sweeping.again {s' : Search} (sweeping : Sweeping net origin s) (h : net.step s = .ok (.again s')) :
    Sweeping net origin s' := by
  obtain ⟨noServer, grown, relaxed, here, -⟩ := step_again h
  rw [grown] at relaxed
  have swept := sweeping.settle noServer relaxed
  rw [← grown] at swept
  exact { swept with current := here }

theorem sweeping_rounds (rounds : Rounds net.step (.start origin) s) : Sweeping net origin s := by
  induction rounds with
  | refl => exact sweeping_start net origin
  | tail _ pass ih => exact ih.again pass

theorem Swept.exhausted {visited : List Int} {distMap : DistMap} (swept : Swept net origin visited distMap)
    (nothing : ∀ v : Int, distMap[v]? = none) {t k : Int} (walk : Walk net.link origin t k) : t ∈ visited := by
  have only : ∀ v : Int, (v ∈ visited ∨ ∃ e : Int, distMap[v]? = some e) → v ∈ visited := by
    intro v known
    rcases known with here | ⟨e, pending⟩
    · exact here
    · rw [nothing] at pending
      cases pending
  induction walk with
  | nil => exact only origin swept.start
  | snoc _ step ih => exact only _ (swept.linked _ ih _ _ step)

theorem Sweeping.left {r : Found} (sweeping : Sweeping net origin s) (h : net.step s = .ok (.leave r)) :
    match r with
    | .server id => net.type id = .SERVER ∧ ∃ k, Walk net.link origin id k
    | .pastEnd => ∀ t k, Walk net.link origin t k → net.type t ≠ .SERVER
    | .empty => False := by
  rcases step_leave h with ⟨rfl, finished⟩ | ⟨rfl, server⟩ | ⟨rfl, noServer, after, relaxed, nothing⟩
  · have missing := TreeMap.isEmpty_iff_forall_not_mem.mp finished s.current.id
    rw [← TreeMap.isSome_getElem?_iff_mem, sweeping.current] at missing
    exact missing rfl
  · obtain ⟨vs, path, -⟩ := sweeping.reached _ _ sweeping.current
    exact ⟨server, _, path.walk⟩
  · intro t k walk
    have swept := sweeping.settle noServer relaxed
    exact swept.noServer t (swept.exhausted nothing walk)

/-- A search with a server to reach finds one, where the lengths of paths are in range. -/
theorem search_finds {fuel : Nat} (ends : net.search fuel origin ≠ .error .diverges)
    (fits : ∀ vs v d, Path net.link origin vs v d → intMin ≤ d ∧ d ≤ intMax)
    (reachable : ∃ t k, Walk net.link origin t k ∧ net.type t = .SERVER) :
    ∃ id, net.search fuel origin = .ok (.server id) := by
  have goes : ∀ s, Rounds net.step (.start origin) s → ∃ p, net.step s = .ok p := by
    intro s rounds
    have sweeping := sweeping_rounds rounds
    exact step_ok (sweeping.reached _ _ sweeping.current) fits
  obtain ⟨r, found⟩ := loop_goes goes ends
  obtain ⟨s, rounds, left⟩ := loop_left found
  have result := (sweeping_rounds rounds).left left
  obtain ⟨t, k, walk, server⟩ := reachable
  cases r with
  | server id => exact ⟨id, found⟩
  | pastEnd => exact absurd server (result t k walk)
  | empty => exact result.elim

end sweeping

end Network

namespace Geography

def Search.start (geo : Geography) (origin : Int) : Search :=
  { geo, current := ⟨origin, 0⟩, distMap := TreeMap.empty.insert origin 0, visited := [] }

theorem rounds_network {geo : Geography} {origin : Int} {s : Search} (rounds : Rounds Search.step (.start geo origin) s) :
    ∃ t, Rounds geo.network.step (.start origin) t ∧ Sees geo s t := by
  induction rounds with
  | refl => exact ⟨_, .refl, Keeps.refl geo, rfl, rfl, rfl⟩
  | tail _ pass ih =>
    obtain ⟨t, rounds, sees⟩ := ih
    have together := step_matches _ t sees
    rw [pass] at together
    cases here : geo.network.step t with
    | error stop =>
      rw [here] at together
      exact together.elim
    | ok p =>
      rw [here] at together
      cases p with
      | leave r => exact together.elim
      | again t' => exact ⟨t', rounds.tail here, together⟩

structure SafeSearch (geo : Geography) (clientIP : Bytes) (origin : Int) : Prop where
  once : ∀ s, Rounds Search.step (.start geo origin) s → s.visited.Nodup ∧ s.current.id ∉ s.visited
  ends : geo.search origin ≠ .error .diverges
  /-- No round dereferences what `min_element` returns for an empty map. -/
  valid : ∀ s geo', Rounds Search.step (.start geo origin) s → s.step ≠ .ok (.leave (.pastEnd, geo'))
  nothing : (∀ t k, Walk geo.network.link origin t k → (geo.nodeAt t).type ≠ .SERVER) →
    ∀ begin, ∃ geo', geo.findServer begin clientIP = .ok ([], geo') ∧ geo'.cache = geo.cache

section safety
variable {geo : Geography} {clientIP : Bytes} {origin : Int}

theorem search_once {s : Search} (rounds : Rounds Search.step (.start geo origin) s) :
    s.visited.Nodup ∧ s.current.id ∉ s.visited := by
  obtain ⟨t, rounds, -, current, distMap, visited⟩ := rounds_network rounds
  have sweeping := Network.sweeping_rounds rounds
  rw [visited, current]
  exact ⟨sweeping.once, sweeping.apart _ _ sweeping.current⟩

theorem search_ends (geo : Geography) (origin : Int) : geo.search origin ≠ .error .diverges := by
  intro endless
  have searches := search_matches geo origin
  have ends := lookup_ends geo origin
  rw [endless] at searches
  unfold lookup at ends
  cases found : geo.network.search (geo.linked.length + 2) origin with
  | error stop =>
    rw [found] at searches ends
    exact ends (congrArg Except.error searches.symm)
  | ok r =>
    rw [found] at searches
    exact searches

/-- A round that dereferences past the end has swept a part of the network without servers. -/
theorem pastEnd_swept {s : Search} {geo' : Geography} (rounds : Rounds Search.step (.start geo origin) s)
    (pass : s.step = .ok (.leave (.pastEnd, geo'))) {t k : Int} (walk : Walk geo.network.link origin t k) :
    (geo.nodeAt t).type ≠ .SERVER := by
  obtain ⟨u, rounds, sees⟩ := rounds_network rounds
  have together := step_matches s u sees
  rw [pass] at together
  cases here : geo.network.step u with
  | error stop =>
    rw [here] at together
    exact together.elim
  | ok p =>
    rw [here] at together
    cases p with
    | again u' => exact together.elim
    | leave r =>
      obtain ⟨rfl, -⟩ : .pastEnd = r ∧ _ := together
      exact (Network.sweeping_rounds rounds).left here t k walk

theorem lookup_server {id : Int} (h : geo.lookup origin = .ok (.server id)) :
    (geo.nodeAt id).type = .SERVER ∧ ∃ k, Walk geo.network.link origin id k := by
  obtain ⟨t, rounds, left⟩ := loop_left h
  exact (Network.sweeping_rounds rounds).left left

theorem lookup_nothing {found : Found} (h : geo.lookup origin = .ok found) (noServer : ∀ id, found ≠ .server id) :
    ∃ s geo', Rounds Search.step (.start geo origin) s ∧ s.step = .ok (.leave (.pastEnd, geo')) := by
  have searches := search_matches geo origin
  unfold lookup at h
  rw [h] at searches
  cases result : geo.search origin with
  | error stop =>
    rw [result] at searches
    exact searches.elim
  | ok pair =>
    rw [result] at searches
    obtain ⟨r, geo'⟩ := pair
    obtain ⟨rfl, -⟩ : r = found ∧ _ := searches
    obtain ⟨s, rounds, left⟩ := loop_left result
    obtain ⟨t, rounds', left'⟩ := loop_left h
    cases r with
    | server id => exact absurd rfl (noServer id)
    | empty => exact ((Network.sweeping_rounds rounds').left left').elim
    | pastEnd => exact ⟨s, geo', rounds, left⟩

/-- A client without a server to reach gets no answer only by way of a dereference past the end. -/
theorem nothing_unsafe {fresh : Geography} (consistent : Consistent fresh geo)
    (owner : geo.IPmap[ipUint clientIP]? = some origin) (client : (geo.nodeAt origin).type = .CLIENT)
    (unreached : ∀ t k, Walk geo.network.link origin t k → (geo.nodeAt t).type ≠ .SERVER) :
    ¬SafeSearch geo clientIP origin := by
  intro safe
  obtain ⟨geo', answered, -⟩ := safe.nothing unreached fun _ => 0
  cases cached : geo.cache[ipUint clientIP]? with
  | some server =>
    obtain ⟨origin', id, owner', -, searched, -⟩ := consistent.cached _ _ cached
    rw [← consistent.IPmap, owner] at owner'
    obtain rfl := Option.some.inj owner'
    rw [← lookup_congr consistent.network] at searched
    obtain ⟨server, k, walk⟩ := lookup_server searched
    exact unreached id k walk server
  | none =>
    have call := findServer_searched (fun _ => 0) owner client cached
    rw [answered] at call
    cases searched : geo.lookup origin with
    | error stop =>
      rw [searched] at call
      exact call.elim
    | ok found =>
      rw [searched] at call
      obtain ⟨s, geo₁, rounds, pass⟩ := lookup_nothing searched fun id server => by
        rw [server] at call
        exact uintIp_ne_nil _ call.1.symm
      exact safe.valid s geo₁ rounds pass

end safety

/-- Whatever the topology is and whatever was asked before, the search for a client is safe exactly when the client
reaches a server. -/
theorem findServer_safe_iff {u : Nat → Int × Int × Int} {file : Option Bytes} {fresh geo : Geography}
    (loaded : load u file = .ok fresh) {calls : List ((TreeMap UInt32 UInt32 → Nat) × Bytes)} {answers : List Bytes}
    (run : fresh.findServers calls = .ok (answers, geo)) {clientIP : Bytes} {origin : Int}
    (owner : geo.IPmap[ipUint clientIP]? = some origin) (client : (geo.nodeAt origin).type = .CLIENT) :
    SafeSearch geo clientIP origin ↔
      ∃ t k, Walk geo.network.link origin t k ∧ (geo.nodeAt t).type = .SERVER := by
  have consistent := findServers_consistent (consistent_loaded loaded) run
  constructor
  · intro safe
    by_contra unreached
    refine nothing_unsafe consistent owner client (fun t k walk server => ?_) safe
    exact unreached ⟨t, k, walk, server⟩
  · rintro ⟨t, k, walk, server⟩
    constructor
    case once => exact fun s rounds => search_once rounds
    case ends => exact search_ends geo origin
    case valid => exact fun s geo' rounds pass => pastEnd_swept rounds pass walk server
    case nothing => exact fun unreached => absurd server (unreached t k walk)

theorem findServer_safe_sample : ∃ geo, load sampleUninit (some sampleFile) = .ok geo ∧
    (SafeSearch geo (text "10.0.0.1") 0 ↔ ∃ t k, Walk geo.network.link 0 t k ∧ (geo.nodeAt t).type = .SERVER) := by
  obtain ⟨geo, loaded, -, client, -, owner⟩ := load_sample
  have run : geo.findServers [] = .ok ([], geo) := rfl
  exact ⟨geo, loaded, findServer_safe_iff loaded run owner (by rw [client])⟩

def isolatedFile : Bytes := text "NUM_NODES: 1\n0 CLIENT 10.0.0.1\nNUM_LINKS: 0\n"

/-- What the search is left with in a pass that leaves it. -/
def foundBy : Pass Search (Found × Geography) → Option Found
  | .again _ => none
  | .leave (found, _) => some found

theorem isolated_client_unsafe : ∃ geo, load sampleUninit (some isolatedFile) = .ok geo ∧
    geo.IPmap[ipUint (text "10.0.0.1")]? = some 0 ∧ (geo.nodeAt 0).type = .CLIENT ∧
    ¬SafeSearch geo (text "10.0.0.1") 0 := by
  have contents : (load sampleUninit (some isolatedFile)).map (fun geo =>
      (geo.IPmap[ipUint (text "10.0.0.1")]?, (geo.nodeAt 0).type, (Search.start geo 0).step.map foundBy)) =
        .ok (some 0, .CLIENT, .ok (some .pastEnd)) := by
    decide +kernel
  cases loaded : load sampleUninit (some isolatedFile) with
  | error stop =>
    rw [loaded] at contents
    cases contents
  | ok geo =>
    rw [loaded] at contents
    simp only [Except.map, Except.ok.injEq, Prod.mk.injEq] at contents
    obtain ⟨owner, client, left⟩ := contents
    refine ⟨geo, rfl, owner, client, fun safe => ?_⟩
    cases pass : (Search.start geo 0).step with
    | error stop =>
      rw [pass] at left
      cases left
    | ok p =>
      rw [pass] at left
      cases p with
      | again s => cases left
      | leave result =>
        obtain ⟨found, geo'⟩ := result
        obtain rfl : found = .pastEnd := Option.some.inj (Except.ok.inj left)
        exact safe.valid _ geo' .refl pass

end Geography

end VStream
