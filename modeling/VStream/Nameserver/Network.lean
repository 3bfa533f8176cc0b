import VStream.Graph.ShortestPath
import VStream.Nameserver.Topology

/-!
# Searching a network

The search of `findServer` on a topology that does not change while it is read.
`nearest` says that it finds a nearest server.
-/

namespace VStream
open Cpp ShortestPath
open Std (TreeMap)

/-- What a search sees of a topology. Ids without a node are clients without an address. -/
structure Network where
  type : Int → NodeType
  ip : Int → UInt32
  neighbors : Int → List Neighbor

abbrev DistMap := TreeMap Int Int

def mapComp (lhs rhs : Int × Int) : Bool := lhs.2 < rhs.2

/-- `min_element(distMap.begin(), distMap.end(), MapComp)`: the first of the least entries. -/
def minElement (distMap : DistMap) : Option (Int × Int) :=
  match distMap.toList with
  | [] => none
  | first :: rest => some (rest.foldl (fun least entry => if mapComp entry least then entry else least) first)

/-- How the search ends. `pastEnd` is the end of the loop after `*min_element` of an empty map. -/
inductive Found where
  | server (id : Int)
  | pastEnd
  | empty
  deriving DecidableEq, Repr

namespace Network

structure Search where
  current : Neighbor
  distMap : DistMap
  visited : List Int

def relax (net : Network) (visited : List Int) (current : Neighbor) (distMap : DistMap) (neighbor : Neighbor) :
    Exec DistMap :=
  if neighbor.id ∈ visited ∨ net.type neighbor.id = .CLIENT then .ok distMap
  else do
    let distance ← toInt (current.distance + neighbor.distance)
    return distMap.insert neighbor.id ((distMap[neighbor.id]?.map (min · distance)).getD distance)

def step (net : Network) (s : Search) : Exec (Pass Search Found) :=
  if s.distMap.isEmpty then .ok (.leave .empty)
  else if net.type s.current.id = .SERVER then .ok (.leave (.server s.current.id))
  else do
    let visited := s.current.id :: s.visited
    let distMap ← (net.neighbors s.current.id).foldlM (net.relax visited s.current) (s.distMap.erase s.current.id)
    match minElement distMap with
    | some (id, distance) => return .again { current := ⟨id, distance⟩, distMap, visited }
    | none => return .leave .pastEnd

def Search.start (origin : Int) : Search where
  current := ⟨origin, 0⟩
  distMap := TreeMap.empty.insert origin 0
  visited := []

def search (net : Network) (fuel : Nat) (origin : Int) : Exec Found := loop net.step fuel (.start origin)

/-! ### Least entries -/

theorem foldl_least (rest : List (Int × Int)) (first : Int × Int) :
    let least := rest.foldl (fun least entry => if mapComp entry least then entry else least) first
    least ∈ first :: rest ∧ ∀ entry ∈ first :: rest, least.2 ≤ entry.2 := by
  induction rest generalizing first with
  | nil => simp
  | cons entry rest ih =>
    obtain ⟨member, least⟩ := ih (if mapComp entry first then entry else first)
    simp only [List.foldl_cons, List.mem_cons, forall_eq_or_imp] at member least ⊢
    by_cases smaller : entry.2 < first.2
    · simp only [mapComp, smaller, decide_true, ↓reduceIte] at member least ⊢
      exact ⟨.inr member, by omega, least.1, least.2⟩
    · simp only [mapComp, smaller, decide_false, Bool.false_eq_true, ↓reduceIte] at member least ⊢
      exact ⟨member.imp_right .inr, least.1, by omega, least.2⟩

theorem minElement_some {distMap : DistMap} {u d : Int} (h : minElement distMap = some (u, d)) :
    distMap[u]? = some d ∧ ∀ v e : Int, distMap[v]? = some e → d ≤ e := by
  simp only [← TreeMap.mem_toList_iff_getElem?_eq_some]
  unfold minElement at h
  split at h
  · cases h
  · rename_i first rest entries
    obtain ⟨member, least⟩ := foldl_least rest first
    rw [Option.some.inj h] at member least
    rw [entries]
    exact ⟨member, fun v e here => least (v, e) here⟩

theorem minElement_none {distMap : DistMap} (h : minElement distMap = none) (v : Int) : distMap[v]? = none := by
  unfold minElement at h
  split at h
  · rename_i entries
    cases here : distMap[v]? with
    | none => rfl
    | some e =>
      rw [← TreeMap.mem_toList_iff_getElem?_eq_some, entries] at here
      cases here
  · cases h

/-! ### Relaxing the neighbors of a node -/

section relaxing
variable {net : Network} {visited : List Int} {current : Neighbor}

def Open (net : Network) (visited : List Int) (neighbor : Neighbor) : Prop :=
  neighbor.id ∉ visited ∧ net.type neighbor.id ≠ .CLIENT

structure Relaxed (net : Network) (visited : List Int) (current : Neighbor) (neighbors : List Neighbor)
    (before after : DistMap) : Prop where
  sound : ∀ {v e : Int}, after[v]? = some e → before[v]? = some e ∨
    ∃ n ∈ neighbors, net.Open visited n ∧ n.id = v ∧ e = current.distance + n.distance
  keep : ∀ {v e : Int}, before[v]? = some e → ∃ e' : Int, after[v]? = some e' ∧ e' ≤ e
  reach : ∀ n ∈ neighbors, net.Open visited n →
    ∃ e : Int, after[n.id]? = some e ∧ e ≤ current.distance + n.distance

theorem relax_spec {before after : DistMap} {n : Neighbor}
    (h : net.relax visited current before n = .ok after) : Relaxed net visited current [n] before after := by
  unfold relax at h
  split at h
  · rename_i skipped
    obtain rfl := Except.ok.inj h
    refine ⟨.inl, fun here => ⟨_, here, le_rfl⟩, ?_⟩
    intro m member ⟨fresh, inner⟩
    obtain rfl := List.mem_singleton.mp member
    exact (skipped.elim fresh inner).elim
  · rename_i looked
    rw [not_or] at looked
    obtain ⟨distance, sum, h⟩ := bind_ok h
    obtain rfl := (toInt_eq sum).1
    obtain rfl := Except.ok.inj h
    have less : ((before[n.id]?.map (min · (current.distance + n.distance))).getD
        (current.distance + n.distance)) ≤ current.distance + n.distance := by
      cases before[n.id]? <;> simp
    refine ⟨?_, ?_, ?_⟩
    · intro v e here
      by_cases same : n.id = v
      · subst same
        rw [TreeMap.getElem?_insert_self] at here
        cases old : before[n.id]? with
        | none => exact .inr ⟨n, by simp, looked, rfl, by simp [old] at here; exact here.symm⟩
        | some known =>
          simp only [old, Option.map_some, Option.getD_some, Option.some.injEq] at here
          rcases min_choice known (current.distance + n.distance) with pick | pick
          · exact .inl (by rw [← here, pick])
          · exact .inr ⟨n, by simp, looked, rfl, by rw [← here, pick]⟩
      · rw [TreeMap.getElem?_insert, if_neg (by simpa using same)] at here
        exact .inl here
    · intro v e here
      by_cases same : n.id = v
      · subst same
        exact ⟨_, TreeMap.getElem?_insert_self, by simp [here]⟩
      · exact ⟨e, by rw [TreeMap.getElem?_insert, if_neg (by simpa using same)]; exact here, le_rfl⟩
    · intro m member _
      obtain rfl := List.mem_singleton.mp member
      exact ⟨_, TreeMap.getElem?_insert_self, less⟩

theorem Relaxed.trans {ns ms : List Neighbor} {before middle after : DistMap}
    (first : Relaxed net visited current ns before middle) (second : Relaxed net visited current ms middle after) :
    Relaxed net visited current (ns ++ ms) before after where
  sound here := by
    rcases second.sound here with old | ⟨n, member, rest⟩
    · rcases first.sound old with older | ⟨n, member, rest⟩
      · exact .inl older
      · exact .inr ⟨n, List.mem_append_left _ member, rest⟩
    · exact .inr ⟨n, List.mem_append_right _ member, rest⟩
  keep here := by
    obtain ⟨e, he, le⟩ := first.keep here
    obtain ⟨e', he', le'⟩ := second.keep he
    exact ⟨e', he', le'.trans le⟩
  reach n member looked := by
    rcases List.mem_append.mp member with early | late
    · obtain ⟨e, he, le⟩ := first.reach n early looked
      obtain ⟨e', he', le'⟩ := second.keep he
      exact ⟨e', he', le'.trans le⟩
    · exact second.reach n late looked

theorem relaxAll_spec {ns : List Neighbor} {before after : DistMap}
    (h : ns.foldlM (net.relax visited current) before = .ok after) :
    Relaxed net visited current ns before after := by
  induction ns generalizing before with
  | nil =>
    obtain rfl := Except.ok.inj h
    exact ⟨.inl, fun here => ⟨_, here, le_rfl⟩, by simp⟩
  | cons n ns ih =>
    rw [List.foldlM_cons] at h
    obtain ⟨middle, first, h⟩ := bind_ok h
    exact (relax_spec first).trans (ih h)

theorem relaxAll_ok {ns : List Neighbor} (before : DistMap)
    (fits : ∀ n ∈ ns, net.Open visited n → ∃ d, toInt (current.distance + n.distance) = .ok d) :
    ∃ after, ns.foldlM (net.relax visited current) before = .ok after := by
  induction ns generalizing before with
  | nil => exact ⟨before, rfl⟩
  | cons n ns ih =>
    have first : ∃ middle, net.relax visited current before n = .ok middle := by
      unfold relax
      split
      · exact ⟨before, rfl⟩
      · rename_i looked
        obtain ⟨d, sum⟩ := fits n List.mem_cons_self (not_or.mp looked)
        exact ⟨_, by rw [sum]; rfl⟩
    obtain ⟨middle, first⟩ := first
    obtain ⟨after, rest⟩ := ih middle fun m member => fits m (List.mem_cons_of_mem _ member)
    exact ⟨after, by rw [List.foldlM_cons, first]; exact rest⟩

theorem relaxAll_fits {ns : List Neighbor} {before after : DistMap}
    (h : ns.foldlM (net.relax visited current) before = .ok after) :
    ∀ n ∈ ns, net.Open visited n →
      intMin ≤ current.distance + n.distance ∧ current.distance + n.distance ≤ intMax := by
  induction ns generalizing before with
  | nil => exact fun n member => absurd member List.not_mem_nil
  | cons n ns ih =>
    rw [List.foldlM_cons] at h
    obtain ⟨middle, first, h⟩ := bind_ok h
    refine List.forall_mem_cons.mpr ⟨fun looked => ?_, ih h⟩
    unfold relax at first
    rw [if_neg (not_or.mpr looked)] at first
    obtain ⟨distance, sum, -⟩ := bind_ok first
    exact (toInt_eq sum).2

end relaxing

/-! ### What a round does -/

section rounds
variable {net : Network} {s s' : Search}

theorem step_again (h : net.step s = .ok (.again s')) :
    net.type s.current.id ≠ .SERVER ∧ s'.visited = s.current.id :: s.visited ∧
    Relaxed net s'.visited s.current (net.neighbors s.current.id) (s.distMap.erase s.current.id) s'.distMap ∧
    s'.distMap[s'.current.id]? = some s'.current.distance ∧
    ∀ v e : Int, s'.distMap[v]? = some e → s'.current.distance ≤ e := by
  unfold step at h
  split at h
  · cases h
  split at h
  · cases h
  rename_i noServer
  obtain ⟨after, relaxed, h⟩ := bind_ok h
  split at h
  · rename_i id distance chosen
    obtain rfl := Pass.again.inj (Except.ok.inj h)
    exact ⟨noServer, rfl, relaxAll_spec relaxed, minElement_some chosen⟩
  · cases h

theorem step_leave {r : Found} (h : net.step s = .ok (.leave r)) :
    r = .empty ∧ s.distMap.isEmpty = true ∨
    r = .server s.current.id ∧ net.type s.current.id = .SERVER ∨
    r = .pastEnd ∧ net.type s.current.id ≠ .SERVER ∧ ∃ after : DistMap,
      Relaxed net (s.current.id :: s.visited) s.current (net.neighbors s.current.id)
        (s.distMap.erase s.current.id) after ∧ ∀ v : Int, after[v]? = none := by
  unfold step at h
  split at h
  · rename_i finished
    exact .inl ⟨(Pass.leave.inj (Except.ok.inj h)).symm, finished⟩
  split at h
  · rename_i server
    exact .inr (.inl ⟨(Pass.leave.inj (Except.ok.inj h)).symm, server⟩)
  rename_i noServer
  obtain ⟨after, relaxed, h⟩ := bind_ok h
  split at h
  · cases h
  · rename_i nothing
    exact .inr (.inr ⟨(Pass.leave.inj (Except.ok.inj h)).symm, noServer, after, relaxAll_spec relaxed,
      minElement_none nothing⟩)

theorem toInt_ends (n : Int) : toInt n ≠ .error .diverges := by
  unfold toInt; split <;> simp

theorem relaxAll_ends {visited : List Int} {current : Neighbor} (ns : List Neighbor) (before : DistMap) :
    ns.foldlM (net.relax visited current) before ≠ .error .diverges := by
  induction ns generalizing before with
  | nil => simp
  | cons n ns ih =>
    rw [List.foldlM_cons]
    refine bind_ends ?_ ih
    unfold relax
    split
    · simp
    · exact bind_ends (toInt_ends _) fun _ => by simp

theorem step_ends (s : Search) : net.step s ≠ .error .diverges := by
  unfold step
  split
  · simp
  split
  · simp
  refine bind_ends (relaxAll_ends _ _) fun after => ?_
  split <;> simp

end rounds

/-! ### Termination -/

/-- `ids` holds the origin and every id that some link leads to. -/
def Closed (net : Network) (ids : List Int) : Prop := ∀ v, ∀ n ∈ net.neighbors v, n.id ∈ ids

/-- What is known of the distances and of the visited nodes in every round, whatever the costs. -/
structure Live (ids : List Int) (s : Search) : Prop where
  pending : ∀ {v e : Int}, s.distMap[v]? = some e → v ∈ ids ∧ v ∉ s.visited
  current : s.distMap[s.current.id]? = some s.current.distance

theorem erase_some {distMap : DistMap} {u v e : Int} :
    (distMap.erase u)[v]? = some e ↔ v ≠ u ∧ distMap[v]? = some e := by
  rw [TreeMap.getElem?_erase]
  by_cases same : u = v
  · simp [same]
  · simp [same, Ne.symm same]

theorem live_start {ids : List Int} {origin : Int} (inside : origin ∈ ids) : Live ids (.start origin) where
  pending {v e} h := by
    have same : origin = v := by
      by_contra other
      simp [Search.start, other] at h
    exact ⟨same ▸ inside, by simp [Search.start]⟩
  current := by simp [Search.start]

theorem Relaxed.live {net : Network} {ids visited : List Int} {s : Search} {after : DistMap}
    (closed : net.Closed ids) (live : Live ids s) (grown : visited = s.current.id :: s.visited)
    (relaxed : Relaxed net visited s.current (net.neighbors s.current.id) (s.distMap.erase s.current.id) after)
    {v e : Int} (here : after[v]? = some e) : v ∈ ids ∧ v ∉ visited := by
  subst grown
  rcases relaxed.sound here with old | ⟨n, member, looked, rfl, -⟩
  · obtain ⟨other, old⟩ := erase_some.mp old
    exact ⟨(live.pending old).1, by simp [other, (live.pending old).2]⟩
  · exact ⟨closed _ n member, looked.1⟩

theorem live_again {net : Network} {ids : List Int} {s s' : Search} (closed : net.Closed ids) (live : Live ids s)
    (h : net.step s = .ok (.again s')) : Live ids s' := by
  obtain ⟨-, grown, relaxed, here, -⟩ := step_again h
  exact ⟨relaxed.live closed live grown, here⟩

def unvisited (ids : List Int) (s : Search) : Nat := (ids.toFinset \ s.visited.toFinset).card

theorem unvisited_le (ids : List Int) (s : Search) : unvisited ids s ≤ ids.length :=
  (Finset.card_le_card Finset.sdiff_subset).trans ids.toFinset_card_le

theorem unvisited_again {net : Network} {ids : List Int} {s s' : Search} (live : Live ids s)
    (h : net.step s = .ok (.again s')) : unvisited ids s' < unvisited ids s := by
  obtain ⟨-, grown, -⟩ := step_again h
  obtain ⟨inside, fresh⟩ := live.pending live.current
  refine Finset.card_lt_card ⟨?_, ?_⟩
  · intro v member
    simp only [grown, Finset.mem_sdiff, List.mem_toFinset, List.mem_cons, not_or] at member ⊢
    exact ⟨member.1, member.2.2⟩
  · intro all
    have member := all (Finset.mem_sdiff.mpr ⟨List.mem_toFinset.mpr inside, by simpa using fresh⟩)
    simp [grown] at member

/-- Every search ends: each round visits a new one of finitely many ids. -/
theorem search_ends {net : Network} {ids : List Int} {origin : Int} {fuel : Nat} (closed : net.Closed ids)
    (inside : origin ∈ ids) (enough : ids.length < fuel) : net.search fuel origin ≠ .error .diverges := by
  refine loop_ends (Live ids) (unvisited ids) (fun s _ => step_ends s)
    (fun s s' live h => ⟨live_again closed live h, unvisited_again live h⟩) (live_start inside) ?_
  exact (unvisited_le ids _).trans_lt enough

/-! ### The nearest server -/

/-- A link the search follows: behind the origin there are no clients. -/
def link (net : Network) (v w c : Int) : Prop :=
  ∃ n ∈ net.neighbors v, n.id = w ∧ n.distance = c ∧ net.type w ≠ .CLIENT

structure Explored (net : Network) (origin : Int) (s : Search) : Prop where
  frontier : ∃ dist, Frontier net.link origin (· ∈ s.visited) dist fun v => s.distMap[v]?
  current : s.distMap[s.current.id]? = some s.current.distance
  least : ∀ v e : Int, s.distMap[v]? = some e → s.current.distance ≤ e
  noServer : ∀ v ∈ s.visited, net.type v ≠ .SERVER

theorem start_pending (origin v : Int) :
    (Search.start origin).distMap[v]? = if v = origin then some 0 else none := by
  by_cases same : v = origin
  · simp [Search.start, same]
  · simp [Search.start, same, Ne.symm same]

theorem explored_start (net : Network) (origin : Int) : Explored net origin (.start origin) where
  frontier := by
    have initial := Frontier.initial net.link origin
    refine ⟨fun _ => 0, ?_⟩
    simp only [start_pending]
    simpa only [Search.start, List.not_mem_nil] using initial
  current := by simp [Search.start]
  least v e h := by
    rw [start_pending] at h
    split at h
    · exact (Option.some.inj h).le
    · cases h
  noServer := by simp [Search.start]

section correct
variable {net : Network} {origin : Int} {s : Search}

theorem Explored.settle (explored : Explored net origin s) (nonneg : ∀ v w c, net.link v w c → 0 ≤ c)
    {after : DistMap} (relaxed : Relaxed net (s.current.id :: s.visited) s.current
      (net.neighbors s.current.id) (s.distMap.erase s.current.id) after) :
    ∃ dist, Frontier net.link origin (· ∈ s.current.id :: s.visited) dist fun v => after[v]? := by
  obtain ⟨dist, frontier⟩ := explored.frontier
  have settled := frontier.settle nonneg explored.current explored.least (fun v => after[v]?)
    ?apart ?sound ?keep ?relax
  case apart =>
    intro v e here
    rcases relaxed.sound here with old | ⟨n, -, looked, rfl, -⟩
    · obtain ⟨other, old⟩ := erase_some.mp old
      exact ⟨other, frontier.apart old⟩
    · exact not_or.mp (by simpa using looked.1)
  case sound =>
    intro v e here
    rcases relaxed.sound here with old | ⟨n, member, looked, rfl, rfl⟩
    · exact .inl (erase_some.mp old).2
    · exact .inr ⟨n.distance, ⟨n, member, rfl, rfl, looked.2⟩, rfl⟩
  case keep =>
    intro v e other old
    exact relaxed.keep (erase_some.mpr ⟨other, old⟩)
  case relax =>
    rintro v c ⟨n, member, rfl, rfl, inner⟩
    by_cases seen : n.id ∈ s.current.id :: s.visited
    · rcases List.mem_cons.mp seen with here | before
      · exact .inl here
      · exact .inr (.inl before)
    · exact .inr (.inr (relaxed.reach n member ⟨seen, inner⟩))
  exact ⟨_, by simpa only [List.mem_cons] using settled⟩

theorem Explored.again {s' : Search} (explored : Explored net origin s)
    (nonneg : ∀ v w c, net.link v w c → 0 ≤ c) (h : net.step s = .ok (.again s')) : Explored net origin s' := by
  obtain ⟨noServer, grown, relaxed, here, least⟩ := step_again h
  rw [grown] at relaxed
  refine ⟨?_, here, least, ?_⟩
  · rw [grown]; exact explored.settle nonneg relaxed
  · rw [grown]
    intro v member
    rcases List.mem_cons.mp member with rfl | before
    · exact noServer
    · exact explored.noServer v before

def Correct (net : Network) (origin : Int) : Found → Prop
  | .server id => net.type id = .SERVER ∧ ∃ d, Walk net.link origin id d ∧
      ∀ t k, net.type t = .SERVER → Walk net.link origin t k → d ≤ k
  | .pastEnd => ∀ t k, Walk net.link origin t k → net.type t ≠ .SERVER
  | .empty => False

theorem Explored.leave {r : Found} (explored : Explored net origin s)
    (nonneg : ∀ v w c, net.link v w c → 0 ≤ c) (h : net.step s = .ok (.leave r)) : Correct net origin r := by
  obtain ⟨dist, frontier⟩ := explored.frontier
  rcases step_leave h with ⟨-, finished⟩ | ⟨rfl, server⟩ | ⟨rfl, noServer, after, relaxed, nothing⟩
  · have missing := TreeMap.isEmpty_iff_forall_not_mem.mp finished s.current.id
    rw [← TreeMap.isSome_getElem?_iff_mem, explored.current] at missing
    exact (missing rfl).elim
  · obtain ⟨vs, path, -⟩ := frontier.reached explored.current
    refine ⟨server, _, path.walk, fun t k other walk => ?_⟩
    rcases frontier.cut nonneg walk with visited | ⟨y, e, pending, le⟩
    · exact absurd other (explored.noServer t visited)
    · exact (explored.least y e pending).trans le
  · intro t k walk
    obtain ⟨dist', settled⟩ := explored.settle nonneg relaxed
    rcases settled.cut nonneg walk with visited | ⟨y, e, pending, -⟩
    · rcases List.mem_cons.mp visited with rfl | before
      · exact noServer
      · exact explored.noServer t before
    · rw [nothing] at pending; cases pending

/-- The sums of a round are in range. -/
def Fits (net : Network) (s : Search) : Prop :=
  net.type s.current.id ≠ .SERVER → ∀ n ∈ net.neighbors s.current.id, net.Open (s.current.id :: s.visited) n →
    intMin ≤ s.current.distance + n.distance ∧ s.current.distance + n.distance ≤ intMax

theorem Fits.step (fits : net.Fits s) : ∃ p, net.step s = .ok p := by
  unfold Network.step
  split
  · exact ⟨_, rfl⟩
  split
  · exact ⟨_, rfl⟩
  rename_i noServer
  obtain ⟨after, relaxed⟩ := relaxAll_ok (s.distMap.erase s.current.id) fun n member looked =>
    ⟨_, toInt_ok (fits noServer n member looked).1 (fits noServer n member looked).2⟩
  simp only [relaxed, ok_bind]
  split <;> exact ⟨_, rfl⟩

theorem step_fits (pending : s.distMap.isEmpty = false) {p : Pass Search Found} (h : net.step s = .ok p) :
    net.Fits s := by
  intro noServer
  unfold Network.step at h
  rw [if_neg (by simp [pending]), if_neg noServer] at h
  obtain ⟨after, relaxed, -⟩ := bind_ok h
  exact relaxAll_fits relaxed

/-- A round goes through where the lengths of paths are in range. -/
theorem step_ok (reached : ∃ vs, Path net.link origin vs s.current.id s.current.distance ∧
      ∀ v ∈ vs, v = s.current.id ∨ v ∈ s.visited)
    (fits : ∀ vs v d, Path net.link origin vs v d → intMin ≤ d ∧ d ≤ intMax) : ∃ p, net.step s = .ok p := by
  obtain ⟨vs, path, inner⟩ := reached
  have sums : net.Fits s := by
    intro _ n member ⟨fresh, noClient⟩
    have further := path.snoc ⟨n, member, rfl, rfl, noClient⟩ fun seen =>
      fresh (List.mem_cons.mpr (inner n.id seen))
    exact fits _ _ _ further
  exact sums.step

/-- On a network without negative costs, whose path lengths are in range, the search finds a nearest
server or finds that there is none. -/
theorem search_correct {ids : List Int} {fuel : Nat} (closed : net.Closed ids) (inside : origin ∈ ids)
    (enough : ids.length < fuel) (nonneg : ∀ v w c, net.link v w c → 0 ≤ c)
    (fits : ∀ vs v d, Path net.link origin vs v d → intMin ≤ d ∧ d ≤ intMax) :
    ∃ r, net.search fuel origin = .ok r ∧ Correct net origin r := by
  refine loop_total (fun s => Live ids s ∧ Explored net origin s) (Correct net origin) (unvisited ids) ?_
    ⟨live_start inside, explored_start net origin⟩ ?_
  · rintro s ⟨live, explored⟩
    obtain ⟨dist, frontier⟩ := explored.frontier
    obtain ⟨p, round⟩ := step_ok (frontier.reached explored.current) fits
    cases p with
    | again s' =>
      exact .inl ⟨s', round, ⟨live_again closed live round, explored.again nonneg round⟩,
        unvisited_again live round⟩
    | leave r => exact .inr ⟨r, round, explored.leave nonneg round⟩
  · exact (unvisited_le ids _).trans_lt enough

end correct

end Network

end VStream
