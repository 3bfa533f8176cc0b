import VStream.Graph.BestFirst
import VStream.Nameserver.Sweep

/-!
# Distances that fit

The distances of a search are sums of costs in an `int`. A search takes the
nodes in best-first order until a sum does not fit, so the sums that matter can
be told from the network, in exact arithmetic.
-/

namespace VStream
open Cpp ShortestPath BestFirst
open Std (TreeMap)

/-! ### Ties -/

theorem foldl_first {first : Int × Int} {rest : List (Int × Int)}
    (ordered : (first :: rest).Pairwise fun p q => p.1 < q.1) :
    let least := rest.foldl (fun least entry => if mapComp entry least then entry else least) first
    ∀ entry ∈ first :: rest, least.2 < entry.2 ∨ least.2 = entry.2 ∧ least.1 ≤ entry.1 := by
  induction rest generalizing first with
  | nil => simp
  | cons next rest ih =>
    obtain ⟨above, ordered⟩ := List.pairwise_cons.mp ordered
    have less : first.1 < next.1 := above next List.mem_cons_self
    rw [List.forall_mem_cons, List.forall_mem_cons]
    by_cases smaller : next.2 < first.2
    · have later := ih ordered
      simp only [List.foldl_cons, mapComp, smaller, decide_true, ↓reduceIte] at later ⊢
      obtain ⟨here, later⟩ := List.forall_mem_cons.mp later
      exact ⟨by omega, here, later⟩
    · have kept : (first :: rest).Pairwise fun p q => p.1 < q.1 :=
        List.pairwise_cons.mpr ⟨fun p member => above p (List.mem_cons_of_mem _ member), (List.pairwise_cons.mp ordered).2⟩
      have later := ih kept
      simp only [List.foldl_cons, mapComp, smaller, decide_false, Bool.false_eq_true, ↓reduceIte] at later ⊢
      obtain ⟨here, later⟩ := List.forall_mem_cons.mp later
      exact ⟨here, by omega, later⟩

/-- Of several least entries the one with the least key is taken. -/
theorem minElement_first {distMap : DistMap} {u d : Int} (h : minElement distMap = some (u, d)) {v e : Int}
    (entry : distMap[v]? = some e) : d < e ∨ d = e ∧ u ≤ v := by
  have ordered := TreeMap.ordered_keys_toList (t := distMap)
  rw [← TreeMap.mem_toList_iff_getElem?_eq_some] at entry
  unfold minElement at h
  split at h
  · cases h
  · rename_i first rest entries
    rw [entries] at ordered entry
    have least := foldl_first (ordered.imp fun less => Int.compare_eq_lt.mp less) (v, e) entry
    rw [Option.some.inj h] at least
    exact least

namespace Network

theorem step_chosen {net : Network} {s s' : Search} (h : net.step s = .ok (.again s')) :
    minElement s'.distMap = some (s'.current.id, s'.current.distance) := by
  unfold step at h
  split at h
  · cases h
  split at h
  · cases h
  obtain ⟨after, -, h⟩ := bind_ok h
  split at h
  · rename_i id distance chosen
    obtain rfl := Pass.again.inj (Except.ok.inj h)
    exact chosen
  · cases h

/-! ### The order of a search -/

abbrev Server (net : Network) (id : Int) : Prop := net.type id = .SERVER

/-- The search has taken these nodes, the last one first, and is about to take `current`. -/
structure Tracks (net : Network) (origin : Int) (taken : List (Int × Int)) (s : Search) : Prop where
  visited : s.visited = taken.map Prod.fst
  order : Order net.link origin net.Server ((s.current.id, s.current.distance) :: taken)
  sound : ∀ v e : Int, s.distMap[v]? = some e → Offer net.link origin taken v e
  reach : ∀ v e : Int, Offer net.link origin taken v e → ∃ e' : Int, s.distMap[v]? = some e' ∧ e' ≤ e

section tracking
variable {net : Network} {origin : Int} {taken : List (Int × Int)} {s s' : Search}

theorem tracks_start (net : Network) (origin : Int) : Tracks net origin [] (.start origin) where
  visited := rfl
  order := .cons .nil (by simp) best_start
  sound v e here := by
    rw [start_pending] at here
    split at here
    · rename_i same
      exact offer_nil.mpr ⟨same, (Option.some.inj here).symm⟩
    · cases here
  reach v e offer := by
    obtain ⟨rfl, rfl⟩ := offer_nil.mp offer
    exact ⟨0, by rw [start_pending, if_pos rfl], le_rfl⟩

theorem Tracks.best (tracks : Tracks net origin taken s) : Best net.link origin taken s.current.id s.current.distance := by
  cases tracks.order with
  | cons _ _ best => exact best

theorem Tracks.pending (tracks : Tracks net origin taken s) : s.distMap.isEmpty = false := by
  obtain ⟨e, entry, -⟩ := tracks.reach _ _ tracks.best.1
  rw [← Bool.not_eq_true, TreeMap.isEmpty_iff_forall_not_mem]
  intro nothing
  have missing := nothing s.current.id
  rw [← TreeMap.isSome_getElem?_iff_mem, entry] at missing
  exact missing rfl

/-- What is pending after the neighbors of `current` are relaxed are the least offers once it is taken. -/
theorem Tracks.relaxed (tracks : Tracks net origin taken s) {after : DistMap}
    (relaxed : Relaxed net (s.current.id :: s.visited) s.current (net.neighbors s.current.id)
      (s.distMap.erase s.current.id) after) :
    (∀ v e : Int, after[v]? = some e → Offer net.link origin ((s.current.id, s.current.distance) :: taken) v e) ∧
    ∀ v e : Int, Offer net.link origin ((s.current.id, s.current.distance) :: taken) v e →
      ∃ e' : Int, after[v]? = some e' ∧ e' ≤ e := by
  have offers := fun {v e : Int} => offer_cons (w := v) (e := e) tracks.best.1
  constructor
  · intro v e here
    rcases relaxed.sound here with old | ⟨n, member, looked, rfl, rfl⟩
    · obtain ⟨other, old⟩ := erase_some.mp old
      exact offers.mpr ⟨other, .inl (tracks.sound v e old)⟩
    · obtain ⟨fresh, inner⟩ := looked
      rw [List.mem_cons, not_or, tracks.visited] at fresh
      exact offers.mpr ⟨fresh.1, .inr ⟨fresh.2, n.distance, ⟨n, member, rfl, rfl, inner⟩, rfl⟩⟩
  · intro v e offer
    obtain ⟨other, old | ⟨fresh, c, ⟨n, member, rfl, rfl, inner⟩, rfl⟩⟩ := offers.mp offer
    · obtain ⟨e', entry, le⟩ := tracks.reach v e old
      obtain ⟨e'', entry', le'⟩ := relaxed.keep (erase_some.mpr ⟨other, entry⟩)
      exact ⟨e'', entry', le'.trans le⟩
    · refine relaxed.reach n member ⟨?_, inner⟩
      rw [List.mem_cons, not_or, tracks.visited]
      exact ⟨other, fresh⟩

theorem Tracks.again (tracks : Tracks net origin taken s) (h : net.step s = .ok (.again s')) :
    Tracks net origin ((s.current.id, s.current.distance) :: taken) s' := by
  obtain ⟨noServer, grown, relaxed, here, -⟩ := step_again h
  rw [grown] at relaxed
  obtain ⟨sound, reach⟩ := tracks.relaxed relaxed
  refine ⟨by rw [grown, tracks.visited]; rfl, .cons tracks.order ?_ ⟨sound _ _ here, ?_⟩, sound, reach⟩
  · rw [List.map_cons, List.forall_mem_cons]
    cases tracks.order with
    | cons _ inner _ => exact ⟨noServer, inner⟩
  · intro w e offer
    obtain ⟨e', entry, le⟩ := reach w e offer
    rcases minElement_first (step_chosen h) entry with less | ⟨same, first⟩
    · exact .inl (less.trans_le le)
    · rcases le.lt_or_eq with less | rfl
      · exact .inl (same.trans_lt less)
      · exact .inr ⟨same, first⟩

theorem tracks_rounds (rounds : Rounds net.step (.start origin) s) : ∃ taken, Tracks net origin taken s := by
  induction rounds with
  | refl => exact ⟨[], tracks_start net origin⟩
  | tail _ pass ih =>
    obtain ⟨taken, tracks⟩ := ih
    exact ⟨_, tracks.again pass⟩

/-- Where every round goes through, every node of the order is taken in some round. -/
theorem order_rounds (goes : ∀ s, Rounds net.step (.start origin) s → ∃ p, net.step s = .ok p) {v d : Int}
    (order : Order net.link origin net.Server ((v, d) :: taken)) :
    ∃ s, Rounds net.step (.start origin) s ∧ Tracks net origin taken s ∧ s.current = ⟨v, d⟩ := by
  induction taken generalizing v d with
  | nil =>
    cases order with
    | cons _ _ best =>
      obtain ⟨rfl, rfl⟩ := offer_nil.mp best.1
      exact ⟨_, .refl, tracks_start net v, rfl⟩
  | cons last taken ih =>
    obtain ⟨u, k⟩ := last
    cases order with
    | cons before inner best =>
      obtain ⟨s, rounds, tracks, current⟩ := ih before
      obtain ⟨p, pass⟩ := goes s rounds
      cases p with
      | again s' =>
        have tracks' := tracks.again pass
        rw [current] at tracks'
        obtain ⟨id, distance⟩ := best.unique tracks'.best
        exact ⟨s', rounds.tail pass, tracks', by rw [id, distance]⟩
      | leave r =>
        have noServer : net.type s.current.id ≠ .SERVER := by
          rw [current]
          exact inner u List.mem_cons_self
        rcases step_leave pass with ⟨-, finished⟩ | ⟨-, server⟩ | ⟨-, -, after, relaxed, nothing⟩
        · rw [tracks.pending] at finished
          cases finished
        · exact absurd server noServer
        · have offer := best.1
          have offered := (tracks.relaxed relaxed).2
          rw [current] at offered
          obtain ⟨e, entry, -⟩ := offered v d offer
          rw [nothing] at entry
          cases entry

/-- Every round goes through exactly where the sums of the order are in range. -/
theorem rounds_go_iff : (∀ s, Rounds net.step (.start origin) s → ∃ p, net.step s = .ok p) ↔
    ∀ x, Sum net.link origin net.Server x → intMin ≤ x ∧ x ≤ intMax := by
  constructor
  · rintro goes x ⟨order, inner, ⟨n, member, rfl, rfl, noClient⟩, fresh⟩
    obtain ⟨s, rounds, tracks, current⟩ := order_rounds goes order
    obtain ⟨p, pass⟩ := goes s rounds
    have fits := step_fits tracks.pending pass
    unfold Fits at fits
    rw [current, tracks.visited] at fits
    exact fits inner n member ⟨fresh, noClient⟩
  · intro inRange s rounds
    obtain ⟨taken, tracks⟩ := tracks_rounds rounds
    have fits : net.Fits s := by
      intro noServer n member ⟨fresh, noClient⟩
      rw [tracks.visited] at fresh
      exact inRange _ (.intro tracks.order noServer ⟨n, member, rfl, rfl, noClient⟩ fresh)
    exact fits.step

end tracking

end Network

namespace Geography

/-! ### The sums of `findServer` -/

/-- `findServer` searches for this address, from `origin`. -/
def Searches (geo : Geography) (clientIP : Bytes) (origin : Int) : Prop :=
  geo.IPmap[ipUint clientIP]? = some origin ∧ (geo.nodeAt origin).type = .CLIENT ∧ geo.cache[ipUint clientIP]? = none

/-- `x` is a sum `current.getDistance() + neighbor.getDistance()` of the search from `origin`. -/
def Adds (geo : Geography) (origin x : Int) : Prop :=
  ∃ s, Rounds Search.step (.start geo origin) s ∧ s.distMap.isEmpty = false ∧
    (s.geo.nodeAt s.current.id).type ≠ .SERVER ∧ ∃ n ∈ s.geo.edgesAt s.current.id, n.id ∉ s.current.id :: s.visited ∧
      (s.geo.nodeAt n.id).type ≠ .CLIENT ∧ x = s.current.distance + n.distance

/-- The sums of a call fit an `int`, and the distances that are compared are the costs of paths from the client. -/
structure SumsFit (geo : Geography) (clientIP : Bytes) : Prop where
  fits : ∀ origin, geo.Searches clientIP origin → ∀ x, geo.Adds origin x → intMin ≤ x ∧ x ≤ intMax
  costs : ∀ origin, geo.Searches clientIP origin → ∀ s, Rounds Search.step (.start geo origin) s →
    ∀ v e : Int, s.distMap[v]? = some e → Walk geo.network.link origin v e

section sums
variable {geo : Geography} {origin : Int}

theorem rounds_geography {t : Network.Search} (rounds : Rounds geo.network.step (.start origin) t) :
    ∃ s, Rounds Search.step (.start geo origin) s ∧ Sees geo s t := by
  induction rounds with
  | refl => exact ⟨_, .refl, Keeps.refl geo, rfl, rfl, rfl⟩
  | tail _ pass ih =>
    obtain ⟨s, rounds, sees⟩ := ih
    have together := step_matches s _ sees
    rw [pass] at together
    cases here : s.step with
    | error stop =>
      rw [here] at together
      exact together.elim
    | ok p =>
      rw [here] at together
      cases p with
      | leave r => exact together.elim
      | again s' => exact ⟨s', rounds.tail here, together⟩

theorem adds_fit_iff : (∀ x, geo.Adds origin x → intMin ≤ x ∧ x ≤ intMax) ↔
    ∀ t, Rounds geo.network.step (.start origin) t → geo.network.Fits t := by
  constructor
  · intro fits t rounds noServer n member ⟨fresh, noClient⟩
    obtain ⟨taken, tracks⟩ := Network.tracks_rounds rounds
    obtain ⟨s, rounds', keeps, current, distMap, visited⟩ := rounds_geography rounds
    refine fits _ ⟨s, rounds', by rw [distMap]; exact tracks.pending, ?_, n, ?_, ?_, ?_, by rw [current]⟩
    · rw [keeps.type, current]
      exact noServer
    · rw [keeps.neighbors, current]
      exact member
    · rw [current, visited]
      exact fresh
    · rw [keeps.type]
      exact noClient
  · rintro fits x ⟨s, rounds, -, noServer, n, member, fresh, noClient, rfl⟩
    obtain ⟨t, rounds', keeps, current, -, visited⟩ := rounds_network rounds
    rw [keeps.type] at noServer noClient
    rw [keeps.neighbors] at member
    rw [current, visited] at fresh
    rw [current] at noServer member ⊢
    exact fits t rounds' noServer n member ⟨fresh, noClient⟩

theorem adds_fit_iff_rounds : (∀ x, geo.Adds origin x → intMin ≤ x ∧ x ≤ intMax) ↔
    ∀ t, Rounds geo.network.step (.start origin) t → ∃ p, geo.network.step t = .ok p := by
  rw [adds_fit_iff]
  constructor
  · exact fun fits t rounds => (fits t rounds).step
  · intro goes t rounds
    obtain ⟨taken, tracks⟩ := Network.tracks_rounds rounds
    obtain ⟨p, pass⟩ := goes t rounds
    exact Network.step_fits tracks.pending pass

theorem pending_walk {s : Search} (rounds : Rounds Search.step (.start geo origin) s) {v e : Int}
    (here : s.distMap[v]? = some e) : Walk geo.network.link origin v e := by
  obtain ⟨t, rounds', -, -, distMap, -⟩ := rounds_network rounds
  rw [distMap] at here
  obtain ⟨vs, path, -⟩ := (Network.sweeping_rounds rounds').reached v e here
  exact path.walk

/-- A call whose sums fit comes back. -/
theorem SumsFit.returns {clientIP : Bytes} (sums : SumsFit geo clientIP) (begin : TreeMap UInt32 UInt32 → Nat) :
    ∃ result, geo.findServer begin clientIP = .ok result := by
  cases owner : geo.IPmap[ipUint clientIP]? with
  | none => exact ⟨_, findServer_unknown begin owner⟩
  | some origin =>
    by_cases client : geo.network.type origin = .CLIENT
    · cases cached : geo.cache[ipUint clientIP]? with
      | some server => exact ⟨_, findServer_cached begin owner client cached⟩
      | none =>
        have goes := adds_fit_iff_rounds.mp (sums.fits origin ⟨owner, client, cached⟩)
        obtain ⟨found, searched⟩ := loop_goes goes (lookup_ends geo origin)
        have call := findServer_searched begin owner client cached
        rw [lookup, Network.search, searched] at call
        cases called : geo.findServer begin clientIP with
        | ok result => exact ⟨result, rfl⟩
        | error stop =>
          rw [called] at call
          exact call.elim
    · exact ⟨_, findServer_other begin owner client⟩

end sums

/-- Whatever was asked before, the sums of a call fit exactly where those of the best-first order of the network do, in
which the client comes first and the nearest server last. -/
theorem sums_fit_iff {u : Nat → Int × Int × Int} {file : Option Bytes} {fresh geo : Geography}
    (loaded : load u file = .ok fresh) {calls : List ((TreeMap UInt32 UInt32 → Nat) × Bytes)} {answers : List Bytes}
    (run : fresh.findServers calls = .ok (answers, geo)) (clientIP : Bytes) :
    SumsFit geo clientIP ↔ ∀ origin, fresh.IPmap[ipUint clientIP]? = some origin →
      (fresh.nodeAt origin).type = .CLIENT → ∀ x, Sum fresh.network.link origin fresh.network.Server x →
        intMin ≤ x ∧ x ≤ intMax := by
  have consistent := findServers_consistent (consistent_loaded loaded) run
  have type : ∀ id, (geo.nodeAt id).type = (fresh.nodeAt id).type := fun id =>
    congrFun (congrArg Network.type consistent.network) id
  have searching : ∀ {origin}, (∀ x, geo.Adds origin x → intMin ≤ x ∧ x ≤ intMax) ↔
      ∀ x, Sum fresh.network.link origin fresh.network.Server x → intMin ≤ x ∧ x ≤ intMax := by
    intro origin
    rw [adds_fit_iff_rounds, consistent.network]
    exact Network.rounds_go_iff
  constructor
  · intro sums origin owner client
    cases cached : geo.cache[ipUint clientIP]? with
    | none => exact searching.mp (sums.fits origin ⟨by rw [consistent.IPmap, owner], by rw [type, client], cached⟩)
    | some server =>
      -- the address is in the cache because a search for it came back
      obtain ⟨origin', id, owner', -, searched, -⟩ := consistent.cached _ _ cached
      obtain rfl : origin' = origin := Option.some.inj (owner'.symm.trans owner)
      exact Network.rounds_go_iff.mp fun s rounds => loop_rounds searched rounds
  · intro inRange
    refine ⟨fun origin searches => ?_, fun origin _ s rounds v e here => pending_walk rounds here⟩
    obtain ⟨owner, client, -⟩ := searches
    rw [consistent.IPmap] at owner
    rw [type] at client
    exact searching.mpr (inRange origin owner client)

theorem sums_fit_iff_sample : ∃ geo, load sampleUninit (some sampleFile) = .ok geo ∧
    (SumsFit geo (text "10.0.0.1") ↔ ∀ origin, geo.IPmap[ipUint (text "10.0.0.1")]? = some origin →
      (geo.nodeAt origin).type = .CLIENT → ∀ x, Sum geo.network.link origin geo.network.Server x →
        intMin ≤ x ∧ x ≤ intMax) := by
  obtain ⟨geo, loaded, -⟩ := load_sample
  have run : geo.findServers [] = .ok ([], geo) := rfl
  exact ⟨geo, loaded, sums_fit_iff loaded run _⟩

def farFile : Bytes :=
  text "NUM_NODES: 3\n0 CLIENT 10.0.0.1\n1 SWITCH NO_IP\n2 SERVER 10.0.0.2\nNUM_LINKS: 2\n0 1 2147483647\n1 2 1\n"

/-- Two links whose costs do not fit together. -/
theorem distance_overflows : (∃ geo, load sampleUninit (some farFile) = .ok geo ∧
      geo.findServer (fun _ => 0) (text "10.0.0.1") = .error .undefined) ∧
    ¬∀ (u : Nat → Int × Int × Int) (contents : Bytes) (geo : Geography), load u (some contents) = .ok geo →
      ∀ clientIP, SumsFit geo clientIP := by
  have evaluated : (load sampleUninit (some farFile)).map (fun geo =>
      (geo.findServer (fun _ => 0) (text "10.0.0.1")).map Prod.fst) = .ok (.error .undefined) := by decide +kernel
  cases loaded : load sampleUninit (some farFile) with
  | error stop =>
    rw [loaded] at evaluated
    cases evaluated
  | ok geo =>
    rw [loaded] at evaluated
    have overflow := Except.ok.inj evaluated
    dsimp only at overflow
    cases called : geo.findServer (fun _ => 0) (text "10.0.0.1") with
    | ok result =>
      rw [called] at overflow
      cases overflow
    | error stop =>
      rw [called] at overflow
      cases overflow
      refine ⟨⟨geo, rfl, called⟩, fun always => ?_⟩
      obtain ⟨result, returned⟩ := (always _ _ geo loaded (text "10.0.0.1")).returns fun _ => 0
      cases called.symm.trans returned

end Geography

end VStream
