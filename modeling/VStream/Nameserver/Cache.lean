import VStream.Nameserver.Nearest

/-!
# The cache

`reply` is what a topology answers without a cache. Every call of `findServer`
in a run gives the reply and keeps the cache consistent with the topology.
-/

namespace VStream.Geography
open Cpp
open Std (TreeMap)

/-- The answer for an address: none unless it is a client's, else what the search finds. -/
def reply (geo : Geography) (clientIP : Bytes) : Exec Bytes :=
  match geo.IPmap[ipUint clientIP]? with
  | none => .ok []
  | some origin =>
    if geo.network.type origin ≠ .CLIENT then .ok [] else geo.lookup origin >>= fun found => .ok (geo.answer found)

/-- `geo` is the topology `fresh`, with some of its replies in the cache. -/
structure Consistent (fresh geo : Geography) : Prop where
  network : geo.network = fresh.network
  IPmap : geo.IPmap = fresh.IPmap
  size : geo.cache.size ≤ cacheSize
  cached : ∀ k v : UInt32, geo.cache[k]? = some v → ∃ origin id, fresh.IPmap[k]? = some origin ∧
    fresh.network.type origin = .CLIENT ∧ fresh.lookup origin = .ok (.server id) ∧ v = fresh.network.ip id

theorem consistent_loaded {u : Nat → Int × Int × Int} {file : Option Bytes} {geo : Geography}
    (loaded : load u file = .ok geo) : Consistent geo geo := by
  have empty := load_cache loaded
  refine ⟨rfl, rfl, by simp [empty], fun k v here => ?_⟩
  rw [empty] at here
  simp at here

theorem lookup_ends (geo : Geography) (origin : Int) : geo.lookup origin ≠ .error .diverges :=
  Network.search_ends (linked_closed geo origin) List.mem_cons_self (by simp)

/-- A search depends on what it sees of the topology only. -/
theorem lookup_congr {geo geo' : Geography} (same : geo'.network = geo.network) (origin : Int) :
    geo'.lookup origin = geo.lookup origin := by
  have here := lookup_ends geo origin
  have there := lookup_ends geo' origin
  unfold lookup Network.search at *
  rw [same] at there ⊢
  rw [← loop_more (Nat.le_max_left _ (geo.linked.length + 2)) there,
    loop_more (Nat.le_max_right (geo'.linked.length + 2) _) here]

theorem answer_congr {geo geo' : Geography} (same : geo'.network = geo.network) (found : Found) :
    geo'.answer found = geo.answer found := by
  unfold answer
  rw [same]

theorem findServer_reply {fresh geo : Geography} (consistent : Consistent fresh geo)
    (begin : TreeMap UInt32 UInt32 → Nat) (clientIP : Bytes) :
    Matches (fun result answer => result.1 = answer ∧ Consistent fresh result.2)
      (geo.findServer begin clientIP) (fresh.reply clientIP) := by
  have touched : ∀ origin, Consistent fresh (geo.touchNode origin) := fun origin =>
    ⟨(network_touchNode geo origin).trans consistent.network, consistent.IPmap, consistent.size, consistent.cached⟩
  unfold reply
  rw [← consistent.IPmap]
  cases owner : geo.IPmap[ipUint clientIP]? with
  | none =>
    rw [findServer_unknown begin owner]
    exact ⟨rfl, consistent⟩
  | some origin =>
    dsimp only
    rw [← consistent.network]
    by_cases client : geo.network.type origin = .CLIENT
    · rw [if_neg (not_not.mpr client), ← lookup_congr consistent.network]
      cases cached : geo.cache[ipUint clientIP]? with
      | some server =>
        obtain ⟨origin', id, owner', -, searched, rfl⟩ := consistent.cached _ _ cached
        obtain rfl : origin' = origin := by
          rw [← consistent.IPmap, owner] at owner'
          exact (Option.some.inj owner').symm
        rw [findServer_cached begin owner client cached, lookup_congr consistent.network, searched]
        exact ⟨rfl, touched origin'⟩
      | none =>
        have call := findServer_searched begin owner client cached
        cases searched : geo.lookup origin with
        | error e =>
          cases result : geo.findServer begin clientIP with
          | error e' => rw [result, searched] at call; exact call
          | ok pair => rw [result, searched] at call; exact call.elim
        | ok found =>
          cases result : geo.findServer begin clientIP with
          | error e' => rw [result, searched] at call; exact call.elim
          | ok pair =>
            rw [result, searched] at call
            obtain ⟨answered, network, IPmap, cache⟩ := call
            refine ⟨answered.trans (answer_congr consistent.network found), network.trans consistent.network,
              IPmap.trans consistent.IPmap, ?_, ?_⟩
            · cases found with
              | server id => exact cache.1
              | pastEnd => exact (congrArg TreeMap.size cache).trans_le consistent.size
              | empty => exact (congrArg TreeMap.size cache).trans_le consistent.size
            · intro k v here
              cases found with
              | server id =>
                rcases cache.2 k v here with ⟨rfl, rfl⟩ | old
                · exact ⟨origin, id, by rw [← consistent.IPmap, owner], by rw [← consistent.network, client],
                    by rw [← lookup_congr consistent.network, searched], by rw [consistent.network]⟩
                · exact consistent.cached k v old
              | pastEnd => exact consistent.cached k v (cache ▸ here)
              | empty => exact consistent.cached k v (cache ▸ here)
    · rw [if_pos client, findServer_other begin owner client]
      exact ⟨rfl, touched origin⟩

/-! ### Calls that change nothing -/

def respond (geo : Geography) (clientIP : Bytes) : Exec Bytes :=
  match geo.IPmap[ipUint clientIP]? with
  | none => .ok []
  | some origin =>
    if geo.network.type origin ≠ .CLIENT then .ok []
    else
      match geo.cache[ipUint clientIP]? with
      | some server => .ok (uintIp server)
      | none => (geo.lookup origin).map geo.answer

theorem findServer_respond (begin : TreeMap UInt32 UInt32 → Nat) (geo : Geography) (clientIP : Bytes) :
    (geo.findServer begin clientIP).map Prod.fst = geo.respond clientIP := by
  unfold respond
  cases owner : geo.IPmap[ipUint clientIP]? with
  | none =>
    rw [findServer_unknown begin owner]
    rfl
  | some origin =>
    dsimp only
    by_cases client : geo.network.type origin = .CLIENT
    · rw [if_neg (not_not.mpr client)]
      cases cached : geo.cache[ipUint clientIP]? with
      | some server =>
        rw [findServer_cached begin owner client cached]
        rfl
      | none =>
        have call := findServer_searched begin owner client cached
        exact (call.imp fun _ _ searched => searched.1).map_eq_map
    · rw [if_pos client, findServer_other begin owner client]
      rfl

/-- Entries that `operator[]` inserted change no answer. -/
theorem Keeps.respond {geo geo' : Geography} (keeps : Keeps geo geo') (clientIP : Bytes) :
    geo'.respond clientIP = geo.respond clientIP := by
  unfold Geography.respond
  rw [keeps.IPmap, keeps.network, keeps.cache]
  have answers : geo'.answer = geo.answer := funext (answer_congr keeps.network)
  simp only [lookup_congr keeps.network, answers]

theorem uintIp_ne_nil (IP : UInt32) : uintIp IP ≠ [] := by
  simp [uintIp, decimal_ne_nil]

theorem findServer_nothing {begin : TreeMap UInt32 UInt32 → Nat} {geo geo' : Geography} {clientIP : Bytes}
    (h : geo.findServer begin clientIP = .ok ([], geo')) : Keeps geo geo' := by
  cases owner : geo.IPmap[ipUint clientIP]? with
  | none =>
    rw [findServer_unknown begin owner] at h
    cases h
    exact Keeps.refl geo
  | some origin =>
    by_cases client : geo.network.type origin = .CLIENT
    · cases cached : geo.cache[ipUint clientIP]? with
      | some server =>
        rw [findServer_cached begin owner client cached] at h
        exact absurd (Prod.mk.inj (Except.ok.inj h)).1 (uintIp_ne_nil server)
      | none =>
        have call := findServer_searched begin owner client cached
        rw [h] at call
        cases searched : geo.lookup origin with
        | error stop =>
          rw [searched] at call
          exact call.elim
        | ok found =>
          rw [searched] at call
          obtain ⟨answered, network, IPmap, cache⟩ := call
          cases found with
          | server id => exact absurd answered.symm (uintIp_ne_nil _)
          | pastEnd => exact ⟨network, IPmap, cache⟩
          | empty => exact ⟨network, IPmap, cache⟩
    · rw [findServer_other begin owner client] at h
      cases h
      exact (Keeps.refl geo).touchNode origin

/-! ### Runs -/

/-- A run of calls, each with its own choice of which cache entry comes first. -/
def findServers (geo : Geography) : List ((TreeMap UInt32 UInt32 → Nat) × Bytes) → Exec (List Bytes × Geography)
  | [] => .ok ([], geo)
  | (begin, clientIP) :: calls => do
    let (answer, geo) ← geo.findServer begin clientIP
    let (answers, geo) ← geo.findServers calls
    return (answer :: answers, geo)

theorem findServers_reply {fresh geo : Geography} (consistent : Consistent fresh geo)
    (calls : List ((TreeMap UInt32 UInt32 → Nat) × Bytes)) :
    Matches (fun result answers => result.1 = answers ∧ Consistent fresh result.2)
      (geo.findServers calls) (calls.mapM fun call => fresh.reply call.2) := by
  induction calls generalizing geo with
  | nil => exact ⟨rfl, consistent⟩
  | cons call calls ih =>
    rw [List.mapM_cons]
    apply (findServer_reply consistent call.1 call.2).bind
    rintro ⟨answer, geo'⟩ _ ⟨rfl, consistent'⟩
    apply (ih consistent').bind
    rintro ⟨answers, geo''⟩ _ ⟨rfl, consistent''⟩
    exact ⟨rfl, consistent''⟩

theorem findServers_consistent {fresh geo geo' : Geography} (consistent : Consistent fresh geo)
    {calls : List ((TreeMap UInt32 UInt32 → Nat) × Bytes)} {answers : List Bytes}
    (run : geo.findServers calls = .ok (answers, geo')) : Consistent fresh geo' := by
  have related := findServers_reply consistent calls
  rw [run] at related
  cases spec : calls.mapM fun call => fresh.reply call.2 with
  | error stop =>
    rw [spec] at related
    exact related.elim
  | ok replies =>
    rw [spec] at related
    exact related.2

theorem fresh_reply {fresh : Geography} (consistent : Consistent fresh fresh)
    (begin : TreeMap UInt32 UInt32 → Nat) (clientIP : Bytes) :
    (fresh.findServer begin clientIP).map Prod.fst = fresh.reply clientIP :=
  ((findServer_reply consistent begin clientIP).imp fun _ _ related => related.1).map_eq

/-- Whatever was asked before and whatever was evicted, every call answers as on an empty cache, and the
cache stays within its size. -/
theorem cache_transparent {u : Nat → Int × Int × Int} {file : Option Bytes} {fresh : Geography}
    (loaded : load u file = .ok fresh) (calls : List ((TreeMap UInt32 UInt32 → Nat) × Bytes)) :
    (fresh.findServers calls).map Prod.fst =
      calls.mapM (fun call => (fresh.findServer call.1 call.2).map Prod.fst) ∧
    ∀ answers geo, fresh.findServers calls = .ok (answers, geo) → geo.cache.size ≤ cacheSize := by
  have consistent := consistent_loaded loaded
  have replies : (fun call : (TreeMap UInt32 UInt32 → Nat) × Bytes => (fresh.findServer call.1 call.2).map Prod.fst) =
      fun call => fresh.reply call.2 := funext fun call => fresh_reply consistent call.1 call.2
  have run := findServers_reply consistent calls
  rw [replies]
  constructor
  · exact (run.imp fun _ _ related => related.1).map_eq
  · intro answers geo result
    exact (findServers_consistent consistent result).size

theorem cache_transparent_sample : ∃ fresh, load sampleUninit (some sampleFile) = .ok fresh ∧
    (fresh.findServers [(fun _ => 0, text "10.0.0.1"), (fun _ => 0, text "10.0.0.1")]).map Prod.fst =
      [text "10.0.0.1", text "10.0.0.1"].mapM fun clientIP => (fresh.findServer (fun _ => 0) clientIP).map Prod.fst := by
  obtain ⟨fresh, loaded, -⟩ := load_sample
  exact ⟨fresh, loaded, (cache_transparent loaded [(fun _ => 0, text "10.0.0.1"), (fun _ => 0, text "10.0.0.1")]).1⟩

end VStream.Geography
