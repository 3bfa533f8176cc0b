import VStream.MiProxy.Isolation
import VStream.MiProxy.Rounds

/-!
# The loop of `run`

A round of `run` asks `select` for the descriptors with something to read,
accepts a connection if the master socket is among them, and goes through the
clients. A run is round after round.
-/

namespace VStream
open Cpp Net Resource Function
open Std (TreeMap)

/-! ### Sets of descriptors -/

def fdSetSize : Int := 1024

abbrev FdSet := List Int

/-- `FD_SET`, which writes to an array of bits. -/
def fdSet (fd : Int) (set : FdSet) : Exec FdSet :=
  if 0 ≤ fd ∧ fd < fdSetSize then .ok (fd :: set) else .error .undefined

def fdIsSet (fd : Int) (set : FdSet) : Exec Bool :=
  if 0 ≤ fd ∧ fd < fdSetSize then .ok (set.contains fd) else .error .undefined

/-- How `select` ends: with some descriptors ready, or with `EINTR` or another error. -/
inductive Selected where
  | returned (ready : Int → Bool)
  | interrupted
  | failed

/-- An interrupted call leaves the set as it is. -/
def select (set : FdSet) : Selected → Exec FdSet
  | .returned ready => .ok (set.filter ready)
  | .interrupted => .ok set
  | .failed => .error (.thrown (.runtimeError "select error"))

theorem fdSet_ok {fd : Int} {set set' : FdSet} (h : fdSet fd set = .ok set') :
    set' = fd :: set ∧ 0 ≤ fd ∧ fd < fdSetSize := by
  unfold fdSet at h
  split at h
  · rename_i valid
    cases h
    exact ⟨rfl, valid⟩
  · cases h

theorem fdIsSet_ok {fd : Int} {set : FdSet} {b : Bool} (h : fdIsSet fd set = .ok b) :
    b = set.contains fd ∧ 0 ≤ fd ∧ fd < fdSetSize := by
  unfold fdIsSet at h
  split at h
  · rename_i valid
    cases h
    exact ⟨rfl, valid⟩
  · cases h

theorem select_ok {set left : FdSet} {outcome : Selected} (h : select set outcome = .ok left) {fd : Int}
    (member : fd ∈ left) : fd ∈ set ∧ ∀ ready, outcome = .returned ready → ready fd = true := by
  cases outcome with
  | returned ready =>
    cases h
    obtain ⟨watched, here⟩ := List.mem_filter.mp member
    exact ⟨watched, fun ready' same => by cases same; exact here⟩
  | interrupted =>
    cases h
    exact ⟨member, fun ready same => by cases same⟩
  | failed => cases h

def InRange (set : FdSet) : Prop := ∀ fd ∈ set, 0 ≤ fd ∧ fd < fdSetSize

theorem InRange.length_le {set : FdSet} (valid : InRange set) (distinct : set.Nodup) : set.length ≤ fdSetSize := by
  have inside : set.toFinset ⊆ Finset.Ico 0 fdSetSize := by
    intro fd member
    exact Finset.mem_Ico.mpr (valid fd (List.mem_toFinset.mp member))
  have card := Finset.card_le_card inside
  rw [List.toFinset_card_of_nodup distinct, Int.card_Ico] at card
  unfold fdSetSize at *
  omega

/-- What the calls of a round return. -/
structure RoundCalls where
  selected : Selected
  newSocket : Int := -1
  ip : Bytes := []
  dns : Exec Bytes := .ok []
  calls : Bytes → Calls := fun _ => {}

/-- Handler calls in their order, each with what was done. -/
abbrev CallLog := List (Event × List Action)

namespace MiProxy

def watchClient (set : FdSet) (conn : Connection) : Exec FdSet := do
  let set ← fdSet conn.clientSocket set
  if conn.serverSocket = -1 then return set else fdSet conn.serverSocket set

def watch (p : MiProxy) : Exec FdSet := do
  let set ← fdSet p.masterSocket []
  p.clients.toList.foldlM (fun set client => watchClient set client.2) set

/-- The handler that `run` calls for an entry, if any. -/
def due (set : FdSet) (calls : Bytes → Calls) (p : MiProxy) (ip : Bytes) : Exec (Option Event) :=
  match p.clients[ip]? with
  | none => .ok none
  | some conn => do
    if ← fdIsSet conn.clientSocket set then return some (.client ip (calls ip).fromClient (calls ip).request)
    else if conn.serverSocket = -1 then return none
    else if ← fdIsSet conn.serverSocket set then return some (.server ip (calls ip).fromServer (calls ip).response)
    else return none

def serve (p : MiProxy) (turn : CallLog) (e : Event) : Exec (MiProxy × CallLog) := do
  let (p, actions) ← p.dispatch e
  return (p, turn ++ [(e, actions)])

def attend (set : FdSet) (calls : Bytes → Calls) (s : MiProxy × CallLog) (ip : Bytes) : Exec (MiProxy × CallLog) := do
  match ← s.1.due set calls ip with
  | none => return s
  | some e => s.1.serve s.2 e

def round (p : MiProxy) (c : RoundCalls) : Exec (MiProxy × CallLog) := do
  let watched ← p.watch
  let set ← select watched c.selected
  let s ← (do
    if ← fdIsSet p.masterSocket set then p.serve [] (.accept c.newSocket c.ip c.dns) else return (p, []))
  rangeFor (fun s => s.1.clients) (attend set c.calls) s

/-- The first rounds of `run`. -/
def run (p : MiProxy) : List RoundCalls → Exec (MiProxy × List CallLog)
  | [] => .ok (p, [])
  | c :: cs => do
    let (p, turn) ← p.round c
    let (p, later) ← p.run cs
    return (p, turn :: later)

/-! ### What is watched -/

theorem watchClient_ok {set set' : FdSet} {conn : Connection} (h : watchClient set conn = .ok set') :
    (∀ fd, fd ∈ set' ↔ fd ∈ set ∨ fd = conn.clientSocket ∨ conn.serverSocket ≠ -1 ∧ fd = conn.serverSocket) ∧
      (InRange set → InRange set') := by
  obtain ⟨set₁, first, h⟩ := bind_ok h
  obtain ⟨rfl, client⟩ := fdSet_ok first
  have valid₁ : InRange set → InRange (conn.clientSocket :: set) := fun valid => List.forall_mem_cons.mpr ⟨client, valid⟩
  split at h
  · rename_i unconnected
    cases h
    exact ⟨fun fd => by simp [unconnected, or_comm], valid₁⟩
  · rename_i connected
    obtain ⟨rfl, server⟩ := fdSet_ok h
    refine ⟨fun fd => ?_, fun valid => List.forall_mem_cons.mpr ⟨server, valid₁ valid⟩⟩
    simp only [List.mem_cons]
    tauto

theorem watchClients_ok {clients : List (Bytes × Connection)} {set set' : FdSet}
    (h : clients.foldlM (fun set client => watchClient set client.2) set = .ok set') :
    (∀ fd, fd ∈ set' ↔ fd ∈ set ∨ ∃ client ∈ clients, fd = client.2.clientSocket ∨
      client.2.serverSocket ≠ -1 ∧ fd = client.2.serverSocket) ∧ (InRange set → InRange set') := by
  induction clients generalizing set with
  | nil =>
    cases h
    exact ⟨by simp, id⟩
  | cons client clients ih =>
    rw [List.foldlM_cons] at h
    obtain ⟨set₁, first, h⟩ := bind_ok h
    obtain ⟨members, valid⟩ := watchClient_ok first
    obtain ⟨members', valid'⟩ := ih h
    refine ⟨fun fd => ?_, fun start => valid' (valid start)⟩
    simp only [members', members, List.mem_cons, exists_eq_or_imp, or_assoc]

/-- The descriptors that `run` asks about. -/
def Watches (p : MiProxy) (fd : Int) : Prop := ∃ role, role ≠ .dns ∧ p.held role = some fd

/-- `select` is asked about the descriptors of the clients, the servers and the master, all of them in range. -/
theorem watch_ok {p : MiProxy} {set : FdSet} (h : p.watch = .ok set) :
    (∀ fd, fd ∈ set ↔ p.Watches fd) ∧ InRange set := by
  obtain ⟨set₁, first, h⟩ := bind_ok h
  obtain ⟨rfl, master⟩ := fdSet_ok first
  obtain ⟨members, valid⟩ := watchClients_ok h
  refine ⟨fun fd => (members fd).trans ?_, valid (by simpa [InRange] using master)⟩
  constructor
  · rintro (own | ⟨⟨ip, conn⟩, member, rfl | ⟨connected, rfl⟩⟩)
    · obtain rfl := List.mem_singleton.mp own
      exact ⟨.master, by simp, rfl⟩
    · exact ⟨.client ip, by simp, held_client (TreeMap.mem_toList_iff_getElem?_eq_some.mp member)⟩
    · refine ⟨.server ip, by simp, ?_⟩
      rw [held_server (TreeMap.mem_toList_iff_getElem?_eq_some.mp member), if_neg connected]
  · rintro ⟨role, other, holds⟩
    cases role with
    | master => exact .inl (List.mem_singleton.mpr (Option.some.inj holds).symm)
    | dns => exact absurd rfl other
    | client ip =>
      obtain ⟨conn, entry, rfl⟩ := Option.map_eq_some_iff.mp holds
      exact .inr ⟨(ip, conn), TreeMap.mem_toList_iff_getElem?_eq_some.mpr entry, .inl rfl⟩
    | server ip =>
      obtain ⟨conn, entry, holds⟩ := Option.bind_eq_some_iff.mp holds
      split at holds
      · cases holds
      · rename_i connected
        cases holds
        exact .inr ⟨(ip, conn), TreeMap.mem_toList_iff_getElem?_eq_some.mpr entry, .inr ⟨connected, rfl⟩⟩

theorem watchClient_goes {set : FdSet} {conn : Connection} (client : 0 ≤ conn.clientSocket ∧ conn.clientSocket < fdSetSize)
    (server : conn.serverSocket ≠ -1 → 0 ≤ conn.serverSocket ∧ conn.serverSocket < fdSetSize) :
    ∃ set', watchClient set conn = .ok set' := by
  rw [watchClient, fdSet, if_pos client, ok_bind]
  split
  · exact ⟨_, rfl⟩
  · rename_i connected
    exact ⟨_, if_pos (server connected)⟩

theorem watch_goes {p : MiProxy} (valid : ∀ fd, p.Watches fd → 0 ≤ fd ∧ fd < fdSetSize) :
    ∃ set, p.watch = .ok set := by
  have clients : ∀ client ∈ p.clients.toList, ∀ set, ∃ set', watchClient set client.2 = .ok set' := by
    rintro ⟨ip, conn⟩ member set
    have entry := TreeMap.mem_toList_iff_getElem?_eq_some.mp member
    refine watchClient_goes (valid _ ⟨.client ip, by simp, held_client entry⟩) fun connected => ?_
    exact valid _ ⟨.server ip, by simp, by rw [held_server entry, if_neg connected]⟩
  have all : ∀ (items : List (Bytes × Connection)) (set : FdSet), (∀ client ∈ items, client ∈ p.clients.toList) →
      ∃ set', items.foldlM (fun set client => watchClient set client.2) set = .ok set' := by
    intro items
    induction items with
    | nil => exact fun set _ => ⟨set, rfl⟩
    | cons client items ih =>
      intro set inside
      obtain ⟨here, rest⟩ := List.forall_mem_cons.mp inside
      obtain ⟨set₁, first⟩ := clients client here set
      rw [List.foldlM_cons, first]
      exact ih set₁ rest
  rw [watch, fdSet, if_pos (valid _ ⟨.master, by simp, rfl⟩), ok_bind]
  exact all _ _ fun _ => id

/-! ### The pass over the clients -/

/-- The visits of a pass that goes through, and the handlers that are called. -/
inductive Attends (set : FdSet) (calls : Bytes → Calls) : MiProxy → List Bytes → CallLog → MiProxy → Prop where
  | nil {p : MiProxy} : Attends set calls p [] [] p
  | pass {p q : MiProxy} {ip : Bytes} {ips : List Bytes} {turn : CallLog} (quiet : p.due set calls ip = .ok none)
      (later : Attends set calls p ips turn q) : Attends set calls p (ip :: ips) turn q
  | serve {p m q : MiProxy} {ip : Bytes} {ips : List Bytes} {turn : CallLog} {e : Event} {actions : List Action}
      (asked : p.due set calls ip = .ok (some e)) (dispatched : p.dispatch e = .ok (m, actions)) (stays : ip ∈ m.clients)
      (later : Attends set calls m ips turn q) : Attends set calls p (ip :: ips) ((e, actions) :: turn) q

section passes
variable {set : FdSet} {calls : Bytes → Calls} {p q : MiProxy} {ip : Bytes} {ips : List Bytes} {turn : CallLog} {e : Event}

/-- Where every test of a descriptor is in range, `run` calls the handler that `readyEvent` gives. -/
theorem due_ok {next : Option Event} (h : p.due set calls ip = .ok next) :
    next = p.readyEvent set.contains calls ip := by
  unfold due at h
  rw [readyEvent]
  cases entry : p.clients[ip]? with
  | none =>
    rw [entry] at h
    cases h
    rfl
  | some conn =>
    rw [entry] at h
    obtain ⟨client, tested, h⟩ := bind_ok h
    obtain ⟨rfl, -⟩ := fdIsSet_ok tested
    rw [Option.bind_some]
    split at h
    · rename_i ready
      cases h
      rw [if_pos ready]
    rename_i idle
    rw [if_neg idle]
    split at h
    · rename_i unconnected
      cases h
      rw [if_neg fun ready => ready.1 unconnected]
    rename_i connected
    obtain ⟨server, tested, h⟩ := bind_ok h
    obtain ⟨rfl, -⟩ := fdIsSet_ok tested
    split at h
    · rename_i ready
      cases h
      rw [if_pos ⟨connected, ready⟩]
    · rename_i silent
      cases h
      rw [if_neg fun ready => silent ready.2]

theorem due_congr (same : q.clients[ip]? = p.clients[ip]?) : q.due set calls ip = p.due set calls ip := by
  rw [due, due, same]

theorem serve_ok {result : MiProxy × CallLog} (h : p.serve turn e = .ok result) :
    ∃ m actions, p.dispatch e = .ok (m, actions) ∧ result = (m, turn ++ [(e, actions)]) := by
  obtain ⟨⟨m, actions⟩, dispatched, h⟩ := bind_ok h
  cases h
  exact ⟨m, actions, dispatched, rfl⟩

/-- An entry that the pass goes on from is still there, and no other was touched. -/
theorem Keyed.stays (keyed : p.Keyed) {actions : List Action} (dispatched : p.dispatch e = .ok (q, actions))
    (present : e.ip ∈ p.clients) (stays : e.ip ∈ q.clients) (k : Bytes) : k ∈ q.clients ↔ k ∈ p.clients := by
  by_cases here : k = e.ip
  · subst here
    exact iff_of_true stays present
  · rw [mem_iff_entry, mem_iff_entry, keyed.frame (dispatch_step dispatched) here]

theorem through_attends {s t : MiProxy × CallLog} (through : Through (fun s => s.1.clients) (attend set calls) s ips t) :
    ∃ turn, t.2 = s.2 ++ turn ∧ Attends set calls s.1 ips turn t.1 := by
  induction through with
  | nil => exact ⟨[], (List.append_nil _).symm, .nil⟩
  | cons visited stays later ih =>
    obtain ⟨turn, whole, attends⟩ := ih
    obtain ⟨next, asked, visited⟩ := bind_ok visited
    cases next with
    | none =>
      cases visited
      exact ⟨turn, whole, .pass asked attends⟩
    | some e =>
      obtain ⟨m, actions, dispatched, rfl⟩ := serve_ok visited
      refine ⟨(e, actions) :: turn, ?_, .serve asked dispatched stays attends⟩
      rw [whole, List.append_assoc]
      rfl

theorem attend_keeps (s : MiProxy × CallLog) (key : Bytes) (s₁ : MiProxy × CallLog) (keyed : s.1.Keyed)
    (member : key ∈ s.1.clients) (visited : attend set calls s key = .ok s₁) (stays : key ∈ s₁.1.clients) :
    s₁.1.Keyed ∧ ∀ k, k ∈ s₁.1.clients ↔ k ∈ s.1.clients := by
  obtain ⟨next, asked, visited⟩ := bind_ok visited
  cases next with
  | none =>
    cases visited
    exact ⟨keyed, fun _ => Iff.rfl⟩
  | some e =>
    obtain ⟨m, actions, dispatched, rfl⟩ := serve_ok visited
    obtain ⟨rfl, -, -⟩ := readyEvent_some (due_ok asked).symm
    exact ⟨keyed.step (dispatch_step dispatched), keyed.stays dispatched member stays⟩

/-- A pass that goes through has visited every client that was there when it began. -/
theorem Keyed.pass (keyed : p.Keyed) {s : MiProxy × CallLog}
    (left : rangeFor (fun s => s.1.clients) (attend set calls) (p, turn) = .ok s) :
    ∃ later, s.2 = turn ++ later ∧ Attends set calls p p.clients.keys later s.1 := by
  exact through_attends (rangeFor_ok attend_keeps keyed left).1

/-- Every test of the pass is in range, and the handlers called are those that were due when it began. -/
theorem Attends.dues (attends : Attends set calls p ips turn q) (keyed : p.Keyed) (distinct : ips.Nodup) :
    (∀ ip ∈ ips, ∃ next, p.due set calls ip = .ok next) ∧
      turn.map Prod.fst = ips.filterMap (p.readyEvent set.contains calls) := by
  induction attends with
  | nil => exact ⟨by simp, rfl⟩
  | pass quiet later ih =>
    obtain ⟨tests, handlers⟩ := ih keyed distinct.of_cons
    refine ⟨List.forall_mem_cons.mpr ⟨⟨none, quiet⟩, tests⟩, ?_⟩
    rw [handlers, List.filterMap_cons_none (due_ok quiet).symm]
  | @serve p m q ip ips turn e actions asked dispatched stays later ih =>
    obtain ⟨rfl, -, -⟩ := readyEvent_some (due_ok asked).symm
    have step := dispatch_step dispatched
    have absent := (List.nodup_cons.mp distinct).1
    obtain ⟨tests, handlers⟩ := ih (keyed.step step) distinct.of_cons
    have same : ∀ ip ∈ ips, m.clients[ip]? = p.clients[ip]? := by
      intro ip member
      have elsewhere : ip ≠ e.ip := by
        rintro rfl
        exact absent member
      exact keyed.frame step elsewhere
    refine ⟨List.forall_mem_cons.mpr ⟨⟨some e, asked⟩, fun ip member => ?_⟩, ?_⟩
    · rw [← due_congr (same ip member)]
      exact tests ip member
    · rw [List.map_cons, handlers, List.filterMap_cons_some (due_ok asked).symm]
      congr 1
      apply List.filterMap_congr
      intro ip member
      rw [readyEvent, readyEvent, same ip member]

end passes

/-! ### Rounds -/

/-- Handler calls that had something to do, one after the other. -/
inductive Does : MiProxy → CallLog → MiProxy → Prop where
  | nil {p : MiProxy} : Does p [] p
  | cons {p m q : MiProxy} {e : Event} {actions : List Action} {turn : CallLog} (busy : ¬ p.Idle e)
      (dispatched : p.dispatch e = .ok (m, actions)) (later : Does m turn q) : Does p ((e, actions) :: turn) q

/-- The connection that a round begins with. -/
inductive Accepts (set : FdSet) (c : RoundCalls) (p : MiProxy) : CallLog → MiProxy → Prop where
  | none (quiet : p.masterSocket ∉ set) : Accepts set c p [] p
  | one {m : MiProxy} {actions : List Action} (asked : p.masterSocket ∈ set)
      (dispatched : p.dispatch (.accept c.newSocket c.ip c.dns) = .ok (m, actions)) :
      Accepts set c p [(.accept c.newSocket c.ip c.dns, actions)] m

/-- A round that goes through. -/
structure Rounded (c : RoundCalls) (p m q : MiProxy) (set : FdSet) (accepts visits : CallLog) : Prop where
  watched : ∃ watched, p.watch = .ok watched ∧ select watched c.selected = .ok set
  accepting : Accepts set c p accepts m
  visiting : Attends set c.calls m m.clients.keys visits q

/-- One connection at most is accepted, and then each client is handled once at most, in the order of the map. -/
def Orderly (turn : CallLog) : Prop :=
  ∃ accepts visits, turn = accepts ++ visits ∧ accepts.length ≤ 1 ∧
    (∀ h ∈ accepts, ∃ newSocket ip dns, h.1 = .accept newSocket ip dns) ∧
    (∀ h ∈ visits, ∀ newSocket ip dns, h.1 ≠ .accept newSocket ip dns) ∧
    visits.Pairwise fun h h' => compare h.1.ip h'.1.ip = .lt

section rounds
variable {p m q : MiProxy} {turn later accepts visits : CallLog} {c : RoundCalls} {set : FdSet}

theorem Does.append (first : Does p turn m) (second : Does m later q) : Does p (turn ++ later) q := by
  induction first with
  | nil => exact second
  | cons busy dispatched _ ih => exact .cons busy dispatched (ih second)

theorem Does.keyed (does : Does p turn q) (keyed : p.Keyed) : q.Keyed := by
  induction does with
  | nil => exact keyed
  | cons _ dispatched _ ih => exact ih (keyed.step (dispatch_step dispatched))

theorem Does.handles (does : Does p turn q) :
    ∃ done, p.handle (turn.map Prod.fst) = .ok (q, done) ∧ done.map (fun h => (h.event, h.actions)) = turn := by
  induction does with
  | nil => exact ⟨[], rfl, rfl⟩
  | @cons p m q e actions turn busy dispatched _ ih =>
    obtain ⟨done, handled, same⟩ := ih
    refine ⟨⟨e, actions, m.log.drop p.log.length⟩ :: done, ?_, by rw [List.map_cons, same]⟩
    rw [List.map_cons, handle, dispatched, ok_bind]
    dsimp only
    rw [handled, if_neg busy]
    rfl

theorem due_busy {calls : Bytes → Calls} {ip : Bytes} {e : Event} (asked : p.due set calls ip = .ok (some e)) :
    ¬ p.Idle e := by
  have event := due_ok asked
  rw [readyEvent] at event
  obtain ⟨conn, entry, event⟩ := Option.bind_eq_some_iff.mp event.symm
  split_ifs at event with client server
  · cases event
    rw [Idle, entry]
    exact Option.some_ne_none conn
  · cases event
    exact fun idle => server.1 (idle conn entry)

theorem Attends.does {calls : Bytes → Calls} {ips : List Bytes} (attends : Attends set calls p ips turn q) :
    Does p turn q := by
  induction attends with
  | nil => exact .nil
  | pass _ _ ih => exact ih
  | serve asked dispatched _ _ ih => exact .cons (due_busy asked) dispatched ih

theorem Accepts.does (accepting : Accepts set c p accepts m) : Does p accepts m := by
  cases accepting with
  | none => exact .nil
  | one asked dispatched => exact .cons id dispatched .nil

theorem Rounded.does (rounded : Rounded c p m q set accepts visits) : Does p (accepts ++ visits) q :=
  rounded.accepting.does.append rounded.visiting.does

theorem Keyed.round (keyed : p.Keyed) (h : p.round c = .ok (q, turn)) :
    ∃ m set accepts visits, turn = accepts ++ visits ∧ Rounded c p m q set accepts visits := by
  obtain ⟨watched, watch, h⟩ := bind_ok h
  obtain ⟨set, selected, h⟩ := bind_ok h
  obtain ⟨⟨m, accepts⟩, accepted, h⟩ := bind_ok h
  have accepting : Accepts set c p accepts m := by
    obtain ⟨ready, tested, accepted⟩ := bind_ok accepted
    obtain ⟨rfl, -⟩ := fdIsSet_ok tested
    split at accepted
    · rename_i asked
      obtain ⟨m', actions, dispatched, same⟩ := serve_ok accepted
      cases same
      exact .one (List.contains_iff_mem.mp asked) dispatched
    · rename_i quiet
      cases accepted
      exact .none fun member => quiet (List.contains_iff_mem.mpr member)
  obtain ⟨visits, whole, visiting⟩ := (accepting.does.keyed keyed).pass h
  exact ⟨m, set, accepts, visits, whole, ⟨watched, watch, selected⟩, accepting, visiting⟩

/-- The handlers called for clients, by the set that `select` has left. -/
theorem Rounded.handlers (rounded : Rounded c p m q set accepts visits) (keyed : p.Keyed) :
    visits.map Prod.fst = m.clients.keys.filterMap (m.readyEvent set.contains c.calls) :=
  (rounded.visiting.dues (rounded.accepting.does.keyed keyed) TreeMap.nodup_keys).2

theorem Rounded.asked (rounded : Rounded c p m q set accepts visits) (keyed : p.Keyed) {h : Event × List Action}
    (member : h ∈ visits) : m.readyEvent set.contains c.calls h.1.ip = some h.1 := by
  have called : h.1 ∈ visits.map Prod.fst := List.mem_map_of_mem member
  rw [rounded.handlers keyed] at called
  obtain ⟨ip, -, asked⟩ := List.mem_filterMap.mp called
  obtain ⟨rfl, -, -⟩ := readyEvent_some asked
  exact asked

theorem Rounded.sorted (rounded : Rounded c p m q set accepts visits) (keyed : p.Keyed) :
    visits.Pairwise fun h h' => compare h.1.ip h'.1.ip = .lt := by
  have sorted : (visits.map Prod.fst).Pairwise fun e e' => compare e.ip e'.ip = .lt := by
    rw [rounded.handlers keyed]
    refine List.Pairwise.filterMap _ ?_ (TreeMap.ordered_keys (t := m.clients))
    intro ip ip' less e asked e' asked'
    obtain ⟨rfl, -, -⟩ := readyEvent_some asked
    obtain ⟨rfl, -, -⟩ := readyEvent_some asked'
    exact less
  exact List.pairwise_map.mp sorted

theorem Rounded.orderly (rounded : Rounded c p m q set accepts visits) (keyed : p.Keyed) :
    Orderly (accepts ++ visits) := by
  refine ⟨accepts, visits, rfl, ?_, ?_, fun h member => (readyEvent_some (rounded.asked keyed member)).2.2,
    rounded.sorted keyed⟩
  · cases rounded.accepting <;> simp
  · cases rounded.accepting with
    | none => simp
    | one => exact List.forall_mem_singleton.mpr ⟨_, _, _, rfl⟩

theorem Keyed.rounds (keyed : p.Keyed) {cs : List RoundCalls} {turns : List CallLog} (h : p.run cs = .ok (q, turns)) :
    Does p turns.flatten q ∧ ∀ turn ∈ turns, Orderly turn := by
  induction cs generalizing p turns with
  | nil =>
    cases h
    exact ⟨.nil, by simp⟩
  | cons c cs ih =>
    obtain ⟨⟨p₁, turn⟩, first, h⟩ := bind_ok h
    obtain ⟨⟨last, later⟩, rest, h⟩ := bind_ok h
    cases h
    obtain ⟨m, set, accepts, visits, rfl, rounded⟩ := keyed.round first
    obtain ⟨does, orderly⟩ := ih (rounded.does.keyed keyed) rest
    exact ⟨rounded.does.append does, List.forall_mem_cons.mpr ⟨rounded.orderly keyed, orderly⟩⟩

/-- A run of `run` is the run of its handler calls, and of these every round makes one accept at most, and then one
at most for each client, in their order. -/
theorem run_handles (keyed : p.Keyed) {cs : List RoundCalls} {turns : List CallLog} (h : p.run cs = .ok (q, turns)) :
    (∃ done, p.handle (turns.flatten.map Prod.fst) = .ok (q, done) ∧
      done.map (fun h => (h.event, h.actions)) = turns.flatten) ∧ ∀ turn ∈ turns, Orderly turn := by
  obtain ⟨does, orderly⟩ := keyed.rounds h
  exact ⟨does.handles, orderly⟩

end rounds

end MiProxy

/-! ### The descriptors of a round -/

/-- The place of the descriptor that the handler reads from. -/
def Event.reads : Event → Option Role
  | .accept _ _ _ => none
  | .client ip _ _ => some (.client ip)
  | .server ip _ _ => some (.server ip)

/-- The descriptor that the handler accepts. -/
def Event.accepted : Event → List Int
  | .accept newSocket _ _ => [newSocket]
  | _ => []

namespace MiProxy

section
variable {p m q : MiProxy} {turn accepts visits : CallLog} {c : RoundCalls} {set : FdSet} {calls : Bytes → Calls}
  {ip : Bytes} {ips : List Bytes} {e : Event}

/-- What a place holds behind an update it held before, or it was given. -/
theorem update_holds {held : Role → Option Int} {place role : Role} {given : Option Int} {fd : Int}
    (holds : update held place given role = some fd) : held role = some fd ∨ given = some fd := by
  by_cases here : role = place
  · rw [here, update_self] at holds
    exact .inr holds
  · rw [update_of_ne here] at holds
    exact .inl holds

theorem held_accept {newSocket : Int} {dns : Exec Bytes} {actions : List Action}
    (step : Step p (.accept newSocket ip dns) actions q) : q.held = update p.held (.client ip) (some newSocket) := by
  cases step with
  | idle nothing => exact nothing.elim
  | replaced valid entry =>
    have server := held_server entry
    exact held_newClient server
  | added valid absent => exact held_newClient (by simp [held, absent])

theorem readyEvent_reads {ready : Int → Bool} (asked : p.readyEvent ready calls ip = some e) :
    ∃ role fd, e.reads = some role ∧ (role = .client ip ∨ role = .server ip) ∧ p.held role = some fd ∧
      ready fd = true := by
  obtain ⟨conn, entry, asked⟩ := Option.bind_eq_some_iff.mp asked
  split_ifs at asked with client server
  · cases asked
    exact ⟨.client ip, _, rfl, .inl rfl, held_client entry, client⟩
  · cases asked
    exact ⟨.server ip, _, rfl, .inr rfl, by rw [held_server entry, if_neg server.1], server.2⟩

theorem held_congr {role : Role} (own : role = .client ip ∨ role = .server ip)
    (same : q.clients[ip]? = p.clients[ip]?) : q.held role = p.held role := by
  rcases own with rfl | rfl <;> simp only [held, same]

theorem due_range {next : Option Event} {fd : Int} (h : p.due set calls ip = .ok next)
    (holds : p.held (.client ip) = some fd) : 0 ≤ fd ∧ fd < fdSetSize := by
  obtain ⟨conn, entry, rfl⟩ := Option.map_eq_some_iff.mp holds
  rw [due, entry] at h
  obtain ⟨client, tested, -⟩ := bind_ok h
  exact (fdIsSet_ok tested).2

/-- Where the loop goes on from an entry, its client has not closed. -/
theorem Attends.stay (attends : Attends set calls p ips turn q) (keyed : p.Keyed) : ∀ h ∈ turn, ¬ h.1.Leaves := by
  induction attends with
  | nil => simp
  | pass _ _ ih => exact ih keyed
  | @serve p m q ip ips turn e actions asked dispatched stays later ih =>
    obtain ⟨rfl, present, -⟩ := readyEvent_some (due_ok asked).symm
    have step := dispatch_step dispatched
    refine List.forall_mem_cons.mpr ⟨fun leaves => ?_, ih (keyed.step step)⟩
    obtain ⟨conn, entry⟩ := (mem_iff_entry _ _).mp present
    obtain ⟨conn', entry'⟩ := (mem_iff_entry _ _).mp stays
    rcases e with _ | ⟨ip, _ | _ | _, calls⟩ | _ <;> try exact leaves.elim
    cases step with
    | idle nothing => cases entry.symm.trans nothing
    | clientLeft entry =>
      have key : _ = ip := keyed _ _ entry
      rw [key] at entry'
      simp [Event.ip] at entry'
    | heard _ some => exact some rfl
    | requested _ some => exact some rfl

theorem Rounded.stay (rounded : Rounded c p m q set accepts visits) (keyed : p.Keyed) :
    ∀ h ∈ accepts ++ visits, ¬ h.1.Leaves := by
  intro h member
  rcases List.mem_append.mp member with accepted | visited
  · have accepting := rounded.accepting
    cases accepting with
    | none => cases accepted
    | one =>
      obtain rfl := List.mem_singleton.mp accepted
      exact id
  · exact rounded.visiting.stay (rounded.accepting.does.keyed keyed) h visited

/-- A handler that reads is called behind the accept of its round. -/
theorem Accepts.behind (accepting : Accepts set c p accepts m) {before after : CallLog} {h : Event × List Action}
    (whole : before ++ h :: after = accepts ++ visits) {role : Role} (reads : h.1.reads = some role) :
    ∃ visited, before = accepts ++ visited ∧ visits = visited ++ h :: after := by
  rcases List.append_eq_append_iff.mp whole with ⟨rest, rfl, here⟩ | ⟨visited, rfl, here⟩
  · cases rest with
    | nil => exact ⟨[], by simp, by simpa using here.symm⟩
    | cons h' rest =>
      obtain ⟨rfl, -⟩ := List.cons.inj here
      have member : h ∈ before ++ h :: rest := by simp
      generalize before ++ h :: rest = accepts at accepting member
      cases accepting with
      | none => cases member
      | one =>
        rw [List.mem_singleton.mp member] at reads
        cases reads
  · exact ⟨visited, rfl, here⟩

/-- The other clients that a round handles. -/
theorem Rounded.apart {visited after : CallLog} {h : Event × List Action}
    (rounded : Rounded c p m q set accepts (visited ++ h :: after)) (keyed : p.Keyed) : ∀ h' ∈ visited, h'.1.ip ≠ h.1.ip := by
  intro h' member same
  have less := (List.pairwise_append.mp (rounded.sorted keyed)).2.2 h' member h List.mem_cons_self
  have equal : compare h.1.ip h.1.ip = .eq := Std.ReflCmp.compare_self
  rw [same] at less
  cases equal.symm.trans less

/-- A connection that a round accepts has a descriptor in range. -/
theorem Rounded.range (rounded : Rounded c p m q set accepts visits) (keyed : p.Keyed) :
    InRange ((accepts ++ visits).flatMap (·.1.accepted)) := by
  intro fd member
  obtain ⟨h, member, accepted⟩ := List.mem_flatMap.mp member
  rcases List.mem_append.mp member with first | visited
  · have keyed' := rounded.accepting.does.keyed keyed
    have tests := (rounded.visiting.dues keyed' TreeMap.nodup_keys).1
    have accepting := rounded.accepting
    cases accepting with
    | none => cases first
    | one asked dispatched =>
      obtain rfl := List.mem_singleton.mp first
      obtain rfl := List.mem_singleton.mp accepted
      have holds : m.held (.client c.ip) = some c.newSocket := by rw [held_accept (dispatch_step dispatched), update_self]
      obtain ⟨conn, entry, -⟩ := Option.map_eq_some_iff.mp holds
      obtain ⟨next, due⟩ := tests c.ip (TreeMap.mem_keys.mpr ((mem_iff_entry m _).mpr ⟨conn, entry⟩))
      exact due_range due holds
  · have other := (readyEvent_some (rounded.asked keyed visited)).2.2
    rcases h with ⟨_ | _ | _, actions⟩
    · exact absurd rfl (other _ _ _)
    · cases accepted
    · cases accepted

end

end MiProxy

namespace Process
open MiProxy

/-- Handler calls of the process, one after the other. -/
inductive Serves : Process → CallLog → Process → Prop where
  | nil {s : Process} : Serves s [] s
  | cons {s m t : Process} {e : Event} {actions : List Action} {turn : CallLog} (call : Call s e actions m)
      (later : Serves m turn t) : Serves s ((e, actions) :: turn) t

/-- Descriptors that the process accepted and has not closed: the servers have others. -/
structure Keeps (s : Process) (fds : List Int) : Prop where
  inv : Inv s
  distinct : fds.Nodup
  used : ∀ fd ∈ fds, fd ∈ s.opened ∧ ∀ ip, s.proxy.held (.server ip) ≠ some fd

section serves
variable {s m t : Process} {turn later : CallLog} {e : Event} {actions : List Action} {p q : MiProxy} {fds : List Int}

theorem Serves.split (served : Serves s (turn ++ later) t) : ∃ m, Serves s turn m ∧ Serves m later t := by
  induction turn generalizing s with
  | nil => exact ⟨s, .nil, served⟩
  | cons h turn ih =>
    cases served with
    | cons call rest =>
      obtain ⟨m, first, second⟩ := ih rest
      exact ⟨m, .cons call first, second⟩

theorem Serves.same (served : Serves s turn t) (does : Does s.proxy turn q) : t.proxy = q := by
  generalize start : s.proxy = p at does
  induction served generalizing p with
  | nil =>
    cases does
    exact start
  | cons call _ ih =>
    cases does with
    | cons _ dispatched later =>
      subst start
      have same := call.handled.symm.trans dispatched
      obtain ⟨rfl, -⟩ := Prod.mk.inj (Except.ok.inj same)
      exact ih _ rfl later

theorem Serves.inv (served : Serves s turn t) (inv : Inv s) : Inv t := by
  induction served with
  | nil => exact inv
  | cons call _ ih => exact ih (inv.call call)

theorem Serves.frame (served : Serves s turn t) (inv : Inv s) {ip : Bytes} (elsewhere : ∀ h ∈ turn, h.1.ip ≠ ip) :
    t.proxy.clients[ip]? = s.proxy.clients[ip]? := by
  induction served with
  | nil => rfl
  | cons call _ ih =>
    obtain ⟨first, rest⟩ := List.forall_mem_cons.mp elsewhere
    rw [ih (inv.call call) rest]
    exact inv.keyed.frame (dispatch_step call.handled) first.symm

/-- What is held after the accept of a round and was open before it was held before it. -/
theorem Serves.before {set : FdSet} {c : RoundCalls} {accepts : CallLog} (served : Serves s accepts m)
    (accepting : Accepts set c s.proxy accepts m.proxy) {role : Role} {fd : Int} (used : fd ∈ s.opened)
    (holds : m.proxy.held role = some fd) : s.proxy.held role = some fd := by
  generalize accepted : m.proxy = p at accepting
  cases accepting with
  | none => rwa [accepted] at holds
  | one asked dispatched =>
    cases served with
    | cons call _ =>
      rw [accepted, held_accept (dispatch_step dispatched)] at holds
      exact (update_holds holds).resolve_right fun given => call.fresh fd used (Option.some.inj given)

/-- A round reads from a descriptor only if `select` has reported it, and it has been the descriptor of the same client
or server since before the call of `select`. -/
theorem reads_ready {start s m : Process} (started : Started start) (run : Relation.ReflTransGen Next start s)
    {c : RoundCalls} {before after : CallLog} (round : s.proxy.round c = .ok (q, before ++ (e, actions) :: after))
    (served : Serves s before m) {role : Role} (reads : e.reads = some role) :
    ∃ fd, s.proxy.held role = some fd ∧ m.proxy.held role = some fd ∧
      ∀ ready, c.selected = .returned ready → ready fd = true := by
  have inv := inv_of_run started run
  obtain ⟨p₁, set, accepts, visits, whole, rounded⟩ := inv.keyed.round round
  obtain ⟨visited, rfl, rfl⟩ := rounded.accepting.behind whole reads
  obtain ⟨m₁, accepted, rest⟩ := served.split
  obtain rfl := accepted.same rounded.accepting.does
  have asked := rounded.asked inv.keyed (List.mem_append_right visited List.mem_cons_self)
  obtain ⟨role', fd, reads', own, holds, member⟩ := readyEvent_reads asked
  obtain rfl := Option.some.inj (reads.symm.trans reads')
  obtain ⟨watched, watch, selected⟩ := rounded.watched
  obtain ⟨asked', ready⟩ := select_ok selected (List.contains_iff_mem.mp member)
  obtain ⟨role', -, holds'⟩ := ((watch_ok watch).1 fd).mp asked'
  have open' := inv.covered.used role' fd holds'
  refine ⟨fd, accepted.before rounded.accepting open' holds, ?_, ready⟩
  rw [held_congr own (rest.frame (accepted.inv inv) (rounded.apart inv.keyed))]
  exact holds

/-! ### Connections accepted -/

theorem free_congr {fd : Int} (same : q.held = p.held) (free : ∀ ip, p.held (.server ip) ≠ some fd) :
    ∀ ip, q.held (.server ip) ≠ some fd := same ▸ free

theorem free_update {fd : Int} {ip : Bytes} {server : Option Int} (same : q.held = update p.held (.server ip) server)
    (free : ∀ ip, p.held (.server ip) ≠ some fd) (other : server ≠ some fd) : ∀ ip, q.held (.server ip) ≠ some fd := by
  intro k holds
  rw [same] at holds
  exact (update_holds holds).elim (free k) other

/-- An accepted descriptor that no server has stays open, unless its client closes. -/
theorem stays_open {fd : Int} (step : Step p e actions q) (stays : ¬ e.Leaves) (opened : Set Int)
    (free : ∀ ip, p.held (.server ip) ≠ some fd) (used : fd ∈ opened ∧ ¬ e.Opens fd ∨ fd ∈ e.accepted) :
    fd ∈ actions.foldl Action.opened opened ∧ ∀ ip, q.held (.server ip) ≠ some fd := by
  have accept : ∀ newSocket ip dns, e = .accept newSocket ip dns → actions = [.accepted newSocket] →
      fd ∈ actions.foldl Action.opened opened ∧ ∀ ip, q.held (.server ip) ≠ some fd := by
    rintro newSocket ip dns rfl rfl
    refine ⟨used.elim (fun before => .inr before.1) fun now => .inl (List.mem_singleton.mp now), fun k => ?_⟩
    rw [held_accept step, update_of_ne (by simp)]
    exact free k
  cases step with
  | @idle e nothing =>
    cases e with
    | accept newSocket ip dns => exact nothing.elim
    | client ip read calls => exact ⟨(used.resolve_right List.not_mem_nil).1, free⟩
    | server ip read calls => exact ⟨(used.resolve_right List.not_mem_nil).1, free⟩
  | replaced valid entry => exact accept _ _ _ rfl rfl
  | added valid absent => exact accept _ _ _ rfl rfl
  | clientLeft entry => exact absurd trivial stays
  | heard entry some more =>
    exact ⟨(used.resolve_right List.not_mem_nil).1, free_congr (held_same entry rfl rfl) free⟩
  | requested entry some ended server rewritten =>
    obtain ⟨before, other⟩ := used.resolve_right List.not_mem_nil
    cases server with
    | old connected => exact ⟨before, free_congr (held_same entry rfl rfl) free⟩
    | new unconnected valid =>
      refine ⟨.inr before, free_update (held_newServer entry rfl (if_neg ?_)) free fun same => other (Option.some.inj same)⟩
      dsimp only
      omega
  | serverLeft entry connected =>
    obtain ⟨before, -⟩ := used.resolve_right List.not_mem_nil
    refine ⟨⟨before, ?_⟩, free_update (held_newServer entry rfl (if_pos rfl)) free (Option.some_ne_none fd).symm⟩
    rintro rfl
    exact free _ (by rw [held_server entry, if_neg connected])
  | receiving entry connected some waits =>
    exact ⟨(used.resolve_right List.not_mem_nil).1, free_congr (held_same entry rfl rfl) free⟩
  | intercepted entry connected some complete kept =>
    exact ⟨(used.resolve_right List.not_mem_nil).1, free_congr (held_same entry rfl rfl) free⟩
  | answered entry connected some complete plain =>
    exact ⟨(used.resolve_right List.not_mem_nil).1, free_congr (held_same entry rfl rfl) free⟩

theorem Keeps.call (keeps : Keeps s fds) (call : Call s e actions m) (stays : ¬ e.Leaves) :
    Keeps m (fds ++ e.accepted) := by
  have step := dispatch_step call.handled
  have opens : ∀ fd ∈ e.accepted, e.Opens fd := by
    intro fd accepted
    cases e with
    | accept newSocket ip dns => exact (List.mem_singleton.mp accepted).symm
    | client => cases accepted
    | server => cases accepted
  refine ⟨keeps.inv.call call, ?_, ?_⟩
  · refine List.nodup_append.mpr ⟨keeps.distinct, by cases e <;> simp [Event.accepted], ?_⟩
    rintro fd member _ accepted rfl
    exact call.fresh fd (keeps.used fd member).1 (opens fd accepted)
  · intro fd member
    rw [call.opened]
    rcases List.mem_append.mp member with before | now
    · obtain ⟨used, free⟩ := keeps.used fd before
      exact stays_open step stays s.opened free (.inl ⟨used, call.fresh fd used⟩)
    · have free : ∀ ip, s.proxy.held (.server ip) ≠ some fd := fun ip holds =>
        call.fresh fd (keeps.inv.covered.used _ _ holds) (opens fd now)
      exact stays_open step stays s.opened free (.inr now)

theorem Keeps.serves (keeps : Keeps s fds) (served : Serves s turn t) (stay : ∀ h ∈ turn, ¬ h.1.Leaves) :
    Keeps t (fds ++ turn.flatMap (·.1.accepted)) := by
  induction served generalizing fds with
  | nil => rwa [List.flatMap_nil, List.append_nil]
  | cons call _ ih =>
    obtain ⟨here, rest⟩ := List.forall_mem_cons.mp stay
    rw [List.flatMap_cons, ← List.append_assoc]
    exact ih (keeps.call call here) rest

/-- What the rounds accept is in range and stays open. -/
theorem Keeps.rounds (keeps : Keeps s fds) {cs : List RoundCalls} {turns : List CallLog}
    (run : s.proxy.run cs = .ok (q, turns)) (served : Serves s turns.flatten t) :
    Keeps t (fds ++ turns.flatten.flatMap (·.1.accepted)) ∧ InRange (turns.flatten.flatMap (·.1.accepted)) := by
  induction cs generalizing s fds turns with
  | nil =>
    cases run
    cases served
    exact ⟨by simpa using keeps, by simp [InRange]⟩
  | cons c cs ih =>
    obtain ⟨⟨p₁, turn⟩, first, run⟩ := bind_ok run
    obtain ⟨⟨last, later⟩, rest, run⟩ := bind_ok run
    cases run
    obtain ⟨m, set, accepts, visits, rfl, rounded⟩ := keeps.inv.keyed.round first
    obtain ⟨m₁, now, served⟩ := served.split
    obtain rfl := now.same rounded.does
    obtain ⟨keeps', range⟩ := ih (keeps.serves now (rounded.stay keeps.inv.keyed)) rest served
    rw [List.flatten_cons, List.flatMap_append, ← List.append_assoc]
    exact ⟨keeps', List.forall_mem_append.mpr ⟨rounded.range keeps.inv.keyed, range⟩⟩

theorem Started.keeps (started : Started s) : Keeps s [s.proxy.masterSocket] := by
  refine ⟨started.inv, List.nodup_singleton _, List.forall_mem_singleton.mpr ⟨?_, fun ip holds => ?_⟩⟩
  · rw [started.opened]
    exact .inl rfl
  · simp [MiProxy.held, started.empty ip] at holds

/-- The process never accepts more connections than there are descriptors in an `fd_set`: an accepted socket is closed
only where its client leaves, which no round survives. -/
theorem accepts_limited (started : Started s) {cs : List RoundCalls} {turns : List CallLog}
    (run : s.proxy.run cs = .ok (q, turns)) (served : Serves s turns.flatten t) :
    (turns.flatten.flatMap (·.1.accepted)).length < fdSetSize := by
  obtain ⟨keeps, range⟩ := started.keeps.rounds run served
  cases cs with
  | nil =>
    cases run
    decide
  | cons c cs =>
    obtain ⟨⟨p₁, turn⟩, first, -⟩ := bind_ok run
    obtain ⟨watched, watch, -⟩ := bind_ok first
    have master : s.proxy.masterSocket ∈ watched := ((watch_ok watch).1 _).mpr ⟨.master, by simp, rfl⟩
    have all : InRange (s.proxy.masterSocket :: turns.flatten.flatMap (·.1.accepted)) :=
      List.forall_mem_cons.mpr ⟨(watch_ok watch).2 _ master, range⟩
    have fits := all.length_le keeps.distinct
    rw [List.length_cons] at fits
    omega

end serves

/-- A client connects. -/
def sampleConnects : RoundCalls := { selected := .returned (· = 3), newSocket := 5, ip := sampleIp }

/-- It sends the first part of a request. -/
def sampleSends : RoundCalls :=
  { selected := .returned (· = 5), calls := fun _ => { fromClient := some (text "GET /") } }

theorem run_handles_sample : ∃ q turns, sampleStart.proxy.run [sampleConnects, sampleSends] = .ok (q, turns) ∧
    (∃ done, sampleStart.proxy.handle (turns.flatten.map Prod.fst) = .ok (q, done) ∧
      done.map (fun h => (h.event, h.actions)) = turns.flatten) ∧ ∀ turn ∈ turns, Orderly turn := by
  obtain ⟨q, turns, run⟩ : ∃ q turns, sampleStart.proxy.run [sampleConnects, sampleSends] = .ok (q, turns) :=
    ⟨_, _, rfl⟩
  exact ⟨q, turns, run, run_handles sampleStart_started.inv.keyed run⟩

/-- Each call opens only what was not open before it. -/
def Apart (opened : List Int) : CallLog → Prop
  | [] => True
  | (e, actions) :: turn => (∀ fd ∈ opened, ¬e.Opens fd) ∧ Apart (actions.foldl keep opened) turn

instance decidableApart (opened : List Int) (turn : CallLog) : Decidable (Apart opened turn) :=
  match turn with
  | [] => isTrue trivial
  | (_, actions) :: turn =>
    have : Decidable (Apart (actions.foldl keep opened) turn) := decidableApart _ turn
    inferInstanceAs (Decidable (_ ∧ _))

theorem serves_of_does {p q : MiProxy} {turn : CallLog} {opened : List Int} (does : Does p turn q)
    (apart : Apart opened turn) : ∃ opened', Serves (ofList p opened) turn (ofList q opened') := by
  induction does generalizing opened with
  | nil => exact ⟨opened, .nil⟩
  | cons _ dispatched _ ih =>
    obtain ⟨opened', later⟩ := ih apart.2
    exact ⟨opened', .cons (call_ofList apart.1 dispatched) later⟩

/-- A second client comes while the first one has sent something. -/
def sampleBoth : RoundCalls :=
  { sampleSends with selected := .returned (fun fd => fd = 3 ∨ fd = 5), newSocket := 6, ip := text "10.0.0.2" }

/-- What is read behind the accept of a round was there and reported before it. -/
theorem reads_ready_sample : ∃ m : Process, m.proxy.clients.size = 2 ∧
    ∃ fd, sampleAccepted.proxy.held (.client sampleIp) = some fd ∧ m.proxy.held (.client sampleIp) = some fd ∧
      ∀ ready, sampleBoth.selected = .returned ready → ready fd = true := by
  have connected : Relation.ReflTransGen Next sampleStart sampleAccepted := .single ⟨_, _, sample_accept⟩
  have round : ∃ q, sampleAccepted.proxy.round sampleBoth = .ok (q, [(.accept 6 (text "10.0.0.2") (.ok []), [.accepted 6])] ++
      (.client sampleIp (some (text "GET /")) {}, [.heard 5 (text "GET /")]) :: []) := ⟨_, rfl⟩
  obtain ⟨q, round⟩ := round
  have accepted : (sampleAccepted.proxy.dispatch (.accept 6 (text "10.0.0.2") (.ok []))).map (fun result =>
      (result.1.clients.size, result.2)) = .ok (2, [.accepted 6]) := by decide +kernel
  obtain ⟨⟨p, actions⟩, handled, seen⟩ := map_ok accepted
  obtain ⟨two, rfl⟩ := Prod.mk.inj seen
  have call : Call sampleAccepted (.accept 6 (text "10.0.0.2") (.ok [])) [.accepted 6] ⟨p, insert 6 sampleAccepted.opened⟩ := by
    refine ⟨?_, handled, rfl⟩
    rintro fd (rfl | rfl) <;> simp [Event.Opens]
  exact ⟨_, two, reads_ready sampleStart_started connected round (.cons call .nil) rfl⟩

/-- A client comes and asks for a page, its server ends, and another client comes. -/
def sampleRounds : List RoundCalls :=
  [sampleConnects,
    { selected := .returned (· = 5)
      calls := fun _ => { fromClient := some (text "GET / HTTP/1.1\r\n\r\n"), request := { socket := 7 } } },
    { selected := .returned (· = 7), calls := fun _ => { fromServer := some [] } },
    { selected := .returned (· = 3), newSocket := 7, ip := text "10.0.0.2" }]

theorem accepts_limited_sample : ∃ q turns t, sampleStart.proxy.run sampleRounds = .ok (q, turns) ∧
    Serves sampleStart turns.flatten t ∧ turns.flatten.flatMap (·.1.accepted) = [5, 7] ∧
    (turns.flatten.flatMap (·.1.accepted)).length < fdSetSize := by
  have ran : (sampleStart.proxy.run sampleRounds).map (fun result =>
      (result.2.flatten.flatMap (·.1.accepted), decide (Apart [3] result.2.flatten))) = .ok ([5, 7], true) := by
    decide +kernel
  obtain ⟨⟨q, turns⟩, run, seen⟩ := map_ok ran
  obtain ⟨accepted, apart⟩ := Prod.mk.inj seen
  obtain ⟨opened, served⟩ := serves_of_does (Keyed.rounds sampleStart_started.inv.keyed run).1 (of_decide_eq_true apart)
  rw [sampleStart_ofList] at served
  exact ⟨q, turns, _, run, served, accepted, accepts_limited sampleStart_started run served⟩

end Process

end VStream
