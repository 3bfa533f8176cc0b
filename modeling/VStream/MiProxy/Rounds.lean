import VStream.Cpp.RangeFor
import VStream.MiProxy.Descriptors

/-!
# The rounds of `run`

After each `select`, `run` goes through the map of clients and calls a handler
for every entry with a ready socket. A handler may erase the entry that the
loop stands at.
-/

namespace VStream
open Cpp Net
open Std (TreeMap)

/-- What the calls for an entry return, should a handler be called for it. -/
structure Calls where
  fromClient : Option Bytes := none
  request : RequestCalls := {}
  fromServer : Option Bytes := none
  response : ResponseCalls := {}

namespace MiProxy

/-- The handler for an entry: that of the client first, that of the server only where the client is not ready. -/
def readyEvent (ready : Int → Bool) (calls : Bytes → Calls) (p : MiProxy) (ip : Bytes) : Option Event :=
  p.clients[ip]?.bind fun conn =>
    if ready conn.clientSocket then some (.client ip (calls ip).fromClient (calls ip).request)
    else if conn.serverSocket ≠ -1 ∧ ready conn.serverSocket then
      some (.server ip (calls ip).fromServer (calls ip).response)
    else none

/-- The proxy, and the entries handled so far, each with what was done. -/
abbrev Visited := MiProxy × List (Bytes × List Action)

def visit (ready : Int → Bool) (calls : Bytes → Calls) (s : Visited) (ip : Bytes) : Exec Visited :=
  match s.1.readyEvent ready calls ip with
  | none => .ok s
  | some e => do
    let (p, actions) ← s.1.dispatch e
    return (p, s.2 ++ [(ip, actions)])

/-- The loop over the clients, where `ready` tells which descriptors `select` has left in the set. -/
def pass (ready : Int → Bool) (calls : Bytes → Calls) (p : MiProxy) : Exec Visited :=
  rangeFor (fun s => s.1.clients) (visit ready calls) (p, [])

/-- The pass ends, and it has handled every entry with a ready socket, each once and in the order of the map. -/
def HandlesReady (ready : Int → Bool) (calls : Bytes → Calls) (p : MiProxy) : Prop :=
  ∃ last handled, p.pass ready calls = .ok (last, handled) ∧
    handled.map Prod.fst = p.clients.keys.filter fun ip => (p.readyEvent ready calls ip).isSome

end MiProxy

/-- The client has closed. -/
def Event.Leaves : Event → Prop
  | .client _ (some []) _ => True
  | _ => False

namespace MiProxy

/-- The entry stays, and the process goes on. -/
def Goes (p : MiProxy) (e : Event) : Prop := ¬ e.Leaves ∧ ∃ result, p.dispatch e = .ok result

theorem mem_iff_entry (p : MiProxy) (ip : Bytes) : ip ∈ p.clients ↔ ∃ conn, p.clients[ip]? = some conn := by
  rw [TreeMap.mem_iff_isSome_getElem?, Option.isSome_iff_exists]

/-! ### One visit -/

theorem Step.alpha {p p' : MiProxy} {e : Event} {actions : List Action} (step : Step p e actions p') :
    p'.alpha = p.alpha := by
  cases step <;> rfl

theorem Step.keys {p p' : MiProxy} {e : Event} {actions : List Action} (step : Step p e actions p')
    (present : e.ip ∈ p.clients) (stays : ¬ e.Leaves) (k : Bytes) : k ∈ p'.clients ↔ k ∈ p.clients := by
  have stored : ∀ conn, k ∈ (p.store e.ip conn).clients ↔ k ∈ p.clients := by
    intro conn
    by_cases here : k = e.ip
    · subst here
      exact iff_of_true ((mem_iff_entry _ _).mpr ⟨conn, store_here p e.ip conn⟩) present
    · rw [mem_iff_entry, mem_iff_entry, store_other p conn here]
  cases step with
  | idle nothing => exact Iff.rfl
  | clientLeft entry => exact absurd trivial stays
  | replaced => exact stored _
  | added => exact stored _
  | heard => exact stored _
  | requested => exact stored _
  | serverLeft => exact stored _
  | receiving => exact stored _
  | intercepted => exact stored _
  | answered => exact stored _

section visits
variable {ready : Int → Bool} {calls : Bytes → Calls} {p p' : MiProxy} {ip : Bytes} {e : Event}

theorem readyEvent_some (asked : p.readyEvent ready calls ip = some e) :
    e.ip = ip ∧ ip ∈ p.clients ∧ (∀ newSocket ip dns, e ≠ .accept newSocket ip dns) := by
  obtain ⟨conn, entry, asked⟩ := Option.bind_eq_some_iff.mp asked
  refine ⟨?_, (mem_iff_entry p ip).mpr ⟨conn, entry⟩, ?_⟩
  · split_ifs at asked <;> cases asked <;> rfl
  · rintro newSocket ip dns rfl
    split_ifs at asked <;> cases asked

/-- A handler's actions depend on its entry alone. -/
theorem dispatch_congr (asked : ∀ newSocket ip dns, e ≠ .accept newSocket ip dns) (alpha : p'.alpha = p.alpha)
    (entry : p'.clients[e.ip]? = p.clients[e.ip]?) :
    (p'.dispatch e).map Prod.snd = (p.dispatch e).map Prod.snd := by
  cases e with
  | accept newSocket ip dns => exact absurd rfl (asked newSocket ip dns)
  | client ip read calls =>
    simp only [dispatch]
    rw [show p'.clients[ip]? = p.clients[ip]? from entry]
    cases p.clients[ip]? with
    | none => rfl
    | some conn =>
      dsimp only
      cases handleClientConnection read calls conn with
      | error stop => rfl
      | ok result =>
        obtain ⟨next, actions⟩ := result
        cases next <;> rfl
  | server ip read calls =>
    simp only [dispatch]
    rw [show p'.clients[ip]? = p.clients[ip]? from entry, alpha]
    cases p.clients[ip]? with
    | none => rfl
    | some conn =>
      dsimp only
      split
      · rfl
      · cases handleServerConnection p.alpha read calls conn <;> rfl

/-- What holds before the entries of `rest` are visited: they are as they were at the start. -/
structure Visiting (ready : Int → Bool) (calls : Bytes → Calls) (p : MiProxy) (rest : List Bytes) (s : Visited) :
    Prop where
  keyed : s.1.Keyed
  alpha : s.1.alpha = p.alpha
  keys : ∀ k, k ∈ s.1.clients ↔ k ∈ p.clients
  distinct : rest.Nodup
  entries : ∀ k ∈ rest, s.1.clients[k]? = p.clients[k]?
  handled : s.2.map Prod.fst ++ rest.filter (fun ip => (p.readyEvent ready calls ip).isSome) =
    p.clients.keys.filter fun ip => (p.readyEvent ready calls ip).isSome

theorem Visiting.event {rest : List Bytes} {s : Visited} (visiting : Visiting ready calls p (ip :: rest) s) :
    s.1.readyEvent ready calls ip = p.readyEvent ready calls ip := by
  rw [readyEvent, readyEvent, visiting.entries ip List.mem_cons_self]

theorem Visiting.dispatch {rest : List Bytes} {s : Visited} (visiting : Visiting ready calls p (ip :: rest) s)
    (asked : p.readyEvent ready calls ip = some e) : (s.1.dispatch e).map Prod.snd = (p.dispatch e).map Prod.snd := by
  obtain ⟨here, -, event⟩ := readyEvent_some asked
  exact dispatch_congr event visiting.alpha (here ▸ visiting.entries ip List.mem_cons_self)

theorem Visiting.next {rest : List Bytes} {s : Visited} (visiting : Visiting ready calls p (ip :: rest) s)
    (goes : ∀ e, p.readyEvent ready calls ip = some e → p.Goes e) :
    ∃ s', visit ready calls s ip = .ok s' ∧ Visiting ready calls p rest s' := by
  obtain ⟨absent, distinct⟩ := List.nodup_cons.mp visiting.distinct
  have entries : ∀ k ∈ rest, s.1.clients[k]? = p.clients[k]? := fun k member =>
    visiting.entries k (List.mem_cons_of_mem _ member)
  cases asked : p.readyEvent ready calls ip with
  | none =>
    refine ⟨s, by rw [visit, visiting.event, asked], visiting.keyed, visiting.alpha, visiting.keys, distinct,
      entries, ?_⟩
    rw [← visiting.handled, List.filter_cons_of_neg (by simp [asked])]
  | some e =>
    obtain ⟨stays, ⟨p', actions⟩, dispatched⟩ := goes e asked
    obtain ⟨here, present, -⟩ := readyEvent_some asked
    have same := visiting.dispatch asked
    rw [dispatched] at same
    cases dispatched' : s.1.dispatch e with
    | error stop =>
      rw [dispatched'] at same
      cases same
    | ok result =>
      obtain ⟨next, actions'⟩ := result
      have step := dispatch_step dispatched'
      have keys : ∀ k, k ∈ next.clients ↔ k ∈ s.1.clients :=
        step.keys (here ▸ (visiting.keys ip).mpr present) stays
      refine ⟨(next, s.2 ++ [(ip, actions')]), ?_, ?_⟩
      · rw [visit, visiting.event, asked]
        dsimp only
        rw [dispatched']
        rfl
      · refine ⟨visiting.keyed.step step, step.alpha.trans visiting.alpha, fun k => (keys k).trans (visiting.keys k),
          distinct, ?_, ?_⟩
        · intro k member
          have elsewhere : k ≠ e.ip := by
            rintro rfl
            exact absent (here ▸ member)
          exact (visiting.keyed.frame step elsewhere).trans (entries k member)
        · rw [← visiting.handled, List.filter_cons_of_pos (by simp [asked]), List.map_append, List.append_assoc]
          rfl

/-- A visit that does not go on ends the pass: a handler has ended the process, or has erased its own entry. -/
theorem Visiting.stops (refused : p.readyEvent ready calls ip = some e) (stuck : ¬ p.Goes e) :
    ∃ stop, ∀ rest s, Visiting ready calls p (ip :: rest) s →
      (visit ready calls s ip >>= fun s' => advance s'.1.clients ip) = .error stop := by
  obtain ⟨here, present, -⟩ := readyEvent_some refused
  cases dispatched : p.dispatch e with
  | error stop =>
    refine ⟨stop, fun rest s visiting => ?_⟩
    have same := visiting.dispatch refused
    rw [dispatched] at same
    rw [visit, visiting.event, refused]
    dsimp only
    cases dispatched' : s.1.dispatch e with
    | error stop' =>
      rw [dispatched'] at same
      cases same
      rfl
    | ok result =>
      rw [dispatched'] at same
      cases same
  | ok result =>
    have leaves : e.Leaves := by
      by_contra stays
      exact stuck ⟨stays, result, dispatched⟩
    refine ⟨.undefined, fun rest s visiting => ?_⟩
    have same := visiting.dispatch refused
    rw [dispatched] at same
    rw [visit, visiting.event, refused]
    dsimp only
    cases dispatched' : s.1.dispatch e with
    | error stop =>
      rw [dispatched'] at same
      cases same
    | ok result' =>
      obtain ⟨next, actions⟩ := result'
      have gone : ip ∉ next.clients := by
        have step := dispatch_step dispatched'
        have there := (visiting.keys ip).mpr present
        obtain ⟨conn, entry⟩ := (mem_iff_entry _ _).mp there
        match e, leaves with
        | .client _ (some []) c, _ =>
          obtain rfl := here
          cases step with
          | idle nothing => cases entry.symm.trans nothing
          | clientLeft entry' =>
            rw [visiting.keyed _ _ entry']
            simp [Event.ip]
          | heard _ some => exact absurd rfl some
          | requested _ some => exact absurd rfl some
      exact if_neg gone

/-! ### The pass -/

theorem Keyed.visiting (keyed : p.Keyed) : Visiting ready calls p p.clients.keys (p, []) :=
  ⟨keyed, rfl, fun _ => Iff.rfl, TreeMap.nodup_keys, fun _ _ => rfl, rfl⟩

theorem Visiting.same (rest : List Bytes) (s : Visited) (visiting : Visiting ready calls p rest s) :
    s.1.clients.keys = p.clients.keys :=
  keys_ext visiting.keys

theorem pass_goes (keyed : p.Keyed) (goes : ∀ ip e, p.readyEvent ready calls ip = some e → p.Goes e) :
    HandlesReady ready calls p := by
  obtain ⟨⟨last, handled⟩, ended, visited⟩ :
      ∃ s, p.pass ready calls = .ok s ∧ Visiting ready calls p [] s :=
    rangeFor_visits Visiting.same (fun key _ rest s visiting => visiting.next (goes key)) keyed.visiting
  exact ⟨last, handled, ended, (List.append_nil _).symm.trans visited.handled⟩

theorem pass_stuck (keyed : p.Keyed) (asked : p.readyEvent ready calls ip = some e) (stuck : ¬ p.Goes e) :
    ∃ stop, p.pass ready calls = .error stop := by
  classical
  cases first : p.clients.keys.find? fun k => decide (∃ e, p.readyEvent ready calls k = some e ∧ ¬ p.Goes e) with
  | none =>
    have member : ip ∈ p.clients.keys := TreeMap.mem_keys.mpr (readyEvent_some asked).2.1
    have never := List.find?_eq_none.mp first ip member
    rw [decide_eq_true_eq] at never
    exact absurd ⟨e, asked, stuck⟩ never
  | some key =>
    obtain ⟨here, before, after, split, earlier⟩ := List.find?_eq_some_iff_append.mp first
    rw [decide_eq_true_eq] at here
    obtain ⟨e', asked', stuck'⟩ := here
    obtain ⟨stop, stops⟩ := Visiting.stops asked' stuck'
    refine ⟨stop, rangeFor_stops Visiting.same split ?_ keyed.visiting (stops after)⟩
    intro k member rest s visiting
    have fine := earlier k member
    rw [Bool.not_eq_true', decide_eq_false_iff_not] at fine
    exact visiting.next fun e asked => by_contra fun stuck => fine ⟨e, asked, stuck⟩

/-- A pass handles every entry with a ready socket exactly where no client of such an entry has closed and no handler
for one ends the process. -/
theorem pass_iff (keyed : p.Keyed) (ready : Int → Bool) (calls : Bytes → Calls) :
    HandlesReady ready calls p ↔ ∀ ip e, p.readyEvent ready calls ip = some e → p.Goes e := by
  constructor
  · rintro ⟨last, handled, ended, -⟩ ip e asked
    by_contra stuck
    obtain ⟨stop, stopped⟩ := pass_stuck keyed asked stuck
    cases ended.symm.trans stopped
  · exact pass_goes keyed

end visits

/-- Two clients, neither with a server. -/
def twoClients : MiProxy :=
  let start : MiProxy :=
    { dnsMode := false, defaultWwwIp := text "10.0.0.9", alpha := 1, masterSocket := 3, dnsSocket := -1 }
  (start.store (text "10.0.0.3") { clientSocket := 5, serverSocket := -1, clientIp := text "10.0.0.3" }).store
    (text "10.0.0.2") { clientSocket := 4, serverSocket := -1, clientIp := text "10.0.0.2" }

theorem twoClients_keyed : twoClients.Keyed := by
  have empty : ({ dnsMode := false, defaultWwwIp := text "10.0.0.9", alpha := 1, masterSocket := 3, dnsSocket := -1 } :
      MiProxy).Keyed := by
    intro ip conn entry
    simp at entry
  apply Keyed.store
  · apply empty.store
    rfl
  · rfl

theorem pass_iff_sample :
    HandlesReady (· = 4) (fun _ => { fromClient := some (text "GET /") }) twoClients ↔
      ∀ ip e, twoClients.readyEvent (· = 4) (fun _ => { fromClient := some (text "GET /") }) ip = some e →
        twoClients.Goes e :=
  pass_iff twoClients_keyed _ _

/-- The first of the clients closes, and the loop cannot go on to the second. -/
theorem leaving_client_stops_pass : ¬ HandlesReady (fun _ => true) (fun _ => { fromClient := some [] }) twoClients ∧
    ¬ ∀ (p : MiProxy) (ready : Int → Bool) (calls : Bytes → Calls), p.Keyed → HandlesReady ready calls p := by
  have stopped : ¬ HandlesReady (fun _ => true) (fun _ => { fromClient := some [] }) twoClients := by
    rintro ⟨last, handled, ended, -⟩
    have asked : twoClients.readyEvent (fun _ => true) (fun _ => { fromClient := some [] }) (text "10.0.0.2") =
        some (.client (text "10.0.0.2") (some []) {}) := by
      rw [readyEvent, twoClients, store_here]
      rfl
    obtain ⟨stop, stopped⟩ := pass_stuck twoClients_keyed asked fun goes => goes.1 trivial
    cases ended.symm.trans stopped
  exact ⟨stopped, fun always => stopped (always _ _ _ twoClients_keyed)⟩

end MiProxy

end VStream
