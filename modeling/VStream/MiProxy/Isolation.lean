import VStream.Machine.Parallel
import VStream.MiProxy.Chunks
import VStream.MiProxy.Descriptors

/-!
# Clients by themselves

Every handler works on one entry of the map. So the proxy is a machine for each
address, all side by side, and what happens to one client is what would happen
to it if it were the only one.
-/

namespace VStream
open Cpp Net Function Parallel Connection
open Std (TreeMap)

/-- An event that was not idle, what its handler did and what it wrote to the log. -/
structure Handled where
  event : Event
  actions : List Action
  lines : List LogLine

/-- What was handled is for this client, and so is what was written to the log. -/
def Handled.For (ip : Bytes) (h : Handled) : Prop := h.event.ip = ip ∧ ∀ line ∈ h.lines, line.browserIp = ip

namespace MiProxy

instance (p : MiProxy) : DecidablePred p.Idle
  | .accept _ _ _ => isFalse id
  | .client ip _ _ => inferInstanceAs (Decidable (p.clients[ip]? = none))
  | .server ip _ _ =>
    match entry : p.clients[ip]? with
    | none => isTrue fun conn here => by rw [entry] at here; cases here
    | some conn => decidable_of_iff (conn.serverSocket = -1)
        ⟨fun unconnected conn' here => by cases entry.symm.trans here; exact unconnected, fun idle => idle conn entry⟩

/-- Handler calls one after the other, and those that had something to do. -/
def handle (p : MiProxy) : List Event → Exec (MiProxy × List Handled)
  | [] => .ok (p, [])
  | e :: es => do
    let (p', actions) ← p.dispatch e
    let (last, later) ← p'.handle es
    let now := if p.Idle e then [] else [⟨e, actions, p'.log.drop p.log.length⟩]
    return (last, now ++ later)

/-! ### The machine of one client -/

/-- What a handler call does to the entry that it is for. -/
def act (p : MiProxy) : Event → Option Connection → Exec (Option Connection × List Handled)
  | .accept newSocket ip dns, entry =>
    if newSocket < 0 then .error (.thrown (.runtimeError "accept"))
    else
      match entry with
      | some conn =>
        .ok (some { conn with clientSocket := newSocket }, [⟨.accept newSocket ip dns, [.accepted newSocket], []⟩])
      | none => do
        let wwwIp ← (if p.dnsMode then dns else .ok p.defaultWwwIp)
        let conn : Connection := { clientSocket := newSocket, serverSocket := -1, clientIp := ip, wwwIp }
        return (some conn, [⟨.accept newSocket ip dns, [.accepted newSocket], []⟩])
  | .client _ _ _, none => .ok (none, [])
  | .client ip read calls, some conn => do
    let (conn', actions) ← handleClientConnection read calls conn
    return (conn', [⟨.client ip read calls, actions, []⟩])
  | .server _ _ _, none => .ok (none, [])
  | .server ip read calls, some conn =>
    if conn.serverSocket = -1 then .ok (some conn, [])
    else do
      let (conn', lines, actions) ← handleServerConnection p.alpha read calls conn
      return (some conn', [⟨.server ip read calls, actions, lines⟩])

/-- A read from a server, put to what came before it. -/
def reading (conn : Connection) (data : Bytes) (calls : ResponseCalls) (serverMessageLen : Nat) : Connection :=
  { conn.seen (if conn.serverMessage = [] then calls.start else conn.serverConnStart) calls with
    serverMessage := conn.serverMessage ++ data, serverMessageLen }

/-- What a handler call does for a client that is there, and the entry it leaves. -/
inductive Deals (alpha : ℚ) (conn : Connection) : Handled → Option Connection → Prop where
  | accepted {newSocket : Int} {ip : Bytes} {dns : Exec Bytes} :
      Deals alpha conn ⟨.accept newSocket ip dns, [.accepted newSocket], []⟩ (some { conn with clientSocket := newSocket })
  | left {ip : Bytes} {calls : RequestCalls} :
      Deals alpha conn ⟨.client ip (some []) calls, [.clientClosed conn.clientSocket], []⟩ none
  | heard {ip data : Bytes} {calls : RequestCalls} (some : data ≠ [])
      (more : find blankLine (conn.clientMessage ++ data) = none) :
      Deals alpha conn ⟨.client ip (.some data) calls, [.heard conn.clientSocket data], []⟩
        (.some { conn with clientMessage := conn.clientMessage ++ data })
  | asked {ip data : Bytes} {calls : RequestCalls} {serverSocket : Int} {opened : List Action} {asking : Connection}
      (some : data ≠ []) (ended : find blankLine (conn.clientMessage ++ data) ≠ none)
      (here : asking = { conn with
        clientMessage := conn.clientMessage ++ data, serverSocket
        noListMessage := (noList (conn.clientMessage ++ data)).getD conn.noListMessage })
      (listed : ¬asking.Unlisted) (server : Reaches conn calls serverSocket opened) :
      Deals alpha conn ⟨.client ip (.some data) calls,
          .heard conn.clientSocket data :: (opened ++ [.forwarded serverSocket asking.rewritten.clientMessage]), []⟩
        (.some { asking.rewritten with clientMessage := [] })
  | lost {ip : Bytes} {calls : ResponseCalls} :
      Deals alpha conn ⟨.server ip (some []) calls, [.serverClosed conn.serverSocket], []⟩
        (some { reading conn [] calls conn.serverMessageLen with serverSocket := -1 })
  | fed {ip data : Bytes} {calls : ResponseCalls} {len : Nat} (some : data ≠ [])
      (waits : Waits conn.serverMessageLen (conn.serverMessage ++ data) len) :
      Deals alpha conn ⟨.server ip (.some data) calls, [], []⟩ (.some (reading conn data calls len))
  | withheld {ip data : Bytes} {calls : ResponseCalls} {rest : Bytes} {bitrates : List Int} {len : Nat} (some : data ≠ [])
      (kept : conn.noListMessage ≠ [])
      (parsed : manifestBitrates (conn.serverMessage ++ data) conn.availableBitrates = .ok (rest, bitrates)) :
      Deals alpha conn ⟨.server ip (.some data) calls, [.intercepted conn.serverSocket conn.noListMessage], []⟩
        (.some { reading conn data calls len with
          serverMessage := [], serverMessageLen := 0, noListMessage := [], availableBitrates := bitrates
          currentThroughput := bitrates.headD 0 * (3 / 2) })
  | watched {ip data : Bytes} {calls : ResponseCalls} {len : Nat} (some : data ≠ []) (plain : conn.noListMessage = [])
      (expected : expectedLen conn.serverMessageLen (conn.serverMessage ++ data) = .ok (.some len))
      (full : len ≤ (conn.serverMessage ++ data).length) (video : IsVideo (conn.serverMessage ++ data)) :
      Deals alpha conn ⟨.server ip (.some data) calls, [.answered conn.clientSocket (conn.serverMessage ++ data)],
          [logged alpha calls.now (reading conn data calls len)]⟩
        (.some { reading conn data calls len with
          serverMessage := [], serverMessageLen := 0
          currentThroughput := average alpha (newThroughput calls.now (reading conn data calls len)) conn.currentThroughput })
  | passed {ip data : Bytes} {calls : ResponseCalls} {len : Nat} (some : data ≠ []) (plain : conn.noListMessage = [])
      (other : ¬IsVideo (conn.serverMessage ++ data)) :
      Deals alpha conn ⟨.server ip (.some data) calls, [.answered conn.clientSocket (conn.serverMessage ++ data)], []⟩
        (.some { reading conn data calls len with serverMessage := [], serverMessageLen := 0 })

theorem handleClientConnection_deals {read : Option Bytes} {calls : RequestCalls} {conn : Connection}
    {entry : Option Connection} {actions : List Action} (alpha : ℚ) (ip : Bytes)
    (handled : handleClientConnection read calls conn = .ok (entry, actions)) :
    Deals alpha conn ⟨.client ip read calls, actions, []⟩ entry := by
  rcases read with _ | _ | ⟨c, data⟩
  · cases handled
  · cases handled
    exact .left
  · have some : c :: data ≠ [] := List.cons_ne_nil c data
    rcases handleClientConnection_ok some handled with ⟨more, rfl, rfl⟩ | ⟨ended, next, asked, request, rfl, rfl⟩
    · exact .heard some more
    · obtain ⟨serverSocket, opened, asking, server, here, listed, rfl, rfl⟩ := handleRequestMessage_parts request
      refine .asked some ended here listed ?_
      cases server with
      | old connected => exact .old connected
      | new unconnected valid => exact .new unconnected valid

theorem handleServerConnection_deals {alpha : ℚ} {read : Option Bytes} {calls : ResponseCalls} {conn next : Connection}
    {lines : List LogLine} {actions : List Action} (ip : Bytes)
    (handled : handleServerConnection alpha read calls conn = .ok (next, lines, actions)) :
    Deals alpha conn ⟨.server ip read calls, actions, lines⟩ (some next) := by
  rcases read with _ | _ | ⟨c, data⟩
  · cases handled
  · cases handled
    have lost := @Deals.lost alpha conn ip calls
    rwa [reading, List.append_nil] at lost
  · have some : c :: data ≠ [] := List.cons_ne_nil c data
    rw [handleServerConnection_eq alpha calls conn some] at handled
    obtain ⟨expectation, expected, handled⟩ := bind_ok handled
    cases expectation with
    | none =>
      cases handled
      exact .fed some (.header expected)
    | some len =>
      dsimp only at handled
      split at handled
      · rename_i short
        cases handled
        exact .fed some (.body expected short)
      · rename_i full
        rcases handleResponseMessage_parts handled with
          ⟨kept, rest, bitrates, parsed, rfl, rfl, rfl⟩ | ⟨plain, rfl, ⟨video, rfl, rfl⟩ | ⟨other, rfl, rfl⟩⟩
        · exact .withheld some kept parsed
        · exact .watched some plain expected (Nat.le_of_not_lt full) video
        · exact .passed some plain other

/-- A call for a client that is there has nothing to do, or deals with it. -/
theorem act_deals {p : MiProxy} {e : Event} {conn : Connection} {entry : Option Connection} {now : List Handled}
    (acts : p.act e (some conn) = .ok (entry, now)) :
    now = [] ∧ entry = some conn ∨ ∃ h, now = [h] ∧ Deals p.alpha conn h entry := by
  cases e with
  | accept newSocket ip dns =>
    rw [act] at acts
    split at acts
    · cases acts
    · cases acts
      exact .inr ⟨_, rfl, .accepted⟩
  | client ip read calls =>
    obtain ⟨⟨next, actions⟩, handled, acts⟩ := bind_ok acts
    cases acts
    exact .inr ⟨_, rfl, handleClientConnection_deals p.alpha ip handled⟩
  | server ip read calls =>
    rw [act] at acts
    split at acts
    · cases acts
      exact .inl ⟨rfl, rfl⟩
    · obtain ⟨⟨next, lines, actions⟩, handled, acts⟩ := bind_ok acts
      cases acts
      exact .inr ⟨_, rfl, handleServerConnection_deals ip handled⟩

def entries (p : MiProxy) (ip : Bytes) : Option Connection := p.clients[ip]?

/-- The settings that a handler looks at. -/
structure Alike (p p' : MiProxy) : Prop where
  dnsMode : p'.dnsMode = p.dnsMode
  defaultWwwIp : p'.defaultWwwIp = p.defaultWwwIp
  alpha : p'.alpha = p.alpha

theorem Alike.act {p p' : MiProxy} (alike : Alike p p') : p'.act = p.act := by
  funext e entry
  unfold MiProxy.act
  rw [alike.dnsMode, alike.defaultWwwIp, alike.alpha]

/-- A handler call of the proxy and what the machine of its client does. -/
structure Acts (p : MiProxy) (e : Event) (after : MiProxy × List Action) (alone : Option Connection × List Handled) :
    Prop where
  keyed : after.1.Keyed
  alike : Alike p after.1
  entries : after.1.entries = update p.entries e.ip alone.1
  handled : (if p.Idle e then [] else [⟨e, after.2, after.1.log.drop p.log.length⟩]) = alone.2
  log : after.1.log = p.log ++ alone.2.flatMap Handled.lines
  own : ∀ h ∈ alone.2, h.For e.ip

theorem entries_store (p : MiProxy) (ip : Bytes) (conn : Connection) :
    (p.store ip conn).entries = update p.entries ip (some conn) := by
  funext other
  by_cases here : other = ip
  · subst here
    rw [update_self, entries, store_here]
  · rw [update_of_ne here, entries, store_other p conn here, entries]

theorem entries_erase (p : MiProxy) (ip : Bytes) :
    ({ p with clients := p.clients.erase ip } : MiProxy).entries = update p.entries ip none := by
  funext other
  by_cases here : other = ip
  · subst here
    simp [entries]
  · simp [entries, TreeMap.getElem?_erase, Ne.symm here, here]

/-- Every entry is what `good` says for its client. -/
def Every (good : Bytes → Connection → Prop) (p : MiProxy) : Prop :=
  ∀ (ip : Bytes) (conn : Connection), p.clients[ip]? = some conn → good ip conn

theorem Every.store {good : Bytes → Connection → Prop} {p : MiProxy} (every : Every good p) {ip : Bytes}
    {conn : Connection} (here : good ip conn) : Every good (p.store ip conn) := by
  intro other conn' entry
  by_cases same : other = ip
  · subst same
    obtain rfl := Option.some.inj ((store_here p _ conn).symm.trans entry)
    exact here
  · rw [store_other p conn same] at entry
    exact every other conn' entry

theorem Every.erase {good : Bytes → Connection → Prop} {p : MiProxy} (every : Every good p) (ip : Bytes) :
    Every good { p with clients := p.clients.erase ip } := by
  intro other conn entry
  rw [TreeMap.getElem?_erase] at entry
  split at entry
  · cases entry
  · exact every other conn entry

/-- The entry stays that of the client, and so do the lines. -/
theorem Deals.own {alpha : ℚ} {conn next : Connection} {h : Handled} (deals : Deals alpha conn h (some next)) :
    next.clientIp = conn.clientIp ∧ ∀ line ∈ h.lines, line.browserIp = conn.clientIp := by
  cases deals with
  | @asked ip data calls serverSocket opened asking some ended here listed server =>
    have same : asking.rewritten.clientIp = asking.clientIp := by
      unfold rewritten
      split <;> rfl
    subst here
    exact ⟨same, List.forall_mem_nil _⟩
  | watched some plain full video => exact ⟨rfl, List.forall_mem_singleton.mpr rfl⟩
  | _ => exact ⟨rfl, List.forall_mem_nil _⟩

section acting
variable {p : MiProxy} (keyed : p.Keyed)
include keyed

/-- The call stores `conn` for the client and writes `lines`. -/
theorem Keyed.acts_stored {e : Event} (busy : ¬ p.Idle e) {conn : Connection} (key : conn.clientIp = e.ip)
    {lines : List LogLine} (mine : ∀ line ∈ lines, line.browserIp = e.ip) (actions : List Action) :
    Acts p e ({ p.store e.ip conn with log := p.log ++ lines }, actions) (some conn, [⟨e, actions, lines⟩]) where
  keyed := keyed.store key
  alike := ⟨rfl, rfl, rfl⟩
  entries := entries_store p e.ip conn
  handled := by
    rw [if_neg busy]
    dsimp only
    rw [List.drop_left]
  log := by simp
  own h member := by
    rw [List.mem_singleton.mp member]
    exact ⟨rfl, mine⟩

theorem Keyed.acts_idle {e : Event} (idle : p.Idle e) {entry : Option Connection} (here : p.clients[e.ip]? = entry) :
    Acts p e (p, []) (entry, []) where
  keyed := keyed
  alike := ⟨rfl, rfl, rfl⟩
  entries := by
    rw [← here]
    exact (update_eq_self _ _).symm
  handled := if_pos idle
  log := (List.append_nil _).symm
  own := by simp

theorem Keyed.acts_erased {e : Event} (busy : ¬ p.Idle e) (actions : List Action) :
    Acts p e ({ p with clients := p.clients.erase e.ip }, actions) (none, [⟨e, actions, []⟩]) where
  keyed := keyed.erase e.ip
  alike := ⟨rfl, rfl, rfl⟩
  entries := entries_erase p e.ip
  handled := by
    rw [if_neg busy]
    dsimp only
    rw [List.drop_length]
  log := by simp
  own h member := by
    rw [List.mem_singleton.mp member]
    exact ⟨rfl, by simp⟩

theorem Keyed.acts_quiet {e : Event} (busy : ¬ p.Idle e) {conn : Connection} (key : conn.clientIp = e.ip)
    (actions : List Action) : Acts p e (p.store e.ip conn, actions) (some conn, [⟨e, actions, []⟩]) := by
  have stored := @Keyed.acts_stored p keyed e busy conn key [] (by simp) actions
  rwa [List.append_nil] at stored

/-- A handler call does to the entry of its client what the machine of that client does, and nothing else. -/
theorem Keyed.acts (e : Event) : Matches (Acts p e) (p.dispatch e) (p.act e (p.entries e.ip)) := by
  cases e with
  | accept newSocket ip dns =>
    have busy : ¬ p.Idle (.accept newSocket ip dns) := id
    simp only [dispatch, handleMasterConnection, act, entries, Event.ip]
    by_cases invalid : newSocket < 0
    · rw [if_pos invalid, if_pos invalid]
      exact rfl
    · rw [if_neg invalid, if_neg invalid]
      cases entry : p.clients[ip]? with
      | some conn =>
        have key : ({ conn with clientSocket := newSocket } : Connection).clientIp = ip := keyed ip conn entry
        exact keyed.acts_quiet busy key [.accepted newSocket]
      | none =>
        dsimp only
        cases (if p.dnsMode then dns else .ok p.defaultWwwIp) with
        | error stop => exact rfl
        | ok wwwIp => exact keyed.acts_quiet busy rfl [.accepted newSocket]
  | client ip read calls =>
    simp only [dispatch, act, entries, Event.ip]
    cases entry : p.clients[ip]? with
    | none =>
      have idle : p.Idle (.client ip read calls) := entry
      exact keyed.acts_idle idle entry
    | some conn =>
      have busy : ¬ p.Idle (.client ip read calls) := by
        intro idle
        cases entry.symm.trans idle
      have key := keyed ip conn entry
      dsimp only
      cases handled : handleClientConnection read calls conn with
      | error stop => exact rfl
      | ok result =>
        obtain ⟨next, actions⟩ := result
        cases next with
        | none =>
          obtain rfl := key
          exact keyed.acts_erased busy actions
        | some next =>
          obtain ⟨same, -⟩ := (handleClientConnection_deals p.alpha ip handled).own
          exact keyed.acts_quiet busy (same.trans key) actions
  | server ip read calls =>
    simp only [dispatch, act, entries, Event.ip]
    cases entry : p.clients[ip]? with
    | none =>
      have idle : p.Idle (.server ip read calls) := by
        intro conn here
        cases entry.symm.trans here
      exact keyed.acts_idle idle entry
    | some conn =>
      dsimp only
      by_cases unconnected : conn.serverSocket = -1
      · rw [if_pos unconnected, if_pos unconnected]
        have idle : p.Idle (.server ip read calls) := by
          intro conn' here
          cases entry.symm.trans here
          exact unconnected
        exact keyed.acts_idle idle entry
      · rw [if_neg unconnected, if_neg unconnected]
        have busy : ¬ p.Idle (.server ip read calls) := fun idle => unconnected (idle conn entry)
        have key := keyed ip conn entry
        cases handled : handleServerConnection p.alpha read calls conn with
        | error stop => exact rfl
        | ok result =>
          obtain ⟨next, lines, actions⟩ := result
          obtain ⟨same, names⟩ := (handleServerConnection_deals ip handled).own
          rw [key] at names
          exact keyed.acts_stored busy (same.trans key) names actions

end acting

/-! ### Runs -/

/-- A run of the proxy and the run of all the machines. -/
structure Acted (p : MiProxy) (after : MiProxy × List Handled)
    (machines : (Bytes → Option Connection) × List (Bytes × Handled)) : Prop where
  keyed : after.1.Keyed
  alike : Alike p after.1
  entries : after.1.entries = machines.1
  handled : after.2 = machines.2.map Prod.snd
  log : after.1.log = p.log ++ after.2.flatMap Handled.lines
  own : ∀ h ∈ machines.2, h.2.For h.1

/-- The proxy runs as the machines of its clients do side by side. -/
theorem Keyed.acted {p : MiProxy} (keyed : p.Keyed) (es : List Event) :
    Matches (Acted p) (p.handle es) (together Event.ip p.act es p.entries) := by
  induction es generalizing p with
  | nil => exact ⟨keyed, ⟨rfl, rfl, rfl⟩, rfl, rfl, (List.append_nil _).symm, by simp⟩
  | cons e es ih =>
    rw [handle, together]
    apply (keyed.acts e).bind
    rintro ⟨p', actions⟩ ⟨entry, now⟩ acts
    have rest := ih acts.keyed
    rw [acts.alike.act, acts.entries] at rest
    apply rest.bind
    rintro ⟨last, later⟩ ⟨entries, machines⟩ acted
    obtain rfl : later = machines.map Prod.snd := acted.handled
    have now' := acts.handled
    dsimp only at now'
    dsimp only
    rw [now']
    refine ⟨acted.keyed, ?_, acted.entries, ?_, ?_, ?_⟩
    · exact ⟨acted.alike.dnsMode.trans acts.alike.dnsMode, acted.alike.defaultWwwIp.trans acts.alike.defaultWwwIp,
        acted.alike.alpha.trans acts.alike.alpha⟩
    · simp
    · rw [List.flatMap_append, ← List.append_assoc, ← acts.log]
      exact acted.log
    · intro h member
      rcases List.mem_append.mp member with here | after
      · obtain ⟨g, mine, rfl⟩ := List.mem_map.mp here
        exact acts.own g mine
      · exact acted.own h after

/-- What was handled for a client. -/
def ofClient (ip : Bytes) (done : List Handled) : List Handled := done.filter (·.event.ip = ip)

theorem ofClient_here {h : Handled} (done : List Handled) : ofClient h.event.ip (h :: done) = h :: ofClient h.event.ip done :=
  List.filter_cons_of_pos (by simp)

theorem ofClient_other {ip : Bytes} {h : Handled} (other : h.event.ip ≠ ip) (done : List Handled) :
    ofClient ip (h :: done) = ofClient ip done :=
  List.filter_cons_of_neg (by simpa using other)

theorem outOf_handled {out : List (Bytes × Handled)} (own : ∀ h ∈ out, h.2.For h.1) (ip : Bytes) :
    outOf ip out = ofClient ip (out.map Prod.snd) := by
  rw [outOf, ofClient, List.filter_map]
  congr 1
  apply List.filter_congr
  intro h member
  simp [(own h member).1]

theorem lines_ofClient {done : List Handled} (own : ∀ h ∈ done, h.For h.event.ip) (ip : Bytes) :
    (done.flatMap Handled.lines).filter (·.browserIp = ip) = (ofClient ip done).flatMap Handled.lines := by
  induction done with
  | nil => rfl
  | cons h done ih =>
    obtain ⟨here, later⟩ := List.forall_mem_cons.mp own
    rw [List.flatMap_cons, List.filter_append, ih later]
    by_cases mine : h.event.ip = ip
    · subst mine
      have all : h.lines.filter (·.browserIp = h.event.ip) = h.lines := by
        apply List.filter_eq_self.mpr
        intro line member
        simpa using here.2 line member
      rw [all, ofClient_here, List.flatMap_cons]
    · have nothing : h.lines.filter (·.browserIp = ip) = [] := by
        apply List.filter_eq_nil_iff.mpr
        intro line member
        simpa [here.2 line member] using mine
      rw [nothing, ofClient_other mine, List.nil_append]

section runs
variable {p p' : MiProxy} {es : List Event} {done : List Handled} {entries : Bytes → Option Connection}
  {out : List (Bytes × Handled)}

theorem Acted.ofClient (acted : Acted p (p', done) (entries, out)) (ip : Bytes) :
    outOf ip out = MiProxy.ofClient ip done := by
  rw [outOf_handled acted.own, ← acted.handled]

theorem Acted.lines (acted : Acted p (p', done) (entries, out)) (ip : Bytes) :
    (done.flatMap Handled.lines).filter (·.browserIp = ip) = (MiProxy.ofClient ip done).flatMap Handled.lines := by
  apply lines_ofClient
  intro h member
  rw [show done = _ from acted.handled] at member
  obtain ⟨tagged, here, rfl⟩ := List.mem_map.mp member
  have mine := acted.own tagged here
  rwa [mine.1]

variable (keyed : p.Keyed)
include keyed

/-- A run of the proxy is one of the machines. -/
theorem Keyed.machines (run : p.handle es = .ok (p', done)) :
    ∃ out, together Event.ip p.act es p.entries = .ok (p'.entries, out) ∧ Acted p (p', done) (p'.entries, out) := by
  have acted := keyed.acted es
  rw [run] at acted
  cases machines : together Event.ip p.act es p.entries with
  | error stop =>
    rw [machines] at acted
    exact acted.elim
  | ok result =>
    obtain ⟨entries, out⟩ := result
    rw [machines] at acted
    obtain rfl : p'.entries = entries := acted.entries
    exact ⟨out, rfl, acted⟩

theorem Keyed.of_machines (run : together Event.ip p.act es p.entries = .ok (entries, out)) :
    ∃ q done, p.handle es = .ok (q, done) ∧ Acted p (q, done) (entries, out) := by
  have acted := keyed.acted es
  rw [run] at acted
  cases handled : p.handle es with
  | error stop =>
    rw [handled] at acted
    exact acted.elim
  | ok result =>
    rw [handled] at acted
    exact ⟨result.1, result.2, rfl, acted⟩

/-- What happens to one client in a run of the proxy is what happens to it when no other is there. What `request_dns`
returns is part of its accept. -/
theorem clients_independent (run : p.handle es = .ok (p', done)) (ip : Bytes) :
    ∃ q, p.handle (es.filter (·.ip = ip)) = .ok (q, ofClient ip done) ∧ q.clients[ip]? = p'.clients[ip]? ∧
      (∀ other, other ≠ ip → q.clients[other]? = p.clients[other]?) ∧
      ∃ lines, p'.log = p.log ++ lines ∧ q.log = p.log ++ lines.filter (·.browserIp = ip) := by
  obtain ⟨out, machines, acted⟩ := keyed.machines run
  obtain ⟨entries, out', machines', here, mine, others⟩ := together_own machines ip
  obtain ⟨q, done', run', acted'⟩ := keyed.of_machines machines'
  have only : done' = ofClient ip done := by
    rw [← acted.ofClient ip, ← mine, ← outOf_all fun j other => (others j other).2]
    exact acted'.handled
  have same : ∀ k : Bytes, q.clients[k]? = entries k := congrFun acted'.entries
  subst only
  refine ⟨q, run', (same ip).trans here, fun other apart => (same other).trans (others other apart).1,
    done.flatMap Handled.lines, acted.log, ?_⟩
  rw [acted.lines ip]
  exact acted'.log

end runs

def otherIp : Bytes := text "10.0.0.2"

def sampleTwo : MiProxy :=
  Process.sampleAccepted.proxy.store otherIp { Process.sampleClient 6 with clientIp := otherIp }

theorem sampleTwo_keyed : sampleTwo.Keyed := by
  have inv := Process.inv_of_run Process.sampleStart_started (.single ⟨_, _, Process.sample_accept⟩)
  exact inv.keyed.store rfl

def firstReads : List Event := [.client Process.sampleIp (some (text "GET /")) {}, .client otherIp (some (text "GET ")) {}]

theorem firstReads_handled : ∃ p' done, sampleTwo.handle firstReads = .ok (p', done) := by
  have ends : (sampleTwo.handle firstReads).isOk = true := by decide +kernel
  cases run : sampleTwo.handle firstReads with
  | error stop =>
    rw [run] at ends
    cases ends
  | ok result => exact ⟨result.1, result.2, rfl⟩

theorem clients_independent_sample : ∃ p' done, sampleTwo.handle firstReads = .ok (p', done) ∧
    ∃ q, sampleTwo.handle (firstReads.filter (·.ip = Process.sampleIp)) = .ok (q, ofClient Process.sampleIp done) ∧
      q.clients[Process.sampleIp]? = p'.clients[Process.sampleIp]? := by
  obtain ⟨p', done, run⟩ := firstReads_handled
  obtain ⟨q, alone, same, -⟩ := clients_independent sampleTwo_keyed run Process.sampleIp
  exact ⟨p', done, run, q, alone, same⟩

/-- Two runs that differ only in how the events of different clients, accepts with what `request_dns` returns for them,
are interleaved do the same for every client. -/
theorem interleavings_agree {p p' : MiProxy} (keyed : p.Keyed) {es es' : List Event} {done : List Handled}
    (same : ∀ ip, es.filter (·.ip = ip) = es'.filter (·.ip = ip)) (run : p.handle es = .ok (p', done)) :
    ∃ q done', p.handle es' = .ok (q, done') ∧ ∀ ip : Bytes, q.clients[ip]? = p'.clients[ip]? ∧
      ofClient ip done' = ofClient ip done ∧
      q.log.filter (·.browserIp = ip) = p'.log.filter (·.browserIp = ip) := by
  obtain ⟨out, machines, acted⟩ := keyed.machines run
  obtain ⟨out', machines', outputs⟩ := together_interleaved same machines
  obtain ⟨q, done', run', acted'⟩ := keyed.of_machines machines'
  refine ⟨q, done', run', fun ip => ?_⟩
  have handled : ofClient ip done' = ofClient ip done := by
    rw [← acted'.ofClient ip, ← acted.ofClient ip, outputs ip]
  refine ⟨congrFun acted'.entries ip, handled, ?_⟩
  rw [show q.log = _ from acted'.log, show p'.log = _ from acted.log, List.filter_append, List.filter_append,
    acted'.lines ip, acted.lines ip, handled]

theorem interleavings_agree_sample : ∃ p' done, sampleTwo.handle firstReads = .ok (p', done) ∧
    ∃ q done', sampleTwo.handle firstReads.reverse = .ok (q, done') ∧ ∀ ip : Bytes,
      q.clients[ip]? = p'.clients[ip]? ∧ ofClient ip done' = ofClient ip done := by
  obtain ⟨p', done, run⟩ := firstReads_handled
  have same : ∀ ip, firstReads.filter (·.ip = ip) = firstReads.reverse.filter (·.ip = ip) := by
    intro ip
    have address : ∀ ip read calls, (Event.client ip read calls).ip = ip := fun _ _ _ => rfl
    have apart : otherIp ≠ Process.sampleIp := by decide
    by_cases first : Process.sampleIp = ip
    · subst first
      simp [firstReads, address, apart]
    · simp [firstReads, address, first, List.filter_cons]
  obtain ⟨q, done', turned, agree⟩ := interleavings_agree sampleTwo_keyed same run
  exact ⟨p', done, run, q, done', turned, fun ip => ⟨(agree ip).1, (agree ip).2.1⟩⟩

end MiProxy

end VStream
