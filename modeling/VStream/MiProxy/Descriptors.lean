import VStream.MiProxy.Steps
import VStream.Resource.Ownership

/-!
# Descriptors of the proxy

`Role` names the places where the proxy keeps a descriptor. Two handlers lose
one: an accept from an address that has an entry, and the end of a client whose
server is connected.
-/

namespace VStream
open Cpp Net Resource Function
open Std (TreeMap)

inductive Role where
  | master
  | dns
  | client (ip : Bytes)
  | server (ip : Bytes)
  deriving DecidableEq

namespace MiProxy

def held (p : MiProxy) : Role → Option Int
  | .master => some p.masterSocket
  | .dns => if p.dnsMode then some p.dnsSocket else none
  | .client ip => p.clients[ip]?.map (·.clientSocket)
  | .server ip => p.clients[ip]?.bind fun conn => if conn.serverSocket = -1 then none else some conn.serverSocket

def Keyed (p : MiProxy) : Prop := ∀ (ip : Bytes) (conn : Connection), p.clients[ip]? = some conn → conn.clientIp = ip

/-- The handler does not lose a descriptor. -/
def Careful (p : MiProxy) : Event → Prop
  | .accept _ ip _ => p.clients[ip]? = none
  | .client ip (some []) _ => ∀ conn, p.clients[ip]? = some conn → conn.serverSocket = -1
  | _ => True

end MiProxy

/-- A descriptor that `accept` or `socket` returns. -/
def Event.Opens (fd : Int) : Event → Prop
  | .accept newSocket _ _ => newSocket = fd
  | .client _ _ calls => calls.socket = fd
  | .server _ _ _ => False

def Action.opened (opened : Set Int) : Action → Set Int
  | .accepted fd => insert fd opened
  | .connected fd _ => insert fd opened
  | .clientClosed fd => opened \ {fd}
  | .serverClosed fd => opened \ {fd}
  | _ => opened

structure Process where
  proxy : MiProxy
  opened : Set Int

namespace Process

/-- After `init`. -/
structure Started (s : Process) : Prop where
  empty : ∀ ip : Bytes, s.proxy.clients[ip]? = none
  opened : s.opened = {fd | fd = s.proxy.masterSocket ∨ s.proxy.dnsMode = true ∧ fd = s.proxy.dnsSocket}
  distinct : s.proxy.dnsMode = true → s.proxy.masterSocket ≠ s.proxy.dnsSocket

/-- A handler call. The system gives out descriptors that are not open. -/
structure Call (s : Process) (e : Event) (actions : List Action) (s' : Process) : Prop where
  fresh : ∀ fd ∈ s.opened, ¬e.Opens fd
  handled : s.proxy.dispatch e = .ok (s'.proxy, actions)
  opened : s'.opened = actions.foldl Action.opened s.opened

/-- The open descriptors are those that the proxy has a place for. -/
def Exact (s : Process) : Prop := s.opened = {fd | ∃ role, s.proxy.held role = some fd}

structure Inv (s : Process) : Prop where
  keyed : s.proxy.Keyed
  covered : Covered s.proxy.held s.opened

theorem Inv.exact_iff {s : Process} (inv : Inv s) : s.Exact ↔ Accounted s.proxy.held s.opened :=
  ⟨fun same => { inv.covered with holder := fun fd used => (Set.ext_iff.mp same fd).mp used },
    fun accounted => Set.ext accounted.mem_iff⟩

end Process

/-! ### What the handlers do to the table -/

namespace MiProxy

theorem held_store (p : MiProxy) (ip : Bytes) (conn : Connection) :
    (p.store ip conn).held = update (update p.held (.client ip) (some conn.clientSocket)) (.server ip)
      (if conn.serverSocket = -1 then none else some conn.serverSocket) := by
  funext role
  cases role with
  | master => rfl
  | dns => rfl
  | client other =>
    by_cases here : other = ip
    · subst here
      simp [held]
    · simp [held, here]
  | server other =>
    by_cases here : other = ip
    · subst here
      simp [held]
    · simp [held, here]

theorem held_client {p : MiProxy} {ip : Bytes} {conn : Connection} (entry : p.clients[ip]? = some conn) :
    p.held (.client ip) = some conn.clientSocket := by
  simp [held, entry]

theorem held_server {p : MiProxy} {ip : Bytes} {conn : Connection} (entry : p.clients[ip]? = some conn) :
    p.held (.server ip) = if conn.serverSocket = -1 then none else some conn.serverSocket := by
  simp [held, entry]

theorem held_newClient {p : MiProxy} {ip : Bytes} {conn : Connection}
    (server : p.held (.server ip) = if conn.serverSocket = -1 then none else some conn.serverSocket) :
    (p.store ip conn).held = update p.held (.client ip) (some conn.clientSocket) := by
  have other : update p.held (.client ip) (some conn.clientSocket) (.server ip) = p.held (.server ip) :=
    update_of_ne (by simp) ..
  rw [held_store, ← server, ← other, update_eq_self]

theorem held_newServer {p : MiProxy} {ip : Bytes} {conn conn' : Connection} {server : Option Int}
    (entry : p.clients[ip]? = some conn) (client : conn'.clientSocket = conn.clientSocket)
    (value : (if conn'.serverSocket = -1 then none else some conn'.serverSocket) = server) :
    (p.store ip conn').held = update p.held (.server ip) server := by
  rw [held_store, client, ← held_client entry, update_eq_self, value]

theorem held_same {p : MiProxy} {ip : Bytes} {conn conn' : Connection} (entry : p.clients[ip]? = some conn)
    (client : conn'.clientSocket = conn.clientSocket) (server : conn'.serverSocket = conn.serverSocket) :
    (p.store ip conn').held = p.held := by
  rw [held_newServer entry client (by rw [server, ← held_server entry]), update_eq_self]

theorem held_erase (p : MiProxy) (ip : Bytes) :
    ({ p with clients := p.clients.erase ip } : MiProxy).held = update (update p.held (.client ip) none) (.server ip) none := by
  funext role
  cases role with
  | master => rfl
  | dns => rfl
  | client other =>
    by_cases here : other = ip
    · subst here
      simp [held]
    · simp [held, here, TreeMap.getElem?_erase, Ne.symm here]
  | server other =>
    by_cases here : other = ip
    · subst here
      simp [held]
    · simp [held, here, TreeMap.getElem?_erase, Ne.symm here]

theorem held_leave {p : MiProxy} {ip : Bytes} (unconnected : p.held (.server ip) = none) :
    ({ p with clients := p.clients.erase ip } : MiProxy).held = update p.held (.client ip) none := by
  have other : update p.held (.client ip) none (.server ip) = p.held (.server ip) := update_of_ne (by simp) ..
  rw [held_erase]
  exact update_eq_self_iff.mpr (other.trans unconnected).symm

theorem Keyed.store {p : MiProxy} (keyed : p.Keyed) {ip : Bytes} {conn : Connection} (key : conn.clientIp = ip) :
    (p.store ip conn).Keyed := by
  intro other conn' entry
  by_cases here : other = ip
  · subst here
    rw [store_here] at entry
    obtain rfl := Option.some.inj entry
    exact key
  · rw [store_other p conn here] at entry
    exact keyed other conn' entry

theorem Keyed.update {p : MiProxy} (keyed : p.Keyed) {ip : Bytes} {conn conn' : Connection}
    (entry : p.clients[ip]? = some conn) (same : conn'.clientIp = conn.clientIp) : (p.store ip conn').Keyed :=
  keyed.store (same.trans (keyed ip conn entry))

theorem Keyed.erase {p : MiProxy} (keyed : p.Keyed) (ip : Bytes) :
    ({ p with clients := p.clients.erase ip } : MiProxy).Keyed := by
  intro other conn' entry
  rw [TreeMap.getElem?_erase] at entry
  split at entry
  · cases entry
  · exact keyed other conn' entry

theorem Keyed.step {p p' : MiProxy} (keyed : p.Keyed) {e : Event} {actions : List Action} (step : Step p e actions p') :
    p'.Keyed := by
  cases step with
  | idle nothing => exact keyed
  | clientLeft entry => exact keyed.erase _
  | added valid absent => exact keyed.store rfl
  | replaced valid entry => exact keyed.update entry rfl
  | heard entry some more => exact keyed.update entry rfl
  | requested entry some ended server rewritten => exact keyed.update entry rfl
  | serverLeft entry connected => exact keyed.update entry rfl
  | receiving entry connected some waits => exact keyed.update entry rfl
  | intercepted entry connected some complete kept => exact keyed.update entry rfl
  | answered entry connected some complete plain => exact keyed.update entry rfl

theorem Keyed.frame {p p' : MiProxy} (keyed : p.Keyed) {e : Event} {actions : List Action}
    (step : Step p e actions p') {other : Bytes} (elsewhere : other ≠ e.ip) :
    p'.clients[other]? = p.clients[other]? := by
  cases step with
  | idle nothing => rfl
  | replaced valid entry => exact store_other p _ elsewhere
  | added valid absent => exact store_other p _ elsewhere
  | @clientLeft ip calls conn entry =>
    have differs : ip ≠ other := Ne.symm elsewhere
    rw [keyed ip conn entry, TreeMap.getElem?_erase, if_neg]
    simpa using differs
  | heard entry some more => exact store_other p _ elsewhere
  | requested entry some ended server rewritten => exact store_other p _ elsewhere
  | serverLeft entry connected => exact store_other p _ elsewhere
  | receiving entry connected some waits => exact store_other p _ elsewhere
  | intercepted entry connected some complete kept => exact store_other p _ elsewhere
  | answered entry connected some complete plain => exact store_other p _ elsewhere

theorem Keyed.clientSocket {p p' : MiProxy} (keyed : p.Keyed) {e : Event} {actions : List Action}
    (step : Step p e actions p') {conn : Connection} (entry' : p'.clients[e.ip]? = some conn) :
    (∃ before, p.clients[e.ip]? = some before ∧ conn.clientSocket = before.clientSocket) ∨ e.Opens conn.clientSocket := by
  cases step with
  | idle nothing => exact .inl ⟨conn, entry', rfl⟩
  | replaced valid entry =>
    obtain rfl := Option.some.inj ((store_here p _ _).symm.trans entry')
    exact .inr rfl
  | added valid absent =>
    obtain rfl := Option.some.inj ((store_here p _ _).symm.trans entry')
    exact .inr rfl
  | @clientLeft ip calls before entry =>
    rw [keyed ip before entry] at entry'
    simp [Event.ip] at entry'
  | heard entry some more =>
    obtain rfl := Option.some.inj ((store_here p _ _).symm.trans entry')
    exact .inl ⟨_, entry, rfl⟩
  | requested entry some ended server rewritten =>
    obtain rfl := Option.some.inj ((store_here p _ _).symm.trans entry')
    exact .inl ⟨_, entry, rfl⟩
  | serverLeft entry connected =>
    obtain rfl := Option.some.inj ((store_here p _ _).symm.trans entry')
    exact .inl ⟨_, entry, rfl⟩
  | receiving entry connected some waits =>
    obtain rfl := Option.some.inj ((store_here p _ _).symm.trans entry')
    exact .inl ⟨_, entry, rfl⟩
  | intercepted entry connected some complete kept =>
    obtain rfl := Option.some.inj ((store_here p _ _).symm.trans entry')
    exact .inl ⟨_, entry, rfl⟩
  | answered entry connected some complete plain =>
    obtain rfl := Option.some.inj ((store_here p _ _).symm.trans entry')
    exact .inl ⟨_, entry, rfl⟩

/-- What a call does to the table and to the open descriptors. -/
inductive Change (p : MiProxy) (e : Event) (opened : Set Int) : (Role → Option Int) → Set Int → Prop where
  | same (careful : p.Careful e) : Change p e opened p.held opened
  | acquired {role : Role} {fd : Int} (careful : p.Careful e) (opens : e.Opens fd) (vacant : p.held role = none) :
      Change p e opened (update p.held role (some fd)) (insert fd opened)
  | released {role : Role} {fd : Int} (careful : p.Careful e) (holds : p.held role = some fd) :
      Change p e opened (update p.held role none) (opened \ {fd})
  | replaced {role : Role} {fd old : Int} (careless : ¬p.Careful e) (opens : e.Opens fd) (holds : p.held role = some old) :
      Change p e opened (update p.held role (some fd)) (insert fd opened)
  | abandoned {ip : Bytes} {fd server : Int} (careless : ¬p.Careful e) (client : p.held (.client ip) = some fd)
      (connected : p.held (.server ip) = some server) :
      Change p e opened (update (update p.held (.client ip) none) (.server ip) none) (opened \ {fd})

theorem Change.congr {p : MiProxy} {e : Event} {opened opened' : Set Int} {held held' : Role → Option Int}
    (change : Change p e opened held opened') (same : held' = held) : Change p e opened held' opened' := same ▸ change

theorem Keyed.change {p p' : MiProxy} (keyed : p.Keyed) {e : Event} {actions : List Action}
    (step : Step p e actions p') (opened : Set Int) :
    Change p e opened p'.held (actions.foldl Action.opened opened) := by
  cases step with
  | idle nothing =>
    apply Change.same
    match e, nothing with
    | .client ip none _, _ => trivial
    | .client ip (some []) _, absent => exact fun conn entry => by rw [Idle] at absent; rw [absent] at entry; cases entry
    | .client ip (some (_ :: _)) _, _ => trivial
    | .server _ _ _, _ => trivial
  | @added newSocket ip dns wwwIp valid absent =>
    have vacant : p.held (.client ip) = none := by simp [held, absent]
    have unconnected : p.held (.server ip) = none := by simp [held, absent]
    exact Change.congr (.acquired absent rfl vacant) (held_newClient unconnected)
  | @replaced newSocket ip dns conn valid entry =>
    have careless : ¬p.Careful (.accept newSocket ip dns) := by
      rw [Careful, entry]
      exact Option.some_ne_none conn
    have server := held_server entry
    exact Change.congr (.replaced careless rfl (held_client entry)) (held_newClient server)
  | @clientLeft ip calls conn entry =>
    rw [keyed ip conn entry]
    by_cases connected : conn.serverSocket = -1
    · have careful : p.Careful (.client ip (some []) calls) := by
        intro other entry'
        obtain rfl := Option.some.inj (entry.symm.trans entry')
        exact connected
      have unconnected : p.held (.server ip) = none := by rw [held_server entry, if_pos connected]
      exact Change.congr (.released careful (held_client entry)) (held_leave unconnected)
    · have careless : ¬p.Careful (.client ip (some []) calls) := fun careful => connected (careful conn entry)
      have holds : p.held (.server ip) = some conn.serverSocket := by rw [held_server entry, if_neg connected]
      exact Change.congr (.abandoned careless (held_client entry) holds) (held_erase p ip)
  | @heard ip data calls conn entry some more =>
    obtain ⟨c, data, rfl⟩ := List.exists_cons_of_ne_nil some
    exact Change.congr (.same trivial) (held_same entry rfl rfl)
  | @requested ip data calls conn _ _ _ _ _ entry some ended server rewritten =>
    obtain ⟨c, data, rfl⟩ := List.exists_cons_of_ne_nil some
    cases server with
    | old connected => exact Change.congr (.same trivial) (held_same entry rfl rfl)
    | new unconnected valid =>
      have vacant : p.held (.server ip) = none := by rw [held_server entry, if_pos unconnected]
      refine Change.congr (.acquired trivial rfl vacant) ?_
      exact held_newServer entry rfl (if_neg (by dsimp only; omega))
  | @serverLeft ip calls conn start entry connected =>
    have holds : p.held (.server ip) = some conn.serverSocket := by rw [held_server entry, if_neg connected]
    exact Change.congr (.released trivial holds) (held_newServer entry rfl (if_pos rfl))
  | receiving entry connected some waits => exact Change.congr (.same trivial) (held_same entry rfl rfl)
  | intercepted entry connected some complete kept => exact Change.congr (.same trivial) (held_same entry rfl rfl)
  | answered entry connected some complete plain => exact Change.congr (.same trivial) (held_same entry rfl rfl)

end MiProxy

/-! ### One call -/

namespace Process
open MiProxy

theorem Inv.change {s s' : Process} {e : Event} {actions : List Action} (inv : Inv s) (call : Call s e actions s') :
    Change s.proxy e s.opened s'.proxy.held s'.opened := by
  rw [call.opened]
  exact inv.keyed.change (dispatch_step call.handled) s.opened

theorem Inv.call {s s' : Process} {e : Event} {actions : List Action} (inv : Inv s) (call : Call s e actions s') :
    Inv s' := by
  refine ⟨inv.keyed.step (dispatch_step call.handled), ?_⟩
  have covered := inv.covered
  have change := inv.change call
  generalize s'.proxy.held = held', s'.opened = opened' at change
  cases change with
  | same careful => exact covered
  | acquired careful opens vacant => exact covered.acquire _ fun used => call.fresh _ used opens
  | released careful holds => exact covered.release holds
  | replaced careless opens holds => exact covered.acquire _ fun used => call.fresh _ used opens
  | abandoned careless client connected => exact (covered.release client).drop _

/-- A careless call leaves the old socket of a client, or the socket of its server, open without a place. -/
theorem Inv.exact_call {s s' : Process} {e : Event} {actions : List Action} (inv : Inv s) (exact : s.Exact)
    (call : Call s e actions s') : s'.Exact ↔ s.proxy.Careful e := by
  rw [(inv.call call).exact_iff]
  have accounted := inv.exact_iff.mp exact
  have covered := inv.covered
  have change := inv.change call
  generalize s'.proxy.held = held', s'.opened = opened' at change
  cases change with
  | same careful => exact iff_of_true accounted careful
  | acquired careful opens vacant =>
    exact iff_of_true (accounted.acquire vacant fun used => call.fresh _ used opens) careful
  | released careful holds => exact iff_of_true (accounted.release holds) careful
  | @replaced role fd old careless opens holds =>
    refine iff_of_false (fun accounted' => ?_) careless
    have used := covered.used role old holds
    have differs : some fd ≠ some old := by
      intro same
      obtain rfl := Option.some.inj same
      exact call.fresh _ used opens
    obtain ⟨role', kept⟩ := accounted'.holder old (Set.mem_insert_of_mem _ used)
    exact covered.lost holds differs role' kept
  | @abandoned ip fd server careless client connected =>
    refine iff_of_false (fun accounted' => ?_) careless
    have other : Role.server ip ≠ .client ip := by simp
    have differs : server ≠ fd := by
      rintro rfl
      exact other (covered.unique _ _ _ connected client)
    have holds : update s.proxy.held (.client ip) none (.server ip) = some server := by rwa [update_of_ne other]
    obtain ⟨role', kept⟩ := accounted'.holder server ⟨covered.used _ _ connected, differs⟩
    exact (covered.release client).lost holds (Option.some_ne_none server).symm role' kept

/-! ### Runs -/

theorem Started.held {s : Process} (started : Started s) {role : Role} {fd : Int}
    (holds : s.proxy.held role = some fd) :
    role = .master ∧ fd = s.proxy.masterSocket ∨ role = .dns ∧ s.proxy.dnsMode = true ∧ fd = s.proxy.dnsSocket := by
  cases role with
  | master => exact .inl ⟨rfl, (Option.some.inj holds).symm⟩
  | dns =>
    obtain ⟨mode, rfl⟩ : s.proxy.dnsMode = true ∧ s.proxy.dnsSocket = fd := by simpa [MiProxy.held] using holds
    exact .inr ⟨rfl, mode, rfl⟩
  | client ip => simp [MiProxy.held, started.empty ip] at holds
  | server ip => simp [MiProxy.held, started.empty ip] at holds

theorem Started.inv {s : Process} (started : Started s) : Inv s where
  keyed ip conn entry := by
    rw [started.empty ip] at entry
    cases entry
  covered.used role fd holds := by
    rw [started.opened]
    rcases started.held holds with ⟨-, rfl⟩ | ⟨-, mode, rfl⟩
    · exact .inl rfl
    · exact .inr ⟨mode, rfl⟩
  covered.unique role role' fd holds holds' := by
    rcases started.held holds with ⟨rfl, rfl⟩ | ⟨rfl, mode, rfl⟩ <;>
      rcases started.held holds' with ⟨rfl, same⟩ | ⟨rfl, mode', same⟩
    · rfl
    · exact absurd same (started.distinct mode')
    · exact absurd same.symm (started.distinct mode)
    · rfl

theorem Started.exact {s : Process} (started : Started s) : s.Exact := by
  refine Set.Subset.antisymm ?_ fun fd ⟨role, holds⟩ => started.inv.covered.used role fd holds
  rw [started.opened]
  rintro fd (rfl | ⟨mode, rfl⟩)
  · exact ⟨.master, rfl⟩
  · exact ⟨.dns, if_pos mode⟩

def Next (s s' : Process) : Prop := ∃ e actions, Call s e actions s'

def CarefulNext (s s' : Process) : Prop := ∃ e actions, s.proxy.Careful e ∧ Call s e actions s'

theorem inv_of_run {s t : Process} (started : Started s) (run : Relation.ReflTransGen Next s t) : Inv t := by
  induction run with
  | refl => exact started.inv
  | tail _ next inv =>
    obtain ⟨e, actions, call⟩ := next
    exact inv.call call

theorem CarefulNext.run {s t : Process} (run : Relation.ReflTransGen CarefulNext s t) :
    Relation.ReflTransGen Next s t :=
  run.lift id fun _ _ ⟨e, actions, _, call⟩ => ⟨e, actions, call⟩

theorem exact_of_careful {s t : Process} (started : Started s) (run : Relation.ReflTransGen CarefulNext s t) :
    t.Exact := by
  induction run with
  | refl => exact started.exact
  | tail before next exact =>
    obtain ⟨e, actions, careful, call⟩ := next
    exact ((inv_of_run started (CarefulNext.run before)).exact_call exact call).mpr careful

/-- As long as every call is careful the proxy has a place for each of its descriptors, and the first call that is
not leaves one without. -/
theorem descriptors {s t : Process} (started : Started s) (run : Relation.ReflTransGen CarefulNext s t) :
    t.Exact ∧ ∀ e actions t', Call t e actions t' → (t'.Exact ↔ t.proxy.Careful e) :=
  ⟨exact_of_careful started run, fun _ _ _ call =>
    (inv_of_run started (CarefulNext.run run)).exact_call (exact_of_careful started run) call⟩

/-! ### Runs that compute -/

/-- The open descriptors as a list. -/
def keep (opened : List Int) : Action → List Int
  | .accepted fd => fd :: opened
  | .connected fd _ => fd :: opened
  | .clientClosed fd => opened.filter (· ≠ fd)
  | .serverClosed fd => opened.filter (· ≠ fd)
  | _ => opened

def ofList (proxy : MiProxy) (opened : List Int) : Process := { proxy, opened := {fd | fd ∈ opened} }

theorem keep_opened (actions : List Action) (opened : List Int) :
    {fd | fd ∈ actions.foldl keep opened} = actions.foldl Action.opened {fd | fd ∈ opened} := by
  induction actions generalizing opened with
  | nil => rfl
  | cons action actions ih =>
    rw [List.foldl_cons, List.foldl_cons, ih]
    congr 1
    cases action <;> ext fd <;> simp [keep, Action.opened]

theorem call_ofList {p q : MiProxy} {opened : List Int} {e : Event} {actions : List Action}
    (fresh : ∀ fd ∈ opened, ¬e.Opens fd) (handled : p.dispatch e = .ok (q, actions)) :
    Call (ofList p opened) e actions (ofList q (actions.foldl keep opened)) :=
  ⟨fresh, handled, keep_opened actions opened⟩

instance (fd : Int) (e : Event) : Decidable (e.Opens fd) := by
  cases e <;> unfold Event.Opens <;> infer_instance

instance (p : MiProxy) (e : Event) : Decidable (p.Careful e) := by
  unfold Careful
  split <;> infer_instance

/-- Calls that open what is not open, up to the first that is not careful. -/
def carefully (p : MiProxy) (opened : List Int) : List Event → Exec (MiProxy × List Int)
  | [] => .ok (p, opened)
  | e :: es => do
    if p.Careful e ∧ ∀ fd ∈ opened, ¬e.Opens fd then
      let (q, actions) ← p.dispatch e
      carefully q (actions.foldl keep opened) es
    else .error .undefined

theorem run_of_carefully {p q : MiProxy} {opened opened' : List Int} {es : List Event}
    (ran : carefully p opened es = .ok (q, opened')) :
    Relation.ReflTransGen CarefulNext (ofList p opened) (ofList q opened') := by
  induction es generalizing p opened with
  | nil =>
    cases ran
    exact .refl
  | cons e es ih =>
    unfold carefully at ran
    split at ran
    · rename_i sound
      obtain ⟨⟨m, actions⟩, handled, ran⟩ := bind_ok ran
      exact .head ⟨e, actions, sound.1, call_ofList sound.2 handled⟩ (ih ran)
    · cases ran

def sampleIp : Bytes := text "10.0.0.1"

def sampleStart : Process where
  proxy := { dnsMode := false, defaultWwwIp := text "10.0.0.9", alpha := 1 / 2, masterSocket := 3, dnsSocket := 0 }
  opened := {3}

def sampleClient (fd : Int) : Connection :=
  { clientSocket := fd, serverSocket := -1, clientIp := sampleIp, wwwIp := text "10.0.0.9" }

def sampleServer : SockAddr := { hostname := text "10.0.0.9", port := 80 }

def sampleAccepted : Process where
  proxy := sampleStart.proxy.store sampleIp (sampleClient 5)
  opened := {5, 3}

def sampleAgain : Process where
  proxy := sampleAccepted.proxy.store sampleIp (sampleClient 6)
  opened := {6, 5, 3}

theorem sampleStart_started : Started sampleStart where
  empty ip := by simp [sampleStart]
  opened := by ext fd; simp [sampleStart]
  distinct mode := by cases mode

theorem sample_accept : Call sampleStart (.accept 5 sampleIp (.ok [])) [.accepted 5] sampleAccepted where
  fresh fd open' := by obtain rfl : fd = 3 := open'; simp [Event.Opens]
  handled := by simp [MiProxy.dispatch, handleMasterConnection, sampleStart, sampleAccepted, sampleClient, store]
  opened := rfl

theorem sample_acceptAgain : Call sampleAccepted (.accept 6 sampleIp (.ok [])) [.accepted 6] sampleAgain where
  fresh fd open' := by
    rcases open' with rfl | rfl <;> simp [Event.Opens]
  handled := by simp [MiProxy.dispatch, handleMasterConnection, sampleAccepted, sampleAgain, sampleClient, store]
  opened := rfl

theorem sampleStart_ofList : ofList sampleStart.proxy [3] = sampleStart := by
  unfold ofList sampleStart
  congr 1
  ext fd
  exact List.mem_singleton

/-- Two clients come, the first one asks for a page, its server ends, and then it leaves. -/
def sampleCalls : List Event :=
  [.accept 5 sampleIp (.ok []), .accept 6 (text "10.0.0.2") (.ok []),
    .client sampleIp (some (text "GET / HTTP/1.1\r\n\r\n")) { socket := 7 }, .server sampleIp (some []) {},
    .client sampleIp (some []) {}]

theorem descriptors_sample : ∃ q, Relation.ReflTransGen CarefulNext sampleStart (ofList q [6, 3]) ∧
    (ofList q [6, 3]).Exact ∧
    ∀ e actions t, Call (ofList q [6, 3]) e actions t → (t.Exact ↔ (ofList q [6, 3]).proxy.Careful e) := by
  have left : (carefully sampleStart.proxy [3] sampleCalls).map Prod.snd = .ok [6, 3] := by decide +kernel
  obtain ⟨⟨q, opened⟩, ran, rfl⟩ := map_ok left
  have run := run_of_carefully ran
  rw [sampleStart_ofList] at run
  exact ⟨q, run, descriptors sampleStart_started run⟩

/-- The second client of one address takes the place of the first, whose socket stays open. -/
theorem second_accept_leaks : ¬∀ s t : Process, Started s → Relation.ReflTransGen Next s t → Exact t := by
  intro always
  have first : Next sampleStart sampleAccepted := ⟨_, _, sample_accept⟩
  have second : Next sampleAccepted sampleAgain := ⟨_, _, sample_acceptAgain⟩
  have inv := inv_of_run sampleStart_started (.single first)
  have exact := always _ _ sampleStart_started (.single first)
  have careful := (inv.exact_call exact sample_acceptAgain).mp (always _ _ sampleStart_started (.tail (.single first) second))
  rw [Careful, sampleAccepted, store_here] at careful
  cases careful

end Process

end VStream
