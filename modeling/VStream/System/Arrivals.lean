import VStream.System.Exchange
import VStream.MiProxy.Proxy

/-!
# The two programs over a run

The proxy makes one connection to the nameserver when it starts and sends every
query over it. The nameserver closes a connection behind the first query. The
programs take turns in any order; between two turns each of them waits.
-/

namespace VStream
open Cpp Net Nameserver MiProxy
open Std (TreeMap)

inductive Stage where
  | queued | taken | closed
  deriving DecidableEq

/-- The two programs and what is on its way between them. -/
structure System where
  proxy : MiProxy
  nameserver : Nameserver
  clientIP : Bytes
  /-- The connection that was accepted when `request_dns` was called, until it returns. -/
  asking : Option (Int × Bytes) := none
  stage : Stage := .queued
  query : Bytes := []
  reply : Bytes := []
  asked : Nat := 0
  chosen : List Bytes := []
  returned : List Bytes := []

inductive Turn where
  | accept (newSocket : Int) (ip : Bytes) (sends : List Transfer)
  | client (ip : Bytes) (read : Option Bytes) (calls : RequestCalls)
  | server (ip : Bytes) (read : Option Bytes) (calls : ResponseCalls)
  /-- `handle_dns_response`. -/
  | answer (v : Locals) (recvs : List Transfer)
  /-- The nameserver accepts the proxy's connection, and another one. -/
  | take
  | other (u : Unspecified) (clientIP : Bytes) (s : Sock)
  | serve (u : Unspecified) (recvs sends : List Transfer)

namespace System

/-- The accepted connection makes the proxy send a query. -/
def Asks (s : System) (newSocket : Int) (ip : Bytes) : Prop :=
  s.asking = none ∧ 0 ≤ newSocket ∧ s.proxy.dnsMode = true ∧ s.proxy.clients[ip]? = none

instance (s : System) (newSocket : Int) (ip : Bytes) : Decidable (s.Asks newSocket ip) :=
  inferInstanceAs (Decidable (_ ∧ _ ∧ _ ∧ _))

/-! ### The turns -/

/-- `handle_master_connection`, up to `handle_dns_response` where it asks. What is written to a closed
connection is dropped. -/
def accept (s : System) (newSocket : Int) (ip : Bytes) (sends : List Transfer) : Exec System :=
  if s.asking ≠ none then .ok s
  else if s.Asks newSocket ip then do
    let t ← handleDnsRequest { incoming := s.reply, sends }
    let query := if s.stage = .closed then s.query else s.query ++ t.sent
    return { s with asking := some (newSocket, ip), asked := s.asked + 1, query }
  else do
    let (proxy, _) ← s.proxy.handleMasterConnection newSocket ip (.ok [])
    return { s with proxy }

def handle (s : System) (e : Event) : Exec System :=
  if s.asking ≠ none then .ok s
  else do
    let (proxy, _) ← s.proxy.dispatch e
    return { s with proxy }

/-- There is something to read when bytes have come or the connection is closed. -/
def answer (s : System) (v : Locals) (recvs : List Transfer) : Exec System :=
  match s.asking with
  | none => .ok s
  | some (newSocket, ip) =>
    if s.reply = [] ∧ s.stage ≠ .closed then .ok s
    else do
      let (address, t) ← handleDnsResponse v { incoming := s.reply, recvs }
      let (proxy, _) ← s.proxy.handleMasterConnection newSocket ip (.ok address)
      return { s with proxy, asking := none, reply := t.incoming, returned := s.returned ++ [address] }

def take (s : System) : System := if s.stage = .queued then { s with stage := .taken } else s

/-- The nameserver serves one connection at a time. -/
def other (s : System) (u : Unspecified) (clientIP : Bytes) (sock : Sock) : Exec System :=
  if s.stage = .taken then .ok s
  else do
    let (_, nameserver) ← handleConnection u s.nameserver clientIP sock
    return { s with nameserver }

def choice (s : System) (u : Unspecified) : List Bytes :=
  match selectServer u.begin s.nameserver s.clientIP with
  | .ok (ip, _) => [ip]
  | .error _ => []

def serve (s : System) (u : Unspecified) (recvs sends : List Transfer) : Exec System :=
  if s.stage = .taken ∧ s.query ≠ [] then do
    let (t, nameserver) ← handleConnection u s.nameserver s.clientIP { incoming := s.query, recvs, sends }
    let stage := if t.closed then .closed else .taken
    return { s with nameserver, stage, query := t.incoming, reply := s.reply ++ t.sent
                    chosen := s.chosen ++ s.choice u }
  else .ok s

def step (s : System) : Turn → Exec System
  | .accept newSocket ip sends => s.accept newSocket ip sends
  | .client ip read calls => s.handle (.client ip read calls)
  | .server ip read calls => s.handle (.server ip read calls)
  | .answer v recvs => s.answer v recvs
  | .take => .ok s.take
  | .other u clientIP sock => s.other u clientIP sock
  | .serve u recvs sends => s.serve u recvs sends

def run (s : System) : List Turn → Exec System
  | [] => .ok s
  | turn :: rest => do
    let s ← s.step turn
    s.run rest

/-! ### What the calls of `request_dns` return -/

def Selects (s : System) (begin : TreeMap UInt32 UInt32 → Nat) : Prop :=
  ∃ ip ns, selectServer begin s.nameserver s.clientIP = .ok (ip, ns) ∧ ip ≠ [] ∧ Fits ip

/-- Every query gets what was chosen for it, over a connection that the nameserver has not closed before. -/
structure Agrees (s : System) : Prop where
  unclosed : s.chosen.length ≠ s.asked → s.stage ≠ .closed
  same : s.returned <+: s.chosen
  settled : s.asking = none → s.returned = s.chosen ∧ s.chosen.length = s.asked
  returns : ∀ u v, s.Selects u.begin →
    ∃ t, s.run [.take, .serve u [] [], .answer v []] = .ok t ∧ t.asking = none ∧ t.returned = t.chosen

/-- A connection makes the proxy ask once at most, and no transfer of the query or the reply is cut or fails. -/
def Timely (s : System) : Turn → Prop
  | .accept newSocket ip sends =>
    s.Asks newSocket ip → s.asked = 0 ∧ ({ incoming := s.reply, sends } : Sock).Writable
  | .answer _ recvs => recvs = []
  | .serve u recvs sends => s.Selects u.begin ∧ recvs = [] ∧ ({ incoming := s.query, sends } : Sock).Writable
  | _ => True

def AllTimely : System → List Turn → Prop
  | _, [] => True
  | s, turn :: rest => s.Timely turn ∧ ∀ t, s.step turn = .ok t → AllTimely t rest

structure Started (s : System) : Prop where
  asking : s.asking = none
  stage : s.stage = .queued
  query : s.query = []
  reply : s.reply = []
  asked : s.asked = 0
  chosen : s.chosen = []
  returned : s.returned = []

/-! ### The one query -/

inductive Phase (s : System) : Prop where
  | fresh (asking : s.asking = none) (stage : s.stage ≠ .closed) (query : s.query = []) (reply : s.reply = [])
      (asked : s.asked = 0) (chosen : s.chosen = []) (returned : s.returned = [])
  | asked {newSocket : Int} {ip : Bytes} (asking : s.asking = some (newSocket, ip)) (valid : 0 ≤ newSocket)
      (stage : s.stage ≠ .closed) (query : s.query = Nameserver.query dnsHeader dnsQuestion) (reply : s.reply = [])
      (asked : s.asked = 1) (chosen : s.chosen = []) (returned : s.returned = [])
  | served {newSocket : Int} {ip address : Bytes} (asking : s.asking = some (newSocket, ip)) (valid : 0 ≤ newSocket)
      (stage : s.stage = .closed)
      (reply : ∀ v, handleDnsResponse v { incoming := s.reply } = .ok (address, { incoming := [] }))
      (asked : s.asked = 1) (chosen : s.chosen = [address]) (returned : s.returned = [])
  | done {address : Bytes} (asking : s.asking = none) (stage : s.stage = .closed) (reply : s.reply = [])
      (asked : s.asked = 1) (chosen : s.chosen = [address]) (returned : s.returned = [address])

theorem Started.phase {s : System} (started : Started s) : Phase s := by
  apply Phase.fresh started.asking _ started.query started.reply started.asked started.chosen started.returned
  rw [started.stage]
  decide

theorem Phase.proxy {s : System} (phase : Phase s) (proxy : MiProxy) : Phase { s with proxy } := by
  cases phase with
  | fresh asking stage query reply asked chosen returned =>
    exact .fresh asking stage query reply asked chosen returned
  | asked asking valid stage query reply asked chosen returned =>
    exact .asked asking valid stage query reply asked chosen returned
  | served asking valid stage reply asked chosen returned =>
    exact .served asking valid stage reply asked chosen returned
  | done asking stage reply asked chosen returned => exact .done asking stage reply asked chosen returned

theorem Phase.nameserver {s : System} (phase : Phase s) (nameserver : Nameserver) : Phase { s with nameserver } := by
  cases phase with
  | fresh asking stage query reply asked chosen returned =>
    exact .fresh asking stage query reply asked chosen returned
  | asked asking valid stage query reply asked chosen returned =>
    exact .asked asking valid stage query reply asked chosen returned
  | served asking valid stage reply asked chosen returned =>
    exact .served asking valid stage reply asked chosen returned
  | done asking stage reply asked chosen returned => exact .done asking stage reply asked chosen returned

theorem Phase.take {s : System} (phase : Phase s) : Phase s.take := by
  unfold System.take
  split
  · rename_i queued
    have taken : Stage.taken ≠ .closed := by decide
    cases phase with
    | fresh asking _ query reply asked chosen returned =>
      exact .fresh asking taken query reply asked chosen returned
    | asked asking valid _ query reply asked chosen returned =>
      exact .asked asking valid taken query reply asked chosen returned
    | served _ _ stage => cases queued.symm.trans stage
    | done _ stage => cases queued.symm.trans stage
  · exact phase

theorem Phase.accept {s t : System} {newSocket : Int} {ip : Bytes} {sends : List Transfer} (phase : Phase s)
    (timely : s.Timely (.accept newSocket ip sends)) (accepted : s.accept newSocket ip sends = .ok t) : Phase t := by
  unfold System.accept at accepted
  split at accepted
  · rwa [← Except.ok.inj accepted]
  split at accepted
  · rename_i asks
    obtain ⟨first, writable⟩ := timely asks
    obtain ⟨q, requested, sent⟩ := handleDnsRequest_ok writable
    rw [requested] at accepted
    obtain rfl := Except.ok.inj accepted
    cases phase with
    | fresh asking stage query reply asked chosen returned =>
      have written : s.query ++ q.sent = Nameserver.query dnsHeader dnsQuestion := by
        rw [query, sent.sent]
        rfl
      refine .asked rfl asks.2.1 stage ?_ reply ?_ chosen returned
      · dsimp only
        rw [if_neg stage, written]
      · dsimp only
        rw [asked]
    | asked _ _ _ _ _ asked => omega
    | served _ _ _ _ asked => omega
    | done _ _ _ asked => omega
  · obtain ⟨⟨proxy, actions⟩, -, done⟩ := bind_ok accepted
    obtain rfl := Except.ok.inj done
    exact phase.proxy proxy

theorem Phase.handle {s t : System} {e : Event} (phase : Phase s) (handled : s.handle e = .ok t) : Phase t := by
  unfold System.handle at handled
  split at handled
  · rwa [← Except.ok.inj handled]
  · obtain ⟨⟨proxy, actions⟩, -, done⟩ := bind_ok handled
    obtain rfl := Except.ok.inj done
    exact phase.proxy proxy

theorem Phase.other {s t : System} {u : Unspecified} {clientIP : Bytes} {sock : Sock} (phase : Phase s)
    (served : s.other u clientIP sock = .ok t) : Phase t := by
  unfold System.other at served
  split at served
  · rwa [← Except.ok.inj served]
  · obtain ⟨⟨t, nameserver⟩, -, done⟩ := bind_ok served
    obtain rfl := Except.ok.inj done
    exact phase.nameserver nameserver

theorem handleMasterConnection_dns (p : MiProxy) {newSocket : Int} (valid : 0 ≤ newSocket) (ip address : Bytes) :
    ∃ proxy actions, p.handleMasterConnection newSocket ip (.ok address) = .ok (proxy, actions) := by
  unfold handleMasterConnection
  rw [if_neg (by omega)]
  split
  · exact ⟨_, _, rfl⟩
  · by_cases dns : p.dnsMode = true
    · exact ⟨_, _, by rw [if_pos dns]; rfl⟩
    · exact ⟨_, _, by rw [if_neg dns]; rfl⟩

theorem answer_served {s : System} {newSocket : Int} {ip address : Bytes} (v : Locals)
    (asking : s.asking = some (newSocket, ip)) (valid : 0 ≤ newSocket) (stage : s.stage = .closed)
    (reply : handleDnsResponse v { incoming := s.reply } = .ok (address, { incoming := [] })) :
    ∃ proxy, s.answer v [] = .ok { s with proxy, asking := none, reply := [], returned := s.returned ++ [address] } := by
  obtain ⟨proxy, actions, accepted⟩ := handleMasterConnection_dns s.proxy valid ip address
  refine ⟨proxy, ?_⟩
  unfold System.answer
  rw [asking]
  dsimp only
  rw [if_neg (fun waits => waits.2 stage), reply, ok_bind]
  dsimp only
  rw [accepted]
  rfl

theorem Phase.answer {s t : System} {v : Locals} (phase : Phase s) (answered : s.answer v [] = .ok t) : Phase t := by
  cases phase with
  | fresh asking stage query reply asked chosen returned =>
    unfold System.answer at answered
    rw [asking] at answered
    obtain rfl := Except.ok.inj answered
    exact .fresh asking stage query reply asked chosen returned
  | asked asking valid stage query reply asked chosen returned =>
    unfold System.answer at answered
    rw [asking] at answered
    dsimp only at answered
    rw [if_pos ⟨reply, stage⟩] at answered
    obtain rfl := Except.ok.inj answered
    exact .asked asking valid stage query reply asked chosen returned
  | served asking valid stage reply asked chosen returned =>
    obtain ⟨proxy, done⟩ := answer_served v asking valid stage (reply v)
    obtain rfl := Except.ok.inj (done.symm.trans answered)
    refine .done rfl stage rfl asked chosen ?_
    dsimp only
    rw [returned]
    rfl
  | done asking stage reply asked chosen returned =>
    unfold System.answer at answered
    rw [asking] at answered
    obtain rfl := Except.ok.inj answered
    exact .done asking stage reply asked chosen returned

theorem answer_understood {ip reply : Bytes} (answer : Answer dnsHeader ip reply) (fits : Fits ip) (v : Locals) :
    handleDnsResponse v { incoming := reply } = .ok (ip, { incoming := [] }) := by
  obtain ⟨record, -, -, -, -, data, -, rfl⟩ := answer
  have whole : ({ incoming := frame (DNSHeader.encode { dnsHeader with AA := true }) ++ frame record.encode } : Sock).incoming
      = frame (DNSHeader.encode { dnsHeader with AA := true }) ++ frame record.encode ++ [] := (List.append_nil _).symm
  rw [handleDnsResponse_record v whole rfl, fits.cString data]
  rfl

theorem query_ne_nil : Nameserver.query dnsHeader dnsQuestion ≠ [] := by
  intro none
  have size := congrArg List.length none
  simp [Nameserver.query, frame] at size

/-- The nameserver answers the query with what it chooses for it, and closes the connection. -/
theorem serve_asked {s : System} {u : Unspecified} {sends : List Transfer} (stage : s.stage = .taken)
    (query : s.query = Nameserver.query dnsHeader dnsQuestion) (reply : s.reply = []) (selects : s.Selects u.begin)
    (writable : ({ incoming := s.query, sends } : Sock).Writable) :
    ∃ ip nameserver rest reply, s.serve u [] sends =
        .ok { s with nameserver, stage := .closed, query := rest, reply, chosen := s.chosen ++ [ip] } ∧
      ∀ v, handleDnsResponse v { incoming := reply } = .ok (ip, { incoming := [] }) := by
  obtain ⟨ip, ns, selected, found, fits⟩ := selects
  have writable' : ({ incoming := [], sends } : Sock).Writable := writable
  obtain ⟨t, reply', answered, closed, sent, answer⟩ :=
    answerQuery_some u s.clientIP dnsHeader dnsQuestion_name selected found fits writable'
  have handled : handleConnection u s.nameserver s.clientIP { incoming := s.query, sends } =
      answerQuery u s.nameserver s.clientIP dnsHeader dnsQuestion { incoming := [], sends } :=
    handleConnection_dnsQuestion u query rfl
  have choice : s.choice u = [ip] := by
    unfold System.choice
    rw [selected]
  refine ⟨ip, { ns with log := ns.log ++ logLine s.clientIP ip }, t.incoming, reply', ?_, answer_understood answer fits⟩
  unfold System.serve
  rw [if_pos ⟨stage, by rw [query]; exact query_ne_nil⟩, handled, answered, ok_bind]
  dsimp only
  rw [if_pos closed, sent, reply, choice]
  rfl

theorem Phase.serve {s t : System} {u : Unspecified} {sends : List Transfer} (phase : Phase s)
    (selects : s.Selects u.begin) (writable : ({ incoming := s.query, sends } : Sock).Writable)
    (served : s.serve u [] sends = .ok t) : Phase t := by
  by_cases idle : ¬ (s.stage = .taken ∧ s.query ≠ [])
  · unfold System.serve at served
    rw [if_neg idle] at served
    rwa [← Except.ok.inj served]
  obtain ⟨taken, some⟩ := not_not.mp idle
  cases phase with
  | fresh _ _ query => exact absurd query some
  | asked asking valid stage query reply asked chosen returned =>
    obtain ⟨ip, ns, rest, reply', done, understood⟩ := serve_asked taken query reply selects writable
    obtain rfl := Except.ok.inj (done.symm.trans served)
    refine .served asking valid rfl understood asked ?_ returned
    dsimp only
    rw [chosen]
    rfl
  | served _ _ stage => cases taken.symm.trans stage
  | done _ stage => cases taken.symm.trans stage

theorem Phase.step {s t : System} {turn : Turn} (phase : Phase s) (timely : s.Timely turn)
    (done : s.step turn = .ok t) : Phase t := by
  cases turn with
  | accept newSocket ip sends => exact phase.accept timely done
  | client ip read calls => exact phase.handle done
  | server ip read calls => exact phase.handle done
  | answer v recvs =>
    obtain rfl : recvs = [] := timely
    exact phase.answer done
  | take =>
    obtain rfl := Except.ok.inj done
    exact phase.take
  | other u clientIP sock => exact phase.other done
  | serve u recvs sends =>
    obtain ⟨selects, rfl, writable⟩ := timely
    exact phase.serve selects writable done

theorem Phase.run {s t : System} {turns : List Turn} (phase : Phase s) (timely : AllTimely s turns)
    (done : s.run turns = .ok t) : Phase t := by
  induction turns generalizing s with
  | nil => rwa [← Except.ok.inj done]
  | cons turn rest ih =>
    obtain ⟨s', stepped, done⟩ := bind_ok done
    exact ih (phase.step timely.1 stepped) (timely.2 s' stepped) done

/-! ### Every phase agrees -/

theorem answer_idle {s : System} (v : Locals) (recvs : List Transfer) (asking : s.asking = none) :
    s.answer v recvs = .ok s := by
  unfold System.answer
  rw [asking]

theorem serve_idle {s : System} (u : Unspecified) (recvs sends : List Transfer)
    (idle : s.stage = .closed ∨ s.query = []) : s.serve u recvs sends = .ok s := by
  unfold System.serve
  rw [if_neg]
  rintro ⟨taken, some⟩
  rcases idle with closed | none
  · cases taken.symm.trans closed
  · exact some none

theorem take_closed {s : System} (stage : s.stage = .closed) : s.take = s := by
  unfold System.take
  rw [stage]
  rfl

theorem take_open {s : System} (stage : s.stage ≠ .closed) : s.take = { s with stage := .taken } := by
  unfold System.take
  split
  · rfl
  · rename_i left
    have taken : s.stage = .taken := by
      cases here : s.stage with
      | queued => exact absurd here left
      | taken => rfl
      | closed => exact absurd here stage
    rw [← taken]

theorem run_three {s : System} (first second third : Turn) : s.run [first, second, third] = (do
    let s ← s.step first
    let s ← s.step second
    s.step third) := by
  cases one : s.step first with
  | error e => simp [System.run, one]
  | ok s₁ =>
    cases two : s₁.step second with
    | error e => simp [System.run, one, two]
    | ok s₂ => cases three : s₂.step third <;> simp [System.run, one, two, three]

theorem Phase.returns {s : System} (phase : Phase s) (u : Unspecified) (v : Locals) (selects : s.Selects u.begin) :
    ∃ t, s.run [.take, .serve u [] [], .answer v []] = .ok t ∧ t.asking = none ∧ t.returned = t.chosen := by
  rw [run_three]
  change ∃ t, (s.take.serve u [] [] >>= fun s => s.answer v []) = .ok t ∧ _
  cases phase with
  | fresh asking stage query reply asked chosen returned =>
    rw [take_open stage, serve_idle (s := { s with stage := .taken }) u [] [] (.inr query), ok_bind,
      answer_idle (s := { s with stage := .taken }) v [] asking]
    exact ⟨_, rfl, asking, returned.trans chosen.symm⟩
  | asked asking valid stage query reply asked chosen returned =>
    have writable : ({ incoming := s.query, sends := [] } : Sock).Writable := by simp [Sock.Writable]
    obtain ⟨address, ns, rest, reply', served, understood⟩ :=
      serve_asked (s := { s with stage := .taken }) rfl query reply selects writable
    obtain ⟨proxy, answered⟩ := answer_served v (s := { s with nameserver := ns, stage := .closed, query := rest
                                                               reply := reply', chosen := s.chosen ++ [address] })
      asking valid rfl (understood v)
    rw [take_open stage, served, ok_bind, answered]
    refine ⟨_, rfl, rfl, ?_⟩
    dsimp only
    rw [chosen, returned]
  | served asking valid stage reply asked chosen returned =>
    obtain ⟨proxy, answered⟩ := answer_served v asking valid stage (reply v)
    rw [take_closed stage, serve_idle u [] [] (.inl stage), ok_bind, answered]
    refine ⟨_, rfl, rfl, ?_⟩
    dsimp only
    rw [chosen, returned]
    rfl
  | done asking stage reply asked chosen returned =>
    rw [take_closed stage, serve_idle u [] [] (.inl stage), ok_bind, answer_idle v [] asking]
    exact ⟨s, rfl, asking, returned.trans chosen.symm⟩

theorem Phase.agrees {s : System} (phase : Phase s) : Agrees s := by
  have returns := fun u v => phase.returns u v
  cases phase with
  | fresh asking stage query reply asked chosen returned =>
    have same : s.returned = s.chosen := returned.trans chosen.symm
    exact ⟨fun _ => stage, same ▸ List.prefix_rfl, fun _ => ⟨same, by rw [chosen, asked]; rfl⟩, returns⟩
  | asked asking valid stage query reply asked chosen returned =>
    have same : s.returned = s.chosen := returned.trans chosen.symm
    refine ⟨fun _ => stage, same ▸ List.prefix_rfl, fun idle => ?_, returns⟩
    cases idle.symm.trans asking
  | served asking valid stage reply asked chosen returned =>
    refine ⟨fun open' => absurd (by rw [chosen, asked]; rfl) open', returned ▸ List.nil_prefix, fun idle => ?_, returns⟩
    cases idle.symm.trans asking
  | done asking stage reply asked chosen returned =>
    have same : s.returned = s.chosen := returned.trans chosen.symm
    have all : s.chosen.length = s.asked := by rw [chosen, asked]; rfl
    exact ⟨fun open' => absurd all open', same ▸ List.prefix_rfl, fun _ => ⟨same, all⟩, returns⟩

/-! ### A second query -/

/-- A `recv` from a connection that is closed returns. -/
theorem answer_nothing {s : System} {newSocket : Int} {ip : Bytes} (v : Locals) {recvs : List Transfer}
    (returns : .blocked ∉ recvs) (asking : s.asking = some (newSocket, ip)) (stage : s.stage = .closed)
    (reply : s.reply = []) : s.step (.answer v recvs) = .error (.exit 1) := by
  change s.answer v recvs = _
  unfold System.answer
  rw [asking]
  dsimp only
  rw [if_neg (fun waits => waits.2 stage), reply]
  unfold handleDnsResponse
  rw [recvSize_end rfl fun stuck => returns (List.mem_of_head? stuck)]
  rfl

/-- A query behind the first one is written to a closed connection: the proxy ends there, or where it reads the reply. -/
theorem Phase.late {s t : System} {newSocket : Int} {ip : Bytes} {sends : List Transfer} (phase : Phase s)
    (late : s.asked ≠ 0) (asks : s.Asks newSocket ip) (accepted : s.step (.accept newSocket ip sends) = .ok t) :
    ¬ Agrees t ∧ ∀ v recvs, .blocked ∉ recvs → t.step (.answer v recvs) = .error (.exit 1) := by
  change s.accept newSocket ip sends = .ok t at accepted
  unfold System.accept at accepted
  rw [if_neg (not_not.mpr asks.1), if_pos asks] at accepted
  obtain ⟨q, -, done⟩ := bind_ok accepted
  obtain rfl := Except.ok.inj done
  cases phase with
  | fresh _ _ _ _ asked => exact absurd asked late
  | asked asking => cases asks.1.symm.trans asking
  | served asking => cases asks.1.symm.trans asking
  | done _ stage reply asked chosen =>
    constructor
    · intro agrees
      apply agrees.unclosed _ stage
      dsimp only
      simp [chosen, asked]
    · intro v recvs returns
      exact answer_nothing v returns rfl stage reply

/-- As long as the proxy asks once at most, every query gets what was chosen for it; the second one gets nothing. -/
theorem queries_agree {s t : System} (started : Started s) {turns : List Turn} (timely : AllTimely s turns)
    (done : s.run turns = .ok t) :
    Agrees t ∧ ∀ newSocket ip sends t', t.asked ≠ 0 → t.Asks newSocket ip →
      t.step (.accept newSocket ip sends) = .ok t' →
        ¬ Agrees t' ∧ ∀ v recvs, .blocked ∉ recvs → t'.step (.answer v recvs) = .error (.exit 1) := by
  have phase := started.phase.run timely done
  exact ⟨phase.agrees, fun newSocket ip sends t' late asks accepted => phase.late late asks accepted⟩

/-! ### Two arrivals -/

def sampleSystem : System where
  proxy := { dnsMode := true, defaultWwwIp := [], alpha := 1, masterSocket := 3, dnsSocket := 4 }
  nameserver := { mode := .RR, rr := { hosts := [text "10.0.0.2"] } }
  clientIP := text "10.0.0.1"

theorem sampleSystem_started : Started sampleSystem := ⟨rfl, rfl, rfl, rfl, rfl, rfl, rfl⟩

def sampleTurns : List Turn :=
  [.accept 5 (text "10.0.0.7") [], .take, .serve sampleUnspecified [] [], .answer sampleLocals []]

theorem sample_selected : selectServer sampleUnspecified.begin sampleSystem.nameserver sampleSystem.clientIP =
    .ok (text "10.0.0.2", sampleSystem.nameserver) := rfl

theorem sampleTurns_timely : AllTimely sampleSystem sampleTurns := by
  have writable : ∀ incoming : Bytes, ({ incoming, sends := [] } : Sock).Writable := by simp [Sock.Writable]
  refine ⟨fun _ => ⟨rfl, writable []⟩, ?_⟩
  intro t accepted
  obtain ⟨q, -, done⟩ := bind_ok (show handleDnsRequest { incoming := [], sends := [] } >>= _ = .ok t from accepted)
  obtain rfl := Except.ok.inj done
  refine ⟨trivial, ?_⟩
  intro t took
  obtain rfl := Except.ok.inj took
  refine ⟨⟨⟨text "10.0.0.2", _, sample_selected, by decide, by decide, by decide⟩, rfl, writable _⟩, ?_⟩
  intro t served
  exact ⟨rfl, fun _ _ => trivial⟩

theorem queries_agree_sample : ∃ t, sampleSystem.run sampleTurns = .ok t ∧ t.returned = [text "10.0.0.2"] ∧
    Agrees t := by
  have contents : (sampleSystem.run sampleTurns).map (fun t => t.returned) = .ok [text "10.0.0.2"] := by decide +kernel
  cases done : sampleSystem.run sampleTurns with
  | error e =>
    rw [done] at contents
    cases contents
  | ok t =>
    rw [done] at contents
    exact ⟨t, rfl, Except.ok.inj contents, (queries_agree sampleSystem_started sampleTurns_timely done).1⟩

/-- A second client arrives: the nameserver would choose an address again, but the proxy asks on the connection that
is closed. It exits, or dies of the second `send`. -/
theorem second_query_unanswered : Started sampleSystem ∧
    ∃ t, sampleSystem.run (sampleTurns ++ [.accept 6 (text "10.0.0.8") []]) = .ok t ∧ t.asked = 2 ∧
      t.choice sampleUnspecified = [text "10.0.0.2"] ∧ ¬ Agrees t ∧
      (∀ v recvs, .blocked ∉ recvs → t.step (.answer v recvs) = .error (.exit 1)) ∧
      (sampleSystem.run (sampleTurns ++ [.accept 6 (text "10.0.0.8") [.upTo 4, .broken]])).map (fun t => t.asked) =
        .error .killed := by
  refine ⟨sampleSystem_started, ?_⟩
  have counts : (sampleSystem.run (sampleTurns ++ [.accept 6 (text "10.0.0.8") []])).map (fun t =>
      (t.asked, t.chosen.length, t.choice sampleUnspecified)) = .ok (2, 1, [text "10.0.0.2"]) := by decide +kernel
  have wire : (sampleSystem.run (sampleTurns ++ [.accept 6 (text "10.0.0.8") []])).map (fun t =>
      (t.asking, t.stage, t.reply)) = .ok (some (6, text "10.0.0.8"), .closed, []) := by decide +kernel
  cases done : sampleSystem.run (sampleTurns ++ [.accept 6 (text "10.0.0.8") []]) with
  | error e =>
    rw [done] at counts
    cases counts
  | ok t =>
    rw [done] at counts wire
    obtain ⟨asked, chosen, choice⟩ := Prod.mk.inj (Except.ok.inj counts) |>.imp id Prod.mk.inj
    obtain ⟨asking, stage, reply⟩ := Prod.mk.inj (Except.ok.inj wire) |>.imp id Prod.mk.inj
    refine ⟨t, rfl, asked, choice, ?_, fun v recvs returns => answer_nothing v returns asking stage reply,
      by decide +kernel⟩
    intro agrees
    apply agrees.unclosed _ stage
    rw [chosen, asked]
    decide

end System

end VStream
