import VStream.MiProxy.Containment
import VStream.MiProxy.Dialogue

/-!
# One client and its server

A client that waits for each response before it asks again gets for every
request one response that its server has sent, however the two streams are read
and whatever the proxy does for other clients in between.
-/

namespace VStream
open Cpp Net Connection MiProxy
open Std (TreeMap)

/-- The proxy, with the streams of one of its clients and of the server that is asked for it. -/
structure Session where
  process : MiProxy
  socket : Int
  /-- What the client has sent and is not read yet. -/
  unread : Bytes := []
  /-- What the server has sent and is not read yet. -/
  coming : Bytes := []
  requests : List Request := []
  messages : List Bytes := []
  shown : Bytes := []

namespace Session

inductive Turn where
  | ask (q : Request)
  | event (e : Event)

/-- What is sent on the client's descriptor. -/
def received (socket : Int) : List Action → Bytes
  | [] => []
  | .answered fd response :: rest => (if fd = socket then response else []) ++ received socket rest
  | _ :: rest => received socket rest

def toServer : Action → Option Bytes
  | .forwarded _ message => some message
  | .intercepted _ message => some message
  | _ => none

def read (s : Session) : Event → Session
  | .client _ (some data) _ => { s with unread := s.unread.drop data.length }
  | .server _ (some data) _ => { s with coming := s.coming.drop data.length }
  | _ => s

section
variable (ip : Bytes) (server : List Bytes → Response)

/-- The server answers every message, as the messages so far make it. -/
def deliver (s : Session) (message : Bytes) : Session :=
  { s with messages := s.messages ++ [message], coming := s.coming ++ (server (s.messages ++ [message])).bytes }

def next (s : Session) : Turn → Exec Session
  | .ask q => .ok { s with unread := s.unread ++ q.bytes, requests := s.requests ++ [q] }
  | .event e => do
    let (process, actions) ← s.process.dispatch e
    let s := { s with process, shown := s.shown ++ received s.socket actions }
    return if e.ip = ip then (actions.filterMap toServer).foldl (deliver server) (s.read e) else s

def run (s : Session) : List Turn → Exec Session
  | [] => .ok s
  | turn :: rest => do
    let s ← s.next ip server turn
    s.run rest

/-! ### What a client can rely on -/

/-- One response for every request: that to the forwarded message, or, behind the response to the manifest request,
that to the no-list message. -/
inductive Answers : List Request → List Bytes → Bytes → Prop where
  | nil : Answers [] [] []
  | page {requests : List Request} {messages : List Bytes} {shown : Bytes} (before : Answers requests messages shown)
      {q : Request} {message : Bytes} {bitrates : List Int} (ordinary : noList q.bytes = none)
      (forwarded : Rewritten bitrates q.bytes message) :
      Answers (requests ++ [q]) (messages ++ [message]) (shown ++ (server (messages ++ [message])).bytes)
  | manifest {requests : List Request} {messages : List Bytes} {shown : Bytes}
      (before : Answers requests messages shown) {q : Request} {message asked : Bytes} {bitrates : List Int}
      (found : noList q.bytes = some asked) (forwarded : Rewritten bitrates q.bytes message) :
      Answers (requests ++ [q]) (messages ++ [message] ++ [asked])
        (shown ++ (server (messages ++ [message] ++ [asked])).bytes)

/-- All but the last request are answered, and that one is too when nothing is left to read. -/
structure Served (s : Session) : Prop where
  answered : ∃ requests messages, Answers server requests messages s.shown ∧ requests <+: s.requests ∧
    messages <+: s.messages ∧ s.requests.length ≤ requests.length + 1
  settled : s.unread = [] → s.coming = [] → Answers server s.requests s.messages s.shown

def HasAll (s : Session) : Prop :=
  ∃ responses : List Response, responses.length = s.requests.length ∧ s.shown = Response.concat responses

def Reads (s : Session) : Event → Prop
  | .client _ (some data) _ => data ≠ [] ∧ data.length ≤ 1024 ∧ data <+: s.unread
  | .server _ (some data) _ => data ≠ [] ∧ data.length ≤ 1024 ∧ data <+: s.coming
  | _ => False

/-- No chunk is asked for before there are bitrates, and a manifest is one. -/
def Lists (p : MiProxy) : Event → Prop
  | .client ip (some data) _ => ∀ conn, p.clients[ip]? = some conn → Asks conn data → ¬ (hearing conn data).Unlisted
  | .server ip (some data) _ =>
    ∀ conn, p.clients[ip]? = some conn → Responds conn data → ¬ BadBitrates (receiving conn data)
  | _ => True

/-- The client waits for its responses; no call fails, and none opens the client's descriptor again. -/
def Allowed (s : Session) : Turn → Prop
  | .ask _ => s.HasAll
  | .event e => ¬ s.process.Refused e ∧
    if e.ip = ip then s.Reads e ∧ Lists s.process e else ¬ s.process.Unforeseen e ∧ ¬ e.Opens s.socket

def AllAllowed : Session → List Turn → Prop
  | _, [] => True
  | s, turn :: rest => s.Allowed ip turn ∧ ∀ t, s.next ip server turn = .ok t → AllAllowed t rest

/-- The client's connection was accepted just now. -/
structure Started (s : Session) : Prop where
  keyed : s.process.Keyed
  entry : ∃ wwwIp, s.process.clients[ip]? = some (fresh s.socket ip wwwIp)
  apart : ∀ other conn, other ≠ ip → s.process.clients[other]? = some conn → conn.clientSocket ≠ s.socket
  unread : s.unread = []
  coming : s.coming = []
  requests : s.requests = []
  messages : s.messages = []
  shown : s.shown = []

/-! ### The invariant -/

structure Quiet (conn : Connection) : Prop where
  message : conn.serverMessage = []
  length : conn.serverMessageLen = 0
  kept : conn.noListMessage = []

/-- The response to the last message is being read; the request behind it is not answered yet. -/
structure Receiving (s : Session) (conn : Connection) : Prop where
  heard : conn.clientMessage = []
  unread : s.unread = []
  connected : conn.serverSocket ≠ -1
  split : (server s.messages).bytes = conn.serverMessage ++ s.coming
  more : s.coming ≠ []
  length : conn.serverMessageLen = (server s.messages).known conn.serverMessage
  before : ∃ requests q messages, s.requests = requests ++ [q] ∧ messages <+: s.messages ∧
    Answers server requests messages s.shown

inductive Stage (s : Session) (conn : Connection) : Prop where
  | idle (quiet : Quiet conn) (heard : conn.clientMessage = []) (unread : s.unread = []) (coming : s.coming = [])
      (answers : Answers server s.requests s.messages s.shown)
  | asking {requests : List Request} {q : Request} (quiet : Quiet conn) (coming : s.coming = [])
      (last : s.requests = requests ++ [q]) (split : q.bytes = conn.clientMessage ++ s.unread) (more : s.unread ≠ [])
      (answers : Answers server requests s.messages s.shown)
  | passing (receiving : Receiving server s conn) (plain : conn.noListMessage = [])
      (answers : Answers server s.requests s.messages (s.shown ++ (server s.messages).bytes))
  | withheld (receiving : Receiving server s conn) (kept : conn.noListMessage ≠ [])
      (answers : Answers server s.requests (s.messages ++ [conn.noListMessage])
        (s.shown ++ (server (s.messages ++ [conn.noListMessage])).bytes))

structure Inv (s : Session) : Prop where
  keyed : s.process.Keyed
  apart : ∀ other conn, other ≠ ip → s.process.clients[other]? = some conn → conn.clientSocket ≠ s.socket
  entry : ∃ conn, s.process.clients[ip]? = some conn ∧ conn.clientSocket = s.socket ∧ Stage server s conn

end

section
variable {ip : Bytes} {server : List Bytes → Response} {s : Session} {conn : Connection}

theorem Started.inv (started : Started ip s) : Inv ip server s := by
  obtain ⟨wwwIp, entry⟩ := started.entry
  refine ⟨started.keyed, started.apart, _, entry, rfl, ?_⟩
  apply Stage.idle ⟨rfl, rfl, rfl⟩ rfl started.unread started.coming
  rw [started.requests, started.messages, started.shown]
  exact .nil

theorem Answers.responses {requests : List Request} {messages : List Bytes} {shown : Bytes}
    (answers : Answers server requests messages shown) :
    ∃ responses : List Response, responses.length = requests.length ∧ shown = Response.concat responses := by
  have more : ∀ {responses : List Response} {n : Nat} {shown : Bytes} (r : Response), responses.length = n →
      shown = Response.concat responses →
      (responses ++ [r]).length = n + 1 ∧ shown ++ r.bytes = Response.concat (responses ++ [r]) := by
    rintro responses n shown r rfl rfl
    rw [Response.concat_append, List.length_append]
    exact ⟨rfl, by simp [Response.concat]⟩
  induction answers with
  | nil => exact ⟨[], rfl, rfl⟩
  | page before ordinary forwarded ih =>
    obtain ⟨responses, count, whole⟩ := ih
    rw [List.length_append]
    exact ⟨_, more _ count whole⟩
  | manifest before found forwarded ih =>
    obtain ⟨responses, count, whole⟩ := ih
    rw [List.length_append]
    exact ⟨_, more _ count whole⟩

theorem HasAll.contra (all : s.HasAll) {requests : List Request} {q : Request} {messages : List Bytes}
    (last : s.requests = requests ++ [q]) (answers : Answers server requests messages s.shown) : False := by
  obtain ⟨responses, count, whole⟩ := all
  obtain ⟨responses', count', whole'⟩ := answers.responses
  have same := Response.concat_length (whole.symm.trans whole')
  rw [last, List.length_append, List.length_singleton] at count
  omega

theorem Stage.ask (stage : Stage server s conn) (all : s.HasAll) (q : Request) :
    Stage server { s with unread := s.unread ++ q.bytes, requests := s.requests ++ [q] } conn := by
  cases stage with
  | idle quiet heard unread coming answers =>
    have whole : s.unread ++ q.bytes = q.bytes := by rw [unread]; rfl
    refine .asking quiet coming rfl ?_ ?_ answers
    · dsimp only
      rw [heard, whole]
      rfl
    · dsimp only
      rw [whole, Request.bytes]
      exact List.append_ne_nil_of_right_ne_nil _ (by decide)
  | asking quiet coming last split more answers => exact (all.contra last answers).elim
  | passing receiving plain answers =>
    obtain ⟨requests, q, messages, last, -, before⟩ := receiving.before
    exact (all.contra last before).elim
  | withheld receiving kept answers =>
    obtain ⟨requests, q, messages, last, -, before⟩ := receiving.before
    exact (all.contra last before).elim

/-! ### Reads -/

theorem forwarded_only {calls : RequestCalls} {serverSocket : Int} {opened : List Action}
    (reaches : Reaches conn calls serverSocket opened) (fd socket : Int) (data message : Bytes) :
    (Action.heard fd data :: (opened ++ [.forwarded serverSocket message])).filterMap toServer = [message] ∧
      received socket (.heard fd data :: (opened ++ [.forwarded serverSocket message])) = [] ∧ serverSocket ≠ -1 := by
  cases reaches with
  | old connected => exact ⟨rfl, rfl, connected⟩
  | new unconnected valid => exact ⟨rfl, rfl, by omega⟩

theorem Receiving.start (coming : s.coming = []) (unread : s.unread = []) (heard : conn.clientMessage = [])
    (connected : conn.serverSocket ≠ -1) (fresh : conn.serverMessage = [] ∧ conn.serverMessageLen = 0)
    (before : ∃ requests q messages, s.requests = requests ++ [q] ∧ messages <+: s.messages ∧
      Answers server requests messages s.shown) (message : Bytes) : Receiving server (deliver server s message) conn := by
  have arrived : (deliver server s message).coming = (server (s.messages ++ [message])).bytes := by
    rw [deliver, coming]
    rfl
  obtain ⟨requests, q, messages, last, front, answers⟩ := before
  refine ⟨heard, unread, connected, ?_, ?_, ?_, requests, q, messages, last, ?_, answers⟩
  · rw [arrived, fresh.1]
    rfl
  · rw [arrived]
    exact Response.bytes_ne_nil _
  · rw [fresh.1, fresh.2, Dialogue.known_nil]
  · exact front.trans (List.prefix_append _ _)

theorem Receiving.continued (receiving : Receiving server s conn) {data rest : Bytes}
    (split : (server s.messages).bytes = conn.serverMessage ++ data ++ rest) (more : rest ≠ []) {conn' : Connection}
    (heard : conn'.clientMessage = conn.clientMessage) (same : conn'.serverSocket = conn.serverSocket)
    (message : conn'.serverMessage = conn.serverMessage ++ data)
    (length : conn'.serverMessageLen = (server s.messages).known (conn.serverMessage ++ data)) (process : MiProxy) :
    Receiving server { s with process, coming := rest } conn' where
  heard := heard.trans receiving.heard
  unread := receiving.unread
  connected := same ▸ receiving.connected
  split := by
    rw [message]
    exact split
  more := more
  length := by rw [length, message]
  before := receiving.before

theorem Stage.requested {requests : List Request} {q : Request} (quiet : Quiet conn) (last : s.requests = requests ++ [q])
    (answers : Answers server requests s.messages s.shown) {message : Bytes} {bitrates : List Int}
    (forwarded : Rewritten bitrates q.bytes message) {conn' : Connection}
    (receiving : Receiving server (deliver server s message) conn')
    (kept : conn'.noListMessage = (noList q.bytes).getD conn.noListMessage) :
    Stage server (deliver server s message) conn' := by
  have last' : (deliver server s message).requests = requests ++ [q] := last
  cases found : noList q.bytes with
  | none =>
    have plain : conn'.noListMessage = [] := by
      rw [kept, found]
      exact quiet.kept
    apply Stage.passing receiving plain
    rw [last']
    exact answers.page found forwarded
  | some asked =>
    have kept' : conn'.noListMessage = asked := by
      rw [kept, found]
      rfl
    apply Stage.withheld receiving
    · rw [kept']
      exact noList_ne_nil found
    · rw [kept', last']
      exact answers.manifest found forwarded

theorem Stage.clientRead (stage : Stage server s conn) (socket : conn.clientSocket = s.socket)
    (entry : s.process.clients[ip]? = some conn) {data rest : Bytes} (sent : s.unread = data ++ rest)
    {calls : RequestCalls} {process : MiProxy} {actions : List Action}
    (step : Step s.process (.client ip (some data) calls) actions process) (nonempty : data ≠ []) :
    ∃ conn', process.clients[ip]? = some conn' ∧ conn'.clientSocket = s.socket ∧
      Stage server ((actions.filterMap toServer).foldl (deliver server)
        { s with process, shown := s.shown ++ received s.socket actions, unread := rest }) conn' := by
  obtain ⟨requests, q, quiet, coming, last, split, answers⟩ : ∃ requests q, Quiet conn ∧ s.coming = [] ∧
      s.requests = requests ++ [q] ∧ q.bytes = conn.clientMessage ++ s.unread ∧
      Answers server requests s.messages s.shown := by
    have some : s.unread ≠ [] := by
      rw [sent]
      exact List.append_ne_nil_of_left_ne_nil nonempty rest
    cases stage with
    | idle _ _ unread => exact absurd unread some
    | asking quiet coming last split more answers => exact ⟨_, _, quiet, coming, last, split, answers⟩
    | passing receiving => exact absurd receiving.unread some
    | withheld receiving => exact absurd receiving.unread some
  rw [sent, ← List.append_assoc] at split
  cases step with
  | idle nothing => cases entry.symm.trans nothing
  | clientLeft => exact absurd rfl nonempty
  | heard entry' some more =>
    obtain rfl := Option.some.inj (entry.symm.trans entry')
    refine ⟨_, store_here _ _ _, socket, ?_⟩
    refine .asking ⟨quiet.message, quiet.length, quiet.kept⟩ coming last split ?_ ?_
    · rintro rfl
      rw [List.append_nil] at split
      exact q.ends (split ▸ more)
    · rw [show received s.socket _ = [] from rfl, List.append_nil]
      exact answers
  | requested entry' some ended reaches rewritten =>
    obtain rfl := Option.some.inj (entry.symm.trans entry')
    obtain ⟨message, silent, connected⟩ := forwarded_only reaches conn.clientSocket s.socket data _
    obtain rfl : rest = [] := by
      by_contra more
      exact ended (q.find_blankLine_part split more)
    rw [List.append_nil] at split
    rw [← split] at rewritten
    refine ⟨_, store_here _ _ _, socket, ?_⟩
    rw [message, silent, List.append_nil, List.foldl_cons, List.foldl_nil]
    apply Stage.requested (s := { s with process := _, unread := [] }) quiet last answers rewritten
    · apply Receiving.start
      · exact coming
      · rfl
      · rfl
      · exact connected
      · exact ⟨quiet.message, quiet.length⟩
      · exact ⟨requests, q, s.messages, last, List.prefix_rfl, answers⟩
    · rw [split]

theorem Stage.receiving (stage : Stage server s conn) (some : s.coming ≠ []) : Receiving server s conn := by
  cases stage with
  | idle _ _ _ coming => exact absurd coming some
  | asking _ coming => exact absurd coming some
  | passing receiving => exact receiving
  | withheld receiving => exact receiving

/-- A response that has been read whole goes to the client, or the no-list message to the server. -/
theorem Stage.serverRead (stage : Stage server s conn) (socket : conn.clientSocket = s.socket)
    (entry : s.process.clients[ip]? = some conn) {data rest : Bytes} (sent : s.coming = data ++ rest)
    {calls : ResponseCalls} {process : MiProxy} {actions : List Action}
    (step : Step s.process (.server ip (some data) calls) actions process) (nonempty : data ≠ []) :
    ∃ conn', process.clients[ip]? = some conn' ∧ conn'.clientSocket = s.socket ∧
      Stage server ((actions.filterMap toServer).foldl (deliver server)
        { s with process, shown := s.shown ++ received s.socket actions, coming := rest }) conn' := by
  have some : s.coming ≠ [] := by
    rw [sent]
    exact List.append_ne_nil_of_left_ne_nil nonempty rest
  have receiving := stage.receiving some
  have split : (server s.messages).bytes = conn.serverMessage ++ data ++ rest := by
    rw [receiving.split, sent, List.append_assoc]
  have silent : s.shown ++ [] = s.shown := List.append_nil _
  cases step with
  | idle nothing => exact absurd (nothing conn entry) receiving.connected
  | serverLeft => exact absurd rfl nonempty
  | receiving entry' connected _ waits =>
    obtain rfl := Option.some.inj (entry.symm.trans entry')
    rw [receiving.length] at waits
    obtain ⟨rfl, more⟩ := (server s.messages).known_of_waits split waits
    refine ⟨_, store_here _ _ _, socket, ?_⟩
    rw [show received s.socket [] = [] from rfl, silent]
    cases stage with
    | idle _ _ _ coming => exact absurd coming some
    | asking _ coming => exact absurd coming some
    | passing _ plain answers =>
      refine .passing ?_ plain answers
      apply receiving.continued split more <;> rfl
    | withheld _ kept answers =>
      refine .withheld ?_ kept answers
      apply receiving.continued split more <;> rfl
  | intercepted entry' connected _ complete kept =>
    obtain rfl := Option.some.inj (entry.symm.trans entry')
    rw [receiving.length] at complete
    obtain rfl := (server s.messages).rest_of_complete split complete
    refine ⟨_, store_here _ _ _, socket, ?_⟩
    cases stage with
    | idle _ _ _ coming => exact absurd coming some
    | asking _ coming => exact absurd coming some
    | passing _ plain => exact absurd plain kept
    | withheld _ _ answers =>
      change Stage server (deliver server { s with process := _, shown := s.shown ++ [], coming := [] }
        conn.noListMessage) _
      rw [silent]
      refine .passing ?_ rfl answers
      apply Receiving.start
      · rfl
      · exact receiving.unread
      · exact receiving.heard
      · exact connected
      · exact ⟨rfl, rfl⟩
      · exact receiving.before
  | answered entry' connected _ complete plain =>
    obtain rfl := Option.some.inj (entry.symm.trans entry')
    rw [receiving.length] at complete
    obtain rfl := (server s.messages).rest_of_complete split complete
    rw [List.append_nil] at split
    have response : received s.socket [.answered conn.clientSocket (conn.serverMessage ++ data)] =
        (server s.messages).bytes := by
      rw [received, if_pos socket, split]
      exact List.append_nil _
    refine ⟨_, store_here _ _ _, socket, ?_⟩
    rw [response]
    cases stage with
    | idle _ _ _ coming => exact absurd coming some
    | asking _ coming => exact absurd coming some
    | passing _ _ answers => exact .idle ⟨rfl, rfl, plain⟩ receiving.heard receiving.unread rfl answers
    | withheld _ kept => exact absurd plain kept

/-! ### Events -/

theorem Stage.elsewhere (stage : Stage server s conn) (process : MiProxy) : Stage server { s with process } conn := by
  have later : Receiving server s conn → Receiving server { s with process } conn := fun receiving =>
    ⟨receiving.heard, receiving.unread, receiving.connected, receiving.split, receiving.more, receiving.length,
      receiving.before⟩
  cases stage with
  | idle quiet heard unread coming answers => exact .idle quiet heard unread coming answers
  | asking quiet coming last split more answers => exact .asking quiet coming last split more answers
  | passing receiving plain answers => exact .passing (later receiving) plain answers
  | withheld receiving kept answers => exact .withheld (later receiving) kept answers

theorem Inv.apart_step (inv : Inv ip server s) {e : Event} {actions : List Action} {process : MiProxy}
    (step : Step s.process e actions process) (opens : e.ip ≠ ip → ¬ e.Opens s.socket) {other : Bytes}
    (differs : other ≠ ip) (entry : process.clients[other]? = some conn) : conn.clientSocket ≠ s.socket := by
  by_cases here : other = e.ip
  · rw [here] at differs entry
    rcases inv.keyed.clientSocket step entry with ⟨before, entry', same⟩ | opened
    · rw [same]
      exact inv.apart _ _ differs entry'
    · intro same
      rw [same] at opened
      exact opens differs opened
  · rw [inv.keyed.frame step here] at entry
    exact inv.apart _ _ differs entry

theorem Inv.received_nil (inv : Inv ip server s) {e : Event} {actions : List Action} {process : MiProxy}
    (step : Step s.process e actions process) (differs : e.ip ≠ ip) : received s.socket actions = [] := by
  cases step with
  | idle nothing => rfl
  | replaced valid entry => rfl
  | added valid absent => rfl
  | clientLeft entry => rfl
  | heard entry some more => rfl
  | requested entry some ended reaches rewritten => cases reaches <;> rfl
  | serverLeft entry connected => rfl
  | receiving entry connected some waits => rfl
  | intercepted entry connected some complete kept => rfl
  | answered entry connected some complete plain =>
    rw [received, if_neg (inv.apart _ _ differs entry)]
    rfl

theorem Inv.foreseen (inv : Inv ip server s) {e : Event} (own : e.ip = ip) (reads : s.Reads e)
    (lists : Lists s.process e) : ¬ s.process.Unforeseen e := by
  cases e with
  | accept newSocket ip dns => exact reads.elim
  | client ip read calls =>
    cases read with
    | none => exact reads.elim
    | some data =>
      rintro ⟨conn, entry, asks, unlisted⟩
      exact lists conn entry asks unlisted
  | server ip' read calls =>
    obtain rfl : ip' = ip := own
    cases read with
    | none => exact reads.elim
    | some data =>
      rintro ⟨conn, entry, some, connected, ⟨stop, failed⟩ | ⟨responds, bad⟩⟩
      · obtain ⟨conn', entry', -, stage⟩ := inv.entry
        obtain rfl := Option.some.inj (entry.symm.trans entry')
        obtain ⟨-, -, rest, sent⟩ := reads
        have receiving := stage.receiving (by rw [← sent]; exact List.append_ne_nil_of_left_ne_nil some rest)
        have split : (server s.messages).bytes = conn.serverMessage ++ data ++ rest := by
          rw [receiving.split, ← sent, List.append_assoc]
        rw [receiving.length, (server s.messages).expectedLen_part split] at failed
        cases failed
      · exact lists conn entry responds bad

theorem next_event {e : Event} {process : MiProxy} {actions : List Action}
    (handled : s.process.dispatch e = .ok (process, actions)) :
    let s' : Session := { s with process, shown := s.shown ++ received s.socket actions }
    s.next ip server (.event e) =
      .ok (if e.ip = ip then (actions.filterMap toServer).foldl (deliver server) (s'.read e) else s') := by
  rw [Session.next, handled]
  rfl

theorem deliver_frame (server : List Bytes → Response) (messages : List Bytes) : (messages.foldl (deliver server) s).process = s.process ∧
    (messages.foldl (deliver server) s).socket = s.socket := by
  induction messages generalizing s with
  | nil => exact ⟨rfl, rfl⟩
  | cons message messages ih => exact ih

theorem Stage.read (stage : Stage server s conn) (socket : conn.clientSocket = s.socket)
    (entry : s.process.clients[ip]? = some conn) {e : Event} (own : e.ip = ip) (reads : s.Reads e)
    {process : MiProxy} {actions : List Action} (step : Step s.process e actions process) :
    ∃ conn', process.clients[ip]? = some conn' ∧ conn'.clientSocket = s.socket ∧
      Stage server ((actions.filterMap toServer).foldl (deliver server)
        (Session.read { s with process, shown := s.shown ++ received s.socket actions } e)) conn' := by
  subst own
  cases e with
  | accept newSocket ip dns => exact reads.elim
  | client ip read calls =>
    cases read with
    | none => exact reads.elim
    | some data =>
      obtain ⟨nonempty, -, rest, sent⟩ := reads
      have left : s.unread.drop data.length = rest := by rw [← sent, List.drop_left]
      rw [Session.read, left]
      exact stage.clientRead socket entry sent.symm step nonempty
  | server ip read calls =>
    cases read with
    | none => exact reads.elim
    | some data =>
      obtain ⟨nonempty, -, rest, sent⟩ := reads
      have left : s.coming.drop data.length = rest := by rw [← sent, List.drop_left]
      rw [Session.read, left]
      exact stage.serverRead socket entry sent.symm step nonempty

theorem read_frame (e : Event) : (s.read e).process = s.process ∧ (s.read e).socket = s.socket := by
  unfold Session.read
  split <;> exact ⟨rfl, rfl⟩

theorem Inv.event (inv : Inv ip server s) {e : Event} (allowed : s.Allowed ip (.event e)) :
    ∃ t, s.next ip server (.event e) = .ok t ∧ Inv ip server t := by
  obtain ⟨fine, allowed⟩ := allowed
  have foreseen : ¬ s.process.Unforeseen e := by
    split at allowed
    · rename_i own
      exact inv.foreseen own allowed.1 allowed.2
    · exact allowed.1
  obtain ⟨⟨process, actions⟩, handled⟩ : ∃ result, s.process.dispatch e = .ok result := by
    rcases dispatch_cases foreseen with ⟨refused, -⟩ | ⟨-, handled⟩
    · exact absurd refused fine
    · exact handled
  have step := dispatch_step handled
  have keyed := inv.keyed.step step
  have opens : e.ip ≠ ip → ¬ e.Opens s.socket := by
    intro elsewhere
    rw [if_neg elsewhere] at allowed
    exact allowed.2
  have apart : ∀ other conn, other ≠ ip → process.clients[other]? = some conn → conn.clientSocket ≠ s.socket :=
    fun _ _ differs entry => inv.apart_step step opens differs entry
  obtain ⟨conn, entry, socket, stage⟩ := inv.entry
  refine ⟨_, next_event handled, ?_⟩
  by_cases own : e.ip = ip
  · rw [if_pos own] at allowed ⊢
    obtain ⟨conn', entry', socket', stage'⟩ := stage.read socket entry own allowed.1 step
    obtain ⟨process', descriptor⟩ := deliver_frame server (actions.filterMap toServer)
      (s := Session.read { s with process, shown := s.shown ++ received s.socket actions } e)
    rw [(read_frame e).1] at process'
    rw [(read_frame e).2] at descriptor
    constructor
    · rw [process']
      exact keyed
    · rw [process', descriptor]
      exact apart
    · rw [process', descriptor]
      exact ⟨conn', entry', socket', stage'⟩
  · rw [if_neg own, inv.received_nil step own, List.append_nil]
    refine ⟨keyed, apart, conn, ?_, socket, stage.elsewhere process⟩
    exact (inv.keyed.frame step (Ne.symm own)).trans entry

theorem Inv.next (inv : Inv ip server s) {turn : Turn} (allowed : s.Allowed ip turn) :
    ∃ t, s.next ip server turn = .ok t ∧ Inv ip server t := by
  cases turn with
  | ask q =>
    obtain ⟨conn, entry, socket, stage⟩ := inv.entry
    exact ⟨_, rfl, inv.keyed, inv.apart, conn, entry, socket, stage.ask allowed q⟩
  | event e => exact inv.event allowed

theorem Inv.run (inv : Inv ip server s) {turns : List Turn} (allowed : AllAllowed ip server s turns) :
    ∃ t, s.run ip server turns = .ok t ∧ Inv ip server t := by
  induction turns generalizing s with
  | nil => exact ⟨s, rfl, inv⟩
  | cons turn rest ih =>
    obtain ⟨t, done, inv'⟩ := inv.next allowed.1
    obtain ⟨t', later, inv''⟩ := ih inv' (allowed.2 t done)
    exact ⟨t', by rw [Session.run, done]; exact later, inv''⟩

/-! ### Whole sessions -/

theorem Stage.served (stage : Stage server s conn) : Served server s := by
  have one : ∀ {requests : List Request} {q : Request}, s.requests = requests ++ [q] →
      requests <+: s.requests ∧ s.requests.length ≤ requests.length + 1 := by
    intro requests q last
    rw [last]
    exact ⟨List.prefix_append _ _, by rw [List.length_append]; rfl⟩
  cases stage with
  | idle quiet heard unread coming answers =>
    exact ⟨⟨_, _, answers, List.prefix_rfl, List.prefix_rfl, Nat.le_succ _⟩, fun _ _ => answers⟩
  | asking quiet coming last split more answers =>
    exact ⟨⟨_, _, answers, (one last).1, List.prefix_rfl, (one last).2⟩, fun none => absurd none more⟩
  | passing receiving plain answers =>
    obtain ⟨requests, q, messages, last, front, before⟩ := receiving.before
    exact ⟨⟨_, _, before, (one last).1, front, (one last).2⟩, fun _ none => absurd none receiving.more⟩
  | withheld receiving kept answers =>
    obtain ⟨requests, q, messages, last, front, before⟩ := receiving.before
    exact ⟨⟨_, _, before, (one last).1, front, (one last).2⟩, fun _ none => absurd none receiving.more⟩

/-- However the streams are read and the other clients come in between, the proxy goes on, and the client is sent one
whole response of its server for every request, in order. -/
theorem session_served (started : Started ip s) {turns : List Turn} (allowed : AllAllowed ip server s turns) :
    ∃ t, s.run ip server turns = .ok t ∧ Served server t := by
  have inv : Inv ip server s := started.inv
  obtain ⟨t, done, inv⟩ := inv.run allowed
  obtain ⟨conn, entry, socket, stage⟩ := inv.entry
  exact ⟨t, done, stage.served⟩

/-! ### A session that runs -/

theorem not_badBitrates {alpha : ℚ} {calls : ResponseCalls} {result : Connection × List LogLine × List Action}
    (handled : handleResponseMessage alpha calls conn = .ok result) : ¬ BadBitrates conn := by
  rintro ⟨kept, -, stop, bad⟩
  rw [handleResponseMessage, if_pos kept, parseXml_eq, bad] at handled
  cases handled

/-- A call that goes through was asked for no chunk before there were bitrates, and got its manifest. -/
theorem lists_of_handled {p : MiProxy} {e : Event} {result : MiProxy × List Action} (handled : p.dispatch e = .ok result) :
    Lists p e := by
  cases e with
  | accept newSocket ip dns => trivial
  | client ip read calls =>
    cases read with
    | none => trivial
    | some data =>
      rintro conn entry ⟨some, ended⟩ unlisted
      simp only [dispatch, entry, handleClientConnection_eq calls conn some, if_neg ended] at handled
      obtain ⟨_, heard, -⟩ := bind_ok handled
      obtain ⟨⟨conn', actions⟩, requested, -⟩ := bind_ok heard
      obtain ⟨serverSocket, opened, asking, -, here, listed, -⟩ := handleRequestMessage_parts requested
      rw [here] at listed
      exact listed unlisted
  | server ip read calls =>
    cases read with
    | none => trivial
    | some data =>
      rintro conn entry ⟨some, connected, len, expected, full⟩ bad
      simp only [dispatch, entry, if_neg connected, handleServerConnection_eq p.alpha calls conn some, expected, ok_bind,
        if_neg (not_lt.mpr full)] at handled
      obtain ⟨_, responded, -⟩ := bind_ok handled
      exact not_badBitrates responded bad

/-- The client asks when nothing is on its way, and the streams are read as they come. -/
def Turn.InOrder (ip : Bytes) (s : Session) : Turn → Prop
  | .ask _ => s.unread = [] ∧ s.coming = []
  | .event e => e.ip = ip ∧ s.Reads e

instance (s : Session) (e : Event) : Decidable (s.Reads e) := by
  unfold Reads
  split <;> infer_instance

instance (s : Session) (turn : Turn) : Decidable (turn.InOrder ip s) := by
  cases turn <;> exact inferInstanceAs (Decidable (_ ∧ _))

/-- A run that stops at the first turn that does not fit. -/
def walk (ip : Bytes) (server : List Bytes → Response) (s : Session) : List Turn → Exec Session
  | [] => .ok s
  | turn :: rest => do
    if turn.InOrder ip s then
      let s ← s.next ip server turn
      s.walk ip server rest
    else .error .undefined

theorem Inv.inOrder (inv : Inv ip server s) {turn : Turn} (fits : turn.InOrder ip s) {t : Session}
    (next : s.next ip server turn = .ok t) : s.Allowed ip turn := by
  cases turn with
  | ask q =>
    obtain ⟨conn, entry, socket, stage⟩ := inv.entry
    exact (stage.served.settled fits.1 fits.2).responses
  | event e =>
    obtain ⟨own, reads⟩ := fits
    obtain ⟨result, handled, -⟩ := bind_ok next
    have lists := lists_of_handled handled
    refine ⟨?_, by rw [if_pos own]; exact ⟨reads, lists⟩⟩
    rcases dispatch_cases (inv.foreseen own reads lists) with ⟨-, throws⟩ | ⟨fine, -⟩
    · obtain ⟨stop, stopped, -⟩ := throws
      cases handled.symm.trans stopped
    · exact fine

theorem Inv.walk (inv : Inv ip server s) {turns : List Turn} {t : Session} (walked : s.walk ip server turns = .ok t) :
    AllAllowed ip server s turns ∧ s.run ip server turns = .ok t := by
  induction turns generalizing s with
  | nil => exact ⟨trivial, walked⟩
  | cons turn rest ih =>
    unfold Session.walk at walked
    split at walked
    · rename_i fits
      obtain ⟨s', next, walked⟩ := bind_ok walked
      have allowed := inv.inOrder fits next
      obtain ⟨s'', next', inv'⟩ := inv.next allowed
      cases next.symm.trans next'
      obtain ⟨later, ran⟩ := ih inv' walked
      refine ⟨⟨allowed, fun s'' next'' => ?_⟩, by rw [Session.run, next]; exact ran⟩
      cases next.symm.trans next''
      exact later
    · cases walked

def sampleSession : Session := { process := Process.sampleAccepted.proxy, socket := 5 }

theorem sampleSession_started : Started Process.sampleIp sampleSession where
  keyed := sample_reached.listings.keyed
  entry := ⟨text "10.0.0.9", store_here _ _ _⟩
  apart other conn differs entry := by
    rw [show sampleSession.process.clients[other]? = _ from store_other Process.sampleStart.proxy _ differs] at entry
    cases entry.symm.trans (Process.sampleStart_started.empty other)
  unread := rfl
  coming := rfl
  requests := rfl
  messages := rfl
  shown := rfl

def samplePageAsked : Request where
  front := text "GET /index.html HTTP/1.1"
  only := by decide +kernel

def sampleManifestAsked : Request where
  front := manifestRequest.take (manifestRequest.length - 4)
  only := by decide +kernel

def sampleChunkAsked : Request where
  front := chunkRequest.take (chunkRequest.length - 4)
  only := by decide +kernel

/-- The manifest for the manifest, a video for a chunk, and a page for the rest. -/
def sampleAnswer (messages : List Bytes) : Response :=
  if messages.getLast? = some manifestRequest then .sampleManifest
  else if ∃ message ∈ messages.getLast?, NamesChunk message then .sampleChunk
  else .samplePage

/-- The request is read in two parts, and so are its responses. -/
def piecewise (q : Request) (responses : List Response) : List Turn :=
  .ask q :: .event (.client Process.sampleIp (some (q.bytes.take 20)) {}) ::
    .event (.client Process.sampleIp (some (q.bytes.drop 20)) { socket := 6 }) ::
    responses.flatMap fun r => [.event (.server Process.sampleIp (some (r.bytes.take 30)) {}),
      .event (.server Process.sampleIp (some (r.bytes.drop 30)) {})]

/-- A page, a manifest with the list that is sent in its place, and a chunk. -/
def sampleTurns : List Turn :=
  piecewise samplePageAsked [.samplePage] ++ piecewise sampleManifestAsked [.sampleManifest, .samplePage] ++
    piecewise sampleChunkAsked [.sampleChunk]

theorem sampleTurns_walk : (sampleSession.walk Process.sampleIp sampleAnswer sampleTurns).map
    (fun t => (t.requests.length, t.messages.length, t.shown)) =
      .ok (3, 4, Response.concat [.samplePage, .samplePage, .sampleChunk]) := by decide +kernel

theorem session_served_sample : ∃ t, sampleSession.run Process.sampleIp sampleAnswer sampleTurns = .ok t ∧
    t.shown = Response.concat [.samplePage, .samplePage, .sampleChunk] ∧ t.messages.length = 4 ∧ Served sampleAnswer t := by
  obtain ⟨t, walked, seen⟩ := map_ok sampleTurns_walk
  have inv : Inv Process.sampleIp sampleAnswer sampleSession := sampleSession_started.inv
  obtain ⟨allowed, ran⟩ := inv.walk walked
  obtain ⟨t', ran', served⟩ := session_served sampleSession_started allowed
  cases ran.symm.trans ran'
  obtain ⟨-, messages, shown⟩ := (Prod.mk.inj seen).imp id Prod.mk.inj
  exact ⟨t, ran, shown, messages, served⟩

end

end Session

end VStream
