import VStream.MiProxy.Proxy
import VStream.Cpp.Search
import VStream.Dns.Delivery

/-!
# What a handler call does

`Step` lists the ways in which `dispatch` returns, each with what it changes;
the facts about runs of the proxy go through its cases.
-/

namespace VStream
open Cpp Net Connection
open Std (TreeMap)

/-- The fields that every read from a server sets. -/
def Connection.seen (conn : Connection) (serverConnStart : ℚ) (calls : ResponseCalls) : Connection :=
  { conn with serverConnStart, serverIp := calls.peer, serverPort := calls.port }

namespace MiProxy

def store (p : MiProxy) (ip : Bytes) (conn : Connection) : MiProxy := { p with clients := p.clients.insert ip conn }

@[simp] theorem store_here (p : MiProxy) (ip : Bytes) (conn : Connection) : (p.store ip conn).clients[ip]? = some conn := by
  simp [store]

@[simp] theorem store_other (p : MiProxy) {ip other : Bytes} (conn : Connection) (differs : other ≠ ip) :
    (p.store ip conn).clients[other]? = p.clients[other]? := by
  simp [store, TreeMap.getElem?_insert, differs.symm]

theorem handOver_ok {sends : List Transfer} {data message : Bytes} (h : handOver sends data = .ok message) :
    message = data := by
  obtain ⟨s, all, h⟩ := bind_ok h
  obtain rfl := Except.ok.inj h
  exact sendAll_exact all

/-- What the proxy knows of the length of a response. -/
def expectedLen (known : Nat) (message : Bytes) : Exec (Option Nat) :=
  if known = 0 then announced message else .ok (some known)

/-- More of the response is to come; `len` is kept as its length. -/
inductive Waits (known : Nat) (message : Bytes) : Nat → Prop where
  | header (unknown : expectedLen known message = .ok none) : Waits known message known
  | body {len : Nat} (expected : expectedLen known message = .ok (some len)) (short : message.length < len) :
      Waits known message len

def Complete (known : Nat) (message : Bytes) : Prop :=
  ∃ len, expectedLen known message = .ok (some len) ∧ len ≤ message.length

/-- The length that is known is the one that the header announces. -/
def Foretold (known : Nat) (message : Bytes) : Prop :=
  message.length ≤ maxSize → known = 0 ∨ announced message = .ok (some known)

/-- The connection to the server that a request finds or makes. -/
inductive Reaches (conn : Connection) (calls : RequestCalls) : Int → List Action → Prop where
  | old (connected : conn.serverSocket ≠ -1) : Reaches conn calls conn.serverSocket []
  | new (unconnected : conn.serverSocket = -1) (valid : 0 ≤ calls.socket) :
      Reaches conn calls calls.socket [.connected calls.socket (serverAddress conn)]

def Idle (p : MiProxy) : Event → Prop
  | .accept _ _ _ => False
  | .client ip _ _ => p.clients[ip]? = none
  | .server ip _ _ => ∀ conn, p.clients[ip]? = some conn → conn.serverSocket = -1

inductive Step (p : MiProxy) : Event → List Action → MiProxy → Prop where
  | idle {e : Event} (nothing : p.Idle e) : Step p e [] p
  | replaced {newSocket : Int} {ip : Bytes} {dns : Exec Bytes} {conn : Connection} (valid : 0 ≤ newSocket)
      (entry : p.clients[ip]? = some conn) :
      Step p (.accept newSocket ip dns) [.accepted newSocket] (p.store ip { conn with clientSocket := newSocket })
  | added {newSocket : Int} {ip : Bytes} {dns : Exec Bytes} {wwwIp : Bytes} (valid : 0 ≤ newSocket)
      (absent : p.clients[ip]? = none) :
      Step p (.accept newSocket ip dns) [.accepted newSocket]
        (p.store ip { clientSocket := newSocket, serverSocket := -1, clientIp := ip, wwwIp })
  | clientLeft {ip : Bytes} {calls : RequestCalls} {conn : Connection} (entry : p.clients[ip]? = some conn) :
      Step p (.client ip (some []) calls) [.clientClosed conn.clientSocket]
        { p with clients := p.clients.erase conn.clientIp }
  | heard {ip data : Bytes} {calls : RequestCalls} {conn : Connection} (entry : p.clients[ip]? = some conn)
      (some : data ≠ []) (more : find blankLine (conn.clientMessage ++ data) = none) :
      Step p (.client ip (.some data) calls) [.heard conn.clientSocket data]
        (p.store ip { conn with clientMessage := conn.clientMessage ++ data })
  | requested {ip data : Bytes} {calls : RequestCalls} {conn : Connection} {serverSocket currentBitrate : Int}
      {opened : List Action} {chunkname message : Bytes} (entry : p.clients[ip]? = some conn)
      (some : data ≠ []) (ended : find blankLine (conn.clientMessage ++ data) ≠ none)
      (server : Reaches conn calls serverSocket opened)
      (rewritten : Rewritten conn.availableBitrates (conn.clientMessage ++ data) message) :
      Step p (.client ip (.some data) calls)
        (.heard conn.clientSocket data :: (opened ++ [.forwarded serverSocket message]))
        (p.store ip { conn with clientMessage := [], serverSocket, currentBitrate, chunkname
                                noListMessage := (noList (conn.clientMessage ++ data)).getD conn.noListMessage })
  | serverLeft {ip : Bytes} {calls : ResponseCalls} {conn : Connection} {start : ℚ}
      (entry : p.clients[ip]? = some conn) (connected : conn.serverSocket ≠ -1) :
      Step p (.server ip (some []) calls) [.serverClosed conn.serverSocket]
        (p.store ip { conn.seen start calls with serverSocket := -1 })
  | receiving {ip data : Bytes} {calls : ResponseCalls} {conn : Connection} {start : ℚ} {serverMessageLen : Nat}
      (entry : p.clients[ip]? = some conn) (connected : conn.serverSocket ≠ -1) (some : data ≠ [])
      (waits : Waits conn.serverMessageLen (conn.serverMessage ++ data) serverMessageLen) :
      Step p (.server ip (.some data) calls) []
        (p.store ip { conn.seen start calls with serverMessage := conn.serverMessage ++ data, serverMessageLen })
  | intercepted {ip data : Bytes} {calls : ResponseCalls} {conn : Connection} {start : ℚ}
      {availableBitrates : List Int} {currentThroughput : ℚ}
      (entry : p.clients[ip]? = some conn) (connected : conn.serverSocket ≠ -1) (some : data ≠ [])
      (complete : Complete conn.serverMessageLen (conn.serverMessage ++ data)) (kept : conn.noListMessage ≠ []) :
      Step p (.server ip (.some data) calls) [.intercepted conn.serverSocket conn.noListMessage]
        (p.store ip { conn.seen start calls with serverMessage := [], serverMessageLen := 0, noListMessage := []
                                                 availableBitrates, currentThroughput })
  | answered {ip data : Bytes} {calls : ResponseCalls} {conn : Connection} {start : ℚ} {currentThroughput : ℚ}
      {log : List LogLine} (entry : p.clients[ip]? = some conn) (connected : conn.serverSocket ≠ -1)
      (some : data ≠ []) (complete : Complete conn.serverMessageLen (conn.serverMessage ++ data))
      (plain : conn.noListMessage = []) :
      Step p (.server ip (.some data) calls) [.answered conn.clientSocket (conn.serverMessage ++ data)]
        { p.store ip { conn.seen start calls with serverMessage := [], serverMessageLen := 0, currentThroughput }
          with log := p.log ++ log }

/-! ### The announced length -/

/-- The line of the length ends behind the name of its field. -/
theorem length_line {message : Bytes} {clPos conEndPos : Nat} (field : find contentLength message = some clPos)
    (line : findFrom crlf message clPos = some conEndPos) : clPos + 16 ≤ conEndPos ∧ conEndPos + 2 ≤ message.length := by
  obtain ⟨⟨tail, here⟩, inside, -⟩ := find_some_iff.mp field
  have skipped : find crlf (message.drop clPos) = (find crlf tail).map (16 + ·) := by
    rw [← here]
    exact find_skip (by decide) (by decide +kernel) tail
  rw [findFrom, if_pos inside] at line
  obtain ⟨i, found, rfl⟩ := Option.map_eq_some_iff.mp line
  have fits : i + 2 ≤ (message.drop clPos).length := find_fits found
  rw [List.length_drop] at fits
  rw [skipped] at found
  obtain ⟨j, -, rfl⟩ := Option.map_eq_some_iff.mp found
  omega

/-- More bytes change nothing about an announced length. -/
theorem announced_append {message : Bytes} {len : Nat} (fits : message.length ≤ maxSize)
    (known : announced message = .ok (some len)) (more : Bytes) : announced (message ++ more) = .ok (some len) := by
  unfold announced parseHeader at known ⊢
  dsimp only at known ⊢
  cases blank : find blankLine message with
  | none => rw [blank] at known; cases known
  | some endPos =>
  rw [blank] at known
  rw [find_append blank]
  cases field : find contentLength message with
  | none => rw [field] at known; cases known
  | some clPos =>
  rw [field] at known
  rw [find_append field]
  dsimp only at known ⊢
  cases line : findFrom crlf message clPos with
  | none => rw [line] at known; cases known
  | some conEndPos =>
  rw [line] at known
  obtain ⟨behind, inside⟩ := length_line field line
  have line' : findFrom crlf (message ++ more) clPos = some conEndPos := by
    have start : clPos ≤ message.length := by omega
    rw [findFrom, if_pos start] at line
    obtain ⟨i, found, rfl⟩ := Option.map_eq_some_iff.mp line
    rw [findFrom, if_pos (by rw [List.length_append]; omega), List.drop_append_of_le_length start, find_append found]
    rfl
  have width : sizeSub (sizeSub conEndPos clPos) 16 = conEndPos - clPos - 16 := by
    unfold maxSize at fits
    rw [sizeSub_of_le (b := clPos) (by omega) (by omega), sizeSub_of_le (by omega) (by omega)]
  have same : substr (message ++ more) (clPos + 16) (sizeSub (sizeSub conEndPos clPos) 16) =
      substr message (clPos + 16) (sizeSub (sizeSub conEndPos clPos) 16) := by
    unfold maxSize at fits
    have bounded : conEndPos - clPos - 16 ≠ npos := by unfold npos; omega
    have part : conEndPos - clPos - 16 ≤ (message.drop (clPos + 16)).length := by
      rw [List.length_drop]
      omega
    rw [width, substr_inside (by rw [List.length_append]; omega), substr_inside (by omega), stretch, stretch,
      if_neg bounded, if_neg bounded, List.drop_append_of_le_length (by omega), List.take_append_of_le_length part]
  rw [line']
  dsimp only at known ⊢
  rw [same]
  cases cut : substr message (clPos + 16) (sizeSub (sizeSub conEndPos clPos) 16) with
  | error stop => rw [cut] at known; cases known
  | ok clStr =>
  rw [cut, ok_bind] at known
  rw [ok_bind]
  cases number : stoi clStr with
  | error stop => rw [number] at known; cases known
  | ok length => rw [number] at known; exact known

theorem Foretold.nil (message : Bytes) : Foretold 0 message := fun _ => .inl rfl

/-- A length that is found is announced by the whole response. -/
theorem Foretold.announces {known len : Nat} {message data : Bytes} (foretold : Foretold known message)
    (expected : expectedLen known (message ++ data) = .ok (some len)) (fits : (message ++ data).length ≤ maxSize) :
    announced (message ++ data) = .ok (some len) := by
  by_cases unknown : known = 0
  · rwa [expectedLen, if_pos unknown] at expected
  · rw [expectedLen, if_neg unknown] at expected
    cases expected
    have fits' : message.length ≤ maxSize := by
      rw [List.length_append] at fits
      omega
    exact announced_append fits' ((foretold fits').resolve_left unknown) data

theorem Foretold.waits {known len : Nat} {message data : Bytes} (foretold : Foretold known message)
    (waits : Waits known (message ++ data) len) : Foretold len (message ++ data) := by
  intro fits
  cases waits with
  | header none =>
    by_cases unknown : known = 0
    · exact .inl unknown
    · rw [expectedLen, if_neg unknown] at none
      cases none
  | body expected short => exact .inr (foretold.announces expected fits)

/-! ### The handlers -/

theorem connectServer_ok {calls : RequestCalls} {conn conn' : Connection} {opened : List Action}
    (h : connectServer calls conn = .ok (conn', opened)) :
    ∃ serverSocket, conn' = { conn with serverSocket } ∧ Reaches conn calls serverSocket opened := by
  unfold connectServer at h
  split_ifs at h with unconnected invalid <;> cases h
  · exact ⟨calls.socket, rfl, .new unconnected (by omega)⟩
  · exact ⟨conn.serverSocket, rfl, .old unconnected⟩

theorem handleRequestMessage_ok {calls : RequestCalls} {conn conn' : Connection} {actions : List Action}
    (h : handleRequestMessage calls conn = .ok (conn', actions)) :
    ∃ serverSocket opened currentBitrate chunkname message, Reaches conn calls serverSocket opened ∧
      Rewritten conn.availableBitrates conn.clientMessage message ∧
      actions = opened ++ [.forwarded serverSocket message] ∧
      conn' = { conn with clientMessage := [], serverSocket, currentBitrate, chunkname
                          noListMessage := (noList conn.clientMessage).getD conn.noListMessage } := by
  unfold handleRequestMessage at h
  obtain ⟨⟨connected, opened⟩, connecting, h⟩ := bind_ok h
  obtain ⟨serverSocket, rfl, server⟩ := connectServer_ok connecting
  dsimp only at h
  rw [checkVideoName_eq, ok_bind] at h
  obtain ⟨parsed, parsing, h⟩ := bind_ok h
  obtain ⟨currentBitrate, message, chunkname, rfl, rewritten⟩ := parseBitrate_ok parsing
  obtain ⟨sent, sending, h⟩ := bind_ok h
  obtain rfl := handOver_ok sending
  obtain ⟨rfl, rfl⟩ := Prod.mk.inj (Except.ok.inj h)
  exact ⟨_, _, _, _, _, server, rewritten, rfl, rfl⟩

theorem handleResponseMessage_ok {alpha : ℚ} {calls : ResponseCalls} {conn conn' : Connection} {log : List LogLine}
    {actions : List Action} (h : handleResponseMessage alpha calls conn = .ok (conn', log, actions)) :
    (conn.noListMessage ≠ [] ∧ log = [] ∧ actions = [.intercepted conn.serverSocket conn.noListMessage] ∧
      ∃ availableBitrates currentThroughput, conn' = { conn with
        serverMessage := [], serverMessageLen := 0, noListMessage := [], availableBitrates, currentThroughput }) ∨
    (conn.noListMessage = [] ∧ actions = [.answered conn.clientSocket conn.serverMessage] ∧
      ∃ currentThroughput, conn' = { conn with serverMessage := [], serverMessageLen := 0, currentThroughput }) := by
  unfold handleResponseMessage at h
  split at h
  · rename_i kept
    obtain ⟨parsed, parsing, h⟩ := bind_ok h
    obtain ⟨rest, availableBitrates, currentThroughput, rfl⟩ := parseXml_ok parsing
    obtain ⟨message, sending, h⟩ := bind_ok h
    obtain rfl := handOver_ok sending
    cases h
    exact .inl ⟨kept, rfl, rfl, _, _, rfl⟩
  · rename_i plain
    obtain ⟨currentThroughput, updated⟩ := updateThroughput_eq alpha calls.now conn
    generalize conn.updateThroughput alpha calls.now = result at updated h
    obtain ⟨conn'', lines⟩ := result
    obtain rfl : conn'' = _ := updated
    obtain ⟨response, sending, h⟩ := bind_ok h
    obtain rfl := handOver_ok sending
    cases h
    exact .inr ⟨not_not.mp plain, rfl, currentThroughput, rfl⟩

theorem handleClientConnection_eq (calls : RequestCalls) (conn : Connection) {data : Bytes} (some : data ≠ []) :
    handleClientConnection (.some data) calls conn =
      let heard := { conn with clientMessage := conn.clientMessage ++ data }
      if find blankLine (conn.clientMessage ++ data) = none then .ok (.some heard, [.heard conn.clientSocket data])
      else handleRequestMessage calls heard >>= fun result =>
        .ok (.some result.1, .heard conn.clientSocket data :: result.2) := by
  obtain ⟨c, data, rfl⟩ := List.exists_cons_of_ne_nil some
  rfl

theorem handleServerConnection_eq (alpha : ℚ) (calls : ResponseCalls) (conn : Connection) {data : Bytes}
    (some : data ≠ []) :
    handleServerConnection alpha (.some data) calls conn =
      let start := if conn.serverMessage = [] then calls.start else conn.serverConnStart
      expectedLen conn.serverMessageLen (conn.serverMessage ++ data) >>= fun
        | none => .ok ({ conn.seen start calls with serverMessage := conn.serverMessage ++ data }, [], [])
        | .some len =>
          let conn := { conn.seen start calls with serverMessage := conn.serverMessage ++ data, serverMessageLen := len }
          if conn.serverMessage.length < len then .ok (conn, [], []) else handleResponseMessage alpha calls conn := by
  obtain ⟨c, data, rfl⟩ := List.exists_cons_of_ne_nil some
  simp only [handleServerConnection, expectedLen, seen]
  by_cases unknown : conn.serverMessageLen = 0
  · rw [if_pos unknown, if_pos unknown, parseHeader_eq]
    cases announced (conn.serverMessage ++ c :: data) with
    | error stop => rfl
    | ok expectation => cases expectation <;> rfl
  · rw [if_neg unknown, if_neg unknown]
    rfl

theorem handleServerConnection_data (alpha : ℚ) (calls : ResponseCalls) (conn : Connection) {data : Bytes}
    (some : data ≠ []) :
    ∃ start, handleServerConnection alpha (.some data) calls conn =
      expectedLen conn.serverMessageLen (conn.serverMessage ++ data) >>= fun
        | none => .ok ({ conn.seen start calls with serverMessage := conn.serverMessage ++ data }, [], [])
        | .some len =>
          let conn := { conn.seen start calls with serverMessage := conn.serverMessage ++ data, serverMessageLen := len }
          if conn.serverMessage.length < len then .ok (conn, [], []) else handleResponseMessage alpha calls conn :=
  ⟨_, handleServerConnection_eq alpha calls conn some⟩

/-- A read from a client is kept, or ends a request. -/
theorem handleClientConnection_ok {calls : RequestCalls} {conn : Connection} {data : Bytes} (some : data ≠ [])
    {entry : Option Connection} {actions : List Action}
    (h : handleClientConnection (.some data) calls conn = .ok (entry, actions)) :
    (find blankLine (conn.clientMessage ++ data) = none ∧ actions = [.heard conn.clientSocket data] ∧
      entry = .some { conn with clientMessage := conn.clientMessage ++ data }) ∨
    (find blankLine (conn.clientMessage ++ data) ≠ none ∧ ∃ next asked,
      handleRequestMessage calls { conn with clientMessage := conn.clientMessage ++ data } = .ok (next, asked) ∧
      actions = .heard conn.clientSocket data :: asked ∧ entry = .some next) := by
  rw [handleClientConnection_eq calls conn some] at h
  dsimp only at h
  split at h
  · rename_i more
    cases h
    exact .inl ⟨more, rfl, rfl⟩
  · rename_i ended
    obtain ⟨⟨next, asked⟩, request, h⟩ := bind_ok h
    cases h
    exact .inr ⟨ended, next, asked, request, rfl, rfl⟩

/-- A read from a server is kept, or ends a response. -/
theorem handleServerConnection_ok {alpha : ℚ} {calls : ResponseCalls} {conn next : Connection} {data : Bytes}
    (some : data ≠ []) {log : List LogLine} {actions : List Action}
    (h : handleServerConnection alpha (.some data) calls conn = .ok (next, log, actions)) :
    ∃ start len, (Waits conn.serverMessageLen (conn.serverMessage ++ data) len ∧ log = [] ∧ actions = [] ∧
        next = { conn.seen start calls with serverMessage := conn.serverMessage ++ data, serverMessageLen := len }) ∨
      (Complete conn.serverMessageLen (conn.serverMessage ++ data) ∧
        handleResponseMessage alpha calls { conn.seen start calls with
          serverMessage := conn.serverMessage ++ data, serverMessageLen := len } = .ok (next, log, actions)) := by
  obtain ⟨start, handling⟩ := handleServerConnection_data alpha calls conn some
  rw [handling] at h
  obtain ⟨expectation, expected, h⟩ := bind_ok h
  cases expectation with
  | none =>
    cases h
    exact ⟨start, conn.serverMessageLen, .inl ⟨.header expected, rfl, rfl, rfl⟩⟩
  | some len =>
    dsimp only at h
    split at h
    · rename_i short
      cases h
      exact ⟨start, len, .inl ⟨.body expected short, rfl, rfl, rfl⟩⟩
    · rename_i full
      exact ⟨start, len, .inr ⟨⟨len, expected, by omega⟩, h⟩⟩

/-- One handler call, by what it does. -/
theorem dispatch_step {p p' : MiProxy} {e : Event} {actions : List Action} (h : p.dispatch e = .ok (p', actions)) :
    Step p e actions p' := by
  cases e with
  | accept newSocket ip dns =>
    simp only [dispatch, handleMasterConnection] at h
    split at h
    · cases h
    rename_i valid
    cases entry : p.clients[ip]? with
    | some conn =>
      rw [entry] at h
      cases h
      exact .replaced (by omega) entry
    | none =>
      rw [entry] at h
      dsimp only at h
      obtain ⟨wwwIp, -, h⟩ := bind_ok h
      cases h
      exact .added (by omega) entry
  | client ip read calls =>
    simp only [dispatch] at h
    cases entry : p.clients[ip]? with
    | none =>
      rw [entry] at h
      cases h
      exact .idle entry
    | some conn =>
      rw [entry] at h
      obtain ⟨⟨conn', acts⟩, handled, h⟩ := bind_ok h
      rcases read with _ | _ | ⟨c, data⟩
      · cases handled
      · cases handled
        cases h
        exact .clientLeft entry
      · have some : c :: data ≠ [] := List.cons_ne_nil c data
        rcases handleClientConnection_ok some handled with ⟨more, rfl, rfl⟩ | ⟨ended, _, _, request, rfl, rfl⟩
        · cases h
          exact .heard entry some more
        · obtain ⟨_, _, _, _, _, server, rewritten, rfl, rfl⟩ := handleRequestMessage_ok request
          cases h
          refine .requested entry some ended ?_ rewritten
          cases server with
          | old connected => exact .old connected
          | new unconnected valid => exact .new unconnected valid
  | server ip read calls =>
    simp only [dispatch] at h
    cases entry : p.clients[ip]? with
    | none =>
      rw [entry] at h
      cases h
      exact .idle (by simp [Idle, entry])
    | some conn =>
      rw [entry] at h
      dsimp only at h
      split at h
      · rename_i unconnected
        cases h
        exact .idle (by simp [Idle, entry, unconnected])
      rename_i connected
      obtain ⟨⟨conn', log, acts⟩, handled, h⟩ := bind_ok h
      cases h
      rcases read with _ | _ | ⟨c, data⟩
      · cases handled
      · cases handled
        rw [List.append_nil]
        exact @Step.serverLeft p ip calls conn _ entry connected
      · have some : c :: data ≠ [] := List.cons_ne_nil c data
        obtain ⟨start, len, ⟨waits, rfl, rfl, rfl⟩ | ⟨complete, handled⟩⟩ := handleServerConnection_ok some handled
        · rw [List.append_nil]
          exact .receiving entry connected some waits
        · rcases handleResponseMessage_ok handled with ⟨kept, rfl, rfl, _, _, rfl⟩ | ⟨plain, rfl, _, rfl⟩
          · rw [List.append_nil]
            exact @Step.intercepted p ip _ calls conn _ _ _ entry connected some complete kept
          · exact .answered entry connected some complete plain

end MiProxy

end VStream
