import VStream.MiProxy.Connection

/-!
# The proxy

The handlers that `run` calls. An `Event` is one call: which descriptor was
ready, and what the system calls of its handler return. A handler ends the
process or leaves a state and the actions it took.
-/

namespace VStream
open Cpp Net
open Std (TreeMap)

structure MiProxy where
  dnsMode : Bool
  defaultWwwIp : Bytes
  alpha : ℚ
  masterSocket : Int
  dnsSocket : Int
  clients : TreeMap Bytes Connection := ∅
  log : List LogLine := []

/-- What `make_client_sockaddr` makes an address of. -/
structure SockAddr where
  hostname : Bytes
  port : UInt16
  deriving DecidableEq

/-- What a handler does to the sockets. -/
inductive Action where
  | accepted (fd : Int)
  | connected (fd : Int) (address : SockAddr)
  | clientClosed (fd : Int)
  | serverClosed (fd : Int)
  | heard (fd : Int) (data : Bytes)
  | forwarded (fd : Int) (message : Bytes)
  /-- A response is kept, and a no-list message sent to the server. -/
  | intercepted (fd : Int) (message : Bytes)
  | answered (fd : Int) (response : Bytes)
  deriving DecidableEq

/-- What the calls of `handle_request_message` return. -/
structure RequestCalls where
  socket : Int := -1
  resolved : Bool := true
  connected : Bool := true
  sends : List Transfer := []

/-- What the calls of `handle_server_connection` return. -/
structure ResponseCalls where
  start : ℚ := 0
  now : ℚ := 1
  peer : Bytes := []
  port : Int := 80
  sends : List Transfer := []

/-- `read` gives `none` for the return value -1 and no bytes at the end of the stream. -/
inductive Event where
  | accept (newSocket : Int) (ip : Bytes) (dns : Exec Bytes)
  | client (ip : Bytes) (read : Option Bytes) (calls : RequestCalls)
  | server (ip : Bytes) (read : Option Bytes) (calls : ResponseCalls)

def Event.ip : Event → Bytes
  | .accept _ ip _ => ip
  | .client ip _ _ => ip
  | .server ip _ _ => ip

namespace MiProxy

def handOver (sends : List Transfer) (data : Bytes) : Exec Bytes := do
  let s ← sendAll { incoming := [], sends } data
  return s.sent

/-! ### Accepting -/

/-- `dns` is what `request_dns` returns where it is called. -/
def handleMasterConnection (p : MiProxy) (newSocket : Int) (ip : Bytes) (dns : Exec Bytes) :
    Exec (MiProxy × List Action) :=
  if newSocket < 0 then .error (.thrown (.runtimeError "accept"))
  else
    match p.clients[ip]? with
    | some conn =>
      .ok ({ p with clients := p.clients.insert ip { conn with clientSocket := newSocket } }, [.accepted newSocket])
    | none => do
      let wwwIp ← (if p.dnsMode then dns else .ok p.defaultWwwIp)
      let conn : Connection := { clientSocket := newSocket, serverSocket := -1, clientIp := ip, wwwIp }
      return ({ p with clients := p.clients.insert ip conn }, [.accepted newSocket])

/-! ### Requests -/

/-- Port 80 of the host that `www_ip.c_str()` names. -/
def serverAddress (conn : Connection) : SockAddr := { hostname := conn.wwwIp.takeWhile (· ≠ 0), port := 80 }

/-- The server connection of a request, made where there is none. -/
def connectServer (calls : RequestCalls) (conn : Connection) : Exec (Connection × List Action) :=
  if conn.serverSocket = -1 then
    if calls.socket < 0 then .error (.thrown (.runtimeError "socket failed"))
    else if !calls.resolved then .error (.thrown (.runtimeError "make_client_sockaddr failed"))
    else if !calls.connected then .error (.thrown (.runtimeError "connect failed"))
    else .ok ({ conn with serverSocket := calls.socket }, [.connected calls.socket (serverAddress conn)])
  else .ok (conn, [])

def handleRequestMessage (calls : RequestCalls) (conn : Connection) : Exec (Connection × List Action) := do
  let (conn, actions) ← connectServer calls conn
  let conn ← conn.checkVideoName
  let conn ← conn.parseBitrate
  let message ← handOver calls.sends conn.clientMessage
  return ({ conn with clientMessage := [] }, actions ++ [.forwarded conn.serverSocket message])

/-- The connection is gone where the client is. -/
def handleClientConnection (read : Option Bytes) (calls : RequestCalls) (conn : Connection) :
    Exec (Option Connection × List Action) :=
  match read with
  | none => .error (.thrown .lengthError)  -- `append(buffer, -1)`
  | some [] => .ok (none, [.clientClosed conn.clientSocket])
  | some data =>
    let conn := { conn with clientMessage := conn.clientMessage ++ data }
    if find blankLine conn.clientMessage = none then .ok (some conn, [.heard conn.clientSocket data])
    else do
      let (conn', actions) ← handleRequestMessage calls conn
      return (some conn', .heard conn.clientSocket data :: actions)

/-! ### Responses -/

def handleResponseMessage (alpha : ℚ) (calls : ResponseCalls) (conn : Connection) :
    Exec (Connection × List LogLine × List Action) :=
  if conn.noListMessage ≠ [] then do
    let conn ← conn.parseXml
    let message ← handOver calls.sends conn.noListMessage
    return ({ conn with noListMessage := [], serverMessage := [], serverMessageLen := 0 }, [],
      [.intercepted conn.serverSocket message])
  else do
    let (conn, log) := conn.updateThroughput alpha calls.now
    let response ← handOver calls.sends conn.serverMessage
    return ({ conn with serverMessage := [], serverMessageLen := 0 }, log, [.answered conn.clientSocket response])

def handleServerConnection (alpha : ℚ) (read : Option Bytes) (calls : ResponseCalls) (conn : Connection) :
    Exec (Connection × List LogLine × List Action) :=
  let serverConnStart := if conn.serverMessage = [] then calls.start else conn.serverConnStart
  let conn := { conn with serverConnStart, serverIp := calls.peer, serverPort := calls.port }
  match read with
  | none => .error (.thrown .lengthError)  -- `append(buffer, -1)`
  | some [] => .ok ({ conn with serverSocket := -1 }, [], [.serverClosed conn.serverSocket])
  | some data => do
    let conn := { conn with serverMessage := conn.serverMessage ++ data }
    let (result, conn) ← (if conn.serverMessageLen = 0 then conn.parseHeader else .ok (0, conn))
    if result = -1 then return (conn, [], [])
    else if conn.serverMessage.length < conn.serverMessageLen then return (conn, [], [])
    else handleResponseMessage alpha calls conn

/-! ### The loop -/

/-- One handler call of `run`. Nothing is read for an address without an entry or from a server that is
not connected: `select` is not asked about them. -/
def dispatch (p : MiProxy) : Event → Exec (MiProxy × List Action)
  | .accept newSocket ip dns => p.handleMasterConnection newSocket ip dns
  | .client ip read calls =>
    match p.clients[ip]? with
    | none => .ok (p, [])
    | some conn => do
      let (conn', actions) ← handleClientConnection read calls conn
      match conn' with
      | none => return ({ p with clients := p.clients.erase conn.clientIp }, actions)
      | some conn' => return ({ p with clients := p.clients.insert ip conn' }, actions)
  | .server ip read calls =>
    match p.clients[ip]? with
    | none => .ok (p, [])
    | some conn =>
      if conn.serverSocket = -1 then .ok (p, [])
      else do
        let (conn', log, actions) ← handleServerConnection p.alpha read calls conn
        return ({ p with clients := p.clients.insert ip conn', log := p.log ++ log }, actions)

end MiProxy

end VStream
