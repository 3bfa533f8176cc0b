import VStream.MiProxy.Listing

/-!
# Failures of one connection

Where the system refuses something, or a manifest is no XML, a handler throws
the `runtime_error` that `main` reports; a `send` to a peer that is gone raises
SIGPIPE. A call that meets neither this nor one of the failures that nothing in
the program foresees goes back to the loop.
-/

namespace VStream
open Cpp Net Connection
open Std (TreeMap)

namespace MiProxy

/-- A `send` of the message returns -1, raises SIGPIPE or does not return. -/
def SendFails (sends : List Transfer) (data : Bytes) : Prop := ∃ stop, handOver sends data = .error stop

/-- The call stops with a `runtime_error`, or at the peer of its sends, which is gone or does nothing. -/
def Throws {α : Type} (sends : List Transfer) (x : Exec α) : Prop :=
  ∃ stop, x = .error stop ∧ ((∃ what, stop = .thrown (.runtimeError what)) ∨ Breaks sends stop)

theorem Throws.bind {α β : Type} {sends : List Transfer} {x : Exec α} (throws : Throws sends x) (f : α → Exec β) :
    Throws sends (x >>= f) := by
  obtain ⟨stop, rfl, why⟩ := throws
  exact ⟨stop, rfl, why⟩

theorem Throws.thrown {α : Type} (sends : List Transfer) (what : String) :
    Throws sends (.error (.thrown (.runtimeError what)) : Exec α) :=
  ⟨_, rfl, .inl ⟨what, rfl⟩⟩

theorem handOver_stops {sends : List Transfer} {data : Bytes} {stop : Stop} (h : handOver sends data = .error stop) :
    stop = .thrown (.runtimeError "send failed") ∨ Breaks sends stop := by
  rcases bind_error h with failed | ⟨t, -, h⟩
  · exact sendAll_breaks failed
  · cases h

theorem handOver_cases (sends : List Transfer) (data : Bytes) :
    ¬ SendFails sends data ∧ handOver sends data = .ok data ∨ SendFails sends data ∧ Throws sends (handOver sends data) := by
  unfold SendFails
  cases handed : handOver sends data with
  | ok message =>
    obtain rfl := handOver_ok handed
    refine .inl ⟨?_, rfl⟩
    rintro ⟨stop, failed⟩
    cases failed
  | error stop =>
    refine .inr ⟨⟨stop, rfl⟩, stop, rfl, ?_⟩
    rcases handOver_stops handed with rfl | breaks
    · exact .inl ⟨_, rfl⟩
    · exact .inr breaks

theorem handOver_smooth {sends : List Transfer} (moves : Moves sends) (data : Bytes) : ¬ SendFails sends data := by
  rintro ⟨stop, failed⟩
  obtain ⟨t, sent⟩ := sendAll_returns (s := { incoming := [], sends }) moves data
  rw [handOver, sent] at failed
  cases failed

/-! ### Requests -/

def ConnectFails (calls : RequestCalls) (conn : Connection) : Prop :=
  conn.serverSocket = -1 ∧ (calls.socket < 0 ∨ calls.resolved = false ∨ calls.connected = false)

def RequestFails (calls : RequestCalls) (conn : Connection) : Prop :=
  ConnectFails calls conn ∨ SendFails calls.sends conn.rewritten.clientMessage

theorem connectServer_cases (calls : RequestCalls) (conn : Connection) :
    ConnectFails calls conn ∧ Throws calls.sends (connectServer calls conn) ∨
      ¬ ConnectFails calls conn ∧
        ∃ serverSocket opened, connectServer calls conn = .ok ({ conn with serverSocket }, opened) := by
  unfold connectServer ConnectFails
  by_cases unconnected : conn.serverSocket = -1
  · rw [if_pos unconnected]
    by_cases invalid : calls.socket < 0
    · rw [if_pos invalid]
      exact .inl ⟨⟨unconnected, .inl invalid⟩, .thrown _ _⟩
    · rw [if_neg invalid]
      cases resolved : calls.resolved with
      | false => exact .inl ⟨⟨unconnected, .inr (.inl rfl)⟩, .thrown _ _⟩
      | true =>
        cases connected : calls.connected with
        | false => exact .inl ⟨⟨unconnected, .inr (.inr rfl)⟩, .thrown _ _⟩
        | true => exact .inr ⟨by simp [invalid], calls.socket, _, rfl⟩
  · rw [if_neg unconnected]
    exact .inr ⟨fun failed => unconnected failed.1, conn.serverSocket, [], rfl⟩

theorem handleRequestMessage_cases (calls : RequestCalls) {conn : Connection} (listed : ¬ conn.Unlisted) :
    RequestFails calls conn ∧ Throws calls.sends (handleRequestMessage calls conn) ∨
      ¬ RequestFails calls conn ∧ ∃ result, handleRequestMessage calls conn = .ok result := by
  rw [handleRequestMessage_eq]
  rcases connectServer_cases calls conn with ⟨failed, throws⟩ | ⟨reached, serverSocket, opened, connecting⟩
  · exact .inl ⟨.inl failed, throws.bind _⟩
  · rw [connecting, ok_bind]
    dsimp only
    have same : ({ conn with serverSocket, noListMessage := (noList conn.clientMessage).getD conn.noListMessage } :
        Connection).rewritten.clientMessage = conn.rewritten.clientMessage := by
      rw [rewritten_message, rewritten_message]
    rw [if_neg (by exact listed), same]
    rcases handOver_cases calls.sends conn.rewritten.clientMessage with ⟨sent, handed⟩ | ⟨failed, throws⟩
    · rw [handed]
      exact .inr ⟨by rintro (failed | failed); exacts [reached failed, sent failed], _, rfl⟩
    · exact .inl ⟨.inr failed, throws.bind _⟩

/-! ### Responses -/

/-- What is kept is no manifest, or what is to be sent cannot be sent. -/
def ResponseFails (calls : ResponseCalls) (conn : Connection) : Prop :=
  if conn.noListMessage ≠ [] then
    find (text "Content-Type: text/xml") conn.serverMessage = none ∨ SendFails calls.sends conn.noListMessage
  else SendFails calls.sends conn.serverMessage

/-- The bitrates of a manifest cannot be read. -/
def BadBitrates (conn : Connection) : Prop :=
  conn.noListMessage ≠ [] ∧ find (text "Content-Type: text/xml") conn.serverMessage ≠ none ∧
    ∃ stop, manifestBitrates conn.serverMessage conn.availableBitrates = .error stop

theorem handleResponseMessage_cases (alpha : ℚ) (calls : ResponseCalls) {conn : Connection} (good : ¬ BadBitrates conn) :
    ResponseFails calls conn ∧ Throws calls.sends (handleResponseMessage alpha calls conn) ∨
      ¬ ResponseFails calls conn ∧ ∃ result, handleResponseMessage alpha calls conn = .ok result := by
  unfold ResponseFails
  by_cases kept : conn.noListMessage ≠ []
  · rw [if_pos kept]
    by_cases xml : find (text "Content-Type: text/xml") conn.serverMessage = none
    · refine .inl ⟨.inl xml, ?_⟩
      rw [handleResponseMessage, if_pos kept, parseXml_eq, manifestBitrates, if_pos xml]
      exact .thrown _ _
    · cases parsed : manifestBitrates conn.serverMessage conn.availableBitrates with
      | error stop => exact absurd ⟨kept, xml, stop, parsed⟩ good
      | ok result =>
        obtain ⟨rest, bitrates⟩ := result
        rw [handleResponseMessage_manifest alpha calls kept parsed]
        rcases handOver_cases calls.sends conn.noListMessage with ⟨sent, handed⟩ | ⟨failed, throws⟩
        · rw [handed]
          exact .inr ⟨by rintro (none | failed); exacts [xml none, sent failed], _, rfl⟩
        · exact .inl ⟨.inr failed, throws.bind _⟩
  · rw [if_neg kept, handleResponseMessage, if_neg kept]
    obtain ⟨currentThroughput, updated⟩ := updateThroughput_eq alpha calls.now conn
    generalize conn.updateThroughput alpha calls.now = result at updated
    obtain ⟨conn', log⟩ := result
    obtain rfl : conn' = _ := updated
    dsimp only
    rcases handOver_cases calls.sends conn.serverMessage with ⟨sent, handed⟩ | ⟨failed, throws⟩
    · rw [handed]
      exact .inr ⟨sent, _, rfl⟩
    · exact .inl ⟨failed, throws.bind _⟩

/-! ### Calls -/

/-- This is where the message of a client ends. -/
def Asks (conn : Connection) (data : Bytes) : Prop := data ≠ [] ∧ find blankLine (conn.clientMessage ++ data) ≠ none

/-- This is where the response of a connected server ends. -/
def Responds (conn : Connection) (data : Bytes) : Prop :=
  data ≠ [] ∧ conn.serverSocket ≠ -1 ∧ Complete conn.serverMessageLen (conn.serverMessage ++ data)

def hearing (conn : Connection) (data : Bytes) : Connection := { conn with clientMessage := conn.clientMessage ++ data }
def receiving (conn : Connection) (data : Bytes) : Connection := { conn with serverMessage := conn.serverMessage ++ data }

/-- What the sends of a call do. -/
def sends : Event → List Transfer
  | .accept _ _ _ => []
  | .client _ _ calls => calls.sends
  | .server _ _ calls => calls.sends

/-- The failures that the program throws a `runtime_error` for, and those of `send` that end it in another way. -/
def Refused (p : MiProxy) : Event → Prop
  | .accept newSocket _ _ => newSocket < 0
  | .client ip (some data) calls =>
    ∃ conn, p.clients[ip]? = some conn ∧ Asks conn data ∧ RequestFails calls (hearing conn data)
  | .server ip (some data) calls =>
    ∃ conn, p.clients[ip]? = some conn ∧ Responds conn data ∧ ResponseFails calls (receiving conn data)
  | _ => False

/-- The failures that nothing in the program is there for: the name server's, a read that returns -1, a chunk asked for
before there are bitrates, numbers that cannot be read. -/
def Unforeseen (p : MiProxy) : Event → Prop
  | .accept _ ip dns => p.clients[ip]? = none ∧ p.dnsMode = true ∧ ∃ stop, dns = .error stop
  | .client ip none _ => p.clients[ip]? ≠ none
  | .client ip (some data) _ => ∃ conn, p.clients[ip]? = some conn ∧ Asks conn data ∧ (hearing conn data).Unlisted
  | .server ip none _ => ∃ conn, p.clients[ip]? = some conn ∧ conn.serverSocket ≠ -1
  | .server ip (some data) _ =>
    ∃ conn, p.clients[ip]? = some conn ∧ data ≠ [] ∧ conn.serverSocket ≠ -1 ∧
      ((∃ stop, expectedLen conn.serverMessageLen (conn.serverMessage ++ data) = .error stop) ∨
        Responds conn data ∧ BadBitrates (receiving conn data))

theorem refused_client {p : MiProxy} {ip data : Bytes} {calls : RequestCalls} {conn : Connection}
    (entry : p.clients[ip]? = some conn) :
    p.Refused (.client ip (some data) calls) ↔ Asks conn data ∧ RequestFails calls (hearing conn data) := by
  constructor
  · rintro ⟨conn', here, failed⟩
    cases entry.symm.trans here
    exact failed
  · exact fun failed => ⟨conn, entry, failed⟩

theorem refused_server {p : MiProxy} {ip data : Bytes} {calls : ResponseCalls} {conn : Connection}
    (entry : p.clients[ip]? = some conn) :
    p.Refused (.server ip (some data) calls) ↔ Responds conn data ∧ ResponseFails calls (receiving conn data) := by
  constructor
  · rintro ⟨conn', here, failed⟩
    cases entry.symm.trans here
    exact failed
  · exact fun failed => ⟨conn, entry, failed⟩

/-- Without an entry only an accept can be refused. -/
theorem Refused.entry {p : MiProxy} {e : Event} (refused : p.Refused e) :
    (∃ newSocket ip dns, e = .accept newSocket ip dns) ∨ ∃ conn, p.clients[e.ip]? = some conn := by
  cases e with
  | accept newSocket ip dns => exact .inl ⟨newSocket, ip, dns, rfl⟩
  | client ip read calls =>
    cases read with
    | none => exact refused.elim
    | some data =>
      obtain ⟨conn, entry, -⟩ := refused
      exact .inr ⟨conn, entry⟩
  | server ip read calls =>
    cases read with
    | none => exact refused.elim
    | some data =>
      obtain ⟨conn, entry, -⟩ := refused
      exact .inr ⟨conn, entry⟩

theorem accept_cases {p : MiProxy} {newSocket : Int} {ip : Bytes} {dns : Exec Bytes}
    (foreseen : ¬ p.Unforeseen (.accept newSocket ip dns)) :
    p.Refused (.accept newSocket ip dns) ∧ Throws [] (p.dispatch (.accept newSocket ip dns)) ∨
      ¬ p.Refused (.accept newSocket ip dns) ∧ ∃ result, p.dispatch (.accept newSocket ip dns) = .ok result := by
  simp only [dispatch, handleMasterConnection, Refused]
  by_cases invalid : newSocket < 0
  · rw [if_pos invalid]
    exact .inl ⟨invalid, .thrown _ _⟩
  · rw [if_neg invalid]
    refine .inr ⟨invalid, ?_⟩
    cases entry : p.clients[ip]? with
    | some conn => exact ⟨_, rfl⟩
    | none =>
      cases mode : p.dnsMode with
      | false => exact ⟨_, rfl⟩
      | true =>
        cases dns with
        | error stop => exact absurd ⟨entry, mode, stop, rfl⟩ foreseen
        | ok address => exact ⟨_, rfl⟩

theorem client_cases {p : MiProxy} {ip : Bytes} {read : Option Bytes} {calls : RequestCalls}
    (foreseen : ¬ p.Unforeseen (.client ip read calls)) :
    p.Refused (.client ip read calls) ∧ Throws calls.sends (p.dispatch (.client ip read calls)) ∨
      ¬ p.Refused (.client ip read calls) ∧ ∃ result, p.dispatch (.client ip read calls) = .ok result := by
  cases entry : p.clients[ip]? with
  | none =>
    refine .inr ⟨fun refused => ?_, (p, []), by simp only [dispatch, entry]⟩
    obtain ⟨_, _, _, accept⟩ | ⟨conn, here⟩ := refused.entry
    · cases accept
    · cases entry.symm.trans here
  | some conn =>
    rcases read with _ | _ | ⟨c, data⟩
    · exact absurd (show p.clients[ip]? ≠ none by rw [entry]; exact Option.some_ne_none conn) foreseen
    · refine .inr ⟨?_, ({ p with clients := p.clients.erase conn.clientIp }, [.clientClosed conn.clientSocket]), ?_⟩
      · rw [refused_client entry]
        exact fun refused => refused.1.1 rfl
      · simp only [dispatch, entry]
        rfl
    · rw [refused_client entry]
      by_cases more : find blankLine (conn.clientMessage ++ c :: data) = none
      · refine .inr ⟨fun refused => refused.1.2 more,
          (p.store ip (hearing conn (c :: data)), [.heard conn.clientSocket (c :: data)]), ?_⟩
        simp only [dispatch, entry, handleClientConnection, if_pos more]
        rfl
      · have asks : Asks conn (c :: data) := ⟨List.cons_ne_nil c data, more⟩
        have listed : ¬ (hearing conn (c :: data)).Unlisted := fun unlisted => foreseen ⟨conn, entry, asks, unlisted⟩
        have call : p.dispatch (.client ip (some (c :: data)) calls) =
            handleRequestMessage calls (hearing conn (c :: data)) >>= fun result =>
              .ok (p.store ip result.1, .heard conn.clientSocket (c :: data) :: result.2) := by
          simp only [dispatch, entry, handleClientConnection, if_neg more, bind_assoc]
          rfl
        rw [call]
        rcases handleRequestMessage_cases calls listed with ⟨failed, throws⟩ | ⟨fine, result, handled⟩
        · exact .inl ⟨⟨asks, failed⟩, throws.bind _⟩
        · rw [handled]
          exact .inr ⟨fun refused => fine refused.2, _, rfl⟩

/-- What a server sends is kept until the response is complete. -/
theorem received_cases {p : MiProxy} {ip data : Bytes} {calls : ResponseCalls} {conn : Connection}
    (entry : p.clients[ip]? = some conn) (connected : conn.serverSocket ≠ -1) (some : data ≠ [])
    (foreseen : ¬ p.Unforeseen (.server ip (.some data) calls)) :
    p.Refused (.server ip (.some data) calls) ∧
        Throws calls.sends (handleServerConnection p.alpha (.some data) calls conn) ∨
      ¬ p.Refused (.server ip (.some data) calls) ∧
        ∃ result, handleServerConnection p.alpha (.some data) calls conn = .ok result := by
  obtain ⟨start, handling⟩ := handleServerConnection_data p.alpha calls conn some
  rw [refused_server entry, handling]
  cases expected : expectedLen conn.serverMessageLen (conn.serverMessage ++ data) with
  | error stop => exact absurd ⟨conn, entry, some, connected, .inl ⟨stop, expected⟩⟩ foreseen
  | ok expectation =>
    have incomplete : (∀ len, expectation = .some len → (conn.serverMessage ++ data).length < len) →
        ¬ Responds conn data := by
      rintro short ⟨-, -, len, known, full⟩
      rw [expected] at known
      have less := short len (Except.ok.inj known)
      omega
    cases expectation with
    | none => exact .inr ⟨fun refused => incomplete (fun len none => by cases none) refused.1, _, rfl⟩
    | some len =>
      rw [ok_bind]
      dsimp only
      by_cases short : (conn.serverMessage ++ data).length < len
      · rw [if_pos short]
        refine .inr ⟨fun refused => incomplete ?_ refused.1, _, rfl⟩
        intro len' same
        rwa [← Option.some.inj same]
      · rw [if_neg short]
        have responds : Responds conn data := ⟨some, connected, len, expected, by omega⟩
        have good : ¬ BadBitrates (receiving conn data) :=
          fun bad => foreseen ⟨conn, entry, some, connected, .inr ⟨responds, bad⟩⟩
        rcases @handleResponseMessage_cases p.alpha calls { conn.seen start calls with
            serverMessage := conn.serverMessage ++ data, serverMessageLen := len } good with
          ⟨failed, throws⟩ | ⟨fine, handled⟩
        · exact .inl ⟨⟨responds, failed⟩, throws⟩
        · exact .inr ⟨fun refused => fine refused.2, handled⟩

theorem server_cases {p : MiProxy} {ip : Bytes} {read : Option Bytes} {calls : ResponseCalls}
    (foreseen : ¬ p.Unforeseen (.server ip read calls)) :
    p.Refused (.server ip read calls) ∧ Throws calls.sends (p.dispatch (.server ip read calls)) ∨
      ¬ p.Refused (.server ip read calls) ∧ ∃ result, p.dispatch (.server ip read calls) = .ok result := by
  cases entry : p.clients[ip]? with
  | none =>
    refine .inr ⟨fun refused => ?_, (p, []), by simp only [dispatch, entry]⟩
    obtain ⟨_, _, _, accept⟩ | ⟨conn, here⟩ := refused.entry
    · cases accept
    · cases entry.symm.trans here
  | some conn =>
    by_cases unconnected : conn.serverSocket = -1
    · refine .inr ⟨?_, (p, []), by simp only [dispatch, entry, if_pos unconnected]⟩
      cases read with
      | none => exact id
      | some data =>
        rw [refused_server entry]
        exact fun refused => refused.1.2.1 unconnected
    have call : p.dispatch (.server ip read calls) = handleServerConnection p.alpha read calls conn >>= fun result =>
        .ok ({ p.store ip result.1 with log := p.log ++ result.2.1 }, result.2.2) := by
      simp only [dispatch, entry, if_neg unconnected]
      rfl
    rw [call]
    rcases read with _ | _ | ⟨c, data⟩
    · exact absurd ⟨conn, entry, unconnected⟩ foreseen
    · refine .inr ⟨?_, _, rfl⟩
      rw [refused_server entry]
      exact fun refused => refused.1.1 rfl
    · rcases received_cases entry unconnected (List.cons_ne_nil c data) foreseen with
        ⟨refused, throws⟩ | ⟨fine, result, handled⟩
      · exact .inl ⟨refused, throws.bind _⟩
      · rw [handled]
        exact .inr ⟨fine, _, rfl⟩

theorem dispatch_cases {p : MiProxy} {e : Event} (foreseen : ¬ p.Unforeseen e) :
    p.Refused e ∧ Throws (sends e) (p.dispatch e) ∨ ¬ p.Refused e ∧ ∃ result, p.dispatch e = .ok result := by
  cases e with
  | accept newSocket ip dns => exact accept_cases foreseen
  | client ip read calls => exact client_cases foreseen
  | server ip read calls => exact server_cases foreseen

end MiProxy

end VStream
