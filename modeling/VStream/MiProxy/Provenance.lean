import VStream.MiProxy.Descriptors

/-!
# Where messages come from and where responses go

An `Account` of an address records, from the actions alone, which socket each
byte of a request was heard on and which socket waits for the next response. An
accept from an address that has an entry hands all of it to the new socket, so
it has to come while nothing is under way.
-/

namespace VStream
open Cpp Net Connection MiProxy
open Std (TreeMap)

structure Account where
  /-- What was read since the last message, with the sockets it was read from. -/
  heard : List (Int × Bytes) := []
  /-- The sockets that wait for a response of the server connection, the next one first. -/
  asked : List Int := []
  /-- The request whose no-list message is still to be sent. -/
  manifest : Option (Int × Bytes) := none
  deriving DecidableEq

namespace Account

def bytes (a : Account) : Bytes := (a.heard.map Prod.snd).flatten

def after (a : Account) : Action → Account
  | .accepted _ => a
  | .connected _ _ => { a with asked := [] }
  | .clientClosed _ => {}
  | .serverClosed _ => { a with asked := [] }
  | .heard fd data => { a with heard := a.heard ++ [(fd, data)] }
  | .forwarded _ _ =>
    match a.heard with
    | [] => a
    | (fd, _) :: _ =>
      { heard := [], asked := a.asked ++ [fd]
        manifest := if (noList a.bytes).isSome then some (fd, a.bytes) else a.manifest }
  | .intercepted _ _ => { a with asked := a.asked.tail ++ (a.manifest.map Prod.fst).toList, manifest := none }
  | .answered _ _ => { a with asked := a.asked.tail }

/-- A message consists of what one socket sent, but for the changes that the proxy is for; a response goes to the
socket that waits for it. -/
def Right (a : Account) : Action → Prop
  | .forwarded _ message => ∃ fd, (∀ part ∈ a.heard, part.1 = fd) ∧ ∃ bitrates, Rewritten bitrates a.bytes message
  | .intercepted _ message => ∃ fd asked, a.manifest = some (fd, asked) ∧ noList asked = some message
  | .answered fd _ => ∀ asker ∈ a.asked.head?, asker = fd
  | _ => True

def AllRight (a : Account) : List Action → Prop
  | [] => True
  | action :: rest => a.Right action ∧ (a.after action).AllRight rest

def Settled (a : Account) : Prop := a.heard = [] ∧ a.asked = [] ∧ a.manifest = none

end Account

structure Watched where
  proxy : MiProxy
  accounts : Bytes → Account

namespace Watched

def next (s : Watched) (e : Event) : Exec (List Action × Watched) := do
  let (proxy, actions) ← s.proxy.dispatch e
  let account := actions.foldl Account.after (s.accounts e.ip)
  return (actions, { proxy, accounts := Function.update s.accounts e.ip account })

structure Started (s : Watched) : Prop where
  empty : ∀ ip : Bytes, s.proxy.clients[ip]? = none
  accounts : ∀ ip, s.accounts ip = {}

/-- An accept from an address that has an entry comes while nothing of it is under way. -/
def Orderly (s : Watched) : Event → Prop
  | .accept _ ip _ => s.proxy.clients[ip]? ≠ none → (s.accounts ip).Settled
  | _ => True

/-! ### The invariant -/

/-- The entry of an address holds what its account says, all of it on behalf of its socket. -/
structure Keeps (conn : Connection) (a : Account) : Prop where
  message : conn.clientMessage = a.bytes
  heard : ∀ part ∈ a.heard, part.1 = conn.clientSocket
  asked : ∀ fd ∈ a.asked, fd = conn.clientSocket
  manifest : match a.manifest with
    | none => conn.noListMessage = []
    | some (fd, asked) => fd = conn.clientSocket ∧ noList asked = some conn.noListMessage

structure Inv (s : Watched) : Prop where
  keyed : s.proxy.Keyed
  absent : ∀ ip : Bytes, s.proxy.clients[ip]? = none → s.accounts ip = {}
  keeps : ∀ (ip : Bytes) (conn : Connection), s.proxy.clients[ip]? = some conn → Keeps conn (s.accounts ip)

theorem Keeps.idle (conn : Connection) (message : conn.clientMessage = []) (plain : conn.noListMessage = []) :
    Keeps conn {} where
  message := message
  heard := by simp
  asked := by simp
  manifest := plain

theorem Keeps.congr {conn conn' : Connection} {a : Account} (keeps : Keeps conn a)
    (message : conn'.clientMessage = conn.clientMessage) (socket : conn'.clientSocket = conn.clientSocket)
    (noListMessage : conn'.noListMessage = conn.noListMessage) : Keeps conn' a where
  message := message.trans keeps.message
  heard := by rw [socket]; exact keeps.heard
  asked := by rw [socket]; exact keeps.asked
  manifest := by rw [socket, noListMessage]; exact keeps.manifest

theorem Keeps.settled {conn conn' : Connection} {a : Account} (keeps : Keeps conn a) (settled : a.Settled)
    (message : conn'.clientMessage = conn.clientMessage) (noListMessage : conn'.noListMessage = conn.noListMessage) :
    Keeps conn' a := by
  obtain ⟨heard, asked, manifest⟩ := settled
  have plain := keeps.manifest
  rw [manifest] at plain
  refine ⟨message.trans keeps.message, by simp [heard], by simp [asked], ?_⟩
  rw [manifest]
  exact noListMessage.trans plain

theorem Keeps.heard_more {conn : Connection} {a : Account} (keeps : Keeps conn a) (data : Bytes) :
    Keeps { conn with clientMessage := conn.clientMessage ++ data } (a.after (.heard conn.clientSocket data)) where
  message := by simp [Account.after, Account.bytes, keeps.message]
  heard part member := by
    rcases List.mem_append.mp member with before | here
    · exact keeps.heard part before
    · rw [List.mem_singleton.mp here]
  asked := keeps.asked
  manifest := keeps.manifest

theorem Keeps.cleared {conn : Connection} {a : Account} (keeps : Keeps conn a) : Keeps conn { a with asked := [] } where
  message := keeps.message
  heard := keeps.heard
  asked := by simp
  manifest := keeps.manifest

theorem Keeps.forwarded {conn conn' : Connection} {a : Account} (keeps : Keeps conn a) (some : a.heard ≠ [])
    (serverSocket : Int) (message : Bytes) (cleared : conn'.clientMessage = [])
    (socket : conn'.clientSocket = conn.clientSocket)
    (noListMessage : conn'.noListMessage = (noList conn.clientMessage).getD conn.noListMessage) :
    Keeps conn' (a.after (.forwarded serverSocket message)) := by
  obtain ⟨⟨fd, first⟩, rest, parts⟩ := List.exists_cons_of_ne_nil some
  obtain rfl : fd = conn.clientSocket := keeps.heard (fd, first) (by rw [parts]; exact List.mem_cons_self)
  rw [Account.after, parts]
  refine ⟨cleared, by simp, ?_, ?_⟩
  · intro fd member
    rcases List.mem_append.mp member with before | here
    · rw [socket]; exact keeps.asked fd before
    · rw [socket]; exact List.mem_singleton.mp here
  · rw [noListMessage, keeps.message, socket]
    cases found : noList a.bytes with
    | none => exact keeps.manifest
    | some asked => exact ⟨rfl, found⟩

theorem Keeps.manifest_some {conn : Connection} {a : Account} (keeps : Keeps conn a) (kept : conn.noListMessage ≠ []) :
    ∃ asked, a.manifest = some (conn.clientSocket, asked) ∧ noList asked = some conn.noListMessage := by
  have manifest := keeps.manifest
  cases here : a.manifest with
  | none =>
    rw [here] at manifest
    exact absurd manifest kept
  | some request =>
    obtain ⟨fd, asked⟩ := request
    rw [here] at manifest
    obtain ⟨rfl, found⟩ := manifest
    exact ⟨asked, rfl, found⟩

theorem Keeps.intercepted {conn conn' : Connection} {a : Account} (keeps : Keeps conn a)
    (kept : conn.noListMessage ≠ []) (serverSocket : Int) (message : Bytes)
    (same : conn'.clientMessage = conn.clientMessage) (socket : conn'.clientSocket = conn.clientSocket)
    (plain : conn'.noListMessage = []) : Keeps conn' (a.after (.intercepted serverSocket message)) := by
  obtain ⟨asked, manifest, -⟩ := keeps.manifest_some kept
  refine ⟨same.trans keeps.message, by rw [socket]; exact keeps.heard, ?_, plain⟩
  intro fd member
  rw [Account.after, manifest] at member
  rw [socket]
  rcases List.mem_append.mp member with before | here
  · exact keeps.asked fd (List.mem_of_mem_tail before)
  · simpa using here

theorem Keeps.answered {conn : Connection} {a : Account} (keeps : Keeps conn a) (fd : Int) (response : Bytes) :
    Keeps conn (a.after (.answered fd response)) where
  message := keeps.message
  heard := keeps.heard
  asked := fun fd member => keeps.asked fd (List.mem_of_mem_tail member)
  manifest := keeps.manifest

/-! ### One call -/

theorem Inv.store {s : Watched} (inv : Inv s) {ip : Bytes} {conn : Connection} {a : Account} {log : List LogLine}
    (keyed : (s.proxy.store ip conn).Keyed) (keeps : Keeps conn a) :
    Inv { proxy := { s.proxy.store ip conn with log }, accounts := Function.update s.accounts ip a } where
  keyed := keyed
  absent other entry := by
    by_cases here : other = ip
    · subst here
      exact absurd entry (by simp [MiProxy.store])
    · dsimp only
      rw [Function.update_of_ne here]
      exact inv.absent other ((s.proxy.store_other conn here).symm.trans entry)
  keeps other conn' entry := by
    by_cases here : other = ip
    · subst here
      have same := (s.proxy.store_here other conn).symm.trans entry
      obtain rfl := Option.some.inj same
      dsimp only
      rw [Function.update_self]
      exact keeps
    · dsimp only
      rw [Function.update_of_ne here]
      exact inv.keeps other conn' ((s.proxy.store_other conn here).symm.trans entry)

theorem Inv.erase {s : Watched} (inv : Inv s) (ip : Bytes) :
    Inv { proxy := { s.proxy with clients := s.proxy.clients.erase ip }
          accounts := Function.update s.accounts ip {} } where
  keyed := inv.keyed.erase ip
  absent other entry := by
    by_cases here : other = ip
    · subst here
      exact Function.update_self ..
    · rw [TreeMap.getElem?_erase, if_neg (by simpa using Ne.symm here)] at entry
      exact (Function.update_of_ne here ..).trans (inv.absent other entry)
  keeps other conn entry := by
    by_cases here : other = ip
    · subst here
      simp at entry
    · rw [TreeMap.getElem?_erase, if_neg (by simpa using Ne.symm here)] at entry
      dsimp only
      rw [Function.update_of_ne here]
      exact inv.keeps other conn entry

theorem Keeps.request {conn : Connection} {a : Account} (keeps : Keeps conn a) {data message : Bytes}
    {calls : RequestCalls} {serverSocket currentBitrate : Int} {chunkname : Bytes} {opened : List Action}
    (server : Reaches conn calls serverSocket opened)
    (rewritten : Rewritten conn.availableBitrates (conn.clientMessage ++ data) message) :
    let actions := .heard conn.clientSocket data :: (opened ++ [.forwarded serverSocket message])
    a.AllRight actions ∧
      Keeps { conn with clientMessage := [], serverSocket, currentBitrate, chunkname
                        noListMessage := (noList (conn.clientMessage ++ data)).getD conn.noListMessage }
        (actions.foldl Account.after a) := by
  have more := keeps.heard_more data
  have some : (a.after (.heard conn.clientSocket data)).heard ≠ [] := by simp [Account.after]
  have right : ∀ b : Account, b.heard = (a.after (.heard conn.clientSocket data)).heard →
      b.Right (.forwarded serverSocket message) := by
    intro b same
    refine ⟨conn.clientSocket, by rw [same]; exact more.heard, conn.availableBitrates, ?_⟩
    rw [Account.bytes, same, ← Account.bytes, ← more.message]
    exact rewritten
  cases server with
  | old connected =>
    exact ⟨⟨trivial, right _ rfl, trivial⟩, more.forwarded some conn.serverSocket message rfl rfl rfl⟩
  | new unconnected valid =>
    exact ⟨⟨trivial, trivial, right _ rfl, trivial⟩, more.cleared.forwarded some calls.socket message rfl rfl rfl⟩

theorem Inv.next {s s' : Watched} {e : Event} {actions : List Action} (inv : Inv s) (orderly : s.Orderly e)
    (call : s.next e = .ok (actions, s')) : Inv s' ∧ (s.accounts e.ip).AllRight actions := by
  obtain ⟨⟨p', acts⟩, handled, call⟩ := bind_ok call
  cases call
  have step := dispatch_step handled
  have keyed := inv.keyed.step step
  cases step with
  | idle nothing =>
    refine ⟨?_, trivial⟩
    dsimp only [List.foldl_nil]
    rw [Function.update_eq_self]
    exact inv
  | @added newSocket ip dns wwwIp valid absent =>
    refine ⟨inv.store keyed ?_, trivial, trivial⟩
    dsimp only [Event.ip]
    rw [inv.absent ip absent]
    exact .idle _ rfl rfl
  | @replaced newSocket ip dns conn valid entry =>
    have settled := orderly (by rw [entry]; exact Option.some_ne_none _)
    exact ⟨inv.store keyed ((inv.keeps ip conn entry).settled settled rfl rfl), trivial, trivial⟩
  | @clientLeft ip calls conn entry =>
    refine ⟨?_, trivial, trivial⟩
    rw [inv.keyed ip conn entry]
    exact inv.erase ip
  | @heard ip data calls conn entry some more =>
    exact ⟨inv.store keyed ((inv.keeps ip conn entry).heard_more data), trivial, trivial⟩
  | @requested ip data calls conn _ _ _ _ _ entry some ended server rewritten =>
    obtain ⟨right, keeps⟩ := (inv.keeps ip conn entry).request server rewritten
    exact ⟨inv.store keyed keeps, right⟩
  | @serverLeft ip calls conn start entry connected =>
    exact ⟨inv.store keyed ((inv.keeps ip conn entry).cleared.congr rfl rfl rfl), trivial, trivial⟩
  | @receiving ip data calls conn start len entry connected some waits =>
    exact ⟨inv.store keyed ((inv.keeps ip conn entry).congr rfl rfl rfl), trivial⟩
  | @intercepted ip data calls conn _ _ _ entry connected some complete kept =>
    have keeps := inv.keeps ip conn entry
    obtain ⟨asked, manifest, found⟩ := keeps.manifest_some kept
    refine ⟨inv.store keyed ?_, ⟨_, asked, manifest, found⟩, trivial⟩
    exact keeps.intercepted kept conn.serverSocket conn.noListMessage rfl rfl rfl
  | @answered ip data calls conn _ _ log entry connected some complete plain =>
    have keeps := inv.keeps ip conn entry
    have keeps' := keeps.answered conn.clientSocket (conn.serverMessage ++ data)
    refine ⟨inv.store keyed (keeps'.congr rfl rfl rfl), ?_, trivial⟩
    exact fun asker first => keeps.asked asker (List.mem_of_mem_head? first)

/-- A response that is whole is passed on at once, or kept from the client for the sake of the manifest. -/
theorem Inv.complete {s s' : Watched} {ip data : Bytes} {calls : ResponseCalls} {conn : Connection}
    {actions : List Action} (inv : Inv s) (call : s.next (.server ip (some data) calls) = .ok (actions, s'))
    (entry : s.proxy.clients[ip]? = some conn) (connected : conn.serverSocket ≠ -1) (more : data ≠ [])
    (complete : Complete conn.serverMessageLen (conn.serverMessage ++ data)) :
    actions = [.answered conn.clientSocket (conn.serverMessage ++ data)] ∨
      (s.accounts ip).manifest.isSome ∧ ∃ message, actions = [.intercepted conn.serverSocket message] := by
  obtain ⟨⟨p', acts⟩, handled, call⟩ := bind_ok call
  cases call
  have step := dispatch_step handled
  cases step with
  | idle nothing => exact absurd (nothing conn entry) connected
  | serverLeft entry' => exact absurd rfl more
  | receiving entry' connected' some waits =>
    obtain rfl := Option.some.inj (entry.symm.trans entry')
    obtain ⟨len, expected, whole⟩ := complete
    cases waits with
    | header unknown =>
      rw [unknown] at expected
      cases expected
    | body expected' short =>
      rw [expected'] at expected
      cases expected
      omega
  | intercepted entry' connected' some complete' kept =>
    obtain rfl := Option.some.inj (entry.symm.trans entry')
    obtain ⟨asked, manifest, -⟩ := (inv.keeps ip conn entry).manifest_some kept
    exact .inr ⟨by rw [manifest]; rfl, _, rfl⟩
  | answered entry' connected' some complete' plain =>
    obtain rfl := Option.some.inj (entry.symm.trans entry')
    exact .inl rfl

/-! ### Runs -/

theorem Started.inv {s : Watched} (started : Started s) : Inv s where
  keyed ip conn entry := by
    rw [started.empty ip] at entry
    cases entry
  absent ip _ := started.accounts ip
  keeps ip conn entry := by
    rw [started.empty ip] at entry
    cases entry

def sampleStart : Watched where
  proxy := Process.sampleStart.proxy
  accounts _ := {}

def sampleRequest : Bytes := text "GET /big_buck_bunny.f4m HTTP/1.1\r\n\r\n"

def sampleManifest : Bytes :=
  text "HTTP/1.1 200 OK\r\nContent-Type: text/xml\r\nContent-Length: 14\r\n\r\nbitrate=\"500\"\n"

theorem sampleStart_started : Started sampleStart := ⟨Process.sampleStart_started.empty, fun _ => rfl⟩

def Call (s s' : Watched) : Prop := ∃ e actions, s.next e = .ok (actions, s')

end Watched

end VStream
