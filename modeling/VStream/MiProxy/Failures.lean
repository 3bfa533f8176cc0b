import VStream.Cpp.Endings
import VStream.MiProxy.Containment
import VStream.MiProxy.Manifest
import VStream.MiProxy.Run

/-!
# Why a run stops

`Fails` lists how a handler call stops, and `Stopped` how the loop of `run`
does: in `select`, at a descriptor that no set can hold, behind a client that
has left, or in a handler call.
-/

namespace VStream
open Cpp Net Connection
open Std (TreeMap)

/-- What `stoi` and the functions on positions throw. -/
def Unreadable (stop : Stop) : Prop := stop = .thrown .invalidArgument ∨ stop = .thrown .outOfRange

/-- How a manifest stops the program: a bitrate that is no number, none at all, or one whose quotation marks do not end. -/
def Spoils (response : Bytes) (stop : Stop) : Prop :=
  Unreadable stop ∨ stop = .undefined ∨ stop = .diverges ∧ (response.length ≤ maxSize → Jams response)

namespace MiProxy

/-- What the handlers say in a `runtime_error`. -/
def complaints : List String :=
  ["accept", "socket failed", "make_client_sockaddr failed", "connect failed", "Content-Type is not text/xml", "send failed"]

/-- With one of these, or at the peer of its sends. -/
def Complains (sends : List Transfer) (stop : Stop) : Prop :=
  (∃ what ∈ complaints, stop = .thrown (.runtimeError what)) ∨ Breaks sends stop

inductive Fails (p : MiProxy) : Event → Stop → Prop where
  | refused {e : Event} {stop : Stop} (refused : p.Refused e) (complains : Complains (sends e) stop) :
      Fails p e stop
  | unresolved {newSocket : Int} {ip : Bytes} {dns : Exec Bytes} {stop : Stop} (absent : p.clients[ip]? = none)
      (mode : p.dnsMode = true) (failed : dns = .error stop) : Fails p (.accept newSocket ip dns) stop
  | unreadClient {ip : Bytes} {calls : RequestCalls} (entry : p.clients[ip]? ≠ none) :
      Fails p (.client ip none calls) (.thrown .lengthError)
  | unlisted {ip data : Bytes} {calls : RequestCalls} {conn : Connection} (entry : p.clients[ip]? = some conn)
      (asks : Asks conn data) (unlisted : (hearing conn data).Unlisted) : Fails p (.client ip (some data) calls) .undefined
  | unreadServer {ip : Bytes} {calls : ResponseCalls} {conn : Connection} (entry : p.clients[ip]? = some conn)
      (connected : conn.serverSocket ≠ -1) : Fails p (.server ip none calls) (.thrown .lengthError)
  | length {ip data : Bytes} {calls : ResponseCalls} {conn : Connection} {stop : Stop} (entry : p.clients[ip]? = some conn)
      (connected : conn.serverSocket ≠ -1) (unknown : conn.serverMessageLen = 0)
      (bad : announced (conn.serverMessage ++ data) = .error stop) (unreadable : Unreadable stop) :
      Fails p (.server ip (some data) calls) stop
  | manifest {ip data : Bytes} {calls : ResponseCalls} {conn : Connection} {stop : Stop}
      (entry : p.clients[ip]? = some conn) (responds : Responds conn data) (kept : conn.noListMessage ≠ [])
      (spoils : Spoils (conn.serverMessage ++ data) stop) : Fails p (.server ip (some data) calls) stop

def OutOfRange (p : MiProxy) (fd : Int) : Prop := p.Watches fd ∧ ¬(0 ≤ fd ∧ fd < fdSetSize)

/-- Why the loop of `run` stops: each time in a state that handler calls have led to. -/
inductive Stopped (cs : List RoundCalls) (p : MiProxy) : Stop → Prop where
  | select : Stopped cs p (.thrown (.runtimeError "select error"))
  | outside {m : MiProxy} {turn : CallLog} {fd : Int} (does : Does p turn m) (outside : m.OutOfRange fd) :
      Stopped cs p .undefined
  /-- The entry that the loop over the clients stands at is erased. -/
  | left {m q : MiProxy} {turn : CallLog} {e : Event} {actions : List Action} (does : Does p turn m) (busy : ¬m.Idle e)
      (leaves : e.Leaves) (dispatched : m.dispatch e = .ok (q, actions)) : Stopped cs p .undefined
  | accepting {m : MiProxy} {turn : CallLog} {c : RoundCalls} {stop : Stop} (member : c ∈ cs) (does : Does p turn m)
      (fails : Fails m (.accept c.newSocket c.ip c.dns) stop) : Stopped cs p stop
  | serving {m : MiProxy} {turn : CallLog} {e : Event} {stop : Stop} (does : Does p turn m) (reads : e.reads ≠ none)
      (fails : Fails m e stop) : Stopped cs p stop

section stopping
variable {p m : MiProxy} {cs : List RoundCalls} {c : RoundCalls} {turn : CallLog} {stop : Stop}

theorem Stopped.behind (does : Does p turn m) (stopped : Stopped cs m stop) : Stopped cs p stop := by
  cases stopped with
  | select => exact .select
  | outside later out => exact .outside (does.append later) out
  | left later busy leaves dispatched => exact .left (does.append later) busy leaves dispatched
  | accepting member later fails => exact .accepting member (does.append later) fails
  | serving later reads fails => exact .serving (does.append later) reads fails

theorem Stopped.mono {cs' : List RoundCalls} (sub : ∀ c ∈ cs, c ∈ cs') (stopped : Stopped cs p stop) :
    Stopped cs' p stop := by
  cases stopped with
  | select => exact .select
  | outside does out => exact .outside does out
  | left does busy leaves dispatched => exact .left does busy leaves dispatched
  | accepting member does fails => exact .accepting (sub _ member) does fails
  | serving does reads fails => exact .serving does reads fails

end stopping

end MiProxy

end VStream
