import VStream.MiProxy.DnsClient
import VStream.MiProxy.Failures

/-!
# The proxy as a program

`main` from its arguments through `init` to the rounds of `run`. What the
system calls give is a parameter: `Environment` for those before the loop, and
one `Activity` for each round. All that the nameserver will say over its
connection is there from the start, and every query takes its reply from it.
-/

namespace VStream.MiProxy
open Cpp Net
open Std (TreeMap)

/-! ### Arguments -/

structure Options where
  dnsMode : Bool
  listenPort : Int
  defaultWwwIp : Bytes := []
  dnsIp : Bytes := []
  dnsPort : Int := 0
  alpha : ℚ
  logPath : Bytes

def raise {α : Type} (what : String) : Exec α := .error (.thrown (.runtimeError what))

/-- The first argument is the name of the program. -/
def getOptions (stof : Bytes → Exec ℚ) : List Bytes → Exec Options
  | [_, mode, port, defaultWwwIp, weight, logPath] =>
    if mode = text "--nodns" then do
      let listenPort ← stoi port
      let alpha ← stof weight
      return { dnsMode := false, listenPort, defaultWwwIp, alpha, logPath }
    else raise "Error: missing or extra arguments"
  | [_, mode, port, dnsIp, dns, weight, logPath] =>
    if mode = text "--dns" then do
      let listenPort ← stoi port
      let dnsPort ← stoi dns
      let alpha ← stof weight
      return { dnsMode := true, listenPort, dnsIp, dnsPort, alpha, logPath }
    else raise "Error: missing or extra arguments"
  | _ => raise "Error: missing or extra arguments"

/-! ### Sockets -/

structure Environment where
  stof : Bytes → Exec ℚ
  /-- The log can be opened for writing. -/
  writable : Bytes → Bool
  socket : Int
  setsockopt : Bool
  bind : UInt16 → Bool
  /-- What the calls for the connection to the nameserver give. -/
  dnsSocket : Int
  dnsSetsockopt : Bool
  resolves : Bytes → Bool
  connects : Bytes → UInt16 → Bool

/-- Where `listen` fails, the error is made but not thrown. -/
def initMasterSocket (env : Environment) (listenPort : Int) : Exec Int :=
  if env.socket ≤ 0 then raise "socket failed"
  else if ¬env.setsockopt then raise "setsockopt failed"
  else if ¬env.bind (UInt16.ofInt listenPort) then raise "bind failed"
  else .ok env.socket

def initDnsSocket (env : Environment) (dnsIp : Bytes) (dnsPort : Int) : Exec Int :=
  if env.dnsSocket < 0 then raise "socket failed"
  else if ¬env.dnsSetsockopt then raise "setsockopt failed"
  else if ¬env.resolves dnsIp then raise "make_client_sockaddr failed"
  else if ¬env.connects dnsIp (UInt16.ofInt dnsPort) then raise "connect dns failed"
  else .ok env.dnsSocket

def init (env : Environment) (options : Options) : Exec MiProxy := do
  let masterSocket ← initMasterSocket env options.listenPort
  let dnsSocket ← (if options.dnsMode then initDnsSocket env options.dnsIp options.dnsPort else .ok env.dnsSocket)
  return { dnsMode := options.dnsMode, defaultWwwIp := options.defaultWwwIp, alpha := options.alpha, masterSocket, dnsSocket }

/-! ### The rounds -/

/-- The address, and the connection behind the reply. -/
def requestDns (v : Locals) (s : Sock) : Exec (Bytes × Sock) := do
  let s ← handleDnsRequest s
  handleDnsResponse v s

/-- What the calls of a round give; `locals`, `recvs` and `sends` are for `request_dns`. -/
structure Activity where
  selected : Selected
  newSocket : Int := -1
  ip : Bytes := []
  calls : Bytes → Calls := fun _ => {}
  locals : Locals
  recvs : List Transfer := []
  sends : List Transfer := []

namespace Activity

def request (a : Activity) (incoming : Bytes) : Exec (Bytes × Sock) :=
  requestDns a.locals { incoming, recvs := a.recvs, sends := a.sends }

def round (a : Activity) (incoming : Bytes) : RoundCalls :=
  { selected := a.selected, newSocket := a.newSocket, ip := a.ip, calls := a.calls
    dns := (a.request incoming).map Prod.fst }

/-- A round that accepts a client it has no entry for calls `request_dns`. -/
def Asks (a : Activity) (p : MiProxy) (turn : CallLog) : Prop :=
  p.dnsMode = true ∧ a.ip ∉ p.clients ∧ turn.any (fun h => h.1.reads.isNone) = true

instance (a : Activity) (p : MiProxy) (turn : CallLog) : Decidable (a.Asks p turn) :=
  inferInstanceAs (Decidable (_ ∧ _ ∧ _))

/-- What the nameserver has still to say behind a round. -/
def rest (a : Activity) (p : MiProxy) (turn : CallLog) (incoming : Bytes) : Bytes :=
  if a.Asks p turn then
    match a.request incoming with
    | .ok (_, s) => s.incoming
    | .error _ => incoming
  else incoming

end Activity

/-- The first rounds of `run`, over a connection to a nameserver that will say `incoming`. -/
def serving (p : MiProxy) (incoming : Bytes) : List Activity → Exec (MiProxy × List CallLog)
  | [] => .ok (p, [])
  | a :: activities => do
    let (q, turn) ← p.round (a.round incoming)
    let (last, later) ← q.serving (a.rest p turn incoming) activities
    return (last, turn :: later)

/-! ### The program -/

inductive Progress where
  /-- In the loop of `run`, with what is in the log. -/
  | running (p : MiProxy) (turns : List CallLog) (log : Option (List LogLine))
  /-- `main` has returned, behind this line on `cerr`. -/
  | returned (status : Int) (what : String)

def caught : Exec Progress → Exec Progress
  | .error (.thrown (.runtimeError what)) => .ok (.returned 1 what)
  | outcome => outcome

/-- What `main` tries. A log that does not open is not noticed, and what is written to it is lost. -/
def tryBlock (env : Environment) (argv : List Bytes) (incoming : Bytes) (activities : List Activity) : Exec Progress := do
  let options ← getOptions env.stof argv
  let p ← init env options
  let (p, turns) ← p.serving incoming activities
  return .running p turns (if env.writable options.logPath then some p.log else none)

def main (env : Environment) (argv : List Bytes) (incoming : Bytes) (activities : List Activity) : Exec Progress :=
  caught (tryBlock env argv incoming activities)

/-- All that `main` can report. -/
def reports : List String :=
  complaints ++ ["Error: missing or extra arguments", "setsockopt failed", "bind failed", "connect dns failed", "select error"]

/-- The ways to stop that pass `main` by. -/
inductive Uncaught : Stop → Prop where
  | exit : Uncaught (.exit 1)
  | undefined : Uncaught .undefined
  | diverges : Uncaught .diverges
  | length : Uncaught (.thrown .lengthError)
  /-- By SIGPIPE. -/
  | killed : Uncaught .killed
  | blocked : Uncaught .blocked
  | unreadable {stop : Stop} (unreadable : Unreadable stop) : Uncaught stop

def Ends (stop : Stop) : Prop := (∃ what ∈ reports, stop = .thrown (.runtimeError what)) ∨ Uncaught stop

theorem Complains.ends {sends : List Transfer} {stop : Stop} (complains : Complains sends stop) : Ends stop := by
  obtain ⟨what, listed, rfl⟩ | ⟨n, -, ⟨-, rfl⟩ | ⟨-, rfl⟩⟩ := complains
  · exact .inl ⟨what, List.mem_append_left _ listed, rfl⟩
  · exact .inr .killed
  · exact .inr .blocked

theorem undefined_ends : Ends .undefined := .inr .undefined

theorem spoils_ends {response : Bytes} {stop : Stop} (spoils : Spoils response stop) : Ends stop := by
  rcases spoils with unreadable | rfl | ⟨rfl, -⟩
  · exact .inr (.unreadable unreadable)
  · exact undefined_ends
  · exact .inr .diverges

theorem Fails.ends {p : MiProxy} {e : Event} {stop : Stop} (fails : Fails p e stop)
    (resolving : ∀ newSocket ip dns, e = .accept newSocket ip dns → StopsBy Ends dns) : Ends stop := by
  cases fails with
  | refused _ complains => exact complains.ends
  | unresolved _ _ failed => exact resolving _ _ _ rfl _ failed
  | unreadClient => exact .inr .length
  | unlisted => exact undefined_ends
  | unreadServer => exact .inr .length
  | length _ _ _ _ unreadable => exact .inr (.unreadable unreadable)
  | manifest _ _ _ spoils => exact spoils_ends spoils

theorem Stopped.ends {cs : List RoundCalls} {p : MiProxy} {stop : Stop} (stopped : Stopped cs p stop)
    (resolving : ∀ c ∈ cs, StopsBy Ends c.dns) : Ends stop := by
  cases stopped with
  | select => exact .inl ⟨"select error", by decide, rfl⟩
  | outside => exact undefined_ends
  | left => exact undefined_ends
  | accepting member _ fails =>
    apply fails.ends
    intro newSocket ip dns same
    cases same
    exact resolving _ member
  | serving _ reads fails =>
    apply fails.ends
    intro newSocket ip dns same
    subst same
    exact absurd rfl reads

theorem init_ok {env : Environment} {options : Options} {p : MiProxy} (h : init env options = .ok p) :
    p.dnsMode = options.dnsMode ∧ p.defaultWwwIp = options.defaultWwwIp ∧ p.alpha = options.alpha ∧
      p.masterSocket = env.socket ∧ p.dnsSocket = env.dnsSocket ∧ p.clients = ∅ := by
  obtain ⟨master, opened, h⟩ := bind_ok h
  obtain ⟨dns, connected, h⟩ := bind_ok h
  cases h
  have same : master = env.socket := by
    unfold initMasterSocket raise at opened
    split_ifs at opened
    cases opened
    rfl
  have same' : dns = env.dnsSocket := by
    unfold initDnsSocket raise at connected
    split_ifs at connected <;> (cases connected; rfl)
  exact ⟨rfl, rfl, rfl, same, same', rfl⟩

theorem init_keyed {env : Environment} {options : Options} {p : MiProxy} (h : init env options = .ok p) : p.Keyed := by
  intro ip conn entry
  rw [(init_ok h).2.2.2.2.2] at entry
  simp at entry

theorem tryBlock_ok {env : Environment} {argv : List Bytes} {incoming : Bytes} {activities : List Activity}
    {progress : Progress} (h : tryBlock env argv incoming activities = .ok progress) :
    ∃ options p q turns, getOptions env.stof argv = .ok options ∧ init env options = .ok p ∧
      p.serving incoming activities = .ok (q, turns) ∧
      progress = .running q turns (if env.writable options.logPath then some q.log else none) := by
  obtain ⟨options, read, h⟩ := bind_ok h
  obtain ⟨p, started, h⟩ := bind_ok h
  obtain ⟨⟨q, turns⟩, served, h⟩ := bind_ok h
  cases h
  exact ⟨options, p, q, turns, read, started, served, rfl⟩

def sampleProxyEnvironment : Environment where
  stof s := if s = text "0.5" then .ok (1 / 2) else .error (.thrown .invalidArgument)
  writable _ := true
  socket := 3
  setsockopt := true
  bind _ := true
  dnsSocket := 4
  dnsSetsockopt := true
  resolves _ := true
  connects _ _ := true

/-- A client connects. -/
def sampleActivity : Activity where
  selected := .returned (· = 3)
  newSocket := 5
  ip := text "10.0.0.7"
  locals := ⟨⟨dnsHeader, 0, 0⟩, { NAME := .zeros 100, TYPE := 0, CLASS := 0, TTL := 0, RDLENGTH := 0, RDATA := .zeros 100 }⟩

end VStream.MiProxy
