import VStream.Cpp.Endings
import VStream.Nameserver.Directory
import VStream.Nameserver.Reception
import VStream.Nameserver.Turns

/-!
# The nameserver as a program

`main` from its arguments to the connections it accepts. What the system calls
give is a parameter: `Environment` for those before the loop of `run_server`,
and one `Attempt` for each pass of the loop.
-/

namespace VStream.Nameserver
open Cpp Net
open Std (TreeMap)

/-! ### Arguments -/

structure Info where
  mode : Mode
  port : Int
  servers : Bytes
  log : Bytes

def Info.usage {α : Type} : Exec α := .error (.exit 1)

/-- `atoi`: a number that an `int` does not hold is undefined. -/
def atoi (s : Bytes) : Exec Int :=
  let field := sign (s.dropWhile isSpace)
  let digits := field.2.takeWhile isDigit
  toInt (if field.1 then -value digits else value digits)

def Info.readMode (flag : Bytes) : Exec Mode :=
  if flag = text "--rr" then .ok .RR
  else if flag = text "--geo" then .ok .GEO
  else Info.usage

/-- The constructor. The first argument is the name of the program. -/
def Info.make : List Bytes → Exec Info
  | [_, flag, port, servers, log] => do
    let mode ← Info.readMode flag
    let port ← atoi port
    return { mode, port, servers, log }
  | _ => Info.usage

/-! ### The program -/

structure Environment where
  /-- The contents of the files that can be opened. -/
  files : Bytes → Option Bytes
  /-- The log can be opened for writing. -/
  writable : Bytes → Bool
  /-- What `id1`, `id2` and `dist` hold in each pass before they are read into. -/
  u : Nat → Int × Int × Int
  socket : Bool
  setsockopt : Bool
  bind : UInt16 → Bool

/-- The balancer that `main` makes. -/
def balancer (env : Environment) (info : Info) : Exec Nameserver :=
  match info.mode with
  | .RR => do
    let rr ← RoundRobin.load (env.files info.servers)
    return { mode := .RR, rr }
  | .GEO => do
    let geo ← Geography.load env.u (env.files info.servers)
    return { mode := .GEO, geo }

/-- `run_server` up to its loop. What `listen` and `getsockname` give changes nothing. -/
def openSocket (env : Environment) (port : Int) : Exec Unit :=
  if ¬env.socket then .error (.exit 1)
  else if ¬env.setsockopt then .error (.exit 1)
  else if ¬env.bind (UInt16.ofInt port) then .error (.exit 1)
  else .ok ()

/-- What was sent and what is in the log. A log that does not open is reported, and what is written to it is lost. -/
def main (env : Environment) (argv : List Bytes) (attempts : List Attempt) : Exec (List Bytes × Option Bytes) := do
  let info ← Info.make argv
  let ns ← balancer env info
  let _ ← openSocket env info.port
  let (replies, ns) ← runServer ns attempts
  return (replies, if env.writable info.log then some ns.log else none)

/-! ### How it stops -/

/-- By `exit(1)`, by something undefined, or in one of these ways. -/
def Halts (lost : Stop → Prop) (stop : Stop) : Prop := stop = .exit 1 ∨ stop = .undefined ∨ lost stop

section stopping
variable {α : Type} {lost : Stop → Prop}

theorem exit_halts : StopsBy (Halts lost) (.error (.exit 1) : Exec α) := .error (.inl rfl)

theorem undefined_halts : StopsBy (Halts lost) (.error .undefined : Exec α) := .error (.inr (.inl rfl))

theorem toInt_halts (n : Int) : StopsBy (Halts lost) (toInt n) := .ite (fun _ => .ok n) fun _ => undefined_halts

theorem info_halts (argv : List Bytes) : StopsBy (Halts lost) (Info.make argv) := by
  unfold Info.make
  split
  · apply StopsBy.bind
    · exact .ite (fun _ => .ok _) fun _ => .ite (fun _ => .ok _) fun _ => exit_halts
    · intro mode _
      exact (toInt_halts _).bind fun port _ => .ok _
  · exact exit_halts

theorem addNode_halts (geo : Geography) (id : Int) (type ip : Bytes) : StopsBy (Halts lost) (geo.addNode id type ip) := by
  apply StopsBy.ite
  · intro _
    apply StopsBy.bind
    · exact .ite (fun _ => .ok _) fun _ => .ite (fun _ => .ok _) fun _ => .ite (fun _ => .ok _) fun _ => exit_halts
    · exact fun node _ => .ok _
  · exact fun _ => exit_halts

theorem balancer_halts (env : Environment) (info : Info) : StopsBy (Halts lost) (balancer env info) := by
  unfold balancer
  split
  · apply StopsBy.bind
    · cases env.files info.servers with
      | none => exact exit_halts
      | some contents =>
        rw [RoundRobin.load_fields]
        exact .ok _
    · exact fun rr _ => .ok _
  · apply StopsBy.bind
    · cases env.files info.servers with
      | none => exact exit_halts
      | some contents =>
        rw [Geography.load_lines]
        apply StopsBy.bind
        · exact .foldlM (fun geo line => addNode_halts geo _ _ _) _ _
        · exact fun bare _ => .ok _
    · exact fun geo _ => .ok _

theorem relax_halts (visited : List Int) (current : Neighbor) (a : Geography × DistMap) (n : Neighbor) :
    StopsBy (Halts lost) (Geography.relax visited current a n) := by
  obtain ⟨geo, distMap⟩ := a
  unfold Geography.relax
  apply StopsBy.ite
  · exact fun _ => .ok _
  · intro _
    apply StopsBy.ite
    · exact fun _ => .ok _
    · intro _
      apply (toInt_halts _).bind
      intro distance _
      split <;> exact .ok _

theorem step_halts (s : Geography.Search) : StopsBy (Halts lost) s.step := by
  unfold Geography.Search.step
  apply StopsBy.ite
  · exact fun _ => .ok _
  · intro _
    apply StopsBy.ite
    · exact fun _ => .ok _
    · intro _
      apply StopsBy.bind (.foldlM (relax_halts _ _) _ _)
      intro after _
      dsimp only
      split <;> exact .ok _

theorem findServer_halts (begin : TreeMap UInt32 UInt32 → Nat) (geo : Geography) (clientIP : Bytes) :
    StopsBy (Halts lost) (geo.findServer begin clientIP) := by
  unfold Geography.findServer
  dsimp only
  split
  · exact .ok _
  · rename_i origin _
    apply StopsBy.ite
    · exact fun _ => .ok _
    · intro _
      split
      · exact .ok _
      · apply StopsBy.bind (.loop step_halts (Geography.search_ends _ origin))
        intro result _
        obtain ⟨found, geo'⟩ := result
        obtain ⟨kept, done, -⟩ := Geography.dumpCache_spec begin geo'.cache
        cases found with
        | server id =>
          dsimp only
          rw [done]
          exact .ok _
        | pastEnd => exact .ok _
        | empty => exact .ok _

theorem next_halts (rr : RoundRobin) : StopsBy (Halts lost) rr.next := by
  apply (toInt_halts _).bind
  intro successor _
  apply StopsBy.bind
  · exact .ite (fun _ => undefined_halts) fun _ => .ok _
  · intro index _
    split
    · exact .ok _
    · exact undefined_halts

theorem selectServer_halts (begin : TreeMap UInt32 UInt32 → Nat) (ns : Nameserver) (clientIP : Bytes) :
    StopsBy (Halts lost) (selectServer begin ns clientIP) := by
  unfold selectServer
  split
  · exact (next_halts ns.rr).bind fun _ _ => .ok _
  · exact (findServer_halts begin ns.geo clientIP).bind fun _ _ => .ok _

theorem cString_halts {n : Nat} (a : CharArray n) : StopsBy (Halts lost) a.cString :=
  .ite (fun _ => .ok _) fun _ => undefined_halts

theorem strcpy_halts {n : Nat} (a : CharArray n) (s : Bytes) : StopsBy (Halts lost) (a.strcpy s) := by
  unfold CharArray.strcpy
  split
  · exact .ok _
  · exact undefined_halts

theorem decode_halts (u : DNSQuestion) (message : Bytes) : StopsBy (Halts lost) (DNSQuestion.decode u message) := by
  apply StopsBy.bind
  · unfold CharArray.memcpy
    split
    · exact .ok _
    · exact undefined_halts
  · exact fun QNAME _ => .ok _

theorem recv_halts {recvs : List Transfer} {s : Sock} (among : s.recvs ⊆ recvs) (n : Nat) :
    StopsBy (Halts (Sock.Hangs recvs)) (s.recv n) := by
  intro stop stopped
  obtain ⟨blocked, member⟩ := Sock.recv_stops stopped
  exact .inr (.inr ⟨blocked, among member⟩)

theorem receiveAll_halts {recvs : List Transfer} {s : Sock} (among : s.recvs ⊆ recvs) (size : UInt32) :
    StopsBy (Halts (Sock.Hangs recvs)) (receiveAll s size) := by
  unfold receiveAll receiveInto
  apply (recv_halts among _).bind
  intro read _
  split
  · exact exit_halts
  · exact .ite (fun _ => undefined_halts) fun _ => .ite (fun _ => undefined_halts) fun _ =>
      .ite (fun _ => undefined_halts) fun _ => .ok _

theorem recv_among {recvs : List Transfer} {s t : Sock} {n : Nat} {data : Bytes} (read : s.recv n = .ok (some data, t))
    (among : s.recvs ⊆ recvs) : t.recvs ⊆ recvs := by
  obtain ⟨k, -, -, rfl⟩ := Sock.recv_some read
  exact List.Subset.trans (List.tail_subset _) among

theorem receiveQuery_halts (u : Unspecified) (s : Sock) : StopsBy (Halts (Sock.Hangs s.recvs)) (receiveQuery u s) := by
  have among : s.recvs ⊆ s.recvs := List.Subset.refl _
  unfold receiveQuery
  apply StopsBy.bind
  · apply (recv_halts among 4).bind
    intro read _
    split
    · exact .ite (fun _ => .ok _) fun _ => exit_halts
    · exact exit_halts
  rintro ⟨size, s₁⟩ sized
  obtain ⟨_, read₁, -⟩ := recvSize_iff.mp sized
  have among₁ := recv_among read₁ among
  apply (receiveAll_halts among₁ size).bind
  rintro ⟨message, s₂⟩ received
  obtain ⟨_, read₂, -⟩ := receiveAll_iff.mp received
  have among₂ := recv_among read₂ among₁
  apply StopsBy.bind
  · apply (recv_halts among₂ 4).bind
    intro read _
    split
    · exact .ok _
    · exact exit_halts
  rintro ⟨size', s₃⟩ sized'
  obtain ⟨_, read₃, -⟩ := recvQuestionSize_iff.mp sized'
  apply (receiveAll_halts (recv_among read₃ among₂) size').bind
  intro message' _
  exact (decode_halts _ _).bind fun question _ => .ok _

theorem refuse_halts (s : Sock) (header : DNSHeader) : StopsBy (Halts (Sock.Lost s.sends)) (refuse s header) :=
  fun _ stopped => (refuse_stops stopped).imp id .inr

theorem answerQuery_halts (u : Unspecified) (ns : Nameserver) (clientIP : Bytes) (header : DNSHeader)
    (question : DNSQuestion) (s : Sock) :
    StopsBy (Halts (Sock.Lost s.sends)) (answerQuery u ns clientIP header question s) := by
  apply (cString_halts _).bind
  intro domain _
  apply StopsBy.ite
  · exact fun _ => (refuse_halts s header).bind fun _ _ => .ok _
  · intro _
    apply (selectServer_halts u.begin ns clientIP).bind
    intro selected _
    apply StopsBy.ite
    · exact fun _ => (refuse_halts s header).bind fun _ _ => .ok _
    · intro _
      apply StopsBy.bind
      · exact (strcpy_halts _ _).bind fun _ _ => (strcpy_halts _ _).bind fun _ _ => .ok _
      · intro record _
        apply StopsBy.bind
        · exact fun _ stopped => (sendRecord_stops stopped).imp id .inr
        · exact fun t _ => .ok _

theorem handleConnection_halts (u : Unspecified) (ns : Nameserver) (clientIP : Bytes) (s : Sock) :
    StopsBy (Halts s.Deserted) (handleConnection u ns clientIP s) := by
  apply StopsBy.bind
  · exact (receiveQuery_halts u s).imp fun stop => Or.imp_right (Or.imp_right .inl)
  · rintro ⟨header, question, t⟩ received
    obtain ⟨_, _, arrives, -⟩ := arrives_of_receiveQuery received
    have sends := arrives.sends.1
    exact (answerQuery_halts u ns clientIP header question t).imp fun stop =>
      Or.imp_right (Or.imp_right fun lost => .inr (sends ▸ lost))

/-- One of the clients has deserted its connection. -/
def ClientGone (attempts : List Attempt) (stop : Stop) : Prop := ∃ c, .connected c ∈ attempts ∧ c.sock.Deserted stop

theorem runServer_halts (ns : Nameserver) (attempts : List Attempt) :
    StopsBy (Halts (ClientGone attempts)) (runServer ns attempts) := by
  induction attempts generalizing ns with
  | nil => exact .ok _
  | cons attempt attempts ih =>
    cases attempt with
    | failed => exact exit_halts
    | nameless => exact exit_halts
    | connected c =>
      apply StopsBy.bind
      · exact (handleConnection_halts c.u ns c.clientIP c.sock).imp fun stop =>
          Or.imp_right (Or.imp_right fun gone => ⟨c, List.mem_cons_self, gone⟩)
      · intro result _
        have later : ∀ stop, ClientGone attempts stop → ClientGone (.connected c :: attempts) stop := by
          rintro stop ⟨c', member, gone⟩
          exact ⟨c', List.mem_cons_of_mem _ member, gone⟩
        apply StopsBy.bind
        · exact (ih result.2).imp fun stop => Or.imp_right (Or.imp_right (later stop))
        · exact fun _ _ => .ok _

end stopping

/-- Whatever the arguments, the files and the clients are, the nameserver goes on, or it stops by `exit(1)`, by something
undefined, by SIGPIPE where a client is gone that a reply is sent to, or in a call that waits for ever for a client that
neither moves a byte nor closes. No exception ends it, no loop goes on for ever, and it does not come to its
`return 0`. -/
theorem main_halts (env : Environment) (argv : List Bytes) (attempts : List Attempt) :
    (∃ result, main env argv attempts = .ok result) ∨ ∃ stop, main env argv attempts = .error stop ∧
      (stop = .exit 1 ∨ stop = .undefined ∨ ClientGone attempts stop) := by
  have halts : StopsBy (Halts (ClientGone attempts)) (main env argv attempts) := by
    apply (info_halts argv).bind
    intro info _
    apply (balancer_halts env info).bind
    intro ns _
    apply StopsBy.bind
    · exact .ite (fun _ => exit_halts) fun _ => .ite (fun _ => exit_halts) fun _ => .ite (fun _ => exit_halts) fun _ => .ok _
    · exact fun _ _ => (runServer_halts ns attempts).bind fun _ _ => .ok _
  cases ended : main env argv attempts with
  | ok result => exact .inl ⟨result, rfl⟩
  | error stop => exact .inr ⟨stop, rfl, halts stop ended⟩

/-! ### What it logs -/

/-- What a connection that is handled sends behind `before`, and its line in the log. The size in front of the header
may have been cut, or not taken at all where the reply is a refusal. -/
inductive Logged (before clientIP : Bytes) : Bytes → Bytes → Prop where
  | refused (header : DNSHeader) (k : Nat) (response : Bytes)
      (edited : response = DNSHeader.encode { header with AA := true, RCODE := 3 }) :
      Logged before clientIP (before ++ (htonl (UInt32.ofNat response.length)).take k ++ response) []
  | answered (header : DNSHeader) (k : Nat) (response : Bytes) (record : DNSRecord) (ip : Bytes)
      (edited : response = DNSHeader.encode { header with AA := true })
      (name : record.NAME.toList = padded domainName) (data : record.RDATA.toList = padded (ip.takeWhile (· ≠ 0))) :
      Logged before clientIP
        (before ++ (htonl (UInt32.ofNat response.length)).take k ++ response ++ frame record.encode)
        (logLine clientIP ip)

section logging
variable {u : Unspecified} {ns ns' : Nameserver} {clientIP : Bytes} {s t : Sock} {header : DNSHeader}

theorem selectServer_log {begin : TreeMap UInt32 UInt32 → Nat} {ip : Bytes}
    (h : selectServer begin ns clientIP = .ok (ip, ns')) : ns'.log = ns.log := by
  unfold selectServer at h
  split at h
  · obtain ⟨turn, -, h⟩ := bind_ok h
    cases h
    rfl
  · obtain ⟨found, -, h⟩ := bind_ok h
    cases h
    rfl

theorem handleConnection_logged (h : handleConnection u ns clientIP s = .ok (t, ns')) :
    ∃ line, Logged s.sent clientIP t.sent line ∧ ns'.log = ns.log ++ line := by
  obtain ⟨⟨header, question, t₀⟩, received, h⟩ := bind_ok h
  obtain ⟨_, _, arrives, -⟩ := arrives_of_receiveQuery received
  have kept : t₀.sent = s.sent := arrives.sends.2
  have refused : ∀ {t : Sock}, refuse t₀ header = .ok t → Logged s.sent clientIP t.sent [] := by
    intro t refusing
    obtain ⟨k, response, edited, sent⟩ := refuse_sent refusing
    rw [sent, kept]
    exact .refused header k response edited
  obtain ⟨domain, -, h⟩ := bind_ok h
  dsimp only at h
  split at h
  · obtain ⟨t₁, refusing, h⟩ := bind_ok h
    cases h
    exact ⟨[], refused refusing, (List.append_nil _).symm⟩
  · rename_i valid
    rw [not_not] at valid
    obtain ⟨⟨ip, ns₁⟩, selected, h⟩ := bind_ok h
    have log := selectServer_log selected
    dsimp only at h
    split at h
    · obtain ⟨t₁, refusing, h⟩ := bind_ok h
      cases h
      exact ⟨[], refused refusing, log.trans (List.append_nil _).symm⟩
    · obtain ⟨record, made, h⟩ := bind_ok h
      obtain ⟨t₁, sending, h⟩ := bind_ok h
      cases h
      obtain ⟨NAME, named, rest⟩ := bind_ok made
      obtain ⟨RDATA, filled, -⟩ := bind_ok rest
      obtain ⟨record', made', name, data, -⟩ := makeRecord_ok (CharArray.strcpy_fits named) (CharArray.strcpy_fits filled)
      cases made.symm.trans made'
      rw [valid, CharArray.takeWhile_plain fits_domainName.1] at name
      obtain ⟨k, response, edited, sent⟩ := sendRecord_sent sending
      refine ⟨logLine clientIP ip, ?_, congrArg (· ++ logLine clientIP ip) log⟩
      rw [sent, kept]
      exact .answered header k response record ip edited name data

theorem runServer_logged {attempts : List Attempt} {replies : List Bytes} (h : runServer ns attempts = .ok (replies, ns')) :
    ∃ conns exchanges, attempts = conns.map .connected ∧ replies = exchanges.map Prod.fst ∧
      ns'.log = ns.log ++ exchanges.flatMap Prod.snd ∧
      List.Forall₂ (fun c exchange => Logged c.sock.sent c.clientIP exchange.1 exchange.2) conns exchanges := by
  induction attempts generalizing ns replies with
  | nil =>
    cases h
    exact ⟨[], [], rfl, rfl, (List.append_nil _).symm, .nil⟩
  | cons attempt attempts ih =>
    cases attempt with
    | failed => cases h
    | nameless => cases h
    | connected c =>
      obtain ⟨⟨t, ns₁⟩, handled, h⟩ := bind_ok h
      obtain ⟨⟨later, ns₂⟩, rest, h⟩ := bind_ok h
      cases h
      obtain ⟨line, here, log⟩ := handleConnection_logged handled
      obtain ⟨conns, exchanges, rfl, rfl, log', exchanged⟩ := ih rest
      refine ⟨c :: conns, (t.sent, line) :: exchanges, rfl, rfl, ?_, .cons here exchanged⟩
      rw [log', log, List.append_assoc, List.flatMap_cons]

end logging

/-- While the nameserver runs, its log has a line for each connection on which a record was sent and for no other, in
the order of the connections, with the address that is in the record up to its first zero byte. -/
theorem main_logs {env : Environment} {argv : List Bytes} {attempts : List Attempt} {replies : List Bytes} {log : Bytes}
    (ran : main env argv attempts = .ok (replies, some log)) :
    ∃ conns exchanges, attempts = conns.map .connected ∧ replies = exchanges.map Prod.fst ∧
      log = exchanges.flatMap Prod.snd ∧
      List.Forall₂ (fun c exchange => Logged c.sock.sent c.clientIP exchange.1 exchange.2) conns exchanges := by
  obtain ⟨info, -, ran⟩ := bind_ok ran
  obtain ⟨ns, made, ran⟩ := bind_ok ran
  obtain ⟨-, -, ran⟩ := bind_ok ran
  obtain ⟨⟨replies', ns'⟩, run, ran⟩ := bind_ok ran
  have empty : ns.log = [] := by
    unfold balancer at made
    split at made
    · obtain ⟨rr, -, made⟩ := bind_ok made
      cases made
      rfl
    · obtain ⟨geo, -, made⟩ := bind_ok made
      cases made
      rfl
  obtain ⟨same, written⟩ := Prod.mk.inj (Except.ok.inj ran)
  obtain rfl : replies' = replies := same
  split at written
  · obtain rfl := Option.some.inj written
    obtain ⟨conns, exchanges, attempted, replied, log, exchanged⟩ := runServer_logged run
    rw [empty, List.nil_append] at log
    exact ⟨conns, exchanges, attempted, replied, log, exchanged⟩
  · cases written

def sampleEnvironment (file : Bytes) : Environment :=
  { files := fun _ => some file, writable := fun _ => true, u := Geography.sampleUninit, socket := true
    setsockopt := true, bind := fun _ => true }

theorem main_logs_sample : ∃ replies log conns exchanges,
    main (sampleEnvironment (text "10.0.0.2\n")) [text "nameserver", text "--rr", text "53", text "servers", text "log"]
      [(sampleArrival domainName).attempt, (sampleArrival (text "example.com")).attempt] = .ok (replies, some log) ∧
    [(sampleArrival domainName).attempt, (sampleArrival (text "example.com")).attempt] = conns.map .connected ∧
    replies = exchanges.map Prod.fst ∧ log = exchanges.flatMap Prod.snd ∧
    List.Forall₂ (fun c exchange => Logged c.sock.sent c.clientIP exchange.1 exchange.2) conns exchanges := by
  have returns : (main (sampleEnvironment (text "10.0.0.2\n"))
      [text "nameserver", text "--rr", text "53", text "servers", text "log"]
      [(sampleArrival domainName).attempt, (sampleArrival (text "example.com")).attempt]).map (fun ran => ran.2.isSome) =
        .ok true := by decide +kernel
  cases ran : main (sampleEnvironment (text "10.0.0.2\n"))
      [text "nameserver", text "--rr", text "53", text "servers", text "log"]
      [(sampleArrival domainName).attempt, (sampleArrival (text "example.com")).attempt] with
  | error stop =>
    rw [ran] at returns
    cases returns
  | ok result =>
    obtain ⟨replies, log⟩ := result
    rw [ran] at returns
    cases log with
    | none => cases returns
    | some log =>
      obtain ⟨conns, exchanges, attempted, replied, logged, exchanged⟩ := main_logs ran
      exact ⟨replies, log, conns, exchanges, rfl, attempted, replied, logged, exchanged⟩

/-! ### A run from the command line -/

/-- The socket can be opened and bound to this port. -/
structure Environment.Up (env : Environment) (port : Int) : Prop where
  socket : env.socket = true
  setsockopt : env.setsockopt = true
  bind : env.bind (UInt16.ofInt port) = true

/-- Started on a file, the nameserver is in its loop with the balancer made of it. -/
theorem main_started {env : Environment} {mode : Mode} {flag : Bytes} {ns : Nameserver} (program number servers log : Bytes)
    {port : Int} (read : Info.readMode flag = .ok mode) (parsed : atoi number = .ok port) (up : env.Up port)
    (made : balancer env ⟨mode, port, servers, log⟩ = .ok ns) (arrivals : List Arrival) :
    main env [program, flag, number, servers, log] (arrivals.map Arrival.attempt) =
      (serve ns arrivals).map fun served => (served.1, if env.writable log then some served.2.log else none) := by
  have info : Info.make [program, flag, number, servers, log] = .ok ⟨mode, port, servers, log⟩ := by
    rw [Info.make, read, ok_bind, parsed]
    rfl
  have opened : openSocket env port = .ok () := by
    rw [openSocket, if_neg (by simp [up.socket]), if_neg (by simp [up.setsockopt]), if_neg (by simp [up.bind])]
  rw [main, info, ok_bind, made, ok_bind, opened, ok_bind, ← serve]
  cases serve ns arrivals <;> rfl

theorem balancer_geo {env : Environment} {contents servers : Bytes} {geo : Geography} (port : Int) (log : Bytes)
    (file : env.files servers = some contents) (loaded : Geography.load env.u (some contents) = .ok geo) :
    balancer env ⟨.GEO, port, servers, log⟩ = .ok (ofMap geo) := by
  unfold balancer
  dsimp only
  rw [file, loaded]
  rfl

theorem balancer_rr {env : Environment} {contents servers : Bytes} (port : Int) (log : Bytes)
    (file : env.files servers = some contents) :
    balancer env ⟨.RR, port, servers, log⟩ = .ok { mode := .RR, rr := { hosts := fields contents } } := by
  unfold balancer
  dsimp only
  rw [file, RoundRobin.load_fields]
  rfl

/-- Started with `--geo` on the file of a sound plan, the nameserver answers as the plan says for as long as queries
come in, and its log says so. -/
theorem main_serves_plan {plan : Geography.Plan} (sound : plan.Sound) {env : Environment} {contents : Bytes}
    (program number servers log : Bytes) {port : Int} (parsed : atoi number = .ok port) (up : env.Up port)
    (file : env.files servers = some contents) (written : Cpp.fields contents = plan.fields)
    {arrivals : List Arrival} (ok : ∀ a ∈ arrivals, a.WellFormed) :
    ∃ exchanges, main env [program, text "--geo", number, servers, log] (arrivals.map Arrival.attempt) =
        .ok (exchanges.map Prod.fst, if env.writable log then some (exchanges.flatMap Prod.snd) else none) ∧
      List.Forall₂ (fun a exchange => Handled plan a exchange.1 exchange.2) arrivals exchanges := by
  obtain ⟨geo, exchanges, ns, loaded, served, handled, lines⟩ := plan_served sound env.u written ok
  refine ⟨exchanges, ?_, handled⟩
  rw [main_started program number servers log (by decide) parsed up (balancer_geo port log file loaded), served, ← lines]
  rfl

theorem main_serves_plan_sample : ∃ exchanges,
    main (sampleEnvironment Geography.Plan.sample.contents)
        [text "nameserver", text "--geo", text "53", text "servers", text "log"]
        ([sampleArrival domainName, sampleArrival (text "example.com")].map Arrival.attempt) =
      .ok (exchanges.map Prod.fst, some (exchanges.flatMap Prod.snd)) ∧
    List.Forall₂ (fun a exchange => Handled Geography.Plan.sample a exchange.1 exchange.2)
      [sampleArrival domainName, sampleArrival (text "example.com")] exchanges := by
  have parsed : atoi (text "53") = .ok 53 := by decide +kernel
  have up : (sampleEnvironment Geography.Plan.sample.contents).Up 53 := ⟨rfl, rfl, rfl⟩
  have ok : ∀ a ∈ [sampleArrival domainName, sampleArrival (text "example.com")], a.WellFormed := by
    intro a member
    simp only [List.mem_cons, List.not_mem_nil, or_false] at member
    rcases member with rfl | rfl <;> exact sampleArrival_ok (by decide)
  obtain ⟨exchanges, ran, handled⟩ := main_serves_plan sample_sound (text "nameserver") (text "53") (text "servers")
    (text "log") parsed up rfl Geography.Plan.sample.fields_contents ok
  exact ⟨exchanges, ran, handled⟩

end VStream.Nameserver
