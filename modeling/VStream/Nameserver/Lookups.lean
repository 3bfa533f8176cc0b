import VStream.Nameserver.Rotation
import VStream.Nameserver.Cache

/-!
# Lookups over a run

In `--geo` mode the nameserver keeps nothing from one connection to the next
but its cache and its log. `single` is one connection of a server without
state; a run is made of those, one after the other.
-/

namespace VStream.Nameserver
open Cpp Net Geography
open Std (TreeMap)

/-- The nameserver in `--geo` mode before its first connection. -/
def ofMap (geo : Geography) : Nameserver := { mode := .GEO, geo }

/-- The nameserver serves this topology, with some of its replies in the cache. -/
structure Serves (fresh : Geography) (ns : Nameserver) : Prop where
  mode : ns.mode = .GEO
  geo : Consistent fresh ns.geo

/-- One connection of a nameserver without state: what is sent, and the line for the log. -/
def single (fresh : Geography) (u : Unspecified) (clientIP : Bytes) (s : Sock) : Exec (Sock × Bytes) := do
  let (header, question, s) ← receiveQuery u s
  let domain ← question.QNAME.cString
  if domain ≠ domainName then
    let s ← refuse s header
    return (s, [])
  else
    let ip ← fresh.reply clientIP
    if ip = [] then
      let s ← refuse s header
      return (s, [])
    else
      let record ← makeRecord domain ip
      let s ← sendRecord s header record
      return (s, logLine clientIP ip)

section runs
variable {fresh : Geography} {ns : Nameserver}

theorem selectServer_reply (serves : Serves fresh ns) (begin : TreeMap UInt32 UInt32 → Nat) (clientIP : Bytes) :
    Matches (fun result ip => result.1 = ip ∧ Serves fresh result.2 ∧ result.2.log = ns.log)
      (selectServer begin ns clientIP) (fresh.reply clientIP) := by
  have replied : fresh.reply clientIP = fresh.reply clientIP >>= fun ip => .ok ip := by
    cases fresh.reply clientIP <;> rfl
  have selects : selectServer begin ns clientIP = ns.geo.findServer begin clientIP >>= fun result =>
      .ok (result.1, { ns with geo := result.2 }) := by
    unfold selectServer
    rw [serves.mode]
    rfl
  rw [selects, replied]
  apply (findServer_reply serves.geo begin clientIP).bind
  intro result ip found
  exact ⟨found.1, ⟨serves.mode, found.2⟩, rfl⟩

/-- What a connection does to a nameserver with state is what it is for one without. -/
def Alike (fresh : Geography) (log : Bytes) (result : Sock × Nameserver) (alone : Sock × Bytes) : Prop :=
  result.1 = alone.1 ∧ Serves fresh result.2 ∧ result.2.log = log ++ alone.2

theorem handleConnection_single (serves : Serves fresh ns) (u : Unspecified) (clientIP : Bytes) (s : Sock) :
    Matches (Alike fresh ns.log) (handleConnection u ns clientIP s) (single fresh u clientIP s) := by
  have refused : ∀ (s : Sock) (header : DNSHeader) {ns' : Nameserver}, Serves fresh ns' → ns'.log = ns.log →
      Matches (Alike fresh ns.log) (refuse s header >>= fun s => .ok (s, ns')) (refuse s header >>= fun s => .ok (s, [])) := by
    intro s header ns' serves' log
    apply Matches.bind_same
    intro t
    exact ⟨rfl, serves', log.trans (List.append_nil _).symm⟩
  unfold handleConnection single
  apply Matches.bind_same
  rintro ⟨header, question, s'⟩
  unfold answerQuery
  apply Matches.bind_same
  intro domain
  by_cases other : domain ≠ domainName
  · rw [if_pos other, if_pos other]
    exact refused s' header serves rfl
  · rw [if_neg other, if_neg other]
    apply (selectServer_reply serves u.begin clientIP).bind
    intro selected ip chosen
    obtain ⟨rfl, serves', log⟩ := chosen
    obtain ⟨ip, ns'⟩ := selected
    dsimp only at serves' log ⊢
    by_cases none : ip = []
    · rw [if_pos none, if_pos none]
      exact refused s' header serves' log
    · rw [if_neg none, if_neg none]
      apply Matches.bind_same
      intro record
      apply Matches.bind_same
      intro t
      exact ⟨rfl, ⟨serves'.mode, serves'.geo⟩, congrArg (· ++ logLine clientIP ip) log⟩

theorem runServer_split (ns : Nameserver) (c : Accepted) (attempts : List Attempt) :
    runServer ns (.connected c :: attempts) = handleConnection c.u ns c.clientIP c.sock >>= fun result =>
      runServer result.2 attempts >>= fun later => .ok (result.1.sent :: later.1, later.2) := rfl

theorem runServer_single (serves : Serves fresh ns) (conns : List Accepted) :
    Matches (fun result alone => result.1 = alone.map (·.1.sent) ∧ Serves fresh result.2 ∧
        result.2.log = ns.log ++ alone.flatMap Prod.snd)
      (runServer ns (conns.map .connected)) (conns.mapM fun c => single fresh c.u c.clientIP c.sock) := by
  induction conns generalizing ns with
  | nil => exact ⟨rfl, serves, (List.append_nil _).symm⟩
  | cons c conns ih =>
    rw [List.map_cons, runServer_split, List.mapM_cons]
    apply (handleConnection_single serves c.u c.clientIP c.sock).bind
    intro result alone alike
    obtain ⟨sent, serves', log⟩ := alike
    apply (ih serves').bind
    intro later others after
    obtain ⟨replies, serves'', log'⟩ := after
    refine ⟨?_, serves'', ?_⟩
    · rw [List.map_cons, ← sent, ← replies]
    · rw [List.flatMap_cons, ← List.append_assoc, ← log]
      exact log'

end runs

/-- Whatever the nameserver was asked before, it sends on every connection what it would send on that one alone, stops
where it would stop there, and logs the lines of the connections in their order; the cache stays within its size. -/
theorem lookups_stateless {u : Nat → Int × Int × Int} {file : Option Bytes} {fresh : Geography}
    (loaded : load u file = .ok fresh) (conns : List Accepted) :
    (runServer (ofMap fresh) (conns.map .connected)).map (fun result => (result.1, result.2.log)) =
      (conns.mapM fun c => single fresh c.u c.clientIP c.sock).map (fun alone =>
        (alone.map (·.1.sent), alone.flatMap Prod.snd)) ∧
    ∀ replies ns, runServer (ofMap fresh) (conns.map .connected) = .ok (replies, ns) → ns.geo.cache.size ≤ cacheSize := by
  have start : Serves fresh (ofMap fresh) := ⟨rfl, consistent_loaded loaded⟩
  have run := runServer_single start conns
  constructor
  · apply Matches.map_eq_map
    exact run.imp fun _ _ alike => Prod.ext alike.1 alike.2.2
  · intro replies ns served
    rw [served] at run
    cases alone : conns.mapM fun c => single fresh c.u c.clientIP c.sock with
    | error stop =>
      rw [alone] at run
      exact run.elim
    | ok results =>
      rw [alone] at run
      exact run.2.1.geo.size

/-- A query for the name, the same one again, and a header that announces more than it has. -/
def sampleConnections : List Accepted :=
  [{ u := sampleUnspecified, clientIP := text "10.0.0.1", sock := (sampleArrival domainName).sock },
    { u := sampleUnspecified, clientIP := text "10.0.0.1", sock := (sampleArrival domainName).sock },
    { u := sampleUnspecified, clientIP := text "10.0.0.9", sock := { incoming := htonl 9 ++ text "1 0" } }]

theorem lookups_stateless_sample : ∃ fresh, load sampleUninit (some sampleFile) = .ok fresh ∧
    (runServer (ofMap fresh) (sampleConnections.map .connected)).map (fun result => (result.1, result.2.log)) =
      (sampleConnections.mapM fun c => single fresh c.u c.clientIP c.sock).map
        fun alone => (alone.map (·.1.sent), alone.flatMap Prod.snd) := by
  obtain ⟨fresh, loaded, -⟩ := load_sample
  exact ⟨fresh, loaded, (lookups_stateless loaded sampleConnections).1⟩

end VStream.Nameserver
