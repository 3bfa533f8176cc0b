import VStream.Cpp.Endings
import VStream.MiProxy.Forwarding
import VStream.MiProxy.Isolation

/-!
# Accounts of a client

What is read for a client is passed on message by message, in its order and
whole, or is still in a buffer. What the log says of a client accounts for its
throughput.
-/

namespace VStream
open Cpp Net Parallel Connection
open Std (TreeMap)

namespace Handled

def fromClient (h : Handled) : Bytes :=
  match h.event with
  | .client _ (some data) _ => data
  | _ => []

def fromServer (h : Handled) : Bytes :=
  match h.event with
  | .server _ (some data) _ => data
  | _ => []

/-- The messages that were sent to the server for the client. -/
def forwarded (h : Handled) : List Bytes :=
  h.actions.filterMap fun
    | .forwarded _ message => some message
    | _ => none

/-- What became of the responses: each is sent to the client, or is withheld. -/
def delivered (h : Handled) : List (Option Bytes) :=
  h.actions.filterMap fun
    | .answered _ response => some (some response)
    | .intercepted _ _ => some none
    | _ => none

def leaves (h : Handled) : Bool := h.actions.any fun
  | .clientClosed _ => true
  | _ => false

def withholds (h : Handled) : Bool := h.actions.any fun
  | .intercepted _ _ => true
  | _ => false

end Handled

namespace MiProxy

/-! ### Bytes -/

/-- A complete message, and how it is sent to the server. -/
def SentOn (message sent : Bytes) : Prop :=
  Ended message ∧ (sent = message ∨ NamesChunk message ∧ ∃ br, sent = withBitrate message br)

/-- A response, and how it is delivered. -/
def Delivers (response : Bytes) (delivered : Option Bytes) : Prop := delivered = none ∨ delivered = some response

/-- Of what came in, the first part went on and the rest is in the buffers. -/
structure Balanced (conn : Connection) (done : List Handled) (conn' : Connection) : Prop where
  requests : ∃ messages : List Bytes,
    conn.clientMessage ++ done.flatMap Handled.fromClient = messages.flatten ++ conn'.clientMessage ∧
      List.Forall₂ SentOn messages (done.flatMap Handled.forwarded)
  responses : ∃ messages : List Bytes,
    conn.serverMessage ++ done.flatMap Handled.fromServer = messages.flatten ++ conn'.serverMessage ∧
      List.Forall₂ Delivers messages (done.flatMap Handled.delivered)

theorem Balanced.refl {conn conn' : Connection} (client : conn'.clientMessage = conn.clientMessage)
    (server : conn'.serverMessage = conn.serverMessage) : Balanced conn [] conn' :=
  ⟨⟨[], by simp [client], .nil⟩, [], by simp [server], .nil⟩

theorem carried {buffer buffer' buffer'' input input' : Bytes} {messages messages' : List Bytes}
    (first : buffer ++ input = messages.flatten ++ buffer') (second : buffer' ++ input' = messages'.flatten ++ buffer'') :
    buffer ++ (input ++ input') = (messages ++ messages').flatten ++ buffer'' := by
  rw [← List.append_assoc, first, List.append_assoc, second, List.flatten_append, List.append_assoc]

theorem Balanced.trans {conn conn' conn'' : Connection} {done done' : List Handled} (first : Balanced conn done conn')
    (second : Balanced conn' done' conn'') : Balanced conn (done ++ done') conn'' := by
  obtain ⟨⟨asked, heard, sent⟩, replies, seen, given⟩ := first
  obtain ⟨⟨asked', heard', sent'⟩, replies', seen', given'⟩ := second
  refine ⟨⟨asked ++ asked', ?_, ?_⟩, replies ++ replies', ?_, ?_⟩
  · rw [List.flatMap_append]
    exact carried heard heard'
  · rw [List.flatMap_append]
    exact List.rel_append sent sent'
  · rw [List.flatMap_append]
    exact carried seen seen'
  · rw [List.flatMap_append]
    exact List.rel_append given given'

theorem SentOn.rewritten {conn : Connection} (ended : Ended conn.clientMessage) :
    SentOn conn.clientMessage conn.rewritten.clientMessage := by
  refine ⟨ended, ?_⟩
  rw [rewritten_message]
  split
  · rename_i names
    exact .inr ⟨names, _, rfl⟩
  · exact .inl rfl

theorem rewritten_serverMessage (conn : Connection) : conn.rewritten.serverMessage = conn.serverMessage := by
  unfold rewritten
  split <;> rfl

theorem Deals.leaves {alpha : ℚ} {conn : Connection} {h : Handled} {entry : Option Connection}
    (deals : Deals alpha conn h entry) : h.leaves = entry.isNone := by
  cases deals with
  | asked some ended here listed server => cases server <;> rfl
  | _ => rfl

/-- One handler call for a client that stays. -/
theorem Deals.balanced {alpha : ℚ} {conn conn' : Connection} {h : Handled} (deals : Deals alpha conn h (some conn')) :
    Balanced conn [h] conn' := by
  have nothing : conn.clientMessage ++ [] = ([] : List Bytes).flatten ++ conn.clientMessage := List.append_nil _
  have silence : conn.serverMessage ++ [] = ([] : List Bytes).flatten ++ conn.serverMessage := List.append_nil _
  cases deals with
  | accepted => exact ⟨⟨[], nothing, .nil⟩, [], silence, .nil⟩
  | heard some more => exact ⟨⟨[], by simp [Handled.fromClient], .nil⟩, [], silence, .nil⟩
  | @asked ip data calls serverSocket opened asking some ended here listed server =>
    have message : asking.clientMessage = conn.clientMessage ++ data := by rw [here]
    have kept : asking.rewritten.serverMessage = conn.serverMessage := by
      rw [rewritten_serverMessage, here]
    have sentOn := @SentOn.rewritten asking (by rw [message]; exact ended)
    rw [message] at sentOn
    refine ⟨⟨[conn.clientMessage ++ data], by simp [Handled.fromClient], ?_⟩, [], ?_, ?_⟩
    · cases server <;> exact .cons sentOn .nil
    · simp [Handled.fromServer, kept]
    · cases server <;> exact .nil
  | lost => exact ⟨⟨[], nothing, .nil⟩, [], by simp [Handled.fromServer, reading], .nil⟩
  | fed some waits => exact ⟨⟨[], nothing, .nil⟩, [], by simp [Handled.fromServer, reading], .nil⟩
  | @withheld ip data calls rest bitrates len some kept parsed =>
    exact ⟨⟨[], nothing, .nil⟩, [conn.serverMessage ++ data], by simp [Handled.fromServer], .cons (.inl rfl) .nil⟩
  | watched some plain expected full video =>
    exact ⟨⟨[], nothing, .nil⟩, [_], by simp [Handled.fromServer], .cons (.inr rfl) .nil⟩
  | passed some plain other =>
    exact ⟨⟨[], nothing, .nil⟩, [_], by simp [Handled.fromServer], .cons (.inr rfl) .nil⟩

/-! ### Buffers -/

/-- No complete message is buffered. -/
structure Unfinished (conn : Connection) : Prop where
  request : find blankLine conn.clientMessage = none
  response : ¬Complete conn.serverMessageLen conn.serverMessage

theorem not_complete_nil : ¬Complete 0 [] := by
  rintro ⟨len, expected, -⟩
  cases expected

theorem Waits.not_complete {known len : Nat} {message : Bytes} (waits : Waits known message len) :
    ¬Complete len message := by
  rintro ⟨len', expected, enough⟩
  cases waits with
  | header unknown => cases unknown.symm.trans expected
  | body announced short =>
    have known : len ≠ 0 := by omega
    rw [expectedLen, if_neg known] at expected
    cases expected
    omega

/-- Every call leaves unfinished messages only. -/
theorem Step.unfinished {p q : MiProxy} {e : Event} {actions : List Action} (step : Step p e actions q)
    (every : Every (fun _ => Unfinished) p) : Every (fun _ => Unfinished) q := by
  cases step with
  | idle nothing => exact every
  | replaced valid entry =>
    obtain ⟨request, response⟩ := every _ _ entry
    exact every.store ⟨request, response⟩
  | added valid absent => exact every.store ⟨rfl, not_complete_nil⟩
  | clientLeft entry => exact every.erase _
  | heard entry some more => exact every.store ⟨more, (every _ _ entry).response⟩
  | requested entry some ended server rewritten => exact every.store ⟨rfl, (every _ _ entry).response⟩
  | serverLeft entry connected =>
    obtain ⟨request, response⟩ := every _ _ entry
    exact every.store ⟨request, response⟩
  | receiving entry connected some waits => exact every.store ⟨(every _ _ entry).request, waits.not_complete⟩
  | intercepted entry connected some complete kept => exact every.store ⟨(every _ _ entry).request, not_complete_nil⟩
  | answered entry connected some complete plain =>
    exact every.store ⟨(every _ _ entry).request, not_complete_nil⟩

/-- Nothing is held back: in no state that the proxy comes to is a complete request or response in a buffer. -/
theorem buffers_unfinished {s t : Process} (started : Process.Started s) (run : Relation.ReflTransGen Process.Next s t)
    {ip : Bytes} {conn : Connection} (entry : t.proxy.clients[ip]? = some conn) : Unfinished conn := by
  have every : Every (fun _ => Unfinished) t.proxy := by
    clear entry
    induction run with
    | refl =>
      intro ip conn entry
      cases (started.empty ip).symm.trans entry
    | tail _ next ih =>
      obtain ⟨e, actions, call⟩ := next
      exact (dispatch_step call.handled).unfinished ih
  exact every ip conn entry

def sampleReading : Process where
  proxy := Process.sampleAccepted.proxy.store Process.sampleIp { Process.sampleClient 5 with clientMessage := text "GET /" }
  opened := {5, 3}

theorem sample_reading : Process.Call Process.sampleAccepted (.client Process.sampleIp (some (text "GET /")) {})
    [.heard 5 (text "GET /")] sampleReading where
  fresh fd open' opens := by
    obtain rfl : fd = -1 := opens.symm
    simp [Process.sampleAccepted] at open'
  handled := by
    have entry : Process.sampleAccepted.proxy.clients[Process.sampleIp]? = some (Process.sampleClient 5) := store_here _ _ _
    have handled : handleClientConnection (some (text "GET /")) {} (Process.sampleClient 5) =
        .ok (some { Process.sampleClient 5 with clientMessage := text "GET /" }, [.heard 5 (text "GET /")]) := by
      decide +kernel
    rw [dispatch, entry]
    dsimp only
    rw [handled]
    rfl
  opened := rfl

theorem buffers_unfinished_sample :
    Unfinished { Process.sampleClient 5 with clientMessage := text "GET /" } :=
  buffers_unfinished Process.sampleStart_started
    (.tail (.single ⟨_, _, Process.sample_accept⟩) ⟨_, _, sample_reading⟩) (store_here _ _ _)

/-! ### Throughput -/

/-- Each line has the average of its own throughput and of the average before it. -/
inductive Ledger (alpha : ℚ) : ℚ → List LogLine → ℚ → Prop where
  | nil (throughput : ℚ) : Ledger alpha throughput [] throughput
  | cons {throughput last : ℚ} {line : LogLine} {lines : List LogLine}
      (averaged : line.avgTput = average alpha line.tput throughput) (rest : Ledger alpha line.avgTput lines last) :
      Ledger alpha throughput (line :: lines) last

theorem Ledger.append {alpha throughput middle last : ℚ} {lines lines' : List LogLine}
    (first : Ledger alpha throughput lines middle) (second : Ledger alpha middle lines' last) :
    Ledger alpha throughput (lines ++ lines') last := by
  induction first with
  | nil => exact second
  | cons averaged _ ih => exact .cons averaged (ih second)

/-- The line measures a response by the length that its header announces. -/
def Measures (response : Bytes) (line : LogLine) : Prop :=
  response.length ≤ maxSize →
    ∃ len, announced response = .ok (some len) ∧ line.tput = len / line.duration * 8 / 1000

end MiProxy

/-- The video responses among those that were sent to the client. -/
def Handled.videos (h : Handled) : List Bytes := h.delivered.filterMap fun response => response.filter (IsVideo ·)

theorem Handled.videos_answered {h : Handled} {fd : Int} {response : Bytes} (actions : h.actions = [.answered fd response]) :
    h.videos = if IsVideo response then [response] else [] := by
  unfold Handled.videos Handled.delivered
  rw [actions]
  by_cases video : IsVideo response
  · simp [video, Option.filter]
  · simp [video]

namespace MiProxy

structure Recorded (alpha : ℚ) (conn : Connection) (done : List Handled) (conn' : Connection) : Prop where
  ledger : Ledger alpha conn.currentThroughput (done.flatMap Handled.lines) conn'.currentThroughput
  measured : List.Forall₂ Measures (done.flatMap Handled.videos) (done.flatMap Handled.lines)
  bitrates : conn'.availableBitrates = conn.availableBitrates

theorem Recorded.trans {alpha : ℚ} {conn conn' conn'' : Connection} {done done' : List Handled}
    (first : Recorded alpha conn done conn') (second : Recorded alpha conn' done' conn'') :
    Recorded alpha conn (done ++ done') conn'' where
  ledger := by
    rw [List.flatMap_append]
    exact first.ledger.append second.ledger
  measured := by
    rw [List.flatMap_append, List.flatMap_append]
    exact List.rel_append first.measured second.measured
  bitrates := second.bitrates.trans first.bitrates

theorem Recorded.quiet (alpha : ℚ) {conn conn' : Connection} {h : Handled} (lines : h.lines = [])
    (videos : h.videos = []) (throughput : conn'.currentThroughput = conn.currentThroughput)
    (bitrates : conn'.availableBitrates = conn.availableBitrates) : Recorded alpha conn [h] conn' where
  ledger := by
    rw [List.flatMap_singleton, lines, throughput]
    exact .nil _
  measured := by
    rw [List.flatMap_singleton, List.flatMap_singleton, lines, videos]
    exact .nil
  bitrates := bitrates

theorem rewritten_throughput (conn : Connection) : conn.rewritten.currentThroughput = conn.currentThroughput ∧
    conn.rewritten.availableBitrates = conn.availableBitrates := by
  unfold rewritten
  split <;> exact ⟨rfl, rfl⟩

/-- Every call keeps to what the header of the response announces. -/
theorem Deals.foretold {alpha : ℚ} {conn conn' : Connection} {h : Handled} (deals : Deals alpha conn h (some conn'))
    (foretold : Foretold conn.serverMessageLen conn.serverMessage) :
    Foretold conn'.serverMessageLen conn'.serverMessage := by
  cases deals with
  | accepted => exact foretold
  | heard some more => exact foretold
  | @asked ip data calls serverSocket opened asking some ended here listed server =>
    have same : asking.rewritten.serverMessageLen = conn.serverMessageLen ∧
        asking.rewritten.serverMessage = conn.serverMessage := by
      subst here
      unfold rewritten
      split <;> exact ⟨rfl, rfl⟩
    dsimp only
    rw [same.1, same.2]
    exact foretold
  | lost =>
    dsimp only [reading, seen]
    rw [List.append_nil]
    exact foretold
  | fed some waits => exact foretold.waits waits
  | withheld some kept parsed => exact .nil _
  | watched some plain expected full video => exact .nil _
  | passed some plain other => exact .nil _

/-- One handler call for a client that stays and gets no manifest. -/
theorem Deals.recorded {alpha : ℚ} {conn conn' : Connection} {h : Handled} (deals : Deals alpha conn h (some conn'))
    (foretold : Foretold conn.serverMessageLen conn.serverMessage) (passes : h.withholds = false) :
    Recorded alpha conn [h] conn' := by
  cases deals with
  | accepted => exact .quiet alpha rfl rfl rfl rfl
  | heard some more => exact .quiet alpha rfl rfl rfl rfl
  | @asked ip data calls serverSocket opened asking some ended here listed server =>
    obtain ⟨throughput, bitrates⟩ := rewritten_throughput asking
    rw [here] at throughput bitrates
    subst here
    refine .quiet alpha rfl ?_ throughput bitrates
    cases server <;> rfl
  | lost => exact .quiet alpha rfl rfl rfl rfl
  | fed some waits => exact .quiet alpha rfl rfl rfl rfl
  | withheld some kept parsed => cases passes
  | @watched ip data calls len some plain expected full video =>
    refine ⟨.cons rfl (.nil _), ?_, rfl⟩
    rw [List.flatMap_singleton, List.flatMap_singleton, Handled.videos_answered rfl, if_pos video]
    exact .cons (fun fits => ⟨len, foretold.announces expected fits, rfl⟩) .nil
  | passed some plain other =>
    refine Recorded.quiet alpha rfl ?_ rfl rfl
    rw [Handled.videos_answered rfl, if_neg other]

/-! ### Runs -/

theorem alone_accounts {p : MiProxy} {es : List Event} {conn : Connection} {entry : Option Connection}
    {done : List Handled} (run : alone p.act es (some conn) = .ok (entry, done))
    (stays : ∀ h ∈ done, h.leaves = false) :
    ∃ conn', entry = some conn' ∧ Balanced conn done conn' ∧
      (Foretold conn.serverMessageLen conn.serverMessage → Foretold conn'.serverMessageLen conn'.serverMessage ∧
        ((∀ h ∈ done, h.withholds = false) → Recorded p.alpha conn done conn')) := by
  induction es generalizing conn done with
  | nil =>
    cases run
    exact ⟨conn, rfl, .refl rfl rfl, fun foretold => ⟨foretold, fun _ => ⟨.nil _, .nil, rfl⟩⟩⟩
  | cons e es ih =>
    obtain ⟨⟨next, now⟩, acts, run⟩ := bind_returns run
    obtain ⟨⟨last, later⟩, rest, run⟩ := bind_returns run
    cases run
    obtain ⟨here, after⟩ := List.forall_mem_append.mp stays
    rcases act_deals acts with ⟨rfl, rfl⟩ | ⟨h, rfl, deals⟩
    · exact ih rest after
    · have stay := here h (List.mem_singleton_self h)
      rw [deals.leaves] at stay
      cases next with
      | none => cases stay
      | some conn' =>
        obtain ⟨conn'', rfl, balanced', recorded'⟩ := ih rest after
        refine ⟨conn'', rfl, deals.balanced.trans balanced', fun foretold => ?_⟩
        obtain ⟨foretold', recorded'⟩ := recorded' (deals.foretold foretold)
        refine ⟨foretold', fun passes => ?_⟩
        obtain ⟨passesHere, passesAfter⟩ := List.forall_mem_append.mp passes
        exact (deals.recorded foretold (passesHere h (List.mem_singleton_self h))).trans (recorded' passesAfter)

section runs
variable {p p' : MiProxy} {es : List Event} {done : List Handled} {ip : Bytes} {conn : Connection}

theorem Keyed.alone (keyed : p.Keyed) (run : p.handle es = .ok (p', done)) (entry : p.clients[ip]? = some conn) :
    Parallel.alone p.act (own Event.ip ip es) (some conn) = .ok (p'.clients[ip]?, ofClient ip done) := by
  obtain ⟨out, machines, acted⟩ := keyed.machines run
  have machine := together_alone machines ip
  rwa [acted.ofClient ip, entries, entry] at machine

/-- As long as a client stays, what was read from it and from its servers has gone on, message by message and in
order, or is still buffered. -/
theorem bytes_conserved (keyed : p.Keyed) (run : p.handle es = .ok (p', done)) (entry : p.clients[ip]? = some conn)
    (stays : ∀ h ∈ ofClient ip done, h.leaves = false) :
    ∃ conn', p'.clients[ip]? = some conn' ∧ Balanced conn (ofClient ip done) conn' := by
  obtain ⟨conn', last, balanced, -⟩ := alone_accounts (keyed.alone run entry) stays
  exact ⟨conn', last, balanced⟩

/-- From one manifest to the next, the lines of the log about a client are its video responses, one by one, each
measured by its announced length, and tell how its throughput came about. -/
theorem log_accounts (keyed : p.Keyed) (run : p.handle es = .ok (p', done)) (entry : p.clients[ip]? = some conn)
    (foretold : Foretold conn.serverMessageLen conn.serverMessage) (stays : ∀ h ∈ ofClient ip done, h.leaves = false)
    (passes : ∀ h ∈ ofClient ip done, h.withholds = false) :
    ∃ conn' lines, p'.clients[ip]? = some conn' ∧ p'.log = p.log ++ lines ∧
      Foretold conn'.serverMessageLen conn'.serverMessage ∧
      Ledger p.alpha conn.currentThroughput (lines.filter (·.browserIp = ip)) conn'.currentThroughput ∧
      List.Forall₂ Measures ((ofClient ip done).flatMap Handled.videos) (lines.filter (·.browserIp = ip)) ∧
      conn'.availableBitrates = conn.availableBitrates := by
  obtain ⟨conn', last, -, recorded⟩ := alone_accounts (keyed.alone run entry) stays
  obtain ⟨foretold', recorded⟩ := recorded foretold
  obtain ⟨ledger, measured, bitrates⟩ := recorded passes
  obtain ⟨out, -, acted⟩ := keyed.machines run
  refine ⟨conn', done.flatMap Handled.lines, last, acted.log, foretold', ?_, ?_, bitrates⟩
  · rw [acted.lines ip]
    exact ledger
  · rw [acted.lines ip]
    exact measured

end runs

/-- Two clients, of which the first has its bitrates. -/
def samplePlaying : MiProxy := sampleTwo.store Process.sampleIp
  { Process.sampleClient 5 with serverSocket := 7, availableBitrates := [500], currentThroughput := 750 }

theorem samplePlaying_keyed : samplePlaying.Keyed := sampleTwo_keyed.store rfl

/-- Two chunks, the one answered in two reads and the other asked for in two, while the second client begins a request. -/
def chunkReads : List Event :=
  [.client Process.sampleIp (some chunkRequest) {}, .client otherIp (some (text "GET ")) {},
    .server Process.sampleIp (some (chunkResponse.take 40)) { start := 2 },
    .server Process.sampleIp (some (chunkResponse.drop 40)) { now := 3 },
    .client Process.sampleIp (some (chunkRequest.take 9)) {}, .client Process.sampleIp (some (chunkRequest.drop 9)) {},
    .server Process.sampleIp (some chunkResponse) { start := 4, now := 8 }]

/-- What is sent on, what comes back, whether the client stays without a manifest, and what is measured. -/
def traffic (ip : Bytes) (result : MiProxy × List Handled) : List Bytes × List (Option Bytes) × Bool × List ℚ :=
  ((ofClient ip result.2).flatMap Handled.forwarded, (ofClient ip result.2).flatMap Handled.delivered,
    (ofClient ip result.2).all fun h => !h.leaves && !h.withholds, result.1.log.map LogLine.tput)

theorem chunkReads_traffic : (samplePlaying.handle chunkReads).map (traffic Process.sampleIp) =
    .ok ([withBitrate chunkRequest 500, withBitrate chunkRequest 500], [some chunkResponse, some chunkResponse], true,
      [68 / 125, 17 / 125]) := by
  decide +kernel

theorem chunkReads_stay {result : MiProxy × List Handled} (same : (traffic Process.sampleIp result).2.2.1 = true) :
    ∀ h ∈ ofClient Process.sampleIp result.2, h.leaves = false ∧ h.withholds = false := by
  intro h member
  simpa using List.all_eq_true.mp same h member

theorem bytes_conserved_sample : ∃ p' done conn', samplePlaying.handle chunkReads = .ok (p', done) ∧
    (ofClient Process.sampleIp done).flatMap Handled.forwarded =
      [withBitrate chunkRequest 500, withBitrate chunkRequest 500] ∧
    (ofClient Process.sampleIp done).flatMap Handled.delivered = [some chunkResponse, some chunkResponse] ∧
    p'.clients[Process.sampleIp]? = some conn' ∧
      Balanced { Process.sampleClient 5 with serverSocket := 7, availableBitrates := [500], currentThroughput := 750 }
        (ofClient Process.sampleIp done) conn' := by
  obtain ⟨⟨p', done⟩, run, seen⟩ := map_ok chunkReads_traffic
  have stays := chunkReads_stay (congrArg (·.2.2.1) seen)
  obtain ⟨conn', last, balanced⟩ := bytes_conserved samplePlaying_keyed run (store_here _ _ _)
    fun h member => (stays h member).1
  exact ⟨p', done, conn', run, congrArg (·.1) seen, congrArg (·.2.1) seen, last, balanced⟩

theorem log_accounts_sample : ∃ p' done, ∃ conn' : Connection, ∃ lines, samplePlaying.handle chunkReads = .ok (p', done) ∧
    p'.log = samplePlaying.log ++ lines ∧ lines.map LogLine.tput = [68 / 125, 17 / 125] ∧
      Ledger samplePlaying.alpha 750 (lines.filter (·.browserIp = Process.sampleIp)) conn'.currentThroughput ∧
      List.Forall₂ Measures ((ofClient Process.sampleIp done).flatMap Handled.videos)
        (lines.filter (·.browserIp = Process.sampleIp)) := by
  obtain ⟨⟨p', done⟩, run, seen⟩ := map_ok chunkReads_traffic
  have stays := chunkReads_stay (congrArg (·.2.2.1) seen)
  obtain ⟨conn', lines, -, log, -, ledger, measured, -⟩ := log_accounts samplePlaying_keyed run (store_here _ _ _)
    (.nil _) (fun h member => (stays h member).1) fun h member => (stays h member).2
  have tputs : (samplePlaying.log ++ lines).map LogLine.tput = [68 / 125, 17 / 125] := by
    rw [← log]
    exact congrArg (·.2.2.2) seen
  exact ⟨p', done, conn', lines, run, log, tputs, ledger, measured⟩

/-! ### Visits -/

/-- Where a client is not there, or has just come. -/
def Gone (calls : List Handled) : Prop := calls = [] ∨ ∃ earlier h, calls = earlier ++ [h] ∧ h.leaves = true

/-- The calls for a client end with those since it came, and it is still there. -/
structure Visit (calls since : List Handled) : Prop where
  came : ∃ gone, calls = gone ++ since ∧ Gone gone
  stays : ∀ h ∈ since, h.leaves = false

/-- The entry is what `holds` says of the calls since the client came. -/
def Tracked (holds : List Handled → Connection → Prop) (calls : List Handled) : Option Connection → Prop
  | none => Gone calls
  | some conn => ∃ since, Visit calls since ∧ holds since conn

/-- Each call is what `tells` says of those before it since the client came. -/
def Told (tells : List Handled → Handled → Prop) (calls : List Handled) : Prop :=
  ∀ before h after, calls = before ++ h :: after → ∃ since, Visit before since ∧ tells since h

/-- `holds` and `tells` are carried along by the calls of a visit. -/
structure Carried (alpha : ℚ) (holds : List Handled → Connection → Prop) (tells : List Handled → Handled → Prop) :
    Prop where
  comes (newSocket : Int) (ip wwwIp : Bytes) (dns : Exec Bytes) :
    tells [] ⟨.accept newSocket ip dns, [.accepted newSocket], []⟩ ∧
      holds [⟨.accept newSocket ip dns, [.accepted newSocket], []⟩] (fresh newSocket ip wwwIp)
  goes {since : List Handled} {conn conn' : Connection} {h : Handled} (held : holds since conn)
    (deals : Deals alpha conn h (some conn')) : tells since h ∧ holds (since ++ [h]) conn'
  leaves {since : List Handled} {conn : Connection} {h : Handled} (held : holds since conn)
    (deals : Deals alpha conn h none) : tells since h

section visits
variable {calls since : List Handled} {h : Handled} {holds : List Handled → Connection → Prop}
  {tells : List Handled → Handled → Prop}

theorem Visit.first (gone : Gone calls) : Visit calls [] := ⟨⟨calls, (List.append_nil calls).symm, gone⟩, List.forall_mem_nil _⟩

theorem Visit.next (visit : Visit calls since) (stays : h.leaves = false) : Visit (calls ++ [h]) (since ++ [h]) where
  came := by
    obtain ⟨gone, rfl, left⟩ := visit.came
    exact ⟨gone, List.append_assoc _ _ _, left⟩
  stays := List.forall_mem_append.mpr ⟨visit.stays, List.forall_mem_singleton.mpr stays⟩

theorem Told.next (told : Told tells calls) (visit : Visit calls since) (here : tells since h) : Told tells (calls ++ [h]) := by
  intro before h' after whole
  rcases List.eq_nil_or_concat after with rfl | ⟨after, last, rfl⟩
  · obtain ⟨rfl, same⟩ := List.append_inj' whole rfl
    obtain rfl := List.singleton_inj.mp same
    exact ⟨since, visit, here⟩
  · rw [List.concat_eq_append, ← List.cons_append, ← List.append_assoc] at whole
    obtain ⟨rfl, -⟩ := List.append_inj' whole rfl
    exact told before h' after rfl

theorem Carried.act {p : MiProxy} (carried : Carried p.alpha holds tells) {e : Event} {entry entry' : Option Connection}
    {now : List Handled} (acts : p.act e entry = .ok (entry', now)) (tracked : Tracked holds calls entry)
    (told : Told tells calls) : Tracked holds (calls ++ now) entry' ∧ Told tells (calls ++ now) := by
  cases entry with
  | some conn =>
    rcases act_deals acts with ⟨rfl, rfl⟩ | ⟨h, rfl, deals⟩
    · rw [List.append_nil]
      exact ⟨tracked, told⟩
    · obtain ⟨since, visit, held⟩ := tracked
      cases entry' with
      | none => exact ⟨.inr ⟨calls, h, rfl, deals.leaves⟩, told.next visit (carried.leaves held deals)⟩
      | some conn' =>
        obtain ⟨here, later⟩ := carried.goes held deals
        exact ⟨⟨since ++ [h], visit.next deals.leaves, later⟩, told.next visit here⟩
  | none =>
    cases e with
    | accept newSocket ip dns =>
      rw [MiProxy.act] at acts
      split at acts
      · cases acts
      · obtain ⟨wwwIp, -, acts⟩ := bind_ok acts
        cases acts
        obtain ⟨here, later⟩ := carried.comes newSocket ip wwwIp dns
        have visit := Visit.first tracked
        exact ⟨⟨_, visit.next rfl, later⟩, told.next visit here⟩
    | client ip read given =>
      cases acts
      rw [List.append_nil]
      exact ⟨tracked, told⟩
    | server ip read given =>
      cases acts
      rw [List.append_nil]
      exact ⟨tracked, told⟩

theorem Carried.alone {p : MiProxy} (carried : Carried p.alpha holds tells) {es : List Event}
    {entry last : Option Connection} {done : List Handled} (run : alone p.act es entry = .ok (last, done))
    (tracked : Tracked holds calls entry) (told : Told tells calls) :
    Tracked holds (calls ++ done) last ∧ Told tells (calls ++ done) := by
  induction es generalizing calls entry done with
  | nil =>
    cases run
    rw [List.append_nil]
    exact ⟨tracked, told⟩
  | cons e es ih =>
    obtain ⟨⟨next, now⟩, acts, run⟩ := bind_returns run
    obtain ⟨⟨last', later⟩, rest, run⟩ := bind_returns run
    cases run
    obtain ⟨tracked', told'⟩ := carried.act acts tracked told
    rw [← List.append_assoc]
    exact ih rest tracked' told'

/-- What the calls of a visit carry along is so for a client that comes to a proxy, whatever other clients do. -/
theorem Carried.run {p p' : MiProxy} (carried : Carried p.alpha holds tells) (keyed : p.Keyed) {es : List Event}
    {done : List Handled} {ip : Bytes} (absent : p.clients[ip]? = none) (run : p.handle es = .ok (p', done)) :
    Tracked holds (ofClient ip done) p'.clients[ip]? ∧ Told tells (ofClient ip done) := by
  obtain ⟨out, machines, acted⟩ := keyed.machines run
  have machine := together_alone machines ip
  rw [acted.ofClient ip, entries, absent] at machine
  have nothing : Told tells [] := fun before h after whole => by cases before <;> cases whole
  exact carried.alone machine (.inl rfl) nothing

end visits

end MiProxy

end VStream
