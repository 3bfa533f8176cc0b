import VStream.MiProxy.Chunks

/-!
# Adaptation

Two runs of a connection that get the same requests and manifests, one of them
over a network that is never slower. Reads may be cut and interleaved
differently; what counts is the order of the messages that they complete.
-/

namespace VStream
open Cpp Net MiProxy

namespace Connection

inductive Moment where
  | request (asked forwarded : Bytes)
  | manifest (response : Bytes)
  | chunk (newThroughput : ℚ)
  | other
  deriving DecidableEq

def requested (asked : Bytes) : List Action → Option Moment
  | [] => none
  | .forwarded _ message :: _ => some (.request asked message)
  | _ :: rest => requested asked rest

def responded (response : Bytes) (log : List LogLine) : List Action → Option Moment
  | [.intercepted _ _] => some (.manifest response)
  | [.answered _ _] => some (match log with
    | [] => .other
    | line :: _ => .chunk line.tput)
  | _ => none

/-- One handler call for the connection, with the message that it completes. -/
inductive Hears (alpha : ℚ) (conn : Connection) : Option Moment → Connection → Prop where
  | accepted (newSocket : Int) : Hears alpha conn none { conn with clientSocket := newSocket }
  | client {data : Bytes} {calls : RequestCalls} {conn' : Connection} {actions : List Action}
      (handled : handleClientConnection (some data) calls conn = .ok (some conn', actions)) :
      Hears alpha conn (requested (conn.clientMessage ++ data) actions) conn'
  | server {data : Bytes} {calls : ResponseCalls} {conn' : Connection} {log : List LogLine} {actions : List Action}
      (connected : conn.serverSocket ≠ -1)
      (handled : handleServerConnection alpha (some data) calls conn = .ok (conn', log, actions)) :
      Hears alpha conn (responded (conn.serverMessage ++ data) log actions) conn'

/-- The messages of a run, each with the throughput after it. -/
inductive History (alpha : ℚ) : Connection → List (Moment × ℚ) → Prop where
  | done (conn : Connection) : History alpha conn []
  | quiet {conn next : Connection} {moments : List (Moment × ℚ)} (hears : Hears alpha conn none next)
      (later : History alpha next moments) : History alpha conn moments
  | moment {conn next : Connection} {m : Moment} {moments : List (Moment × ℚ)} (hears : Hears alpha conn (some m) next)
      (later : History alpha next moments) : History alpha conn ((m, next.currentThroughput) :: moments)

/-! ### The estimate of a connection -/

/-- What the choice of a bitrate depends on. -/
structure Estimate where
  throughput : ℚ
  bitrates : List Int
  noListMessage : Bytes

def estimate (conn : Connection) : Estimate := ⟨conn.currentThroughput, conn.availableBitrates, conn.noListMessage⟩

def Estimate.After (alpha : ℚ) (e : Estimate) : Option Moment → Estimate → Prop
  | none, e' => e' = e
  | some (.request asked forwarded), e' =>
    forwarded = (if NamesChunk asked then withBitrate asked (chooseBitrate e.throughput e.bitrates) else asked) ∧
      e' = { e with noListMessage := (noList asked).getD e.noListMessage }
  | some (.manifest response), e' =>
    ∃ rest bitrates, manifestBitrates response e.bitrates = .ok (rest, bitrates) ∧
      e' = { throughput := bitrates.headD 0 * (3 / 2), bitrates, noListMessage := [] }
  | some (.chunk newThroughput), e' => e' = { e with throughput := average alpha newThroughput e.throughput }
  | some .other, e' => e' = e

theorem rewritten_estimate (conn : Connection) : conn.rewritten.estimate = conn.estimate := by
  unfold rewritten
  split <;> rfl

/-- The handlers do with the estimate what the message says. -/
theorem Hears.after {alpha : ℚ} {conn conn' : Connection} {m : Option Moment} (hears : Hears alpha conn m conn') :
    conn.estimate.After alpha m conn'.estimate := by
  cases hears with
  | accepted newSocket => exact rfl
  | @client data calls conn' actions handled =>
    cases data with
    | nil => cases handled
    | cons c data =>
      rcases handleClientConnection_ok (List.cons_ne_nil c data) handled with
        ⟨-, rfl, same⟩ | ⟨-, next, acts, request, rfl, same⟩
      · cases same
        exact rfl
      · cases same
        obtain ⟨serverSocket, opened, asking, server, here, -, rfl, rfl⟩ := handleRequestMessage_parts request
        have message := asking.rewritten_message
        have same := asking.rewritten_estimate
        have moment : requested (conn.clientMessage ++ c :: data)
            (.heard conn.clientSocket (c :: data) :: (opened ++ [.forwarded serverSocket asking.rewritten.clientMessage])) =
            some (.request (conn.clientMessage ++ c :: data) asking.rewritten.clientMessage) := by
          cases server <;> rfl
        rw [moment]
        subst here
        exact ⟨message, same⟩
  | @server data calls conn' log actions connected handled =>
    by_cases empty : data = []
    · subst empty
      cases handled
      exact rfl
    · obtain ⟨start, len, ⟨-, rfl, rfl, rfl⟩ | ⟨-, handled⟩⟩ := handleServerConnection_ok empty handled
      · exact rfl
      · rcases handleResponseMessage_parts handled with ⟨-, rest, bitrates, parsed, rfl, rfl, rfl⟩ |
          ⟨-, rfl, ⟨-, rfl, rfl⟩ | ⟨-, rfl, rfl⟩⟩
        · exact ⟨rest, bitrates, parsed, rfl⟩
        · exact rfl
        · exact rfl

theorem History.first {alpha : ℚ} {conn : Connection} {m : Moment} {throughput : ℚ} {moments : List (Moment × ℚ)}
    (run : History alpha conn ((m, throughput) :: moments)) :
    ∃ next, conn.estimate.After alpha (some m) next.estimate ∧ throughput = next.currentThroughput ∧
      History alpha next moments := by
  generalize all : (m, throughput) :: moments = entries at run
  induction run with
  | done conn => cases all
  | quiet hears later ih =>
    obtain ⟨next, after, rest⟩ := ih all
    rw [show _ = _ from hears.after] at after
    exact ⟨next, after, rest⟩
  | moment hears later ih =>
    cases all
    exact ⟨_, hears.after, rfl, later⟩

/-! ### Two runs -/

/-- The same message, measured no slower. -/
def Moment.Faster : Moment → Moment → Prop
  | .request asked _, .request asked' _ => asked = asked'
  | .manifest response, .manifest response' => response = response'
  | .chunk newThroughput, .chunk newThroughput' => newThroughput' ≤ newThroughput
  | .other, .other => True
  | _, _ => False

/-- The same request, with a bitrate that is no lower where one is written into it. -/
def Moment.Higher : Moment → Moment → Prop
  | .request asked forwarded, .request _ forwarded' =>
    if NamesChunk asked then
      ∃ br br', br' ≤ br ∧ forwarded = withBitrate asked br ∧ forwarded' = withBitrate asked br'
    else forwarded = asked ∧ forwarded' = asked
  | _, _ => True

structure Estimate.Ahead (e e' : Estimate) : Prop where
  throughput : e'.throughput ≤ e.throughput
  bitrates : e'.bitrates = e.bitrates
  sorted : e.bitrates.Pairwise (· ≤ ·)
  noListMessage : e'.noListMessage = e.noListMessage

theorem Estimate.Ahead.after {alpha : ℚ} (low : 0 ≤ alpha) (high : alpha ≤ 1) {e e' next next' : Estimate} {m m' : Moment}
    (ahead : e.Ahead e') (faster : m.Faster m') (step : e.After alpha (some m) next) (step' : e'.After alpha (some m') next') :
    next.Ahead next' ∧ m.Higher m' := by
  obtain ⟨throughput, bitrates, noListMessage⟩ := e
  obtain ⟨throughput', bitrates', noListMessage'⟩ := e'
  obtain ⟨behind, rfl, sorted, rfl⟩ := ahead
  cases m with
  | request asked forwarded =>
    cases m' with
    | request asked' forwarded' =>
      obtain rfl : asked = asked' := faster
      obtain ⟨written, rfl⟩ := step
      obtain ⟨written', rfl⟩ := step'
      refine ⟨⟨behind, rfl, sorted, rfl⟩, ?_⟩
      dsimp only [Moment.Higher]
      by_cases names : NamesChunk asked
      · rw [if_pos names] at written written' ⊢
        exact ⟨_, _, chooseBitrate_mono behind sorted, written, written'⟩
      · rw [if_neg names] at written written' ⊢
        exact ⟨written, written'⟩
    | _ => exact faster.elim
  | manifest response =>
    cases m' with
    | manifest response' =>
      obtain rfl : response = response' := faster
      obtain ⟨rest, known, parsed, rfl⟩ := step
      obtain ⟨rest', known', parsed', rfl⟩ := step'
      cases parsed.symm.trans parsed'
      exact ⟨⟨le_refl _, rfl, (manifestBitrates_ok parsed).2, rfl⟩, trivial⟩
    | _ => exact faster.elim
  | chunk newThroughput =>
    cases m' with
    | chunk newThroughput' =>
      obtain rfl : next = _ := step
      obtain rfl : next' = _ := step'
      exact ⟨⟨average_mono low high faster behind, rfl, sorted, rfl⟩, trivial⟩
    | _ => exact faster.elim
  | other =>
    cases m' with
    | other =>
      obtain rfl : next = _ := step
      obtain rfl : next' = _ := step'
      exact ⟨⟨behind, rfl, sorted, rfl⟩, trivial⟩
    | _ => exact faster.elim

theorem History.ahead {alpha : ℚ} (low : 0 ≤ alpha) (high : alpha ≤ 1) {moments moments' : List (Moment × ℚ)}
    (faster : List.Forall₂ (fun m m' => m.1.Faster m'.1) moments moments') {conn conn' : Connection}
    (ahead : conn.estimate.Ahead conn'.estimate) (run : History alpha conn moments)
    (run' : History alpha conn' moments') :
    List.Forall₂ (fun m m' => m'.2 ≤ m.2 ∧ m.1.Higher m'.1) moments moments' := by
  induction faster generalizing conn conn' with
  | nil => exact .nil
  | @cons m m' moments moments' here later ih =>
    obtain ⟨m, throughput⟩ := m
    obtain ⟨m', throughput'⟩ := m'
    obtain ⟨next, step, rfl, rest⟩ := run.first
    obtain ⟨next', step', rfl, rest'⟩ := run'.first
    obtain ⟨after, higher⟩ := ahead.after low high here step step'
    exact .cons ⟨after.throughput, higher⟩ (ih after rest rest')

/-- The entry of a client that has just been accepted. -/
def fresh (clientSocket : Int) (clientIp wwwIp : Bytes) : Connection :=
  { clientSocket, serverSocket := -1, clientIp, wwwIp }

/-- The faster of two runs with the same messages never has the lower throughput and never asks for the lower
bitrate. -/
theorem adaptation_monotone {alpha : ℚ} (low : 0 ≤ alpha) (high : alpha ≤ 1) {fd fd' : Int} {ip ip' wwwIp wwwIp' : Bytes}
    {moments moments' : List (Moment × ℚ)} (run : History alpha (fresh fd ip wwwIp) moments)
    (run' : History alpha (fresh fd' ip' wwwIp') moments')
    (faster : List.Forall₂ (fun m m' => m.1.Faster m'.1) moments moments') :
    List.Forall₂ (fun m m' => m'.2 ≤ m.2 ∧ m.1.Higher m'.1) moments moments' := by
  have start : (fresh fd ip wwwIp).estimate.Ahead (fresh fd' ip' wwwIp').estimate := ⟨le_refl _, rfl, .nil, rfl⟩
  exact History.ahead low high faster start run run'

/-! ### A run -/

inductive Read where
  | client (data : Bytes) (calls : RequestCalls)
  | server (data : Bytes) (calls : ResponseCalls)

/-- The messages of a run whose reads are given. -/
def listen (alpha : ℚ) : List Read → Connection → Option (List (Moment × ℚ))
  | [], _ => some []
  | .client data calls :: reads, conn =>
    match handleClientConnection (some data) calls conn with
    | .ok (some next, actions) => (listen alpha reads next).map
        (((requested (conn.clientMessage ++ data) actions).map (·, next.currentThroughput)).toList ++ ·)
    | _ => none
  | .server data calls :: reads, conn =>
    if conn.serverSocket = -1 then none
    else
      match handleServerConnection alpha (some data) calls conn with
      | .ok (next, log, actions) => (listen alpha reads next).map
          (((responded (conn.serverMessage ++ data) log actions).map (·, next.currentThroughput)).toList ++ ·)
      | _ => none

theorem Hears.history {alpha : ℚ} {conn next : Connection} {m : Option Moment} {moments : List (Moment × ℚ)}
    (hears : Hears alpha conn m next) (later : History alpha next moments) :
    History alpha conn ((m.map (·, next.currentThroughput)).toList ++ moments) := by
  cases m with
  | none => exact .quiet hears later
  | some m => exact .moment hears later

theorem listen_history {alpha : ℚ} {reads : List Read} {conn : Connection} {moments : List (Moment × ℚ)}
    (heard : listen alpha reads conn = some moments) : History alpha conn moments := by
  induction reads generalizing conn moments with
  | nil =>
    obtain rfl := Option.some.inj heard
    exact .done conn
  | cons read reads ih =>
    cases read with
    | client data calls =>
      rw [listen] at heard
      split at heard
      · rename_i next actions handled
        obtain ⟨later, rest, rfl⟩ := Option.map_eq_some_iff.mp heard
        exact (Hears.client handled).history (ih rest)
      · cases heard
    | server data calls =>
      rw [listen] at heard
      split at heard
      · cases heard
      · rename_i connected
        split at heard
        · rename_i next log actions handled
          obtain ⟨later, rest, rfl⟩ := Option.map_eq_some_iff.mp heard
          exact (Hears.server connected handled).history (ih rest)
        · cases heard

def manifestRequest : Bytes := text "GET /vod/big_buck_bunny.f4m HTTP/1.1\r\n\r\n"
def manifestResponse : Bytes :=
  text "HTTP/1.1 200 OK\r\nContent-Type: text/xml\r\nContent-Length: 24\r\n\r\nbitrate=\"10\"bitrate=\"40\""
def chunkRequest : Bytes := text "GET /vod/40Seg1-Frag2 HTTP/1.1\r\n\r\n"
def chunkResponse : Bytes := text "HTTP/1.1 200 OK\r\nContent-Type: video/f4f\r\nContent-Length: 5\r\n\r\nvideo"

def awaiting : Connection := { fresh 4 [] [] with serverSocket := 5, noListMessage := (noList manifestRequest).getD [] }
def listed : Connection := { fresh 4 [] [] with serverSocket := 5, serverPort := 80, availableBitrates := [10, 40], currentThroughput := 15 }

theorem manifest_asked : handleClientConnection (some manifestRequest) { socket := 5 } (fresh 4 [] []) =
    .ok (some awaiting, [.heard 4 manifestRequest, .connected 5 { hostname := [], port := 80 }, .forwarded 5 manifestRequest]) := by decide +kernel

theorem manifest_handled : handleServerConnection 1 (some manifestResponse) {} awaiting =
    .ok (listed, [], [.intercepted 5 awaiting.noListMessage]) := by
  have header : expectedLen 0 manifestResponse = .ok (some 87) := by decide +kernel
  have read : loop takeBitrate (manifestResponse.length + 1) (manifestResponse, []) =
      .ok (manifestResponse.take 63, [10, 40]) := by decide +kernel
  have parsed := manifestBitrates_sorted (by decide +kernel) read (by decide) (by decide)
  have kept : awaiting.noListMessage ≠ [] := by decide +kernel
  have sent : handOver [] awaiting.noListMessage = .ok awaiting.noListMessage := by decide +kernel
  rw [handleServerConnection_eq 1 {} awaiting (by decide +kernel)]
  change (expectedLen 0 manifestResponse >>= _) = _
  rw [header, ok_bind]
  dsimp only
  rw [if_neg (by decide +kernel)]
  apply (handleResponseMessage_manifest 1 {} (by exact kept) (by exact parsed)).trans
  change (handOver [] awaiting.noListMessage >>= _) = _
  rw [sent, ok_bind]
  decide +kernel

def sampleReads (now : ℚ) : List Read :=
  [.client chunkRequest {}, .server chunkResponse { now }, .client chunkRequest {}]

def sampleMoments (newThroughput : ℚ) (br : Int) : List (Moment × ℚ) :=
  [(.request manifestRequest manifestRequest, 0), (.manifest manifestResponse, 15),
    (.request chunkRequest (withBitrate chunkRequest 10), 15), (.chunk newThroughput, newThroughput),
    (.request chunkRequest (withBitrate chunkRequest br), newThroughput)]

theorem sample_history (now : ℚ) {newThroughput : ℚ} {br : Int}
    (heard : listen 1 (sampleReads now) listed = some ((sampleMoments newThroughput br).drop 2)) :
    History 1 (fresh 4 [] []) (sampleMoments newThroughput br) := by
  have answered : Hears 1 awaiting (some (.manifest manifestResponse)) listed := .server (by decide) manifest_handled
  exact .moment (.client manifest_asked) (.moment answered (listen_history heard))

theorem adaptation_monotone_sample : List.Forall₂ (fun m m' => m'.2 ≤ m.2 ∧ m.1.Higher m'.1)
    (sampleMoments 136 40) (sampleMoments (68 / 125) 10) := by
  have fast : History 1 (fresh 4 [] []) (sampleMoments 136 40) := sample_history (1 / 250) (by decide +kernel)
  have slow : History 1 (fresh 4 [] []) (sampleMoments (68 / 125) 10) := sample_history 1 (by decide +kernel)
  have faster : List.Forall₂ (fun m m' => m.1.Faster m'.1) (sampleMoments 136 40) (sampleMoments (68 / 125) 10) :=
    .cons rfl (.cons rfl (.cons rfl (.cons (by norm_num [Moment.Faster]) (.cons rfl .nil))))
  exact adaptation_monotone (by norm_num) (le_refl 1) fast slow faster

end Connection

end VStream
