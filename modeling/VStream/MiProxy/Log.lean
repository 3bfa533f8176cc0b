import VStream.Cpp.Endings
import VStream.MiProxy.Accounts
import VStream.MiProxy.Provenance

/-!
# What the log says

A line of the log has what the proxy remembers when a video response is
complete. Here each of its fields is traced to the traffic of the client since
it came: the last chunk that was asked for it, and the reads that brought the
response.
-/

namespace VStream
open Cpp Net Parallel Connection

/-- When a read that brings bytes from a server has begun. -/
def Handled.begun (h : Handled) : Option ℚ :=
  match h.event with
  | .server _ (some (_ :: _)) calls => some calls.start
  | _ => none

namespace MiProxy

/-- Name and bitrate of the last chunk asked for in these calls: the message goes on with the bitrate put into it, and the
name is what then stands there. -/
inductive LastChunk : List Handled → Bytes × Int → Prop where
  | none : LastChunk [] ([], 0)
  | other {calls : List Handled} {h : Handled} {chunk : Bytes × Int} (last : LastChunk calls chunk)
      (plain : ∀ message ∈ h.forwarded, ¬NamesChunk message) : LastChunk (calls ++ [h]) chunk
  | asked {calls : List Handled} {h : Handled} {asked : Bytes} {br : Int} (names : NamesChunk asked)
      (read : asked <:+ (calls ++ [h]).flatMap Handled.fromClient) (sent : h.forwarded = [withBitrate asked br]) :
      LastChunk (calls ++ [h]) (chunkOf asked br, br)

/-- The last of these calls brought `bytes` from the servers, from the moment `begun` on, and with them came nothing
but what is `delivered`. -/
def Brought (calls : List Handled) (begun : ℚ) (bytes : Bytes) (delivered : List (Option Bytes)) : Prop :=
  ∃ earlier first later, calls = earlier ++ first :: later ∧ first.begun = some begun ∧
    (first :: later).flatMap Handled.fromServer = bytes ∧ (first :: later).flatMap Handled.delivered = delivered

/-- A line that is written with `h`, behind these calls for the client. -/
structure Tells (calls : List Handled) (h : Handled) (line : LogLine) : Prop where
  chunk : LastChunk calls (line.chunkname, line.bitrate)
  response : ∃ ip data given fd response begun, h.event = .server ip (some data) given ∧
    h.actions = [.answered fd response] ∧ IsVideo response ∧ line.serverIp = given.peer ∧
    line.duration = given.now - begun ∧ Brought (calls ++ [h]) begun response [some response] ∧ Measures response line

/-! ### What a connection remembers -/

structure Remembers (calls : List Handled) (conn : Connection) : Prop where
  request : conn.clientMessage <:+ calls.flatMap Handled.fromClient
  chunk : LastChunk calls (conn.chunkname, conn.currentBitrate)
  response : conn.serverMessage ≠ [] → Brought calls conn.serverConnStart conn.serverMessage []

section memory
variable {calls : List Handled} {h : Handled} {conn conn' : Connection} {begun : ℚ} {bytes : Bytes}

theorem Brought.more (brought : Brought calls begun bytes []) (h : Handled) :
    Brought (calls ++ [h]) begun (bytes ++ h.fromServer) h.delivered := by
  obtain ⟨earlier, first, later, rfl, start, read, given⟩ := brought
  refine ⟨earlier, first, later ++ [h], by simp, start, ?_, ?_⟩
  · rw [← List.cons_append, List.flatMap_append, read, List.flatMap_singleton]
  · rw [← List.cons_append, List.flatMap_append, given, List.flatMap_singleton, List.nil_append]

theorem Brought.first (calls : List Handled) (start : h.begun = some begun) :
    Brought (calls ++ [h]) begun h.fromServer h.delivered :=
  ⟨calls, h, [], rfl, start, List.flatMap_singleton _ _, List.flatMap_singleton _ _⟩

/-- A read from a server goes on with what is in the buffer, or begins. -/
theorem Remembers.read (remembers : Remembers calls conn) {ip data : Bytes} (some : data ≠ []) {given : ResponseCalls}
    (event : h.event = .server ip (.some data) given) :
    Brought (calls ++ [h]) (if conn.serverMessage = [] then given.start else conn.serverConnStart)
      (conn.serverMessage ++ data) h.delivered := by
  have read : h.fromServer = data := by rw [Handled.fromServer, event]
  rw [← read]
  by_cases empty : conn.serverMessage = []
  · rw [if_pos empty, empty, List.nil_append]
    apply Brought.first
    obtain ⟨c, data, rfl⟩ := List.exists_cons_of_ne_nil some
    rw [Handled.begun, event]
  · rw [if_neg empty]
    exact (remembers.response empty).more h

theorem Remembers.asking (remembers : Remembers calls conn) {data : Bytes} (read : h.fromClient = data) :
    conn.clientMessage ++ data <:+ (calls ++ [h]).flatMap Handled.fromClient := by
  rw [List.flatMap_append, List.flatMap_singleton, read]
  exact List.suffix_append_self_iff.mpr remembers.request

theorem Remembers.unasked (remembers : Remembers calls conn) (read : h.fromClient = []) :
    conn.clientMessage <:+ (calls ++ [h]).flatMap Handled.fromClient := by
  have suffix := remembers.asking read
  rwa [List.append_nil] at suffix

theorem LastChunk.quiet {chunk : Bytes × Int} (last : LastChunk calls chunk) (sent : h.forwarded = []) :
    LastChunk (calls ++ [h]) chunk := by
  refine .other last ?_
  rw [sent]
  exact List.forall_mem_nil _

theorem LastChunk.rewritten (last : LastChunk calls (conn.chunkname, conn.currentBitrate))
    (read : conn.clientMessage <:+ (calls ++ [h]).flatMap Handled.fromClient)
    (sent : h.forwarded = [conn.rewritten.clientMessage]) :
    LastChunk (calls ++ [h]) (conn.rewritten.chunkname, conn.rewritten.currentBitrate) := by
  by_cases names : NamesChunk conn.clientMessage
  · rw [Connection.rewritten, if_pos names] at sent ⊢
    dsimp only at sent ⊢
    exact .asked names read sent
  · rw [Connection.rewritten, if_neg names] at sent ⊢
    exact .other last (sent ▸ List.forall_mem_singleton.mpr names)

theorem rewritten_serverConnStart (conn : Connection) : conn.rewritten.serverConnStart = conn.serverConnStart := by
  unfold rewritten
  split <;> rfl

/-- A call that brings nothing from a server. -/
theorem Remembers.keeps (remembers : Remembers calls conn) (read : h.fromServer = [])
    (given : h.delivered = []) (request : conn'.clientMessage <:+ (calls ++ [h]).flatMap Handled.fromClient)
    (chunk : LastChunk (calls ++ [h]) (conn'.chunkname, conn'.currentBitrate))
    (message : conn'.serverMessage = conn.serverMessage)
    (start : conn.serverMessage ≠ [] → conn'.serverConnStart = conn.serverConnStart) :
    Remembers (calls ++ [h]) conn' where
  request := request
  chunk := chunk
  response some := by
    rw [message] at some
    have brought := (remembers.response some).more h
    rw [read, given, List.append_nil] at brought
    rwa [message, start some]

theorem Remembers.reads (remembers : Remembers calls conn) {ip data : Bytes} (some : data ≠ []) {given : ResponseCalls}
    (event : h.event = .server ip (.some data) given) (nothing : h.delivered = [])
    (request : conn'.clientMessage <:+ (calls ++ [h]).flatMap Handled.fromClient)
    (message : conn'.serverMessage = conn.serverMessage ++ data)
    (chunk : LastChunk (calls ++ [h]) (conn'.chunkname, conn'.currentBitrate))
    (start : conn'.serverConnStart = if conn.serverMessage = [] then given.start else conn.serverConnStart) :
    Remembers (calls ++ [h]) conn' where
  request := request
  chunk := chunk
  response _ := by
    rw [message, start, ← nothing]
    exact remembers.read some event

theorem Remembers.completes (request : conn'.clientMessage <:+ (calls ++ [h]).flatMap Handled.fromClient)
    (chunk : LastChunk (calls ++ [h]) (conn'.chunkname, conn'.currentBitrate))
    (empty : conn'.serverMessage = []) : Remembers (calls ++ [h]) conn' where
  request := request
  chunk := chunk
  response some := absurd empty some

/-- One handler call for a client that stays. -/
theorem Remembers.goes {alpha : ℚ} (remembers : Remembers calls conn)
    (foretold : Foretold conn.serverMessageLen conn.serverMessage) (deals : Deals alpha conn h (some conn')) :
    (∀ line ∈ h.lines, Tells calls h line) ∧ Remembers (calls ++ [h]) conn' := by
  have chunk := remembers.chunk
  cases deals with
  | accepted =>
    exact ⟨List.forall_mem_nil _, remembers.keeps rfl rfl (remembers.unasked rfl) (chunk.quiet rfl) rfl fun _ => rfl⟩
  | heard some more =>
    exact ⟨List.forall_mem_nil _, remembers.keeps rfl rfl (remembers.asking rfl) (chunk.quiet rfl) rfl fun _ => rfl⟩
  | @asked ip data given serverSocket opened asking some ended here listed server =>
    have kept : asking.chunkname = conn.chunkname ∧ asking.currentBitrate = conn.currentBitrate ∧
        asking.serverMessage = conn.serverMessage ∧ asking.serverConnStart = conn.serverConnStart := by
      rw [here]
      exact ⟨rfl, rfl, rfl, rfl⟩
    have asks : asking.clientMessage = conn.clientMessage ++ data := by rw [here]
    obtain ⟨name, br, message, start⟩ := kept
    rw [← name, ← br] at chunk
    refine ⟨List.forall_mem_nil _, remembers.keeps rfl ?_ List.nil_suffix (chunk.rewritten ?_ ?_) ?_ ?_⟩
    · cases server <;> rfl
    · rw [asks]
      exact remembers.asking rfl
    · cases server <;> rfl
    · exact (rewritten_serverMessage asking).trans message
    · exact fun _ => (rewritten_serverConnStart asking).trans start
  | lost =>
    refine ⟨List.forall_mem_nil _, remembers.keeps rfl rfl (remembers.unasked rfl) (chunk.quiet rfl) ?_ ?_⟩
    · exact List.append_nil _
    · exact fun some => if_neg some
  | fed some waits =>
    exact ⟨List.forall_mem_nil _,
      remembers.reads some rfl rfl (remembers.unasked rfl) rfl (chunk.quiet rfl) rfl⟩
  | withheld some kept parsed =>
    exact ⟨List.forall_mem_nil _, .completes (remembers.unasked rfl) (chunk.quiet rfl) rfl⟩
  | @watched ip data given len some plain expected full video =>
    refine ⟨List.forall_mem_singleton.mpr ?_, .completes (remembers.unasked rfl) (chunk.quiet rfl) rfl⟩
    exact ⟨chunk, ip, data, given, conn.clientSocket, conn.serverMessage ++ data, _, rfl, rfl, video, rfl, rfl,
      remembers.read some rfl, fun fits => ⟨len, foretold.announces expected fits, rfl⟩⟩
  | passed some plain other =>
    exact ⟨List.forall_mem_nil _, .completes (remembers.unasked rfl) (chunk.quiet rfl) rfl⟩

/-- Every line tells of the calls since the client came. -/
theorem remembers_carried (alpha : ℚ) :
    Carried alpha (fun since conn => Remembers since conn ∧ Foretold conn.serverMessageLen conn.serverMessage)
      fun since h => ∀ line ∈ h.lines, Tells since h line where
  comes newSocket ip wwwIp dns := by
    refine ⟨List.forall_mem_nil _, ⟨List.nil_suffix, ?_, fun some => absurd rfl some⟩, .nil _⟩
    exact .other .none (List.forall_mem_nil _)
  goes held deals := by
    obtain ⟨remembers, foretold⟩ := held
    obtain ⟨tells, remembers'⟩ := remembers.goes foretold deals
    exact ⟨tells, remembers', deals.foretold foretold⟩
  leaves _ deals := by
    cases deals
    exact List.forall_mem_nil _

end memory

/-- In every run of a proxy that a client comes to, its lines in the log tell of the traffic since it came: each names the
last chunk that was asked for it, and the server, the duration and the throughput of the video response with which it
is written. -/
theorem log_tells {p p' : MiProxy} (keyed : p.Keyed) {es : List Event} {done : List Handled} {ip : Bytes}
    (absent : p.clients[ip]? = none) (run : p.handle es = .ok (p', done)) :
    ∃ lines, p'.log = p.log ++ lines ∧ lines.filter (·.browserIp = ip) = (ofClient ip done).flatMap Handled.lines ∧
      Told (fun since h => ∀ line ∈ h.lines, Tells since h line) (ofClient ip done) := by
  obtain ⟨out, -, acted⟩ := keyed.machines run
  obtain ⟨-, told⟩ := (remembers_carried p.alpha).run keyed absent run
  exact ⟨done.flatMap Handled.lines, acted.log, acted.lines ip, told⟩

/-- A manifest with one bitrate, the page without a list, and a chunk. -/
def sampleVisit : List Event :=
  [.accept 5 Process.sampleIp (.ok []), .client Process.sampleIp (some Watched.sampleRequest) { socket := 7 },
    .server Process.sampleIp (some Watched.sampleManifest) {},
    .server Process.sampleIp (some (text "HTTP/1.1 200 OK\r\nContent-Length: 2\r\n\r\nok")) {},
    .client Process.sampleIp (some chunkRequest) {},
    .server Process.sampleIp (some (chunkResponse.take 40)) { start := 2, peer := text "10.0.0.9" },
    .server Process.sampleIp (some (chunkResponse.drop 40)) { now := 3, peer := text "10.0.0.9" }]

def sampleLine : LogLine where
  browserIp := Process.sampleIp
  chunkname := text "500Seg1-Frag2"
  serverIp := text "10.0.0.9"
  duration := 1
  tput := 68 / 125
  avgTput := 46909 / 125
  bitrate := 500

theorem sampleVisit_logged : (Process.sampleStart.proxy.handle sampleVisit).map (·.1.log) = .ok [sampleLine] := by
  decide +kernel

theorem log_tells_sample : ∃ since h, Tells since h sampleLine := by
  obtain ⟨⟨p', done⟩, run, log⟩ := map_ok sampleVisit_logged
  obtain ⟨lines, all, own, told⟩ := log_tells Process.sampleStart_started.inv.keyed (Process.sampleStart_started.empty _) run
  have only : lines = [sampleLine] := all.symm.trans log
  have member : sampleLine ∈ (ofClient Process.sampleIp done).flatMap Handled.lines := by
    rw [← own, only]
    exact List.mem_filter.mpr ⟨List.mem_singleton_self _, decide_eq_true rfl⟩
  obtain ⟨h, here, line⟩ := List.mem_flatMap.mp member
  obtain ⟨before, after, whole⟩ := List.append_of_mem here
  obtain ⟨since, -, tells⟩ := told before h after whole
  exact ⟨since, h, tells sampleLine line⟩

end MiProxy

end VStream
