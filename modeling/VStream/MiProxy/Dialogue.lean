import VStream.MiProxy.Adaptation
import VStream.MiProxy.Framing

/-!
# Requests and the responses to them

A client may ask again before it has its response. What the proxy has to
remember of a request until then has one place for all requests, so that the
order in which they come decides whether a response is taken for what it is.
-/

namespace VStream
open Cpp Net Connection MiProxy

/-- What the response to a forwarded message will be. -/
structure Asked where
  manifest : Bool
  /-- The name of a chunk, and its bitrate where a number says it. -/
  chunk : Option (Bytes × Option Int)
  deriving DecidableEq

/-- A name and a bitrate fit what was asked. -/
def AsksFor (chunk : Bytes × Option Int) (known : Bytes × Int) : Prop := chunk.1 = known.1 ∧ ∀ br ∈ chunk.2, br = known.2

instance (chunk : Bytes × Option Int) (known : Bytes × Int) : Decidable (AsksFor chunk known) :=
  inferInstanceAs (Decidable (_ ∧ _))

/-- A connection with the forwarded messages whose responses are not complete, the first one first. -/
structure Dialogue where
  conn : Connection
  waiting : List Asked := []
  deriving DecidableEq

namespace Dialogue

def asks (message : Bytes) (conn : Connection) : Asked where
  manifest := (noList message).isSome
  chunk := if NamesChunk message then some (chunkOf message conn.choice, some conn.choice) else none

/-- What stands in a message that names a chunk: behind the last slash, and of that in front of the segment. -/
def chunkIn (message : Bytes) : Bytes :=
  stretch message (sizeAdd (pathStart message) 1)
    (sizeSub (sizeSub (sizeT (find (text " HTTP/1.1") message)) (pathStart message)) 1)

def bitrateIn (message : Bytes) : Bytes :=
  stretch message (sizeAdd (pathStart message) 1) (sizeSub (sizeSub (segStart message) (pathStart message)) 1)

/-- The no-list message goes out with the chunk that the client has written, if any, and does not ask for bitrates. -/
def noListAsked (message : Bytes) : Asked where
  manifest := false
  chunk := if NamesChunk message then some (chunkIn message, (stoi (bitrateIn message)).toOption) else none

def after (message : Bytes) (conn : Connection) (waiting : List Asked) : Action → List Asked
  | .forwarded _ _ => waiting ++ [asks message conn]
  | .intercepted _ noListMessage => waiting.tail ++ [noListAsked noListMessage]
  | .answered _ _ => waiting.tail
  | .serverClosed _ => []
  | _ => waiting

/-- The no-list message that is still to be sent. -/
def pending (conn : Connection) : List Asked :=
  if conn.noListMessage = [] then [] else [noListAsked conn.noListMessage]

/-- All that still waits for a response or will. -/
def owed (d : Dialogue) : List Asked := d.waiting ++ pending d.conn

/-- The chunk that the connection remembers when it has read a request. -/
def remembered (message : Bytes) (conn : Connection) : Bytes × Int :=
  if NamesChunk message then (chunkOf message conn.choice, conn.choice) else (conn.chunkname, conn.currentBitrate)

/-- One read. The dialogue is over when the client's stream ends. -/
def next (alpha : ℚ) (d : Dialogue) : Read → Exec (Option Dialogue × List LogLine × List Action)
  | .client data calls => do
    let (conn, actions) ← handleClientConnection (some data) calls d.conn
    let waiting := actions.foldl (after (d.conn.clientMessage ++ data) d.conn) d.waiting
    return (conn.map fun conn => { conn, waiting }, [], actions)
  | .server data calls =>
    if d.conn.serverSocket = -1 then .ok (some d, [], [])
    else do
      let (conn, log, actions) ← handleServerConnection alpha (some data) calls d.conn
      let waiting := actions.foldl (after [] d.conn) d.waiting
      return (some { conn, waiting }, log, actions)

/-- The response is one of the server's and is taken for what the first message that waits has asked for. -/
def Right (waiting : List Asked) (response : Bytes) (log : List LogLine) : Action → Prop
  | .intercepted _ _ => (∃ r : Response, response = r.bytes) ∧ ∃ asked ∈ waiting.head?, asked.manifest = true
  | .answered _ _ => (∃ r : Response, response = r.bytes) ∧ ∃ asked ∈ waiting.head?, asked.manifest = false ∧
      ∀ chunk ∈ asked.chunk, IsVideo response →
        ∃ line, log = [line] ∧ AsksFor chunk (line.chunkname, line.bitrate)
  | _ => True

def response (d : Dialogue) : Read → Bytes
  | .client _ _ => []
  | .server data _ => d.conn.serverMessage ++ data

def AllRight (alpha : ℚ) : Dialogue → List Read → Prop
  | _, [] => True
  | d, read :: reads => ∀ d' log actions, d.next alpha read = .ok (d', log, actions) →
      (∀ action ∈ actions, Right d.waiting (d.response read) log action) ∧ ∀ d₁ ∈ d', AllRight alpha d₁ reads

/-- A manifest is asked for while nothing waits, a chunk while no other chunk does or will, and a no-list message
names no other chunk either; the server answers what it was asked, each response in reads of its own, and leaves
neither within a response nor before one with a manifest. -/
def Orderly (d : Dialogue) : Read → Prop
  | .client data _ => find blankLine (d.conn.clientMessage ++ data) ≠ none →
      ((noList (d.conn.clientMessage ++ data)).isSome → d.waiting = []) ∧
      (NamesChunk (d.conn.clientMessage ++ data) → ∀ asked ∈ d.owed, ∀ chunk ∈ asked.chunk,
        AsksFor chunk (remembered (d.conn.clientMessage ++ data) d.conn)) ∧
      ∀ message ∈ noList (d.conn.clientMessage ++ data), ∀ chunk ∈ (noListAsked message).chunk,
        AsksFor chunk (remembered (d.conn.clientMessage ++ data) d.conn)
  | .server [] _ => d.conn.serverMessage = [] ∧ ∀ asked ∈ d.waiting, asked.manifest = false
  | .server data _ => d.waiting ≠ [] ∧ ∃ (r : Response) (rest : Bytes), r.bytes = d.conn.serverMessage ++ data ++ rest

def AllOrderly (alpha : ℚ) : Dialogue → List Read → Prop
  | _, [] => True
  | d, read :: reads => d.Orderly read ∧ ∀ d' log actions, d.next alpha read = .ok (d', log, actions) →
      ∀ d₁ ∈ d', AllOrderly alpha d₁ reads

/-! ### The invariant -/

structure Inv (d : Dialogue) : Prop where
  kept : d.conn.noListMessage ≠ [] ↔ ∃ asked ∈ d.waiting.head?, asked.manifest = true
  only : ∀ asked ∈ d.waiting.tail, asked.manifest = false
  chunk : ∀ asked ∈ d.owed, ∀ chunk ∈ asked.chunk, AsksFor chunk (d.conn.chunkname, d.conn.currentBitrate)
  length : ∀ (r : Response) (rest : Bytes), r.bytes = d.conn.serverMessage ++ rest →
    d.conn.serverMessageLen = r.known d.conn.serverMessage

theorem pending_manifest {conn : Connection} {asked : Asked} (member : asked ∈ pending conn) : asked.manifest = false := by
  unfold pending at member
  split at member
  · cases member
  · obtain rfl := List.mem_singleton.mp member
    rfl

theorem known_nil (r : Response) : r.known [] = 0 := by
  have absent : find blankLine [] = none := by decide
  rw [Response.known, if_pos absent]

theorem rewritten_remembered {conn : Connection} {message : Bytes} (read : conn.clientMessage = message) :
    (conn.rewritten.chunkname, conn.rewritten.currentBitrate) = remembered message conn := by
  subst read
  by_cases names : NamesChunk conn.clientMessage
  · rw [rewritten, remembered, if_pos names, if_pos names]
  · rw [rewritten, remembered, if_neg names, if_neg names]

theorem Inv.chunk_asked {d : Dialogue} (inv : Inv d) {message : Bytes}
    (same : NamesChunk message → ∀ asked ∈ d.owed, ∀ chunk ∈ asked.chunk, AsksFor chunk (remembered message d.conn)) :
    ∀ asked ∈ d.owed, ∀ chunk ∈ asked.chunk, AsksFor chunk (remembered message d.conn) := by
  by_cases names : NamesChunk message
  · exact same names
  · rw [remembered, if_neg names]
    exact inv.chunk

theorem asks_for {message : Bytes} {conn : Connection} {chunk : Bytes × Option Int}
    (asked : chunk ∈ (asks message conn).chunk) : AsksFor chunk (remembered message conn) := by
  by_cases names : NamesChunk message
  · rw [asks, if_pos names] at asked
    obtain rfl := Option.some.inj asked
    rw [remembered, if_pos names]
    refine ⟨rfl, ?_⟩
    rintro br member
    exact (Option.some.inj member).symm
  · rw [asks, if_neg names] at asked
    cases asked

theorem Inv.only_asked {d : Dialogue} (inv : Inv d) {last : Asked} (plain : d.waiting ≠ [] → last.manifest = false) :
    ∀ asked ∈ (d.waiting ++ [last]).tail, asked.manifest = false := by
  intro asked member
  cases waiting : d.waiting with
  | nil => simp [waiting] at member
  | cons first rest =>
    have only := inv.only asked
    rw [waiting] at only member plain
    simp only [List.cons_append, List.tail_cons, List.mem_append, List.mem_singleton] at member only
    rcases member with before | rfl
    · exact only before
    · exact plain (List.cons_ne_nil first rest)

theorem Inv.owed_asked {d : Dialogue} (inv : Inv d) {message : Bytes} {conn : Connection}
    (noListMessage : conn.noListMessage = (noList message).getD d.conn.noListMessage)
    (same : NamesChunk message → ∀ asked ∈ d.owed, ∀ chunk ∈ asked.chunk, AsksFor chunk (remembered message d.conn))
    (unlisted : ∀ asked ∈ noList message, ∀ chunk ∈ (noListAsked asked).chunk, AsksFor chunk (remembered message d.conn)) :
    ∀ asked ∈ owed { conn, waiting := d.waiting ++ [asks message d.conn] }, ∀ chunk ∈ asked.chunk,
      AsksFor chunk (remembered message d.conn) := by
  intro asked member chunk here
  have fits := inv.chunk_asked same
  rcases List.mem_append.mp member with member | later
  · rcases List.mem_append.mp member with before | new
    · exact fits asked (List.mem_append_left _ before) chunk here
    · obtain rfl := List.mem_singleton.mp new
      exact asks_for here
  · unfold pending at later
    dsimp only at later
    rw [noListMessage] at later
    cases found : noList message with
    | none =>
      rw [found] at later
      exact fits asked (List.mem_append_right _ later) chunk here
    | some l =>
      rw [found, Option.getD_some, if_neg (noList_ne_nil found)] at later
      obtain rfl := List.mem_singleton.mp later
      exact unlisted l found chunk here

/-- A request that comes in order waits for its response behind the others. -/
theorem Inv.asked {d : Dialogue} (inv : Inv d) {message : Bytes} {conn : Connection} {serverSocket : Int}
    (server : conn = { d.conn with clientMessage := message, serverSocket
                                   noListMessage := (noList message).getD d.conn.noListMessage })
    (alone : (noList message).isSome → d.waiting = [])
    (same : NamesChunk message → ∀ asked ∈ d.owed, ∀ chunk ∈ asked.chunk, AsksFor chunk (remembered message d.conn))
    (unlisted : ∀ asked ∈ noList message, ∀ chunk ∈ (noListAsked asked).chunk, AsksFor chunk (remembered message d.conn)) :
    Inv { conn := { conn.rewritten with clientMessage := [] }, waiting := d.waiting ++ [asks message d.conn] } := by
  have known : (conn.rewritten.chunkname, conn.rewritten.currentBitrate) = remembered message d.conn := by
    have read : conn.clientMessage = message := by rw [server]
    rw [rewritten_remembered read, server]
    rfl
  have noListMessage : conn.rewritten.noListMessage = (noList message).getD d.conn.noListMessage := by
    rw [show conn.rewritten.noListMessage = conn.noListMessage from congrArg Estimate.noListMessage conn.rewritten_estimate,
      server]
  constructor
  · dsimp only
    rw [noListMessage]
    cases found : noList message with
    | none =>
      have plain : (asks message d.conn).manifest = false := by simp [asks, found]
      have kept := inv.kept
      cases waiting : d.waiting with
      | nil =>
        rw [waiting] at kept
        simpa [plain] using kept
      | cons first rest =>
        rw [waiting] at kept
        simpa using kept
    | some asked =>
      have manifest : (asks message d.conn).manifest = true := by simp [asks, found]
      have none : d.waiting = [] := alone (by rw [found]; rfl)
      simp [none, manifest, noList_ne_nil found]
  · apply inv.only_asked
    intro busy
    cases found : noList message with
    | none => simp [asks, found]
    | some _ => exact absurd (alone (by rw [found]; rfl)) busy
  · intro asked member chunk here
    change AsksFor chunk (conn.rewritten.chunkname, conn.rewritten.currentBitrate)
    rw [known]
    exact inv.owed_asked noListMessage same unlisted asked member chunk here
  · have unread : conn.rewritten.serverMessage = d.conn.serverMessage ∧
        conn.rewritten.serverMessageLen = d.conn.serverMessageLen := by
      rw [rewritten, server]
      split <;> exact ⟨rfl, rfl⟩
    dsimp only
    rw [unread.1, unread.2]
    exact inv.length

/-- The first response has come; what was still to be sent is. -/
theorem Inv.answered {d : Dialogue} (inv : Inv d) (conn : Connection) (plain : conn.noListMessage = [])
    (chunk : conn.chunkname = d.conn.chunkname ∧ conn.currentBitrate = d.conn.currentBitrate)
    (read : conn.serverMessage = [] ∧ conn.serverMessageLen = 0) :
    Inv { conn, waiting := d.waiting.tail ++ pending d.conn } where
  kept := by
    apply iff_of_false (not_not.mpr plain)
    rintro ⟨asked, first, manifest⟩
    rcases List.mem_append.mp (List.mem_of_mem_head? first) with before | new
    · rw [inv.only asked before] at manifest
      cases manifest
    · rw [pending_manifest new] at manifest
      cases manifest
  only asked member := by
    rcases List.mem_append.mp (List.mem_of_mem_tail member) with before | new
    · exact inv.only asked before
    · exact pending_manifest new
  chunk asked member c here := by
    rw [chunk.1, chunk.2]
    have sent : pending conn = [] := if_pos plain
    rw [owed, sent, List.append_nil] at member
    rcases List.mem_append.mp member with before | new
    · exact inv.chunk asked (List.mem_append_left _ (List.mem_of_mem_tail before)) c here
    · exact inv.chunk asked (List.mem_append_right _ new) c here
  length r rest split := by
    rw [read.1, read.2, known_nil]

theorem Inv.reading {d : Dialogue} (inv : Inv d) {data : Bytes}
    (server : ∃ (r : Response) (rest : Bytes), r.bytes = d.conn.serverMessage ++ data ++ rest) {expectation : Option Nat}
    (expected : expectedLen d.conn.serverMessageLen (d.conn.serverMessage ++ data) = .ok expectation) :
    (∀ (r : Response) (rest : Bytes), r.bytes = d.conn.serverMessage ++ data ++ rest →
      expectation.getD d.conn.serverMessageLen = r.known (d.conn.serverMessage ++ data)) ∧
    ∀ len ∈ expectation, len ≤ (d.conn.serverMessage ++ data).length →
      ∃ r : Response, d.conn.serverMessage ++ data = r.bytes := by
  have found : ∀ (r : Response) (rest : Bytes), r.bytes = d.conn.serverMessage ++ data ++ rest →
      expectation = (if find blankLine (d.conn.serverMessage ++ data) = none then none else some r.bytes.length) ∧
        d.conn.serverMessageLen = r.known d.conn.serverMessage := by
    intro r rest split
    have known := inv.length r (data ++ rest) (by rw [split, List.append_assoc])
    have part := r.expectedLen_part split
    rw [← known, expected] at part
    exact ⟨Except.ok.inj part, known⟩
  constructor
  · intro r rest split
    obtain ⟨same, known⟩ := found r rest split
    rw [same, known]
    unfold Response.known
    by_cases absent : find blankLine (d.conn.serverMessage ++ data) = none
    · have before : find blankLine d.conn.serverMessage = none := by
        by_contra here
        obtain ⟨i, here⟩ := Option.ne_none_iff_exists'.mp here
        rw [find_append here data] at absent
        cases absent
      rw [if_pos absent, if_pos absent, if_pos before]
      rfl
    · rw [if_neg absent, if_neg absent]
      rfl
  · intro len known full
    obtain ⟨r, rest, split⟩ := server
    obtain ⟨same, -⟩ := found r rest split
    rw [same] at known
    split at known
    · cases known
    · obtain rfl := Option.some.inj known
      have total := congrArg List.length split
      rw [List.length_append] at total
      have none : rest = [] := List.length_eq_zero_iff.mp (by omega)
      rw [none, List.append_nil] at split
      exact ⟨r, split.symm⟩

/-! ### One read -/

theorem Inv.client {alpha : ℚ} {d : Dialogue} (inv : Inv d) {data : Bytes} {calls : RequestCalls}
    (orderly : d.Orderly (.client data calls)) {d' : Option Dialogue} {log : List LogLine} {actions : List Action}
    (h : d.next alpha (.client data calls) = .ok (d', log, actions)) :
    (∀ action ∈ actions, Right d.waiting (d.response (.client data calls)) log action) ∧ ∀ d₁ ∈ d', Inv d₁ := by
  obtain ⟨⟨conn, acts⟩, handled, h⟩ := bind_ok h
  obtain ⟨rfl, rfl, rfl⟩ := by simpa using h
  cases data with
  | nil =>
    cases handled
    refine ⟨?_, ?_⟩
    · intro action member
      obtain rfl := List.mem_singleton.mp member
      trivial
    · intro d₁ member
      cases member
  | cons c data =>
    rcases handleClientConnection_ok (List.cons_ne_nil c data) handled with
      ⟨-, rfl, rfl⟩ | ⟨ended, conn', acts', request, rfl, rfl⟩
    · refine ⟨?_, ?_⟩
      · intro action member
        obtain rfl := List.mem_singleton.mp member
        trivial
      · intro d₁ member
        obtain rfl := Option.some.inj member
        exact ⟨inv.kept, inv.only, inv.chunk, inv.length⟩
    · obtain ⟨serverSocket, opened, asking, server, here, -, rfl, rfl⟩ := handleRequestMessage_parts request
      obtain ⟨alone, same, unlisted⟩ := orderly ended
      have asked := inv.asked here alone same unlisted
      refine ⟨?_, ?_⟩
      · intro action member
        cases server <;> simp at member
        · rcases member with rfl | rfl <;> trivial
        · rcases member with rfl | rfl | rfl <;> trivial
      · intro d₁ member
        obtain rfl := Option.some.inj member
        cases server <;> exact asked

/-- The server closes while no manifest is waited for. -/
theorem Inv.closed {d : Dialogue} (inv : Inv d) (plain : ∀ asked ∈ d.waiting, asked.manifest = false)
    {start : ℚ} {calls : ResponseCalls} {serverSocket : Int} :
    Inv { conn := { d.conn.seen start calls with serverSocket }, waiting := [] } := by
  have none : d.conn.noListMessage = [] := by
    by_contra kept
    obtain ⟨asked, first, manifest⟩ := inv.kept.mp kept
    rw [plain asked (List.mem_of_mem_head? first)] at manifest
    cases manifest
  have sent : pending { d.conn.seen start calls with serverSocket } = [] := if_pos none
  refine ⟨?_, by simp, by simp [owed, sent], inv.length⟩
  exact iff_of_false (not_not.mpr none) (by simp)

/-- A response that is complete is the one to the first message that waits. -/
theorem Inv.handed {alpha : ℚ} {d : Dialogue} (inv : Inv d) (busy : d.waiting ≠ []) {calls : ResponseCalls}
    {start : ℚ} {bytes : Bytes} {len : Nat} (complete : ∃ r : Response, bytes = r.bytes) {conn : Connection}
    {log : List LogLine} {actions : List Action}
    (handled : handleResponseMessage alpha calls
      { d.conn.seen start calls with serverMessage := bytes, serverMessageLen := len } = .ok (conn, log, actions)) :
    (∀ action ∈ actions, Right d.waiting bytes log action) ∧
      Inv { conn, waiting := actions.foldl (after [] d.conn) d.waiting } := by
  obtain ⟨first, rest, waiting⟩ := List.exists_cons_of_ne_nil busy
  have head : d.waiting.head? = some first := by rw [waiting]; rfl
  rcases handleResponseMessage_parts handled with ⟨kept, _, bitrates, -, rfl, rfl, rfl⟩ | ⟨plain, rfl, video⟩
  · refine ⟨?_, ?_⟩
    · intro action member
      obtain rfl := List.mem_singleton.mp member
      exact ⟨complete, inv.kept.mp kept⟩
    · have sent : pending d.conn = [noListAsked d.conn.noListMessage] := if_neg kept
      change Inv { conn := _, waiting := d.waiting.tail ++ [noListAsked d.conn.noListMessage] }
      rw [← sent]
      exact inv.answered _ rfl ⟨rfl, rfl⟩ ⟨rfl, rfl⟩
  · have notManifest : first.manifest = false := by
      by_contra manifest
      rw [Bool.not_eq_false] at manifest
      exact inv.kept.mpr ⟨first, head, manifest⟩ plain
    have fields : conn.noListMessage = [] ∧
        (conn.chunkname = d.conn.chunkname ∧ conn.currentBitrate = d.conn.currentBitrate) ∧
        conn.serverMessage = [] ∧ conn.serverMessageLen = 0 := by
      rcases video with ⟨-, -, rfl⟩ | ⟨-, -, rfl⟩ <;> exact ⟨plain, ⟨rfl, rfl⟩, rfl, rfl⟩
    refine ⟨?_, ?_⟩
    · intro action member
      obtain rfl := List.mem_singleton.mp member
      refine ⟨complete, first, head, notManifest, ?_⟩
      intro chunk asked shown
      have values := inv.chunk first (List.mem_append_left _ (List.mem_of_mem_head? head)) chunk asked
      rcases video with ⟨-, rfl, -⟩ | ⟨other, -⟩
      · exact ⟨_, rfl, values⟩
      · exact absurd shown other
    · have answered := inv.answered conn fields.1 fields.2.1 fields.2.2
      rw [show pending d.conn = [] from if_pos plain, List.append_nil] at answered
      exact answered

theorem Inv.server {alpha : ℚ} {d : Dialogue} (inv : Inv d) {data : Bytes} {calls : ResponseCalls}
    (orderly : d.Orderly (.server data calls)) {d' : Option Dialogue} {log : List LogLine} {actions : List Action}
    (h : d.next alpha (.server data calls) = .ok (d', log, actions)) :
    (∀ action ∈ actions, Right d.waiting (d.response (.server data calls)) log action) ∧ ∀ d₁ ∈ d', Inv d₁ := by
  -- It is enough to look at the dialogue that is left, for there is one.
  have left : ∀ {d₂ : Dialogue}, Inv d₂ → ∀ d₁ ∈ some d₂, Inv d₁ := by
    intro d₂ inv₂ d₁ member
    obtain rfl := Option.some.inj member
    exact inv₂
  rw [next] at h
  split at h
  · cases h
    exact ⟨fun action member => absurd member List.not_mem_nil, left inv⟩
  obtain ⟨⟨conn, log', acts⟩, handled, h⟩ := bind_ok h
  obtain ⟨rfl, rfl, rfl⟩ := by simpa using h
  cases data with
  | nil =>
    obtain ⟨-, plain⟩ := orderly
    cases handled
    refine ⟨?_, left (inv.closed plain)⟩
    intro action member
    obtain rfl := List.mem_singleton.mp member
    trivial
  | cons c data =>
    obtain ⟨busy, server⟩ := orderly
    obtain ⟨start, handling⟩ := handleServerConnection_data alpha calls d.conn (List.cons_ne_nil c data)
    rw [handling] at handled
    obtain ⟨expectation, expected, handled⟩ := bind_ok handled
    obtain ⟨length, whole⟩ := inv.reading server expected
    cases expectation with
    | none =>
      cases handled
      exact ⟨fun action member => absurd member List.not_mem_nil, left ⟨inv.kept, inv.only, inv.chunk, length⟩⟩
    | some len =>
      dsimp only at handled
      split at handled
      · cases handled
        exact ⟨fun action member => absurd member List.not_mem_nil, left ⟨inv.kept, inv.only, inv.chunk, length⟩⟩
      · rename_i full
        obtain ⟨right, inv'⟩ := inv.handed busy (whole len rfl (by omega)) handled
        exact ⟨right, left inv'⟩

theorem Inv.next {alpha : ℚ} {d : Dialogue} (inv : Inv d) {read : Read} (orderly : d.Orderly read)
    {d' : Option Dialogue} {log : List LogLine} {actions : List Action} (h : d.next alpha read = .ok (d', log, actions)) :
    (∀ action ∈ actions, Right d.waiting (d.response read) log action) ∧ ∀ d₁ ∈ d', Inv d₁ := by
  cases read with
  | client data calls => exact inv.client orderly h
  | server data calls => exact inv.server orderly h

def pageRequest : Bytes := text "GET /index.html HTTP/1.1\r\n\r\n"

theorem AllOrderly.cons {alpha : ℚ} {d d' : Dialogue} {read : Read} {reads : List Read} {log : List LogLine}
    {actions : List Action} (now : d.Orderly read) (step : d.next alpha read = .ok (some d', log, actions))
    (later : AllOrderly alpha d' reads) : AllOrderly alpha d (read :: reads) := by
  refine ⟨now, ?_⟩
  intro d₁ log₁ actions₁ h d₂ member
  cases step.symm.trans h
  obtain rfl := Option.some.inj member
  exact later

def sampleReads : List Read :=
  [.client pageRequest { socket := 5 }, .server Response.samplePage.bytes {}, .client manifestRequest {},
    .server Response.sampleManifest.bytes {}, .server Response.samplePage.bytes {}, .client chunkRequest {},
    .server (Response.sampleChunk.bytes.take 40) {}, .server (Response.sampleChunk.bytes.drop 40) {}]

end Dialogue

end VStream
