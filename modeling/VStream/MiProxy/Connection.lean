import VStream.Dns.Transport

/-!
# Connections of the proxy

`Connection` and the member functions that work on one connection without
touching a socket. Rationals stand for the `double`s.
-/

namespace VStream
open Cpp

structure Connection where
  clientMessage : Bytes := []
  serverMessage : Bytes := []
  clientSocket : Int := 0
  serverSocket : Int := 0
  serverMessageLen : Nat := 0
  serverConnStart : ℚ := 0
  currentThroughput : ℚ := 0
  /-- In kbps. -/
  availableBitrates : List Int := []
  noListMessage : Bytes := []
  chunkname : Bytes := []
  serverIp : Bytes := []
  serverPort : Int := 0
  /-- Also used as key in the map of clients. -/
  clientIp : Bytes := []
  currentBitrate : Int := 0
  wwwIp : Bytes := []
  deriving DecidableEq

structure LogLine where
  browserIp : Bytes
  chunkname : Bytes
  serverIp : Bytes
  duration : ℚ
  tput : ℚ
  avgTput : ℚ
  bitrate : Int
  deriving DecidableEq

def crlf : Bytes := text "\r\n"
def blankLine : Bytes := text "\r\n\r\n"
def contentLength : Bytes := text "Content-Length: "

def videoName : Bytes := text "big_buck_bunny.f4m"
def videoNameNew : Bytes := text "big_buck_bunny_nolist.f4m"

namespace Connection

/-! ### Requests -/

/-- The loop over the bitrates, which ends at the first one that is too high. -/
def selectBitrate (bitrateMax : ℚ) (currentBitrate : Int) : List Int → Int
  | [] => currentBitrate
  | br :: rest => if br ≤ bitrateMax then selectBitrate bitrateMax br rest else currentBitrate

def parseBitrate (conn : Connection) : Exec Connection := do
  let msg := conn.clientMessage
  let frontMsg ← substr msg 0 (sizeT (find (text " HTTP/1.1") msg))
  let pathStartPos := sizeT (rfind (text "/") frontMsg)
  let posS := sizeT (rfind (text "Seg") frontMsg)
  let posF := sizeT (rfind (text "-Frag") frontMsg)
  if posS = npos ∨ posF = npos ∨ sizeSub posF posS < 4 ∨ sizeSub posS pathStartPos < 2 then return conn
  else
    let bitrateMax := conn.currentThroughput / (3 / 2)
    match conn.availableBitrates with
    | [] => .error .undefined
    | first :: rest =>
      let currentBitrate := selectBitrate bitrateMax first (first :: rest)
      let before ← substr msg 0 (sizeAdd pathStartPos 1)
      let after ← substr msg posS npos
      let msg := before ++ signed currentBitrate ++ after
      let chunkname ← substr msg (sizeAdd pathStartPos 1)
        (sizeSub (sizeSub (sizeT (find (text " HTTP/1.1") msg)) pathStartPos) 1)
      return { conn with currentBitrate, clientMessage := msg, chunkname }

/-- The message that asks for the manifest without a list. -/
def checkVideoName (conn : Connection) : Exec Connection :=
  match find videoName conn.clientMessage with
  | none => .ok conn
  | some pos => do
    let noListMessage ← replace conn.clientMessage pos videoName.length videoNameNew
    return { conn with noListMessage }

/-- What is asked for in the place of the manifest. -/
def noList (asked : Bytes) : Option Bytes :=
  (find videoName asked).map fun pos => asked.take pos ++ videoNameNew ++ asked.drop (pos + videoName.length)

theorem noList_ne_nil {asked message : Bytes} (found : noList asked = some message) : message ≠ [] := by
  obtain ⟨pos, -, rfl⟩ := Option.map_eq_some_iff.mp found
  have some : videoNameNew ≠ [] := by decide
  simp [some]

theorem selectBitrate_mem (bitrateMax : ℚ) (current : Int) (bitrates : List Int) :
    selectBitrate bitrateMax current bitrates ∈ current :: bitrates := by
  induction bitrates generalizing current with
  | nil => exact List.mem_singleton_self _
  | cons br rest ih =>
    rw [selectBitrate]
    split
    · exact List.mem_cons_of_mem _ (ih br)
    · exact List.mem_cons_self

theorem checkVideoName_eq (conn : Connection) :
    conn.checkVideoName = .ok { conn with noListMessage := (noList conn.clientMessage).getD conn.noListMessage } := by
  unfold checkVideoName noList
  split
  · rename_i absent
    rw [absent]
    rfl
  · rename_i pos found
    rw [found, replace, if_pos (find_le found)]
    rfl

/-! ### Requests for chunks -/

def frontOf (msg : Bytes) : Bytes := stretch msg 0 (sizeT (find (text " HTTP/1.1") msg))

def pathStart (msg : Bytes) : Nat := sizeT (rfind (text "/") (frontOf msg))
def segStart (msg : Bytes) : Nat := sizeT (rfind (text "Seg") (frontOf msg))
def fragStart (msg : Bytes) : Nat := sizeT (rfind (text "-Frag") (frontOf msg))

/-- A message that `parse_bitrate` takes for a request of a chunk. -/
def NamesChunk (msg : Bytes) : Prop :=
  ¬ (segStart msg = npos ∨ fragStart msg = npos ∨ sizeSub (fragStart msg) (segStart msg) < 4 ∨
    sizeSub (segStart msg) (pathStart msg) < 2)

instance : DecidablePred NamesChunk := fun _ => inferInstanceAs (Decidable (¬ _))

def withBitrate (msg : Bytes) (br : Int) : Bytes :=
  stretch msg 0 (sizeAdd (pathStart msg) 1) ++ signed br ++ stretch msg (segStart msg) npos

/-- What `parse_bitrate` makes of a request: one for a chunk gets one of the bitrates. -/
def Rewritten (bitrates : List Int) (asked message : Bytes) : Prop :=
  if NamesChunk asked then ∃ br ∈ bitrates, message = withBitrate asked br else message = asked

def chunkOf (msg : Bytes) (br : Int) : Bytes :=
  stretch (withBitrate msg br) (sizeAdd (pathStart msg) 1)
    (sizeSub (sizeSub (sizeT (find (text " HTTP/1.1") (withBitrate msg br))) (pathStart msg)) 1)

def chooseBitrate (throughput : ℚ) (bitrates : List Int) : Int :=
  selectBitrate (throughput / (3 / 2)) (bitrates.headD 0) bitrates

theorem chooseBitrate_mem (throughput : ℚ) {bitrates : List Int} (some : bitrates ≠ []) :
    chooseBitrate throughput bitrates ∈ bitrates := by
  obtain ⟨first, rest, rfl⟩ := List.exists_cons_of_ne_nil some
  simpa [chooseBitrate] using selectBitrate_mem (throughput / (3 / 2)) first (first :: rest)

theorem pathStart_inside (msg : Bytes) : sizeAdd (pathStart msg) 1 ≤ msg.length := by
  have front := stretch_length_le msg 0 (sizeT (find (text " HTTP/1.1") msg))
  unfold pathStart
  cases found : rfind (text "/") (frontOf msg) with
  | none => exact Nat.zero_le _
  | some i =>
    have fits : i + 1 ≤ (frontOf msg).length := rfind_fits found
    have wrapped : sizeAdd (sizeT (some i)) 1 ≤ i + 1 := Nat.mod_le _ _
    exact (wrapped.trans fits).trans front

theorem NamesChunk.before {msg : Bytes} (names : NamesChunk msg) : segStart msg < msg.length := by
  have front := stretch_length_le msg 0 (sizeT (find (text " HTTP/1.1") msg))
  unfold NamesChunk segStart at *
  cases found : rfind (text "Seg") (frontOf msg) with
  | none =>
    rw [found] at names
    exact absurd (Or.inl rfl) names
  | some i =>
    have fits : i + 3 ≤ (frontOf msg).length := rfind_fits found
    have inside : i < (frontOf msg).length := by omega
    exact inside.trans_le front

theorem NamesChunk.inside {msg : Bytes} (names : NamesChunk msg) : segStart msg ≤ msg.length :=
  names.before.le

def choice (conn : Connection) : Int := chooseBitrate conn.currentThroughput conn.availableBitrates

def rewritten (conn : Connection) : Connection :=
  if NamesChunk conn.clientMessage then
    { conn with currentBitrate := conn.choice, clientMessage := withBitrate conn.clientMessage conn.choice
                chunkname := chunkOf conn.clientMessage conn.choice }
  else conn

/-- A chunk is asked for before there is a bitrate to ask for. -/
def Unlisted (conn : Connection) : Prop := NamesChunk conn.clientMessage ∧ conn.availableBitrates = []

instance : DecidablePred Unlisted := fun _ => inferInstanceAs (Decidable (_ ∧ _))

theorem parseBitrate_eq (conn : Connection) :
    conn.parseBitrate = if conn.Unlisted then .error .undefined else .ok conn.rewritten := by
  have front := substr_inside (Nat.zero_le conn.clientMessage.length) (sizeT (find (text " HTTP/1.1") conn.clientMessage))
  unfold parseBitrate rewritten
  dsimp only
  rw [front, ok_bind]
  change (if segStart conn.clientMessage = npos ∨ fragStart conn.clientMessage = npos ∨
    sizeSub (fragStart conn.clientMessage) (segStart conn.clientMessage) < 4 ∨
    sizeSub (segStart conn.clientMessage) (pathStart conn.clientMessage) < 2 then _ else _) = _
  by_cases names : NamesChunk conn.clientMessage
  · rw [if_neg names, if_pos names]
    cases bitrates : conn.availableBitrates with
    | nil =>
      rw [if_pos (show conn.Unlisted from ⟨names, bitrates⟩)]
    | cons first rest =>
      have listed : ¬ conn.Unlisted := by
        intro unlisted
        exact List.cons_ne_nil first rest (bitrates.symm.trans unlisted.2)
      have start := pathStart_inside conn.clientMessage
      have chosen : conn.choice = selectBitrate (conn.currentThroughput / (3 / 2)) first (first :: rest) := by
        rw [choice, bitrates]
        rfl
      have long : sizeAdd (pathStart conn.clientMessage) 1 ≤ (withBitrate conn.clientMessage conn.choice).length := by
        have before := le_stretch_length start
        simp only [withBitrate, List.length_append]
        omega
      rw [if_neg listed]
      change (substr _ 0 (sizeAdd (pathStart conn.clientMessage) 1) >>= fun before =>
        substr _ (segStart conn.clientMessage) npos >>= fun after => _) = _
      rw [substr_inside (Nat.zero_le _), ok_bind, substr_inside names.inside, ok_bind]
      rw [← chosen]
      change (substr (withBitrate conn.clientMessage conn.choice) (sizeAdd (pathStart conn.clientMessage) 1) _ >>=
        fun chunkname => _) = _
      rw [substr_inside long, ok_bind]
      rfl
  · rw [if_pos (not_not.mp names), if_neg names, if_neg (fun unlisted => names unlisted.1)]
    rfl

theorem rewritten_message (conn : Connection) : conn.rewritten.clientMessage =
    if NamesChunk conn.clientMessage then
      withBitrate conn.clientMessage (chooseBitrate conn.currentThroughput conn.availableBitrates)
    else conn.clientMessage := by
  unfold rewritten
  split <;> rfl

theorem parseBitrate_ok {conn conn' : Connection} (h : conn.parseBitrate = .ok conn') :
    ∃ currentBitrate clientMessage chunkname, conn' = { conn with currentBitrate, clientMessage, chunkname } ∧
      Rewritten conn.availableBitrates conn.clientMessage clientMessage := by
  rw [parseBitrate_eq] at h
  split at h
  · cases h
  rename_i listed
  obtain rfl := Except.ok.inj h
  by_cases names : NamesChunk conn.clientMessage
  · have some : conn.availableBitrates ≠ [] := fun none => listed ⟨names, none⟩
    rw [rewritten, if_pos names]
    refine ⟨_, _, _, rfl, ?_⟩
    rw [Rewritten, if_pos names]
    exact ⟨_, chooseBitrate_mem _ some, rfl⟩
  · rw [rewritten, if_neg names]
    refine ⟨_, _, _, rfl, ?_⟩
    rw [Rewritten, if_neg names]

/-! ### Responses -/

/-- Returns -1 while the header is not complete or has no length, else 0. -/
def parseHeader (conn : Connection) : Exec (Int × Connection) :=
  match find blankLine conn.serverMessage with
  | none => .ok (-1, conn)
  | some endPos =>
    match find contentLength conn.serverMessage with
    | none => .ok (-1, conn)
    | some clPos =>
      match findFrom crlf conn.serverMessage clPos with
      | none => .ok (-1, conn)
      | some conEndPos => do
        let clStr ← substr conn.serverMessage (clPos + 16) (sizeSub (sizeSub conEndPos clPos) 16)
        let length ← stoi clStr
        -- the cast to `size_t` takes the length modulo 2^64
        let serverMessageLen := ((endPos + 4 + length) % 2 ^ 64).toNat
        return (0, { conn with serverMessageLen })

/-- One round of the loop in `parse_xml`. -/
def takeBitrate : Bytes × List Int → Exec (Pass (Bytes × List Int) (Bytes × List Int))
  | (msg, availableBitrates) =>
    match find (text "bitrate=\"") msg with
    | none => .ok (.leave (msg, availableBitrates))
    | some brPos => do
      let brEndPos := sizeT (findFrom (text "\"") msg (brPos + 9))
      let brStr ← substr msg (brPos + 9) (sizeSub (sizeSub brEndPos brPos) 9)
      let br ← stoi brStr
      let msg ← erase msg brPos (sizeAdd (sizeSub brEndPos brPos) 1)
      return .again (msg, availableBitrates ++ [br])

def parseXml (conn : Connection) : Exec Connection :=
  if find (text "Content-Type: text/xml") conn.serverMessage = none then
    .error (.thrown (.runtimeError "Content-Type is not text/xml"))
  else do
    let parsed ← loop takeBitrate (conn.serverMessage.length + 1) (conn.serverMessage, conn.availableBitrates)
    let availableBitrates := parsed.2.mergeSort
    match availableBitrates with
    | [] => .error .undefined
    | first :: _ =>
      return { conn with serverMessage := parsed.1, availableBitrates, currentThroughput := first * (3 / 2) }

def updateThroughput (alpha now : ℚ) (conn : Connection) : Connection × List LogLine :=
  let ctPos := sizeT (find (text "Content-Type: video/f4f") conn.serverMessage)
  let crlfPos := sizeT (find blankLine conn.serverMessage)
  if ctPos = npos ∨ crlfPos = npos ∨ crlfPos < ctPos then (conn, [])
  else
    let timeDiff := now - conn.serverConnStart
    let newThroughput := conn.serverMessageLen / timeDiff * 8 / 1000
    let currentThroughput := alpha * newThroughput + (1 - alpha) * conn.currentThroughput
    ({ conn with currentThroughput },
      [{ browserIp := conn.clientIp, chunkname := conn.chunkname, serverIp := conn.serverIp, duration := timeDiff
         tput := newThroughput, avgTput := currentThroughput, bitrate := conn.currentBitrate }])

/-- The length that the header in `message` announces for the whole response, once it is there. -/
def announced (message : Bytes) : Exec (Option Nat) :=
  (parseHeader { serverMessage := message }).map fun (result, conn) =>
    if result = -1 then none else some conn.serverMessageLen

theorem parseHeader_eq (conn : Connection) :
    conn.parseHeader = (announced conn.serverMessage).map fun
      | none => (-1, conn)
      | some serverMessageLen => (0, { conn with serverMessageLen }) := by
  unfold announced parseHeader
  cases find blankLine conn.serverMessage with
  | none => rfl
  | some endPos =>
  cases find contentLength conn.serverMessage with
  | none => rfl
  | some clPos =>
  dsimp only
  cases findFrom crlf conn.serverMessage clPos with
  | none => rfl
  | some conEndPos =>
  dsimp only
  cases substr conn.serverMessage (clPos + 16) (sizeSub (sizeSub conEndPos clPos) 16) with
  | error stop => rfl
  | ok clStr =>
  rw [ok_bind, ok_bind]
  cases stoi clStr <;> rfl

theorem parseXml_ok {conn conn' : Connection} (h : conn.parseXml = .ok conn') :
    ∃ serverMessage availableBitrates currentThroughput,
      conn' = { conn with serverMessage, availableBitrates, currentThroughput } := by
  unfold parseXml at h
  split at h
  · cases h
  obtain ⟨parsed, -, h⟩ := bind_ok h
  dsimp only at h
  split at h
  · cases h
  obtain rfl := Except.ok.inj h
  exact ⟨_, _, _, rfl⟩

theorem updateThroughput_eq (alpha now : ℚ) (conn : Connection) :
    ∃ currentThroughput, (conn.updateThroughput alpha now).1 = { conn with currentThroughput } := by
  unfold updateThroughput
  dsimp only
  split <;> exact ⟨_, rfl⟩

end Connection

end VStream
