import VStream.MiProxy.Steps

/-!
# Chunks and manifests

What `update_throughput` and `parse_xml` come to, and with them the handlers of
whole messages.
-/

namespace VStream
open Cpp

namespace Connection

/-! ### Faster connections, higher bitrates -/

theorem selectBitrate_mono {limit limit' : ℚ} (le : limit ≤ limit') {current : Int} {bitrates : List Int}
    (sorted : (current :: bitrates).Pairwise (· ≤ ·)) :
    selectBitrate limit current bitrates ≤ selectBitrate limit' current bitrates := by
  induction bitrates generalizing current with
  | nil => exact le_refl current
  | cons br rest ih =>
    by_cases low : (br : ℚ) ≤ limit
    · rw [selectBitrate, selectBitrate, if_pos low, if_pos (low.trans le)]
      exact ih sorted.of_cons
    · rw [selectBitrate, if_neg low]
      rcases List.mem_cons.mp (selectBitrate_mem limit' current (br :: rest)) with same | later
      · exact same.ge
      · exact List.rel_of_pairwise_cons sorted later

theorem chooseBitrate_mono {throughput throughput' : ℚ} (le : throughput ≤ throughput') {bitrates : List Int}
    (sorted : bitrates.Pairwise (· ≤ ·)) : chooseBitrate throughput bitrates ≤ chooseBitrate throughput' bitrates := by
  apply selectBitrate_mono
  · exact div_le_div_of_nonneg_right le (by norm_num)
  · cases bitrates with
    | nil => exact List.pairwise_singleton _ _
    | cons first rest =>
      refine List.pairwise_cons.mpr ⟨?_, sorted⟩
      intro br member
      rcases List.mem_cons.mp member with same | later
      · exact same.ge
      · exact List.rel_of_pairwise_cons sorted later

/-! ### Responses -/

/-- A response that `update_throughput` takes for a chunk. -/
def IsVideo (response : Bytes) : Prop :=
  ¬ (sizeT (find (text "Content-Type: video/f4f") response) = npos ∨ sizeT (find blankLine response) = npos ∨
    sizeT (find blankLine response) < sizeT (find (text "Content-Type: video/f4f") response))

instance : DecidablePred IsVideo := fun _ => inferInstanceAs (Decidable (¬ _))

def newThroughput (now : ℚ) (conn : Connection) : ℚ :=
  conn.serverMessageLen / (now - conn.serverConnStart) * 8 / 1000

def average (alpha new old : ℚ) : ℚ := alpha * new + (1 - alpha) * old

theorem average_mono {alpha new new' old old' : ℚ} (low : 0 ≤ alpha) (high : alpha ≤ 1) (faster : new ≤ new')
    (before : old ≤ old') : average alpha new old ≤ average alpha new' old' := by
  have rest : 0 ≤ 1 - alpha := sub_nonneg.mpr high
  exact add_le_add (mul_le_mul_of_nonneg_left faster low) (mul_le_mul_of_nonneg_left before rest)

def logged (alpha now : ℚ) (conn : Connection) : LogLine where
  browserIp := conn.clientIp
  chunkname := conn.chunkname
  serverIp := conn.serverIp
  duration := now - conn.serverConnStart
  tput := newThroughput now conn
  avgTput := average alpha (newThroughput now conn) conn.currentThroughput
  bitrate := conn.currentBitrate

theorem updateThroughput_video (alpha now : ℚ) {conn : Connection} (video : IsVideo conn.serverMessage) :
    conn.updateThroughput alpha now =
      ({ conn with currentThroughput := average alpha (newThroughput now conn) conn.currentThroughput },
        [logged alpha now conn]) := if_neg video

theorem updateThroughput_other (alpha now : ℚ) {conn : Connection} (other : ¬ IsVideo conn.serverMessage) :
    conn.updateThroughput alpha now = (conn, []) := if_pos (not_not.mp other)

/-! ### Manifests -/

/-- The bitrates of a connection that knew `known` and gets this manifest, lowest first, with what is left of it. -/
def manifestBitrates (response : Bytes) (known : List Int) : Exec (Bytes × List Int) :=
  if find (text "Content-Type: text/xml") response = none then
    .error (.thrown (.runtimeError "Content-Type is not text/xml"))
  else do
    let parsed ← loop takeBitrate (response.length + 1) (response, known)
    if parsed.2 = [] then .error .undefined else .ok (parsed.1, parsed.2.mergeSort)

theorem parseXml_eq (conn : Connection) :
    conn.parseXml = (manifestBitrates conn.serverMessage conn.availableBitrates).map fun parsed =>
      { conn with serverMessage := parsed.1, availableBitrates := parsed.2
                  currentThroughput := parsed.2.headD 0 * (3 / 2) } := by
  unfold parseXml manifestBitrates
  split
  · rfl
  cases loop takeBitrate (conn.serverMessage.length + 1) (conn.serverMessage, conn.availableBitrates) with
  | error stop => rfl
  | ok parsed =>
    rw [ok_bind, ok_bind]
    by_cases none : parsed.2 = []
    · simp [none, Except.map]
    · have some : parsed.2.mergeSort ≠ [] := by
        intro empty
        have length : parsed.2.mergeSort.length = parsed.2.length := List.length_mergeSort _
        rw [empty] at length
        exact none (List.length_eq_zero_iff.mp length.symm)
      obtain ⟨first, rest, bitrates⟩ := List.exists_cons_of_ne_nil some
      rw [if_neg none, bitrates]
      rfl

theorem manifestBitrates_ok {response rest : Bytes} {known bitrates : List Int}
    (parsed : manifestBitrates response known = .ok (rest, bitrates)) :
    bitrates ≠ [] ∧ bitrates.Pairwise (· ≤ ·) := by
  unfold manifestBitrates at parsed
  split at parsed
  · cases parsed
  obtain ⟨⟨rest', unsorted⟩, -, parsed⟩ := bind_ok parsed
  dsimp only at parsed
  split at parsed
  · cases parsed
  · rename_i some
    obtain ⟨-, rfl⟩ := Prod.mk.inj (Except.ok.inj parsed)
    refine ⟨fun empty => some ?_, ?_⟩
    · have length : unsorted.mergeSort.length = unsorted.length := List.length_mergeSort _
      rw [empty] at length
      exact List.length_eq_zero_iff.mp length.symm
    · have sorted : unsorted.mergeSort.Pairwise fun a b => decide (a ≤ b) = true :=
        List.pairwise_mergeSort (by simp; omega) (by simp; omega) _
      simpa using sorted

theorem manifestBitrates_sorted {response rest : Bytes} {known bitrates : List Int}
    (xml : find (text "Content-Type: text/xml") response ≠ none)
    (parsed : loop takeBitrate (response.length + 1) (response, known) = .ok (rest, bitrates)) (some : bitrates ≠ [])
    (sorted : bitrates.Pairwise (· ≤ ·)) : manifestBitrates response known = .ok (rest, bitrates) := by
  rw [manifestBitrates, if_neg xml, parsed, ok_bind, if_neg some, List.mergeSort_of_pairwise (by simpa using sorted)]

end Connection

/-! ### Whole messages -/

namespace MiProxy
open Connection

theorem handleRequestMessage_eq (calls : RequestCalls) (conn : Connection) :
    handleRequestMessage calls conn = do
      let (conn, opened) ← connectServer calls conn
      let asking := { conn with noListMessage := (noList conn.clientMessage).getD conn.noListMessage }
      if asking.Unlisted then .error .undefined
      else do
        let message ← handOver calls.sends asking.rewritten.clientMessage
        return ({ asking.rewritten with clientMessage := [] }, opened ++ [.forwarded conn.serverSocket message]) := by
  unfold handleRequestMessage
  cases connectServer calls conn with
  | error stop => rfl
  | ok result =>
    obtain ⟨conn, opened⟩ := result
    rw [ok_bind, ok_bind]
    dsimp only
    rw [checkVideoName_eq, ok_bind, parseBitrate_eq]
    split
    · rfl
    · rw [ok_bind]
      have server : ∀ conn : Connection, conn.rewritten.serverSocket = conn.serverSocket := by
        intro conn
        unfold rewritten
        split <;> rfl
      simp only [server]

theorem handleRequestMessage_parts {calls : RequestCalls} {conn conn' : Connection} {actions : List Action}
    (h : handleRequestMessage calls conn = .ok (conn', actions)) : ∃ serverSocket opened asking,
      Reaches conn calls serverSocket opened ∧
      asking = { conn with serverSocket, noListMessage := (noList conn.clientMessage).getD conn.noListMessage } ∧
      ¬ asking.Unlisted ∧ actions = opened ++ [.forwarded serverSocket asking.rewritten.clientMessage] ∧
      conn' = { asking.rewritten with clientMessage := [] } := by
  rw [handleRequestMessage_eq] at h
  obtain ⟨⟨connected, opened⟩, connecting, h⟩ := bind_ok h
  obtain ⟨serverSocket, rfl, server⟩ := connectServer_ok connecting
  dsimp only at h
  split at h
  · cases h
  · rename_i listed
    obtain ⟨sent, sending, h⟩ := bind_ok h
    obtain rfl := handOver_ok sending
    obtain ⟨rfl, rfl⟩ := Prod.mk.inj (Except.ok.inj h)
    exact ⟨serverSocket, opened, _, server, rfl, listed, rfl, rfl⟩

theorem handleResponseMessage_manifest (alpha : ℚ) (calls : ResponseCalls) {conn : Connection} {rest : Bytes}
    {bitrates : List Int} (kept : conn.noListMessage ≠ [])
    (parsed : manifestBitrates conn.serverMessage conn.availableBitrates = .ok (rest, bitrates)) :
    handleResponseMessage alpha calls conn = handOver calls.sends conn.noListMessage >>= fun message =>
      .ok ({ conn with serverMessage := [], serverMessageLen := 0, noListMessage := [], availableBitrates := bitrates
                       currentThroughput := bitrates.headD 0 * (3 / 2) }, [],
        [.intercepted conn.serverSocket message]) := by
  rw [handleResponseMessage, if_pos kept, parseXml_eq, parsed]
  rfl

/-- A response is kept as a manifest, passed on and measured, or only passed on. -/
theorem handleResponseMessage_parts {alpha : ℚ} {calls : ResponseCalls} {conn conn' : Connection} {log : List LogLine}
    {actions : List Action} (h : handleResponseMessage alpha calls conn = .ok (conn', log, actions)) :
    (conn.noListMessage ≠ [] ∧ ∃ rest bitrates,
      manifestBitrates conn.serverMessage conn.availableBitrates = .ok (rest, bitrates) ∧ log = [] ∧
      actions = [.intercepted conn.serverSocket conn.noListMessage] ∧
      conn' = { conn with serverMessage := [], serverMessageLen := 0, noListMessage := [], availableBitrates := bitrates
                          currentThroughput := bitrates.headD 0 * (3 / 2) }) ∨
    (conn.noListMessage = [] ∧ actions = [.answered conn.clientSocket conn.serverMessage] ∧
      (IsVideo conn.serverMessage ∧ log = [logged alpha calls.now conn] ∧
        conn' = { conn with serverMessage := [], serverMessageLen := 0
                            currentThroughput := average alpha (newThroughput calls.now conn) conn.currentThroughput } ∨
      ¬ IsVideo conn.serverMessage ∧ log = [] ∧ conn' = { conn with serverMessage := [], serverMessageLen := 0 })) := by
  unfold handleResponseMessage at h
  split at h
  · rename_i kept
    rw [parseXml_eq] at h
    obtain ⟨parsed, parsing, h⟩ := bind_ok h
    cases read : manifestBitrates conn.serverMessage conn.availableBitrates with
    | error stop => rw [read] at parsing; cases parsing
    | ok result =>
      obtain ⟨rest, bitrates⟩ := result
      rw [read] at parsing
      obtain rfl := Except.ok.inj parsing
      obtain ⟨message, sending, h⟩ := bind_ok h
      obtain rfl := handOver_ok sending
      cases h
      exact .inl ⟨kept, rest, bitrates, rfl, rfl, rfl, rfl⟩
  · rename_i plain
    by_cases video : IsVideo conn.serverMessage
    · rw [updateThroughput_video alpha calls.now video] at h
      obtain ⟨response, sending, h⟩ := bind_ok h
      obtain rfl := handOver_ok sending
      cases h
      exact .inr ⟨not_not.mp plain, rfl, .inl ⟨video, rfl, rfl⟩⟩
    · rw [updateThroughput_other alpha calls.now video] at h
      obtain ⟨response, sending, h⟩ := bind_ok h
      obtain rfl := handOver_ok sending
      cases h
      exact .inr ⟨not_not.mp plain, rfl, .inr ⟨video, rfl, rfl⟩⟩

end MiProxy

end VStream
