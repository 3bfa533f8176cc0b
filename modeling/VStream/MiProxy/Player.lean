import VStream.MiProxy.Log
import VStream.MiProxy.Manifest
import VStream.MiProxy.Selection

/-!
# The player behind an entry

What the proxy is for, seen by one client: a player that learns which bitrates
are on offer, measures the network, and asks for the chunks that suit it. The
entry of a client goes through the steps of such a player, whatever other
clients do in between.
-/

namespace VStream
open Cpp Net MiProxy Connection

/-- The bitrates of a response are those that can be taken out of it. Where its attributes are well formed and none comes
about when others are gone, they are just those that stand in it, from left to right. -/
structure Lists (response : Bytes) (new : List Int) : Prop where
  takenOut : TakenOut response new
  standing (wellFormed : WellFormed response) (plain : find bitrateAttr (withoutAttributes 0 response) = none) :
    new = attributes response

/-- `request` and `response` have come in part; `awaiting` is a manifest that was asked for and has not come. -/
structure Player where
  request : Bytes := []
  response : Bytes := []
  awaiting : Prop := False
  offered : Set Int := ∅
  throughput : ℚ := 0

namespace Player

/-- The highest bitrate on offer that the throughput supports, or the lowest one where it supports none. -/
def Suits (player : Player) (br : Int) : Prop :=
  IsGreatest {b | b ∈ player.offered ∧ 3 / 2 * (b : ℚ) ≤ player.throughput} br ∨
    (∀ b ∈ player.offered, player.throughput < 3 / 2 * (b : ℚ)) ∧ IsLeast player.offered br

/-- What may become of a complete request. -/
def Forwards (player : Player) (asked sent : Bytes) : Prop :=
  if NamesChunk asked then ∃ br, player.Suits br ∧ sent = withBitrate asked br else sent = asked

/-- A handler call as the player has it. -/
inductive Step (alpha : ℚ) (player : Player) (h : Handled) (player' : Player) : Prop where
  | waits (unfinished : ¬Ended (player.request ++ h.fromClient)) (sent : h.forwarded = []) (given : h.delivered = [])
      (lines : h.lines = [])
      (after : player' = { player with
        request := player.request ++ h.fromClient, response := player.response ++ h.fromServer })
  | asks {asked message : Bytes} (complete : player.request ++ h.fromClient = asked) (ended : Ended asked)
      (forwards : player.Forwards asked message) (sent : h.forwarded = [message]) (given : h.delivered = [])
      (lines : h.lines = [])
      (after : player' = { player with request := [], awaiting := player.awaiting ∨ noList asked ≠ none })
  | learns {response : Bytes} {new : List Int} {low : Int} (complete : player.response ++ h.fromServer = response)
      (awaited : player.awaiting) (lists : response.length ≤ maxSize → Lists response new)
      (lowest : IsLeast (player.offered ∪ {b | b ∈ new}) low) (sent : h.forwarded = []) (given : h.delivered = [none])
      (lines : h.lines = [])
      (after : player' = { player with
        response := [], awaiting := False, offered := player.offered ∪ {b | b ∈ new}, throughput := low * (3 / 2) })
  | watches {response : Bytes} {line : LogLine} (complete : player.response ++ h.fromServer = response)
      (unasked : ¬player.awaiting) (video : IsVideo response) (measures : Measures response line)
      (averaged : line.avgTput = average alpha line.tput player.throughput) (sent : h.forwarded = [])
      (given : h.delivered = [some response]) (lines : h.lines = [line])
      (after : player' = { player with response := [], throughput := line.avgTput })
  | passes {response : Bytes} (complete : player.response ++ h.fromServer = response) (unasked : ¬player.awaiting)
      (other : ¬IsVideo response) (sent : h.forwarded = []) (given : h.delivered = [some response]) (lines : h.lines = [])
      (after : player' = { player with response := [] })

end Player

namespace Connection

/-! ### Manifests -/

/-- The same text, and the same bitrates behind those that were known. -/
def Behind (known : List Int) (s s' : Bytes × List Int) : Prop := s.1 = s'.1 ∧ s.2 = known ++ s'.2

theorem Behind.round {known : List Int} {s s' : Bytes × List Int} (behind : Behind known s s') :
    Matches (PassRel (Behind known) (Behind known)) (takeBitrate s) (takeBitrate s') := by
  obtain ⟨msg, taken⟩ := s
  obtain ⟨msg', new⟩ := s'
  obtain ⟨same, behind⟩ := behind
  dsimp only at same behind
  subst same behind
  cases found : find (text "bitrate=\"") msg with
  | none =>
    simp only [takeBitrate, found]
    exact ⟨rfl, rfl⟩
  | some brPos =>
    simp only [takeBitrate, found]
    apply Matches.bind_same
    intro brStr
    apply Matches.bind_same
    intro br
    apply Matches.bind_same
    intro rest
    exact ⟨rfl, List.append_assoc _ _ _⟩

theorem loop_behind (known : List Int) (fuel : Nat) (response : Bytes) :
    Matches (Behind known) (loop takeBitrate fuel (response, known)) (loop takeBitrate fuel (response, [])) :=
  loop_rel (fun _ _ => Behind.round) fuel ⟨rfl, (List.append_nil known).symm⟩

theorem loop_lists {response rest : Bytes} {new : List Int} (fits : response.length ≤ maxSize)
    (taken : loop takeBitrate (response.length + 1) (response, []) = .ok (rest, new)) : Lists response new where
  takenOut := by
    obtain ⟨_, rfl, takenOut⟩ := loop_takenOut fits taken
    exact takenOut
  standing wellFormed plain := by
    have all := @parseXml_takes { serverMessage := response } fits wellFormed plain
    obtain ⟨-, rfl⟩ := Prod.mk.inj (Except.ok.inj (taken.symm.trans all))
    rfl

theorem manifestBitrates_lists {response rest : Bytes} {known bitrates : List Int}
    (parsed : manifestBitrates response known = .ok (rest, bitrates)) :
    ∃ new, (response.length ≤ maxSize → Lists response new) ∧ bitrates.Perm (known ++ new) := by
  obtain ⟨unsorted, taken, -, rfl⟩ := manifestBitrates_parts parsed
  have behind := loop_behind known (response.length + 1) response
  rw [taken] at behind
  cases own : loop takeBitrate (response.length + 1) (response, []) with
  | error stop =>
    rw [own] at behind
    exact behind.elim
  | ok result =>
    rw [own] at behind
    obtain ⟨-, rfl⟩ := behind
    exact ⟨result.2, fun fits => loop_lists fits own, List.mergeSort_perm _ _⟩

/-! ### The player of a connection -/

def player (conn : Connection) : Player where
  request := conn.clientMessage
  response := conn.serverMessage
  awaiting := conn.noListMessage ≠ []
  offered := {b | b ∈ conn.availableBitrates}
  throughput := conn.currentThroughput

theorem player_forwards {conn asking : Connection} {asked : Bytes} (sorted : conn.availableBitrates.Pairwise (· ≤ ·))
    (message : asking.clientMessage = asked) (bitrates : asking.availableBitrates = conn.availableBitrates)
    (throughput : asking.currentThroughput = conn.currentThroughput) (listed : ¬asking.Unlisted) :
    conn.player.Forwards asked asking.rewritten.clientMessage := by
  rw [rewritten_message, message, bitrates, throughput, Player.Forwards]
  by_cases names : NamesChunk asked
  · rw [if_pos names, if_pos names]
    have some : conn.availableBitrates ≠ [] := by
      intro none
      exact listed ⟨message ▸ names, bitrates.trans none⟩
    exact ⟨_, chooseBitrate_selects conn.currentThroughput some sorted, rfl⟩
  · rw [if_neg names, if_neg names]

theorem noList_getD (asked kept : Bytes) : (noList asked).getD kept ≠ [] ↔ kept ≠ [] ∨ noList asked ≠ none := by
  cases found : noList asked with
  | none => simp
  | some message => simp [noList_ne_nil found]

/-- After a manifest the lowest bitrate comes first. -/
theorem manifest_offered {response rest : Bytes} {known bitrates : List Int}
    (parsed : manifestBitrates response known = .ok (rest, bitrates)) :
    ∃ new, (response.length ≤ maxSize → Lists response new) ∧ {b | b ∈ bitrates} = {b | b ∈ known} ∪ {b | b ∈ new} ∧
      IsLeast {b | b ∈ bitrates} (bitrates.headD 0) ∧ bitrates.Pairwise (· ≤ ·) := by
  obtain ⟨new, lists, perm⟩ := manifestBitrates_lists parsed
  obtain ⟨some, sorted⟩ := manifestBitrates_ok parsed
  refine ⟨new, lists, ?_, ?_, sorted⟩
  · ext b
    exact perm.mem_iff.trans List.mem_append
  · obtain ⟨first, rest, rfl⟩ := List.exists_cons_of_ne_nil some
    refine ⟨List.mem_cons_self, fun b member => ?_⟩
    rcases List.mem_cons.mp member with rfl | later
    · exact le_refl b
    · exact List.rel_of_pairwise_cons sorted later

end Connection

namespace MiProxy

/-- What makes an entry a player. -/
structure Playable (conn : Connection) : Prop where
  unfinished : ¬Ended conn.clientMessage
  sorted : conn.availableBitrates.Pairwise (· ≤ ·)

theorem not_ended_nil : ¬Ended [] := by decide

/-- A handler call is a step of the player. -/
theorem Deals.step {alpha : ℚ} {conn conn' : Connection} {h : Handled} (deals : Deals alpha conn h (some conn'))
    (playable : Playable conn) (foretold : Foretold conn.serverMessageLen conn.serverMessage) : Player.Step alpha conn.player h conn'.player ∧ Playable conn' := by
  obtain ⟨unfinished, sorted⟩ := playable
  have unasked : ¬Ended (conn.clientMessage ++ []) := by
    rw [List.append_nil]
    exact unfinished
  cases deals with
  | accepted =>
    refine ⟨.waits unasked rfl rfl rfl ?_, unfinished, sorted⟩
    simp [player, Handled.fromClient, Handled.fromServer]
  | heard some more =>
    refine ⟨.waits (not_not.mpr more) rfl rfl rfl ?_, not_not.mpr more, sorted⟩
    simp [player, Handled.fromClient, Handled.fromServer]
  | @asked ip data calls serverSocket opened asking some ended here listed server =>
    have forwards : conn.player.Forwards (conn.clientMessage ++ data) asking.rewritten.clientMessage := by
      apply player_forwards sorted _ _ _ listed <;> rw [here]
    have response : asking.rewritten.serverMessage = conn.serverMessage := by rw [rewritten_serverMessage, here]
    have estimate : asking.rewritten.estimate = ⟨conn.currentThroughput, conn.availableBitrates,
        (noList (conn.clientMessage ++ data)).getD conn.noListMessage⟩ := by
      rw [rewritten_estimate, here]
      rfl
    obtain ⟨throughput, bitrates, kept⟩ := Estimate.mk.inj estimate
    have awaiting : (asking.rewritten.noListMessage ≠ []) =
        (conn.noListMessage ≠ [] ∨ noList (conn.clientMessage ++ data) ≠ none) := by
      rw [kept]
      exact propext (noList_getD _ _)
    rw [← bitrates] at sorted
    refine ⟨.asks rfl ended forwards ?_ ?_ rfl ?_, not_ended_nil, sorted⟩
    · cases server <;> rfl
    · cases server <;> rfl
    · simp only [player, response, bitrates, throughput, awaiting]
      rfl
  | lost =>
    refine ⟨.waits unasked rfl rfl rfl ?_, unfinished, sorted⟩
    simp [player, reading, seen, Handled.fromClient, Handled.fromServer]
  | fed some waits =>
    refine ⟨.waits unasked rfl rfl rfl ?_, unfinished, sorted⟩
    simp [player, reading, seen, Handled.fromClient, Handled.fromServer]
  | @withheld ip data calls rest bitrates len some kept parsed =>
    obtain ⟨new, lists, offered, lowest, sorted'⟩ := manifest_offered parsed
    have least : IsLeast (conn.player.offered ∪ {b | b ∈ new}) (bitrates.headD 0) := offered ▸ lowest
    refine ⟨.learns rfl kept lists least rfl rfl rfl ?_, unfinished, sorted'⟩
    simp only [player, offered, ne_eq, not_true_eq_false]
    rfl
  | @watched ip data calls len some plain expected full video =>
    have measures : Measures (conn.serverMessage ++ data) (logged alpha calls.now (reading conn data calls len)) :=
      fun fits => ⟨len, foretold.announces expected fits, rfl⟩
    exact ⟨.watches rfl (not_not.mpr plain) video measures rfl rfl rfl rfl rfl, unfinished, sorted⟩
  | passed some plain other =>
    exact ⟨.passes rfl (not_not.mpr plain) other rfl rfl rfl rfl, unfinished, sorted⟩

end MiProxy

end VStream
