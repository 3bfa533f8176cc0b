import VStream.Cpp.Endings
import VStream.Dns.Transport
import VStream.Stream.Handover

/-!
# Partial sends

Both `send_all` go on after a `send` that took only a part, and stop at the first
that fails or does not return. Their loops differ: the nameserver's makes a `send` for an empty
message too, the proxy's does not.
-/

namespace VStream
open Cpp Net Handover

/-- Whatever a `send` may take of what it is offered, it takes under some schedule. -/
theorem send_any {s : Sock} {data : Bytes} {k : Nat} (least : min 1 data.length ≤ k)
    (most : k ≤ min data.length Sock.sendMax) (later : List Transfer) :
    ({ s with sends := .upTo k :: later } : Sock).send data =
      .ok (some k, { s with sends := later, sent := s.sent ++ data.take k }) := by
  have moved : amount (min data.length Sock.sendMax) (some (.upTo k)) = some k := by
    unfold amount Sock.sendMax at *
    rw [Option.some_inj]
    omega
  exact Sock.send_moved moved

/-- The `send` of what is left of `message` after `sent` bytes. -/
def attempt (message : Bytes) : Sock × Nat → Call UInt8
  | (s, sent) => { offered := message.drop sent, taken := (s.send (message.drop sent)).toOption.bind Prod.fst }

theorem attempt_eq {s t : Sock} {message : Bytes} {sent : Nat} {taken : Option Nat}
    (sending : s.send (message.drop sent) = .ok (taken, t)) : attempt message (s, sent) = ⟨message.drop sent, taken⟩ := by
  rw [attempt, sending]
  rfl

theorem attempt_lost {s : Sock} {message : Bytes} {sent : Nat} {stop : Stop}
    (lost : s.send (message.drop sent) = .error stop) : attempt message (s, sent) = ⟨message.drop sent, none⟩ := by
  rw [attempt, lost]
  rfl

/-- How the program ends where the first `send` to move nothing is the one behind `n` others: `failure` is what a return
value of -1 leads to. -/
structure Fails (failure : Stop) (sends : List Transfer) (n : Nat) (stop : Stop) : Prop where
  moves : Moves (sends.take n)
  ends : sends[n]? = some .error ∧ stop = failure ∨ sends[n]? = some .broken ∧ stop = .killed ∨
    sends[n]? = some .blocked ∧ stop = .blocked

/-- The calls that hand over `message`, on the socket `s`, and what becomes of the program. -/
structure Delivery (failure : Stop) (s : Sock) (message : Bytes) (calls : List (Call UInt8)) (result : Exec Sock) :
    Prop where
  hands : Hands message calls
  returned : ∀ t, result = .ok t → (∀ c ∈ calls, c.taken ≠ none) ∧ t.sent = s.sent ++ accepted calls
  stopped : ∀ stop, result = .error stop →
    ∃ before offered, calls = before ++ [⟨offered, none⟩] ∧ Fails failure s.sends before.length stop

section deliveries
variable {failure stop : Stop} {s t : Sock} {message : Bytes} {calls : List (Call UInt8)} {result : Exec Sock} {n : Nat}

theorem Fails.refused (here : s.sends.head? = some .error) : Fails failure s.sends 0 failure :=
  ⟨Moves.nil, .inl ⟨List.head?_eq_getElem? ▸ here, rfl⟩⟩

theorem Fails.lost (lost : s.send message = .error stop) : Fails failure s.sends 0 stop := by
  obtain ⟨rest, ⟨shape, rfl⟩ | ⟨shape, rfl⟩⟩ := Sock.send_error lost
  · exact ⟨Moves.nil, .inr (.inl ⟨by rw [shape]; rfl, rfl⟩)⟩
  · exact ⟨Moves.nil, .inr (.inr ⟨by rw [shape]; rfl, rfl⟩)⟩

theorem Fails.took {k : Nat} (sending : s.send message = .ok (some k, t)) (fails : Fails failure t.sends n stop) :
    Fails failure s.sends (n + 1) stop := by
  obtain ⟨moves, ends⟩ := fails
  have moved := (Sock.send_inv sending).1
  rw [Sock.send_schedule sending] at moves ends
  cases schedule : s.sends with
  | nil =>
    rw [schedule] at ends
    simp at ends
  | cons turn rest =>
    rw [schedule] at moved moves ends
    have upTo : ∃ k, turn = .upTo k := by
      cases turn with
      | upTo k => exact ⟨k, rfl⟩
      | error => cases moved
      | broken => cases moved
      | blocked => cases moved
    exact ⟨List.forall_mem_cons.mpr ⟨upTo, moves⟩, ends⟩

theorem Delivery.done : Delivery failure s [] [] (.ok s) where
  hands := .done
  returned t h := by
    obtain rfl := Except.ok.inj h
    exact ⟨by simp, (List.append_nil _).symm⟩
  stopped stop h := by cases h

theorem Delivery.failed (fails : Fails failure s.sends 0 stop) :
    Delivery failure s message [⟨message, none⟩] (.error stop) where
  hands := .failed message
  returned t h := by cases h
  stopped stop' h := by
    obtain rfl := Except.error.inj h
    exact ⟨[], message, rfl, fails⟩

theorem Delivery.took {k : Nat} (sending : s.send message = .ok (some k, t))
    (rest : Delivery failure t (message.drop k) calls result) :
    Delivery failure s message (⟨message, some k⟩ :: calls) result where
  hands := .took ((Sock.send_some sending).1.trans (Nat.min_le_left _ _)) rest.hands
  returned t' h := by
    obtain ⟨smooth, sent⟩ := rest.returned t' h
    refine ⟨List.forall_mem_cons.mpr ⟨Option.some_ne_none k, smooth⟩, ?_⟩
    rw [sent, (Sock.send_some sending).2, accepted_took, List.append_assoc]
  stopped stop h := by
    obtain ⟨before, offered, rfl, fails⟩ := rest.stopped stop h
    exact ⟨_ :: before, offered, rfl, fails.took sending⟩

/-- Where `send_all` returns, all of the message is handed over. -/
theorem Delivery.all (delivery : Delivery failure s message calls result) (ended : result = .ok t) :
    accepted calls = message ∧ t.sent = s.sent ++ message := by
  obtain ⟨smooth, sent⟩ := delivery.returned t ended
  have whole := delivery.hands.whole smooth
  rw [whole] at sent
  exact ⟨whole, sent⟩

theorem Delivery.fails (delivery : Delivery failure s message calls (.error stop)) : ∃ n, Fails failure s.sends n stop := by
  obtain ⟨before, offered, -, fails⟩ := delivery.stopped stop rfl
  exact ⟨before.length, fails⟩

end deliveries

/-- Without a failure every byte is handed over once and in order, and `send_all` returns. The first failure is the
last call, and what was handed over before it is the front of the message; the program then stops with `failure`, unless
that call raised SIGPIPE or did not return. -/
def Delivers (sendAll : Sock → Bytes → Exec Sock) (calls : Sock → Bytes → List (Call UInt8)) (failure : Stop) : Prop :=
  ∀ s message,
    ((∀ c ∈ calls s message, c.taken ≠ none) →
      accepted (calls s message) = message ∧ ∃ t, sendAll s message = .ok t ∧ t.sent = s.sent ++ message) ∧
    ∀ before c after, calls s message = before ++ c :: after → c.taken = none →
      after = [] ∧ accepted (calls s message) <+: message ∧
        ∃ stop, sendAll s message = .error stop ∧ Fails failure s.sends before.length stop

theorem delivers {sendAll : Sock → Bytes → Exec Sock} {calls : Sock → Bytes → List (Call UInt8)} {failure : Stop}
    (delivery : ∀ s message, Delivery failure s message (calls s message) (sendAll s message)) :
    Delivers sendAll calls failure := by
  intro s message
  have delivered := delivery s message
  constructor
  · intro smooth
    cases ended : sendAll s message with
    | ok t =>
      obtain ⟨whole, sent⟩ := delivered.all ended
      exact ⟨whole, t, rfl, sent⟩
    | error stop =>
      obtain ⟨before, offered, split, -⟩ := delivered.stopped stop ended
      exact absurd rfl (smooth ⟨offered, none⟩ (by rw [split]; exact List.mem_append_right _ (List.mem_singleton_self _)))
  · intro before c after split failed
    have last := delivered.hands.failure split failed
    refine ⟨last, delivered.hands.front, ?_⟩
    cases ended : sendAll s message with
    | ok t =>
      have here : c ∈ calls s message := by rw [split]; exact List.mem_append_right _ List.mem_cons_self
      exact absurd failed ((delivered.returned t ended).1 c here)
    | error stop =>
      obtain ⟨before', offered, split', fails⟩ := delivered.stopped stop ended
      rw [split, last] at split'
      obtain ⟨rfl, -⟩ := List.append_inj' split' rfl
      exact ⟨stop, rfl, fails⟩

namespace Nameserver

/-- One pass of `send_all`. -/
def sendRound (message : Bytes) : Sock × Nat → Exec (Pass (Sock × Nat) Sock)
  | (s, sent) => do
    match ← s.send (message.drop sent) with
    | (none, _) => .error (.exit 1)
    | (some sval, s) =>
      if sent + sval < message.length then .ok (.again (s, sent + sval)) else .ok (.leave s)

theorem sendAll_eq (s : Sock) (message : Bytes) :
    sendAll s message = loop (sendRound message) (message.length + 1) (s, 0) := rfl

/-- The calls of `send` that `send_all` makes. -/
def sendCalls (s : Sock) (message : Bytes) : List (Call UInt8) :=
  (passes (sendRound message) (message.length + 1) (s, 0)).map (attempt message)

theorem sendAll_delivers (s : Sock) (message : Bytes) :
    Delivery (.exit 1) s message (sendCalls s message) (sendAll s message) := by
  rw [sendAll_eq, sendCalls]
  refine @loop_passes _ _ (sendRound message)
    (fun p rounds => Delivery (.exit 1) p.1 (message.drop p.2) (rounds.map (attempt message)))
    (fun p => p.2 ≤ message.length) (fun p => message.length - p.2) ?_ ?_ ?_ _ (s, 0) (Nat.zero_le _)
    (Nat.lt_succ_self _)
  · rintro ⟨s, sent⟩ r inside pass
    obtain ⟨⟨taken, t⟩, sending, pass⟩ := bind_ok pass
    cases taken with
    | none => cases pass
    | some k =>
      dsimp only at pass
      split at pass
      · cases pass
      · rename_i all
        obtain rfl := Pass.leave.inj (Except.ok.inj pass)
        have rest : Delivery (.exit 1) t ((message.drop sent).drop k) [] (.ok t) := by
          rw [List.drop_drop, List.drop_of_length_le (Nat.le_of_not_lt all)]
          exact .done
        rw [List.map_singleton, attempt_eq sending]
        exact .took sending rest
  · rintro ⟨s, sent⟩ stop inside pass
    rw [List.map_singleton]
    rcases bind_error pass with lost | ⟨⟨taken, t⟩, sending, pass⟩
    · rw [attempt_lost lost]
      exact .failed (Fails.lost lost)
    · cases taken with
      | none =>
        rw [attempt_eq sending, ← Except.error.inj pass]
        exact .failed (Fails.refused (Sock.send_refused sending))
      | some k =>
        dsimp only at pass
        split at pass <;> cases pass
  · rintro ⟨s, sent⟩ ⟨s', sent'⟩ inside pass
    obtain ⟨⟨taken, t⟩, sending, pass⟩ := bind_ok pass
    cases taken with
    | none => cases pass
    | some k =>
      dsimp only at pass
      split at pass
      · rename_i more
        obtain ⟨rfl, rfl⟩ := Prod.mk.inj (Pass.again.inj (Except.ok.inj pass))
        have positive := Sock.send_pos sending (by rw [List.length_drop]; omega)
        refine ⟨more.le, by dsimp only; omega, fun later result rest => ?_⟩
        rw [List.map_cons, attempt_eq sending]
        rw [← List.drop_drop] at rest
        exact .took sending rest
      · cases pass

/-- How a `send_all` stops. -/
def SendStops (sends : List Transfer) (stop : Stop) : Prop := stop = .exit 1 ∨ Sock.Lost sends stop

theorem SendStops.mono {stop : Stop} {sends sends' : List Transfer} (stops : SendStops sends stop)
    (among : sends ⊆ sends') : SendStops sends' stop :=
  stops.imp id fun lost => lost.mono among

theorem sendAll_stops {s : Sock} {message : Bytes} {stop : Stop} (stopped : sendAll s message = .error stop) :
    SendStops s.sends stop := by
  obtain ⟨n, -, ends⟩ := (stopped ▸ sendAll_delivers s message).fails
  rcases ends with ⟨-, rfl⟩ | ⟨here, rfl⟩ | ⟨here, rfl⟩
  · exact .inl rfl
  · exact .inr (.inl ⟨rfl, List.mem_of_getElem? here⟩)
  · exact .inr (.inr ⟨rfl, List.mem_of_getElem? here⟩)

/-- The schedule left when `send` has taken `n` bytes, if each call on the way takes some. -/
def remaining : List Transfer → Nat → Option (List Transfer)
  | sends, 0 => some sends
  | [], _ + 1 => some []
  | .upTo k :: sends, n + 1 => remaining sends (n + 1 - max 1 k)
  | _ :: _, _ + 1 => none

theorem remaining_subset {sends rest : List Transfer} {n : Nat} (left : remaining sends n = some rest) : rest ⊆ sends := by
  induction sends generalizing n with
  | nil =>
    cases n <;> cases left <;> exact List.Subset.refl _
  | cons turn sends ih =>
    cases n with
    | zero => cases left; exact List.Subset.refl _
    | succ n =>
      cases turn with
      | upTo k => exact List.subset_cons_of_subset _ (ih left)
      | error => cases left
      | broken => cases left
      | blocked => cases left

section remaining
variable {message : Bytes} {s t : Sock}

theorem sendRound_moved {sent k : Nat} (moved : amount (min (message.drop sent).length Sock.sendMax) s.sends.head? = some k) :
    sendRound message (s, sent) =
      if sent + k < message.length then
        .ok (.again ({ s with sends := s.sends.tail, sent := s.sent ++ (message.drop sent).take k }, sent + k))
      else .ok (.leave { s with sends := s.sends.tail, sent := s.sent ++ (message.drop sent).take k }) := by
  simp only [sendRound, Sock.send_moved moved, ok_bind]

/-- A round that takes nothing stops the program. -/
theorem sendRound_stops {sent : Nat} (stuck : amount (min (message.drop sent).length Sock.sendMax) s.sends.head? = none) :
    ∃ stop, sendRound message (s, sent) = .error stop := by
  cases round : sendRound message (s, sent) with
  | error stop => exact ⟨stop, rfl⟩
  | ok pass =>
    obtain ⟨⟨taken, t⟩, sending, round⟩ := bind_ok round
    cases taken with
    | none => cases round
    | some k => cases (Sock.send_inv sending).1.symm.trans stuck

theorem sendLoop_iff (short : message.length ≤ Sock.sendMax) {fuel sent : Nat} (more : sent < message.length)
    (enough : message.length - sent < fuel) : loop (sendRound message) fuel (s, sent) = .ok t ↔
      ∃ rest, remaining s.sends (message.length - sent) = some rest ∧
        t = { s with sends := rest, sent := s.sent ++ message.drop sent } := by
  induction fuel generalizing s sent with
  | zero => omega
  | succ fuel ih =>
    obtain ⟨n, left⟩ : ∃ n, message.length - sent = n + 1 := ⟨message.length - sent - 1, by omega⟩
    have offered : min (message.drop sent).length Sock.sendMax = n + 1 := by
      rw [List.length_drop]; omega
    -- the last call takes all that is left
    have last : ∀ {k : Nat}, amount (n + 1) s.sends.head? = some k → n + 1 ≤ k → remaining s.sends (n + 1) = some s.sends.tail →
        (loop (sendRound message) (fuel + 1) (s, sent) = .ok t ↔ ∃ rest, remaining s.sends (n + 1) = some rest ∧
          t = { s with sends := rest, sent := s.sent ++ message.drop sent }) := by
      intro k moved all done
      rw [← offered] at moved
      rw [loop, sendRound_moved moved, if_neg (by omega), ok_bind, done,
        List.take_of_length_le (by rw [List.length_drop]; omega)]
      constructor
      · intro h
        exact ⟨_, rfl, (Except.ok.inj h).symm⟩
      · rintro ⟨rest, same, rfl⟩
        rw [← Option.some.inj same]
    have none : amount (n + 1) s.sends.head? = none → remaining s.sends (n + 1) = none →
        (loop (sendRound message) (fuel + 1) (s, sent) = .ok t ↔ ∃ rest, remaining s.sends (n + 1) = some rest ∧
          t = { s with sends := rest, sent := s.sent ++ message.drop sent }) := by
      intro stuck nothing
      rw [← offered] at stuck
      obtain ⟨stop, stopped⟩ := sendRound_stops stuck
      rw [loop, stopped, nothing]
      exact iff_of_false (by intro h; cases h) (by rintro ⟨rest, h, -⟩; cases h)
    rw [left]
    cases schedule : s.sends with
    | nil =>
      rw [schedule] at last
      exact last rfl le_rfl rfl
    | cons turn sends =>
      rw [schedule] at last none
      cases turn with
      | error => exact none rfl rfl
      | broken => exact none rfl rfl
      | blocked => exact none rfl rfl
      | upTo k =>
        by_cases all : n + 1 ≤ max 1 k
        · refine last (k := min (n + 1) (max 1 k)) rfl (by omega) ?_
          rw [remaining, Nat.sub_eq_zero_of_le all, remaining]
          rfl
        · have moved : amount (min (message.drop sent).length Sock.sendMax) s.sends.head? = some (max 1 k) := by
            rw [offered, schedule, List.head?_cons, amount, Nat.min_eq_right (by omega)]
          rw [loop, sendRound_moved moved, if_pos (by omega), ok_bind]
          dsimp only
          rw [ih (by omega) (by omega), schedule, List.tail_cons, remaining, ← left, Nat.sub_sub, ← List.drop_drop,
            List.append_assoc, List.take_append_drop]

/-- What `send_all` needs of the calls of `send`, and what it leaves. -/
theorem sendAll_iff (some : message ≠ []) (short : message.length ≤ Sock.sendMax) : sendAll s message = .ok t ↔
    ∃ rest, remaining s.sends message.length = .some rest ∧ t = { s with sends := rest, sent := s.sent ++ message } :=
  sendLoop_iff short (List.length_pos_iff.mpr some) (by omega)

theorem sendAll_encoded {message : Bytes} (encoded : Encoded message) : sendAll s message = .ok t ↔
    ∃ rest, remaining s.sends message.length = some rest ∧ t = { s with sends := rest, sent := s.sent ++ message } := by
  have short := encoded_length_le encoded
  exact sendAll_iff (encoded_ne_nil encoded) (by unfold Sock.sendMax; omega)

end remaining

end Nameserver

namespace MiProxy

/-- One pass of `send_all`. -/
def sendRound (data : Bytes) : Sock × Nat → Exec (Pass (Sock × Nat) Sock)
  | (s, total) => do
    if total < data.length then
      match ← s.send (data.drop total) with
      | (none, _) => .error (.thrown (.runtimeError "send failed"))
      | (some taken, s) =>
        if castInt taken < 0 then .error (.thrown (.runtimeError "send failed"))
        else .ok (.again (s, total + (castInt taken).toNat))
    else .ok (.leave s)

theorem sendAll_eq (s : Sock) (data : Bytes) :
    sendAll s data = loop (sendRound data) (data.length + 1) (s, 0) := rfl

/-- The calls of `send` that `send_all` makes: none in the pass that finds nothing left. -/
def sendCalls (s : Sock) (data : Bytes) : List (Call UInt8) :=
  ((passes (sendRound data) (data.length + 1) (s, 0)).filter (·.2 < data.length)).map (attempt data)

theorem sendAll_delivers (s : Sock) (data : Bytes) :
    Delivery (.thrown (.runtimeError "send failed")) s data (sendCalls s data) (sendAll s data) := by
  rw [sendAll_eq, sendCalls]
  refine @loop_passes _ _ (sendRound data)
    (fun p rounds => Delivery (.thrown (.runtimeError "send failed")) p.1 (data.drop p.2)
      ((rounds.filter (·.2 < data.length)).map (attempt data)))
    (fun p => p.2 ≤ data.length) (fun p => data.length - p.2) ?_ ?_ ?_ _ (s, 0) (Nat.zero_le _)
    (Nat.lt_succ_self _)
  · rintro ⟨s, total⟩ r inside pass
    simp only [sendRound] at pass
    split at pass
    · obtain ⟨⟨taken, t⟩, sending, pass⟩ := bind_ok pass
      cases taken with
      | none => cases pass
      | some k =>
        dsimp only at pass
        split at pass <;> cases pass
    · rename_i all
      obtain rfl := Pass.leave.inj (Except.ok.inj pass)
      rw [List.filter_cons_of_neg (by simpa using all), List.drop_of_length_le (Nat.le_of_not_lt all)]
      exact .done
  · rintro ⟨s, total⟩ stop inside pass
    simp only [sendRound] at pass
    split at pass
    · rename_i more
      rw [List.filter_cons_of_pos (by simpa using more), List.map_cons]
      rcases bind_error pass with lost | ⟨⟨taken, t⟩, sending, pass⟩
      · rw [attempt_lost lost]
        exact .failed (Fails.lost lost)
      · cases taken with
        | none =>
          rw [attempt_eq sending, ← Except.error.inj pass]
          exact .failed (Fails.refused (Sock.send_refused sending))
        | some k =>
          dsimp only at pass
          rw [castInt_taken sending, if_neg (by omega)] at pass
          cases pass
    · cases pass
  · rintro ⟨s, total⟩ ⟨s', total'⟩ inside pass
    simp only [sendRound] at pass
    split at pass
    · rename_i more
      obtain ⟨⟨taken, t⟩, sending, pass⟩ := bind_ok pass
      cases taken with
      | none => cases pass
      | some k =>
        dsimp only at pass
        rw [castInt_taken sending, if_neg (by omega), Int.toNat_natCast] at pass
        obtain ⟨rfl, rfl⟩ := Prod.mk.inj (Pass.again.inj (Except.ok.inj pass))
        have bound := (Sock.send_some sending).1
        rw [List.length_drop] at bound
        have positive := Sock.send_pos sending (by rw [List.length_drop]; omega)
        refine ⟨by dsimp only; omega, by dsimp only; omega, fun later result rest => ?_⟩
        rw [List.filter_cons_of_pos (by simpa using more), List.map_cons, attempt_eq sending]
        rw [← List.drop_drop] at rest
        exact .took sending rest
    · cases pass

/-- The first call that moves nothing is one to a peer that is gone, or does nothing. -/
def Breaks (sends : List Transfer) (stop : Stop) : Prop := ∃ n, Moves (sends.take n) ∧
  (sends[n]? = some .broken ∧ stop = .killed ∨ sends[n]? = some .blocked ∧ stop = .blocked)

theorem sendAll_breaks {s : Sock} {data : Bytes} {stop : Stop} (stopped : sendAll s data = .error stop) :
    stop = .thrown (.runtimeError "send failed") ∨ Breaks s.sends stop := by
  obtain ⟨n, moves, ⟨-, same⟩ | ends⟩ := (stopped ▸ sendAll_delivers s data).fails
  · exact .inl same
  · exact .inr ⟨n, moves, ends⟩

theorem sendAll_exact {s t : Sock} {data : Bytes} (h : sendAll s data = .ok t) : t.sent = s.sent ++ data :=
  ((sendAll_delivers s data).all h).2

end MiProxy

/-- Both programs, for every message and every schedule of partial sends. -/
theorem send_all_delivers : Delivers Nameserver.sendAll Nameserver.sendCalls (.exit 1) ∧
    Delivers MiProxy.sendAll MiProxy.sendCalls (.thrown (.runtimeError "send failed")) :=
  ⟨delivers Nameserver.sendAll_delivers, delivers MiProxy.sendAll_delivers⟩

example : Nameserver.sendCalls { incoming := [] } [] = [⟨[], some 0⟩] ∧
    MiProxy.sendCalls { incoming := [] } [] = [] := by decide

end VStream
