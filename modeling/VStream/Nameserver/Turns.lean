import VStream.Nameserver.Rotation

/-!
# Turns within bounds

The server file is not checked when it is read. Whether a query can be answered
shows at its turn: in the arithmetic of `next`, and where the address is copied
into the record.
-/

namespace VStream
open Cpp Net

/-- `index` is a position of `hosts`. -/
def RoundRobin.Inside (rr : RoundRobin) : Prop := 0 ≤ rr.index ∧ rr.index < rr.hosts.length

namespace Nameserver
open RoundRobin

/-- A valid query that `j` others came before is answered within bounds. -/
structure Turn (hosts : List Bytes) (j : Nat) : Prop where
  positions : 0 < cycle hosts.length
  successor : j % cycle hosts.length + 1 < 2 ^ 31
  short : ∀ ip, hosts[j % cycle hosts.length]? = some ip → (ip.takeWhile (· ≠ 0)).length < 100

/-- `j` valid queries have been answered. -/
structure Turned (hosts : List Bytes) (j : Nat) (ns : Nameserver) : Prop where
  mode : ns.mode = .RR
  list : ns.rr.hosts = hosts
  index : ns.rr.index = (j % cycle hosts.length : Nat)

/-- The nameserver in `--rr` mode before its first connection. -/
def ofList (rr : RoundRobin) : Nameserver := { mode := .RR, rr }

/-- The run does nothing undefined, and its calls of `next` keep `index` a position. -/
structure Bounded (rr : RoundRobin) (arrivals : List Arrival) : Prop where
  defined : serve (ofList rr) arrivals ≠ .error .undefined
  inside : ∀ j replies ns, serve (ofList rr) (arrivals.take j) = .ok (replies, ns) → rr.Inside → ns.rr.Inside

/-! ### One query -/

section queries
variable {hosts : List Bytes} {j : Nat} {ns : Nameserver} {a : Arrival}

theorem Turned.inside (turned : Turned hosts j ns) (positions : 0 < j → 0 < cycle hosts.length)
    (start : RoundRobin.Inside { hosts }) : ns.rr.Inside := by
  obtain ⟨-, rfl, index⟩ := turned
  have first : 0 < ns.rr.hosts.length := Int.natCast_pos.mp start.2
  refine ⟨index ▸ Int.natCast_nonneg _, ?_⟩
  rw [index, Nat.cast_lt]
  cases j with
  | zero => rwa [Nat.zero_mod]
  | succ j => exact (Nat.mod_lt _ (positions (Nat.succ_pos j))).trans_le (cycle_bounds _).1

theorem selectServer_turn (turned : Turned hosts j ns) (positions : 0 < cycle hosts.length)
    (successor : j % cycle hosts.length + 1 < 2 ^ 31) (u : Unspecified) (clientIP : Bytes) :
    ∃ ip ns', hosts[j % cycle hosts.length]? = some ip ∧ selectServer u.begin ns clientIP = .ok (ip, ns') ∧
      Turned hosts (j + 1) ns' := by
  obtain ⟨mode, rfl, index⟩ := turned
  obtain ⟨inside, turn⟩ := next_turn index positions successor
  exact ⟨_, { ns with rr := { ns.rr with index := ((j + 1) % cycle ns.rr.hosts.length : Nat) } },
    List.getElem?_eq_getElem inside, by simp only [selectServer, mode, turn]; rfl, mode, rfl, rfl⟩

theorem selectServer_stuck (turned : Turned hosts j ns)
    (stuck : ¬(0 < cycle hosts.length ∧ j % cycle hosts.length + 1 < 2 ^ 31)) (u : Unspecified) (clientIP : Bytes) :
    selectServer u.begin ns clientIP = .error .undefined := by
  obtain ⟨mode, rfl, index⟩ := turned
  simp only [selectServer, mode, next_stuck index stuck]
  rfl

theorem handleConnection_valid (valid : a.valid = true) (ns : Nameserver) :
    a.question.QNAME.cString = .ok domainName ∧ handleConnection a.u ns a.clientIP a.sock =
      answerQuery a.u ns a.clientIP a.header a.question { a.sock with incoming := [] } := by
  have name : a.question.QNAME.toList.takeWhile (· ≠ 0) = domainName := eq_of_beq valid
  have terminated : 0 ∈ a.question.QNAME.toList := by
    by_contra none
    have all : a.question.QNAME.toList.takeWhile (· ≠ 0) = a.question.QNAME.toList := CharArray.takeWhile_plain none
    have length := congrArg List.length (all.symm.trans name)
    rw [List.Vector.toList_length] at length
    exact absurd length (by decide)
  refine ⟨?_, handleConnection_whole a.u a.clientIP a.header (List.append_nil _).symm rfl⟩
  rw [CharArray.cString, if_pos terminated, name]

theorem handleConnection_turn (words : ∀ h ∈ hosts, h ≠ []) (turned : Turned hosts j ns) (valid : a.valid = true)
    (turn : Turn hosts j) :
    (∃ t ns', handleConnection a.u ns a.clientIP a.sock = .ok (t, ns') ∧ Turned hosts (j + 1) ns') ∨
      ∃ stop ≠ .undefined, handleConnection a.u ns a.clientIP a.sock = .error stop := by
  obtain ⟨asked, handled⟩ := handleConnection_valid valid ns
  obtain ⟨ip, ns', here, selected, turned'⟩ := selectServer_turn turned turn.positions turn.successor a.u a.clientIP
  obtain ⟨record, made, -⟩ := makeRecord_ok (show (domainName.takeWhile (· ≠ 0)).length < 100 by decide)
    (turn.short ip here)
  have found : ip ≠ [] := words ip (List.mem_of_getElem? here)
  rw [handled]
  cases sending : sendRecord { a.sock with incoming := [] } a.header record with
  | ok t =>
    refine .inl ⟨t, { ns' with log := ns'.log ++ logLine a.clientIP ip }, ?_, turned'.mode, turned'.list, turned'.index⟩
    simp [answerQuery, asked, selected, found, made, sending]
  | error stop =>
    refine .inr ⟨stop, ?_, by simp [answerQuery, asked, selected, found, made, sending]⟩
    rcases sendRecord_stops sending with rfl | ⟨rfl, -⟩ | ⟨rfl, -⟩ <;> exact fun same => by cases same

theorem handleConnection_stuck (words : ∀ h ∈ hosts, h ≠ []) (turned : Turned hosts j ns) (valid : a.valid = true)
    (stuck : ¬Turn hosts j) : handleConnection a.u ns a.clientIP a.sock = .error .undefined := by
  obtain ⟨asked, handled⟩ := handleConnection_valid valid ns
  rw [handled]
  by_cases counts : 0 < cycle hosts.length ∧ j % cycle hosts.length + 1 < 2 ^ 31
  · obtain ⟨ip, ns', here, selected, -⟩ := selectServer_turn turned counts.1 counts.2 a.u a.clientIP
    apply answerQuery_long a.u a.clientIP a.header asked selected (words ip (List.mem_of_getElem? here))
    by_contra short
    refine stuck ⟨counts.1, counts.2, fun ip' here' => ?_⟩
    obtain rfl : ip = ip' := Option.some.inj (here.symm.trans here')
    exact Nat.lt_of_not_le short
  · have selected := selectServer_stuck turned counts a.u a.clientIP
    simp [answerQuery, asked, selected]

end queries

/-! ### Runs -/

section runs
variable {hosts : List Bytes} (words : ∀ h ∈ hosts, h ≠ []) {arrivals : List Arrival}
include words

/-- A run that is answered to its end had its turns. -/
theorem serve_turned (valid : ∀ a ∈ arrivals, a.valid = true) {j : Nat} {ns ns' : Nameserver}
    (turned : Turned hosts j ns) {replies : List Bytes} (served : serve ns arrivals = .ok (replies, ns')) :
    (∀ i < arrivals.length, Turn hosts (j + i)) ∧ Turned hosts (j + arrivals.length) ns' := by
  induction arrivals generalizing j ns replies with
  | nil =>
    cases served
    exact ⟨fun i less => absurd less (Nat.not_lt_zero i), turned⟩
  | cons a arrivals ih =>
    obtain ⟨here, later⟩ := List.forall_mem_cons.mp valid
    rw [serve_split] at served
    by_cases turn : Turn hosts j
    · rcases handleConnection_turn words turned here turn with ⟨t, ns₁, handled, turned₁⟩ | ⟨stop, -, failed⟩
      · rw [handled, ok_bind] at served
        obtain ⟨⟨replies', ns₂⟩, rest, last⟩ := bind_ok served
        cases last
        obtain ⟨turns, turned'⟩ := ih later turned₁ rest
        rw [Nat.add_assoc, Nat.add_comm 1] at turned'
        refine ⟨?_, turned'⟩
        rintro (- | i) less
        · exact turn
        · rw [Nat.add_comm i, ← Nat.add_assoc]
          exact turns i (Nat.lt_of_succ_lt_succ less)
      · rw [failed] at served
        cases served
    · rw [handleConnection_stuck words turned here turn] at served
      cases served

theorem serve_stuck_iff (valid : ∀ a ∈ arrivals, a.valid = true) {j : Nat} {ns : Nameserver}
    (turned : Turned hosts j ns) :
    serve ns arrivals = .error .undefined ↔
      ∃ i < arrivals.length, (∃ result, serve ns (arrivals.take i) = .ok result) ∧ ¬Turn hosts (j + i) := by
  induction arrivals generalizing j ns with
  | nil => exact iff_of_false (fun h => by cases h) (by simp)
  | cons a arrivals ih =>
    obtain ⟨here, later⟩ := List.forall_mem_cons.mp valid
    by_cases turn : Turn hosts j
    · rcases handleConnection_turn words turned here turn with ⟨t, ns₁, handled, turned₁⟩ | ⟨stop, other, failed⟩
      · have same := ih later turned₁
        have stops : serve ns (a :: arrivals) = .error .undefined ↔ serve ns₁ arrivals = .error .undefined := by
          rw [serve_split, handled, ok_bind]
          dsimp only
          cases serve ns₁ arrivals with
          | error stop => simp
          | ok result => simp
        rw [stops, same]
        constructor
        · rintro ⟨i, less, ⟨⟨replies, ns₂⟩, served⟩, stuck⟩
          refine ⟨i + 1, Nat.succ_lt_succ less, ⟨_, serve_cons handled served⟩, ?_⟩
          rwa [Nat.add_comm i, ← Nat.add_assoc]
        · rintro ⟨- | i, less, ⟨result, served⟩, stuck⟩
          · exact absurd turn stuck
          · rw [List.take_succ_cons, serve_split, handled, ok_bind] at served
            obtain ⟨rest, served, -⟩ := bind_ok served
            refine ⟨i, Nat.lt_of_succ_lt_succ less, ⟨rest, served⟩, ?_⟩
            rwa [Nat.add_assoc, Nat.add_comm 1]
      · refine iff_of_false (fun h => ?_) ?_
        · rw [serve_split, failed, error_bind] at h
          exact other (Except.error.inj h)
        · rintro ⟨- | i, less, ⟨result, served⟩, stuck⟩
          · exact stuck turn
          · rw [List.take_succ_cons, serve_split, failed] at served
            cases served
    · refine iff_of_true ?_ ⟨0, Nat.succ_pos _, ⟨([], ns), rfl⟩, turn⟩
      rw [serve_split, handleConnection_stuck words turned here turn]
      rfl

end runs

/-- On a list that was loaded, a run of valid queries stays within bounds exactly where every query it comes to has a
turn that does. -/
theorem bounded_iff {contents : Bytes} {rr : RoundRobin} (loaded : RoundRobin.load (some contents) = .ok rr)
    {arrivals : List Arrival} (valid : ∀ a ∈ arrivals, a.valid = true) :
    Bounded rr arrivals ↔ ∀ j < arrivals.length,
      (∃ result, serve (ofList rr) (arrivals.take j) = .ok result) → Turn rr.hosts j := by
  obtain ⟨hosts, read, words⟩ := load_words contents
  obtain rfl : _ = rr := Except.ok.inj (read.symm.trans loaded)
  have filled : ∀ h ∈ hosts, h ≠ [] := fun h member => (words h member).1
  have start : Turned hosts 0 (ofList { hosts }) := ⟨rfl, rfl, by simp [ofList]⟩
  have stuck := serve_stuck_iff filled valid start
  simp only [Nat.zero_add] at stuck
  have inside : ∀ j replies ns, serve (ofList { hosts }) (arrivals.take j) = .ok (replies, ns) →
      RoundRobin.Inside { hosts } → ns.rr.Inside := by
    intro j replies ns served inside
    obtain ⟨turns, turned⟩ := serve_turned filled (fun a member => valid a (List.mem_of_mem_take member)) start served
    refine turned.inside (fun some => ?_) inside
    rw [Nat.zero_add] at some
    exact (turns 0 some).positions
  constructor
  · intro bounded j less reached
    by_contra turn
    apply bounded.defined
    exact stuck.mpr ⟨j, less, reached, turn⟩
  · intro turns
    refine ⟨fun undefined => ?_, inside⟩
    obtain ⟨j, less, reached, turn⟩ := stuck.mp undefined
    exact turn (turns j less reached)

theorem bounded_iff_sample : Bounded { hosts := [text "10.0.0.2", text "10.0.0.3"] }
    [sampleArrival domainName, sampleArrival domainName] := by
  have loaded : RoundRobin.load (some (text "10.0.0.2\n10.0.0.3\n")) =
      .ok { hosts := [text "10.0.0.2", text "10.0.0.3"] } := by decide +kernel
  have valid : ∀ a ∈ [sampleArrival domainName, sampleArrival domainName], a.valid = true := by decide
  refine (bounded_iff loaded valid).mpr fun j less _ => ?_
  have both : cycle [text "10.0.0.2", text "10.0.0.3"].length = 2 := by decide
  have turn : j % 2 = 0 ∨ j % 2 = 1 := by omega
  refine ⟨by rw [both]; decide, by rw [both]; omega, fun ip here => ?_⟩
  rw [both] at here
  rcases turn with first | second
  · rw [first] at here
    cases here
    decide
  · rw [second] at here
    cases here
    decide

/-- A file without a token is accepted, and so is one with a token of 100 bytes; the first valid query is undefined
with either. -/
theorem server_files_unchecked : (sampleArrival domainName).valid = true ∧
    RoundRobin.load (some []) = .ok { hosts := [] } ∧ ¬ Bounded { hosts := [] } [sampleArrival domainName] ∧
    RoundRobin.load (some (List.replicate 100 120)) = .ok { hosts := [List.replicate 100 120] } ∧
    ¬ Bounded { hosts := [List.replicate 100 120] } [sampleArrival domainName] := by
  have valid : (sampleArrival domainName).valid = true := by decide
  have undefined : ∀ hosts : List Bytes, (∀ h ∈ hosts, h ≠ []) → ¬Turn hosts 0 →
      ¬Bounded { hosts } [sampleArrival domainName] := by
    intro hosts words stuck bounded
    apply bounded.defined
    have start : Turned hosts 0 (ofList { hosts }) := ⟨rfl, rfl, by simp [ofList]⟩
    rw [serve_split, handleConnection_stuck words start valid stuck]
    rfl
  refine ⟨valid, by decide, undefined [] (by simp) ?_, by decide +kernel, undefined _ (by simp) ?_⟩
  · intro turn
    exact absurd turn.positions (by decide)
  · intro turn
    exact absurd (turn.short _ rfl) (by decide)

end Nameserver

end VStream
