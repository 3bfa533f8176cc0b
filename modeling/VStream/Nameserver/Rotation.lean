import VStream.Nameserver.Connection

/-!
# The rotation over a run

In `--rr` mode the queries that ask for the one name are answered from the
list in turn; the others leave the rotation and the log as they are.
-/

namespace VStream.Nameserver
open Cpp Net

/-- A connection on which one query comes, whole. -/
structure Arrival where
  clientIP : Bytes
  header : DNSHeader
  question : DNSQuestion
  sends : List Transfer
  u : Unspecified

namespace Arrival

def sock (a : Arrival) : Sock := { incoming := query a.header a.question, sends := a.sends }

def attempt (a : Arrival) : Attempt := .connected { u := a.u, clientIP := a.clientIP, sock := a.sock }

def name (a : Arrival) : Bytes := a.question.QNAME.toList.takeWhile (· ≠ 0)

def valid (a : Arrival) : Bool := a.name == domainName

structure WellFormed (a : Arrival) : Prop where
  terminated : 0 ∈ a.question.QNAME.toList
  writable : a.sock.Writable

theorem WellFormed.cString {a : Arrival} (ok : a.WellFormed) : a.question.QNAME.cString = .ok a.name :=
  if_pos ok.terminated

end Arrival

/-- The loop of `run_server` over these queries: what was sent on each of them. -/
def serve (ns : Nameserver) (arrivals : List Arrival) : Exec (List Bytes × Nameserver) :=
  runServer ns (arrivals.map Arrival.attempt)

theorem serve_split (ns : Nameserver) (a : Arrival) (arrivals : List Arrival) :
    serve ns (a :: arrivals) = handleConnection a.u ns a.clientIP a.sock >>= fun result =>
      serve result.2 arrivals >>= fun later => .ok (result.1.sent :: later.1, later.2) := rfl

theorem serve_cons {ns ns₁ ns' : Nameserver} {a : Arrival} {t : Sock} {arrivals : List Arrival} {replies : List Bytes}
    (handled : handleConnection a.u ns a.clientIP a.sock = .ok (t, ns₁))
    (served : serve ns₁ arrivals = .ok (replies, ns')) : serve ns (a :: arrivals) = .ok (t.sent :: replies, ns') := by
  rw [serve_split, handled, ok_bind, served]
  rfl

/-! ### One query -/

structure Rotated (hosts : List Bytes) (j : Nat) (ns : Nameserver) : Prop where
  mode : ns.mode = .RR
  list : ns.rr.hosts = hosts
  index : ns.rr.index = (j % hosts.length : Nat)

/-- The addresses can be handed out: there are some, each fits the record, and their number fits an `int`. -/
structure Servable (hosts : List Bytes) : Prop where
  nonempty : hosts ≠ []
  words : ∀ h ∈ hosts, h ≠ []
  fits : ∀ h ∈ hosts, Fits h
  number : (hosts.length : Int) ≤ intMax

/-- The reply to a query that `j` valid ones came before. -/
def Served (hosts : List Bytes) (j : Nat) (a : Arrival) (reply : Bytes) : Prop :=
  if a.valid then ∃ ip, hosts[j % hosts.length]? = some ip ∧ Answer a.header ip reply
  else reply = refusal a.header

/-- The lines for these valid queries, of which the first has `j` before it. -/
def logged (hosts : List Bytes) (j : Nat) (arrivals : List Arrival) : Bytes :=
  (arrivals.zipIdx j).flatMap fun (a, j) => logLine a.clientIP (hosts.getD (j % hosts.length) [])

variable {hosts : List Bytes} {j : Nat} {ns : Nameserver}

theorem selectServer_rotated (servable : Servable hosts) (rotated : Rotated hosts j ns)
    (u : Unspecified) (clientIP : Bytes) :
    ∃ ip ns', hosts[j % hosts.length]? = some ip ∧ selectServer u.begin ns clientIP = .ok (ip, ns') ∧
      Rotated hosts (j + 1) ns' ∧ ns'.log = ns.log := by
  obtain ⟨mode, rfl, index⟩ := rotated
  have inside : j % ns.rr.hosts.length < ns.rr.hosts.length :=
    Nat.mod_lt _ (List.length_pos_iff.mpr servable.nonempty)
  have turn := RoundRobin.next_eq inside index servable.number
  refine ⟨ns.rr.hosts[j % ns.rr.hosts.length],
    { ns with rr := { ns.rr with index := ((j % ns.rr.hosts.length + 1) % ns.rr.hosts.length : Nat) } },
    List.getElem?_eq_getElem inside, by simp only [selectServer, mode, turn]; rfl, ⟨mode, rfl, ?_⟩, rfl⟩
  simp [Nat.add_mod]

theorem handleConnection_rotated (servable : Servable hosts) (rotated : Rotated hosts j ns) {a : Arrival}
    (ok : a.WellFormed) : ∃ t ns', handleConnection a.u ns a.clientIP a.sock = .ok (t, ns') ∧
      Rotated hosts (j + if a.valid then 1 else 0) ns' ∧ Served hosts j a t.sent ∧
      ns'.log = ns.log ++ logged hosts j (if a.valid then [a] else []) := by
  have incoming : a.sock.incoming = query a.header a.question ++ [] := (List.append_nil _).symm
  have writable : ({ a.sock with incoming := [] } : Sock).Writable := ok.writable
  rw [handleConnection_whole a.u a.clientIP a.header incoming rfl]
  cases valid : a.valid with
  | true =>
    have asked : a.question.QNAME.cString = .ok domainName := by rw [ok.cString, eq_of_beq valid]
    obtain ⟨ip, ns', turn, selected, rotated', log⟩ := selectServer_rotated servable rotated a.u a.clientIP
    have member := List.mem_of_getElem? turn
    obtain ⟨t, reply, answered, -, sent, carries⟩ := answerQuery_some a.u a.clientIP a.header asked selected
      (servable.words ip member) (servable.fits ip member) writable
    refine ⟨t, _, answered, ⟨rotated'.mode, rotated'.list, rotated'.index⟩, ?_, ?_⟩
    · rw [Served, if_pos valid]
      exact ⟨ip, turn, by rw [sent]; exact carries⟩
    · simp [logged, log, List.getD_eq_getElem?_getD, turn]
  | false =>
    have other : a.name ≠ domainName := fun same => by simp [Arrival.valid, same] at valid
    obtain ⟨t, refused, -, sent⟩ := answerQuery_other a.u a.clientIP a.header ok.cString other writable
    refine ⟨t, ns, refused, rotated, ?_, ?_⟩
    · rw [Served, if_neg (by simp [valid])]
      exact sent
    · simp [logged]

/-! ### Runs -/

/-- Every reply of a run, the log and the rotation at its end, from a rotation that has handed out `j` addresses. -/
theorem serve_rotated (servable : Servable hosts) (rotated : Rotated hosts j ns) {arrivals : List Arrival}
    (ok : ∀ a ∈ arrivals, a.WellFormed) : ∃ replies ns', serve ns arrivals = .ok (replies, ns') ∧
      Rotated hosts (j + arrivals.countP Arrival.valid) ns' ∧ replies.length = arrivals.length ∧
      (∀ (i : Nat) a reply, arrivals[i]? = some a → replies[i]? = some reply →
        Served hosts (j + (arrivals.take i).countP Arrival.valid) a reply) ∧
      ns'.log = ns.log ++ logged hosts j (arrivals.filter Arrival.valid) := by
  induction arrivals generalizing j ns with
  | nil => exact ⟨[], ns, rfl, rotated, rfl, by simp, by simp [logged]⟩
  | cons a arrivals ih =>
    obtain ⟨t, ns₁, handled, rotated₁, served, log₁⟩ := handleConnection_rotated servable rotated (ok a (by simp))
    obtain ⟨replies, ns', rest, rotated', length, replied, log⟩ :=
      ih rotated₁ fun a member => ok a (List.mem_cons_of_mem _ member)
    have counted : ∀ l : List Arrival, (j + if a.valid then 1 else 0) + l.countP Arrival.valid =
        j + (a :: l).countP Arrival.valid := by
      intro l; rw [List.countP_cons]; omega
    refine ⟨t.sent :: replies, ns', serve_cons handled rest, counted arrivals ▸ rotated', by simp [length], ?_, ?_⟩
    · intro i b reply arrived here
      cases i with
      | zero =>
        obtain rfl := Option.some.inj arrived
        obtain rfl := Option.some.inj here
        exact served
      | succ i =>
        have later := replied i b reply arrived here
        rwa [counted] at later
    · rw [log, log₁, List.append_assoc]
      cases valid : a.valid <;> simp [valid, logged]

/-- Of `k` turns through `n` positions every position gets its share, rounded down or up. -/
theorem position_count {n p : Nat} (inside : p < n) (k : Nat) :
    (List.range k).countP (fun j => j % n = p) = k / n ∨
      (List.range k).countP (fun j => j % n = p) = (k + n - 1) / n := by
  have positive : 0 < n := Nat.zero_lt_of_lt inside
  have same : (List.range k).countP (fun j => j % n = p) = Nat.count (· ≡ p [MOD n]) k := by
    simp only [Nat.count, Nat.ModEq, Nat.mod_eq_of_lt inside]
  rw [same, Nat.count_modEq_card k positive, Nat.mod_eq_of_lt inside]
  split
  · rename_i some
    have split : k + n - 1 = n * (k / n + 1) + (k % n - 1) := by
      have := Nat.div_add_mod k n
      rw [Nat.mul_add, Nat.mul_one]; omega
    have last : (k % n - 1) / n = 0 := Nat.div_eq_of_lt (by have := Nat.mod_lt k positive; omega)
    rw [split, Nat.mul_add_div positive, last]
    exact .inr rfl
  · exact .inl rfl

/-- Over any run, the valid queries are answered from the list in turn and logged in order, and the others
are refused. -/
theorem rotation {contents : Bytes} {rr : RoundRobin} (loaded : RoundRobin.load (some contents) = .ok rr)
    (nonempty : rr.hosts ≠ []) (fits : ∀ h ∈ rr.hosts, Fits h) (number : (rr.hosts.length : Int) ≤ intMax)
    {arrivals : List Arrival} (ok : ∀ a ∈ arrivals, a.WellFormed) :
    ∃ replies ns, serve { mode := .RR, rr } arrivals = .ok (replies, ns) ∧ replies.length = arrivals.length ∧
      (∀ (i : Nat) a reply, arrivals[i]? = some a → replies[i]? = some reply →
        Served rr.hosts ((arrivals.take i).countP Arrival.valid) a reply) ∧
      ns.log = logged rr.hosts 0 (arrivals.filter Arrival.valid) ∧
      ∀ p < rr.hosts.length,
        let k := arrivals.countP Arrival.valid
        let uses := (List.range k).countP fun j => j % rr.hosts.length = p
        uses = k / rr.hosts.length ∨ uses = (k + rr.hosts.length - 1) / rr.hosts.length := by
  obtain ⟨hosts, read, words⟩ := RoundRobin.load_words contents
  obtain rfl : _ = rr := Except.ok.inj (read.symm.trans loaded)
  have rotated : Rotated hosts 0 { mode := .RR, rr := { hosts } } := ⟨rfl, rfl, by simp⟩
  have servable : Servable hosts := ⟨nonempty, fun h member => (words h member).1, fits, number⟩
  obtain ⟨replies, ns, served, -, length, replied, log⟩ := serve_rotated servable rotated ok
  exact ⟨replies, ns, served, length, by simpa using replied, log, fun p inside => position_count inside _⟩

def sampleHeader : DNSHeader :=
  { ID := 1, QR := false, OPCODE := 1, AA := false, TC := false, RD := false, RA := false, Z := 0, RCODE := 0,
    QDCOUNT := 1, ANCOUNT := 0, NSCOUNT := 0, ARCOUNT := 0 }

def sampleQuestion (name : Bytes) : DNSQuestion :=
  { QNAME := ⟨(name ++ List.replicate 100 0).take 100, by simp⟩, QTYPE := 1, QCLASS := 1 }

def sampleUnspecified : Unspecified :=
  { begin := fun _ => 0, header := ⟨sampleHeader, 0, 0⟩, question := sampleQuestion [] }

def sampleArrival (name : Bytes) : Arrival :=
  { clientIP := text "10.0.0.1", header := sampleHeader, question := sampleQuestion name, sends := []
    u := sampleUnspecified }

theorem sampleArrival_ok {name : Bytes} (short : name.length < 100) : (sampleArrival name).WellFormed := by
  refine ⟨?_, by simp [Sock.Writable, Arrival.sock, sampleArrival]⟩
  have padded : (sampleArrival name).question.QNAME.toList = name ++ List.replicate (100 - name.length) 0 := by
    change (name ++ List.replicate 100 0).take 100 = _
    rw [List.take_append, List.take_of_length_le short.le, List.take_replicate, Nat.min_eq_left (by omega)]
  rw [padded]
  exact List.mem_append_right _ (List.mem_replicate.mpr ⟨by omega, rfl⟩)

theorem rotation_two_hosts : ∃ replies ns,
    serve { mode := .RR, rr := { hosts := [text "10.0.0.2", text "10.0.0.3"] } }
      [sampleArrival domainName, sampleArrival (text "example.com")] = .ok (replies, ns) ∧ replies.length = 2 := by
  have loaded : RoundRobin.load (some (text "10.0.0.2\n10.0.0.3\n")) =
      .ok { hosts := [text "10.0.0.2", text "10.0.0.3"] } := by decide +kernel
  have fits : ∀ h ∈ [text "10.0.0.2", text "10.0.0.3"], Fits h := by
    intro h member
    simp only [List.mem_cons, List.not_mem_nil, or_false] at member
    rcases member with rfl | rfl <;> exact ⟨by decide, by decide⟩
  have ok : ∀ a ∈ [sampleArrival domainName, sampleArrival (text "example.com")], a.WellFormed := by
    intro a member
    simp only [List.mem_cons, List.not_mem_nil, or_false] at member
    rcases member with rfl | rfl <;> exact sampleArrival_ok (by decide)
  obtain ⟨replies, ns, served, length, -⟩ := rotation loaded (by simp) fits (by decide) ok
  exact ⟨replies, ns, served, length⟩

/-! ### A list too long for `int` -/

def manyHosts (n : Nat) : List Bytes := text "10.0.0.2" :: List.replicate n (text "10.0.0.3")

theorem manyHosts_fits {n : Nat} : ∀ h ∈ manyHosts n, RoundRobin.Word h ∧ Fits h := by
  have two : ∀ h ∈ [text "10.0.0.2", text "10.0.0.3"], RoundRobin.Word h ∧ Fits h := by
    intro h member
    simp only [List.mem_cons, List.not_mem_nil, or_false] at member
    rcases member with rfl | rfl <;> exact ⟨⟨by decide, by decide +kernel⟩, by decide, by decide⟩
  intro h member
  rcases List.mem_cons.mp member with rfl | repeated
  · exact two _ (by simp)
  · rw [List.eq_of_mem_replicate repeated]
    exact two _ (by simp)

theorem manyHosts_next {n : Nat} (wraps : castInt (n + 1) = 1) :
    RoundRobin.next { hosts := manyHosts n } = .ok (text "10.0.0.2", { hosts := manyHosts n }) := by
  have length : (manyHosts n).length = n + 1 := by rw [manyHosts, List.length_cons, List.length_replicate]
  have successor : toInt (0 + 1) = .ok 1 := toInt_ok (by decide) (by decide)
  have remainder : intMod 1 1 = .ok 0 := rfl
  unfold RoundRobin.next
  simp only [length, wraps, successor, remainder, ok_bind, pure_eq_ok]
  rw [dif_pos (by simp)]
  rfl

theorem manyHosts_stuck {n : Nat} (wraps : castInt (n + 1) = 1) {a : Arrival} (ok : a.WellFormed)
    (valid : a.valid = true) (log : Bytes) : ∃ t log',
      handleConnection a.u { mode := .RR, rr := { hosts := manyHosts n }, log } a.clientIP a.sock =
        .ok (t, { mode := .RR, rr := { hosts := manyHosts n }, log := log' }) ∧
      Answer a.header (text "10.0.0.2") t.sent := by
  have asked : a.question.QNAME.cString = .ok domainName := by rw [ok.cString, eq_of_beq valid]
  have incoming : a.sock.incoming = query a.header a.question ++ [] := (List.append_nil _).symm
  have writable : ({ a.sock with incoming := [] } : Sock).Writable := ok.writable
  have selected : selectServer a.u.begin { mode := .RR, rr := { hosts := manyHosts n }, log } a.clientIP =
      .ok (text "10.0.0.2", { mode := .RR, rr := { hosts := manyHosts n }, log }) := by
    simp only [selectServer, manyHosts_next wraps]
    rfl
  obtain ⟨t, reply, answered, -, sent, carries⟩ := answerQuery_some a.u a.clientIP a.header asked selected
    (by decide) ⟨by decide, by decide⟩ writable
  rw [handleConnection_whole a.u a.clientIP a.header incoming rfl]
  exact ⟨t, _, answered, by rw [sent]; exact carries⟩

/-- A list of 2^32 + 1 addresses: the second query is answered with the first address once more. -/
theorem rotation_stuck :
    RoundRobin.load (some ((manyHosts (2 ^ 32)).flatMap (· ++ [10]))) = .ok { hosts := manyHosts (2 ^ 32) } ∧
    (∀ h ∈ manyHosts (2 ^ 32), Fits h) ∧ (sampleArrival domainName).WellFormed ∧
    ∃ first second ns, serve { mode := .RR, rr := { hosts := manyHosts (2 ^ 32) } }
        [sampleArrival domainName, sampleArrival domainName] = .ok ([first, second], ns) ∧
      ¬ Served (manyHosts (2 ^ 32)) 1 (sampleArrival domainName) second := by
  have ok := sampleArrival_ok (show domainName.length < 100 by decide)
  have valid : (sampleArrival domainName).valid = true := by decide
  generalize sampleArrival domainName = a at ok valid ⊢
  have wraps : castInt (2 ^ 32 + 1) = 1 := by decide
  obtain ⟨t, log, first, -⟩ := manyHosts_stuck wraps ok valid []
  obtain ⟨t', log', second, carries⟩ := manyHosts_stuck wraps ok valid log
  have plain : ∀ h ∈ manyHosts (2 ^ 32), Fits h := fun h member => (manyHosts_fits h member).2
  have length : (manyHosts (2 ^ 32)).length = 2 ^ 32 + 1 := by
    rw [manyHosts, List.length_cons, List.length_replicate]
  refine ⟨RoundRobin.load_lines fun h member => (manyHosts_fits h member).1, plain, ok,
    t.sent, t'.sent, { mode := .RR, rr := { hosts := manyHosts (2 ^ 32) }, log := log' }, ?_, ?_⟩
  · exact serve_cons first (serve_cons second rfl)
  · rw [Served, if_pos valid]
    rintro ⟨ip, turn, other⟩
    have here : (manyHosts (2 ^ 32))[1 % (manyHosts (2 ^ 32)).length]? = some (text "10.0.0.3") := by
      rw [length, Nat.mod_eq_of_lt (by decide), manyHosts, List.getElem?_cons_succ, List.getElem?_replicate,
        if_pos (by decide)]
    obtain rfl := Option.some.inj (here.symm.trans turn)
    have same := carries.unique other ⟨by decide, by decide⟩ ⟨by decide, by decide⟩
    exact absurd same (by decide)

end VStream.Nameserver
