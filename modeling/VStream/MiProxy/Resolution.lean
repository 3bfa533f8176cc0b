import VStream.MiProxy.Program

/-!
# Where requests are sent

An entry of the table keeps the address of its server from the accept that made
it: the one on the command line, or the one that the nameserver gave.
-/

namespace VStream
open Cpp Net
open Std (TreeMap)

namespace MiProxy

/-! ### What a query leaves -/

theorem send_incoming {s t : Sock} {data : Bytes} {taken : Option Nat} (sending : s.send data = .ok (taken, t)) :
    t.incoming = s.incoming ∧ t.recvs = s.recvs := by
  rw [Sock.send_frame sending]
  exact ⟨rfl, rfl⟩

theorem sendAll_incoming {s t : Sock} {data : Bytes} (h : sendAll s data = .ok t) :
    t.incoming = s.incoming ∧ t.recvs = s.recvs := by
  rw [sendAll_eq] at h
  obtain ⟨⟨s', total⟩, rounds, left⟩ := loop_left h
  have same : ∀ first : Sock × Nat, Rounds (sendRound data) first (s', total) →
      s'.incoming = first.1.incoming ∧ s'.recvs = first.1.recvs := by
    intro first rounds
    induction rounds using Relation.ReflTransGen.head_induction_on with
    | refl => exact ⟨rfl, rfl⟩
    | @head before after round _ ih =>
      obtain ⟨s₁, k⟩ := before
      simp only [sendRound] at round
      split at round
      · obtain ⟨⟨taken, s₂⟩, sending, round⟩ := bind_ok round
        have kept := send_incoming sending
        cases taken with
        | none => cases round
        | some n =>
          dsimp only at round
          split at round
          · cases round
          · cases round
            exact ⟨ih.1.trans kept.1, ih.2.trans kept.2⟩
      · cases round
  simp only [sendRound] at left
  split at left
  · obtain ⟨⟨taken, s₂⟩, -, left⟩ := bind_ok left
    cases taken with
    | none => cases left
    | some n =>
      dsimp only at left
      split at left <;> cases left
  · cases left
    exact same _ rounds

theorem handleDnsRequest_incoming {s t : Sock} (h : handleDnsRequest s = .ok t) :
    t.incoming = s.incoming ∧ t.recvs = s.recvs := by
  rw [handleDnsRequest, makeDnsQuestion_eq, ok_bind] at h
  obtain ⟨⟨_, s₁⟩, size, h⟩ := bind_ok h
  obtain ⟨s₂, first, h⟩ := bind_ok h
  obtain ⟨⟨_, s₃⟩, size', second⟩ := bind_ok h
  have header := sendAll_incoming first
  have question := sendAll_incoming second
  have front := send_incoming size
  have front' := send_incoming size'
  exact ⟨question.1.trans (front'.1.trans (header.1.trans front.1)),
    question.2.trans (front'.2.trans (header.2.trans front.2))⟩

/-- Every entry has an address that is good for its client. -/
def Directs (good : Bytes → Bytes → Prop) : MiProxy → Prop := Every fun ip conn => good ip conn.wwwIp

/-- A handler call connects to no server but on port 80 of an address that is good for its client. -/
def Connects (good : Bytes → Bytes → Prop) (h : Event × List Action) : Prop :=
  ∀ fd address, Action.connected fd address ∈ h.2 →
    address.port = 80 ∧ ∃ wwwIp, good h.1.ip wwwIp ∧ address.hostname = wwwIp.takeWhile (· ≠ 0)

section handlers
variable {good : Bytes → Bytes → Prop} {p m q : MiProxy} {e : Event} {actions : List Action}

theorem Step.settings (step : Step p e actions q) : q.dnsMode = p.dnsMode ∧ q.defaultWwwIp = p.defaultWwwIp := by
  cases step <;> exact ⟨rfl, rfl⟩

theorem Does.settings {turn : CallLog} (does : Does p turn q) :
    q.dnsMode = p.dnsMode ∧ q.defaultWwwIp = p.defaultWwwIp := by
  induction does with
  | nil => exact ⟨rfl, rfl⟩
  | cons _ dispatched _ ih =>
    have here := (dispatch_step dispatched).settings
    exact ⟨ih.1.trans here.1, ih.2.trans here.2⟩

theorem Directs.update (directs : Directs good p) {ip : Bytes} {conn conn' : Connection}
    (entry : p.clients[ip]? = some conn) (same : conn'.wwwIp = conn.wwwIp) : Directs good (p.store ip conn') :=
  Every.store directs (same ▸ directs ip conn entry)

theorem Directs.reads (directs : Directs good p) (step : Step p e actions q) (reads : e.reads ≠ none) :
    Directs good q := by
  cases step with
  | idle nothing => exact directs
  | replaced valid entry => exact absurd rfl reads
  | added valid absent => exact absurd rfl reads
  | clientLeft entry => exact Every.erase directs _
  | heard entry some more => exact directs.update entry rfl
  | requested entry some ended server rewritten => exact directs.update entry rfl
  | serverLeft entry connected => exact directs.update entry rfl
  | receiving entry connected some waits => exact directs.update entry rfl
  | intercepted entry connected some complete kept => exact directs.update entry rfl
  | answered entry connected some complete plain => exact directs.update entry rfl

theorem Directs.connects (directs : Directs good p) (step : Step p e actions q) : Connects good (e, actions) := by
  intro fd address member
  cases step with
  | @requested ip data calls conn _ _ _ _ _ entry some ended server rewritten =>
    cases server with
    | old connected => simp at member
    | new unconnected valid =>
      obtain ⟨-, rfl⟩ : fd = calls.socket ∧ address = serverAddress conn := by simpa using member
      exact ⟨rfl, conn.wwwIp, directs ip conn entry, rfl⟩
  | idle nothing => exact absurd member List.not_mem_nil
  | _ => simp at member

theorem Directs.accept (directs : Directs good p) {newSocket : Int} {ip : Bytes} {dns : Exec Bytes}
    (h : p.handleMasterConnection newSocket ip dns = .ok (q, actions))
    (made : ∀ wwwIp, (if p.dnsMode then dns else .ok p.defaultWwwIp) = .ok wwwIp → good ip wwwIp) : Directs good q := by
  unfold handleMasterConnection at h
  split at h
  · cases h
  split at h
  · rename_i conn entry
    cases h
    exact @Directs.update _ _ directs _ _ { conn with clientSocket := newSocket } entry rfl
  · obtain ⟨wwwIp, resolved, h⟩ := bind_ok h
    cases h
    exact @Every.store _ _ directs ip
      { clientSocket := newSocket, serverSocket := -1, clientIp := ip, wwwIp } (made wwwIp resolved)

theorem Attends.directs {set : FdSet} {calls : Bytes → Calls} {ips : List Bytes} {turn : CallLog}
    (attends : Attends set calls p ips turn q) (directs : Directs good p) :
    Directs good q ∧ ∀ h ∈ turn, Connects good h := by
  induction attends with
  | nil => exact ⟨directs, List.forall_mem_nil _⟩
  | pass _ _ ih => exact ih directs
  | serve asked dispatched _ _ ih =>
    obtain ⟨role, fd, reads, -⟩ := readyEvent_reads (due_ok asked).symm
    have reads' : _ ≠ none := ne_of_eq_of_ne reads (Option.some_ne_none role)
    have step := dispatch_step dispatched
    obtain ⟨later, connects⟩ := ih (directs.reads step reads')
    exact ⟨later, List.forall_mem_cons.mpr ⟨directs.connects step, connects⟩⟩

end handlers

/-! ### Runs -/

section runs
variable {good : Bytes → Bytes → Prop} {state : Bytes → Prop} {p q : MiProxy} {incoming : Bytes}
  {activities : List Activity} {turns : List CallLog}

/-- If every address that the nameserver gives is good, so is every one that an entry has or is connected to. -/
theorem serving_directs (keyed : p.Keyed) (fixed : p.dnsMode = false → ∀ ip, good ip p.defaultWwwIp)
    (asks : p.dnsMode = true → ∀ a ∈ activities, ∀ incoming, state incoming →
      ∀ ip s, a.request incoming = .ok (ip, s) → good a.ip ip ∧ state s.incoming)
    (start : state incoming) (directs : Directs good p) (h : p.serving incoming activities = .ok (q, turns)) :
    Directs good q ∧ ∀ turn ∈ turns, ∀ h ∈ turn, Connects good h := by
  induction activities generalizing p incoming turns with
  | nil =>
    cases h
    exact ⟨directs, List.forall_mem_nil _⟩
  | cons a activities ih =>
    obtain ⟨⟨p₁, turn⟩, first, h⟩ := bind_ok h
    obtain ⟨⟨last, later⟩, rest, h⟩ := bind_ok h
    cases h
    obtain ⟨m, set, accepts, visits, rfl, rounded⟩ := keyed.round first
    have does := rounded.does
    have settings := does.settings
    have accepted : Directs good m ∧ ∀ h ∈ accepts, Connects good h := by
      cases rounded.accepting with
      | none => exact ⟨directs, List.forall_mem_nil _⟩
      | one asked dispatched =>
        refine ⟨directs.accept dispatched ?_, List.forall_mem_singleton.mpr (directs.connects (dispatch_step dispatched))⟩
        intro wwwIp made
        split at made
        · rename_i mode
          obtain ⟨⟨ip, s⟩, resolved, rfl⟩ := map_ok made
          exact (asks mode a List.mem_cons_self incoming start ip s resolved).1
        · rename_i mode
          cases made
          exact fixed (by simpa using mode) _
    have next : state (a.rest p (accepts ++ visits) incoming) := by
      unfold Activity.rest
      split
      · rename_i asked
        split
        · rename_i ip s resolved
          exact (asks asked.1 a List.mem_cons_self incoming start ip s resolved).2
        · exact start
      · exact start
    obtain ⟨visited, connects⟩ := rounded.visiting.directs accepted.1
    have fixed' : p₁.dnsMode = false → ∀ ip, good ip p₁.defaultWwwIp := by
      rw [settings.1, settings.2]
      exact fixed
    have asks' : p₁.dnsMode = true → ∀ b ∈ activities, ∀ incoming, state incoming →
        ∀ ip s, b.request incoming = .ok (ip, s) → good b.ip ip ∧ state s.incoming := by
      rw [settings.1]
      exact fun mode b member => asks mode b (List.mem_cons_of_mem _ member)
    obtain ⟨last, others⟩ := ih (does.keyed keyed) fixed' asks' next visited rest
    exact ⟨last, List.forall_mem_cons.mpr ⟨List.forall_mem_append.mpr ⟨accepted.2, connects⟩, others⟩⟩

end runs

/-! ### From the command line -/

section programs
variable {env : Environment} {argv : List Bytes} {incoming : Bytes} {activities : List Activity} {p q : MiProxy}
  {options : Options} {turns : List CallLog} {log : Option (List LogLine)}

theorem main_running (ran : main env argv incoming activities = .ok (.running q turns log)) :
    ∃ options p, getOptions env.stof argv = .ok options ∧ init env options = .ok p ∧
      p.serving incoming activities = .ok (q, turns) := by
  unfold main at ran
  cases outcome : tryBlock env argv incoming activities with
  | ok progress =>
    obtain ⟨options, p, q', turns', read, started, served, rfl⟩ := tryBlock_ok outcome
    rw [outcome] at ran
    cases ran
    exact ⟨options, p, read, started, served⟩
  | error stop =>
    rw [outcome] at ran
    cases stop with
    | thrown e => cases e <;> cases ran
    | _ => cases ran

theorem init_directs {good : Bytes → Bytes → Prop} (started : init env options = .ok p) : Directs good p := by
  intro ip conn entry
  rw [(init_ok started).2.2.2.2.2] at entry
  simp at entry

end programs

/-- The addresses that the proxy has connected to. -/
def Progress.servers : Progress → List SockAddr
  | .running _ turns _ => turns.flatten.flatMap fun h => h.2.filterMap fun
    | .connected _ address => some address
    | _ => none
  | .returned _ _ => []

/-- A client connects and asks for a page. -/
def sampleActivities : List Activity :=
  [sampleActivity, { sampleActivity with
    selected := .returned (· = 5), newSocket := -1
    calls := fun _ => { fromClient := some (text "GET / HTTP/1.1\r\n\r\n"), request := { socket := 7 } } }]

end MiProxy

end VStream
