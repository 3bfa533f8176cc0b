import VStream.MiProxy.Resolution
import VStream.Nameserver.Program

/-!
# The two programs from their command lines

The proxy started with `--dns` asks a nameserver started with `--geo`. Where it
sends the requests of its clients follows from the topology file.
-/

namespace VStream
open Cpp Net Nameserver MiProxy

section queries
variable {a : Activity} {reply ip : Bytes} {s : Sock}

/-- On a connection with nothing left to read no query is answered. -/
theorem request_nothing (h : a.request [] = .ok (ip, s)) : False := by
  obtain ⟨t, sent, h⟩ := bind_ok h
  obtain ⟨incoming, -⟩ := handleDnsRequest_incoming sent
  obtain ⟨⟨n, t'⟩, size, -⟩ := bind_ok h
  exact recvSize_reads size incoming

theorem request_answer {header : DNSHeader} {address : Bytes} (answer : Answer header address reply) (fits : Fits address)
    (whole : a.recvs = []) (h : a.request reply = .ok (ip, s)) : ip = address ∧ s.incoming = [] := by
  obtain ⟨t, sent, h⟩ := bind_ok h
  obtain ⟨incoming, recvs⟩ := handleDnsRequest_incoming sent
  obtain ⟨record, -, -, -, -, data, -, shape⟩ := answer
  have stream : t.incoming = frame (DNSHeader.encode { header with AA := true }) ++ frame record.encode ++ [] := by
    rw [List.append_nil, ← shape]
    exact incoming
  rw [handleDnsResponse_record a.locals stream (recvs.trans whole), fits.cString data] at h
  cases h
  exact ⟨rfl, rfl⟩

/-- Where the nameserver refuses, the proxy exits. -/
theorem request_refusal {header : DNSHeader} (whole : a.recvs = []) (h : a.request (refusal header) = .ok (ip, s)) :
    False := by
  obtain ⟨t, sent, h⟩ := bind_ok h
  obtain ⟨incoming, recvs⟩ := handleDnsRequest_incoming sent
  have stream : t.incoming = frame (DNSHeader.encode { header with AA := true, RCODE := 3 }) := incoming
  rw [handleDnsResponse_refused a.locals (.header _) stream (recvs.trans whole)] at h
  cases h

end queries

/-- A handler call opens connections to port 80 of good hosts only. -/
def ConnectsTo (good : Bytes → Prop) (h : Event × List Action) : Prop :=
  ∀ fd address, Action.connected fd address ∈ h.2 → address.port = 80 ∧ good address.hostname

/-- A proxy started with `--dns` asks once, and sends all requests where the reply says. -/
theorem follows_reply {good : Bytes → Prop} (plain : ∀ address, good address → Fits address) {env : MiProxy.Environment}
    {proxy listen dnsIp dnsPort weight path : Bytes} {reply : Bytes} {activities : List Activity} {q : MiProxy}
    {turns : List CallLog} {log : Option (List LogLine)}
    (replied : ∀ a ∈ activities, ∀ ip s, a.request reply = .ok (ip, s) → good ip ∧ s.incoming = [])
    (ran : MiProxy.main env [proxy, text "--dns", listen, dnsIp, dnsPort, weight, path] reply activities =
      .ok (.running q turns log)) :
    (∀ (ip : Bytes) (conn : Connection), q.clients[ip]? = some conn → good conn.wwwIp) ∧
      ∀ turn ∈ turns, ∀ h ∈ turn, ConnectsTo good h := by
  obtain ⟨options, p, read, started, serving⟩ := main_running ran
  have mode : p.dnsMode = true := by
    have flag : text "--dns" = text "--dns" := rfl
    rw [getOptions, if_pos flag] at read
    obtain ⟨listenPort, -, read⟩ := bind_ok read
    obtain ⟨port, -, read⟩ := bind_ok read
    obtain ⟨alpha, -, read⟩ := bind_ok read
    cases read
    exact (init_ok started).1
  have fixed : p.dnsMode = false → ∀ _ : Bytes, good p.defaultWwwIp := by
    rw [mode]
    exact fun off => by cases off
  have asks : p.dnsMode = true → ∀ a ∈ activities, ∀ incoming, (incoming = reply ∨ incoming = []) →
      ∀ ip s, a.request incoming = .ok (ip, s) → good ip ∧ (s.incoming = reply ∨ s.incoming = []) := by
    intro _ a member incoming state address s resolved
    rcases state with rfl | rfl
    · obtain ⟨fine, empty⟩ := replied a member address s resolved
      exact ⟨fine, .inr empty⟩
    · exact (request_nothing resolved).elim
  obtain ⟨directs, connects⟩ := @serving_directs (fun _ wwwIp => good wwwIp)
    (fun incoming => incoming = reply ∨ incoming = []) _ _ _ _ _ (init_keyed started) fixed asks (.inl rfl)
    (init_directs started) serving
  refine ⟨directs, fun turn member h here fd address connected => ?_⟩
  obtain ⟨port, wwwIp, fine, hostname⟩ := connects turn member h here fd address connected
  rw [hostname, CharArray.takeWhile_plain (plain wwwIp fine).1]
  exact ⟨port, fine⟩

/-- While both programs run, the proxy connects its clients to the server that is nearest to the proxy in the plan and to no
other. `own` is the connection of the proxy, and it hears there what the nameserver sends. -/
theorem proxy_follows_plan {plan : Geography.Plan} (sound : plan.Sound) {site : Nameserver.Environment} {contents : Bytes}
    (program number servers logPath : Bytes) {port : Int} (parsed : atoi number = .ok port) (up : site.Up port)
    (file : site.files servers = some contents) (written : Cpp.fields contents = plan.fields)
    {arrivals : List Arrival} (ok : ∀ a ∈ arrivals, a.WellFormed) {replies : List Bytes} {logged : Option Bytes}
    (serves : Nameserver.main site [program, text "--geo", number, servers, logPath] (arrivals.map Arrival.attempt) =
      .ok (replies, logged))
    {i : Nat} {own : Arrival} {reply : Bytes} (connected : arrivals[i]? = some own)
    (said : replies[i]? = some reply)
    {env : MiProxy.Environment} (proxy listen dnsIp dnsPort weight path : Bytes) {activities : List Activity}
    (whole : ∀ a ∈ activities, a.recvs = []) {q : MiProxy} {turns : List CallLog} {log : Option (List LogLine)}
    (ran : MiProxy.main env [proxy, text "--dns", listen, dnsIp, dnsPort, weight, path] reply activities =
      .ok (.running q turns log)) :
    (∀ (ip : Bytes) (conn : Connection), q.clients[ip]? = some conn → plan.Chosen own.clientIP conn.wwwIp) ∧
      ∀ turn ∈ turns, ∀ h ∈ turn, ConnectsTo (plan.Chosen own.clientIP) h := by
  obtain ⟨geo, exchanges, ns, loaded, served, handled, -⟩ := plan_served sound site.u written ok
  rw [main_started program number servers logPath (by decide) parsed up (balancer_geo port logPath file loaded), served]
    at serves
  obtain ⟨rfl, -⟩ := Prod.mk.inj (Except.ok.inj serves)
  rw [List.getElem?_map] at said
  obtain ⟨exchange, here, rfl⟩ := Option.map_eq_some_iff.mp said
  have answered : Nameserver.Handled plan own exchange.1 exchange.2 := by
    obtain ⟨inside, rfl⟩ := List.getElem?_eq_some_iff.mp connected
    obtain ⟨inside', rfl⟩ := List.getElem?_eq_some_iff.mp here
    exact handled.get inside inside'
  have fits : ∀ address, plan.Chosen own.clientIP address → Fits address := by
    rintro address ⟨-, -, -, -, server, -, d, -, rfl⟩
    exact fits_uintIp _
  refine follows_reply fits ?_ ran
  intro a member address s resolved
  rcases answered with ⟨-, chosen, shown, answer, -⟩ | ⟨-, refused, -⟩
  · obtain ⟨rfl, empty⟩ := request_answer answer (fits chosen shown) (whole a member) resolved
    exact ⟨shown, empty⟩
  · rw [refused] at resolved
    exact (request_refusal (whole a member) resolved).elim

theorem MiProxy.Progress.servers_connected {good : Bytes → Prop} {q : MiProxy} {turns : List CallLog}
    {log : Option (List LogLine)} (connects : ∀ turn ∈ turns, ∀ h ∈ turn, ConnectsTo good h) {address : SockAddr}
    (member : address ∈ (Progress.running q turns log).servers) : good address.hostname := by
  obtain ⟨h, here, member⟩ := List.mem_flatMap.mp member
  obtain ⟨turn, listed, here⟩ := List.mem_flatten.mp here
  obtain ⟨action, done, same⟩ := List.mem_filterMap.mp member
  cases action with
  | connected fd address' =>
    cases same
    exact (connects turn listed h here fd address done).2
  | _ => cases same

def sampleSite : Nameserver.Environment := sampleEnvironment Geography.Plan.sample.contents

def sampleGeo : List Bytes := [text "nameserver", text "--geo", text "53", text "servers", text "log"]

def sampleDns : List Bytes :=
  [text "miProxy", text "--dns", text "8000", text "10.0.0.1", text "53", text "0.5", text "log"]

theorem proxy_follows_plan_sample : ∃ replies logged reply q turns log,
    Nameserver.main sampleSite sampleGeo ([sampleArrival domainName].map Arrival.attempt) = .ok (replies, logged) ∧
    replies[0]? = some reply ∧
    MiProxy.main sampleProxyEnvironment sampleDns reply sampleActivities = .ok (.running q turns log) ∧
    (Progress.running q turns log).servers = [{ hostname := text "10.0.0.2", port := 80 }] ∧
    Geography.Plan.sample.Chosen (text "10.0.0.1") (text "10.0.0.2") := by
  have target : (Nameserver.main sampleSite sampleGeo ([sampleArrival domainName].map Arrival.attempt) >>= fun served =>
      (MiProxy.main sampleProxyEnvironment sampleDns (served.1.headD []) sampleActivities).map fun progress =>
        (served.1.length, progress.servers)) = .ok (1, [{ hostname := text "10.0.0.2", port := 80 }]) := by decide +kernel
  obtain ⟨⟨replies, logged⟩, serves, target⟩ := bind_ok target
  obtain ⟨progress, ran, target⟩ := map_ok target
  obtain ⟨one, found⟩ := Prod.mk.inj target
  obtain ⟨reply, rfl⟩ := List.length_eq_one_iff.mp one
  cases progress with
  | returned status what => cases found
  | running q turns log =>
    refine ⟨[reply], logged, reply, q, turns, log, serves, rfl, ran, found, ?_⟩
    have parsed : atoi (text "53") = .ok 53 := by decide +kernel
    have ok : ∀ a ∈ [sampleArrival domainName], a.WellFormed :=
      List.forall_mem_singleton.mpr (sampleArrival_ok (by decide))
    have connected : [sampleArrival domainName][0]? = some (sampleArrival domainName) := rfl
    have up : sampleSite.Up 53 := ⟨rfl, rfl, rfl⟩
    have whole : ∀ a ∈ sampleActivities, a.recvs = [] := by simp [sampleActivities, sampleActivity]
    obtain ⟨-, connects⟩ := proxy_follows_plan sample_sound _ _ _ _ parsed up rfl Geography.Plan.sample.fields_contents ok
      serves connected rfl _ _ _ _ _ _ whole ran
    exact Progress.servers_connected connects (by rw [found]; exact List.mem_singleton_self _)

/-- With a nameserver started with `--rr`, the proxy connects its clients to the host whose turn it was when it asked. -/
theorem proxy_follows_rotation {site : Nameserver.Environment} {contents : Bytes}
    (program number servers logPath : Bytes) {port : Int} (parsed : atoi number = .ok port) (up : site.Up port)
    (file : site.files servers = some contents) (nonempty : Cpp.fields contents ≠ [])
    (fits : ∀ h ∈ Cpp.fields contents, Fits h) (short : ((Cpp.fields contents).length : Int) ≤ intMax)
    {arrivals : List Arrival} (ok : ∀ a ∈ arrivals, a.WellFormed) {replies : List Bytes} {logged : Option Bytes}
    (serves : Nameserver.main site [program, text "--rr", number, servers, logPath] (arrivals.map Arrival.attempt) =
      .ok (replies, logged))
    {i : Nat} {own : Arrival} {reply : Bytes} (connected : arrivals[i]? = some own)
    (said : replies[i]? = some reply)
    {env : MiProxy.Environment} (proxy listen dnsIp dnsPort weight path : Bytes) {activities : List Activity}
    (whole : ∀ a ∈ activities, a.recvs = []) {q : MiProxy} {turns : List CallLog} {log : Option (List LogLine)}
    (ran : MiProxy.main env [proxy, text "--dns", listen, dnsIp, dnsPort, weight, path] reply activities =
      .ok (.running q turns log)) :
    (∀ (ip : Bytes) (conn : Connection), q.clients[ip]? = some conn →
      (Cpp.fields contents)[(arrivals.take i).countP Arrival.valid % (Cpp.fields contents).length]? = some conn.wwwIp) ∧
    ∀ turn ∈ turns, ∀ h ∈ turn, ConnectsTo (fun address =>
      (Cpp.fields contents)[(arrivals.take i).countP Arrival.valid % (Cpp.fields contents).length]? = some address) h := by
  have words : ∀ h ∈ Cpp.fields contents, h ≠ [] := fun h member => of_decide_eq_true (List.mem_filter.mp member).2
  have servable : Servable (Cpp.fields contents) := ⟨nonempty, words, fits, short⟩
  have rotated : Rotated (Cpp.fields contents) 0 { mode := .RR, rr := { hosts := Cpp.fields contents } } :=
    ⟨rfl, rfl, by simp⟩
  obtain ⟨replies', ns, served, -, -, turn, -⟩ := serve_rotated servable rotated ok
  rw [main_started program number servers logPath (by decide) parsed up (balancer_rr port logPath file), served] at serves
  obtain ⟨rfl, -⟩ := Prod.mk.inj (Except.ok.inj serves)
  have answered := turn i own reply connected said
  rw [Served, Nat.zero_add] at answered
  refine @follows_reply (fun address => (Cpp.fields contents)[(arrivals.take i).countP Arrival.valid %
    (Cpp.fields contents).length]? = some address) (fun address here => fits address (List.mem_of_getElem? here))
    _ _ _ _ _ _ _ _ _ _ _ _ ?_ ran
  intro a member address s resolved
  split at answered
  · obtain ⟨host, here, answer⟩ := answered
    obtain ⟨rfl, empty⟩ := request_answer answer (fits host (List.mem_of_getElem? here)) (whole a member) resolved
    exact ⟨here, empty⟩
  · rw [answered] at resolved
    exact (request_refusal (whole a member) resolved).elim

def sampleHosts : Bytes := text "10.0.0.2\n10.0.0.3\n"

def sampleRr : List Bytes := [text "nameserver", text "--rr", text "53", text "servers", text "log"]

/-- The second of two queries is the proxy's. -/
theorem proxy_follows_rotation_sample : ∃ replies logged reply q turns log,
    Nameserver.main (sampleEnvironment sampleHosts) sampleRr ([sampleArrival domainName, sampleArrival domainName].map
      Arrival.attempt) = .ok (replies, logged) ∧ replies[1]? = some reply ∧
    MiProxy.main sampleProxyEnvironment sampleDns reply sampleActivities = .ok (.running q turns log) ∧
    ∃ address, (Progress.running q turns log).servers = [address] ∧ address.hostname = text "10.0.0.3" := by
  have target : (Nameserver.main (sampleEnvironment sampleHosts) sampleRr
      ([sampleArrival domainName, sampleArrival domainName].map Arrival.attempt) >>= fun served =>
      (MiProxy.main sampleProxyEnvironment sampleDns (served.1.getD 1 []) sampleActivities).map fun progress =>
        (served.1.length, progress.servers.length)) = .ok (2, 1) := by decide +kernel
  obtain ⟨⟨replies, logged⟩, serves, target⟩ := bind_ok target
  obtain ⟨progress, ran, target⟩ := map_ok target
  obtain ⟨two, found⟩ := Prod.mk.inj target
  obtain ⟨first, reply, rfl⟩ := List.length_eq_two.mp two
  cases progress with
  | returned status what => cases found
  | running q turns log =>
    obtain ⟨address, found⟩ := List.length_eq_one_iff.mp found
    refine ⟨[first, reply], logged, reply, q, turns, log, serves, rfl, ran, address, found, ?_⟩
    have parsed : atoi (text "53") = .ok 53 := by decide +kernel
    have hosts : Cpp.fields sampleHosts = [text "10.0.0.2", text "10.0.0.3"] := by decide +kernel
    have fits : ∀ h ∈ Cpp.fields sampleHosts, Fits h := by
      rw [hosts]
      exact List.forall_mem_cons.mpr ⟨⟨by decide, by decide⟩, List.forall_mem_singleton.mpr ⟨by decide, by decide⟩⟩
    have asks := sampleArrival_ok (show domainName.length < 100 by decide)
    have ok : ∀ a ∈ [sampleArrival domainName, sampleArrival domainName], a.WellFormed :=
      List.forall_mem_cons.mpr ⟨asks, List.forall_mem_singleton.mpr asks⟩
    have connected : [sampleArrival domainName, sampleArrival domainName][1]? = some (sampleArrival domainName) := rfl
    have up : (sampleEnvironment sampleHosts).Up 53 := ⟨rfl, rfl, rfl⟩
    have whole : ∀ a ∈ sampleActivities, a.recvs = [] := by simp [sampleActivities, sampleActivity]
    obtain ⟨-, connects⟩ := proxy_follows_rotation _ _ _ _ parsed up rfl (by rw [hosts]; decide) fits (by rw [hosts]; decide)
      ok serves connected rfl _ _ _ _ _ _ whole ran
    have turn := Progress.servers_connected connects (by rw [found]; exact List.mem_singleton_self _)
    rw [hosts] at turn
    exact (Option.some.inj turn).symm

end VStream
