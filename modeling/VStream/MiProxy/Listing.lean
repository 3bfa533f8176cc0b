import VStream.MiProxy.Chunks
import VStream.MiProxy.Descriptors

/-!
# When a client has bitrates

The first element of the bitrates is read for every request that names a chunk.
There is one exactly when a manifest has been parsed since the entry of the
client was made; the end of the client takes the entry away with its bitrates.
-/

namespace VStream
open Cpp Net Connection MiProxy
open Std (TreeMap)

def Action.closes : Action → Bool
  | .clientClosed _ => true
  | _ => false

/-- What was done for a client since its entry was made. -/
def since (before actions : List Action) : List Action :=
  if actions.any Action.closes then [] else before ++ actions

/-- The proxies that runs lead to, with what was done for each address. -/
inductive Reached : MiProxy → (Bytes → List Action) → Prop where
  | start {p : MiProxy} (empty : ∀ ip : Bytes, p.clients[ip]? = none) : Reached p fun _ => []
  | call {p p' : MiProxy} {done : Bytes → List Action} {e : Event} {actions : List Action} (before : Reached p done)
      (handled : p.dispatch e = .ok (p', actions)) :
      Reached p' (Function.update done e.ip (since (done e.ip) actions))

def Listed (actions : List Action) : Prop := ∃ fd message, .intercepted fd message ∈ actions

/-- No message makes `parse_bitrate` read an element that is not there. -/
def Connection.Safe (conn : Connection) : Prop :=
  ∀ clientMessage, ({ conn with clientMessage } : Connection).parseBitrate ≠ .error .undefined

def chunkMessage : Bytes := text "GET /vod/10Seg1-Frag2 HTTP/1.1\r\n\r\n"

theorem chunkMessage_names : NamesChunk chunkMessage := by decide +kernel

theorem Connection.safe_iff (conn : Connection) : conn.Safe ↔ conn.availableBitrates ≠ [] := by
  constructor
  · intro safe none
    apply safe chunkMessage
    have unlisted : ({ conn with clientMessage := chunkMessage } : Connection).Unlisted := ⟨chunkMessage_names, none⟩
    rw [parseBitrate_eq, if_pos unlisted]
  · intro some clientMessage
    have listed : ¬ ({ conn with clientMessage } : Connection).Unlisted := fun unlisted => some unlisted.2
    rw [parseBitrate_eq, if_neg listed]
    intro undefined
    cases undefined

/-! ### The history of an entry -/

theorem listed_since {before actions : List Action} (stays : actions.any Action.closes = false) :
    Listed (since before actions) ↔ Listed before ∨ Listed actions := by
  rw [since, if_neg (Bool.not_eq_true _ ▸ stays)]
  simp only [Listed, List.mem_append, exists_or]

theorem dispatch_intercepted {p p' : MiProxy} {e : Event} {actions : List Action} (h : p.dispatch e = .ok (p', actions))
    (manifest : Listed actions) : ∃ conn, p'.clients[e.ip]? = some conn ∧ conn.availableBitrates ≠ [] := by
  obtain ⟨fd, message, member⟩ := manifest
  cases e with
  | accept newSocket ip dns =>
    cases dispatch_step h with
    | idle nothing => exact absurd member List.not_mem_nil
    | replaced valid entry => simp at member
    | added valid absent => simp at member
  | client ip read calls =>
    cases dispatch_step h with
    | idle nothing => exact absurd member List.not_mem_nil
    | clientLeft entry => simp at member
    | heard entry some more => simp at member
    | requested entry some ended server rewritten => cases server <;> simp at member
  | server ip read calls =>
    simp only [dispatch] at h
    cases entry : p.clients[ip]? with
    | none =>
      rw [entry] at h
      cases h
      exact absurd member List.not_mem_nil
    | some conn =>
      rw [entry] at h
      dsimp only at h
      split at h
      · cases h
        exact absurd member List.not_mem_nil
      obtain ⟨⟨conn', log, acts⟩, handled, h⟩ := bind_ok h
      cases h
      refine ⟨conn', store_here p ip conn', ?_⟩
      rcases read with _ | _ | ⟨c, data⟩
      · cases handled
      · cases handled
        simp at member
      · obtain ⟨start, len, ⟨-, -, rfl, -⟩ | ⟨-, handled⟩⟩ :=
          handleServerConnection_ok (List.cons_ne_nil c data) handled
        · exact absurd member List.not_mem_nil
        · rcases handleResponseMessage_parts handled with ⟨-, rest, bitrates, parsed, rfl, rfl, rfl⟩ | ⟨-, rfl, -⟩
          · exact (manifestBitrates_ok parsed).1
          · simp at member

/-- The entries have bitrates where they should. -/
structure Listings (p : MiProxy) (done : Bytes → List Action) : Prop where
  keyed : p.Keyed
  absent : ∀ ip : Bytes, p.clients[ip]? = none → done ip = []
  listed : ∀ (ip : Bytes) (conn : Connection), p.clients[ip]? = some conn → (conn.availableBitrates ≠ [] ↔ Listed (done ip))

theorem Listings.store {p : MiProxy} {done : Bytes → List Action} (listings : Listings p done) {ip : Bytes}
    {conn : Connection} {actions : List Action} {log : List LogLine} (keyed : (p.store ip conn).Keyed)
    (listed : conn.availableBitrates ≠ [] ↔ Listed actions) :
    Listings { p.store ip conn with log } (Function.update done ip actions) where
  keyed := keyed
  absent other entry := by
    by_cases here : other = ip
    · subst here
      exact absurd ((p.store_here other conn).symm.trans entry) (Option.some_ne_none conn)
    · rw [Function.update_of_ne here]
      exact listings.absent other ((p.store_other conn here).symm.trans entry)
  listed other conn' entry := by
    by_cases here : other = ip
    · subst here
      obtain rfl := Option.some.inj ((p.store_here other conn).symm.trans entry)
      rw [Function.update_self]
      exact listed
    · rw [Function.update_of_ne here]
      exact listings.listed other conn' ((p.store_other conn here).symm.trans entry)

theorem Listings.erase {p : MiProxy} {done : Bytes → List Action} (listings : Listings p done) (ip : Bytes) :
    Listings { p with clients := p.clients.erase ip } (Function.update done ip []) where
  keyed := listings.keyed.erase ip
  absent other entry := by
    by_cases here : other = ip
    · subst here
      exact Function.update_self ..
    · rw [Function.update_of_ne here]
      rw [TreeMap.getElem?_erase, if_neg (by simpa using Ne.symm here)] at entry
      exact listings.absent other entry
  listed other conn entry := by
    by_cases here : other = ip
    · subst here
      simp at entry
    · rw [Function.update_of_ne here]
      rw [TreeMap.getElem?_erase, if_neg (by simpa using Ne.symm here)] at entry
      exact listings.listed other conn entry

theorem Listings.call {p p' : MiProxy} {done : Bytes → List Action} (listings : Listings p done) {e : Event}
    {actions : List Action} (h : p.dispatch e = .ok (p', actions)) :
    Listings p' (Function.update done e.ip (since (done e.ip) actions)) := by
  have step := dispatch_step h
  have keyed := listings.keyed.step step
  -- what a step does to an entry it keeps, apart from a manifest
  have kept : ∀ {ip : Bytes} {conn conn' : Connection}, p.clients[ip]? = some conn →
      conn'.availableBitrates = conn.availableBitrates → actions.any Action.closes = false → ¬ Listed actions →
      (conn'.availableBitrates ≠ [] ↔ Listed (since (done ip) actions)) := by
    intro ip conn conn' entry same stays plain
    rw [same, listed_since stays, or_iff_left plain]
    exact listings.listed ip conn entry
  cases step with
  | idle nothing =>
    have nothing : since (done e.ip) [] = done e.ip := List.append_nil _
    rw [nothing, Function.update_eq_self]
    exact listings
  | replaced valid entry =>
    exact listings.store keyed (kept entry rfl rfl (by simp [Listed]))
  | @added newSocket ip dns wwwIp valid absent =>
    apply listings.store keyed
    dsimp only [Event.ip]
    rw [listings.absent ip absent]
    simp [since, Listed]
  | @clientLeft ip calls conn entry =>
    rw [listings.keyed ip conn entry]
    exact listings.erase ip
  | heard entry some more =>
    exact listings.store keyed (kept entry rfl rfl (by simp [Listed]))
  | requested entry some ended server rewritten =>
    apply listings.store keyed
    apply kept entry rfl
    · cases server <;> rfl
    · cases server <;> simp [Listed]
  | serverLeft entry connected =>
    exact listings.store keyed (kept entry rfl rfl (by simp [Listed]))
  | receiving entry connected some waits =>
    exact listings.store keyed (kept entry rfl rfl (by simp [Listed]))
  | @intercepted ip data calls conn start availableBitrates currentThroughput entry connected some complete kept' =>
    have manifest : Listed [.intercepted conn.serverSocket conn.noListMessage] := ⟨_, _, List.mem_singleton_self _⟩
    obtain ⟨conn', here, bitrates⟩ := dispatch_intercepted h manifest
    obtain rfl := Option.some.inj ((store_here p ip _).symm.trans here)
    apply listings.store keyed
    rw [listed_since rfl]
    exact iff_of_true bitrates (.inr manifest)
  | answered entry connected some complete plain =>
    exact listings.store keyed (kept entry rfl rfl (by simp [Listed]))

theorem Reached.listings {p : MiProxy} {done : Bytes → List Action} (reached : Reached p done) : Listings p done := by
  induction reached with
  | start empty =>
    refine ⟨?_, fun ip _ => rfl, ?_⟩
    · intro ip conn entry
      exact absurd (entry.symm.trans (empty ip)) (Option.some_ne_none conn)
    · intro ip conn entry
      exact absurd (entry.symm.trans (empty ip)) (Option.some_ne_none conn)
  | call before handled ih => exact ih.call handled

/-- In every state that a run leads to, a client can ask for anything exactly when it has had a manifest since its
entry was made. -/
theorem safe_iff_listed {p : MiProxy} {done : Bytes → List Action} (reached : Reached p done) {ip : Bytes}
    {conn : Connection} (entry : p.clients[ip]? = some conn) : conn.Safe ↔ Listed (done ip) := by
  rw [conn.safe_iff]
  exact reached.listings.listed ip conn entry

theorem sample_reached : Reached Process.sampleAccepted.proxy
    (Function.update (fun _ => []) Process.sampleIp [.accepted 5]) :=
  .call (.start Process.sampleStart_started.empty) Process.sample_accept.handled

/-- The state behind these calls, with what was done for each address. -/
def history (p : MiProxy) (done : Bytes → List Action) : List Event → Exec (MiProxy × (Bytes → List Action))
  | [] => .ok (p, done)
  | e :: es => do
    let (p', actions) ← p.dispatch e
    history p' (Function.update done e.ip (since (done e.ip) actions)) es

theorem Reached.history {p p' : MiProxy} {done done' : Bytes → List Action} {es : List Event} (reached : Reached p done)
    (ran : history p done es = .ok (p', done')) : Reached p' done' := by
  induction es generalizing p done with
  | nil =>
    cases ran
    exact reached
  | cons e es ih =>
    obtain ⟨⟨m, actions⟩, handled, ran⟩ := bind_ok ran
    exact ih (reached.call handled) ran

def listedMessage : Bytes := text "GET /vod/big_buck_bunny_nolist.f4m HTTP/1.1\r\n\r\n"

/-- A client asks for a manifest and gets it, and another one comes. -/
def sampleManifestCalls : List Event :=
  [.accept 5 Process.sampleIp (.ok []),
    .client Process.sampleIp (some (text "GET /vod/big_buck_bunny.f4m HTTP/1.1\r\n\r\n")) { socket := 6 },
    .server Process.sampleIp (some (text
      "HTTP/1.1 200 OK\r\nContent-Type: text/xml\r\nContent-Length: 14\r\n\r\nbitrate=\"500\"\n")) {},
    .accept 7 (text "10.0.0.2") (.ok [])]

/-- Where the manifest has been read a client is safe, and where none has it is not. -/
theorem safe_iff_listed_sample : ∃ p done, ∃ conn conn' : Connection, Reached p done ∧
    p.clients[Process.sampleIp]? = some conn ∧ Listed (done Process.sampleIp) ∧ conn.Safe ∧
    p.clients[text "10.0.0.2"]? = some conn' ∧ ¬Listed (done (text "10.0.0.2")) ∧ ¬conn'.Safe := by
  have ran : (history Process.sampleStart.proxy (fun _ => []) sampleManifestCalls).map (fun result =>
      ((result.2 Process.sampleIp).getLast?, result.2 (text "10.0.0.2"), result.1.clients[Process.sampleIp]?.isSome,
        result.1.clients[text "10.0.0.2"]?.isSome)) =
      .ok (some (.intercepted 6 listedMessage), [.accepted 7], true, true) := by decide +kernel
  obtain ⟨⟨p, done⟩, run, seen⟩ := map_ok ran
  obtain ⟨last, accepted, here, there⟩ := (Prod.mk.inj seen).imp id fun rest => (Prod.mk.inj rest).imp id Prod.mk.inj
  obtain ⟨conn, entry⟩ := Option.isSome_iff_exists.mp here
  obtain ⟨conn', entry'⟩ := Option.isSome_iff_exists.mp there
  have reached : Reached p done := (Reached.start Process.sampleStart_started.empty).history run
  have listed : Listed (done Process.sampleIp) := ⟨_, _, List.mem_of_getLast? last⟩
  have unlisted : ¬Listed (done (text "10.0.0.2")) := by
    rintro ⟨fd, message, member⟩
    rw [show done (text "10.0.0.2") = _ from accepted] at member
    cases List.mem_singleton.mp member
  exact ⟨p, done, conn, conn', reached, entry, listed, (safe_iff_listed reached entry).mpr listed, entry', unlisted,
    fun safe => unlisted ((safe_iff_listed reached entry').mp safe)⟩

/-- A client whose first request names a chunk. -/
theorem chunk_before_manifest :
    (Process.sampleAccepted.proxy.dispatch (.client Process.sampleIp (some chunkMessage) { socket := 6 })).map Prod.snd =
      .error .undefined ∧
    ¬ ∀ (p : MiProxy) (done : Bytes → List Action), Reached p done →
      ∀ (ip : Bytes) (conn : Connection), p.clients[ip]? = some conn → conn.Safe := by
  constructor
  · decide +kernel
  · intro always
    have safe := always _ _ sample_reached Process.sampleIp (Process.sampleClient 5) (store_here _ _ _)
    exact (safe_iff _).mp safe rfl

end VStream
