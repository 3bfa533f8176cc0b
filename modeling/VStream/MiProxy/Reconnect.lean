import VStream.MiProxy.Forwarding
import VStream.MiProxy.Selection
import VStream.MiProxy.Session

/-!
# After a server has closed

The buffer for responses and the no-list message stay when a server closes, so
that what the next one sends is taken for the rest of an earlier response.
-/

namespace VStream
open Cpp Net Connection MiProxy

/-- One read for an entry, which is gone where its client is. -/
def take (alpha : ℚ) : Read → Option Connection → Exec (Option Connection × List Action)
  | _, none => .ok (none, [])
  | .client data calls, some conn => handleClientConnection (some data) calls conn
  | .server data calls, some conn =>
    if conn.serverSocket = -1 then .ok (some conn, [])
    else do
      let (next, _, actions) ← handleServerConnection alpha (some data) calls conn
      return (some next, actions)

def exchange (alpha : ℚ) : List Read → Option Connection → Exec (Option Connection × List Action)
  | [], entry => .ok (entry, [])
  | read :: reads, entry => do
    let (next, actions) ← take alpha read entry
    let (last, later) ← exchange alpha reads next
    return (last, actions ++ later)

def responses : List Action → List (Int × Bytes)
  | [] => []
  | .answered fd response :: rest => (fd, response) :: responses rest
  | _ :: rest => responses rest

/-- The next ordinary request of a client and the response to it, each in reads, where no call fails. -/
structure NextRequest (heard : Bytes) where
  request : Request
  response : Response
  asks : List (Bytes × RequestCalls)
  replies : List (Bytes × ResponseCalls)
  ordinary : noList request.bytes = none
  asked : heard ++ (asks.map Prod.fst).flatten = request.bytes
  replied : (replies.map Prod.fst).flatten = response.bytes
  willing : ∀ ask ∈ asks, ask.1 ≠ [] ∧ Willing ask.2
  smooth : ∀ reply ∈ replies, reply.1 ≠ [] ∧ Moves reply.2.sends

def asking (asks : List (Bytes × RequestCalls)) : List Read := asks.map fun ask => .client ask.1 ask.2
def replying (replies : List (Bytes × ResponseCalls)) : List Read := replies.map fun reply => .server reply.1 reply.2

/-- The server closes, and the next response is passed on byte for byte, with nothing of it left. -/
def Traceless (alpha : ℚ) (conn : Connection) (close : ResponseCalls) (n : NextRequest conn.clientMessage) : Prop :=
  ∃ last actions, exchange alpha (.server [] close :: (asking n.asks ++ replying n.replies)) (some conn) =
      .ok (some last, actions) ∧
    responses actions = [(conn.clientSocket, n.response.bytes)] ∧ last.serverMessage = [] ∧ last.serverMessageLen = 0

theorem responses_append (actions actions' : List Action) :
    responses (actions ++ actions') = responses actions ++ responses actions' := by
  induction actions with
  | nil => rfl
  | cons action actions ih => cases action <;> simp [responses, ih]

theorem exchange_append (alpha : ℚ) (reads reads' : List Read) (entry : Option Connection) :
    exchange alpha (reads ++ reads') entry = exchange alpha reads entry >>= fun first =>
      exchange alpha reads' first.1 >>= fun result => .ok (result.1, first.2 ++ result.2) := by
  induction reads generalizing entry with
  | nil =>
    change exchange alpha reads' entry = exchange alpha reads' entry >>= fun result => .ok (result.1, result.2)
    cases exchange alpha reads' entry <;> rfl
  | cons read reads ih =>
    rw [List.cons_append, exchange, exchange]
    simp only [ih, bind_assoc, ok_bind, pure_eq_ok, List.append_assoc]

/-! ### Between the messages -/

theorem find_blankLine_nil : find blankLine [] = none := by decide

/-- No length without a part of a response, and no whole request. -/
structure Connection.Between (conn : Connection) : Prop where
  length : conn.serverMessage = [] → conn.serverMessageLen = 0
  heard : find blankLine conn.clientMessage = none

theorem Connection.Hears.between {alpha : ℚ} {conn next : Connection} {m : Option Moment}
    (hears : Hears alpha conn m next) (between : conn.Between) : next.Between := by
  cases hears with
  | accepted newSocket => exact ⟨between.length, between.heard⟩
  | @client data calls next actions handled =>
    by_cases empty : data = []
    · subst empty
      cases handled
    · rcases handleClientConnection_ok empty handled with ⟨more, -, same⟩ | ⟨-, asked, acts, request, -, same⟩
      · cases same
        exact ⟨between.length, more⟩
      · obtain ⟨_, _, _, _, _, -, -, -, rfl⟩ := handleRequestMessage_ok request
        cases same
        exact ⟨between.length, find_blankLine_nil⟩
  | @server data calls next log actions connected handled =>
    by_cases empty : data = []
    · subst empty
      cases handled
      exact ⟨between.length, between.heard⟩
    · have part : conn.serverMessage ++ data ≠ [] := List.append_ne_nil_of_right_ne_nil _ empty
      obtain ⟨start, len, ⟨-, -, -, rfl⟩ | ⟨-, handled⟩⟩ := handleServerConnection_ok empty handled
      · exact ⟨fun none => absurd none part, between.heard⟩
      · rcases handleResponseMessage_ok handled with ⟨-, -, -, _, _, rfl⟩ | ⟨-, -, _, rfl⟩
        · exact ⟨fun _ => rfl, between.heard⟩
        · exact ⟨fun _ => rfl, between.heard⟩

theorem Connection.Heard.between {alpha : ℚ} {fd : Int} {ip wwwIp : Bytes} {conn : Connection}
    (run : Heard alpha (fresh fd ip wwwIp) conn) : conn.Between := by
  induction run with
  | refl => exact ⟨fun _ => rfl, find_blankLine_nil⟩
  | tail before hears ih =>
    obtain ⟨m, hears⟩ := hears
    exact hears.between ih

/-! ### The request -/

/-- The last read of the request makes the call for it. -/
theorem exchange_asking (alpha : ℚ) {conn : Connection} {asks : List (Bytes × RequestCalls)} {q : Request}
    (heard : find blankLine conn.clientMessage = none)
    (asked : conn.clientMessage ++ (asks.map Prod.fst).flatten = q.bytes)
    (willing : ∀ ask ∈ asks, ask.1 ≠ [] ∧ Willing ask.2) :
    ∃ calls before, Willing calls ∧ responses before = [] ∧ exchange alpha (asking asks) (some conn) =
      handleRequestMessage calls { conn with clientMessage := q.bytes } >>= fun result =>
        .ok (some result.1, before ++ result.2) := by
  induction asks generalizing conn with
  | nil =>
    rw [List.map_nil, List.flatten_nil, List.append_nil] at asked
    rw [asked] at heard
    exact absurd heard q.ends
  | cons ask asks ih =>
    obtain ⟨data, calls⟩ := ask
    obtain ⟨⟨some, fine⟩, later⟩ := List.forall_mem_cons.mp willing
    rw [List.map_cons, List.flatten_cons, ← List.append_assoc] at asked
    dsimp only at asked some
    have first : take alpha (.client data calls) (.some conn) = _ := handleClientConnection_eq calls conn some
    rw [asking, List.map_cons, exchange, first]
    dsimp only
    by_cases more : find blankLine (conn.clientMessage ++ data) = none
    · obtain ⟨calls, before, fine, quiet, rest⟩ :=
        @ih { conn with clientMessage := conn.clientMessage ++ data } more asked later
      rw [if_pos more, ok_bind]
      refine ⟨calls, .heard conn.clientSocket data :: before, fine, quiet, ?_⟩
      change (exchange alpha (asking asks) _ >>= _) = _
      rw [rest]
      cases handleRequestMessage calls { conn with clientMessage := q.bytes } <;> rfl
    · have last : asks = [] := by
        by_contra next
        obtain ⟨ask, asks, rfl⟩ := List.exists_cons_of_ne_nil next
        have nonempty := (later ask List.mem_cons_self).1
        exact more (q.find_blankLine_part asked.symm (by simp [nonempty]))
      subst last
      rw [List.map_nil, List.flatten_nil, List.append_nil] at asked
      rw [if_neg more, asked]
      refine ⟨calls, [.heard conn.clientSocket data], fine, rfl, ?_⟩
      cases handleRequestMessage calls { conn with clientMessage := q.bytes } with
      | error stop => rfl
      | ok result =>
        change Except.ok (Option.some result.1, (.heard conn.clientSocket data :: result.2) ++ []) = _
        rw [List.append_nil]
        rfl

/-! ### The response -/

def sent (actions : List Action) : Bytes := ((responses actions).map Prod.snd).flatten

theorem sent_append (actions actions' : List Action) : sent (actions ++ actions') = sent actions ++ sent actions' := by
  rw [sent, responses_append, List.map_append, List.flatten_append]
  rfl

section
variable {alpha : ℚ} {conn : Connection} {entry : Option Connection} {actions : List Action}

/-- What is read of a server is kept, passed on or taken for a manifest. -/
theorem take_reply {data : Bytes} {calls : ResponseCalls} (connected : conn.serverSocket ≠ -1) (some : data ≠ [])
    (taken : take alpha (.server data calls) (.some conn) = .ok (entry, actions)) :
    ∃ next, entry = .some next ∧ next.serverSocket = conn.serverSocket ∧
      (sent actions = [] ∧ next.serverMessage = conn.serverMessage ++ data ∧ next.noListMessage = conn.noListMessage ∨
      next.serverMessage = [] ∧ next.noListMessage = [] ∧
        (conn.noListMessage = [] ∧ sent actions = conn.serverMessage ++ data ∨
          conn.noListMessage ≠ [] ∧ sent actions = [])) := by
  rw [take, if_neg connected] at taken
  obtain ⟨⟨next, log, acts⟩, handled, taken⟩ := bind_ok taken
  cases taken
  obtain ⟨start, len, ⟨-, -, rfl, rfl⟩ | ⟨-, handled⟩⟩ := handleServerConnection_ok some handled
  · exact ⟨_, rfl, rfl, .inl ⟨rfl, rfl, rfl⟩⟩
  · rcases handleResponseMessage_ok handled with ⟨kept, -, rfl, _, _, rfl⟩ | ⟨plain, rfl, _, rfl⟩
    · exact ⟨_, rfl, rfl, .inr ⟨rfl, rfl, .inr ⟨kept, rfl⟩⟩⟩
    · exact ⟨_, rfl, rfl, .inr ⟨rfl, plain, .inl ⟨plain, List.append_nil _⟩⟩⟩

/-- Without a no-list message all that is read is passed on or still kept. -/
theorem exchange_conserves {replies : List (Bytes × ResponseCalls)} (connected : conn.serverSocket ≠ -1)
    (some : ∀ reply ∈ replies, reply.1 ≠ []) (plain : conn.noListMessage = [])
    (read : exchange alpha (replying replies) (.some conn) = .ok (entry, actions)) :
    ∃ last, entry = .some last ∧
      sent actions ++ last.serverMessage = conn.serverMessage ++ (replies.map Prod.fst).flatten := by
  induction replies generalizing conn actions with
  | nil =>
    cases read
    exact ⟨conn, rfl, (List.append_nil _).symm⟩
  | cons reply replies ih =>
    obtain ⟨⟨next, acts⟩, taken, read⟩ := bind_ok read
    obtain ⟨⟨last, later⟩, rest, read⟩ := bind_ok read
    cases read
    obtain ⟨nonempty, some'⟩ := List.forall_mem_cons.mp some
    obtain ⟨conn', rfl, same, reads⟩ := take_reply connected nonempty taken
    have connected' : conn'.serverSocket ≠ -1 := same ▸ connected
    rw [List.map_cons, List.flatten_cons, sent_append]
    rcases reads with ⟨quiet, kept, noList⟩ | ⟨empty, noList, ⟨-, passed⟩ | ⟨kept, -⟩⟩
    · obtain ⟨last, rfl, whole⟩ := ih connected' some' (noList.trans plain) rest
      exact ⟨last, rfl, by rw [quiet, List.nil_append, whole, kept, List.append_assoc]⟩
    · obtain ⟨last, rfl, whole⟩ := ih connected' some' noList rest
      exact ⟨last, rfl, by rw [passed, List.append_assoc, whole, empty, List.nil_append, List.append_assoc]⟩
    · exact absurd plain kept

/-- With one, the first response is not passed on. -/
theorem exchange_withholds {replies : List (Bytes × ResponseCalls)} (connected : conn.serverSocket ≠ -1)
    (some : ∀ reply ∈ replies, reply.1 ≠ []) (kept : conn.noListMessage ≠ [])
    (read : exchange alpha (replying replies) (.some conn) = .ok (entry, actions)) :
    ∃ last, entry = .some last ∧
      (last.serverMessage = conn.serverMessage ++ (replies.map Prod.fst).flatten ∨
        (sent actions).length < (replies.map Prod.fst).flatten.length) := by
  induction replies generalizing conn actions with
  | nil =>
    cases read
    exact ⟨conn, rfl, .inl (List.append_nil _).symm⟩
  | cons reply replies ih =>
    obtain ⟨⟨next, acts⟩, taken, read⟩ := bind_ok read
    obtain ⟨⟨last, later⟩, rest, read⟩ := bind_ok read
    cases read
    obtain ⟨nonempty, some'⟩ := List.forall_mem_cons.mp some
    obtain ⟨conn', rfl, same, reads⟩ := take_reply connected nonempty taken
    have positive := List.length_pos_iff.mpr nonempty
    have connected' : conn'.serverSocket ≠ -1 := same ▸ connected
    rw [List.map_cons, List.flatten_cons, sent_append]
    rcases reads with ⟨quiet, buffered, noList⟩ | ⟨empty, noList, ⟨plain, -⟩ | ⟨-, quiet⟩⟩
    · obtain ⟨last, rfl, whole | shorter⟩ := ih connected' some' (noList ▸ kept) rest
      · exact ⟨last, rfl, .inl (by rw [whole, buffered, List.append_assoc])⟩
      · refine ⟨last, rfl, .inr ?_⟩
        rw [quiet, List.nil_append, List.length_append]
        omega
    · exact absurd plain kept
    · obtain ⟨last, rfl, whole⟩ := exchange_conserves connected' some' noList rest
      refine ⟨last, rfl, .inr ?_⟩
      have total := congrArg List.length whole
      rw [empty, List.nil_append, List.length_append] at total
      rw [quiet, List.nil_append, List.length_append]
      omega

theorem handleResponseMessage_smooth (alpha : ℚ) {calls : ResponseCalls} (sends : Moves calls.sends)
    (plain : conn.noListMessage = []) : ∃ result, handleResponseMessage alpha calls conn = .ok result := by
  rcases handleResponseMessage_cases alpha calls (fun bad => bad.1 plain) with ⟨failed, -⟩ | ⟨-, answered⟩
  · rw [ResponseFails, if_neg (not_not.mpr plain)] at failed
    exact absurd failed (handOver_smooth sends _)
  · exact answered

theorem exchange_reply {data : Bytes} {calls : ResponseCalls} {replies : List (Bytes × ResponseCalls)}
    {next : Connection} {log : List LogLine} (connected : conn.serverSocket ≠ -1)
    (handled : handleServerConnection alpha (some data) calls conn = .ok (next, log, actions)) :
    exchange alpha (replying ((data, calls) :: replies)) (some conn) =
      exchange alpha (replying replies) (some next) >>= fun result => .ok (result.1, actions ++ result.2) := by
  rw [replying, List.map_cons, exchange, take, if_neg connected, handled]
  rfl

/-- Without a part of an earlier response and a no-list message, the response is passed on. -/
theorem exchange_answers {replies : List (Bytes × ResponseCalls)} {r : Response} (connected : conn.serverSocket ≠ -1)
    (smooth : ∀ reply ∈ replies, reply.1 ≠ [] ∧ Moves reply.2.sends) (plain : conn.noListMessage = [])
    (length : conn.serverMessageLen = r.known conn.serverMessage)
    (whole : r.bytes = conn.serverMessage ++ (replies.map Prod.fst).flatten)
    (more : (replies.map Prod.fst).flatten ≠ []) :
    ∃ last actions, exchange alpha (replying replies) (some conn) = .ok (some last, actions) ∧
      responses actions = [(conn.clientSocket, r.bytes)] ∧ last.serverMessage = [] ∧ last.serverMessageLen = 0 := by
  induction replies generalizing conn with
  | nil => exact absurd rfl more
  | cons reply replies ih =>
    obtain ⟨data, calls⟩ := reply
    obtain ⟨⟨some, sends⟩, smooth'⟩ := List.forall_mem_cons.mp smooth
    rw [List.map_cons, List.flatten_cons, ← List.append_assoc] at whole
    dsimp only at whole some sends
    have expected := r.expectedLen_part whole
    obtain ⟨start, handling⟩ := handleServerConnection_data alpha calls conn some
    rw [length] at handling
    have goOn : ∀ len, Waits (r.known conn.serverMessage) (conn.serverMessage ++ data) len →
        handleServerConnection alpha (.some data) calls conn =
          .ok ({ conn.seen start calls with
            serverMessage := conn.serverMessage ++ data, serverMessageLen := len }, [], []) →
        ∃ last actions, exchange alpha (replying ((data, calls) :: replies)) (.some conn) = .ok (.some last, actions) ∧
          responses actions = [(conn.clientSocket, r.bytes)] ∧ last.serverMessage = [] ∧ last.serverMessageLen = 0 := by
      intro len waits handled
      obtain ⟨known, more'⟩ := r.known_of_waits whole waits
      obtain ⟨last, actions, read, answered⟩ := @ih { conn.seen start calls with
        serverMessage := conn.serverMessage ++ data, serverMessageLen := len } connected smooth' plain known whole more'
      exact ⟨last, actions, by rw [exchange_reply connected handled, read]; rfl, answered⟩
    by_cases absent : find blankLine (conn.serverMessage ++ data) = none
    · rw [if_pos absent] at expected
      rw [expected, ok_bind] at handling
      refine goOn _ (.header expected) (handling.trans ?_)
      rw [← length]
      rfl
    · rw [if_neg absent] at expected
      rw [expected, ok_bind] at handling
      dsimp only at handling
      by_cases short : (conn.serverMessage ++ data).length < r.bytes.length
      · rw [if_pos short] at handling
        exact goOn _ (.body expected short) handling
      · have nothing := r.rest_of_complete whole ⟨_, expected, Nat.le_of_not_lt short⟩
        have last : replies = [] := by
          by_contra next
          obtain ⟨reply, replies, rfl⟩ := List.exists_cons_of_ne_nil next
          exact (smooth' reply List.mem_cons_self).1 (List.append_eq_nil_iff.mp nothing).1
        rw [nothing, List.append_nil] at whole
        rw [if_neg short] at handling
        obtain ⟨⟨next, log, actions⟩, handled⟩ : ∃ result,
            handleServerConnection alpha (.some data) calls conn = .ok result := by
          rw [handling]
          apply handleResponseMessage_smooth alpha sends
          exact plain
        rw [exchange_reply connected handled, last]
        rw [handling] at handled
        rcases handleResponseMessage_ok handled with ⟨kept, -⟩ | ⟨-, rfl, _, rfl⟩
        · exact absurd plain kept
        · exact ⟨_, _, rfl, by rw [whole]; rfl, rfl, rfl⟩

/-! ### What a server leaves behind -/

theorem request_asked {calls : RequestCalls} {next : Connection}
    (asked : handleRequestMessage calls conn = .ok (next, actions)) (ordinary : noList conn.clientMessage = none) :
    ¬ conn.Unlisted ∧ responses actions = [] ∧ next.serverSocket ≠ -1 ∧ next.clientSocket = conn.clientSocket ∧
      next.serverMessage = conn.serverMessage ∧ next.serverMessageLen = conn.serverMessageLen ∧
      next.noListMessage = conn.noListMessage := by
  obtain ⟨_, _, _, -, rfl, listed, -, -⟩ := handleRequestMessage_parts asked
  obtain ⟨serverSocket, opened, _, _, message, server, -, rfl, rfl⟩ := handleRequestMessage_ok asked
  obtain ⟨-, -, reached⟩ := Session.forwarded_only server 0 0 [] message
  refine ⟨listed, ?_, reached, rfl, rfl, rfl, by rw [ordinary]; rfl⟩
  cases server <;> rfl

/-- The reads after the close, by the call for the request and the run of the replies. -/
theorem exchange_closed (connected : conn.serverSocket ≠ -1) (close : ResponseCalls)
    (n : NextRequest conn.clientMessage) (between : conn.Between) :
    ∃ closed calls before, Willing calls ∧ responses before = [] ∧
      (∃ start, closed = { conn.seen start close with serverSocket := -1, clientMessage := n.request.bytes }) ∧
      exchange alpha (.server [] close :: (asking n.asks ++ replying n.replies)) (some conn) =
        handleRequestMessage calls closed >>= fun asked =>
          exchange alpha (replying n.replies) (some asked.1) >>= fun result =>
            .ok (result.1, before ++ asked.2 ++ result.2) := by
  obtain ⟨start, closing⟩ : ∃ start, take alpha (.server [] close) (some conn) =
      .ok (some { conn.seen start close with serverSocket := -1 }, [.serverClosed conn.serverSocket]) := by
    rw [take, if_neg connected]
    exact ⟨_, rfl⟩
  obtain ⟨calls, before, willing, quiet, asked⟩ :=
    @exchange_asking alpha { conn.seen start close with serverSocket := -1 } _ _ between.heard n.asked n.willing
  refine ⟨_, calls, .serverClosed conn.serverSocket :: before, willing, quiet, ⟨start, rfl⟩, ?_⟩
  rw [exchange, closing, ok_bind]
  dsimp only
  rw [exchange_append, asked]
  simp only [bind_assoc, ok_bind, pure_eq_ok]
  rfl

/-- A response that is passed on after a close meets no part of an earlier one and no no-list message. -/
theorem Traceless.clean {close : ResponseCalls} {n : NextRequest conn.clientMessage}
    (traceless : Traceless alpha conn close n) (connected : conn.serverSocket ≠ -1) (between : conn.Between) :
    conn.serverMessage = [] ∧ conn.noListMessage = [] ∧ (NamesChunk n.request.bytes → conn.availableBitrates ≠ []) := by
  obtain ⟨last, actions, ran, passed, empty, -⟩ := traceless
  obtain ⟨closed, calls, before, -, quiet, ⟨start, rfl⟩, run⟩ := @exchange_closed alpha conn connected close n between
  rw [run] at ran
  obtain ⟨⟨next, acts⟩, asked, ran⟩ := bind_ok ran
  obtain ⟨⟨entry, later⟩, read, ran⟩ := bind_ok ran
  cases ran
  obtain ⟨listed, quiet', connected', -, message, -, noListMessage⟩ := request_asked asked n.ordinary
  have stream : sent later = (n.replies.map Prod.fst).flatten := by
    rw [responses_append, responses_append, quiet, quiet', List.nil_append, List.nil_append] at passed
    rw [sent, passed, n.replied]
    exact List.append_nil _
  have some : ∀ reply ∈ n.replies, reply.1 ≠ [] := fun reply member => (n.smooth reply member).1
  by_cases plain : conn.noListMessage = []
  · obtain ⟨_, same, whole⟩ := exchange_conserves connected' some (noListMessage.trans plain) read
    cases same
    rw [empty, List.append_nil, stream, message] at whole
    have total := congrArg List.length whole
    rw [List.length_append] at total
    refine ⟨List.length_eq_zero_iff.mp (by dsimp only [seen] at total; omega), plain, ?_⟩
    exact fun names none => listed ⟨names, none⟩
  · obtain ⟨_, same, whole | shorter⟩ := exchange_withholds connected' some (by rw [noListMessage]; exact plain) read
    · cases same
      rw [empty, n.replied] at whole
      exact absurd (List.append_eq_nil_iff.mp whole.symm).2 n.response.bytes_ne_nil
    · rw [stream] at shorter
      exact absurd shorter (lt_irrefl _)

/-- A server leaves no trace exactly where it has left no part of a response and no no-list message waits for one, and a
chunk is asked for only where bitrates are known. -/
theorem traceless_iff {fd : Int} {ip wwwIp : Bytes} (run : Heard alpha (fresh fd ip wwwIp) conn)
    (connected : conn.serverSocket ≠ -1) (close : ResponseCalls) (n : NextRequest conn.clientMessage) :
    Traceless alpha conn close n ↔ conn.serverMessage = [] ∧ conn.noListMessage = [] ∧
      (NamesChunk n.request.bytes → conn.availableBitrates ≠ []) := by
  have between := run.between
  constructor
  · intro traceless
    exact traceless.clean connected between
  · rintro ⟨empty, plain, listed⟩
    obtain ⟨closed, calls, before, willing, quiet, ⟨start, here⟩, whole⟩ :=
      @exchange_closed alpha conn connected close n between
    have listed' : ¬ closed.Unlisted := by
      rw [here]
      exact fun unlisted => listed unlisted.1 unlisted.2
    rcases handleRequestMessage_cases calls listed' with ⟨failed, -⟩ | ⟨-, ⟨next, acts⟩, asked⟩
    · exact absurd failed (willing.fine closed)
    subst here
    obtain ⟨-, quiet', connected', socket, message, length, noListMessage⟩ := request_asked asked n.ordinary
    have nothing : next.serverMessage = [] := message.trans empty
    have known : next.serverMessageLen = n.response.known next.serverMessage := by
      rw [nothing, Dialogue.known_nil, length]
      exact between.length empty
    have more : (n.replies.map Prod.fst).flatten ≠ [] := by
      rw [n.replied]
      exact n.response.bytes_ne_nil
    obtain ⟨last, later, read, answered, done⟩ := exchange_answers connected' n.smooth (noListMessage.trans plain) known
      (by rw [nothing, n.replied]; rfl) more
    refine ⟨last, before ++ acts ++ later, ?_, ?_, done⟩
    · rw [whole, asked, ok_bind, read]
      rfl
    · rw [responses_append, responses_append, quiet, quiet', answered, socket]
      rfl

end

def nextPage : NextRequest [] where
  request := Session.samplePageAsked
  response := Response.samplePage
  asks := [(Session.samplePageAsked.bytes, { socket := 6 })]
  replies := [(Response.samplePage.bytes.take 20, {}), (Response.samplePage.bytes.drop 20, {})]
  ordinary := by decide +kernel
  asked := by decide +kernel
  replied := by decide +kernel
  willing := by
    intro ask member
    obtain rfl := List.mem_singleton.mp member
    exact ⟨by decide +kernel, ⟨by decide, rfl, rfl, Moves.nil⟩⟩
  smooth := by
    intro reply member
    simp only [List.mem_cons, List.not_mem_nil, or_false] at member
    rcases member with rfl | rfl
    · exact ⟨by decide +kernel, Moves.nil⟩
    · exact ⟨by decide +kernel, Moves.nil⟩

theorem traceless_iff_sample : Traceless 1 listed {} nextPage ↔ listed.serverMessage = [] ∧ listed.noListMessage = [] ∧
    (NamesChunk Session.samplePageAsked.bytes → listed.availableBitrates ≠ []) :=
  traceless_iff heard_listed (by decide) {} nextPage

def brokenOff : Connection :=
  { listed with serverMessage := text "HTTP/1.1 200 OK\r\nContent-Length: 5\r\n\r\nhe", serverMessageLen := 43 }

theorem heard_brokenOff : Heard 1 (fresh 4 [] []) brokenOff := by
  have handled : handleServerConnection 1 (some brokenOff.serverMessage) {} listed = .ok (brokenOff, [], []) := by
    decide +kernel
  exact .tail heard_listed ⟨_, .server (by decide) handled⟩

/-- Neither behind a part of a response nor behind a manifest request does a page reach the client. -/
theorem trace_left : ¬ Traceless 1 brokenOff {} nextPage ∧ ¬ Traceless 1 awaiting {} nextPage ∧
    ¬ ∀ (alpha : ℚ) (fd : Int) (ip wwwIp : Bytes) (conn : Connection), Heard alpha (fresh fd ip wwwIp) conn →
      conn.serverSocket ≠ -1 → ∀ (close : ResponseCalls) (n : NextRequest conn.clientMessage),
        (NamesChunk n.request.bytes → conn.availableBitrates ≠ []) → Traceless alpha conn close n := by
  have buffered : ¬ Traceless 1 brokenOff {} nextPage := by
    intro traceless
    exact absurd (traceless.clean (by decide) heard_brokenOff.between).1 (by decide +kernel)
  refine ⟨buffered, ?_, fun always => ?_⟩
  · intro traceless
    have pending : Heard 1 (fresh 4 [] []) awaiting := .single ⟨_, .client manifest_asked⟩
    exact absurd (traceless.clean (by decide) pending.between).2.1 (by decide +kernel)
  · exact buffered (always _ _ _ _ _ heard_brokenOff (by decide) {} nextPage (by decide +kernel))

end VStream
