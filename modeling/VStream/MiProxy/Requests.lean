import VStream.Http.Request
import VStream.MiProxy.Chunks

/-!
# Requests for chunks and manifests

Which requests `parse_bitrate` and `handle_request_message` change, and where.
-/

namespace VStream
open Cpp Net Http Connection MiProxy

namespace Cpp

def Digits (s : Bytes) : Prop := s ≠ [] ∧ ∀ c ∈ s, isDigit c = true

theorem Digits.absent {s : Bytes} (digits : Digits s) {c : UInt8} (other : isDigit c = false) : c ∉ s := by
  intro member
  rw [digits.2 c member] at other
  cases other

theorem signed_absent {c : UInt8} (other : isDigit c = false) (minus : c ≠ 45) (n : Int) : c ∉ signed n := by
  unfold signed
  split
  · rw [List.mem_cons, not_or]
    exact ⟨minus, byte_absent other _⟩
  · exact byte_absent other _

theorem stretch_zero {front : Bytes} (rest : Bytes) {n : Nat} (length : front.length = n) (fits : n < npos) :
    stretch (front ++ rest) 0 n = front := by
  rw [stretch, if_neg (by omega), List.drop_zero, List.take_left' length]

end Cpp

def version : Bytes := text " HTTP/1.1"

theorem version_eq : version = [32, 72, 84, 84, 80, 47, 49, 46, 49] := by decide

/-- A request for a chunk: method and directory, the bitrate, the numbers of segment and fragment, and what follows
the version. -/
structure ChunkRequest where
  directory : Bytes
  bitrate : Bytes
  segment : Bytes
  fragment : Bytes
  rest : Bytes
  plain : find version directory = none
  digits : Digits bitrate
  segmentDigits : Digits segment
  fragmentDigits : Digits fragment

namespace ChunkRequest

/-- The name of the chunk at a bitrate. -/
def name (q : ChunkRequest) (br : Bytes) : Bytes := br ++ text "Seg" ++ q.segment ++ text "-Frag" ++ q.fragment

def front (q : ChunkRequest) (br : Bytes) : Bytes := q.directory ++ text "/" ++ q.name br

/-- The request at a bitrate. -/
def withText (q : ChunkRequest) (br : Bytes) : Bytes := q.front br ++ version ++ q.rest

def bytes (q : ChunkRequest) : Bytes := q.withText q.bitrate

variable (q : ChunkRequest)

theorem name_length (br : Bytes) : (q.name br).length = br.length + 3 + q.segment.length + 5 + q.fragment.length := by
  simp only [name, List.length_append]
  rfl

theorem front_length (br : Bytes) : (q.front br).length = q.directory.length + 1 + (q.name br).length := by
  simp only [front, List.length_append]
  rfl

theorem withText_length (br : Bytes) : (q.withText br).length = (q.front br).length + 9 + q.rest.length := by
  simp only [withText, List.length_append]
  rfl

variable {br : Bytes}

theorem name_absent {c : UInt8} (other : isDigit c = false) (letters : c ∉ text "Seg" ++ text "-Frag")
    (absent : c ∉ br) :
    c ∉ q.name br := by
  rw [List.mem_append, not_or] at letters
  simp only [name, List.mem_append, not_or]
  exact ⟨⟨⟨⟨absent, letters.1⟩, q.segmentDigits.absent other⟩, letters.2⟩, q.fragmentDigits.absent other⟩

/-- No end of the version is the start of the name, which has no dot. -/
theorem version_apart (dot : 46 ∉ br) (rest : Bytes) : Apart version (text "/" ++ q.name br ++ rest) := by
  have shape : text "/" ++ q.name br ++ rest =
      47 :: (br ++ 83 :: (text "eg" ++ q.segment ++ text "-Frag" ++ q.fragment ++ rest)) := by
    rw [show text "/" = [47] by decide, name, show text "Seg" = 83 :: text "eg" by decide]
    simp only [List.append_assoc, List.cons_append, List.nil_append]
  rw [shape, version_eq]
  intro k inside some here
  rw [show ([32, 72, 84, 84, 80, 47, 49, 46, 49] : Bytes).length = 9 from rfl] at inside
  interval_cases k <;> simp only [List.drop_succ_cons, List.drop_zero, List.cons_prefix_cons] at here
  · exact absurd here.1 (by decide)
  · exact absurd here.1 (by decide)
  · exact absurd here.1 (by decide)
  · exact absurd here.1 (by decide)
  · obtain ⟨-, here⟩ := here
    match br, dot with
    | [], _ => exact absurd (List.cons_prefix_cons.mp here).1 (by decide)
    | [c], _ => exact absurd (List.cons_prefix_cons.mp (List.cons_prefix_cons.mp here).2).1 (by decide)
    | c :: d :: br, dot =>
      obtain rfl := (List.cons_prefix_cons.mp (List.cons_prefix_cons.mp here).2).1
      exact dot (by simp)
  · exact absurd here.1 (by decide)
  · exact absurd here.1 (by decide)
  · exact absurd here.1 (by decide)

theorem find_version (blank : 32 ∉ br) (dot : 46 ∉ br) :
    find version (q.withText br) = some (q.front br).length := by
  have absent : 32 ∉ text "/" ++ q.name br := by
    rw [List.mem_append, not_or]
    exact ⟨by decide, q.name_absent (by decide) (by decide) blank⟩
  have here : find version ((text "/" ++ q.name br) ++ (version ++ q.rest)) = some (text "/" ++ q.name br).length :=
    find_first absent (List.prefix_append _ _)
  have found := find_some_apart (q.version_apart dot (version ++ q.rest)) q.plain here
  rw [withText, front, List.append_assoc, List.append_assoc, List.append_assoc, ← List.append_assoc (text "/"), found,
    ← List.length_append, ← List.append_assoc]

theorem frontOf_bytes (fits : q.bytes.length ≤ maxSize) : frontOf q.bytes = q.front q.bitrate := by
  have length := q.withText_length q.bitrate
  have found := q.find_version (q.digits.absent (c := 32) (by decide)) (q.digits.absent (c := 46) (by decide))
  unfold maxSize at fits
  rw [frontOf, ← version, bytes, found, withText, List.append_assoc]
  apply stretch_zero _ rfl
  change (q.withText q.bitrate).length ≤ _ at fits
  unfold npos
  omega

theorem pathStart_bytes (fits : q.bytes.length ≤ maxSize) : pathStart q.bytes = q.directory.length := by
  have absent : 47 ∉ q.name q.bitrate := q.name_absent (by decide) (by decide) (q.digits.absent (by decide))
  have here : rfind (text "/") (text "/" ++ q.name q.bitrate) = some 0 := by
    rw [show text "/" = [47] by decide]
    exact rfind_head List.nil_prefix absent
  rw [pathStart, q.frontOf_bytes fits, front, List.append_assoc, rfind_append _ here]
  rfl

theorem segStart_bytes (fits : q.bytes.length ≤ maxSize) :
    segStart q.bytes = q.directory.length + 1 + q.bitrate.length := by
  have absent : 83 ∉ text "eg" ++ q.segment ++ text "-Frag" ++ q.fragment := by
    simp only [List.mem_append, not_or]
    exact ⟨⟨⟨by decide, q.segmentDigits.absent (by decide)⟩, by decide⟩, q.fragmentDigits.absent (by decide)⟩
  have here : rfind (text "Seg") (text "Seg" ++ q.segment ++ text "-Frag" ++ q.fragment) = some 0 := by
    rw [show text "Seg" = 83 :: text "eg" by decide]
    simp only [List.cons_append]
    refine rfind_head ?_ absent
    simp only [List.append_assoc]
    exact List.prefix_append _ _
  have shape : q.front q.bitrate = (q.directory ++ text "/" ++ q.bitrate) ++
      (text "Seg" ++ q.segment ++ text "-Frag" ++ q.fragment) := by
    simp only [front, name, List.append_assoc]
  rw [segStart, q.frontOf_bytes fits, shape, rfind_append _ here]
  simp only [sizeT, Option.getD_some, List.length_append]
  rfl

theorem fragStart_bytes (fits : q.bytes.length ≤ maxSize) :
    fragStart q.bytes = q.directory.length + 1 + q.bitrate.length + 3 + q.segment.length := by
  have absent : 45 ∉ text "Frag" ++ q.fragment := by
    simp only [List.mem_append, not_or]
    exact ⟨by decide, q.fragmentDigits.absent (by decide)⟩
  have here : rfind (text "-Frag") (text "-Frag" ++ q.fragment) = some 0 := by
    rw [show text "-Frag" = 45 :: text "Frag" by decide]
    exact rfind_head (List.prefix_append _ _) absent
  have shape : q.front q.bitrate = (q.directory ++ text "/" ++ q.bitrate ++ text "Seg" ++ q.segment) ++
      (text "-Frag" ++ q.fragment) := by
    simp only [front, name, List.append_assoc]
  rw [fragStart, q.frontOf_bytes fits, shape, rfind_append _ here]
  simp only [sizeT, Option.getD_some, List.length_append]
  rfl

theorem names_bytes (fits : q.bytes.length ≤ maxSize) : NamesChunk q.bytes := by
  have front := q.withText_length q.bitrate
  have length := q.front_length q.bitrate
  have name := q.name_length q.bitrate
  have some : 0 < q.bitrate.length := List.length_pos_iff.mpr q.digits.1
  have some' : 0 < q.segment.length := List.length_pos_iff.mpr q.segmentDigits.1
  change (q.withText q.bitrate).length ≤ _ at fits
  unfold NamesChunk
  rw [q.pathStart_bytes fits, q.segStart_bytes fits, q.fragStart_bytes fits]
  unfold maxSize at fits
  rw [sizeSub_of_le (by omega) (by omega), sizeSub_of_le (by omega) (by omega)]
  unfold npos
  omega

theorem withBitrate_bytes (fits : q.bytes.length ≤ maxSize) (br : Int) :
    withBitrate q.bytes br = q.withText (signed br) := by
  have whole := q.withText_length q.bitrate
  have old := q.front_length q.bitrate
  have path : sizeAdd q.directory.length 1 = (q.directory ++ text "/").length := by
    change (q.withText q.bitrate).length ≤ _ at fits
    unfold maxSize at fits
    rw [sizeAdd, Nat.mod_eq_of_lt (by omega), List.length_append]
    rfl
  have short : (q.directory ++ text "/").length < npos := by
    change (q.withText q.bitrate).length ≤ _ at fits
    unfold maxSize at fits
    unfold npos
    rw [List.length_append, show (text "/").length = 1 from rfl]
    omega
  have before : stretch q.bytes 0 (q.directory ++ text "/").length = q.directory ++ text "/" := by
    rw [bytes, withText, front, List.append_assoc, List.append_assoc]
    exact stretch_zero _ rfl short
  have behind : stretch q.bytes (q.directory.length + 1 + q.bitrate.length) npos =
      text "Seg" ++ q.segment ++ text "-Frag" ++ q.fragment ++ version ++ q.rest := by
    have shape : q.bytes = (q.directory ++ text "/" ++ q.bitrate) ++
        (text "Seg" ++ q.segment ++ text "-Frag" ++ q.fragment ++ version ++ q.rest) := by
      simp only [bytes, withText, front, name, List.append_assoc]
    rw [stretch, if_pos rfl, shape]
    apply List.drop_left'
    simp only [List.length_append]
    rfl
  rw [withBitrate, q.pathStart_bytes fits, q.segStart_bytes fits, path, before, behind]
  simp only [withText, front, name, List.append_assoc]

theorem chunkOf_bytes (fits : q.bytes.length ≤ maxSize) {br : Int} (width : (signed br).length ≤ 11) :
    chunkOf q.bytes br = q.name (signed br) := by
  have whole := q.withText_length q.bitrate
  have old := q.front_length q.bitrate
  have oldName := q.name_length q.bitrate
  have length := q.front_length (signed br)
  have newName := q.name_length (signed br)
  have found : find (text " HTTP/1.1") (q.withText (signed br)) = some (q.front (signed br)).length :=
    q.find_version (signed_absent (by decide) (by decide) br) (signed_absent (by decide) (by decide) br)
  have bound : q.directory.length + 1 + (q.name (signed br)).length < 2 ^ 64 - 1 := by
    change (q.withText q.bitrate).length ≤ _ at fits
    unfold maxSize at fits
    omega
  rw [chunkOf, q.withBitrate_bytes fits, q.pathStart_bytes fits, found]
  change stretch _ (sizeAdd _ 1) (sizeSub (sizeSub (q.front (signed br)).length _) 1) = _
  have inner : sizeSub (q.front (signed br)).length q.directory.length = 1 + (q.name (signed br)).length := by
    rw [length, sizeSub_of_le (by omega) (by omega)]
    omega
  have outer : sizeSub (1 + (q.name (signed br)).length) 1 = (q.name (signed br)).length := by
    rw [sizeSub_of_le (by omega) (by omega)]
    omega
  have shape : q.withText (signed br) = (q.directory ++ text "/") ++ (q.name (signed br) ++ (version ++ q.rest)) := by
    simp only [withText, front, List.append_assoc]
  have start : sizeAdd q.directory.length 1 = (q.directory ++ text "/").length := by
    rw [sizeAdd, Nat.mod_eq_of_lt (by omega), List.length_append]
    rfl
  rw [inner, outer, start, stretch, if_neg (by unfold npos; omega), shape, List.drop_left, List.take_left]

end ChunkRequest

/-- A list of values of type `int`. -/
def Ints (bitrates : List Int) : Prop := ∀ br ∈ bitrates, intMin ≤ br ∧ br ≤ intMax

theorem Ints.width {bitrates : List Int} (ints : Ints bitrates) {br : Int} (member : br ∈ bitrates) :
    (signed br).length ≤ 11 := by
  have range := ints br member
  unfold intMin intMax at range
  exact signed_length_le (k := 10) (by decide) (by omega)

theorem choice_mem {conn : Connection} (listed : conn.availableBitrates ≠ []) :
    conn.choice ∈ conn.availableBitrates := by
  obtain ⟨first, rest, bitrates⟩ := List.exists_cons_of_ne_nil listed
  rw [choice, chooseBitrate, bitrates]
  simpa using selectBitrate_mem (conn.currentThroughput / (3 / 2)) first (first :: rest)

/-- Of a request for a chunk only the bitrate changes, whatever its directory and its headers say. -/
theorem parseBitrate_chunk (q : ChunkRequest) (fits : q.bytes.length ≤ maxSize) {conn : Connection}
    (message : conn.clientMessage = q.bytes) (listed : conn.availableBitrates ≠ [])
    (ints : Ints conn.availableBitrates) :
    ∃ currentBitrate ∈ conn.availableBitrates, conn.parseBitrate = .ok { conn with
      currentBitrate, clientMessage := q.withText (signed currentBitrate)
      chunkname := q.name (signed currentBitrate) } := by
  have chosen := choice_mem listed
  have names : NamesChunk conn.clientMessage := by
    rw [message]
    exact q.names_bytes fits
  refine ⟨conn.choice, chosen, ?_⟩
  rw [parseBitrate_eq, if_neg fun unlisted => listed unlisted.2, rewritten, if_pos names, message,
    q.withBitrate_bytes fits, q.chunkOf_bytes fits (ints.width chosen)]

def sampleChunk : ChunkRequest where
  directory := text "GET /1Seg1/x-Frag"
  bitrate := text "1000"
  segment := text "12"
  fragment := text "3"
  rest := text "\r\nReferer: /9Seg9-Frag9\r\n\r\n"
  plain := by decide
  digits := ⟨by decide, by decide +kernel⟩
  segmentDigits := ⟨by decide, by decide +kernel⟩
  fragmentDigits := ⟨by decide, by decide +kernel⟩

def sampleAsking : Connection := { clientMessage := sampleChunk.bytes, availableBitrates := [500, 700] }

theorem parseBitrate_chunk_sample : ∃ currentBitrate ∈ [500, 700],
    sampleAsking.parseBitrate = .ok { sampleAsking with
      currentBitrate, clientMessage := sampleChunk.withText (signed currentBitrate)
      chunkname := sampleChunk.name (signed currentBitrate) } := by
  have ints : Ints sampleAsking.availableBitrates := by
    unfold Ints
    decide
  exact parseBitrate_chunk sampleChunk (by decide +kernel) rfl (List.cons_ne_nil _ _) ints

/-! ### Other requests -/

/-- The last segment of the URI has the form of a chunk's name. -/
def ChunkUri (uri : Bytes) : Prop :=
  ∃ directory bitrate segment fragment, Digits bitrate ∧ Digits segment ∧ Digits fragment ∧
    uri = directory ++ text "/" ++ bitrate ++ text "Seg" ++ segment ++ text "-Frag" ++ fragment

/-- A request that the guard of `parse_bitrate` lets pass as it is: in front of the version there is no "Seg" or no
"-Frag", or the last "-Frag" stands directly behind the last "Seg", or the last "Seg" directly behind the last slash (at
the very start where there is none). -/
def Spared (msg : Bytes) : Prop :=
  ∀ s f, rfind (text "Seg") (frontOf msg) = some s → rfind (text "-Frag") (frontOf msg) = some f →
    f = s + 3 ∨ s = match rfind (text "/") (frontOf msg) with
      | some p => p + 1
      | none => 0

/-- What `parse_bitrate` returns has the message, the chunk's name and the bitrate that it got. -/
def Connection.Untouched (conn : Connection) : Prop :=
  ∃ conn', conn.parseBitrate = .ok conn' ∧ conn'.clientMessage = conn.clientMessage ∧
    conn'.chunkname = conn.chunkname ∧ conn'.currentBitrate = conn.currentBitrate

/-- At one place there is one byte. -/
theorem places_agree {pat pat' s : Bytes} {i j d : Nat} (here : pat <+: s.drop i) (here' : pat' <+: s.drop j)
    (same : j = i + d) (inside : d < pat.length) (some : 0 < pat'.length) : pat[d]? = pat'[0]? := by
  obtain ⟨rest, split⟩ := here
  obtain ⟨rest', split'⟩ := here'
  have byte : s[j]? = pat[d]? := by
    rw [same, ← List.getElem?_drop, ← split, List.getElem?_append_left inside]
  have byte' : s[j]? = pat'[0]? := by
    rw [← Nat.add_zero j, ← List.getElem?_drop, ← split', List.getElem?_append_left some]
  exact byte.symm.trans byte'

theorem frontOf_length_le (msg : Bytes) : (frontOf msg).length ≤ msg.length :=
  stretch_length_le msg 0 _

theorem names_iff {msg : Bytes} (fits : msg.length ≤ maxSize) : NamesChunk msg ↔ ¬ Spared msg := by
  have front := frontOf_length_le msg
  unfold maxSize at fits
  unfold NamesChunk Spared segStart fragStart pathStart
  cases seg : rfind (text "Seg") (frontOf msg) with
  | none => simp [sizeT]
  | some s =>
    cases frag : rfind (text "-Frag") (frontOf msg) with
    | none => simp [sizeT]
    | some f =>
      have segFits := rfind_fits seg
      have fragFits := rfind_fits frag
      change s + 3 ≤ _ at segFits
      change f + 5 ≤ _ at fragFits
      have apart : ∀ d < 3, f ≠ s + d := by
        intro d small same
        have agree := places_agree (rfind_here seg) (rfind_here frag) same small (by decide)
        interval_cases d <;> exact absurd agree (by decide)
      have far : sizeSub f s < 4 ↔ f = s + 3 := by
        have first := apart 0 (by omega)
        have second := apart 1 (by omega)
        have third := apart 2 (by omega)
        unfold sizeSub
        omega
      have near : sizeSub s (sizeT (rfind (text "/") (frontOf msg))) < 2 ↔
          s = match rfind (text "/") (frontOf msg) with
            | some p => p + 1
            | none => 0 := by
        cases slash : rfind (text "/") (frontOf msg) with
        | none =>
          change sizeSub s npos < 2 ↔ s = 0
          unfold sizeSub npos
          omega
        | some p =>
          have slashFits := rfind_fits slash
          have other : s ≠ p + 0 := by
            intro same
            exact absurd (places_agree (rfind_here slash) (rfind_here seg) same (by decide) (by decide)) (by decide)
          change sizeSub s p < 2 ↔ s = p + 1
          unfold sizeSub
          omega
      have valid : s ≠ npos ∧ f ≠ npos := by
        unfold npos
        omega
      change ¬ (s = npos ∨ f = npos ∨ sizeSub f s < 4 ∨ sizeSub s _ < 2) ↔ _
      rw [far, near]
      simp [valid.1, valid.2]

theorem Spared.parseBitrate {conn : Connection} (fits : conn.clientMessage.length ≤ maxSize)
    (spared : Spared conn.clientMessage) : conn.parseBitrate = .ok conn := by
  have other : ¬ NamesChunk conn.clientMessage := fun names => (names_iff fits).mp names spared
  rw [parseBitrate_eq, if_neg fun unlisted => other unlisted.1, rewritten, if_neg other]

/-- Exactly the requests that the guard spares pass untouched on every connection. -/
theorem untouched_iff {msg : Bytes} (fits : msg.length ≤ maxSize) :
    (¬ ChunkUri (requestUri msg) → ∀ conn : Connection, conn.clientMessage = msg → conn.Untouched) ↔
      ChunkUri (requestUri msg) ∨ Spared msg := by
  constructor
  · intro untouched
    by_contra touched
    rw [not_or] at touched
    obtain ⟨conn', parsed, -, -, bitrate⟩ := untouched touched.1 { clientMessage := msg, availableBitrates := [1] } rfl
    have names := (names_iff fits).mpr touched.2
    have chosen : ({ clientMessage := msg, availableBitrates := [1] } : Connection).choice ∈ [1] :=
      choice_mem (List.cons_ne_nil _ _)
    rw [parseBitrate_eq, if_neg fun unlisted => absurd unlisted.2 (List.cons_ne_nil _ _), rewritten,
      if_pos names] at parsed
    obtain rfl := Except.ok.inj parsed
    rw [List.mem_singleton.mp chosen] at bitrate
    exact absurd (show (1 : Int) = 0 from bitrate) (by decide)
  · rintro (chunk | spared) other conn rfl
    · exact absurd chunk other
    · exact ⟨conn, spared.parseBitrate fits, rfl, rfl, rfl⟩

theorem ChunkUri.last {uri : Bytes} (chunk : ChunkUri uri) : ∃ c, uri.getLast? = some c ∧ isDigit c = true := by
  obtain ⟨directory, bitrate, segment, fragment, -, -, digits, rfl⟩ := chunk
  obtain ⟨c, last⟩ := Option.ne_none_iff_exists'.mp fun none => digits.1 (List.getLast?_eq_none_iff.mp none)
  refine ⟨c, ?_, digits.2 c (List.mem_of_getLast? last)⟩
  rw [List.getLast?_append_of_ne_nil _ digits.1, last]

/-- A page in a directory that looks like a chunk. -/
def pageUnderChunk : Bytes := text "GET /Seg1/x-Frag/index.html HTTP/1.1\r\n\r\n"

theorem pageUnderChunk_uri : ¬ ChunkUri (requestUri pageUnderChunk) := by
  intro chunk
  obtain ⟨c, last, digit⟩ := chunk.last
  rw [show (requestUri pageUnderChunk).getLast? = some 108 by decide +kernel] at last
  obtain rfl := Option.some.inj last
  cases digit

theorem untouched_iff_sample : (¬ ChunkUri (requestUri (text "GET / HTTP/1.1\r\n\r\n")) →
    ∀ conn : Connection, conn.clientMessage = text "GET / HTTP/1.1\r\n\r\n" → conn.Untouched) ↔
      ChunkUri (requestUri (text "GET / HTTP/1.1\r\n\r\n")) ∨ Spared (text "GET / HTTP/1.1\r\n\r\n") :=
  untouched_iff (by decide +kernel)

theorem page_rewritten :
    (parseBitrate { clientMessage := pageUnderChunk, availableBitrates := [10] }).map Connection.clientMessage =
      .ok (text "GET /Seg1/x-Frag/10Seg1/x-Frag/index.html HTTP/1.1\r\n\r\n") ∧
    ¬ ∀ msg : Bytes, msg.length ≤ maxSize → ¬ ChunkUri (requestUri msg) →
      ∀ conn : Connection, conn.clientMessage = msg → conn.Untouched := by
  have rewritten : (parseBitrate { clientMessage := pageUnderChunk, availableBitrates := [10] }).map
      Connection.clientMessage = .ok (text "GET /Seg1/x-Frag/10Seg1/x-Frag/index.html HTTP/1.1\r\n\r\n") := by
    decide +kernel
  refine ⟨rewritten, fun always => ?_⟩
  obtain ⟨conn', parsed, same, -⟩ := always pageUnderChunk (by decide +kernel) pageUnderChunk_uri
    { clientMessage := pageUnderChunk, availableBitrates := [10] } rfl
  rw [parsed] at rewritten
  have message : conn'.clientMessage = _ := Except.ok.inj rewritten
  rw [same] at message
  exact absurd message (by decide +kernel)

/-! ### Requests for manifests -/

/-- What is to be asked for in the place of a manifest that the URI names. -/
def interception (msg : Bytes) : Option Bytes :=
  (find videoName (requestUri msg)).map fun i =>
    msg.take (uriStart msg + i) ++ videoNameNew ++ msg.drop (uriStart msg + i + videoName.length)

/-- For this message an interception is started if its URI names the manifest, with that name replaced, and else
everything kept; where nothing is kept, the next response is passed on. -/
def Intercepted (msg : Bytes) : Prop :=
  ∀ (calls : RequestCalls) (conn conn' : Connection) (actions : List Action), conn.clientMessage = msg →
    handleRequestMessage calls conn = .ok (conn', actions) →
      conn'.noListMessage = (interception msg).getD conn.noListMessage ∧
      (interception msg = none → conn.noListMessage = [] → ∀ alpha calls conn'' log actions,
        handleResponseMessage alpha calls conn' = .ok (conn'', log, actions) →
          actions = [.answered conn'.clientSocket conn'.serverMessage])

theorem videoName_apart : Apart videoName videoName := by decide +kernel

/-- Which of two names is replaced can be seen. -/
theorem replaced_here {msg : Bytes} {i j : Nat} (first : videoName <+: msg.drop i) (second : videoName <+: msg.drop j)
    (inside : j ≤ msg.length) (le : i ≤ j)
    (same : msg.take i ++ videoNameNew ++ msg.drop (i + videoName.length) =
      msg.take j ++ videoNameNew ++ msg.drop (j + videoName.length)) : i = j := by
  by_contra differs
  have behind := places_apart videoName_apart first second (by omega)
  have left : videoNameNew <+: (msg.take i ++ videoNameNew ++ msg.drop (i + videoName.length)).drop i := by
    rw [List.append_assoc, List.drop_left' (List.length_take_of_le (by omega))]
    exact List.prefix_append _ _
  have right : videoName <+: (msg.take j ++ videoNameNew ++ msg.drop (j + videoName.length)).drop i := by
    obtain ⟨rest, split⟩ := first
    have front : videoName <+: (msg.take j).drop i := by
      rw [List.drop_take, ← split]
      exact List.prefix_take_iff.mpr ⟨List.prefix_append _ _, by omega⟩
    rw [List.append_assoc, List.drop_append_of_le_length (by rw [List.length_take_of_le inside]; omega)]
    exact front.trans (List.prefix_append _ _)
  rw [same] at left
  have prefixed : videoName <+: videoNameNew := List.prefix_of_prefix_length_le right left (by decide +kernel)
  exact absurd prefixed (by decide +kernel)

/-- A connection on which every message can be handled. -/
def askingFor (msg : Bytes) : Connection := { clientMessage := msg, availableBitrates := [1] }

theorem asking_handled (msg : Bytes) : ∃ conn' actions,
    handleRequestMessage {} (askingFor msg) = .ok (conn', actions) ∧ conn'.noListMessage = (noList msg).getD [] := by
  have connected : connectServer {} (askingFor msg) = .ok (askingFor msg, []) := rfl
  rw [handleRequestMessage_eq, connected, ok_bind]
  dsimp only
  rw [if_neg fun unlisted => absurd unlisted.2 (List.cons_ne_nil _ _)]
  generalize askingMessage : ({ askingFor msg with
    noListMessage := (noList (askingFor msg).clientMessage).getD (askingFor msg).noListMessage } : Connection) = asking
  obtain ⟨t, sent⟩ := MiProxy.sendAll_returns (s := { incoming := [] }) Moves.nil asking.rewritten.clientMessage
  have handed : handOver [] asking.rewritten.clientMessage = .ok t.sent := by
    change (sendAll { incoming := [], sends := [] } asking.rewritten.clientMessage >>= _) = _
    rw [sent, ok_bind]
    rfl
  rw [handed, ok_bind]
  refine ⟨_, _, rfl, ?_⟩
  have kept : asking.rewritten.noListMessage = asking.noListMessage := by
    unfold rewritten
    split <;> rfl
  dsimp only
  rw [kept, ← askingMessage]
  rfl

/-- The first name in the message, if there is one, stands in the URI. -/
def FirstInUri (msg : Bytes) : Prop :=
  ∀ i, find videoName msg = some i →
    uriStart msg ≤ i ∧ i + videoName.length ≤ uriStart msg + (requestUri msg).length

theorem FirstInUri.interception {msg : Bytes} (first : FirstInUri msg) : interception msg = noList msg := by
  unfold VStream.interception noList
  cases found : find videoName msg with
  | none =>
    have absent : find videoName (requestUri msg) = none := by
      by_contra named
      obtain ⟨i, named⟩ := Option.ne_none_iff_exists'.mp named
      have here := (find_uri named).1
      exact find_none_iff.mp found (here.isInfix.trans (List.drop_suffix _ msg).isInfix)
    rw [absent]
    rfl
  | some i =>
    obtain ⟨behind, inside⟩ := first i found
    rw [find_uri_first found behind inside]
    simp only [Option.map_some, Nat.add_sub_cancel' behind]

theorem kept_message {calls : RequestCalls} {conn conn' : Connection} {actions : List Action}
    (handled : handleRequestMessage calls conn = .ok (conn', actions)) :
    conn'.noListMessage = (noList conn.clientMessage).getD conn.noListMessage := by
  obtain ⟨_, _, _, _, _, -, -, -, rfl⟩ := handleRequestMessage_ok handled
  rfl

/-- The search goes through the whole message: it is right exactly where it stops in the URI or nowhere. -/
theorem intercepted_iff (msg : Bytes) : Intercepted msg ↔ FirstInUri msg := by
  constructor
  · intro right i found
    obtain ⟨conn', actions, handled, kept⟩ := asking_handled msg
    obtain ⟨expected, -⟩ := right {} (askingFor msg) conn' actions rfl handled
    have new : noList msg = some (msg.take i ++ videoNameNew ++ msg.drop (i + videoName.length)) := by
      rw [noList, found]
      rfl
    rw [kept, new, Option.getD_some] at expected
    cases named : find videoName (requestUri msg) with
    | none =>
      rw [interception, named] at expected
      exact absurd expected (noList_ne_nil new)
    | some j =>
      rw [interception, named] at expected
      obtain ⟨place, inside⟩ := find_uri named
      obtain ⟨here, -, first⟩ := find_some_iff.mp found
      have le : i ≤ uriStart msg + j := by
        by_contra before
        exact first _ (by omega) place
      have fits := place.length_le
      have some : 0 < videoName.length := by decide +kernel
      rw [List.length_drop] at fits
      have same := replaced_here here place (by omega) le expected
      omega
  · rintro first calls conn conn' actions rfl handled
    refine ⟨by rw [kept_message handled, first.interception], ?_⟩
    intro absent none alpha calls' conn'' log actions' answered
    have plain : conn'.noListMessage = [] := by
      rw [kept_message handled, ← first.interception, absent, none]
      rfl
    rcases handleResponseMessage_parts answered with ⟨kept, -⟩ | ⟨-, passed, -⟩
    · exact absurd plain kept
    · exact passed

def pageFromVideo : Bytes := text "GET /index.html HTTP/1.1\r\nReferer: /vod/big_buck_bunny.f4m\r\n\r\n"

/-- A page that the manifest's page refers to. -/
theorem referer_intercepted : noList pageFromVideo ≠ none ∧ interception pageFromVideo = none ∧
    ¬ ∀ msg : Bytes, Intercepted msg := by
  have parts : noList pageFromVideo ≠ none ∧ interception pageFromVideo = none := by decide +kernel
  refine ⟨parts.1, parts.2, fun always => ?_⟩
  obtain ⟨new, found⟩ := Option.ne_none_iff_exists'.mp parts.1
  obtain ⟨conn', actions, handled, kept⟩ := asking_handled pageFromVideo
  obtain ⟨expected, -⟩ := always pageFromVideo {} (askingFor pageFromVideo) conn' actions rfl handled
  rw [kept, found, parts.2] at expected
  exact noList_ne_nil found expected

end VStream
