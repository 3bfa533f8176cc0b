import VStream.Cpp.Search
import VStream.MiProxy.Adaptation

/-!
# The loop over a manifest

`parse_xml` takes the first bitrate attribute out of the response again and
again. What is found after the first time need not be in the response as it was
received, and an attribute that is not closed may stay where it is.
-/

namespace VStream
open Cpp MiProxy

namespace Connection

def bitrateAttr : Bytes := text "bitrate=\""

theorem attribute_eq : bitrateAttr = [98, 105, 116, 114, 97, 116, 101, 61, 34] := by decide +kernel

theorem attribute_length : bitrateAttr.length = 9 := by rw [attribute_eq]; rfl

/-- Nothing is found across the start of an attribute. -/
theorem attribute_apart (rest : Bytes) : Apart bitrateAttr (bitrateAttr ++ rest) := by
  apply apart_of_head
  rw [attribute_eq]
  intro c first
  obtain rfl : (98 : UInt8) = c := Option.some.inj first
  decide

/-! ### One round -/

section round
variable {front value rest : Bytes} (known : List Int)

theorem takeBitrate_none {msg : Bytes} (absent : find bitrateAttr msg = none) :
    takeBitrate (msg, known) = .ok (.leave (msg, known)) := by
  have here : find (text "bitrate=\"") msg = none := absent
  simp only [takeBitrate, here]

theorem takeBitrate_closed (found : find bitrateAttr (front ++ bitrateAttr ++ value ++ 34 :: rest) = some front.length)
    (plain : 34 ∉ value) (fits : (front ++ bitrateAttr ++ value ++ 34 :: rest).length ≤ maxSize) :
    takeBitrate (front ++ bitrateAttr ++ value ++ 34 :: rest, known) =
      stoi value >>= fun br => .ok (.again (front ++ rest, known ++ [br])) := by
  have length := attribute_length
  have total : (front ++ bitrateAttr ++ value ++ 34 :: rest).length =
      front.length + 9 + value.length + rest.length + 1 := by
    simp only [List.length_append, List.length_cons, length]
    omega
  rw [total, maxSize] at fits
  have behind : (front ++ bitrateAttr ++ value ++ 34 :: rest).drop (front.length + 9) = value ++ 34 :: rest := by
    rw [List.append_assoc, List.drop_left' (by rw [List.length_append, length])]
  have quote : findFrom (text "\"") (front ++ bitrateAttr ++ value ++ 34 :: rest) (front.length + 9) =
      some (value.length + (front.length + 9)) := by
    rw [findFrom, if_pos (by omega), behind, show text "\"" = [34] by decide, find_byte plain]
    rfl
  have width : sizeSub (sizeSub (value.length + (front.length + 9)) front.length) 9 = value.length := by
    rw [sizeSub_of_le (b := front.length) (by omega) (by omega), sizeSub_of_le (by omega) (by omega)]
    omega
  have erased : sizeAdd (sizeSub (value.length + (front.length + 9)) front.length) 1 = 9 + value.length + 1 := by
    rw [sizeSub_of_le (by omega) (by omega), sizeAdd, Nat.mod_eq_of_lt (by omega)]
    omega
  have cut : substr (front ++ bitrateAttr ++ value ++ 34 :: rest) (front.length + 9) value.length = .ok value := by
    rw [substr, if_pos (by omega), if_neg (by unfold npos; omega), behind, List.take_left]
  have shape : front ++ bitrateAttr ++ value ++ 34 :: rest = (front ++ bitrateAttr ++ value ++ [34]) ++ rest := by simp
  have kept : erase (front ++ bitrateAttr ++ value ++ 34 :: rest) front.length (9 + value.length + 1) =
      .ok (front ++ rest) := by
    have before : (front ++ bitrateAttr ++ value ++ 34 :: rest).take front.length = front := by
      simp only [List.append_assoc, List.take_left]
    have after : (front ++ bitrateAttr ++ value ++ 34 :: rest).drop (front.length + (9 + value.length + 1)) = rest := by
      rw [shape]
      exact List.drop_left' (by simp only [List.length_append, length, List.length_singleton]; omega)
    rw [erase, if_pos (by omega), before, after]
  have here : find (text "bitrate=\"") (front ++ bitrateAttr ++ value ++ 34 :: rest) = some front.length := found
  simp only [takeBitrate, here, quote]
  change (substr _ _ (sizeSub (sizeSub (value.length + (front.length + 9)) front.length) 9) >>= fun brStr =>
    stoi brStr >>= fun br => erase _ _ (sizeAdd (sizeSub (value.length + (front.length + 9)) front.length) 1) >>= _) = _
  rw [width, erased, cut, ok_bind, kept]
  rfl

/-- The last attribute is not closed: what is erased is everything from it on, and nothing at the very start. -/
theorem takeBitrate_open (found : find bitrateAttr (front ++ bitrateAttr ++ value) = some front.length)
    (plain : 34 ∉ value) (fits : (front ++ bitrateAttr ++ value).length ≤ maxSize) :
    takeBitrate (front ++ bitrateAttr ++ value, known) =
      stoi value >>= fun br => .ok (.again (if front = [] then bitrateAttr ++ value else front, known ++ [br])) := by
  have length := attribute_length
  have total : (front ++ bitrateAttr ++ value).length = front.length + 9 + value.length := by
    simp only [List.length_append, length]
  rw [total, maxSize] at fits
  have behind : (front ++ bitrateAttr ++ value).drop (front.length + 9) = value :=
    List.drop_left' (by rw [List.length_append, length])
  have quote : findFrom (text "\"") (front ++ bitrateAttr ++ value) (front.length + 9) = none := by
    have absent : find (text "\"") value = none := by
      rw [find_none_iff, show text "\"" = [34] by decide, List.singleton_infix_iff]
      exact plain
    rw [findFrom, if_pos (by omega), behind, absent]
    rfl
  have long : value.length ≤ sizeSub (sizeSub npos front.length) 9 := by
    unfold sizeSub npos
    omega
  have cut : substr (front ++ bitrateAttr ++ value) (front.length + 9) (sizeSub (sizeSub npos front.length) 9) =
      .ok value := by
    rw [substr, if_pos (by omega), behind]
    split
    · rfl
    · rw [List.take_of_length_le long]
  have kept : erase (front ++ bitrateAttr ++ value) front.length (sizeAdd (sizeSub npos front.length) 1) =
      .ok (if front = [] then bitrateAttr ++ value else front) := by
    rw [erase, if_pos (by omega)]
    split
    · rename_i empty
      subst empty
      rfl
    · rename_i some
      have positive := List.length_pos_iff.mpr some
      have whole : front.length + 9 + value.length ≤ front.length + sizeAdd (sizeSub npos front.length) 1 := by
        unfold sizeAdd sizeSub npos
        omega
      rw [List.append_assoc, List.take_left, List.drop_of_length_le (by rw [← List.append_assoc, total]; exact whole),
        List.append_nil]
  have here : find (text "bitrate=\"") (front ++ bitrateAttr ++ value) = some front.length := found
  simp only [takeBitrate, here, quote]
  change (substr _ _ (sizeSub (sizeSub npos front.length) 9) >>= fun brStr =>
    stoi brStr >>= fun br => erase _ _ (sizeAdd (sizeSub npos front.length) 1) >>= _) = _
  rw [cut, ok_bind, kept]
  rfl

end round

/-- A message is without an attribute, or its first one is closed, or its first one is the last and is not closed. -/
theorem attribute_cases (msg : Bytes) : find bitrateAttr msg = none ∨
    (∃ front value rest, msg = front ++ bitrateAttr ++ value ++ 34 :: rest ∧ 34 ∉ value ∧
      find bitrateAttr (front ++ bitrateAttr ++ value ++ 34 :: rest) = some front.length) ∨
    ∃ front value, msg = front ++ bitrateAttr ++ value ∧ 34 ∉ value ∧
      find bitrateAttr (front ++ bitrateAttr ++ value) = some front.length := by
  cases found : find bitrateAttr msg with
  | none => exact .inl rfl
  | some i =>
    obtain ⟨⟨tail, here⟩, inside, -⟩ := find_some_iff.mp found
    have shape : msg = msg.take i ++ bitrateAttr ++ tail := by
      rw [List.append_assoc, here, List.take_append_drop]
    have length : (msg.take i).length = i := List.length_take_of_le inside
    generalize msg.take i = front at shape length
    subst shape length
    by_cases closed : 34 ∈ tail
    · obtain ⟨value, rest, rfl, plain⟩ := List.eq_append_cons_of_mem closed
      rw [← List.append_assoc] at found
      exact .inr (.inl ⟨front, value, rest, by rw [List.append_assoc _ value], plain, found⟩)
    · exact .inr (.inr ⟨front, tail, rfl, closed, found⟩)

theorem front_plain {front rest : Bytes} (found : find bitrateAttr (front ++ rest) = some front.length) :
    find bitrateAttr front = none := by
  by_contra named
  obtain ⟨i, named⟩ := Option.ne_none_iff_exists'.mp named
  have fits := find_fits named
  have same := (find_append named rest).symm.trans found
  obtain rfl := Option.some.inj same
  rw [attribute_length] at fits
  omega

/-! ### When the loop ends -/

/-- A message on which the loop does not end: it begins with an attribute that has a number but no closing quote, or it
comes to such a message when its first attribute, which is closed and has a number, is erased. -/
inductive Jams : Bytes → Prop where
  | unclosed {value : Bytes} {br : Int} (plain : 34 ∉ value) (number : stoi value = .ok br) :
      Jams (bitrateAttr ++ value)
  | erased {front value rest : Bytes} {br : Int}
      (first : find bitrateAttr (front ++ bitrateAttr ++ value ++ 34 :: rest) = some front.length)
      (plain : 34 ∉ value) (number : stoi value = .ok br) (later : Jams (front ++ rest)) :
      Jams (front ++ bitrateAttr ++ value ++ 34 :: rest)

theorem Jams.mentions {msg : Bytes} (jams : Jams msg) : find bitrateAttr msg ≠ none := by
  cases jams with
  | @unclosed value br plain number =>
    rw [Ne, find_none_iff, not_not]
    exact (List.prefix_append bitrateAttr value).isInfix
  | erased first plain number later =>
    rw [first]
    exact Option.some_ne_none _

/-- Only a message that begins with a "b" can jam the loop. -/
theorem Jams.head {msg : Bytes} (jams : Jams msg) : msg.head? = some 98 := by
  induction jams with
  | unclosed plain number => rw [attribute_eq]; rfl
  | @erased front value rest br first plain number later ih =>
    cases front with
    | nil => rw [attribute_eq]; rfl
    | cons c front => exact ih

theorem Jams.round {msg : Bytes} (jams : Jams msg) (known : List Int) (fits : msg.length ≤ maxSize) :
    ∃ msg' known', takeBitrate (msg, known) = .ok (.again (msg', known')) ∧ Jams msg' ∧ msg'.length ≤ maxSize := by
  cases jams with
  | @unclosed value br plain number =>
    have here : find bitrateAttr (([] : Bytes) ++ bitrateAttr ++ value) = some ([] : Bytes).length :=
      find_some_iff.mpr ⟨List.prefix_append _ _, Nat.zero_le _, fun j before => absurd before (Nat.not_lt_zero j)⟩
    have taken := takeBitrate_open known here plain fits
    rw [number, ok_bind, if_pos rfl] at taken
    exact ⟨_, _, taken, .unclosed plain number, fits⟩
  | @erased front value rest br first plain number later =>
    have taken := takeBitrate_closed known first plain fits
    rw [number, ok_bind] at taken
    refine ⟨_, _, taken, later, ?_⟩
    simp only [List.length_append, List.length_cons] at fits ⊢
    omega

theorem Jams.diverges {msg : Bytes} (jams : Jams msg) (known : List Int) (fits : msg.length ≤ maxSize) (fuel : Nat) :
    loop takeBitrate fuel (msg, known) = .error .diverges := by
  induction fuel generalizing msg known with
  | zero => rfl
  | succ fuel ih =>
    obtain ⟨msg', known', taken, jams', fits'⟩ := jams.round known fits
    rw [loop, taken, ok_bind]
    exact ih jams' known' fits'

/-- On any other message every round leaves less. -/
theorem round_shorter {msg msg' : Bytes} {known known' : List Int} (fits : msg.length ≤ maxSize) (flows : ¬ Jams msg)
    (taken : takeBitrate (msg, known) = .ok (.again (msg', known'))) : ¬ Jams msg' ∧ msg'.length < msg.length := by
  have length := attribute_length
  rcases attribute_cases msg with absent | ⟨front, value, rest, rfl, plain, found⟩ | ⟨front, value, rfl, plain, found⟩
  · rw [takeBitrate_none known absent] at taken
    cases taken
  · rw [takeBitrate_closed known found plain fits] at taken
    obtain ⟨br, number, taken⟩ := bind_ok taken
    cases taken
    refine ⟨fun later => flows (.erased found plain number later), ?_⟩
    simp only [List.length_append, List.length_cons, length]
    omega
  · rw [takeBitrate_open known found plain fits] at taken
    obtain ⟨br, number, taken⟩ := bind_ok taken
    by_cases empty : front = []
    · subst empty
      exact absurd (.unclosed plain number) flows
    · rw [if_neg empty] at taken
      cases taken
      rw [List.append_assoc] at found
      refine ⟨fun later => later.mentions (front_plain found), ?_⟩
      simp only [List.length_append, length]
      omega

theorem round_ends (msg : Bytes) (known : List Int) (fits : msg.length ≤ maxSize) :
    takeBitrate (msg, known) ≠ .error .diverges := by
  have number : ∀ (value : Bytes) (next : Int → Pass (Bytes × List Int) (Bytes × List Int)),
      (stoi value >>= fun br => .ok (next br)) ≠ .error .diverges := by
    intro value next
    refine bind_ends ?_ fun br => by simp
    unfold stoi
    dsimp only
    split_ifs <;> simp
  rcases attribute_cases msg with absent | ⟨front, value, rest, rfl, plain, found⟩ | ⟨front, value, rfl, plain, found⟩
  · rw [takeBitrate_none known absent]
    simp
  · rw [takeBitrate_closed known found plain fits]
    exact number value _
  · rw [takeBitrate_open known found plain fits]
    exact number value _

/-- The loop ends, normally or with an exception, on every message but those that jam it. -/
theorem loop_ends_iff {msg : Bytes} (fits : msg.length ≤ maxSize) (known : List Int) :
    (∃ fuel, loop takeBitrate fuel (msg, known) ≠ .error .diverges) ↔ ¬ Jams msg := by
  constructor
  · rintro ⟨fuel, ends⟩ jams
    exact ends (jams.diverges known fits fuel)
  · intro flows
    refine ⟨msg.length + 1, loop_ends (fun s => s.1.length ≤ maxSize ∧ ¬ Jams s.1) (fun s => s.1.length) ?_ ?_
      ⟨fits, flows⟩ (Nat.lt_succ_self _)⟩
    · rintro ⟨msg, known⟩ ⟨fits, -⟩
      exact round_ends msg known fits
    · rintro ⟨msg, known⟩ ⟨msg', known'⟩ ⟨fits, flows⟩ taken
      obtain ⟨flows', shorter⟩ := round_shorter fits flows taken
      dsimp only at fits shorter ⊢
      exact ⟨⟨by omega, flows'⟩, shorter⟩

theorem loop_ends_iff_sample :
    (∃ fuel, loop takeBitrate fuel (manifestResponse, []) ≠ .error .diverges) ↔ ¬ Jams manifestResponse :=
  loop_ends_iff (by decide +kernel) []

/-- Its attribute stands at the very start and is not closed. -/
def jammed : Bytes := text "bitrate=\"5\r\nContent-Type: text/xml\r\nContent-Length: 0\r\n\r\n"

theorem jammed_jams : Jams jammed := by
  have number : stoi (jammed.drop 9) = .ok 5 := by decide +kernel
  have shape : jammed = bitrateAttr ++ jammed.drop 9 := by decide +kernel
  rw [shape]
  exact .unclosed (by decide +kernel) number

theorem jammed_loop : handleServerConnection 1 (some jammed) {} awaiting = .error .diverges ∧
    ¬ ∀ (msg : Bytes) (known : List Int), msg.length ≤ maxSize →
      ∃ fuel, loop takeBitrate fuel (msg, known) ≠ .error .diverges := by
  constructor
  · decide +kernel
  · intro always
    obtain ⟨fuel, ends⟩ := always jammed [] (by decide +kernel)
    exact ends (jammed_jams.diverges [] (by decide +kernel) fuel)

/-! ### The bitrates of a response -/

/-- The number that a sign and digits stand for. -/
def number (s : Bytes) : Int := if (sign s).1 then -value (sign s).2 else value (sign s).2

/-- A decimal `int`. -/
def Numeral (s : Bytes) : Prop :=
  (sign s).2 ≠ [] ∧ (∀ c ∈ (sign s).2, isDigit c = true) ∧ intMin ≤ number s ∧ number s ≤ intMax

instance : DecidablePred Numeral := fun _ => inferInstanceAs (Decidable (_ ∧ _))

/-- Every attribute has a decimal `int` and a closing quote. -/
def WellFormed (response : Bytes) : Prop :=
  ∀ i < response.length, bitrateAttr <+: response.drop i →
    34 ∈ response.drop (i + bitrateAttr.length) ∧
      Numeral ((response.drop (i + bitrateAttr.length)).takeWhile (· ≠ 34))

instance : DecidablePred WellFormed := fun _ => inferInstanceAs (Decidable (∀ _ < _, _))

/-- The numbers of the attributes, from left to right. -/
def attributes : Bytes → List Int
  | [] => []
  | c :: s =>
    if bitrateAttr.isPrefixOf (c :: s) then
      number (((c :: s).drop bitrateAttr.length).takeWhile (· ≠ 34)) :: attributes s
    else attributes s

/-- The response without its attributes; the number counts what is still to be left out of one. -/
def withoutAttributes : Nat → Bytes → Bytes
  | _, [] => []
  | k + 1, _ :: s => withoutAttributes k s
  | 0, c :: s =>
    if bitrateAttr.isPrefixOf (c :: s) then
      withoutAttributes (bitrateAttr.length + (((c :: s).drop bitrateAttr.length).takeWhile (· ≠ 34)).length) s
    else c :: withoutAttributes 0 s

theorem sign_cases (s : Bytes) : s = 45 :: (sign s).2 ∧ (sign s).1 = true ∨
    (s = 43 :: (sign s).2 ∨ s = (sign s).2) ∧ (sign s).1 = false := by
  cases s with
  | nil => exact .inr ⟨.inr rfl, rfl⟩
  | cons c s =>
    rw [sign]
    split
    · rename_i minus
      exact .inl ⟨by rw [minus], rfl⟩
    · split
      · rename_i plus
        exact .inr ⟨.inl (by rw [plus]), rfl⟩
      · exact .inr ⟨.inr rfl, rfl⟩

theorem Numeral.mem {s : Bytes} (numeral : Numeral s) {c : UInt8} (member : c ∈ s) :
    c = 45 ∨ c = 43 ∨ isDigit c = true := by
  rcases sign_cases s with ⟨shape, -⟩ | ⟨shape | shape, -⟩
  · rw [shape] at member
    rcases List.mem_cons.mp member with rfl | digit
    · exact .inl rfl
    · exact .inr (.inr (numeral.2.1 c digit))
  · rw [shape] at member
    rcases List.mem_cons.mp member with rfl | digit
    · exact .inr (.inl rfl)
    · exact .inr (.inr (numeral.2.1 c digit))
  · rw [shape] at member
    exact .inr (.inr (numeral.2.1 c member))

theorem stoi_numeral {s : Bytes} (numeral : Numeral s) : stoi s = .ok (number s) := by
  have solid : s.dropWhile isSpace = s := by
    cases s with
    | nil => rfl
    | cons c s =>
      have plain : isSpace c = false := by
        rcases numeral.mem List.mem_cons_self with rfl | rfl | digit
        · decide
        · decide
        · exact IStream.digit_not_space digit
      rw [List.dropWhile_cons_of_neg (by simp [plain])]
  have whole : (sign s).2.takeWhile isDigit = (sign s).2 := List.takeWhile_eq_self_iff.mpr numeral.2.1
  unfold stoi
  simp only [solid, whole]
  rw [if_neg numeral.1]
  exact if_pos numeral.2.2

theorem attributes_front {a b : Bytes} (absent : ∀ j < a.length, ¬ bitrateAttr <+: (a ++ b).drop j) :
    attributes (a ++ b) = attributes b ∧ withoutAttributes 0 (a ++ b) = a ++ withoutAttributes 0 b := by
  induction a with
  | nil => exact ⟨rfl, rfl⟩
  | cons c a ih =>
    have notHere : ¬ bitrateAttr.isPrefixOf (c :: (a ++ b)) = true := by
      rw [List.isPrefixOf_iff_prefix]
      exact absent 0 (Nat.succ_pos _)
    obtain ⟨numbers, rest⟩ := ih fun j inside => absent (j + 1) (Nat.succ_lt_succ inside)
    rw [List.cons_append, attributes, withoutAttributes, if_neg notHere, if_neg notHere, numbers, rest]
    exact ⟨rfl, rfl⟩

theorem attributes_plain {msg : Bytes} (absent : find bitrateAttr msg = none) :
    attributes msg = [] ∧ withoutAttributes 0 msg = msg := by
  have nowhere : ∀ j < msg.length, ¬ bitrateAttr <+: (msg ++ []).drop j := by
    intro j _ here
    rw [List.append_nil] at here
    exact find_none_iff.mp absent (here.isInfix.trans (List.drop_suffix j msg).isInfix)
  have front := attributes_front nowhere
  rwa [List.append_nil, attributes, withoutAttributes, List.append_nil] at front

theorem attributes_skip {a : Bytes} (absent : 98 ∉ a) (b : Bytes) : attributes (a ++ b) = attributes b := by
  induction a with
  | nil => rfl
  | cons c a ih =>
    rw [List.mem_cons, not_or] at absent
    have notHere : ¬ bitrateAttr.isPrefixOf (c :: (a ++ b)) = true := by
      rw [List.isPrefixOf_iff_prefix, attribute_eq]
      exact fun here => absent.1 (List.cons_prefix_cons.mp here).1
    rw [List.cons_append, attributes, if_neg notHere]
    exact ih absent.2

theorem withoutAttributes_skip (a b : Bytes) : withoutAttributes a.length (a ++ b) = withoutAttributes 0 b := by
  induction a with
  | nil => rfl
  | cons c a ih => exact ih

theorem up_to_quote {value : Bytes} (plain : 34 ∉ value) (rest : Bytes) :
    (value ++ 34 :: rest).takeWhile (· ≠ 34) = value := by
  rw [List.takeWhile_append_of_pos, List.takeWhile_cons_of_neg, List.append_nil]
  · simp
  · intro c member
    exact decide_eq_true fun same => plain (same ▸ member)

theorem attributes_here {value : Bytes} (numeral : Numeral value) (rest : Bytes) :
    attributes (bitrateAttr ++ value ++ 34 :: rest) = number value :: attributes rest ∧
      withoutAttributes 0 (bitrateAttr ++ value ++ 34 :: rest) = withoutAttributes 0 rest := by
  have plain : 34 ∉ value := by
    intro member
    rcases numeral.mem member with same | same | same <;> exact absurd same (by decide)
  have other : 98 ∉ value := by
    intro member
    rcases numeral.mem member with same | same | same <;> exact absurd same (by decide)
  have inner : (98 : UInt8) :: (bitrateAttr.tail ++ value ++ 34 :: rest) = bitrateAttr ++ value ++ 34 :: rest := by
    rw [attribute_eq]
    rfl
  have here : bitrateAttr.isPrefixOf ((98 : UInt8) :: (bitrateAttr.tail ++ value ++ 34 :: rest)) = true := by
    rw [List.isPrefixOf_iff_prefix, inner, List.append_assoc]
    exact List.prefix_append _ _
  have behind : ((98 : UInt8) :: (bitrateAttr.tail ++ value ++ 34 :: rest)).drop bitrateAttr.length =
      value ++ 34 :: rest := by
    rw [inner, List.append_assoc, List.drop_left]
  have shape : bitrateAttr.tail ++ value ++ 34 :: rest = (bitrateAttr.tail ++ value ++ [34]) ++ rest := by simp
  rw [← inner, attributes, withoutAttributes, if_pos here, if_pos here, behind, up_to_quote plain, shape]
  constructor
  · rw [attributes_skip]
    simp only [List.mem_append, not_or]
    exact ⟨⟨by rw [attribute_eq]; decide, other⟩, by decide⟩
  · have width : bitrateAttr.length + value.length = (bitrateAttr.tail ++ value ++ [34]).length := by
      rw [attribute_eq]
      simp only [List.length_append, List.length_cons, List.tail_cons, List.length_nil]
      omega
    rw [width, withoutAttributes_skip]

theorem WellFormed.rest {front rest : Bytes} (wellFormed : WellFormed (front ++ rest)) : WellFormed rest := by
  intro i inside here
  have place : ∀ n, (front ++ rest).drop (front.length + n) = rest.drop n := by
    intro n
    rw [← List.drop_drop, List.drop_left]
  have closed := wellFormed (front.length + i) (by rw [List.length_append]; omega) (by rw [place]; exact here)
  rwa [Nat.add_assoc, place] at closed

theorem WellFormed.here {front tail : Bytes} (wellFormed : WellFormed (front ++ bitrateAttr ++ tail)) :
    34 ∈ tail ∧ Numeral (tail.takeWhile (· ≠ 34)) := by
  have behind : (front ++ bitrateAttr ++ tail).drop (front.length + bitrateAttr.length) = tail :=
    List.drop_left' (List.length_append ..)
  have start : bitrateAttr <+: (front ++ bitrateAttr ++ tail).drop front.length := by
    rw [List.append_assoc, List.drop_left]
    exact List.prefix_append _ _
  have inside : front.length < (front ++ bitrateAttr ++ tail).length := by
    simp only [List.length_append, attribute_length]
    omega
  have closed := wellFormed front.length inside start
  rwa [behind] at closed

/-- Where the erased attributes leave none behind, the loop takes those of the message. -/
theorem loop_takes {done msg : Bytes} (wellFormed : WellFormed msg)
    (plain : find bitrateAttr (done ++ withoutAttributes 0 msg) = none) (fits : (done ++ msg).length ≤ maxSize)
    {fuel : Nat} (enough : msg.length < fuel) (known : List Int) :
    loop takeBitrate fuel (done ++ msg, known) = .ok (done ++ withoutAttributes 0 msg, known ++ attributes msg) := by
  induction fuel generalizing done msg known with
  | zero => omega
  | succ fuel ih =>
    rcases attribute_cases msg with absent | ⟨front, value, rest, rfl, closed, found⟩ |
      ⟨front, tail, rfl, unclosed, -⟩
    · obtain ⟨numbers, kept⟩ := attributes_plain absent
      rw [kept] at plain
      rw [numbers, kept, List.append_nil, loop, takeBitrate_none known plain, ok_bind]
    · have numeral : Numeral value := by
        rw [List.append_assoc _ value] at wellFormed
        have first := wellFormed.here.2
        rwa [up_to_quote closed] at first
      have behind : WellFormed rest := by
        rw [show front ++ bitrateAttr ++ value ++ 34 :: rest = (front ++ bitrateAttr ++ value ++ [34]) ++ rest by simp]
          at wellFormed
        exact wellFormed.rest
      have before : ∀ j < front.length, ¬ bitrateAttr <+: (front ++ (bitrateAttr ++ value ++ 34 :: rest)).drop j := by
        rw [← List.append_assoc, ← List.append_assoc]
        exact (find_some_iff.mp found).2.2
      obtain ⟨numbers, kept⟩ := attributes_front before
      obtain ⟨numbers', kept'⟩ := attributes_here numeral rest
      rw [← List.append_assoc, ← List.append_assoc] at numbers kept
      rw [kept, kept', ← List.append_assoc] at plain
      have absent : find bitrateAttr (done ++ front) = none := by
        rw [find_none_iff] at plain ⊢
        exact fun inside => plain (inside.trans (List.prefix_append _ _).isInfix)
      have here : find bitrateAttr (done ++ front ++ bitrateAttr ++ value ++ 34 :: rest) =
          some (done ++ front).length := by
        have start : find bitrateAttr (bitrateAttr ++ (value ++ 34 :: rest)) = some 0 :=
          find_some_iff.mpr ⟨List.prefix_append _ _, Nat.zero_le _, fun j earlier => absurd earlier (Nat.not_lt_zero j)⟩
        rw [List.append_assoc, List.append_assoc]
        exact find_some_apart (attribute_apart _) absent start
      have shape : done ++ (front ++ bitrateAttr ++ value ++ 34 :: rest) =
          done ++ front ++ bitrateAttr ++ value ++ 34 :: rest := by simp only [List.append_assoc]
      rw [shape] at fits
      have taken := takeBitrate_closed known here closed fits
      rw [stoi_numeral numeral, ok_bind] at taken
      simp only [List.length_append, List.length_cons] at fits enough
      rw [shape, loop, taken, ok_bind, numbers, kept, numbers', kept', ← List.append_assoc]
      have later := ih behind plain (by simp only [List.length_append]; omega) (by omega) (known ++ [number value])
      rwa [List.append_assoc known] at later
    · exact absurd wellFormed.here.1 unclosed

/-- The numbers of the attributes that are taken out of a text, the first one and then again the first of what is left:
what stands up to the next quote, or, for lack of a quote, up to the end. -/
inductive TakenOut : Bytes → List Int → Prop where
  | none {msg : Bytes} (absent : find bitrateAttr msg = none) : TakenOut msg []
  | closed {front value rest : Bytes} {br : Int} {new : List Int}
      (first : find bitrateAttr (front ++ bitrateAttr ++ value ++ 34 :: rest) = some front.length)
      (plain : 34 ∉ value) (number : stoi value = .ok br) (others : TakenOut (front ++ rest) new) :
      TakenOut (front ++ bitrateAttr ++ value ++ 34 :: rest) (br :: new)
  | unclosed {front value : Bytes} {br : Int}
      (first : find bitrateAttr (front ++ bitrateAttr ++ value) = some front.length) (plain : 34 ∉ value)
      (number : stoi value = .ok br) : TakenOut (front ++ bitrateAttr ++ value) [br]

theorem loop_takenOut {fuel : Nat} {msg rest : Bytes} {known taken : List Int} (fits : msg.length ≤ maxSize)
    (left : loop takeBitrate fuel (msg, known) = .ok (rest, taken)) : ∃ new, taken = known ++ new ∧ TakenOut msg new := by
  induction fuel generalizing msg known with
  | zero => cases left
  | succ fuel ih =>
    rcases attribute_cases msg with absent | ⟨front, value, rest', rfl, plain, found⟩ | ⟨front, value, rfl, plain, found⟩
    · rw [loop, takeBitrate_none known absent, ok_bind] at left
      cases left
      exact ⟨[], (List.append_nil _).symm, .none absent⟩
    · rw [loop, takeBitrate_closed known found plain fits] at left
      cases number : stoi value with
      | error stop =>
        rw [number] at left
        cases left
      | ok br =>
        rw [number, ok_bind, ok_bind] at left
        have shorter : (front ++ rest').length ≤ maxSize := by
          simp only [List.length_append, List.length_cons] at fits ⊢
          omega
        obtain ⟨new, rfl, others⟩ := ih shorter left
        exact ⟨br :: new, List.append_assoc _ _ _, .closed found plain number others⟩
    · rw [loop, takeBitrate_open known found plain fits] at left
      cases number : stoi value with
      | error stop =>
        rw [number] at left
        cases left
      | ok br =>
        rw [number, ok_bind, ok_bind] at left
        dsimp only at left
        by_cases empty : front = []
        · rw [if_pos empty, (Jams.unclosed plain number).diverges _ (by subst empty; exact fits)] at left
          cases left
        · rw [if_neg empty] at left
          have absent : find bitrateAttr front = none := front_plain (by rwa [List.append_assoc] at found)
          cases fuel with
          | zero => cases left
          | succ fuel =>
            rw [loop, takeBitrate_none _ absent, ok_bind] at left
            cases left
            exact ⟨[br], rfl, .unclosed found plain number⟩

/-- The bitrates are those of the response as it was received, sorted: its attributes are what was taken out of it. -/
def Learns (conn : Connection) : Prop :=
  ∃ conn', conn.parseXml = .ok conn' ∧ conn'.availableBitrates.Pairwise (· ≤ ·) ∧
    conn'.availableBitrates.Perm (attributes conn.serverMessage) ∧
    conn'.serverMessage = withoutAttributes 0 conn.serverMessage

theorem manifestBitrates_parts {response rest : Bytes} {known bitrates : List Int}
    (parsed : manifestBitrates response known = .ok (rest, bitrates)) :
    ∃ unsorted, loop takeBitrate (response.length + 1) (response, known) = .ok (rest, unsorted) ∧ unsorted ≠ [] ∧
      bitrates = unsorted.mergeSort := by
  unfold manifestBitrates at parsed
  split at parsed
  · cases parsed
  obtain ⟨⟨rest', unsorted⟩, taken, parsed⟩ := bind_ok parsed
  dsimp only at parsed
  split at parsed
  · cases parsed
  · rename_i some
    cases parsed
    exact ⟨unsorted, taken, some, rfl⟩

theorem loop_leaves_none {fuel : Nat} {s r : Bytes × List Int} (left : loop takeBitrate fuel s = .ok r) :
    find bitrateAttr r.1 = none := by
  obtain ⟨s', -, last⟩ := loop_left left
  unfold takeBitrate at last
  dsimp only at last
  split at last
  · rename_i absent
    cases last
    exact absent
  · obtain ⟨brStr, -, last⟩ := bind_ok last
    obtain ⟨br, -, last⟩ := bind_ok last
    obtain ⟨msg, -, last⟩ := bind_ok last
    cases last

theorem parseXml_takes {conn : Connection} (fits : conn.serverMessage.length ≤ maxSize)
    (wellFormed : WellFormed conn.serverMessage)
    (plain : find bitrateAttr (withoutAttributes 0 conn.serverMessage) = none) :
    loop takeBitrate (conn.serverMessage.length + 1) (conn.serverMessage, conn.availableBitrates) =
      .ok (withoutAttributes 0 conn.serverMessage, conn.availableBitrates ++ attributes conn.serverMessage) :=
  @loop_takes [] conn.serverMessage wellFormed plain fits _ (Nat.lt_succ_self _) conn.availableBitrates

theorem Learns.from_one {conn : Connection} (learns : conn.Learns) (fits : conn.serverMessage.length ≤ maxSize)
    (wellFormed : WellFormed conn.serverMessage) :
    conn.availableBitrates = [] ∧ attributes conn.serverMessage ≠ [] ∧
      find bitrateAttr (withoutAttributes 0 conn.serverMessage) = none := by
  obtain ⟨conn', parsed, -, perm, left⟩ := learns
  rw [parseXml_eq] at parsed
  cases read : manifestBitrates conn.serverMessage conn.availableBitrates with
  | error stop =>
    rw [read] at parsed
    cases parsed
  | ok result =>
    obtain ⟨rest, bitrates⟩ := result
    rw [read] at parsed
    obtain rfl := Except.ok.inj parsed
    obtain ⟨unsorted, taken, some, rfl⟩ := manifestBitrates_parts read
    obtain rfl : rest = _ := left
    have plain := loop_leaves_none taken
    have takes := parseXml_takes fits wellFormed plain
    obtain rfl : _ = unsorted := (Prod.mk.inj (Except.ok.inj (takes.symm.trans taken))).2
    have sorted := List.mergeSort_perm (conn.availableBitrates ++ attributes conn.serverMessage)
      fun a b => decide (a ≤ b)
    have length := (sorted.symm.trans perm).length_eq
    rw [List.length_append] at length
    have none : conn.availableBitrates = [] := List.length_eq_zero_iff.mp (by omega)
    rw [none] at some
    exact ⟨none, some, plain⟩

/-- On a well-formed manifest the bitrates are right exactly where none is known, one is given and the erased attributes
leave no further one behind. -/
theorem learns_iff {conn : Connection} (fits : conn.serverMessage.length ≤ maxSize)
    (xml : find (text "Content-Type: text/xml") conn.serverMessage ≠ none)
    (wellFormed : WellFormed conn.serverMessage) :
    conn.Learns ↔ conn.availableBitrates = [] ∧ attributes conn.serverMessage ≠ [] ∧
      find bitrateAttr (withoutAttributes 0 conn.serverMessage) = none := by
  constructor
  · intro learns
    exact learns.from_one fits wellFormed
  · rintro ⟨none, some, plain⟩
    have taken := parseXml_takes fits wellFormed plain
    rw [none] at taken
    have read : manifestBitrates conn.serverMessage conn.availableBitrates =
        .ok (withoutAttributes 0 conn.serverMessage, (attributes conn.serverMessage).mergeSort) := by
      rw [manifestBitrates, if_neg xml, none]
      apply (congrArg (· >>= _) taken).trans
      rw [ok_bind]
      exact if_neg some
    exact ⟨_, by rw [parseXml_eq, read]; rfl, (manifestBitrates_ok read).2, List.mergeSort_perm _ _, rfl⟩

theorem learns_iff_sample : ({ serverMessage := manifestResponse } : Connection).Learns ↔
    ([] : List Int) = [] ∧ attributes manifestResponse ≠ [] ∧
      find bitrateAttr (withoutAttributes 0 manifestResponse) = none :=
  learns_iff (by decide +kernel) (by decide +kernel) (by decide +kernel)

/-- Erasing the only attribute makes another one. -/
def nested : Bytes := text "Content-Type: text/xml bitbitrate=\"5\"rate=\"7\""

/-- A second manifest adds its bitrates to those of the first; a nested one gives a bitrate that it does not have. -/
theorem bitrates_pile_up :
    ¬ ({ listed with serverMessage := manifestResponse } : Connection).Learns ∧
    ¬ ({ serverMessage := nested } : Connection).Learns ∧
    ¬ ∀ conn : Connection, conn.serverMessage.length ≤ maxSize →
      find (text "Content-Type: text/xml") conn.serverMessage ≠ none → WellFormed conn.serverMessage → conn.Learns := by
  have twice : ¬ ({ listed with serverMessage := manifestResponse } : Connection).Learns := by
    intro learns
    exact absurd (learns.from_one (by decide +kernel) (by decide +kernel)).1 (List.cons_ne_nil _ _)
  refine ⟨twice, ?_, ?_⟩
  · intro learns
    exact absurd (learns.from_one (by decide +kernel) (by decide +kernel)).2.2 (by decide +kernel)
  · intro always
    exact twice (always _ (by decide +kernel) (by decide +kernel) (by decide +kernel))

end Connection

end VStream
