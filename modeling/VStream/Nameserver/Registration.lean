import VStream.Nameserver.Addresses

/-!
# Taking in nodes

The constructor takes in the node lines of a file one by one, and refuses a line
whose id or address it has already. It looks for `NO_IP` too, as the number 0,
which is also the address 0.0.0.0.
-/

namespace VStream.Geography
open Cpp
open Std (TreeMap)

/-! ### One line -/

/-- The types that a node can have. -/
def Recognised (type : Bytes) : Prop := type = text "CLIENT" ∨ type = text "SWITCH" ∨ type = text "SERVER"

theorem make_iff {id : Int} {type ip : Bytes} : (∃ node, Node.make id type ip = .ok node) ↔ Recognised type := by
  unfold Node.make Recognised
  split_ifs with client switch server
  · exact iff_of_true ⟨_, rfl⟩ (.inl client)
  · exact iff_of_true ⟨_, rfl⟩ (.inr (.inl switch))
  · exact iff_of_true ⟨_, rfl⟩ (.inr (.inr server))
  · apply iff_of_false
    · rintro ⟨node, made⟩
      cases made
    · rintro (here | here | here)
      · exact client here
      · exact switch here
      · exact server here

/-- What the maps hold after these lines. -/
structure Registered (lines : List (Int × Bytes × Bytes)) (geo : Geography) : Prop where
  nodes : ∀ line ∈ lines, ∃ node, Node.make line.1 line.2.1 line.2.2 = .ok node ∧ geo.nodes[line.1]? = some node
  only : ∀ (id : Int) (node : Node), geo.nodes[id]? = some node → ∃ line ∈ lines, line.1 = id
  IPmap : ∀ (k : UInt32) (id : Int), geo.IPmap[k]? = some id ↔
    ∃ line ∈ lines, line.1 = id ∧ line.2.2 ≠ text "NO_IP" ∧ ipUint line.2.2 = k

/-- `line` is taken in although `earlier` was. -/
def Goes (earlier line : Int × Bytes × Bytes) : Prop :=
  earlier.1 ≠ line.1 ∧ (earlier.2.2 ≠ text "NO_IP" → ipUint earlier.2.2 ≠ ipUint line.2.2)

section taking
variable {lines : List (Int × Bytes × Bytes)} {geo geo' : Geography} {line : Int × Bytes × Bytes}

theorem registered_nil : Registered [] {} where
  nodes line member := absurd member List.not_mem_nil
  only id node entry := by simp at entry
  IPmap k id := by simp

theorem Registered.free (registered : Registered lines geo) :
    (geo.nodes[line.1]? = none ∧ geo.IPmap[ipUint line.2.2]? = none) ↔ ∀ earlier ∈ lines, Goes earlier line := by
  constructor
  · rintro ⟨id, address⟩ earlier member
    refine ⟨fun same => ?_, fun carries same => ?_⟩
    · obtain ⟨node, -, entry⟩ := registered.nodes earlier member
      rw [same, id] at entry
      cases entry
    · have entry := (registered.IPmap _ _).mpr ⟨earlier, member, rfl, carries, same⟩
      rw [address] at entry
      cases entry
  · intro goes
    constructor
    · cases entry : geo.nodes[line.1]? with
      | none => rfl
      | some node =>
        obtain ⟨earlier, member, same⟩ := registered.only _ _ entry
        exact absurd same (goes earlier member).1
    · cases entry : geo.IPmap[ipUint line.2.2]? with
      | none => rfl
      | some id =>
        obtain ⟨earlier, member, -, carries, same⟩ := (registered.IPmap _ _).mp entry
        exact absurd same ((goes earlier member).2 carries)

theorem Registered.admits (registered : Registered lines geo) (recognised : Recognised line.2.1) :
    (∃ geo', geo.addNode line.1 line.2.1 line.2.2 = .ok geo') ↔ ∀ earlier ∈ lines, Goes earlier line := by
  rw [← registered.free]
  unfold addNode
  split
  · rename_i free
    obtain ⟨node, made⟩ := make_iff.mpr recognised
    exact iff_of_true ⟨_, by rw [made]; rfl⟩ free
  · rename_i taken
    exact iff_of_false (by rintro ⟨geo', added⟩; cases added) taken

theorem Registered.addNode (registered : Registered lines geo)
    (added : geo.addNode line.1 line.2.1 line.2.2 = .ok geo') : Registered (lines ++ [line]) geo' := by
  unfold Geography.addNode at added
  split at added
  · rename_i free
    obtain ⟨id, address⟩ := free
    obtain ⟨node, made, added⟩ := bind_ok added
    cases added
    constructor
    case nodes =>
      intro other member
      dsimp only
      rw [TreeMap.getElem?_insert]
      rcases List.mem_append.mp member with old | new
      · obtain ⟨node', made', entry⟩ := registered.nodes other old
        refine ⟨node', made', ?_⟩
        rw [if_neg, entry]
        intro same
        rw [Std.LawfulEqCmp.eq_of_compare same, entry] at id
        cases id
      · obtain rfl := List.mem_singleton.mp new
        exact ⟨node, made, by simp⟩
    case only =>
      intro id' node' entry
      dsimp only at entry
      rw [TreeMap.getElem?_insert] at entry
      split at entry
      · rename_i same
        exact ⟨line, by simp, Std.LawfulEqCmp.eq_of_compare same⟩
      · obtain ⟨earlier, member, same⟩ := registered.only _ _ entry
        exact ⟨earlier, List.mem_append_left _ member, same⟩
    case IPmap =>
      intro k id'
      have before := registered.IPmap k id'
      simp only [List.mem_append, List.mem_singleton, or_and_right, exists_or, exists_eq_left]
      rw [← before]
      by_cases carries : line.2.2 = text "NO_IP"
      · simp [carries]
      · rw [if_pos carries, TreeMap.getElem?_insert]
        by_cases here : ipUint line.2.2 = k
        · rw [← here, address]
          simp [carries]
        · simp [here]
  · cases added

end taking

/-! ### All lines -/

/-- The constructor takes in these lines. -/
def Accepts (lines : List (Int × Bytes × Bytes)) : Prop := ∃ geo, addNodes lines = .ok geo

theorem accepts_iff {lines : List (Int × Bytes × Bytes)} (recognised : ∀ line ∈ lines, Recognised line.2.1) :
    Accepts lines ↔ lines.Pairwise Goes := by
  have accepted := foldlM_pairwise (f := fun geo line => geo.addNode line.1 line.2.1 line.2.2)
    (fun _ _ _ _ registered added => Registered.addNode registered added)
    (fun _ _ _ registered recognised => Registered.admits registered recognised) recognised registered_nil
  exact accepted.trans (and_iff_left fun line _ earlier member => absurd member List.not_mem_nil)

theorem registered_lines {lines : List (Int × Bytes × Bytes)} {geo : Geography} (added : addNodes lines = .ok geo) :
    Registered lines geo :=
  foldlM_inv (fun _ _ _ _ registered added => Registered.addNode registered added) registered_nil added

/-! ### Addresses of lines -/

/-- The type is known, and the address is `NO_IP` or a dotted quad. -/
def WellFormed (line : Int × Bytes × Bytes) : Prop :=
  Recognised line.2.1 ∧ (line.2.2 = text "NO_IP" ∨ ∃ n, Dotted line.2.2 n)

def Different (line line' : Int × Bytes × Bytes) : Prop :=
  line.1 ≠ line'.1 ∧ ∀ n, ¬(Dotted line.2.2 n ∧ Dotted line'.2.2 n)

/-- No two lines have the same id, and no two carry the same address. -/
def Distinct (lines : List (Int × Bytes × Bytes)) : Prop := lines.Pairwise Different

instance : Std.Symm Different where
  symm _ _ different := ⟨different.1.symm, fun n both => different.2 n both.symm⟩

section lines
variable {line line' : Int × Bytes × Bytes} {lines lines' : List (Int × Bytes × Bytes)}

theorem WellFormed.carries (wellFormed : WellFormed line) (k : UInt32) :
    line.2.2 ≠ text "NO_IP" ∧ ipUint line.2.2 = k ↔ Dotted line.2.2 k.toNat := by
  constructor
  · rintro ⟨carries, rfl⟩
    obtain ⟨n, dotted⟩ := wellFormed.2.resolve_left carries
    rw [ipUint_dotted dotted]
    exact dotted
  · intro dotted
    exact ⟨dotted.address, UInt32.toNat_inj.mp (ipUint_dotted dotted)⟩

/-- A line that carries 0.0.0.0 stands in the way of one without an address. -/
theorem goes_iff (wellFormed : WellFormed line) (wellFormed' : WellFormed line') :
    Goes line line' ↔ Different line line' ∧ ¬(Dotted line.2.2 0 ∧ line'.2.2 = text "NO_IP") := by
  have here := wellFormed.carries (ipUint line'.2.2)
  unfold Goes Different
  rw [and_assoc]
  refine and_congr_right fun _ => ?_
  by_cases none : line'.2.2 = text "NO_IP"
  · have zero : ipUint line'.2.2 = 0 := by rw [none]; rfl
    have undotted : ∀ n, ¬Dotted line'.2.2 n := fun n dotted => dotted.address none
    rw [zero] at here ⊢
    simp only [none, and_true, UInt32.toNat_zero] at here ⊢
    grind
  · obtain ⟨n, dotted⟩ := wellFormed'.2.resolve_left none
    have only : ∀ m, Dotted line'.2.2 m → m = n := fun m dotted' =>
      (ipUint_dotted dotted').symm.trans (ipUint_dotted dotted)
    rw [ipUint_dotted dotted] at here
    grind

theorem Accepts.distinct (wellFormed : ∀ line ∈ lines, WellFormed line) (accepted : Accepts lines) : Distinct lines := by
  have goes := (accepts_iff fun line member => (wellFormed line member).1).mp accepted
  exact goes.imp_of_mem fun member member' goes => ((goes_iff (wellFormed _ member) (wellFormed _ member')).mp goes).1

theorem Distinct.accepts (wellFormed : ∀ line ∈ lines, WellFormed line) (distinct : Distinct lines)
    (free : ∀ line ∈ lines, ∀ line' ∈ lines, ¬(Dotted line.2.2 0 ∧ line'.2.2 = text "NO_IP")) : Accepts lines := by
  apply (accepts_iff fun line member => (wellFormed line member).1).mpr
  refine distinct.imp_of_mem fun member member' different => ?_
  exact (goes_iff (wellFormed _ member) (wellFormed _ member')).mpr ⟨different, free _ member _ member'⟩

/-- The maps hold these lines: every line has its node, and `IPmap` has their addresses and no others. -/
structure Holds (lines : List (Int × Bytes × Bytes)) (geo : Geography) : Prop where
  nodes : ∀ line ∈ lines, ∃ node, Node.make line.1 line.2.1 line.2.2 = .ok node ∧ geo.nodes[line.1]? = some node
  IPmap : ∀ (k : UInt32) (id : Int), geo.IPmap[k]? = some id ↔ ∃ line ∈ lines, line.1 = id ∧ Dotted line.2.2 k.toNat
  unlisted : ∀ line ∈ lines, line.2.2 = text "NO_IP" → ∀ k : UInt32, geo.IPmap[k]? ≠ some line.1

theorem holds_lines (wellFormed : ∀ line ∈ lines, WellFormed line) {geo : Geography}
    (added : addNodes lines = .ok geo) : Holds lines geo := by
  have registered := registered_lines added
  have distinct := Accepts.distinct wellFormed ⟨geo, added⟩
  have IPmap : ∀ (k : UInt32) (id : Int), geo.IPmap[k]? = some id ↔
      ∃ line ∈ lines, line.1 = id ∧ Dotted line.2.2 k.toNat := by
    intro k id
    rw [registered.IPmap]
    refine exists_congr fun line => and_congr_right fun member => and_congr_right fun _ => ?_
    exact (wellFormed line member).carries k
  refine ⟨registered.nodes, IPmap, fun line member none k entry => ?_⟩
  obtain ⟨owner, member', same, dotted⟩ := (IPmap k line.1).mp entry
  have other : owner ≠ line := by
    rintro rfl
    exact dotted.address none
  exact (List.Pairwise.forall distinct member' member other).1 same

end lines

/-! ### Acceptance -/

/-- The lines are accepted exactly where they are distinct, in whatever order, and the maps then hold them. -/
structure Registers (lines : List (Int × Bytes × Bytes)) : Prop where
  accepts : Accepts lines ↔ Distinct lines
  order : ∀ lines' : List (Int × Bytes × Bytes), lines.Perm lines' → (Accepts lines' ↔ Accepts lines)
  holds : ∀ geo, addNodes lines = .ok geo → Holds lines geo

/-- A file is accepted as its node lines are. -/
theorem load_accepts (u : Nat → Int × Int × Int) (contents : Bytes) :
    (∃ geo, load u (some contents) = .ok geo) ↔ Accepts (nodeLines contents) := by
  rw [load_lines]
  constructor
  · rintro ⟨geo, loaded⟩
    obtain ⟨bare, added, -⟩ := bind_ok loaded
    exact ⟨bare, added⟩
  · rintro ⟨bare, added⟩
    exact ⟨_, by rw [added]; rfl⟩

theorem load_holds {u : Nat → Int × Int × Int} {contents : Bytes} (wellFormed : ∀ line ∈ nodeLines contents, WellFormed line)
    {geo : Geography} (loaded : load u (some contents) = .ok geo) : Holds (nodeLines contents) geo := by
  rw [load_lines] at loaded
  obtain ⟨bare, added, loaded⟩ := bind_ok loaded
  have held := holds_lines wellFormed added
  cases loaded
  constructor
  · rw [(addLinks_keeps _ _).1]
    exact held.nodes
  · rw [(addLinks_keeps _ _).2.1]
    exact held.IPmap
  · rw [(addLinks_keeps _ _).2.1]
    exact held.unlisted

/-- Well-formed lines are registered as they should be, unless they are distinct and have both a line without an address
and one with 0.0.0.0. A file goes by its lines. -/
theorem registers_iff {lines : List (Int × Bytes × Bytes)} (wellFormed : ∀ line ∈ lines, WellFormed line) :
    (Registers lines ↔ ¬(Distinct lines ∧ (∃ line ∈ lines, Dotted line.2.2 0) ∧ ∃ line ∈ lines, line.2.2 = text "NO_IP")) ∧
      ∀ (u : Nat → Int × Int × Int) (contents : Bytes), nodeLines contents = lines →
        ((∃ geo, load u (some contents) = .ok geo) ↔ Accepts lines) ∧
        ∀ geo, load u (some contents) = .ok geo → Holds lines geo := by
  refine ⟨⟨?_, ?_⟩, ?_⟩
  · rintro registers ⟨distinct, ⟨zero, member, dotted⟩, none, member', absent⟩
    -- with 0.0.0.0 first, the line without an address is refused
    have other : none ≠ zero := by
      rintro rfl
      exact dotted.address absent
    have first : lines.Perm (zero :: lines.erase zero) := List.perm_cons_erase member
    have left : none ∈ lines.erase zero := (List.mem_erase_of_ne other).mpr member'
    have accepted := (registers.order _ first).mpr (registers.accepts.mpr distinct)
    have goes := (accepts_iff fun line here => (wellFormed line (first.mem_iff.mpr here)).1).mp accepted
    have refused := List.rel_of_pairwise_cons goes left
    exact ((goes_iff (wellFormed zero member) (wellFormed none member')).mp refused).2 ⟨dotted, absent⟩
  · intro free
    have accepts : ∀ lines' : List (Int × Bytes × Bytes), lines.Perm lines' → (Accepts lines' ↔ Distinct lines) := by
      intro lines' perm
      have wellFormed' : ∀ line ∈ lines', WellFormed line := fun line member =>
        wellFormed line (perm.mem_iff.mpr member)
      have same : Distinct lines' ↔ Distinct lines := (perm.pairwise_iff fun different => Std.Symm.symm _ _ different).symm
      refine ⟨fun accepted => same.mp (accepted.distinct wellFormed'), fun distinct => ?_⟩
      refine (same.mpr distinct).accepts wellFormed' fun line member line' member' both => free ?_
      exact ⟨distinct, ⟨line, perm.mem_iff.mpr member, both.1⟩, line', perm.mem_iff.mpr member', both.2⟩
    have here := accepts lines (.refl lines)
    exact ⟨here, fun lines' perm => (accepts lines' perm).trans here.symm, fun geo added => holds_lines wellFormed added⟩
  · rintro u contents rfl
    exact ⟨load_accepts u contents, fun geo loaded => load_holds wellFormed loaded⟩

theorem wellFormed_quad {id : Int} {type : Bytes} {a b c d : Nat} (recognised : Recognised type)
    (fits : a < 256 ∧ b < 256 ∧ c < 256 ∧ d < 256) : WellFormed (id, type, quad a b c d) :=
  ⟨recognised, .inr ⟨_, dotted_quad fits⟩⟩

def sampleLines : List (Int × Bytes × Bytes) := [(0, text "CLIENT", quad 10 0 0 1), (1, text "SERVER", quad 10 0 0 2)]

theorem registers_iff_sample :
    (Registers sampleLines ↔ ¬(Distinct sampleLines ∧ (∃ line ∈ sampleLines, Dotted line.2.2 0) ∧
      ∃ line ∈ sampleLines, line.2.2 = text "NO_IP")) ∧
    ∀ (u : Nat → Int × Int × Int) (contents : Bytes), nodeLines contents = sampleLines →
      ((∃ geo, load u (some contents) = .ok geo) ↔ Accepts sampleLines) ∧
      ∀ geo, load u (some contents) = .ok geo → Holds sampleLines geo := by
  apply registers_iff
  intro line member
  simp only [sampleLines, List.mem_cons, List.not_mem_nil, or_false] at member
  rcases member with rfl | rfl
  · exact wellFormed_quad (.inl rfl) (by decide)
  · exact wellFormed_quad (.inr (.inr rfl)) (by decide)

def zeroLines : List (Int × Bytes × Bytes) := [(0, text "CLIENT", quad 0 0 0 0), (1, text "SWITCH", text "NO_IP")]

theorem zeroLines_wellFormed : ∀ line ∈ zeroLines, WellFormed line := by
  intro line member
  simp only [zeroLines, List.mem_cons, List.not_mem_nil, or_false] at member
  rcases member with rfl | rfl
  · exact wellFormed_quad (.inl rfl) (by decide)
  · exact ⟨.inr (.inl rfl), .inl rfl⟩

theorem zeroLines_distinct : Distinct zeroLines := by
  refine List.pairwise_pair.mpr ⟨by decide, ?_⟩
  rintro n ⟨-, dotted⟩
  exact dotted.address rfl

/-- A node without an address behind the client 0.0.0.0 is refused, in front of it both are accepted. -/
theorem zero_address_clash : ¬Accepts zeroLines ∧ Accepts zeroLines.reverse ∧
    ¬∀ lines : List (Int × Bytes × Bytes), (∀ line ∈ lines, WellFormed line) → Registers lines := by
  have refused : ¬Accepts zeroLines := by
    rintro ⟨geo, added⟩
    have evaluated : (addNodes zeroLines).isOk = false := by decide +kernel
    rw [added] at evaluated
    cases evaluated
  have accepted : Accepts zeroLines.reverse := by
    have evaluated : (addNodes zeroLines.reverse).isOk = true := by decide +kernel
    cases added : addNodes zeroLines.reverse with
    | ok geo => exact ⟨geo, added⟩
    | error stop =>
      rw [added] at evaluated
      cases evaluated
  refine ⟨refused, accepted, fun always => refused ?_⟩
  exact (always zeroLines zeroLines_wellFormed).accepts.mpr zeroLines_distinct

end VStream.Geography
