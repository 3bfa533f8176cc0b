import VStream.Nameserver.Registration

/-!
# Links read from a file

Every pass of the constructor's second loop adds a link, from either end. Where
the file has none left the variables are added that were not read into.
-/

namespace VStream.Geography
open Cpp
open Std (TreeMap)

/-! ### Lines and passes -/

/-- The links that a file goes on with, as far as they are there. -/
def linkLines : Nat → IStream → List (Int × Int × Int)
  | 0, _ => []
  | n + 1, file =>
    if (readLink (0, 0, 0) file).2.fail then []
    else (readLink (0, 0, 0) file).1 :: linkLines n (readLink (0, 0, 0) file).2

/-- The links in a file, at most as many as it announces. -/
def listedLinks (contents : Bytes) : List (Int × Int × Int) :=
  linkLines (linkSection contents).1 (linkSection contents).2

section passes
variable (u : Nat → Int × Int × Int) (i n : Nat) (file : IStream)

theorem addedLinks_length : (addedLinks u i n file).length = n := by
  induction n generalizing i file with
  | zero => rfl
  | succ n ih => rw [addedLinks, List.length_cons, ih]

/-- The links of the file come first, whatever the variables held. -/
theorem addedLinks_listed : linkLines n file <+: addedLinks u i n file := by
  induction n generalizing i file with
  | zero => exact List.prefix_refl _
  | succ n ih =>
    rw [linkLines]
    split
    · exact List.nil_prefix
    · rename_i whole
      rw [Bool.not_eq_true] at whole
      rw [addedLinks, readLink_whole (u i) whole]
      exact List.prefix_cons_inj _ |>.mpr (ih _ _)

end passes

/-! ### Entries -/

theorem count_ends (links : List (Int × Int × Int)) (a b c : Int) :
    (links.flatMap (ends a)).count ⟨b, c⟩ = links.count (a, b, c) + links.count (b, a, c) := by
  induction links with
  | nil => rfl
  | cons link links ih =>
    obtain ⟨x, y, d⟩ := link
    have one : (ends a (x, y, d)).count ⟨b, c⟩ =
        (if (x, y, d) = (a, b, c) then 1 else 0) + if (x, y, d) = (b, a, c) then 1 else 0 := by
      unfold ends
      grind
    rw [List.flatMap_cons, List.count_append, ih, one, List.count_cons, List.count_cons]
    simp only [beq_iff_eq]
    omega

theorem load_edges {u : Nat → Int × Int × Int} {contents : Bytes} {geo : Geography}
    (loaded : load u (some contents) = .ok geo) (a : Int) :
    geo.edgesAt a = (addedLinks u 0 (linkSection contents).1 (linkSection contents).2).flatMap (ends a) := by
  rw [load_lines] at loaded
  obtain ⟨bare, added, loaded⟩ := bind_ok loaded
  cases loaded
  have nothing : bare.edgesAt a = [] := by
    rw [edgesAt, (addNodes_keeps added).2]
    simp
  rw [edgesAt_addLinks, nothing, List.nil_append]

/-! ### The symmetric closure -/

/-- The entries are those of these links from either end, as often as they occur, and no others. -/
structure Closure (geo : Geography) (links : List (Int × Int × Int)) : Prop where
  counts : ∀ a b c : Int, (geo.edgesAt a).count ⟨b, c⟩ = links.count (a, b, c) + links.count (b, a, c)
  read : ∀ (a : Int) (n : Neighbor), n ∈ geo.edgesAt a → (a, n.id, n.distance) ∈ links ∨ (n.id, a, n.distance) ∈ links

/-- The edges are those of the file exactly where the file has all the links that it announces. -/
theorem closure_iff {u : Nat → Int × Int × Int} {contents : Bytes} {geo : Geography}
    (loaded : load u (some contents) = .ok geo) :
    Closure geo (listedLinks contents) ↔ (listedLinks contents).length = (linkSection contents).1 := by
  have edges := load_edges loaded
  obtain ⟨more, split⟩ : listedLinks contents <+: _ :=
    addedLinks_listed u 0 (linkSection contents).1 (linkSection contents).2
  have length := addedLinks_length u 0 (linkSection contents).1 (linkSection contents).2
  rw [← split, List.length_append] at length
  simp only [← split] at edges
  constructor
  · intro closure
    cases more with
    | nil => exact length
    | cons link more =>
      -- the first link beyond the file has an entry that no link of the file accounts for
      obtain ⟨a, b, c⟩ := link
      have counted := closure.counts a b c
      rw [edges, count_ends, List.count_append, List.count_append, List.count_cons_self] at counted
      omega
  · intro whole
    obtain rfl : more = [] := List.eq_nil_of_length_eq_zero (by omega)
    simp only [List.append_nil] at edges
    have counts : ∀ a b c : Int, (geo.edgesAt a).count ⟨b, c⟩ =
        (listedLinks contents).count (a, b, c) + (listedLinks contents).count (b, a, c) := by
      intro a b c
      rw [edges, count_ends]
    refine ⟨counts, fun a n member => ?_⟩
    have some := List.count_pos_iff.mpr member
    rw [counts a n.id n.distance] at some
    rcases Nat.add_pos_iff_pos_or_pos.mp some with first | second
    · exact .inl (List.count_pos_iff.mp first)
    · exact .inr (List.count_pos_iff.mp second)

theorem closure_iff_sample : ∃ geo, load sampleUninit (some sampleFile) = .ok geo ∧
    (Closure geo (listedLinks sampleFile) ↔ (listedLinks sampleFile).length = (linkSection sampleFile).1) := by
  obtain ⟨geo, loaded, -⟩ := load_sample
  exact ⟨geo, loaded, closure_iff loaded⟩

def cutFile : Bytes := text "NUM_NODES: 1
0 CLIENT 10.0.0.1
NUM_LINKS: 1
"

/-- A file without its link is accepted, and gets a link of what the variables held. -/
theorem cut_file_linked : (∃ geo, load (fun _ => (7, 8, 9)) (some cutFile) = .ok geo ∧
      geo.edges.toList = [(7, [⟨8, 9⟩]), (8, [⟨7, 9⟩])]) ∧
    ¬∀ (u : Nat → Int × Int × Int) (contents : Bytes) (geo : Geography), load u (some contents) = .ok geo →
      Closure geo (listedLinks contents) := by
  have evaluated : (load (fun _ => (7, 8, 9)) (some cutFile)).map (fun geo => geo.edges.toList) =
      .ok [(7, [⟨8, 9⟩]), (8, [⟨7, 9⟩])] := by decide +kernel
  cases loaded : load (fun _ => (7, 8, 9)) (some cutFile) with
  | error stop =>
    rw [loaded] at evaluated
    cases evaluated
  | ok geo =>
    rw [loaded] at evaluated
    refine ⟨⟨geo, rfl, Except.ok.inj evaluated⟩, fun always => ?_⟩
    have counted := (always _ _ geo loaded).counts 7 8 9
    rw [load_edges loaded] at counted
    revert counted
    decide +kernel

end VStream.Geography
