import VStream.MiProxy.Adaptation

/-!
# The selected bitrate

The loop over the bitrates ends at the first one that is too high, so it needs
them sorted. Every manifest leaves them so, and nothing else changes them.
-/

namespace VStream
open Cpp MiProxy

namespace Connection

/-- The highest bitrate that the throughput supports, or the lowest one where it supports none. -/
def Selects (throughput : ℚ) (bitrates : List Int) (br : Int) : Prop :=
  IsGreatest {b | b ∈ bitrates ∧ 3 / 2 * (b : ℚ) ≤ throughput} br ∨
    (∀ b ∈ bitrates, throughput < 3 / 2 * (b : ℚ)) ∧ IsLeast {b | b ∈ bitrates} br

theorem selectBitrate_greatest {limit : ℚ} {current : Int} {bitrates : List Int}
    (sorted : (current :: bitrates).Pairwise (· ≤ ·)) (low : (current : ℚ) ≤ limit) :
    IsGreatest {b : Int | b ∈ current :: bitrates ∧ (b : ℚ) ≤ limit} (selectBitrate limit current bitrates) := by
  induction bitrates generalizing current with
  | nil =>
    refine ⟨⟨List.mem_singleton_self _, low⟩, ?_⟩
    rintro b ⟨member, -⟩
    exact (List.mem_singleton.mp member).le
  | cons br rest ih =>
    have first : current ≤ br := List.rel_of_pairwise_cons sorted List.mem_cons_self
    rw [selectBitrate]
    by_cases fits : (br : ℚ) ≤ limit
    · rw [if_pos fits]
      obtain ⟨⟨member, below⟩, highest⟩ := ih sorted.of_cons fits
      refine ⟨⟨List.mem_cons_of_mem _ member, below⟩, ?_⟩
      rintro b ⟨member', below'⟩
      rcases List.mem_cons.mp member' with rfl | later
      · exact first.trans (highest ⟨List.mem_cons_self, fits⟩)
      · exact highest ⟨later, below'⟩
    · rw [if_neg fits]
      refine ⟨⟨List.mem_cons_self, low⟩, ?_⟩
      rintro b ⟨member, below⟩
      rcases List.mem_cons.mp member with rfl | later
      · exact le_refl b
      · have above : br ≤ b := by
          rcases List.mem_cons.mp later with rfl | later
          · exact le_refl b
          · exact List.rel_of_pairwise_cons sorted.of_cons later
        exact absurd ((Int.cast_le.mpr above).trans below) fits

theorem chooseBitrate_selects (throughput : ℚ) {bitrates : List Int} (some : bitrates ≠ [])
    (sorted : bitrates.Pairwise (· ≤ ·)) : Selects throughput bitrates (chooseBitrate throughput bitrates) := by
  obtain ⟨first, rest, rfl⟩ := List.exists_cons_of_ne_nil some
  have supports : ∀ b : Int, (b : ℚ) ≤ throughput / (3 / 2) ↔ 3 / 2 * (b : ℚ) ≤ throughput := by
    intro b
    rw [le_div_iff₀ (by norm_num), mul_comm]
  have lowest : ∀ b ∈ first :: rest, first ≤ b := by
    intro b member
    rcases List.mem_cons.mp member with rfl | later
    · exact le_refl b
    · exact List.rel_of_pairwise_cons sorted later
  unfold chooseBitrate
  rw [List.headD_cons]
  by_cases low : (first : ℚ) ≤ throughput / (3 / 2)
  · have twice : (first :: first :: rest).Pairwise (· ≤ ·) := List.pairwise_cons.mpr ⟨lowest, sorted⟩
    have greatest := selectBitrate_greatest twice low
    simp only [List.mem_cons, or_self_left, supports] at greatest
    left
    simpa only [List.mem_cons] using greatest
  · right
    rw [selectBitrate, if_neg low]
    refine ⟨?_, List.mem_cons_self, lowest⟩
    intro b member
    rw [← not_le, ← supports]
    exact fun below => low ((Int.cast_le.mpr (lowest b member)).trans below)

/-! ### Runs -/

abbrev Heard (alpha : ℚ) : Connection → Connection → Prop :=
  Relation.ReflTransGen fun conn next => ∃ m, Hears alpha conn m next

theorem Estimate.After.sorted {alpha : ℚ} {e e' : Estimate} {m : Option Moment} (after : e.After alpha m e')
    (sorted : e.bitrates.Pairwise (· ≤ ·)) : e'.bitrates.Pairwise (· ≤ ·) := by
  match m with
  | none =>
    rw [show e' = e from after]
    exact sorted
  | some (.request asked forwarded) =>
    rw [after.2]
    exact sorted
  | some (.manifest response) =>
    obtain ⟨rest, bitrates, parsed, rfl⟩ := after
    exact (manifestBitrates_ok parsed).2
  | some (.chunk newThroughput) =>
    rw [show e' = _ from after]
    exact sorted
  | some .other =>
    rw [show e' = e from after]
    exact sorted

theorem Heard.sorted {alpha : ℚ} {fd : Int} {ip wwwIp : Bytes} {conn : Connection}
    (run : Heard alpha (fresh fd ip wwwIp) conn) : conn.availableBitrates.Pairwise (· ≤ ·) := by
  induction run with
  | refl => exact .nil
  | tail before hears ih =>
    obtain ⟨m, hears⟩ := hears
    exact hears.after.sorted ih

/-- Whatever manifests and chunks came before, a request for a chunk gets the highest bitrate that the throughput
supports, or else the lowest one. -/
theorem selected_bitrate {alpha : ℚ} {fd : Int} {ip wwwIp : Bytes} {conn : Connection}
    (run : Heard alpha (fresh fd ip wwwIp) conn) (listed : conn.availableBitrates ≠ []) {asked : Bytes}
    (names : NamesChunk asked) : ∃ conn', ({ conn with clientMessage := asked } : Connection).parseBitrate = .ok conn' ∧
      Selects conn.currentThroughput conn.availableBitrates conn'.currentBitrate := by
  have chosen := chooseBitrate_selects conn.currentThroughput listed run.sorted
  rw [parseBitrate_eq, if_neg fun unlisted => listed unlisted.2, rewritten, if_pos (by exact names)]
  exact ⟨_, rfl, chosen⟩

theorem heard_listed : Heard 1 (fresh 4 [] []) listed := by
  have first : ∃ m, Hears 1 (fresh 4 [] []) m awaiting := ⟨_, .client manifest_asked⟩
  have second : ∃ m, Hears 1 awaiting m listed := ⟨_, .server (by decide) manifest_handled⟩
  exact .tail (.single first) second

theorem selected_bitrate_sample :
    ∃ conn', ({ listed with clientMessage := chunkRequest } : Connection).parseBitrate = .ok conn' ∧
      Selects 15 [10, 40] conn'.currentBitrate :=
  selected_bitrate heard_listed (List.cons_ne_nil _ _) (by decide +kernel)

end Connection

end VStream
