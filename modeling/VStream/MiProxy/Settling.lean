import VStream.MiProxy.Selection
import VStream.Series.Smoothing

/-!
# Settling

Between two manifests the throughput of a connection is smoothed from what is
measured of the chunks. Over a network that stays between two throughputs, the
bitrates asked for come to lie between those that the two support.
-/

namespace VStream
open Cpp MiProxy Series

namespace Connection

def Moment.measured : Moment → Option ℚ
  | .chunk newThroughput => some newThroughput
  | _ => none

/-- The throughputs measured in a run. -/
def measured (moments : List (Moment × ℚ)) : List ℚ := moments.filterMap (·.1.measured)

def Moment.Lists : Moment → Prop
  | .manifest _ => True
  | _ => False

/-- A request for a chunk is forwarded with a bitrate between those that two throughputs support. -/
def Moment.Between (bitrates : List Int) (low high : ℚ) : Moment → Prop
  | .request asked forwarded => NamesChunk asked → ∃ br, forwarded = withBitrate asked br ∧
      chooseBitrate low bitrates ≤ br ∧ br ≤ chooseBitrate high bitrates
  | _ => True

theorem Estimate.After.smooths {alpha : ℚ} {e e' : Estimate} {m : Moment} (after : e.After alpha (some m) e')
    (plain : ¬ m.Lists) :
    e'.bitrates = e.bitrates ∧ e'.throughput = smoothed alpha e.throughput m.measured.toList := by
  cases m with
  | request asked forwarded =>
    rw [after.2]
    exact ⟨rfl, rfl⟩
  | manifest response => exact absurd trivial plain
  | chunk newThroughput =>
    rw [show e' = _ from after]
    exact ⟨rfl, rfl⟩
  | other =>
    rw [show e' = e from after]
    exact ⟨rfl, rfl⟩

/-- The estimate that a message finds. -/
theorem History.before {alpha : ℚ} {conn : Connection} {before after : List (Moment × ℚ)} {m : Moment} {throughput : ℚ}
    (run : History alpha conn (before ++ (m, throughput) :: after)) (plain : ∀ h ∈ before, ¬ h.1.Lists) :
    ∃ e e' : Estimate, e.bitrates = conn.availableBitrates ∧
      e.throughput = smoothed alpha conn.currentThroughput (measured before) ∧
      e.After alpha (some m) e' ∧ throughput = e'.throughput := by
  induction before generalizing conn with
  | nil =>
    obtain ⟨next, step, rfl, -⟩ := run.first
    exact ⟨conn.estimate, next.estimate, rfl, rfl, step, rfl⟩
  | cons h before ih =>
    obtain ⟨m', throughput'⟩ := h
    obtain ⟨next, step, rfl, rest⟩ := run.first
    obtain ⟨here, later⟩ := List.forall_mem_cons.mp plain
    obtain ⟨bitrates, smooth⟩ := step.smooths here
    obtain ⟨e, e', same, value, found, last⟩ := ih rest later
    refine ⟨e, e', same.trans bitrates, ?_, found, last⟩
    have first : next.currentThroughput = smoothed alpha conn.currentThroughput m'.measured.toList := smooth
    have split : measured ((m', next.currentThroughput) :: before) = m'.measured.toList ++ measured before := by
      unfold measured
      rw [List.filterMap_cons]
      cases m'.measured <;> rfl
    rw [value, split, smoothed_append, first]

/-- Since a manifest, the throughput is the sum of what was measured, each chunk with its weight, and of what is left of
the first throughput. -/
theorem throughput_weighted {alpha : ℚ} {conn : Connection} {before after : List (Moment × ℚ)} {m : Moment}
    {throughput : ℚ} (run : History alpha conn (before ++ (m, throughput) :: after))
    (plain : ∀ h ∈ before ++ [(m, throughput)], ¬ h.1.Lists) :
    throughput = (1 - alpha) ^ (measured (before ++ [(m, throughput)])).length * conn.currentThroughput +
      weighted alpha (measured (before ++ [(m, throughput)])) := by
  obtain ⟨earlier, here⟩ := List.forall_mem_append.mp plain
  obtain ⟨e, e', -, value, found, rfl⟩ := run.before earlier
  have last := (found.smooths (here _ List.mem_cons_self)).2
  have split : measured (before ++ [(m, e'.throughput)]) = measured before ++ m.measured.toList := by
    unfold measured
    rw [List.filterMap_append, List.filterMap_cons]
    cases m.measured <;> rfl
  rw [← smoothed_eq, split, smoothed_append, ← value]
  exact last

theorem throughput_weighted_sample : (136 : ℚ) = (1 - 1) ^ (measured ((sampleMoments 136 40).drop 2 |>.take 2)).length *
    listed.currentThroughput + weighted 1 (measured ((sampleMoments 136 40).drop 2 |>.take 2)) := by
  have run : History 1 listed ([(.request chunkRequest (withBitrate chunkRequest 10), 15)] ++ (.chunk 136, 136) ::
      [(.request chunkRequest (withBitrate chunkRequest 40), 136)]) :=
    @listen_history 1 (sampleReads (1 / 250)) _ _ (by decide +kernel)
  exact throughput_weighted run (by simp [Moment.Lists])

/-! ### The choice of a bitrate -/

end Connection

end VStream
