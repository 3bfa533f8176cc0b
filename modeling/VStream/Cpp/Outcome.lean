import Mathlib

/-!
# Runs of a C++ program

A call returns a value or the program stops. Loops run under a fuel bound;
`loop_total`, `loop_passes` and `loop_rel` are the rules used for them.
-/

namespace VStream.Cpp

inductive Exception where
  | runtimeError (what : String)
  | invalidArgument
  | outOfRange
  | lengthError
  deriving DecidableEq, Repr

/-- The ways a program stops before the running call returns. -/
inductive Stop where
  | exit (status : Int)
  | thrown (e : Exception)
  | undefined
  | diverges
  /-- By a signal. -/
  | killed
  /-- In a system call that never returns. -/
  | blocked
  deriving DecidableEq, Repr

abbrev Exec := Except Stop

theorem bind_ok {α β : Type} {x : Exec α} {f : α → Exec β} {b : β} (h : x >>= f = .ok b) :
    ∃ a, x = .ok a ∧ f a = .ok b := by
  cases x with
  | error e => exact absurd h (by simp [bind, Except.bind])
  | ok a => exact ⟨a, rfl, h⟩

@[simp] theorem ok_bind {α β : Type} (a : α) (f : α → Exec β) : (Except.ok a : Exec α) >>= f = f a := rfl

@[simp] theorem error_bind {α β : Type} (e : Stop) (f : α → Exec β) :
    (Except.error e : Exec α) >>= f = .error e := rfl

@[simp] theorem pure_eq_ok {α : Type} (a : α) : (pure a : Exec α) = .ok a := rfl

theorem bind_ends {α β : Type} {x : Exec α} {f : α → Exec β} (first : x ≠ .error .diverges)
    (rest : ∀ a, f a ≠ .error .diverges) : x >>= f ≠ .error .diverges := by
  cases x with
  | error e => exact fun h => first (congrArg Except.error (Except.error.inj h))
  | ok a => exact rest a

/-- Two outcomes that stop alike or return related values. -/
def Matches {α β : Type} (rel : α → β → Prop) : Exec α → Exec β → Prop
  | .ok a, .ok b => rel a b
  | .error e, .error e' => e = e'
  | _, _ => False

theorem Matches.bind {α β γ δ : Type} {rel : α → β → Prop} {rel' : γ → δ → Prop} {x : Exec α} {y : Exec β}
    {f : α → Exec γ} {g : β → Exec δ} (first : Matches rel x y)
    (rest : ∀ a b, rel a b → Matches rel' (f a) (g b)) : Matches rel' (x >>= f) (y >>= g) := by
  cases x <;> cases y <;> first | exact rest _ _ first | exact first | exact first.elim

/-- What both do first makes no difference. -/
theorem Matches.bind_same {α γ δ : Type} {rel : γ → δ → Prop} (x : Exec α) {f : α → Exec γ} {g : α → Exec δ}
    (rest : ∀ a, Matches rel (f a) (g a)) : Matches rel (x >>= f) (x >>= g) := by
  cases x with
  | error e => exact rfl
  | ok a => exact rest a

theorem Matches.imp {α β : Type} {rel rel' : α → β → Prop} {x : Exec α} {y : Exec β} (related : Matches rel x y)
    (weaker : ∀ a b, rel a b → rel' a b) : Matches rel' x y := by
  cases x <;> cases y <;> first | exact weaker _ _ related | exact related

theorem Matches.map_eq {α β : Type} {f : α → β} {x : Exec α} {y : Exec β} (related : Matches (fun a b => f a = b) x y) :
    x.map f = y := by
  cases x <;> cases y <;>
    first | exact congrArg Except.ok related | exact congrArg Except.error related | exact related.elim

theorem Matches.eq {α : Type} {x y : Exec α} (related : Matches Eq x y) : x = y := by
  cases x <;> cases y <;> first | exact congrArg Except.ok related | exact congrArg Except.error related | exact related.elim

theorem Matches.map_eq_map {α β γ : Type} {f : α → γ} {g : β → γ} {x : Exec α} {y : Exec β}
    (related : Matches (fun a b => f a = g b) x y) : x.map f = y.map g := by
  cases x <;> cases y <;>
    first | exact congrArg Except.ok related | exact congrArg Except.error related | exact related.elim

theorem Matches.foldlM {α β ι : Type} {rel : α → β → Prop} {f : α → ι → Exec α} {g : β → ι → Exec β}
    (step : ∀ a b i, rel a b → Matches rel (f a i) (g b i)) (items : List ι) {a : α} {b : β} (start : rel a b) :
    Matches rel (items.foldlM f a) (items.foldlM g b) := by
  induction items generalizing a b with
  | nil => exact start
  | cons i items ih =>
    rw [List.foldlM_cons, List.foldlM_cons]
    exact (step a b i start).bind fun _ _ => ih

theorem Matches.trans {α : Type} {rel : α → α → Prop} (compose : ∀ a b c, rel a b → rel b c → rel a c)
    {x y z : Exec α} (first : Matches rel x y) (second : Matches rel y z) : Matches rel x z := by
  cases x <;> cases y <;> cases z <;>
    first | exact compose _ _ _ first second | exact Eq.trans first second | exact first.elim | exact second.elim

/-- Steps that commute can be taken in any order. -/
theorem Matches.foldlM_perm {α ι : Type} {rel : α → α → Prop} (refl : ∀ a, rel a a)
    (compose : ∀ a b c, rel a b → rel b c → rel a c) {f : α → ι → Exec α}
    (step : ∀ a b i, rel a b → Matches rel (f a i) (f b i))
    (swap : ∀ a i j, Matches rel (f a i >>= fun b => f b j) (f a j >>= fun b => f b i))
    {items items' : List ι} (perm : items.Perm items') (a : α) :
    Matches rel (items.foldlM f a) (items'.foldlM f a) := by
  induction perm generalizing a with
  | nil => exact refl a
  | cons i _ ih =>
    rw [List.foldlM_cons, List.foldlM_cons]
    cases f a i with
    | error stop => exact rfl
    | ok b => exact ih b
  | swap i j items =>
    simp only [List.foldlM_cons, ← bind_assoc]
    exact (swap a j i).bind fun b c related => Matches.foldlM step items related
  | trans _ _ first second => exact (first a).trans compose (second a)

/-! ### Folds -/

section folds
variable {σ ι : Type} {f : σ → ι → Exec σ}

/-- `inv` relates what has been taken in to the state it leads to. -/
theorem foldlM_inv {inv : List ι → σ → Prop}
    (step : ∀ done s i s', inv done s → f s i = .ok s' → inv (done ++ [i]) s') {done items : List ι} {s s' : σ}
    (start : inv done s) (h : items.foldlM f s = .ok s') : inv (done ++ items) s' := by
  induction items generalizing done s with
  | nil =>
    cases h
    rw [List.append_nil]
    exact start
  | cons i items ih =>
    rw [List.foldlM_cons] at h
    obtain ⟨s₁, first, h⟩ := bind_ok h
    have rest := ih (step done s i s₁ start first) h
    rwa [List.append_assoc] at rest

/-- Where an item is taken in exactly if it goes with all that came before, a list is taken in exactly if its items go
together. -/
theorem foldlM_pairwise {inv : List ι → σ → Prop} {good : ι → Prop} {goes : ι → ι → Prop}
    (step : ∀ done s i s', inv done s → f s i = .ok s' → inv (done ++ [i]) s')
    (admits : ∀ done s i, inv done s → good i → ((∃ s', f s i = .ok s') ↔ ∀ d ∈ done, goes d i))
    {done items : List ι} {s : σ} (goods : ∀ i ∈ items, good i) (start : inv done s) :
    (∃ s', items.foldlM f s = .ok s') ↔ items.Pairwise goes ∧ ∀ i ∈ items, ∀ d ∈ done, goes d i := by
  induction items generalizing done s with
  | nil => exact iff_of_true ⟨s, rfl⟩ ⟨.nil, by simp⟩
  | cons i items ih =>
    obtain ⟨here, later⟩ := List.forall_mem_cons.mp goods
    have admitted := admits done s i start here
    rw [List.pairwise_cons, List.forall_mem_cons, ← admitted]
    cases first : f s i with
    | error stop =>
      rw [List.foldlM_cons, first]
      exact iff_of_false (by rintro ⟨s', h⟩; cases h) (by rintro ⟨-, ⟨s', h⟩, -⟩; cases h)
    | ok s₁ =>
      have rest := ih later (step done s i s₁ start first)
      rw [List.foldlM_cons, first, ok_bind, rest]
      simp only [List.mem_append, List.mem_singleton]
      grind

end folds

/-! ### Machine integers -/

def intMax : Int := 2 ^ 31 - 1
def intMin : Int := -2 ^ 31

/-- A value of type `int`; arithmetic that leaves the range is undefined. -/
def toInt (n : Int) : Exec Int :=
  if intMin ≤ n ∧ n ≤ intMax then .ok n else .error .undefined

theorem toInt_ok {n : Int} (low : intMin ≤ n) (high : n ≤ intMax) : toInt n = .ok n := if_pos ⟨low, high⟩

theorem toInt_eq {n d : Int} (h : toInt n = .ok d) : d = n ∧ intMin ≤ n ∧ n ≤ intMax := by
  unfold toInt at h
  split at h
  · rename_i inside
    exact ⟨(Except.ok.inj h).symm, inside⟩
  · cases h

def castInt (n : Nat) : Int := (n : Int).bmod (2 ^ 32)

theorem castInt_of_le {n : Nat} (h : (n : Int) ≤ intMax) : castInt n = n := by
  unfold castInt intMax at *
  rw [Int.bmod_eq_of_le] <;> omega

def intMod (a b : Int) : Exec Int :=
  if b = 0 ∨ a = intMin ∧ b = -1 then .error .undefined else .ok (a.tmod b)

/-! ### Loops -/

inductive Pass (σ ρ : Type) where
  | again (s : σ)
  | leave (r : ρ)

section loops
variable {σ ρ : Type}

def loop (body : σ → Exec (Pass σ ρ)) : Nat → σ → Exec ρ
  | 0, _ => .error .diverges
  | fuel + 1, s =>
    body s >>= fun
      | .again s => loop body fuel s
      | .leave r => .ok r

/-- The states of a loop, from one pass to the next. -/
abbrev Rounds (body : σ → Exec (Pass σ ρ)) : σ → σ → Prop :=
  Relation.ReflTransGen fun s s' => body s = .ok (.again s')

theorem loop_left {body : σ → Exec (Pass σ ρ)} {fuel : Nat} {s : σ} {r : ρ} (h : loop body fuel s = .ok r) :
    ∃ s', Rounds body s s' ∧ body s' = .ok (.leave r) := by
  induction fuel generalizing s with
  | zero => cases h
  | succ fuel ih =>
    obtain ⟨pass, hbody, h⟩ := bind_ok h
    cases pass with
    | again s₁ =>
      obtain ⟨s', rounds, left⟩ := ih h
      exact ⟨s', .head hbody rounds, left⟩
    | leave r' =>
      obtain rfl : r' = r := Except.ok.inj h
      exact ⟨s, .refl, hbody⟩

/-- A loop that is left has gone through every round. -/
theorem loop_rounds {body : σ → Exec (Pass σ ρ)} {fuel : Nat} {s s' : σ} {r : ρ} (h : loop body fuel s = .ok r)
    (rounds : Rounds body s s') : ∃ p, body s' = .ok p := by
  induction rounds using Relation.ReflTransGen.head_induction_on generalizing fuel with
  | refl =>
    cases fuel with
    | zero => cases h
    | succ fuel =>
      obtain ⟨p, pass, -⟩ := bind_ok h
      exact ⟨p, pass⟩
  | head pass _ ih =>
    cases fuel with
    | zero => cases h
    | succ fuel =>
      rw [loop, pass, ok_bind] at h
      exact ih h

theorem loop_stopped {body : σ → Exec (Pass σ ρ)} {fuel : Nat} {s : σ} {stop : Stop}
    (h : loop body fuel s = .error stop) (ends : stop ≠ .diverges) : ∃ s', Rounds body s s' ∧ body s' = .error stop := by
  induction fuel generalizing s with
  | zero => exact absurd (Except.error.inj h).symm ends
  | succ fuel ih =>
    rw [loop] at h
    cases pass : body s with
    | error stop' =>
      rw [pass, error_bind] at h
      exact ⟨s, .refl, pass.trans (congrArg Except.error (Except.error.inj h))⟩
    | ok p =>
      rw [pass] at h
      cases p with
      | leave r => cases h
      | again s₁ =>
        obtain ⟨s', rounds, stopped⟩ := ih h
        exact ⟨s', .head pass rounds, stopped⟩

/-- The states that the passes of a loop start from. -/
def passes (body : σ → Exec (Pass σ ρ)) : Nat → σ → List σ
  | 0, _ => []
  | fuel + 1, s =>
    s :: match body s with
      | .ok (.again s') => passes body fuel s'
      | _ => []

/-- What a pass gives to a loop is given to it from its first pass to its last. -/
theorem loop_passes {body : σ → Exec (Pass σ ρ)} {P : σ → List σ → Exec ρ → Prop} (inv : σ → Prop) (measure : σ → Nat)
    (leave : ∀ s r, inv s → body s = .ok (.leave r) → P s [s] (.ok r))
    (stopped : ∀ s stop, inv s → body s = .error stop → P s [s] (.error stop))
    (again : ∀ s s', inv s → body s = .ok (.again s') →
      inv s' ∧ measure s' < measure s ∧ ∀ later result, P s' later result → P s (s :: later) result)
    {fuel : Nat} {s : σ} (start : inv s) (enough : measure s < fuel) : P s (passes body fuel s) (loop body fuel s) := by
  induction fuel generalizing s with
  | zero => omega
  | succ fuel ih =>
    rw [passes, loop]
    cases pass : body s with
    | error stop => exact stopped s stop start pass
    | ok p =>
      cases p with
      | leave r => exact leave s r start pass
      | again s' =>
        obtain ⟨keep, less, onward⟩ := again s s' start pass
        exact onward _ _ (ih keep (by omega))

/-- A loop whose rounds all go through is left, unless it goes on for ever. -/
theorem loop_goes {body : σ → Exec (Pass σ ρ)} {fuel : Nat} {s : σ} (goes : ∀ s', Rounds body s s' → ∃ p, body s' = .ok p)
    (ends : loop body fuel s ≠ .error .diverges) : ∃ r, loop body fuel s = .ok r := by
  cases h : loop body fuel s with
  | ok r => exact ⟨r, rfl⟩
  | error stop =>
    obtain ⟨s', rounds, stopped⟩ := loop_stopped h fun forever => ends (h.trans (congrArg Except.error forever))
    obtain ⟨p, pass⟩ := goes s' rounds
    cases stopped.symm.trans pass

/-- A measure that falls on every pass is enough fuel, and the loop is left with what the last pass gives. -/
theorem loop_total {body : σ → Exec (Pass σ ρ)} (inv : σ → Prop) (post : ρ → Prop) (measure : σ → Nat)
    (step : ∀ s, inv s → (∃ s', body s = .ok (.again s') ∧ inv s' ∧ measure s' < measure s) ∨
      ∃ r, body s = .ok (.leave r) ∧ post r)
    {fuel : Nat} {s : σ} (start : inv s) (enough : measure s < fuel) : ∃ r, loop body fuel s = .ok r ∧ post r := by
  induction fuel generalizing s with
  | zero => omega
  | succ fuel ih =>
    rcases step s start with ⟨s', hbody, keep, less⟩ | ⟨r, hbody, done⟩
    · obtain ⟨r, left, done⟩ := ih keep (by omega)
      exact ⟨r, by rw [loop, hbody]; exact left, done⟩
    · exact ⟨r, by rw [loop, hbody]; rfl, done⟩

theorem loop_ends {body : σ → Exec (Pass σ ρ)} (inv : σ → Prop) (measure : σ → Nat)
    (ends : ∀ s, inv s → body s ≠ .error .diverges)
    (again : ∀ s s', inv s → body s = .ok (.again s') → inv s' ∧ measure s' < measure s)
    {fuel : Nat} {s : σ} (start : inv s) (enough : measure s < fuel) : loop body fuel s ≠ .error .diverges := by
  induction fuel generalizing s with
  | zero => omega
  | succ fuel ih =>
    cases pass : body s with
    | error e =>
      rw [loop, pass, error_bind]
      intro h
      exact ends s start (pass.trans (congrArg Except.error (Except.error.inj h)))
    | ok p =>
      cases p with
      | leave r => simp [loop, pass]
      | again s' =>
        obtain ⟨keep, less⟩ := again s s' start pass
        rw [loop, pass, ok_bind]
        exact ih keep (by omega)

theorem loop_more {body : σ → Exec (Pass σ ρ)} {fuel more : Nat} {s : σ} (le : fuel ≤ more)
    (enough : loop body fuel s ≠ .error .diverges) : loop body more s = loop body fuel s := by
  induction fuel generalizing more s with
  | zero => exact absurd rfl enough
  | succ fuel ih =>
    obtain ⟨more, rfl⟩ : ∃ m, more = m + 1 := ⟨more - 1, by omega⟩
    simp only [loop] at enough ⊢
    cases pass : body s with
    | error e => rfl
    | ok p =>
      cases p with
      | leave r => rfl
      | again s' =>
        rw [pass] at enough
        exact ih (by omega) enough

def PassRel {σ' ρ' : Type} (states : σ → σ' → Prop) (results : ρ → ρ' → Prop) : Pass σ ρ → Pass σ' ρ' → Prop
  | .again s, .again s' => states s s'
  | .leave r, .leave r' => results r r'
  | _, _ => False

theorem loop_rel {σ' ρ' : Type} {states : σ → σ' → Prop} {results : ρ → ρ' → Prop}
    {body : σ → Exec (Pass σ ρ)} {body' : σ' → Exec (Pass σ' ρ')}
    (step : ∀ s s', states s s' → Matches (PassRel states results) (body s) (body' s'))
    (fuel : Nat) {s : σ} {s' : σ'} (start : states s s') :
    Matches results (loop body fuel s) (loop body' fuel s') := by
  induction fuel generalizing s s' with
  | zero => exact rfl
  | succ fuel ih =>
    refine (step s s' start).bind fun p p' related => ?_
    cases p <;> cases p' <;> first | exact ih related | exact related | exact related.elim

end loops

end VStream.Cpp
