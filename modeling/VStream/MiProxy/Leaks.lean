import VStream.MiProxy.Run

/-!
# Lost descriptors

Each careless call costs the process one descriptor for good. The system gives
out the lowest descriptor that is free, so without careless calls the
descriptors stay below a bound on the number of clients, and `select` can be
asked about them.
-/

namespace VStream
open Cpp Net Resource Function MiProxy
open Std (TreeMap)

namespace Process

/-- Calls of which `n` are careless, each as `given`. -/
inductive Loses (given : Process → Event → Prop) (s : Process) : ℕ → Process → Prop where
  | refl : Loses given s 0 s
  | careful {n : ℕ} {t u : Process} {e : Event} {actions : List Action} (run : Loses given s n t) (allowed : given t e)
      (careful : t.proxy.Careful e) (call : Call t e actions u) : Loses given s n u
  | careless {n : ℕ} {t u : Process} {e : Event} {actions : List Action} (run : Loses given s n t) (allowed : given t e)
      (careless : ¬ t.proxy.Careful e) (call : Call t e actions u) : Loses given s (n + 1) u

/-- The system gives out the lowest descriptor that is free, and at most `n` clients are connected. -/
structure Sparing (others : Finset Int) (n : ℕ) (s : Process) (e : Event) : Prop where
  lowest : ∀ fd, e.Opens fd → 0 ≤ fd → ∀ lower, 0 ≤ lower → lower < fd → lower ∈ s.opened ∨ lower ∈ others
  crowd : s.proxy.clients.size ≤ n

section
variable {given : Process → Event → Prop} {s t u : Process} {n k : ℕ} {e : Event} {actions : List Action}

theorem Loses.run (run : Loses given s k t) : Relation.ReflTransGen Next s t := by
  induction run with
  | refl => exact .refl
  | careful _ _ _ call ih => exact ih.tail ⟨_, _, call⟩
  | careless _ _ _ call ih => exact ih.tail ⟨_, _, call⟩

/-- A careful call loses nothing, and another one descriptor that was held until then. -/
theorem Inv.leaked (inv : Inv s) (call : Call s e actions t) :
    (s.proxy.Careful e ∧ Leaked t.proxy.held t.opened = Leaked s.proxy.held s.opened) ∨
      (¬ s.proxy.Careful e ∧ ∃ fd, fd ∉ Leaked s.proxy.held s.opened ∧
        Leaked t.proxy.held t.opened = insert fd (Leaked s.proxy.held s.opened)) := by
  have covered := inv.covered
  have change := inv.change call
  have found : ∀ role fd, s.proxy.held role = some fd → fd ∉ Leaked s.proxy.held s.opened :=
    fun role fd holds leaked => leaked.2 role holds
  generalize t.proxy.held = held', t.opened = opened' at change
  cases change with
  | same careful => exact .inl ⟨careful, rfl⟩
  | acquired careful opens vacant => exact .inl ⟨careful, leaked_acquire vacant fun used => call.fresh _ used opens⟩
  | released careful holds => exact .inl ⟨careful, covered.leaked_release holds⟩
  | replaced careless opens holds =>
    exact .inr ⟨careless, _, found _ _ holds, covered.leaked_replace holds fun used => call.fresh _ used opens⟩
  | @abandoned ip fd server careless client connected =>
    have other : Role.server ip ≠ .client ip := by simp
    have holds : update s.proxy.held (.client ip) none (.server ip) = some server := by rwa [update_of_ne other]
    refine .inr ⟨careless, _, found _ _ connected, ?_⟩
    rw [(covered.release client).leaked_drop holds, covered.leaked_release client]

theorem Loses.leaked (started : Started s) (run : Loses given s k t) :
    (Leaked t.proxy.held t.opened).encard = k := by
  induction run with
  | refl =>
    rw [(started.inv.exact_iff.mp started.exact).leaked, Set.encard_empty]
    rfl
  | careful run _ careful call ih =>
    rcases (inv_of_run started run.run).leaked call with ⟨-, same⟩ | ⟨careless, -⟩
    · rw [same, ih]
    · exact absurd careful careless
  | careless run _ careless call ih =>
    rcases (inv_of_run started run.run).leaked call with ⟨careful, -⟩ | ⟨-, fd, fresh, more⟩
    · exact absurd careful careless
    · rw [more, Set.encard_insert_of_notMem fresh, ih]
      rfl

/-- A process has lost exactly one descriptor for every careless call. -/
theorem leaks_counted (started : Started s) (run : Loses given s k t) :
    (Leaked t.proxy.held t.opened).encard = k :=
  run.leaked started

/-! ### A bound on the descriptors -/

/-- The places of a proxy and of its clients. -/
theorem held_card (p : MiProxy) : {fd | ∃ role, p.held role = some fd}.encard ≤ 2 + 2 * p.clients.size := by
  let roles : Finset Role := {.master, .dns} ∪ (p.clients.keys.toFinset.image .client ∪ p.clients.keys.toFinset.image .server)
  have placed : {fd | ∃ role, p.held role = some fd} ⊆ (fun role => (p.held role).getD 0) '' roles := by
    rintro fd ⟨role, holds⟩
    refine ⟨role, ?_, by simp [holds]⟩
    cases role with
    | master => simp [roles]
    | dns => simp [roles]
    | client ip =>
      obtain ⟨conn, entry, -⟩ := Option.map_eq_some_iff.mp holds
      simp [roles, (mem_iff_entry p ip).mpr ⟨conn, entry⟩]
    | server ip =>
      obtain ⟨conn, entry, -⟩ := Option.bind_eq_some_iff.mp holds
      simp [roles, (mem_iff_entry p ip).mpr ⟨conn, entry⟩]
  have keys : p.clients.keys.toFinset.card ≤ p.clients.size := by
    rw [← TreeMap.length_keys]
    exact List.toFinset_card_le _
  have card : roles.card ≤ 2 + 2 * p.clients.size := by
    have outer := Finset.card_union_le {Role.master, .dns}
      (p.clients.keys.toFinset.image Role.client ∪ p.clients.keys.toFinset.image .server)
    have inner := Finset.card_union_le (p.clients.keys.toFinset.image Role.client) (p.clients.keys.toFinset.image .server)
    have clients := Finset.card_image_le (s := p.clients.keys.toFinset) (f := Role.client)
    have servers := Finset.card_image_le (s := p.clients.keys.toFinset) (f := Role.server)
    have pair := Finset.card_le_two (a := Role.master) (b := .dns)
    dsimp only [roles]
    omega
  calc {fd | ∃ role, p.held role = some fd}.encard
    _ ≤ ((fun role => (p.held role).getD 0) '' roles).encard := Set.encard_le_encard placed
    _ ≤ (roles : Set Role).encard := Set.encard_image_le _ _
    _ ≤ 2 + 2 * p.clients.size := by
      rw [Set.encard_coe_eq_coe_finsetCard]
      exact_mod_cast card

/-- What is newly held was opened by the call. -/
theorem held_step {p q : MiProxy} {role : Role} {fd : Int} (keyed : p.Keyed) (step : Step p e actions q)
    (holds : q.held role = some fd) : p.held role = some fd ∨ e.Opens fd ∧ 0 ≤ fd := by
  have same : q.held = p.held → p.held role = some fd ∨ e.Opens fd ∧ 0 ≤ fd := fun same => .inl (same ▸ holds)
  have opened : ∀ (place : Role) (socket : Int), e.Opens socket → 0 ≤ socket →
      q.held = update p.held place (some socket) → p.held role = some fd ∨ e.Opens fd ∧ 0 ≤ fd := by
    intro place socket opens valid update
    rw [update] at holds
    rcases update_holds holds with before | now
    · exact .inl before
    · obtain rfl := Option.some.inj now
      exact .inr ⟨opens, valid⟩
  have closed : ∀ (held : Role → Option Int) (place : Role), update held place none role = some fd →
      held role = some fd := by
    intro held place holds
    exact (update_holds holds).resolve_right (Option.some_ne_none fd).symm
  cases step with
  | idle nothing => exact .inl holds
  | replaced valid entry =>
    have server := held_server entry
    exact opened _ _ rfl valid (held_newClient server)
  | added valid absent => exact opened _ _ rfl valid (held_newClient (by simp [held, absent]))
  | @clientLeft ip calls conn entry =>
    rw [keyed ip conn entry, held_erase] at holds
    exact .inl (closed _ _ (closed _ _ holds))
  | heard entry some more => exact same (held_same entry rfl rfl)
  | requested entry some ended server rewritten =>
    cases server with
    | old connected => exact same (held_same entry rfl rfl)
    | new unconnected valid =>
      refine opened _ _ rfl valid (held_newServer entry rfl (if_neg ?_))
      dsimp only
      omega
  | @serverLeft ip calls conn start entry connected =>
    have server : (p.store ip { conn.seen start calls with serverSocket := -1 }).held = update p.held (.server ip) none :=
      held_newServer entry rfl (if_pos rfl)
    rw [server] at holds
    exact .inl (closed _ _ holds)
  | receiving entry connected some waits => exact same (held_same entry rfl rfl)
  | intercepted entry connected some complete kept => exact same (held_same entry rfl rfl)
  | answered entry connected some complete plain => exact same (held_same entry rfl rfl)

/-- The lowest free descriptor is not above the number of those that are open. -/
theorem lowest_le {others : Finset Int} {fd : Int} {bound : ℕ} (opened : s.opened.encard ≤ bound)
    (lowest : ∀ lower, 0 ≤ lower → lower < fd → lower ∈ s.opened ∨ lower ∈ others) : fd ≤ bound + others.card := by
  have below : ((Finset.Ico 0 fd : Finset Int) : Set Int) ⊆ s.opened ∪ others := by
    intro lower member
    obtain ⟨valid, less⟩ := Finset.mem_Ico.mp (Finset.mem_coe.mp member)
    exact lowest lower valid less
  have card : ((Finset.Ico 0 fd).card : ℕ∞) ≤ bound + others.card := by
    calc ((Finset.Ico 0 fd).card : ℕ∞)
      _ = ((Finset.Ico 0 fd : Finset Int) : Set Int).encard := (Set.encard_coe_eq_coe_finsetCard _).symm
      _ ≤ (s.opened ∪ others).encard := Set.encard_le_encard below
      _ ≤ s.opened.encard + (others : Set Int).encard := Set.encard_union_le _ _
      _ ≤ bound + others.card := by
        rw [Set.encard_coe_eq_coe_finsetCard]
        exact add_le_add_left opened _
  have fits : (Finset.Ico 0 fd).card ≤ bound + others.card := by exact_mod_cast card
  rw [Int.card_Ico] at fits
  omega

/-- The open descriptors by the number of clients and of careless calls. -/
theorem Loses.opened (started : Started s) (run : Loses given s k t) (crowd : t.proxy.clients.size ≤ n) :
    t.opened.encard ≤ (2 + 2 * n + k : ℕ) := by
  have covered := (inv_of_run started run.run).covered
  calc t.opened.encard
    _ = ({fd | ∃ role, t.proxy.held role = some fd} ∪ Leaked t.proxy.held t.opened).encard := by
      rw [← covered.inUse_eq]
    _ ≤ {fd | ∃ role, t.proxy.held role = some fd}.encard + (Leaked t.proxy.held t.opened).encard :=
      Set.encard_union_le _ _
    _ ≤ (2 + 2 * t.proxy.clients.size) + k := add_le_add (held_card t.proxy) (run.leaked started).le
    _ ≤ (2 + 2 * n + k : ℕ) := by
      norm_cast
      omega

theorem Loses.held {others : Finset Int} (started : Started s) (run : Loses (Sparing others n) s k t) {role : Role}
    {fd : Int} (own : role ≠ .master ∧ role ≠ .dns) (holds : t.proxy.held role = some fd) :
    0 ≤ fd ∧ fd ≤ 2 + 2 * n + k + others.card := by
  have new : ∀ {k t u e actions}, Loses (Sparing others n) s k t → Sparing others n t e → Call t e actions u →
      u.proxy.held role = some fd → t.proxy.held role = some fd ∨ 0 ≤ fd ∧ fd ≤ 2 + 2 * n + k + others.card := by
    intro k t u e actions run allowed call holds
    rcases held_step (inv_of_run started run.run).keyed (dispatch_step call.handled) holds with before | ⟨opens, valid⟩
    · exact .inl before
    · have bound := lowest_le (run.opened started allowed.crowd) (allowed.lowest fd opens valid)
      exact .inr ⟨valid, by exact_mod_cast bound⟩
  induction run with
  | refl =>
    rcases started.held holds with ⟨rfl, -⟩ | ⟨rfl, -⟩
    · exact absurd rfl own.1
    · exact absurd rfl own.2
  | careful run allowed _ call ih => exact (new run allowed call holds).elim ih id
  | careless run allowed _ call ih =>
    push_cast
    rcases new run allowed call holds with before | now
    · obtain ⟨valid, bound⟩ := ih before
      exact ⟨valid, by omega⟩
    · exact ⟨now.1, by omega⟩

theorem Loses.masterSocket (run : Loses given s k t) : t.proxy.masterSocket = s.proxy.masterSocket := by
  have kept : ∀ {p q : MiProxy} {e actions}, Step p e actions q → q.masterSocket = p.masterSocket := by
    intro p q e actions step
    cases step <;> rfl
  induction run with
  | refl => rfl
  | careful _ _ _ call ih => exact (kept (dispatch_step call.handled)).trans ih
  | careless _ _ _ call ih => exact (kept (dispatch_step call.handled)).trans ih

/-- As long as there are not too many clients at a time, nor too many careless calls, `select` can be asked about all
the descriptors. -/
theorem watch_in_range {others : Finset Int} (started : Started s) (run : Loses (Sparing others n) s k t)
    (master : 0 ≤ s.proxy.masterSocket ∧ s.proxy.masterSocket < fdSetSize)
    (room : 2 + 2 * n + k + others.card < fdSetSize) : ∃ set, t.proxy.watch = .ok set := by
  apply watch_goes
  rintro fd ⟨role, other, holds⟩
  by_cases own : role = .master
  · subst own
    obtain rfl := Option.some.inj holds
    rwa [run.masterSocket]
  · obtain ⟨valid, bound⟩ := run.held started ⟨own, other⟩ holds
    exact ⟨valid, by omega⟩

end

/-- A second client of one address, and one descriptor lost. -/
theorem sampleAgain_loses : Loses (fun _ _ => True) sampleStart 1 sampleAgain := by
  have careful : sampleStart.proxy.Careful (.accept 5 sampleIp (.ok [])) := sampleStart_started.empty sampleIp
  have careless : ¬ sampleAccepted.proxy.Careful (.accept 6 sampleIp (.ok [])) := by
    rw [Careful, sampleAccepted, store_here]
    exact Option.some_ne_none _
  exact .careless (.careful .refl trivial careful sample_accept) trivial careless sample_acceptAgain

theorem leaks_counted_sample : (Leaked sampleAgain.proxy.held sampleAgain.opened).encard = 1 :=
  leaks_counted sampleStart_started sampleAgain_loses

theorem watch_in_range_sample : ∃ set, sampleAccepted.proxy.watch = .ok set := by
  have careful : sampleStart.proxy.Careful (.accept 5 sampleIp (.ok [])) := sampleStart_started.empty sampleIp
  have sparing : Sparing {0, 1, 2, 4} 10 sampleStart (.accept 5 sampleIp (.ok [])) := by
    refine ⟨?_, by decide⟩
    rintro fd rfl - lower valid less
    have below : lower = 0 ∨ lower = 1 ∨ lower = 2 ∨ lower = 3 ∨ lower = 4 := by omega
    rcases below with rfl | rfl | rfl | rfl | rfl <;> simp [sampleStart]
  exact watch_in_range sampleStart_started (.careful .refl sparing careful sample_accept) (by decide) (by decide)

end Process

end VStream
