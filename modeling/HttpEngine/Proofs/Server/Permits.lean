import Mathlib.Data.List.Basic
import HttpEngine.Server.Build
import HttpEngine.Server.Gate

/-!
# Where the permits are

Every permit of a server is available, held for the connection that is being taken, or held by a
task, in whatever order the steps come.  So there are never more live connections than permits, and
all permits can be had at once exactly when no task is left.  A server that has been told to stop
takes no further connection, and wherever its tasks are then, it can still come to its stop.
-/

namespace HttpEngine

def GatePhase.isEnding : GatePhase -> Bool
  | .draining | .stopped => true
  | .seeking | .listening | .resting | .taken => false

theorem GatePhase.isEnding_iff {phase : GatePhase} :
    phase.isEnding = true ↔ phase = .draining ∨ phase = .stopped := by
  cases phase <;> simp [isEnding]

theorem GatePhase.held_le_one (phase : GatePhase) : phase.held ≤ 1 := by
  cases phase <;> decide

namespace Gate

/-! # What every step preserves -/

structure Balanced (g : Gate) : Prop where
  permits : g.available + g.phase.held + g.tasks.length = g.capacity
  live : g.live = g.tasks.count .running
  stopped : g.phase = .stopped -> g.tasks = []

theorem balanced_start (capacity : Nat) : (start capacity).Balanced where
  permits := rfl
  live := rfl
  stopped := by
    intro hphase
    cases hphase

theorem drainPermits_eq {capacity : Nat} (h : capacity ≤ maxRequest) :
    drainPermits capacity = capacity :=
  Nat.min_eq_left h

theorem Balanced.tasks_eq_nil {g : Gate} (h : g.Balanced) (hall : g.capacity ≤ g.available) :
    g.tasks = [] := by
  have hpermits := h.permits
  apply List.eq_nil_of_length_eq_zero
  omega

theorem Step.capacity_eq {g h : Gate} {action : Action} (hstep : Step g action h) :
    h.capacity = g.capacity := by
  cases hstep <;> rfl

theorem Balanced.step {g h : Gate} {action : Action} (hg : g.Balanced)
    (hcapacity : g.capacity ≤ maxRequest) (hstep : Step g action h) : h.Balanced := by
  have hpermits := hg.permits
  have hlive := hg.live
  have hstopped := hg.stopped
  cases hstep with
  | acquire hphase havailable =>
      rw [hphase] at hpermits
      refine ⟨?_, hlive, fun hend => nomatch hend⟩
      simp only [GatePhase.held] at hpermits ⊢
      omega
  | accept hphase =>
      rw [hphase] at hpermits
      exact ⟨hpermits, hlive, fun hend => nomatch hend⟩
  | spawn hphase =>
      rw [hphase] at hpermits
      refine ⟨?_, ?_, fun hend => nomatch hend⟩
      · simp only [GatePhase.held, List.length_append, List.length_singleton] at hpermits ⊢
        omega
      · simp only [List.count_append, List.count_singleton_self, hlive]
  | fail hphase =>
      rw [hphase] at hpermits
      exact ⟨hpermits, hlive, fun hend => nomatch hend⟩
  | retry hphase =>
      rw [hphase] at hpermits
      refine ⟨?_, hlive, fun hend => nomatch hend⟩
      simp only [GatePhase.held] at hpermits ⊢
      omega
  | leave htasks =>
      rw [htasks] at hpermits hlive hstopped
      refine ⟨?_, ?_, ?_⟩
      · simp only [List.length_append, List.length_cons] at hpermits ⊢
        exact hpermits
      · simp only [List.count_append, List.count_cons_self] at hlive
        simp only [List.count_append, hlive]
        rw [List.count_cons_of_ne (by decide)]
        omega
      · intro hend
        exact absurd (hstopped hend) (by simp)
  | release htasks =>
      rw [htasks] at hpermits hlive hstopped
      refine ⟨?_, ?_, ?_⟩
      · simp only [List.length_append, List.length_cons] at hpermits ⊢
        omega
      · rw [hlive, List.count_append, List.count_append, List.count_cons_of_ne (by decide)]
      · intro hend
        exact absurd (hstopped hend) (by simp)
  | signal hwaiting => exact ⟨hpermits, hlive, fun hend => nomatch hend⟩
  | stop hphase hall =>
      rw [hphase] at hpermits
      rw [drainPermits_eq hcapacity] at hall
      exact ⟨hpermits, hlive, fun _ => hg.tasks_eq_nil hall⟩

/-! # Runs -/

variable {capacity : Nat} {actions : List Action} {g : Gate}

theorem Run.capacity_eq (h : Run capacity actions g) : g.capacity = capacity := by
  induction h with
  | start => rfl
  | step _ hstep ih => rw [hstep.capacity_eq, ih]

theorem Run.balanced (h : Run capacity actions g) (hcapacity : capacity ≤ maxRequest) :
    g.Balanced := by
  induction h with
  | start => exact balanced_start capacity
  | step hrun hstep ih =>
      apply ih.step _ hstep
      rw [hrun.capacity_eq]
      exact hcapacity

/-! # After the signal -/

def Action.takes : Action -> Bool
  | .acquire | .accept | .spawn | .fail | .retry => true
  | .leave _ | .release | .signal | .stop => false

theorem Step.isEnding_iff {h : Gate} {action : Action} (hstep : Step g action h) :
    h.phase.isEnding = true ↔ g.phase.isEnding = true ∨ action = .signal := by
  cases hstep with
  | acquire hphase havailable => simp [hphase, GatePhase.isEnding]
  | accept hphase => simp [hphase, GatePhase.isEnding]
  | spawn hphase => simp [hphase, GatePhase.isEnding]
  | fail hphase => simp [hphase, GatePhase.isEnding]
  | retry hphase => simp [hphase, GatePhase.isEnding]
  | leave htasks => simp
  | release htasks => simp
  | signal hwaiting => simp [GatePhase.isEnding]
  | stop hphase hall => simp [hphase, GatePhase.isEnding]

theorem Run.isEnding_iff (h : Run capacity actions g) :
    g.phase.isEnding = true ↔ .signal ∈ actions := by
  induction h with
  | start => simp [Gate.start, GatePhase.isEnding]
  | step _ hstep ih =>
      rw [hstep.isEnding_iff, ih, List.mem_append, List.mem_singleton]
      exact or_congr_right eq_comm

theorem Step.takes_eq_false {h : Gate} {action : Action} (hstep : Step g action h)
    (hend : g.phase.isEnding = true) : action.takes = false := by
  cases hstep with
  | acquire hphase havailable => simp [hphase, GatePhase.isEnding] at hend
  | accept hphase => simp [hphase, GatePhase.isEnding] at hend
  | spawn hphase => simp [hphase, GatePhase.isEnding] at hend
  | fail hphase => simp [hphase, GatePhase.isEnding] at hend
  | retry hphase => simp [hphase, GatePhase.isEnding] at hend
  | leave htasks => rfl
  | release htasks => rfl
  | signal hwaiting => rfl
  | stop hphase hall => rfl

theorem Run.takes_eq_false (h : Run capacity actions g) {before after : List Action}
    (hsplit : actions = before ++ .signal :: after) {action : Action} (hmem : action ∈ after) :
    action.takes = false := by
  induction h generalizing before after with
  | start => exact absurd hsplit (by simp)
  | @step earlier last g h hrun hstep ih =>
      rcases List.eq_nil_or_concat after with hnil | ⟨between, final, hafter⟩
      · rw [hnil] at hmem
        cases hmem
      · rw [List.concat_eq_append] at hafter
        rw [hafter, ← List.cons_append, ← List.append_assoc] at hsplit
        rcases List.append_inj' hsplit rfl with ⟨hearlier, hlast⟩
        rw [hafter, List.mem_append] at hmem
        cases hmem with
        | inl hbetween => exact ih hearlier hbetween
        | inr hfinal =>
            rw [← hlast, List.mem_singleton] at hfinal
            rw [hfinal]
            apply hstep.takes_eq_false
            rw [hrun.isEnding_iff, hearlier]
            simp

/-! # The stop -/

theorem Step.stopped_iff {h : Gate} {action : Action} (hstep : Step g action h) :
    h.phase = .stopped ↔ g.phase = .stopped ∨ action = .stop := by
  cases hstep with
  | acquire hphase havailable => simp [hphase]
  | accept hphase => simp [hphase]
  | spawn hphase => simp [hphase]
  | fail hphase => simp [hphase]
  | retry hphase => simp [hphase]
  | leave htasks => simp
  | release htasks => simp
  | signal hwaiting =>
      have hrunning : g.phase ≠ .stopped := by
        intro hphase
        rw [hphase] at hwaiting
        cases hwaiting
      simp [hrunning]
  | stop hphase hall => simp

theorem Run.stopped_iff (h : Run capacity actions g) :
    g.phase = .stopped ↔ .stop ∈ actions := by
  induction h with
  | start => simp [Gate.start]
  | step _ hstep ih =>
      rw [hstep.stopped_iff, ih, List.mem_append, List.mem_singleton]
      exact or_congr_right eq_comm

theorem serverStopped_mem_events_iff (actions : List Action) :
    .serverStopped ∈ actions.flatMap Action.events ↔ .stop ∈ actions := by
  rw [List.mem_flatMap]
  constructor
  · intro h
    rcases h with ⟨action, hmem, hevent⟩
    cases action with
    | stop => exact hmem
    | signal => simp [Action.events] at hevent
    | _ => cases hevent
  · intro h
    exact ⟨.stop, h, List.mem_singleton_self _⟩

theorem Run.stop_iff (h : Run capacity actions g) (hcapacity : capacity ≤ maxRequest)
    (hphase : g.phase = .draining) : (exists h, Step g .stop h) ↔ g.tasks = [] := by
  have hbalanced := h.balanced hcapacity
  have hall : drainPermits g.capacity = g.capacity := by
    rw [h.capacity_eq]
    exact drainPermits_eq hcapacity
  constructor
  · intro hstop
    rcases hstop with ⟨after, hstep⟩
    cases hstep with
    | stop _ havailable =>
        rw [hall] at havailable
        exact hbalanced.tasks_eq_nil havailable
  · intro htasks
    have hpermits := hbalanced.permits
    rw [hphase, htasks] at hpermits
    refine ⟨_, .stop hphase ?_⟩
    rw [hall]
    exact Nat.le_of_eq hpermits.symm

theorem Run.exists_without_first {task : GateTask} {rest : List GateTask}
    (h : Run capacity actions g) (htasks : g.tasks = task :: rest) :
    exists later next, Run capacity (actions ++ later) next ∧ next.tasks = rest ∧
      next.phase = g.phase := by
  have hleaving : forall {actions : List Action} {g : Gate}, Run capacity actions g ->
      g.tasks = .leaving :: rest ->
      exists next, Run capacity (actions ++ [.release]) next ∧ next.tasks = rest ∧
        next.phase = g.phase := by
    intro actions g hrun hfirst
    exact ⟨_, hrun.step (@Step.release g [] rest hfirst), rfl, rfl⟩
  cases task with
  | leaving =>
      rcases hleaving h htasks with ⟨next, hrun, hrest, hphase⟩
      exact ⟨[.release], next, hrun, hrest, hphase⟩
  | running =>
      have hleft := h.step (@Step.leave g [] rest none htasks)
      rcases hleaving hleft rfl with ⟨next, hrun, hrest, hphase⟩
      rw [List.append_assoc] at hrun
      exact ⟨_, next, hrun, hrest, hphase⟩

theorem Run.exists_stopped (h : Run capacity actions g) (hcapacity : capacity ≤ maxRequest)
    (hphase : g.phase = .draining) :
    exists later next, Run capacity (actions ++ later) next ∧ next.phase = .stopped := by
  generalize htasks : g.tasks = tasks
  induction tasks generalizing actions g with
  | nil =>
      rcases (h.stop_iff hcapacity hphase).mpr htasks with ⟨next, hstop⟩
      exact ⟨[.stop], next, h.step hstop, hstop.stopped_iff.mpr (Or.inr rfl)⟩
  | cons task rest ih =>
      rcases h.exists_without_first htasks with ⟨ended, between, hrun, hrest, hsame⟩
      rcases ih hrun (hsame.trans hphase) hrest with ⟨later, next, hlater, hstopped⟩
      rw [List.append_assoc] at hlater
      exact ⟨_, next, hlater, hstopped⟩

end Gate

theorem ServerBuilder.maxConnections_of_build {σ : Type} {b : ServerBuilder σ} {host : Host}
    {built : BuiltServer σ} (h : (b.build host).1 = .ok built) :
    built.server.limits.maxConnections ≤ Gate.maxRequest := by
  unfold build at h
  simp only at h
  split at h
  · cases h
  · next hbounds =>
    rw [not_or, Nat.not_lt, Nat.not_lt] at hbounds
    split at h
    · cases h
    · cases h
      exact hbounds.right

namespace Gate

/--
In every state of a server that could be built: its permits are available, held for the connection
that is being taken, or held by tasks; the live connections are the tasks that run, and no more than
there may be.  Since the signal no connection is taken and no permit held for one.  The stop is
reported only when no task is left; then all permits can be had at once, and from any state behind
the signal this can still come about.
-/
theorem permits_accounted_for {σ : Type} (b : ServerBuilder σ) (host : Host)
    {built : BuiltServer σ} (hbuilt : (b.build host).1 = .ok built) {actions : List Action}
    {g : Gate} (h : Run built.server.limits.maxConnections actions g) :
    let max := built.server.limits.maxConnections
    (g.available + g.phase.held + g.tasks.length = max ∧ g.phase.held ≤ 1) ∧
    (g.live = g.tasks.count .running ∧ g.live ≤ max) ∧
    (forall before after, actions = before ++ .signal :: after ->
      g.phase.held = 0 ∧ .spawn ∉ after ∧
      forall action, action ∈ after -> action.takes = false) ∧
    (.serverStopped ∈ actions.flatMap Action.events -> g.tasks = [] ∧ g.live = 0) ∧
    (g.phase = .draining -> drainPermits max = max ∧
      ((exists next, Step g .stop next) ↔ g.tasks = [])) ∧
    (.signal ∈ actions -> exists later next,
      Run max (actions ++ later) next ∧ next.phase = .stopped) := by
  intro max
  have hcapacity := ServerBuilder.maxConnections_of_build hbuilt
  have hbalanced := h.balanced hcapacity
  have hpermits := hbalanced.permits
  rw [h.capacity_eq] at hpermits
  refine ⟨⟨hpermits, g.phase.held_le_one⟩, ⟨hbalanced.live, ?_⟩, ?_, ?_, ?_, ?_⟩
  · have hcount : g.tasks.count .running ≤ g.tasks.length := List.count_le_length
    rw [hbalanced.live]
    omega
  · intro before after hsplit
    have hend : g.phase.isEnding = true := by
      rw [h.isEnding_iff, hsplit]
      simp
    refine ⟨?_, ?_, ?_⟩
    · rcases GatePhase.isEnding_iff.mp hend with hphase | hphase
      · rw [hphase]
        rfl
      · rw [hphase]
        rfl
    · intro hspawn
      cases h.takes_eq_false hsplit hspawn
    · intro action hmem
      exact h.takes_eq_false hsplit hmem
  · intro hreported
    have hstopped := h.stopped_iff.mpr ((serverStopped_mem_events_iff actions).mp hreported)
    have htasks := hbalanced.stopped hstopped
    refine ⟨htasks, ?_⟩
    rw [hbalanced.live, htasks]
    rfl
  · intro hphase
    exact ⟨drainPermits_eq hcapacity, h.stop_iff hcapacity hphase⟩
  · intro hsignal
    rcases GatePhase.isEnding_iff.mp (h.isEnding_iff.mpr hsignal) with hphase | hphase
    · exact h.exists_stopped hcapacity hphase
    · refine ⟨[], g, ?_, hphase⟩
      rw [List.append_nil]
      exact h

/-! # A server that is told to stop while it serves a connection and waits for another one -/

def pairBuilder : ServerBuilder Unit :=
  { listener := some ⟨.v4 127 0 0 1, 8080, 0⟩, limits := { maxConnections := 2 } }

def pairServer : BuiltServer Unit where
  address := ⟨.v4 127 0 0 1, 8080, 0⟩
  server :=
    { routes := [], middlewares := [], cors := none, keepsLog := false,
      limits := { maxConnections := 2 }, connectionLimits := {}, requestLimits := {} }

theorem permits_accounted_for_pair :
    let host : Host := ⟨false, fun _ => false, fun _ => true⟩
    let actions : List Action := [.acquire, .accept, .spawn, .acquire, .signal]
    let g : Gate :=
      { capacity := 2, available := 1, tasks := [.running], live := 1, phase := .draining }
    (pairBuilder.build host).1 = .ok pairServer ∧ Run 2 actions g ∧
      g.available + g.phase.held + g.tasks.length = 2 ∧
      (¬ exists next, Step g .stop next) ∧
      exists later next, Run 2 (actions ++ later) next ∧ next.phase = .stopped := by
  intro host actions g
  have hbuilt : (pairBuilder.build host).1 = .ok pairServer := rfl
  have hacquire : Run 2 [.acquire] ⟨2, 1, [], 0, .listening⟩ :=
    Run.start.step (.acquire rfl (by decide))
  have haccept : Run 2 [.acquire, .accept] ⟨2, 1, [], 0, .taken⟩ := hacquire.step (.accept rfl)
  have hspawn : Run 2 [.acquire, .accept, .spawn] ⟨2, 1, [.running], 1, .seeking⟩ :=
    haccept.step (.spawn rfl)
  have hagain : Run 2 [.acquire, .accept, .spawn, .acquire] ⟨2, 0, [.running], 1, .listening⟩ :=
    hspawn.step (.acquire rfl (by decide))
  have hrun : Run 2 actions g := hagain.step (.signal rfl)
  rcases permits_accounted_for pairBuilder host hbuilt hrun with
    ⟨⟨hpermits, _⟩, _, _, _, hstop, hlater⟩
  refine ⟨hbuilt, hrun, hpermits, ?_, hlater (by decide)⟩
  rw [(hstop rfl).right]
  exact List.cons_ne_nil _ _

end Gate
end HttpEngine
