import HttpEngine.Pipeline

/-!
# What a run of the pipeline keeps

A condition that every middleware maintains holds where the handler is called.  What the handler
makes of it holds after a run that has called the handler, and the condition itself after any other
run.  A panic that is recovered is reported, so that the condition must not depend on the reports.

In particular a run calls the handler at most once.  This is seen from the outside: a count in the
state of the application, which the handler raises by one and the middlewares leave alone, has been
raised by one after a run that called the handler, and not at all after any other run.
-/

namespace HttpEngine

variable {σ : Type}

abbrev Condition (σ : Type) := Request -> World σ -> Prop

variable {p q : Condition σ}

def Condition.IgnoresReports (p : Condition σ) : Prop :=
  forall (request : Request) (world : World σ) (events : List Event),
    p request world -> p request (world.report events)

def Middleware.Maintains (p : Condition σ) : Middleware σ -> Prop
  | .recovery => True
  | .step run => forall x : Exchange σ,
      p x.request x.world -> p (run x).2.request (run x).2.world

def Handler.Leads (p q : Condition σ) (handler : Handler σ) : Prop :=
  forall (request : Request) (world : World σ),
    p request world -> q (handler request world).2.1 (handler request world).2.2

def Run.Meets (p q : Condition σ) (r : Run σ) : Prop :=
  if r.handlerInvoked then q r.request r.world else p r.request r.world

theorem Run.Meets.same {r : Run σ} (h : r.Meets p p) : p r.request r.world := by
  rwa [Meets, ite_self] at h

theorem Run.Meets.recovered {r : Run σ} (h : r.Meets p q) (hp : p.IgnoresReports)
    (hq : q.IgnoresReports) : r.recovered.Meets p q := by
  unfold Run.recovered
  cases r.outcome with
  | done response => exact h
  | panicked panic =>
      unfold Meets at h ⊢
      simp only
      split
      · next hinvoked =>
        rw [if_pos hinvoked] at h
        exact hq _ _ _ h
      · next hinvoked =>
        rw [if_neg hinvoked] at h
        exact hp _ _ _ h

namespace Pipeline

theorem callHandler_meets {handler : Handler σ} (hhandler : handler.Leads p q) {x : Exchange σ}
    (hx : p x.request x.world) : (callHandler handler x).Meets p q :=
  hhandler x.request x.world hx

theorem stop_meets (outcome : Outcome Response) {x : Exchange σ} (hx : p x.request x.world) :
    (stop outcome x).Meets p q :=
  hx

theorem step_meets {run : Exchange σ -> Outcome Flow × Exchange σ}
    (hrun : (Middleware.step run).Maintains p) {go : Exchange σ -> Run σ}
    (hgo : forall y : Exchange σ, p y.request y.world -> (go y).Meets p q) {x : Exchange σ}
    (hx : p x.request x.world) :
    Run.Meets p q
      (match run x with
        | (.done .proceed, x) => go x
        | (.done .abort, x) => stop (.done x.slot) x
        | (.panicked panic, x) => stop (.panicked panic) x) := by
  have hnext := hrun x hx
  generalize run x = next at *
  rcases next with ⟨outcome, y⟩
  cases outcome with
  | done flow =>
      cases flow with
      | proceed => exact hgo y hnext
      | abort => exact stop_meets _ hnext
  | panicked panic => exact stop_meets _ hnext

theorem chain_meets {handler : Handler σ} (hhandler : handler.Leads p q)
    {middlewares : List (Middleware σ)}
    (hmiddlewares : forall m, m ∈ middlewares -> m.Maintains p) (index : Nat) {x : Exchange σ}
    (hx : p x.request x.world) : (chain handler index middlewares x).Meets p q := by
  induction middlewares generalizing index x with
  | nil => exact callHandler_meets hhandler hx
  | cons m rest ih =>
      have hrest : forall m, m ∈ rest -> m.Maintains p := by
        intro m hm
        exact hmiddlewares m (List.mem_cons_of_mem _ hm)
      cases m with
      | recovery => exact ih hrest (index + 1) hx
      | step run =>
          have hrun := hmiddlewares (.step run) List.mem_cons_self
          exact step_meets hrun (fun y hy => ih hrest (index + 1) hy) hx

theorem guarded_meets {handler : Handler σ} (hhandler : handler.Leads p q)
    {middlewares : List (Middleware σ)}
    (hmiddlewares : forall m, m ∈ middlewares -> m.Maintains p) (hp : p.IgnoresReports)
    (hq : q.IgnoresReports) (index : Nat) {x : Exchange σ} (hx : p x.request x.world) :
    (guarded handler index middlewares x).Meets p q := by
  induction middlewares generalizing index x with
  | nil => exact callHandler_meets hhandler hx
  | cons m rest ih =>
      have hrest : forall m, m ∈ rest -> m.Maintains p := by
        intro m hm
        exact hmiddlewares m (List.mem_cons_of_mem _ hm)
      cases m with
      | recovery => exact (chain_meets hhandler hrest (index + 1) hx).recovered hp hq
      | step run =>
          have hrun := hmiddlewares (.step run) List.mem_cons_self
          exact step_meets hrun (fun y hy => ih hrest (index + 1) hy) hx

theorem run_meets {handler : Handler σ} (hhandler : handler.Leads p q)
    {middlewares : List (Middleware σ)}
    (hmiddlewares : forall m, m ∈ middlewares -> m.Maintains p) (hp : p.IgnoresReports)
    (hq : q.IgnoresReports) {request : Request} {world : World σ} (h : p request world) :
    (run middlewares handler request world).Meets p q :=
  guarded_meets hhandler hmiddlewares hp hq 0 h

end Pipeline

/-! # Calls of the handler -/

variable {count : σ -> Nat}

def Middleware.Keeps (count : σ -> Nat) : Middleware σ -> Prop
  | .recovery => True
  | .step run => forall x : Exchange σ, count (run x).2.world.app = count x.world.app

def Handler.Raises (count : σ -> Nat) (handler : Handler σ) : Prop :=
  forall (request : Request) (world : World σ),
    count (handler request world).2.2.app = count world.app + 1

def Run.Counted (count : σ -> Nat) (before : World σ) (r : Run σ) : Prop :=
  count r.world.app = count before.app + if r.handlerInvoked then 1 else 0

def Condition.counts (count : σ -> Nat) (n : Nat) : Condition σ :=
  fun _ world => count world.app = n

theorem Condition.counts_ignoresReports (n : Nat) : (counts count n).IgnoresReports :=
  fun _ _ _ h => h

theorem Middleware.Keeps.maintains {m : Middleware σ} (h : m.Keeps count) (n : Nat) :
    m.Maintains (.counts count n) := by
  cases m with
  | recovery => trivial
  | step run =>
      intro x hx
      exact (h x).trans hx

theorem Handler.Raises.leads {handler : Handler σ} (h : handler.Raises count) (n : Nat) :
    handler.Leads (.counts count n) (.counts count (n + 1)) := by
  intro request world hcount
  rw [Condition.counts] at hcount
  rw [Condition.counts, h request world, hcount]

theorem Pipeline.run_counted {handler : Handler σ} (hhandler : handler.Raises count)
    {middlewares : List (Middleware σ)}
    (hmiddlewares : forall m, m ∈ middlewares -> m.Keeps count) (request : Request)
    (world : World σ) : (run middlewares handler request world).Counted count world := by
  have hstart : Condition.counts count (count world.app) request world := rfl
  have hmeets := run_meets (hhandler.leads _) (fun m hm => (hmiddlewares m hm).maintains _)
    (Condition.counts_ignoresReports _) (Condition.counts_ignoresReports _) hstart
  unfold Run.Meets at hmeets
  unfold Run.Counted
  split at hmeets
  · next hinvoked =>
    rw [if_pos hinvoked]
    exact hmeets
  · next hinvoked =>
    rw [if_neg hinvoked]
    exact hmeets

end HttpEngine
