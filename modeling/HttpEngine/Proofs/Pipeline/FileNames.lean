import HttpEngine.Pipeline
import HttpEngine.Proofs.Storage.Renaming

/-!
# Files under other names

The name of an upload's file holds a number that is drawn at random.  Two runs are alike if they are
the same but for the names of files, which a permutation of paths takes into each other.
Middlewares and handlers that do not look at the number treat alike what is alike, and then so does
the whole pipeline.
-/

namespace HttpEngine

variable {σ : Type} {ρ : Equiv.Perm Path}

/-! # What is alike -/

structure Upload.Alike (ρ : Equiv.Perm Path) (u v : Upload) : Prop where
  same : v = { u with serial := v.serial }
  path : v.path = ρ u.path

structure Request.Alike (ρ : Equiv.Perm Path) (r q : Request) : Prop where
  same : q = { r with upload := q.upload }
  upload : Option.Rel (Upload.Alike ρ) r.upload q.upload

/-- Two worlds that are the same but for the names of files and the numbers to come. -/
structure World.Alike (ρ : Equiv.Perm Path) (w v : World σ) : Prop where
  clock : v.clock = w.clock
  machineTime : v.machineTime = w.machineTime
  storage : v.storage = w.storage.rename ρ
  events : v.events = w.events
  log : v.log = w.log
  app : v.app = w.app

structure Exchange.Alike (ρ : Equiv.Perm Path) (x y : Exchange σ) : Prop where
  request : x.request.Alike ρ y.request
  slot : y.slot = x.slot
  world : x.world.Alike ρ y.world

structure Run.Alike (ρ : Equiv.Perm Path) (a b : Run σ) : Prop where
  outcome : b.outcome = a.outcome
  calls : b.calls = a.calls
  handlerInvoked : b.handlerInvoked = a.handlerInvoked
  request : a.request.Alike ρ b.request
  world : a.world.Alike ρ b.world

/-! # Not looking at the number -/

def Handler.Respects (ρ : Equiv.Perm Path) (handler : Handler σ) : Prop :=
  forall (r q : Request) (w v : World σ), r.Alike ρ q -> w.Alike ρ v ->
    (handler q v).1 = (handler r w).1 ∧ (handler r w).2.1.Alike ρ (handler q v).2.1 ∧
      (handler r w).2.2.Alike ρ (handler q v).2.2

def Middleware.Respects (ρ : Equiv.Perm Path) : Middleware σ -> Prop
  | .recovery => True
  | .step run => forall x y : Exchange σ, x.Alike ρ y ->
      (run y).1 = (run x).1 ∧ (run x).2.Alike ρ (run y).2

/-! # What the engine looks at -/

theorem Request.Alike.of_upload_none {r : Request} (h : r.upload = none) : r.Alike ρ r := by
  constructor
  · rfl
  · rw [h]
    exact Option.Rel.none

theorem Request.Alike.head {r q : Request} (h : r.Alike ρ q) :
    q.method = r.method ∧ q.path = r.path ∧ q.version = r.version ∧ q.headers = r.headers ∧
      q.clientIp = r.clientIp := by
  rw [h.same]
  exact ⟨rfl, rfl, rfl, rfl, rfl⟩

theorem World.Alike.uptime {w v : World σ} (h : w.Alike ρ v) : v.uptime = w.uptime := by
  rw [World.uptime, World.uptime, h.clock, h.machineTime]

theorem World.Alike.unixTime {w v : World σ} (h : w.Alike ρ v) : v.unixTime = w.unixTime := by
  rw [World.unixTime, World.unixTime, h.clock, h.machineTime]

theorem World.Alike.report {w v : World σ} (h : w.Alike ρ v) (events : List Event) :
    (w.report events).Alike ρ (v.report events) := by
  refine ⟨h.clock, h.machineTime, h.storage, ?_, h.log, h.app⟩
  show v.events ++ events = w.events ++ events
  rw [h.events]

theorem World.Alike.setClock {w v : World σ} (h : w.Alike ρ v) (clock : Nat) :
    World.Alike ρ { w with clock } { v with clock } :=
  ⟨rfl, h.machineTime, h.storage, h.events, h.log, h.app⟩

theorem World.Alike.setStorage {w v : World σ} (h : w.Alike ρ v) {s t : Storage}
    (ht : t = s.rename ρ) : World.Alike ρ { w with storage := s } { v with storage := t } :=
  ⟨h.clock, h.machineTime, ht, h.events, h.log, h.app⟩

/-! # The pipeline -/

theorem Run.Alike.afterCall {a b : Run σ} (h : a.Alike ρ b) (index : Nat) :
    (a.afterCall index).Alike ρ (b.afterCall index) := by
  refine ⟨h.outcome, ?_, h.handlerInvoked, h.request, h.world⟩
  show index :: b.calls = index :: a.calls
  rw [h.calls]

theorem Run.Alike.recovered {a b : Run σ} (h : a.Alike ρ b) :
    a.recovered.Alike ρ b.recovered := by
  unfold Run.recovered
  rw [h.outcome]
  cases houtcome : a.outcome with
  | done response => exact h
  | panicked panic =>
      rcases h.request.head with ⟨hmethod, hpath, _⟩
      refine ⟨rfl, h.calls, h.handlerInvoked, h.request, ?_⟩
      rw [hmethod, hpath]
      exact h.world.report _

namespace Pipeline

theorem callHandler_alike {handler : Handler σ} (hhandler : handler.Respects ρ)
    {x y : Exchange σ} (h : x.Alike ρ y) :
    (callHandler handler x).Alike ρ (callHandler handler y) := by
  rcases hhandler x.request y.request x.world y.world h.request h.world with
    ⟨houtcome, hrequest, hworld⟩
  refine ⟨?_, rfl, rfl, hrequest, hworld⟩
  show (handler y.request y.world).1.map (·.inheritHeaders y.slot) =
    (handler x.request x.world).1.map (·.inheritHeaders x.slot)
  rw [houtcome, h.slot]

theorem stop_alike (outcome : Outcome Response) {x y : Exchange σ} (h : x.Alike ρ y) :
    (stop outcome x).Alike ρ (stop outcome y) :=
  ⟨rfl, rfl, rfl, h.request, h.world⟩

theorem step_alike {run : Exchange σ -> Outcome Flow × Exchange σ}
    (hrun : (Middleware.step run).Respects ρ) {x y : Exchange σ} (h : x.Alike ρ y)
    {go : Exchange σ -> Run σ}
    (hgo : forall x y : Exchange σ, x.Alike ρ y -> (go x).Alike ρ (go y)) :
    Run.Alike ρ
      (match run x with
        | (.done .proceed, x) => go x
        | (.done .abort, x) => stop (.done x.slot) x
        | (.panicked panic, x) => stop (.panicked panic) x)
      (match run y with
        | (.done .proceed, y) => go y
        | (.done .abort, y) => stop (.done y.slot) y
        | (.panicked panic, y) => stop (.panicked panic) y) := by
  rcases hrun x y h with ⟨houtcome, hnext⟩
  generalize run x = before at *
  generalize run y = after at *
  rcases before with ⟨outcome, x'⟩
  rcases after with ⟨same, y'⟩
  simp only at houtcome hnext
  cases houtcome
  cases outcome with
  | done flow =>
      cases flow with
      | proceed => exact hgo x' y' hnext
      | abort =>
          simp only
          rw [hnext.slot]
          exact stop_alike _ hnext
  | panicked panic => exact stop_alike _ hnext

theorem chain_alike {handler : Handler σ} (hhandler : handler.Respects ρ)
    {middlewares : List (Middleware σ)}
    (hmiddlewares : forall m, m ∈ middlewares -> m.Respects ρ) (index : Nat) {x y : Exchange σ}
    (h : x.Alike ρ y) :
    (chain handler index middlewares x).Alike ρ (chain handler index middlewares y) := by
  induction middlewares generalizing index x y with
  | nil => exact callHandler_alike hhandler h
  | cons m rest ih =>
      have hrest : forall m, m ∈ rest -> m.Respects ρ := by
        intro m hm
        exact hmiddlewares m (List.mem_cons_of_mem _ hm)
      cases m with
      | recovery => exact (ih hrest (index + 1) h).afterCall index
      | step run =>
          have hrun := hmiddlewares (.step run) List.mem_cons_self
          exact (step_alike hrun h fun _ _ hnext => ih hrest (index + 1) hnext).afterCall index

theorem guarded_alike {handler : Handler σ} (hhandler : handler.Respects ρ)
    {middlewares : List (Middleware σ)}
    (hmiddlewares : forall m, m ∈ middlewares -> m.Respects ρ) (index : Nat) {x y : Exchange σ}
    (h : x.Alike ρ y) :
    (guarded handler index middlewares x).Alike ρ (guarded handler index middlewares y) := by
  induction middlewares generalizing index x y with
  | nil => exact callHandler_alike hhandler h
  | cons m rest ih =>
      have hrest : forall m, m ∈ rest -> m.Respects ρ := by
        intro m hm
        exact hmiddlewares m (List.mem_cons_of_mem _ hm)
      cases m with
      | recovery => exact (chain_alike hhandler hrest (index + 1) h).recovered.afterCall index
      | step run =>
          have hrun := hmiddlewares (.step run) List.mem_cons_self
          exact (step_alike hrun h fun _ _ hnext => ih hrest (index + 1) hnext).afterCall index

theorem run_alike {handler : Handler σ} (hhandler : handler.Respects ρ)
    {middlewares : List (Middleware σ)}
    (hmiddlewares : forall m, m ∈ middlewares -> m.Respects ρ) {r q : Request} {w v : World σ}
    (hrequest : r.Alike ρ q) (hworld : w.Alike ρ v) :
    (run middlewares handler r w).Alike ρ (run middlewares handler q v) :=
  guarded_alike hhandler hmiddlewares 0 ⟨hrequest, rfl, hworld⟩

end Pipeline
end HttpEngine
