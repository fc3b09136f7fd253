import HttpEngine.Proofs.Pipeline.Passing

/-!
# Runs without a panic

A run in which nothing panics settles its request: the middlewares are called in order up to the
first one that aborts, and if there is none, the handler answers behind the header fields that they
have prepared.  Recoveries do not show then: the run comes to the same as the plain recursion over
the other middlewares.
-/

namespace HttpEngine

variable {σ : Type}

def Middleware.isStep (m : Middleware σ) : Bool :=
  !m.isRecovery

inductive Call (σ : Type) where
  | middleware (m : Middleware σ)
  | handler

def Call.isStep : Call σ -> Bool
  | .middleware m => m.isStep
  | .handler => true

def Run.trace (middlewares : List (Middleware σ)) (r : Run σ) : List (Call σ) :=
  (r.calls.filterMap fun index => middlewares[index]?).map Call.middleware ++
    if r.handlerInvoked then [.handler] else []

namespace Pipeline

/-! # The plain recursion -/

structure Settled (σ : Type) where
  response : Response
  calls : List (Call σ)
  request : Request
  world : World σ

def Settled.afterCalls (s : Settled σ) (calls : List (Call σ)) : Settled σ :=
  { s with calls := calls ++ s.calls }

def behind (slot response : Response) : Response :=
  { response with headers := slot.headers ++ response.headers }

/-- Calls middlewares one after the other, and the handler behind the last one. -/
def plain (handler : Handler σ) : List (Middleware σ) -> Exchange σ -> Outcome (Settled σ)
  | [], x =>
      match handler x.request x.world with
      | (.done response, request, world) =>
          .done { response := behind x.slot response, calls := [.handler], request, world }
      | (.panicked panic, _, _) => .panicked panic
  | m :: rest, x =>
      match m.call x with
      | (.done .proceed, y) => (plain handler rest y).map (·.afterCalls [.middleware m])
      | (.done .abort, y) =>
          .done { response := y.slot, calls := [.middleware m], request := y.request,
                  world := y.world }
      | (.panicked panic, _) => .panicked panic

inductive Settles (handler : Handler σ) (x : Exchange σ) :
    List (Middleware σ) -> Settled σ -> Prop where
  | aborted {passed rest : List (Middleware σ)} {m : Middleware σ} {y z : Exchange σ} :
      Passes passed x y -> m.call y = (.done .abort, z) ->
      Settles handler x (passed ++ m :: rest)
        { response := z.slot, calls := (passed ++ [m]).map .middleware, request := z.request,
          world := z.world }
  | answered {middlewares : List (Middleware σ)} {y : Exchange σ} {response : Response}
      {request : Request} {world : World σ} :
      Passes middlewares x y -> handler y.request y.world = (.done response, request, world) ->
      Settles handler x middlewares
        { response := behind y.slot response, calls := middlewares.map .middleware ++ [.handler],
          request, world }

theorem plain_of_passes {passed : List (Middleware σ)} {x y : Exchange σ} (h : Passes passed x y)
    (handler : Handler σ) (rest : List (Middleware σ)) :
    plain handler (passed ++ rest) x =
      (plain handler rest y).map (·.afterCalls (passed.map .middleware)) := by
  induction h with
  | @nil x =>
      change plain handler rest x = _
      cases plain handler rest x with
      | done settled => rfl
      | panicked panic => rfl
  | @cons m passed x y z hcall _ ih =>
      rw [List.cons_append, plain, hcall]
      simp only [ih]
      cases plain handler rest z with
      | done settled => rfl
      | panicked panic => rfl

theorem Settles.plain_eq {handler : Handler σ} {x : Exchange σ}
    {middlewares : List (Middleware σ)} {settled : Settled σ}
    (h : Settles handler x middlewares settled) :
    plain handler middlewares x = .done settled := by
  cases h with
  | aborted hpasses habort =>
      rw [plain_of_passes hpasses, plain, habort, List.map_append]
      rfl
  | answered hpasses hanswer =>
      have hplain := plain_of_passes hpasses handler []
      rw [List.append_nil, plain, hanswer] at hplain
      exact hplain

/-! # Every run -/

theorem breaksDown_or_settles (handler : Handler σ) (middlewares : List (Middleware σ))
    (x : Exchange σ) :
    (exists b, BreaksDown handler x middlewares b) ∨
      exists settled, Settles handler x middlewares settled := by
  rcases passes_or_halts middlewares x with
    ⟨y, hpasses⟩ | ⟨passed, step, rest, y, outcome, z, hsplit, hpasses, hhalt, hstay⟩
  · rcases hanswer : handler y.request y.world with ⟨outcome, request, world⟩
    cases outcome with
    | panicked panic => exact Or.inl ⟨_, .handler hpasses hanswer⟩
    | done response => exact Or.inr ⟨_, .answered hpasses hanswer⟩
  · rw [hsplit]
    cases outcome with
    | panicked panic => exact Or.inl ⟨_, .middleware hpasses hhalt⟩
    | done flow =>
        cases flow with
        | proceed => exact absurd rfl hstay
        | abort => exact Or.inr ⟨_, .aborted hpasses hhalt⟩

theorem filterMap_range_getElem? {α : Type} (list : List α) (count : Nat) :
    ((List.range count).filterMap fun index => list[index]?) = list.take count := by
  induction count with
  | zero => rfl
  | succ count ih =>
      rw [List.range_succ, List.filterMap_append, ih, List.take_add_one, List.filterMap_cons]
      cases list[count]? with
      | none => rfl
      | some element => rfl

structure Run.Shows (middlewares : List (Middleware σ)) (r : Run σ) (settled : Settled σ) :
    Prop where
  outcome : r.outcome = .done settled.response
  request : r.request = settled.request
  world : r.world = settled.world
  trace : r.trace middlewares = settled.calls

theorem Settles.chain_shows {handler : Handler σ} {x : Exchange σ}
    {middlewares : List (Middleware σ)} {settled : Settled σ}
    (h : Settles handler x middlewares settled) :
    Run.Shows middlewares (chain handler 0 middlewares x) settled := by
  cases h with
  | @aborted passed rest m y z hpasses habort =>
      cases m with
      | recovery => cases habort
      | step run =>
          have hchain : chain handler 0 (passed ++ .step run :: rest) x = _ :=
            chain_of_halt hpasses fun index => by rw [chain_cons, habort]
          rw [hchain]
          refine ⟨rfl, rfl, rfl, ?_⟩
          rw [Run.trace, filterMap_range_getElem?, List.take_length_add_append]
          exact List.append_nil _
  | answered hpasses hanswer =>
      rw [chain_of_handler hpasses hanswer]
      refine ⟨rfl, rfl, rfl, ?_⟩
      rw [Run.trace, filterMap_range_getElem?, List.take_length]
      rfl

/-! # Without recoveries -/

theorem Passes.filter {middlewares : List (Middleware σ)} {x y : Exchange σ}
    (h : Passes middlewares x y) : Passes (middlewares.filter Middleware.isStep) x y := by
  induction h with
  | nil => exact .nil
  | @cons m rest x y z hcall _ ih =>
      cases m with
      | recovery =>
          cases hcall
          exact ih
      | step run => exact .cons hcall ih

theorem filter_map_middleware (middlewares : List (Middleware σ)) :
    (middlewares.map Call.middleware).filter Call.isStep =
      (middlewares.filter Middleware.isStep).map Call.middleware :=
  List.filter_map

theorem Settles.filter {handler : Handler σ} {x : Exchange σ}
    {middlewares : List (Middleware σ)} {settled : Settled σ}
    (h : Settles handler x middlewares settled) :
    Settles handler x (middlewares.filter Middleware.isStep)
      { settled with calls := settled.calls.filter Call.isStep } := by
  cases h with
  | @aborted passed rest m y z hpasses habort =>
      cases m with
      | recovery => cases habort
      | step run =>
          simp only [filter_map_middleware, List.filter_append]
          exact .aborted hpasses.filter habort
  | answered hpasses hanswer =>
      simp only [filter_map_middleware, List.filter_append]
      exact .answered hpasses.filter hanswer

theorem handler_mem_filter_trace {middlewares : List (Middleware σ)} {r : Run σ} :
    Call.handler ∈ (r.trace middlewares).filter Call.isStep ↔ r.handlerInvoked = true := by
  rw [List.mem_filter, Run.trace, List.mem_append, List.mem_map]
  cases r.handlerInvoked with
  | true => simp [Call.isStep]
  | false => simp

/--
A run in which nothing panics comes to the same as the plain recursion over the middlewares that are
no recoveries: the same response, the same request and world, and the same calls.
-/
theorem run_eq_plain {handler : Handler σ} {middlewares : List (Middleware σ)} {request : Request}
    {world : World σ}
    (hcalm : forall b, ¬ BreaksDown handler ⟨request, .new .ok, world⟩ middlewares b) :
    let r := run middlewares handler request world
    let steps := middlewares.filter Middleware.isStep
    exists settled : Settled σ,
      plain handler steps ⟨request, .new .ok, world⟩ = .done settled ∧
      Settles handler ⟨request, .new .ok, world⟩ steps settled ∧
      r.outcome = .done settled.response ∧ r.request = settled.request ∧
      r.world = settled.world ∧ (r.trace middlewares).filter Call.isStep = settled.calls ∧
      (r.handlerInvoked = true ↔ Call.handler ∈ settled.calls) := by
  rcases breaksDown_or_settles handler middlewares ⟨request, .new .ok, world⟩ with
    ⟨b, hbreaks⟩ | ⟨settled, hsettles⟩
  · exact absurd hbreaks (hcalm b)
  · have hshows := hsettles.chain_shows
    have hrun : run middlewares handler request world =
        chain handler 0 middlewares ⟨request, .new .ok, world⟩ :=
      guarded_eq_chain_of_done hshows.outcome
    rw [← hrun] at hshows
    refine ⟨_, hsettles.filter.plain_eq, hsettles.filter, hshows.outcome, hshows.request,
      hshows.world, ?_, ?_⟩
    · rw [hshows.trace]
    · rw [← hshows.trace]
      exact handler_mem_filter_trace.symm

/-! # Stamps around a recovery -/

def stamp (name : String) : Middleware Unit :=
  .step fun x => (.done .proceed, { x with slot := x.slot.addHeader (.text name) (.text "1") })

def greet : Handler Unit := fun request world =>
  (.done ((Response.plain .ok (.text "hello")).addHeader (.text "x-own") (.text "1")), request,
    world)

def bareRequest : Request where
  method := .get
  path := "/"
  version := .http11
  headers := []
  query := []
  cookies := []
  params := []
  contentLength := 0
  body := none
  upload := none
  clientIp := "127.0.0.1"
  clientAddress := ⟨.v4 127 0 0 1, 50000, 0⟩
  error := none
  context := none

def quietWorld : World Unit where
  clock := 0
  machineTime := fun clock => ⟨clock, clock⟩
  storage := .empty
  serials := UInt64.ofNat
  events := []
  log := .new 1
  app := ()

theorem run_eq_plain_stamped :
    let middlewares := [stamp "x-one", .recovery, stamp "x-two", .recovery]
    let start : Exchange Unit := ⟨bareRequest, .new .ok, quietWorld⟩
    let r := run middlewares greet bareRequest quietWorld
    (forall b, ¬ BreaksDown greet start middlewares b) ∧
    exists settled : Settled Unit,
      plain greet [stamp "x-one", stamp "x-two"] start = .done settled ∧
      Settles greet start [stamp "x-one", stamp "x-two"] settled ∧
      r.outcome = .done settled.response ∧ r.request = settled.request ∧
      r.world = settled.world ∧ (r.trace middlewares).filter Call.isStep = settled.calls ∧
      (r.handlerInvoked = true ↔ Call.handler ∈ settled.calls) := by
  intro middlewares start r
  have hcalm : forall b, ¬ BreaksDown greet start middlewares b := by
    apply not_breaksDown
    · intro m hmem x panic hpanic
      simp only [middlewares, List.mem_cons, List.not_mem_nil, or_false] at hmem
      rcases hmem with rfl | rfl | rfl | rfl <;> cases hpanic
    · intro request world panic hpanic
      cases hpanic
  exact ⟨hcalm, run_eq_plain hcalm⟩

end Pipeline
end HttpEngine
