import HttpEngine.Pipeline

/-!
# How far a run goes

A run calls the middlewares one after the other as long as they go on, and then the handler.  So it
falls into the middlewares that went on and what came behind them: a middleware that did not, or the
handler.  Recoveries go on and change nothing; whether one went on before a panic only decides what
becomes of the panic.
-/

namespace HttpEngine

variable {σ : Type}

namespace Middleware

def call : Middleware σ -> Exchange σ -> Outcome Flow × Exchange σ
  | .recovery, x => (.done .proceed, x)
  | .step run, x => run x

def isRecovery : Middleware σ -> Bool
  | .recovery => true
  | .step _ => false

theorem any_isRecovery_iff {middlewares : List (Middleware σ)} :
    middlewares.any isRecovery = true ↔ .recovery ∈ middlewares := by
  rw [List.any_eq_true]
  constructor
  · intro h
    rcases h with ⟨m, hmem, hm⟩
    cases m with
    | recovery => exact hmem
    | step run => cases hm
  · intro h
    exact ⟨.recovery, h, rfl⟩

end Middleware

namespace Run

def afterCalls (r : Run σ) (indices : List Nat) : Run σ :=
  { r with calls := indices ++ r.calls }

theorem length_calls_afterCall (r : Run σ) (index : Nat) :
    (r.afterCall index).calls.length = r.calls.length + 1 :=
  rfl

theorem afterCall_recovered (r : Run σ) (index : Nat) :
    (r.afterCall index).recovered = r.recovered.afterCall index := by
  rcases r with ⟨outcome, calls, handlerInvoked, request, world⟩
  cases outcome with
  | done response => rfl
  | panicked panic => rfl

theorem recovered_of_done {r : Run σ} {response : Response} (h : r.outcome = .done response) :
    r.recovered = r := by
  rw [recovered, h]

end Run

namespace Pipeline

/-! # Going on -/

/-- Middlewares that all go on, each called once, in order, with what the last one has left. -/
inductive Passes : List (Middleware σ) -> Exchange σ -> Exchange σ -> Prop where
  | nil {x : Exchange σ} : Passes [] x x
  | cons {m : Middleware σ} {rest : List (Middleware σ)} {x y z : Exchange σ} :
      m.call x = (.done .proceed, y) -> Passes rest y z -> Passes (m :: rest) x z

theorem passes_or_halts (middlewares : List (Middleware σ)) (x : Exchange σ) :
    (exists y, Passes middlewares x y) ∨
      exists passed run rest y outcome z, middlewares = passed ++ .step run :: rest ∧
        Passes passed x y ∧ run y = (outcome, z) ∧ outcome ≠ .done .proceed := by
  induction middlewares generalizing x with
  | nil => exact Or.inl ⟨x, .nil⟩
  | cons m rest ih =>
      rcases hcall : m.call x with ⟨outcome, next⟩
      by_cases hgo : outcome = .done .proceed
      · rw [hgo] at hcall
        rcases ih next with ⟨y, hpasses⟩ | ⟨passed, run, late, y, outcome, z, hsplit, hpasses, hhalt⟩
        · exact Or.inl ⟨y, .cons hcall hpasses⟩
        · refine Or.inr ⟨m :: passed, run, late, y, outcome, z, ?_, .cons hcall hpasses, hhalt⟩
          rw [hsplit, List.cons_append]
      · cases m with
        | recovery =>
            cases hcall
            exact absurd rfl hgo
        | step run => exact Or.inr ⟨[], run, rest, x, outcome, next, rfl, .nil, hcall, hgo⟩

theorem chain_cons (handler : Handler σ) (index : Nat) (m : Middleware σ)
    (rest : List (Middleware σ)) (x : Exchange σ) :
    chain handler index (m :: rest) x =
      (match m.call x with
        | (.done .proceed, x) => chain handler (index + 1) rest x
        | (.done .abort, x) => stop (.done x.slot) x
        | (.panicked panic, x) => stop (.panicked panic) x).afterCall index := by
  cases m with
  | recovery => rfl
  | step run => rfl

theorem chain_of_passes {passed : List (Middleware σ)} {x y : Exchange σ} (h : Passes passed x y)
    (handler : Handler σ) (index : Nat) (rest : List (Middleware σ)) :
    chain handler index (passed ++ rest) x =
      (chain handler (index + passed.length) rest y).afterCalls
        (List.range' index passed.length) := by
  induction h generalizing index with
  | nil => rfl
  | @cons m passed x y z hcall _ ih =>
      rw [List.cons_append, chain_cons, hcall]
      simp only [ih]
      rw [List.length_cons, Nat.add_assoc, Nat.add_comm 1, List.range'_succ]
      rfl

theorem chain_of_halt {passed : List (Middleware σ)}
    {run : Exchange σ -> Outcome Flow × Exchange σ} {x y z : Exchange σ} {handler : Handler σ}
    {rest : List (Middleware σ)} {outcome : Outcome Response} (hpasses : Passes passed x y)
    (hhalt : forall index, chain handler index (.step run :: rest) y =
      (stop outcome z).afterCall index) :
    chain handler 0 (passed ++ .step run :: rest) x =
      { outcome, calls := List.range (passed.length + 1), handlerInvoked := false,
        request := z.request, world := z.world } := by
  rw [chain_of_passes hpasses, hhalt, Nat.zero_add, ← List.range_eq_range', List.range_succ]
  rfl

theorem chain_of_handler {middlewares : List (Middleware σ)} {x y : Exchange σ}
    {handler : Handler σ} {outcome : Outcome Response} {request : Request} {world : World σ}
    (hpasses : Passes middlewares x y)
    (hhandler : handler y.request y.world = (outcome, request, world)) :
    chain handler 0 middlewares x =
      { outcome := outcome.map (·.inheritHeaders y.slot), calls := List.range middlewares.length,
        handlerInvoked := true, request, world } := by
  have hchain := chain_of_passes hpasses handler 0 []
  rw [List.append_nil, ← List.range_eq_range', chain, callHandler, hhandler] at hchain
  rw [hchain, Run.afterCalls, List.append_nil]

/-! # Recovering -/

/-- The recoveries among the middlewares that a run has called decide about a panic. -/
theorem guarded_eq_chain (handler : Handler σ) (index : Nat) (middlewares : List (Middleware σ))
    (x : Exchange σ) :
    guarded handler index middlewares x =
      if (middlewares.take (chain handler index middlewares x).calls.length).any
          Middleware.isRecovery then
        (chain handler index middlewares x).recovered
      else chain handler index middlewares x := by
  induction middlewares generalizing index x with
  | nil => rfl
  | cons m rest ih =>
      cases m with
      | recovery =>
          -- The first call is a recovery already, so the later ones do not matter.
          change (chain handler (index + 1) rest x).recovered.afterCall index = _
          rw [← Run.afterCall_recovered]
          rfl
      | step run =>
          rw [guarded, chain]
          rcases run x with ⟨outcome, y⟩
          cases outcome with
          | done flow =>
              cases flow with
              | proceed =>
                  simp only [ih]
                  rw [Run.length_calls_afterCall, List.take_succ_cons, List.any_cons,
                    Middleware.isRecovery, Bool.false_or, Run.afterCall_recovered]
                  split
                  · rfl
                  · rfl
              | abort => rfl
          | panicked panic => rfl

theorem guarded_eq_chain_of_done {handler : Handler σ} {index : Nat}
    {middlewares : List (Middleware σ)} {x : Exchange σ} {response : Response}
    (h : (chain handler index middlewares x).outcome = .done response) :
    guarded handler index middlewares x = chain handler index middlewares x := by
  rw [guarded_eq_chain, Run.recovered_of_done h]
  split
  · rfl
  · rfl

/-! # Breaking down -/

structure Breakdown (σ : Type) where
  passed : List (Middleware σ)
  inHandler : Bool
  panic : Panic
  request : Request
  world : World σ

/-- A run comes to a step that panics: a middleware behind those that go on, or the handler. -/
inductive BreaksDown (handler : Handler σ) (x : Exchange σ) :
    List (Middleware σ) -> Breakdown σ -> Prop where
  | middleware {passed rest : List (Middleware σ)} {run : Exchange σ -> Outcome Flow × Exchange σ}
      {y z : Exchange σ} {panic : Panic} : Passes passed x y -> run y = (.panicked panic, z) ->
      BreaksDown handler x (passed ++ .step run :: rest)
        ⟨passed, false, panic, z.request, z.world⟩
  | handler {middlewares : List (Middleware σ)} {y : Exchange σ} {panic : Panic}
      {request : Request} {world : World σ} : Passes middlewares x y ->
      handler y.request y.world = (.panicked panic, request, world) ->
      BreaksDown handler x middlewares ⟨middlewares, true, panic, request, world⟩

namespace Breakdown

/-- How many middlewares are called up to the panic: one that panics itself has been called. -/
def called (b : Breakdown σ) : Nat :=
  if b.inHandler then b.passed.length else b.passed.length + 1

def run (b : Breakdown σ) : Run σ where
  outcome := .panicked b.panic
  calls := List.range b.called
  handlerInvoked := b.inHandler
  request := b.request
  world := b.world

end Breakdown

theorem BreaksDown.chain_eq {handler : Handler σ} {x : Exchange σ}
    {middlewares : List (Middleware σ)} {b : Breakdown σ}
    (h : BreaksDown handler x middlewares b) : chain handler 0 middlewares x = b.run := by
  cases h with
  | middleware hpasses hpanic =>
      apply chain_of_halt hpasses
      intro index
      rw [chain_cons, Middleware.call, hpanic]
  | handler hpasses hpanic => exact chain_of_handler hpasses hpanic

theorem BreaksDown.any_isRecovery {handler : Handler σ} {x : Exchange σ}
    {middlewares : List (Middleware σ)} {b : Breakdown σ}
    (h : BreaksDown handler x middlewares b) :
    (middlewares.take b.called).any Middleware.isRecovery =
      b.passed.any Middleware.isRecovery := by
  cases h with
  | @middleware passed rest run y z panic hpasses hpanic =>
      have htake : (passed ++ .step run :: rest).take (passed.length + 1) =
          passed ++ [.step run] := by
        rw [List.take_length_add_append]
        rfl
      change List.any (List.take (passed.length + 1) _) _ = _
      rw [htake, List.any_append]
      exact Bool.or_false _
  | @handler _ y panic request world hpasses hpanic =>
      change List.any (List.take middlewares.length _) _ = _
      rw [List.take_length]

theorem BreaksDown.run_eq {handler : Handler σ} {middlewares : List (Middleware σ)}
    {request : Request} {world : World σ} {b : Breakdown σ}
    (h : BreaksDown handler ⟨request, .new .ok, world⟩ middlewares b) :
    run middlewares handler request world =
      if b.passed.any Middleware.isRecovery then b.run.recovered else b.run := by
  have hlength : b.run.calls.length = b.called := List.length_range
  rw [run, guarded_eq_chain, h.chain_eq, hlength, h.any_isRecovery]

theorem not_breaksDown {handler : Handler σ} {middlewares : List (Middleware σ)}
    (hmiddlewares : forall m, m ∈ middlewares -> forall x panic, (m.call x).1 ≠ .panicked panic)
    (hhandler : forall request world panic, (handler request world).1 ≠ .panicked panic)
    (x : Exchange σ) (b : Breakdown σ) : ¬ BreaksDown handler x middlewares b := by
  intro h
  cases h with
  | @middleware passed rest run y z panic hpasses hpanic =>
      have hmem : Middleware.step run ∈ passed ++ .step run :: rest := by simp
      apply hmiddlewares _ hmem y panic
      rw [Middleware.call, hpanic]
  | @handler _ y panic request world hpasses hpanic =>
      apply hhandler y.request y.world panic
      rw [hpanic]

/-! # Calling the handler -/

theorem guarded_eq (handler : Handler σ) (index : Nat) (middlewares : List (Middleware σ))
    (x : Exchange σ) :
    (guarded handler index middlewares x).handlerInvoked =
        (chain handler index middlewares x).handlerInvoked ∧
      (guarded handler index middlewares x).request =
        (chain handler index middlewares x).request := by
  have hrecovered : forall r : Run σ,
      r.recovered.handlerInvoked = r.handlerInvoked ∧ r.recovered.request = r.request := by
    intro r
    unfold Run.recovered
    split
    · exact ⟨rfl, rfl⟩
    · exact ⟨rfl, rfl⟩
  rw [guarded_eq_chain]
  split
  · exact hrecovered _
  · exact ⟨rfl, rfl⟩

theorem Passes.run_eq {middlewares : List (Middleware σ)} {request : Request} {world : World σ}
    {y : Exchange σ} (h : Passes middlewares ⟨request, .new .ok, world⟩ y) (handler : Handler σ) :
    (run middlewares handler request world).handlerInvoked = true ∧
      (run middlewares handler request world).request = (handler y.request y.world).2.1 := by
  have hrun := guarded_eq handler 0 middlewares ⟨request, .new .ok, world⟩
  rw [chain_of_handler h rfl] at hrun
  exact hrun

/-- A run that is answered without its handler: a middleware aborts, or panics behind a recovery. -/
inductive Declines : List (Middleware σ) -> Exchange σ -> Prop where
  | aborted {passed rest : List (Middleware σ)} {run : Exchange σ -> Outcome Flow × Exchange σ}
      {x y z : Exchange σ} : Passes passed x y -> run y = (.done .abort, z) ->
      Declines (passed ++ .step run :: rest) x
  | recovered {passed rest : List (Middleware σ)} {run : Exchange σ -> Outcome Flow × Exchange σ}
      {x y z : Exchange σ} {panic : Panic} : Passes passed x y -> .recovery ∈ passed ->
      run y = (.panicked panic, z) -> Declines (passed ++ .step run :: rest) x

theorem Declines.handlerInvoked {middlewares : List (Middleware σ)} {request : Request}
    {world : World σ} (h : Declines middlewares ⟨request, .new .ok, world⟩) (handler : Handler σ) :
    (run middlewares handler request world).handlerInvoked = false := by
  rw [run, (guarded_eq _ _ _ _).left]
  cases h with
  | aborted hpasses habort =>
      rw [chain_of_halt hpasses fun index => by rw [chain_cons, Middleware.call, habort]]
  | recovered hpasses hmem hpanic =>
      rw [chain_of_halt hpasses fun index => by rw [chain_cons, Middleware.call, hpanic]]

theorem passes_or_declines {handler : Handler σ} {middlewares : List (Middleware σ)}
    {request : Request} {world : World σ} {response : Response}
    (h : (run middlewares handler request world).outcome = .done response) :
    (exists y, Passes middlewares ⟨request, .new .ok, world⟩ y) ∨
      Declines middlewares ⟨request, .new .ok, world⟩ := by
  rcases passes_or_halts middlewares ⟨request, .new .ok, world⟩ with
    hpasses | ⟨passed, step, rest, y, outcome, z, hsplit, hpasses, hhalt, hstops⟩
  · exact Or.inl hpasses
  · refine Or.inr ?_
    rw [hsplit] at h ⊢
    cases outcome with
    | done flow =>
        cases flow with
        | proceed => exact absurd rfl hstops
        | abort => exact .aborted hpasses hhalt
    | panicked panic =>
        refine .recovered hpasses ?_ hhalt
        rw [BreaksDown.run_eq (.middleware hpasses hhalt)] at h
        rw [← Middleware.any_isRecovery_iff]
        cases hany : passed.any Middleware.isRecovery with
        | true => rfl
        | false =>
            simp only [hany] at h
            cases h

end Pipeline
end HttpEngine
