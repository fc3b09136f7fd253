import HttpEngine.Proofs.Route.Matching
import HttpEngine.Route.Table

/-!
# The route that serves a request

A search through a table comes to the first route of the method whose template has the path as an
instance, and to none if there is no such route.  What is held in the end are the pairs of this
route alone: neither what was held before nor what other routes have collected on the way is left.
Routes behind one that matches do not count.
-/

namespace HttpEngine

/-! # The pairs of a path -/

namespace Template

/-- The names of the placeholders of a template in order, with the values that make up a path. -/
def Captures (maxParams : Nat) (template path : String) (params : List Pair) : Prop :=
  exists parts values, IsInstance maxParams template path parts values ∧
    params.map (fun p => Utf8.encode p.1) = names parts ∧
    params.map (fun p => Utf8.encode p.2) = values

theorem encoded_inj {a b : List Pair}
    (hnames : a.map (fun p => Utf8.encode p.1) = b.map (fun p => Utf8.encode p.1))
    (hvalues : a.map (fun p => Utf8.encode p.2) = b.map (fun p => Utf8.encode p.2)) : a = b := by
  have hpairs : a.map (fun p => (Utf8.encode p.1, Utf8.encode p.2)) =
      b.map (fun p => (Utf8.encode p.1, Utf8.encode p.2)) := by
    rw [← List.zip_map', ← List.zip_map', hnames, hvalues]
  refine (List.map_inj_right ?_).mp hpairs
  intro p q hpq
  rcases Prod.mk.inj hpq with ⟨hname, hvalue⟩
  exact Prod.ext (Utf8.encode_inj hname) (Utf8.encode_inj hvalue)

theorem match?_eq_some_iff {maxParams : Nat} {template path : String} {params : List Pair} :
    match? maxParams template path = some params ↔ Captures maxParams template path params := by
  rw [match?_eq_walk, Option.map_eq_some_iff]
  constructor
  · intro h
    rcases h with ⟨captures, hwalk, hparams⟩
    rcases isInstance_of_walk hwalk with ⟨parts, hnames, hinstance⟩
    rw [← hparams]
    exact ⟨parts, captures.map Prod.snd, hinstance, hinstance.encode_pairs hnames⟩
  · intro h
    rcases h with ⟨parts, values, hinstance, hnames, hvalues⟩
    refine ⟨(names parts).zip values, hinstance.walk, ?_⟩
    have hlength : (names parts).length = values.length := hinstance.path.length_eq
    have hfirst : ((names parts).zip values).map Prod.fst = names parts :=
      List.map_fst_zip (Nat.le_of_eq hlength)
    have hsecond : ((names parts).zip values).map Prod.snd = values :=
      List.map_snd_zip (Nat.le_of_eq hlength.symm)
    rw [← hsecond] at hinstance
    rcases hinstance.encode_pairs hfirst with ⟨hencoded, hfilled⟩
    exact encoded_inj (hencoded.trans hnames.symm) ((hfilled.trans hsecond).trans hvalues.symm)

theorem match?_eq_none_iff {maxParams : Nat} {template path : String} :
    match? maxParams template path = none ↔
      forall params, ¬ Captures maxParams template path params := by
  rw [Option.eq_none_iff_forall_ne_some]
  exact forall_congr' fun params => not_congr match?_eq_some_iff

end Template

/-! # One route -/

variable {η : Type} {maxParams : Nat} {method : Method} {path : String}

theorem Route.answer?_eq_some_iff {route : Route η} {handler : η} {params : List Pair} :
    route.answer? maxParams method path = some (handler, params) ↔
      route.method = method ∧ route.handler = handler ∧
        Template.Captures maxParams route.template path params := by
  rw [Route.answer?, Option.ite_none_right_eq_some, Option.map_eq_some_iff]
  simp only [Prod.mk.injEq, Template.match?_eq_some_iff]
  constructor
  · rintro ⟨hmethod, found, hcaptures, hhandler, hfound⟩
    exact ⟨hmethod, hhandler, hfound ▸ hcaptures⟩
  · rintro ⟨hmethod, hhandler, hcaptures⟩
    exact ⟨hmethod, params, hcaptures, hhandler, rfl⟩

theorem Route.answer?_eq_none_iff {route : Route η} :
    route.answer? maxParams method path = none ↔
      (route.method = method -> forall params,
        ¬ Template.Captures maxParams route.template path params) := by
  rw [Route.answer?, ← Template.match?_eq_none_iff]
  simp

/-! # All routes of a table -/

namespace RouteTable

structure IsFirst (table : RouteTable η) (maxParams : Nat) (method : Method) (path : String)
    (route : Route η) (params : List Pair) : Prop where
  sameMethod : route.method = method
  captures : Template.Captures maxParams route.template path params
  first : exists earlier later, table = earlier ++ route :: later ∧
    forall other, other ∈ earlier -> other.method = method ->
      forall pairs, ¬ Template.Captures maxParams other.template path pairs

variable {table : RouteTable η} {held params : Array Pair} {handler : η}

theorem search_eq_some_iff :
    search maxParams method path table held = (some handler, params) ↔
      (table.findSome? fun route => route.answer? maxParams method path) =
        some (handler, params.toList) := by
  rw [← search_eq_findSome? table maxParams method path held, Option.map_eq_some_iff]
  constructor
  · intro h
    rw [h]
    exact ⟨handler, rfl, rfl⟩
  · rintro ⟨found, hfound, hpair⟩
    rcases Prod.mk.inj hpair with ⟨hhandler, hparams⟩
    exact Prod.ext (hfound.trans (congrArg some hhandler)) (Array.toList_inj.mp hparams)

theorem search_fst_eq_none_iff :
    (search maxParams method path table held).1 = none ↔
      forall route, route ∈ table -> route.method = method ->
        forall params, ¬ Template.Captures maxParams route.template path params := by
  have hanswers := search_eq_findSome? table maxParams method path held
  rw [← Option.map_eq_none_iff, hanswers, List.findSome?_eq_none_iff]
  simp only [Route.answer?_eq_none_iff]

theorem search_eq_some_iff_isFirst :
    search maxParams method path table held = (some handler, params) ↔
      exists route, IsFirst table maxParams method path route params.toList ∧
        route.handler = handler := by
  rw [search_eq_some_iff, List.findSome?_eq_some_iff]
  simp only [Route.answer?_eq_some_iff, Route.answer?_eq_none_iff]
  constructor
  · rintro ⟨earlier, route, later, htable, ⟨hmethod, hhandler, hcaptures⟩, hearlier⟩
    exact ⟨route, ⟨hmethod, hcaptures, earlier, later, htable, hearlier⟩, hhandler⟩
  · rintro ⟨route, ⟨hmethod, hcaptures, earlier, later, htable, hearlier⟩, hhandler⟩
    exact ⟨earlier, route, later, htable, ⟨hmethod, hhandler, hcaptures⟩, hearlier⟩

theorem search_append_cons {route : Route η} {pairs : List Pair}
    (hmethod : route.method = method)
    (hcaptures : Template.Captures maxParams route.template path pairs)
    (earlier later others : RouteTable η) (held : Array Pair) :
    search maxParams method path (earlier ++ route :: later) held =
      search maxParams method path (earlier ++ route :: others) held := by
  have hanswer := Route.answer?_eq_some_iff.mpr ⟨hmethod, rfl, hcaptures⟩
  have hbehind : forall behind : RouteTable η,
      ((earlier ++ route :: behind).findSome? fun route => route.answer? maxParams method path) =
        (earlier.findSome? fun route => route.answer? maxParams method path).or
          (some (route.handler, pairs)) := by
    intro behind
    rw [List.findSome?_append, List.findSome?_cons, hanswer]
  cases hfirst : (earlier.findSome? fun route => route.answer? maxParams method path).or
      (some (route.handler, pairs)) with
  | none => simp at hfirst
  | some answer =>
      rcases answer with ⟨handler, found⟩
      have hheld : search maxParams method path (earlier ++ route :: later) held =
          (some handler, found.toArray) :=
        search_eq_some_iff.mpr ((hbehind later).trans hfirst)
      rw [hheld]
      exact (search_eq_some_iff.mpr ((hbehind others).trans hfirst)).symm

/--
A search finds the handler of the first route of the method whose template has the path as an
instance, and finds none only if there is no such route.  Whatever is held before, the pairs that
are held in the end are those of this route.  What stands behind a route that matches changes
nothing.
-/
theorem search_finds_first (table : RouteTable η) (maxParams : Nat) (method : Method)
    (path : String) (held : Array Pair) :
    (forall handler params, search maxParams method path table held = (some handler, params) ↔
      exists route, IsFirst table maxParams method path route params.toList ∧
        route.handler = handler) ∧
    ((search maxParams method path table held).1 = none ↔
      forall route, route ∈ table -> route.method = method ->
        forall params, ¬ Template.Captures maxParams route.template path params) ∧
    forall earlier route later, table = earlier ++ route :: later -> route.method = method ->
      (exists params, Template.Captures maxParams route.template path params) ->
      forall others, search maxParams method path (earlier ++ route :: others) held =
        search maxParams method path table held := by
  refine ⟨fun _ _ => search_eq_some_iff_isFirst, search_fst_eq_none_iff, ?_⟩
  intro earlier route later htable hmethod hmatch others
  rcases hmatch with ⟨params, hcaptures⟩
  rw [htable]
  exact search_append_cons hmethod hcaptures earlier others later held

/--
One pair is allowed, and one is held already.  The first route collects another one before it fails,
the second one is of another method, and the last one comes too late.
-/
theorem search_finds_first_cleared :
    let earlier : RouteTable Nat := [⟨.get, "/{a}/x", 0⟩, ⟨.post, "/{b}", 1⟩]
    let table := earlier ++ [⟨.get, "/{c}", 2⟩, ⟨.get, "/é", 3⟩]
    let held := #[("a", "old")]
    (exists route, IsFirst table 1 .get "/é" route [("c", "é")] ∧ route.handler = 2) ∧
      Template.Captures 1 "/{c}" "/é" [("c", "é")] ∧
      forall others, search 1 .get "/é" (earlier ++ ⟨.get, "/{c}", 2⟩ :: others) held =
        search 1 .get "/é" table held := by
  intro earlier table held
  have hsearch : search 1 .get "/é" table held = (some 2, #[("c", "é")]) := by decide +kernel
  have hcaptures : Template.Captures 1 "/{c}" "/é" [("c", "é")] :=
    Template.match?_eq_some_iff.mp (by decide +kernel)
  rcases search_finds_first table 1 .get "/é" held with ⟨hfound, _, hbehind⟩
  refine ⟨(hfound 2 _).mp hsearch, hcaptures, ?_⟩
  exact hbehind earlier ⟨.get, "/{c}", 2⟩ _ rfl rfl ⟨_, hcaptures⟩

end RouteTable
end HttpEngine
