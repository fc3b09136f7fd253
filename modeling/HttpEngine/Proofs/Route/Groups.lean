import HttpEngine.Server.Build

/-!
# Groups are only notation

The table of a server lists all routes in the order in which they are written, whatever the groups
that they stand in.  The template of a route is its own one with the texts of all groups around it
in front, those of outer groups first.  A server that registers these templates one by one has the
same table.
-/

namespace HttpEngine

/-! # Routes as they are written -/

/-- A route with the texts of the groups that it stands in, from the outermost one inwards. -/
structure PlacedRoute (η : Type) where
  around : List String
  method : Method
  template : String
  handler : η

namespace PlacedRoute

variable {η : Type}

def within (leading : String) (placed : PlacedRoute η) : PlacedRoute η :=
  { placed with around := leading :: placed.around }

def fullTemplate (placed : PlacedRoute η) : String :=
  placed.around.foldr (· ++ ·) placed.template

def route (placed : PlacedRoute η) : Route η :=
  ⟨placed.method, placed.fullTemplate, placed.handler⟩

def direct (placed : PlacedRoute η) : RouteItem η :=
  .route placed.method placed.fullTemplate placed.handler

theorem route_within_within (outer inner : String) (placed : PlacedRoute η) :
    ((placed.within inner).within outer).route = (placed.within (outer ++ inner)).route := by
  simp only [route, within, fullTemplate, List.foldr_cons, String.append_assoc]

end PlacedRoute

namespace RouteItem

variable {η : Type}

mutual

def placed : RouteItem η -> List (PlacedRoute η)
  | .route method template handler => [⟨[], method, template, handler⟩]
  | .group leading items => (placedAll items).map (PlacedRoute.within leading)

def placedAll : List (RouteItem η) -> List (PlacedRoute η)
  | [] => []
  | item :: rest => placed item ++ placedAll rest

end

/-! # What is registered -/

mutual

theorem register_eq (item : RouteItem η) (group : RouteGroup η) :
    register item group =
      { group with
        routes := group.routes ++
          (placed item).map fun p => (p.within group.leading).route } := by
  cases item with
  | route method template handler => rfl
  | group leading items =>
      rw [register, RouteGroup.nest, registerAll_eq items, placed, List.map_map]
      simp only [RouteGroup.new, List.nil_append, Function.comp_def,
        PlacedRoute.route_within_within]

theorem registerAll_eq (items : List (RouteItem η)) (group : RouteGroup η) :
    registerAll items group =
      { group with
        routes := group.routes ++
          (placedAll items).map fun p => (p.within group.leading).route } := by
  cases items with
  | nil => rw [registerAll, placedAll, List.map_nil, List.append_nil]
  | cons item rest =>
      rw [registerAll, registerAll_eq rest, register_eq item, placedAll, List.map_append,
        List.append_assoc]

end

theorem routesOf_eq (leading : String) (items : List (RouteItem η)) :
    routesOf leading items = (placedAll items).map fun p => (p.within leading).route := by
  rw [routesOf, registerAll_eq]
  rfl

theorem placedAll_direct (written : List (PlacedRoute η)) :
    (placedAll (written.map PlacedRoute.direct)).map PlacedRoute.route =
      written.map PlacedRoute.route := by
  induction written with
  | nil => rfl
  | cons p written ih =>
      rw [List.map_cons, placedAll, List.map_append, ih]
      rfl

end RouteItem

namespace RouteTable

variable {η : Type}

theorem add_eq (table : RouteTable η) (item : RouteItem η) :
    table.add item = table ++ (RouteItem.placed item).map PlacedRoute.route := by
  cases item with
  | route method template handler => rfl
  | group leading items =>
      rw [add, RouteItem.routesOf_eq, RouteItem.placed, List.map_map]
      rfl

theorem foldl_add (items : List (RouteItem η)) (table : RouteTable η) :
    items.foldl add table = table ++ (RouteItem.placedAll items).map PlacedRoute.route := by
  induction items generalizing table with
  | nil => exact (List.append_nil table).symm
  | cons item rest ih =>
      rw [List.foldl_cons, ih, add_eq, RouteItem.placedAll, List.map_append, List.append_assoc]

theorem ofItems_eq (items : List (RouteItem η)) :
    ofItems items = (RouteItem.placedAll items).map PlacedRoute.route :=
  foldl_add items []

theorem ofItems_direct (items : List (RouteItem η)) :
    ofItems ((RouteItem.placedAll items).map PlacedRoute.direct) = ofItems items := by
  rw [ofItems_eq, ofItems_eq, RouteItem.placedAll_direct]

end RouteTable

/-! # Servers -/

namespace ServerBuilder

variable {σ : Type}

theorem routes_of_build {b : ServerBuilder σ} {host : Host} {built : BuiltServer σ}
    (h : (b.build host).1 = .ok built) : built.server.routes = RouteTable.ofItems b.items := by
  unfold build at h
  simp only at h
  split at h
  · cases h
  · split at h
    · cases h
    · cases h
      rfl

theorem build_congr {b : ServerBuilder σ} {items : List (RouteItem (Handler σ))}
    (h : RouteTable.ofItems items = RouteTable.ofItems b.items) (host : Host) :
    { b with items := items }.build host = b.build host := by
  unfold build
  rw [h]
  rfl

/--
The table of a server lists the routes in the order in which they are written, each with the texts
of the groups around it in front of its template.  If the groups are left out and these templates
are registered directly, the table is the same, so that every search ends alike, and the server that
is built on any host is the same.
-/
theorem groups_are_notation (b : ServerBuilder σ) :
    let written := RouteItem.placedAll b.items
    let flat : ServerBuilder σ := { b with items := written.map PlacedRoute.direct }
    RouteTable.ofItems b.items = written.map PlacedRoute.route ∧
    RouteTable.ofItems flat.items = written.map PlacedRoute.route ∧
    (forall maxParams method path held,
      RouteTable.search maxParams method path (RouteTable.ofItems b.items) held =
        RouteTable.search maxParams method path (RouteTable.ofItems flat.items) held) ∧
    (forall host built, (b.build host).1 = .ok built ->
      built.server.routes = written.map PlacedRoute.route) ∧
    forall host, flat.build host = b.build host := by
  intro written flat
  have htable := RouteTable.ofItems_eq b.items
  have hflat : RouteTable.ofItems flat.items = RouteTable.ofItems b.items :=
    RouteTable.ofItems_direct b.items
  refine ⟨htable, hflat.trans htable, ?_, ?_, build_congr hflat⟩
  · intro maxParams method path held
    rw [hflat]
  · intro host built hbuilt
    rw [routes_of_build hbuilt, htable]

def emptyHandler : Handler Unit :=
  fun request world => (.done .noContent, request, world)

def nestingBuilder : ServerBuilder Unit where
  listener := some ⟨.v4 127 0 0 1, 8080, 0⟩
  items :=
    [.route .get "/" emptyHandler,
     .group "/api"
       [.group "/v1"
          [.route .get "/users/{id}" emptyHandler,
           .group "/admin" [.route .delete "/{id}" emptyHandler]],
        .route .get "/health" emptyHandler],
     .route .get "/{page}" emptyHandler]

theorem groups_are_notation_nested :
    let host : Host := ⟨false, fun _ => false, fun _ => true⟩
    exists built, (nestingBuilder.build host).1 = .ok built ∧
      built.server.routes.map (fun route => (route.method, route.template)) =
        [(.get, "/"), (.get, "/api/v1/users/{id}"), (.delete, "/api/v1/admin/{id}"),
         (.get, "/api/health"), (.get, "/{page}")] := by
  intro host
  rcases groups_are_notation nestingBuilder with ⟨_, _, _, hroutes, _⟩
  refine ⟨_, rfl, ?_⟩
  rw [hroutes host _ rfl]
  decide +kernel

end ServerBuilder
end HttpEngine
