import HttpEngine.Http.Method
import HttpEngine.Route.Template

/-!
# Routes

A table of routes in the order of registration.  The first route of the method whose template
matches the path serves a request.  All routes that are tried collect their pairs in one place,
which is cleared before each of them.  Groups put a common text in front of the templates of their
routes, and may hold groups.
-/

namespace HttpEngine

structure Route (η : Type) where
  method : Method
  template : String
  handler : η

abbrev RouteTable (η : Type) := List (Route η)

def Route.answer? {η : Type} (route : Route η) (maxParams : Nat) (method : Method)
    (path : String) : Option (η × List Pair) :=
  if route.method = method then
    (Template.match? maxParams route.template path).map (route.handler, ·)
  else none

namespace RouteTable

variable {η : Type}

/--
Tries the routes of a method one after the other; gives the handler of the first one that matches,
and the pairs that are held in the end.  What is held is cleared for each route that is tried, and
what a route has collected stays there when it does not match.
-/
def search (maxParams : Nat) (method : Method) (path : String) :
    RouteTable η -> Array Pair -> Option η × Array Pair
  | [], held => (none, held)
  | route :: rest, held =>
      if route.method = method then
        match Template.matchInto maxParams route.template path #[] with
        | (true, held) => (some route.handler, held)
        | (false, held) => search maxParams method path rest held
      else search maxParams method path rest held

def find? (table : RouteTable η) (maxParams : Nat) (method : Method) (path : String) :
    Option (η × List Pair) :=
  let found := search maxParams method path table #[]
  found.1.map (·, found.2.toList)

theorem search_eq_findSome? (table : RouteTable η) (maxParams : Nat) (method : Method)
    (path : String) (held : Array Pair) :
    (search maxParams method path table held).1.map
        (·, (search maxParams method path table held).2.toList) =
      table.findSome? fun route => route.answer? maxParams method path := by
  induction table generalizing held with
  | nil => rfl
  | cons route rest ih =>
      rw [search, List.findSome?_cons, Route.answer?]
      by_cases hmethod : route.method = method
      · rw [if_pos hmethod, if_pos hmethod, Template.match?]
        rcases Template.matchInto maxParams route.template path #[] with ⟨found, params⟩
        cases found with
        | true => rfl
        | false => exact ih params
      · rw [if_neg hmethod, if_neg hmethod]
        exact ih held

theorem find?_eq_findSome? (table : RouteTable η) (maxParams : Nat) (method : Method)
    (path : String) :
    table.find? maxParams method path =
      table.findSome? fun route => route.answer? maxParams method path :=
  search_eq_findSome? table maxParams method path #[]

theorem find?_eq_none_iff {table : RouteTable η} {maxParams : Nat} {method : Method}
    {path : String} :
    table.find? maxParams method path = none ↔
      forall route, route ∈ table -> route.method = method ->
        Template.match? maxParams route.template path = none := by
  simp [find?_eq_findSome?, List.findSome?_eq_none_iff, Route.answer?]

theorem exists_route_of_find? {table : RouteTable η} {maxParams : Nat} {method : Method}
    {path : String} {handler : η} {params : List Pair}
    (h : table.find? maxParams method path = some (handler, params)) :
    exists route, route ∈ table ∧ route.method = method ∧ route.handler = handler ∧
      Template.match? maxParams route.template path = some params := by
  rw [find?_eq_findSome?] at h
  rcases List.exists_of_findSome?_eq_some h with ⟨route, htable, hanswer⟩
  rcases Option.ite_none_right_eq_some.mp hanswer with ⟨hmethod, hmatch⟩
  rcases Option.map_eq_some_iff.mp hmatch with ⟨found, hfound, hpair⟩
  cases hpair
  exact ⟨route, htable, hmethod, rfl, hfound⟩

end RouteTable

/-! # Groups -/

inductive RouteItem (η : Type) where
  | route (method : Method) (template : String) (handler : η)
  | group (leading : String) (items : List (RouteItem η))

structure RouteGroup (η : Type) where
  leading : String
  routes : RouteTable η

namespace RouteGroup

variable {η : Type}

def new (leading : String) : RouteGroup η :=
  ⟨leading, []⟩

def route (group : RouteGroup η) (method : Method) (template : String) (handler : η) :
    RouteGroup η :=
  { group with routes := group.routes ++ [⟨method, group.leading ++ template, handler⟩] }

/-- Takes over the routes of an inner group, which begins empty and behind a longer text. -/
def nest (group : RouteGroup η) (leading : String) (build : RouteGroup η -> RouteGroup η) :
    RouteGroup η :=
  { group with routes := group.routes ++ (build (new (group.leading ++ leading))).routes }

end RouteGroup

namespace RouteItem

variable {η : Type}

mutual

def register : RouteItem η -> RouteGroup η -> RouteGroup η
  | .route method template handler, outer => outer.route method template handler
  | .group leading items, outer => outer.nest leading (registerAll items)

def registerAll : List (RouteItem η) -> RouteGroup η -> RouteGroup η
  | [], outer => outer
  | item :: rest, outer => registerAll rest (register item outer)

end

def routesOf (leading : String) (items : List (RouteItem η)) : RouteTable η :=
  (registerAll items (RouteGroup.new leading)).routes

end RouteItem

namespace RouteTable

variable {η : Type}

def add (table : RouteTable η) : RouteItem η -> RouteTable η
  | .route method template handler => table ++ [⟨method, template, handler⟩]
  | .group leading items => table ++ RouteItem.routesOf leading items

def ofItems (items : List (RouteItem η)) : RouteTable η :=
  items.foldl add []

end RouteTable
end HttpEngine
