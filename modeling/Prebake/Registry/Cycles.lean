import Prebake.Registry.Basic

/-!
# Cycles of a registry

A depth-first search over the lists of children, begun at every primitive in turn, so that cycles that no root leads
to are found too. A cycle is reported as the ids on it, and once more the one that closes it.
-/

namespace Prebake

namespace Registry

/-- What a search has found: the primitives that are done with all below them, and the cycles in the order in which
they were closed. -/
structure Search where
  done : List String
  cycles : List (List String)

namespace Search

/-- Nothing searched yet. -/
def empty : Search := ⟨[], []⟩

/-- The search with a cycle added, unless it is known. -/
def report (search : Search) (cycle : List String) : Search :=
  if search.cycles.contains cycle then search else { search with cycles := search.cycles ++ [cycle] }

/-- The search with a primitive done. -/
def finish (search : Search) (id : String) : Search := { search with done := id :: search.done }

end Search

/-- The ids listed as the children of an id. -/
def childIds (registry : Registry) (id : String) : List String := (registry.find? id).elim [] (·.children)

/-- The cycle that an id closes on a way that goes through it; the way is given from its end to its beginning. -/
def closedCycle (way : List String) (id : String) : List String :=
  id :: (id :: way.takeWhile (· != id)).reverse

/-- Searches below the last id of a way, which is given from its end to its beginning; no way without a repetition is
longer than `bound`. -/
def searchBelow (registry : Registry) : Nat → List String → String → Search → Search
  | 0, _, _, search => search
  | bound + 1, above, id, search =>
    let way := id :: above
    let below := (registry.childIds id).foldl
      (fun search child =>
        if way.contains child then search.report (closedCycle way child)
        else if search.done.contains child then search
        else searchBelow registry bound way child search)
      search
    below.finish id

/-- The cycles of a registry. -/
def cycles (registry : Registry) : List (List String) :=
  (registry.ids.foldl
    (fun search id =>
      if search.done.contains id then search else searchBelow registry (registry.size + 1) [] id search)
    Search.empty).cycles

end Registry

end Prebake
