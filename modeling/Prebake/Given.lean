import Prebake.Json.Basic

/-!
# Where values are given

A property or a binding is given as a literal, as an expression over the bindings in scope, or as a slot that the
server fills. An expression that could not be classified is kept apart, since only instances on the primary branch may
hold one.
-/

namespace Prebake

/-- How a property or a binding is given. -/
inductive Given where
  | literal (value : Json)
  | expression (source : String)
  | slot (name : String)
  | unclassified (source : String)
deriving Inhabited, Repr

/-- Properties or bindings by name, in the order in which they were given. -/
abbrev Givens : Type := List (String × Given)

end Prebake
