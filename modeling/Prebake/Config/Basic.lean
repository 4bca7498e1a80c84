/-!
# Configuration

What a build does with a tree whose root stays deferred, and whether it checks the markers in its output.
-/

namespace Prebake

/-- What is done with a tree whose root stays deferred. -/
inductive Policy where
  | fail
  | deferToServe
deriving DecidableEq, Repr, Inhabited

/-- The name of a policy. -/
def Policy.name : Policy → String
  | fail => "fail"
  | deferToServe => "deferToServe"

/-- What a build can be told beside the registry. -/
structure Config where
  /-- Whether trees may be resolved at the same time; the outcome is the same. -/
  parallel : Bool := true
  onUnresolvable : Policy := .fail
  /-- Whether every marker in the markup of a tree must be listed in its manifest. -/
  verifyMarkers : Bool := true
deriving DecidableEq, Repr, Inhabited

namespace Config

/-- The configuration with trees resolved one after the other. -/
def sequential (config : Config) : Config := { config with parallel := false }

/-- The configuration with another policy. -/
def withPolicy (config : Config) (policy : Policy) : Config := { config with onUnresolvable := policy }

end Config

end Prebake
