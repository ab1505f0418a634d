import Mathlib.Logic.Basic

/-!
# Actors

Who makes a request (`core/context.py`). The authentication mode is not read by any modelled
function and left out.
-/

namespace EnergyAgent.Core

inductive ActorRole
  | viewer | operator | reviewer | admin
  deriving DecidableEq, Repr

/-- The text of a role in a review event. -/
def ActorRole.value : ActorRole → String
  | .viewer => "viewer"
  | .operator => "operator"
  | .reviewer => "reviewer"
  | .admin => "admin"

/-- `actor_role in {REVIEWER, ADMIN}`. -/
def ActorRole.privileged : ActorRole → Bool
  | .reviewer | .admin => true
  | .viewer | .operator => false

structure ActorContext where
  actorId : String
  actorRole : ActorRole
  deriving DecidableEq, Repr

end EnergyAgent.Core
