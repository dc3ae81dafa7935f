import Pipework.Error
import Pipework.Store.Member
import Pipework.Store.Record

/-!
# Stacks

A stack is the infrastructure that runs deployments. It says which settings it accepts and which
builds it needs, and it accepts or refuses a deployment, first when it prepares and then when it
starts it.
-/

namespace Pipework

/-- What a stack is asked to do. -/
inductive StackRequest where
  | prepare
  | deploy
  deriving DecidableEq, Repr

/-- The kinds of errors with which a stack refuses a deployment. -/
inductive Refusal where
  | validation
  | deployment
  | backend
  deriving DecidableEq, Repr

def Refusal.error (r : Refusal) (stack pipeline reason : String) : StackError :=
  match r with
  | .validation => .validation stack pipeline reason
  | .deployment => .deployment stack pipeline reason
  | .backend => .backend reason

structure Stack where
  id : Uuid
  name : String
  /-- Tells apart stacks that share an id. -/
  instanceNumber : Nat := 0
  /-- The settings that address a component of the stack. -/
  settingKeys : NameSet := .empty
  requirements : Deployment → List BuildRequirement
  /-- Why a deployment is refused before it starts. -/
  refusePrepare? : Record DeploymentEntry → Option StackError := fun _ => none
  /-- Why a deployment is refused when it starts. -/
  refuseDeploy? : Record DeploymentEntry → Option StackError := fun _ => none

namespace Stack

/-- The settings of the images of a pipeline. -/
def imageSettings (settings : Dict Json) : Json := (settings.get? "docker").getD .null

/-- A stack on this machine, which needs no builds and takes settings of its components. -/
def ofModel (m : StackModel) : Stack where
  id := m.id
  name := m.name
  settingKeys := .ofList (m.components.values.map fun c => c.componentType ++ "." ++ c.flavor)
  requirements _ := []

/-- The settings of a stack with local components. -/
def localKeys : NameSet := .ofList ["orchestrator.local", "artifact_store.local"]

/-- A stack that needs one image for each of some keys, and may refuse all deployments. -/
def recording (id : Uuid) (name : String := "recording") (keys : List String := [])
    (buildKeys : List String := []) (fails : Bool := false) : Stack where
  id
  name
  settingKeys := localKeys.addAll keys
  requirements d := buildKeys.map fun key =>
    { key, settings := imageSettings d.configuration.settings }
  refuseDeploy? d :=
    if fails then
      some (StackError.deployment name d.body.configuration.name
        "orchestrator rejected the deployment")
    else none

/-- A stack with build requirements of its own. With a key it also needs an image for each step
that has image settings. It may refuse what it is asked in one of its two requests. -/
def scripted (id : Uuid) (name : String) (keys : List String)
    (requirements : List BuildRequirement) (stepKey : Option String)
    (refusal : Option (StackRequest × Refusal)) : Stack where
  id
  name
  settingKeys := .ofList keys
  requirements d := requirements ++ match stepKey with
    | none => []
    | some key => d.steps.filterMap fun s => (s.config.settings.get? "docker").map fun settings =>
      { key, step := some s.config.name, settings }
  refusePrepare? d := match refusal with
    | some (.prepare, refusal) => some (refusal.error name d.body.configuration.name "scripted")
    | _ => none
  refuseDeploy? d := match refusal with
    | some (.deploy, refusal) => some (refusal.error name d.body.configuration.name "scripted")
    | _ => none

end Stack

/-- One request to a stack. -/
structure StackCall where
  stack : Nat
  request : StackRequest
  deployment : Uuid
  /-- Whether further runs were suppressed at that time. -/
  suppressed : Bool
  deriving DecidableEq, Repr

end Pipework
