import Pipework.Document

/-!
# Users, workspaces and stacks of the store

A stack model lists the components of a stack under their types.
-/

namespace Pipework

structure User where
  id : Uuid
  name : String
  /-- The SHA-256 digest of the password, if there is one. -/
  passwordHash : Option String := none
  deriving DecidableEq

namespace User

instance : ToJson User where
  toJson u := Json.object <|
    Json.member "id" u.id ++ Json.member "name" u.name
      ++ Json.member? "password_hash" u.passwordHash

def read? {δ : Type} [Document δ] : Document.Reader δ User :=
  Document.record? do
    let id ← Document.Fields.required "id" Document.uuid?
    let name ← Document.Fields.required "name" Document.text?
    let passwordHash ← Document.Fields.optional "password_hash" Document.text?
    pure { id, name, passwordHash }

end User

structure Workspace where
  id : Uuid
  name : String
  deriving DecidableEq

namespace Workspace

instance : ToJson Workspace where
  toJson w := Json.object (Json.member "id" w.id ++ Json.member "name" w.name)

def read? {δ : Type} [Document δ] : Document.Reader δ Workspace :=
  Document.record? do
    let id ← Document.Fields.required "id" Document.uuid?
    let name ← Document.Fields.required "name" Document.text?
    pure { id, name }

end Workspace

/-- A part of a stack, such as an orchestrator of the flavor `local`. -/
structure Component where
  id : Uuid
  name : String
  componentType : String
  flavor : String
  deriving DecidableEq

namespace Component

instance : ToJson Component where
  toJson c := Json.object <|
    Json.member "id" c.id ++ Json.member "name" c.name
      ++ Json.member "component_type" c.componentType ++ Json.member "flavor" c.flavor

def read? {δ : Type} [Document δ] : Document.Reader δ Component :=
  Document.record? do
    let id ← Document.Fields.required "id" Document.uuid?
    let name ← Document.Fields.required "name" Document.text?
    let componentType ← Document.Fields.required "component_type" Document.text?
    let flavor ← Document.Fields.required "flavor" Document.text?
    pure { id, name, componentType, flavor }

end Component

structure StackModel where
  id : Uuid
  name : String
  workspace : Uuid
  components : Dict Component
  deriving DecidableEq

namespace StackModel

/-- The component of a type. -/
def component? (m : StackModel) (componentType : String) : Option Component :=
  m.components.get? componentType

instance : ToJson StackModel where
  toJson m := Json.object <|
    Json.member "id" m.id ++ Json.member "name" m.name ++ Json.member "workspace" m.workspace
      ++ Json.member "components" m.components

def read? {δ : Type} [Document δ] : Document.Reader δ StackModel :=
  Document.record? do
    let id ← Document.Fields.required "id" Document.uuid?
    let name ← Document.Fields.required "name" Document.text?
    let workspace ← Document.Fields.required "workspace" Document.uuid?
    let components ← Document.Fields.required "components" (Document.dict? Component.read?)
    pure { id, name, workspace, components }

end StackModel

end Pipework
