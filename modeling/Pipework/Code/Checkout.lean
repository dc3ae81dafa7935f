import Pipework.Code.Path
import Pipework.Document

/-!
# Checkouts

A run that starts inside a clean checkout of a code repository refers to its commit and to the
directory of the code, seen from the root of the checkout.
-/

namespace Pipework

/-- Where the code of a run is found. -/
structure CodeReference where
  commit : String
  /-- The directory of the code relative to the root of the repository. -/
  subdirectory : String
  repository : Uuid
  deriving DecidableEq

namespace CodeReference

instance : ToJson CodeReference where
  toJson r := Json.object <|
    Json.member "commit" r.commit ++ Json.member "subdirectory" r.subdirectory
      ++ Json.member "code_repository_id" r.repository

def read? {δ : Type} [Document δ] : Document.Reader δ CodeReference :=
  Document.record? do
    let commit ← Document.Fields.required "commit" Document.text?
    let subdirectory ← Document.Fields.required "subdirectory" Document.text?
    let repository ← Document.Fields.required "code_repository_id" Document.uuid?
    pure { commit, subdirectory, repository }

end CodeReference

/-- A local checkout of a repository. -/
structure Checkout where
  repository : Uuid
  root : String
  commit : String
  /-- Whether there are changes that no commit holds. -/
  dirty : Bool
  deriving DecidableEq

namespace Checkout

/-- The directory of the code, or the root for code outside of the checkout. -/
def subdirectory (c : Checkout) (sourceRoot : String) : String :=
  match Path.stripPrefix? (Path.components c.root) (Path.components sourceRoot) with
  | none | some [] => "."
  | some inside => Path.join inside

/-- The reference for code in a directory, none while there are changes. -/
def codeReference? (c : Checkout) (sourceRoot : String) : Option CodeReference :=
  if c.dirty then none
  else some {
    commit := c.commit, subdirectory := c.subdirectory sourceRoot, repository := c.repository }

end Checkout

end Pipework
