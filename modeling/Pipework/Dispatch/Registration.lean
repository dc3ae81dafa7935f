import Pipework.Dispatch.World
import Pipework.Text.Number

/-!
# Registration

A version is registered under the next free number, unless there is one with its hash already. Other
registrations may come in between the single requests to the store, so a registration is given as a
machine that makes one request at a time (`Registration.step`). A registration that finds its number
taken starts again, three times at most.
-/

namespace Pipework

/-- A version that has no number yet. -/
structure VersionDraft where
  name : String
  versionHash : String
  spec : Spec
  docstring : Option String
  user : Uuid
  workspace : Uuid
  deriving DecidableEq

/-- The version under a number. -/
def VersionDraft.numbered (d : VersionDraft) (number : Nat) : PipelineVersion where
  name := d.name
  version := toString number
  versionHash := d.versionHash
  spec := d.spec
  docstring := d.docstring
  user := d.user
  workspace := d.workspace

namespace Registration

/-- What a registration does next, or how it ended. -/
inductive Stage where
  /-- Asks whether there is a version with the hash. -/
  | findHash
  /-- Asks for the newest version. -/
  | findNumber
  /-- Asks for a new version with this number. -/
  | create (number : Nat)
  /-- There was a version with the hash. -/
  | found (record : Record PipelineVersion)
  | created (record : Record PipelineVersion)
  | failed (cause : StoreError)

/-- How many times a registration starts. -/
def attempts : Nat := 3

end Registration

/-- A registration under way. -/
structure Registration where
  draft : VersionDraft
  stage : Registration.Stage := .findHash
  /-- How often the number was taken. -/
  losses : Nat := 0

namespace Registration

/-- The number after the newest version. Numbers have 64 bits. -/
def nextNumber (name : String) (newest : Option (Record PipelineVersion)) :
    Except StoreError Nat :=
  match newest with
  | none => .ok 1
  | some record =>
    let version := record.body.version
    if version = PipelineVersion.unversioned then .ok 1
    else match Text.natural? (Nat.pow 2 64) version with
      | .ok n => .ok ((n + 1) % Nat.pow 2 64)
      | .error cause => .error (.backend ("pipeline " ++ quoted name ++ " has non-numeric version "
          ++ quoted version ++ ": " ++ cause.message))

/-- The registration after its number was taken. -/
def lost (r : Registration) : Registration :=
  if r.losses + 1 < attempts then { r with stage := .findHash, losses := r.losses + 1 }
  else { r with
    stage := .failed (.conflict "Pipeline" (r.draft.name ++ ":" ++ r.draft.versionHash))
    losses := r.losses + 1 }

/-- Makes the next request to the store. -/
def step (r : Registration) (w : World) : Registration × World :=
  match r.stage with
  | .findHash =>
    let (page, w) := w.listPipelines
      { name := r.draft.name, versionHash := r.draft.versionHash, size := some 1 }
    match page.first? with
    | some record => ({ r with stage := .found record }, w)
    | none => ({ r with stage := .findNumber }, w)
  | .findNumber =>
    let (page, w) := w.listPipelines { name := r.draft.name, size := some 1 }
    match nextNumber r.draft.name page.first? with
    | .ok number => ({ r with stage := .create number }, w)
    | .error cause => ({ r with stage := .failed cause }, w)
  | .create number => match w.createPipeline (r.draft.numbered number) with
    | (.ok record, w) => ({ r with stage := .created record }, w)
    | (.error (.conflict ..), w) => (r.lost, w)
    | (.error cause, w) => ({ r with stage := .failed cause }, w)
  | .found _ | .created _ | .failed _ => (r, w)

/-- Makes so many requests, or fewer if the registration ends before. -/
def steps : Nat → Registration → World → Registration × World
  | 0, r, w => (r, w)
  | n + 1, r, w => match r.stage with
    | .found _ | .created _ | .failed _ => (r, w)
    | _ =>
      let (r, w) := r.step w
      steps n r w

/-- Each attempt makes three requests. -/
def requestBound : Nat := 3 * attempts

/-- Registers a version and reports it if it is new. -/
def register (draft : VersionDraft) : Effect (Record PipelineVersion) := fun w =>
  let (r, w) := steps requestBound { draft } w
  match r.stage with
  | .found record => (.ok record, w)
  | .created record => (.ok record, w.emit {
      type := Event.registered
      data := Json.object (Json.member "pipeline" record.body.name
        ++ Json.member "version" record.body.version) })
  | .failed cause => (.error (.store cause), w)
  | _ => (.error (.store (.conflict "Pipeline" (draft.name ++ ":" ++ draft.versionHash))), w)

end Registration

end Pipework
