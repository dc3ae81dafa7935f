import Pipework.Config.RunConfiguration
import Pipework.Error
import Pipework.Yaml.Value

/-!
# Run configurations in files

A run configuration may be kept in a YAML file. A blank text is the empty configuration. What is set
in the program is layered on what the file says.
-/

namespace Pipework

/-- A file as it was found. -/
inductive FileContent where
  | missing
  | bytes (content : ByteArray)

/-- A file and where it was looked for. -/
structure File where
  path : String
  content : FileContent

namespace RunConfiguration

/-- Reads a YAML text; errors name the place it came from. -/
def ofYaml (text sourceName : String) : Except Error RunConfiguration :=
  if Text.isBlankText text then .ok ∅
  else match (Yaml.Node.ofText? text).bind read? with
    | some configuration => .ok configuration
    | none => .error (.configuration (.invalidRunConfiguration sourceName
        "the text is not a document of the shape of a run configuration"))

/-- Reads a file, which has to exist and to hold UTF-8. -/
def ofFile (file : File) : Except Error RunConfiguration :=
  match file.content with
  | .missing =>
    .error (.configuration (.invalidRunConfiguration file.path "there is no such file"))
  | .bytes content => match String.fromUTF8? content with
    | some text => ofYaml text file.path
    | none =>
      .error (.configuration (.invalidRunConfiguration file.path "the file is not UTF-8 text"))

/-- What a file says, if there is one, with overrides on top. -/
def load (file : Option File) (overrides : RunConfiguration) : Except Error RunConfiguration :=
  match file with
  | none => .ok ((∅ : RunConfiguration).layered overrides)
  | some file => (ofFile file).map (·.layered overrides)

end RunConfiguration

end Pipework
