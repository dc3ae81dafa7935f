import Pipework.Config.RunDocument

/-!
# Run options

How one pipeline is to be run: with which file and configuration, registered or not, with a new
build or not. Options are layered like configurations.
-/

namespace Pipework

structure RunOptions where
  /-- A file with a run configuration. -/
  file : Option File := none
  /-- What is set in the program, on top of the file. -/
  run : RunConfiguration := ∅
  /-- Whether runs are kept from being registered. -/
  unlisted : Bool := false
  preventBuildReuse : Bool := false

namespace RunOptions

def layered (base update : RunOptions) : RunOptions where
  file := overridden base.file update.file
  run := base.run.layered update.run
  unlisted := base.unlisted || update.unlisted
  preventBuildReuse := base.preventBuildReuse || update.preventBuildReuse

/-- The configuration that the file and the program give together. -/
def load (o : RunOptions) : Except Error RunConfiguration := RunConfiguration.load o.file o.run

end RunOptions

end Pipework
