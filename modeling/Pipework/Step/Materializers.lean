import Pipework.Config.Source

/-!
# Materializers

A materializer stores the values of an output. The registry knows one for each of the built-in types
and for the types that were registered.
-/

namespace Pipework

/-- The default materializer of each type name. -/
structure Materializers where
  defaults : Dict Source

namespace Materializers

def empty : Materializers := ⟨.empty⟩

/-- A materializer that is part of the system. -/
def builtIn (name : String) : Source :=
  { modulePath := "stepflow.materializers.built_in_materializer"
    attributeName := name
    internal := true }

/-- Scalars, containers and bytes. -/
def standard : Materializers :=
  ⟨.ofList <|
    ["bool", "float", "int", "str"].map (·, builtIn "BuiltInMaterializer")
      ++ ["dict", "list", "set", "tuple"].map (·, builtIn "BuiltInContainerMaterializer")
      ++ [("bytes", builtIn "BytesMaterializer")]⟩

instance : Inhabited Materializers := ⟨standard⟩

def register (m : Materializers) (typeName : String) (source : Source) : Materializers :=
  ⟨m.defaults.insert typeName source⟩

def find? (m : Materializers) (typeName : String) : Option Source := m.defaults.get? typeName

end Materializers

end Pipework
