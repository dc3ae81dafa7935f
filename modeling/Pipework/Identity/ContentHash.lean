import Pipework.Digest.Sha256
import Pipework.Json.Printer

/-!
# Content hashes

The identity of a value is the SHA-256 digest of its compact text.
-/

namespace Pipework

def contentHash (value : Json) : String := Digest.sha256Hex value.compact

end Pipework
