import PonsWarp.Core.Actions

set_option autoImplicit false

/-!
What a failed receive leaves behind. A receive fails with a reject of the piece,
or with an exception that the handler of binary frames catches; each way out
takes the request out of the tables in its own manner.
-/

namespace PonsWarp.Core

open PonsWarp.Data

namespace Engine

variable {σ : Type}

variable {e e' : Engine σ} {cfg : Config} {t : Turn}

theorem finalizeDirectRequest_availability (e : Engine σ) (cfg : Config) (t : Turn)
    (requestId : RequestId) (status : DirectTerminalReason) :
    (e.finalizeDirectRequest cfg t requestId status).1.availability = e.availability := by
  unfold finalizeDirectRequest
  split
  · rfl
  · split
    · rfl
    · simp only
      split
      · split
        · rfl
        · unfold enqueueWindow
          split
          · split <;> rfl
          · rfl
      · split
        · split
          · split <;> rfl
          · rfl
        · rfl

variable [StorageAdapter σ]

end Engine

section

variable {σ : Type} [StorageAdapter σ] {t : Turn} {G : Grant} {e e' : Engine σ}

end

namespace Sample

def request : RequestId := "req_f_0_0_a"

def chunkHeader : Turn × Action :=
  (turn, .message "o" (some { WireMessage.blank "PIECE_CHUNK_HEADER" with
    fileId := some "f", requestId := some request, pieceIndex := some 0, chunkIndex := some 0,
    totalChunks := some 1, payloadSize := some 1 }))

/-- A piece requested from the owner arrives and is written; `last` is the turn in which
it is persisted. -/
def received (ask : Call) (last : Turn) : List (Turn × Action) :=
  joined ++ [(turn, .call ask), (turn, .resume 1), (turn, .resume 1), chunkHeader,
    (turn, .binary "o" [1]), (turn, .resume 3), (turn, .resume 3), (last, .resume 3)]

def directAsk : Call := .requestNextPiece "o" "f" (some ⟨none, none, some "k", 0⟩)

end Sample

end PonsWarp.Core
