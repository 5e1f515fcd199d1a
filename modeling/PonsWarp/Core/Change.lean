import Mathlib.Logic.Relation
import Mathlib.Order.Lattice
import Mathlib.Order.PropInstances
import PonsWarp.Core.Step

set_option autoImplicit false

/-!
What a stretch of code does to the engine, as a sequence of elementary changes.
Every method is shown once to be such a sequence, under a grant that lists what
it may do where that matters; an invariant then only has to survive each kind
of change.
-/

namespace PonsWarp.Core

open PonsWarp.Data

/-- The changes that need a grant, and the continuations a stretch may leave. -/
inductive Label where
  | effect (x : Effect)
  | ask (manager : Nat) (requestId : RequestId) (request : OutstandingRequest)
  | fail (manager index : Nat)
  | verify (manager index : Nat)
  | drop (requestId : RequestId)
  | lose (requestId : RequestId)
  | header (peerId : PeerId) (header : PieceChunkHeaderMessage)
  | lostHeader (peerId : PeerId) (header : PieceChunkHeaderMessage)
  | assembly (requestId : RequestId) (assembly : IncomingChunkAssembly)
  | lostAssembly (requestId : RequestId)
  | tombstone (requestId : RequestId)
  | size (fileId : FileId) (pieceCount : Nat)
  | write (fileId : FileId) (index : Nat) (data : ArrayBuffer)
  | erase (fileId : FileId) (index : Nat)
  | init (sessionId : SessionId)
  | register (manifest : FileManifest)
  | install (fileId : FileId) (manager : PieceManager)
  | source
  | uploads
  | configure
  | dispose
  | frame (frame : Frame)

abbrev Grant := Label → Prop

namespace Engine

variable {σ : Type}

/-- Some outstanding request is for this piece of the manager. -/
def Backed (e : Engine σ) (ref index : Nat) : Prop :=
  ∃ requestId r, e.outstandingRequests.get? requestId = some r ∧
    e.managers.get? r.fileId = some ref ∧ r.pieceIndex = index

/-- The piece of a request is not waiting for an answer any more. -/
def Restored (e : Engine σ) (requestId : RequestId) : Prop :=
  ∀ r, e.outstandingRequests.get? requestId = some r →
    e.status? r.fileId r.pieceIndex ≠ some .requested

/-- If the request is outstanding, it is for this piece of the manager. -/
def Holds (e : Engine σ) (requestId : RequestId) (ref index : Nat) : Prop :=
  ∀ r, e.outstandingRequests.get? requestId = some r →
    e.managers.get? r.fileId = some ref ∧ r.pieceIndex = index

end Engine

/-- The window a task was meant for, when it will make requests. -/
def WindowJob.key? : WindowJob → Option String
  | .fill _ _ windowKey _ => some windowKey
  | .retry _ _ direct => some direct.windowKey
  | .expire _ => none

/-- Events are free; what is sent to a peer has to be granted. -/
def Grant.speaks (G : Grant) (l : List Effect) : Prop :=
  ∀ x ∈ l, (∃ event, x = .emit event) ∨ G (.effect x)

section

variable {σ : Type} [StorageAdapter σ] (t : Turn) (G : Grant)

inductive Change : Engine σ → Engine σ → Prop
  /-- The bookkeeping that no method relies on for the state of a piece. -/
  | minor (e : Engine σ) (peerHealth : PeerHealthTable) (knownPeers : List PeerId)
      (timers : OrderedMap RequestId Nat) (next : Nat) (armed : List (RequestId × String))
      (sessionId : Option SessionId) :
      Change e { e with
        peerHealth := peerHealth, knownPeers := knownPeers, directTimers := timers, armed := armed,
        nextDirectGeneration := next, sessionId := sessionId }
  | generation (e : Engine σ) (f : FileId) :
      Change e { e with
        localPieceMapGenerations := e.localPieceMapGenerations.set f
          ((e.localPieceMapGenerations.get? f).getD 0 + 1) }
  | say (e : Engine σ) (l : List Effect) (h : G.speaks l) : Change e { e with log := e.log ++ l }
  | fail (e : Engine σ) (ref index : Nat) (reason : String) (m : PieceManager)
      (hm : (e.managerAt ref).markFailed index reason = .ok m)
      (h : e.Backed ref index ∨ G (.fail ref index)) : Change e (e.putManager ref m)
  | reset (e : Engine σ) (ref index : Nat) (m : PieceManager)
      (hm : (e.managerAt ref).resetFailedToMissing index = .ok m) : Change e (e.putManager ref m)
  | verify (e : Engine σ) (ref index : Nat) (m : PieceManager)
      (hm : (e.managerAt ref).markVerified index = .ok m) (h : G (.verify ref index)) :
      Change e (e.putManager ref m)
  /-- A missing piece is requested and the request recorded under a new id. -/
  | ask (e : Engine σ) (ref : Nat) (m : PieceManager) (peerId : PeerId) (requestId : RequestId)
      (r : OutstandingRequest)
      (hm : (e.managerAt ref).markRequested r.pieceIndex peerId = .ok m)
      (hmissing : r.pieceIndex ∈ (e.managerAt ref).getMissingPieces)
      (hcurrent : e.managers.get? r.fileId = some ref)
      (hid : requestId = t.createRequestId r.fileId r.pieceIndex)
      (h : G (.ask ref requestId r)) :
      Change e { e.putManager ref m with
        outstandingRequests := e.outstandingRequests.set requestId r
        issued := e.issued ++ [requestId] }
  | drop (e : Engine σ) (requestId : RequestId) (h : G (.drop requestId))
      (hr : e.Restored requestId ∨ G (.lose requestId)) :
      Change e { e with outstandingRequests := e.outstandingRequests.delete requestId }
  | headers (e : Engine σ) (pending : OrderedMap PeerId PieceChunkHeaderMessage)
      (hnew : ∀ p h, pending.get? p = some h → e.pendingChunks.get? p = some h ∨ G (.header p h))
      (hlost : ∀ p h, e.pendingChunks.get? p = some h →
        pending.get? p = some h ∨ G (.lostHeader p h)) :
      Change e { e with pendingChunks := pending }
  | assemblies (e : Engine σ) (incoming : OrderedMap RequestId IncomingChunkAssembly)
      (hnew : ∀ r a, incoming.get? r = some a →
        e.incomingChunks.get? r = some a ∨ G (.assembly r a))
      (hlost : ∀ r a, e.incomingChunks.get? r = some a →
        incoming.get? r = some a ∨ G (.lostAssembly r)) :
      Change e { e with incomingChunks := incoming }
  | tombstones (e : Engine σ) (tombstones : List RequestId)
      (h : ∀ r ∈ tombstones, r ∈ e.directTombstones ∨ G (.tombstone r)) :
      Change e { e with directTombstones := tombstones }
  /-- The table gets no other leases than those of ids made now. -/
  | table (e : Engine σ) (availability : PieceAvailabilityTable)
      (hcount : ∀ f n, availability.count f = some n →
        e.availability.count f = some n ∨ (e.availability.count f = none ∧ G (.size f n)))
      (hlease : ∀ f i l, availability.getLease f i = some l →
        e.availability.getLease f i = some l ∨ l.requestId = t.createRequestId f i) :
      Change e { e with availability := availability }
  | newWindow (e : Engine σ) (key : String) (w : DirectWindow) (hq : w.queue = []) :
      Change e (e.newWindow key w)
  | window (e : Engine σ) (ref : Nat) (w w' : DirectWindow) (hw : e.windowHeap[ref]? = some w)
      (hd : w.disabled = true → w'.disabled = true) (hq : w'.queue <:+ w.queue) :
      Change e (e.putWindow ref w')
  | enqueue (e : Engine σ) (key : String) (ref : Nat) (w : DirectWindow) (job : WindowJob)
      (hw : e.window? key = some (ref, w)) (hd : w.disabled = false)
      (hj : ∀ k, job.key? = some k → k = key) :
      Change e (e.putWindow ref { w with queue := w.queue ++ [job], enqueued := w.enqueued + 1 })
  | prune (e : Engine σ) (windows : OrderedMap String Nat)
      (h : ∀ k r, windows.get? k = some r → e.directWindows.get? k = some r) :
      Change e { e with directWindows := windows }
  /-- What is saved is the state of the session that is open. -/
  | save (e : Engine σ) (s : SessionId) (hs : e.sessionId = some s) (hne : s ≠ "") :
      Change e { e with storage := (StorageAdapter.saveState (e.persistedState s) e.storage).2 }
  | load (e : Engine σ) (sessionId : SessionId) :
      Change e { e with storage := (StorageAdapter.loadState sessionId e.storage).2 }
  | read (e : Engine σ) (f : FileId) (i : Nat) :
      Change e { e with storage := (StorageAdapter.readPiece f i e.storage).2 }
  | write (e : Engine σ) (f : FileId) (i : Nat) (data : ArrayBuffer) (h : G (.write f i data)) :
      Change e { e with storage := (StorageAdapter.writePiece f i data e.storage).2 }
  | erase (e : Engine σ) (f : FileId) (i : Nat) (h : G (.erase f i)) :
      Change e { e with storage := (StorageAdapter.deletePiece f i e.storage).2 }
  | init (e : Engine σ) (sessionId : SessionId) (h : G (.init sessionId)) :
      Change e { e with storage := (StorageAdapter.init sessionId e.storage).2 }
  | register (e : Engine σ) (manifest : FileManifest) (h : G (.register manifest)) :
      Change e (e.registerManifest manifest)
  | install (e : Engine σ) (f : FileId) (manager : PieceManager) (h : G (.install f manager)) :
      Change e (e.installManager f manager)
  | source (e : Engine σ) (f : FileId) (file : Blob) (h : G .source) :
      Change e { e with ownerSources := e.ownerSources.set f file }
  | uploads (e : Engine σ) (queues : OrderedMap PeerId SendQueue) (h : G .uploads) :
      Change e { e with pieceSendQueues := queues }
  /-- A transport, once set, is never taken away. -/
  | configure (e : Engine σ) (bytes : Nat) (transport subscribed : Bool)
      (ht : e.transport = true → transport = true) (h : G .configure) :
      Change e { e with transferChunkBytes := bytes, transport := transport,
                        subscribed := subscribed }
  | dispose (e : Engine σ) (h : G .dispose) :
      Change e { e with
        disposed := true, directTimers := .empty, outstandingRequests := .empty,
        directWindows := .empty, subscribed := false }

abbrev Changes : Engine σ → Engine σ → Prop := Relation.ReflTransGen (Change t G)

end

variable {σ : Type} [StorageAdapter σ] {cfg : Config} {t : Turn} {G G' : Grant}
variable {e e' e'' : Engine σ}

theorem Change.mono (h : G ≤ G') (hc : Change t G e e') : Change t G' e e' := by
  cases hc with
  | minor => exact .minor ..
  | generation => exact .generation ..
  | say l hl => exact .say _ _ fun x hx => (hl x hx).imp_right (h _)
  | fail ref index reason m hm hg => exact .fail _ _ _ reason _ hm (hg.imp_right (h _))
  | reset ref index m hm => exact .reset _ _ index _ hm
  | verify ref index m hm hg => exact .verify _ _ index _ hm (h _ hg)
  | ask ref m peerId requestId r hm hmissing hcurrent hid hg =>
    exact .ask _ _ _ peerId _ _ hm hmissing hcurrent hid (h _ hg)
  | drop requestId hg hr => exact .drop _ _ (h _ hg) (hr.imp_right (h _))
  | headers pending hnew hlost =>
    exact .headers _ _ (fun p x hx => (hnew p x hx).imp_right (h _))
      (fun p x hx => (hlost p x hx).imp_right (h _))
  | assemblies incoming hnew hlost =>
    exact .assemblies _ _ (fun p x hx => (hnew p x hx).imp_right (h _))
      (fun p x hx => (hlost p x hx).imp_right (h _))
  | tombstones ts hts => exact .tombstones _ _ fun r hr => (hts r hr).imp_right (h _)
  | table a hcount hlease =>
    exact .table _ _ (fun f n hn => (hcount f n hn).imp_right (And.imp_right (h _))) hlease
  | newWindow key w hq => exact .newWindow _ _ _ hq
  | window ref w w' hw hd hq => exact .window _ _ w _ hw hd hq
  | enqueue key ref w job hw hd hj => exact .enqueue _ key _ _ _ hw hd hj
  | prune windows hw => exact .prune _ _ hw
  | save s hs hne => exact .save _ s hs hne
  | load => exact .load ..
  | read => exact .read ..
  | write f i data hg => exact .write _ _ _ _ (h _ hg)
  | erase f i hg => exact .erase _ _ _ (h _ hg)
  | init s hg => exact .init _ _ (h _ hg)
  | register m hg => exact .register _ _ (h _ hg)
  | install f m hg => exact .install _ _ _ (h _ hg)
  | source f file hg => exact .source _ _ _ (h _ hg)
  | uploads queues hg => exact .uploads _ _ (h _ hg)
  | configure bytes tr s ht hg => exact .configure _ _ _ _ ht (h _ hg)
  | dispose hg => exact .dispose _ (h _ hg)

theorem Changes.mono (h : G ≤ G') (hc : Changes t G e e') : Changes t G' e e' :=
  Relation.ReflTransGen.mono (fun _ _ hch => Change.mono h hch) _ _ hc

/-- A property that every change keeps is kept by a sequence of changes. -/
theorem Changes.keeps {P : Engine σ → Prop}
    (hstep : ∀ e e', Change t G e e' → P e → P e') (hc : Changes t G e e') (h : P e) : P e' := by
  induction hc with
  | refl => exact h
  | tail _ hlast ih => exact hstep _ _ hlast ih

def Next.frames : Next → List Frame
  | .await _ frames => frames
  | .done _ => []

/-- The frames that start a request or a receipt are made with the tables as they are. -/
def Frame.Opens (cfg : Config) (e : Engine σ) (pending : Pending) : Frame → Prop
  | .requestSent ref requestId scheduled =>
    ∃ r, e.outstandingRequests.get? requestId = some r ∧
      e.managers.get? r.fileId = some ref ∧ r.pieceIndex = scheduled.piece.index
  | .pieceChecked r =>
    pending = .settled (.ok (.bool (verifyPiece cfg.hash r.data r.descriptor))) ∧
      e.managers.get? r.fileId = some r.manager ∧
      ∃ manifest, e.manifests.get? r.fileId = some manifest ∧
        manifest.pieces[r.pieceIndex]? = some r.descriptor
  | _ => True

def Next.Opens (cfg : Config) (e : Engine σ) : Next → Prop
  | .await pending frames => ∀ frame ∈ frames, frame.Opens cfg e pending
  | .done _ => True

/-- A stretch of code that starts in `e` stays within its grant. -/
structure Does (cfg : Config) (t : Turn) (G : Grant) (e : Engine σ) (result : Engine σ × Next) :
    Prop where
  changes : Changes t G e result.1
  frames : ∀ frame ∈ result.2.frames, G (.frame frame)
  opens : result.2.Opens cfg result.1

namespace Does

variable {result : Engine σ × Next}

/-- A stretch after some changes. -/
theorem after (hc : Changes t G e e') (hd : Does cfg t G e' result) : Does cfg t G e result :=
  ⟨hc.trans hd.changes, hd.frames, hd.opens⟩

theorem done (hc : Changes t G e e') (outcome : Except Failure Value) :
    Does cfg t G e (e', .done outcome) :=
  ⟨hc, by simp [Next.frames], trivial⟩

/-- Nothing happens but the promise settles. -/
theorem stop (e : Engine σ) (outcome : Except Failure Value) :
    Does cfg t G e (e, .done outcome) :=
  done .refl outcome

/-- The last of a method is a promise that its caller waits for. -/
theorem passOn (hc : Changes t G e e') (pending : Pending) :
    Does cfg t G e (e', .await pending []) :=
  ⟨hc, by simp [Next.frames], by simp [Next.Opens]⟩

theorem await (hc : Changes t G e e') (pending : Pending) {frame : Frame}
    (hg : G (.frame frame)) (ho : frame.Opens cfg e' pending) :
    Does cfg t G e (e', .await pending [frame]) :=
  ⟨hc, by simpa [Next.frames] using hg, by simpa [Next.Opens] using ho⟩

theorem andThen {frame : Frame} (hd : Does cfg t G e result) (hg : G (.frame frame))
    (ho : ∀ pending, frame.Opens cfg result.1 pending) :
    Does cfg t G e (result.1, result.2.andThen frame) := by
  obtain ⟨hc, hframes, hopens⟩ := hd
  obtain ⟨e', next⟩ := result
  cases next with
  | done outcome => exact .await hc _ hg (ho _)
  | await pending frames =>
    refine ⟨hc, fun fr hfr => ?_, fun fr hfr => ?_⟩
    · obtain h | h := List.mem_append.1 hfr
      · exact hframes fr h
      · obtain rfl := List.mem_singleton.1 h
        exact hg
    · obtain h | h := List.mem_append.1 hfr
      · exact hopens fr h
      · obtain rfl := List.mem_singleton.1 h
        exact ho pending

end Does

end PonsWarp.Core
