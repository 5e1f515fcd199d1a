import PonsWarp.Core.Actions

set_option autoImplicit false

/-!
Restores under way. A manager comes to a file either from its manifest or from
`restoreResumeState`, so what is to hold of every manager has to be followed
through the continuations of that loop.
-/

namespace PonsWarp.Core

open PonsWarp.Data

/-- The loop variables of the restore a continuation is in. -/
def Frame.restore? : Frame → Option Restore
  | .resumeRead r _ => some r
  | .resumeChecked r _ => some r
  | .resumeDeleted r _ _ => some r
  | _ => none

/-- The file that gets the manager of the restore which comes back here. -/
def Frame.restored? : Frame → Option FileId
  | .fileRestored f => some f
  | .joinRestored _ _ f _ => some f
  | _ => none

/-- A continuation outside of any restore. -/
def Frame.Plain (frame : Frame) : Prop := frame.restore? = none ∧ frame.restored? = none

/-- The promise that comes back from a restore is not there yet. -/
def Pending.Unrestored (pending : Pending) : Prop :=
  ∀ result, pending ≠ .settled (.ok (.restored result))

/-- The piece maps that `joinSession` has still to restore. -/
def Frame.pieceMaps : Frame → Except Failure Value → List PieceMap
  | .joinLoaded _ _, .ok (.state (some state)) => state.pieceMaps
  | .joinRestored _ _ _ pending, _ => pending
  | _, _ => []

/-- A task in a restore carries a manager that is as `Q` says. -/
inductive Task.Restores (Q : FileId → PieceManager → Prop) : Task → Prop
  | loop (pending : Pending) (frame back : Frame) (below : List Frame) (r : Restore) (f : FileId)
      (hp : pending.Unrestored) (hr : frame.restore? = some r) (hf : back.restored? = some f)
      (hb : ∀ frame ∈ below, frame.Plain) (hq : Q f r.manager) :
      Restores Q ⟨pending, frame :: back :: below⟩
  | back (pending : Pending) (back : Frame) (below : List Frame) (f : FileId)
      (hf : back.restored? = some f) (hb : ∀ frame ∈ below, frame.Plain)
      (hq : ∀ result, pending = .settled (.ok (.restored result)) → Q f result.manager) :
      Restores Q ⟨pending, back :: below⟩
  | plain (task : Task) (h : ∀ frame ∈ task.stack, frame.Plain) : Restores Q task

/-- A stretch of `restoreResumeState` leaves its loop again or comes back with a
manager, which is as `Q` says. -/
def Next.Loops (Q : PieceManager → Prop) : Next → Prop
  | .await pending frames => pending.Unrestored ∧
      ∃ frame r, frames = [frame] ∧ frame.restore? = some r ∧ Q r.manager
  | .done outcome => ∀ result, outcome = .ok (.restored result) → Q result.manager

theorem Task.Restores.mono {Q Q' : FileId → PieceManager → Prop} {task : Task}
    (himp : ∀ f m, Q f m → Q' f m) (h : task.Restores Q) : task.Restores Q' := by
  cases h with
  | loop pending frame back below r f hp hr hf hb hq =>
    exact .loop _ _ _ _ r f hp hr hf hb (himp _ _ hq)
  | back pending back below f hf hb hq =>
    exact .back _ _ _ f hf hb fun result h => himp _ _ (hq result h)
  | plain _ h => exact .plain _ h

theorem Next.Loops.task {Q : FileId → PieceManager → Prop} {f : FileId} {next : Next}
    {back : Frame} {below : List Frame} (h : next.Loops (Q f)) (hf : back.restored? = some f)
    (hb : ∀ frame ∈ below, frame.Plain) : (next.task (back :: below)).Restores Q := by
  cases next with
  | await pending frames =>
    obtain ⟨hp, frame, r, rfl, hr, hq⟩ := h
    exact .loop _ _ _ _ r f hp hr hf hb hq
  | done outcome =>
    refine .back _ _ _ f hf hb ?_
    rintro result ⟨⟩
    exact h result rfl

theorem Next.task_andThen (next : Next) (back : Frame) (below : List Frame) :
    (next.andThen back).task below = next.task (back :: below) := by
  cases next <;> simp [Next.andThen, Next.task]

namespace Engine

variable {σ : Type} [StorageAdapter σ] {e : Engine σ} {cfg : Config} {t : Turn}
variable {Q : PieceManager → Prop}

omit [StorageAdapter σ] in
theorem storageCall_andThen {α : Type} (value : α → Value)
    (hv : ∀ a result, value a ≠ .restored result) (result : Except Failure α × σ)
    (frame : Frame) : ∃ pending, pending.Unrestored ∧
      (e.storageCall t value result).2.andThen frame = .await pending [frame] := by
  unfold storageCall
  split
  · exact ⟨_, by simp [Pending.Unrestored], rfl⟩
  · refine ⟨_, fun r hr => ?_, rfl⟩
    split at hr
    · rename_i a ha
      simp only [Pending.settled.injEq, Except.ok.injEq] at hr
      exact hv a r hr
    · simp at hr

theorem restoreLoop_loops (r : Restore) (h : Q r.manager) : (e.restoreLoop t r).2.Loops Q := by
  unfold restoreLoop
  split
  · rintro result ⟨⟩
    exact h
  · rename_i index rest hr
    obtain ⟨pending, hu, hp⟩ := storageCall_andThen (e := e) (t := t) Value.buffer
      (by simp) (StorageAdapter.readPiece r.manifest.fileId index e.storage)
      (.resumeRead { r with pending := rest } index)
    simp only [hp]
    exact ⟨hu, _, _, rfl, rfl, h⟩

theorem discardPiece_loops (r : Restore) (index : Nat) (reason : String) (h : Q r.manager) :
    (e.discardPiece t r index reason).2.Loops Q := by
  unfold discardPiece
  obtain ⟨pending, hu, hp⟩ := storageCall_andThen (e := e) (t := t) (fun _ => Value.unit)
    (by simp) (StorageAdapter.deletePiece r.manifest.fileId index e.storage)
    (.resumeDeleted r index reason)
  simp only [hp]
  exact ⟨hu, _, _, rfl, rfl, h⟩

theorem resumeRead_loops (r : Restore) (index : Nat) (outcome : Except Failure Value)
    (h : Q r.manager) : (e.resumeRead cfg t r index outcome).2.Loops Q := by
  unfold resumeRead
  split
  · rintro result ⟨⟩
  · split
    · rintro result ⟨⟩
    · exact ⟨by simp [Pending.Unrestored], _, _, rfl, rfl, h⟩
  · exact discardPiece_loops r index _ h

theorem resumeChecked_loops (r : Restore) (index : Nat) (verified : Bool) (h : Q r.manager) :
    (e.resumeChecked t r index verified).2.Loops Q := by
  unfold resumeChecked
  split
  · exact restoreLoop_loops r h
  · exact discardPiece_loops r index _ h

theorem resumeDeleted_loops (r : Restore) (index : Nat) (reason : String)
    (outcome : Except Failure Value) (h : Q r.manager)
    (hdiscard : ∀ m m' m'', Q m → m.markFailed index reason = .ok m' →
      m'.resetFailedToMissing index = .ok m'' → Q m'') :
    (e.resumeDeleted t r index reason outcome).2.Loops Q := by
  unfold resumeDeleted
  split
  · rintro result ⟨⟩
  · split
    · rintro result ⟨⟩
    · rename_i m' hm'
      split
      · rintro result ⟨⟩
      · rename_i m'' hm''
        exact restoreLoop_loops _ (hdiscard _ _ _ h hm' hm'')

theorem restoreResumeState_loops (manifest : FileManifest) (pieceMap : PieceMap)
    (hstart : ∀ m, (PieceManager.new manifest.fileId manifest.pieces).importPieceMap pieceMap =
      .ok m → Q m) : (e.restoreResumeState t manifest pieceMap).2.Loops Q := by
  unfold restoreResumeState
  split
  · rintro result ⟨⟩
  · split
    · rintro result ⟨⟩
    · rename_i m hm
      exact restoreLoop_loops _ (hstart m hm)

/-- A stretch that may only leave plain continuations. -/
theorem restores_of_does {Q : FileId → PieceManager → Prop} {G : Grant}
    {result : Engine σ × Next} {below : List Frame} (hd : Does cfg t G e result)
    (hG : ∀ frame, G (.frame frame) → frame.Plain) (hbelow : ∀ frame ∈ below, frame.Plain) :
    (result.2.task below).Restores Q := by
  refine .plain _ fun frame hframe => ?_
  obtain hnew | hold := World.mem_task_stack.1 hframe
  · exact hG frame (hd.frames frame hnew)
  · exact hbelow frame hold

theorem joinLoop_restores (cfg : Config) {Q : FileId → PieceManager → Prop}
    (sessionId : SessionId) (merged : List FileManifest) (pieceMaps : List PieceMap)
    {below : List Frame} (hb : ∀ frame ∈ below, frame.Plain)
    (hstart : ∀ f manifest, ∀ pieceMap ∈ pieceMaps, ∀ m, e.manifests.get? f = some manifest →
      (PieceManager.new manifest.fileId manifest.pieces).importPieceMap pieceMap = .ok m → Q f m) :
    ((e.joinLoop t sessionId merged pieceMaps).2.task below).Restores Q := by
  induction pieceMaps with
  | nil =>
    unfold joinLoop
    split
    · exact .plain _ hb
    · have hd : Does cfg t (Grant.only (.frame (.joinPersisted sessionId merged))) e
          ((e.persistState t).1, (e.persistState t).2.andThen (.joinPersisted sessionId merged)) :=
        Does.andThen does_persistState rfl fun _ => trivial
      refine restores_of_does hd ?_ hb
      rintro frame ⟨⟩
      exact ⟨rfl, rfl⟩
  | cons pieceMap rest ih =>
    unfold joinLoop
    split
    · exact ih fun f manifest pm hpm => hstart f manifest pm (List.mem_cons_of_mem _ hpm)
    · rename_i manifest hm
      simp only [Next.task_andThen]
      have hloops : (e.restoreResumeState t manifest pieceMap).2.Loops (Q pieceMap.fileId) :=
        restoreResumeState_loops manifest pieceMap fun m =>
          hstart _ _ _ List.mem_cons_self m hm
      exact hloops.task rfl hb

/-- `joinLoop` registers nothing. -/
theorem joinLoop_manifests (cfg : Config) (sessionId : SessionId) (merged : List FileManifest)
    (pieceMaps : List PieceMap) :
    (e.joinLoop t sessionId merged pieceMaps).1.manifests = e.manifests :=
  Changes.manifests (fun _ h => h)
    (show Does cfg t _ e _ from does_joinLoop sessionId merged pieceMaps le_rfl).changes

theorem joinLoaded_restores (cfg : Config) {Q : FileId → PieceManager → Prop}
    (sessionId : SessionId) (manifests : List FileManifest) (outcome : Except Failure Value)
    {below : List Frame} (hb : ∀ frame ∈ below, frame.Plain)
    (hstart : ∀ f manifest pieceMap m,
      (∃ state, outcome = .ok (.state (some state)) ∧ pieceMap ∈ state.pieceMaps) →
      (e.joinLoaded t sessionId manifests outcome).1.manifests.get? f = some manifest →
      (PieceManager.new manifest.fileId manifest.pieces).importPieceMap pieceMap = .ok m → Q f m) :
    ((e.joinLoaded t sessionId manifests outcome).2.task below).Restores Q := by
  unfold joinLoaded at hstart ⊢
  split
  · exact .plain _ hb
  · simp only at hstart
    split
    · exact .plain _ hb
    · rename_i hv
      split
      · exact .plain _ hb
      · rename_i merged hm
        simp only [hv, hm, joinLoop_manifests cfg] at hstart
        refine joinLoop_restores cfg sessionId merged _ hb fun f manifest pieceMap hmem m => ?_
        rename Option PersistedSessionState => state
        cases state with
        | none => cases hmem
        | some state => exact hstart f manifest pieceMap m ⟨state, rfl, hmem⟩
  · exact .plain _ hb

theorem joinRestored_restores (cfg : Config) {Q : FileId → PieceManager → Prop}
    (sessionId : SessionId) (merged : List FileManifest) (f : FileId) (pending : List PieceMap)
    (outcome : Except Failure Value) {below : List Frame} (hb : ∀ frame ∈ below, frame.Plain)
    (hstart : ∀ g manifest, ∀ pieceMap ∈ pending, ∀ m,
      (e.joinRestored t sessionId merged f pending outcome).1.manifests.get? g = some manifest →
      (PieceManager.new manifest.fileId manifest.pieces).importPieceMap pieceMap = .ok m → Q g m) :
    ((e.joinRestored t sessionId merged f pending outcome).2.task below).Restores Q := by
  unfold joinRestored at hstart ⊢
  split
  · exact .plain _ hb
  · simp only [joinLoop_manifests cfg] at hstart
    exact joinLoop_restores cfg sessionId merged _ hb hstart
  · exact .plain _ hb

theorem resumeFile_restores {Q : FileId → PieceManager → Prop} (f : FileId)
    (hstart : ∀ manifest ref m, e.manifests.get? f = some manifest →
      e.managers.get? f = some ref →
      (PieceManager.new manifest.fileId manifest.pieces).importPieceMap
        (e.managerAt ref).exportPieceMap = .ok m → Q f m) :
    ((e.resumeFile t f).2.task []).Restores Q := by
  unfold resumeFile
  split
  · exact .plain _ (by simp [Next.throw, Next.task])
  · rename_i manifest hm
    split
    · exact .plain _ (by simp [Next.throw, Next.task])
    · rename_i ref href
      simp only [Next.task_andThen]
      have hloops : (e.restoreResumeState t manifest (e.managerAt ref).exportPieceMap).2.Loops
          (Q f) :=
        restoreResumeState_loops manifest _ fun m =>
          hstart manifest ref m (requireManifest_eq_ok.1 hm) (requireManager_eq_ok.1 href)
      exact hloops.task rfl (by simp)

end Engine

/-- A grant of plain continuations only. -/
def Grant.Plain (G : Grant) : Prop := ∀ frame, G (.frame frame) → frame.Plain

namespace Grant

variable {σ : Type} {e : Engine σ} {t : Turn} {G G' : Grant}

theorem Plain.sup (h : G.Plain) (h' : G'.Plain) : (G ⊔ G').Plain := by
  rintro frame (hl | hl)
  · exact h frame hl
  · exact h' frame hl

theorem plain_bot : (⊥ : Grant).Plain := fun _ h => h.elim

theorem plain_only {frame : Frame} (h : frame.Plain) : (Grant.only (.frame frame)).Plain := by
  rintro _ ⟨⟩
  exact h

theorem plain_only_of_ne {label : Label} (h : ∀ frame, label ≠ .frame frame) :
    (Grant.only label).Plain := fun frame he => absurd he.symm (h frame)

theorem plain_request (p : PeerId) (f : FileId) (options : Option DirectRequestOptions) :
    (Grant.request t p f options).Plain := by
  rintro _ ⟨ref, scheduled, rfl⟩
  exact ⟨rfl, rfl⟩

theorem plain_grid (f : FileId) (options : GridScheduleOptions) :
    (Grant.grid e t f options).Plain := by
  rintro _ (⟨result, rfl⟩ | ⟨result, rfl⟩)
  · exact ⟨rfl, rfl⟩
  · exact ⟨rfl, rfl⟩

theorem plain_gridLoop (f : FileId) (options : GridScheduleOptions) (total : Number) :
    (Grant.gridLoop e t f options total).Plain := by
  rintro frame (h | ⟨total, scheduled, rfl⟩ | ⟨total, scheduled, rfl⟩)
  · exact plain_grid f options frame h
  · exact ⟨rfl, rfl⟩
  · exact ⟨rfl, rfl⟩

theorem plain_filling (window : Nat) (windowKey : String) (p : PeerId) (f : FileId)
    (options : DirectRequestOptions) : (Grant.filling t window windowKey p f options).Plain := by
  rintro frame (h | ⟨scheduled, h⟩)
  · exact plain_request _ _ _ frame h
  · cases h
    exact ⟨rfl, rfl⟩

theorem plain_again (p : PeerId) (f : FileId) (options : Option GridScheduleOptions) :
    (Grant.again e t p f options).Plain := by
  cases options with
  | none => exact plain_request p f none
  | some options => exact plain_grid f options

theorem plain_upload (p : PeerId) : (Grant.upload t p).Plain := by
  intro frame h
  cases frame with
  | sourceRead => exact ⟨rfl, rfl⟩
  | storedRead => exact ⟨rfl, rfl⟩
  | headerSent => exact ⟨rfl, rfl⟩
  | binarySent => exact ⟨rfl, rfl⟩
  | uploadJob => exact ⟨rfl, rfl⟩
  | _ => cases h

theorem plain_reject (p : PeerId) (h : PieceChunkHeaderMessage) : (Grant.reject e t p h).Plain := by
  rintro _ ⟨outstanding, finalized, rfl⟩
  exact ⟨rfl, rfl⟩

theorem plain_message (p : PeerId) (m : WireMessage) : (Grant.message e t p m).Plain := by
  rintro frame (⟨-, h⟩ | ⟨-, map, -, h⟩ | ⟨-, header, -, -, -, hl⟩ | ⟨-, requestId, f, i, -, -, -, h⟩ |
    ⟨-, requestId, -, h⟩ | ⟨-, requestId, -, q, -, -, h⟩)
  · cases h
  · exact h.elim
  · obtain ⟨-, h⟩ | ⟨previous, -, -, h⟩ := hl
    · cases h
    · exact plain_reject p header frame h
  · exact h.elim
  · cases h
  · obtain h | h := h
    · exact h.elim
    · exact plain_again _ _ _ frame h

theorem plain_windowJob (window : Nat) (job : WindowJob) :
    (Grant.windowJob t window job).Plain := by
  cases job with
  | fill p f windowKey options =>
    rintro frame (h | h)
    · exact plain_request _ _ _ frame h
    · cases h
      exact ⟨rfl, rfl⟩
  | retry requestId request direct => exact plain_request _ _ _
  | expire requestId => exact fun _ h => h.elim

end Grant

/-- Outside of restores a continuation leaves plain ones only. -/
theorem Frame.grant_plain {σ : Type} {e : Engine σ} {t : Turn} {frame : Frame}
    (outcome : Except Failure Value) (hr : frame.restore? = none)
    (hloaded : ∀ s ms, frame ≠ .joinLoaded s ms)
    (hjoined : ∀ s merged f pending, frame ≠ .joinRestored s merged f pending) :
    (frame.grant e t outcome).Plain := by
  cases frame with
  | resumeRead => cases hr
  | resumeChecked => cases hr
  | resumeDeleted => cases hr
  | joinLoaded s ms => exact absurd rfl (hloaded s ms)
  | joinRestored s merged f pending => exact absurd rfl (hjoined s merged f pending)
  | fillWindow => exact Grant.plain_filling _ _ _ _ _
  | gridEndgame => exact Grant.plain_gridLoop _ _ _
  | gridNext => exact Grant.plain_gridLoop _ _ _
  | sourceRead => exact Grant.plain_upload _
  | storedRead => exact Grant.plain_upload _
  | headerSent => exact Grant.plain_upload _
  | binarySent => exact Grant.plain_upload _
  | uploadJob => exact Grant.plain_upload _
  | rejectSent => exact (Grant.plain_again _ _ _).sup (Grant.plain_only ⟨rfl, rfl⟩)
  | responseSent =>
    rintro frame ⟨options, -, h⟩
    exact Grant.plain_grid _ options frame h
  | filePersisted => exact .sup (fun _ h => h.elim) (Grant.plain_only ⟨rfl, rfl⟩)
  | createInitialized =>
    rintro frame (⟨_, _, _, _, rfl⟩ | ⟨_, _, rfl⟩)
    · exact ⟨rfl, rfl⟩
    · exact ⟨rfl, rfl⟩
  | requestSent =>
    cases outcome with
    | error => exact fun _ h => h.elim
    | ok => exact Grant.plain_only ⟨rfl, rfl⟩
  | requestPersisted =>
    cases outcome with
    | error => exact fun _ h => h.elim
    | ok => exact Grant.plain_bot
  | gridSent => exact Grant.plain_only ⟨rfl, rfl⟩
  | pieceChecked r =>
    rintro frame h
    obtain err | v := outcome
    · exact h.elim
    · cases v with
      | bool b => cases b <;> (obtain rfl := h; exact ⟨rfl, rfl⟩)
      | _ => exact h.elim
  | pieceDeleted => exact Grant.plain_only ⟨rfl, rfl⟩
  | mismatchPersisted => exact .sup (fun _ h => h.elim) (fun _ h => h.elim)
  | pieceWritten =>
    cases outcome with
    | error => exact fun _ h => h.elim
    | ok => exact (Grant.plain_only_of_ne (by simp)).sup (Grant.plain_only ⟨rfl, rfl⟩)
  | piecePersisted =>
    cases outcome with
    | error => exact fun _ h => h.elim
    | ok =>
      rintro _ ⟨⟩
      exact ⟨rfl, rfl⟩
  | fileRestored =>
    obtain err | v := outcome
    · exact Grant.plain_bot
    · cases v with
      | restored => exact (Grant.plain_only_of_ne (by simp)).sup (Grant.plain_only ⟨rfl, rfl⟩)
      | _ => exact Grant.plain_bot
  | joinInitialized => exact Grant.plain_only ⟨rfl, rfl⟩
  | createHashed =>
    obtain err | v := outcome
    · exact Grant.plain_bot
    · cases v with
      | manifest =>
        refine .sup (.sup (Grant.plain_only_of_ne (by simp)) (Grant.plain_only_of_ne (by simp))) ?_
        rintro frame (⟨_, _, _, _, rfl⟩ | ⟨_, _, rfl⟩)
        · exact ⟨rfl, rfl⟩
        · exact ⟨rfl, rfl⟩
      | _ => exact Grant.plain_bot
  | chunkAppended =>
    obtain err | v := outcome
    · exact Grant.plain_bot
    · cases v with
      | buffer data =>
        cases data with
        | none => exact Grant.plain_bot
        | some data =>
          rintro frame ⟨-, ⟨outstanding, -, rfl⟩ | ⟨r, rfl, -⟩⟩
          · exact ⟨rfl, rfl⟩
          · exact ⟨rfl, rfl⟩
      | _ => exact Grant.plain_bot
  | pieceReceived =>
    obtain err | v := outcome
    · exact fun _ h => h.elim
    · cases v with
      | received => exact (Grant.plain_only_of_ne (by simp)).sup (Grant.plain_only ⟨rfl, rfl⟩)
      | _ => exact Grant.plain_bot
  | disposeFlushed =>
    obtain err | v := outcome
    · exact Grant.plain_bot
    · exact Grant.plain_only_of_ne (by simp)
  | _ => exact Grant.plain_bot

theorem Call.grant_plain {σ : Type} {e : Engine σ} {t : Turn} {c : Call}
    (h : ∀ f, c ≠ .resumeFile f) : (c.grant e t).Plain := by
  cases c with
  | createSession => exact (Grant.plain_only_of_ne (by simp)).sup (Grant.plain_only ⟨rfl, rfl⟩)
  | joinSession => exact (Grant.plain_only_of_ne (by simp)).sup (Grant.plain_only ⟨rfl, rfl⟩)
  | requestNextPiece => exact Grant.plain_request _ _ _
  | requestNextGridPiece => exact Grant.plain_grid _ _
  | requestGridPieceWindow => exact Grant.plain_gridLoop _ _ _
  | receivePiece =>
    rintro frame ⟨r, rfl, -⟩
    exact ⟨rfl, rfl⟩
  | resumeFile f => exact absurd rfl (h f)
  | requestPieceWindow => exact Grant.plain_bot
  | exportPieceMapBroadcast => exact Grant.plain_bot
  | setPeerHealth => exact Grant.plain_bot
  | cancelCompetingGridRequests =>
    rintro frame (hl | ⟨x, hl, -⟩)
    · exact hl.elim
    · cases hl
  | expireDirectRequests =>
    rintro frame ⟨p, -, hl⟩
    exact hl.elim
  | setTransferChunkBytes => exact Grant.plain_only_of_ne (by simp)
  | applyTransferTuning => exact Grant.plain_only_of_ne (by simp)
  | setTransport => exact Grant.plain_only_of_ne (by simp)
  | flushDirectLifecycle =>
    rintro frame (⟨p, -, hl⟩ | ⟨windows, hl⟩)
    · exact hl.elim
    · cases hl
      exact ⟨rfl, rfl⟩
  | dispose =>
    rintro frame (((⟨p, -, hl⟩ | hl) | ⟨windows, hl⟩) | hl)
    · exact hl.elim
    · exact hl.elim
    · cases hl
      exact ⟨rfl, rfl⟩
    · cases hl
      exact ⟨rfl, rfl⟩
  | _ => exact fun _ hl => hl.elim

namespace World

variable {σ : Type} [StorageAdapter σ] {cfg : Config} {w : World σ} {t : Turn}

omit [StorageAdapter σ] in
/-- What every action but a call and a continuation leaves is plain. -/
theorem grant_plain {a : Action} (hc : ∀ c, a ≠ .call c) (hr : ∀ i, a ≠ .resume i) :
    (w.grant (t, a)).Plain := by
  cases a with
  | call c => exact absurd rfl (hc c)
  | resume i => exact absurd rfl (hr i)
  | message p message =>
    refine (Grant.plain_only ⟨rfl, rfl⟩).sup ?_
    rintro frame ⟨m, -, hl⟩
    exact Grant.plain_message p m frame hl
  | binary p data =>
    refine (Grant.plain_only ⟨rfl, rfl⟩).sup ?_
    rintro frame ⟨h, -, rfl | ⟨-, rfl | hl⟩⟩
    · exact ⟨rfl, rfl⟩
    · exact ⟨rfl, rfl⟩
    · exact Grant.plain_reject _ _ frame hl
  | window ref =>
    rintro frame (⟨track, hl⟩ | ⟨window, job, rest, -, -, -, hl⟩)
    · cases hl
      exact ⟨rfl, rfl⟩
    · exact Grant.plain_windowJob ref job frame hl
  | upload p => exact Grant.plain_upload p
  | timer k =>
    rintro frame ⟨requestId, windowKey, -, hl⟩
    exact hl.elim

section

variable {Q : FileId → PieceManager → Prop} {e : Engine σ}

/-- A continuation outside of restores leaves no restore behind. -/
theorem resume_restores_plain {frame : Frame} {below : List Frame}
    {outcome : Except Failure Value} (hr : frame.restore? = none)
    (hloaded : ∀ s ms, frame ≠ .joinLoaded s ms)
    (hjoined : ∀ s merged f pending, frame ≠ .joinRestored s merged f pending)
    (hbelow : ∀ frame ∈ below, frame.Plain) :
    ((e.resume cfg t outcome frame).2.task below).Restores Q :=
  Engine.restores_of_does (Engine.does_resume frame outcome le_rfl)
    (Frame.grant_plain outcome hr hloaded hjoined) hbelow

theorem resume_restores_loop {frame : Frame} {r : Restore} {f : FileId} {back : Frame}
    {outcome : Except Failure Value} (hr : frame.restore? = some r) (hq : Q f r.manager)
    (ho : ∀ result, outcome ≠ .ok (.restored result))
    (hdiscard : ∀ index reason m m' m'', Q f m → m.markFailed index reason = .ok m' →
      m'.resetFailedToMissing index = .ok m'' → Q f m'') (hback : back.restored? = some f)
    {below : List Frame} (hb : ∀ frame ∈ below, frame.Plain) :
    ((e.resume cfg t outcome frame).2.task (back :: below)).Restores Q := by
  have hloops : (e.resume cfg t outcome frame).2.Loops (Q f) := by
    cases frame with
    | resumeRead r' index =>
      cases hr
      exact Engine.resumeRead_loops r index outcome hq
    | resumeChecked r' index =>
      cases hr
      unfold Engine.resume
      simp only
      split
      · exact Engine.resumeChecked_loops r index _ hq
      · exact fun result h => absurd h (ho result)
    | resumeDeleted r' index reason =>
      cases hr
      exact Engine.resumeDeleted_loops r index reason outcome hq (hdiscard index reason)
    | _ => cases hr
  exact hloops.task hback hb

end

omit [StorageAdapter σ] in
/-- The piece maps that an action may restore: of a manager in use, or of a stored state. -/
def Imports (w : World σ) (a : Action) (pieceMap : PieceMap) : Prop :=
  (∃ f ref, a = .call (.resumeFile f) ∧ w.engine.managers.get? f = some ref ∧
    pieceMap = (w.engine.managerAt ref).exportPieceMap) ∨
  ∃ i pending frame below outcome, a = .resume i ∧ w.tasks[i]? = some ⟨pending, frame :: below⟩ ∧
    w.engine.outcome pending = some outcome ∧ pieceMap ∈ frame.pieceMaps outcome

/-- Every restore keeps what `Q` says, when every manager a restore starts from has it
and discarding a piece keeps it. -/
theorem step_restores {Q : FileId → PieceManager → Prop} {a : Action}
    (hw : ∀ task ∈ w.tasks, task.Restores Q)
    (hstart : ∀ f manifest pieceMap m, w.Imports a pieceMap →
      (w.step cfg (t, a)).engine.manifests.get? f = some manifest →
      (PieceManager.new manifest.fileId manifest.pieces).importPieceMap pieceMap = .ok m → Q f m)
    (hdiscard : ∀ f index reason m m' m'', Q f m → m.markFailed index reason = .ok m' →
      m'.resetFailedToMissing index = .ok m'' → Q f m'') :
    ∀ task ∈ (w.step cfg (t, a)).tasks, task.Restores Q := by
  by_cases hresume : ∃ f, a = .call (.resumeFile f)
  · obtain ⟨f, rfl⟩ := hresume
    intro task htask
    obtain hold | hnew := List.mem_append.1 htask
    · exact hw task hold
    · obtain rfl := List.mem_singleton.1 hnew
      have hsame : (w.step cfg (t, .call (.resumeFile f))).engine.manifests =
          w.engine.manifests := by
        refine Changes.manifests ?_ (step_spec cfg w t (.call (.resumeFile f))).changes
        rintro m ⟨manifest, -, h | h⟩
        · exact h
        · cases h
      exact Engine.resumeFile_restores f fun manifest ref m hm href =>
        hstart f manifest _ m (.inl ⟨f, ref, rfl, href, rfl⟩) (hsame ▸ hm)
  have hplain : (∀ i, a ≠ .resume i) → (w.grant (t, a)).Plain := by
    intro hr
    by_cases hc : ∃ c, a = .call c
    · obtain ⟨c, rfl⟩ := hc
      exact Call.grant_plain fun f he => hresume ⟨f, he ▸ rfl⟩
    · exact grant_plain (fun c he => hc ⟨c, he⟩) hr
  have hspec := step_spec cfg w t a
  generalize w.step cfg (t, a) = w' at hstart hspec ⊢
  intro task htask
  cases hspec with
  | alone _ e fired h => exact hw task htask
  | spawn _ hr result h =>
    obtain hold | hnew := List.mem_append.1 htask
    · exact hw task hold
    · obtain rfl := List.mem_singleton.1 hnew
      exact Engine.restores_of_does h (hplain hr) (by simp)
  | resume i pending frame below outcome result hi ho hr h =>
    obtain hold | rfl := List.mem_or_eq_of_mem_set htask
    · exact hw task hold
    · subst hr
      have hin := hw _ (List.mem_of_getElem? hi)
      cases hin with
      | loop _ _ back below r f hp hr hf hb hq =>
        refine resume_restores_loop hr hq ?_ (hdiscard f) hf hb
        rintro result rfl
        obtain he | he := outcome_eq_some ho
        · exact hp result he
        · cases he
      | back _ _ _ f hf hb hq =>
        cases frame with
        | fileRestored g => exact resume_restores_plain rfl (by simp) (by simp) hb
        | joinRestored s merged g maps =>
          refine Engine.joinRestored_restores cfg s merged g maps outcome hb ?_
          exact fun g manifest pieceMap hmem m =>
            hstart g manifest pieceMap m (.inr ⟨i, pending, _, below, outcome, rfl, hi, ho, hmem⟩)
        | _ => cases hf
      | plain _ h =>
        have htop : frame.Plain := h frame List.mem_cons_self
        have hbelow : ∀ fr ∈ below, fr.Plain := fun fr hfr => h fr (List.mem_cons_of_mem _ hfr)
        cases frame with
        | joinLoaded s ms =>
          refine Engine.joinLoaded_restores cfg s ms outcome hbelow ?_
          rintro g manifest pieceMap m ⟨state, rfl, hmem⟩
          exact hstart g manifest pieceMap m
            (.inr ⟨i, pending, _, below, _, rfl, hi, ho, hmem⟩)
        | joinRestored => cases htop.2
        | _ => exact resume_restores_plain htop.1 (by simp) (by simp) hbelow

end World

/-- The changes that belong to a session, not to a peer. -/
def Label.session : Label → Bool
  | .verify .. | .write .. | .erase .. | .init _ | .register _ | .install .. | .source
  | .configure | .dispose => true
  | _ => false

/-- A grant of nothing that belongs to the session. -/
def Grant.Local (G : Grant) : Prop := ∀ label, label.session = true → ¬ G label

namespace Grant

variable {σ : Type} {e : Engine σ} {t : Turn} {G G' : Grant}

theorem local_retire (requestId : RequestId) : (Grant.retire requestId).Local := by
  intro label hl h
  cases label <;> first | exact h.elim | cases hl

theorem local_request (p : PeerId) (f : FileId) (options : Option DirectRequestOptions) :
    (Grant.request t p f options).Local := by
  intro label hl h
  cases label <;> first | exact h.elim | cases hl

theorem local_grid (f : FileId) (options : GridScheduleOptions) :
    (Grant.grid e t f options).Local := by
  intro label hl h
  cases label <;> first | exact h.elim | cases hl

theorem local_again (p : PeerId) (f : FileId) (options : Option GridScheduleOptions) :
    (Grant.again e t p f options).Local := by
  cases options with
  | none => exact local_request p f none
  | some options => exact local_grid f options

theorem local_reject (p : PeerId) (h : PieceChunkHeaderMessage) : (Grant.reject e t p h).Local := by
  intro label hl h
  cases label <;> first | exact h.elim | cases hl

theorem local_upload (p : PeerId) : (Grant.upload t p).Local := by
  intro label hl h
  cases label <;> first | exact h.elim | cases hl

theorem local_binary (p : PeerId) (data : ArrayBuffer) : (Grant.binary e t p data).Local := by
  intro label hl h
  cases label <;> first | cases hl; done | (obtain ⟨header, -, -, h⟩ := h; exact h.elim)

theorem local_message (p : PeerId) (m : WireMessage) : (Grant.message e t p m).Local := by
  rintro label hl (⟨-, rfl⟩ | ⟨-, map, -, h⟩ | ⟨-, header, -, -, -, ⟨-, rfl⟩ | ⟨previous, -, -, h⟩⟩ |
    ⟨-, requestId, f, i, -, -, -, h⟩ | ⟨-, requestId, -, rfl⟩ | ⟨-, requestId, -, q, -, -, h | h⟩)
  · cases hl
  · cases label <;> first | exact h.elim | cases hl
  · cases hl
  · exact local_reject p header label hl h
  · cases label <;> first | exact h.elim | cases hl
  · cases hl
  · exact local_retire requestId label hl h
  · exact local_again _ _ _ label hl h

theorem local_windowJob (window : Nat) (job : WindowJob) :
    (Grant.windowJob t window job).Local := by
  cases job with
  | fill p f windowKey options =>
    rintro label hl (h | rfl)
    · exact local_request _ _ _ label hl h
    · cases hl
  | retry requestId request direct => exact local_request _ _ _
  | expire requestId => exact local_retire requestId

end Grant

namespace World

/-- The manifests an action registers. -/
def registered {σ : Type} (w : World σ) : Action → List FileManifest
  | .resume i =>
    match w.tasks[i]? with
    | some ⟨.settled (.ok (.state state)), .joinLoaded _ manifests :: _⟩ =>
      match mergeManifests ((state.map (·.manifests)).getD []) manifests with
      | .ok merged => merged
      | .error _ => []
    | some ⟨.settled (.ok (.manifest manifest)), .createHashed .. :: _⟩ => [manifest]
    | _ => []
  | _ => []

section

variable {σ : Type} {w : World σ} {t : Turn} {a : Action} {f : FileId}

/-- What belongs to the session is changed by calls and continuations only. -/
theorem grant_session {label : Label} (hl : label.session = true) (h : w.grant (t, a) label) :
    (∃ c, a = .call c ∧ c.grant w.engine t label) ∨
      ∃ i, a = .resume i ∧ w.resumeGrant t i label := by
  cases a with
  | call c => exact .inl ⟨c, rfl, h⟩
  | resume i => exact .inr ⟨i, rfl, h⟩
  | message p message =>
    obtain rfl | ⟨m, -, h⟩ := h
    · cases hl
    · exact (Grant.local_message p m label hl h).elim
  | binary p data =>
    obtain rfl | h := h
    · cases hl
    · exact (Grant.local_binary p data label hl h).elim
  | window ref =>
    obtain ⟨track, rfl⟩ | ⟨window, job, rest, -, -, -, h⟩ := h
    · cases hl
    · exact (Grant.local_windowJob ref job label hl h).elim
  | upload p => exact (Grant.local_upload p label hl h).elim
  | timer k =>
    obtain ⟨requestId, windowKey, -, h⟩ := h
    exact (Grant.local_retire requestId label hl h).elim

/-- Only `joinLoaded` and `createHashed` register manifests. -/
theorem grant_register {m : FileManifest} (hg : w.grant (t, a) (.register m)) :
    m ∈ w.registered a := by
  obtain ⟨c, rfl, h⟩ | ⟨i, rfl, pending, frame, below, outcome, hi, ho, h⟩ := grant_session rfl hg
  · cases c
    all_goals first
      | exact (show False from h).elim
      | simp [Call.grant, Grant.only, Grant.restoring, Grant.compete, Grant.cancel,
          Grant.expiring, Grant.retire] at h
  · unfold Frame.grant at h
    split at h
    all_goals first
      | exact (show False from h).elim
      | (simp [Grant.only, Grant.filling, Grant.request, Grant.retire, Grant.lose, Grant.joining,
          Grant.announce, Grant.creating, Grant.grid, Grant.again] at h; done)
      | skip
    · obtain rfl | he := outcome_eq_some ho
      · obtain ⟨merged, hmerged, ⟨m', hm', hl⟩ | hl⟩ := h
        · cases hl
          simp [registered, hi, hmerged, hm']
        · exact hl.elim
      · cases he
    · obtain rfl | he := outcome_eq_some ho
      · obtain (h | h) | h := h
        · cases h
          simp [registered, hi]
        · cases h
        · exact h.elim
      · cases he
    · obtain h | h := h
      · exact (Grant.local_again _ _ _ _ rfl h).elim
      · cases h

/-- Only the end of `dispose` clears the tables. -/
theorem grant_dispose (hg : w.grant (t, a) .dispose) :
    ∃ i pending below v, a = .resume i ∧ w.tasks[i]? = some ⟨pending, .disposeFlushed :: below⟩ ∧
      w.engine.outcome pending = some (.ok v) := by
  obtain ⟨c, rfl, h⟩ | ⟨i, rfl, pending, frame, below, outcome, hi, ho, h⟩ := grant_session rfl hg
  · cases c
    all_goals first
      | exact (show False from h).elim
      | simp [Call.grant, Grant.only, Grant.restoring, Grant.compete, Grant.cancel,
          Grant.expiring, Grant.retire] at h
  · unfold Frame.grant at h
    split at h
    all_goals first
      | exact (show False from h).elim
      | exact ⟨i, pending, below, _, rfl, hi, ho⟩
      | (simp [Grant.only, Grant.filling, Grant.joined, Grant.request, Grant.joining,
          Grant.creating, Grant.grid, Grant.announce, Grant.retire, Grant.lose] at h; done)
      | (obtain h | h := h
         · exact absurd h (Grant.local_again _ _ _ _ rfl)
         · cases h)

/-- Only three calls touch the configuration. -/
theorem grant_configure (hg : w.grant (t, a) .configure) :
    (∃ bytes, a = .call (.setTransferChunkBytes bytes)) ∨
    (∃ bytes cap, a = .call (.applyTransferTuning bytes cap)) ∨ a = .call .setTransport := by
  obtain ⟨c, rfl, h⟩ | ⟨i, rfl, pending, frame, below, outcome, hi, ho, h⟩ := grant_session rfl hg
  · cases c
    all_goals first
      | exact (show False from h).elim
      | exact .inl ⟨_, rfl⟩
      | exact .inr (.inl ⟨_, _, rfl⟩)
      | exact .inr (.inr rfl)
      | simp [Call.grant, Grant.only, Grant.restoring, Grant.compete, Grant.cancel,
          Grant.expiring, Grant.retire] at h
  · unfold Frame.grant at h
    split at h
    all_goals first
      | exact (show False from h).elim
      | (simp [Grant.only, Grant.filling, Grant.joined, Grant.request, Grant.joining,
          Grant.creating, Grant.grid, Grant.announce, Grant.retire, Grant.lose] at h; done)
      | (obtain h | h := h
         · exact absurd h (Grant.local_again _ _ _ _ rfl)
         · cases h)

/-- Only the end of a restore replaces a manager. -/
theorem restored_of_install {m : PieceManager} (hg : w.grant (t, a) (.install f m)) :
    ∃ i pending frame below result, a = .resume i ∧ w.tasks[i]? = some ⟨pending, frame :: below⟩ ∧
      w.engine.outcome pending = some (.ok (.restored result)) ∧ frame.restored? = some f ∧
      m = result.manager := by
  obtain ⟨c, rfl, h⟩ | ⟨i, rfl, pending, frame, below, outcome, hi, ho, h⟩ := grant_session rfl hg
  · cases c
    all_goals first
      | exact (show False from h).elim
      | simp [Call.grant, Grant.only, Grant.restoring, Grant.compete, Grant.cancel,
          Grant.expiring, Grant.retire] at h
  · unfold Frame.grant at h
    split at h
    all_goals first
      | exact (show False from h).elim
      | (simp [Grant.only, Grant.filling, Grant.request, Grant.retire, Grant.lose,
          Grant.announce, Grant.creating, Grant.grid, Grant.joined, Grant.joining] at h; done)
      | skip
    · obtain h | h := h
      · cases h
        exact ⟨i, pending, _, below, _, rfl, hi, ho, rfl, rfl⟩
      · cases h
    · obtain h | h := h
      · cases h
        exact ⟨i, pending, _, below, _, rfl, hi, ho, rfl, rfl⟩
      · exact h.elim
    · obtain h | h := h
      · exact (Grant.local_again _ _ _ _ rfl h).elim
      · cases h

theorem grant_install {Q : FileId → PieceManager → Prop} {m : PieceManager}
    (hw : ∀ task ∈ w.tasks, task.Restores Q) (hg : w.grant (t, a) (.install f m)) : Q f m := by
  obtain ⟨i, pending, frame, below, result, -, hi, ho, hf, rfl⟩ := restored_of_install hg
  obtain rfl | he := outcome_eq_some ho
  · have hin := hw _ (List.mem_of_getElem? hi)
    cases hin with
    | loop _ _ _ _ r g hp hr => exact absurd rfl (hp result)
    | back _ _ _ g hg hb hq =>
      cases hg.symm.trans hf
      exact hq result rfl
    | plain _ h =>
      have htop : frame.restored? = none := (h frame List.mem_cons_self).2
      cases htop.symm.trans hf
  · cases he

end

end World

end PonsWarp.Core
