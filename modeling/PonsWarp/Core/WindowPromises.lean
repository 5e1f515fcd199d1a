import PonsWarp.Core.ChainSteps
import PonsWarp.Core.Disposal

set_option autoImplicit false

/-!
What the promise of a `requestPieceWindow` is fulfilled with. The pieces it lists are compared
with what its task has done: the requests it put on the transport, and the failures to save
what it had asked for.
-/

namespace PonsWarp.Core

open PonsWarp.Data

/-- What a task has done: a request put on the transport, with the failure of its send if any,
or the request before it not saved. -/
inductive Deed where
  | asked (peerId : PeerId) (request : PieceRequestMessage) (failure : Option Failure)
  | unsaved

def Effect.deed? : Effect → Option Deed
  | .send p (.PIECE_REQUEST request) failure => some (.asked p request failure)
  | _ => none

/-- The requests that have neither failed nor stayed unsaved, by peer, file and piece. -/
def Deed.note (good : List (PeerId × FileId × Number)) : Deed → List (PeerId × FileId × Number)
  | .asked p request none => good ++ [(p, request.fileId, request.pieceIndex)]
  | .asked _ _ (some _) => good
  | .unsaved => good.dropLast

def Deed.requested (deeds : List Deed) : List (PeerId × FileId × Number) :=
  deeds.foldl Deed.note []

/-- The pieces that a call lists, as requests to a peer for a file. -/
def listed (p : PeerId) (f : FileId) (pieces : List ScheduledPiece) :
    List (PeerId × FileId × Number) :=
  pieces.map fun s => (p, f, (s.piece.index : Number))

/-- What the promise that `enqueueWindow` returns stands for: nothing, or the job that was put
in its window under a number. -/
inductive WindowPromise where
  | dropped
  | queued (window number : Nat)
  deriving DecidableEq, Repr

namespace Engine

variable {σ : Type}

/-- The promise that `enqueueWindow` returns. -/
def promised (e : Engine σ) (windowKey : String) : WindowPromise :=
  match e.window? windowKey with
  | some (ref, w) => if w.disabled ∨ e.disposed then .dropped else .queued ref w.enqueued
  | none => .dropped

/-- `requestPieceWindow` before it puts its task in the chain. -/
def openWindow (e : Engine σ) (cfg : Config) (peerId : PeerId) (fileId : FileId)
    (options : DirectRequestOptions) (maxInFlight : Option Number) : Except Failure (Engine σ) :=
  let maxInFlight := maxInFlight.getD (cfg.directWindowCap.getD 1)
  match assertPositiveSafeInteger maxInFlight "maxInFlight" with
  | .error err => .error err
  | .ok () =>
    let windowKey := options.windowKey.getD (defaultWindowKey fileId peerId options.controllerId)
    match e.window? windowKey with
    | none =>
      match e.allocateDirectGeneration with
      | .error err => .error err
      | .ok (generation, e) =>
        let e := e.newWindow windowKey
          (freshWindow fileId peerId options.controllerId maxInFlight generation)
        .ok (e.pruneDirectLifecycleMetadata cfg (some windowKey))
    | some (_, window) =>
      if window.cap ≠ maxInFlight then
        .error (PonsWarpError "direct:window_cap_mismatch" "Direct window cap is immutable")
      else if window.fileId ≠ fileId ∨ window.peerId ≠ peerId ∨
          window.controllerId ≠ options.controllerId then
        .error (PonsWarpError "direct:window_identity_mismatch" "Direct window identity is immutable")
      else if window.disabled then
        .error (PonsWarpError "direct:window_cancelled" "Direct window is cancelled")
      else .ok e

/-- The promise of a `requestPieceWindow` that does not throw. -/
def windowPromise (e : Engine σ) (cfg : Config) (peerId : PeerId) (fileId : FileId)
    (options : DirectRequestOptions) (maxInFlight : Option Number) : Except Failure WindowPromise :=
  match e.openWindow cfg peerId fileId options maxInFlight with
  | .error err => .error err
  | .ok e => .ok (e.promised
      (options.windowKey.getD (defaultWindowKey fileId peerId options.controllerId)))

variable {e e' : Engine σ} {cfg : Config} {t : Turn} {p : PeerId} {f : FileId}
variable {options : DirectRequestOptions} {maxInFlight : Option Number}

/-- The call is the part before the chain, and then the task in the chain. -/
theorem requestPieceWindow_eq (e : Engine σ) (cfg : Config) (p : PeerId) (f : FileId)
    (options : DirectRequestOptions) (maxInFlight : Option Number) :
    e.requestPieceWindow cfg p f options maxInFlight =
      match e.openWindow cfg p f options maxInFlight with
      | .error err => (e, .error err)
      | .ok e => (e.enqueueWindow (options.windowKey.getD (defaultWindowKey f p options.controllerId))
          (.fill p f (options.windowKey.getD (defaultWindowKey f p options.controllerId)) options),
          .ok ()) := by
  unfold requestPieceWindow openWindow
  simp only
  cases assertPositiveSafeInteger (maxInFlight.getD (cfg.directWindowCap.getD 1)) "maxInFlight" with
  | error err => rfl
  | ok u =>
    simp only
    cases e.window? (options.windowKey.getD (defaultWindowKey f p options.controllerId)) with
    | none => cases e.allocateDirectGeneration <;> rfl
    | some entry =>
      simp only
      split_ifs <;> rfl

/-- The window that is to be preserved is not pruned. -/
theorem get?_pruneWindows_preserve (e : Engine σ) (cfg : Config) (key : String)
    (keys : List String) (windows : OrderedMap String Nat) :
    (e.pruneWindows cfg (some key) keys windows).get? key = windows.get? key := by
  induction keys generalizing windows with
  | nil => rfl
  | cons k rest ih =>
    unfold pruneWindows
    split
    · rfl
    · split
      · exact ih windows
      · rename_i hk
        have hne : key ≠ k := fun heq => hk (.inl (congrArg some heq))
        rw [ih, OrderedMap.get?_delete_of_ne _ hne]

/-- A window is open for the task, and only a disposed engine drops it. -/
theorem openWindow_spec (h : e.openWindow cfg p f options maxInFlight = .ok e') :
    e'.disposed = e.disposed ∧ ∃ ref w, e'.window?
      (options.windowKey.getD (defaultWindowKey f p options.controllerId)) = some (ref, w) ∧
      w.disabled = false := by
  unfold openWindow at h
  simp only at h
  split at h
  · cases h
  · split at h
    · split at h
      · cases h
      · rename_i generation e1 he1
        cases h
        have hsame : e1.disposed = e.disposed :=
          congrArg Ledger.disposed (ledger_allocateDirectGeneration he1)
        refine ⟨hsame, e1.windowHeap.length, freshWindow f p options.controllerId
          (maxInFlight.getD (cfg.directWindowCap.getD 1)) generation, ?_, rfl⟩
        simp only [window?, pruneDirectLifecycleMetadata, get?_pruneWindows_preserve, get?_newWindow]
        simp [newWindow]
    · rename_i ref w hw
      split at h
      · cases h
      · split at h
        · cases h
        · split at h
          · cases h
          · rename_i hd
            cases h
            exact ⟨rfl, ref, w, hw, by simpa using hd⟩

/-- A call that does not throw drops its task exactly where the engine is disposed. -/
theorem windowPromise_dropped {promise : WindowPromise}
    (h : e.windowPromise cfg p f options maxInFlight = .ok promise) :
    promise = .dropped ↔ e.disposed = true := by
  unfold windowPromise at h
  split at h
  · cases h
  · rename_i e1 hopen
    obtain ⟨hsame, ref, w, hw, henabled⟩ := openWindow_spec hopen
    cases h
    simp only [promised, hw, henabled, hsame, Bool.false_eq_true, false_or]
    split
    · simp [*]
    · simp [*]

theorem feeds_openWindow (h : e.openWindow cfg p f options maxInFlight = .ok e') :
    Feeds False e e' := by
  unfold openWindow at h
  simp only at h
  split at h
  · cases h
  · split at h
    · split at h
      · cases h
      · rename_i generation e1 he1
        cases h
        have hsame := lanes_allocateDirectGeneration he1
        have hnew : Feeds False e (e1.newWindow
            (options.windowKey.getD (defaultWindowKey f p options.controllerId))
            (freshWindow f p options.controllerId
              (maxInFlight.getD (cfg.directWindowCap.getD 1)) generation)) :=
          (feeds_newWindow rfl).from_eq hsame
        exact hnew.to_eq rfl
    · repeat' split at h
      all_goals cases h
      exact .refl

/-- Under a promise for a job, the job is in its chain under the number of the promise. -/
theorem due_requestPieceWindow {ref n : Nat} (hbalanced : ∀ l ∈ e.lanes, l.Balanced)
    (h : e.windowPromise cfg p f options maxInFlight = .ok (.queued ref n)) :
    ∃ l, (e.requestPieceWindow cfg p f options maxInFlight).1.lanes[ref]? = some l ∧
      l.Due n (.fill p f (options.windowKey.getD (defaultWindowKey f p options.controllerId))
        options) := by
  unfold windowPromise at h
  rw [requestPieceWindow_eq]
  cases hopen : e.openWindow cfg p f options maxInFlight with
  | error err =>
    rw [hopen] at h
    cases h
  | ok e1 =>
    simp only [hopen, Except.ok.injEq] at h ⊢
    have hbalanced1 := Feeding.balanced (feeds_openWindow hopen) hbalanced
    unfold promised at h
    split at h
    · rename_i ref' w hw
      split at h
      · cases h
      · rename_i hlive
        cases h
        have hlane := getElem?_lanes (window?_spec hw).2
        have hlt := (List.getElem?_eq_some_iff.1 hlane).1
        unfold enqueueWindow
        simp only [hw, if_neg hlive, lanes_put]
        have hwbalanced : w.lane.Balanced := hbalanced1 w.lane (List.mem_of_getElem? hlane)
        refine ⟨w.lane.push (.fill p f (options.windowKey.getD
          (defaultWindowKey f p options.controllerId)) options), ?_, .inl (hwbalanced.waits_push _)⟩
        exact List.getElem?_set_self hlt
    · cases h

/-! ### What the stretches of a fill put on the transport -/

/-- What a stretch has put on the transport. -/
def said (e e' : Engine σ) : List Deed :=
  (e'.log.drop e.log.length).filterMap Effect.deed?

theorem said_append {l : List Effect} (h : e'.log = e.log ++ l) :
    e.said e' = l.filterMap Effect.deed? := by
  rw [said, h, List.drop_left]

theorem said_of_eq (h : e'.log = e.log) : e.said e' = [] := by
  rw [said, h, List.drop_length]
  rfl

/-- A stretch that may put no request on the transport. -/
theorem said_mute [StorageAdapter σ] {G : Grant} (h : Changes t G e e')
    (hG : ∀ x, G (.effect x) → x.deed? = none) : e.said e' = [] := by
  obtain ⟨l, hl, hspeaks⟩ := h.log
  rw [said_append hl]
  refine List.filterMap_eq_nil_iff.2 fun x hx => ?_
  obtain ⟨event, rfl⟩ | hg := hspeaks x hx
  · rfl
  · exact hG x hg

/-- `requestNextPiece` returns without a request, or has made one for the piece that it waits
for, and knows whether its send fails. -/
theorem requestNextPiece_said (e : Engine σ) (cfg : Config) (t : Turn) (p : PeerId) (f : FileId)
    (o : Option DirectRequestOptions) :
    (e.said (e.requestNextPiece cfg t p f o).1 = [] ∧
      ((∃ err, (e.requestNextPiece cfg t p f o).2 = .throw err) ∨
        (e.requestNextPiece cfg t p f o).2 = .ok (.piece none))) ∨
    ∃ outcome ref id s,
      (e.requestNextPiece cfg t p f o).2 = .await (.settled outcome) [.requestSent ref id s] ∧
      ∀ good, (e.said (e.requestNextPiece cfg t p f o).1).foldl Deed.note good =
        good ++ (match outcome with
          | .ok _ => listed p f [s]
          | .error _ => []) := by
  unfold requestNextPiece
  split
  · exact .inl ⟨said_of_eq rfl, .inl ⟨_, rfl⟩⟩
  · rename_i ref href
    split
    · exact .inl ⟨said_of_eq rfl, .inl ⟨_, rfl⟩⟩
    · exact .inl ⟨said_of_eq rfl, .inr rfl⟩
    · rename_i scheduled hnext
      simp only
      split
      · exact .inl ⟨said_of_eq rfl, .inl ⟨_, rfl⟩⟩
      · split
        · exact .inl ⟨said_of_eq rfl, .inl ⟨_, rfl⟩⟩
        · rename_i e1 he1
          right
          have hlog : (e1.recordRequest cfg t p f scheduled.piece.index
              (t.createRequestId f scheduled.piece.index) o).log = e.log := by
            obtain ⟨m, -, rfl⟩ := onManager_spec he1
            unfold recordRequest
            split
            · rfl
            · simp only
              split <;> rfl
          generalize e1.recordRequest cfg t p f scheduled.piece.index
            (t.createRequestId f scheduled.piece.index) o = e2 at hlog ⊢
          have hsaid : ∀ l : List Effect,
              e.said { e2 with log := e2.log ++ l } = l.filterMap Effect.deed? :=
            fun l => said_append (by rw [hlog])
          unfold sendPieceRequest send
          split
          · cases hs : t.sendFailure p with
            | none =>
              refine ⟨.ok .unit, ref, _, scheduled, rfl, fun good => ?_⟩
              simp [hsaid, Effect.deed?, Deed.note, listed]
            | some err =>
              refine ⟨.error err, ref, _, scheduled, rfl, fun good => ?_⟩
              simp [hsaid, Effect.deed?, Deed.note]
          · refine ⟨_, ref, _, scheduled, rfl, fun good => ?_⟩
            rw [said_of_eq hlog]
            simp

/-- The end of a job passes on what the job was fulfilled or rejected with. -/
theorem windowJobEnded_done (e : Engine σ) (ref : Nat) (track : Bool)
    (outcome : Except Failure Value) :
    (e.windowJobEnded ref track outcome).2 = .done outcome := by
  unfold windowJobEnded
  split <;> rfl

end Engine

/-- How far the task of a fill is, with the requests it has made so far. The loop lists those
that are through; the one that is on its way is listed when it has been sent and saved. -/
inductive Stage (p : PeerId) (f : FileId) (key : String) (options : DirectRequestOptions)
    (ref : Nat) (track : Bool) (good : List (PeerId × FileId × Number)) : Task → Prop
  | sending (outcome : Except Failure Value) (manager : Nat) (id : RequestId) (s : ScheduledPiece)
      (scheduled : List ScheduledPiece)
      (h : good = listed p f scheduled ++ (match outcome with
        | .ok _ => listed p f [s]
        | .error _ => [])) :
      Stage p f key options ref track good ⟨.settled outcome, [.requestSent manager id s,
        .fillWindow ref key p f options scheduled, .windowJob ref track]⟩
  | saving (outcome : Except Failure Value) (manager : Nat) (id : RequestId) (s : ScheduledPiece)
      (scheduled : List ScheduledPiece) (h : good = listed p f (scheduled ++ [s])) :
      Stage p f key options ref track good ⟨.settled outcome, [.requestPersisted manager id s,
        .fillWindow ref key p f options scheduled, .windowJob ref track]⟩
  | asked (piece : Option ScheduledPiece) (scheduled : List ScheduledPiece)
      (h : good = listed p f (scheduled ++ piece.toList)) :
      Stage p f key options ref track good ⟨.settled (.ok (.piece piece)),
        [.fillWindow ref key p f options scheduled, .windowJob ref track]⟩
  | stopping (err : Failure) (scheduled : List ScheduledPiece) :
      Stage p f key options ref track good ⟨.settled (.error err),
        [.fillWindow ref key p f options scheduled, .windowJob ref track]⟩
  | filled (scheduled : List ScheduledPiece) (h : good = listed p f scheduled) :
      Stage p f key options ref track good
        ⟨.settled (.ok (.pieces scheduled)), [.windowJob ref track]⟩
  | failed (err : Failure) :
      Stage p f key options ref track good ⟨.settled (.error err), [.windowJob ref track]⟩
  | fulfilled (scheduled : List ScheduledPiece) (h : good = listed p f scheduled) :
      Stage p f key options ref track good ⟨.settled (.ok (.pieces scheduled)), []⟩
  | rejected (err : Failure) : Stage p f key options ref track good ⟨.settled (.error err), []⟩

theorem listed_append (p : PeerId) (f : FileId) (l more : List ScheduledPiece) :
    listed p f (l ++ more) = listed p f l ++ listed p f more :=
  List.map_append

section

variable {σ : Type} {e : Engine σ} {cfg : Config} {t : Turn} {p : PeerId} {f : FileId}
variable {key : String} {options : DirectRequestOptions} {ref : Nat} {track : Bool}

/-- The loop goes on with what it has listed, and ends with it. -/
theorem stage_fillWindow (e : Engine σ) (cfg : Config) (t : Turn) (key : String) (p : PeerId)
    (f : FileId) (options : DirectRequestOptions) (ref : Nat) (track : Bool)
    (scheduled : List ScheduledPiece) :
    Stage p f key options ref track
      ((e.said (e.fillWindow cfg t ref key p f options scheduled).1).foldl Deed.note
        (listed p f scheduled))
      ((e.fillWindow cfg t ref key p f options scheduled).2.task [.windowJob ref track]) := by
  unfold Engine.fillWindow
  simp only
  split
  · obtain ⟨hsaid, ⟨err, hnext⟩ | hnext⟩ | ⟨outcome, manager, id, s, hnext, hsaid⟩ :=
      e.requestNextPiece_said cfg t p f (some { options with windowKey := some key })
    · simp only [hnext, hsaid]
      exact .stopping err scheduled
    · simp only [hnext, hsaid]
      exact .asked none scheduled (by simp)
    · simp only [hnext, hsaid]
      exact .sending outcome manager id s scheduled rfl
  · rw [Engine.said_of_eq rfl]
    exact .filled scheduled rfl

variable [StorageAdapter σ]

theorem stage_requestSent {outcome : Except Failure Value} {manager : Nat} {id : RequestId}
    {s : ScheduledPiece} {scheduled : List ScheduledPiece}
    {good : List (PeerId × FileId × Number)}
    (h : good = listed p f scheduled ++ (match outcome with
      | .ok _ => listed p f [s]
      | .error _ => [])) :
    Stage p f key options ref track good ((e.requestSent cfg t manager id s outcome).2.task
      [.fillWindow ref key p f options scheduled, .windowJob ref track]) := by
  cases outcome with
  | error err =>
    unfold Engine.requestSent
    simp only
    split
    · exact .stopping _ scheduled
    · exact .asked none scheduled (by simpa using h)
  | ok v =>
    have hgood : good = listed p f (scheduled ++ [s]) := by rw [h, listed_append]
    unfold Engine.requestSent Engine.persistState
    simp only
    split
    · exact .saving _ manager id s scheduled hgood
    · split
      · exact .saving _ manager id s scheduled hgood
      · unfold Engine.storageCall
        split <;> exact .saving _ manager id s scheduled hgood

omit [StorageAdapter σ] in
theorem stage_requestPersisted (e : Engine σ) (cfg : Config) (t : Turn) (manager : Nat)
    (id : RequestId) (outcome : Except Failure Value) {s : ScheduledPiece}
    {scheduled : List ScheduledPiece} {good : List (PeerId × FileId × Number)}
    (h : good = listed p f (scheduled ++ [s])) :
    Stage p f key options ref track
      (match outcome with
        | .ok _ => good
        | .error _ => good.dropLast)
      ((e.requestPersisted cfg t manager id s outcome).2.task
        [.fillWindow ref key p f options scheduled, .windowJob ref track]) := by
  cases outcome with
  | error err =>
    unfold Engine.requestPersisted
    simp only
    split
    · exact .stopping _ scheduled
    · refine .asked none scheduled ?_
      have hlast : listed p f [s] = [(p, f, (s.piece.index : Number))] := rfl
      rw [h, listed_append, hlast, List.dropLast_concat]
      simp
  | ok v => exact .asked (some s) scheduled h

end

namespace World

variable {σ : Type}

/-- The action is one of the task's own: the task goes on, or the chain of a window starts it. -/
def advances (w : World σ) (j : Nat) : Action → Bool
  | .resume i => decide (i = j)
  | .window _ => decide (w.tasks.length = j)
  | _ => false

/-- The task is about to learn that its last request has not been saved. -/
def unsaved (w : World σ) (j : Nat) : Bool :=
  match w.tasks[j]? with
  | some ⟨.settled (.error _), .requestPersisted .. :: _⟩ => true
  | _ => false

variable [StorageAdapter σ]

/-- What the task does in a step. -/
def deeds (cfg : Config) (w : World σ) (j : Nat) (x : Turn × Action) : List Deed :=
  if w.advances j x.2 then
    (if w.unsaved j then [.unsaved] else []) ++ w.engine.said (w.step cfg x).engine
  else []

/-- What the task does while the listed steps are taken. -/
def history (cfg : Config) (j : Nat) : World σ → List (Turn × Action) → List Deed
  | _, [] => []
  | w, x :: rest => w.deeds cfg j x ++ history cfg j (w.step cfg x) rest

/-- What has become of the promise of a call since the world `v` behind it. A task that was
dropped is fulfilled with nothing; another has its turn in its window, where it starts the task
`v2.tasks.length`, and is fulfilled with what that is fulfilled with. Beside the value stand
what the task has done, and whether it was refused: dropped, or not let in when its turn came. -/
inductive Fulfils (cfg : Config) (v : World σ) : WindowPromise → Value → List Deed → Bool → Prop
  | dropped : Fulfils cfg v .dropped .unit [] true
  | job (v2 : World σ) (ref : Nat) (window : DirectWindow) (t : Turn)
      (actions : List (Turn × Action)) (value : Value)
      (hv : Run (World.step cfg) (fun _ _ => True) v v2)
      (hw : v2.engine.windowHeap[ref]? = some window) (hq : window.queue ≠ [])
      (hr : window.running = false)
      (hvalue : (steps (World.step cfg) v2 ((t, .window ref) :: actions)).tasks[v2.tasks.length]? =
        some ⟨.settled (.ok value), []⟩) :
      Fulfils cfg v (.queued ref window.completed) value
        (v2.history cfg v2.tasks.length ((t, .window ref) :: actions))
        (window.disabled || v2.engine.disposed)

/-- The task is the one of a fill, with the requests it has made. -/
def AtStage (w : World σ) (p : PeerId) (f : FileId) (key : String) (options : DirectRequestOptions)
    (ref : Nat) (track : Bool) (j : Nat) (good : List (PeerId × FileId × Number)) : Prop :=
  ∃ task, w.tasks[j]? = some task ∧ Stage p f key options ref track good task

/-- The task is the one of a job that was not let in. -/
def Undone (w : World σ) (j : Nat) : Prop :=
  ∃ stack, w.tasks[j]? = some ⟨.settled (.ok .unit), stack⟩ ∧
    (stack = [] ∨ ∃ ref track, stack = [.windowJob ref track])

variable {w : World σ} {cfg : Config} {t : Turn} {p : PeerId} {f : FileId} {key : String}
variable {options : DirectRequestOptions} {ref j : Nat} {track : Bool}
variable {good : List (PeerId × FileId × Number)}

theorem step_resume {outcome : Except Failure Value} {frame : Frame} {below : List Frame}
    (hj : w.tasks[j]? = some ⟨.settled outcome, frame :: below⟩) :
    w.step cfg (t, .resume j) = { w with
      engine := (w.engine.resume cfg t outcome frame).1
      tasks := w.tasks.set j ((w.engine.resume cfg t outcome frame).2.task below) } := by
  simp only [step, resumeTask, hj, Engine.outcome]

theorem step_resume_ended {outcome : Except Failure Value}
    (hj : w.tasks[j]? = some ⟨.settled outcome, []⟩) : w.step cfg (t, .resume j) = w := by
  simp only [step, resumeTask, hj]

omit [StorageAdapter σ] in
theorem unsaved_of_settled {outcome : Except Failure Value} {stack : List Frame}
    (hj : w.tasks[j]? = some ⟨.settled outcome, stack⟩)
    (hstack : ∀ manager id s below, stack ≠ .requestPersisted manager id s :: below) :
    w.unsaved j = false := by
  unfold unsaved
  rw [hj]
  split
  · rename_i heq
    cases heq
    exact absurd rfl (hstack _ _ _ _)
  · rfl

/-- What a task does when it goes on with one of its frames. -/
theorem deeds_resume (cfg : Config) (t : Turn) {outcome : Except Failure Value} {frame : Frame}
    {below : List Frame} (hj : w.tasks[j]? = some ⟨.settled outcome, frame :: below⟩) :
    w.deeds cfg j (t, .resume j) = (if w.unsaved j then [.unsaved] else []) ++
      w.engine.said (w.engine.resume cfg t outcome frame).1 := by
  simp only [deeds, advances, decide_true, if_true, step_resume hj]

/-- Frames that put no request on the transport. -/
theorem said_resume {e : Engine σ} (frame : Frame) (outcome : Except Failure Value)
    (hframe : (∃ manager id s, frame = .requestSent manager id s) ∨
      (∃ manager id s, frame = .requestPersisted manager id s) ∨
      ∃ ref track, frame = .windowJob ref track) :
    e.said (e.resume cfg t outcome frame).1 = [] := by
  have hdoes : Does cfg t (frame.grant e t outcome) e (e.resume cfg t outcome frame) :=
    Engine.does_resume frame outcome le_rfl
  refine Engine.said_mute hdoes.changes fun x hx => ?_
  rcases hframe with ⟨manager, id, s, rfl⟩ | ⟨manager, id, s, rfl⟩ | ⟨ref, track, rfl⟩
  all_goals cases outcome <;> cases hx

theorem atStage_resume {outcome : Except Failure Value} {frame : Frame} {below : List Frame}
    (hj : w.tasks[j]? = some ⟨.settled outcome, frame :: below⟩)
    (h : Stage p f key options ref track good
      ((w.engine.resume cfg t outcome frame).2.task below)) :
    (w.step cfg (t, .resume j)).AtStage p f key options ref track j good := by
  have hlt := (List.getElem?_eq_some_iff.1 hj).1
  refine ⟨_, ?_, h⟩
  simp only [step_resume hj, List.getElem?_set_self hlt]

/-- The task goes on, and what it has listed stays what it has asked for. -/
theorem AtStage.resume (h : w.AtStage p f key options ref track j good) :
    (w.step cfg (t, .resume j)).AtStage p f key options ref track j
      ((w.deeds cfg j (t, .resume j)).foldl Deed.note good) := by
  obtain ⟨task, hj, hstage⟩ := h
  cases hstage with
  | sending outcome manager id s scheduled hgood =>
    have hdeeds := deeds_resume cfg t hj
    rw [unsaved_of_settled hj (by simp), said_resume _ _ (.inl ⟨manager, id, s, rfl⟩)] at hdeeds
    rw [hdeeds]
    exact atStage_resume hj (stage_requestSent hgood)
  | saving outcome manager id s scheduled hgood =>
    have hdeeds := deeds_resume cfg t hj
    rw [said_resume _ _ (.inr (.inl ⟨manager, id, s, rfl⟩))] at hdeeds
    cases outcome with
    | error err =>
      have hunsaved : w.unsaved j = true := by simp [unsaved, hj]
      rw [hunsaved] at hdeeds
      rw [hdeeds]
      exact atStage_resume hj (stage_requestPersisted w.engine cfg t manager id (.error err) hgood)
    | ok v =>
      have hunsaved : w.unsaved j = false := by simp [unsaved, hj]
      rw [hunsaved] at hdeeds
      rw [hdeeds]
      exact atStage_resume hj (stage_requestPersisted w.engine cfg t manager id (.ok v) hgood)
  | asked piece scheduled hgood =>
    have hdeeds := deeds_resume cfg t hj
    rw [unsaved_of_settled hj (by simp)] at hdeeds
    rw [hdeeds]
    cases piece with
    | none =>
      refine atStage_resume hj ?_
      have hsaid : w.engine.said (w.engine.resume cfg t (.ok (.piece none))
          (.fillWindow ref key p f options scheduled)).1 = [] := Engine.said_of_eq rfl
      rw [hsaid]
      exact .filled scheduled (by simpa using hgood)
    | some s =>
      refine atStage_resume hj ?_
      rw [hgood]
      exact stage_fillWindow w.engine cfg t key p f options ref track (scheduled ++ [s])
  | stopping err scheduled =>
    exact atStage_resume hj (.failed err)
  | filled scheduled hgood =>
    have hdeeds := deeds_resume cfg t hj
    rw [unsaved_of_settled hj (by simp), said_resume _ _ (.inr (.inr ⟨ref, track, rfl⟩))] at hdeeds
    rw [hdeeds]
    refine atStage_resume hj ?_
    rw [Engine.resume, Engine.windowJobEnded_done]
    exact .fulfilled scheduled hgood
  | failed err =>
    refine atStage_resume hj ?_
    rw [Engine.resume, Engine.windowJobEnded_done]
    exact .rejected err
  | fulfilled scheduled hgood =>
    have hunsaved : w.unsaved j = false := by simp [unsaved, hj]
    have hdeeds : w.deeds cfg j (t, .resume j) = [] := by
      simp [deeds, hunsaved, step_resume_ended hj, Engine.said_of_eq]
    rw [hdeeds, step_resume_ended hj]
    exact ⟨_, hj, .fulfilled scheduled hgood⟩
  | rejected err =>
    rw [step_resume_ended hj]
    exact ⟨_, hj, .rejected err⟩

/-- Only the task itself does what counts as its own. -/
theorem deeds_other {task : Task} {a : Action} (hj : w.tasks[j]? = some task)
    (ha : a ≠ .resume j) : w.deeds cfg j (t, a) = [] := by
  have hlt := (List.getElem?_eq_some_iff.1 hj).1
  have hnot : w.advances j a = false := by
    cases a with
    | resume i => exact decide_eq_false fun hi => ha (by rw [hi])
    | window ref => exact decide_eq_false (by omega)
    | _ => rfl
  simp [deeds, hnot]

theorem AtStage.step (h : w.AtStage p f key options ref track j good) (x : Turn × Action) :
    (w.step cfg x).AtStage p f key options ref track j
      ((w.deeds cfg j x).foldl Deed.note good) := by
  obtain ⟨t, a⟩ := x
  by_cases ha : a = .resume j
  · subst ha
    exact h.resume
  · obtain ⟨task, hj, hstage⟩ := h
    rw [deeds_other hj ha]
    exact ⟨task, tasks_step ha hj, hstage⟩

/-- From a stage of the task on, whatever else is done in between. -/
theorem AtStage.run (cfg : Config) (h : w.AtStage p f key options ref track j good)
    (actions : List (Turn × Action)) :
    (steps (World.step cfg) w actions).AtStage p f key options ref track j
      ((w.history cfg j actions).foldl Deed.note good) := by
  induction actions generalizing w good with
  | nil => exact h
  | cons x rest ih =>
    rw [history, List.foldl_append]
    exact ih (h.step x)

theorem Undone.step (h : w.Undone j) (x : Turn × Action) : (w.step cfg x).Undone j := by
  obtain ⟨t, a⟩ := x
  obtain ⟨stack, hj, hstack⟩ := h
  by_cases ha : a = .resume j
  · subst ha
    rcases hstack with rfl | ⟨ref, track, rfl⟩
    · rw [step_resume_ended hj]
      exact ⟨[], hj, .inl rfl⟩
    · have hlt := (List.getElem?_eq_some_iff.1 hj).1
      refine ⟨[], ?_, .inl rfl⟩
      rw [step_resume hj]
      simp only [Engine.resume, Engine.windowJobEnded_done, Next.task]
      exact List.getElem?_set_self hlt
  · exact ⟨stack, tasks_step ha hj, hstack⟩

theorem Undone.run (cfg : Config) (h : w.Undone j) (actions : List (Turn × Action)) :
    (steps (World.step cfg) w actions).Undone j := by
  induction actions generalizing w with
  | nil => exact h
  | cons x rest ih => exact ih (h.step x)

omit [StorageAdapter σ] in
theorem spawn_andThen (w : World σ) (e : Engine σ) (next : Next) (frame : Frame) :
    (w.spawn (e, next.andThen frame)).tasks[w.tasks.length]? = some (next.task [frame]) := by
  cases next <;> simp [spawn, Next.andThen, Next.task]

/-- The first job of a chain starts as a task, or is not let in. -/
theorem atStage_start (cfg : Config) (t : Turn) {window : DirectWindow} {rest : List WindowJob}
    (hw : w.engine.windowHeap[ref]? = some window)
    (hq : window.queue = .fill p f key options :: rest) (hr : window.running = false) :
    if window.disabled || w.engine.disposed then
      (w.step cfg (t, .window ref)).Undone w.tasks.length
    else (w.step cfg (t, .window ref)).AtStage p f key options ref false w.tasks.length
      (Deed.requested (w.deeds cfg w.tasks.length (t, .window ref))) := by
  have hunsaved : w.unsaved w.tasks.length = false := by simp [unsaved]
  have hstep : w.step cfg (t, .window ref) =
      ((w.engine.startWindowJob cfg t ref).map w.spawn).getD w := rfl
  have hdeeds : w.deeds cfg w.tasks.length (t, .window ref) =
      w.engine.said (w.step cfg (t, .window ref)).engine := by
    simp [deeds, advances, hunsaved]
  rw [hdeeds, hstep]
  unfold Engine.startWindowJob
  simp only [hw, hq, hr, Bool.false_eq_true, if_false, Option.map_some, Option.getD_some]
  have hput : (w.engine.putWindow ref { window with queue := rest, running := true }).disposed =
      w.engine.disposed := rfl
  rw [hput]
  cases hlive : window.disabled || w.engine.disposed with
  | true =>
    have hrefused : window.disabled = true ∨ w.engine.disposed = true := by simpa using hlive
    rw [if_pos rfl, if_pos hrefused]
    exact ⟨[.windowJob ref _], spawn_andThen w _ _ _, .inr ⟨ref, _, rfl⟩⟩
  | false =>
    have hopen : ¬ (window.disabled = true ∨ w.engine.disposed = true) := by simpa using hlive
    rw [if_neg Bool.false_ne_true, if_neg hopen]
    refine ⟨_, spawn_andThen w _ _ _, ?_⟩
    exact stage_fillWindow (w.engine.putWindow ref { window with queue := rest, running := true })
      cfg t key p f options ref false []

/-- The job still waits for its turn in the chain of the window, or has had it. -/
def InTurn (w : World σ) (ref n : Nat) (job : WindowJob) : Prop :=
  ∃ l, w.engine.lanes[ref]? = some l ∧ l.Due n job

omit [StorageAdapter σ] in
theorem inTurn_set {lanes : List (Lane WindowJob)} {r n : Nat} {l l' : Lane WindowJob}
    {job : WindowJob} (h : ∃ l, lanes[ref]? = some l ∧ l.Due n job) (hl : lanes[r]? = some l)
    (hkeeps : l.Due n job → l'.Due n job) :
    ∃ m, (lanes.set r l')[ref]? = some m ∧ m.Due n job := by
  obtain ⟨m, hm, hdue⟩ := h
  by_cases hr : r = ref
  · subst hr
    obtain rfl : m = l := Option.some.inj (hm.symm.trans hl)
    exact ⟨l', List.getElem?_set_self (List.getElem?_eq_some_iff.1 hl).1, hkeeps hdue⟩
  · exact ⟨m, by rw [List.getElem?_set_ne hr, hm], hdue⟩

theorem InTurn.step {n : Nat} {job : WindowJob} (h : w.InTurn ref n job) (horder : w.Orderly)
    (x : Turn × Action) : (w.step cfg x).InTurn ref n job := by
  obtain ⟨t, a⟩ := x
  have hpush : True → ∀ (l : Lane WindowJob) more, l.Due n job → (l.push more).Due n job :=
    fun _ l more hl => hl.push more
  have hstep : LaneStep True w a (w.step cfg (t, a)) := lane_step horder fun _ => trivial
  cases hstep with
  | feed hfeed hjobs => exact Feeding.old hpush hfeed h
  | start r window first rest ha hw hq hr hfeed hjobs =>
    refine Feeding.old hpush hfeed ?_
    exact inTurn_set h (Engine.getElem?_lanes hw) fun hdue => hdue.start hq hr
  | finish i r pending track below window ha hi hw hr hlanes hjobs =>
    unfold InTurn
    rw [hlanes]
    exact inTurn_set h (Engine.getElem?_lanes hw) fun hdue => hdue.finish hr

theorem InTurn.run {w' : World σ} {n : Nat} {job : WindowJob} (h : w.InTurn ref n job)
    (horder : w.Orderly) (hrun : Run (World.step cfg) (fun _ _ => True) w w') :
    w'.InTurn ref n job := by
  have hboth : w'.Orderly ∧ w'.InTurn ref n job :=
    hrun.invariant (P := fun u => u.Orderly ∧ u.InTurn ref n job)
      (fun u x hu _ => ⟨hu.1.step, hu.2.step hu.1 x⟩) ⟨horder, h⟩
  exact hboth.2

/-- A call that is not dropped puts its job in the chain of its window, under its number. -/
theorem inTurn_call {maxInFlight : Option Number} {n : Nat} (horder : w.Orderly)
    (h : w.engine.windowPromise cfg p f options maxInFlight = .ok (.queued ref n)) :
    (w.step cfg (t, .call (.requestPieceWindow p f options maxInFlight))).InTurn ref n
      (.fill p f (options.windowKey.getD (Engine.defaultWindowKey f p options.controllerId))
        options) := by
  have hengine : (w.step cfg (t, .call (.requestPieceWindow p f options maxInFlight))).engine =
      (w.engine.requestPieceWindow cfg p f options maxInFlight).1 := by
    show (Engine.settled _ (w.engine.requestPieceWindow cfg p f options maxInFlight)).1 = _
    rcases w.engine.requestPieceWindow cfg p f options maxInFlight with ⟨e1, err | u⟩ <;> rfl
  unfold InTurn
  rw [hengine]
  exact Engine.due_requestPieceWindow horder.balanced h

omit [StorageAdapter σ] in
/-- The job that a chain starts under a number is the one that was put in under it. -/
theorem InTurn.first {window : DirectWindow} {job : WindowJob}
    (h : w.InTurn ref window.completed job) (hw : w.engine.windowHeap[ref]? = some window)
    (hq : window.queue ≠ []) (hr : window.running = false) :
    ∃ rest, window.queue = job :: rest := by
  obtain ⟨l, hl, hdue⟩ := h
  obtain rfl : l = window.lane := Option.some.inj (hl.symm.trans (Engine.getElem?_lanes hw))
  exact Lane.Due.first (l := window.lane) hdue hr hq

end World

/-- For every run up to a call of `requestPieceWindow` and every run from there: where the promise
of the call is fulfilled, it lists exactly the pieces that its task has asked for without a
failure, if and only if the task was not refused. -/
theorem requestPieceWindow_tells_the_truth {σ : Type} [StorageAdapter σ] (cfg : Config)
    (storage : σ) (transport : Bool) (v : World σ) (t : Turn) (p : PeerId) (f : FileId)
    (options : DirectRequestOptions) (maxInFlight : Option Number) (promise : WindowPromise)
    (value : Value) (deeds : List Deed) (refused : Bool)
    (hv : Run (World.step cfg) (fun _ _ => True) (.new storage transport) v)
    (hpromise : v.engine.windowPromise cfg p f options maxInFlight = .ok promise)
    (hvalue : World.Fulfils cfg
      (v.step cfg (t, .call (.requestPieceWindow p f options maxInFlight))) promise value deeds
      refused) :
    (∃ pieces, value = .pieces pieces ∧ listed p f pieces = Deed.requested deeds) ↔
      refused = false := by
  have horder : v.Orderly :=
    hv.invariant (fun u x hu _ => hu.step) (World.orderly_new storage transport)
  cases hvalue with
  | dropped =>
    constructor
    · rintro ⟨pieces, hpieces, -⟩
      cases hpieces
    · exact fun h => absurd h (by decide)
  | job v2 ref window t2 actions value hrun hw hq hr hend =>
    have hturn := (World.inTurn_call (t := t) horder hpromise).run horder.step hrun
    obtain ⟨rest, hfirst⟩ := hturn.first hw hq hr
    have hstart := World.atStage_start cfg t2 hw hfirst hr
    cases hlive : window.disabled || v2.engine.disposed with
    | true =>
      rw [hlive, if_pos rfl] at hstart
      obtain ⟨stack, hundone, -⟩ := hstart.run cfg actions
      have hsame := Option.some.inj (hundone.symm.trans hend)
      constructor
      · rintro ⟨pieces, rfl, -⟩
        cases hsame
      · exact fun h => absurd h (by decide)
    | false =>
      rw [hlive, if_neg Bool.false_ne_true] at hstart
      obtain ⟨task, htask, hstage⟩ := hstart.run cfg actions
      obtain rfl := Option.some.inj (htask.symm.trans hend)
      refine ⟨fun _ => rfl, fun _ => ?_⟩
      cases hstage with
      | fulfilled scheduled hgood =>
        refine ⟨scheduled, rfl, ?_⟩
        rw [World.history, Deed.requested, List.foldl_append]
        exact hgood.symm

namespace Sample

/-- A window has been asked for the one piece of the file. -/
def asking : World MemoryStorageAdapter :=
  (steps (World.step config) start joined).step config
    (turn, .call (.requestPieceWindow "o" "f" windowOptions none))

/-- Its task has its turn, and goes on to its end. -/
def fillingWindow : List (Turn × Action) :=
  [(turn, .window 0), (turn, .resume 2), (turn, .resume 2), (turn, .resume 2), (turn, .resume 2)]

/-- Everything is cancelled before the task has its turn. -/
def cancelledFirst : World MemoryStorageAdapter :=
  asking.step config (turn, .call (.cancelDirectRequests Engine.everything))

end Sample

/-- The one piece is listed, and it is what has been asked for. -/
theorem requestPieceWindow_tells_the_truth_sample :
    Deed.requested (Sample.asking.history Sample.config 2 Sample.fillingWindow) =
      [("o", "f", 0)] := by
  have hpromise : (steps (World.step Sample.config) Sample.start
      Sample.joined).engine.windowPromise Sample.config "o" "f" Sample.windowOptions none =
        .ok (.queued 0 0) := rfl
  have hvalue : World.Fulfils Sample.config Sample.asking (.queued 0 0)
      (.pieces [⟨⟨0, .missing, 1, 0, 0, none, none⟩, "o"⟩])
      (Sample.asking.history Sample.config 2 Sample.fillingWindow) false :=
    .job Sample.asking 0 _ Sample.turn _ _ (.refl _) rfl (by decide +kernel) rfl rfl
  obtain ⟨pieces, hpieces, hlisted⟩ := (requestPieceWindow_tells_the_truth Sample.config
    MemoryStorageAdapter.empty true (steps (World.step Sample.config) Sample.start Sample.joined)
    Sample.turn "o" "f" Sample.windowOptions none _ _ _ _ (run_steps _ _) hpromise hvalue).2 rfl
  cases hpieces
  exact hlisted.symm

/-- The promise of a task that is cancelled before its turn is fulfilled with nothing. -/
theorem requestPieceWindow_fulfilled_with_nothing :
    (steps (World.step Sample.config) Sample.start Sample.joined).engine.windowPromise Sample.config
      "o" "f" Sample.windowOptions none = .ok (.queued 0 0) ∧
    (∃ deeds, World.Fulfils Sample.config Sample.asking (.queued 0 0) .unit deeds true) ∧
    ¬ ∃ pieces, Value.unit = .pieces pieces := by
  refine ⟨rfl, ⟨_, .job Sample.cancelledFirst 0 _ Sample.turn [(Sample.turn, .resume 3)] .unit
    (.tail _ (.refl _) trivial) rfl (by decide +kernel) rfl rfl⟩, ?_⟩
  rintro ⟨pieces, h⟩
  cases h

end PonsWarp.Core
