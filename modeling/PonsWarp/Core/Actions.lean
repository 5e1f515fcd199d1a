import PonsWarp.Core.SessionChanges

set_option autoImplicit false

/-!
Every step of a world is within a grant that its action determines: a call, a
message or a continuation names what it may do, and nothing else happens.
-/

namespace PonsWarp.Core

open PonsWarp.Data

def Grant.announce (t : Turn) (f : FileId) : Grant
  | .effect x => Engine.announces t f x
  | _ => False

/-- The loop of `requestPieceWindow`. -/
def Grant.filling (t : Turn) (window : Nat) (windowKey : String) (p : PeerId) (f : FileId)
    (options : DirectRequestOptions) : Grant := fun label =>
  Grant.request t p f (some { options with windowKey := some windowKey }) label ∨
  ∃ scheduled, label = .frame (.fillWindow window windowKey p f options scheduled)

/-- The manifests a loaded session registers, and its continuations. -/
def Grant.joined (sessionId : SessionId) (manifests : List FileManifest)
    (state : Option PersistedSessionState) : Grant := fun label =>
  ∃ merged, mergeManifests ((state.map (·.manifests)).getD []) manifests = .ok merged ∧
    ((∃ m ∈ merged, label = .register m) ∨ Grant.joining sessionId merged label)

/-- What a continuation may do with the outcome it waited for. -/
def Frame.grant {σ : Type} (e : Engine σ) (t : Turn) : Frame → Except Failure Value → Grant
  | .requestSent ref requestId scheduled, .error _ =>
    Grant.giveUp e ref scheduled.piece.index requestId
  | .requestSent ref requestId scheduled, .ok _ =>
    .only (.frame (.requestPersisted ref requestId scheduled))
  | .requestPersisted ref requestId scheduled, .error _ =>
    Grant.giveUp e ref scheduled.piece.index requestId
  | .fillWindow window windowKey p f options _, _ => .filling t window windowKey p f options
  | .gridSent result, _ => .only (.frame (.gridPersisted result))
  | .gridEndgame f options total _, _ => Grant.gridLoop e t f options total
  | .gridNext f options total _, _ => Grant.gridLoop e t f options total
  | .pieceChecked r, .ok (.bool false) => Grant.corrupt e r
  | .pieceChecked r, .ok (.bool true) => Grant.accept e r
  | .pieceDeleted r outstanding, _ => .only (.frame (.mismatchPersisted r outstanding))
  | .mismatchPersisted r _, _ => .retire r.requestId ⊔ .lose r.requestId
  | .pieceWritten r _, .error _ => Grant.giveUp e r.manager r.pieceIndex r.requestId
  | .pieceWritten r outstanding, .ok _ =>
    .only (.verify r.manager r.pieceIndex) ⊔ .only (.frame (.piecePersisted r outstanding))
  | .piecePersisted r _, .error _ => Grant.giveUp e r.manager r.pieceIndex r.requestId
  | .piecePersisted r _, .ok _ => Grant.commit e t r
  | .resumeRead r index, _ => .discard r.manifest.fileId index
  | .resumeChecked r index, _ => .discard r.manifest.fileId index
  | .resumeDeleted r _ _, _ => .restoring r.manifest.fileId
  | .fileRestored f, .ok (.restored result) =>
    .only (.install f result.manager) ⊔ .only (.frame (.filePersisted f result))
  | .filePersisted f result, _ => .announce t f ⊔ .only (.frame (.fileAnnounced result))
  | .joinInitialized sessionId manifests, _ => .only (.frame (.joinLoaded sessionId manifests))
  | .joinLoaded sessionId manifests, .ok (.state state) => .joined sessionId manifests state
  | .joinRestored sessionId merged f _, .ok (.restored result) =>
    .only (.install f result.manager) ⊔ .joining sessionId merged
  | .createInitialized _ _, _ => .creating
  | .createHashed _ _ _ _, .ok (.manifest manifest) =>
    .only (.register manifest) ⊔ .only .source ⊔ .creating
  | .chunkAppended p header, .ok (.buffer (some data)) => Grant.assembled e p header data
  | .pieceReceived _ header _, .error _ => Grant.failHeader e header
  | .pieceReceived p _ outstanding, .ok (.received result) =>
    .only (.effect (.send p (Engine.responseTo result) (t.sendFailure p))) ⊔
      .only (.frame (.responseSent result outstanding))
  | .responseSent result outstanding, _ => fun label =>
    ∃ options, outstanding.gridOptions = some options ∧ Grant.grid e t result.fileId options label
  | .rejectSent p header _ outstanding _, _ =>
    Grant.again e t p header.fileId (outstanding.bind (·.gridOptions)) ⊔
      .only (.frame .rejectRequested)
  | .sourceRead p _ _, _ => .upload t p
  | .storedRead p _ _, _ => .upload t p
  | .headerSent upload, _ => .upload t upload.peerId
  | .binarySent upload, _ => .upload t upload.peerId
  | .uploadJob p, _ => .upload t p
  | .disposeFlushed, .ok _ => .only .dispose
  | _, _ => ⊥

/-- The requests that the clock has overtaken leave the tables. -/
def Grant.expiring {σ : Type} (e : Engine σ) : Grant := fun label =>
  ∃ p ∈ e.outstandingRequests.entries, Grant.retire p.1 label

/-- What a call may do by its first await. -/
def Call.grant {σ : Type} (e : Engine σ) (t : Turn) : Call → Grant
  | .createSession input files =>
    .only (.init input.sessionId) ⊔ .only (.frame (.createInitialized input files))
  | .joinSession sessionId manifests =>
    .only (.init sessionId) ⊔ .only (.frame (.joinInitialized sessionId manifests))
  | .requestNextPiece p f options => .request t p f options
  | .requestPieceWindow .. => ⊥
  | .requestNextGridPiece f options => Grant.grid e t f options
  | .requestGridPieceWindow f options total perPeer =>
    Grant.gridLoop e t f (Engine.gridWindowOptions options perPeer) (total.getD 1)
  | .receivePiece f pieceIndex requestId data expected =>
    .receive f pieceIndex requestId data expected
  | .resumeFile f => fun label => ∃ manifest, e.manifests.get? f = some manifest ∧
    (Grant.restoring manifest.fileId label ∨ label = .frame (.fileRestored f))
  | .cancelDirectRequests selector => .cancel selector e.outstandingRequests.entries
  | .cancelCompetingGridRequests f i keep =>
    .compete t f i keep e.outstandingRequests.entries ⊔
      fun label => ∃ x, label = .lose x ∧ e.status? f i = some .requested ∧
        Engine.competes f i keep e.outstandingRequests.entries x
  | .expireDirectRequests _ => Grant.expiring e
  | .expireRequestLeases now => .leases (e.availability.expireLeases (now.getD (t.now : Number))).1
  | .updatePeerPieceMap _ map _ => .map e.availability map
  | .exportPieceMapBroadcast _ => ⊥
  | .broadcastPieceMap f _ => .announce t f
  | .setPeerHealth _ _ => ⊥
  | .setTransferChunkBytes _ => .only .configure
  | .applyTransferTuning _ _ => .only .configure
  | .setTransport => .only .configure
  | .flushDirectLifecycle => Grant.expiring e ⊔ fun label => ∃ windows, label = .frame (.flushed windows)
  | .dispose => Grant.expiring e ⊔
      .cancel ⟨none, none, none, none, none⟩ e.outstandingRequests.entries ⊔
      (fun label => ∃ windows, label = .frame (.flushed windows)) ⊔ .only (.frame .disposeFlushed)

namespace Engine

variable {σ : Type} [StorageAdapter σ] {e e' : Engine σ} {cfg : Config} {t : Turn} {G : Grant}

theorem does_resume (frame : Frame) (outcome : Except Failure Value)
    (hg : frame.grant e t outcome ≤ G) : Does cfg t G e (e.resume cfg t outcome frame) := by
  cases frame with
  | requestSent ref requestId scheduled =>
    cases outcome with
    | error err => exact does_requestSent_error ref requestId scheduled err hg
    | ok v => exact does_requestSent_ok ref requestId scheduled v (Grant.only_le.1 hg)
  | requestPersisted ref requestId scheduled =>
    cases outcome with
    | error err => exact does_requestPersisted_error ref requestId scheduled err hg
    | ok v => exact does_requestPersisted_ok ref requestId scheduled v
  | fillWindow window windowKey p f options scheduled =>
    exact does_windowFilled _ _ _ _ _ _ _ (fun l hl => hg l (.inl hl))
      fun more => hg _ (.inr ⟨more, rfl⟩)
  | windowJob window track => exact does_windowJobEnded _ _ _
  | gridSent result => exact does_gridSent _ _ (Grant.only_le.1 hg)
  | gridPersisted result => exact does_thenReturn _ _
  | gridEndgame f options total scheduled => exact does_gridEndgame _ _ _ _ _ hg
  | gridNext f options total scheduled => exact does_gridNext _ _ _ _ _ hg
  | endgameSent result => exact does_thenReturn _ _
  | pieceChecked r =>
    cases outcome with
    | error err => exact .stop e _
    | ok v =>
      cases v with
      | bool b =>
        cases b with
        | false => exact does_pieceChecked_false _ hg
        | true => exact does_pieceChecked_true _ hg
      | _ => exact .stop e _
  | pieceDeleted r outstanding => exact does_pieceDeleted _ _ _ (Grant.only_le.1 hg)
  | mismatchPersisted r outstanding =>
    obtain ⟨hretire, hlose⟩ := sup_le_iff.1 hg
    exact does_mismatchPersisted _ _ _ hretire (hlose (.lose r.requestId) rfl)
  | pieceWritten r outstanding =>
    cases outcome with
    | error err => exact does_pieceWritten_error _ _ _ hg
    | ok v =>
      obtain ⟨hverify, hframe⟩ := sup_le_iff.1 hg
      exact does_pieceWritten_ok r outstanding v (Grant.only_le.1 hverify) (Grant.only_le.1 hframe)
  | piecePersisted r outstanding =>
    cases outcome with
    | error err => exact does_piecePersisted_error _ _ _ hg
    | ok v => exact does_piecePersisted_ok r outstanding v hg
  | mapAnnounced r => exact does_mapAnnounced _ _
  | resumeRead r index => exact does_resumeRead _ _ _ hg
  | resumeChecked r index =>
    cases outcome with
    | error err => exact .stop e _
    | ok v =>
      cases v with
      | bool b => exact does_resumeChecked _ _ _ hg
      | _ => exact .stop e _
  | resumeDeleted r index reason => exact does_resumeDeleted _ _ _ _ hg
  | fileRestored f =>
    refine does_fileRestored _ _ fun result hresult => ?_
    subst hresult
    obtain ⟨hinstall, hframe⟩ := sup_le_iff.1 hg
    exact ⟨Grant.only_le.1 hinstall, Grant.only_le.1 hframe⟩
  | filePersisted f result =>
    obtain ⟨hannounce, hframe⟩ := sup_le_iff.1 hg
    exact does_filePersisted _ _ _ (fun x hx => hannounce (.effect x) hx) (Grant.only_le.1 hframe)
  | fileAnnounced result => exact does_thenReturn _ _
  | joinInitialized sessionId manifests =>
    exact does_joinInitialized _ _ _ (Grant.only_le.1 hg)
  | joinLoaded sessionId manifests =>
    refine does_joinLoaded _ _ _ fun state merged hstate hmerged => ?_
    subst hstate
    exact ⟨fun m hm => hg _ ⟨merged, hmerged, .inl ⟨m, hm, rfl⟩⟩,
      fun l hl => hg l ⟨merged, hmerged, .inr hl⟩⟩
  | joinRestored sessionId merged f pending =>
    refine does_joinRestored _ _ _ _ _ fun result hresult => ?_
    subst hresult
    obtain ⟨hinstall, hjoin⟩ := sup_le_iff.1 hg
    exact ⟨Grant.only_le.1 hinstall, hjoin⟩
  | joinPersisted sessionId merged => exact does_thenReturn _ _
  | createInitialized input files => exact does_createInitialized _ _ _ hg
  | createHashed input file files manifests =>
    refine does_createHashed _ _ _ _ _ fun manifest hmanifest => ?_
    subst hmanifest
    obtain ⟨hregister, hcreate⟩ := sup_le_iff.1 hg
    obtain ⟨hregister, hsource⟩ := sup_le_iff.1 hregister
    exact ⟨Grant.only_le.1 hregister, Grant.only_le.1 hsource, hcreate⟩
  | createPersisted sessionId manifests => exact does_thenReturn _ _
  | messageHandled => exact does_messageHandled _
  | chunkAppended p header =>
    refine does_chunkAppended _ _ _ fun data hdata => ?_
    subst hdata
    exact hg
  | chunkRejected => exact does_thenReturn _ _
  | pieceReceived p header outstanding =>
    cases outcome with
    | error err => exact does_pieceReceived_error p header outstanding err hg
    | ok v =>
      refine does_pieceReceived_ok _ _ _ _ fun result hresult => ?_
      subst hresult
      obtain ⟨heffect, hframe⟩ := sup_le_iff.1 hg
      exact ⟨Grant.only_le.1 heffect, Grant.only_le.1 hframe⟩
  | responseSent result outstanding =>
    exact does_responseSent _ _ _ fun options ho l hl => hg l ⟨options, ho, hl⟩
  | rejectSent p header manager outstanding finalized =>
    obtain ⟨hagain, hframe⟩ := sup_le_iff.1 hg
    exact does_rejectSent _ _ _ _ _ _ hagain (Grant.only_le.1 hframe)
  | rejectRequested =>
    cases outcome with
    | error err => exact .stop e _
    | ok v => exact does_persistState
  | sourceRead p request index => exact does_sourceRead _ _ _ _ hg
  | storedRead p request index => exact does_storedRead _ _ _ _ hg
  | headerSent upload => exact does_headerSent _ _ hg
  | binarySent upload => exact does_binarySent _ _ hg
  | uploadJob p => exact does_uploadJobEnded _ _ hg
  | flushed windows =>
    cases outcome with
    | error err => exact .stop e _
    | ok v => exact does_flushed _
  | disposeFlushed =>
    refine does_disposeFlushed _ fun v hv => ?_
    subst hv
    exact Grant.only_le.1 hg

omit [StorageAdapter σ] in
theorem expiring_le (hg : Grant.expiring e ≤ G) :
    ∀ p ∈ e.outstandingRequests.entries, Grant.retire p.1 ≤ G :=
  fun p hp l hl => hg l ⟨p, hp, hl⟩

theorem does_settled {α : Type} (value : α → Value) {result : Engine σ × Except Failure α}
    (hc : Changes t G e result.1) : Does cfg t G e (settled value result) := by
  obtain ⟨e1, err | a⟩ := result
  · exact .done hc _
  · exact .done hc _

theorem does_call (c : Call) (hg : c.grant e t ≤ G) : Does cfg t G e (e.call cfg t c) := by
  cases c with
  | createSession input files =>
    obtain ⟨hinit, hframe⟩ := sup_le_iff.1 hg
    exact does_createSession _ _ (Grant.only_le.1 hinit) (Grant.only_le.1 hframe)
  | joinSession sessionId manifests =>
    obtain ⟨hinit, hframe⟩ := sup_le_iff.1 hg
    exact does_joinSession _ _ (Grant.only_le.1 hinit) (Grant.only_le.1 hframe)
  | requestNextPiece p f options => exact does_requestNextPiece _ _ _ hg
  | requestPieceWindow p f options maxInFlight =>
    exact does_settled _ (changes_requestPieceWindow p f options maxInFlight)
  | requestNextGridPiece f options => exact does_requestNextGridPiece _ _ hg
  | requestGridPieceWindow f options total perPeer =>
    exact does_requestGridPieceWindow _ _ _ _ hg
  | receivePiece f pieceIndex requestId data expected => exact does_receivePiece _ _ _ _ _ hg
  | resumeFile f =>
    exact does_resumeFile _ fun manifest hm =>
      ⟨fun l hl => hg l ⟨manifest, hm, .inl hl⟩, hg _ ⟨manifest, hm, .inr rfl⟩⟩
  | cancelDirectRequests selector =>
    exact does_settled _ (changes_cancelDirectRequests selector hg)
  | cancelCompetingGridRequests f i keep =>
    obtain ⟨hcompete, hlose⟩ := sup_le_iff.1 hg
    refine does_settled _ (changes_cancelCompetingGridRequests hcompete ?_)
    by_cases hstatus : e.status? f i = some .requested
    · exact .inr fun x hx => hlose _ ⟨x, rfl, hstatus, hx⟩
    · exact .inl hstatus
  | expireDirectRequests now =>
    exact does_settled _ (changes_expireDirectRequests _ _ (expiring_le hg))
  | expireRequestLeases now =>
    exact does_settled _ (changes_expireRequestLeases _ hg)
  | updatePeerPieceMap p map role =>
    unfold call
    simp only
    split
    · exact .stop e _
    · rename_i e1 he1
      exact .done (changes_updatePeerPieceMap he1 hg) _
  | exportPieceMapBroadcast f =>
    exact does_settled _ (changes_exportPieceMapBroadcast f)
  | broadcastPieceMap f peers => exact does_broadcastPieceMap _ _ fun x hx => hg (.effect x) hx
  | setPeerHealth p patch => exact .done (changes_health _) _
  | setTransferChunkBytes bytes =>
    exact .done (.single (.configure e _ e.transport e.subscribed id (Grant.only_le.1 hg))) _
  | applyTransferTuning chunkSizeBytes maxBytes =>
    exact .done (.single (.configure e _ e.transport e.subscribed id (Grant.only_le.1 hg))) _
  | setTransport =>
    exact .done (.single (.configure e e.transferChunkBytes true true (fun _ => rfl)
      (Grant.only_le.1 hg))) _
  | flushDirectLifecycle =>
    obtain ⟨hexpire, hframe⟩ := sup_le_iff.1 hg
    exact does_flushDirectLifecycle (expiring_le hexpire) fun windows => hframe _ ⟨windows, rfl⟩
  | dispose =>
    obtain ⟨hg, hflush⟩ := sup_le_iff.1 hg
    obtain ⟨hg, hframe⟩ := sup_le_iff.1 hg
    obtain ⟨hexpire, hcancel⟩ := sup_le_iff.1 hg
    exact does_dispose (expiring_le hexpire) hcancel (fun windows => hframe _ ⟨windows, rfl⟩)
      (Grant.only_le.1 hflush)

end Engine

namespace World

variable {σ : Type} [StorageAdapter σ]

/-- What the next task of a window may do. -/
def windowGrant (w : World σ) (t : Turn) (ref : Nat) : Grant := fun label =>
  (∃ track, label = .frame (.windowJob ref track)) ∨
  ∃ window job rest, w.engine.windowHeap[ref]? = some window ∧ window.queue = job :: rest ∧
    window.disabled = false ∧ Grant.windowJob t ref job label

/-- What the task at a position may do when it is resumed. -/
def resumeGrant (w : World σ) (t : Turn) (i : Nat) : Grant := fun label =>
  ∃ pending frame below outcome, w.tasks[i]? = some ⟨pending, frame :: below⟩ ∧
    w.engine.outcome pending = some outcome ∧ frame.grant w.engine t outcome label

def timerGrant (w : World σ) (k : Nat) : Grant := fun label =>
  ∃ requestId windowKey, w.engine.armed[k]? = some (requestId, windowKey) ∧
    Grant.retire requestId label

def grant (w : World σ) : Turn × Action → Grant
  | (t, .call c) => c.grant w.engine t
  | (t, .message p message) => .only (.frame .messageHandled) ⊔
      fun label => ∃ m, message = some m ∧ Grant.message w.engine t p m label
  | (t, .binary p data) => .only (.frame .messageHandled) ⊔ Grant.binary w.engine t p data
  | (t, .resume i) => w.resumeGrant t i
  | (t, .window ref) => w.windowGrant t ref
  | (t, .upload p) => .upload t p
  | (_, .timer k) => w.timerGrant k

/-- How a step changes a world: it starts a task, takes one further, or changes
the engine alone. -/
inductive Stepped (cfg : Config) (w : World σ) (t : Turn) : Action → World σ → Prop
  | spawn (a : Action) (hr : ∀ i, a ≠ .resume i) (result : Engine σ × Next)
      (h : Does cfg t (w.grant (t, a)) w.engine result) : Stepped cfg w t a (w.spawn result)
  | resume (i : Nat) (pending : Pending) (frame : Frame) (below : List Frame)
      (outcome : Except Failure Value) (result : Engine σ × Next)
      (hi : w.tasks[i]? = some ⟨pending, frame :: below⟩)
      (ho : w.engine.outcome pending = some outcome)
      (hr : w.engine.resume cfg t outcome frame = result)
      (h : Does cfg t (frame.grant w.engine t outcome) w.engine result) :
      Stepped cfg w t (.resume i)
        { w with engine := result.1, tasks := w.tasks.set i (result.2.task below) }
  | alone (a : Action) (e : Engine σ) (fired : List Nat)
      (h : Changes t (w.grant (t, a)) w.engine e) :
      Stepped cfg w t a { w with engine := e, fired := fired }

theorem stepped_idle {cfg : Config} (w : World σ) (t : Turn) (a : Action) :
    Stepped cfg w t a w :=
  .alone a w.engine w.fired .refl

theorem step_spec (cfg : Config) (w : World σ) (t : Turn) (a : Action) :
    Stepped cfg w t a (w.step cfg (t, a)) := by
  cases a with
  | call c => exact .spawn _ (by simp) _ (Engine.does_call c le_rfl)
  | message p message =>
    unfold step
    simp only [handleMessage]
    split
    · refine .spawn _ (by simp) _ (Does.andThen (Engine.does_handleTransportMessage p message ?_)
        (.inl rfl) fun _ => trivial)
      exact fun m hm l hl => .inr ⟨m, hm, hl⟩
    · exact stepped_idle w t _
  | binary p data =>
    unfold step
    simp only [handleBinary]
    split
    · exact .spawn _ (by simp) _ (Does.andThen
        (Engine.does_handleTransportBinary p data fun l hl => .inr hl) (.inl rfl) fun _ => trivial)
    · exact stepped_idle w t _
  | resume i =>
    unfold step
    simp only [resumeTask]
    split
    · rename_i pending frame below hi
      split
      · rename_i outcome ho
        exact .resume i pending frame below outcome _ hi ho rfl
          (Engine.does_resume frame outcome le_rfl)
      · exact stepped_idle w t _
    · exact stepped_idle w t _
  | window ref =>
    unfold step
    cases h : w.engine.startWindowJob cfg t ref with
    | none =>
      simp only [h, Option.map_none, Option.getD_none]
      exact stepped_idle w t _
    | some result =>
      simp only [h, Option.map_some, Option.getD_some]
      refine .spawn (.window ref) (by simp) _
        (Engine.does_startWindowJob h ?_ fun track => .inl ⟨track, rfl⟩)
      exact fun window job rest hw hq hd l hl => .inr ⟨window, job, rest, hw, hq, hd, hl⟩
  | upload p =>
    unfold step
    cases h : w.engine.startUploadJob t p with
    | none =>
      simp only [h, Option.map_none, Option.getD_none]
      exact stepped_idle w t _
    | some result =>
      simp only [h, Option.map_some, Option.getD_some]
      exact .spawn (.upload p) (by simp) _ (Engine.does_startUploadJob h le_rfl)
  | timer k =>
    unfold step
    simp only [fireTimer]
    split
    · rename_i requestId windowKey hk
      split
      · exact .alone _ _ _ (Engine.changes_timerFired requestId windowKey fun l hl =>
          ⟨requestId, windowKey, hk, hl⟩)
      · exact stepped_idle w t _
    · exact stepped_idle w t _

omit [StorageAdapter σ] in
theorem outcome_eq_some {e : Engine σ} {pending : Pending} {outcome : Except Failure Value}
    (h : e.outcome pending = some outcome) : pending = .settled outcome ∨ outcome = .ok .unit := by
  cases pending with
  | settled o =>
    cases h
    exact .inl rfl
  | windows waits =>
    unfold Engine.outcome at h
    simp only at h
    split at h
    · cases h
      exact .inr rfl
    · cases h

/-- A continuation that some task still has before it. -/
def Holds (w : World σ) (frame : Frame) : Prop := ∃ task ∈ w.tasks, frame ∈ task.stack

section

variable {cfg : Config} {w w' : World σ} {t : Turn} {a : Action}

theorem Stepped.changes (h : Stepped cfg w t a w') :
    Changes t (w.grant (t, a)) w.engine w'.engine := by
  cases h with
  | spawn _ _ result h => exact h.changes
  | resume i pending frame below outcome result hi ho hr h =>
    exact h.changes.mono fun l hl => ⟨pending, frame, below, outcome, hi, ho, hl⟩
  | alone _ e fired h => exact h

theorem mem_task_stack {next : Next} {below : List Frame} {frame : Frame} :
    frame ∈ (next.task below).stack ↔ frame ∈ next.frames ∨ frame ∈ below := by
  cases next <;> simp [Next.task, Next.frames]

/-- A continuation was there before, or the step was granted it. -/
theorem Stepped.frames (h : Stepped cfg w t a w') {frame : Frame} (hf : w'.Holds frame) :
    w.Holds frame ∨ w.grant (t, a) (.frame frame) := by
  obtain ⟨task, htask, hframe⟩ := hf
  cases h with
  | spawn _ _ result h =>
    obtain hold | hnew := List.mem_append.1 htask
    · exact .inl ⟨task, hold, hframe⟩
    · obtain rfl := List.mem_singleton.1 hnew
      obtain hnext | hnil := mem_task_stack.1 hframe
      · exact .inr (h.frames frame hnext)
      · cases hnil
  | resume i pending top below outcome result hi ho hr h =>
    obtain hold | rfl := List.mem_or_eq_of_mem_set htask
    · exact .inl ⟨task, hold, hframe⟩
    · obtain hnext | hbelow := mem_task_stack.1 hframe
      · exact .inr ⟨pending, top, below, outcome, hi, ho, h.frames frame hnext⟩
      · exact .inl ⟨_, List.mem_of_getElem? hi, List.mem_cons_of_mem _ hbelow⟩
  | alone _ e fired h => exact .inl ⟨task, htask, hframe⟩

end

end World

end PonsWarp.Core
