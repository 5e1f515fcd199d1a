import PonsWarp.Core.MessageChanges

set_option autoImplicit false

/-!
The stretches that open a session, restore what was persisted, and shut down.
-/

namespace PonsWarp.Core

open PonsWarp.Data

/-- The continuations of `restoreResumeState` for a file. -/
def Frame.restores (f : FileId) : Frame → Prop
  | .resumeRead r _ => r.manifest.fileId = f
  | .resumeChecked r _ => r.manifest.fileId = f
  | .resumeDeleted r _ _ => r.manifest.fileId = f
  | _ => False

def Grant.restoring (f : FileId) : Grant
  | .frame fr => fr.restores f
  | _ => False

/-- A restore deletes the piece it discards. -/
def Grant.discard (f : FileId) (index : Nat) : Grant
  | .erase g i => g = f ∧ i = index
  | label => Grant.restoring f label

theorem Grant.restoring_le_discard {f : FileId} {index : Nat} :
    Grant.restoring f ≤ Grant.discard f index := by
  intro label hl
  cases label with
  | erase => cases hl
  | _ => exact hl

/-- The continuations of `joinSession` once its manifests are registered. -/
def Grant.joining (sessionId : SessionId) (merged : List FileManifest) : Grant
  | .frame fr => (∃ f, fr.restores f) ∨ (∃ f pending, fr = .joinRestored sessionId merged f pending) ∨
      fr = .joinPersisted sessionId merged
  | _ => False

/-- The continuations of `createSession` between its files. -/
def Grant.creating : Grant
  | .frame fr => (∃ input file files manifests, fr = .createHashed input file files manifests) ∨
      ∃ sessionId manifests, fr = .createPersisted sessionId manifests
  | _ => False

namespace Engine

variable {σ : Type} [StorageAdapter σ] {e e' : Engine σ} {cfg : Config} {t : Turn} {G : Grant}

theorem does_restoreLoop (r : Restore) (hg : Grant.restoring r.manifest.fileId ≤ G) :
    Does cfg t G e (e.restoreLoop t r) := by
  unfold restoreLoop
  split
  · exact .stop e _
  · exact (does_storageCall _ _ (.single (.read _ _ _))).andThen (hg (.frame _) rfl)
      fun _ => trivial

theorem does_restoreResumeState (manifest : FileManifest) (pieceMap : PieceMap)
    (hg : Grant.restoring manifest.fileId ≤ G) :
    Does cfg t G e (e.restoreResumeState t manifest pieceMap) := by
  unfold restoreResumeState
  split
  · exact .stop e _
  · split
    · exact .stop e _
    · exact does_restoreLoop _ hg

theorem does_discardPiece (r : Restore) (index : Nat) (reason : String)
    (hg : Grant.discard r.manifest.fileId index ≤ G) :
    Does cfg t G e (e.discardPiece t r index reason) :=
  (does_storageCall _ _ (.single (.erase _ _ _ (hg (.erase _ _) ⟨rfl, rfl⟩)))).andThen
    (hg (.frame _) rfl) fun _ => trivial

theorem does_resumeRead (r : Restore) (index : Nat) (outcome : Except Failure Value)
    (hg : Grant.discard r.manifest.fileId index ≤ G) :
    Does cfg t G e (e.resumeRead cfg t r index outcome) := by
  unfold resumeRead
  split
  · exact .stop e _
  · split
    · exact .stop e _
    · exact .await .refl _ (hg (.frame _) rfl) trivial
  · exact does_discardPiece _ _ _ hg

theorem does_resumeChecked (r : Restore) (index : Nat) (verified : Bool)
    (hg : Grant.discard r.manifest.fileId index ≤ G) :
    Does cfg t G e (e.resumeChecked t r index verified) := by
  unfold resumeChecked
  split
  · exact does_restoreLoop _ (Grant.restoring_le_discard.trans hg)
  · exact does_discardPiece _ _ _ hg

theorem does_resumeDeleted (r : Restore) (index : Nat) (reason : String)
    (outcome : Except Failure Value) (hg : Grant.restoring r.manifest.fileId ≤ G) :
    Does cfg t G e (e.resumeDeleted t r index reason outcome) := by
  unfold resumeDeleted
  split
  · exact .stop e _
  · split
    · exact .stop e _
    · split
      · exact .stop e _
      · exact does_restoreLoop _ hg

theorem does_resumeFile (f : FileId)
    (hg : ∀ manifest, e.manifests.get? f = some manifest →
      Grant.restoring manifest.fileId ≤ G ∧ G (.frame (.fileRestored f))) :
    Does cfg t G e (e.resumeFile t f) := by
  unfold resumeFile
  split
  · exact .stop e _
  · rename_i manifest hmanifest
    split
    · exact .stop e _
    · have hget : e.manifests.get? f = some manifest := by
        unfold requireManifest at hmanifest
        split at hmanifest
        · rename_i m hm
          cases hmanifest
          exact hm
        · cases hmanifest
      obtain ⟨hrestore, hframe⟩ := hg manifest hget
      exact (does_restoreResumeState _ _ hrestore).andThen hframe fun _ => trivial

theorem does_fileRestored (f : FileId) (outcome : Except Failure Value)
    (hg : ∀ result, outcome = .ok (.restored result) →
      G (.install f result.manager) ∧ G (.frame (.filePersisted f result))) :
    Does cfg t G e (e.fileRestored t f outcome) := by
  unfold fileRestored
  split
  · exact .stop e _
  · rename_i result
    obtain ⟨hinstall, hframe⟩ := hg result rfl
    exact .after (.single (.install e f result.manager hinstall))
      (does_persistState.andThen hframe fun _ => trivial)
  · exact .stop e _

theorem does_filePersisted (f : FileId) (result : ResumeRestoreResult)
    (outcome : Except Failure Value) (hg : ∀ x, announces t f x → G (.effect x))
    (hframe : G (.frame (.fileAnnounced result))) :
    Does cfg t G e (e.filePersisted t f result outcome) := by
  unfold filePersisted
  split
  · exact .stop e _
  · split
    · exact .stop e _
    · exact (does_broadcastPieceMap _ _ hg).andThen hframe fun _ => trivial

theorem does_joinLoop (sessionId : SessionId) (merged : List FileManifest)
    (pieceMaps : List PieceMap) (hg : Grant.joining sessionId merged ≤ G) :
    Does cfg t G e (e.joinLoop t sessionId merged pieceMaps) := by
  induction pieceMaps with
  | nil =>
    unfold joinLoop
    split
    · exact .stop e _
    · exact does_persistState.andThen (hg (.frame _) (.inr (.inr rfl))) fun _ => trivial
  | cons pieceMap rest ih =>
    unfold joinLoop
    split
    · exact ih
    · rename_i manifest _
      refine Does.andThen (does_restoreResumeState _ _ ?_)
        (hg (.frame _) (.inr (.inl ⟨_, _, rfl⟩))) fun _ => trivial
      intro label hl
      cases label with
      | frame fr => exact hg (.frame fr) (.inl ⟨_, hl⟩)
      | _ => cases hl

theorem does_joinSession (sessionId : SessionId) (manifests : List FileManifest)
    (hg : G (.init sessionId)) (hframe : G (.frame (.joinInitialized sessionId manifests))) :
    Does cfg t G e (e.joinSession t sessionId manifests) :=
  (does_storageCall _ _ (.single (.init _ _ hg))).andThen hframe fun _ => trivial

theorem changes_sessionId (sessionId : Option SessionId) :
    Changes t G e { e with sessionId := sessionId } :=
  .single (.minor e _ _ _ _ _ sessionId)

theorem does_joinInitialized (sessionId : SessionId) (manifests : List FileManifest)
    (outcome : Except Failure Value) (hg : G (.frame (.joinLoaded sessionId manifests))) :
    Does cfg t G e (e.joinInitialized t sessionId manifests outcome) := by
  unfold joinInitialized
  split
  · exact .stop e _
  · exact .after (changes_sessionId (some sessionId))
      ((does_storageCall _ _ (.single (.load _ _))).andThen hg fun _ => trivial)

theorem does_joinLoaded (sessionId : SessionId) (manifests : List FileManifest)
    (outcome : Except Failure Value)
    (hg : ∀ state merged, outcome = .ok (.state state) →
      mergeManifests ((state.map (·.manifests)).getD []) manifests = .ok merged →
      (∀ m ∈ merged, G (.register m)) ∧ Grant.joining sessionId merged ≤ G) :
    Does cfg t G e (e.joinLoaded t sessionId manifests outcome) := by
  unfold joinLoaded
  split
  · exact .stop e _
  · split
    · exact .stop e _
    · split
      · exact .stop e _
      · rename_i state _ _ _ merged hmerged
        obtain ⟨hregister, hjoin⟩ := hg state merged rfl hmerged
        exact .after (changes_registerManifests merged hregister) (does_joinLoop _ _ _ hjoin)
  · exact .stop e _

theorem does_joinRestored (sessionId : SessionId) (merged : List FileManifest) (f : FileId)
    (pending : List PieceMap) (outcome : Except Failure Value)
    (hg : ∀ result, outcome = .ok (.restored result) →
      G (.install f result.manager) ∧ Grant.joining sessionId merged ≤ G) :
    Does cfg t G e (e.joinRestored t sessionId merged f pending outcome) := by
  unfold joinRestored
  split
  · exact .stop e _
  · rename_i result
    obtain ⟨hinstall, hjoin⟩ := hg result rfl
    exact .after (.single (.install e f result.manager hinstall)) (does_joinLoop _ _ _ hjoin)
  · exact .stop e _

theorem does_createLoop (input : CreateInput) (manifests : List FileManifest) (files : List Blob)
    (hg : Grant.creating ≤ G) : Does cfg t G e (e.createLoop cfg t input manifests files) := by
  cases files with
  | nil => exact does_persistState.andThen (hg (.frame _) (.inr ⟨_, _, rfl⟩)) fun _ => trivial
  | cons file files => exact .await .refl _ (hg (.frame _) (.inl ⟨_, _, _, _, rfl⟩)) trivial

theorem does_createSession (input : CreateInput) (files : List Blob)
    (hg : G (.init input.sessionId)) (hframe : G (.frame (.createInitialized input files))) :
    Does cfg t G e (e.createSession t input files) :=
  (does_storageCall _ _ (.single (.init _ _ hg))).andThen hframe fun _ => trivial

theorem does_createInitialized (input : CreateInput) (files : List Blob)
    (outcome : Except Failure Value) (hg : Grant.creating ≤ G) :
    Does cfg t G e (e.createInitialized cfg t input files outcome) := by
  unfold createInitialized
  split
  · exact .stop e _
  · exact .after (changes_sessionId (some input.sessionId)) (does_createLoop _ _ _ hg)

theorem does_createHashed (input : CreateInput) (file : Blob) (files : List Blob)
    (manifests : List FileManifest) (outcome : Except Failure Value)
    (hg : ∀ manifest, outcome = .ok (.manifest manifest) →
      G (.register manifest) ∧ G .source ∧ Grant.creating ≤ G) :
    Does cfg t G e (e.createHashed cfg t input file files manifests outcome) := by
  unfold createHashed
  split
  · exact .stop e _
  · rename_i manifest
    obtain ⟨hregister, hsource, hcreate⟩ := hg manifest rfl
    have hregistered : Changes t G e (e.registerManifest manifest) :=
      .single (.register e manifest hregister)
    exact .after (hregistered.tail (.source _ manifest.fileId file hsource))
      (does_createLoop _ _ _ hcreate)
  · exact .stop e _

theorem does_flushDirectLifecycle
    (hg : ∀ p ∈ e.outstandingRequests.entries, Grant.retire p.1 ≤ G)
    (hframe : ∀ windows, G (.frame (.flushed windows))) :
    Does cfg t G e (e.flushDirectLifecycle cfg t) := by
  unfold flushDirectLifecycle
  have hexpire : Changes t G e
      (expireDirectRequests cfg t t.clock e.outstandingRequests.entries e).1 :=
    changes_expireDirectRequests _ _ hg
  split
  · rename_i e1 err he
    rw [he] at hexpire
    exact .done hexpire _
  · rename_i e1 he
    rw [he] at hexpire
    exact .await hexpire _ (hframe _) trivial

omit [StorageAdapter σ] in
theorem failedWindow_spec {windows : List Nat} {ref : Nat} {w : DirectWindow} {err : Failure}
    (h : e.failedWindow windows = some (ref, w, err)) : e.windowHeap[ref]? = some w := by
  unfold failedWindow at h
  obtain ⟨r, -, hr⟩ := List.exists_of_findSome?_eq_some h
  obtain ⟨w', hw', hmap⟩ := Option.bind_eq_some_iff.1 hr
  obtain ⟨x, -, hx⟩ := Option.map_eq_some_iff.1 hmap
  simp only [Prod.mk.injEq] at hx
  obtain ⟨rfl, rfl, rfl⟩ := hx
  exact hw'

theorem does_flushed (windows : List Nat) : Does cfg t G e (e.flushed cfg windows) := by
  unfold flushed
  split
  · exact .done (changes_prune _) _
  · rename_i ref w err hw
    have hput := changes_putWindow (t := t) (G := G) (failedWindow_spec hw)
      { w with error := none } id (List.suffix_refl _)
    exact .done (hput.trans (changes_prune _)) _

omit [StorageAdapter σ] in
/-- After cancelling everything, the requests that are left were there before. -/
theorem cancelRequests_outstanding (selector : DirectCancelSelector)
    (requests : List (RequestId × OutstandingRequest)) (count : Nat) {x : RequestId}
    {q : OutstandingRequest}
    (h : (cancelRequests cfg t selector requests count e).1.outstandingRequests.get? x = some q) :
    e.outstandingRequests.get? x = some q := by
  induction requests generalizing e count with
  | nil => exact h
  | cons p rest ih =>
    unfold cancelRequests at h
    split at h
    · exact ih count h
    · split at h
      · have hrest : ((e.addDirectTombstone cfg p.1).finalizeDirectRequest cfg t p.1
            .cancelled).1.outstandingRequests.get? x = some q := ih _ h
        rw [(finalizeDirectRequest_fields _ cfg t p.1 .cancelled).2.2] at hrest
        split at hrest
        · exact (OrderedMap.get?_delete_eq_some.1 hrest).2
        · exact hrest
      · exact ih count h

omit [StorageAdapter σ] in
theorem cancelDirectRequests_outstanding {selector : DirectCancelSelector} {x : RequestId}
    {q : OutstandingRequest}
    (h : (e.cancelDirectRequests cfg t selector).1.outstandingRequests.get? x = some q) :
    e.outstandingRequests.get? x = some q := by
  unfold cancelDirectRequests at h
  have hsame := disableWindows_outstanding (e := e) selector e.directWindows.entries
  split at h
  · rename_i e1 err he
    rw [he] at hsame
    exact hsame ▸ h
  · rename_i e1 he
    rw [he] at hsame
    exact hsame ▸ cancelRequests_outstanding selector _ 0 h

theorem does_dispose
    (hg : ∀ p ∈ e.outstandingRequests.entries, Grant.retire p.1 ≤ G)
    (hcancel : Grant.cancel ⟨none, none, none, none, none⟩ e.outstandingRequests.entries ≤ G)
    (hframe : ∀ windows, G (.frame (.flushed windows))) (hflush : G (.frame .disposeFlushed)) :
    Does cfg t G e (e.dispose cfg t) := by
  unfold dispose
  split
  · exact does_flushDirectLifecycle hg hframe
  · have hcancelled : Changes t G e
        (e.cancelDirectRequests cfg t ⟨none, none, none, none, none⟩).1 :=
      changes_cancelDirectRequests _ hcancel
    split
    · rename_i e1 err he
      rw [he] at hcancelled
      exact .done hcancelled _
    · rename_i e1 n he
      rw [he] at hcancelled
      refine .after hcancelled (Does.andThen (does_flushDirectLifecycle ?_ hframe) hflush
        fun _ => trivial)
      intro p hp
      have hleft := OrderedMap.mem_entries_iff.1 hp
      have hold : e.outstandingRequests.get? p.1 = some p.2 :=
        cancelDirectRequests_outstanding (by rw [he]; exact hleft)
      exact hg p (OrderedMap.mem_entries_iff.2 hold)

theorem does_disposeFlushed (outcome : Except Failure Value)
    (hg : ∀ v, outcome = .ok v → G .dispose) : Does cfg t G e (e.disposeFlushed outcome) := by
  unfold disposeFlushed
  split
  · exact .stop e _
  · exact .done (.single (.dispose e (hg _ rfl))) _

theorem does_messageHandled (outcome : Except Failure Value) :
    Does cfg t G e (e.messageHandled outcome) := by
  unfold messageHandled
  split
  · exact .done (changes_emit _) _
  · exact .stop e _

theorem changes_timerFired (requestId : RequestId) (windowKey : String)
    (hg : Grant.retire requestId ≤ G) :
    Changes t G e (e.timerFired cfg t requestId windowKey) := by
  unfold timerFired
  split
  · split
    · exact .refl
    · rename_i e1 he1
      exact changes_expireDirectRequest hg he1
  · exact changes_enqueueWindow _ _ (by intro k hk; cases hk)

end Engine

end PonsWarp.Core
