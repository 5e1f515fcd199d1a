import PonsWarp.Core.ReceiptChanges

set_option autoImplicit false

/-!
The stretches that answer a peer: the handler of control messages and the
upload of the pieces it asked for.
-/

namespace PonsWarp.Core

open PonsWarp.Data

/-- The continuations of an upload to a peer. -/
def Frame.uploadsTo (p : PeerId) : Frame → Prop
  | .sourceRead q _ _ => q = p
  | .storedRead q _ _ => q = p
  | .headerSent upload => upload.peerId = p
  | .binarySent upload => upload.peerId = p
  | .uploadJob q => q = p
  | _ => False

/-- What sending a peer the pieces it asked for may do. -/
def Grant.upload (t : Turn) (p : PeerId) : Grant
  | .effect x => (∃ h, x = .send p (.PIECE_CHUNK_HEADER h) (t.sendFailure p)) ∨
      (∃ frame, x = .sendBinary p frame (t.sendFailure p)) ∨
      ∃ f i requestId reason, x = .send p (.PIECE_REJECT f i requestId reason none) (t.sendFailure p)
  | .frame fr => fr.uploadsTo p
  | .uploads => True
  | _ => False

/-- What a chunk header may do: it waits for its frame, or clashes with one that does. -/
def Grant.headed {σ : Type} (e : Engine σ) (t : Turn) (p : PeerId) (h : PieceChunkHeaderMessage) :
    Grant := fun label =>
  (∃ active, e.outstandingRequests.get? h.requestId = some active ∧ active.peerId = p ∧
    active.fileId = h.fileId ∧ active.pieceIndex = h.pieceIndex) ∧
  h.requestId ∉ e.directTombstones ∧
  ((e.pendingChunks.get? p = none ∧ label = .header p h) ∨
    ∃ previous, e.pendingChunks.get? p = some previous ∧ previous.same h = false ∧
      Grant.reject e t p h label)

/-- What an acknowledgement may do. -/
def Grant.ack {σ : Type} (e : Engine σ) (p : PeerId) (requestId : RequestId) (f : FileId)
    (pieceIndex : Number) : Grant
  | .lose x => x = requestId ∧ ∃ q, e.outstandingRequests.get? requestId = some q ∧ q.peerId = p ∧
      q.fileId = f ∧ (q.pieceIndex : Number) = pieceIndex
  | label => Grant.retire requestId label

/-- What the reject of a provider may do. -/
def Grant.rejected {σ : Type} (e : Engine σ) (t : Turn) (p : PeerId) (requestId : RequestId) :
    Grant := fun label =>
  ∃ q, e.outstandingRequests.get? requestId = some q ∧ q.peerId = p ∧
    (Grant.retire requestId label ∨ Grant.again e t q.peerId q.fileId q.gridOptions label)

/-- What a control message may do. -/
def Grant.message {σ : Type} (e : Engine σ) (t : Turn) (p : PeerId) (m : WireMessage) : Grant :=
  fun label =>
    (m.type = "PIECE_REQUEST" ∧ label = .uploads) ∨
    (m.type = "PIECE_MAP" ∧ ∃ map, m.parsePieceMapBroadcast = .ok map ∧ Grant.map e.availability map label) ∨
    (m.type = "PIECE_CHUNK_HEADER" ∧ ∃ h, m.parseChunkHeader = .ok (some h) ∧
      Grant.headed e t p h label) ∨
    (m.type = "PIECE_ACK" ∧ ∃ requestId f i, m.requestId = some requestId ∧ m.fileId = some f ∧
      m.pieceIndex = some i ∧ Grant.ack e p requestId f i label) ∨
    (m.type = "PIECE_CANCEL" ∧ ∃ requestId, m.requestId = some requestId ∧
      label = .tombstone requestId) ∨
    (m.type = "PIECE_REJECT" ∧ ∃ requestId, m.requestId = some requestId ∧
      Grant.rejected e t p requestId label)

theorem requireStringField_eq_ok {field : Option String} {key s : String} :
    requireStringField field key = .ok s ↔ field = some s ∧ s ≠ "" := by
  unfold requireStringField
  cases field with
  | none => simp
  | some x =>
    by_cases hx : x = ""
    · subst hx
      simp only [if_true, reduceCtorEq, Option.some.injEq, ne_eq, false_iff, not_and, not_not]
      exact fun h => h.symm
    · simp only [if_neg hx, Except.ok.injEq, Option.some.injEq, ne_eq]
      constructor
      · rintro rfl
        exact ⟨rfl, hx⟩
      · exact fun h => h.1

theorem requireNumberField_eq_ok {field : Option Number} {key : String} {x : Number} :
    requireNumberField field key = .ok x ↔ field = some x := by
  unfold requireNumberField
  cases field <;> simp

namespace Engine

variable {σ : Type} [StorageAdapter σ] {e e' : Engine σ} {cfg : Config} {t : Turn} {G : Grant}

theorem does_handleChunkHeader (p : PeerId) (h : PieceChunkHeaderMessage)
    (hg : Grant.headed e t p h ≤ G) : Does cfg t G e (e.handleChunkHeader cfg t p h) := by
  unfold handleChunkHeader
  split
  · exact .stop e _
  · rename_i active hactive
    split
    · exact .stop e _
    · rename_i hmatch
      simp only [not_or, not_not] at hmatch
      obtain ⟨hpeer, hfile, hindex, htomb⟩ := hmatch
      have hactive' : ∃ active, e.outstandingRequests.get? h.requestId = some active ∧
          active.peerId = p ∧ active.fileId = h.fileId ∧ active.pieceIndex = h.pieceIndex :=
        ⟨active, hactive, hpeer, hfile, hindex⟩
      split
      · rename_i previous hprevious
        split
        · exact .stop e _
        · rename_i hsame
          refine does_rejectIncomingChunk p h fun label hl => hg label ⟨hactive', htomb, .inr ?_⟩
          exact ⟨previous, hprevious, by simpa using hsame, hl⟩
      · rename_i hnone
        refine .done (.single (.headers e _ ?_ ?_)) _
        · intro q x hx
          rw [OrderedMap.get?_set] at hx
          split at hx
          · rename_i hq
            cases hx
            exact .inr (hq ▸ hg (.header p h) ⟨hactive', htomb, .inl ⟨hnone, rfl⟩⟩)
          · exact .inl hx
        · intro q x hx
          have hq : q ≠ p := by
            rintro rfl
            rw [hnone] at hx
            cases hx
          exact .inl (by rw [OrderedMap.get?_set_of_ne _ _ hq]; exact hx)

theorem does_handleAck (p : PeerId) (requestId : RequestId) (f : FileId) (pieceIndex : Number)
    (hg : Grant.ack e p requestId f pieceIndex ≤ G) :
    Does cfg t G e (e.handleAck cfg t p requestId f pieceIndex) := by
  have hretire : Grant.retire requestId ≤ G := by
    intro label hl
    cases label with
    | lose => cases hl
    | _ => exact hg _ hl
  unfold handleAck
  split
  · rename_i hnone
    exact .done (changes_finalizeOrDelete _ _ hretire (.inl (restored_of_none hnone))) _
  · rename_i q hq
    split
    · exact .stop e _
    · rename_i hmatch
      simp only [not_or, not_not] at hmatch
      obtain ⟨hpeer, hfile, hindex⟩ := hmatch
      refine .done ?_ _
      refine Relation.ReflTransGen.trans ?_ (changes_finalizeOrDelete _ _ hretire
        (.inr (hg (.lose _) ⟨rfl, q, hq, hpeer, hfile, hindex⟩)))
      exact (changes_release _ _ _).trans (changes_health _)

omit [StorageAdapter σ] in
theorem again_le {p : PeerId} {f : FileId} {options : Option GridScheduleOptions}
    (hm : e'.manifests = e.manifests)
    (hl : ∀ f i l, e'.availability.getLease f i = some l → e.availability.getLease f i = some l) :
    Grant.again e' t p f options ≤ Grant.again e t p f options := by
  cases options with
  | none => exact le_rfl
  | some o => exact Grant.grid_le hm hl

theorem does_handleReject (p : PeerId) (requestId : RequestId) (reason : Option String)
    (hg : Grant.rejected e t p requestId ≤ G) :
    Does cfg t G e (e.handleReject cfg t p requestId reason) := by
  unfold handleReject
  split
  · exact .stop e _
  · rename_i q hq
    split
    · exact .stop e _
    · rename_i hpeer
      have hpeer : q.peerId = p := not_not.1 hpeer
      have hretire : Grant.retire requestId ≤ G := fun label hl => hg label ⟨q, hq, hpeer, .inl hl⟩
      have hagain : Grant.again e t q.peerId q.fileId q.gridOptions ≤ G :=
        fun label hl => hg label ⟨q, hq, hpeer, .inr hl⟩
      have hrelease : Changes t G e { e.release q.fileId q.pieceIndex requestId with
          peerHealth := e.peerHealth.markReject cfg.log2 q.peerId } :=
        (changes_release _ _ _).trans (changes_health _)
      simp only
      split
      · exact .done hrelease _
      · rename_i ref href
        have hcurrent : e.managers.get? q.fileId = some ref := requireManager_eq_ok.1 href
        split
        · exact .done hrelease _
        · split
          · exact .done hrelease _
          · rename_i e1 he1
            obtain ⟨m, hm, rfl, hlt⟩ := markFailed_spec he1
            have hfail := hrelease.trans (changes_markFailed (G := G) (t := t) he1
              (.inl (backed_of_get hq hcurrent)))
            have hholds : ∀ e0 : Engine σ, e0.managers = e.managers →
                e0.outstandingRequests = e.outstandingRequests →
                e0.Holds requestId ref q.pieceIndex := by
              intro e0 hm ho q' hq'
              rw [ho, hq] at hq'
              obtain rfl := Option.some.inj hq'
              exact ⟨hm ▸ hcurrent, rfl⟩
            have hrestored := restored_of_markFailed he1 (hholds _ rfl rfl)
            split
            · exact .done (hfail.trans (changes_finalizeDirectRequest _ _ hretire
                (.inl hrestored))) _
            · rename_i hfalse
              have hdrop := hfail.trans (changes_drop requestId (hretire (.drop _) rfl)
                (.inl hrestored))
              rw [finalizeDirectRequest_false (by simpa using hfalse)]
              split
              · exact .done hdrop _
              · split
                · split
                  · exact .done hdrop _
                  · rename_i e2 he2
                    refine .after (hdrop.trans (changes_resetFailedToMissing he2)) ?_
                    obtain ⟨m2, -, rfl⟩ := resetFailedToMissing_spec he2
                    refine does_requestAgain _ _ _ (le_trans (again_le ?_ ?_) hagain)
                    · rfl
                    · exact fun _ _ _ hl => PieceAvailabilityTable.getLease_release_le hl
                · exact .done hdrop _

theorem does_handleTransportMessage (p : PeerId) (message : Option WireMessage)
    (hg : ∀ m, message = some m → Grant.message e t p m ≤ G) :
    Does cfg t G e (e.handleTransportMessage cfg t p message) := by
  unfold handleTransportMessage
  split
  · exact .stop e _
  · rename_i m
    have hg := hg m rfl
    have hknown : Changes t G e { e with knownPeers := insertNew e.knownPeers p } :=
      changes_knownPeers _
    simp only
    split
    · rename_i htype
      split
      · exact .done hknown _
      · exact .done (hknown.tail (.uploads _ _ (hg .uploads (.inl ⟨htype, rfl⟩)))) _
    · split
      · rename_i htype
        split
        · exact .done hknown _
        · rename_i map hmap
          split
          · exact .done hknown _
          · rename_i e1 he1
            refine .done (hknown.trans (changes_updatePeerPieceMap he1 fun label hl => ?_)) _
            exact hg label (.inr (.inl ⟨htype, map, hmap, hl⟩))
      · split
        · rename_i htype
          split
          · exact .done hknown _
          · exact .done hknown _
          · rename_i h hh
            refine .after hknown (does_handleChunkHeader p h fun label hl => ?_)
            exact hg label (.inr (.inr (.inl ⟨htype, h, hh, hl⟩)))
        · split
          · rename_i htype
            split
            · rename_i requestId f i hid hf hi
              refine .after hknown (does_handleAck p requestId f i fun label hl => ?_)
              exact hg label (.inr (.inr (.inr (.inl ⟨htype, requestId, f, i,
                (requireStringField_eq_ok.1 hid).1, (requireStringField_eq_ok.1 hf).1,
                requireNumberField_eq_ok.1 hi, hl⟩))))
            · exact .done hknown _
            · exact .done hknown _
            · exact .done hknown _
          · split
            · rename_i htype
              split
              · exact .done hknown _
              · rename_i requestId hid
                refine .done (hknown.tail (.tombstones _ _ ?_)) _
                intro x hx
                obtain hold | rfl := mem_insertNew.1 hx
                · exact .inl hold
                · exact .inr (hg (.tombstone _) (.inr (.inr (.inr (.inr (.inl
                    ⟨htype, x, (requireStringField_eq_ok.1 hid).1, rfl⟩))))))
            · split
              · rename_i htype
                split
                · exact .done hknown _
                · rename_i requestId hid
                  refine .after hknown (does_handleReject p requestId _ fun label hl => ?_)
                  exact hg label (.inr (.inr (.inr (.inr (.inr
                    ⟨htype, requestId, (requireStringField_eq_ok.1 hid).1, hl⟩)))))
              · exact .done hknown _

theorem does_sendReject (p : PeerId) (request : PieceRequestMessage) (reason : String)
    (hg : Grant.upload t p ≤ G) : Does cfg t G e (e.sendReject t p request reason) :=
  does_send _ _ (hg (.effect _) (.inr (.inr ⟨_, _, _, _, rfl⟩)))

theorem does_sendChunkHeader (u : Upload) (hg : Grant.upload t u.peerId ≤ G) :
    Does cfg t G e (e.sendChunkHeader t u) :=
  (does_send _ _ (hg (.effect _) (.inl ⟨_, rfl⟩))).andThen (hg (.frame _) rfl) fun _ => trivial

theorem does_startUpload (p : PeerId) (request : PieceRequestMessage) (i : Nat)
    (data : ArrayBuffer) (hg : Grant.upload t p ≤ G) :
    Does cfg t G e (e.startUpload t p request i data) :=
  does_sendChunkHeader _ hg

theorem does_sendRequestedPiece (p : PeerId) (request : PieceRequestMessage)
    (hg : Grant.upload t p ≤ G) : Does cfg t G e (e.sendRequestedPiece t p request) := by
  unfold sendRequestedPiece
  split
  · exact .stop e _
  · split
    · exact does_sendReject _ _ _ hg
    · split
      · exact .await .refl _ (hg (.frame _) rfl) trivial
      · split
        · exact does_sendReject _ _ _ hg
        · split
          · exact .stop e _
          · split
            · exact (does_storageCall _ _ (.single (.read _ _ _))).andThen (hg (.frame _) rfl)
                fun _ => trivial
            · exact does_sendReject _ _ _ hg

theorem does_sourceRead (p : PeerId) (request : PieceRequestMessage) (i : Nat)
    (outcome : Except Failure Value) (hg : Grant.upload t p ≤ G) :
    Does cfg t G e (e.sourceRead t p request i outcome) := by
  unfold sourceRead
  split
  · exact .stop e _
  · exact does_startUpload _ _ _ _ hg
  · exact .stop e _

theorem does_storedRead (p : PeerId) (request : PieceRequestMessage) (i : Nat)
    (outcome : Except Failure Value) (hg : Grant.upload t p ≤ G) :
    Does cfg t G e (e.storedRead t p request i outcome) := by
  unfold storedRead
  split
  · exact .stop e _
  · exact does_startUpload _ _ _ _ hg
  · exact does_sendReject _ _ _ hg

theorem does_headerSent (u : Upload) (outcome : Except Failure Value)
    (hg : Grant.upload t u.peerId ≤ G) : Does cfg t G e (e.headerSent t u outcome) := by
  unfold headerSent
  split
  · exact .stop e _
  · exact (does_sendBinary _ _ (hg (.effect _) (.inr (.inl ⟨_, rfl⟩)))).andThen
      (hg (.frame _) rfl) fun _ => trivial

theorem does_binarySent (u : Upload) (outcome : Except Failure Value)
    (hg : Grant.upload t u.peerId ≤ G) : Does cfg t G e (e.binarySent t u outcome) := by
  unfold binarySent
  split
  · exact .stop e _
  · split
    · exact does_sendChunkHeader _ hg
    · exact .stop e _

theorem does_uploadJobEnded (p : PeerId) (outcome : Except Failure Value)
    (hg : Grant.upload t p ≤ G) : Does cfg t G e (e.uploadJobEnded p outcome) := by
  have hqueue : ∀ queues, Changes t G e { e with pieceSendQueues := queues } :=
    fun queues => .single (.uploads e queues (hg .uploads trivial))
  unfold uploadJobEnded
  cases e.pieceSendQueues.get? p with
  | none =>
    cases outcome with
    | error err => exact .done (changes_emit _) _
    | ok v => exact .stop e _
  | some queue =>
    by_cases hjobs : queue.jobs = []
    · simp only [if_pos hjobs]
      cases outcome with
      | error err => exact .done ((hqueue _).trans (changes_emit _)) _
      | ok v => exact .done (hqueue _) _
    · simp only [if_neg hjobs]
      cases outcome with
      | error err => exact .done ((hqueue _).trans (changes_emit _)) _
      | ok v => exact .done (hqueue _) _

theorem does_startUploadJob {p : PeerId} {result : Engine σ × Next}
    (h : e.startUploadJob t p = some result) (hg : Grant.upload t p ≤ G) :
    Does cfg t G e result := by
  unfold startUploadJob at h
  split at h
  · cases h
  · split at h
    · cases h
    · rename_i request rest _
      split at h
      · cases h
      · cases h
        refine .after (.single (.uploads e _ (hg .uploads trivial))) (Does.andThen
          (does_sendRequestedPiece p request hg) (hg (.frame _) rfl) fun _ => trivial)

end Engine

end PonsWarp.Core
