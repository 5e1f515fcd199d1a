import PonsWarp.Core.Deliveries
import PonsWarp.Core.Registration

set_option autoImplicit false

/-!
The piece maps an engine exports. Each is made from the state the engine is in before
the stretch that exports it, under the next generation of its file; as long as the
manifests are sound and keep their number of pieces, every table takes it.
-/

namespace PonsWarp.Core

open PonsWarp.Data

/-- The piece map that an effect sends. -/
def Effect.map? : Effect → Option PieceMapBroadcast
  | .send _ (.PIECE_MAP map) _ => some map
  | _ => none

/-- The piece maps that `exportPieceMapBroadcast` makes in a step, for its caller or for the
peers they are sent to. -/
def World.exported {σ : Type} [StorageAdapter σ] (cfg : Config) (w : World σ)
    (x : Turn × Action) : List PieceMapBroadcast :=
  (match x.2 with
    | .call (.exportPieceMapBroadcast f) =>
      (w.engine.exportPieceMapBroadcast x.1 f).2.toOption.toList
    | .call (.broadcastPieceMap f _) => (w.engine.exportPieceMapBroadcast x.1 f).2.toOption.toList
    | _ => []) ++
  ((w.step cfg x).engine.log.drop w.engine.log.length).filterMap Effect.map?

namespace Engine

variable {σ : Type} {e e' : Engine σ} {cfg : Config} {t : Turn}

/-- What an export reads is the same. -/
structure SameMaps (e e' : Engine σ) : Prop where
  heap : e'.heap = e.heap
  managers : e'.managers = e.managers
  manifests : e'.manifests = e.manifests
  generations : e'.localPieceMapGenerations = e.localPieceMapGenerations

theorem SameMaps.refl (e : Engine σ) : SameMaps e e := ⟨rfl, rfl, rfl, rfl⟩

theorem SameMaps.trans {e'' : Engine σ} (h : SameMaps e e') (h' : SameMaps e' e'') :
    SameMaps e e'' :=
  ⟨h'.heap.trans h.heap, h'.managers.trans h.managers, h'.manifests.trans h.manifests,
    h'.generations.trans h.generations⟩

/-- What an export answers. -/
theorem exportPieceMapBroadcast_eq_ok {f : FileId} {map : PieceMapBroadcast} :
    (e.exportPieceMapBroadcast t f).2 = .ok map ↔
      ∃ ref manifest, e.managers.get? f = some ref ∧ e.manifests.get? f = some manifest ∧
        map = ⟨f, ((e.managerAt ref).getVerifiedPieces.insertionSort (· ≤ ·)).map
          fun (i : Nat) => (i : Number), manifest.pieceCount,
          ((e.localPieceMapGenerations.get? f).getD 0 + 1 : Nat), t.now⟩ := by
  unfold exportPieceMapBroadcast requireManager
  cases href : e.managers.get? f with
  | none => simp
  | some ref =>
    simp only [requireManifest]
    cases hm : e.manifests.get? f with
    | none => simp
    | some manifest => simp [managerAt, eq_comm]

theorem SameMaps.export (h : SameMaps e e') {f : FileId} {map : PieceMapBroadcast}
    (hmap : (e'.exportPieceMapBroadcast t f).2 = .ok map) :
    (e.exportPieceMapBroadcast t f).2 = .ok map := by
  obtain ⟨ref, manifest, href, hm, rfl⟩ := exportPieceMapBroadcast_eq_ok.1 hmap
  rw [h.managers] at href
  rw [h.manifests] at hm
  refine exportPieceMapBroadcast_eq_ok.2 ⟨ref, manifest, href, hm, ?_⟩
  simp only [managerAt, h.heap, h.generations]

/-- A successful export counts the generation of its file up, and does no more. -/
theorem exportPieceMapBroadcast_fst {f : FileId} {map : PieceMapBroadcast}
    (h : (e.exportPieceMapBroadcast t f).2 = .ok map) :
    (e.exportPieceMapBroadcast t f).1 = { e with
      localPieceMapGenerations := e.localPieceMapGenerations.set f
        ((e.localPieceMapGenerations.get? f).getD 0 + 1) } := by
  obtain ⟨ref, manifest, href, hm, -⟩ := exportPieceMapBroadcast_eq_ok.1 h
  simp [exportPieceMapBroadcast, requireManager, href, requireManifest, hm]

theorem sameMaps_finalizeDirectRequest (requestId : RequestId) (status : DirectTerminalReason) :
    SameMaps e (e.finalizeDirectRequest cfg t requestId status).1 := by
  unfold finalizeDirectRequest
  split
  · exact .refl e
  · split
    · exact .refl e
    · simp only
      split
      · split
        · exact ⟨rfl, rfl, rfl, rfl⟩
        · unfold enqueueWindow
          split
          · split <;> exact ⟨rfl, rfl, rfl, rfl⟩
          · exact ⟨rfl, rfl, rfl, rfl⟩
      · split
        · split
          · split <;> exact ⟨rfl, rfl, rfl, rfl⟩
          · exact ⟨rfl, rfl, rfl, rfl⟩
        · exact ⟨rfl, rfl, rfl, rfl⟩

theorem sameMaps_finalizeOrDelete (requestId : RequestId) (status : DirectTerminalReason) :
    SameMaps e (e.finalizeOrDelete cfg t requestId status) := by
  have hfinal : SameMaps e (e.finalizeDirectRequest cfg t requestId status).1 :=
    sameMaps_finalizeDirectRequest requestId status
  unfold finalizeOrDelete
  cases h : e.finalizeDirectRequest cfg t requestId status with
  | mk e1 finalized =>
    rw [h] at hfinal
    simp only
    split
    · exact hfinal
    · exact hfinal.trans ⟨rfl, rfl, rfl, rfl⟩

theorem sameMaps_cancelCompeting (f : FileId) (i : Nat) (keep : RequestId)
    (requests : List (RequestId × OutstandingRequest)) :
    SameMaps e (cancelCompeting t f i keep requests e).1 := by
  induction requests generalizing e with
  | nil => exact .refl e
  | cons p rest ih =>
    unfold cancelCompeting
    simp only
    split
    · exact ih
    · split
      · exact ⟨ih.heap, ih.managers, ih.manifests, ih.generations⟩
      · exact ⟨rfl, rfl, rfl, rfl⟩

variable [StorageAdapter σ]

theorem filterMap_map?_of_speaks {G : Grant} {l : List Effect} (h : G.speaks l)
    (hG : ∀ x, G (.effect x) → x.map? = none) : l.filterMap Effect.map? = [] := by
  refine List.filterMap_eq_nil_iff.2 fun x hx => ?_
  obtain ⟨event, rfl⟩ | hg := h x hx
  · rfl
  · exact hG x hg

/-- The engine after a stretch that exports the map of a file at most once, and sends no
other map. -/
structure Exports (e : Engine σ) (t : Turn) (f : FileId) (e' : Engine σ) : Prop where
  log : ∃ l, e'.log = e.log ++ l ∧ ∀ map ∈ l.filterMap Effect.map?,
    (e.exportPieceMapBroadcast t f).2 = .ok map ∧
      e'.localPieceMapGenerations = (e.exportPieceMapBroadcast t f).1.localPieceMapGenerations

omit [StorageAdapter σ] in
theorem Exports.of_silent {f : FileId} {l : List Effect} (hlog : e'.log = e.log ++ l)
    (hl : l.filterMap Effect.map? = []) : e.Exports t f e' :=
  ⟨l, hlog, by simp [hl]⟩

omit [StorageAdapter σ] in
/-- An export after changes that send no map and leave what it reads. -/
theorem Exports.after {e1 : Engine σ} {f : FileId} {l : List Effect} (hlog : e1.log = e.log ++ l)
    (hl : l.filterMap Effect.map? = []) (hsame : SameMaps e e1) (h : e1.Exports t f e') :
    e.Exports t f e' := by
  obtain ⟨more, hmore, hmaps⟩ := h.log
  refine ⟨l ++ more, by rw [hmore, hlog, List.append_assoc], fun map hmap => ?_⟩
  rw [List.filterMap_append, hl, List.nil_append] at hmap
  obtain ⟨hexport, hgenerations⟩ := hmaps map hmap
  have hexport' := hsame.export hexport
  refine ⟨hexport', ?_⟩
  rw [hgenerations, exportPieceMapBroadcast_fst hexport, exportPieceMapBroadcast_fst hexport']
  simp only [hsame.generations]

omit [StorageAdapter σ] in
theorem log_exportPieceMapBroadcast (e : Engine σ) (t : Turn) (f : FileId) :
    (e.exportPieceMapBroadcast t f).1.log = e.log := by
  unfold exportPieceMapBroadcast
  split
  · rfl
  · simp only
    split <;> rfl

omit [StorageAdapter σ] in
theorem generations_broadcastPieceMap (e : Engine σ) (t : Turn) (f : FileId)
    (peers : List PeerId) : (e.broadcastPieceMap t f peers).1.localPieceMapGenerations =
      (e.exportPieceMapBroadcast t f).1.localPieceMapGenerations := by
  unfold broadcastPieceMap
  split
  · rename_i h
    rw [h]
  · rename_i h
    rw [h]
    split <;> rfl

omit [StorageAdapter σ] in
/-- What `broadcastPieceMap` sends is the map it exports. -/
theorem exports_broadcastPieceMap (f : FileId) (peers : List PeerId) :
    e.Exports t f (e.broadcastPieceMap t f peers).1 := by
  have hgenerations := generations_broadcastPieceMap e t f peers
  have hlog := log_exportPieceMapBroadcast e t f
  unfold broadcastPieceMap at hgenerations ⊢
  split
  · rename_i e1 err h
    rw [h] at hlog
    exact .of_silent (l := []) (by simpa using hlog) rfl
  · rename_i e1 map h
    rw [h] at hlog
    simp only [h] at hgenerations
    split
    · rename_i htransport
      rw [if_pos htransport] at hgenerations
      refine ⟨peers.map fun p => Effect.send p (.PIECE_MAP map) (t.sendFailure p), by
        rw [← hlog], fun map' hmap' => ?_⟩
      obtain ⟨x, hx, hmap'⟩ := List.mem_filterMap.1 hmap'
      obtain ⟨p, -, rfl⟩ := List.mem_map.1 hx
      cases hmap'
      rw [h]
      exact ⟨rfl, hgenerations⟩
    · exact .of_silent (l := []) (by simpa using hlog) rfl

omit [StorageAdapter σ] in
theorem exports_filePersisted (f : FileId) (result : ResumeRestoreResult)
    (outcome : Except Failure Value) :
    e.Exports t f (e.filePersisted t f result outcome).1 := by
  unfold filePersisted
  split
  · exact .of_silent (l := []) (by simp) rfl
  · split
    · exact .of_silent (l := []) (by simp) rfl
    · exact exports_broadcastPieceMap f e.knownPeers

/-- The piece map that follows a verified piece is made after its rivals are cancelled. -/
theorem exports_piecePersisted (r : Receipt) (outstanding : Option OutstandingRequest)
    (v : Value) : e.Exports t r.fileId (e.piecePersisted cfg t r outstanding (.ok v)).1 := by
  have hfinal : Changes t (Grant.retire r.requestId ⊔ Grant.lose r.requestId) e
      (e.finalizeOrDelete cfg t r.requestId .verified) :=
    changes_finalizeOrDelete _ _ le_sup_left (.inr (.inr rfl))
  obtain ⟨l1, hl1, hspeaks1⟩ := hfinal.log
  have hquiet1 : l1.filterMap Effect.map? = [] :=
    filterMap_map?_of_speaks hspeaks1 fun x hx => (show False ∨ False from hx).elim
      False.elim False.elim
  have hsame1 : SameMaps e (e.finalizeOrDelete cfg t r.requestId .verified) :=
    sameMaps_finalizeOrDelete r.requestId .verified
  unfold piecePersisted
  simp only
  generalize e.finalizeOrDelete cfg t r.requestId .verified = e1 at hl1 hsame1 ⊢
  have hcancel : Changes t (Grant.compete t r.fileId r.pieceIndex r.requestId
      e1.outstandingRequests.entries ⊔ fun label => ∃ x, label = .lose x) e1
      (e1.cancelCompetingGridRequests t r.fileId r.pieceIndex r.requestId).1 :=
    changes_cancelCompetingGridRequests le_sup_left (.inr fun x _ => .inr ⟨x, rfl⟩)
  obtain ⟨l2, hl2, hspeaks2⟩ := hcancel.log
  have hquiet2 : l2.filterMap Effect.map? = [] := by
    refine filterMap_map?_of_speaks hspeaks2 fun x hx => ?_
    obtain ⟨p, requestId, rfl⟩ | ⟨y, hy⟩ := hx
    · rfl
    · cases hy
  have hsame2 : SameMaps e1 (e1.cancelCompetingGridRequests t r.fileId r.pieceIndex
      r.requestId).1 := sameMaps_cancelCompeting _ _ _ _
  refine Exports.after hl1 hquiet1 hsame1 ?_
  split
  · rename_i e2 err h
    rw [h] at hl2
    exact .of_silent hl2 hquiet2
  · rename_i e2 h
    rw [h] at hl2 hsame2
    refine Exports.after hl2 hquiet2 hsame2 ?_
    split
    · exact .of_silent (l := [.emit (.pieceVerified r.fileId r.pieceIndex)]) rfl rfl
    · exact exports_broadcastPieceMap r.fileId e2.knownPeers

end Engine

theorem Engine.announces_map {t : Turn} {f : FileId} {p : PeerId} {map : PieceMapBroadcast}
    {failure : Option Failure}
    (h : Engine.announces t f (.send p (.PIECE_MAP map) failure)) : map.fileId = f := by
  obtain ⟨q, map', heq, hf⟩ := h
  cases heq
  exact hf

/-- Of the continuations, only two announce a piece map. -/
theorem Frame.grant_map {σ : Type} {e : Engine σ} {t : Turn} {frame : Frame}
    {outcome : Except Failure Value} {p : PeerId} {map : PieceMapBroadcast}
    {failure : Option Failure}
    (h : frame.grant e t outcome (.effect (.send p (.PIECE_MAP map) failure))) :
    (∃ r outstanding v, frame = .piecePersisted r outstanding ∧ outcome = .ok v ∧
      map.fileId = r.fileId) ∨
    ∃ f result, frame = .filePersisted f result ∧ map.fileId = f := by
  unfold Frame.grant at h
  split at h
  all_goals first
    | exact (show False from h).elim
    | (simp [Grant.only, Grant.filling, Grant.joined, Grant.request, Grant.joining, asksFor,
        Grant.creating, Grant.grid, Grant.gridLoop, Grant.retire, Grant.lose,
        Grant.upload] at h; done)
    | skip
  case _ r outstanding v =>
    obtain ⟨q, requestId, heq⟩ | hannounce := h
    · cases heq
    · exact .inl ⟨r, outstanding, v, rfl, rfl, Engine.announces_map hannounce⟩
  case _ f result =>
    obtain hannounce | hframe := h
    · exact .inr ⟨f, result, rfl, Engine.announces_map hannounce⟩
    · cases hframe
  case _ =>
    obtain heffect | hframe := h
    · simp only [Grant.only, Label.effect.injEq, Effect.send.injEq, Engine.responseTo] at heffect
      split at heffect <;> simp at heffect
    · cases hframe
  case _ q header manager outstanding finalized =>
    obtain hagain | hframe := h
    · generalize outstanding.bind (·.gridOptions) = options at hagain
      cases options <;> simp [Grant.again, Grant.grid, Grant.request, asksFor] at hagain
    · cases hframe

/-- Apart from `broadcastPieceMap` itself, only those continuations send a piece map. -/
theorem World.grant_map {σ : Type} [StorageAdapter σ] {w : World σ} {t : Turn} {a : Action}
    {p : PeerId} {map : PieceMapBroadcast} {failure : Option Failure}
    (h : w.grant (t, a) (.effect (.send p (.PIECE_MAP map) failure))) :
    (∃ f peers, a = .call (.broadcastPieceMap f peers)) ∨ ∃ i, a = .resume i := by
  cases a with
  | resume i => exact .inr ⟨i, rfl⟩
  | call c =>
    cases c with
    | broadcastPieceMap f peers => exact .inl ⟨f, peers, rfl⟩
    | _ =>
      simp [grant, Call.grant, Grant.only, Grant.request, asksFor, Grant.grid, Grant.gridLoop,
        Grant.receive, Grant.restoring, Grant.cancel, Grant.compete, Grant.expiring, Grant.retire,
        Grant.leases, Grant.map] at h
  | message q m =>
    obtain hframe | ⟨m, -, hm⟩ := h
    · cases hframe
    · obtain ⟨-, hl⟩ | ⟨-, map, -, hl⟩ | ⟨-, header, -, -, -, ⟨-, hl⟩ | ⟨previous, -, -, hl⟩⟩ |
        ⟨-, requestId, f, i, -, -, -, hl⟩ | ⟨-, requestId, -, hl⟩ | ⟨-, requestId, -, q', -, -, hl⟩ := hm
      · cases hl
      · exact hl.elim
      · cases hl
      · cases hl
      · exact hl.elim
      · cases hl
      · obtain hl | hagain := hl
        · exact hl.elim
        · generalize q'.gridOptions = options at hagain
          cases options <;> simp [Grant.again, Grant.grid, Grant.request, asksFor] at hagain
  | binary q data =>
    obtain hframe | ⟨header, -, -, hreject⟩ := h
    · cases hframe
    · cases hreject
  | window ref =>
    obtain ⟨track, hframe⟩ | ⟨window, job, rest, -, -, -, hjob⟩ := h
    · cases hframe
    · cases job with
      | fill q f windowKey options =>
        obtain hask | hframe := hjob
        · simp [Grant.request, asksFor] at hask
        · cases hframe
      | retry requestId request direct => simp [Grant.windowJob, Grant.request, asksFor] at hjob
      | expire requestId => exact hjob.elim
  | upload q => simp [grant, Grant.upload] at h
  | timer k =>
    obtain ⟨requestId, windowKey, -, hretire⟩ := h
    exact hretire.elim

section

variable {σ : Type} [StorageAdapter σ] {cfg : Config} {w : World σ} {t : Turn}

/-- A stretch that is granted no piece map sends none. -/
theorem World.silent {a : Action} (h : ∀ p map failure,
    ¬ w.grant (t, a) (.effect (.send p (.PIECE_MAP map) failure))) :
    ((w.step cfg (t, a)).engine.log.drop w.engine.log.length).filterMap Effect.map? = [] := by
  obtain ⟨l, hl, hspeaks⟩ := (World.step_spec cfg w t a).changes.log
  rw [hl, List.drop_left]
  refine Engine.filterMap_map?_of_speaks hspeaks fun x hx => ?_
  cases x with
  | send p m failure =>
    cases m with
    | PIECE_MAP map => exact absurd hx (h p map failure)
    | _ => rfl
  | _ => rfl

/-- What a step exports is made from the state before it, and counts a generation. -/
theorem World.exported_spec {x : Turn × Action} {map : PieceMapBroadcast}
    (h : map ∈ w.exported cfg x) :
    (w.engine.exportPieceMapBroadcast x.1 map.fileId).2 = .ok map ∧
      (w.step cfg x).engine.localPieceMapGenerations =
        (w.engine.exportPieceMapBroadcast x.1 map.fileId).1.localPieceMapGenerations := by
  have hfile : ∀ {f}, (w.engine.exportPieceMapBroadcast x.1 f).2 = .ok map → map.fileId = f := by
    intro f hf
    obtain ⟨ref, manifest, -, -, rfl⟩ := Engine.exportPieceMapBroadcast_eq_ok.1 hf
    rfl
  have hexports : ∀ f, w.engine.Exports x.1 f (w.step cfg x).engine →
      map ∈ ((w.step cfg x).engine.log.drop w.engine.log.length).filterMap Effect.map? →
      (w.engine.exportPieceMapBroadcast x.1 map.fileId).2 = .ok map ∧
        (w.step cfg x).engine.localPieceMapGenerations =
          (w.engine.exportPieceMapBroadcast x.1 map.fileId).1.localPieceMapGenerations := by
    intro f hf hmap
    obtain ⟨l, hl, hmaps⟩ := hf.log
    rw [hl, List.drop_left] at hmap
    rw [hfile (hmaps map hmap).1]
    exact hmaps map hmap
  have hanswer : ∀ {f}, map ∈ (w.engine.exportPieceMapBroadcast x.1 f).2.toOption.toList →
      (w.engine.exportPieceMapBroadcast x.1 f).2 = .ok map := by
    intro f hf
    cases hresult : (w.engine.exportPieceMapBroadcast x.1 f).2 with
    | error err => simp [hresult, Except.toOption] at hf
    | ok map' => simpa [hresult, Except.toOption, eq_comm] using hf
  obtain ⟨t, a⟩ := x
  obtain hcall | hsent := List.mem_append.1 h
  · -- the map is handed to the caller of the export
    cases a with
    | call c =>
      cases c with
      | exportPieceMapBroadcast f =>
        obtain rfl := hfile (hanswer hcall)
        exact ⟨hanswer hcall, by
          simp only [step, spawn, Engine.call, Engine.settled]
          split <;> rename_i heq <;> rw [heq]⟩
      | broadcastPieceMap f peers =>
        obtain rfl := hfile (hanswer hcall)
        exact ⟨hanswer hcall, Engine.generations_broadcastPieceMap _ _ _ _⟩
      | _ => cases hcall
    | _ => cases hcall
  · -- the map is sent
    by_cases hgrant : ∀ p map failure,
        ¬ w.grant (t, a) (.effect (.send p (.PIECE_MAP map) failure))
    · rw [World.silent hgrant] at hsent
      cases hsent
    · simp only [not_forall, not_not] at hgrant
      obtain ⟨p, map', failure, hgrant⟩ := hgrant
      obtain ⟨f, peers, rfl⟩ | ⟨i, rfl⟩ := World.grant_map hgrant
      · exact hexports f (Engine.exports_broadcastPieceMap f peers) hsent
      · obtain ⟨pending, frame, below, outcome, hi, ho, hframe⟩ := hgrant
        have hengine : (w.step cfg (t, .resume i)).engine =
            (w.engine.resume cfg t outcome frame).1 := by
          simp only [step, resumeTask, hi, ho]
        obtain ⟨r, outstanding, v, rfl, rfl, -⟩ | ⟨f, result, rfl, -⟩ := Frame.grant_map hframe
        · exact hexports r.fileId (hengine ▸ Engine.exports_piecePersisted r outstanding v) hsent
        · exact hexports f (hengine ▸ Engine.exports_filePersisted f result outcome) hsent

end

end PonsWarp.Core
