import PonsWarp.Core.Broadcasts
import PonsWarp.Core.Isolation
import PonsWarp.Core.Restores

set_option autoImplicit false

/-!
A piece whose receive has been persisted. No request for it is left, so that only the late
failure of something begun before, a frame that is refused or a restore can take it back.
-/

namespace PonsWarp.Core

open PonsWarp.Data

namespace PieceManager

/-- A piece that is to be had after an update was so before, or is the one updated. -/
theorem mem_getMissingPieces_update {m m' : PieceManager} {i j : Nat}
    {patch : PieceState → PieceState} (hkeep : ∀ s, (patch s).index = s.index)
    (h : m.update i patch = .ok m') (hj : j ∈ m'.getMissingPieces) :
    j ∈ m.getMissingPieces ∨
      (j = i ∧ (m'.status? i = some .missing ∨ m'.status? i = some .failed)) := by
  obtain ⟨s, hs, hs', -, -⟩ := update_spec hkeep h
  obtain ⟨hget, -⟩ := requirePiece_eq_ok.1 hs
  unfold update at h
  simp only [hs, Except.ok.injEq] at h
  subst h
  obtain ⟨x, hx, rfl⟩ := List.mem_map.1 hj
  obtain ⟨hmem, hxst⟩ := List.mem_filter.1 hx
  obtain ⟨k, hk⟩ := List.mem_iff_getElem?.1 hmem
  by_cases hki : k = i
  · subst hki
    obtain rfl : patch s = x := by
      have hlt : k < m.states.length := (List.getElem?_eq_some_iff.1 hget).1
      simpa [hlt] using hk
    refine .inr ⟨(hkeep s).trans (requirePiece_eq_ok.1 hs).2, ?_⟩
    simpa [status?, hs'] using hxst
  · refine .inl (List.mem_map.2 ⟨x, List.mem_filter.2 ⟨?_, hxst⟩, rfl⟩)
    refine List.mem_of_getElem? (i := k) ?_
    rwa [List.getElem?_set_ne (fun he => hki he.symm)] at hk

/-- A verified piece that is not to be had stays so while another piece is updated, and
while it stays verified. -/
theorem kept_update {m m' : PieceManager} {i j : Nat} {patch : PieceState → PieceState}
    (hkeep : ∀ s, (patch s).index = s.index) (h : m.update i patch = .ok m')
    (hst : m'.status? j = some .verified) (hj : j ∉ m.getMissingPieces) :
    j ∉ m'.getMissingPieces := by
  intro hmem
  obtain hold | ⟨rfl, hmissing | hfailed⟩ := mem_getMissingPieces_update hkeep h hmem
  · exact hj hold
  · rw [hst] at hmissing
    cases hmissing
  · rw [hst] at hfailed
    cases hfailed

end PieceManager

namespace Engine

variable {σ : Type}

/-- The piece is verified in the manager in use, which is used for no other file and does
not list it to be had, and no request for it is outstanding. -/
structure Settled (e : Engine σ) (ref : Nat) (f : FileId) (i : Nat) : Prop where
  current : e.managers.get? f = some ref
  only : e.Only ref f
  verified : (e.managerAt ref).status? i = some .verified
  listed : i ∉ (e.managerAt ref).getMissingPieces
  unasked : ∀ x r, e.outstandingRequests.get? x = some r → ¬ (r.fileId = f ∧ r.pieceIndex = i)

variable {e e' : Engine σ} {ref i : Nat} {f : FileId}

theorem Settled.status (h : e.Settled ref f i) : e.status? f i = some .verified := by
  simp only [status?, h.current, h.verified]

theorem Settled.not_backed (h : e.Settled ref f i) : ¬ e.Backed ref i := by
  rintro ⟨x, r, hr, hm, hi⟩
  exact h.unasked x r hr ⟨h.only.file _ hm, hi⟩

/-- A piece that has been settled does not notice a change of another manager, or of another
piece of its own. -/
theorem Settled.putManager {r : Nat} {m : PieceManager} (h : e.Settled ref f i)
    (hm : r = ref → m.status? i = some .verified ∧ i ∉ m.getMissingPieces) :
    (e.putManager r m).Settled ref f i := by
  have hmanager : ((e.putManager r m).managerAt ref).status? i = some .verified ∧
      i ∉ ((e.putManager r m).managerAt ref).getMissingPieces := by
    rw [managerAt_putManager]
    split
    · rename_i heq
      exact hm heq.1.symm
    · exact ⟨h.verified, h.listed⟩
  exact ⟨h.current, ⟨by simpa [Engine.putManager] using h.only.lt, h.only.file⟩, hmanager.1,
    hmanager.2, h.unasked⟩

theorem Settled.install {g : FileId} {m : PieceManager} (h : e.Settled ref f i) (hg : g ≠ f) :
    (e.installManager g m).Settled ref f i := by
  have hsame : (e.installManager g m).managerAt ref = e.managerAt ref :=
    managerAt_append e m h.only.lt
  refine ⟨?_, h.only.install, by rw [hsame]; exact h.verified, by rw [hsame]; exact h.listed,
    h.unasked⟩
  exact (OrderedMap.get?_set_of_ne _ _ fun he => hg he.symm).trans h.current

end Engine

section

variable {σ : Type} [StorageAdapter σ] {t : Turn} {G : Grant} {e e' : Engine σ}
variable {ref i : Nat} {f : FileId}

theorem Change.settled (hfail : ¬ G (.fail ref i)) (hinstall : ∀ m, ¬ G (.install f m))
    (hc : Change t G e e') (h : e.Settled ref f i) : e'.Settled ref f i := by
  have honly := hc.only h.only
  cases hc with
  | fail r j reason m hm hg =>
    refine h.putManager ?_
    rintro rfl
    have hij : i ≠ j := by
      rintro rfl
      exact hg.elim h.not_backed hfail
    unfold PieceManager.markFailed at hm
    have hst : m.status? i = some .verified := by
      rw [PieceManager.status?_update (by intro _; rfl) hm, if_neg hij]
      exact h.verified
    exact ⟨hst, PieceManager.kept_update (by intro _; rfl) hm hst h.listed⟩
  | reset r j m hm =>
    refine h.putManager ?_
    rintro rfl
    have hst : m.status? i = some .verified := by
      rw [PieceManager.status?_resetFailedToMissing hm, if_neg]
      · exact h.verified
      · rintro ⟨rfl, hfailed⟩
        rw [h.verified] at hfailed
        cases hfailed
    unfold PieceManager.resetFailedToMissing at hm
    refine ⟨hst, PieceManager.kept_update (fun s => ?_) hm hst h.listed⟩
    split <;> rfl
  | verify r j m hm hg =>
    refine h.putManager ?_
    rintro rfl
    have hst : m.status? i = some .verified := by
      rw [PieceManager.status?_markVerified hm]
      split
      · rfl
      · exact h.verified
    unfold PieceManager.markVerified at hm
    exact ⟨hst, PieceManager.kept_update (by intro _; rfl) hm hst h.listed⟩
  | ask r m p x q hm hmissing hcurrent hid hg =>
    have hput : (e.putManager r m).Settled ref f i := by
      refine h.putManager ?_
      rintro rfl
      have hne : i ≠ q.pieceIndex := by
        rintro rfl
        exact h.listed hmissing
      unfold PieceManager.markRequested at hm
      have hst : m.status? i = some .verified := by
        rw [PieceManager.status?_update (by intro _; rfl) hm, if_neg hne]
        exact h.verified
      exact ⟨hst, PieceManager.kept_update (by intro _; rfl) hm hst h.listed⟩
    refine ⟨hput.current, ⟨hput.only.lt, hput.only.file⟩, hput.verified, hput.listed, ?_⟩
    intro y s hs hmatch
    simp only [OrderedMap.get?_set] at hs
    split at hs
    · cases hs
      obtain ⟨rfl, rfl⟩ := hmatch
      rw [h.current] at hcurrent
      cases hcurrent
      exact h.listed hmissing
    · exact h.unasked y s hs hmatch
  | drop x hg hr =>
    refine ⟨h.current, ⟨h.only.lt, h.only.file⟩, h.verified, h.listed, ?_⟩
    exact fun y s hs => h.unasked y s (OrderedMap.get?_delete_eq_some.1 hs).2
  | register m hg =>
    unfold Engine.registerManifest
    simp only
    split
    · exact ⟨h.current, ⟨h.only.lt, h.only.file⟩, h.verified, h.listed, h.unasked⟩
    · rename_i hnone
      have hne : m.fileId ≠ f := by
        rintro rfl
        rw [h.current] at hnone
        cases hnone
      have hmade := h.install (m := .new m.fileId m.pieces) hne
      exact ⟨hmade.current, ⟨hmade.only.lt, hmade.only.file⟩, hmade.verified, hmade.listed,
        hmade.unasked⟩
  | install g m hg =>
    refine h.install ?_
    rintro rfl
    exact hinstall m hg
  | dispose hg =>
    refine ⟨h.current, ⟨h.only.lt, h.only.file⟩, h.verified, h.listed, ?_⟩
    exact fun y s hs => absurd hs (by simp)
  | _ => exact ⟨h.current, ⟨h.only.lt, h.only.file⟩, h.verified, h.listed, h.unasked⟩

end

/-- The last of a request, of a receive or of the handling of a frame, which marks the piece
failed without a look at its status. -/
def Frame.Fails {σ : Type} (e : Engine σ) (ref i : Nat) : Frame → Except Failure Value → Prop
  | .requestSent r _ scheduled, .error _ => r = ref ∧ scheduled.piece.index = i
  | .requestPersisted r _ scheduled, .error _ => r = ref ∧ scheduled.piece.index = i
  | .pieceChecked r, .ok (.bool false) =>
    e.stillExpected r = true ∧ r.manager = ref ∧ r.pieceIndex = i
  | .pieceWritten r _, .error _ => r.manager = ref ∧ r.pieceIndex = i
  | .piecePersisted r _, .error _ => r.manager = ref ∧ r.pieceIndex = i
  | .pieceReceived _ h _, .error _ => e.managers.get? h.fileId = some ref ∧ h.pieceIndex = i
  | _, _ => False

theorem Grant.again_fail {σ : Type} {e : Engine σ} {t : Turn} {p : PeerId} {f : FileId}
    {options : Option GridScheduleOptions} {ref i : Nat} :
    ¬ Grant.again e t p f options (.fail ref i) := by
  cases options <;> exact id

theorem Frame.grant_fail {σ : Type} {e : Engine σ} {t : Turn} {frame : Frame}
    {outcome : Except Failure Value} {ref i : Nat} (h : frame.grant e t outcome (.fail ref i)) :
    frame.Fails e ref i outcome := by
  unfold Frame.grant at h
  split at h
  all_goals first
    | exact (show False from h).elim
    | (simp [Grant.only, Grant.filling, Grant.joined, Grant.request, Grant.joining,
        Grant.creating, Grant.grid, Grant.announce] at h; done)
    | skip
  · exact ⟨h.1.symm, h.2.symm⟩
  · exact ⟨h.1.symm, h.2.symm⟩
  · exact ⟨h.1, h.2.1.symm, h.2.2.symm⟩
  · exact h.elim False.elim False.elim
  · exact ⟨h.1.symm, h.2.symm⟩
  · exact ⟨h.1.symm, h.2.symm⟩
  · exact ⟨h.1, h.2.1.symm⟩
  · obtain h | h := h
    · exact absurd h Grant.again_fail
    · cases h

namespace World

variable {σ : Type}

/-- The action marks the piece of the manager failed: a continuation that does is resumed, or
a frame is refused behind a header for the piece. -/
def Fails (w : World σ) (ref i : Nat) : Action → Prop
  | .resume k => ∃ pending frame below outcome, w.tasks[k]? = some ⟨pending, frame :: below⟩ ∧
      w.engine.outcome pending = some outcome ∧ frame.Fails w.engine ref i outcome
  | .binary p data => w.engine.subscribed = true ∧ ∃ h, w.engine.pendingChunks.get? p = some h ∧
      w.engine.refusesChunk p h data = true ∧ w.engine.managers.get? h.fileId = some ref ∧
      h.pieceIndex = i
  | _ => False

/-- A restore of the file ends: `resumeFile` or `joinSession` puts in its manager. -/
def Restoring (w : World σ) (f : FileId) : Action → Prop
  | .resume k => ∃ pending frame below result, w.tasks[k]? = some ⟨pending, frame :: below⟩ ∧
      w.engine.outcome pending = some (.ok (.restored result)) ∧ frame.restored? = some f
  | _ => False

variable [StorageAdapter σ] {cfg : Config} {w w' : World σ} {t : Turn} {a : Action}
variable {ref i : Nat} {f : FileId}

omit [StorageAdapter σ] in
theorem grant_fail (h : w.grant (t, a) (.fail ref i)) (hb : ¬ w.engine.Backed ref i)
    (hsub : ∀ p data, a = .binary p data → w.engine.subscribed = true) : w.Fails ref i a := by
  cases a with
  | call c =>
    cases c <;> simp [grant, Call.grant, Grant.only, Grant.request, Grant.grid, Grant.gridLoop,
      Grant.receive, Grant.restoring, Grant.cancel, Grant.compete, Grant.expiring, Grant.retire,
      Grant.leases, Grant.map, Grant.announce] at h
  | message q message =>
    obtain hframe | ⟨m, rfl, hm⟩ := h
    · cases hframe
    · obtain ⟨-, hl⟩ | ⟨-, map, -, hl⟩ |
        ⟨-, header, -, ⟨r, hr, -, hfile, hindex⟩, -, ⟨-, hl⟩ | ⟨previous, -, -, hl⟩⟩ |
        ⟨-, requestId, g, j, -, -, -, hl⟩ | ⟨-, requestId, -, hl⟩ |
        ⟨-, requestId, -, r, -, -, hl⟩ := hm
      · cases hl
      · exact hl.elim
      · cases hl
      · -- the header is for a request that is outstanding
        obtain ⟨hm, rfl, -⟩ := hl
        exact absurd ⟨_, r, hr, hfile ▸ hm, hindex⟩ hb
      · exact hl.elim
      · cases hl
      · obtain hl | hagain := hl
        · exact hl.elim
        · exact absurd hagain Grant.again_fail
  | binary q data =>
    obtain hframe | ⟨header, hpending, hrefused, hm, rfl, -⟩ := h
    · cases hframe
    · exact ⟨hsub q data rfl, header, hpending, hrefused, hm, rfl⟩
  | resume k =>
    obtain ⟨pending, frame, below, outcome, hi, ho, hframe⟩ := h
    exact ⟨pending, frame, below, outcome, hi, ho, Frame.grant_fail hframe⟩
  | window n =>
    obtain ⟨track, hframe⟩ | ⟨window, job, rest, -, -, -, hjob⟩ := h
    · cases hframe
    · cases job with
      | fill q g windowKey options =>
        obtain hask | hframe := hjob
        · exact hask.elim
        · cases hframe
      | retry requestId request direct => exact hjob.elim
      | expire requestId => exact hjob.elim
  | upload q => exact h.elim
  | timer k =>
    obtain ⟨requestId, windowKey, -, hretire⟩ := h
    exact hretire.elim

/-- A step that neither fails the piece nor ends a restore of its file leaves it settled. -/
theorem settled_step (h : w.engine.Settled ref f i) (hfails : ¬ w.Fails ref i a)
    (hrestoring : ¬ w.Restoring f a) : (w.step cfg (t, a)).engine.Settled ref f i := by
  by_cases hdeaf : ∃ p data, a = .binary p data ∧ w.engine.subscribed = false
  · obtain ⟨p, data, rfl, hsub⟩ := hdeaf
    have hsame : w.step cfg (t, .binary p data) = w := by
      unfold step
      simp [handleBinary, hsub]
    rw [hsame]
    exact h
  · have hsub : ∀ p data, a = .binary p data → w.engine.subscribed = true := by
      rintro p data rfl
      by_contra hsub
      exact hdeaf ⟨p, data, rfl, by simpa using hsub⟩
    have hfail : ¬ w.grant (t, a) (.fail ref i) :=
      fun hg => hfails (grant_fail hg h.not_backed hsub)
    have hinstall : ∀ m, ¬ w.grant (t, a) (.install f m) := by
      intro m hg
      obtain ⟨k, pending, frame, below, result, rfl, hk, ho, hf, -⟩ := restored_of_install hg
      exact hrestoring ⟨pending, frame, below, result, hk, ho, hf⟩
    exact Changes.keeps (fun _ _ hc => hc.settled hfail hinstall) (step_spec cfg w t a).changes h

theorem apart_of_run {storage : σ} {transport : Bool} {ok : World σ → Turn × Action → Prop}
    (h : Run (step cfg) ok (.new storage transport) w) :
    ∀ g r, w.engine.managers.get? g = some r → w.engine.Only r g := by
  refine h.invariant (P := fun w => ∀ g r, w.engine.managers.get? g = some r → w.engine.Only r g)
    (fun w x hw _ => ?_) (by simp [World.new, Engine.new])
  exact Changes.keeps (fun _ _ hc => hc.apart) (step_spec cfg w x.1 x.2).changes hw

end World

namespace Engine

variable {σ : Type} {e : Engine σ} {cfg : Config} {t : Turn} {f : FileId} {i : Nat}

/-- Some other request for the piece of the receipt is left over: without a transport the
cancellation stops at the first one. -/
def Cluttered (e : Engine σ) (r : Receipt) : Prop :=
  e.transport = false ∧ ∃ x y, e.Rival r x ∧ e.Rival r y ∧ x ≠ y

theorem get?_cancelCompeting {keep : RequestId} (requests : List (RequestId × OutstandingRequest))
    {x : RequestId} {q : OutstandingRequest}
    (h : (cancelCompeting t f i keep requests e).1.outstandingRequests.get? x = some q) :
    e.outstandingRequests.get? x = some q ∧
      (competes f i keep requests x →
        e.transport = false ∧ ∃ y, competes f i keep requests y ∧ y ≠ x) := by
  induction requests generalizing e with
  | nil =>
    refine ⟨h, ?_⟩
    rintro ⟨r, hr, -⟩
    cases hr
  | cons p rest ih =>
    obtain ⟨y, request⟩ := p
    have hmore : ∀ z, competes f i keep rest z → competes f i keep ((y, request) :: rest) z := by
      rintro z ⟨r, hr, hmatch⟩
      exact ⟨r, List.mem_cons_of_mem _ hr, hmatch⟩
    unfold cancelCompeting at h
    split at h
    · rename_i hother
      obtain ⟨hget, hrest⟩ := ih h
      refine ⟨hget, ?_⟩
      rintro ⟨r, hr, hf, hi, hne⟩
      obtain heq | hr := List.mem_cons.1 hr
      · cases heq
        exact absurd hother (by simp [hf, hi, hne])
      · obtain ⟨ht, z, hz, hzx⟩ := hrest ⟨r, hr, hf, hi, hne⟩
        exact ⟨ht, z, hmore z hz, hzx⟩
    · rename_i hrival
      simp only [ne_eq, not_or, not_not] at hrival
      have hy : competes f i keep ((y, request) :: rest) y :=
        ⟨request, List.mem_cons_self, hrival⟩
      simp only at h
      split at h
      · obtain ⟨hget, hrest⟩ := ih h
        obtain ⟨hne, hget⟩ := OrderedMap.get?_delete_eq_some.1 hget
        refine ⟨hget, ?_⟩
        rintro ⟨r, hr, hmatch⟩
        obtain heq | hr := List.mem_cons.1 hr
        · cases heq
          exact absurd rfl hne
        · obtain ⟨ht, z, hz, hzx⟩ := hrest ⟨r, hr, hmatch⟩
          exact ⟨ht, z, hmore z hz, hzx⟩
      · rename_i htransport
        obtain ⟨hne, hget⟩ := OrderedMap.get?_delete_eq_some.1 h
        exact ⟨hget, fun _ => ⟨Bool.eq_false_iff.2 htransport, y, hy, fun he => hne he.symm⟩⟩

theorem broadcastPieceMap_fields (e : Engine σ) (t : Turn) (f : FileId) (peers : List PeerId) :
    (e.broadcastPieceMap t f peers).1.heap = e.heap ∧
      (e.broadcastPieceMap t f peers).1.managers = e.managers ∧
      (e.broadcastPieceMap t f peers).1.outstandingRequests = e.outstandingRequests := by
  have hexport : (e.exportPieceMapBroadcast t f).1.heap = e.heap ∧
      (e.exportPieceMapBroadcast t f).1.managers = e.managers ∧
      (e.exportPieceMapBroadcast t f).1.outstandingRequests = e.outstandingRequests := by
    unfold exportPieceMapBroadcast
    split
    · exact ⟨rfl, rfl, rfl⟩
    · simp only
      split <;> exact ⟨rfl, rfl, rfl⟩
  unfold broadcastPieceMap
  split
  · rename_i h
    rw [h] at hexport
    exact hexport
  · rename_i h
    rw [h] at hexport
    split <;> exact hexport

theorem transport_finalizeOrDelete (e : Engine σ) (cfg : Config) (t : Turn)
    (requestId : RequestId) (status : DirectTerminalReason) :
    (e.finalizeOrDelete cfg t requestId status).transport = e.transport := by
  have hfinal : (e.finalizeDirectRequest cfg t requestId status).1.transport = e.transport := by
    unfold finalizeDirectRequest
    split
    · rfl
    · split
      · rfl
      · simp only
        split
        · split
          · rfl
          · unfold enqueueWindow
            split
            · split <;> rfl
            · rfl
        · split
          · split
            · split <;> rfl
            · rfl
          · rfl
  unfold finalizeOrDelete
  simp only
  split <;> exact hfinal

/-- A receive that is persisted leaves no request for its piece, and the pieces as they are. -/
theorem piecePersisted_fields (r : Receipt) (outstanding : Option OutstandingRequest) (v : Value)
    {e' : Engine σ} (he : (e.piecePersisted cfg t r outstanding (.ok v)).1 = e') :
    e'.heap = e.heap ∧ e'.managers = e.managers ∧
      ∀ x q, e'.outstandingRequests.get? x = some q → e.outstandingRequests.get? x = some q ∧
        (q.fileId = r.fileId ∧ q.pieceIndex = r.pieceIndex → e.Cluttered r) := by
  have hfinal := finalizeOrDelete_fields e cfg t r.requestId .verified
  have htransport := transport_finalizeOrDelete e cfg t r.requestId .verified
  unfold piecePersisted at he
  simp only at he
  generalize e.finalizeOrDelete cfg t r.requestId .verified = e1 at he hfinal htransport
  obtain ⟨hheap1, hmanagers1, hout1⟩ := hfinal
  have hsame : SameMaps e1 (e1.cancelCompetingGridRequests t r.fileId r.pieceIndex
      r.requestId).1 := sameMaps_cancelCompeting _ _ _ _
  have hrivals : ∀ x, competes r.fileId r.pieceIndex r.requestId e1.outstandingRequests.entries x →
      e.Rival r x := by
    rintro x ⟨q, hq, hf, hi, hne⟩
    have hget := OrderedMap.mem_entries_iff.1 hq
    rw [hout1, OrderedMap.get?_delete_eq_some] at hget
    exact ⟨q, hget.2, hf, hi, hne⟩
  have hleft : ∀ x q, (e1.cancelCompetingGridRequests t r.fileId r.pieceIndex
      r.requestId).1.outstandingRequests.get? x = some q →
      e.outstandingRequests.get? x = some q ∧
        (q.fileId = r.fileId ∧ q.pieceIndex = r.pieceIndex → e.Cluttered r) := by
    intro x q hq
    obtain ⟨hget, hcompetes⟩ := get?_cancelCompeting _ hq
    have hget' := hget
    rw [hout1, OrderedMap.get?_delete_eq_some] at hget'
    refine ⟨hget'.2, fun hmatch => ?_⟩
    have hx : competes r.fileId r.pieceIndex r.requestId e1.outstandingRequests.entries x :=
      ⟨q, OrderedMap.mem_entries_iff.2 hget, hmatch.1, hmatch.2, hget'.1⟩
    obtain ⟨ht, y, hy, hyx⟩ := hcompetes hx
    exact ⟨htransport ▸ ht, y, x, hrivals y hy, hrivals x hx, hyx⟩
  split at he
  · rename_i e2 err h
    rw [h] at hsame hleft
    subst he
    exact ⟨hsame.heap.trans hheap1, hsame.managers.trans hmanagers1, hleft⟩
  · rename_i e2 h
    rw [h] at hsame hleft
    split at he
    · subst he
      exact ⟨hsame.heap.trans hheap1, hsame.managers.trans hmanagers1, hleft⟩
    · obtain ⟨hheap, hmanagers, hout⟩ := broadcastPieceMap_fields e2 t r.fileId e2.knownPeers
      subst he
      refine ⟨hheap.trans (hsame.heap.trans hheap1),
        hmanagers.trans (hsame.managers.trans hmanagers1), fun x q hq => hleft x q ?_⟩
      exact hout ▸ hq

end Engine

namespace Engine

variable {σ : Type} {e e' : Engine σ} {cfg : Config} {t : Turn} {ref i : Nat} {f : FileId}

theorem status?_congr (hheap : e'.heap = e.heap) (hmanagers : e'.managers = e.managers)
    (f : FileId) (i : Nat) : e'.status? f i = e.status? f i := by
  simp only [status?, managerAt, hheap, hmanagers]

/-- A piece with a status is marked failed whatever the status is. -/
theorem undone_of_markFailed {st : PieceStatus} (hcurrent : e.managers.get? f = some ref)
    (hst : (e.managerAt ref).status? i = some st) (reason : String) :
    ∃ e1, e.markFailed ref i reason = .ok e1 ∧ e1.managers = e.managers ∧
      e1.status? f i = some .failed := by
  obtain ⟨s, hs, -⟩ := PieceManager.status?_eq_some.1 hst
  have hm : ∃ m, (e.managerAt ref).markFailed i reason = .ok m := by
    simp only [PieceManager.markFailed, PieceManager.update, hs]
    exact ⟨_, rfl⟩
  obtain ⟨m, hm⟩ := hm
  have hmark : e.markFailed ref i reason = .ok (e.putManager ref m) := by
    simp only [markFailed, onManager, hm]
  obtain ⟨-, -, -, hlt⟩ := markFailed_spec hmark
  refine ⟨e.putManager ref m, hmark, rfl, ?_⟩
  have hcurrent' : (e.putManager ref m).managers.get? f = some ref := hcurrent
  simp only [status?, hcurrent', managerAt_putManager, hlt, and_self, if_true,
    PieceManager.status?_markFailed hm]

/-- The piece is marked failed after its request or its receive, and the request given up. -/
theorem undone_of_giveUp (cfg : Config) (t : Turn) (x : RequestId) (reason : String)
    (status : DirectTerminalReason) {e0 : Engine σ} (h : e.Settled ref f i)
    (hheap : e0.heap = e.heap) (hmanagers : e0.managers = e.managers) :
    ∃ e1, e0.markFailed ref i reason = .ok e1 ∧
      (e1.finalizeDirectRequest cfg t x status).1.status? f i = some .failed := by
  have hst : (e0.managerAt ref).status? i = some .verified := by
    simp only [managerAt, hheap]
    exact h.verified
  obtain ⟨e1, hmark, -, hfailed⟩ :=
    undone_of_markFailed (e := e0) (hmanagers ▸ h.current) hst reason
  obtain ⟨hheap1, hmanagers1, -⟩ := finalizeDirectRequest_fields e1 cfg t x status
  exact ⟨e1, hmark, (status?_congr hheap1 hmanagers1 f i).trans hfailed⟩

theorem storageCall_fields {α : Type} (value : α → Value) (result : Except Failure α × σ) :
    (e.storageCall t value result).1.heap = e.heap ∧
      (e.storageCall t value result).1.managers = e.managers := by
  unfold storageCall
  split
  · split <;> exact ⟨rfl, rfl⟩
  · exact ⟨rfl, rfl⟩

variable [StorageAdapter σ]

theorem undone_pieceChecked (r : Receipt) (h : e.Settled r.manager f r.pieceIndex)
    (hexpected : e.stillExpected r = true) :
    (e.pieceChecked cfg t r false).1.status? f r.pieceIndex = some .failed := by
  have hrelease : (e.release r.fileId r.pieceIndex r.requestId).Settled r.manager f r.pieceIndex :=
    ⟨h.current, ⟨h.only.lt, h.only.file⟩, h.verified, h.listed, h.unasked⟩
  obtain ⟨e1, hmark, -, hfailed⟩ :=
    undone_of_markFailed hrelease.current hrelease.verified "hash_mismatch"
  have hhealth : ∀ health, ({ e1 with peerHealth := health } : Engine σ).status? f r.pieceIndex =
      some .failed := fun _ => hfailed
  have hcall : ∀ e2 : Engine σ, e2.status? f r.pieceIndex = some .failed →
      (e2.storageCall t (fun _ => Value.unit) (StorageAdapter.deletePiece r.fileId r.pieceIndex
        e2.storage)).1.status? f r.pieceIndex = some .failed := by
    intro e2 h2
    obtain ⟨hheap, hmanagers⟩ := storageCall_fields (e := e2) (t := t) (fun _ => Value.unit)
      (StorageAdapter.deletePiece r.fileId r.pieceIndex e2.storage)
    exact (status?_congr hheap hmanagers f r.pieceIndex).trans h2
  unfold pieceChecked
  simp only [hexpected, not_true_eq_false, if_false, Bool.false_eq_true, not_false_eq_true, if_true,
    hmark]
  cases e.outstandingRequests.get? r.requestId with
  | none => exact hcall _ hfailed
  | some o =>
    simp only
    split
    · exact hhealth _
    · exact hcall _ (hhealth _)

theorem undone_resume {frame : Frame} {outcome : Except Failure Value} (h : e.Settled ref f i)
    (hf : frame.Fails e ref i outcome) :
    (e.resume cfg t outcome frame).1.status? f i = some .failed := by
  cases frame with
  | requestSent r x scheduled =>
    obtain err | v := outcome
    · obtain ⟨rfl, rfl⟩ := hf
      obtain ⟨e1, hmark, hfailed⟩ := undone_of_giveUp cfg t x "send_failed" .send_failed h rfl rfl
      simpa only [resume, requestSent, hmark] using hfailed
    · exact hf.elim
  | requestPersisted r x scheduled =>
    obtain err | v := outcome
    · obtain ⟨rfl, rfl⟩ := hf
      obtain ⟨hheap, hmanagers, -⟩ := emitDirectLifecycleError_fields (e := e) (t := t) .persist
        (e.outstandingRequests.get? x) x err
      obtain ⟨e1, hmark, hfailed⟩ := undone_of_giveUp cfg t x "persist_failed" .cancelled
        h hheap hmanagers
      simpa only [resume, requestPersisted, hmark] using hfailed
    · exact hf.elim
  | pieceWritten r outstanding =>
    obtain err | v := outcome
    · obtain ⟨rfl, rfl⟩ := hf
      obtain ⟨hheap, hmanagers, -⟩ := emitDirectLifecycleError_fields (e := e) (t := t) .storage
        outstanding r.requestId err
      obtain ⟨e1, hmark, hfailed⟩ := undone_of_giveUp cfg t r.requestId "storage_failed" .cancelled
        h hheap hmanagers
      simpa only [resume, pieceWritten, hmark] using hfailed
    · exact hf.elim
  | piecePersisted r outstanding =>
    obtain err | v := outcome
    · obtain ⟨rfl, rfl⟩ := hf
      obtain ⟨hheap, hmanagers, -⟩ := emitDirectLifecycleError_fields (e := e) (t := t) .persist
        outstanding r.requestId err
      obtain ⟨e1, hmark, hfailed⟩ := undone_of_giveUp cfg t r.requestId "persist_failed" .cancelled
        h hheap hmanagers
      simpa only [resume, piecePersisted, hmark] using hfailed
    · exact hf.elim
  | pieceReceived p header outstanding =>
    obtain err | v := outcome
    · obtain ⟨hcurrent, rfl⟩ := hf
      obtain ⟨hheap, hmanagers, -⟩ := emitDirectLifecycleError_fields (e := e) (t := t) .receive
        (some outstanding) header.requestId err
      obtain ⟨e1, hmark, hfailed⟩ := undone_of_giveUp cfg t header.requestId "receive_failed"
        .cancelled h hheap hmanagers
      simpa only [resume, pieceReceived, markFailedIfKnown, hmanagers, hcurrent, hmark]
        using hfailed
    · exact hf.elim
  | pieceChecked r =>
    obtain err | v := outcome
    · exact hf.elim
    · cases v with
      | bool verified =>
        cases verified with
        | true => exact hf.elim
        | false =>
          obtain ⟨hexpected, rfl, rfl⟩ := hf
          exact undone_pieceChecked r h hexpected
      | _ => exact hf.elim
  | _ => exact hf.elim

omit [StorageAdapter σ] in
/-- A chunk that is refused is rejected with the managers as they are. -/
theorem appendIncomingChunk_refused (cfg : Config) (t : Turn) {p : PeerId}
    {header : PieceChunkHeaderMessage} {data : ArrayBuffer}
    (h : e.refusesChunk p header data = true) :
    ∃ e1 : Engine σ, e1.heap = e.heap ∧ e1.managers = e.managers ∧
      (e.appendIncomingChunk cfg t p header data).1 =
        (e1.rejectIncomingChunk cfg t p header).1 := by
  unfold refusesChunk at h
  unfold appendIncomingChunk
  generalize (if header.totalChunks.isSafeInteger then header.totalChunks.index? else none) = total
    at h ⊢
  generalize (if header.chunkIndex.isSafeInteger then header.chunkIndex.index? else none) = index
    at h ⊢
  cases total with
  | none => exact ⟨e, rfl, rfl, rfl⟩
  | some totalChunks =>
    cases index with
    | none => exact ⟨e, rfl, rfl, rfl⟩
    | some chunkIndex =>
      simp only at h ⊢
      split at h
      · rename_i hbad
        rw [if_pos hbad]
        exact ⟨e, rfl, rfl, rfl⟩
      · rename_i hgood
        rw [if_neg hgood]
        split at h
        · cases h
        · rename_i hlength
          rw [if_neg hlength]
          split at h
          · rename_i hclash
            rw [if_pos hclash]
            refine ⟨_, ?_, ?_, rfl⟩ <;> rfl
          · rename_i hfits
            rw [if_neg hfits]
            split at h
            · cases h
            · rename_i hall
              rw [if_neg hall]
              cases hassembled : assembled _ with
              | some more =>
                rw [hassembled] at h
                cases h
              | none =>
                simp only
                refine ⟨_, ?_, ?_, rfl⟩ <;> rfl

omit [StorageAdapter σ] in
theorem undone_rejectIncomingChunk (cfg : Config) (t : Turn) (p : PeerId)
    {header : PieceChunkHeaderMessage} {st : PieceStatus}
    (hcurrent : e.managers.get? header.fileId = some ref)
    (hst : (e.managerAt ref).status? header.pieceIndex = some st) :
    (e.rejectIncomingChunk cfg t p header).1.status? header.fileId header.pieceIndex =
      some .failed := by
  have hreleased : ∃ e1, (({ e with
      incomingChunks := e.incomingChunks.delete header.requestId } : Engine σ).release
        header.fileId header.pieceIndex header.requestId).markFailedIfKnown header.fileId
          header.pieceIndex "invalid_chunk" = .ok e1 ∧
      e1.status? header.fileId header.pieceIndex = some .failed := by
    obtain ⟨e1, hmark, -, hfailed⟩ := undone_of_markFailed
      (e := ({ e with incomingChunks := e.incomingChunks.delete header.requestId } :
        Engine σ).release header.fileId header.pieceIndex header.requestId)
      hcurrent hst "invalid_chunk"
    refine ⟨e1, ?_, hfailed⟩
    unfold markFailedIfKnown
    rw [show (({ e with incomingChunks := e.incomingChunks.delete header.requestId } :
      Engine σ).release header.fileId header.pieceIndex header.requestId).managers.get?
        header.fileId = some ref from hcurrent]
    exact hmark
  obtain ⟨e1, hmark, hfailed⟩ := hreleased
  obtain ⟨hheap, hmanagers, -⟩ :=
    finalizeDirectRequest_fields e1 cfg t header.requestId .invalid_chunk
  have hgone := (status?_congr hheap hmanagers header.fileId header.pieceIndex).trans hfailed
  unfold rejectIncomingChunk send
  simp only [hmark]
  split <;> split <;> exact hgone

omit [StorageAdapter σ] in
theorem undone_handleTransportBinary {p : PeerId} {header : PieceChunkHeaderMessage}
    {data : ArrayBuffer} (h : e.Settled ref f header.pieceIndex)
    (hpending : e.pendingChunks.get? p = some header)
    (hrefused : e.refusesChunk p header data = true)
    (hcurrent : e.managers.get? header.fileId = some ref) :
    (e.handleTransportBinary cfg t p data).1.status? f header.pieceIndex = some .failed := by
  obtain ⟨e1, hheap, hmanagers, heq⟩ := appendIncomingChunk_refused cfg t
    (e := { e with pendingChunks := e.pendingChunks.delete p }) hrefused
  have hst : (e1.managerAt ref).status? header.pieceIndex = some .verified := by
    simp only [managerAt, hheap]
    exact h.verified
  have hfailed := undone_rejectIncomingChunk cfg t p (hmanagers ▸ hcurrent) hst
  obtain rfl : header.fileId = f := h.only.file _ hcurrent
  unfold handleTransportBinary
  simp only [hpending, heq]
  exact hfailed

end Engine

namespace World

variable {σ : Type}

/-- The task is about to take in that the piece, which is verified, has been persisted. -/
structure Commits (w : World σ) (k : Nat) (r : Receipt) : Prop where
  task : ∃ pending outstanding below v,
    w.tasks[k]? = some ⟨pending, .piecePersisted r outstanding :: below⟩ ∧
      w.engine.outcome pending = some (.ok v)
  verified : w.engine.status? r.fileId r.pieceIndex = some .verified

/-- The manager in use has the piece under another entry of its list, too, and that one is
still to be had. -/
def Doubled (w : World σ) (f : FileId) (i : Nat) : Prop :=
  ∃ ref, w.engine.managers.get? f = some ref ∧ i ∈ (w.engine.managerAt ref).getMissingPieces

/-- The action marks the piece failed in the manager in use. -/
def Undoes (w : World σ) (f : FileId) (i : Nat) (a : Action) : Prop :=
  ∃ ref, w.engine.managers.get? f = some ref ∧ w.Fails ref i a

variable [StorageAdapter σ] {cfg : Config} {w w' : World σ} {r : Receipt} {k : Nat}

theorem Commits.settled (cfg : Config) (t : Turn) (h : w.Commits k r)
    (hapart : ∀ g ref, w.engine.managers.get? g = some ref → w.engine.Only ref g)
    (hclutter : ¬ w.engine.Cluttered r) (hdoubled : ¬ w.Doubled r.fileId r.pieceIndex) :
    ∃ ref, (w.step cfg (t, .resume k)).engine.Settled ref r.fileId r.pieceIndex := by
  obtain ⟨pending, outstanding, below, v, hk, ho⟩ := h.task
  have hverified := h.verified
  unfold Engine.status? at hverified
  cases href : w.engine.managers.get? r.fileId with
  | none => simp [href] at hverified
  | some ref =>
    simp only [href] at hverified
    have hstep : (w.engine.piecePersisted cfg t r outstanding (.ok v)).1 =
        (w.step cfg (t, .resume k)).engine := by
      simp only [step, resumeTask, hk, ho, Engine.resume]
    obtain ⟨hheap, hmanagers, hleft⟩ := Engine.piecePersisted_fields r outstanding v hstep
    have hmanager : (w.step cfg (t, .resume k)).engine.managerAt ref = w.engine.managerAt ref := by
      simp only [Engine.managerAt, hheap]
    have honly := hapart r.fileId ref href
    refine ⟨ref, by rw [hmanagers, href], ⟨by rw [hheap]; exact honly.lt, ?_⟩, ?_, ?_, ?_⟩
    · rw [hmanagers]
      exact honly.file
    · rw [hmanager]
      exact hverified
    · rw [hmanager]
      exact fun hmem => hdoubled ⟨ref, href, hmem⟩
    · intro x q hq hmatch
      exact hclutter ((hleft x q hq).2 hmatch)

theorem undone_step (cfg : Config) (t : Turn) {ref i : Nat} {f : FileId} {a : Action}
    (h : w.engine.Settled ref f i) (hf : w.Fails ref i a) :
    (w.step cfg (t, a)).engine.status? f i = some .failed := by
  cases a with
  | resume k =>
    obtain ⟨pending, frame, below, outcome, hk, ho, hframe⟩ := hf
    simpa only [step, resumeTask, hk, ho] using Engine.undone_resume h hframe
  | binary p data =>
    obtain ⟨hsub, header, hpending, hrefused, hcurrent, rfl⟩ := hf
    rw [step_binary hsub]
    exact Engine.undone_handleTransportBinary h hpending hrefused hcurrent
  | _ => exact hf.elim

/-- Once a piece has been written, verified and persisted, it stays verified as long as no step
marks it failed and no restore of its file ends; and the steps listed here do mark it failed. -/
theorem committed_pieces_stay_verified (cfg : Config) (storage : σ) (transport : Bool)
    {w w' : World σ} (hrun : Run (step cfg) (fun _ _ => True) (.new storage transport) w)
    (t : Turn) (k : Nat) (r : Receipt) (hcommit : w.Commits k r)
    (hclutter : ¬ w.engine.Cluttered r) (hdoubled : ¬ w.Doubled r.fileId r.pieceIndex)
    (hlater : Run (step cfg) (fun w x => ¬ w.Undoes r.fileId r.pieceIndex x.2 ∧
      ¬ w.Restoring r.fileId x.2) (w.step cfg (t, .resume k)) w') :
    w'.engine.status? r.fileId r.pieceIndex = some .verified ∧
      ∀ t' a, w'.Undoes r.fileId r.pieceIndex a →
        (w'.step cfg (t', a)).engine.status? r.fileId r.pieceIndex = some .failed := by
  have hsettled := hcommit.settled cfg t (apart_of_run hrun) hclutter hdoubled
  have hstep : ∀ (w1 : World σ) (x : Turn × Action),
      (∃ ref, w1.engine.Settled ref r.fileId r.pieceIndex) →
      (¬ w1.Undoes r.fileId r.pieceIndex x.2 ∧ ¬ w1.Restoring r.fileId x.2) →
      ∃ ref, (w1.step cfg x).engine.Settled ref r.fileId r.pieceIndex := by
    rintro w1 ⟨t1, a⟩ ⟨ref, h1⟩ ⟨hundoes, hrestoring⟩
    exact ⟨ref, settled_step h1 (fun hfails => hundoes ⟨ref, h1.current, hfails⟩) hrestoring⟩
  obtain ⟨ref, hfinal⟩ := hlater.invariant hstep hsettled
  refine ⟨hfinal.status, fun t' a => ?_⟩
  rintro ⟨ref', hcurrent, hfails⟩
  obtain rfl : ref = ref' := by simpa [hfinal.current] using hcurrent
  exact undone_step cfg t' hfinal hfails

end World

namespace Sample

/-- The only piece of the file has come from "o", has been written, and is persisted. -/
def pieceSaved : World MemoryStorageAdapter :=
  steps (World.step config) start (received directAsk turn)

def savedReceipt : Receipt := ⟨"f", 0, request, [1], some "o", piece, 0⟩

/-- No peer can be reached. -/
def cutOff : Turn := { turn with sendFailure := fun _ => some ⟨none, "closed"⟩ }

def lateReject : Turn × Action :=
  (turn, .message "o" (some { WireMessage.blank "PIECE_REJECT" with
    requestId := some request, reason := some "late" }))

theorem commits_pieceSaved : pieceSaved.Commits 3 savedReceipt where
  task := by with_unfolding_all exact ⟨_, _, _, _, rfl, rfl⟩
  verified := by decide +kernel

theorem clear_pieceSaved : ¬ pieceSaved.engine.Cluttered savedReceipt := by
  rintro ⟨htransport, -⟩
  exact absurd htransport (by decide +kernel)

theorem single_pieceSaved : ¬ pieceSaved.Doubled "f" 0 := by
  rintro ⟨ref, href, hmem⟩
  have hcurrent : pieceSaved.engine.managers.get? "f" = some 0 := by decide +kernel
  obtain rfl : 0 = ref := Option.some.inj (hcurrent.symm.trans href)
  exact absurd hmem (by decide +kernel)

end Sample

/-- A refusal that comes after the piece has been persisted changes nothing. -/
theorem World.committed_pieces_stay_verified_sample :
    ((Sample.pieceSaved.step Sample.config (Sample.turn, .resume 3)).step Sample.config
      Sample.lateReject).engine.status? "f" 0 = some .verified := by
  have hlater : Run (World.step Sample.config) (fun w x => ¬ w.Undoes "f" 0 x.2 ∧
      ¬ w.Restoring "f" x.2) (Sample.pieceSaved.step Sample.config (Sample.turn, .resume 3))
      ((Sample.pieceSaved.step Sample.config (Sample.turn, .resume 3)).step Sample.config
        Sample.lateReject) := by
    refine .tail _ (.refl _) ⟨?_, fun h => h⟩
    rintro ⟨ref, -, h⟩
    exact h
  exact (World.committed_pieces_stay_verified Sample.config .empty true
    (run_steps Sample.start (Sample.received Sample.directAsk Sample.turn)) Sample.turn 3
    Sample.savedReceipt Sample.commits_pieceSaved Sample.clear_pieceSaved Sample.single_pieceSaved
    hlater).1

/-- The map that announces the piece cannot be sent: the handler of its last frame marks the
piece failed, which is verified and has been persisted. -/
theorem World.failed_announcement_undoes_piece :
    Run (World.step Sample.config) (fun _ _ => True) Sample.start Sample.pieceSaved ∧
    Sample.pieceSaved.Commits 3 Sample.savedReceipt ∧
    (Sample.pieceSaved.step Sample.config (Sample.cutOff, .resume 3)).engine.status? "f" 0 =
      some .verified ∧
    (steps (World.step Sample.config) Sample.pieceSaved [(Sample.cutOff, .resume 3),
      (Sample.turn, .resume 3), (Sample.turn, .resume 3)]).engine.status? "f" 0 = some .failed := by
  refine ⟨run_steps _ _, Sample.commits_pieceSaved, by decide +kernel, by decide +kernel⟩

end PonsWarp.Core
