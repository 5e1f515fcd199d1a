import PonsWarp.Core.Isolation
import PonsWarp.Core.Restores

set_option autoImplicit false

/-!
Pieces in flight. A piece that is requested was last asked for under some id, and as long
as that request stays in the table the piece can still arrive, fail or time out.
-/

namespace PonsWarp.Core

open PonsWarp.Data

namespace PieceManager

/-- A piece has one of the statuses that the methods give, and one that is requested stands
at its own index. -/
def Sound (m : PieceManager) : Prop :=
  ∀ (j : Nat) (s : PieceState), m.states[j]? = some s →
    (s.status ≠ .receiving ∧ s.status ≠ .received) ∧ (s.status = .requested → s.index = j)

/-- No piece is in flight. -/
def Calm (m : PieceManager) : Prop :=
  ∀ s ∈ m.states, s.status ≠ .requested ∧ s.status ≠ .receiving ∧ s.status ≠ .received

variable {m m' : PieceManager} {i : Nat} {patch : PieceState → PieceState}

theorem update_states (h : m.update i patch = .ok m') :
    ∃ s, m.requirePiece i = .ok s ∧ m'.states = m.states.set i (patch s) := by
  unfold update at h
  cases hs : m.requirePiece i with
  | error err => simp [hs] at h
  | ok s =>
    simp only [hs, Except.ok.injEq] at h
    subst h
    exact ⟨s, rfl, rfl⟩

theorem sound_update (hkeep : ∀ s, (patch s).index = s.index)
    (hst : ∀ s, s.status ≠ .receiving ∧ s.status ≠ .received →
      (patch s).status ≠ .receiving ∧ (patch s).status ≠ .received)
    (h : m.update i patch = .ok m') (hm : m.Sound) : m'.Sound := by
  obtain ⟨s, hs, hstates⟩ := update_states h
  obtain ⟨hget, hindex⟩ := requirePiece_eq_ok.1 hs
  intro j x hx
  rw [hstates, List.getElem?_set] at hx
  split at hx
  · rename_i hij
    split at hx
    · cases hx
      exact ⟨hst s (hm i s hget).1, fun _ => by rw [hkeep, hindex, hij]⟩
    · cases hx
  · exact hm j x hx

theorem sound_markRequested {p : PeerId} (h : m.markRequested i p = .ok m') (hm : m.Sound) :
    m'.Sound := by
  unfold markRequested at h
  exact sound_update (by intro _; rfl) (by simp) h hm

theorem sound_markVerified (h : m.markVerified i = .ok m') (hm : m.Sound) : m'.Sound := by
  unfold markVerified at h
  exact sound_update (by intro _; rfl) (by simp) h hm

theorem sound_markFailed {reason : String} (h : m.markFailed i reason = .ok m') (hm : m.Sound) :
    m'.Sound := by
  unfold markFailed at h
  exact sound_update (by intro _; rfl) (by simp) h hm

theorem sound_resetFailedToMissing (h : m.resetFailedToMissing i = .ok m') (hm : m.Sound) :
    m'.Sound := by
  unfold resetFailedToMissing at h
  refine sound_update (fun s => ?_) (fun s hs => ?_) h hm
  · split <;> rfl
  · split
    · simp
    · exact hs

theorem calm_update
    (hst : ∀ s, s.status ≠ .requested ∧ s.status ≠ .receiving ∧ s.status ≠ .received →
      (patch s).status ≠ .requested ∧ (patch s).status ≠ .receiving ∧
        (patch s).status ≠ .received)
    (h : m.update i patch = .ok m') (hm : m.Calm) : m'.Calm := by
  obtain ⟨s, hs, hstates⟩ := update_states h
  intro x hx
  rw [hstates] at hx
  obtain hold | rfl := List.mem_or_eq_of_mem_set hx
  · exact hm x hold
  · exact hst s (hm s (List.mem_of_getElem? (requirePiece_eq_ok.1 hs).1))

theorem calm_markFailed {reason : String} (h : m.markFailed i reason = .ok m') (hm : m.Calm) :
    m'.Calm := by
  unfold markFailed at h
  exact calm_update (by simp) h hm

theorem calm_resetFailedToMissing (h : m.resetFailedToMissing i = .ok m') (hm : m.Calm) :
    m'.Calm := by
  unfold resetFailedToMissing at h
  refine calm_update (fun s hs => ?_) h hm
  split
  · simp
  · exact hs

theorem calm_new (f : FileId) (pieces : List PieceDescriptor) : (new f pieces).Calm := by
  intro s hs
  obtain ⟨piece, -, rfl⟩ := List.mem_map.1 hs
  simp

theorem calm_importPieces {l : List PieceState} (hl : ∀ p ∈ l, p.status ≠ .received)
    (h : m.importPieces l = .ok m') (hm : m.Calm) : m'.Calm := by
  induction l generalizing m with
  | nil =>
    cases h
    exact hm
  | cons imported rest ih =>
    unfold importPieces at h
    split at h
    · cases h
    · rename_i m1 h1
      refine ih (fun p hp => hl p (List.mem_cons_of_mem _ hp)) h
        (calm_update (fun s hs => ?_) h1 hm)
      unfold importPiece
      split
      · simp
      · rename_i hst
        simp only [not_or] at hst
        exact ⟨hst.1, hst.2.1, hl imported List.mem_cons_self⟩

/-- Nothing is in flight in a manager that has just been restored. -/
theorem calm_importPieceMap {f : FileId} {pieces : List PieceDescriptor} {pieceMap : PieceMap}
    (hp : ∀ p ∈ pieceMap.pieces, p.status ≠ .received)
    (h : (new f pieces).importPieceMap pieceMap = .ok m) : m.Calm := by
  unfold importPieceMap at h
  split at h
  · cases h
  · exact calm_importPieces hp h (calm_new f pieces)

theorem Calm.sound (h : m.Calm) : m.Sound := by
  intro j s hs
  obtain ⟨hrequested, hquiet⟩ := h s (List.mem_of_getElem? hs)
  exact ⟨hquiet, fun hr => absurd hr hrequested⟩

theorem Calm.status? (h : m.Calm) (i : Nat) : m.status? i ≠ some .requested := by
  intro hst
  obtain ⟨s, hs, hr⟩ := status?_eq_some.1 hst
  exact (h s (List.mem_of_getElem? (requirePiece_eq_ok.1 hs).1)).1 hr

theorem Sound.status? (h : m.Sound) {s : PieceState} (hs : s ∈ m.states)
    (hr : s.status = .requested) : m.status? s.index = some .requested := by
  obtain ⟨j, hj⟩ := List.mem_iff_getElem?.1 hs
  have hindex : s.index = j := (h j s hj).2 hr
  exact status?_eq_some.2 ⟨s, requirePiece_eq_ok.2 ⟨by rw [hindex, hj], rfl⟩, hr⟩

end PieceManager

/-- The id that a piece was last asked for under. -/
abbrev Asked := FileId → Nat → Option RequestId

namespace Engine

variable {σ : Type}

/-- The request that a requested piece was last asked for under is outstanding. -/
def Backs (e : Engine σ) (asked : Asked) : Prop :=
  ∀ f i, e.status? f i = some .requested → ∃ x r, asked f i = some x ∧
    e.outstandingRequests.get? x = some r ∧ r.fileId = f ∧ r.pieceIndex = i

/-- No requested piece was last asked for under this id. -/
def Loose (e : Engine σ) (asked : Asked) (x : RequestId) : Prop :=
  ∀ f i, e.status? f i = some .requested → asked f i ≠ some x

/-- A requested piece that was last asked for under this id is the piece of this manager. -/
def Tied (e : Engine σ) (asked : Asked) (x : RequestId) (ref index : Nat) : Prop :=
  ∀ f i, e.status? f i = some .requested → asked f i = some x →
    e.managers.get? f = some ref ∧ i = index

/-- The id has been handed out, and if its request is outstanding, it is for this piece. -/
def Meets (e : Engine σ) (x : RequestId) (f : FileId) (i : Nat) : Prop :=
  x ∈ e.issued ∧ e.Agrees x f i

/-- Pieces that are requested since were last asked for under new ids. -/
def Since (e : Engine σ) (asked : Asked) (e' : Engine σ) (asked' : Asked) : Prop :=
  ∀ f i x, e'.status? f i = some .requested → asked' f i = some x → x ∈ e.issued →
    e.status? f i = some .requested ∧ asked f i = some x ∧ e'.managers.get? f = e.managers.get? f

variable {e e' e'' : Engine σ} {asked asked' asked'' : Asked} {x : RequestId} {ref index : Nat}

theorem Since.refl (e : Engine σ) (asked : Asked) : e.Since asked e asked :=
  fun _ _ _ hst hx _ => ⟨hst, hx, rfl⟩

theorem Since.trans (h : e.Since asked e' asked') (h' : e'.Since asked' e'' asked'')
    (hissued : e.issued <+: e'.issued) : e.Since asked e'' asked'' := by
  intro f i x hst hx hmem
  obtain ⟨hst', hx', hmanager'⟩ := h' f i x hst hx (hissued.subset hmem)
  obtain ⟨hst'', hx'', hmanager⟩ := h f i x hst' hx' hmem
  exact ⟨hst'', hx'', hmanager'.trans hmanager⟩

theorem Loose.since (hs : e.Since asked e' asked') (hx : x ∈ e.issued) (h : e.Loose asked x) :
    e'.Loose asked' x := by
  intro f i hst hask
  obtain ⟨hst', hask', -⟩ := hs f i x hst hask hx
  exact h f i hst' hask'

theorem Tied.since (hs : e.Since asked e' asked') (hx : x ∈ e.issued)
    (h : e.Tied asked x ref index) : e'.Tied asked' x ref index := by
  intro f i hst hask
  obtain ⟨hst', hask', hmanager⟩ := hs f i x hst hask hx
  rw [hmanager]
  exact h f i hst' hask'

/-- The piece of the manager is not requested, so no other can be tied to it. -/
theorem Tied.loose (h : e.Tied asked x ref index)
    (hst : (e.managerAt ref).status? index ≠ some .requested) : e.Loose asked x := by
  intro f i hrequested hask
  obtain ⟨href, rfl⟩ := h f i hrequested hask
  refine hst ?_
  simpa [status?, href] using hrequested

/-- A request that is outstanding for the piece of the manager is tied to it. -/
theorem Backs.tied (h : e.Backs asked) {f : FileId} (hx : e.Agrees x f index)
    (href : e.managers.get? f = some ref) : e.Tied asked x ref index := by
  intro g i hst hask
  obtain ⟨y, r, hy, hr, rfl, rfl⟩ := h g i hst
  obtain rfl : x = y := by simpa [hask] using hy
  obtain ⟨rfl, rfl⟩ := hx r hr
  exact ⟨href, rfl⟩

/-- What is tied to a piece that its request is not for is loose. -/
theorem Backs.loose (h : e.Backs asked) (ht : e.Tied asked x ref index)
    (hx : ¬ e.Holds x ref index) : e.Loose asked x := by
  intro f i hst hask
  obtain ⟨href, rfl⟩ := ht f i hst hask
  obtain ⟨y, r, hy, hr, rfl, rfl⟩ := h f i hst
  obtain rfl : x = y := by simpa [hask] using hy
  refine hx fun q hq => ?_
  obtain rfl : r = q := by simpa [hr] using hq
  exact ⟨href, rfl⟩

/-- No requested piece relies on a request whose piece is not requested. -/
theorem Backs.loose_of_restored (h : e.Backs asked) (hx : e.Restored x) : e.Loose asked x := by
  intro f i hst hask
  obtain ⟨y, r, hy, hr, rfl, rfl⟩ := h f i hst
  obtain rfl : x = y := by simpa [hask] using hy
  exact hx r hr hst

end Engine

section

variable {σ : Type} [StorageAdapter σ] {t : Turn} {G : Grant} {e e' : Engine σ} {asked : Asked}

omit [StorageAdapter σ] in
/-- Nothing is requested that was not, and the requests of what still is stay. -/
theorem Engine.Backs.keep (h : e.Backs asked)
    (hst : ∀ f i, e'.status? f i = some .requested →
      e.status? f i = some .requested ∧ e'.managers.get? f = e.managers.get? f)
    (hkept : ∀ x r, e.outstandingRequests.get? x = some r →
      e'.status? r.fileId r.pieceIndex = some .requested → asked r.fileId r.pieceIndex = some x →
      e'.outstandingRequests.get? x = some r) :
    ∃ asked', e'.Backs asked' ∧ e.Since asked e' asked' := by
  refine ⟨asked, fun f i hf => ?_, fun f i x hf hx _ => ⟨(hst f i hf).1, hx, (hst f i hf).2⟩⟩
  obtain ⟨x, r, hx, hr, rfl, rfl⟩ := h f i (hst f i hf).1
  exact ⟨x, r, hx, hkept x r hr hf hx, rfl, rfl⟩

omit [StorageAdapter σ] in
/-- A piece that is updated in its manager, to a status in which it is not requested. -/
theorem Engine.status?_putManager {f : FileId} {ref i : Nat} {m : PieceManager}
    (hm : e.managers.get? f = some ref → m.status? i = some .requested →
      (e.managerAt ref).status? i = some .requested)
    (h : (e.putManager ref m).status? f i = some .requested) :
    e.status? f i = some .requested := by
  have hmanagers : (e.putManager ref m).managers = e.managers := rfl
  simp only [status?, hmanagers] at h ⊢
  cases hf : e.managers.get? f with
  | none => simp [hf] at h
  | some r =>
    simp only [hf, managerAt_putManager] at h ⊢
    split at h
    · rename_i heq
      rw [heq.1] at hf ⊢
      exact hm hf h
    · exact h

omit [StorageAdapter σ] in
/-- The manager of a file is replaced by one in which nothing is in flight. -/
theorem Engine.status?_installManager {f g : FileId} {i : Nat} {m : PieceManager} (hm : m.Calm)
    (he : ∀ f ref, e.managers.get? f = some ref → ref < e.heap.length)
    (h : (e.installManager g m).status? f i = some .requested) :
    e.status? f i = some .requested ∧ (e.installManager g m).managers.get? f = e.managers.get? f := by
  by_cases hfg : f = g
  · subst hfg
    have hnew : (e.installManager f m).status? f i = m.status? i := by
      simp [status?, installManager, managerAt]
    exact absurd (hnew ▸ h) (hm.status? i)
  · have hsame : (e.installManager g m).managers.get? f = e.managers.get? f :=
      OrderedMap.get?_set_of_ne _ _ hfg
    refine ⟨?_, hsame⟩
    simp only [status?, hsame] at h ⊢
    cases hf : e.managers.get? f with
    | none => simp [hf] at h
    | some ref =>
      simp only [hf] at h ⊢
      simpa [managerAt, installManager, List.getElem?_append_left (he f ref hf)] using h

/-- What a change does to the pieces in flight, when a request that it may lose is loose. -/
theorem Change.backs (hc : Change t G e e') (hn : e'.issued.Nodup) (he : e.Tidy)
    (hlose : ∀ x, G (.lose x) → e.Loose asked x) (hinstall : ∀ f m, G (.install f m) → m.Calm)
    (hdispose : G .dispose → ∀ f i, e.status? f i ≠ some .requested) (h : e.Backs asked) :
    ∃ asked', e'.Backs asked' ∧ e.Since asked e' asked' := by
  have hlt : ∀ f ref, e.managers.get? f = some ref → ref < e.heap.length :=
    fun f ref hf => (he.managers f ref hf).lt
  have hput : ∀ ref m, (∀ j, m.status? j = some .requested →
        (e.managerAt ref).status? j = some .requested) →
      ∃ asked', (e.putManager ref m).Backs asked' ∧ e.Since asked (e.putManager ref m) asked' := by
    intro ref m hm
    exact h.keep (fun f i hf => ⟨Engine.status?_putManager (fun _ => hm i) hf, rfl⟩) fun x r hr _ _ => hr
  cases hc with
  | fail ref i reason m hm hg =>
    refine hput ref m fun j hj => ?_
    rw [PieceManager.status?_markFailed hm] at hj
    split at hj
    · cases hj
    · exact hj
  | reset ref i m hm =>
    refine hput ref m fun j hj => ?_
    rw [PieceManager.status?_resetFailedToMissing hm] at hj
    split at hj
    · cases hj
    · exact hj
  | verify ref i m hm hg =>
    refine hput ref m fun j hj => ?_
    rw [PieceManager.status?_markVerified hm] at hj
    split at hj
    · cases hj
    · exact hj
  | ask ref m p requestId r hm hmissing hcurrent hid hg =>
    have hfresh : requestId ∉ e.issued := fun hmem =>
      (List.nodup_append.1 hn).2.2 requestId hmem requestId (by simp) rfl
    -- every other piece has the status it had
    have hother : ∀ f i, (e.putManager ref m).status? f i = some .requested →
        ¬ (f = r.fileId ∧ i = r.pieceIndex) → e.status? f i = some .requested := by
      intro f i hf hne
      refine Engine.status?_putManager (fun href hj => ?_) hf
      obtain rfl : f = r.fileId := ((he.managers _ _ hcurrent).file f href)
      rw [PieceManager.status?_markRequested hm, if_neg fun hi => hne ⟨rfl, hi⟩] at hj
      exact hj
    refine ⟨fun f i => if f = r.fileId ∧ i = r.pieceIndex then some requestId else asked f i,
      fun f i hf => ?_, fun f i x hf hx hmem => ?_⟩
    · by_cases heq : f = r.fileId ∧ i = r.pieceIndex
      · exact ⟨requestId, r, if_pos heq, by simp, heq.1.symm, heq.2.symm⟩
      · obtain ⟨x, q, hx, hq, hfile, hindex⟩ := h f i (hother f i hf heq)
        have hne : x ≠ requestId := fun hxr => hfresh (hxr ▸ he.issued x q hq)
        exact ⟨x, q, (if_neg heq).trans hx, (OrderedMap.get?_set_of_ne _ _ hne).trans hq, hfile,
          hindex⟩
    · by_cases heq : f = r.fileId ∧ i = r.pieceIndex
      · obtain rfl : requestId = x := by simpa [heq] using hx
        exact absurd hmem hfresh
      · exact ⟨hother f i hf heq, by simpa [heq] using hx, rfl⟩
  | drop x hg hr =>
    have hfree : e.Loose asked x := hr.elim h.loose_of_restored (hlose x)
    refine h.keep (fun f i hf => ⟨hf, rfl⟩) fun y r hy hst hasked => ?_
    have hne : y ≠ x := by
      rintro rfl
      exact hfree _ _ hst hasked
    exact OrderedMap.get?_delete_eq_some.2 ⟨hne, hy⟩
  | register m hg =>
    unfold Engine.registerManifest at hn ⊢
    simp only at hn ⊢
    split
    · exact h.keep (fun f i hf => ⟨hf, rfl⟩) fun x r hr _ _ => hr
    · refine h.keep (fun f i hf => ?_) fun x r hr _ _ => hr
      exact Engine.status?_installManager (e := e) (PieceManager.calm_new _ _) hlt hf
  | install f m hg =>
    exact h.keep (fun g i hf => Engine.status?_installManager (hinstall f m hg) hlt hf)
      fun x r hr _ _ => hr
  | dispose hg =>
    have hnone := hdispose hg
    exact h.keep (fun f i hf => absurd hf (hnone f i)) fun x r _ hst => absurd hst (hnone _ _)
  | _ => exact h.keep (fun f i hf => ⟨hf, rfl⟩) fun x r hr _ _ => hr

theorem Change.meets {x : RequestId} {f : FileId} {i : Nat} (hc : Change t G e e')
    (hn : e'.issued.Nodup) (h : e.Meets x f i) : e'.Meets x f i := by
  refine ⟨hc.issued_prefix.subset h.1, fun r hr => ?_⟩
  obtain hold | ⟨hnew, -⟩ := hc.outstanding hn hr
  · exact h.2 r hold
  · exact absurd h.1 hnew

theorem Change.issued_eq (hc : Change t G e e') (hG : ∀ ref x r, ¬ G (.ask ref x r)) :
    e'.issued = e.issued := by
  cases hc with
  | ask ref m p x r hm hmissing hcurrent hid hg => exact absurd hg (hG ref x r)
  | register m hg =>
    unfold Engine.registerManifest
    simp only
    split <;> rfl
  | _ => rfl

theorem Change.sound (hc : Change t G e e') (hinstall : ∀ f m, G (.install f m) → m.Calm)
    (h : ∀ ref, (e.managerAt ref).Sound) (ref : Nat) : (e'.managerAt ref).Sound := by
  have hput : ∀ r m, m.Sound → ((e.putManager r m).managerAt ref).Sound := by
    intro r m hm
    rw [Engine.managerAt_putManager]
    split
    · exact hm
    · exact h ref
  have hadd : ∀ m : PieceManager, m.Calm → ∀ e2 : Engine σ, e2.heap = e.heap ++ [m] →
      (e2.managerAt ref).Sound := by
    intro m hm e2 hheap
    have hold := h ref
    unfold Engine.managerAt at hold ⊢
    rw [hheap]
    by_cases hlt : ref < e.heap.length
    · rw [List.getElem?_append_left hlt]
      exact hold
    · rw [List.getElem?_append_right (not_lt.1 hlt)]
      cases ref - e.heap.length with
      | zero => exact hm.sound
      | succ k =>
        intro j s hs
        simp at hs
  cases hc with
  | fail r i reason m hm => exact hput r m (PieceManager.sound_markFailed hm (h r))
  | reset r i m hm => exact hput r m (PieceManager.sound_resetFailedToMissing hm (h r))
  | verify r i m hm => exact hput r m (PieceManager.sound_markVerified hm (h r))
  | ask r m p x q hm => exact hput r m (PieceManager.sound_markRequested hm (h r))
  | register m hg =>
    unfold Engine.registerManifest
    simp only
    split
    · exact h ref
    · exact hadd _ (PieceManager.calm_new _ _) _ rfl
  | install f m hg => exact hadd m (hinstall f m hg) _ rfl
  | _ => exact h ref

end

namespace Engine

variable {σ : Type}

/-- The pieces in flight are in order. -/
structure InFlight (e : Engine σ) (asked : Asked) : Prop where
  tidy : e.Tidy
  backs : e.Backs asked
  sound : ∀ ref, (e.managerAt ref).Sound
  headers : ∀ p h, e.pendingChunks.get? p = some h → e.Meets h.requestId h.fileId h.pieceIndex

/-- What a stretch of code may do without harm to the pieces in flight. -/
structure Admits (e : Engine σ) (asked : Asked) (G : Grant) : Prop where
  lose : ∀ x, G (.lose x) → x ∈ e.issued ∧ e.Loose asked x
  install : ∀ f m, G (.install f m) → m.Calm
  header : ∀ p h, G (.header p h) → e.Held p h.requestId ∧ e.Meets h.requestId h.fileId h.pieceIndex
  dispose : G .dispose → (∀ ref x r, ¬ G (.ask ref x r)) ∧
    ∀ f i, e.status? f i ≠ some .requested

end Engine

section

variable {σ : Type} [StorageAdapter σ] {t : Turn} {G : Grant} {e e' : Engine σ} {asked : Asked}

theorem Change.inFlight (hc : Change t G e e') (hn : e'.issued.Nodup) (hG : e.Admits asked G)
    (h : e.InFlight asked) :
    ∃ asked', e'.InFlight asked' ∧ e.Since asked e' asked' ∧ e'.Admits asked' G := by
  obtain ⟨asked', hbacks, hsince⟩ := hc.backs hn h.tidy (fun x hx => (hG.lose x hx).2) hG.install
    (fun hd => (hG.dispose hd).2) h.backs
  have htidy : e'.Tidy := hc.tidy hn (fun p header hg => (hG.header p header hg).1) h.tidy
  refine ⟨asked', ⟨htidy, hbacks, hc.sound hG.install h.sound, fun p header hp => ?_⟩, hsince,
    fun x hx => ?_, hG.install, fun p header hg => ?_, fun hd => ?_⟩
  · refine hc.meets hn ?_
    cases hc with
    | headers pending hnew hlost =>
      obtain hold | hg := hnew p header hp
      · exact h.headers p header hold
      · exact (hG.header p header hg).2
    | register m hg =>
      unfold Engine.registerManifest at hp
      simp only at hp
      split at hp <;> exact h.headers p header hp
    | _ => exact h.headers p header hp
  · obtain ⟨hissued, hfree⟩ := hG.lose x hx
    exact ⟨hc.issued_prefix.subset hissued, hfree.since hsince hissued⟩
  · obtain ⟨hheld, hmeets⟩ := hG.header p header hg
    exact ⟨hc.held hn hheld, hc.meets hn hmeets⟩
  · obtain ⟨hmute, hnone⟩ := hG.dispose hd
    refine ⟨hmute, fun f i hst => ?_⟩
    obtain ⟨x, r, hx, hr, -, -⟩ := hbacks f i hst
    have hissued : x ∈ e.issued := hc.issued_eq hmute ▸ htidy.issued x r hr
    exact hnone f i (hsince f i x hst hx hissued).1

theorem Changes.inFlight (hc : Changes t G e e') (hn : e'.issued.Nodup) (hG : e.Admits asked G)
    (h : e.InFlight asked) : ∃ asked', e'.InFlight asked' ∧ e.Since asked e' asked' := by
  have hall : ∃ asked', e'.InFlight asked' ∧ e.Since asked e' asked' ∧ e'.Admits asked' G := by
    induction hc with
    | refl => exact ⟨asked, h, .refl e asked, hG⟩
    | tail hbefore hlast ih =>
      obtain ⟨asked₁, h₁, hsince₁, hG₁⟩ := ih (hn.sublist hlast.issued_prefix.sublist)
      obtain ⟨asked', h', hsince, hG'⟩ := hlast.inFlight hn hG₁ h₁
      exact ⟨asked', h', hsince₁.trans hsince (Changes.issued_prefix hbefore), hG'⟩
  obtain ⟨asked', h', hsince, -⟩ := hall
  exact ⟨asked', h', hsince⟩

theorem Changes.meets {x : RequestId} {f : FileId} {i : Nat} (hc : Changes t G e e')
    (hn : e'.issued.Nodup) (h : e.Meets x f i) : e'.Meets x f i :=
  Changes.keeps_fresh (fun _ _ hc hn h => hc.meets hn h) hc hn h

end

end PonsWarp.Core
