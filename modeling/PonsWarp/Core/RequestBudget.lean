import PonsWarp.Core.Pacing
import PonsWarp.Core.Restores

set_option autoImplicit false

/-!
How often a piece is asked for. Each request is paid for by the retry count of
the piece, or by its not being missing at the moment.
-/

namespace PonsWarp.Core

open PonsWarp.Data

def Effect.isRequestFor (f : FileId) (i : Nat) : Effect → Bool
  | .send _ (.PIECE_REQUEST m) _ => decide (m.fileId = f) && decide (m.pieceIndex = (i : Number))
  | _ => false

/-- How many times a piece has been asked for. -/
def requestsFor (f : FileId) (i : Nat) (log : List Effect) : Nat :=
  log.countP (Effect.isRequestFor f i)

/-- What a piece has used up of its retries. -/
def PieceState.spent (s : PieceState) : Nat :=
  s.retryCount + if s.status = .missing ∨ s.status = .failed then 0 else 1

namespace PieceManager

theorem spent_update {m m' : PieceManager} {i : Nat} {patch : PieceState → PieceState}
    (hkeep : ∀ s, (patch s).index = s.index) (hspent : ∀ s, s.spent ≤ (patch s).spent)
    (h : m.update i patch = .ok m') {j : Nat} {s : PieceState} (hs : m.requirePiece j = .ok s) :
    ∃ s', m'.requirePiece j = .ok s' ∧ s.spent ≤ s'.spent := by
  obtain ⟨x, hx, hx', hne, -⟩ := update_spec hkeep h
  by_cases hj : j = i
  · subst hj
    rw [hs] at hx
    cases hx
    exact ⟨patch s, hx', hspent s⟩
  · exact ⟨s, (hne j hj).trans hs, le_rfl⟩

theorem spent_markFailed {m m' : PieceManager} {i j : Nat} {reason : String} {s : PieceState}
    (h : m.markFailed i reason = .ok m') (hs : m.requirePiece j = .ok s) :
    ∃ s', m'.requirePiece j = .ok s' ∧ s.spent ≤ s'.spent := by
  unfold markFailed at h
  refine spent_update (by intro _; rfl) ?_ h hs
  intro x
  simp only [PieceState.spent]
  split <;> simp

theorem spent_markVerified {m m' : PieceManager} {i j : Nat} {s : PieceState}
    (h : m.markVerified i = .ok m') (hs : m.requirePiece j = .ok s) :
    ∃ s', m'.requirePiece j = .ok s' ∧ s.spent ≤ s'.spent := by
  unfold markVerified at h
  refine spent_update (by intro _; rfl) ?_ h hs
  intro x
  simp only [PieceState.spent]
  split <;> simp

theorem spent_resetFailedToMissing {m m' : PieceManager} {i j : Nat} {s : PieceState}
    (h : m.resetFailedToMissing i = .ok m') (hs : m.requirePiece j = .ok s) :
    ∃ s', m'.requirePiece j = .ok s' ∧ s.spent ≤ s'.spent := by
  unfold resetFailedToMissing at h
  refine spent_update ?_ ?_ h hs
  · intro x
    split <;> rfl
  · intro x
    by_cases hf : x.status = .failed <;> simp [PieceState.spent, hf]

/-- A manager that lists each index once says the same of a piece wherever it is looked up. -/
theorem status_of_mem_missing {m : PieceManager} {i : Nat} {s : PieceState}
    (hn : m.indices.Nodup) (hi : i ∈ m.getMissingPieces) (hs : m.requirePiece i = .ok s) :
    s.status = .missing ∨ s.status = .failed := by
  obtain ⟨x, hx, hxi⟩ := List.mem_map.1 hi
  obtain ⟨hmem, hst⟩ := List.mem_filter.1 hx
  obtain ⟨hget, hsi⟩ := requirePiece_eq_ok.1 hs
  obtain ⟨k, hk⟩ := List.mem_iff_getElem?.1 hmem
  have hlt : k < m.states.length := (List.getElem?_eq_some_iff.1 hk).1
  have hik : m.indices[k]? = some i := by simp [indices, hk, hxi]
  have hii : m.indices[i]? = some i := by simp [indices, hget, hsi]
  have hsame : k = i := (List.getElem?_inj (by simpa [indices] using hlt) hn).1 (hik.trans hii.symm)
  rw [hsame, hget] at hk
  cases hk
  simpa using hst

theorem spent_markRequested {m m' : PieceManager} {i : Nat} {p : PeerId} {s : PieceState}
    (h : m.markRequested i p = .ok m') (hs : m.requirePiece i = .ok s) :
    ∃ s', m'.requirePiece i = .ok s' ∧ s'.spent = s.retryCount + 1 := by
  unfold markRequested at h
  obtain ⟨x, hx, hx', -, -⟩ := update_spec (by intro _; rfl) h
  rw [hs] at hx
  cases hx
  exact ⟨_, hx', by simp [PieceState.spent]⟩

end PieceManager

namespace Engine

variable {σ : Type}

/-- The managers in use list each index once. -/
def Numbered (e : Engine σ) : Prop :=
  ∀ f ref, e.managers.get? f = some ref → (e.managerAt ref).indices.Nodup

/-- The piece has used up at least so many of its tries. -/
def Paid (e : Engine σ) (f : FileId) (i n : Nat) : Prop :=
  n = 0 ∨ ∃ ref s, e.managers.get? f = some ref ∧ (e.managerAt ref).requirePiece i = .ok s ∧
    n ≤ s.spent

/-- Every request since the log had length `base` is paid for. -/
structure Budget (cfg : Config) (base : Nat) (e : Engine σ) : Prop where
  numbered : e.Numbered
  based : base ≤ e.log.length
  paid : ∀ f i, e.Paid f i (requestsFor f i (e.log.drop base))
  bound : ∀ f i, requestsFor f i (e.log.drop base) ≤ cfg.maxRetries + 1

variable {e e' : Engine σ}

theorem Numbered.putManager {ref : Nat} {m : PieceManager} (h : e.Numbered)
    (hm : m.indices = (e.managerAt ref).indices) : (e.putManager ref m).Numbered := by
  intro f r hr
  have hold : (e.managerAt r).indices.Nodup := h f r hr
  rw [managerAt_putManager]
  split
  · rename_i heq
    rw [hm, ← heq.1]
    exact hold
  · exact hold

theorem Paid.putManager {ref : Nat} {m : PieceManager} {f : FileId} {i n : Nat}
    (h : e.Paid f i n)
    (hm : ∀ j s, (e.managerAt ref).requirePiece j = .ok s →
      ∃ s', m.requirePiece j = .ok s' ∧ s.spent ≤ s'.spent) : (e.putManager ref m).Paid f i n := by
  obtain h | ⟨r, s, hr, hs, hn⟩ := h
  · exact .inl h
  · by_cases heq : r = ref ∧ ref < e.heap.length
    · obtain ⟨rfl, hlt⟩ := heq
      obtain ⟨s', hs', hle⟩ := hm i s hs
      exact .inr ⟨r, s', hr, by rw [managerAt_putManager, if_pos ⟨rfl, hlt⟩]; exact hs',
        hn.trans hle⟩
    · exact .inr ⟨r, s, hr, by rw [managerAt_putManager, if_neg heq]; exact hs, hn⟩

theorem lt_of_requirePiece {ref i : Nat} {s : PieceState}
    (h : (e.managerAt ref).requirePiece i = .ok s) : ref < e.heap.length :=
  lt_of_mem_states (List.getElem?_eq_some_iff.1 (PieceManager.requirePiece_eq_ok.1 h).1).1

theorem registerManifest_managers (e : Engine σ) (manifest : FileManifest) {f : FileId} {ref : Nat}
    (h : e.managers.get? f = some ref) :
    (e.registerManifest manifest).managers.get? f = some ref := by
  simp only [registerManifest]
  split
  · exact h
  · rename_i hm
    have hne : f ≠ manifest.fileId := by
      rintro rfl
      rw [hm] at h
      cases h
    exact (OrderedMap.get?_set_of_ne _ _ hne).trans h

theorem registerManifest_at (e : Engine σ) (manifest : FileManifest) {ref : Nat}
    (h : ref < e.heap.length) : (e.registerManifest manifest).managerAt ref = e.managerAt ref := by
  simp only [registerManifest]
  split
  · rfl
  · simp only [managerAt]
    exact managerAt_append e _ h

theorem Paid.register {f : FileId} {i n : Nat} (manifest : FileManifest) (h : e.Paid f i n) :
    (e.registerManifest manifest).Paid f i n := by
  obtain h | ⟨ref, s, href, hs, hn⟩ := h
  · exact .inl h
  · refine .inr ⟨ref, s, e.registerManifest_managers manifest href, ?_, hn⟩
    rw [e.registerManifest_at manifest (lt_of_requirePiece hs)]
    exact hs

theorem Numbered.register {manifest : FileManifest} (h : e.Numbered)
    (hm : (manifest.pieces.map (·.index)).Nodup) : (e.registerManifest manifest).Numbered := by
  -- a position past the end of the heap may become that of the new manager
  have hat : ∀ ref, ((e.heap ++ [PieceManager.new manifest.fileId manifest.pieces])[ref]?).getD
      ⟨"", []⟩ = e.managerAt ref ∨ ((e.heap ++ [PieceManager.new manifest.fileId
        manifest.pieces])[ref]?).getD ⟨"", []⟩ = .new manifest.fileId manifest.pieces := by
    intro ref
    by_cases hlt : ref < e.heap.length
    · exact .inl (managerAt_append e _ hlt)
    · by_cases heq : ref = e.heap.length
      · subst heq
        exact .inr (by simp)
      · refine .inl ?_
        have hnone : e.heap[ref]? = none := List.getElem?_eq_none (by omega)
        have hnone' : (e.heap ++ [PieceManager.new manifest.fileId manifest.pieces])[ref]? = none :=
          List.getElem?_eq_none (by rw [List.length_append, List.length_singleton]; omega)
        simp only [managerAt, hnone, hnone']
  intro f ref href
  simp only [registerManifest] at href ⊢
  split
  · rename_i r hr
    simp only [hr] at href
    exact h f ref href
  · rename_i hr
    simp only [hr] at href
    simp only [managerAt]
    obtain hold | hnew := hat ref
    · rw [hold]
      by_cases hf : f = manifest.fileId
      · subst hf
        rw [OrderedMap.get?_set_self] at href
        cases href
        have hlen : e.managerAt e.heap.length = ⟨"", []⟩ := by simp [managerAt]
        rw [hlen]
        exact List.nodup_nil
      · rw [OrderedMap.get?_set_of_ne _ _ hf] at href
        exact h f ref href
    · rw [hnew]
      simpa using hm

end Engine

theorem requestsFor_append (f : FileId) (i : Nat) (l more : List Effect) :
    requestsFor f i (l ++ more) = requestsFor f i l + requestsFor f i more := by
  simp [requestsFor]

theorem requestsFor_of_mute {f : FileId} {i : Nat} {l : List Effect}
    (h : ∀ x ∈ l, ¬ x.Requests) : requestsFor f i l = 0 := by
  simp only [requestsFor, List.countP_eq_zero]
  intro x hx
  cases x with
  | send p message failure =>
    cases message with
    | PIECE_REQUEST m => exact absurd ⟨p, m, failure, rfl⟩ (h _ hx)
    | _ => simp [Effect.isRequestFor]
  | _ => simp [Effect.isRequestFor]

/-- A request counts for its own piece only. -/
theorem requestsFor_message {f : FileId} {i : Nat} {t : Turn} {r : OutstandingRequest}
    {l : List Effect} (hl : l = [] ∨ l = [r.message t]) :
    requestsFor f i l ≤ if r.fileId = f ∧ r.pieceIndex = i then 1 else 0 := by
  obtain rfl | rfl := hl
  · simp [requestsFor]
  · by_cases h : r.fileId = f ∧ r.pieceIndex = i
    · simp [requestsFor, OutstandingRequest.message, Effect.isRequestFor, h]
    · simp [requestsFor, OutstandingRequest.message, Effect.isRequestFor, h]

/-- No manager is replaced, and the manifests that are registered list each index once. -/
structure Grant.Numbers (G : Grant) : Prop where
  install : ∀ f m, ¬ G (.install f m)
  register : ∀ m, G (.register m) → (m.pieces.map (·.index)).Nodup

section

variable {σ : Type} [StorageAdapter σ] {e e' : Engine σ} {cfg : Config} {t : Turn} {G : Grant}

theorem Change.numbered (hG : G.Numbers) (h : Change t G e e') (he : e.Numbered) :
    e'.Numbered := by
  cases h with
  | fail ref i reason m hm _ => exact he.putManager (PieceManager.indices_markFailed hm)
  | reset ref i m hm => exact he.putManager (PieceManager.indices_resetFailedToMissing hm)
  | verify ref i m hm _ => exact he.putManager (PieceManager.indices_markVerified hm)
  | ask ref m p requestId r hm _ _ _ _ => exact he.putManager (PieceManager.indices_markRequested hm)
  | register m hg => exact he.register (hG.register m hg)
  | install f m hg => exact absurd hg (hG.install f m)
  | _ => exact he

theorem Change.paid (hG : G.Numbers) (hask : ∀ ref id r, ¬ G (.ask ref id r))
    (h : Change t G e e') {f : FileId} {i n : Nat} (he : e.Paid f i n) : e'.Paid f i n := by
  cases h with
  | fail ref j reason m hm _ => exact he.putManager fun k s => PieceManager.spent_markFailed hm
  | reset ref j m hm => exact he.putManager fun k s => PieceManager.spent_resetFailedToMissing hm
  | verify ref j m hm _ => exact he.putManager fun k s => PieceManager.spent_markVerified hm
  | ask ref m p requestId r hm _ _ _ hg => exact absurd hg (hask ref requestId r)
  | register m hg => exact he.register m
  | install f m hg => exact absurd hg (hG.install f m)
  | _ => exact he

/-- What asks for nothing leaves the counts alone. -/
theorem Changes.requests (h : Changes t G.mute e e') {base : Nat} (hb : base ≤ e.log.length) :
    base ≤ e'.log.length ∧
      ∀ f i, requestsFor f i (e'.log.drop base) = requestsFor f i (e.log.drop base) := by
  obtain ⟨l, hl, hspeaks⟩ := h.log
  have hmute : ∀ x ∈ l, ¬ x.Requests := by
    intro x hx
    obtain ⟨event, rfl⟩ | hg := hspeaks x hx
    · rintro ⟨p, m, failure, he⟩
      cases he
    · exact hg.2
  refine ⟨by rw [hl]; simp; omega, fun f i => ?_⟩
  rw [hl, List.drop_append_of_le_length hb, requestsFor_append, requestsFor_of_mute hmute]
  rfl

theorem Changes.budget (hG : G.Numbers) (h : Changes t G.mute e e') {base : Nat}
    (he : e.Budget cfg base) : e'.Budget cfg base := by
  have hmute : G.mute.Numbers := ⟨fun f m hg => hG.install f m hg.1, fun m hg => hG.register m hg.1⟩
  obtain ⟨hbased, hcount⟩ := h.requests he.based
  refine ⟨h.keeps (fun _ _ hc => hc.numbered hmute) he.numbered, hbased, fun f i => ?_,
    fun f i => ?_⟩
  · rw [hcount]
    exact h.keeps (P := fun e => e.Paid f i _)
      (fun _ _ hc => hc.paid hmute fun _ _ _ hg => hg.2 trivial) (he.paid f i)
  · rw [hcount]
    exact he.bound f i

omit [StorageAdapter σ] in
/-- A request uses up a try of its own piece, which had one left. -/
theorem Engine.Askable.paid {ref : Nat} {m : PieceManager} {r : OutstandingRequest}
    (h : e.Askable ref m r) (hn : e.Numbered) (hretry : e.Retriable cfg ref r.pieceIndex)
    {f : FileId} {i n : Nat} (he : e.Paid f i n) :
    (e.ask t ref m r).Paid f i (n + if r.fileId = f ∧ r.pieceIndex = i then 1 else 0) ∧
      (r.fileId = f ∧ r.pieceIndex = i → n ≤ cfg.maxRetries) := by
  have hmarked := h.marked
  have hupdate := hmarked
  unfold PieceManager.markRequested at hupdate
  obtain ⟨s, hs, -, -, -⟩ := PieceManager.update_spec (by intro _; rfl) hupdate
  have hstatus := PieceManager.status_of_mem_missing (hn _ _ h.current) h.missing hs
  have hleft := hretry s hs
  have hspent : s.spent = s.retryCount := by simp [PieceState.spent, hstatus]
  obtain ⟨s', hs', hspent'⟩ := PieceManager.spent_markRequested hmarked hs
  have hlt := Engine.lt_of_requirePiece hs
  have hat : (e.ask t ref m r).managerAt ref = m := by
    have hput := e.managerAt_putManager ref ref m
    rw [if_pos ⟨rfl, hlt⟩] at hput
    exact hput
  by_cases hsame : r.fileId = f ∧ r.pieceIndex = i
  · obtain ⟨rfl, rfl⟩ := hsame
    have hn : n ≤ s.retryCount := by
      obtain h0 | ⟨ref', x, href', hx, hle⟩ := he
      · omega
      · have hcurrent := h.current
        rw [href'] at hcurrent
        cases hcurrent
        rw [hs] at hx
        cases hx
        omega
    refine ⟨.inr ⟨ref, s', h.current, by rw [hat]; exact hs', ?_⟩, fun _ => hn.trans hleft⟩
    simp only [and_self, if_true]
    omega
  · refine ⟨?_, fun hf => absurd hf hsame⟩
    rw [if_neg hsame]
    refine he.putManager fun j x hx => ?_
    by_cases hj : j = r.pieceIndex
    · subst hj
      rw [hs] at hx
      cases hx
      exact ⟨s', hs', by omega⟩
    · obtain ⟨y, hy, -, hne, -⟩ := PieceManager.update_spec (by intro _; rfl) hupdate
      exact ⟨x, (hne j hj).trans hx, le_rfl⟩

theorem Paced.budget (hG : G.Numbers) (h : Paced cfg t G True e e') {base : Nat}
    (he : e.Budget cfg base) : e'.Budget cfg base := by
  cases h with
  | mute h => exact h.budget hG he
  | asked ref m r l before hask hg hretry hafter hl =>
    rename_i e1 e2
    have h1 : e1.Budget cfg base := before.budget hG he
    have hmute : G.mute.Numbers :=
      ⟨fun f m hg => hG.install f m hg.1, fun m hg => hG.register m hg.1⟩
    have hbased : base ≤ (e1.ask t ref m r).log.length := h1.based
    obtain ⟨hbased', hcount⟩ := hafter.requests hbased
    have hpaid : ∀ f i, e2.Paid f i (requestsFor f i (e1.log.drop base) +
        if r.fileId = f ∧ r.pieceIndex = i then 1 else 0) := by
      intro f i
      exact hafter.keeps (P := fun e => e.Paid f i _)
        (fun _ _ hc => hc.paid hmute fun _ _ _ hg => hg.2 trivial)
        (hask.paid h1.numbered (hretry trivial) (h1.paid f i)).1
    have hbound : ∀ f i, requestsFor f i ((e2.log ++ l).drop base) ≤
        requestsFor f i (e1.log.drop base) + if r.fileId = f ∧ r.pieceIndex = i then 1 else 0 := by
      intro f i
      have hlog : requestsFor f i (e2.log.drop base) = requestsFor f i (e1.log.drop base) :=
        hcount f i
      have hsent := requestsFor_message (f := f) (i := i) (t := t) hl
      rw [List.drop_append_of_le_length hbased', requestsFor_append, hlog]
      omega
    have hnumbered : e2.Numbered := by
      refine hafter.keeps (fun _ _ hc => hc.numbered hmute) ?_
      exact h1.numbered.putManager (PieceManager.indices_markRequested hask.marked)
    refine ⟨hnumbered, by simp; omega, fun f i => ?_, fun f i => ?_⟩
    · obtain h0 | ⟨ref', s, href', hs, hle⟩ := hpaid f i
      · exact .inl (by have := hbound f i; simp only; omega)
      · exact .inr ⟨ref', s, href', hs, (hbound f i).trans hle⟩
    · have hleft := (hask.paid (t := t) h1.numbered (hretry trivial) (h1.paid f i)).2
      have hold := h1.bound f i
      have hnew := hbound f i
      by_cases hsame : r.fileId = f ∧ r.pieceIndex = i
      · have hn := hleft hsame
        rw [if_pos hsame] at hnew
        simp only
        omega
      · rw [if_neg hsame] at hnew
        simp only
        omega

end

/-! ### Runs without restores and endgame -/

/-- No session is being restored here and no endgame entered. -/
structure Frame.Steady (frame : Frame) : Prop where
  plain : frame.Plain
  strict : frame.Strict
  initialized : ∀ s ms, frame ≠ .joinInitialized s ms
  loaded : ∀ s ms, frame ≠ .joinLoaded s ms

def Call.Steady : Call → Prop
  | .joinSession .. => False
  | .resumeFile _ => False
  | c => c.Strict

/-- What a grant lets a stretch leave behind is no endgame loop and no join. -/
def Grant.Strict (G : Grant) : Prop :=
  ∀ next, G (.frame next) → next.Strict ∧ (∀ s ms, next ≠ .joinInitialized s ms) ∧
    ∀ s ms, next ≠ .joinLoaded s ms

/-- The loop of `requestGridPieceWindow` keeps its options. -/
theorem Grant.strict_gridLoop {σ : Type} {e : Engine σ} {t : Turn} {f : FileId}
    {options : GridScheduleOptions} {total : Number} (hs : options.endgame = some false) :
    (Grant.gridLoop e t f options total).Strict := by
  intro next h
  obtain (⟨result, rfl⟩ | ⟨result, rfl⟩) | ⟨scheduled, rfl⟩ | ⟨scheduled, rfl⟩ := h
  · exact ⟨trivial, by simp, by simp⟩
  · exact ⟨trivial, by simp, by simp⟩
  · exact ⟨hs, by simp, by simp⟩
  · exact ⟨hs, by simp, by simp⟩

theorem Frame.grant_strict {σ : Type} {e : Engine σ} {t : Turn} {frame : Frame}
    {outcome : Except Failure Value} (hs : frame.Strict)
    (hj : ∀ s ms, frame ≠ .joinInitialized s ms) : (frame.grant e t outcome).Strict := by
  intro next h
  cases next with
  | gridEndgame | gridNext | joinInitialized | joinLoaded =>
    unfold Frame.grant at h
    split at h
    all_goals first
      | exact (show False from h).elim
      | (simp [Grant.only, Grant.filling, Grant.joined, Grant.request, Grant.joining,
          Grant.creating, Grant.grid, Grant.commit, Grant.corrupt, Grant.accept,
          Grant.retire, Grant.lose, Grant.announce, Grant.assembled, Grant.receive,
          Frame.restores] at h; done)
      | exact Grant.strict_gridLoop hs _ h
      | exact absurd rfl (hj _ _)
      | skip
    obtain h | h := h
    · obtain ⟨_, _, _, h⟩ | ⟨_, h⟩ | ⟨_, h⟩ := Grant.again_frame h <;> cases h
    · cases h
  | _ => exact ⟨trivial, by simp, by simp⟩

theorem Call.grant_strict {σ : Type} {e : Engine σ} {t : Turn} {c : Call} (hs : c.Steady) :
    (c.grant e t).Strict := by
  intro next h
  cases next with
  | gridEndgame | gridNext | joinInitialized | joinLoaded =>
    cases c
    all_goals first
      | exact (show False from h).elim
      | exact (show False from hs).elim
      | (refine Grant.strict_gridLoop ?_ _ h; exact hs)
      | simp [Call.grant, Grant.only, Grant.request, Grant.grid, Grant.receive, Grant.compete,
          Grant.expiring, Grant.retire, Grant.cancel] at h
  | _ => exact ⟨trivial, by simp, by simp⟩

namespace World

variable {σ : Type} [StorageAdapter σ] {cfg : Config} {w w' : World σ} {t : Turn} {a : Action}

omit [StorageAdapter σ] in
theorem grant_strict (hc : ∀ c, a ≠ .call c) (hr : ∀ i, a ≠ .resume i) :
    (w.grant (t, a)).Strict := by
  intro next h
  have hnext := grant_called hc hr h
  cases next with
  | gridEndgame | gridNext | joinInitialized | joinLoaded => exact absurd trivial hnext
  | _ => exact ⟨trivial, by simp, by simp⟩

/-- The actions of a run that opens no session again, restores nothing and enters no
endgame, and in which every new manifest lists each index once. -/
def Ordinary (w : World σ) (x : Turn × Action) : Prop :=
  (∀ c, x.2 = .call c → c.Steady) ∧ ∀ m ∈ w.registered x.2, (m.pieces.map (·.index)).Nodup

def Steady (w : World σ) : Prop := ∀ frame, w.Holds frame → frame.Steady

theorem Steady.step (h : w.Steady) (hc : ∀ c, a = .call c → c.Steady) :
    (w.step cfg (t, a)).Steady := by
  intro frame hframe
  obtain hold | hg := (step_spec cfg w t a).frames hframe
  · exact h frame hold
  · have hboth : (w.grant (t, a)).Plain ∧ (w.grant (t, a)).Strict := by
      by_cases hcall : ∃ c, a = .call c
      · obtain ⟨c, rfl⟩ := hcall
        have hsteady := hc c rfl
        refine ⟨Call.grant_plain ?_, Call.grant_strict hsteady⟩
        rintro f rfl
        exact hsteady
      · by_cases hresume : ∃ i, a = .resume i
        · obtain ⟨i, rfl⟩ := hresume
          have htop : ∀ pending top below, w.tasks[i]? = some ⟨pending, top :: below⟩ →
              top.Steady := fun pending top below hi =>
            h top ⟨_, List.mem_of_getElem? hi, List.mem_cons_self⟩
          constructor
          · rintro next ⟨pending, top, below, outcome, hi, -, hl⟩
            obtain ⟨⟨hrestore, hrestored⟩, -, -, hloaded⟩ := htop pending top below hi
            refine Frame.grant_plain outcome hrestore hloaded ?_ next hl
            rintro s merged f rest rfl
            cases hrestored
          · rintro next ⟨pending, top, below, outcome, hi, -, hl⟩
            obtain ⟨-, hstrict, hinit, -⟩ := htop pending top below hi
            exact Frame.grant_strict hstrict hinit next hl
        · exact ⟨grant_plain (fun c he => hcall ⟨c, he⟩) fun i he => hresume ⟨i, he⟩,
            grant_strict (fun c he => hcall ⟨c, he⟩) fun i he => hresume ⟨i, he⟩⟩
    obtain ⟨hplain, hstrict⟩ := hboth
    obtain ⟨hs, hinit, hloaded⟩ := hstrict frame hg
    exact ⟨hplain frame hg, hs, hinit, hloaded⟩

/-- A step of such a run keeps to the budget. -/
theorem budget_step (hw : w.Steady) (ha : w.Ordinary (t, a)) {base : Nat}
    (he : w.engine.Budget cfg base) : (w.step cfg (t, a)).engine.Budget cfg base := by
  obtain ⟨hcall, hnumbered⟩ := ha
  have hG : (w.grant (t, a)).Numbers := by
    refine ⟨fun f m hg => ?_, fun m hg => hnumbered m (grant_register hg)⟩
    -- only the end of a restore replaces a manager, and none is under way
    have hnone : ∀ task ∈ w.tasks, task.Restores fun _ _ => False :=
      fun task htask => .plain task fun frame hf => (hw frame ⟨task, htask, hf⟩).plain
    exact grant_install hnone hg
  refine (paced_step cfg w t a fun _ => ?_).budget hG he
  cases a with
  | call c =>
    have hsteady := hcall c rfl
    cases c with
    | requestGridPieceWindow => exact hsteady
    | _ => trivial
  | resume i =>
    intro pending frame below hi
    exact (hw frame ⟨_, List.mem_of_getElem? hi, List.mem_cons_self⟩).strict
  | _ => trivial

end World

/-- From any state with managers that list each index once, and along every run that
restores nothing and enters no endgame, each piece is asked for `maxRetries + 1` times at
most. -/
theorem requests_are_bounded {σ : Type} [StorageAdapter σ] (cfg : Config) (w w' : World σ)
    (hnumbered : w.engine.Numbered) (hsteady : w.Steady)
    (hrun : Run (World.step cfg) World.Ordinary w w') (f : FileId) (i : Nat) :
    requestsFor f i (w'.engine.log.drop w.engine.log.length) ≤ cfg.maxRetries + 1 := by
  have hstart : w.Steady ∧ w.engine.Budget cfg w.engine.log.length := by
    refine ⟨hsteady, hnumbered, le_rfl, fun f i => .inl ?_, fun f i => ?_⟩
    · simp [requestsFor]
    · simp [requestsFor]
  have hend : w'.Steady ∧ w'.engine.Budget cfg w.engine.log.length := by
    refine hrun.invariant (P := fun v => v.Steady ∧ v.engine.Budget cfg w.engine.log.length) ?_
      hstart
    rintro v ⟨t, a⟩ ⟨hs, hb⟩ ha
    exact ⟨hs.step ha.1, World.budget_step hs ha hb⟩
  exact hend.2.bound f i

namespace Sample

def plainAsk : Turn × Action := (turn, .call (.requestNextPiece "o" "f" none))

/-- The provider refuses the request it was sent. -/
def refusal : Turn × Action :=
  (turn, .message "o" (some { WireMessage.blank "PIECE_REJECT" with
    requestId := some "req_f_0_0_a", reason := some "missing_piece" }))

/-- A manifest that lists its first piece twice. -/
def twins : FileManifest := ⟨"1.0.0", "f", "f", 2, "", 1, 2, none, [piece, ⟨0, 1, 1, some "one"⟩]⟩

/-- A session with that manifest has been joined. -/
def twinned : World MemoryStorageAdapter :=
  steps (World.step config) start
    [(turn, .call (.joinSession "s" [twins])), (turn, .resume 0), (turn, .resume 0)]

theorem ordinary_plainAsk (w : World MemoryStorageAdapter) : w.Ordinary plainAsk := by
  refine ⟨fun c hc => ?_, by simp [plainAsk, World.registered]⟩
  cases hc
  trivial

theorem ordinary_refusal (w : World MemoryStorageAdapter) : w.Ordinary refusal :=
  ⟨by simp [refusal], by simp [refusal, World.registered]⟩

end Sample

/-- A piece is asked for, refused, and asked for again. -/
theorem requests_are_bounded_sample :
    requestsFor "f" 0 ((steps (World.step Sample.config)
        (steps (World.step Sample.config) Sample.start Sample.joined)
        [Sample.plainAsk, Sample.refusal]).engine.log.drop
      (steps (World.step Sample.config) Sample.start Sample.joined).engine.log.length) = 2 ∧
    requestsFor "f" 0 ((steps (World.step Sample.config)
        (steps (World.step Sample.config) Sample.start Sample.joined)
        [Sample.plainAsk, Sample.refusal]).engine.log.drop
      (steps (World.step Sample.config) Sample.start Sample.joined).engine.log.length) ≤ 4 := by
  refine ⟨by decide +kernel, ?_⟩
  have hallowed : Allowed (World.step Sample.config) World.Ordinary
      (steps (World.step Sample.config) Sample.start Sample.joined)
      [Sample.plainAsk, Sample.refusal] :=
    ⟨Sample.ordinary_plainAsk _, Sample.ordinary_refusal _, trivial⟩
  refine requests_are_bounded Sample.config
    (steps (World.step Sample.config) Sample.start Sample.joined) _ ?_ ?_
    (run_of_allowed hallowed) "f" 0
  · intro f ref href
    have hentries : (steps (World.step Sample.config) Sample.start
        Sample.joined).engine.managers.entries = [("f", 0)] := by decide +kernel
    have hmem := OrderedMap.mem_entries_iff.2 href
    rw [hentries] at hmem
    obtain ⟨rfl, rfl⟩ := Prod.mk.inj (List.mem_singleton.1 hmem)
    decide +kernel
  · rintro frame ⟨task, htask, hframe⟩
    have htasks : (steps (World.step Sample.config) Sample.start Sample.joined).tasks =
      [⟨_, [.joinPersisted _ _]⟩] := rfl
    rw [htasks] at htask
    obtain rfl := List.mem_singleton.1 htask
    obtain rfl := List.mem_singleton.1 hframe
    exact ⟨⟨rfl, rfl⟩, trivial, by simp, by simp⟩

/-- A piece that a manifest lists twice is missing under its second entry however often it
is asked for. -/
theorem twin_pieces_are_asked_for_again :
    ∃ w', Run (World.step Sample.config) (fun _ x => x = Sample.plainAsk) Sample.twinned w' ∧
      Sample.config.maxRetries + 1 <
        requestsFor "f" 0 (w'.engine.log.drop Sample.twinned.engine.log.length) := by
  refine ⟨steps (World.step Sample.config) Sample.twinned (List.replicate 5 Sample.plainAsk),
    run_of_allowed ?_, by decide +kernel⟩
  exact ⟨rfl, rfl, rfl, rfl, rfl, trivial⟩

end PonsWarp.Core
