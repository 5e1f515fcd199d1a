import PonsWarp.Core.Completion
import PonsWarp.Core.ReceiveFailures

set_option autoImplicit false

/-!
What a request leaves behind whose message could not be sent. Four methods ask
for a piece; only one of them undoes what it has recorded.
-/

namespace PonsWarp.Core

open PonsWarp.Data

/-- The methods that send a `PIECE_REQUEST`. -/
inductive Issue where
  | requestNextPiece (peerId : PeerId) (fileId : FileId) (options : Option DirectRequestOptions)
  | requestNextGridPiece (fileId : FileId) (options : GridScheduleOptions)
  | maybeScheduleEndgamePiece (fileId : FileId) (options : GridScheduleOptions)

/-- A request with direct options. -/
def Issue.isDirect : Issue → Bool
  | .requestNextPiece _ _ options => options.isSome
  | _ => false

namespace Engine

variable {σ : Type}

/-- Apart from events, nothing has been sent. -/
def Quiet (e e' : Engine σ) : Prop :=
  ∃ l, e'.log = e.log ++ l ∧ ∀ x ∈ l, ∃ event, x = Effect.emit event

theorem Quiet.refl (e : Engine σ) : e.Quiet e := ⟨[], by simp, by simp⟩

theorem Quiet.trans {e e' e'' : Engine σ} (h : e.Quiet e') (h' : e'.Quiet e'') : e.Quiet e'' := by
  obtain ⟨l, hl, hevents⟩ := h
  obtain ⟨l', hl', hevents'⟩ := h'
  refine ⟨l ++ l', by rw [hl', hl, List.append_assoc], fun x hx => ?_⟩
  rcases List.mem_append.1 hx with hx | hx
  · exact hevents x hx
  · exact hevents' x hx

/-- The last thing that has been sent since is this request, and its promise rejects. -/
def Failed (e e' : Engine σ) (p : PeerId) (f : FileId) (i : Nat) (requestId : RequestId)
    (err : Failure) : Prop :=
  ∃ l, e'.log = e.log ++ l ++ [.send p (.PIECE_REQUEST ⟨f, i, requestId, 0⟩) (some err)]

/-- The request is in no table any more, and its piece can be asked for again. -/
structure Withdrawn (e : Engine σ) (f : FileId) (i : Nat) (requestId : RequestId) : Prop where
  outstanding : e.outstandingRequests.get? requestId = none
  lease : ∀ g j l, e.availability.getLease g j = some l → l.requestId ≠ requestId
  piece : e.status? f i = some .missing ∨ e.status? f i = some .failed

variable [StorageAdapter σ] {cfg : Config} {t : Turn} {G : Grant} {e e' mid : Engine σ}

def issue (e : Engine σ) (cfg : Config) (t : Turn) : Issue → Engine σ × Next
  | .requestNextPiece p f options => e.requestNextPiece cfg t p f options
  | .requestNextGridPiece f options => e.requestNextGridPiece cfg t f options
  | .maybeScheduleEndgamePiece f options => e.maybeScheduleEndgamePiece cfg t f options

theorem quiet_of_change (hG : ∀ x, ¬ G (.effect x)) (hc : Change t G e e') : e.Quiet e' := by
  cases hc with
  | say l hl => exact ⟨l, rfl, fun x hx => (hl x hx).resolve_right (hG x)⟩
  | register m _ =>
    unfold registerManifest
    simp only
    split <;> exact .refl e
  | _ => exact .refl e

theorem quiet_of_changes (hG : ∀ x, ¬ G (.effect x)) (hc : Changes t G e e') : e.Quiet e' := by
  induction hc with
  | refl => exact .refl e
  | tail _ hlast ih => exact ih.trans (quiet_of_change hG hlast)

/-- What a stretch that may ask for a piece ends with: it has sent nothing, or it has
recorded a request and sends it last. -/
inductive Asks (t : Turn) (e : Engine σ) (Q : Engine σ → FileId → Nat → RequestId → Frame → Prop) :
    Engine σ × Next → Prop
  | silent (result : Engine σ × Next) (h : e.Quiet result.1) : Asks t e Q result
  | asks (mid : Engine σ) (p : PeerId) (f : FileId) (i : Nat) (requestId : RequestId)
      (frame : Frame) (hquiet : e.Quiet mid) (hq : Q mid f i requestId frame) :
      Asks t e Q ((mid.sendPieceRequest t p f i requestId).1,
        (mid.sendPieceRequest t p f i requestId).2.andThen frame)

variable {Q : Engine σ → FileId → Nat → RequestId → Frame → Prop} {result : Engine σ × Next}

omit [StorageAdapter σ] in
theorem Asks.after (h : mid.Asks t Q result) (hquiet : e.Quiet mid) : e.Asks t Q result := by
  cases h with
  | silent _ h => exact .silent _ (hquiet.trans h)
  | asks mid' p f i requestId frame h hq => exact .asks mid' p f i requestId frame (hquiet.trans h) hq

omit [StorageAdapter σ] in
/-- A send that rejects is the one a stretch ends with. -/
theorem Asks.failed (h : e.Asks t Q result) {p : PeerId} {f : FileId} {i : Nat}
    {requestId : RequestId} {err : Failure} (hfailed : e.Failed result.1 p f i requestId err) :
    ∃ mid frame, Q mid f i requestId frame ∧
      (∃ x, result.1 = { mid with log := mid.log ++ [x] }) ∧
      result.2 = .await (.settled (.error err)) [frame] := by
  obtain ⟨l, hlog⟩ := hfailed
  have hsilent : ∀ e' : Engine σ, e.Quiet e' → e'.log ≠
      e.log ++ l ++ [.send p (.PIECE_REQUEST ⟨f, i, requestId, 0⟩) (some err)] := by
    rintro e' ⟨l', hl', hevents⟩ h
    rw [hl', List.append_assoc, List.append_cancel_left_eq] at h
    obtain ⟨event, hevent⟩ := hevents _ (h ▸ List.mem_append_right l List.mem_cons_self)
    cases hevent
  cases h with
  | silent _ h => exact (hsilent _ h hlog).elim
  | asks mid q g j id frame hquiet hq =>
    unfold sendPieceRequest send at hlog ⊢
    split at hlog
    · rename_i ht
      simp only at hlog
      have hlast := congrArg List.getLast? hlog
      simp only [List.getLast?_concat, Option.some.injEq, Effect.send.injEq,
        TransferMessage.PIECE_REQUEST.injEq, PieceRequestMessage.mk.injEq, Nat.cast_inj] at hlast
      obtain ⟨rfl, ⟨rfl, rfl, rfl, -⟩, hsend⟩ := hlast
      simp only [if_pos ht, hsend, Next.andThen, List.nil_append]
      exact ⟨mid, frame, hq, ⟨_, rfl⟩, rfl⟩
    · exact (hsilent _ hquiet hlog).elim

/-- The request that a plain or direct call has recorded, and its piece. -/
def NextAsked (e : Engine σ) (cfg : Config) (t : Turn) (p : PeerId) (f : FileId)
    (options : Option DirectRequestOptions) (mid : Engine σ) (g : FileId) (i : Nat)
    (requestId : RequestId) (frame : Frame) : Prop :=
  g = f ∧ ∃ ref m scheduled, e.managers.get? f = some ref ∧
    (e.managerAt ref).markRequested i p = .ok m ∧
    mid = (e.putManager ref m).recordRequest cfg t p f i requestId options ∧
    frame = .requestSent ref requestId scheduled ∧ scheduled.piece.index = i

omit [StorageAdapter σ] in
theorem log_recordRequest (cfg : Config) (t : Turn) (p : PeerId) (f : FileId) (i : Nat) (requestId : RequestId)
    (options : Option DirectRequestOptions) :
    (e.recordRequest cfg t p f i requestId options).log = e.log ∧
      (e.recordRequest cfg t p f i requestId options).availability = e.availability ∧
      (e.recordRequest cfg t p f i requestId options).heap = e.heap := by
  cases options with
  | none => exact ⟨rfl, rfl, rfl⟩
  | some o =>
    simp only [recordRequest]
    split <;> exact ⟨rfl, rfl, rfl⟩

omit [StorageAdapter σ] in
theorem asks_requestNextPiece (p : PeerId) (f : FileId) (options : Option DirectRequestOptions) :
    e.Asks t (e.NextAsked cfg t p f options) (e.requestNextPiece cfg t p f options) := by
  unfold requestNextPiece
  split
  · exact .silent _ (.refl e)
  · rename_i ref href
    split
    · exact .silent _ (.refl e)
    · exact .silent _ (.refl e)
    · rename_i scheduled _
      simp only
      split
      · exact .silent _ (.refl e)
      · split
        · exact .silent _ (.refl e)
        · rename_i e₁ he₁
          unfold onManager at he₁
          split at he₁
          · rename_i m hm
            cases he₁
            refine .asks _ p f scheduled.piece.index _ _ ?_
              ⟨rfl, ref, m, scheduled, requireManager_eq_ok.1 href, hm, rfl, rfl, rfl⟩
            exact ⟨[], by simp [(log_recordRequest cfg t p f _ _ options).1, putManager], by simp⟩
          · cases he₁

/-- The request stands in the table, and no continuation takes it out again. -/
def GridAsked (mid : Engine σ) (_ : FileId) (_ : Nat) (requestId : RequestId) (frame : Frame) :
    Prop :=
  (mid.outstandingRequests.get? requestId).isSome ∧
    ((∃ result, frame = .gridSent result) ∨ ∃ result, frame = .endgameSent result)

omit [StorageAdapter σ] in
theorem asks_scheduleRanked (f : FileId) (ref : Nat) (options : GridScheduleOptions)
    (now : Number) (l : List RankedPiece) :
    e.Asks t GridAsked (e.scheduleRanked cfg t f ref options now l) := by
  induction l with
  | nil => exact .silent _ (.refl e)
  | cons item rest ih =>
    unfold scheduleRanked
    split
    · exact .silent _ (.refl e)
    · split
      · exact ih
      · rename_i provider others _
        simp only
        split
        · exact .silent _ (.refl e)
        · rename_i table _
          split
          · exact .silent _ ⟨[], by simp, by simp⟩
          · rename_i e₁ he₁
            unfold onManager at he₁
            split at he₁
            · cases he₁
              exact .asks _ provider.peerId f item.index _ _ ⟨[], by simp [putManager], by simp⟩
                ⟨by simp, .inl ⟨_, rfl⟩⟩
            · cases he₁

omit [StorageAdapter σ] in
theorem asks_scheduleEndgame (f : FileId) (ref : Nat) (options : GridScheduleOptions)
    (active : PeerId → Nat) (now : Number) (l : List Nat) :
    e.Asks t GridAsked (e.scheduleEndgame cfg t f ref options active now l) := by
  induction l generalizing e with
  | nil => exact .silent _ (.refl e)
  | cons i rest ih =>
    unfold scheduleEndgame
    simp only
    split
    · exact ih
    · have hrank : e.Quiet (e.rankProviders f i (candidateSet options) options.ownerPeerId
          (options.maxRequestsPerPeer.getD 1) active now).2 := ⟨[], by simp [rankProviders], by simp⟩
      split
      · exact ih.after hrank
      · rename_i provider others _
        split
        · exact .silent _ hrank
        · rename_i e₁ he₁
          unfold onManager at he₁
          split at he₁
          · cases he₁
            exact .asks _ provider.peerId f i _ _ (hrank.trans ⟨[], by simp [putManager], by simp⟩)
              ⟨by simp, .inr ⟨_, rfl⟩⟩
          · cases he₁

theorem quiet_expireRequestLeases (cfg : Config) (t : Turn) (now : Number) :
    e.Quiet (e.expireRequestLeases cfg now).1 := by
  have hc : Changes t (Grant.leases (e.availability.expireLeases now).1) e
      (e.expireRequestLeases cfg now).1 := changes_expireRequestLeases now le_rfl
  exact quiet_of_changes (fun _ => id) hc

theorem asks_requestNextGridPiece (cfg : Config) (t : Turn) (f : FileId) (options : GridScheduleOptions) :
    e.Asks t GridAsked (e.requestNextGridPiece cfg t f options) := by
  unfold requestNextGridPiece
  split
  · exact .silent _ (.refl e)
  · rename_i ref _
    simp only
    split
    · exact .silent _ (.refl e)
    · have hexpire := quiet_expireRequestLeases (e := e) cfg t
        (options.now.getD (t.now : Number))
      split
      · rename_i e₁ err he₁
        rw [he₁] at hexpire
        exact .silent _ hexpire
      · rename_i e₁ he₁
        rw [he₁] at hexpire
        split
        · exact .silent _ hexpire
        · rename_i e₂ he₂
          have hensure : e₁.Quiet e₂ := by
            have hc : Changes t (fun label => ∃ f n, label = .size f n) e₁ e₂ :=
              changes_ensureAvailability he₂ fun manifest _ => ⟨_, _, rfl⟩
            exact quiet_of_changes (by rintro x ⟨_, _, h⟩; cases h) hc
          have hrank := changes_rankPieces (t := t) (G := ⊥) (e := e₂) f (e₂.managerAt ref)
            (candidateSet options) options.ownerPeerId (options.maxRequestsPerPeer.getD 1)
            (activePerPeer e₂.outstandingRequests.values) (options.now.getD (t.now : Number))
            (e.managerAt ref).getMissingPieces
          have hquiet := (hexpire.trans hensure).trans (quiet_of_changes (fun _ => id) hrank)
          split
          · rename_i e₃ err he₃
            rw [he₃] at hquiet
            exact .silent _ hquiet
          · rename_i e₃ ranked he₃
            rw [he₃] at hquiet
            exact (asks_scheduleRanked f _ options _ _).after hquiet

theorem asks_maybeScheduleEndgamePiece (f : FileId) (options : GridScheduleOptions) :
    e.Asks t GridAsked (e.maybeScheduleEndgamePiece cfg t f options) := by
  unfold maybeScheduleEndgamePiece
  split
  · exact .silent _ (.refl e)
  · split
    · exact .silent _ (.refl e)
    · simp only
      split
      · exact .silent _ (.refl e)
      · have hexpire := quiet_expireRequestLeases (e := e) cfg t
          (options.now.getD (t.now : Number))
        split
        · rename_i e₁ err he₁
          rw [he₁] at hexpire
          exact .silent _ hexpire
        · rename_i e₁ he₁
          rw [he₁] at hexpire
          exact (asks_scheduleEndgame f _ options _ _ _).after hexpire

/-- After a rejected send, a request of the grid stays where it was recorded. -/
theorem Asks.stays (cfg : Config) {started : Engine σ × Next} (h : e.Asks t GridAsked started) {p : PeerId}
    {f : FileId} {i : Nat} {requestId : RequestId} {err : Failure}
    (hfailed : e.Failed started.1 p f i requestId err) (u : Turn) (rest : List Turn) :
    ∃ e' outcome, started.1.follow cfg (u :: rest) (started.2.task []) =
        (e', ⟨.settled outcome, []⟩) ∧ ¬ e'.Withdrawn f i requestId := by
  obtain ⟨mid, frame, ⟨hsome, hframe⟩, ⟨x, hmid⟩, hnext⟩ := h.failed hfailed
  refine ⟨{ mid with log := mid.log ++ [x] }, .error err, ?_, fun hw => ?_⟩
  · rw [hmid, hnext]
    rcases hframe with ⟨result, rfl⟩ | ⟨result, rfl⟩
    · simp [resume, gridSent, Next.throw]
    · simp [resume, thenReturn, Next.throw]
  · have hnone : mid.outstandingRequests.get? requestId = none := hw.outstanding
    simp [hnone] at hsome

/-- After a rejected send, a direct request is given up together with its piece. -/
theorem requestSent_error {p : PeerId} {f : FileId} {options : Option DirectRequestOptions}
    {i : Nat} {requestId : RequestId} {frame : Frame} {mid : Engine σ} {x : Effect} (u : Turn)
    (err : Failure) (h : e.NextAsked cfg t p f options mid f i requestId frame) :
    ∃ e' outcome, Engine.resume { mid with log := mid.log ++ [x] } cfg u (.error err) frame =
        (e', .done outcome) ∧
      e'.availability = e.availability ∧ e'.status? f i = some .failed ∧
      (e'.outstandingRequests.get? requestId = none ↔ options.isSome = true) := by
  obtain ⟨-, ref, m, scheduled, href, hm, rfl, rfl, rfl⟩ := h
  obtain ⟨r, hout, hr, -, hmanagers⟩ := recordRequest_spec (e.putManager ref m) cfg t p f
    scheduled.piece.index requestId options
  obtain ⟨-, htable, hheap⟩ := log_recordRequest (e := e.putManager ref m) cfg t
    p f scheduled.piece.index requestId options
  generalize (e.putManager ref m).recordRequest cfg t p f scheduled.piece.index requestId options =
    mid at *
  unfold PieceManager.markRequested at hm
  obtain ⟨s, hs, hs', -⟩ := PieceManager.update_spec (by intro _; rfl) hm
  have hlt : ref < e.heap.length :=
    lt_of_mem_states (List.getElem?_eq_some_iff.1 (PieceManager.requirePiece_eq_ok.1 hs).1).1
  have hat : mid.managerAt ref = m := by
    simp [managerAt, hheap, putManager, hlt]
  have hfail : ∃ failed, m.markFailed scheduled.piece.index "send_failed" = .ok failed ∧
      failed.status? scheduled.piece.index = some .failed := by
    have hok : ∃ failed, m.markFailed scheduled.piece.index "send_failed" = .ok failed := by
      simp [PieceManager.markFailed, PieceManager.update, hs']
    obtain ⟨failed, hf⟩ := hok
    exact ⟨failed, hf, by simp [PieceManager.status?_markFailed hf]⟩
  obtain ⟨failed, hfailed, hstatus⟩ := hfail
  have hmark : Engine.markFailed { mid with log := mid.log ++ [x] } ref scheduled.piece.index
      "send_failed" = .ok (Engine.putManager { mid with log := mid.log ++ [x] } ref failed) := by
    have hat' : Engine.managerAt { mid with log := mid.log ++ [x] } ref = m := hat
    simp only [markFailed, onManager, hat', hfailed]
  obtain ⟨hheap', hmanagers', hout'⟩ := finalizeDirectRequest_fields
    (Engine.putManager { mid with log := mid.log ++ [x] } ref failed) cfg u requestId .send_failed
  have htable' := finalizeDirectRequest_availability
    (Engine.putManager { mid with log := mid.log ++ [x] } ref failed) cfg u requestId .send_failed
  have hresume : Engine.resume { mid with log := mid.log ++ [x] } cfg u (.error err)
        (.requestSent ref requestId scheduled) =
      ((Engine.finalizeDirectRequest (Engine.putManager { mid with log := mid.log ++ [x] } ref failed)
        cfg u requestId .send_failed).1, .done (.ok (.piece none))) := by
    simp only [resume, requestSent, hmark, Next.ok]
  rw [hresume]
  generalize (Engine.finalizeDirectRequest (Engine.putManager { mid with log := mid.log ++ [x] } ref
    failed) cfg u requestId .send_failed).1 = fin at *
  refine ⟨fin, _, rfl, htable'.trans htable, ?_, ?_⟩
  · have hget : fin.managers.get? f = some ref := by rw [hmanagers']; exact hmanagers ▸ href
    have hmanager : fin.managerAt ref = failed := by simp [managerAt, hheap', putManager, hheap, hlt]
    simp only [status?, hget, hmanager, hstatus]
  · have hget : mid.outstandingRequests.get? requestId = some r := by rw [hout]; simp
    have hdirect : r.direct.isSome = options.isSome := by
      simpa using congrArg Option.isSome hr.direct
    rw [hout']
    simp only [putManager, hget, Option.bind_some, hdirect]
    cases options.isSome <;> simp [hget]

end Engine

/-- A rejected request is withdrawn exactly when it is a direct one, in a state where its
id is not that of a lease already. -/
theorem failed_send_withdraws {σ : Type} [StorageAdapter σ] (cfg : Config) (e : Engine σ)
    (t u : Turn) (rest : List Turn) (issue : Issue) (p : PeerId) (f : FileId) (i : Nat)
    (requestId : RequestId) (err : Failure)
    (h : e.Failed (e.issue cfg t issue).1 p f i requestId err) :
    ∃ e' outcome, (e.issue cfg t issue).1.follow cfg (u :: rest) ((e.issue cfg t issue).2.task []) =
        (e', ⟨.settled outcome, []⟩) ∧
      (e'.Withdrawn f i requestId ↔ issue.isDirect = true ∧
        ∀ g j l, e.availability.getLease g j = some l → l.requestId ≠ requestId) := by
  cases issue with
  | requestNextPiece q g options =>
    obtain ⟨mid, frame, hasked, ⟨x, hmid⟩, hnext⟩ := (Engine.asks_requestNextPiece q g options).failed h
    obtain rfl : f = g := hasked.1
    obtain ⟨e', outcome, hresume, htable, hstatus, hout⟩ :=
      Engine.requestSent_error (x := x) u err hasked
    refine ⟨e', outcome, ?_, ?_⟩
    · simp only [Engine.issue] at hmid hnext ⊢
      rw [hmid, hnext, Next.task_await, Engine.follow_cons, hresume]
      simp
    · constructor
      · rintro ⟨hgone, hlease, -⟩
        exact ⟨hout.1 hgone, htable ▸ hlease⟩
      · rintro ⟨hdirect, hlease⟩
        exact ⟨hout.2 hdirect, htable ▸ hlease, .inr hstatus⟩
  | requestNextGridPiece g options =>
    obtain ⟨e', outcome, hfollow, hnot⟩ :=
      (Engine.asks_requestNextGridPiece cfg t g options).stays cfg h u rest
    exact ⟨e', outcome, hfollow, fun hw => (hnot hw).elim, fun hd => by simp [Issue.isDirect] at hd⟩
  | maybeScheduleEndgamePiece g options =>
    obtain ⟨e', outcome, hfollow, hnot⟩ :=
      (Engine.asks_maybeScheduleEndgamePiece g options).stays cfg h u rest
    exact ⟨e', outcome, hfollow, fun hw => (hnot hw).elim, fun hd => by simp [Issue.isDirect] at hd⟩

namespace Sample

/-- Every send is rejected. -/
def unreachable : Turn := { turn with sendFailure := fun _ => some ⟨none, "closed"⟩ }

/-- The file is registered and no request has been made. -/
def idle : Engine MemoryStorageAdapter := (steps (World.step config) start joined).engine

def directIssue : Issue := .requestNextPiece "owner" "f" (some ⟨none, none, none, 0⟩)

def gridIssue : Issue :=
  .requestNextGridPiece "f" ⟨"owner", [], none, none, none, none, none, none⟩

end Sample

theorem failed_send_withdraws_direct : ∃ e' outcome,
    (Sample.idle.issue Sample.config Sample.unreachable Sample.directIssue).1.follow Sample.config
      [Sample.turn] ((Sample.idle.issue Sample.config Sample.unreachable Sample.directIssue).2.task [])
      = (e', ⟨.settled outcome, []⟩) ∧ e'.Withdrawn "f" 0 "req_f_0_0_a" := by
  obtain ⟨e', outcome, hfollow, hiff⟩ := failed_send_withdraws Sample.config Sample.idle
    Sample.unreachable Sample.turn [] Sample.directIssue "owner" "f" 0 "req_f_0_0_a"
    ⟨none, "closed"⟩ ⟨[], by decide +kernel⟩
  refine ⟨e', outcome, hfollow, hiff.2 ⟨rfl, ?_⟩⟩
  rintro g j l ⟨⟩

/-- A grid request whose send is rejected stays outstanding. -/
theorem failed_grid_send_stays : ¬ ∀ (issue : Issue) (t u : Turn) (p : PeerId) (f : FileId) (i : Nat)
    (requestId : RequestId) (err : Failure) (e' : Engine MemoryStorageAdapter)
    (outcome : Except Failure Value),
    Sample.idle.Failed (Sample.idle.issue Sample.config t issue).1 p f i requestId err →
    (Sample.idle.issue Sample.config t issue).1.follow Sample.config [u]
      ((Sample.idle.issue Sample.config t issue).2.task []) = (e', ⟨.settled outcome, []⟩) →
    e'.Withdrawn f i requestId := by
  intro h
  have hfailed : Sample.idle.Failed (Sample.idle.issue Sample.config Sample.unreachable
      Sample.gridIssue).1 "owner" "f" 0 "req_f_0_0_a" ⟨none, "closed"⟩ := ⟨[], by decide +kernel⟩
  have hasks := Engine.asks_requestNextGridPiece (e := Sample.idle) Sample.config
    Sample.unreachable "f" ⟨"owner", [], none, none, none, none, none, none⟩
  obtain ⟨e', outcome, hfollow, hnot⟩ := hasks.stays Sample.config hfailed Sample.turn []
  exact hnot (h _ _ _ _ _ _ _ _ e' outcome hfailed hfollow)

end PonsWarp.Core
