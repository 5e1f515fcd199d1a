import PonsWarp.Core.Backing

set_option autoImplicit false

/-!
Runs in which no piece is left requested with nothing under way for it. Every continuation
that takes a request out of the table is tied to a piece that it has settled, or that was
asked for again since; what is not tied so is what a run has to avoid.
-/

namespace PonsWarp.Core

open PonsWarp.Data

/-- What is known of the request or the header that a continuation works for. -/
inductive Tie where
  | tied (x : RequestId) (ref index : Nat)
  | loose (x : RequestId)
  | meets (x : RequestId) (f : FileId) (i : Nat)

def Tie.Stands {σ : Type} (e : Engine σ) (asked : Asked) : Tie → Prop
  | .tied x ref i => x ∈ e.issued ∧ e.Tied asked x ref i
  | .loose x => x ∈ e.issued ∧ e.Loose asked x
  | .meets x f i => e.Meets x f i

def Frame.tie? : Frame → Option Tie
  | .requestSent ref x scheduled => some (.tied x ref scheduled.piece.index)
  | .requestPersisted ref x scheduled => some (.tied x ref scheduled.piece.index)
  | .pieceChecked r => some (.tied r.requestId r.manager r.pieceIndex)
  | .pieceWritten r _ => some (.tied r.requestId r.manager r.pieceIndex)
  | .pieceDeleted r _ => some (.loose r.requestId)
  | .mismatchPersisted r _ => some (.loose r.requestId)
  | .piecePersisted r _ => some (.loose r.requestId)
  | .chunkAppended _ h => some (.meets h.requestId h.fileId h.pieceIndex)
  | .pieceReceived _ h _ => some (.meets h.requestId h.fileId h.pieceIndex)
  | _ => none

theorem Tie.Stands.changes {σ : Type} [StorageAdapter σ] {t : Turn} {G : Grant}
    {e e' : Engine σ} {asked asked' : Asked} {tie : Tie} (hc : Changes t G e e')
    (hn : e'.issued.Nodup) (hs : e.Since asked e' asked') (h : tie.Stands e asked) :
    tie.Stands e' asked' := by
  have hissued : ∀ x, x ∈ e.issued → x ∈ e'.issued :=
    fun x hx => hc.issued_prefix.subset hx
  cases tie with
  | tied x ref i => exact ⟨hissued x h.1, h.2.since hs h.1⟩
  | loose x => exact ⟨hissued x h.1, h.2.since hs h.1⟩
  | meets x f i => exact hc.meets hn h

theorem Grant.again_lose {σ : Type} {e : Engine σ} {t : Turn} {p : PeerId} {f : FileId}
    {options : Option GridScheduleOptions} {x : RequestId} :
    ¬ Grant.again e t p f options (.lose x) := by
  cases options <;> exact id

/-- What a continuation may lose is known from its tie, the rivals of a piece that has been
persisted apart. -/
theorem Frame.grant_lose {σ : Type} {e : Engine σ} {t : Turn} {frame : Frame}
    {outcome : Except Failure Value} {x : RequestId}
    (h : frame.grant e t outcome (.lose x)) :
    (∃ ref i, frame.tie? = some (.tied x ref i) ∧ ¬ e.Holds x ref i) ∨
    frame.tie? = some (.loose x) ∨
    (∃ f i, frame.tie? = some (.meets x f i) ∧ ¬ e.Agrees x f i) ∨
    ∃ r outstanding v, frame = .piecePersisted r outstanding ∧ outcome = .ok v ∧ e.Rival r x ∧
      e.status? r.fileId r.pieceIndex = some .requested := by
  unfold Frame.grant at h
  split at h
  all_goals first
    | exact (show False from h).elim
    | (simp [Grant.only, Grant.filling, Grant.joined, Grant.request, Grant.joining,
        Grant.creating, Grant.grid, Grant.announce] at h; done)
    | skip
  · obtain ⟨rfl, hholds⟩ := h
    exact .inl ⟨_, _, rfl, hholds⟩
  · obtain ⟨rfl, hholds⟩ := h
    exact .inl ⟨_, _, rfl, hholds⟩
  · obtain h | h := h
    · exact h.elim
    · cases h
      exact .inr (.inl rfl)
  · obtain ⟨rfl, hholds⟩ := h
    exact .inl ⟨_, _, rfl, hholds⟩
  · obtain ⟨rfl, -⟩ := h
    exact .inr (.inl rfl)
  · obtain ⟨rfl, -⟩ | ⟨hrival, hst⟩ := h
    · exact .inr (.inl rfl)
    · exact .inr (.inr (.inr ⟨_, _, _, rfl, rfl, hrival, hst⟩))
  · obtain ⟨rfl, hagrees⟩ := h
    exact .inr (.inr (.inl ⟨_, _, rfl, hagrees⟩))
  · obtain h | h := h
    · exact absurd h Grant.again_lose
    · cases h

theorem Grant.again_tie {σ : Type} {e : Engine σ} {t : Turn} {p : PeerId} {f : FileId}
    {options : Option GridScheduleOptions} {next : Frame} {tie : Tie}
    (h : Grant.again e t p f options (.frame next)) (hn : next.tie? = some tie) :
    ∃ ref x scheduled, next = .requestSent ref x scheduled := by
  cases options with
  | none =>
    obtain ⟨ref, scheduled, rfl⟩ := h
    exact ⟨ref, _, scheduled, rfl⟩
  | some options => obtain ⟨result, rfl⟩ | ⟨result, rfl⟩ := h <;> cases hn

/-- A continuation that is left has the tie of the one before, or is the first of a request
or of a receipt, or follows the check or the write of a piece. -/
theorem Frame.grant_tie {σ : Type} {e : Engine σ} {t : Turn} {frame next : Frame}
    {outcome : Except Failure Value} {tie : Tie} (h : frame.grant e t outcome (.frame next))
    (hn : next.tie? = some tie) :
    frame.tie? = some tie ∨ (∃ ref x scheduled, next = .requestSent ref x scheduled) ∨
    (∃ p header r, frame = .chunkAppended p header ∧ next = .pieceChecked r ∧
      r.requestId = header.requestId ∧ r.fileId = header.fileId ∧
      r.pieceIndex = header.pieceIndex) ∨
    (∃ r outstanding, frame = .pieceChecked r ∧ outcome = .ok (.bool false) ∧
      next = .pieceDeleted r outstanding) ∨
    ∃ r outstanding v, frame = .pieceWritten r outstanding ∧ outcome = .ok v ∧
      next = .piecePersisted r outstanding := by
  cases next with
  | requestSent ref x scheduled => exact .inr (.inl ⟨ref, x, scheduled, rfl⟩)
  | requestPersisted | pieceChecked | pieceDeleted | mismatchPersisted | pieceWritten
  | piecePersisted | chunkAppended | pieceReceived =>
    unfold Frame.grant at h
    split at h
    all_goals first
      | exact (show False from h).elim
      | (simp [Grant.only, Grant.filling, Grant.joined, Grant.request, Grant.joining,
          Grant.creating, Grant.grid, Grant.gridLoop, Grant.commit, Grant.corrupt, Grant.accept,
          Grant.retire, Grant.lose, Grant.announce, Frame.restores] at h; done)
      | (cases h; exact .inl hn)
      | (cases h; exact .inr (.inr (.inr (.inl ⟨_, _, rfl, rfl, rfl⟩))))
      | (obtain h | h := h <;> cases h
         exact .inr (.inr (.inr (.inr ⟨_, _, _, rfl, rfl, rfl⟩))))
      | (obtain h | h := h
         · exact .inr (.inl (Grant.again_tie h hn))
         · cases h)
      | (obtain ⟨-, ⟨_, -, h⟩ | ⟨r, h, hf, hi, hx, -⟩⟩ := h <;> cases h <;> first
         | exact .inl hn
         | exact .inr (.inr (.inl ⟨_, _, _, rfl, rfl, hx, hf, by simpa using hi⟩)))
  | _ => cases hn

namespace Engine

variable {σ : Type}

/-- An outstanding request of this kind is for a piece that is still requested. -/
def Awaits (e : Engine σ) (p : RequestId → OutstandingRequest → Prop) : Prop :=
  ∃ x r, e.outstandingRequests.get? x = some r ∧ p x r ∧
    e.status? r.fileId r.pieceIndex = some .requested

/-- What no piece waits for is loose. -/
theorem Backs.loose_of_not_awaits {e : Engine σ} {asked : Asked} {x : RequestId}
    {p : RequestId → OutstandingRequest → Prop} (h : e.Backs asked) (hp : ¬ e.Awaits p)
    (hx : ∀ r, e.outstandingRequests.get? x = some r → p x r) : e.Loose asked x :=
  h.loose_of_restored fun r hr hst => hp ⟨x, r, hr, hx r hr, hst⟩

end Engine

/-- Behind these continuations requests leave the table whatever their pieces wait for, or
a piece is restored in a status that no method gives. -/
def Frame.Strands {σ : Type} (e : Engine σ) : Frame → Except Failure Value → Prop
  | .piecePersisted r _, .ok _ => e.Awaits fun x q =>
      q.fileId = r.fileId ∧ q.pieceIndex = r.pieceIndex ∧ x ≠ r.requestId
  | .disposeFlushed, .ok _ => e.Awaits fun _ _ => True
  | frame, outcome => ∃ pieceMap ∈ frame.pieceMaps outcome, ∃ p ∈ pieceMap.pieces,
      p.status = .received

namespace World

variable {σ : Type}

/-- The action takes a request out of the table whose piece is still requested: it is
cancelled, acknowledged by its peer, or competes with a piece that has been persisted.
Or it receives a piece under the id of no request for it, or restores one that is neither
verified nor to be had. -/
def Strands (w : World σ) : Action → Prop
  | .call (.cancelDirectRequests selector) => w.engine.Awaits fun _ r =>
      ∃ direct, r.direct = some direct ∧ selector.matchesRequest r direct = true
  | .call .dispose => w.engine.Awaits fun _ r => r.direct.isSome = true
  | .call (.cancelCompetingGridRequests f i keep) => w.engine.Awaits fun x r =>
      r.fileId = f ∧ r.pieceIndex = i ∧ x ≠ keep
  | .call (.receivePiece f i x _ _) => ¬ (x ∈ w.engine.issued ∧
      ∀ r, w.engine.outstandingRequests.get? x = some r → r.fileId = f ∧ (r.pieceIndex : Number) = i)
  | .message p (some m) => m.type = "PIECE_ACK" ∧ w.engine.Awaits fun x r =>
      m.requestId = some x ∧ r.peerId = p ∧ m.fileId = some r.fileId ∧
        m.pieceIndex = some (r.pieceIndex : Number)
  | .resume i => ∃ pending frame below outcome, w.tasks[i]? = some ⟨pending, frame :: below⟩ ∧
      w.engine.outcome pending = some outcome ∧ frame.Strands w.engine outcome
  | _ => False

/-- The pieces in flight and the continuations that work for them are in order. -/
structure InFlight (w : World σ) (asked : Asked) : Prop where
  engine : w.engine.InFlight asked
  restores : ∀ task ∈ w.tasks, task.Restores fun _ m => m.Calm
  ties : ∀ frame tie, w.Holds frame → frame.tie? = some tie → tie.Stands w.engine asked

variable {w : World σ} {asked : Asked} {t : Turn} {a : Action} {x : RequestId}

/-- A header that does not fit its request is not there. -/
theorem not_disagrees {e : Engine σ} {h : PieceChunkHeaderMessage}
    (hm : e.Meets h.requestId h.fileId h.pieceIndex) :
    ¬ Grant.failHeader e h (.lose x) := fun hl => hl.2 hm.2

theorem loose_call {c : Call} (h : w.InFlight asked) (hs : ¬ w.Strands (.call c))
    (hg : c.grant w.engine t (.lose x)) : x ∈ w.engine.issued ∧ w.engine.Loose asked x := by
  have hselected : ∀ selector, Engine.selected selector w.engine.outstandingRequests.entries x →
      ¬ w.engine.Awaits (fun _ r => ∃ direct, r.direct = some direct ∧
        selector.matchesRequest r direct = true) →
      x ∈ w.engine.issued ∧ w.engine.Loose asked x := by
    rintro selector ⟨q, direct, hq, hdirect, hmatch⟩ hawaits
    have hget := OrderedMap.mem_entries_iff.1 hq
    refine ⟨h.engine.tidy.issued x q hget, h.engine.backs.loose_of_not_awaits hawaits fun r hr => ?_⟩
    obtain rfl : q = r := by simpa [hget] using hr
    exact ⟨direct, hdirect, hmatch⟩
  cases c with
  | cancelDirectRequests selector => exact hselected selector hg hs
  | dispose =>
    obtain ((hg | hg) | hg) | hg := hg
    · obtain ⟨p, -, hg⟩ := hg
      exact hg.elim
    · refine hselected _ hg fun hawaits => hs ?_
      obtain ⟨y, r, hr, ⟨direct, hdirect, -⟩, hst⟩ := hawaits
      exact ⟨y, r, hr, by simp [hdirect], hst⟩
    · obtain ⟨windows, hg⟩ := hg
      cases hg
    · cases hg
  | cancelCompetingGridRequests f i keep =>
    obtain hg | ⟨y, heq, hst, r, hr, rfl, rfl, hne⟩ := hg
    · exact hg.elim
    · cases heq
      exact absurd ⟨x, r, OrderedMap.mem_entries_iff.1 hr, ⟨rfl, rfl, hne⟩, hst⟩ hs
  | _ =>
    first
      | exact (show False from hg).elim
      | simp [Call.grant, Grant.only, Grant.restoring, Grant.expiring, Grant.retire] at hg

theorem loose_message {p : PeerId} {m : WireMessage} (h : w.InFlight asked)
    (hs : ¬ w.Strands (.message p (some m))) (hg : Grant.message w.engine t p m (.lose x)) :
    x ∈ w.engine.issued ∧ w.engine.Loose asked x := by
  obtain ⟨-, hl⟩ | ⟨-, map, -, hl⟩ | ⟨-, header, -, hactive, -, ⟨-, hl⟩ | ⟨previous, -, -, hl⟩⟩ |
    ⟨htype, y, f, i, hy, hf, hi, hl⟩ | ⟨-, y, -, hl⟩ | ⟨-, y, -, r, -, -, hl⟩ := hg
  · cases hl
  · exact hl.elim
  · cases hl
  · obtain ⟨r, hr, -, hfile, hindex⟩ := hactive
    refine absurd hl (not_disagrees ⟨h.engine.tidy.issued _ r hr, fun q hq => ?_⟩)
    obtain rfl : r = q := by simpa [hr] using hq
    exact ⟨hfile, hindex⟩
  · obtain ⟨rfl, r, hr, hpeer, rfl, hindex⟩ := hl
    refine ⟨h.engine.tidy.issued _ r hr, h.engine.backs.loose_of_restored fun q hq hst => ?_⟩
    obtain rfl : r = q := by simpa [hr] using hq
    exact hs ⟨htype, x, r, hr, ⟨hy, hpeer, hf, by rw [hi, hindex]⟩, hst⟩
  · cases hl
  · obtain hl | hl := hl
    · exact hl.elim
    · exact absurd hl Grant.again_lose

theorem loose_resume {i : Nat} (h : w.InFlight asked) (hs : ¬ w.Strands (.resume i))
    (hg : w.resumeGrant t i (.lose x)) : x ∈ w.engine.issued ∧ w.engine.Loose asked x := by
  obtain ⟨pending, frame, below, outcome, hi, ho, hg⟩ := hg
  have htop : w.Holds frame := ⟨_, List.mem_of_getElem? hi, List.mem_cons_self⟩
  obtain ⟨ref, index, htie, hholds⟩ | htie | ⟨f, index, htie, hagrees⟩ |
    ⟨r, outstanding, v, rfl, rfl, ⟨q, hq, hfile, hindex, hne⟩, hst⟩ := Frame.grant_lose hg
  · obtain ⟨hissued, htied⟩ := h.ties frame _ htop htie
    exact ⟨hissued, h.engine.backs.loose htied hholds⟩
  · exact h.ties frame _ htop htie
  · exact absurd (h.ties frame _ htop htie).2 hagrees
  · refine absurd ⟨pending, _, below, _, hi, ho, x, q, hq, ⟨hfile, hindex, hne⟩, ?_⟩ hs
    rw [hfile, hindex]
    exact hst

variable [StorageAdapter σ]

/-- What a step that strands nothing may do does no harm to the pieces in flight. -/
theorem InFlight.admits (h : w.InFlight asked) (hs : ¬ w.Strands a) :
    w.engine.Admits asked (w.grant (t, a)) := by
  refine ⟨fun x hg => ?_, fun f m hg => ?_, fun p header hg => ?_, fun hg => ?_⟩
  · cases a with
    | call c => exact loose_call h hs hg
    | message p message =>
      obtain hg | ⟨m, rfl, hg⟩ := hg
      · cases hg
      · exact loose_message h hs hg
    | binary p data =>
      obtain hg | ⟨header, hheader, -, hg⟩ := hg
      · cases hg
      · exact absurd hg (not_disagrees (h.engine.headers p header hheader))
    | resume i => exact loose_resume h hs hg
    | window ref =>
      obtain ⟨track, hg⟩ | ⟨window, job, rest, -, -, -, hg⟩ := hg
      · cases hg
      · cases job with
        | fill p f key options =>
          obtain hg | hg := hg
          · exact hg.elim
          · cases hg
        | retry y request direct => exact hg.elim
        | expire y => exact hg.elim
    | upload p => exact hg.elim
    | timer k =>
      obtain ⟨y, key, -, hg⟩ := hg
      exact hg.elim
  · exact grant_install h.restores hg
  · obtain ⟨m, r, -, -, -, hr, rfl, hfile, hindex⟩ := grant_header_message hg
    refine ⟨h.engine.tidy.held hr, h.engine.tidy.issued _ r hr, fun q hq => ?_⟩
    obtain rfl : r = q := by simpa [hr] using hq
    exact ⟨hfile, hindex⟩
  · obtain ⟨i, pending, below, v, rfl, hi, ho⟩ := grant_dispose hg
    refine ⟨?_, fun f j hst => ?_⟩
    · rintro ref x r ⟨pending', frame', below', outcome', hi', -, hask⟩
      rw [hi] at hi'
      cases hi'
      obtain err | v' := outcome'
      · exact hask.elim
      · cases hask
    · obtain ⟨x, r, -, hr, rfl, rfl⟩ := h.engine.backs f j hst
      exact hs ⟨pending, _, below, _, hi, ho, x, r, hr, trivial, hst⟩

omit [StorageAdapter σ] in
/-- No piece that is restored is said to be received. -/
theorem InFlight.imports {pieceMap : PieceMap} (h : w.InFlight asked) (hs : ¬ w.Strands a)
    (hfrom : w.Imports a pieceMap) : ∀ p ∈ pieceMap.pieces, p.status ≠ .received := by
  obtain ⟨f, ref, rfl, href, rfl⟩ | ⟨i, pending, frame, below, outcome, rfl, hi, ho, hmem⟩ := hfrom
  · intro p hp
    obtain ⟨j, hj⟩ := List.mem_iff_getElem?.1 hp
    exact (h.engine.sound ref j p hj).1.2
  · intro p hp hst
    refine hs ⟨pending, frame, below, outcome, hi, ho, ?_⟩
    cases frame with
    | piecePersisted | disposeFlushed => cases hmem
    | _ => exact ⟨pieceMap, hmem, p, hp, hst⟩

omit [StorageAdapter σ] in
/-- The continuations a step leaves that is not itself one: of a request, of a frame behind
its header, or of a piece that is received by a call. -/
theorem grant_tie {next : Frame} {tie : Tie} (hr : ∀ i, a ≠ .resume i)
    (h : w.grant (t, a) (.frame next)) (hn : next.tie? = some tie) :
    (∃ ref x scheduled, next = .requestSent ref x scheduled) ∨
    (∃ p header, w.engine.pendingChunks.get? p = some header ∧ next = .chunkAppended p header) ∨
    ∃ f i x data expected r, a = .call (.receivePiece f i x data expected) ∧
      next = .pieceChecked r ∧ r.requestId = x ∧ r.fileId = f ∧ (r.pieceIndex : Number) = i := by
  cases a with
  | resume i => exact absurd rfl (hr i)
  | call c =>
    cases c with
    | receivePiece f i x data expected =>
      obtain ⟨r, rfl, hf, hi, hx, -⟩ := h
      exact .inr (.inr ⟨f, i, x, data, expected, r, rfl, rfl, hx, hf, hi⟩)
    | _ =>
      cases next with
      | requestSent ref x scheduled => exact .inl ⟨ref, x, scheduled, rfl⟩
      | requestPersisted | pieceChecked | pieceDeleted | mismatchPersisted | pieceWritten
      | piecePersisted | chunkAppended | pieceReceived =>
        first
          | exact (show False from h).elim
          | simp [grant, Call.grant, Grant.only, Grant.request, Grant.grid, Grant.gridLoop,
              Grant.restoring, Grant.cancel, Grant.compete, Grant.expiring, Grant.retire,
              Frame.restores] at h
      | _ => cases hn
  | message p message =>
    obtain h | ⟨m, -, ⟨-, h⟩ | ⟨-, map, -, h⟩ | ⟨-, header, -, -, -, h⟩ |
      ⟨-, requestId, f, i, -, -, -, h⟩ | ⟨-, requestId, -, h⟩ | ⟨-, requestId, -, q, -, -, h⟩⟩ := h
    · cases h
      cases hn
    · cases h
    · exact h.elim
    · obtain ⟨-, h⟩ | ⟨previous, -, -, outstanding, finalized, h⟩ := h
      · cases h
      · cases h
        cases hn
    · exact h.elim
    · cases h
    · obtain h | h := h
      · exact h.elim
      · exact .inl (Grant.again_tie h hn)
  | binary p data =>
    obtain h | ⟨header, hheader, h | ⟨-, h | ⟨outstanding, finalized, h⟩⟩⟩ := h
    · cases h
      cases hn
    · exact .inr (.inl ⟨p, header, hheader, h⟩)
    · cases h
      cases hn
    · cases h
      cases hn
  | window ref =>
    obtain ⟨track, h⟩ | ⟨window, job, rest, -, -, -, h⟩ := h
    · cases h
      cases hn
    · cases job with
      | fill p f key options =>
        obtain ⟨r, scheduled, rfl⟩ | h := h
        · exact .inl ⟨r, _, scheduled, rfl⟩
        · cases h
          cases hn
      | retry requestId request direct =>
        obtain ⟨r, scheduled, rfl⟩ := h
        exact .inl ⟨r, _, scheduled, rfl⟩
      | expire requestId => exact h.elim
  | upload p =>
    cases next <;> first | cases hn; done | exact h.elim
  | timer k =>
    obtain ⟨requestId, key, -, h⟩ := h
    exact h.elim

end World

namespace Engine

variable {σ : Type} {e e' : Engine σ} {cfg : Config} {t : Turn} {r r' : Receipt}

theorem heap_storageCall {α : Type} (value : α → Value) (result : Except Failure α × σ) :
    (e.storageCall t value result).1.heap = e.heap := by
  unfold storageCall
  split
  · split <;> rfl
  · rfl

theorem status?_of_put {ref i : Nat} {m : PieceManager} {st : PieceStatus}
    (hlt : ref < e.heap.length) (hst : m.status? i = some st)
    (hheap : e'.heap = (e.putManager ref m).heap) : (e'.managerAt ref).status? i = some st := by
  have hat : e'.managerAt ref = (e.putManager ref m).managerAt ref := by
    simp only [managerAt, hheap]
  rw [hat, managerAt_putManager, if_pos ⟨rfl, hlt⟩, hst]

variable [StorageAdapter σ]

theorem heap_persistState : (e.persistState t).1.heap = e.heap := by
  unfold persistState
  split
  · rfl
  · split
    · rfl
    · exact heap_storageCall _ _

/-- The piece that is deleted has been marked failed. -/
theorem failed_pieceChecked {outstanding : Option OutstandingRequest}
    (h : .pieceDeleted r' outstanding ∈ (e.pieceChecked cfg t r false).2.frames) :
    ((e.pieceChecked cfg t r false).1.managerAt r.manager).status? r.pieceIndex = some .failed := by
  unfold pieceChecked at h ⊢
  by_cases hexpected : e.stillExpected r = true
  · simp only [hexpected, not_true_eq_false, if_false, Bool.false_eq_true, not_false_eq_true,
      if_true] at h ⊢
    split at h
    · cases h
    · rename_i e1 he1
      obtain ⟨m, hm, rfl, hlt⟩ := markFailed_spec he1
      have hst : m.status? r.pieceIndex = some .failed := by
        rw [PieceManager.status?_markFailed hm, if_pos rfl]
      split at h
      · cases h
      · refine status?_of_put hlt hst ?_
        simp only [heap_storageCall]
        split <;> rfl
  · simp [hexpected, Next.frames, Next.ok] at h

/-- The piece that has been written is verified while its state is persisted. -/
theorem verified_pieceWritten {outstanding outstanding' : Option OutstandingRequest} {v : Value}
    (h : .piecePersisted r' outstanding' ∈ (e.pieceWritten cfg t r outstanding (.ok v)).2.frames) :
    ((e.pieceWritten cfg t r outstanding (.ok v)).1.managerAt r.manager).status? r.pieceIndex =
      some .verified := by
  unfold pieceWritten at h ⊢
  simp only at h ⊢
  split at h
  · cases h
  · rename_i e1 he1
    obtain ⟨m, hm, rfl⟩ := onManager_spec he1
    have hst : m.status? r.pieceIndex = some .verified := by
      rw [PieceManager.status?_markVerified hm, if_pos rfl]
    have hlt : r.manager < e.heap.length := by
      unfold PieceManager.markVerified at hm
      obtain ⟨s, hs, -⟩ := PieceManager.update_states hm
      obtain ⟨hindex, -⟩ := PieceManager.requirePiece_eq_ok.1 hs
      exact lt_of_mem_states (List.getElem?_eq_some_iff.1 hindex).1
    refine status?_of_put hlt hst ?_
    rw [heap_persistState]
    cases outstanding <;> rfl

end Engine

namespace World

variable {σ : Type} [StorageAdapter σ] {cfg : Config} {w : World σ} {asked : Asked} {t : Turn}
variable {a : Action} {e e' : Engine σ} {G : Grant} {result : Engine σ × Next}

omit [StorageAdapter σ] in
/-- The request that is sent is for the piece of the manager it was asked with. -/
theorem stands_sent {ref : Nat} {x : RequestId} {scheduled : ScheduledPiece}
    (h : e.InFlight asked)
    (ho : ∃ r, e.outstandingRequests.get? x = some r ∧ e.managers.get? r.fileId = some ref ∧
      r.pieceIndex = scheduled.piece.index) :
    (Tie.tied x ref scheduled.piece.index).Stands e asked := by
  obtain ⟨r, hr, href, hindex⟩ := ho
  refine ⟨h.tidy.issued x r hr, h.backs.tied (fun q hq => ?_) href⟩
  obtain rfl : r = q := by simpa [hr] using hq
  exact ⟨rfl, hindex⟩

/-- The first continuations of a request or of a receipt, behind the stretch that opens them. -/
theorem stands_opened (hd : Does cfg t G e result) (h : result.1.InFlight asked) :
    (∀ ref x scheduled, .requestSent ref x scheduled ∈ result.2.frames →
      (Tie.tied x ref scheduled.piece.index).Stands result.1 asked) ∧
    ∀ r, .pieceChecked r ∈ result.2.frames →
      result.1.Meets r.requestId r.fileId r.pieceIndex →
      (Tie.tied r.requestId r.manager r.pieceIndex).Stands result.1 asked := by
  obtain ⟨-, -, hopens⟩ := hd
  obtain ⟨e1, next⟩ := result
  cases next with
  | done outcome =>
    refine ⟨fun ref x scheduled hf => ?_, fun r hf => ?_⟩
    · cases hf
    · cases hf
  | await pending frames =>
    refine ⟨fun ref x scheduled hf => stands_sent h (hopens _ hf), fun r hf hmeets => ?_⟩
    obtain ⟨-, href, -⟩ := hopens _ hf
    exact ⟨hmeets.1, h.backs.tied hmeets.2 href⟩

theorem InFlight.step (h : w.InFlight asked) (hn : w.Fresh cfg (t, a)) (hs : ¬ w.Strands a) :
    ∃ asked', (w.step cfg (t, a)).InFlight asked' := by
  have hrestores : ∀ task ∈ (w.step cfg (t, a)).tasks, task.Restores fun _ m => m.Calm := by
    refine step_restores h.restores ?_ ?_
    · exact fun f manifest pieceMap m hfrom _ hm =>
        PieceManager.calm_importPieceMap (h.imports hs hfrom) hm
    · intro f index reason m m' m'' hm hfail hreset
      exact PieceManager.calm_resetFailedToMissing hreset (PieceManager.calm_markFailed hfail hm)
  have hspec := step_spec cfg w t a
  have hn' : (w.step cfg (t, a)).engine.issued.Nodup := hn
  obtain ⟨asked', hengine, hsince⟩ := hspec.changes.inFlight hn' (h.admits hs) h.engine
  refine ⟨asked', hengine, hrestores, fun frame tie hframe htie => ?_⟩
  have hkeep : ∀ tie : Tie, tie.Stands w.engine asked →
      tie.Stands (w.step cfg (t, a)).engine asked' :=
    fun tie hstands => hstands.changes hspec.changes hn' hsince
  generalize w.step cfg (t, a) = w' at hspec hn' hengine hsince hkeep hframe
  obtain ⟨task, htask, hframe⟩ := hframe
  cases hspec with
  | alone _ e fired hc => exact hkeep tie (h.ties frame tie ⟨task, htask, hframe⟩ htie)
  | spawn _ hr result hd =>
    obtain hold | hnew := List.mem_append.1 htask
    · exact hkeep tie (h.ties frame tie ⟨task, hold, hframe⟩ htie)
    · obtain rfl := List.mem_singleton.1 hnew
      obtain hnext | hnil := mem_task_stack.1 hframe
      · obtain ⟨hsent, hchecked⟩ := stands_opened hd hengine
        obtain ⟨ref, x, scheduled, rfl⟩ | ⟨p, header, hheader, rfl⟩ |
          ⟨f, i, x, data, expected, r, rfl, rfl, rfl, rfl, rfl⟩ :=
            grant_tie hr (hd.frames frame hnext) htie
        · cases htie
          exact hsent ref x scheduled hnext
        · cases htie
          exact hkeep _ (h.engine.headers p header hheader)
        · cases htie
          have hmeets : w.engine.Meets r.requestId r.fileId r.pieceIndex := by
            simpa [Strands, Engine.Meets, Engine.Agrees] using hs
          exact hchecked r hnext (hkeep (.meets _ _ _) hmeets)
      · cases hnil
  | resume i pending top below outcome result hi ho hr hd =>
    have htop : w.Holds top := ⟨_, List.mem_of_getElem? hi, List.mem_cons_self⟩
    obtain hold | rfl := List.mem_or_eq_of_mem_set htask
    · exact hkeep tie (h.ties frame tie ⟨task, hold, hframe⟩ htie)
    · obtain hnext | hbelow := mem_task_stack.1 hframe
      · obtain ⟨hsent, hchecked⟩ := stands_opened hd hengine
        obtain hsame | ⟨ref, x, scheduled, rfl⟩ | ⟨p, header, r, rfl, rfl, hx, hf, hindex⟩ |
          ⟨r, outstanding, rfl, rfl, rfl⟩ | ⟨r, outstanding, v, rfl, rfl, rfl⟩ :=
            Frame.grant_tie (hd.frames frame hnext) htie
        · exact hkeep tie (h.ties top tie htop hsame)
        · cases htie
          exact hsent ref x scheduled hnext
        · cases htie
          refine hchecked r hnext ?_
          rw [hx, hf, hindex]
          exact hkeep _ (h.ties _ (.meets _ _ _) htop rfl)
        · cases htie
          obtain ⟨hissued, htied⟩ := hkeep _ (h.ties _ (.tied _ _ _) htop rfl)
          subst hr
          have hst := Engine.failed_pieceChecked hnext
          refine ⟨hissued, htied.loose fun hrequested => ?_⟩
          cases hst.symm.trans hrequested
        · cases htie
          obtain ⟨hissued, htied⟩ := hkeep _ (h.ties _ (.tied _ _ _) htop rfl)
          subst hr
          have hst := Engine.verified_pieceWritten (v := v) hnext
          refine ⟨hissued, htied.loose fun hrequested => ?_⟩
          cases hst.symm.trans hrequested
      · exact hkeep tie (h.ties frame tie
          ⟨_, List.mem_of_getElem? hi, List.mem_cons_of_mem _ hbelow⟩ htie)

end World

namespace Engine

variable {σ : Type}

/-- Some outstanding request is for this piece of the file. -/
def Underway (e : Engine σ) (f : FileId) (i : Nat) : Prop :=
  ∃ x r, e.outstandingRequests.get? x = some r ∧ r.fileId = f ∧ r.pieceIndex = i

/-- A requested piece is under way, and one that is neither verified nor under way can be
scheduled again. -/
structure Unstranded (e : Engine σ) (f : FileId) (ref : Nat) (s : PieceState) : Prop where
  underway : s.status = .requested → e.Underway f s.index
  missing : s.status = .verified ∨ e.Underway f s.index ∨
    s.index ∈ (e.managerAt ref).getMissingPieces

theorem InFlight.unstranded {e : Engine σ} {asked : Asked} (h : e.InFlight asked) {f : FileId}
    {ref : Nat} {s : PieceState} (href : e.managers.get? f = some ref)
    (hs : s ∈ (e.managerAt ref).states) : e.Unstranded f ref s := by
  have hunderway : s.status = .requested → e.Underway f s.index := by
    intro hr
    have hst : e.status? f s.index = some .requested := by
      simpa [status?, href] using (h.sound ref).status? hs hr
    obtain ⟨x, r, -, hget, hfile, hindex⟩ := h.backs f s.index hst
    exact ⟨x, r, hget, hfile, hindex⟩
  refine ⟨hunderway, ?_⟩
  have hmissing : s.status = .missing ∨ s.status = .failed →
      s.index ∈ (e.managerAt ref).getMissingPieces := by
    intro hst
    exact List.mem_map.2 ⟨s, List.mem_filter.2 ⟨hs, by simpa using hst⟩, rfl⟩
  obtain ⟨j, hj⟩ := List.mem_iff_getElem?.1 hs
  cases hst : s.status with
  | missing => exact .inr (.inr (hmissing (.inl hst)))
  | requested => exact .inr (.inl (hunderway hst))
  | receiving => exact absurd hst ((h.sound ref) j s hj).1.1
  | received => exact absurd hst ((h.sound ref) j s hj).1.2
  | verified => exact .inl rfl
  | failed => exact .inr (.inr (hmissing (.inr hst)))

end Engine

/-- In a run that hands out no request id twice and strands no request, every piece that is
requested is under way, and every other that is not verified can be scheduled. -/
theorem requested_pieces_are_underway {σ : Type} [StorageAdapter σ] (cfg : Config) (storage : σ)
    (transport : Bool) (w : World σ)
    (h : Run (World.step cfg) (fun v x => v.Fresh cfg x ∧ ¬ v.Strands x.2)
      (.new storage transport) w) (f : FileId) (ref : Nat) (s : PieceState)
    (href : w.engine.managers.get? f = some ref) (hs : s ∈ (w.engine.managerAt ref).states) :
    w.engine.Unstranded f ref s := by
  have hflight : ∃ asked, w.InFlight asked := by
    refine h.invariant (P := fun v => ∃ asked, v.InFlight asked) ?_ ?_
    · rintro v ⟨t, a⟩ ⟨asked, hv⟩ ⟨hfresh, hstrands⟩
      exact hv.step hfresh hstrands
    · refine ⟨fun _ _ => none, ⟨⟨?_, ?_, ?_⟩, ?_, ?_, ?_⟩, ?_, ?_⟩
      · intro x r hr
        cases hr
      · intro p header hp
        cases hp
      · intro g ref hg
        cases hg
      · intro g i hst
        cases hst
      · intro ref j x hx
        simp [Engine.managerAt, World.new, Engine.new] at hx
      · intro p header hp
        cases hp
      · intro task htask
        cases htask
      · rintro frame tie ⟨task, htask, -⟩
        cases htask
  obtain ⟨asked, hw⟩ := hflight
  exact hw.engine.unstranded href hs

theorem World.not_strands_resume {σ : Type} {w : World σ} {i : Nat} {pending : Pending}
    {frame : Frame} {below : List Frame} {outcome : Except Failure Value}
    (hi : w.tasks[i]? = some ⟨pending, frame :: below⟩)
    (ho : w.engine.outcome pending = some outcome) (h : ¬ frame.Strands w.engine outcome) :
    ¬ w.Strands (.resume i) := by
  rintro ⟨pending', frame', below', outcome', hi', ho', hst⟩
  rw [hi] at hi'
  cases hi'
  rw [ho] at ho'
  cases ho'
  exact h hst

namespace Sample

/-- The owner is asked for the piece, and the request is sent and persisted. -/
def asked : List (Turn × Action) :=
  joined ++ [(turn, .call (.requestNextPiece "o" "f" (some ⟨none, none, none, 0⟩)))]

/-- The request is cancelled. -/
def cancelled : List (Turn × Action) :=
  asked ++ [(turn, .call (.cancelDirectRequests ⟨none, none, none, none, none⟩))]

/-- The peer acknowledges the request. -/
def acknowledged : List (Turn × Action) :=
  asked ++ [(turn, .message "o" (some ⟨"PIECE_ACK", some "f", some "req_f_0_0_a", none, some 0,
    none, none, none, none, none, none, none, none⟩))]

end Sample

/-- The piece that has been asked for is requested, and its request is in the table. -/
theorem requested_pieces_are_underway_sample :
    (steps (World.step Sample.config) Sample.start Sample.asked).engine.status? "f" 0 =
      some .requested ∧
    (steps (World.step Sample.config) Sample.start Sample.asked).engine.Unstranded "f" 0
      ⟨0, .requested, 1, 0, 0, some "o", none⟩ := by
  have hallowed : Allowed (World.step Sample.config)
      (fun v x => v.Fresh Sample.config x ∧ ¬ v.Strands x.2) Sample.start Sample.asked := by
    refine ⟨⟨by decide +kernel, fun h => h⟩, ⟨by decide +kernel, ?_⟩, ⟨by decide +kernel, ?_⟩,
      ⟨by decide +kernel, fun h => h⟩, trivial⟩
    · refine World.not_strands_resume rfl rfl ?_
      rintro ⟨pieceMap, hmem, -⟩
      cases hmem
    · refine World.not_strands_resume rfl rfl ?_
      rintro ⟨pieceMap, hmem, -⟩
      cases hmem
  exact ⟨by decide +kernel, requested_pieces_are_underway Sample.config
    MemoryStorageAdapter.empty true _
    (run_of_allowed hallowed) "f" 0 _ (by decide +kernel) (by decide +kernel)⟩

/-- A request that is cancelled, or acknowledged by its peer, leaves its piece requested with
nothing under way for it. -/
theorem requested_pieces_are_stranded :
    (∃ w, Run (World.step Sample.config) (fun v x => v.Fresh Sample.config x) Sample.start w ∧
      w.engine.status? "f" 0 = some .requested ∧ ¬ w.engine.Underway "f" 0) ∧
    ∃ w, Run (World.step Sample.config) (fun v x => v.Fresh Sample.config x) Sample.start w ∧
      w.engine.status? "f" 0 = some .requested ∧ ¬ w.engine.Underway "f" 0 := by
  have hnone : ∀ w : World MemoryStorageAdapter, w.engine.outstandingRequests.entries = [] →
      ¬ w.engine.Underway "f" 0 := by
    rintro w hw ⟨x, r, hr, -⟩
    have hmem := OrderedMap.mem_entries_iff.2 hr
    rw [hw] at hmem
    cases hmem
  have hcancelled : Allowed (World.step Sample.config) (fun v x => v.Fresh Sample.config x)
      Sample.start Sample.cancelled := by decide +kernel
  have hacknowledged : Allowed (World.step Sample.config) (fun v x => v.Fresh Sample.config x)
      Sample.start Sample.acknowledged := by decide +kernel
  exact ⟨⟨_, run_of_allowed hcancelled, by decide +kernel, hnone _ (by decide +kernel)⟩,
    _, run_of_allowed hacknowledged, by decide +kernel, hnone _ (by decide +kernel)⟩

end PonsWarp.Core
