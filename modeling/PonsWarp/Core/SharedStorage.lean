import PonsWarp.Core.Storage
import PonsWarp.Data.Encoded
import PonsWarp.Data.Run

set_option autoImplicit false

/-!
The sessions that share one in-memory storage, and a storage in which they do not
meet: its pieces are kept by session, file and index.
-/

namespace PonsWarp.Core

open PonsWarp.Data

inductive StorageCall where
  | init (sessionId : SessionId)
  | writePiece (fileId : FileId) (index : Nat) (data : ArrayBuffer)
  | readPiece (fileId : FileId) (index : Nat)
  | hasPiece (fileId : FileId) (index : Nat)
  | deletePiece (fileId : FileId) (index : Nat)
  | saveState (state : PersistedSessionState)
  | loadState (sessionId : SessionId)
  | cleanup (sessionId : SessionId)

inductive StorageAnswer where
  | done
  | piece (data : Option ArrayBuffer)
  | has (present : Bool)
  | state (state : Option PersistedSessionState)

namespace MemoryStorageAdapter

def call (s : MemoryStorageAdapter) : StorageCall → Except Failure StorageAnswer × MemoryStorageAdapter
  | .init sessionId => (s.init sessionId).map (·.map fun _ => .done) id
  | .writePiece f i data => (s.writePiece f i data).map (·.map fun _ => .done) id
  | .readPiece f i => (s.readPiece f i).map (·.map .piece) id
  | .hasPiece f i => (s.hasPiece f i).map (·.map .has) id
  | .deletePiece f i => (s.deletePiece f i).map (·.map fun _ => .done) id
  | .saveState state => (s.saveState state).map (·.map fun _ => .done) id
  | .loadState sessionId => (s.loadState sessionId).map (·.map .state) id
  | .cleanup sessionId => (s.cleanup sessionId).map (·.map fun _ => .done) id

def step (s : MemoryStorageAdapter) (c : StorageCall) : MemoryStorageAdapter := (s.call c).2

/-- What the calls answer, one after the other. -/
def answers (s : MemoryStorageAdapter) : List StorageCall → List (Except Failure StorageAnswer)
  | [] => []
  | c :: rest => (s.call c).1 :: (s.step c).answers rest

end MemoryStorageAdapter

/-- Pieces by session, file and index, and states by session. The calls about pieces are about
the session that is open. -/
structure SessionStorage where
  opened : Option SessionId
  pieces : OrderedMap (SessionId × FileId × Nat) ArrayBuffer
  states : OrderedMap SessionId PersistedSessionState

namespace SessionStorage

def empty : SessionStorage := ⟨none, .empty, .empty⟩

/-- The open session; the empty id opens none. -/
def session? (s : SessionStorage) : Option SessionId := s.opened.filter (· ≠ "")

def inSession (s : SessionStorage) (f : SessionId → StorageAnswer × SessionStorage) :
    Except Failure StorageAnswer × SessionStorage :=
  match s.session? with
  | none => (.error MemoryStorageAdapter.notInitialized, s)
  | some session => (.ok (f session).1, (f session).2)

def call (s : SessionStorage) : StorageCall → Except Failure StorageAnswer × SessionStorage
  | .init session => (.ok .done, { s with opened := some session })
  | .writePiece f i data =>
    s.inSession fun session => (.done, { s with pieces := s.pieces.set (session, f, i) data })
  | .readPiece f i => s.inSession fun session => (.piece (s.pieces.get? (session, f, i)), s)
  | .hasPiece f i => s.inSession fun session => (.has (s.pieces.has (session, f, i)), s)
  | .deletePiece f i =>
    s.inSession fun session => (.done, { s with pieces := s.pieces.delete (session, f, i) })
  | .saveState state =>
    match validatePersistedSessionState state with
    | .error err => (.error err, s)
    | .ok () => (.ok .done, { s with states := s.states.set state.sessionId state })
  | .loadState session => (.ok (.state (s.states.get? session)), s)
  | .cleanup session =>
    (.ok .done, { opened := if s.opened = some session then none else s.opened
                  pieces := s.pieces.deleteAll (s.pieces.keys.filter (·.1 = session))
                  states := s.states.delete session })

def step (s : SessionStorage) (c : StorageCall) : SessionStorage := (s.call c).2

def answers (s : SessionStorage) : List StorageCall → List (Except Failure StorageAnswer)
  | [] => []
  | c :: rest => (s.call c).1 :: (s.step c).answers rest

/-- The key under which the in-memory storage keeps a piece. -/
def codeOf (piece : SessionId × FileId × Nat) : String :=
  MemoryStorageAdapter.key piece.1 piece.2.1 piece.2.2

/-- The piece that a call is about. -/
def piece? : StorageCall → Option (FileId × Nat)
  | .writePiece f i _ | .readPiece f i | .hasPiece f i | .deletePiece f i => some (f, i)
  | _ => none

/-- A call is about a piece whose key is not that of another one, and cleans up the pieces of all
sessions there are. -/
def Separate (s : SessionStorage) : StorageCall → Prop
  | .cleanup session => ∀ piece ∈ s.pieces.keys, piece.1 = session
  | c => ∀ session ∈ s.session?, ∀ piece ∈ piece? c, Clear codeOf s.pieces (session, piece)

instance decidableSeparate (s : SessionStorage) : ∀ c, Decidable (s.Separate c)
  | .cleanup session => inferInstanceAs (Decidable (∀ piece ∈ s.pieces.keys, piece.1 = session))
  | .init session => apart (.init session)
  | .writePiece f i data => apart (.writePiece f i data)
  | .readPiece f i => apart (.readPiece f i)
  | .hasPiece f i => apart (.hasPiece f i)
  | .deletePiece f i => apart (.deletePiece f i)
  | .saveState state => apart (.saveState state)
  | .loadState session => apart (.loadState session)
where
  apart (c : StorageCall) : Decidable
      (∀ session ∈ s.session?, ∀ piece ∈ piece? c, Clear codeOf s.pieces (session, piece)) :=
    inferInstance

end SessionStorage

/-- The in-memory storage holds what the other one does. -/
structure MemoryStorageAdapter.Follows (s : MemoryStorageAdapter) (t : SessionStorage) :
    Prop where
  session : s.sessionId = t.opened
  pieces : Encodes SessionStorage.codeOf s.pieces t.pieces
  states : s.states = t.states

namespace MemoryStorageAdapter

open SessionStorage

variable {s : MemoryStorageAdapter} {t : SessionStorage} {c : StorageCall}

attribute [local simp] MemoryStorageAdapter.call MemoryStorageAdapter.step SessionStorage.call
  SessionStorage.step inSession

theorem Follows.requireSession (h : s.Follows t) :
    s.requireSession = match t.session? with
      | some session => .ok session
      | none => .error notInitialized := by
  unfold MemoryStorageAdapter.requireSession session?
  rw [h.session]
  cases t.opened with
  | none => rfl
  | some id =>
    by_cases hid : id = "" <;> simp [hid, Option.filter]

theorem Follows.cleanup (h : s.Follows t) {session : SessionId}
    (hall : ∀ piece ∈ t.pieces.keys, piece.1 = session) :
    (s.step (.cleanup session)).Follows (t.step (.cleanup session)) := by
  have hkeys : t.pieces.keys.filter (·.1 = session) = t.pieces.keys :=
    List.filter_eq_self.2 fun piece hin => by simpa using hall piece hin
  have hgone : ∀ k, (s.pieces.deleteAll s.pieces.keys).get? k = none := by
    intro k
    rw [OrderedMap.get?_deleteAll]
    split
    · rfl
    · rename_i hout
      simpa [OrderedMap.mem_keys_iff, Option.eq_none_iff_forall_ne_some] using hout
  have hgone' : ∀ k, (t.pieces.deleteAll t.pieces.keys).get? k = none := by
    intro k
    rw [OrderedMap.get?_deleteAll]
    split
    · rfl
    · rename_i hout
      simpa [OrderedMap.mem_keys_iff, Option.eq_none_iff_forall_ne_some] using hout
  refine ⟨?_, ?_, ?_⟩
  · simp [step, call, SessionStorage.step, SessionStorage.call, MemoryStorageAdapter.cleanup,
      h.session]
  · simp only [step, call, SessionStorage.step, SessionStorage.call, MemoryStorageAdapter.cleanup,
      Prod.map, hkeys]
    refine ⟨fun a v hv => ?_, fun b v hv => ?_, fun a a' ha _ _ => ?_⟩
    · rw [hgone'] at hv
      cases hv
    · rw [id, hgone] at hv
      cases hv
    · rw [OrderedMap.has, hgone'] at ha
      cases ha
  · simp [step, call, SessionStorage.step, SessionStorage.call, MemoryStorageAdapter.cleanup,
      h.states]

theorem Follows.writePiece (h : s.Follows t) {f : FileId} {i : Nat} {data : ArrayBuffer}
    (hc : ∀ session ∈ t.session?, Clear codeOf t.pieces (session, f, i)) :
    (s.call (.writePiece f i data)).1 = (t.call (.writePiece f i data)).1 ∧
      (s.step (.writePiece f i data)).Follows (t.step (.writePiece f i data)) := by
  simp only [step, MemoryStorageAdapter.call, SessionStorage.step, SessionStorage.call,
    MemoryStorageAdapter.writePiece, inSession, h.requireSession]
  cases ht : t.session? with
  | none => exact ⟨rfl, h⟩
  | some session => exact ⟨rfl, h.session, h.pieces.set (hc session ht) data, h.states⟩

theorem Follows.deletePiece (h : s.Follows t) {f : FileId} {i : Nat}
    (hc : ∀ session ∈ t.session?, Clear codeOf t.pieces (session, f, i)) :
    (s.call (.deletePiece f i)).1 = (t.call (.deletePiece f i)).1 ∧
      (s.step (.deletePiece f i)).Follows (t.step (.deletePiece f i)) := by
  simp only [step, MemoryStorageAdapter.call, SessionStorage.step, SessionStorage.call,
    MemoryStorageAdapter.deletePiece, inSession, h.requireSession]
  cases ht : t.session? with
  | none => exact ⟨rfl, h⟩
  | some session =>
    have hpieces : Encodes codeOf (s.pieces.delete (codeOf (session, f, i)))
        (t.pieces.delete (session, f, i)) := h.pieces.delete (hc session ht)
    exact ⟨rfl, h.session, hpieces, h.states⟩

theorem Follows.readPiece (h : s.Follows t) {f : FileId} {i : Nat}
    (hc : ∀ session ∈ t.session?, Clear codeOf t.pieces (session, f, i)) :
    (s.call (.readPiece f i)).1 = (t.call (.readPiece f i)).1 ∧
      (s.step (.readPiece f i)).Follows (t.step (.readPiece f i)) := by
  simp only [step, MemoryStorageAdapter.call, SessionStorage.step, SessionStorage.call,
    MemoryStorageAdapter.readPiece, inSession, h.requireSession]
  cases ht : t.session? with
  | none => exact ⟨rfl, h⟩
  | some session =>
    have hget := h.pieces.get? (hc session ht)
    exact ⟨congrArg (fun x => Except.ok (StorageAnswer.piece x)) hget, h⟩

theorem Follows.hasPiece (h : s.Follows t) {f : FileId} {i : Nat}
    (hc : ∀ session ∈ t.session?, Clear codeOf t.pieces (session, f, i)) :
    (s.call (.hasPiece f i)).1 = (t.call (.hasPiece f i)).1 ∧
      (s.step (.hasPiece f i)).Follows (t.step (.hasPiece f i)) := by
  simp only [step, MemoryStorageAdapter.call, SessionStorage.step, SessionStorage.call,
    MemoryStorageAdapter.hasPiece, inSession, h.requireSession]
  cases ht : t.session? with
  | none => exact ⟨rfl, h⟩
  | some session =>
    have hhas := h.pieces.has (hc session ht)
    exact ⟨congrArg (fun x => Except.ok (StorageAnswer.has x)) hhas, h⟩

theorem Follows.saveState (h : s.Follows t) (state : PersistedSessionState) :
    (s.call (.saveState state)).1 = (t.call (.saveState state)).1 ∧
      (s.step (.saveState state)).Follows (t.step (.saveState state)) := by
  simp only [step, MemoryStorageAdapter.call, SessionStorage.step, SessionStorage.call,
    MemoryStorageAdapter.saveState]
  generalize validatePersistedSessionState state = valid
  cases valid with
  | error err => exact ⟨rfl, h⟩
  | ok _ =>
    have hstates : s.states.set state.sessionId state = t.states.set state.sessionId state := by
      rw [h.states]
    exact ⟨rfl, h.session, h.pieces, hstates⟩

/-- A call that is separate has the same answer in both. -/
theorem Follows.call (h : s.Follows t) (hc : t.Separate c) :
    (s.call c).1 = (t.call c).1 ∧ (s.step c).Follows (t.step c) := by
  cases c with
  | init session => exact ⟨rfl, rfl, h.pieces, h.states⟩
  | writePiece f i data => exact h.writePiece fun session ht => hc session ht (f, i) rfl
  | readPiece f i => exact h.readPiece fun session ht => hc session ht (f, i) rfl
  | hasPiece f i => exact h.hasPiece fun session ht => hc session ht (f, i) rfl
  | deletePiece f i => exact h.deletePiece fun session ht => hc session ht (f, i) rfl
  | saveState state => exact h.saveState state
  | loadState session =>
    have hget : s.states.get? session = t.states.get? session := by rw [h.states]
    exact ⟨congrArg (fun x => Except.ok (StorageAnswer.state x)) hget, h⟩
  | cleanup session => exact ⟨rfl, h.cleanup hc⟩

theorem Follows.answers {calls : List StorageCall} (h : s.Follows t)
    (hc : Allowed SessionStorage.step Separate t calls) : s.answers calls = t.answers calls := by
  induction calls generalizing s t with
  | nil => rfl
  | cons c rest ih =>
    obtain ⟨hsame, hnext⟩ := h.call hc.1
    simp only [MemoryStorageAdapter.answers, SessionStorage.answers, hsame, ih hnext hc.2]

end MemoryStorageAdapter

/-- Sessions do not share the storage as long as the calls keep them apart. -/
theorem sessions_are_apart {calls : List StorageCall}
    (hcalls : Allowed SessionStorage.step SessionStorage.Separate .empty calls) :
    MemoryStorageAdapter.empty.answers calls = SessionStorage.empty.answers calls := by
  have hfollows : MemoryStorageAdapter.empty.Follows .empty := ⟨rfl, .empty, rfl⟩
  exact hfollows.answers hcalls

namespace Sample

/-- One session after the other, each cleaned up before the next. -/
def inTurn : List StorageCall :=
  [.init "a", .writePiece "f" 0 [1], .readPiece "f" 0, .cleanup "a", .init "b", .hasPiece "f" 0]

/-- A session is cleaned up beside another one. -/
def beside : List StorageCall :=
  [.init "a", .writePiece "f" 0 [1], .cleanup "b", .hasPiece "f" 0]

/-- Two sessions whose pieces have one key. -/
def mixedUp : List StorageCall :=
  [.init "a:b", .writePiece "c" 0 [1], .init "a", .hasPiece "b:c" 0]

end Sample

theorem sessions_are_apart_sample :
    MemoryStorageAdapter.empty.answers Sample.inTurn =
      SessionStorage.empty.answers Sample.inTurn :=
  sessions_are_apart (by decide +kernel)

/-- One session takes the pieces of another away, or reads them as its own. -/
theorem sessions_meet :
    MemoryStorageAdapter.empty.answers Sample.beside ≠ SessionStorage.empty.answers Sample.beside ∧
      MemoryStorageAdapter.empty.answers Sample.mixedUp ≠
        SessionStorage.empty.answers Sample.mixedUp := by
  constructor
  · intro h
    have hhas : (MemoryStorageAdapter.empty.answers Sample.beside)[3]? =
      some (.ok (.has false)) := rfl
    have hhas' : (SessionStorage.empty.answers Sample.beside)[3]? =
      some (.ok (.has true)) := rfl
    rw [h, hhas'] at hhas
    cases hhas
  · intro h
    have hhas : (MemoryStorageAdapter.empty.answers Sample.mixedUp)[3]? =
      some (.ok (.has true)) := rfl
    have hhas' : (SessionStorage.empty.answers Sample.mixedUp)[3]? =
      some (.ok (.has false)) := rfl
    rw [h, hhas'] at hhas
    cases hhas

end PonsWarp.Core
