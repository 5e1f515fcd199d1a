import Mathlib.Data.List.Induction
import PonsWarp.Core.IndexedDbStorage

set_option autoImplicit false

/-!
The sessions that share one database. Whatever the order in which the calls of all pages go on,
a session has its rows to itself, and its cleanup leaves only what was put while it ran.
-/

namespace PonsWarp.Core

open PonsWarp.Data

namespace IDBDatabase

/-- A row that is there after some requests was put by one of them, or none of them was about
it. -/
theorem row_foldl_apply {rs : List IDBRequest} {db : IDBDatabase} {key : RowKey} {v : Row}
    (h : (rs.foldl apply db).row key = some v) :
    (∃ r ∈ rs, r.key = key ∧ r.row? = some v) ∨ (db.row key = some v ∧ ∀ r ∈ rs, r.key ≠ key) := by
  induction rs generalizing db with
  | nil => exact .inr ⟨h, by simp⟩
  | cons r rest ih =>
    obtain ⟨put, hput, hrow⟩ | ⟨hold, hrest⟩ := ih h
    · exact .inl ⟨put, List.mem_cons_of_mem r hput, hrow⟩
    · rw [row_apply] at hold
      split at hold
      · rename_i hkey
        exact .inl ⟨r, List.mem_cons_self, hkey, hold⟩
      · rename_i hkey
        exact .inr ⟨hold, List.forall_mem_cons.2 ⟨hkey, hrest⟩⟩

theorem row_foldl_apply_of_ne {rs : List IDBRequest} {db : IDBDatabase} {key : RowKey}
    (h : ∀ r ∈ rs, r.key ≠ key) : (rs.foldl apply db).row key = db.row key := by
  induction rs generalizing db with
  | nil => rfl
  | cons r rest ih =>
    obtain ⟨hne, hrest⟩ := List.forall_mem_cons.1 h
    rw [List.foldl_cons, ih hrest, row_apply, if_neg hne]

end IDBDatabase

/-- The call does not name the session. -/
def StorageCall.Foreign (s : SessionId) : StorageCall → Prop
  | .init s' | .loadState s' | .cleanup s' => s' ≠ s
  | .saveState state => state.sessionId ≠ s
  | _ => True

instance (s : SessionId) (c : StorageCall) : Decidable (c.Foreign s) := by
  unfold StorageCall.Foreign
  split <;> infer_instance

def IDBFrame.sessionId : IDBFrame → SessionId
  | .opening s _ | .reopened s | .sessionDeleted s | .piecesListed s _ | .manifestsListed s _ _
  | .piecesDeleted s _ | .manifestsDeleted s => s
  | .stateSaved state => state.sessionId

/-- A stretch that has nothing to do with the session. -/
structure IDBStretch.Aloof (s : SessionId) (stretch : IDBStretch) : Prop where
  adapter : stretch.adapter.sessionId ≠ some s
  requests : ∀ r ∈ stretch.requests, r.key.sessionId ≠ s
  next : ∀ frame, stretch.next = .wait frame → frame.sessionId ≠ s

namespace IndexedDBStorageAdapter

variable {a : IndexedDBStorageAdapter} {t : IDBTurn} {db : IDBDatabase} {s session : SessionId}
  {available : Bool}

theorem aloof_stop (h : a.sessionId ≠ some s) (result : Except Failure StorageAnswer) :
    (a.stop result).Aloof s :=
  ⟨h, by simp [stop], by simp [stop]⟩

theorem aloof_request {requests : List IDBRequest} {next : IDBNext} (h : a.sessionId ≠ some s)
    (hrequests : ∀ r ∈ requests, r.key.sessionId ≠ s)
    (hnext : ∀ frame, next = .wait frame → frame.sessionId ≠ s) :
    (a.request t requests next).Aloof s := by
  unfold request
  split
  · split
    · exact ⟨h, by simp, hnext⟩
    · exact aloof_stop h _
  · split
    · exact ⟨h, hrequests, by simp⟩
    · exact ⟨h, hrequests, hnext⟩

theorem aloof_request_one {r : IDBRequest} {next : IDBNext} (h : a.sessionId ≠ some s)
    (hr : r.key.sessionId ≠ s) (hnext : ∀ frame, next = .wait frame → frame.sessionId ≠ s) :
    (a.request t [r] next).Aloof s := by
  refine aloof_request h (fun r' hr' => ?_) hnext
  obtain rfl := List.mem_singleton.1 hr'
  exact hr

theorem aloof_query {next : IDBNext} (h : a.sessionId ≠ some s)
    (hnext : ∀ frame, next = .wait frame → frame.sessionId ≠ s) : (a.query t next).Aloof s := by
  unfold query
  split
  · exact aloof_stop h _
  · split
    · exact aloof_stop h _
    · exact ⟨h, by simp, hnext⟩

theorem aloof_init (h : a.sessionId ≠ some s) (hsession : session ≠ s) (load : Bool) :
    (a.init available session load).Aloof s := by
  unfold init
  split
  · exact aloof_stop h _
  · split
    · refine ⟨by simpa using hsession, by simp, fun frame hframe => ?_⟩
      simp only at hframe
      split at hframe
      · cases hframe
        exact hsession
      · cases hframe
    · refine ⟨h, by simp, fun frame hframe => ?_⟩
      cases hframe
      exact hsession

theorem aloof_inSession {f : SessionId → IDBStretch} (h : a.sessionId ≠ some s)
    (hf : ∀ session, a.sessionId = some session → (f session).Aloof s) :
    (a.inSession f).Aloof s := by
  unfold inSession
  cases hsession : a.requireSession with
  | error err => exact aloof_stop h _
  | ok session =>
    refine hf session ?_
    unfold requireSession at hsession
    split at hsession
    · rename_i id hid
      split at hsession
      · cases hsession
      · cases hsession
        exact hid
    · cases hsession

theorem aloof_start {c : StorageCall} (h : a.sessionId ≠ some s) (hc : c.Foreign s) :
    (a.start t db available c).Aloof s := by
  have hown : ∀ session, a.sessionId = some session → session ≠ s := by
    rintro session hsession rfl
    exact h hsession
  cases c with
  | init session => exact aloof_init h hc false
  | writePiece f i data =>
    refine aloof_inSession h fun session hsession => ?_
    exact aloof_request_one h (hown session hsession) (by simp)
  | readPiece f i => exact aloof_inSession h fun session hsession => aloof_query h (by simp)
  | hasPiece f i => exact aloof_inSession h fun session hsession => aloof_query h (by simp)
  | deletePiece f i =>
    refine aloof_inSession h fun session hsession => ?_
    exact aloof_request_one h (hown session hsession) (by simp)
  | saveState state =>
    simp only [start]
    split
    · exact aloof_stop h _
    · refine aloof_request_one h hc fun frame hframe => ?_
      cases hframe
      exact hc
  | loadState session =>
    simp only [start]
    split
    · exact aloof_init h hc true
    · exact aloof_query h (by simp)
  | cleanup session =>
    refine aloof_request_one h hc fun frame hframe => ?_
    cases hframe
    exact hc

theorem aloof_resume {frame : IDBFrame} (h : a.sessionId ≠ some s) (hframe : frame.sessionId ≠ s) :
    (a.resume t db frame).Aloof s := by
  have hwait : ∀ next frame' : IDBFrame, frame'.sessionId ≠ s → IDBNext.wait frame' = .wait next →
      next.sessionId ≠ s := by
    intro next frame' hne heq
    cases heq
    exact hne
  cases frame with
  | opening session load =>
    simp only [resume]
    split
    · exact aloof_stop h _
    · refine ⟨fun he => hframe (Option.some.inj he), by simp, fun next hnext => ?_⟩
      simp only at hnext
      split at hnext
      · cases hnext
        exact hframe
      · cases hnext
  | reopened session => exact aloof_query h (by simp)
  | stateSaved state =>
    refine aloof_request h (fun r hr => ?_) (by simp)
    obtain ⟨m, -, rfl⟩ := List.mem_map.1 hr
    exact hframe
  | sessionDeleted session => exact aloof_query h fun next => hwait next _ hframe
  | piecesListed session pieceKeys => exact aloof_query h fun next => hwait next _ hframe
  | manifestsListed session pieceKeys manifestKeys =>
    refine aloof_request h (fun r hr => ?_) fun next => hwait next _ hframe
    obtain ⟨k, hk, rfl⟩ := List.mem_map.1 hr
    have hsession : k.1 = session := by simpa using (List.mem_filter.1 hk).2
    exact fun he => hframe (hsession.symm.trans he)
  | piecesDeleted session manifestKeys =>
    refine aloof_request h (fun r hr => ?_) fun next => hwait next _ hframe
    obtain ⟨k, hk, rfl⟩ := List.mem_map.1 hr
    have hsession : k.1 = session := by simpa using (List.mem_filter.1 hk).2
    exact fun he => hframe (hsession.symm.trans he)
  | manifestsDeleted session =>
    refine aloof_stop ?_ _
    simp only
    split
    · simp
    · exact h

end IndexedDBStorageAdapter

namespace IDBWorld

variable {w : IDBWorld} {s : SessionId}

def IDBAction.Foreign (s : SessionId) : IDBAction → Prop
  | .call _ c => c.Foreign s
  | .resume _ => True

instance (s : SessionId) (x : IDBAction) : Decidable (IDBAction.Foreign s x) := by
  unfold IDBAction.Foreign
  split <;> infer_instance

/-- No adapter has the session open, and no call that goes on is about it. -/
structure Aloof (s : SessionId) (w : IDBWorld) : Prop where
  adapters : ∀ a ∈ w.adapters, a.sessionId ≠ some s
  calls : ∀ k frame, (k, .wait frame) ∈ w.calls → frame.sessionId ≠ s

theorem Aloof.stretch {x : IDBTurn × IDBAction} (h : w.Aloof s) (hx : IDBAction.Foreign s x.2)
    {k : Nat} {stretch : IDBStretch} (hs : w.stretch? x.1 x.2 = some (k, stretch)) :
    stretch.Aloof s := by
  obtain ⟨t, action⟩ := x
  cases action with
  | call k' c =>
    obtain ⟨a, ha, heq⟩ := Option.map_eq_some_iff.1 hs
    cases heq
    exact IndexedDBStorageAdapter.aloof_start (h.adapters a (List.mem_of_getElem? ha)) hx
  | resume j =>
    simp only [stretch?] at hs
    split at hs
    · rename_i k' frame hj
      obtain ⟨a, ha, heq⟩ := Option.map_eq_some_iff.1 hs
      cases heq
      exact IndexedDBStorageAdapter.aloof_resume (h.adapters a (List.mem_of_getElem? ha))
        (h.calls _ _ (List.mem_of_getElem? hj))
    · cases hs

theorem Aloof.step {x : IDBTurn × IDBAction} (h : w.Aloof s) (hx : IDBAction.Foreign s x.2) :
    (w.step x).Aloof s ∧ ∀ key : RowKey, key.sessionId = s → (w.step x).db.row key = w.db.row key := by
  unfold IDBWorld.step
  split
  · rename_i k stretch hs
    have hstretch := h.stretch hx hs
    refine ⟨⟨fun a ha => ?_, fun k' frame hframe => ?_⟩, fun key hkey => ?_⟩
    · obtain hold | rfl := List.mem_or_eq_of_mem_set ha
      · exact h.adapters a hold
      · exact hstretch.adapter
    · obtain ⟨t, action⟩ := x
      cases action with
      | call _ c =>
        obtain hold | hnew := List.mem_append.1 hframe
        · exact h.calls k' frame hold
        · rw [List.mem_singleton, Prod.mk.injEq] at hnew
          exact hstretch.next frame hnew.2.symm
      | resume j =>
        obtain hold | hnew := List.mem_or_eq_of_mem_set hframe
        · exact h.calls k' frame hold
        · rw [Prod.mk.injEq] at hnew
          exact hstretch.next frame hnew.2.symm
    · refine IDBDatabase.row_foldl_apply_of_ne fun r hr => ?_
      rintro rfl
      unfold IDBWorld.requests at hr
      rw [hs] at hr
      exact hstretch.requests r (List.mem_of_mem_filter hr) hkey
  · exact ⟨h, fun _ _ => rfl⟩

end IDBWorld

/-- In whatever order the calls of all adapters go on, they leave the rows of a session alone that
none of them names. -/
theorem other_sessions_keep_their_rows {s : SessionId} {w w' : IDBWorld} (hw : w.Aloof s)
    (h : Run IDBWorld.step (fun _ x => IDBWorld.IDBAction.Foreign s x.2) w w') :
    ∀ key : RowKey, key.sessionId = s → w'.db.row key = w.db.row key := by
  have hkept : w'.Aloof s ∧ ∀ key : RowKey, key.sessionId = s →
      w'.db.row key = w.db.row key := by
    refine h.invariant (P := fun u => u.Aloof s ∧ ∀ key : RowKey, key.sessionId = s →
      u.db.row key = w.db.row key) (fun u x hu hx => ?_) ⟨hw, fun _ _ => rfl⟩
    obtain ⟨haloof, hsame⟩ := hu.1.step hx
    exact ⟨haloof, fun key hkey => (hsame key hkey).trans (hu.2 key hkey)⟩
  exact hkept.2

/-- The rows of the session that a cleanup of it has still to take away when it goes on. -/
def IDBNext.Remaining (s : SessionId) : IDBNext → RowKey → Prop
  | .wait (.sessionDeleted s'), key => s' = s ∧ key ≠ .session s
  | .wait (.piecesListed s' pieceKeys), key => s' = s ∧ key ≠ .session s ∧
      ∀ f i, key = .piece s f i → (s, f, i) ∈ pieceKeys
  | .wait (.manifestsListed s' pieceKeys manifestKeys), key => s' = s ∧ key ≠ .session s ∧
      (∀ f i, key = .piece s f i → (s, f, i) ∈ pieceKeys) ∧
      ∀ f, key = .manifest s f → (s, f) ∈ manifestKeys
  | .wait (.piecesDeleted s' manifestKeys), key => s' = s ∧ ∃ f, key = .manifest s f ∧
      (s, f) ∈ manifestKeys
  | .done (.error _), _ => True
  | _, _ => False

/-- A cleanup of the session. -/
def IDBNext.Cleans (s : SessionId) : IDBNext → Prop
  | .wait (.sessionDeleted s') | .wait (.piecesListed s' _) | .wait (.manifestsListed s' _ _)
  | .wait (.piecesDeleted s' _) | .wait (.manifestsDeleted s') => s' = s
  | .done _ => True
  | _ => False

namespace IndexedDBStorageAdapter

variable {a : IndexedDBStorageAdapter} {t : IDBTurn} {db db' : IDBDatabase} {s : SessionId}

/-- Requests that were made together, all of which may have failed. -/
theorem request_spec (requests : List IDBRequest) (next : IDBNext) :
    (∃ err, (a.request t requests next).next = .done (.error err)) ∨
      ((a.request t requests next).next = next ∧
        (a.request t requests next).requests.filter (fun r => (t.failed r).isNone) = requests) := by
  unfold request
  split
  · split
    · rename_i hnil
      subst hnil
      exact .inr ⟨rfl, rfl⟩
    · exact .inl ⟨_, rfl⟩
  · split
    · exact .inl ⟨_, rfl⟩
    · rename_i hnone
      refine .inr ⟨rfl, List.filter_eq_self.2 fun r hr => ?_⟩
      rw [List.findSome?_eq_none_iff.1 hnone r hr]
      rfl

theorem query_spec (next : IDBNext) :
    (∃ err, (a.query t next).next = .done (.error err)) ∨ (a.query t next).next = next := by
  unfold query
  split
  · exact .inl ⟨_, rfl⟩
  · split
    · exact .inl ⟨_, rfl⟩
    · exact .inr rfl

/-- A cleanup that goes on takes away what it had listed, and lists what it will take away. -/
theorem resume_remaining {frame : IDBFrame} (hclean : (IDBNext.wait frame).Cleans s) {key : RowKey}
    (hkey : key.sessionId = s)
    (hremaining : (IDBNext.wait frame).Remaining s key) (hrow : (db.row key).isSome)
    (hgone : ∀ r ∈ (a.resume t db frame).requests.filter (fun r => (t.failed r).isNone),
      r.key ≠ key) :
    (a.resume t db frame).next.Remaining s key := by
  cases frame with
  | opening | reopened | stateSaved => exact hclean.elim
  | sessionDeleted s' =>
    obtain ⟨rfl, hne⟩ := hremaining
    obtain ⟨err, herr⟩ | hnext := query_spec (a := a) (t := t)
      (.wait (.piecesListed s' db.pieces.keys))
    · simp only [resume, herr, IDBNext.Remaining]
    · simp only [resume, hnext, IDBNext.Remaining, true_and]
      refine ⟨hne, ?_⟩
      rintro f i rfl
      simp only [IDBDatabase.row, Option.isSome_map, Option.isSome_iff_exists] at hrow
      exact OrderedMap.mem_keys_iff.2 hrow
  | piecesListed s' pieceKeys =>
    obtain ⟨rfl, hne, hpieces⟩ := hremaining
    obtain ⟨err, herr⟩ | hnext := query_spec (a := a) (t := t)
      (.wait (.manifestsListed s' pieceKeys db.manifests.keys))
    · simp only [resume, herr, IDBNext.Remaining]
    · simp only [resume, hnext, IDBNext.Remaining, true_and]
      refine ⟨hne, hpieces, ?_⟩
      rintro f rfl
      simp only [IDBDatabase.row, Option.isSome_map, Option.isSome_iff_exists] at hrow
      exact OrderedMap.mem_keys_iff.2 hrow
  | manifestsListed s' pieceKeys manifestKeys =>
    obtain ⟨rfl, hne, hpieces, hmanifests⟩ := hremaining
    simp only [resume] at hgone ⊢
    obtain ⟨err, herr⟩ | ⟨hnext, hall⟩ := request_spec (a := a) (t := t)
      ((pieceKeys.filter (·.1 = s')).map fun k => .delete (.piece k.1 k.2.1 k.2.2))
      (.wait (.piecesDeleted s' manifestKeys))
    · simp only [herr, IDBNext.Remaining]
    · rw [hall] at hgone
      simp only [hnext, IDBNext.Remaining, true_and]
      cases key with
      | session s =>
        obtain rfl : s = s' := hkey
        exact absurd rfl hne
      | piece s f i =>
        obtain rfl : s = s' := hkey
        refine absurd rfl (hgone (.delete (.piece s f i)) (List.mem_map.2 ⟨(s, f, i), ?_, rfl⟩))
        exact List.mem_filter.2 ⟨hpieces f i rfl, by simp⟩
      | manifest s f =>
        obtain rfl : s = s' := hkey
        exact ⟨f, rfl, hmanifests f rfl⟩
  | piecesDeleted s' manifestKeys =>
    obtain ⟨rfl, f, rfl, hlisted⟩ := hremaining
    simp only [resume] at hgone ⊢
    obtain ⟨err, herr⟩ | ⟨hnext, hall⟩ := request_spec (a := a) (t := t)
      ((manifestKeys.filter (·.1 = s')).map fun k => .delete (.manifest k.1 k.2))
      (.wait (.manifestsDeleted s'))
    · simp only [herr, IDBNext.Remaining]
    · rw [hall] at hgone
      refine absurd rfl (hgone (.delete (.manifest s' f)) (List.mem_map.2 ⟨(s', f), ?_, rfl⟩))
      exact List.mem_filter.2 ⟨hlisted, by simp⟩
  | manifestsDeleted s' => exact hremaining.elim

theorem resume_cleans {frame : IDBFrame} (hclean : (IDBNext.wait frame).Cleans s) :
    (a.resume t db frame).next.Cleans s := by
  cases frame with
  | opening | reopened | stateSaved => exact hclean.elim
  | sessionDeleted s' | piecesListed s' pieceKeys =>
    simp only [resume]
    obtain ⟨err, herr⟩ | hnext := query_spec (a := a) (t := t) _
    · rw [herr]
      trivial
    · rw [hnext]
      exact hclean
  | manifestsListed s' pieceKeys manifestKeys | piecesDeleted s' manifestKeys =>
    simp only [resume]
    obtain ⟨err, herr⟩ | ⟨hnext, -⟩ := request_spec (a := a) (t := t) _ _
    · rw [herr]
      trivial
    · rw [hnext]
      exact hclean
  | manifestsDeleted s' => trivial

end IndexedDBStorageAdapter

namespace IDBWorld

variable {w : IDBWorld} {s : SessionId} {k j : Nat} {put : RowKey → Row → Prop}

/-- A cleanup of the session is under way or has ended; the rows that it does not still take away
have been put. -/
structure Cleaning (s : SessionId) (k j : Nat) (put : RowKey → Row → Prop) (w : IDBWorld)
    (next : IDBNext) : Prop where
  call : w.calls[j]? = some (k, next)
  cleans : next.Cleans s
  rows : ∀ key v, key.sessionId = s → w.db.row key = some v → put key v ∨ next.Remaining s key

/-- The request puts the row. -/
def Puts (key : RowKey) (v : Row) (rs : List IDBRequest) : Prop :=
  ∃ r ∈ rs, r.key = key ∧ r.row? = some v

theorem Cleaning.mono {put' : RowKey → Row → Prop} {next : IDBNext}
    (h : w.Cleaning s k j put next) (hput : ∀ key v, put key v → put' key v) :
    w.Cleaning s k j put' next :=
  ⟨h.call, h.cleans, fun key v hkey hv => (h.rows key v hkey hv).imp_left (hput key v)⟩

/-- Another call goes on, or the cleanup does. -/
theorem Cleaning.step {next : IDBNext} (h : w.Cleaning s k j put next) (x : IDBTurn × IDBAction) :
    ∃ next', (w.step x).Cleaning s k j (fun key v => put key v ∨ Puts key v (w.requests x))
      next' := by
  obtain ⟨t, action⟩ := x
  unfold IDBWorld.step
  split
  · rename_i k' stretch hs
    have hold : ∀ key v, key.sessionId = s →
        ((w.requests (t, action)).foldl IDBDatabase.apply w.db).row key = some v →
        (put key v ∨ Puts key v (w.requests (t, action))) ∨ (next.Remaining s key ∧
          w.db.row key = some v ∧ ∀ r ∈ w.requests (t, action), r.key ≠ key) := by
      intro key v hkey hv
      obtain hput | ⟨hrow, hgone⟩ := IDBDatabase.row_foldl_apply hv
      · exact .inl (.inr hput)
      · obtain hput | hremaining := h.rows key v hkey hrow
        · exact .inl (.inl hput)
        · exact .inr ⟨hremaining, hrow, hgone⟩
    have hlt := (List.getElem?_eq_some_iff.1 h.call).1
    cases action with
    | call _ c =>
      refine ⟨next, ?_, h.cleans, fun key v hkey hv => (hold key v hkey hv).imp_right (·.1)⟩
      exact (List.getElem?_append_left hlt).trans h.call
    | resume j' =>
      by_cases hj : j' = j
      · subst hj
        have hrequests : w.requests (t, .resume j') =
            stretch.requests.filter fun r => (t.failed r).isNone := by
          unfold IDBWorld.requests
          rw [hs]
        simp only [stretch?] at hs
        split at hs
        · rename_i k'' frame hframe
          obtain ⟨a, ha, heq⟩ := Option.map_eq_some_iff.1 hs
          cases heq
          cases h.call.symm.trans hframe
          refine ⟨_, List.getElem?_set_self hlt,
            IndexedDBStorageAdapter.resume_cleans h.cleans, fun key v hkey hv => ?_⟩
          refine (hold key v hkey hv).imp_right fun hrest => ?_
          obtain ⟨hremaining, hrow, hgone⟩ := hrest
          rw [hrequests] at hgone
          exact IndexedDBStorageAdapter.resume_remaining h.cleans hkey hremaining
            (by simp [hrow]) hgone
        · cases hs
      · refine ⟨next, ?_, h.cleans, fun key v hkey hv => (hold key v hkey hv).imp_right (·.1)⟩
        exact (List.getElem?_set_ne hj).trans h.call
  · exact ⟨next, h.mono fun _ _ => .inl⟩

/-- A cleanup begins with the state of the session. -/
theorem cleaning_start {t : IDBTurn} {a : IndexedDBStorageAdapter} (ha : w.adapters[k]? = some a) :
    ∃ next, (w.step (t, .call k (.cleanup s))).Cleaning s k w.calls.length (fun _ _ => False)
      next := by
  have hs : w.stretch? t (.call k (.cleanup s)) = some (k, a.start t w.db w.available
      (.cleanup s)) := by
    simp [stretch?, ha]
  unfold IDBWorld.step
  simp only [hs]
  refine ⟨(a.start t w.db w.available (.cleanup s)).next, ?_, ?_, fun key v hkey hv => .inr ?_⟩
  · simp [note]
  · obtain ⟨err, herr⟩ | ⟨hnext, -⟩ := IndexedDBStorageAdapter.request_spec (a := a) (t := t)
      [.delete (.session s)] (.wait (.sessionDeleted s))
    · simp only [IndexedDBStorageAdapter.start, herr, IDBNext.Cleans]
    · simp only [IndexedDBStorageAdapter.start, hnext, IDBNext.Cleans]
  · obtain ⟨err, herr⟩ | ⟨hnext, hall⟩ := IndexedDBStorageAdapter.request_spec (a := a) (t := t)
      [.delete (.session s)] (.wait (.sessionDeleted s))
    · simp only [IndexedDBStorageAdapter.start, herr, IDBNext.Remaining]
    · simp only [IndexedDBStorageAdapter.start, hnext, IDBNext.Remaining, true_and]
      rintro rfl
      have hrequests : w.requests (t, .call k (.cleanup s)) = [.delete (.session s)] := by
        unfold IDBWorld.requests
        simp only [hs]
        exact hall
      simp only [hrequests, List.foldl_cons, List.foldl_nil, IDBDatabase.row_apply,
        IDBRequest.key, if_true, IDBRequest.row?] at hv
      cases hv

/-- The row was put on the way. -/
def PutIn (w : IDBWorld) (run : List (IDBTurn × IDBAction)) (key : RowKey) (v : Row) : Prop :=
  ∃ before x after, run = before ++ x :: after ∧ Puts key v ((steps step w before).requests x)

theorem Cleaning.steps {next : IDBNext} (h : w.Cleaning s k j (fun _ _ => False) next)
    (run : List (IDBTurn × IDBAction)) :
    ∃ next', (Data.steps IDBWorld.step w run).Cleaning s k j (w.PutIn run) next' := by
  induction run using List.reverseRecOn with
  | nil => exact ⟨next, h.mono fun _ _ hf => hf.elim⟩
  | append_singleton before x ih =>
    obtain ⟨next', hbefore⟩ := ih
    obtain ⟨next'', hstep⟩ := hbefore.step x
    have hlast : Data.steps IDBWorld.step w (before ++ [x]) =
        (Data.steps IDBWorld.step w before).step x := by
      simp [Data.steps]
    rw [hlast]
    refine ⟨next'', hstep.mono fun key v hput => ?_⟩
    obtain ⟨b, y, after, rfl, hput⟩ | hput := hput
    · exact ⟨b, y, after ++ [x], by simp, hput⟩
    · exact ⟨before, x, [], rfl, hput⟩

end IDBWorld

/-- A cleanup that has ended well leaves of its session only rows that were put while it ran,
whatever else went on between its requests. -/
theorem cleanup_leaves_what_was_put_meanwhile {w : IDBWorld} {a : IndexedDBStorageAdapter} {k : Nat}
    (ha : w.adapters[k]? = some a) (t : IDBTurn) (s : SessionId)
    (run : List (IDBTurn × IDBAction)) (answer : StorageAnswer)
    (hdone : (steps IDBWorld.step (w.step (t, .call k (.cleanup s))) run).calls[w.calls.length]? =
      some (k, .done (.ok answer))) :
    ∀ key v, key.sessionId = s →
      (steps IDBWorld.step (w.step (t, .call k (.cleanup s))) run).db.row key = some v →
      (w.step (t, .call k (.cleanup s))).PutIn run key v := by
  obtain ⟨next, hstart⟩ := IDBWorld.cleaning_start (s := s) (t := t) ha
  obtain ⟨next', hend⟩ := hstart.steps run
  cases hend.call.symm.trans hdone
  exact fun key v hkey hv => (hend.rows key v hkey hv).resolve_right id

namespace Sample

def idbTurn : IDBTurn := ⟨none, none, fun _ => none⟩

/-- Two pages have the session open. -/
def pages : IDBWorld :=
  ⟨true, ⟨.empty, OrderedMap.empty.set ("s", "f", 0) [1], .empty⟩,
    [⟨true, some "s"⟩, ⟨true, some "s"⟩], []⟩

/-- The other page writes a piece after the pieces were listed. -/
def writtenMeanwhile : List (IDBTurn × IDBAction) :=
  [(idbTurn, .resume 0), (idbTurn, .call 1 (.writePiece "f" 1 [2])), (idbTurn, .resume 0),
    (idbTurn, .resume 0), (idbTurn, .resume 0), (idbTurn, .resume 0)]

def cleaning : List (IDBTurn × IDBAction) :=
  (idbTurn, .call 0 (.cleanup "s")) :: writtenMeanwhile

def cleaned : IDBWorld :=
  steps IDBWorld.step (pages.step (idbTurn, .call 0 (.cleanup "s"))) writtenMeanwhile

end Sample

/-- The cleanup of one session beside a row of another. -/
theorem other_sessions_keep_their_rows_sample :
    (steps IDBWorld.step Sample.pages Sample.cleaning).db.row (.piece "t" "f" 0) =
      Sample.pages.db.row (.piece "t" "f" 0) :=
  other_sessions_keep_their_rows ⟨by decide +kernel, by simp [Sample.pages]⟩
    (run_of_allowed (by decide +kernel)) _ rfl

theorem cleanup_leaves_what_was_put_meanwhile_sample :
    Sample.cleaned.db.pieces.entries = [(("s", "f", 1), [2])] ∧
    (Sample.pages.step (Sample.idbTurn, .call 0 (.cleanup "s"))).PutIn Sample.writtenMeanwhile
      (.piece "s" "f" 1) (.piece [2]) :=
  ⟨by decide +kernel, cleanup_leaves_what_was_put_meanwhile (w := Sample.pages) (k := 0) rfl
    Sample.idbTurn "s" Sample.writtenMeanwhile .done rfl _ _ rfl rfl⟩

end PonsWarp.Core
