import PonsWarp.Core.Completion
import PonsWarp.Core.Stock

set_option autoImplicit false

/-!
`joinSession` that throws: what it has changed by then.
-/

namespace PonsWarp.Core

open PonsWarp.Data

/-- How an awaited storage operation of a stretch settles. -/
def Turn.settles {α : Type} (t : Turn) (result : Except Failure α) : Except Failure α :=
  match t.storageFailure with
  | some failure => .error failure.1
  | none => result

/-- The storage behind an operation of a stretch. -/
def Turn.leaves {σ : Type} (t : Turn) (before after : σ) : σ :=
  match t.storageFailure with
  | some failure => if failure.2 then after else before
  | none => after

theorem mergeManifests_go_spec {l : List FileManifest} {acc : OrderedMap FileId FileManifest}
    {merged : List FileManifest} (h : mergeManifests.go acc l = .ok merged)
    (hacc : ∀ f m, acc.get? f = some m → m.fileId = f) :
    (merged.map (·.fileId)).Nodup ∧ ∀ f m, acc.get? f = some m → m ∈ merged := by
  induction l generalizing acc with
  | nil =>
    cases h
    have hkeys : acc.values.map (·.fileId) = acc.keys := by
      simp only [OrderedMap.values, OrderedMap.keys, List.map_map, List.map_inj_left,
        Function.comp_apply]
      rintro ⟨f, m⟩ hm
      exact hacc f m (OrderedMap.mem_entries_iff.1 hm)
    rw [hkeys]
    exact ⟨acc.nodup, fun f m hm => OrderedMap.mem_values_iff.2 ⟨f, hm⟩⟩
  | cons manifest rest ih =>
    unfold mergeManifests.go at h
    split at h
    · split at h
      · exact ih h hacc
      · cases h
    · rename_i hnone
      have hset : ∀ f m, (acc.set manifest.fileId manifest).get? f = some m → m.fileId = f := by
        intro f m hm
        rw [OrderedMap.get?_set] at hm
        split at hm
        · rename_i hf
          cases hm
          exact hf.symm
        · exact hacc f m hm
      obtain ⟨hnodup, hmem⟩ := ih h hset
      refine ⟨hnodup, fun f m hm => hmem f m ?_⟩
      rw [OrderedMap.get?_set_of_ne]
      · exact hm
      · rintro rfl
        simp [hnone] at hm

/-- No two of the merged manifests are of one file, and every persisted file is among them. -/
theorem mergeManifests_spec {persisted incoming merged : List FileManifest}
    (h : mergeManifests persisted incoming = .ok merged) :
    (merged.map (·.fileId)).Nodup ∧
      ∀ m ∈ persisted, ∃ m' ∈ merged, m'.fileId = m.fileId := by
  have hfold : ∀ (l : List FileManifest) (acc : OrderedMap FileId FileManifest),
      (∀ f m, acc.get? f = some m → m.fileId = f) →
      (∀ f m, (l.foldl (fun a m => a.set m.fileId m) acc).get? f = some m → m.fileId = f) ∧
      ∀ f, (f ∈ l.map (·.fileId) ∨ (acc.get? f).isSome) →
        ((l.foldl (fun a m => a.set m.fileId m) acc).get? f).isSome := by
    intro l
    induction l with
    | nil =>
      intro acc hacc
      exact ⟨hacc, fun f hf => by simpa using hf⟩
    | cons m rest ih =>
      intro acc hacc
      have hset : ∀ f m', (acc.set m.fileId m).get? f = some m' → m'.fileId = f := by
        intro f m' hm
        rw [OrderedMap.get?_set] at hm
        split at hm
        · rename_i hf
          cases hm
          exact hf.symm
        · exact hacc f m' hm
      obtain ⟨hown, hall⟩ := ih _ hset
      refine ⟨hown, fun f hf => hall f ?_⟩
      rw [OrderedMap.get?_set]
      by_cases he : f = m.fileId
      · simp [he]
      · simpa [he] using hf
  obtain ⟨hown, hall⟩ := hfold persisted .empty (by simp)
  obtain ⟨hnodup, hmem⟩ := mergeManifests_go_spec h hown
  refine ⟨hnodup, fun m hm => ?_⟩
  have hsome := hall m.fileId (.inl (List.mem_map.2 ⟨m, hm, rfl⟩))
  obtain ⟨m', hm'⟩ := Option.isSome_iff_exists.1 hsome
  exact ⟨m', hmem _ _ hm', hown _ _ hm'⟩

namespace Engine

section

variable {σ : Type} {e : Engine σ}

theorem storageCall_eq {α : Type} (t : Turn) (value : α → Value)
    (result : Except Failure α × σ) : e.storageCall t value result =
      ({ e with storage := t.leaves e.storage result.2 },
        .await (.settled ((t.settles result.1).map value)) []) := by
  unfold storageCall Turn.leaves Turn.settles
  cases t.storageFailure with
  | none => cases result.1 <;> rfl
  | some failure =>
    obtain ⟨err, applied⟩ := failure
    cases applied <;> rfl

/-- A manifest that is registered as it is, with its manager. -/
def Knows (e : Engine σ) (m : FileManifest) : Prop :=
  e.manifests.get? m.fileId = some m ∧ e.managers.has m.fileId = true

theorem registerManifest_known {m : FileManifest} (h : e.Knows m) :
    e.registerManifest m = e := by
  obtain ⟨hm, hr⟩ := h
  obtain ⟨ref, href⟩ := OrderedMap.has_iff.1 hr
  simp only [registerManifest, OrderedMap.set_of_get? hm, href]

theorem foldl_registerManifest_known {l : List FileManifest} (h : ∀ m ∈ l, e.Knows m) :
    l.foldl registerManifest e = e := by
  induction l with
  | nil => rfl
  | cons m rest ih =>
    rw [List.foldl_cons, registerManifest_known (h m List.mem_cons_self)]
    exact ih fun m' hm' => h m' (List.mem_cons_of_mem m hm')

theorem registerManifest_manifests (e : Engine σ) (m : FileManifest) :
    (e.registerManifest m).manifests = e.manifests.set m.fileId m := by
  unfold registerManifest
  simp only
  split <;> rfl

theorem registerManifest_has (e : Engine σ) (m : FileManifest) (f : FileId) :
    (e.registerManifest m).managers.has f = (decide (f = m.fileId) || e.managers.has f) := by
  unfold registerManifest
  simp only
  split
  · rename_i ref href
    by_cases hf : f = m.fileId
    · subst hf
      simp [OrderedMap.has, href]
    · simp [hf]
  · by_cases hf : f = m.fileId
    · subst hf
      simp [OrderedMap.has]
    · simp [OrderedMap.has, OrderedMap.get?_set, hf]

/-- Afterwards the merged manifests are known. -/
theorem knows_foldl_registerManifest {l : List FileManifest}
    (h : (l.map (·.fileId)).Nodup) : ∀ m ∈ l, (l.foldl registerManifest e).Knows m := by
  have hkept : ∀ (l : List FileManifest) (e : Engine σ) (m : FileManifest), e.Knows m →
      m.fileId ∉ l.map (·.fileId) → (l.foldl registerManifest e).Knows m := by
    intro l
    induction l with
    | nil => exact fun _ _ hm _ => hm
    | cons m' rest ih =>
      intro e m hm hnot
      simp only [List.map_cons, List.mem_cons, not_or] at hnot
      refine ih _ m ⟨?_, ?_⟩ hnot.2
      · rw [registerManifest_manifests, OrderedMap.get?_set_of_ne _ _ hnot.1]
        exact hm.1
      · simp [registerManifest_has, hm.2]
  induction l generalizing e with
  | nil => simp
  | cons m rest ih =>
    obtain ⟨hm, hrest⟩ := List.nodup_cons.1 h
    intro m' hm'
    rcases List.mem_cons.1 hm' with rfl | hin
    · refine hkept rest _ m' ⟨?_, ?_⟩ hm
      · simp [registerManifest_manifests]
      · simp [registerManifest_has]
    · exact ih hrest m' hin

end

variable {σ : Type} [StorageAdapter σ] {e : Engine σ} {cfg : Config} {t : Turn}

/-- A stretch of a restore: the storage apart, the engine is as it was, and the promise
goes on inside the loop or has settled. -/
def OnlyRestores (e : Engine σ) (started : Engine σ × Next) : Prop :=
  (∃ s, started.1 = { e with storage := s }) ∧ started.2.Loops fun _ => True

theorem restoreLoop_only (r : Restore) : e.OnlyRestores (e.restoreLoop t r) := by
  refine ⟨?_, restoreLoop_loops r trivial⟩
  unfold restoreLoop
  split
  · exact ⟨e.storage, rfl⟩
  · rw [storageCall_eq]
    exact ⟨_, rfl⟩

theorem discardPiece_only (r : Restore) (index : Nat) (reason : String) :
    e.OnlyRestores (e.discardPiece t r index reason) := by
  refine ⟨?_, discardPiece_loops r index reason trivial⟩
  unfold discardPiece
  rw [storageCall_eq]
  exact ⟨_, rfl⟩

theorem restoreResumeState_only (manifest : FileManifest) (pieceMap : PieceMap) :
    e.OnlyRestores (e.restoreResumeState t manifest pieceMap) := by
  refine ⟨?_, restoreResumeState_loops manifest pieceMap fun _ _ => trivial⟩
  unfold restoreResumeState
  split
  · exact ⟨e.storage, rfl⟩
  · split
    · exact ⟨e.storage, rfl⟩
    · exact (restoreLoop_only _).1

theorem resume_only (cfg : Config) (t : Turn) {frame : Frame} {r : Restore} (hr : frame.restore? = some r)
    (outcome : Except Failure Value) : e.OnlyRestores (e.resume cfg t outcome frame) := by
  have hstop : ∀ outcome : Except Failure Value, (∀ result, outcome ≠ .ok (.restored result)) →
      e.OnlyRestores (e, .done outcome) :=
    fun outcome h => ⟨⟨e.storage, rfl⟩, fun result hres => (h result hres).elim⟩
  cases frame <;> try cases hr
  case resumeRead index =>
    refine ⟨?_, resumeRead_loops r index outcome trivial⟩
    simp only [resume, resumeRead]
    split
    · exact ⟨e.storage, rfl⟩
    · split
      · exact ⟨e.storage, rfl⟩
      · exact ⟨e.storage, rfl⟩
    · exact (discardPiece_only r index _).1
  case resumeChecked index =>
    simp only [resume]
    split
    · refine ⟨?_, resumeChecked_loops r index _ trivial⟩
      unfold resumeChecked
      split
      · exact (restoreLoop_only r).1
      · exact (discardPiece_only r index _).1
    · exact ⟨⟨e.storage, rfl⟩, fun _ _ => trivial⟩
  case resumeDeleted index reason =>
    refine ⟨?_, resumeDeleted_loops r index reason outcome trivial fun _ _ _ _ _ _ => trivial⟩
    simp only [resume, resumeDeleted]
    split
    · exact ⟨e.storage, rfl⟩
    · split
      · exact ⟨e.storage, rfl⟩
      · split
        · exact ⟨e.storage, rfl⟩
        · exact (restoreLoop_only _).1

/-- A restore that is followed alone changes the storage and nothing else. -/
theorem follow_restore (cfg : Config) (turns : List Turn) {started : Engine σ × Next}
    (h : e.OnlyRestores started) :
    ∃ s, (started.1.follow cfg turns (started.2.task [])).1 = { e with storage := s } := by
  induction turns generalizing started with
  | nil => simpa using h.1
  | cons t rest ih =>
    obtain ⟨⟨s, hs⟩, hloops⟩ := h
    obtain ⟨e₁, next⟩ := started
    cases next with
    | done outcome =>
      simp only [Next.task, follow_settled]
      exact ⟨s, hs⟩
    | await pending frames =>
      obtain ⟨-, frame, r, rfl, hr, -⟩ := hloops
      have htask : (Next.await pending [frame]).task [] = ⟨pending, [frame]⟩ := rfl
      rw [htask]
      cases hout : e₁.outcome pending with
      | none =>
        simp only [follow, hout]
        exact ⟨s, hs⟩
      | some outcome =>
        simp only [follow, hout]
        have hnext := resume_only (e := e₁) cfg t hr outcome
        refine ih ⟨?_, hnext.2⟩
        obtain ⟨s', hs'⟩ := hnext.1
        simp only at hs
        rw [hs', hs]
        exact ⟨s', rfl⟩

theorem persistState_andThen (frame : Frame) : ∃ s outcome,
    (e.persistState t).1 = { e with storage := s } ∧
      (e.persistState t).2.andThen frame = .await (.settled outcome) [frame] := by
  unfold persistState
  split
  · exact ⟨e.storage, _, rfl, rfl⟩
  · split
    · exact ⟨e.storage, _, rfl, rfl⟩
    · rw [storageCall_eq]
      exact ⟨_, _, rfl, rfl⟩

/-- Some file has a manager object that was not there among the first `n`. -/
def Replaced (n : Nat) (e : Engine σ) : Prop :=
  n ≤ e.heap.length ∧ ∃ f ref, e.managers.get? f = some ref ∧ n ≤ ref

omit [StorageAdapter σ] in
theorem Replaced.install {n : Nat} (h : n ≤ e.heap.length) (f : FileId) (m : PieceManager) :
    (e.installManager f m).Replaced n := by
  refine ⟨?_, f, e.heap.length, by simp [installManager], h⟩
  simp only [installManager, List.length_append]
  omega

theorem Replaced.change {n : Nat} {G : Grant} {e e' : Engine σ} (hc : Change t G e e')
    (h : e.Replaced n) : e'.Replaced n := by
  obtain ⟨hlen, f, ref, href, hn⟩ := h
  cases hc with
  | register m _ =>
    simp only [registerManifest]
    split
    · exact ⟨hlen, f, ref, href, hn⟩
    · exact Replaced.install (e := { e with manifests := e.manifests.set m.fileId m }) hlen _ _
  | install g m _ => exact Replaced.install hlen g m
  | fail | reset | verify => exact ⟨by simpa [putManager] using hlen, f, ref, href, hn⟩
  | ask => exact ⟨by simpa [putManager] using hlen, f, ref, href, hn⟩
  | _ => exact ⟨hlen, f, ref, href, hn⟩

theorem Replaced.follow (cfg : Config) {n : Nat} (turns : List Turn) (task : Task) (h : e.Replaced n) :
    (e.follow cfg turns task).1.Replaced n := by
  refine follow_keeps (fun e t outcome frame he => ?_) turns e task h
  exact (does_resume frame outcome le_rfl).changes.keeps (fun _ _ hc => Replaced.change hc) he

/-- The restore of the first of the piece maps comes back with a manager. -/
def FirstRestored (cfg : Config) (e : Engine σ) (t : Turn) (turns : List Turn) :
    List PieceMap → Prop
  | [] => False
  | pieceMap :: _ => ∃ manifest e' result, e.manifests.get? pieceMap.fileId = some manifest ∧
      (e.restoreResumeState t manifest pieceMap).1.follow cfg turns
        ((e.restoreResumeState t manifest pieceMap).2.task []) =
        (e', ⟨.settled (.ok (.restored result)), []⟩)

theorem joinLoop_heap (sessionId : SessionId) (merged : List FileManifest) (maps : List PieceMap) :
    (e.joinLoop t sessionId merged maps).1.heap = e.heap ∧
      (e.joinLoop t sessionId merged maps).1.managers = e.managers := by
  induction maps with
  | nil =>
    unfold joinLoop
    split
    · exact ⟨rfl, rfl⟩
    · obtain ⟨s, outcome, hs, -⟩ := persistState_andThen (e := e) (t := t)
        (.joinPersisted sessionId merged)
      simp [hs]
  | cons pieceMap rest ih =>
    unfold joinLoop
    split
    · exact ih
    · rename_i manifest _
      obtain ⟨s, hs⟩ := (restoreResumeState_only (e := e) (t := t) manifest pieceMap).1
      simp [hs]

/-- A join that fails in its loop has replaced a manager, or has only used the storage. -/
theorem follow_joinLoop {turns : List Turn} {sessionId : SessionId} {merged : List FileManifest}
    {maps : List PieceMap} {e' : Engine σ} {err : Failure}
    (hknown : ∀ pieceMap ∈ maps, (e.manifests.get? pieceMap.fileId).isSome)
    (h : (e.joinLoop t sessionId merged maps).1.follow cfg turns
      ((e.joinLoop t sessionId merged maps).2.task []) = (e', ⟨.settled (.error err), []⟩)) :
    (¬ FirstRestored cfg e t turns maps ∧ ∃ s, e' = { e with storage := s }) ∨
      (FirstRestored cfg e t turns maps ∧ e'.Replaced e.heap.length) := by
  cases maps with
  | nil =>
    refine .inl ⟨id, ?_⟩
    unfold joinLoop at h
    split at h
    · simp [Next.ok, Next.task] at h
    · obtain ⟨s, outcome, hs, hnext⟩ := persistState_andThen (e := e) (t := t)
        (.joinPersisted sessionId merged)
      simp only [hs, hnext, Next.task, List.append_nil] at h
      cases turns with
      | nil => simp at h
      | cons u rest =>
        rw [follow_cons] at h
        cases outcome with
        | ok v => simp [resume, thenReturn, Next.ok, Next.task] at h
        | error err' =>
          simp only [resume, thenReturn, Next.throw, Next.task, follow_settled, Prod.mk.injEq] at h
          exact ⟨s, h.1.symm⟩
  | cons pieceMap rest =>
    obtain ⟨manifest, hmanifest⟩ := Option.isSome_iff_exists.1 (hknown pieceMap List.mem_cons_self)
    have honly := restoreResumeState_only (e := e) (t := t) manifest pieceMap
    unfold joinLoop at h
    simp only [hmanifest, Next.task_andThen] at h
    have htask : (e.restoreResumeState t manifest pieceMap).2.task
          [.joinRestored sessionId merged pieceMap.fileId rest] =
        ⟨((e.restoreResumeState t manifest pieceMap).2.task []).pending,
          ((e.restoreResumeState t manifest pieceMap).2.task []).stack ++
            [.joinRestored sessionId merged pieceMap.fileId rest]⟩ := by
      cases (e.restoreResumeState t manifest pieceMap).2 <;> simp [Next.task]
    rw [htask] at h
    obtain ⟨s, hs⟩ := follow_restore cfg turns honly
    rcases follow_below turns (e.restoreResumeState t manifest pieceMap).1
        ((e.restoreResumeState t manifest pieceMap).2.task []).pending
        ((e.restoreResumeState t manifest pieceMap).2.task []).stack
        [.joinRestored sessionId merged pieceMap.fileId rest] with
      ⟨before, after, e₁, pending', -, halone, hbelow⟩ | ⟨e₁, pending', frame, more, -, hbelow⟩
    · rw [halone] at hs
      simp only at hs
      rw [hbelow] at h
      have hfirst : FirstRestored cfg e t turns (pieceMap :: rest) →
          ∃ result, pending' = .settled (.ok (.restored result)) := by
        rintro ⟨manifest', e₂, result, hm', hres⟩
        rw [hmanifest] at hm'
        cases hm'
        rw [halone] at hres
        simp only [Prod.mk.injEq, Task.mk.injEq] at hres
        exact ⟨result, hres.2.1⟩
      cases after with
      | nil => simp at h
      | cons u after =>
        cases hout : e₁.outcome pending' with
        | none => simp [follow, hout] at h
        | some outcome =>
          simp only [follow, hout, resume] at h
          cases outcome with
          | error err' =>
            simp only [joinRestored, Next.throw, Next.task, follow_settled, Prod.mk.injEq] at h
            refine .inl ⟨fun hf => ?_, s, h.1.symm.trans hs⟩
            obtain ⟨result, rfl⟩ := hfirst hf
            simp [Engine.outcome] at hout
          | ok v =>
            cases v with
            | restored result =>
              simp only [joinRestored] at h
              have hpending : pending' = .settled (.ok (.restored result)) := by
                obtain h | h := World.outcome_eq_some hout
                · exact h
                · cases h
              refine .inr ⟨⟨manifest, e₁, result, hmanifest, by rw [← hpending]; exact halone⟩, ?_⟩
              have hreplaced : (e₁.installManager pieceMap.fileId result.manager).Replaced
                  e.heap.length := Replaced.install (by rw [hs]) _ _
              have hloop := joinLoop_heap (e := e₁.installManager pieceMap.fileId result.manager)
                (t := u) sessionId merged rest
              have hstart : ((e₁.installManager pieceMap.fileId result.manager).joinLoop u sessionId
                  merged rest).1.Replaced e.heap.length := by
                unfold Replaced at hreplaced ⊢
                rw [hloop.1, hloop.2]
                exact hreplaced
              have hend := hstart.follow cfg after (((e₁.installManager pieceMap.fileId
                result.manager).joinLoop u sessionId merged rest).2.task [])
              rw [h] at hend
              exact hend
            | _ => simp [joinRestored, Next.ok, Next.task] at h
    · rw [hbelow] at h
      simp at h

/-- The storage when the state of the session has been loaded. -/
def joinStorage (e : Engine σ) (t u : Turn) (sessionId : SessionId) : σ :=
  u.leaves (t.leaves e.storage (StorageAdapter.init sessionId e.storage).2)
    (StorageAdapter.loadState sessionId
      (t.leaves e.storage (StorageAdapter.init sessionId e.storage).2)).2

omit [StorageAdapter σ] in
/-- A valid state has a manifest for each of its piece maps. -/
theorem validated_maps {state : PersistedSessionState}
    (h : validatePersistedSessionState state = .ok ()) :
    ∀ pieceMap ∈ state.pieceMaps, ∃ m ∈ state.manifests, m.fileId = pieceMap.fileId := by
  intro pieceMap hpm
  unfold validatePersistedSessionState at h
  repeat (split at h; · cases h)
  have hall := forEach_eq_ok.1 h pieceMap hpm
  cases hfind : state.manifests.find? (fun m => m.fileId = pieceMap.fileId) with
  | none => simp [hfind] at hall
  | some m => exact ⟨m, List.mem_of_find?_eq_some hfind, by simpa using List.find?_some hfind⟩

/-- The manifests a join registers and the piece maps it restores, unless the state that was
loaded is invalid or conflicts with the manifests given. -/
def resumePlan (state : Option PersistedSessionState) (manifests : List FileManifest) :
    Except Failure (List FileManifest × List PieceMap) := do
  state.elim (.ok ()) validatePersistedSessionState
  let merged ← mergeManifests ((state.map (·.manifests)).getD []) manifests
  return (merged, (state.map (·.pieceMaps)).getD [])

theorem joinLoaded_plan (sessionId : SessionId) (manifests : List FileManifest)
    (state : Option PersistedSessionState) :
    (∃ err, resumePlan state manifests = .error err ∧
      e.joinLoaded t sessionId manifests (.ok (.state state)) = (e, .throw err)) ∨
    ∃ merged maps, resumePlan state manifests = .ok (merged, maps) ∧
      (merged.map (·.fileId)).Nodup ∧
      (∀ pieceMap ∈ maps, ∃ m ∈ merged, m.fileId = pieceMap.fileId) ∧
      e.joinLoaded t sessionId manifests (.ok (.state state)) =
        (merged.foldl registerManifest e).joinLoop t sessionId merged maps := by
  unfold joinLoaded resumePlan
  cases state with
  | none =>
    simp only [Option.elim_none, Option.map_none, Option.getD_none]
    cases hmerge : mergeManifests [] manifests with
    | error err => exact .inl ⟨err, rfl, rfl⟩
    | ok merged => exact .inr ⟨merged, [], rfl, (mergeManifests_spec hmerge).1, by simp, rfl⟩
  | some st =>
    simp only [Option.elim_some, Option.map_some, Option.getD_some]
    cases hvalid : validatePersistedSessionState st with
    | error err => exact .inl ⟨err, rfl, rfl⟩
    | ok _ =>
      cases hmerge : mergeManifests st.manifests manifests with
      | error err => exact .inl ⟨err, rfl, rfl⟩
      | ok merged =>
        obtain ⟨hnodup, hmem⟩ := mergeManifests_spec hmerge
        refine .inr ⟨merged, st.pieceMaps, rfl, hnodup, fun pieceMap hpm => ?_, rfl⟩
        obtain ⟨m, hm, hf⟩ := validated_maps hvalid pieceMap hpm
        obtain ⟨m', hm', hf'⟩ := hmem m hm
        exact ⟨m', hm', hf'.trans hf⟩

/-- What the second await of a join brings: the plan, or the reason to give up. -/
def joinPlan (e : Engine σ) (t u : Turn) (sessionId : SessionId) (manifests : List FileManifest) :
    Except Failure (List FileManifest × List PieceMap) :=
  (u.settles (StorageAdapter.loadState sessionId
    (t.leaves e.storage (StorageAdapter.init sessionId e.storage).2)).1).bind
      fun state => resumePlan state manifests

/-- The three ways a join takes behind its first await. -/
theorem follow_joinSession (cfg : Config) (t u v : Turn) (rest : List Turn) (sessionId : SessionId)
    (manifests : List FileManifest) :
    (∃ err, t.settles (StorageAdapter.init sessionId e.storage).1 = .error err ∧
      (e.joinSession t sessionId manifests).1.follow cfg (u :: v :: rest)
        ((e.joinSession t sessionId manifests).2.task []) =
        ({ e with storage := t.leaves e.storage (StorageAdapter.init sessionId e.storage).2 },
          ⟨.settled (.error err), []⟩)) ∨
    (∃ a, t.settles (StorageAdapter.init sessionId e.storage).1 = .ok a) ∧
      ((∃ err, e.joinPlan t u sessionId manifests = .error err ∧
        (e.joinSession t sessionId manifests).1.follow cfg (u :: v :: rest)
          ((e.joinSession t sessionId manifests).2.task []) =
          ({ e with storage := e.joinStorage t u sessionId, sessionId := some sessionId },
            ⟨.settled (.error err), []⟩)) ∨
      ∃ merged maps, e.joinPlan t u sessionId manifests = .ok (merged, maps) ∧
        (merged.map (·.fileId)).Nodup ∧
        (∀ pieceMap ∈ maps, ∃ m ∈ merged, m.fileId = pieceMap.fileId) ∧
        ∀ e₁, merged.foldl registerManifest { e with
            storage := e.joinStorage t u sessionId, sessionId := some sessionId } = e₁ →
          (e.joinSession t sessionId manifests).1.follow cfg (u :: v :: rest)
            ((e.joinSession t sessionId manifests).2.task []) =
            (e₁.joinLoop v sessionId merged maps).1.follow cfg rest
              ((e₁.joinLoop v sessionId merged maps).2.task [])) := by
  have hstart : e.joinSession t sessionId manifests =
      ({ e with storage := t.leaves e.storage (StorageAdapter.init sessionId e.storage).2 },
        .await (.settled ((t.settles (StorageAdapter.init sessionId e.storage).1).map
          fun _ => .unit)) [.joinInitialized sessionId manifests]) := by
    simp only [joinSession, storageCall_eq, Next.andThen, List.nil_append]
  rw [hstart]
  simp only [Next.task_await, follow_cons, resume]
  cases hinit : t.settles (StorageAdapter.init sessionId e.storage).1 with
  | error err =>
    refine .inl ⟨err, rfl, ?_⟩
    simp [Except.map, joinInitialized, Next.throw]
  | ok a =>
    refine .inr ⟨⟨a, rfl⟩, ?_⟩
    simp only [Except.map, joinInitialized, storageCall_eq, Next.andThen, List.nil_append,
      Next.task_await, follow_cons, resume]
    unfold joinPlan
    cases hload : u.settles (StorageAdapter.loadState sessionId
        (t.leaves e.storage (StorageAdapter.init sessionId e.storage).2)).1 with
    | error err =>
      refine .inl ⟨err, rfl, ?_⟩
      simp [joinLoaded, Next.throw, joinStorage]
    | ok state =>
      simp only [Except.bind]
      rcases joinLoaded_plan (e := { e with
          storage := e.joinStorage t u sessionId, sessionId := some sessionId }) (t := v)
          sessionId manifests state with
        ⟨err, hplan, hloaded⟩ | ⟨merged, maps, hplan, hnodup, hknown, hloaded⟩
      · refine .inl ⟨err, hplan, ?_⟩
        simp only [joinStorage] at hloaded ⊢
        rw [hloaded]
        simp [Next.throw]
      · refine .inr ⟨merged, maps, hplan, hnodup, hknown, ?_⟩
        rintro e₁ rfl
        simp only [joinStorage] at hloaded ⊢
        rw [hloaded]

/-- The session, the manifests and the managers of a file are the ones they were. -/
structure SameSession (e e' : Engine σ) : Prop where
  sessionId : e'.sessionId = e.sessionId
  manifests : e'.manifests = e.manifests
  managers : e'.managers = e.managers
  pieces : ∀ f ref, e.managers.get? f = some ref → e'.managerAt ref = e.managerAt ref

/-- Nothing that a join does before it can still fail makes a difference to this engine:
the storage does not open, or the session is the open one and either nothing has been
registered or all of it is known, with no piece map restored. -/
def JoinHarmless (cfg : Config) (e : Engine σ) (t u v : Turn) (rest : List Turn)
    (sessionId : SessionId) (manifests : List FileManifest) : Prop :=
  (∃ err, t.settles (StorageAdapter.init sessionId e.storage).1 = .error err) ∨
  e.sessionId = some sessionId ∧ ∀ merged maps,
    e.joinPlan t u sessionId manifests = .ok (merged, maps) →
    (∀ m ∈ merged, e.Knows m) ∧
      ¬ FirstRestored cfg { e with storage := e.joinStorage t u sessionId } v rest maps

omit [StorageAdapter σ] in
theorem foldl_registerManifest_rest (l : List FileManifest) :
    (l.foldl registerManifest e).sessionId = e.sessionId ∧
      e.heap.length ≤ (l.foldl registerManifest e).heap.length := by
  have hone : ∀ (e : Engine σ) (m : FileManifest), (e.registerManifest m).sessionId = e.sessionId ∧
      e.heap.length ≤ (e.registerManifest m).heap.length := by
    intro e m
    unfold registerManifest
    simp only
    split
    · exact ⟨rfl, le_rfl⟩
    · simp
  induction l generalizing e with
  | nil => exact ⟨rfl, le_rfl⟩
  | cons m rest ih =>
    obtain ⟨hs, hh⟩ := hone e m
    obtain ⟨hs', hh'⟩ := ih (e := e.registerManifest m)
    exact ⟨hs'.trans hs, hh.trans hh'⟩

end Engine

/-- A join that throws leaves the engine as it was exactly when it was harmless. -/
theorem failed_join_keeps_session {σ : Type} [StorageAdapter σ] (cfg : Config) (storage : σ)
    (transport : Bool) (w : World σ)
    (hw : Run (World.step cfg) (fun _ _ => True) (World.new storage transport) w)
    (t u v : Turn) (rest : List Turn) (sessionId : SessionId) (manifests : List FileManifest)
    (e' : Engine σ) (err : Failure)
    (h : (w.engine.joinSession t sessionId manifests).1.follow cfg (u :: v :: rest)
      ((w.engine.joinSession t sessionId manifests).2.task []) = (e', ⟨.settled (.error err), []⟩)) :
    w.engine.SameSession e' ↔
      Engine.JoinHarmless cfg w.engine t u v rest sessionId manifests := by
  have hrefs : ∀ f ref, w.engine.managers.get? f = some ref → ref < w.engine.heap.length := by
    have hstocked : w.Stocked (fun _ => True) (fun _ _ => True) :=
      hw.invariant (fun w x hw _ => hw.step ⟨fun _ _ => trivial, fun _ _ _ _ _ => trivial⟩
        fun _ _ => trivial) (stocked_new storage transport)
    exact fun f ref href => (hstocked.1.managers f ref href).2.1
  generalize w.engine = e at *
  rcases Engine.follow_joinSession (e := e) cfg t u v rest sessionId manifests with
    ⟨err', hinit, hfollow⟩ | ⟨⟨a, hinit⟩,
      ⟨err', hplan, hfollow⟩ | ⟨merged, maps, hplan, hnodup, hknown, hfollow⟩⟩
  · rw [hfollow] at h
    cases h
    exact ⟨fun _ => .inl ⟨_, hinit⟩, fun _ => ⟨rfl, rfl, rfl, fun _ _ _ => rfl⟩⟩
  · rw [hfollow] at h
    cases h
    constructor
    · intro hsame
      refine .inr ⟨hsame.sessionId.symm, fun merged maps hok => ?_⟩
      rw [hplan] at hok
      cases hok
    · rintro (⟨err'', hinit'⟩ | ⟨hsession, -⟩)
      · rw [hinit] at hinit'
        cases hinit'
      · exact ⟨hsession.symm, rfl, rfl, fun _ _ _ => rfl⟩
  · rw [hfollow _ rfl] at h
    have hmerged := Engine.knows_foldl_registerManifest (e := { e with
      storage := e.joinStorage t u sessionId, sessionId := some sessionId }) hnodup
    obtain ⟨hsid, hlen⟩ := Engine.foldl_registerManifest_rest (e := { e with
      storage := e.joinStorage t u sessionId, sessionId := some sessionId }) merged
    generalize hopened : merged.foldl Engine.registerManifest { e with
      storage := e.joinStorage t u sessionId, sessionId := some sessionId } = e₁ at *
    have hsome : ∀ pieceMap ∈ maps, (e₁.manifests.get? pieceMap.fileId).isSome := by
      intro pieceMap hpm
      obtain ⟨m, hm, hf⟩ := hknown pieceMap hpm
      rw [← hf, (hmerged m hm).1]
      rfl
    -- registering what is known, in the session that is open, does nothing
    have hnothing : (∀ m ∈ merged, e.Knows m) → e.sessionId = some sessionId →
        e₁ = { e with storage := e.joinStorage t u sessionId } := by
      intro hall hs
      rw [← hopened, ← hs]
      exact Engine.foldl_registerManifest_known hall
    rcases Engine.follow_joinLoop hsome h with ⟨hfirst, s, rfl⟩ | ⟨hfirst, hreplaced⟩
    · constructor
      · rintro ⟨hs, hm, hr, -⟩
        have hsession : e.sessionId = some sessionId := hs.symm.trans hsid
        simp only at hm hr
        have hall : ∀ m ∈ merged, e.Knows m := by
          intro m hmem
          obtain ⟨hget, hhas⟩ := hmerged m hmem
          rw [hm] at hget
          rw [hr] at hhas
          exact ⟨hget, hhas⟩
        refine .inr ⟨hsession, fun merged' maps' hok => ?_⟩
        rw [hplan] at hok
        cases hok
        rw [← hnothing hall hsession]
        exact ⟨hall, hfirst⟩
      · rintro (⟨err', hinit'⟩ | ⟨hsession, hplanned⟩)
        · rw [hinit] at hinit'
          cases hinit'
        · rw [hnothing (hplanned _ _ hplan).1 hsession]
          exact ⟨rfl, rfl, rfl, fun _ _ _ => rfl⟩
    · constructor
      · rintro ⟨-, -, hr, -⟩
        obtain ⟨-, f, ref, href, hle⟩ := hreplaced
        rw [hr] at href
        have hlt := hrefs f ref href
        simp only at hlen
        omega
      · rintro (⟨err', hinit'⟩ | ⟨hsession, hplanned⟩)
        · rw [hinit] at hinit'
          cases hinit'
        · obtain ⟨hall, hnot⟩ := hplanned _ _ hplan
          rw [hnothing hall hsession] at hfirst
          exact absurd hfirst hnot

namespace Sample

/-- The storage has a state of session `b` that this version does not support. -/
def outdated : MemoryStorageAdapter :=
  { MemoryStorageAdapter.empty with
    states := OrderedMap.empty.set "b" ⟨2, CORE_PROTOCOL_VERSION, "b", "direct", [], [], []⟩ }

/-- Session `a` with its manifest is open. -/
def opened : World MemoryStorageAdapter :=
  steps (World.step config) (World.new outdated true)
    [(turn, .call (.joinSession "a" [manifest])), (turn, .resume 0), (turn, .resume 0),
     (turn, .resume 0)]

/-- The storage does not open. -/
def closedStorage : Turn := { turn with storageFailure := some (⟨none, "closed"⟩, false) }

end Sample

theorem failed_join_keeps_session_closedStorage :
    Sample.opened.engine.SameSession Sample.opened.engine :=
  (failed_join_keeps_session Sample.config Sample.outdated true Sample.opened (run_steps _ _)
    Sample.closedStorage Sample.turn Sample.turn [] "b" [] Sample.opened.engine ⟨none, "closed"⟩
    rfl).2 (.inl ⟨_, rfl⟩)

/-- The join of a session whose state is not supported throws, and the engine is in that
session from then on. -/
theorem failed_join_switches_session : ¬ ∀ (w : World MemoryStorageAdapter),
    Run (World.step Sample.config) (fun _ _ => True) (World.new Sample.outdated true) w →
    ∀ (t : Turn) (turns : List Turn) (sessionId : SessionId) (manifests : List FileManifest)
      (e' : Engine MemoryStorageAdapter) (err : Failure),
      (w.engine.joinSession t sessionId manifests).1.follow Sample.config turns
        ((w.engine.joinSession t sessionId manifests).2.task []) = (e', ⟨.settled (.error err), []⟩) →
      w.engine.SameSession e' := by
  intro h
  have hsame := h Sample.opened (run_steps _ _) Sample.turn [Sample.turn, Sample.turn] "b" [] _
    (throwInvalidResumeState "schemaVersion must be 1") (Prod.ext rfl rfl)
  have hsession := hsame.sessionId
  exact absurd hsession (by decide +kernel)

end PonsWarp.Core
