import PonsWarp.Core.Reassembly
import PonsWarp.Core.Stock
import PonsWarp.Core.Stranding

set_option autoImplicit false

/-!
What the storage of an engine gets to hold of a file. A piece is written only behind its check,
so what is held was checked against a manifest, whoever sent it and whatever happened in between.
-/

namespace PonsWarp.Core

open PonsWarp.Data

/-- Nothing is held but what was held before. -/
def Within (held' held : Nat → Option ArrayBuffer) : Prop := ∀ i d, held' i = some d → held i = some d

/-- A storage used for one session, with what it holds of a file: it gets the pieces that are
written to it, and no others. -/
structure Shelf (σ : Type) [StorageAdapter σ] (session : SessionId) (f : FileId) where
  Fits : σ → Prop
  held : σ → Nat → Option ArrayBuffer
  init : ∀ s, Fits s → Fits (StorageAdapter.init session s).2 ∧
    Within (held (StorageAdapter.init session s).2) (held s)
  write : ∀ s g i data, Fits s → Fits (StorageAdapter.writePiece g i data s).2 ∧
    ∀ j d, held (StorageAdapter.writePiece g i data s).2 j = some d →
      held s j = some d ∨ (g = f ∧ j = i ∧ d = data)
  read : ∀ s g i, Fits s → Fits (StorageAdapter.readPiece g i s).2 ∧
    Within (held (StorageAdapter.readPiece g i s).2) (held s)
  answer : ∀ s i d, Fits s → (StorageAdapter.readPiece f i s).1 = .ok (some d) →
    held s i = some d
  erase : ∀ s g i, Fits s → Fits (StorageAdapter.deletePiece g i s).2 ∧
    Within (held (StorageAdapter.deletePiece g i s).2) (held s)
  save : ∀ s state, Fits s → Fits (StorageAdapter.saveState state s).2 ∧
    Within (held (StorageAdapter.saveState state s).2) (held s)
  load : ∀ s id, Fits s → Fits (StorageAdapter.loadState id s).2 ∧
    Within (held (StorageAdapter.loadState id s).2) (held s)

theorem Within.refl (held : Nat → Option ArrayBuffer) : Within held held := fun _ _ => id

namespace MemoryStorageAdapter

theorem session_of_requireSession {s : MemoryStorageAdapter} {session id : SessionId}
    (h : s.sessionId = none ∨ s.sessionId = some session) (hs : s.requireSession = .ok id) :
    id = session := by
  unfold requireSession at hs
  obtain hnone | hsome := h
  · simp [hnone] at hs
  · simp only [hsome] at hs
    split at hs
    · cases hs
    · exact (Except.ok.inj hs).symm

/-- The pieces of a file, in a memory that no other session is opened in. -/
def shelf (session : SessionId) (f : FileId) : Shelf MemoryStorageAdapter session f where
  Fits s := s.sessionId = none ∨ s.sessionId = some session
  held s i := s.pieces.get? (key session f i)
  init s h := ⟨.inr rfl, .refl _⟩
  write s g i data h := by
    simp only [StorageAdapter.writePiece, writePiece]
    cases hs : s.requireSession with
    | error err => exact ⟨h, fun j d hd => .inl hd⟩
    | ok id =>
      refine ⟨h, fun j d hd => ?_⟩
      obtain rfl := session_of_requireSession h hs
      simp only [OrderedMap.get?_set, key_inj] at hd
      split at hd
      · rename_i heq
        exact .inr ⟨heq.1.symm, heq.2, (Option.some.inj hd).symm⟩
      · exact .inl hd
  read s g i h := by
    have hsame : (StorageAdapter.readPiece g i s).2 = s := by
      change (readPiece g i s).2 = s
      unfold readPiece
      split <;> rfl
    rw [hsame]
    exact ⟨h, .refl _⟩
  answer s i d h hread := by
    simp only [StorageAdapter.readPiece, readPiece] at hread
    cases hs : s.requireSession with
    | error err => simp [hs] at hread
    | ok id =>
      obtain rfl := session_of_requireSession h hs
      simpa [hs] using hread
  erase s g i h := by
    simp only [StorageAdapter.deletePiece, deletePiece]
    split
    · exact ⟨h, .refl _⟩
    · refine ⟨h, fun j d hd => ?_⟩
      exact (OrderedMap.get?_delete_eq_some.1 hd).2
  save s state h := by
    simp only [StorageAdapter.saveState, saveState]
    split
    · exact ⟨h, .refl _⟩
    · exact ⟨h, .refl _⟩
  load s id h := ⟨h, .refl _⟩

end MemoryStorageAdapter

/-- The bytes pass the check of the piece at a position. -/
def FileManifest.Vouches (hash : ArrayBuffer → String) (m : FileManifest) (i : Nat)
    (d : ArrayBuffer) : Prop :=
  ∃ p, m.pieces[i]? = some p ∧ verifyPiece hash d p = true

/-- A check that waits is that of its piece, and is the first continuation of its task. -/
structure Task.Checks (hash : ArrayBuffer → String) (Q : FileManifest → Prop) (task : Task) :
    Prop where
  first : ∀ r below, task.stack = .pieceChecked r :: below →
    task.pending = .settled (.ok (.bool (verifyPiece hash r.data r.descriptor))) ∧
      ∃ m, Q m ∧ m.fileId = r.fileId ∧ m.pieces[r.pieceIndex]? = some r.descriptor
  rest : ∀ r, .pieceChecked r ∉ task.stack.tail

namespace World

section

variable {σ : Type} {w : World σ} {t : Turn} {a : Action} {f : FileId} {i : Nat}

/-- A piece is written behind a check that it has passed. -/
theorem grant_write {data : ArrayBuffer} (hg : w.grant (t, a) (.write f i data)) :
    ∃ k pending r below, a = .resume k ∧ w.tasks[k]? = some ⟨pending, .pieceChecked r :: below⟩ ∧
      w.engine.outcome pending = some (.ok (.bool true)) ∧ r.fileId = f ∧ r.pieceIndex = i ∧
      r.data = data := by
  obtain ⟨c, rfl, h⟩ | ⟨k, rfl, pending, frame, below, outcome, hi, ho, h⟩ := grant_session rfl hg
  · cases c
    all_goals first
      | exact (show False from h).elim
      | simp [Call.grant, Grant.only, Grant.restoring, Grant.compete, Grant.cancel,
          Grant.expiring, Grant.retire] at h
  · unfold Frame.grant at h
    split at h
    all_goals first
      | exact (show False from h).elim
      | (simp [Grant.only, Grant.filling, Grant.joined, Grant.request, Grant.joining,
          Grant.creating, Grant.grid, Grant.announce, Grant.retire, Grant.lose] at h; done)
      | exact ⟨k, pending, _, below, rfl, hi, ho, h.2.1.symm, h.2.2.1.symm, h.2.2.2.symm⟩
      | (obtain h | h := h
         · exact absurd h (Grant.local_again _ _ _ _ rfl)
         · cases h)

/-- A session is opened by two calls. -/
theorem grant_init {s : SessionId} (hg : w.grant (t, a) (.init s)) :
    (∃ input files, a = .call (.createSession input files) ∧ input.sessionId = s) ∨
      ∃ manifests, a = .call (.joinSession s manifests) := by
  obtain ⟨c, rfl, h⟩ | ⟨k, rfl, pending, frame, below, outcome, hi, ho, h⟩ := grant_session rfl hg
  · cases c
    all_goals first
      | exact (show False from h).elim
      | (simp [Call.grant, Grant.only, Grant.restoring, Grant.compete, Grant.cancel,
          Grant.expiring, Grant.retire] at h; done)
      | (obtain h | h := h
         · cases h
           exact .inl ⟨_, _, rfl, rfl⟩
         · cases h)
      | (obtain h | h := h
         · cases h
           exact .inr ⟨_, rfl⟩
         · cases h)
  · unfold Frame.grant at h
    split at h
    all_goals first
      | exact (show False from h).elim
      | (simp [Grant.only, Grant.filling, Grant.joined, Grant.request, Grant.joining,
          Grant.creating, Grant.grid, Grant.announce, Grant.retire, Grant.lose] at h; done)
      | (obtain h | h := h
         · exact absurd h (Grant.local_again _ _ _ _ rfl)
         · cases h)

/-- Pieces are checked for a call and behind the last chunk of a piece. -/
theorem grant_pieceChecked {r : Receipt} (hr : ∀ i, a ≠ .resume i)
    (h : w.grant (t, a) (.frame (.pieceChecked r))) :
    ∃ f i x data expected, a = .call (.receivePiece f i x data expected) := by
  obtain ⟨ref, x, scheduled, hne⟩ | ⟨p, header, -, hne⟩ | ⟨f, i, x, data, expected, r', ha, -⟩ :=
    grant_tie hr h rfl
  · cases hne
  · cases hne
  · exact ⟨f, i, x, data, expected, ha⟩

end

end World

theorem Frame.grant_pieceChecked {σ : Type} {e : Engine σ} {t : Turn} {frame : Frame}
    {outcome : Except Failure Value} {r : Receipt}
    (h : frame.grant e t outcome (.frame (.pieceChecked r))) :
    ∃ p header, frame = .chunkAppended p header := by
  unfold Frame.grant at h
  split at h
  all_goals first
    | exact (show False from h).elim
    | exact ⟨_, _, rfl⟩
    | (simp [Grant.only, Grant.filling, Grant.joined, Grant.request, Grant.joining,
        Grant.creating, Grant.grid, Grant.gridLoop, Grant.commit, Grant.corrupt, Grant.accept,
        Grant.retire, Grant.lose, Grant.announce, Frame.restores] at h; done)
    | (obtain h | h := h
       · have htie := Grant.again_tie h rfl
         simp at htie
       · cases h)

/-- A check that is left to do is the first thing to do. -/
def Next.ChecksFirst (next : Next) : Prop := ∀ r, .pieceChecked r ∉ next.frames.tail

theorem Next.ChecksFirst.andThen {next : Next} {frame : Frame} (h : next.ChecksFirst)
    (hframe : ∀ r, frame ≠ .pieceChecked r) : (next.andThen frame).ChecksFirst := by
  intro r hr
  cases next with
  | done outcome => cases hr
  | await pending frames =>
    cases frames with
    | nil => cases hr
    | cons first rest =>
      obtain hrest | hlast := List.mem_append.1 hr
      · exact h r hrest
      · exact hframe r (List.mem_singleton.1 hlast).symm

theorem Next.checksFirst_of_none {next : Next} (h : ∀ r, .pieceChecked r ∉ next.frames) :
    next.ChecksFirst :=
  fun r hr => h r (List.mem_of_mem_tail hr)

section

variable {σ : Type} [StorageAdapter σ] {cfg : Config} {t : Turn} {Q : FileManifest → Prop}

omit [StorageAdapter σ] in
theorem Engine.checksFirst_receivePiece (e : Engine σ) (f : FileId) (i : Number) (x : RequestId)
    (data : ArrayBuffer) (expected : Option PeerId) :
    (e.receivePiece cfg f i x data expected).2.ChecksFirst := by
  intro r hr
  unfold receivePiece at hr
  split at hr
  · cases hr
  · split at hr
    · cases hr
    · split at hr
      · cases hr
      · split at hr <;> cases hr

omit [StorageAdapter σ] in
theorem Engine.checksFirst_chunkAppended (e : Engine σ) (p : PeerId)
    (header : PieceChunkHeaderMessage) (outcome : Except Failure Value) :
    (e.chunkAppended cfg p header outcome).2.ChecksFirst := by
  unfold chunkAppended
  split
  · exact Next.checksFirst_of_none fun r hr => by cases hr
  · split
    · exact Next.checksFirst_of_none fun r hr => by cases hr
    · split
      · exact Next.checksFirst_of_none fun r hr => by cases hr
      · refine Next.ChecksFirst.andThen ?_ fun r hr => by cases hr
        exact checksFirst_receivePiece e _ _ _ _ _
  · exact Next.checksFirst_of_none fun r hr => by cases hr

/-- The task that a stretch leaves behind. -/
theorem Does.checks {G : Grant} {e : Engine σ} {result : Engine σ × Next} {below : List Frame}
    (hd : Does cfg t G e result) (hfirst : result.2.ChecksFirst)
    (hbelow : ∀ r, .pieceChecked r ∉ below)
    (hQ : ∀ f m, result.1.manifests.get? f = some m → m.fileId = f ∧ Q m) :
    (result.2.task below).Checks cfg.hash Q := by
  obtain ⟨-, -, hopens⟩ := hd
  obtain ⟨e', next⟩ := result
  have hnone : ∀ pending : Pending, Task.Checks cfg.hash Q ⟨pending, below⟩ := by
    refine fun pending => ⟨fun r rest hstack => ?_, fun r hr => ?_⟩
    · have hbelow' : below = .pieceChecked r :: rest := hstack
      exact absurd (by simp [hbelow']) (hbelow r)
    · exact hbelow r (List.mem_of_mem_tail hr)
  cases next with
  | done outcome => exact hnone _
  | await pending frames =>
    cases frames with
    | nil => exact hnone pending
    | cons frame more =>
      refine ⟨fun r rest hstack => ?_, fun r hr => ?_⟩
      · obtain ⟨rfl, -⟩ := List.cons.inj hstack
        obtain ⟨hpending, -, m, hm, hpiece⟩ := hopens _ List.mem_cons_self
        obtain ⟨hid, hQm⟩ := hQ _ m hm
        exact ⟨hpending, m, hQm, hid, hpiece⟩
      · obtain hmore | hin := List.mem_append.1 hr
        · exact hfirst r hmore
        · exact hbelow r hin

/-- Every check that waits is that of its piece, with a manifest that has `Q`. -/
def World.Checked (hash : ArrayBuffer → String) (Q : FileManifest → Prop) (w : World σ) : Prop :=
  w.Stocked Q (fun _ _ => True) ∧ ∀ task ∈ w.tasks, task.Checks hash Q

/-- The storage is used from elsewhere. -/
def World.withStorage (w : World σ) (storage : σ) : World σ :=
  { w with engine := { w.engine with storage := storage } }

omit [StorageAdapter σ] in
theorem World.Checked.withStorage {hash : ArrayBuffer → String} {w : World σ}
    (h : w.Checked hash Q) (storage : σ) : (w.withStorage storage).Checked hash Q :=
  ⟨⟨⟨h.1.1.manifests, h.1.1.managers⟩, h.1.2⟩, h.2⟩

theorem made_trivial (Q : FileManifest → Prop) : Made Q (fun _ _ => True) :=
  ⟨fun _ _ => trivial, fun _ _ _ _ _ => trivial⟩

theorem World.Checked.step {w : World σ} {x : Turn × Action} (h : w.Checked cfg.hash Q)
    (hQ : ∀ m ∈ w.registered x.2, Q m) : (w.step cfg x).Checked cfg.hash Q := by
  have hstocked : (w.step cfg x).Stocked Q fun _ _ => True := h.1.step (made_trivial Q) hQ
  obtain ⟨t, a⟩ := x
  refine ⟨hstocked, ?_⟩
  have hmanifests := hstocked.1.manifests
  by_cases hreceive : ∃ f i y data expected, a = .call (.receivePiece f i y data expected)
  · obtain ⟨f, i, y, data, expected, rfl⟩ := hreceive
    intro task htask
    obtain hold | hnew := List.mem_append.1 htask
    · exact h.2 task hold
    · obtain rfl := List.mem_singleton.1 hnew
      exact Does.checks (t := t)
        (Engine.does_receivePiece f i y data expected (G := ⊤) fun _ _ => trivial)
        (Engine.checksFirst_receivePiece _ f i y data expected) (by simp) hmanifests
  · have hspec := World.step_spec cfg w t a
    generalize w.step cfg (t, a) = w' at hspec hmanifests ⊢
    intro task htask
    cases hspec with
    | alone _ e fired hc => exact h.2 task htask
    | spawn _ hr result hd =>
      obtain hold | hnew := List.mem_append.1 htask
      · exact h.2 task hold
      · obtain rfl := List.mem_singleton.1 hnew
        refine hd.checks (Next.checksFirst_of_none fun r hframe => ?_) (by simp) hmanifests
        exact hreceive (World.grant_pieceChecked hr (hd.frames _ hframe))
    | resume k pending frame below outcome result hi ho hr hd =>
      obtain hold | rfl := List.mem_or_eq_of_mem_set htask
      · exact h.2 task hold
      · have hbelow := (h.2 _ (List.mem_of_getElem? hi)).rest
        refine hd.checks ?_ hbelow hmanifests
        by_cases hchunk : ∃ p header, frame = .chunkAppended p header
        · obtain ⟨p, header, rfl⟩ := hchunk
          rw [← hr]
          exact Engine.checksFirst_chunkAppended _ p header outcome
        · exact Next.checksFirst_of_none fun r hframe =>
            hchunk (Frame.grant_pieceChecked (hd.frames _ hframe))

/-- The action opens no other session. -/
def Action.Within (session : SessionId) : Action → Prop
  | .call (.createSession input _) => input.sessionId = session
  | .call (.joinSession sessionId _) => sessionId = session
  | _ => True

instance (session : SessionId) (a : Action) : Decidable (a.Within session) := by
  unfold Action.Within
  split <;> infer_instance

/-- What is held was held at the start, or passes the check of a manifest with `Q`. -/
def Shelf.Vouched {session : SessionId} {f : FileId} (shelf : Shelf σ session f)
    (hash : ArrayBuffer → String) (Q : FileManifest → Prop) (storage s : σ) : Prop :=
  ∀ i d, shelf.held s i = some d →
    shelf.held storage i = some d ∨ ∃ m, Q m ∧ m.fileId = f ∧ m.Vouches hash i d

structure World.Sound {session : SessionId} {f : FileId} (shelf : Shelf σ session f)
    (hash : ArrayBuffer → String) (Q : FileManifest → Prop) (storage : σ) (w : World σ) :
    Prop where
  checked : w.Checked hash Q
  fits : shelf.Fits w.engine.storage
  vouched : shelf.Vouched hash Q storage w.engine.storage

variable {session : SessionId} {f : FileId} {shelf : Shelf σ session f} {storage : σ} {w : World σ}

theorem Shelf.Vouched.within {hash : ArrayBuffer → String} {s s' : σ}
    (h : shelf.Vouched hash Q storage s) (hwithin : Within (shelf.held s') (shelf.held s)) :
    shelf.Vouched hash Q storage s' :=
  fun i d hd => h i d (hwithin i d hd)

omit [StorageAdapter σ] in
/-- What is written has passed the check that waited for it. -/
theorem World.Checked.vouches {a : Action} {g : FileId} {i : Nat} {data : ArrayBuffer}
    (h : w.Checked cfg.hash Q) (hg : w.grant (t, a) (.write g i data)) :
    ∃ m, Q m ∧ m.fileId = g ∧ m.Vouches cfg.hash i data := by
  obtain ⟨k, pending, r, below, rfl, hi, ho, rfl, rfl, rfl⟩ := grant_write hg
  obtain ⟨hpending, m, hQ, hid, hpiece⟩ := (h.2 _ (List.mem_of_getElem? hi)).first r below rfl
  obtain rfl | hunit := outcome_eq_some ho
  · have hpassed : verifyPiece cfg.hash r.data r.descriptor = true := by simpa using hpending.symm
    exact ⟨m, hQ, hid, r.descriptor, hpiece, hpassed⟩
  · cases hunit

/-- A change under the grant of an action that opens no other session. -/
theorem Change.vouched {e e' : Engine σ} {a : Action} (hc : Change t (w.grant (t, a)) e e')
    (hchecked : w.Checked cfg.hash Q) (hsession : a.Within session)
    (h : shelf.Fits e.storage ∧ shelf.Vouched cfg.hash Q storage e.storage) :
    shelf.Fits e'.storage ∧ shelf.Vouched cfg.hash Q storage e'.storage := by
  obtain ⟨hfits, hvouched⟩ := h
  cases hc with
  | save s hs hne =>
    exact (shelf.save e.storage (e.persistedState s) hfits).imp_right hvouched.within
  | load s => exact (shelf.load e.storage s hfits).imp_right hvouched.within
  | read g i => exact (shelf.read e.storage g i hfits).imp_right hvouched.within
  | erase g i hg => exact (shelf.erase e.storage g i hfits).imp_right hvouched.within
  | init s hg =>
    have hs : s = session := by
      obtain ⟨input, files, rfl, rfl⟩ | ⟨manifests, rfl⟩ := World.grant_init hg
      · exact hsession
      · exact hsession
    subst hs
    exact (shelf.init e.storage hfits).imp_right hvouched.within
  | write g i data hg =>
    obtain ⟨hfits', hnew⟩ := shelf.write e.storage g i data hfits
    refine ⟨hfits', fun j d hd => ?_⟩
    obtain hold | ⟨rfl, rfl, rfl⟩ := hnew j d hd
    · exact hvouched j d hold
    · exact .inr (hchecked.vouches hg)
  | register m hg =>
    unfold Engine.registerManifest
    simp only
    split <;> exact ⟨hfits, hvouched⟩
  | _ => exact ⟨hfits, hvouched⟩

theorem World.Sound.step {x : Turn × Action} (h : w.Sound shelf cfg.hash Q storage)
    (hQ : ∀ m ∈ w.registered x.2, Q m) (hsession : x.2.Within session) :
    (w.step cfg x).Sound shelf cfg.hash Q storage := by
  have hchecked : (w.step cfg x).Checked cfg.hash Q := h.checked.step hQ
  obtain ⟨t, a⟩ := x
  obtain ⟨hfits, hvouched⟩ := Changes.keeps
    (fun e e' hc he => hc.vouched h.checked hsession he) (World.step_spec cfg w t a).changes
    ⟨h.fits, h.vouched⟩
  exact ⟨hchecked, hfits, hvouched⟩

/-- What every operation of the storage keeps, an engine keeps that opens one session. -/
theorem kept_of_run {P : σ → Prop} (hinit : ∀ s, P s → P (StorageAdapter.init session s).2)
    (hwrite : ∀ s g i data, P s → P (StorageAdapter.writePiece g i data s).2)
    (hread : ∀ s g i, P s → P (StorageAdapter.readPiece g i s).2)
    (herase : ∀ s g i, P s → P (StorageAdapter.deletePiece g i s).2)
    (hsave : ∀ s state, P s → P (StorageAdapter.saveState state s).2)
    (hload : ∀ s id, P s → P (StorageAdapter.loadState id s).2)
    {ok : World σ → Turn × Action → Prop} (hok : ∀ v x, ok v x → x.2.Within session)
    {v w : World σ} (h : Run (World.step cfg) ok v w) (hv : P v.engine.storage) :
    P w.engine.storage := by
  refine h.invariant (P := fun u => P u.engine.storage) (fun u x hu hx => ?_) hv
  obtain ⟨t, a⟩ := x
  refine Changes.keeps (P := fun e => P e.storage) (fun e e' hc he => ?_)
    (World.step_spec cfg u t a).changes hu
  cases hc with
  | save s hs hne => exact hsave _ _ he
  | load s => exact hload _ _ he
  | read g i => exact hread _ _ _ he
  | erase g i hg => exact herase _ _ _ he
  | init s hg =>
    have hs : s = session := by
      obtain ⟨input, files, rfl, rfl⟩ | ⟨manifests, rfl⟩ := World.grant_init hg
      · exact hok _ _ hx
      · exact hok _ _ hx
    subst hs
    exact hinit _ he
  | write g i data hg => exact hwrite _ _ _ _ he
  | register m hg =>
    unfold Engine.registerManifest
    simp only
    split <;> exact he
  | _ => exact he

/-- Whatever the peers send and in whatever order anything happens: a storage used for one
session holds nothing of a file but what it held at the start and what passes the check of a
manifest of the file that was registered. -/
theorem stored_pieces_are_verified (cfg : Config) (Q : FileManifest → Prop)
    (shelf : Shelf σ session f) (storage : σ) (hfits : shelf.Fits storage) (transport : Bool)
    (w : World σ) (h : Run (World.step cfg)
      (fun v x => (∀ m ∈ v.registered x.2, Q m) ∧ x.2.Within session)
      (World.new storage transport) w) :
    shelf.Fits w.engine.storage ∧ shelf.Vouched cfg.hash Q storage w.engine.storage := by
  have hnew : (World.new storage transport).Sound shelf cfg.hash Q storage :=
    ⟨⟨stocked_new storage transport, by simp [World.new]⟩, hfits, fun i d hd => .inl hd⟩
  have hsound : w.Sound shelf cfg.hash Q storage :=
    h.invariant (fun v x hv hx => hv.step hx.1 hx.2) hnew
  exact ⟨hsound.fits, hsound.vouched⟩

end

namespace Sample

/-- A piece is received and passes its check. -/
def onePiece : List (Turn × Action) :=
  joined ++ [(turn, .call (.receivePiece "f" 0 "m" [1] none)), (turn, .resume 1)]

end Sample

theorem stored_pieces_are_verified_sample :
    (steps (World.step Sample.config) Sample.start Sample.onePiece).engine.storage.pieces.get?
      "s:f:0" = some [1] ∧
    (MemoryStorageAdapter.shelf "s" "f").Vouched Sample.config.hash (· = Sample.manifest) .empty
      (steps (World.step Sample.config) Sample.start Sample.onePiece).engine.storage :=
  ⟨by decide +kernel, (stored_pieces_are_verified Sample.config (· = Sample.manifest)
    (MemoryStorageAdapter.shelf "s" "f") .empty (.inl rfl) true _
    (run_of_allowed (by decide +kernel))).2⟩

end PonsWarp.Core
