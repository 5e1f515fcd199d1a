import PonsWarp.Core.Handling
import PonsWarp.Core.Joining
import PonsWarp.Core.StoredPieces

set_option autoImplicit false

/-!
The file at the end of a transfer. An engine that joins with the manifest of a file puts that
file together, or its storage has a collision of the hash to show for it.
-/

namespace PonsWarp.Core

open PonsWarp.Data ManifestGenerator

/-- A manifest of the same file lists the same pieces. -/
def FileManifest.Agrees (M m : FileManifest) : Prop := m.fileId = M.fileId → m.pieces = M.pieces

instance (M m : FileManifest) : Decidable (M.Agrees m) :=
  inferInstanceAs (Decidable (m.fileId = M.fileId → m.pieces = M.pieces))

/-- What a join is given: the manifest, and no other of its file. -/
def FileManifest.GivenBy (M : FileManifest) (manifests : List FileManifest) : Prop :=
  M ∈ manifests ∧ ∀ m ∈ manifests, M.Agrees m

instance (M : FileManifest) (manifests : List FileManifest) : Decidable (M.GivenBy manifests) :=
  inferInstanceAs (Decidable (M ∈ manifests ∧ ∀ m ∈ manifests, M.Agrees m))

/-- An action of a receiver: it joins the session with the manifest, and shares nothing. -/
def Receives (session : SessionId) (M : FileManifest) : Action → Prop
  | .call (.createSession _ _) => False
  | .call (.joinSession sessionId manifests) => sessionId = session ∧ M.GivenBy manifests
  | _ => True

def Receives.test (session : SessionId) (M : FileManifest) : Action → Bool
  | .call (.createSession _ _) => false
  | .call (.joinSession sessionId manifests) => sessionId = session ∧ M.GivenBy manifests
  | _ => true

theorem Receives.test_iff {session : SessionId} {M : FileManifest} {a : Action} :
    Receives.test session M a = true ↔ Receives session M a := by
  cases a with
  | call c => cases c <;> simp [Receives.test, Receives]
  | _ => simp [Receives.test, Receives]

instance (session : SessionId) (M : FileManifest) (a : Action) :
    Decidable (Receives session M a) :=
  decidable_of_iff _ Receives.test_iff

theorem Receives.within {session : SessionId} {M : FileManifest} {a : Action}
    (h : Receives session M a) : a.Within session := by
  unfold Receives at h
  split at h
  · exact h.elim
  · exact h.1
  · rename_i hcreate hjoin
    unfold Action.Within
    split
    · exact absurd rfl (hcreate _ _)
    · exact absurd rfl (hjoin _ _)
    · trivial

/-- `mergeManifests` refuses a persisted manifest that differs from a given one. -/
theorem mergeManifests_go_agrees {M : FileManifest} {l : List FileManifest}
    {acc : OrderedMap FileId FileManifest} {merged : List FileManifest}
    (h : mergeManifests.go acc l = .ok merged) (hown : ∀ f m, acc.get? f = some m → m.fileId = f)
    (hl : ∀ m ∈ l, M.Agrees m)
    (hM : M ∈ l ∨ ∀ m, acc.get? M.fileId = some m → m.pieces = M.pieces) :
    ∀ m ∈ merged, M.Agrees m := by
  induction l generalizing acc with
  | nil =>
    cases h
    obtain hmem | hacc := hM
    · cases hmem
    · intro m hm hid
      obtain ⟨f, hf⟩ := OrderedMap.mem_values_iff.1 hm
      obtain rfl := hown f m hf
      exact hacc m (hid ▸ hf)
  | cons first rest ih =>
    have hrest : ∀ m ∈ rest, M.Agrees m := fun m hm => hl m (List.mem_cons_of_mem _ hm)
    have hfirst := hl first List.mem_cons_self
    unfold mergeManifests.go at h
    split at h
    · rename_i existing hexisting
      split at h
      · rename_i hequiv
        refine ih h hown hrest ?_
        by_cases hid : first.fileId = M.fileId
        · refine .inr fun m hm => ?_
          rw [← hid, hexisting] at hm
          cases hm
          have hpieces : existing.pieces = first.pieces := by
            simp only [manifestsEquivalent, Bool.and_eq_true, decide_eq_true_eq] at hequiv
            exact hequiv.2
          rw [hpieces, hfirst hid]
        · refine hM.imp_left fun hmem => ?_
          obtain rfl | hmem := List.mem_cons.1 hmem
          · exact absurd rfl hid
          · exact hmem
      · cases h
    · rename_i hnone
      refine ih h ?_ hrest ?_
      · intro f m hm
        rw [OrderedMap.get?_set] at hm
        split at hm
        · rename_i hf
          cases hm
          exact hf.symm
        · exact hown f m hm
      · by_cases hid : first.fileId = M.fileId
        · refine .inr fun m hm => ?_
          rw [← hid, OrderedMap.get?_set_self] at hm
          cases hm
          exact hfirst hid
        · refine hM.imp (fun hmem => ?_) fun hacc m hm => ?_
          · obtain rfl | hmem := List.mem_cons.1 hmem
            · exact absurd rfl hid
            · exact hmem
          · rw [OrderedMap.get?_set_of_ne _ _ (Ne.symm hid)] at hm
            exact hacc m hm

theorem mergeManifests_agrees {M : FileManifest} {persisted incoming merged : List FileManifest}
    (h : mergeManifests persisted incoming = .ok merged) (hM : M.GivenBy incoming) :
    ∀ m ∈ merged, M.Agrees m := by
  refine mergeManifests_go_agrees h ?_ hM.2 (.inl hM.1)
  have hfold : ∀ (l : List FileManifest) (acc : OrderedMap FileId FileManifest),
      (∀ f m, acc.get? f = some m → m.fileId = f) →
      ∀ f m, (l.foldl (fun a m => a.set m.fileId m) acc).get? f = some m → m.fileId = f := by
    intro l
    induction l with
    | nil => exact fun acc hacc => hacc
    | cons m rest ih =>
      intro acc hacc
      refine ih _ fun f m' hm => ?_
      rw [OrderedMap.get?_set] at hm
      split at hm
      · rename_i hf
        cases hm
        exact hf.symm
      · exact hacc f m' hm
  exact hfold persisted .empty (by simp)

/-- A join that is under way was given the manifest, and nothing is being shared. -/
def Frame.Joins (M : FileManifest) : Frame → Prop
  | .joinInitialized _ manifests | .joinLoaded _ manifests => M.GivenBy manifests
  | .createInitialized _ _ | .createHashed _ _ _ _ => False
  | _ => True

theorem Frame.grant_joins {σ : Type} {e : Engine σ} {t : Turn} {M : FileManifest}
    {frame next : Frame} {outcome : Except Failure Value} (h : frame.Joins M)
    (hg : frame.grant e t outcome (.frame next)) : next.Joins M := by
  cases next with
  | joinInitialized | joinLoaded | createInitialized | createHashed =>
    unfold Frame.grant at hg
    split at hg
    all_goals first
      | exact (show False from hg).elim
      | exact (show False from h).elim
      | (cases hg; exact h)
      | (simp [Grant.only, Grant.filling, Grant.joined, Grant.request, Grant.joining,
          Grant.grid, Grant.gridLoop, Grant.commit, Grant.corrupt, Grant.accept,
          Grant.retire, Grant.lose, Grant.announce, Frame.restores] at hg; done)
      | (obtain hg | hg := hg
         · exact (Engine.Grant.again_frame hg).elim
         · cases hg)
      | (obtain ⟨-, ⟨_, -, hg⟩ | ⟨r, hg, -⟩⟩ := hg <;> cases hg)
  | _ => trivial

theorem Frame.Replaces.joins {M : FileManifest} {frame : Frame} (h : frame.Replaces) :
    frame.Joins M := by
  cases frame with
  | joinInitialized | joinLoaded | createInitialized | createHashed => exact h.elim
  | _ => trivial

namespace World

section

variable {σ : Type} {w : World σ} {t : Turn} {M : FileManifest} {frame : Frame}

/-- What peers, timers and windows begin is no join. -/
theorem grant_joins {a : Action} (hc : ∀ c, a ≠ .call c) (hr : ∀ i, a ≠ .resume i)
    (hg : w.grant (t, a) (.frame frame)) : frame.Joins M := by
  cases a with
  | call c => exact absurd rfl (hc c)
  | resume i => exact absurd rfl (hr i)
  | message p message =>
    obtain hg | ⟨m, -, ⟨-, hg⟩ | ⟨-, map, -, hg⟩ | ⟨-, header, -, -, -, ⟨-, hg⟩ |
      ⟨previous, -, -, outstanding, finalized, hg⟩⟩ | ⟨-, requestId, f, i, -, -, -, hg⟩ |
      ⟨-, requestId, -, hg⟩ | ⟨-, requestId, -, q, -, -, hg | hg⟩⟩ := hg
    · cases hg
      trivial
    · cases hg
    · exact hg.elim
    · cases hg
    · cases hg
      trivial
    · exact hg.elim
    · cases hg
    · exact hg.elim
    · exact (Engine.Grant.again_frame hg).joins
  | binary p data =>
    obtain hg | ⟨header, -, hg | ⟨-, hg | ⟨outstanding, finalized, hg⟩⟩⟩ := hg <;> cases hg <;>
      trivial
  | window ref =>
    obtain ⟨track, hg⟩ | ⟨window, job, rest, -, -, -, hg⟩ := hg
    · cases hg
      trivial
    · cases job with
      | fill p f key options =>
        obtain ⟨r, scheduled, rfl⟩ | hg := hg
        · trivial
        · cases hg
          trivial
      | retry x r d =>
        obtain ⟨ref, scheduled, rfl⟩ := hg
        trivial
      | expire x => exact hg.elim
  | upload p =>
    cases frame with
    | joinInitialized | joinLoaded | createInitialized | createHashed => exact hg.elim
    | _ => trivial
  | timer k =>
    obtain ⟨x, key, -, hg⟩ := hg
    exact hg.elim

end

variable {σ : Type} [StorageAdapter σ] {cfg : Config} {w : World σ} {session : SessionId}
  {M : FileManifest}

/-- Every join under way was given the manifest. -/
def Joins (M : FileManifest) (w : World σ) : Prop := ∀ frame, w.Holds frame → frame.Joins M

theorem Joins.step {x : Turn × Action} (h : w.Joins M) (hx : Receives session M x.2) :
    (w.step cfg x).Joins M := by
  obtain ⟨t, a⟩ := x
  intro frame hframe
  obtain hold | hg := (step_spec cfg w t a).frames hframe
  · exact h frame hold
  · by_cases hr : ∃ i, a = .resume i
    · obtain ⟨i, rfl⟩ := hr
      obtain ⟨pending, top, below, outcome, hi, -, hg⟩ := hg
      exact Frame.grant_joins (h top ⟨_, List.mem_of_getElem? hi, List.mem_cons_self⟩) hg
    · by_cases hc : ∃ c, a = .call c
      · obtain ⟨c, rfl⟩ := hc
        cases c with
        | createSession input files => exact hx.elim
        | joinSession s manifests =>
          obtain hg | hg := hg
          · cases hg
          · cases hg
            exact hx.2
        | _ =>
          cases frame with
          | joinInitialized | joinLoaded | createInitialized | createHashed =>
            first
              | exact (show False from hg).elim
              | simp [grant, Call.grant, Grant.only, Grant.request, Grant.grid, Grant.gridLoop,
                  Grant.restoring, Grant.cancel, Grant.compete, Grant.expiring, Grant.retire,
                  Grant.receive, Frame.restores] at hg
          | _ => trivial
      · exact grant_joins (fun c hcall => hc ⟨c, hcall⟩) (fun i hi => hr ⟨i, hi⟩) hg

omit [StorageAdapter σ] in
/-- What a receiver registers of the file lists its pieces. -/
theorem Joins.registered {a : Action} (h : w.Joins M) : ∀ m ∈ w.registered a, M.Agrees m := by
  intro m hm
  unfold World.registered at hm
  split at hm
  · split at hm
    · rename_i state s manifests below hi
      split at hm
      · rename_i merged hmerged
        have hgiven : M.GivenBy manifests :=
          h (.joinLoaded s manifests) ⟨_, List.mem_of_getElem? hi, List.mem_cons_self⟩
        exact mergeManifests_agrees hmerged hgiven m hm
      · cases hm
    · rename_i manifest input file files manifests below hi
      exact (h (.createHashed input file files manifests)
        ⟨_, List.mem_of_getElem? hi, List.mem_cons_self⟩).elim
    · cases hm
  · cases hm

end World

section

variable {σ : Type} [StorageAdapter σ] {session : SessionId} {f : FileId}
  {shelf : Shelf σ session f}

/-- What `assembleFile` puts together is held. -/
theorem Shelf.held_assembleParts {pieces : List PieceDescriptor} {s : σ} {parts : List ArrayBuffer}
    (hfits : shelf.Fits s) (h : assembleParts f pieces s = .ok parts) :
    List.Forall₂ (fun p d => shelf.held s p.index = some d) pieces parts := by
  induction pieces generalizing s parts with
  | nil =>
    cases h
    exact .nil
  | cons p rest ih =>
    have hanswer := shelf.answer s p.index
    obtain ⟨hfits', hwithin⟩ := shelf.read s f p.index hfits
    unfold assembleParts at h
    generalize StorageAdapter.readPiece f p.index s = result at h hanswer hfits' hwithin
    obtain ⟨answer, s'⟩ := result
    cases answer with
    | error err => cases h
    | ok read =>
      cases read with
      | none => cases h
      | some d =>
        simp only at h hfits' hwithin hanswer
        cases hrest : assembleParts f rest s' with
        | error err => simp [hrest, Except.map] at h
        | ok more =>
          simp only [hrest, Except.map, Except.ok.injEq] at h
          subst h
          refine .cons (hanswer d hfits rfl) ?_
          exact (ih hfits' hrest).imp fun p d hd => hwithin p.index d hd

/-- What is read from the stream is held. -/
theorem Shelf.held_readAll {stream : PieceStream} {s : σ} {pulls : Nat} {chunks : List ArrayBuffer}
    (hf : stream.fileId = f) (hfits : shelf.Fits s)
    (h : stream.readAll pulls s = some (.ok chunks)) :
    List.Forall₂ (fun p d => shelf.held s p.index = some d)
      (stream.manifest.pieces.drop stream.nextIndex) chunks := by
  induction pulls generalizing stream s chunks with
  | zero => cases h
  | succ pulls ih =>
    unfold PieceStream.readAll PieceStream.pull at h
    cases hpiece : stream.manifest.pieces[stream.nextIndex]? with
    | none =>
      simp only [hpiece] at h
      cases h
      rw [List.drop_eq_nil_of_le (List.getElem?_eq_none_iff.1 hpiece)]
      exact .nil
    | some p =>
      obtain ⟨hlt, hget⟩ := List.getElem?_eq_some_iff.1 hpiece
      have hanswer := shelf.answer s p.index
      obtain ⟨hfits', hwithin⟩ := shelf.read s f p.index hfits
      simp only [hpiece, hf] at h
      generalize StorageAdapter.readPiece f p.index s = result at h hanswer hfits' hwithin
      obtain ⟨answer, s'⟩ := result
      rw [List.drop_eq_getElem_cons hlt, hget]
      cases answer with
      | error err => cases h
      | ok read =>
        cases read with
        | none => cases h
        | some d =>
          simp only at h hfits' hwithin hanswer
          obtain ⟨outcome, hrest, hmap⟩ := Option.map_eq_some_iff.1 h
          cases outcome with
          | error err => cases hmap
          | ok more =>
            cases hmap
            refine .cons (hanswer d hfits rfl) ?_
            exact (ih rfl hfits' hrest).imp fun p d hd => hwithin p.index d hd

end

/-- Two buffers of one length that the hash does not tell apart. -/
def Collides (hash : ArrayBuffer → String) (d c : ArrayBuffer) : Prop :=
  d ≠ c ∧ d.length = c.length ∧ hash d = hash c

namespace ManifestGenerator

variable {hash : ArrayBuffer → String} {data : ArrayBuffer} {M : FileManifest}

/-- What passes the check of a piece is its content, or collides with it. -/
theorem Describes.of_vouches (h : Describes hash data M) (hhash : ∀ d, hash d ≠ "") {i : Nat}
    {d : ArrayBuffer} (hd : M.Vouches hash i d) :
    i < M.pieceCount ∧
      (d = content data M.pieceSize i ∨ Collides hash d (content data M.pieceSize i)) := by
  obtain ⟨p, hp, hverify⟩ := hd
  rw [h.getElem?] at hp
  split at hp
  · rename_i hlt
    cases hp
    refine ⟨hlt, or_iff_not_imp_left.2 fun hne => ⟨hne, ?_⟩⟩
    have hlength : (content data M.pieceSize i).length =
        min M.pieceSize (data.length - i * M.pieceSize) := by simp [content]
    simp only [verifyPiece, describe, if_neg (hhash _), ← hlength] at hverify
    by_cases hsize : d.length = (content data M.pieceSize i).length
    · refine ⟨hsize, ?_⟩
      simpa [hsize] using hverify
    · simp [hsize] at hverify
  · cases hp

/-- Pieces that pass their checks, put together in order. -/
theorem Describes.of_parts (h : Describes hash data M) (hhash : ∀ d, hash d ≠ "")
    {parts : List ArrayBuffer}
    (hparts : List.Forall₂ (fun p d => M.Vouches hash p.index d) M.pieces parts) :
    parts.flatten = data ∨
      ∃ i d, i < M.pieceCount ∧ Collides hash d (content data M.pieceSize i) := by
  refine or_iff_not_imp_right.2 fun hnone => ?_
  have hall : List.Forall₂ (fun p d => content data M.pieceSize p.index = d) M.pieces parts := by
    refine hparts.imp fun p d hd => ?_
    obtain ⟨hlt, heq | hcollides⟩ := h.of_vouches hhash hd
    · exact heq.symm
    · exact absurd ⟨p.index, d, hlt, hcollides⟩ hnone
  have hmap : M.pieces.map (fun p => content data M.pieceSize p.index) = parts := by
    rw [← List.forall₂_eq_eq_eq, List.forall₂_map_left_iff]
    exact hall
  rw [← hmap, h.pieces, List.map_map]
  exact h.flatten

end ManifestGenerator

section

variable {σ : Type} [StorageAdapter σ] {cfg : Config} {session : SessionId} {M : FileManifest}

theorem joins_of_run {storage : σ} {transport : Bool} {w : World σ}
    (h : Run (World.step cfg) (fun _ x => Receives session M x.2) (World.new storage transport) w) :
    w.Joins M ∧ w.Checked cfg.hash M.Agrees := by
  refine h.invariant (P := fun v => v.Joins M ∧ v.Checked cfg.hash M.Agrees) (fun v x hv hx => ?_)
    ⟨?_, ?_⟩
  · exact ⟨hv.1.step hx, hv.2.step hv.1.registered⟩
  · rintro frame ⟨task, htask, -⟩
    simp [World.new] at htask
  · exact ⟨stocked_new storage transport, by simp [World.new]⟩

/-- What the storage of a receiver holds passes its checks, when what it held did. -/
theorem vouched_of_run {shelf : Shelf σ session M.fileId} {v w : World σ}
    (h : Run (World.step cfg) (fun _ x => Receives session M x.2) v w) (hjoins : v.Joins M)
    (hchecked : v.Checked cfg.hash M.Agrees) (hfits : shelf.Fits v.engine.storage)
    (hstart : ∀ i d, shelf.held v.engine.storage i = some d → M.Vouches cfg.hash i d) :
    shelf.Fits w.engine.storage ∧
      ∀ i d, shelf.held w.engine.storage i = some d → M.Vouches cfg.hash i d := by
  have hsound : w.Joins M ∧ w.Sound shelf cfg.hash M.Agrees v.engine.storage := by
    refine h.invariant (P := fun u => u.Joins M ∧ u.Sound shelf cfg.hash M.Agrees v.engine.storage)
      (fun u x hu hx => ?_) ⟨hjoins, hchecked, hfits, fun i d hd => .inl hd⟩
    exact ⟨hu.1.step hx, hu.2.step hu.1.registered hx.within⟩
  refine ⟨hsound.2.fits, fun i d hd => ?_⟩
  obtain hold | ⟨m, hagrees, hid, p, hp, hverify⟩ := hsound.2.vouched i d hd
  · exact hstart i d hold
  · exact ⟨p, hagrees hid ▸ hp, hverify⟩

end

/-- A receiver puts together the file that was shared, from whatever peers and in whatever
order it got the pieces, unless it has met a collision of the hash. What is in the storage at
the start has to pass its checks. -/
theorem receiver_gets_the_shared_file {σ : Type} [StorageAdapter σ] (cfg : Config)
    (hhash : ∀ d, cfg.hash d ≠ "") (createFileId : FileId) (file : Blob)
    (options : ManifestOptions) (M : FileManifest)
    (hM : ManifestGenerator.create cfg.hash createFileId file options = .ok M)
    {session : SessionId} (shelf : Shelf σ session M.fileId) (storage : σ)
    (hfits : shelf.Fits storage)
    (hstart : ∀ i d, shelf.held storage i = some d → M.Vouches cfg.hash i d)
    (transport : Bool) (w : World σ)
    (h : Run (World.step cfg) (fun _ x => Receives session M x.2) (World.new storage transport) w) :
    (∀ parts, assembleParts M.fileId M.pieces w.engine.storage = .ok parts →
      parts.flatten = file.data ∨
        ∃ i d, i < M.pieceCount ∧ Collides cfg.hash d (content file.data M.pieceSize i)) ∧
    ∀ pulls chunks, (createReadablePieceStream M.fileId M).readAll pulls w.engine.storage =
        some (.ok chunks) → chunks.flatten = file.data ∨
          ∃ i d, i < M.pieceCount ∧ Collides cfg.hash d (content file.data M.pieceSize i) := by
  obtain ⟨hdescribes, -⟩ := create_describes hM
  obtain ⟨hjoins, hchecked⟩ :=
    joins_of_run (.refl _ : Run (World.step cfg) (fun _ x => Receives session M x.2) _
      (World.new storage transport))
  obtain ⟨hfits', hvouched⟩ := vouched_of_run h hjoins hchecked hfits hstart
  refine ⟨fun parts hparts => ?_, fun pulls chunks hchunks => ?_⟩
  · have hheld := shelf.held_assembleParts hfits' hparts
    exact hdescribes.of_parts hhash (hheld.imp fun p d hd => hvouched p.index d hd)
  · have hheld := shelf.held_readAll rfl hfits' hchunks
    exact hdescribes.of_parts hhash (hheld.imp fun p d hd => hvouched p.index d hd)

theorem receiver_gets_the_shared_file_sample :
    assembleParts "f" Sample.manifest.pieces
      (steps (World.step Sample.config) Sample.start Sample.onePiece).engine.storage = .ok [[1]] ∧
    (([[1]] : List ArrayBuffer).flatten = [1] ∨ ∃ i d, i < Sample.manifest.pieceCount ∧
      Collides Sample.config.hash d (content [1] Sample.manifest.pieceSize i)) := by
  have hhash : ∀ d, Sample.config.hash d ≠ "" := by
    intro d
    simp only [Sample.config]
    split <;> decide
  have hassembled : assembleParts "f" Sample.manifest.pieces
      (steps (World.step Sample.config) Sample.start Sample.onePiece).engine.storage =
        .ok [[1]] := by decide +kernel
  exact ⟨hassembled, (receiver_gets_the_shared_file Sample.config hhash "" ⟨"f", "", [1]⟩
    ⟨1, false, none, some "f", none⟩ Sample.manifest (by decide +kernel)
    (MemoryStorageAdapter.shelf "s" "f") .empty (.inl rfl) (fun i d hd => by cases hd) true _
    (run_of_allowed (by decide +kernel))).1 _ hassembled⟩

end PonsWarp.Core
