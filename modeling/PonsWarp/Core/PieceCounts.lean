import PonsWarp.Core.Stock

set_option autoImplicit false

/-!
The piece counts of the availability table. The first valid piece map of a file
fixes its count for good, so the table agrees with the manifests exactly as long
as the first map does.
-/

namespace PonsWarp.Core

open PonsWarp.Data

/-- The map of a provider that has every piece, as `requestNextGridPiece` makes it up. -/
def FileManifest.ownMap (m : FileManifest) (now : Number) : PieceMapBroadcast :=
  ⟨m.fileId, m.pieces.map fun p => (p.index : Number), m.pieceCount, 1, now⟩

/-- The table would take a map of all the pieces of the manifest. -/
def FileManifest.Sound (m : FileManifest) : Prop := validateBroadcast (m.ownMap 0) = .ok ()

/-- The piece map an action brings. -/
def Action.pieceMap? : Action → Option PieceMapBroadcast
  | .message _ (some m) => if m.type = "PIECE_MAP" then m.parsePieceMapBroadcast.toOption else none
  | .call (.updatePeerPieceMap _ map _) => some map
  | _ => none

/-- The manifests of every file have the same sound number of pieces, and so has the
map that makes the table's entry of the file. -/
def Fits {σ : Type} (N : FileId → Nat) (w : World σ) (x : Turn × Action) : Prop :=
  (∀ m ∈ w.registered x.2, m.Sound ∧ m.pieceCount = N m.fileId) ∧
  ∀ map ∈ x.2.pieceMap?, validateBroadcast map = .ok () →
    w.engine.availability.count map.fileId = none → map.totalPieces = (N map.fileId : Number)

instance (m : FileManifest) : Decidable m.Sound :=
  inferInstanceAs (Decidable (validateBroadcast (m.ownMap 0) = .ok ()))

instance {σ : Type} (N : FileId → Nat) (w : World σ) (x : Turn × Action) :
    Decidable (Fits N w x) :=
  inferInstanceAs (Decidable (_ ∧ _))

namespace Engine

variable {σ : Type}

/-- Manifests, table and managers agree on the number of pieces of every file. -/
structure SizedBy (N : FileId → Nat) (e : Engine σ) : Prop where
  manifests : ∀ f m, e.manifests.get? f = some m → m.Sound ∧ m.fileId = f ∧ m.pieceCount = N f
  table : ∀ f n, e.availability.count f = some n → n = N f
  managers : ∀ f ref, e.managers.get? f = some ref → (e.manifests.get? f).isSome ∧
    ref < e.heap.length ∧ ∀ i ∈ (e.managerAt ref).indices, i < N f

end Engine

theorem validateBroadcast_eq_ok {map : PieceMapBroadcast} :
    validateBroadcast map = .ok () ↔ map.totalPieces.isSafeInteger = true ∧ 0 ≤ map.totalPieces ∧
      sortedInRange map.totalPieces (-1) map.verifiedPieces = true := by
  unfold validateBroadcast
  by_cases h : ¬ map.totalPieces.isSafeInteger ∨ map.totalPieces < 0
  · rw [if_pos h]
    simp only [reduceCtorEq, false_iff, not_and]
    intro hs h0
    exact absurd h (not_or.2 ⟨not_not.2 hs, not_lt.2 h0⟩)
  · rw [if_neg h]
    obtain ⟨hs, h0⟩ := not_or.1 h
    split
    · rename_i hsorted
      simp [not_not.1 hs, not_lt.1 h0, hsorted]
    · rename_i hsorted
      simp [hsorted]

theorem sortedInRange_lt {total previous : Number} {l : List Number}
    (h : sortedInRange total previous l = true) {x : Number} (hx : x ∈ l) : x < total := by
  induction l generalizing previous with
  | nil => cases hx
  | cons y rest ih =>
    simp only [sortedInRange, Bool.and_eq_true, decide_eq_true_eq] at h
    obtain ⟨⟨⟨⟨-, -⟩, hlt⟩, -⟩, hrest⟩ := h
    obtain rfl | hmem := List.mem_cons.1 hx
    · exact hlt
    · exact ih hrest hmem

/-- The pieces of a sound manifest are numbered below its piece count. -/
theorem FileManifest.Sound.index_lt {m : FileManifest} (h : m.Sound) {p : PieceDescriptor}
    (hp : p ∈ m.pieces) : p.index < m.pieceCount := by
  obtain ⟨-, -, hsorted⟩ := validateBroadcast_eq_ok.1 h
  have hlt : (p.index : Number) < (m.pieceCount : Number) :=
    sortedInRange_lt hsorted (List.mem_map.2 ⟨p, hp, rfl⟩)
  exact_mod_cast hlt

/-- The number of pieces a valid map counts. -/
theorem totalPieces_of_valid {map : PieceMapBroadcast} (h : validateBroadcast map = .ok ()) :
    map.totalPieces = ((map.totalPieces.index?.getD 0 : Nat) : Number) := by
  obtain ⟨hs, h0, -⟩ := validateBroadcast_eq_ok.1 h
  have hint : map.totalPieces.isInt = true := by
    simp only [Number.isSafeInteger, Bool.and_eq_true] at hs
    exact hs.1.1
  have hindex : map.totalPieces.index? = some map.totalPieces.num.toNat := by
    unfold Number.index?
    rw [if_pos ⟨hint, h0⟩]
  rw [hindex]
  exact Number.index?_eq_some.1 hindex

section

variable {σ : Type} {e e' : Engine σ} {t : Turn} {G : Grant} {N : FileId → Nat}

/-- What the piece counts depend on. -/
theorem Engine.SizedBy.congr (h : e.SizedBy N) (hm : e'.manifests = e.manifests)
    (ht : ∀ f n, e'.availability.count f = some n → n = N f) (hr : e'.managers = e.managers)
    (hh : e'.heap.length = e.heap.length)
    (hi : ∀ ref, (e'.managerAt ref).indices = (e.managerAt ref).indices) : e'.SizedBy N := by
  refine ⟨fun f m hf => h.manifests f m (hm ▸ hf), ht, fun f ref hf => ?_⟩
  obtain ⟨hsome, hlt, hind⟩ := h.managers f ref (hr ▸ hf)
  exact ⟨hm ▸ hsome, hh ▸ hlt, fun i hi' => hind i (hi ref ▸ hi')⟩

theorem Engine.SizedBy.putManager (h : e.SizedBy N) {ref : Nat} {m : PieceManager}
    (hm : m.indices = (e.managerAt ref).indices) : (e.putManager ref m).SizedBy N := by
  refine h.congr rfl h.table rfl (by simp [Engine.putManager]) fun ref' => ?_
  rw [Engine.managerAt_putManager]
  split
  · rename_i heq
    rw [heq.1, hm]
  · rfl

theorem Engine.SizedBy.install (h : e.SizedBy N) {f : FileId} {m : PieceManager}
    (hf : (e.manifests.get? f).isSome) (hm : ∀ i ∈ m.indices, i < N f) :
    (e.installManager f m).SizedBy N := by
  refine ⟨h.manifests, h.table, fun g ref hg => ?_⟩
  simp only [Engine.installManager, OrderedMap.get?_set] at hg
  by_cases hgf : g = f
  · subst hgf
    simp only [if_true, Option.some.injEq] at hg
    subst hg
    refine ⟨hf, by simp [Engine.installManager], ?_⟩
    simpa [Engine.managerAt, Engine.installManager] using hm
  · simp only [hgf, if_false] at hg
    obtain ⟨hsome, hlt, hind⟩ := h.managers g ref hg
    refine ⟨hsome, by simp only [Engine.installManager, List.length_append]; omega, ?_⟩
    simpa [Engine.managerAt, Engine.installManager, List.getElem?_append_left hlt] using hind

theorem Engine.SizedBy.register (h : e.SizedBy N) {m : FileManifest} (hm : m.Sound)
    (hN : m.pieceCount = N m.fileId) : (e.registerManifest m).SizedBy N := by
  have hset : ∀ f m', (e.manifests.set m.fileId m).get? f = some m' →
      m'.Sound ∧ m'.fileId = f ∧ m'.pieceCount = N f := by
    intro f m' hf
    rw [OrderedMap.get?_set] at hf
    by_cases hfm : f = m.fileId
    · simp only [hfm, if_true, Option.some.injEq] at hf
      subst hf
      exact ⟨hm, hfm.symm, hfm ▸ hN⟩
    · simp only [hfm, if_false] at hf
      exact h.manifests f m' hf
  have hsome : ∀ f, (e.manifests.get? f).isSome → ((e.manifests.set m.fileId m).get? f).isSome := by
    intro f hf
    rw [OrderedMap.get?_set]
    split
    · rfl
    · exact hf
  have hbase : Engine.SizedBy N { e with manifests := e.manifests.set m.fileId m } :=
    ⟨hset, h.table, fun f ref hf => (h.managers f ref hf).imp_left (hsome f)⟩
  unfold Engine.registerManifest
  simp only
  split
  · exact hbase
  · refine hbase.install (by simp) ?_
    intro i hi
    rw [PieceManager.indices_new] at hi
    obtain ⟨p, hp, rfl⟩ := List.mem_map.1 hi
    exact hN ▸ hm.index_lt hp

end

section

variable {σ : Type} [StorageAdapter σ] {e e' : Engine σ} {t : Turn} {G : Grant} {N : FileId → Nat}

theorem Change.sizedBy (hc : Change t G e e') (h : e.SizedBy N)
    (hsize : ∀ f n, G (.size f n) → e.availability.count f = none → n = N f)
    (hregister : ∀ m, G (.register m) → m.Sound ∧ m.pieceCount = N m.fileId)
    (hinstall : ∀ f m, G (.install f m) → (e.manifests.get? f).isSome ∧ ∀ i ∈ m.indices, i < N f) :
    e'.SizedBy N := by
  cases hc with
  | fail ref i reason m hm => exact h.putManager (PieceManager.indices_markFailed hm)
  | reset ref i m hm => exact h.putManager (PieceManager.indices_resetFailedToMissing hm)
  | verify ref i m hm => exact h.putManager (PieceManager.indices_markVerified hm)
  | ask ref m p requestId r hm =>
    have hput := h.putManager (PieceManager.indices_markRequested hm)
    exact hput.congr rfl hput.table rfl rfl fun _ => rfl
  | table table hcount hlease =>
    refine h.congr rfl (fun f n hn => ?_) rfl rfl fun _ => rfl
    obtain hold | ⟨hnone, hg⟩ := hcount f n hn
    · exact h.table f n hold
    · exact hsize f n hg hnone
  | register m hg => exact h.register (hregister m hg).1 (hregister m hg).2
  | install f m hg => exact h.install (hinstall f m hg).1 (hinstall f m hg).2
  | _ => exact h.congr rfl h.table rfl rfl fun _ => rfl

end

/-- The count of a file comes from its manifest or from the map an action brings. -/
def Sizes {σ : Type} (e : Engine σ) (map? : Option PieceMapBroadcast) (f : FileId) (n : Nat) :
    Prop :=
  (∃ manifest, e.manifests.get? f = some manifest ∧ n = manifest.pieceCount) ∨
  ∃ map, map? = some map ∧ Grant.map e.availability map (.size f n)

section

variable {σ : Type} {e : Engine σ} {t : Turn} {f : FileId} {n : Nat}
variable {map? : Option PieceMapBroadcast}

theorem Sizes.scheduled {g : FileId}
    (h : f = g ∧ ∃ manifest, e.manifests.get? g = some manifest ∧ n = manifest.pieceCount) :
    Sizes e map? f n := by
  obtain ⟨rfl, hm⟩ := h
  exact .inl hm

theorem Grant.again_size {p : PeerId} {g : FileId} {options : Option GridScheduleOptions}
    (h : Grant.again e t p g options (.size f n)) : Sizes e map? f n := by
  cases options with
  | none => exact h.elim
  | some options => exact Sizes.scheduled h

theorem Frame.grant_size {frame : Frame} {outcome : Except Failure Value}
    (h : frame.grant e t outcome (.size f n)) : Sizes e map? f n := by
  unfold Frame.grant at h
  split at h
  all_goals first
    | exact (show False from h).elim
    | exact Sizes.scheduled h
    | (simp [Grant.only, Grant.filling, Grant.request, Grant.retire, Grant.lose, Grant.announce,
        Grant.joined, Grant.joining, Grant.creating] at h; done)
    | skip
  · obtain ⟨options, -, h⟩ := h
    exact Sizes.scheduled h
  · obtain h | h := h
    · exact Grant.again_size h
    · cases h

theorem Call.grant_size {c : Call} (h : c.grant e t (.size f n)) :
    Sizes e (Action.call c).pieceMap? f n := by
  cases c with
  | requestNextGridPiece => exact Sizes.scheduled h
  | requestGridPieceWindow => exact Sizes.scheduled h
  | updatePeerPieceMap p map role => exact .inr ⟨map, rfl, h⟩
  | _ =>
    simp [Call.grant, Grant.only, Grant.request, Grant.receive, Grant.restoring, Grant.cancel,
      Grant.compete, Grant.expiring, Grant.retire, Grant.leases, Grant.announce] at h

theorem Grant.message_size {p : PeerId} {m : WireMessage}
    (h : Grant.message e t p m (.size f n)) :
    Sizes e (Action.message p (some m)).pieceMap? f n := by
  obtain ⟨-, h⟩ | ⟨hty, map, hmap, h⟩ | ⟨-, header, -, -, -, h⟩ | ⟨-, requestId, g, i, -, -, -, h⟩ |
    ⟨-, requestId, -, h⟩ | ⟨-, requestId, -, q, -, -, h⟩ := h
  · cases h
  · refine .inr ⟨map, ?_, h⟩
    simp [Action.pieceMap?, hty, hmap, Except.toOption]
  · obtain ⟨-, h⟩ | ⟨previous, -, -, h⟩ := h
    · cases h
    · exact h.elim
  · exact h.elim
  · cases h
  · obtain h | h := h
    · exact h.elim
    · exact Grant.again_size h

end

namespace World

variable {σ : Type} {w : World σ} {t : Turn} {a : Action} {f : FileId} {n : Nat}

theorem grant_size (h : w.grant (t, a) (.size f n)) : Sizes w.engine a.pieceMap? f n := by
  cases a with
  | call c => exact Call.grant_size h
  | message p message =>
    obtain h | ⟨m, rfl, h⟩ := h
    · cases h
    · exact Grant.message_size h
  | binary p data =>
    obtain h | ⟨header, -, -, h⟩ := h
    · cases h
    · exact h.elim
  | resume i =>
    obtain ⟨pending, frame, below, outcome, -, -, h⟩ := h
    exact Frame.grant_size h
  | window ref =>
    obtain ⟨track, h⟩ | ⟨window, job, rest, -, -, -, h⟩ := h
    · cases h
    · cases job with
      | fill => simp [Grant.windowJob, Grant.request] at h
      | retry => exact h.elim
      | expire => exact h.elim
  | upload p => exact h.elim
  | timer k =>
    obtain ⟨requestId, windowKey, -, h⟩ := h
    exact h.elim

end World

/-- Every manager of the file, restored ones too, numbers its pieces below the count. -/
def World.SizedBy {σ : Type} (N : FileId → Nat) (w : World σ) : Prop :=
  w.engine.SizedBy N ∧ ∀ task ∈ w.tasks, task.Restores fun f m =>
    (w.engine.manifests.get? f).isSome ∧ ∀ i ∈ m.indices, i < N f

section

variable {σ : Type} [StorageAdapter σ] {cfg : Config} {N : FileId → Nat}

omit [StorageAdapter σ] in
theorem sizedBy_new (storage : σ) (transport : Bool) :
    (World.new storage transport).SizedBy N := by
  refine ⟨⟨?_, ?_, ?_⟩, by simp [World.new]⟩
  · rintro f m ⟨⟩
  · rintro f n ⟨⟩
  · rintro f ref ⟨⟩

theorem World.SizedBy.step {w : World σ} {x : Turn × Action} (h : w.SizedBy N)
    (hfit : Fits N w x) : (w.step cfg x).SizedBy N := by
  obtain ⟨t, a⟩ := x
  obtain ⟨hengine, htasks⟩ := h
  have hsize : ∀ f n, w.grant (t, a) (.size f n) → n = N f := by
    intro f n hg
    obtain ⟨manifest, hm, rfl⟩ | ⟨map, hmap, hnone, hvalid, rfl, rfl⟩ := World.grant_size hg
    · exact (hengine.manifests f manifest hm).2.2
    · have htotal := hfit.2 map hmap hvalid hnone
      rw [totalPieces_of_valid hvalid] at htotal
      exact_mod_cast htotal
  have hkeeps : ∀ e e' : Engine σ, Change t (w.grant (t, a)) e e' →
      e.SizedBy N ∧ (∀ f, (w.engine.manifests.get? f).isSome → (e.manifests.get? f).isSome) →
      e'.SizedBy N ∧ ∀ f, (w.engine.manifests.get? f).isSome → (e'.manifests.get? f).isSome := by
    rintro e e' hc ⟨he, hknown⟩
    refine ⟨hc.sizedBy he (fun f n hg _ => hsize f n hg)
      (fun m hg => hfit.1 m (World.grant_register hg)) fun f m hg => ?_,
      fun f hf => hc.known (hknown f hf)⟩
    obtain ⟨hsome, hind⟩ := World.grant_install htasks hg
    exact ⟨hknown f hsome, hind⟩
  obtain ⟨hengine', hknown⟩ :=
    Changes.keeps hkeeps (World.step_spec cfg w t a).changes ⟨hengine, fun f hf => hf⟩
  refine ⟨hengine', ?_⟩
  apply World.step_restores
  · exact fun task htask => (htasks task htask).mono fun f m hm => ⟨hknown f hm.1, hm.2⟩
  · intro f manifest pieceMap m _ hm himport
    obtain ⟨hsound, -, hN⟩ := hengine'.manifests f manifest hm
    refine ⟨by rw [hm]; rfl, fun i hi => ?_⟩
    rw [PieceManager.indices_importPieceMap himport, PieceManager.indices_new] at hi
    obtain ⟨p, hp, rfl⟩ := List.mem_map.1 hi
    exact hN ▸ hsound.index_lt hp
  · intro f index reason m m' m'' hm hfail hreset
    rw [PieceManager.indices_resetFailedToMissing hreset, PieceManager.indices_markFailed hfail]
    exact hm

theorem sizedBy_of_run {storage : σ} {transport : Bool} {w : World σ}
    (h : Run (World.step cfg) (Fits N) (World.new storage transport) w) : w.SizedBy N :=
  h.invariant (fun _ _ hw hfit => hw.step hfit) (sizedBy_new storage transport)

end

/-- The codes of the errors of the availability table. -/
def availabilityCodes : List String :=
  ["availability:invalid_message", "availability:invalid_total", "availability:invalid_piece_index",
   "availability:piece_count_mismatch", "availability:piece_not_found"]

def Failure.Availability (err : Failure) : Prop := ∃ code ∈ availabilityCodes, err.code = some code

/-- Whatever fails, it is not the availability table. -/
def Spares {α : Type} (result : Except Failure α) : Prop :=
  ∀ err, result = .error err → ¬ err.Availability

theorem spares_ok {α : Type} (a : α) : Spares (.ok a : Except Failure α) := nofun

theorem Failure.not_availability {code message : String} (h : code ∉ availabilityCodes) :
    ¬ (PonsWarpError code message).Availability := by
  rintro ⟨c, hc, he⟩
  cases he
  exact h hc

namespace PieceManager

theorem spares_requirePiece (m : PieceManager) (i : Nat) : Spares (m.requirePiece i) := by
  unfold requirePiece
  split
  · split
    · exact spares_ok _
    · rintro err ⟨⟩
      exact Failure.not_availability (by decide)
  · rintro err ⟨⟩
    exact Failure.not_availability (by decide)

theorem spares_update (m : PieceManager) (i : Nat) (patch : PieceState → PieceState) :
    Spares (m.update i patch) := by
  unfold update
  split
  · rename_i err herr
    rintro _ ⟨⟩
    exact spares_requirePiece m i err herr
  · exact spares_ok _

end PieceManager

namespace Engine

variable {σ : Type} {e : Engine σ} {cfg : Config} {t : Turn} {N : FileId → Nat}

theorem spares_onManager (ref : Nat) {method : PieceManager → Except Failure PieceManager}
    (h : Spares (method (e.managerAt ref))) : Spares (e.onManager ref method) := by
  unfold onManager
  split
  · exact spares_ok _
  · rename_i err herr
    rintro _ ⟨⟩
    exact h err herr

theorem spares_requireManager (f : FileId) : Spares (e.requireManager f) := by
  unfold requireManager
  split
  · exact spares_ok _
  · rintro err ⟨⟩
    exact Failure.not_availability (by decide)

theorem spares_expireLeased (leases : List RequestLease) : Spares (expireLeased cfg leases e).2 := by
  induction leases generalizing e with
  | nil => exact spares_ok _
  | cons lease rest ih =>
    unfold expireLeased
    split
    · exact ih
    · simp only
      split
      · rename_i err herr
        rintro _ ⟨⟩
        exact spares_requireManager _ err herr
      · split
        · rename_i err herr
          rintro _ ⟨⟩
          exact spares_onManager _ (PieceManager.spares_update _ _ _) err herr
        · split
          · rename_i err herr
            rintro _ ⟨⟩
            exact spares_onManager _ (PieceManager.spares_update _ _ _) err herr
          · exact ih

theorem spares_rankPieces (f : FileId) (m : PieceManager) (candidates : List PeerId)
    (owner : PeerId) (cap : Number) (active : PeerId → Nat) (now : Number) (missing : List Nat) :
    Spares (rankPieces f m candidates owner cap active now missing e).2 := by
  induction missing generalizing e with
  | nil => exact spares_ok _
  | cons i rest ih =>
    unfold rankPieces
    split
    · rename_i err herr
      rintro _ ⟨⟩
      exact PieceManager.spares_requirePiece m i err herr
    · simp only
      split
      · rename_i e1 err herr
        rintro _ ⟨⟩
        exact ih err (by rw [herr])
      · exact spares_ok _

theorem availability_rankPieces (f : FileId) (m : PieceManager) (candidates : List PeerId)
    (owner : PeerId) (cap : Number) (active : PeerId → Nat) (now : Number) (missing : List Nat) :
    (rankPieces f m candidates owner cap active now missing e).1.availability = e.availability := by
  induction missing generalizing e with
  | nil => rfl
  | cons i rest ih =>
    unfold rankPieces
    split
    · rfl
    · simp only
      have hrest := ih (e := (e.rankProviders f i candidates owner cap active now).2)
      split
      · rename_i e1 err he
        rw [he] at hrest
        exact hrest
      · rename_i e1 more he
        rw [he] at hrest
        exact hrest

/-- A valid map of a file the table does not know is taken, and fixes its count. -/
theorem updatePeerPieceMap_of_new {table : PieceAvailabilityTable} (p : PeerId) (role : PeerRole)
    {map : PieceMapBroadcast} (score : Number) (hvalid : validateBroadcast map = .ok ())
    (hnone : table.files.get? map.fileId = none) :
    ∃ table', table.updatePeerPieceMap p role map score = .ok (true, table') ∧
      table'.count map.fileId = some (map.totalPieces.index?.getD 0) := by
  have hensure : table.ensureFile map.fileId (map.totalPieces.index?.getD 0) =
      .ok (.new (map.totalPieces.index?.getD 0),
        ⟨table.files.set map.fileId (.new (map.totalPieces.index?.getD 0))⟩) := by
    simp only [PieceAvailabilityTable.ensureFile, hnone]
  unfold PieceAvailabilityTable.updatePeerPieceMap
  simp only [hvalid, hensure]
  refine ⟨_, rfl, ?_⟩
  simp only [PieceAvailabilityTable.count, OrderedMap.get?_set_self, Option.map_some,
    PieceAvailabilityTable.pieceCount_advertise]
  rfl

/-- The table takes the map that stands in for the owner's. -/
theorem ensureAvailability_of_sizedBy (h : e.SizedBy N) {f : FileId}
    (hf : (e.manifests.get? f).isSome) (options : GridScheduleOptions) (now : Number) :
    ∃ e', e.ensureAvailability f options now = .ok e' ∧ e'.availability.count f = some (N f) := by
  unfold ensureAvailability
  cases hfile : e.availability.files.get? f with
  | some file =>
    have hcount : e.availability.count f = some file.pieceCount := by
      simp [PieceAvailabilityTable.count, hfile]
    exact ⟨e, rfl, by rw [hcount, h.table f _ hcount]⟩
  | none =>
    obtain ⟨manifest, hm⟩ := Option.isSome_iff_exists.1 hf
    obtain ⟨hsound, rfl, hN⟩ := h.manifests f manifest hm
    have hvalid : validateBroadcast (manifest.ownMap now) = .ok () := hsound
    obtain ⟨table, htable, hcount⟩ := updatePeerPieceMap_of_new options.ownerPeerId .owner
      (e.peerHealth.get options.ownerPeerId).score hvalid hfile
    simp only [FileManifest.ownMap] at htable
    simp only [requireManifest, hm, htable]
    refine ⟨_, rfl, ?_⟩
    rw [← hN]
    simpa [FileManifest.ownMap] using hcount

/-- A piece below the count can be leased. -/
theorem lease_of_count {table : PieceAvailabilityTable} {f : FileId} {n i : Nat}
    (h : table.count f = some n) (hi : i < n) (lease : RequestLease) :
    ∃ table', table.lease f i lease = .ok table' := by
  obtain ⟨file, hfile, rfl⟩ := Option.map_eq_some_iff.1 h
  have hlt : i < file.pieces.length := file.sized ▸ hi
  unfold PieceAvailabilityTable.lease
  simp only [PieceAvailabilityTable.piece?, hfile, List.getElem?_eq_getElem hlt]
  exact ⟨_, rfl⟩

theorem andThen_ne_done (next : Next) (frame : Frame) (outcome : Except Failure Value) :
    next.andThen frame ≠ .done outcome := by
  cases next <;> simp [Next.andThen]

theorem scheduleRanked_spares {f : FileId} {n : Nat} (ref : Nat) (options : GridScheduleOptions)
    (now : Number) (items : List RankedPiece) (hcount : e.availability.count f = some n)
    (hitems : ∀ item ∈ items, item.index < n) {err : Failure}
    (h : (e.scheduleRanked cfg t f ref options now items).2 = .throw err) : ¬ err.Availability := by
  induction items with
  | nil => simp [scheduleRanked, Next.ok, Next.throw] at h
  | cons item rest ih =>
    unfold scheduleRanked at h
    split at h
    · simp [Next.ok, Next.throw] at h
    · split at h
      · exact ih (fun item hitem => hitems item (List.mem_cons_of_mem _ hitem)) h
      · rename_i provider others hproviders
        obtain ⟨table, hlease⟩ := lease_of_count hcount (hitems item List.mem_cons_self)
          ⟨provider.peerId, t.createRequestId f item.index, now,
            now + options.requestLeaseMs.getD 15000⟩
        simp only [hlease] at h
        split at h
        · rename_i err' herr
          simp only [Next.throw, Next.done.injEq, Except.error.injEq] at h
          subst h
          exact spares_onManager ref (PieceManager.spares_update _ _ _) err' herr
        · exact absurd h (andThen_ne_done _ _ _)

variable [StorageAdapter σ]

theorem sizedBy_expireRequestLeases (cfg : Config) (t : Turn) (h : e.SizedBy N) (now : Number) :
    (e.expireRequestLeases cfg now).1.SizedBy N ∧
      (e.expireRequestLeases cfg now).1.manifests = e.manifests := by
  have hchanges : Changes t (Grant.leases (e.availability.expireLeases now).1) e
      (e.expireRequestLeases cfg now).1 := changes_expireRequestLeases _ le_rfl
  refine ⟨hchanges.keeps (fun e1 e2 hc h1 => hc.sizedBy h1 ?_ ?_ ?_) h, hchanges.manifests ?_⟩
  · exact fun _ _ hg => hg.elim
  · exact fun _ hg => hg.elim
  · exact fun _ _ hg => hg.elim
  · exact fun _ hg => hg

/-- Scheduling a piece never runs into an error of the availability table. -/
theorem requestNextGridPiece_spares (h : e.SizedBy N) (f : FileId) (options : GridScheduleOptions)
    {err : Failure} (herr : (e.requestNextGridPiece cfg t f options).2 = .throw err) :
    ¬ err.Availability := by
  unfold requestNextGridPiece at herr
  split at herr
  · rename_i err' he
    simp only [Next.throw, Next.done.injEq, Except.error.injEq] at herr
    subst herr
    exact spares_requireManager f err' he
  · rename_i ref href
    obtain ⟨hsome, -, hind⟩ := h.managers f ref (requireManager_eq_ok.1 href)
    simp only at herr
    split at herr
    · simp [Next.ok, Next.throw] at herr
    · obtain ⟨h1, hmanifests⟩ :=
        sizedBy_expireRequestLeases cfg t h (options.now.getD (t.now : Number))
      split at herr
      · rename_i e1 err' he1
        simp only [Next.throw, Next.done.injEq, Except.error.injEq] at herr
        subst herr
        unfold expireRequestLeases at he1
        exact spares_expireLeased _ err' (congrArg Prod.snd he1)
      · rename_i e1 he1
        rw [he1] at h1 hmanifests
        obtain ⟨e2, he2, hcount⟩ :=
          ensureAvailability_of_sizedBy h1 (hmanifests ▸ hsome) options (options.now.getD t.now)
        simp only [he2] at herr
        have htable := availability_rankPieces (e := e2) f (e2.managerAt ref) (candidateSet options)
          options.ownerPeerId (options.maxRequestsPerPeer.getD 1)
          (activePerPeer e2.outstandingRequests.values) (options.now.getD t.now)
          (e.managerAt ref).getMissingPieces
        split at herr
        · rename_i e3 err' he3
          simp only [Next.throw, Next.done.injEq, Except.error.injEq] at herr
          subst herr
          exact spares_rankPieces _ _ _ _ _ _ _ _ err' (congrArg Prod.snd he3)
        · rename_i e3 ranked he3
          rw [he3] at htable
          refine scheduleRanked_spares ref options _ _ (htable ▸ hcount) (fun item hitem => ?_) herr
          have hin := mem_rankPieces he3 (List.mem_of_mem_filter (mem_insertionSort_before hitem))
          exact hind item.index (PieceManager.mem_indices_of_missing hin)

omit [StorageAdapter σ] in
/-- A map with the right number of pieces is not refused for it. -/
theorem updatePeerPieceMap_ne_mismatch (h : e.SizedBy N) {map : PieceMapBroadcast}
    (hmap : map.totalPieces = (N map.fileId : Number)) (p : PeerId) (role : PeerRole) :
    e.updatePeerPieceMap p map role ≠ .error PieceAvailabilityTable.pieceCountMismatch := by
  have htable : ∀ score, e.availability.updatePeerPieceMap p role map score ≠
      .error PieceAvailabilityTable.pieceCountMismatch := by
    intro score hmismatch
    unfold PieceAvailabilityTable.updatePeerPieceMap at hmismatch
    cases hvalid : validateBroadcast map with
    | error err =>
      simp only [hvalid, Except.error.injEq] at hmismatch
      subst hmismatch
      unfold validateBroadcast at hvalid
      split at hvalid
      · simp [PonsWarpError, PieceAvailabilityTable.pieceCountMismatch] at hvalid
      · split at hvalid
        · cases hvalid
        · simp [invalidPieceIndex, PonsWarpError, PieceAvailabilityTable.pieceCountMismatch] at hvalid
    | ok u =>
      have hN : map.totalPieces.index?.getD 0 = N map.fileId := by
        rw [hmap]
        simp
      obtain ⟨file, table, hensure⟩ : ∃ file table, e.availability.ensureFile map.fileId
          (map.totalPieces.index?.getD 0) = .ok (file, table) := by
        unfold PieceAvailabilityTable.ensureFile
        cases hfile : e.availability.files.get? map.fileId with
        | none => exact ⟨_, _, rfl⟩
        | some file =>
          have hcount : file.pieceCount = N map.fileId :=
            h.table _ _ (by simp [PieceAvailabilityTable.count, hfile])
          simp only [hcount, hN, ne_eq, not_true_eq_false, if_false]
          exact ⟨_, _, rfl⟩
      simp only [hvalid, hensure] at hmismatch
      split at hmismatch
      · split at hmismatch <;> cases hmismatch
      · cases hmismatch
  unfold updatePeerPieceMap
  split
  · rename_i err herr
    rintro ⟨⟩
    exact htable _ herr
  · simp only
    split <;> simp

end Engine

section

variable {σ : Type} [StorageAdapter σ]

/-- As long as manifests and first maps agree, no peer can upset the scheduling of a file. -/
theorem piece_counts_agree (cfg : Config) (N : FileId → Nat) (storage : σ) (transport : Bool)
    (w : World σ) (h : Run (World.step cfg) (Fits N) (World.new storage transport) w) :
    (∀ f m n, w.engine.manifests.get? f = some m → w.engine.availability.count f = some n →
      n = m.pieceCount) ∧
    (∀ m map p role, w.engine.manifests.get? map.fileId = some m →
      map.totalPieces = (m.pieceCount : Number) →
      w.engine.updatePeerPieceMap p map role ≠ .error PieceAvailabilityTable.pieceCountMismatch) ∧
    ∀ t f options err, (w.engine.requestNextGridPiece cfg t f options).2 = .throw err →
      ¬ err.Availability := by
  obtain ⟨hengine, -⟩ := sizedBy_of_run h
  refine ⟨?_, ?_, ?_⟩
  · intro f m n hm hn
    rw [(hengine.manifests f m hm).2.2]
    exact hengine.table f n hn
  · intro m map p role hm htotal
    refine Engine.updatePeerPieceMap_ne_mismatch hengine ?_ p role
    rw [htotal, (hengine.manifests _ m hm).2.2]
  · intro t f options err herr
    exact Engine.requestNextGridPiece_spares hengine f options herr

end

def Sample.pieceMap (totalPieces : Number) : Turn × Action :=
  (turn, .message "p" (some { WireMessage.blank "PIECE_MAP" with
    fileId := some "f", totalPieces := some totalPieces, generation := some 1,
    updatedAt := some 0 }))

theorem piece_counts_agree_sample :
    (steps (World.step Sample.config) Sample.start
      (Sample.joined ++ [Sample.pieceMap 1])).engine.availability.count "f" = some 1 ∧
    ∀ n, (steps (World.step Sample.config) Sample.start
      (Sample.joined ++ [Sample.pieceMap 1])).engine.availability.count "f" = some n →
      n = Sample.manifest.pieceCount := by
  refine ⟨by decide +kernel, fun n hn => ?_⟩
  exact (piece_counts_agree Sample.config (fun _ => 1) MemoryStorageAdapter.empty true _
    (run_of_allowed (by decide +kernel))).1 "f" Sample.manifest n (by decide +kernel) hn

/-- One map with the wrong number of pieces, from any peer, and the piece map of the
owner is refused and no piece of the file can be scheduled any more. -/
theorem remote_map_breaks_scheduling :
    ∃ w, Run (World.step Sample.config) (fun _ _ => True) Sample.start w ∧
      w.engine.manifests.get? "f" = some Sample.manifest ∧
      w.engine.availability.count "f" = some 0 ∧
      w.engine.updatePeerPieceMap "o" (Sample.manifest.ownMap 0) .owner =
        .error PieceAvailabilityTable.pieceCountMismatch ∧
      ∃ err, (w.engine.requestNextGridPiece Sample.config Sample.turn "f"
        ⟨"o", ["o"], none, none, none, none, none, none⟩).2 = .throw err ∧ err.Availability := by
  refine ⟨_, run_steps Sample.start (Sample.joined ++ [Sample.pieceMap 0]), by decide +kernel,
    by decide +kernel, rfl, _, rfl, "availability:piece_not_found", by decide, rfl⟩

end PonsWarp.Core
