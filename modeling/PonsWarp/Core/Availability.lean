import Mathlib.Data.List.Sort
import PonsWarp.Core.Manifest

set_option autoImplicit false

/-!
Who holds which piece (`PieceAvailabilityTable`), the lease of a piece by a
grid request, and how well each peer has behaved (`PeerHealthTable`).
-/

namespace PonsWarp.Core

open PonsWarp.Data

structure PieceMapBroadcast where
  fileId : FileId
  verifiedPieces : List Number
  totalPieces : Number
  generation : Number
  updatedAt : Number
  deriving DecidableEq, Repr

structure ProviderState where
  peerId : PeerId
  role : PeerRole
  advertisedAt : Number
  expiresAt : Number
  healthScore : Number
  deriving DecidableEq, Repr

structure RequestLease where
  peerId : PeerId
  requestId : RequestId
  leasedAt : Number
  expiresAt : Number
  deriving DecidableEq, Repr

structure AvailabilityPiece where
  providers : OrderedMap PeerId ProviderState
  requestedBy : Option RequestLease

/-- The table of one file holds one entry for each index below `pieceCount`. -/
structure AvailabilityFile where
  pieceCount : Nat
  generations : OrderedMap PeerId Number
  pieces : List AvailabilityPiece
  sized : pieces.length = pieceCount

structure PieceAvailabilityTable where
  files : OrderedMap FileId AvailabilityFile

def invalidPieceIndex : Failure :=
  PonsWarpError "availability:invalid_piece_index" "PIECE_MAP verifiedPieces must be sorted and in range"

/-- The loop of `validateBroadcast`; `previous` starts at -1. -/
def sortedInRange (total : Number) : Number → List Number → Bool
  | _, [] => true
  | previous, index :: rest =>
    index.isSafeInteger && decide (0 ≤ index) && decide (index < total) &&
      decide (previous < index) && sortedInRange total index rest

def validateBroadcast (map : PieceMapBroadcast) : Except Failure Unit :=
  if ¬ map.totalPieces.isSafeInteger ∨ map.totalPieces < 0 then
    .error (PonsWarpError "availability:invalid_total" "Invalid totalPieces in piece map")
  else if sortedInRange map.totalPieces (-1) map.verifiedPieces then .ok ()
  else .error invalidPieceIndex

def AvailabilityFile.new (pieceCount : Nat) : AvailabilityFile :=
  ⟨pieceCount, .empty, List.replicate pieceCount ⟨.empty, none⟩, List.length_replicate⟩

/-- Change the entry of one piece, if the table has it. -/
def AvailabilityFile.modifyPiece (file : AvailabilityFile) (index : Nat)
    (f : AvailabilityPiece → AvailabilityPiece) : AvailabilityFile :=
  { file with pieces := file.pieces.modify index f, sized := by simp [file.sized] }

namespace PieceAvailabilityTable

def empty : PieceAvailabilityTable := ⟨.empty⟩

def pieceCountMismatch : Failure :=
  PonsWarpError "availability:piece_count_mismatch" "Piece map totalPieces changed for file"

/-- `ensureFile`: the first map to arrive fixes the piece count of a file. -/
def ensureFile (t : PieceAvailabilityTable) (fileId : FileId) (pieceCount : Nat) :
    Except Failure (AvailabilityFile × PieceAvailabilityTable) :=
  match t.files.get? fileId with
  | some existing =>
    if existing.pieceCount ≠ pieceCount then .error pieceCountMismatch else .ok (existing, t)
  | none => .ok (.new pieceCount, ⟨t.files.set fileId (.new pieceCount)⟩)

/-- Replace everything a peer advertised for a file by the pieces of its new map. -/
def AvailabilityFile.advertise (file : AvailabilityFile) (provider : ProviderState)
    (verifiedPieces : List Number) (generation : Number) : AvailabilityFile :=
  let cleared : AvailabilityFile :=
    { file with pieces := file.pieces.map fun p =>
        { p with providers := p.providers.delete provider.peerId }
                sized := by simp [file.sized] }
  let filled := verifiedPieces.foldl (fun f x =>
    match x.index? with
    | some i => f.modifyPiece i fun p =>
        { p with providers := p.providers.set provider.peerId provider }
    | none => f) cleared
  { filled with generations := filled.generations.set provider.peerId generation }

/-- `updatePeerPieceMap`: the answer is whether the map was news. The table keeps
the file entry that `ensureFile` made even when the map was not. -/
def updatePeerPieceMap (t : PieceAvailabilityTable) (peerId : PeerId) (role : PeerRole)
    (map : PieceMapBroadcast) (healthScore : Number) :
    Except Failure (Bool × PieceAvailabilityTable) :=
  match validateBroadcast map with
  | .error e => .error e
  | .ok () =>
    match t.ensureFile map.fileId (map.totalPieces.index?.getD 0) with
    | .error e => .error e
    | .ok (file, t') =>
      match file.generations.get? peerId with
      | some previousGeneration =>
        if map.generation ≤ previousGeneration then .ok (false, t')
        else .ok (true, ⟨t'.files.set map.fileId (AvailabilityFile.advertise file
          ⟨peerId, role, map.updatedAt, map.updatedAt + 30000, healthScore⟩
          map.verifiedPieces map.generation)⟩)
      | none => .ok (true, ⟨t'.files.set map.fileId (AvailabilityFile.advertise file
          ⟨peerId, role, map.updatedAt, map.updatedAt + 30000, healthScore⟩
          map.verifiedPieces map.generation)⟩)

def piece? (t : PieceAvailabilityTable) (fileId : FileId) (index : Nat) :
    Option AvailabilityPiece :=
  match t.files.get? fileId with
  | some file => file.pieces[index]?
  | none => none

def getProviders (t : PieceAvailabilityTable) (fileId : FileId) (index : Nat) (now : Number) :
    List ProviderState :=
  match t.piece? fileId index with
  | some piece => piece.providers.values.filter fun provider => now < provider.expiresAt
  | none => []

def setLease (t : PieceAvailabilityTable) (fileId : FileId) (index : Nat)
    (lease : Option RequestLease) : PieceAvailabilityTable :=
  match t.files.get? fileId with
  | some file => ⟨t.files.set fileId (file.modifyPiece index fun p => { p with requestedBy := lease })⟩
  | none => t

def lease (t : PieceAvailabilityTable) (fileId : FileId) (index : Nat) (lease : RequestLease) :
    Except Failure PieceAvailabilityTable :=
  match t.piece? fileId index with
  | some _ => .ok (t.setLease fileId index (some lease))
  | none => .error (PonsWarpError "availability:piece_not_found" s!"Unknown availability piece {index}")

def getLease (t : PieceAvailabilityTable) (fileId : FileId) (index : Nat) : Option RequestLease :=
  match t.piece? fileId index with
  | some piece => piece.requestedBy
  | none => none

/-- `release`: an empty request id releases whatever lease there is. -/
def release (t : PieceAvailabilityTable) (fileId : FileId) (index : Nat)
    (requestId : RequestId) : PieceAvailabilityTable :=
  match t.getLease fileId index with
  | some held =>
    if requestId = "" ∨ held.requestId = requestId then t.setLease fileId index none else t
  | none => t

def expiredLease (now : Number) (piece : AvailabilityPiece) : Option RequestLease :=
  match piece.requestedBy with
  | some held => if held.expiresAt ≤ now then some held else none
  | none => none

def AvailabilityFile.expire (now : Number) (file : AvailabilityFile) : AvailabilityFile :=
  { file with
    pieces := file.pieces.map fun p =>
      if (expiredLease now p).isSome then { p with requestedBy := none } else p
    sized := by simp [file.sized] }

/-- Apply a function to every file entry. -/
def mapFiles (t : PieceAvailabilityTable) (f : AvailabilityFile → AvailabilityFile) :
    PieceAvailabilityTable :=
  ⟨⟨t.files.entries.map fun p => (p.1, f p.2), by
    simpa [List.map_map, Function.comp_def] using t.files.nodup⟩⟩

/-- `expireLeases`: the expired leases, in table order, and the table without them. -/
def expireLeases (t : PieceAvailabilityTable) (now : Number) :
    List RequestLease × PieceAvailabilityTable :=
  (t.files.values.flatMap fun file => file.pieces.filterMap (expiredLease now),
   t.mapFiles (AvailabilityFile.expire now))

/-- The number of pieces the table has for a file it knows. -/
def count (t : PieceAvailabilityTable) (fileId : FileId) : Option Nat :=
  (t.files.get? fileId).map (·.pieceCount)

theorem lookup_mapFiles {l : List (FileId × AvailabilityFile)}
    (f : AvailabilityFile → AvailabilityFile) (fileId : FileId) :
    lookup fileId (l.map fun p => (p.1, f p.2)) = (lookup fileId l).map f := by
  induction l with
  | nil => rfl
  | cons p rest ih =>
    by_cases h : p.1 = fileId
    · simp [lookup, h]
    · simp [lookup, h, ih]

theorem files_mapFiles (t : PieceAvailabilityTable) (f : AvailabilityFile → AvailabilityFile)
    (fileId : FileId) : (t.mapFiles f).files.get? fileId = (t.files.get? fileId).map f :=
  lookup_mapFiles f fileId

@[simp] theorem count_setLease (t : PieceAvailabilityTable) (f g : FileId) (i : Nat)
    (l : Option RequestLease) : (t.setLease f i l).count g = t.count g := by
  unfold setLease
  cases h : t.files.get? f with
  | none => rfl
  | some file =>
    simp only [count, OrderedMap.get?_set]
    by_cases hg : g = f
    · subst hg
      simp [h, AvailabilityFile.modifyPiece]
    · simp [hg]

@[simp] theorem count_release (t : PieceAvailabilityTable) (f g : FileId) (i : Nat)
    (r : RequestId) : (t.release f i r).count g = t.count g := by
  unfold release
  split
  · split
    · exact count_setLease t f g i none
    · rfl
  · rfl

@[simp] theorem count_expireLeases (t : PieceAvailabilityTable) (now : Number) (g : FileId) :
    (t.expireLeases now).2.count g = t.count g := by
  simp only [count, expireLeases, files_mapFiles, Option.map_map]
  rfl

theorem count_lease {t t' : PieceAvailabilityTable} {f : FileId} {i : Nat} {l : RequestLease}
    (h : t.lease f i l = .ok t') (g : FileId) : t'.count g = t.count g := by
  unfold lease at h
  split at h
  · cases h
    exact count_setLease t f g i (some l)
  · cases h

theorem getLease_setLease_self (t : PieceAvailabilityTable) (f : FileId) (i : Nat)
    (l : Option RequestLease) (held : RequestLease)
    (h : (t.setLease f i l).getLease f i = some held) : l = some held := by
  unfold setLease at h
  cases hf : t.files.get? f with
  | none => simp [hf, getLease, piece?] at h
  | some file =>
    simp only [hf, getLease, piece?, OrderedMap.get?_set_self, AvailabilityFile.modifyPiece,
      List.getElem?_modify_eq] at h
    cases hp : file.pieces[i]? with
    | none => simp [hp] at h
    | some p => simpa [hp] using h

theorem getLease_setLease_of_ne (t : PieceAvailabilityTable) {f g : FileId} {i j : Nat}
    (l : Option RequestLease) (h : ¬ (g = f ∧ j = i)) :
    (t.setLease f i l).getLease g j = t.getLease g j := by
  unfold setLease
  cases hf : t.files.get? f with
  | none => rfl
  | some file =>
    simp only [getLease, piece?, OrderedMap.get?_set]
    by_cases hg : g = f
    · subst hg
      have hj : i ≠ j := fun he => h ⟨rfl, he.symm⟩
      simp [hf, AvailabilityFile.modifyPiece, List.getElem?_modify_ne _ _ hj]
    · simp [hg]

/-- A lease of the table after a lease is set is that lease or an old one. -/
theorem getLease_setLease {t : PieceAvailabilityTable} {f g : FileId} {i j : Nat}
    {l : Option RequestLease} {held : RequestLease}
    (h : (t.setLease f i l).getLease g j = some held) :
    (g = f ∧ j = i ∧ l = some held) ∨ t.getLease g j = some held := by
  by_cases hk : g = f ∧ j = i
  · obtain ⟨rfl, rfl⟩ := hk
    exact .inl ⟨rfl, rfl, getLease_setLease_self t g j l held h⟩
  · rw [getLease_setLease_of_ne t l hk] at h
    exact .inr h

theorem getLease_lease {t t' : PieceAvailabilityTable} {f g : FileId} {i j : Nat}
    {l held : RequestLease} (h : t.lease f i l = .ok t') (hl : t'.getLease g j = some held) :
    (g = f ∧ j = i ∧ l = held) ∨ t.getLease g j = some held := by
  unfold lease at h
  split at h
  · cases h
    obtain ⟨hg, hj, he⟩ | h' := getLease_setLease hl
    · exact .inl ⟨hg, hj, Option.some.inj he⟩
    · exact .inr h'
  · cases h

theorem getLease_release_le {t : PieceAvailabilityTable} {f g : FileId} {i j : Nat}
    {r : RequestId} {held : RequestLease} (h : (t.release f i r).getLease g j = some held) :
    t.getLease g j = some held := by
  unfold release at h
  split at h
  · split at h
    · obtain ⟨-, -, hn⟩ | h' := getLease_setLease h
      · cases hn
      · exact h'
    · exact h
  · exact h

/-- After a release the piece is not leased under the released request id. -/
theorem getLease_expireLeases {t : PieceAvailabilityTable} {now : Number} {g : FileId} {j : Nat}
    {held : RequestLease} (h : (t.expireLeases now).2.getLease g j = some held) :
    t.getLease g j = some held := by
  simp only [getLease, piece?, expireLeases, files_mapFiles] at h ⊢
  cases hf : t.files.get? g with
  | none => simp [hf] at h
  | some file =>
    simp only [hf, Option.map_some, AvailabilityFile.expire, List.getElem?_map] at h ⊢
    cases hp : file.pieces[j]? with
    | none => simp [hp] at h
    | some p =>
      simp only [hp, Option.map_some] at h ⊢
      split at h
      · simp at h
      · exact h

theorem pieceCount_advertise (file : AvailabilityFile) (provider : ProviderState)
    (verifiedPieces : List Number) (generation : Number) :
    (AvailabilityFile.advertise file provider verifiedPieces generation).pieceCount =
      file.pieceCount := by
  simp only [AvailabilityFile.advertise]
  generalize hc : ({ file with pieces := _, sized := _ } : AvailabilityFile) = cleared
  have hcount : cleared.pieceCount = file.pieceCount := by rw [← hc]
  rw [← hcount]
  clear hc hcount
  induction verifiedPieces generalizing cleared with
  | nil => rfl
  | cons x rest ih =>
    simp only [List.foldl_cons]
    rw [ih]
    cases x.index? with
    | none => rfl
    | some i => rfl

/-- Advertising pieces changes no lease. -/
theorem requestedBy_advertise (file : AvailabilityFile) (provider : ProviderState)
    (verifiedPieces : List Number) (generation : Number) (j : Nat) :
    ((AvailabilityFile.advertise file provider verifiedPieces generation).pieces[j]?).map
      AvailabilityPiece.requestedBy = (file.pieces[j]?).map AvailabilityPiece.requestedBy := by
  simp only [AvailabilityFile.advertise]
  generalize hc : ({ file with pieces := _, sized := _ } : AvailabilityFile) = cleared
  have hcleared : (cleared.pieces[j]?).map AvailabilityPiece.requestedBy =
      (file.pieces[j]?).map AvailabilityPiece.requestedBy := by
    rw [← hc]
    simp [Function.comp_def]
  rw [← hcleared]
  clear hc hcleared
  induction verifiedPieces generalizing cleared with
  | nil => rfl
  | cons x rest ih =>
    simp only [List.foldl_cons]
    rw [ih]
    cases x.index? with
    | none => rfl
    | some i =>
      by_cases hij : i = j
      · subst hij
        simp [AvailabilityFile.modifyPiece, Function.comp_def]
      · simp [AvailabilityFile.modifyPiece, List.getElem?_modify_ne _ _ hij]

theorem requestedBy_new (n j : Nat) :
    ((AvailabilityFile.new n).pieces[j]?).bind AvailabilityPiece.requestedBy = none := by
  simp only [AvailabilityFile.new, List.getElem?_replicate]
  split <;> rfl

/-- What `ensureFile` answers: the entry of the file, which is new or was there. -/
theorem ensureFile_spec {t t' : PieceAvailabilityTable} {f : FileId} {n : Nat}
    {file : AvailabilityFile} (h : t.ensureFile f n = .ok (file, t')) :
    (t.files.get? f = some file ∧ t' = t ∧ file.pieceCount = n) ∨
    (t.files.get? f = none ∧ file = .new n ∧ t' = ⟨t.files.set f (.new n)⟩) := by
  unfold ensureFile at h
  cases hf : t.files.get? f with
  | none =>
    simp only [hf, Except.ok.injEq, Prod.mk.injEq] at h
    exact .inr ⟨rfl, h.1.symm, h.2.symm⟩
  | some existing =>
    simp only [hf] at h
    split at h
    · cases h
    · rename_i hc
      simp only [Except.ok.injEq, Prod.mk.injEq] at h
      obtain ⟨rfl, rfl⟩ := h
      exact .inl ⟨rfl, rfl, not_not.1 hc⟩

/-- `file'` lists what peers advertise differently, but has the pieces and leases of `file`. -/
structure SameLeases (file file' : AvailabilityFile) : Prop where
  count : file'.pieceCount = file.pieceCount
  leases : ∀ j : Nat, (file'.pieces[j]?).map AvailabilityPiece.requestedBy =
    (file.pieces[j]?).map AvailabilityPiece.requestedBy

theorem sameLeases_advertise (file : AvailabilityFile) (provider : ProviderState)
    (verifiedPieces : List Number) (generation : Number) :
    SameLeases file (AvailabilityFile.advertise file provider verifiedPieces generation) :=
  ⟨pieceCount_advertise .., fun j => requestedBy_advertise _ _ _ _ j⟩

/-- What `updatePeerPieceMap` leaves: one file's entry, which was there or is new. -/
theorem updatePeerPieceMap_spec {t t' : PieceAvailabilityTable} {p : PeerId} {role : PeerRole}
    {map : PieceMapBroadcast} {score : Number} {changed : Bool}
    (h : t.updatePeerPieceMap p role map score = .ok (changed, t')) :
    ∃ file file', t'.files.get? map.fileId = some file' ∧ SameLeases file file' ∧
      (t.files.get? map.fileId = some file ∨
        (t.files.get? map.fileId = none ∧ file = .new (map.totalPieces.index?.getD 0))) ∧
      file.pieceCount = map.totalPieces.index?.getD 0 ∧
      ∀ g, g ≠ map.fileId → t'.files.get? g = t.files.get? g := by
  unfold updatePeerPieceMap at h
  cases hv : validateBroadcast map with
  | error e => simp [hv] at h
  | ok u =>
    simp only [hv] at h
    cases he : t.ensureFile map.fileId (map.totalPieces.index?.getD 0) with
    | error e => simp [he] at h
    | ok r =>
      obtain ⟨file, t1⟩ := r
      simp only [he] at h
      have hfile : t1.files.get? map.fileId = some file ∧
          (t.files.get? map.fileId = some file ∨
            (t.files.get? map.fileId = none ∧
              file = .new (map.totalPieces.index?.getD 0))) ∧
          file.pieceCount = map.totalPieces.index?.getD 0 ∧
          ∀ g, g ≠ map.fileId → t1.files.get? g = t.files.get? g := by
        obtain ⟨hold, rfl, hn⟩ | ⟨hnone, rfl, rfl⟩ := ensureFile_spec he
        · exact ⟨hold, .inl hold, hn, fun g _ => rfl⟩
        · exact ⟨by simp, .inr ⟨hnone, rfl⟩, rfl,
            fun g hg => OrderedMap.get?_set_of_ne _ _ hg⟩
      obtain ⟨hget, horigin, hcount, hother⟩ := hfile
      have hsame : t' = t1 ∨ ∃ q gen, t' = ⟨t1.files.set map.fileId
          (AvailabilityFile.advertise file q map.verifiedPieces gen)⟩ := by
        split at h
        · split at h
          · cases h
            exact .inl rfl
          · cases h
            exact .inr ⟨_, _, rfl⟩
        · cases h
          exact .inr ⟨_, _, rfl⟩
      obtain rfl | ⟨q, gen, rfl⟩ := hsame
      · exact ⟨file, file, hget, ⟨rfl, fun _ => rfl⟩, horigin, hcount, hother⟩
      · refine ⟨file, AvailabilityFile.advertise file q map.verifiedPieces gen, by simp,
          sameLeases_advertise .., horigin, hcount, fun g hg => ?_⟩
        rw [← hother g hg]
        exact OrderedMap.get?_set_of_ne _ _ hg

theorem count_updatePeerPieceMap {t t' : PieceAvailabilityTable} {p : PeerId} {role : PeerRole}
    {map : PieceMapBroadcast} {score : Number} {changed : Bool}
    (h : t.updatePeerPieceMap p role map score = .ok (changed, t')) {g : FileId} {n : Nat}
    (hn : t'.count g = some n) :
    t.count g = some n ∨
      (t.count g = none ∧ g = map.fileId ∧ n = map.totalPieces.index?.getD 0) := by
  obtain ⟨file, file', hget', hsame, horigin, hcount, hother⟩ := updatePeerPieceMap_spec h
  by_cases hg : g = map.fileId
  · subst hg
    have hn' : file.pieceCount = n := by simpa [count, hget', hsame.count] using hn
    obtain hold | ⟨hnone, -⟩ := horigin
    · exact .inl (by simp [count, hold, hn'])
    · exact .inr ⟨by simp [count, hnone], rfl, hn' ▸ hcount⟩
  · left
    simpa [count, hother g hg] using hn

theorem getLease_updatePeerPieceMap {t t' : PieceAvailabilityTable} {p : PeerId} {role : PeerRole}
    {map : PieceMapBroadcast} {score : Number} {changed : Bool}
    (h : t.updatePeerPieceMap p role map score = .ok (changed, t')) {g : FileId} {j : Nat}
    {held : RequestLease} (hl : t'.getLease g j = some held) : t.getLease g j = some held := by
  obtain ⟨file, file', hget', hsame, horigin, -, hother⟩ := updatePeerPieceMap_spec h
  by_cases hg : g = map.fileId
  · subst hg
    have hl' : (file.pieces[j]?).bind AvailabilityPiece.requestedBy = some held := by
      have hj := hsame.leases j
      simp only [getLease, piece?, hget'] at hl
      cases hp' : file'.pieces[j]? with
      | none => simp [hp'] at hl
      | some q =>
        cases hp : file.pieces[j]? with
        | none => simp [hp, hp'] at hj
        | some q0 =>
          simp only [hp', hp, Option.map_some, Option.some.injEq] at hl hj
          simpa [hj] using hl
    obtain hold | ⟨-, hnew⟩ := horigin
    · simp only [getLease, piece?, hold]
      cases hp : file.pieces[j]? with
      | none => simp [hp] at hl'
      | some q => simpa [hp] using hl'
    · rw [hnew, requestedBy_new] at hl'
      cases hl'
  · simpa [getLease, piece?, hother g hg] using hl

end PieceAvailabilityTable

inductive PeerConnectionState where
  | connected | connecting | disconnected | failed
  deriving DecidableEq, Repr

structure PeerHealth where
  peerId : PeerId
  connectionState : PeerConnectionState
  rttMs : Option Number
  averageThroughputBps : Option Number
  recentFailures : Number
  recentRejects : Number
  timeoutCount : Number
  successfulPieces : Number
  score : Number
  deriving DecidableEq, Repr

/-- `computeScore`; `log2` is the floating-point logarithm. -/
def computeScore (log2 : Number → Number) (health : PeerHealth) : Number :=
  let throughputBonus := match health.averageThroughputBps with
    | some bps => if bps = 0 then 0 else max 0 (min 20 (log2 (max 1 bps / 65536)))
    | none => 0
  let rttPenalty := match health.rttMs with
    | some rtt => max 0 (min 10 (rtt / 100))
    | none => 0
  let failurePenalty :=
    health.recentFailures * 10 + health.timeoutCount * 15 + health.recentRejects * 5
  let statePenalty := match health.connectionState with
    | .connected => 0
    | .connecting => 15
    | .disconnected => 40
    | .failed => 40
  max 0 (min 100 (50 + throughputBonus - rttPenalty - failurePenalty - statePenalty))

structure PeerHealthTable where
  peers : OrderedMap PeerId PeerHealth

namespace PeerHealthTable

def createDefault (peerId : PeerId) : PeerHealth := ⟨peerId, .connected, none, none, 0, 0, 0, 0, 50⟩

/-- `get`: a peer without an entry reads as the default one. -/
def get (t : PeerHealthTable) (peerId : PeerId) : PeerHealth :=
  (t.peers.get? peerId).getD (createDefault peerId)

def set (log2 : Number → Number) (t : PeerHealthTable) (peerId : PeerId)
    (patch : PeerHealth → PeerHealth) : PeerHealthTable :=
  let next := { patch (t.get peerId) with peerId := peerId }
  ⟨t.peers.set peerId { next with score := computeScore log2 next }⟩

/-- A sample of zero bytes leaves the average throughput as it is. -/
def markSuccess (log2 : Number → Number) (t : PeerHealthTable) (peerId : PeerId)
    (bytes elapsedMs : Number) : PeerHealthTable :=
  t.set log2 peerId fun current =>
    let sample := if 0 < elapsedMs ∧ 0 < bytes then some (bytes / elapsedMs * 1000) else none
    let average := match sample, current.averageThroughputBps with
      | none, previous => previous
      | some s, some previous => if 0 < previous then some (previous * 7 / 10 + s * 3 / 10) else some s
      | some s, none => some s
    { current with
      successfulPieces := current.successfulPieces + 1
      recentFailures := max 0 (current.recentFailures - 1)
      averageThroughputBps := average
      connectionState := .connected }

def markReject (log2 : Number → Number) (t : PeerHealthTable) (peerId : PeerId) :
    PeerHealthTable :=
  t.set log2 peerId fun current => { current with recentRejects := current.recentRejects + 1 }

def markTimeout (log2 : Number → Number) (t : PeerHealthTable) (peerId : PeerId) :
    PeerHealthTable :=
  t.set log2 peerId fun current =>
    { current with timeoutCount := current.timeoutCount + 1
                   recentFailures := current.recentFailures + 1 }

end PeerHealthTable

end PonsWarp.Core
