import PonsWarp.Core.Revival

set_option autoImplicit false

/-!
What of the accepted states can be restored: the piece maps whose entries name positions
that the manifest numbers as its own, with statuses that the restore lists.
-/

namespace PonsWarp.Core

open PonsWarp.Data PieceSlot

theorem bind_eq_ok {α β : Type} {x : Except Failure α} {f : α → Except Failure β} {b : β} :
    x >>= f = .ok b ↔ ∃ a, x = .ok a ∧ f a = .ok b := by
  cases x with
  | error err => simp [bind, Except.bind]
  | ok a => simp [bind, Except.bind]

/-- An accepted piece map has as many entries as its manifest counts. -/
theorem accepted_match {value : JsValue} {state : SessionShape}
    (h : value.validatePersistedSessionState = .ok state) {pieceMap : PieceMapShape}
    (hmap : pieceMap ∈ state.pieceMaps) {manifest : ManifestShape}
    (hmanifest : JsValue.manifestOf state.manifests pieceMap = some manifest) :
    JsValue.validatePieceMapForManifest manifest pieceMap = .ok () := by
  unfold JsValue.validatePersistedSessionState at h
  obtain ⟨fields, -, h⟩ := bind_eq_ok.1 h
  split at h
  · obtain ⟨_, herr, -⟩ := bind_eq_ok.1 h
    cases herr
  · obtain ⟨_, -, h⟩ := bind_eq_ok.1 h
    obtain ⟨sessionId, -, h⟩ := bind_eq_ok.1 h
    obtain ⟨manifestItems, -, h⟩ := bind_eq_ok.1 h
    obtain ⟨pieceMapItems, -, h⟩ := bind_eq_ok.1 h
    obtain ⟨_, -, h⟩ := bind_eq_ok.1 h
    obtain ⟨peerItems, -, h⟩ := bind_eq_ok.1 h
    obtain ⟨_, -, h⟩ := bind_eq_ok.1 h
    obtain ⟨manifests, -, h⟩ := bind_eq_ok.1 h
    obtain ⟨pieceMaps, -, h⟩ := bind_eq_ok.1 h
    obtain ⟨_, -, h⟩ := bind_eq_ok.1 h
    obtain ⟨_, hmatch, h⟩ := bind_eq_ok.1 h
    cases h
    have hone := forEach_eq_ok.1 hmatch pieceMap hmap
    simpa [hmanifest] using hone

namespace ManifestShape

/-- No other descriptor of the manifest carries the number of this position. -/
def Alone (manifest : ManifestShape) (i : Nat) : Prop :=
  ∀ (j : Nat) (d : PieceDescriptorShape), manifest.pieces[j]? = some d → d.index = .ofNat i → j = i

end ManifestShape

/-- A status that a restored piece is listed with. -/
def JsValue.restorable (status : JsValue) : Bool :=
  ["missing", "requested", "receiving", "verified", "failed"].any status.isString

/-- The entries of a piece map name positions by their own numbers. -/
def Numbered (manifest : ManifestShape) (pieceMap : PieceMapShape) : Prop :=
  ∀ piece ∈ pieceMap.pieces, ∃ (i : Nat) (d : PieceDescriptorShape),
    piece.index = .ofNat i ∧ manifest.pieces[i]? = some d ∧ d.index = .ofNat i

/-- Each entry names a position by its own number, and for each position the last entry
leaves a status that is listed, and listed under that number alone. -/
structure Resumable (manifest : ManifestShape) (pieceMap : PieceMapShape) (intact : Nat → Bool) :
    Prop where
  numbered : Numbered manifest pieceMap
  listed : ∀ (i : Nat) (piece : PieceStateShape), lastFor pieceMap.pieces i = some piece →
    piece.status.restorable = false → ¬ manifest.Alone i
  single : ∀ (i : Nat) (piece : PieceStateShape), lastFor pieceMap.pieces i = some piece →
    piece.status.isString "verified" = true → intact i = true → manifest.Alone i

def importedStatus (pieceMap : PieceMapShape) (j : Nat) : JsValue :=
  (lastFor pieceMap.pieces j).elim (.string "missing") fun p => imported p.status

/-- What becomes of the piece at a position. -/
def restoredStatus (pieceMap : PieceMapShape) (intact : Nat → Bool) (j : Nat) : JsValue :=
  if (importedStatus pieceMap j).isString "verified" = true ∧ intact j = false then
    .string "missing"
  else importedStatus pieceMap j

theorem lastFor_mem {pieces : List PieceStateShape} {j : Nat} {piece : PieceStateShape}
    (h : lastFor pieces j = some piece) : piece ∈ pieces ∧ piece.index = .ofNat j := by
  induction pieces with
  | nil => cases h
  | cons p rest ih =>
    cases hl : lastFor rest j with
    | some q =>
      simp only [lastFor, hl, Option.some_or, Option.some.injEq] at h
      subst h
      obtain ⟨hmem, hindex⟩ := ih hl
      exact ⟨List.mem_cons_of_mem p hmem, hindex⟩
    | none =>
      simp only [lastFor, hl, Option.none_or] at h
      split at h
      · rename_i hindex
        cases h
        exact ⟨List.mem_cons_self, hindex⟩
      · cases h

def freshSlots (manifest : ManifestShape) : List PieceSlot :=
  manifest.pieces.map fun piece => ⟨piece.index, .string "missing"⟩

theorem find?_freshSlots {manifest : ManifestShape} {x : JsNumber} :
    (find? (freshSlots manifest) x).isSome ↔ ∃ (i : Nat) (d : PieceDescriptorShape),
      x = .ofNat i ∧ manifest.pieces[i]? = some d ∧ d.index = .ofNat i := by
  rw [Option.isSome_iff_exists]
  constructor
  · rintro ⟨⟨i, slot⟩, h⟩
    obtain ⟨rfl, hslot, hindex⟩ := find?_eq_some.1 h
    rw [freshSlots, List.getElem?_map] at hslot
    obtain ⟨d, hd, rfl⟩ := Option.map_eq_some_iff.1 hslot
    exact ⟨i, d, rfl, hd, hindex⟩
  · rintro ⟨i, d, rfl, hd, hindex⟩
    exact ⟨(i, ⟨d.index, .string "missing"⟩),
      find?_eq_some.2 ⟨rfl, by simp [freshSlots, hd], hindex⟩⟩

section Restored

variable {σ : Type} [StorageAdapter σ] {manifest : ManifestShape} {pieceMap : PieceMapShape}

theorem Numbered.placed (h : Numbered manifest pieceMap) {k : Nat} {piece : PieceStateShape}
    (hlast : lastFor pieceMap.pieces k = some piece) :
    ∃ d, manifest.pieces[k]? = some d ∧ d.index = .ofNat k := by
  obtain ⟨hmem, hindex⟩ := lastFor_mem hlast
  obtain ⟨i, d, hi, hd, hdi⟩ := h piece hmem
  rw [hindex, JsNumber.ofNat_inj] at hi
  subst hi
  exact ⟨d, hd, hdi⟩

/-- There are no entries for a position that carries the number of another. -/
theorem Numbered.no_entry (h : Numbered manifest pieceMap) {i j : Nat} {d : PieceDescriptorShape}
    (hd : manifest.pieces[j]? = some d) (hindex : d.index = .ofNat i) (hne : j ≠ i) :
    lastFor pieceMap.pieces j = none := by
  cases hlast : lastFor pieceMap.pieces j with
  | none => rfl
  | some piece =>
    obtain ⟨d', hd', hj⟩ := h.placed hlast
    rw [hd] at hd'
    cases hd'
    rw [hindex, JsNumber.ofNat_inj] at hj
    exact absurd hj.symm hne

/-- Only a piece with an entry can be recorded as verified. -/
theorem Numbered.verified (h : Numbered manifest pieceMap) {k : Nat} {d : PieceDescriptorShape}
    (hd : manifest.pieces[k]? = some d)
    (hv : (importedStatus pieceMap k).isString "verified" = true) : d.index = .ofNat k := by
  cases hl : lastFor pieceMap.pieces k with
  | none => simp [importedStatus, hl, JsValue.isString] at hv
  | some piece =>
    obtain ⟨d', hd', hindex⟩ := h.placed hl
    rw [hd] at hd'
    cases hd'
    exact hindex

/-- The restore of numbered entries comes back, with every piece in its restored status. -/
theorem restoreResumeState_restores (store : Contents σ) (hash : ArrayBuffer → String)
    (numberText : JsNumber → String) {s : σ} (hready : store.Ready s)
    (hmatch : JsValue.validatePieceMapForManifest manifest pieceMap = .ok ())
    (h : Numbered manifest pieceMap) :
    ∃ slots discarded s', Revival.restoreResumeState hash numberText manifest pieceMap s =
        (.ok ⟨slots, getVerifiedPieces slots, getMissingPieces slots, discarded⟩, s') ∧
      ∀ j : Nat, slots[j]? = (manifest.pieces[j]?).map fun d => (⟨d.index,
        restoredStatus pieceMap (manifest.intact hash (store.bytes s manifest.fileId)) j⟩ :
          PieceSlot) := by
  obtain ⟨slots₁, himport⟩ := (importPieces_isOk numberText pieceMap.pieces).2
    fun piece hp => find?_freshSlots.2 (h piece hp)
  have hslots₁ : ∀ j : Nat, slots₁[j]? = (manifest.pieces[j]?).map fun d =>
      (⟨d.index, importedStatus pieceMap j⟩ : PieceSlot) := by
    intro j
    rw [importPieces_restates himport j, freshSlots, List.getElem?_map, Option.map_map]
    congr 1
  have hplaced : ∀ (k : Nat) (slot : PieceSlot), slots₁[k]? = some slot →
      slot.status.isString "verified" = true → slot.index = .ofNat k ∧
        ∃ d, manifest.pieces[k]? = some d := by
    intro k slot hslot hv
    rw [hslots₁ k] at hslot
    obtain ⟨d, hd, rfl⟩ := Option.map_eq_some_iff.1 hslot
    exact ⟨h.verified hd hv, d, hd⟩
  have hrecorded : ∀ x ∈ getVerifiedPieces slots₁, ∃ (i : Nat) (slot : PieceSlot),
      x = .ofNat i ∧ slots₁[i]? = some slot ∧ slot.index = .ofNat i ∧
        slot.status.isString "verified" = true := by
    intro x hx
    obtain ⟨k, slot, hslot, hv, rfl⟩ := mem_listed.1 hx
    have hk := (hplaced k slot hslot hv).1
    exact ⟨k, slot, hk, hslot, hk, hv⟩
  obtain ⟨slots, discarded, s', hloop, hrestated⟩ := Revival.restoreLoop_restates store hash
    numberText manifest hready (nodup_getVerifiedPieces fun k slot hslot hv =>
      (hplaced k slot hslot hv).1) slots₁
    (fun x hx => by
      obtain ⟨i, slot, rfl, hslot, hindex, -⟩ := hrecorded x hx
      exact Option.isSome_iff_exists.2 ⟨(i, slot), find?_eq_some.2 ⟨rfl, hslot, hindex⟩⟩)
    (fun x hx => by
      obtain ⟨i, slot, rfl, hslot, -, hv⟩ := hrecorded x hx
      obtain ⟨d, hd⟩ := (hplaced i slot hslot hv).2
      exact ⟨i, d, rfl, hd⟩) []
  refine ⟨slots, discarded, s', ?_, fun j => ?_⟩
  · unfold Revival.restoreResumeState
    simp only [hmatch]
    have himport' : importPieces numberText pieceMap.pieces
        (manifest.pieces.map fun piece => ⟨piece.index, .string "missing"⟩) = .ok slots₁ := himport
    simp only [himport']
    exact hloop
  · rw [hrestated j, hslots₁ j, Option.map_map]
    cases hd : manifest.pieces[j]? with
    | none => rfl
    | some d =>
      have hiff : JsNumber.ofNat j ∈ getVerifiedPieces slots₁ ↔
          (importedStatus pieceMap j).isString "verified" = true := by
        constructor
        · intro hx
          obtain ⟨i, slot, hi, hslot, -, hv⟩ := hrecorded _ hx
          rw [JsNumber.ofNat_inj] at hi
          subst hi
          rw [hslots₁ j, hd] at hslot
          cases hslot
          exact hv
        · intro hv
          exact mem_listed.2 ⟨j, ⟨d.index, importedStatus pieceMap j⟩, by rw [hslots₁ j, hd]; rfl,
            hv, h.verified hd hv⟩
      simp [restoredStatus, hiff]

/-- A restore that comes back has found its entries numbered. -/
theorem numbered_of_restored {hash : ArrayBuffer → String} {numberText : JsNumber → String}
    {s s' : σ} {result : RevivedPieces}
    (h : Revival.restoreResumeState hash numberText manifest pieceMap s = (.ok result, s')) :
    Numbered manifest pieceMap := by
  unfold Revival.restoreResumeState at h
  split at h
  · cases h
  · simp only at h
    split at h
    · cases h
    · rename_i slots himport
      exact fun piece hp =>
        find?_freshSlots.1 ((importPieces_isOk numberText pieceMap.pieces).1 ⟨slots, himport⟩ piece hp)

end Restored

section Endings

variable {pieceMap : PieceMapShape} {intact : Nat → Bool} {j : Nat}

/-- The piece was recorded as verified, and its bytes are there. -/
def Kept (pieceMap : PieceMapShape) (intact : Nat → Bool) (j : Nat) : Prop :=
  ∃ piece, lastFor pieceMap.pieces j = some piece ∧ piece.status.isString "verified" = true ∧
    intact j = true

/-- The piece has a status that no list takes in. -/
def Lost (pieceMap : PieceMapShape) (j : Nat) : Prop :=
  ∃ piece, lastFor pieceMap.pieces j = some piece ∧ piece.status.restorable = false

theorem Kept.not_lost (h : Kept pieceMap intact j) : ¬ Lost pieceMap j := by
  rintro ⟨piece, hlast, hlost⟩
  obtain ⟨piece', hlast', hv, -⟩ := h
  rw [hlast] at hlast'
  cases hlast'
  simp [JsValue.restorable, hv] at hlost

/-- What a status leads to, whether or not the bytes are there. -/
theorem imported_endings (status : JsValue) :
    ((imported status).isString "verified" = status.isString "verified") ∧
    ((imported status).isString "missing" || (imported status).isString "failed") =
      (status.restorable && !status.isString "verified") := by
  cases status with
  | string t =>
    by_cases hr : t = "requested"
    · subst hr
      decide
    · by_cases hc : t = "receiving"
      · subst hc
        decide
      · by_cases hv : t = "verified"
        · subst hv
          decide
        · simp [imported, JsValue.isString, JsValue.restorable, hr, hc, hv]
  | _ => simp [imported, JsValue.isString, JsValue.restorable]

theorem restored_verified : (restoredStatus pieceMap intact j).isString "verified" = true ↔
    Kept pieceMap intact j := by
  unfold restoredStatus Kept importedStatus
  cases lastFor pieceMap.pieces j with
  | none => simp [JsValue.isString]
  | some piece =>
    simp only [Option.elim_some, (imported_endings piece.status).1, Option.some.injEq]
    cases hv : piece.status.isString "verified" with
    | false => simp [(imported_endings piece.status).1, hv]
    | true =>
      cases hi : intact j with
      | false => simp [JsValue.isString]
      | true => simp [(imported_endings piece.status).1, hv]

theorem restored_missing : ((restoredStatus pieceMap intact j).isString "missing" ||
      (restoredStatus pieceMap intact j).isString "failed") = true ↔
    ¬ Kept pieceMap intact j ∧ ¬ Lost pieceMap j := by
  unfold restoredStatus Kept Lost importedStatus
  cases lastFor pieceMap.pieces j with
  | none => simp [JsValue.isString]
  | some piece =>
    simp only [Option.elim_some, (imported_endings piece.status).1, Option.some.injEq]
    cases hv : piece.status.isString "verified" with
    | false =>
      simp [(imported_endings piece.status).2, hv]
    | true =>
      have hrestorable : piece.status.restorable = true := by simp [JsValue.restorable, hv]
      cases hi : intact j with
      | false => simp [JsValue.isString, hrestorable]
      | true => simp [(imported_endings piece.status).2, hv]

end Endings

/-- What the lists hold, once the entries are known to be numbered. -/
theorem restored_lists {σ : Type} [StorageAdapter σ] (store : Contents σ)
    (hash : ArrayBuffer → String) (numberText : JsNumber → String) {manifest : ManifestShape}
    {pieceMap : PieceMapShape} {s : σ} (hready : store.Ready s)
    (hmatch : JsValue.validatePieceMapForManifest manifest pieceMap = .ok ())
    (h : Numbered manifest pieceMap) :
    ∃ result s', Revival.restoreResumeState hash numberText manifest pieceMap s =
        (.ok result, s') ∧
      (∀ x, x ∈ result.verifiedPieces ↔ ∃ (k : Nat) (d : PieceDescriptorShape),
        manifest.pieces[k]? = some d ∧ d.index = x ∧
          Kept pieceMap (manifest.intact hash (store.bytes s manifest.fileId)) k) ∧
      (∀ x, x ∈ result.missingPieces ↔ ∃ (k : Nat) (d : PieceDescriptorShape),
        manifest.pieces[k]? = some d ∧ d.index = x ∧
          ¬ Kept pieceMap (manifest.intact hash (store.bytes s manifest.fileId)) k ∧
          ¬ Lost pieceMap k) := by
  obtain ⟨slots, discarded, s', hrestore, hslots⟩ :=
    restoreResumeState_restores store hash numberText hready hmatch h
  have hlisted : ∀ (p : JsValue → Bool) (x : JsNumber),
      x ∈ (slots.filter fun slot => p slot.status).map (·.index) ↔
        ∃ (k : Nat) (d : PieceDescriptorShape), manifest.pieces[k]? = some d ∧ d.index = x ∧
          p (restoredStatus pieceMap (manifest.intact hash (store.bytes s manifest.fileId)) k) =
            true := by
    intro p x
    rw [mem_listed]
    constructor
    · rintro ⟨k, slot, hslot, hp, hindex⟩
      rw [hslots k] at hslot
      obtain ⟨d, hd, rfl⟩ := Option.map_eq_some_iff.1 hslot
      exact ⟨k, d, hd, hindex, hp⟩
    · rintro ⟨k, d, hd, hindex, hp⟩
      exact ⟨k, _, by rw [hslots k, hd]; rfl, hp, hindex⟩
  refine ⟨_, s', hrestore, fun x => ?_, fun x => ?_⟩
  · have hv := hlisted (·.isString "verified") x
    simp only [restored_verified] at hv
    exact hv
  · have hm := hlisted (fun status => status.isString "missing" || status.isString "failed") x
    simp only [restored_missing] at hm
    exact hm

/-- An accepted piece map is restored, with every piece in exactly one of the lists, exactly
when it is resumable. -/
theorem accepted_state_resumes {σ : Type} [StorageAdapter σ] (store : Contents σ)
    (hash : ArrayBuffer → String) (numberText : JsNumber → String) (value : JsValue)
    (state : SessionShape) (hvalue : value.validatePersistedSessionState = .ok state)
    (pieceMap : PieceMapShape) (hmap : pieceMap ∈ state.pieceMaps) (manifest : ManifestShape)
    (hmanifest : JsValue.manifestOf state.manifests pieceMap = some manifest) (s : σ)
    (hready : store.Ready s) :
    (∃ result s', Revival.restoreResumeState hash numberText manifest pieceMap s =
        (.ok result, s') ∧
      ∀ d ∈ manifest.pieces, (d.index ∈ result.verifiedPieces ↔ d.index ∉ result.missingPieces)) ↔
    Resumable manifest pieceMap (manifest.intact hash (store.bytes s manifest.fileId)) := by
  have hmatch := accepted_match hvalue hmap hmanifest
  constructor
  · rintro ⟨result, s', hrestore, honce⟩
    have hnumbered := numbered_of_restored hrestore
    obtain ⟨result', s'', hrestore', hverified, hmissing⟩ :=
      restored_lists store hash numberText hready hmatch hnumbered
    rw [hrestore, Prod.mk.injEq, Except.ok.injEq] at hrestore'
    obtain ⟨rfl, -⟩ := hrestore'
    refine ⟨hnumbered, fun i piece hlast hlost halone => ?_, fun i piece hlast hv hi j d hd hj => ?_⟩
    · -- nothing but the lost piece has the number, so that it is in neither list
      obtain ⟨d, hd, hindex⟩ := hnumbered.placed hlast
      have hlost : Lost pieceMap i := ⟨piece, hlast, hlost⟩
      have hout : d.index ∉ result.missingPieces := by
        intro hmem
        obtain ⟨k, d', hd', hk, -, hnot⟩ := (hmissing _).1 hmem
        rw [halone k d' hd' (hk.trans hindex)] at hnot
        exact hnot hlost
      obtain ⟨k, d', hd', hk, hkept⟩ := (hverified _).1 ((honce d (List.mem_of_getElem? hd)).2 hout)
      rw [halone k d' hd' (hk.trans hindex)] at hkept
      exact hkept.not_lost hlost
    · -- another piece with the number of a verified one is missing under it
      obtain ⟨d₀, hd₀, hindex⟩ := hnumbered.placed hlast
      by_contra hne
      have hin : d₀.index ∈ result.verifiedPieces :=
        (hverified _).2 ⟨i, d₀, hd₀, rfl, piece, hlast, hv, hi⟩
      have hnone := hnumbered.no_entry hd hj hne
      exact (honce d₀ (List.mem_of_getElem? hd₀)).1 hin ((hmissing _).2
        ⟨j, d, hd, by rw [hj, hindex], by simp [Kept, hnone], by simp [Lost, hnone]⟩)
  · rintro ⟨hnumbered, hlisted, hsingle⟩
    obtain ⟨result, s', hrestore, hverified, hmissing⟩ :=
      restored_lists store hash numberText hready hmatch hnumbered
    refine ⟨result, s', hrestore, fun d hd => ?_⟩
    obtain ⟨j, hj⟩ := List.getElem?_of_mem hd
    constructor
    · intro hin hout
      obtain ⟨k, d', hd', hk, piece, hlast, hv, hi⟩ := (hverified _).1 hin
      obtain ⟨k', d'', hd'', hk', hnot, -⟩ := (hmissing _).1 hout
      obtain ⟨d₀, hd₀, hindex⟩ := hnumbered.placed hlast
      rw [hd'] at hd₀
      cases hd₀
      have hsame := hsingle k piece hlast hv hi k' d'' hd'' (by rw [hk', ← hk, hindex])
      subst hsame
      exact hnot ⟨piece, hlast, hv, hi⟩
    · intro hout
      by_cases hkept : Kept pieceMap (manifest.intact hash (store.bytes s manifest.fileId)) j
      · exact (hverified _).2 ⟨j, d, hj, rfl, hkept⟩
      · exfalso
        by_cases hlost : Lost pieceMap j
        · obtain ⟨piece, hlast, hodd⟩ := hlost
          refine hlisted j piece hlast hodd fun k d' hd' hk => ?_
          obtain ⟨d₀, hd₀, hindex⟩ := hnumbered.placed hlast
          rw [hj] at hd₀
          cases hd₀
          by_contra hne
          have hnone := hnumbered.no_entry hd' hk hne
          exact hout ((hmissing _).2
            ⟨k, d', hd', by rw [hk, hindex], by simp [Kept, hnone], by simp [Lost, hnone]⟩)
        · exact hout ((hmissing _).2 ⟨j, d, hj, rfl, hkept, hlost⟩)

namespace Sample

def numberField (key : String) (n : Nat) : String × JsValue := (key, .number (.ofNat n))

def stringField (key s : String) : String × JsValue := (key, .string s)

/-- A persisted session with one file of one piece, of this status. -/
def persisted (status : String) : JsValue :=
  .object [stringField "protocolVersion" CORE_PROTOCOL_VERSION, numberField "schemaVersion" 1,
    stringField "sessionId" "s", stringField "mode" "direct", numberField "updatedAt" 0,
    ("manifests", .array [.object [stringField "version" "1.0.0", stringField "fileId" "f",
      stringField "name" "n", numberField "size" 1, numberField "pieceSize" 1,
      numberField "pieceCount" 1, ("pieces", .array [.object [numberField "index" 0,
        numberField "offset" 0, numberField "size" 1]])]]),
    ("pieceMaps", .array [.object [stringField "fileId" "f", numberField "exportedAt" 0,
      ("pieces", .array [.object [numberField "index" 0, stringField "status" status,
        numberField "size" 1, numberField "receivedBytes" 0, numberField "retryCount" 0,
        numberField "updatedAt" 0]])]]),
    ("peers", .array [])]

def manifestShape : ManifestShape :=
  ⟨"f", .ofNat 1, .ofNat 1, .ofNat 1, [⟨.ofNat 0, .ofNat 0, .ofNat 1, none⟩]⟩

def pieceMapShape (status : String) : PieceMapShape :=
  ⟨"f", [⟨.ofNat 0, .string status, .ofNat 1, .ofNat 0, .ofNat 0⟩]⟩

def sessionShape (status : String) : SessionShape :=
  ⟨"s", [manifestShape], [pieceMapShape status]⟩

def emptied : MemoryStorageAdapter := { MemoryStorageAdapter.empty with sessionId := some "s" }

end Sample

theorem accepted_state_resumes_missing : ∃ result s',
    Revival.restoreResumeState (fun _ => "") (fun _ => "") Sample.manifestShape
      (Sample.pieceMapShape "missing") Sample.emptied = (.ok result, s') ∧
    ∀ d ∈ Sample.manifestShape.pieces,
      (d.index ∈ result.verifiedPieces ↔ d.index ∉ result.missingPieces) := by
  refine (accepted_state_resumes (MemoryStorageAdapter.contents "s") (fun _ => "") (fun _ => "")
    (Sample.persisted "missing") (Sample.sessionShape "missing") rfl
    (Sample.pieceMapShape "missing") List.mem_cons_self Sample.manifestShape rfl Sample.emptied
    rfl).2 ⟨?_, fun i piece hlast hlost => ?_, fun i piece hlast hv => ?_⟩
  · intro piece hpiece
    cases List.mem_singleton.1 hpiece
    exact ⟨0, _, rfl, rfl, rfl⟩
  · cases List.mem_singleton.1 (lastFor_mem hlast).1
    exact absurd hlost (by decide)
  · cases List.mem_singleton.1 (lastFor_mem hlast).1
    exact absurd hv (by decide)

/-- A piece that is recorded as received is in neither list, and is never asked for again. -/
theorem received_is_not_listed : ¬ ∀ (value : JsValue) (state : SessionShape),
    value.validatePersistedSessionState = .ok state →
    ∀ pieceMap ∈ state.pieceMaps, ∀ manifest : ManifestShape,
    JsValue.manifestOf state.manifests pieceMap = some manifest →
    ∀ s : MemoryStorageAdapter, s.requireSession = .ok "s" →
    ∃ result s', Revival.restoreResumeState (fun _ => "") (fun _ => "") manifest pieceMap s =
        (.ok result, s') ∧
      ∀ d ∈ manifest.pieces, (d.index ∈ result.verifiedPieces ↔ d.index ∉ result.missingPieces) := by
  intro h
  obtain ⟨result, s', hrestore, honce⟩ := h (Sample.persisted "received")
    (Sample.sessionShape "received") rfl (Sample.pieceMapShape "received") List.mem_cons_self
    Sample.manifestShape rfl Sample.emptied rfl
  have hresult : Revival.restoreResumeState (fun _ => "") (fun _ => "") Sample.manifestShape
      (Sample.pieceMapShape "received") Sample.emptied =
      (.ok ⟨[⟨.ofNat 0, .string "received"⟩], [], [], []⟩, Sample.emptied) := rfl
  rw [hresult, Prod.mk.injEq, Except.ok.injEq] at hrestore
  obtain ⟨rfl, -⟩ := hrestore
  have hneither := honce _ List.mem_cons_self
  simp at hneither

end PonsWarp.Core
