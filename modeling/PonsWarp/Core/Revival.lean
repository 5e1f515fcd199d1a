import PonsWarp.Core.Contents
import PonsWarp.Core.PersistedValue

set_option autoImplicit false

/-!
Restoring what the validator has accepted. Of a piece only its index and its status decide
what is thrown and what is listed, so nothing else is kept of it here.
-/

namespace PonsWarp.Core

open PonsWarp.Data

structure PieceSlot where
  index : JsNumber
  status : JsValue

structure RevivedPieces where
  slots : List PieceSlot
  verifiedPieces : List JsNumber
  missingPieces : List JsNumber
  discardedPieces : List JsNumber

namespace PieceSlot

/-- The slot under an index, with its position. -/
def find? (slots : List PieceSlot) (index : JsNumber) : Option (Nat × PieceSlot) :=
  index.index?.bind fun i => (slots[i]?).bind fun slot =>
    if slot.index = index then some (i, slot) else none

def update (numberText : JsNumber → String) (slots : List PieceSlot) (index : JsNumber)
    (patch : JsValue → JsValue) : Except Failure (List PieceSlot) :=
  (find? slots index).elim
    (.error (PonsWarpError "piece:not_found" ("Unknown piece index " ++ numberText index)))
    fun found => .ok (slots.set found.1 { found.2 with status := patch found.2.status })

def getVerifiedPieces (slots : List PieceSlot) : List JsNumber :=
  (slots.filter (·.status.isString "verified")).map (·.index)

def getMissingPieces (slots : List PieceSlot) : List JsNumber :=
  (slots.filter fun s => s.status.isString "missing" || s.status.isString "failed").map (·.index)

/-- What `importPieceMap` makes of a status. -/
def imported (status : JsValue) : JsValue :=
  if status.isString "requested" || status.isString "receiving" then .string "missing" else status

def importPieces (numberText : JsNumber → String) :
    List PieceStateShape → List PieceSlot → Except Failure (List PieceSlot)
  | [], slots => .ok slots
  | piece :: rest, slots =>
    (update numberText slots piece.index fun _ => imported piece.status).bind
      (importPieces numberText rest)

/-- `markFailed` and then `resetFailedToMissing`. -/
def discard (numberText : JsNumber → String) (slots : List PieceSlot) (index : JsNumber) :
    Except Failure (List PieceSlot) :=
  (update numberText slots index fun _ => .string "failed").bind fun slots =>
    update numberText slots index fun status =>
      if status.isString "failed" then .string "missing" else status

end PieceSlot

/-- `verifyPiece` on a descriptor of any shape. -/
def PieceDescriptorShape.verify (hash : ArrayBuffer → String) (descriptor : PieceDescriptorShape)
    (data : ArrayBuffer) : Bool :=
  match descriptor.hash with
  | none => true
  | some h => h = "" || JsNumber.ofNat data.length = descriptor.size && hash data = h

namespace Revival

variable {σ : Type} [StorageAdapter σ]

open PieceSlot

/-- The loop of `restoreResumeState` over the recorded pieces. -/
def restoreLoop (hash : ArrayBuffer → String) (numberText : JsNumber → String)
    (manifest : ManifestShape) :
    List JsNumber → List PieceSlot → List JsNumber → σ → Except Failure RevivedPieces × σ
  | [], slots, discarded, s =>
    (.ok ⟨slots, getVerifiedPieces slots, getMissingPieces slots, discarded⟩, s)
  | index :: rest, slots, discarded, s =>
    match index.index?.bind fun i => (manifest.pieces[i]?).map fun d => (i, d) with
    | none => (.error ⟨none, "Cannot read properties of undefined"⟩, s)
    | some (i, descriptor) =>
      match StorageAdapter.readPiece manifest.fileId i s with
      | (.error err, s) => (.error err, s)
      | (.ok data, s) =>
        if data.elim false (descriptor.verify hash) then
          restoreLoop hash numberText manifest rest slots discarded s
        else
          match StorageAdapter.deletePiece manifest.fileId i s with
          | (.error err, s) => (.error err, s)
          | (.ok (), s) =>
            match discard numberText slots index with
            | .error err => (.error err, s)
            | .ok slots =>
              restoreLoop hash numberText manifest rest slots (discarded ++ [index]) s

def restoreResumeState (hash : ArrayBuffer → String) (numberText : JsNumber → String)
    (manifest : ManifestShape) (pieceMap : PieceMapShape) (s : σ) :
    Except Failure RevivedPieces × σ :=
  match JsValue.validatePieceMapForManifest manifest pieceMap with
  | .error err => (.error err, s)
  | .ok () =>
    let slots := manifest.pieces.map fun piece => ⟨piece.index, .string "missing"⟩
    match importPieces numberText pieceMap.pieces slots with
    | .error err => (.error err, s)
    | .ok slots => restoreLoop hash numberText manifest (getVerifiedPieces slots) slots [] s

end Revival

namespace PieceSlot

variable {numberText : JsNumber → String} {slots slots' slots'' : List PieceSlot}
  {index : JsNumber} {patch : JsValue → JsValue} {g h : Nat → JsValue → JsValue}

theorem find?_eq_some {i : Nat} {slot : PieceSlot} :
    find? slots index = some (i, slot) ↔
      index = .ofNat i ∧ slots[i]? = some slot ∧ slot.index = index := by
  unfold find?
  constructor
  · intro h
    obtain ⟨j, hj, h⟩ := Option.bind_eq_some_iff.1 h
    obtain ⟨t, ht, h⟩ := Option.bind_eq_some_iff.1 h
    split at h
    · cases h
      exact ⟨JsNumber.index?_eq_some.1 hj, ht, ‹_›⟩
    · cases h
  · rintro ⟨rfl, hs, hindex⟩
    simp [hs, hindex]

/-- The slots are the same, with new statuses. -/
def Restated (g : Nat → JsValue → JsValue) (slots slots' : List PieceSlot) : Prop :=
  ∀ j, slots'[j]? = (slots[j]?).map fun s : PieceSlot => { s with status := g j s.status }

theorem Restated.trans (h₁ : Restated g slots slots') (h₂ : Restated h slots' slots'') :
    Restated (fun j status => h j (g j status)) slots slots'' := by
  intro j
  rw [h₂ j, h₁ j, Option.map_map]
  rfl

theorem Restated.known (h₁ : Restated g slots slots') :
    (find? slots' index).isSome = (find? slots index).isSome := by
  unfold find?
  cases index.index? with
  | none => rfl
  | some i =>
    simp only [Option.bind_some, h₁ i]
    cases slots[i]? with
    | none => rfl
    | some slot =>
      simp only [Option.map_some, Option.bind_some]
      split <;> rfl

theorem update_isOk (numberText : JsNumber → String) (patch : JsValue → JsValue) :
    (∃ slots', update numberText slots index patch = .ok slots') ↔ (find? slots index).isSome := by
  unfold update
  cases find? slots index <;> simp

theorem update_restates (h : update numberText slots index patch = .ok slots') :
    Restated (fun j status => if index = .ofNat j then patch status else status) slots slots' := by
  unfold update at h
  cases hf : find? slots index with
  | none => simp [hf] at h
  | some found =>
    obtain ⟨i, slot⟩ := found
    simp only [hf, Option.elim_some, Except.ok.injEq] at h
    obtain ⟨rfl, hs, -⟩ := find?_eq_some.1 hf
    intro j
    rw [← h, List.getElem?_set]
    by_cases hij : i = j
    · subst hij
      obtain ⟨hlt, -⟩ := List.getElem?_eq_some_iff.1 hs
      have hslot := Option.some.inj ((List.getElem?_eq_getElem hlt).symm.trans hs)
      simp [hlt, hslot]
    · have hne : JsNumber.ofNat i ≠ JsNumber.ofNat j := fun he => hij (JsNumber.ofNat_inj.1 he)
      simp [hij, hne]

/-- The last of the entries for a position. -/
def lastFor : List PieceStateShape → Nat → Option PieceStateShape
  | [], _ => none
  | piece :: rest, j => (lastFor rest j).or (if piece.index = .ofNat j then some piece else none)

theorem importPieces_isOk (numberText : JsNumber → String) (pieces : List PieceStateShape) :
    (∃ slots', importPieces numberText pieces slots = .ok slots') ↔
      ∀ piece ∈ pieces, (find? slots piece.index).isSome := by
  induction pieces generalizing slots with
  | nil => simp [importPieces]
  | cons piece rest ih =>
    simp only [importPieces, List.mem_cons, forall_eq_or_imp]
    constructor
    · rintro ⟨slots', h⟩
      cases hu : update numberText slots piece.index fun _ => imported piece.status with
      | error err => simp [hu, Except.bind] at h
      | ok mid =>
        simp only [hu, Except.bind] at h
        refine ⟨(update_isOk _ _).1 ⟨mid, hu⟩, fun p hp => ?_⟩
        rw [← (update_restates hu).known]
        exact ih.1 ⟨slots', h⟩ p hp
    · rintro ⟨hfirst, hrest⟩
      obtain ⟨mid, hu⟩ := (update_isOk numberText fun _ => imported piece.status).2 hfirst
      obtain ⟨slots', h⟩ := ih.2 fun p hp => by
        rw [(update_restates hu).known]
        exact hrest p hp
      exact ⟨slots', by simp only [hu, Except.bind, h]⟩

theorem importPieces_restates {pieces : List PieceStateShape}
    (h : importPieces numberText pieces slots = .ok slots') :
    Restated (fun j status => (lastFor pieces j).elim status fun p => imported p.status)
      slots slots' := by
  induction pieces generalizing slots with
  | nil =>
    cases h
    intro j
    simp [lastFor]
  | cons piece rest ih =>
    cases hu : update numberText slots piece.index fun _ => imported piece.status with
    | error err => simp [importPieces, hu, Except.bind] at h
    | ok mid =>
      simp only [importPieces, hu, Except.bind] at h
      have hboth := (update_restates hu).trans (ih h)
      intro j
      rw [hboth j]
      congr 2
      funext s
      cases hl : lastFor rest j with
      | some p => simp [lastFor, hl]
      | none =>
        simp only [lastFor, hl, Option.none_or, Option.elim_none]
        split <;> rfl

theorem discard_restates (numberText : JsNumber → String) (hknown : (find? slots index).isSome) :
    ∃ slots', discard numberText slots index = .ok slots' ∧
      Restated (fun j status => if index = .ofNat j then .string "missing" else status)
        slots slots' := by
  obtain ⟨mid, hfailed⟩ := (update_isOk numberText fun _ => .string "failed").2 hknown
  have hmid := update_restates hfailed
  obtain ⟨slots', hreset⟩ := (update_isOk numberText fun status =>
    if status.isString "failed" then .string "missing" else status).2 (hmid.known.trans hknown)
  refine ⟨slots', by simp only [discard, hfailed, Except.bind, hreset], fun j => ?_⟩
  rw [hmid.trans (update_restates hreset) j]
  congr 2
  funext s
  by_cases hi : index = .ofNat j <;> simp [hi, JsValue.isString]

theorem mem_listed {p : PieceSlot → Bool} {x : JsNumber} :
    x ∈ (slots.filter p).map (·.index) ↔
      ∃ (k : Nat) (slot : PieceSlot), slots[k]? = some slot ∧ p slot = true ∧ slot.index = x := by
  rw [List.mem_map]
  constructor
  · rintro ⟨slot, hmem, hindex⟩
    obtain ⟨hslot, hp⟩ := List.mem_filter.1 hmem
    obtain ⟨k, hk⟩ := List.getElem?_of_mem hslot
    exact ⟨k, slot, hk, hp, hindex⟩
  · rintro ⟨k, slot, hk, hp, hindex⟩
    exact ⟨slot, List.mem_filter.2 ⟨List.mem_of_getElem? hk, hp⟩, hindex⟩

/-- Where the verified slots have their positions for indices, none is listed twice. -/
theorem nodup_getVerifiedPieces (hplaced : ∀ (k : Nat) (slot : PieceSlot), slots[k]? = some slot →
    slot.status.isString "verified" → slot.index = .ofNat k) : (getVerifiedPieces slots).Nodup := by
  unfold getVerifiedPieces List.Nodup
  rw [List.pairwise_map, List.pairwise_filter, List.pairwise_iff_getElem]
  intro i j hi hj hij hvi hvj hsame
  rw [hplaced i _ (List.getElem?_eq_getElem hi) hvi,
    hplaced j _ (List.getElem?_eq_getElem hj) hvj, JsNumber.ofNat_inj] at hsame
  omega

end PieceSlot

/-- The stored bytes of a position pass the check of its descriptor. -/
def ManifestShape.intact (hash : ArrayBuffer → String) (manifest : ManifestShape)
    (stored : Nat → Option ArrayBuffer) (i : Nat) : Bool :=
  (manifest.pieces[i]?).elim false fun d => (stored i).elim false (d.verify hash)

namespace Revival

variable {σ : Type} [StorageAdapter σ]

open PieceSlot

/-- The loop discards what it finds damaged, and touches nothing else. -/
theorem restoreLoop_restates (store : Contents σ) (hash : ArrayBuffer → String)
    (numberText : JsNumber → String) (manifest : ManifestShape) {s : σ} (hready : store.Ready s)
    {recorded : List JsNumber} (hnodup : recorded.Nodup) (slots : List PieceSlot)
    (hknown : ∀ x ∈ recorded, (find? slots x).isSome)
    (hpiece : ∀ x ∈ recorded, ∃ i d, x = .ofNat i ∧ manifest.pieces[i]? = some d)
    (discarded : List JsNumber) :
    ∃ slots' discarded' s', restoreLoop hash numberText manifest recorded slots discarded s =
        (.ok ⟨slots', getVerifiedPieces slots', getMissingPieces slots', discarded'⟩, s') ∧
      Restated (fun j status =>
        if .ofNat j ∈ recorded ∧
            manifest.intact hash (store.bytes s manifest.fileId) j = false then .string "missing"
        else status) slots slots' := by
  induction recorded generalizing slots discarded s with
  | nil => exact ⟨slots, discarded, s, rfl, fun j => by simp⟩
  | cons x rest ih =>
    obtain ⟨i, d, rfl, hd⟩ := hpiece x List.mem_cons_self
    obtain ⟨hnot, hnodup⟩ := List.nodup_cons.1 hnodup
    have hfound : (JsNumber.ofNat i).index?.bind (fun i => (manifest.pieces[i]?).map fun d => (i, d)) =
        some (i, d) := by simp [hd]
    have hread := store.read s manifest.fileId i hready
    have hintact : manifest.intact hash (store.bytes s manifest.fileId) i =
        (store.bytes s manifest.fileId i).elim false (d.verify hash) := by
      simp [ManifestShape.intact, hd]
    cases hv : (store.bytes s manifest.fileId i).elim false (d.verify hash) with
    | true =>
      obtain ⟨slots', discarded', s', hloop, hrestated⟩ := ih hready hnodup slots
        (fun y hy => hknown y (List.mem_cons_of_mem _ hy))
        (fun y hy => hpiece y (List.mem_cons_of_mem _ hy)) discarded
      refine ⟨slots', discarded', s', ?_, fun j => ?_⟩
      · simp only [restoreLoop, hfound, hread, hv, if_true]
        exact hloop
      · rw [hrestated j]
        congr 2
        funext slot
        by_cases hij : i = j
        · subst hij
          simp [hintact, hv]
        · have hne : ¬ j = i := fun he => hij he.symm
          simp [JsNumber.ofNat_inj, hne]
    | false =>
      obtain ⟨s₁, hdelete, hready₁, hbytes⟩ := store.delete s manifest.fileId i hready
      obtain ⟨slots₁, hdiscard, hrestated₁⟩ := discard_restates numberText
        (hknown (.ofNat i) List.mem_cons_self)
      obtain ⟨slots', discarded', s', hloop, hrestated⟩ := ih hready₁ hnodup slots₁
        (fun y hy => hrestated₁.known.trans (hknown y (List.mem_cons_of_mem _ hy)))
        (fun y hy => hpiece y (List.mem_cons_of_mem _ hy)) (discarded ++ [.ofNat i])
      refine ⟨slots', discarded', s', ?_, fun j => ?_⟩
      · simp only [restoreLoop, hfound, hread, hv, hdelete, hdiscard, Bool.false_eq_true, if_false]
        exact hloop
      · rw [hrestated₁.trans hrestated j]
        congr 2
        funext slot
        by_cases hij : i = j
        · subst hij
          simp [hintact, hv, hnot]
        · have hne : ¬ j = i := fun he => hij he.symm
          have hsame : manifest.intact hash (store.bytes s₁ manifest.fileId) j =
              manifest.intact hash (store.bytes s manifest.fileId) j := by
            simp [ManifestShape.intact, hbytes, hne]
          simp [JsNumber.ofNat_inj, hij, hne, hsame]

end Revival

end PonsWarp.Core
