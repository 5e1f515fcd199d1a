import PonsWarp.Core.Machine
import PonsWarp.Data.Splice

set_option autoImplicit false

/-!
`ManifestGenerator`: how a file is cut into the pieces of its manifest.
-/

namespace PonsWarp.Core

open PonsWarp.Data

inductive FileHashPolicy where
  | pieceOnly
  | wholeFileIfSafe (maxBytes : Number)
  | workerIncremental
  deriving DecidableEq, Repr

structure ManifestOptions where
  pieceSize : Number
  includeFileHash : Bool
  maxFileHashBytes : Option Number
  fileId : Option FileId
  fileHashPolicy : Option FileHashPolicy

def assertSafeNonNegativeInteger (value : Number) (name : String) : Except Failure Unit :=
  if ¬ value.isSafeInteger ∨ value < 0 then
    .error (PonsWarpError "validation:invalid_number"
      (name ++ " must be a non-negative safe integer"))
  else .ok ()

theorem assertSafeNonNegativeInteger_natCast {n : Nat} (h : n ≤ MAX_SAFE_INTEGER) (name : String) :
    assertSafeNonNegativeInteger (n : Number) name = .ok () := by
  unfold assertSafeNonNegativeInteger
  have hnn : (0 : ℚ) ≤ (n : ℚ) := Nat.cast_nonneg n
  simp [Number.isSafeInteger_natCast.2 h, hnn]

namespace ManifestGenerator

def createWholeFileHash (hash : ArrayBuffer → String) (file : Blob) :
    FileHashPolicy → Except Failure (Option String)
  | .pieceOnly => .ok none
  | .workerIncremental => .error (PonsWarpError "manifest:worker_hash_unavailable"
      ("Worker incremental whole-file hashing is not bundled; " ++
        "use piece-only or whole-file-if-safe policy"))
  | .wholeFileIfSafe maxBytes =>
    if maxBytes < (file.data.length : Number) then
      .error (PonsWarpError "manifest:file_hash_too_large"
        "Whole-file hashing is gated until an incremental large-file hashing strategy is available")
    else .ok (some (hash file.data))

def policyOf (options : ManifestOptions) : FileHashPolicy :=
  options.fileHashPolicy.getD
    (if options.includeFileHash then
      .wholeFileIfSafe (options.maxFileHashBytes.getD (256 * 1024 * 1024))
    else .pieceOnly)

/-- `createFileId` is the random id of a file for which none is given. -/
def create (hash : ArrayBuffer → String) (createFileId : FileId) (file : Blob)
    (options : ManifestOptions) : Except Failure FileManifest :=
  match assertPositiveSafeInteger options.pieceSize "pieceSize" with
  | .error err => .error err
  | .ok () =>
    match assertSafeNonNegativeInteger file.data.length "fileSize" with
    | .error err => .error err
    | .ok () =>
      let size := options.pieceSize.num.toNat
      let pieces := (Engine.createPieceDescriptors file.data.length size).map fun p =>
        { p with hash := some (hash ((file.data.drop p.offset).take p.size)) }
      match createWholeFileHash hash file (policyOf options) with
      | .error err => .error err
      | .ok fileHash =>
        .ok ⟨"1.0.0", options.fileId.getD createFileId, file.name, file.data.length, file.type, size,
          pieces.length, fileHash, pieces⟩

/-- The manifests of `createSession` are those of the generator. -/
theorem createManifest_eq (hash : ArrayBuffer → String) (id fileId : FileId) (file : Blob)
    (pieceSize : Number) (includeFileHash : Bool) (h : file.data.length ≤ MAX_SAFE_INTEGER) :
    Engine.createManifest hash file pieceSize includeFileHash fileId =
      create hash id file ⟨pieceSize, includeFileHash, none, some fileId, none⟩ := by
  have hsafe := assertSafeNonNegativeInteger_natCast h "fileSize"
  unfold Engine.createManifest create
  cases assertPositiveSafeInteger pieceSize "pieceSize" with
  | error err => rfl
  | ok u =>
    simp only [hsafe, policyOf, Option.getD_none, Option.getD_some]
    cases includeFileHash with
    | false => simp [createWholeFileHash]
    | true =>
      have hgate : ((256 * 1024 * 1024 : Number) < (file.data.length : Number)) ↔
          256 * 1024 * 1024 < file.data.length := by
        rw [← Nat.cast_lt (α := ℚ)]
        norm_num
      simp only [createWholeFileHash, if_true, hgate, true_and]
      by_cases hlarge : 256 * 1024 * 1024 < file.data.length
      · simp only [if_pos hlarge]
      · simp only [if_neg hlarge]

/-- The content of the piece at a position, and its descriptor. -/
def content (data : ArrayBuffer) (pieceSize i : Nat) : ArrayBuffer :=
  excerpt data (i * pieceSize) pieceSize

def describe (hash : ArrayBuffer → String) (data : ArrayBuffer) (pieceSize i : Nat) :
    PieceDescriptor :=
  ⟨i, i * pieceSize, min pieceSize (data.length - i * pieceSize),
    some (hash (content data pieceSize i))⟩

theorem content_eq (data : ArrayBuffer) (pieceSize i : Nat) :
    excerpt data (i * pieceSize) (min pieceSize (data.length - i * pieceSize)) =
      content data pieceSize i := by
  refine List.ext_getElem? fun j => ?_
  simp only [content, getElem?_excerpt]
  by_cases hj : j < pieceSize
  · rw [if_pos hj]
    split
    · rfl
    · rename_i hout
      rw [List.getElem?_eq_none (by omega)]
  · rw [if_neg hj, if_neg (by omega)]

/-- What a generated manifest says of its file. -/
structure Describes (hash : ArrayBuffer → String) (data : ArrayBuffer) (m : FileManifest) :
    Prop where
  pieceSize : 0 < m.pieceSize
  size : m.size = data.length
  pieceCount : m.pieceCount = (data.length + m.pieceSize - 1) / m.pieceSize
  pieces : m.pieces = (List.range m.pieceCount).map (describe hash data m.pieceSize)

theorem create_describes {hash : ArrayBuffer → String} {id : FileId} {file : Blob}
    {options : ManifestOptions} {m : FileManifest} (h : create hash id file options = .ok m) :
    Describes hash file.data m ∧ m.mimeType = file.type ∧
      (m.pieceSize : Number) = options.pieceSize := by
  unfold create at h
  cases hs : assertPositiveSafeInteger options.pieceSize "pieceSize" with
  | error err => simp [hs] at h
  | ok u =>
    cases hf : assertSafeNonNegativeInteger (file.data.length : Number) "fileSize" with
    | error err => simp [hs, hf] at h
    | ok v =>
      cases hw : createWholeFileHash hash file (policyOf options) with
      | error err => simp [hs, hf, hw] at h
      | ok fileHash =>
        simp only [hs, hf, hw, Except.ok.injEq] at h
        obtain ⟨hint, hpos⟩ : options.pieceSize.isInt = true ∧ 0 < options.pieceSize := by
          unfold assertPositiveSafeInteger at hs
          split at hs
          · cases hs
          · rename_i hbad
            obtain ⟨hsafe, hlt⟩ := not_or.1 hbad
            have hsafe := not_not.1 hsafe
            simp only [Number.isSafeInteger, Bool.and_eq_true] at hsafe
            exact ⟨hsafe.1.1, not_le.1 hlt⟩
        have hnum : 0 < options.pieceSize.num := Rat.num_pos.2 hpos
        have hcast : ((options.pieceSize.num.toNat : ℕ) : ℚ) = options.pieceSize := by
          refine (Number.index?_eq_some.1 ?_).symm
          simp [Number.index?, hint, hpos.le]
        subst h
        refine ⟨⟨?_, rfl, ?_, ?_⟩, rfl, hcast⟩
        · simp only
          omega
        · simp [Engine.createPieceDescriptors]
        · simp only [Engine.createPieceDescriptors, List.map_map, List.length_map,
            List.length_range]
          refine List.map_congr_left fun i _ => ?_
          have hcontent := content_eq file.data options.pieceSize.num.toNat i
          simp only [excerpt] at hcontent
          simp [describe, hcontent]

/-- Without a whole-file hash, a positive piece size is all it takes. -/
theorem create_pieceOnly (hash : ArrayBuffer → String) (id : FileId) (file : Blob)
    (options : ManifestOptions) (hsize : assertPositiveSafeInteger options.pieceSize "pieceSize" = .ok ())
    (hfile : file.data.length ≤ MAX_SAFE_INTEGER) (hpolicy : policyOf options = .pieceOnly) :
    ∃ m, create hash id file options = .ok m := by
  have hsafe := assertSafeNonNegativeInteger_natCast hfile "fileSize"
  simp [create, hsize, hsafe, hpolicy, createWholeFileHash]

/-- The pieces of a file lie one behind the other and make it up. -/
structure Tiles (pieces : List PieceDescriptor) (size pieceSize : Nat) : Prop where
  first : ∀ p, pieces[0]? = some p → p.offset = 0
  contiguous : ∀ i p q, pieces[i]? = some p → pieces[i + 1]? = some q →
    q.offset = p.offset + p.size
  sizes : ∀ p ∈ pieces, 1 ≤ p.size ∧ p.size ≤ pieceSize
  total : (pieces.map (·.size)).sum = size

namespace Describes

variable {hash : ArrayBuffer → String} {data : ArrayBuffer} {m : FileManifest}

theorem getElem? (h : Describes hash data m) (i : Nat) :
    m.pieces[i]? = if i < m.pieceCount then some (describe hash data m.pieceSize i) else none := by
  rw [h.pieces, List.getElem?_map]
  by_cases hi : i < m.pieceCount
  · rw [List.getElem?_range hi, if_pos hi]
    rfl
  · rw [List.getElem?_eq_none (by simpa using hi), if_neg hi]
    rfl

theorem find? (h : Describes hash data m) {i : Nat} (hi : i < m.pieceCount) :
    m.pieces.find? (fun p => p.index = i) = some (describe hash data m.pieceSize i) := by
  rw [h.pieces, List.find?_map, Option.map_eq_some_iff]
  refine ⟨i, ?_, rfl⟩
  rw [List.find?_range_eq_some]
  refine ⟨by simp [describe], List.mem_range.2 hi, fun j hj => ?_⟩
  have hne : j ≠ i := by omega
  simp [describe, hne]

/-- A piece begins inside the file. -/
theorem start (h : Describes hash data m) {i : Nat} (hi : i < m.pieceCount) :
    i * m.pieceSize < data.length := by
  rw [h.pieceCount] at hi
  exact mul_lt_of_lt_ceil h.pieceSize hi

theorem flatten (h : Describes hash data m) :
    ((List.range m.pieceCount).map (content data m.pieceSize)).flatten = data := by
  have hall := flatten_excerpts data m.pieceSize m.pieceCount
  have hreach := le_ceil_mul data.length h.pieceSize
  rw [← h.pieceCount] at hreach
  rwa [List.take_of_length_le hreach] at hall

theorem tiles (h : Describes hash data m) : Tiles m.pieces m.size m.pieceSize := by
  constructor
  · intro p hp
    rw [h.getElem?] at hp
    split at hp
    · cases hp
      simp [describe]
    · cases hp
  · intro i p q hp hq
    rw [h.getElem?] at hp hq
    split at hp
    · split at hq
      · rename_i hnext
        have hstart := h.start hnext
        cases hp
        cases hq
        simp only [describe]
        rw [Nat.succ_mul] at hstart ⊢
        omega
      · cases hq
    · cases hp
  · intro p hp
    obtain ⟨i, hi⟩ := List.getElem?_of_mem hp
    rw [h.getElem?] at hi
    split at hi
    · rename_i hlt
      have hstart := h.start hlt
      have hpos := h.pieceSize
      cases hi
      simp only [describe]
      omega
    · cases hi
  · calc (m.pieces.map (·.size)).sum
        = (((List.range m.pieceCount).map (content data m.pieceSize)).map List.length).sum := by
          rw [h.pieces, List.map_map, List.map_map]
          congr 1
          refine List.map_congr_left fun i _ => ?_
          simp [describe, content]
      _ = data.length := by rw [← List.length_flatten, h.flatten]
      _ = m.size := h.size.symm

end Describes

end ManifestGenerator

end PonsWarp.Core
