import PonsWarp.Core.ChunkSizes

set_option autoImplicit false

/-!
The chunk size of a data channel beside that of the engine: when what they are clamped to is
within the ceiling.
-/

namespace PonsWarp.Webrtc

open PonsWarp.Core

def KIB : Nat := 1024

def clampDataChannelChunkSize (requestedBytes : JsNumber) (maxMessageSize : Option JsNumber) :
    JsNumber :=
  let protocolFloor := JsNumber.ofNat (16 * KIB)
  let hardCap := JsNumber.ofNat (256 * KIB)
  let requested := if requestedBytes.isFinite then Math.floor requestedBytes else protocolFloor
  let reportedMax := match maxMessageSize with
    | some size => if (JsNumber.ofNat 0).lt size then Math.floor size else hardCap
    | none => hardCap
  let upper := Math.min hardCap reportedMax
  if requested.isNonPositive then protocolFloor
  else if requested.lt protocolFloor then Math.min requested upper
  else Math.min (requested.max protocolFloor) upper

theorem min_ofNat (m n : Nat) :
    Math.min (.ofNat m) (.ofNat n) = .ofNat (min m n) := by
  simp [Math.min, JsNumber.ofNat]

theorem max_ofNat (m n : Nat) :
    JsNumber.max (.ofNat m) (.ofNat n) = .ofNat (max m n) := by
  simp [JsNumber.max_finite, JsNumber.ofNat]

theorem lt_ofNat (m n : Nat) : (JsNumber.ofNat m).lt (.ofNat n) = decide (m < n) := by
  simp [JsNumber.lt, JsNumber.ofNat]

theorem floor_ofNat (n : Nat) : Math.floor (.ofNat n) = .ofNat n := by
  simp [Math.floor, JsNumber.ofNat, JsNumber.floor_natCast]

/-- A finite size that is asked for, from one up, is a natural number once it is rounded. -/
theorem floor_usable {x : Number} (hx : 1 ≤ x) :
    Math.floor (.finite x) = .ofNat x.floor.toNat ∧ 0 < x.floor.toNat := by
  have hpos := JsNumber.floor_pos_iff.2 hx
  refine ⟨?_, by omega⟩
  rw [Math.floor, JsNumber.ofNat, ← Int.cast_natCast, Int.toNat_of_nonneg hpos.le]

/-- The size for a number of bytes that is asked for. -/
theorem clamp_ofNat {n cap : Nat} (hn : 0 < n) (hcap : 0 < cap) {requestedBytes : JsNumber}
    (h : (if requestedBytes.isFinite then Math.floor requestedBytes else .ofNat (16 * KIB)) =
      .ofNat n) :
    clampDataChannelChunkSize requestedBytes (some (.ofNat cap)) =
      .ofNat (min n (min (256 * KIB) cap)) := by
  have hpos : (JsNumber.ofNat n).isNonPositive = false := by
    simpa [JsNumber.ofNat, JsNumber.isNonPositive] using hn.ne'
  simp only [clampDataChannelChunkSize, h, lt_ofNat, hcap, decide_true, if_true, floor_ofNat,
    min_ofNat, max_ofNat, hpos, Bool.false_eq_true, if_false]
  split
  · rfl
  · rename_i hfloor
    have hle : 16 * KIB ≤ n := by simpa using hfloor
    rw [max_eq_left hle]

/-- What is no size to ask for. -/
theorem clamp_of_nonPositive {x : Number} (hx : ¬ 1 ≤ x) (maxMessageSize : Option JsNumber) :
    clampDataChannelChunkSize (.finite x) maxMessageSize = .ofNat (16 * KIB) := by
  have hfloor : ¬ 0 < x.floor := fun hpos => hx (JsNumber.floor_pos_iff.1 hpos)
  have hnonpos : (x.floor : Number) ≤ 0 := Int.cast_nonpos.2 (not_lt.1 hfloor)
  simp [clampDataChannelChunkSize, JsNumber.isFinite, Math.floor, JsNumber.isNonPositive, hnonpos]

theorem clamp_of_usable {x : Number} (hx : 1 ≤ x) {cap : Nat} (hcap : 0 < cap) :
    clampDataChannelChunkSize (.finite x) (some (.ofNat cap)) =
      .ofNat (min x.floor.toNat (min (256 * KIB) cap)) := by
  obtain ⟨hfloor, hpos⟩ := floor_usable hx
  exact clamp_ofNat hpos hcap (by rw [JsNumber.isFinite, if_pos rfl, hfloor])

/-- What is asked for without being a number of bytes is the protocol's floor. -/
theorem clamp_of_not_finite {requestedBytes : JsNumber} (h : requestedBytes.isFinite = false)
    {cap : Nat} (hcap : 0 < cap) :
    clampDataChannelChunkSize requestedBytes (some (.ofNat cap)) =
      .ofNat (min (16 * KIB) (min (256 * KIB) cap)) :=
  clamp_ofNat (by decide) hcap (by rw [h]; rfl)

/-- The floor of the protocol is above the ceiling only for a size that is not above zero. -/
theorem within_clampDataChannelChunkSize {cap : Nat} (hcap : 0 < cap) (requestedBytes : JsNumber) :
    (clampDataChannelChunkSize requestedBytes (some (.ofNat cap))).Within (min cap (256 * KIB)) ↔
      requestedBytes.isFinite = false ∨ requestedBytes.Usable ∨ 16 * KIB ≤ cap := by
  cases hfinite : requestedBytes.isFinite with
  | false =>
    rw [clamp_of_not_finite hfinite hcap, JsNumber.within_ofNat, KIB]
    exact iff_of_true (by omega) (.inl rfl)
  | true =>
    cases requestedBytes with
    | nan => cases hfinite
    | infinity negative => cases hfinite
    | finite x =>
      by_cases hx : 1 ≤ x
      · obtain ⟨-, hpos⟩ := floor_usable hx
        rw [clamp_of_usable hx hcap, JsNumber.within_ofNat, KIB]
        exact iff_of_true (by omega) (.inr (.inl ⟨x, rfl, hx⟩))
      · have hunusable : ¬ JsNumber.Usable (.finite x) := by
          rintro ⟨y, heq, hy⟩
          cases heq
          exact hx hy
        rw [clamp_of_nonPositive hx, JsNumber.within_ofNat]
        simp only [Bool.true_eq_false, hunusable, false_or, KIB]
        omega

theorem clampDataChannelChunkSize_mono {cap : Nat} (hcap : 0 < cap) {a b : JsNumber}
    (ha : a.Usable) (hab : a.AtMost b) :
    (clampDataChannelChunkSize a (some (.ofNat cap))).AtMost
      (clampDataChannelChunkSize b (some (.ofNat cap))) := by
  obtain ⟨x, y, rfl, rfl, hxy⟩ := hab
  obtain ⟨_, heq, hx⟩ := ha
  cases heq
  rw [clamp_of_usable hx hcap, clamp_of_usable (hx.trans hxy) hcap, JsNumber.atMost_ofNat]
  have hfloor : x.floor ≤ y.floor := Rat.floor_monotone hxy
  omega

/-- The sizes that both clamps give for a request, and the frames of an engine that is tuned to
it while no larger upload is under way. -/
structure RespectsCeiling (cap : Nat) (requested : JsNumber) : Prop where
  transfer : (JsNumber.clampTransferChunkBytes requested (.ofNat cap)).Within cap
  dataChannel : (clampDataChannelChunkSize requested (some (.ofNat cap))).Within
    (min cap (256 * KIB))
  transferMono : ∀ larger, requested.Usable → requested.AtMost larger →
    (JsNumber.clampTransferChunkBytes requested (.ofNat cap)).AtMost
      (JsNumber.clampTransferChunkBytes larger (.ofNat cap))
  dataChannelMono : ∀ larger, requested.Usable → requested.AtMost larger →
    (clampDataChannelChunkSize requested (some (.ofNat cap))).AtMost
      (clampDataChannelChunkSize larger (some (.ofNat cap)))
  frames : ∀ {σ : Type} [StorageAdapter σ] (cfg : Config) (w w' : World σ),
    w.UploadsWithin cap →
    Data.Run (World.step cfg) (fun _ x => ¬ x.2.Tunes) (w.applyTransferTuning requested cap) w' →
    SentWithin cap (w'.engine.log.drop w.engine.log.length)

/-- The ceiling is respected exactly when the request is a finite number from one up or the
default is within the ceiling; the clamp of the data channel alone, when the request is not
finite as well, or the floor of the protocol is within the ceiling. -/
theorem ceiling_is_respected {cap : Nat} (hcap : 0 < cap) (requested : JsNumber) :
    (RespectsCeiling cap requested ↔
      requested.Usable ∨ DEFAULT_TRANSFER_CHUNK_BYTES ≤ cap) ∧
    ((clampDataChannelChunkSize requested (some (.ofNat cap))).Within (min cap (256 * KIB)) ↔
      requested.isFinite = false ∨ requested.Usable ∨ 16 * KIB ≤ cap) := by
  have htransfer := JsNumber.within_clampTransferChunkBytes hcap requested
  have hchannel := within_clampDataChannelChunkSize hcap requested
  refine ⟨⟨fun h => htransfer.1 h.transfer, fun h => ?_⟩, hchannel⟩
  have hwithin := htransfer.2 h
  exact {
    transfer := hwithin
    dataChannel := hchannel.2 <| h.elim (fun husable => .inr (.inl husable)) fun hdefault =>
      .inr (.inr (Nat.le_trans (by decide) hdefault))
    transferMono := fun _ husable hle => JsNumber.clampTransferChunkBytes_mono hcap husable hle
    dataChannelMono := fun _ husable hle => clampDataChannelChunkSize_mono hcap husable hle
    frames := fun _ _ _ huploads hrun => World.frames_after_tuning huploads hwithin hrun }

theorem ceiling_is_respected_sample :
    (RespectsCeiling 32768 (.finite 65536) ↔
      JsNumber.Usable (.finite 65536) ∨ DEFAULT_TRANSFER_CHUNK_BYTES ≤ 32768) ∧
    ((clampDataChannelChunkSize (.finite 65536) (some (.ofNat 32768))).Within
        (min 32768 (256 * KIB)) ↔
      JsNumber.isFinite (.finite 65536) = false ∨ JsNumber.Usable (.finite 65536) ∨
        16 * KIB ≤ 32768) :=
  ceiling_is_respected (by decide) (.finite 65536)

/-- Asked for no bytes under a ceiling of one KiB, both clamps give more. -/
theorem defaults_pass_the_ceiling :
    JsNumber.clampTransferChunkBytes (.ofNat 0) (.ofNat 1024) = .ofNat 65536 ∧
    clampDataChannelChunkSize (.ofNat 0) (some (.ofNat 1024)) = .ofNat 16384 ∧
    ¬ (JsNumber.clampTransferChunkBytes (.ofNat 0) (.ofNat 1024)).Within 1024 ∧
    ¬ (clampDataChannelChunkSize (.ofNat 0) (some (.ofNat 1024))).Within
      (min 1024 (256 * KIB)) := by
  have hunusable : ¬ JsNumber.Usable (.ofNat 0) := by
    rintro ⟨x, heq, hx⟩
    cases heq
    exact absurd hx (by decide)
  have hzero : ¬ (1 : Number) ≤ ((0 : Nat) : Number) := by decide
  have htransfer := JsNumber.clamp_of_unusable hunusable (.ofNat 1024)
  have hchannel := clamp_of_nonPositive hzero (some (.ofNat 1024))
  refine ⟨htransfer, hchannel, ?_, ?_⟩
  · rw [htransfer, JsNumber.within_ofNat]
    decide
  · rw [JsNumber.ofNat, hchannel, JsNumber.within_ofNat]
    decide

end PonsWarp.Webrtc
