import Mathlib.Data.Rat.Floor
import Mathlib.Tactic.Linarith
import PonsWarp.Core.PersistedValue

set_option autoImplicit false

/-!
The congestion window of a transfer: it shrinks by three tenths where the path is congested and
grows by a fixed step where it is clear. Numbers are exact here.
-/

namespace PonsWarp.Webrtc

open Core

inductive CandidatePathKind
  | host | srflx | relay | unknown
  deriving DecidableEq, Repr

structure TransferTuningProfile where
  pathKind : CandidatePathKind
  chunkSizeBytes : Number
  minInFlightBytes : Number
  initialInFlightBytes : Number
  maxInFlightBytes : Number
  deriving DecidableEq, Repr

def TransferTuningProfile.direct (profile : TransferTuningProfile) : Bool :=
  profile.pathKind = .host ∨ profile.pathKind = .srflx

def DIRECT_HOST_TRANSFER_TUNING_PROFILE : TransferTuningProfile where
  pathKind := .host
  chunkSizeBytes := 64 * 1024
  minInFlightBytes := 2 * 1048576
  initialInFlightBytes := 4 * 1048576
  maxInFlightBytes := 8 * 1048576

def RELAY_TRANSFER_TUNING_PROFILE : TransferTuningProfile where
  pathKind := .relay
  chunkSizeBytes := 32 * 1024
  minInFlightBytes := 512 * 1024
  initialInFlightBytes := 1048576
  maxInFlightBytes := 2 * 1048576

structure AdaptiveCongestionSnapshot where
  cwndBytes : Number
  estimatedRttMs : Number
  estimatedBwBps : Number
  recommendedBatchChunks : Number
  deriving DecidableEq, Repr

/-- `minRtt` is absent where the program has infinity. -/
structure AdaptiveCongestionController where
  cwndBytes : Number
  minCwnd : Number
  maxCwnd : Number
  estimatedRttMs : Number := 10
  estimatedBwBps : Number := 0
  minRtt : Option Number := none
  lastUpdateTime : Number := 0
  chunkSizeBytes : Number
  started : Bool := false
  direct : Bool
  deriving DecidableEq, Repr

/-- `Math.max(0, x) > y`; every comparison with `NaN` is false. -/
def exceeds (x : JsNumber) (y : Number) : Bool :=
  match x with
  | .finite x => y < max 0 x
  | .nan => false
  | .infinity negative => if negative then y < 0 else true

/-- `Math.max(0, x) < y`. -/
def staysBelow (x : JsNumber) (y : Number) : Bool :=
  match x with
  | .finite x => max 0 x < y
  | .nan => false
  | .infinity negative => if negative then 0 < y else false

theorem pos_of_staysBelow {x : JsNumber} {y : Number} (h : staysBelow x y) : 0 < y := by
  cases x with
  | finite x => exact lt_of_le_of_lt (le_max_left 0 x) (by simpa [staysBelow] using h)
  | nan => simp [staysBelow] at h
  | infinity negative => cases negative <;> simp_all [staysBelow]

theorem not_exceeds_of_staysBelow {x : JsNumber} {y z : Number} (h : staysBelow x y)
    (hz : y ≤ z) : exceeds x z = false := by
  cases x with
  | finite x =>
    have h : max 0 x < y := by simpa [staysBelow] using h
    simpa only [exceeds, decide_eq_false_iff_not, not_lt] using (h.trans_le hz).le
  | nan => rfl
  | infinity negative =>
    have h := pos_of_staysBelow h
    cases negative <;> simp_all [staysBelow, exceeds]
    linarith

namespace AdaptiveCongestionController

/-- The constructor. -/
def new (profile : TransferTuningProfile) : AdaptiveCongestionController where
  minCwnd := profile.minInFlightBytes
  maxCwnd := profile.maxInFlightBytes
  cwndBytes := profile.initialInFlightBytes
  chunkSizeBytes := max 1 profile.chunkSizeBytes
  direct := profile.direct

def start (c : AdaptiveCongestionController) : AdaptiveCongestionController :=
  { c with started := true, lastUpdateTime := 0 }

def reset (c : AdaptiveCongestionController) (profile : Option TransferTuningProfile) :
    AdaptiveCongestionController :=
  let c := match profile with
    | none => c
    | some profile =>
      { c with
        minCwnd := profile.minInFlightBytes
        maxCwnd := profile.maxInFlightBytes
        cwndBytes := profile.initialInFlightBytes
        chunkSizeBytes := max 1 profile.chunkSizeBytes }
  { c with
    estimatedRttMs := 10
    estimatedBwBps := 0
    minRtt := none
    lastUpdateTime := 0
    started := false }

/-- The first half of `updateFromCandidateStats`. -/
def updateRtt (c : AdaptiveCongestionController) (rttMs : Option JsNumber) :
    AdaptiveCongestionController :=
  match rttMs with
  | some (.finite rttMs) =>
    if 0 < rttMs ∧ rttMs ≤ 10000 then
      { c with
        estimatedRttMs := rttMs
        minRtt := match c.minRtt with
          | none => some rttMs
          | some minRtt => some (if rttMs < minRtt then rttMs else minRtt) }
    else c
  | _ => c

/-- The second half of `updateFromCandidateStats`. -/
def updateBitrate (c : AdaptiveCongestionController)
    (availableOutgoingBitrateBps : Option JsNumber) : AdaptiveCongestionController :=
  match availableOutgoingBitrateBps with
  | some (.finite bps) => if 0 < bps then { c with estimatedBwBps := bps } else c
  | _ => c

def updateFromCandidateStats (c : AdaptiveCongestionController)
    (rttMs availableOutgoingBitrateBps : Option JsNumber) : AdaptiveCongestionController :=
  (c.updateRtt rttMs).updateBitrate availableOutgoingBitrateBps

def getSnapshot (c : AdaptiveCongestionController) : AdaptiveCongestionSnapshot where
  cwndBytes := c.cwndBytes
  estimatedRttMs := c.estimatedRttMs
  estimatedBwBps := c.estimatedBwBps
  recommendedBatchChunks := max 1 (min 32 (⌊c.cwndBytes * 0.2 / c.chunkSizeBytes⌋ : Number))

def rttRatio (c : AdaptiveCongestionController) : Number :=
  c.estimatedRttMs / max 1 (c.minRtt.getD 10)

/-- The call comes too soon after the last update. -/
def throttled (c : AdaptiveCongestionController) (now : Number) : Bool :=
  c.started ∧ 0 < c.lastUpdateTime ∧ now - c.lastUpdateTime < 100

def congested (c : AdaptiveCongestionController) (bufferedAmountBytes : JsNumber) : Bool :=
  2 < c.rttRatio ∨ exceeds bufferedAmountBytes c.cwndBytes

def clear (c : AdaptiveCongestionController) (bufferedAmountBytes : JsNumber) : Bool :=
  c.rttRatio < 1.5 ∧ staysBelow bufferedAmountBytes (c.cwndBytes * 0.8)

def decreased (c : AdaptiveCongestionController) : Number :=
  max c.minCwnd (⌊c.cwndBytes * 0.7⌋ : Number)

def increase (c : AdaptiveCongestionController) : Number :=
  if c.direct ∨ c.estimatedRttMs < 10 then 256 * 1024 else 64 * 1024

def increased (c : AdaptiveCongestionController) : Number :=
  min c.maxCwnd (c.cwndBytes + c.increase)

/-- The window after an update. -/
def adjusted (c : AdaptiveCongestionController) (bufferedAmountBytes : JsNumber) : Number :=
  if c.congested bufferedAmountBytes then c.decreased
  else if c.clear bufferedAmountBytes then c.increased
  else c.cwndBytes

/-- `updateBufferState` when the clock shows `now`. -/
def updateBufferState (c : AdaptiveCongestionController) (now : Number)
    (bufferedAmountBytes : JsNumber) : AdaptiveCongestionController :=
  if c.throttled now then c
  else { c with cwndBytes := c.adjusted bufferedAmountBytes, lastUpdateTime := now }

end AdaptiveCongestionController

/-- The calls of a controller. `updateBufferState` is given what the clock shows. -/
inductive CongestionCall
  | start
  | reset (profile : Option TransferTuningProfile)
  | updateFromCandidateStats (rttMs availableOutgoingBitrateBps : Option JsNumber)
  | updateBufferState (now : Number) (bufferedAmountBytes : JsNumber)

namespace CongestionCall

def apply (c : AdaptiveCongestionController) : CongestionCall → AdaptiveCongestionController
  | .start => c.start
  | .reset profile => c.reset profile
  | .updateFromCandidateStats rttMs bps => c.updateFromCandidateStats rttMs bps
  | .updateBufferState now buffered => c.updateBufferState now buffered

/-- What a call returns: `updateBufferState` a snapshot, the others nothing. -/
def answer (c : AdaptiveCongestionController) : CongestionCall → Option AdaptiveCongestionSnapshot
  | .updateBufferState now buffered => some (c.updateBufferState now buffered).getSnapshot
  | _ => none

def isReset : CongestionCall → Bool
  | .reset _ => true
  | _ => false

def isStart : CongestionCall → Bool
  | .start => true
  | _ => false

end CongestionCall

namespace AdaptiveCongestionController

def run (c : AdaptiveCongestionController) (calls : List CongestionCall) :
    AdaptiveCongestionController :=
  calls.foldl CongestionCall.apply c

def answers (c : AdaptiveCongestionController) :
    List CongestionCall → List (Option AdaptiveCongestionSnapshot)
  | [] => []
  | call :: calls => call.answer c :: (call.apply c).answers calls

@[simp] theorem run_nil (c : AdaptiveCongestionController) : c.run [] = c := rfl

@[simp] theorem run_cons (c : AdaptiveCongestionController) (call : CongestionCall)
    (calls : List CongestionCall) : c.run (call :: calls) = (call.apply c).run calls := rfl

@[simp] theorem run_append (c : AdaptiveCongestionController)
    (calls later : List CongestionCall) : c.run (calls ++ later) = (c.run calls).run later := by
  simp [run]

section fields

variable (c : AdaptiveCongestionController) (rttMs bps : Option JsNumber)

/-- Statistics of the path change what is known of the path. -/
theorem updateFromCandidateStats_spec :
    ∃ rtt bandwidth least, c.updateFromCandidateStats rttMs bps =
      { c with estimatedRttMs := rtt, estimatedBwBps := bandwidth, minRtt := least } := by
  unfold updateFromCandidateStats updateRtt updateBitrate
  repeat' split
  all_goals exact ⟨_, _, _, rfl⟩

end fields

theorem updateBufferState_throttled {c : AdaptiveCongestionController} {now : Number}
    {buffered : JsNumber} (h : c.throttled now) : c.updateBufferState now buffered = c := by
  simp [updateBufferState, h]

theorem updateBufferState_of_not_throttled {c : AdaptiveCongestionController} {now : Number}
    {buffered : JsNumber} (h : c.throttled now = false) : c.updateBufferState now buffered =
      { c with cwndBytes := c.adjusted buffered, lastUpdateTime := now } := by
  simp [updateBufferState, h]

theorem pos_of_clear {c : AdaptiveCongestionController} {buffered : JsNumber}
    (h : c.clear buffered) : 0 < c.cwndBytes := by
  have h : c.rttRatio < 1.5 ∧ staysBelow buffered (c.cwndBytes * 0.8) := by
    simpa [clear] using h
  have hpos := pos_of_staysBelow h.2
  linarith

/-- A path is not clear and congested at once. -/
theorem not_congested_of_clear {c : AdaptiveCongestionController} {buffered : JsNumber}
    (h : c.clear buffered) : c.congested buffered = false := by
  have hc := pos_of_clear h
  have h : c.rttRatio < 1.5 ∧ staysBelow buffered (c.cwndBytes * 0.8) := by
    simpa [clear] using h
  have hratio : ¬ 2 < c.rttRatio := by linarith [h.1]
  have hbuffer := not_exceeds_of_staysBelow h.2 (z := c.cwndBytes) (by linarith)
  simp [congested, hratio, hbuffer]

theorem adjusted_congested {c : AdaptiveCongestionController} {buffered : JsNumber}
    (h : c.congested buffered) : c.adjusted buffered = c.decreased := by
  simp [adjusted, h]

theorem adjusted_clear {c : AdaptiveCongestionController} {buffered : JsNumber}
    (h : c.clear buffered) : c.adjusted buffered = c.increased := by
  simp [adjusted, h, not_congested_of_clear h]

theorem adjusted_still {c : AdaptiveCongestionController} {buffered : JsNumber}
    (hcongested : c.congested buffered = false) (hclear : c.clear buffered = false) :
    c.adjusted buffered = c.cwndBytes := by
  simp [adjusted, hcongested, hclear]

/-- An update shrinks the window, grows it, or leaves it. -/
theorem adjusted_cases (c : AdaptiveCongestionController) (buffered : JsNumber) :
    c.adjusted buffered = c.decreased ∨
      (c.clear buffered ∧ c.adjusted buffered = c.increased) ∨
        c.adjusted buffered = c.cwndBytes := by
  unfold adjusted
  split
  · exact .inl rfl
  · split
    · exact .inr (.inl ⟨‹_›, rfl⟩)
    · exact .inr (.inr rfl)

theorem le_increase (c : AdaptiveCongestionController) : 65536 ≤ c.increase := by
  unfold increase
  split <;> norm_num

theorem decreased_le {c : AdaptiveCongestionController} (hc : c.minCwnd ≤ c.cwndBytes) :
    c.decreased ≤ max c.minCwnd (c.cwndBytes - 3 / 10 * c.minCwnd) := by
  have hfloor := Int.floor_le (c.cwndBytes * 0.7)
  refine max_le_max le_rfl ?_
  linarith

end AdaptiveCongestionController

end PonsWarp.Webrtc
