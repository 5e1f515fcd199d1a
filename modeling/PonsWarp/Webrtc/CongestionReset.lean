import Mathlib.Algebra.Order.Archimedean.Basic
import PonsWarp.Webrtc.AdaptiveCongestion

set_option autoImplicit false

/-!
A controller that is reset with a profile against a new one of that profile. Every field is set
again but one: whether the path is direct stays as the constructor found it, and decides by how
much the window grows.
-/

namespace PonsWarp.Webrtc

open Core AdaptiveCongestionController

/-- From no window that the profile leads to can two growth steps be told apart: each reaches
the upper bound. -/
def TransferTuningProfile.NoRoom (profile : TransferTuningProfile) : Prop :=
  (0 < profile.minInFlightBytes →
    profile.maxInFlightBytes ≤ profile.minInFlightBytes + 64 * 1024) ∧
  (0 < profile.initialInFlightBytes →
    profile.maxInFlightBytes ≤ profile.initialInFlightBytes + 64 * 1024 ∧
    (profile.minInFlightBytes ≤ 0 → profile.maxInFlightBytes ≤ 1 + 64 * 1024))

namespace AdaptiveCongestionController

/-- The two differ in the kind of path at most. -/
def Twins (a b : AdaptiveCongestionController) : Prop := b = { a with direct := b.direct }

structure Cramped (c : AdaptiveCongestionController) : Prop where
  atMin : 0 < c.minCwnd → c.maxCwnd ≤ c.minCwnd + 65536
  atWindow : 0 < c.cwndBytes → c.maxCwnd ≤ c.cwndBytes + 65536
  atOne : c.minCwnd ≤ 0 → 0 < c.cwndBytes → c.maxCwnd ≤ 65537

theorem cramped_new_iff (profile : TransferTuningProfile) :
    (new profile).Cramped ↔ profile.NoRoom := by
  norm_num only [TransferTuningProfile.NoRoom]
  constructor
  · intro h
    exact ⟨h.atMin, fun hi => ⟨h.atWindow hi, fun hm => h.atOne hm hi⟩⟩
  · intro h
    exact ⟨h.1, fun hi => (h.2 hi).1, fun hm hi => (h.2 hi).2 hm⟩

section same

variable {a b c : AdaptiveCongestionController}

theorem Cramped.decreased (h : c.Cramped) (now : Number) :
    ({ c with cwndBytes := c.decreased, lastUpdateTime := now } :
      AdaptiveCongestionController).Cramped := by
  have hpos (hm : c.minCwnd ≤ 0) (hd : 0 < c.decreased) : 0 < c.cwndBytes ∧ 1 ≤ c.decreased := by
    have hfloor : (0 : Number) < (⌊c.cwndBytes * 0.7⌋ : Number) :=
      (lt_max_iff.1 hd).resolve_left hm.not_gt
    have hone : (1 : Int) ≤ ⌊c.cwndBytes * 0.7⌋ := by exact_mod_cast hfloor
    have hle := Int.floor_le (c.cwndBytes * 0.7)
    refine ⟨by linarith, le_trans ?_ (le_max_right _ _)⟩
    exact_mod_cast hone
  refine ⟨h.atMin, fun hd => ?_, fun hm hd => h.atOne hm (hpos hm hd).1⟩
  rcases le_or_gt c.minCwnd 0 with hm | hm
  · exact (h.atOne hm (hpos hm hd).1).trans (by linarith [(hpos hm hd).2])
  · have hle : c.minCwnd ≤ c.decreased := le_max_left _ _
    exact (h.atMin hm).trans (by linarith)

theorem Cramped.increased (h : c.Cramped) (hpos : 0 < c.cwndBytes) :
    c.increased = c.maxCwnd := by
  have hroom := h.atWindow hpos
  have hstep := le_increase c
  exact min_eq_left (by linarith)

theorem Cramped.updated (h : c.Cramped) (now : Number) (buffered : JsNumber) :
    (c.updateBufferState now buffered).Cramped := by
  cases ht : c.throttled now with
  | true => simpa only [updateBufferState_throttled ht] using h
  | false =>
    rw [updateBufferState_of_not_throttled ht]
    rcases adjusted_cases c buffered with hd | ⟨hclear, hi⟩ | hs
    · rw [hd]
      exact h.decreased now
    · rw [hi, h.increased (pos_of_clear hclear)]
      exact ⟨h.atMin, fun _ => by linarith, fun hm _ => h.atOne hm (pos_of_clear hclear)⟩
    · rw [hs]
      exact ⟨h.atMin, h.atWindow, h.atOne⟩

theorem Cramped.direct (h : c.Cramped) (direct : Bool) :
    ({ c with direct := direct } : AdaptiveCongestionController).Cramped :=
  ⟨h.atMin, h.atWindow, h.atOne⟩

theorem adjusted_direct (h : c.Cramped) (direct : Bool) (buffered : JsNumber) :
    ({ c with direct := direct } : AdaptiveCongestionController).adjusted buffered =
      c.adjusted buffered := by
  cases hcongested : c.congested buffered with
  | true => rw [adjusted_congested hcongested, adjusted_congested (by exact hcongested)]; rfl
  | false =>
    cases hclear : c.clear buffered with
    | true =>
      rw [adjusted_clear hclear, adjusted_clear (by exact hclear),
        h.increased (pos_of_clear hclear), (h.direct direct).increased (pos_of_clear hclear)]
    | false =>
      rw [adjusted_still hcongested hclear, adjusted_still (by exact hcongested) (by exact hclear)]

/-- One call of two cramped twins. -/
theorem Twins.step (h : Twins a b) (ha : a.Cramped) {call : CongestionCall}
    (hcall : call.isReset = false) :
    Twins (call.apply a) (call.apply b) ∧ (call.apply a).Cramped ∧
      call.answer b = call.answer a := by
  rw [h]
  generalize b.direct = direct
  cases call with
  | start => exact ⟨rfl, ⟨ha.atMin, ha.atWindow, ha.atOne⟩, rfl⟩
  | reset next => simp [CongestionCall.isReset] at hcall
  | updateFromCandidateStats rttMs bps =>
    refine ⟨?_, ?_, rfl⟩
    · simp only [CongestionCall.apply, updateFromCandidateStats, updateRtt, updateBitrate, Twins]
      repeat' split
      all_goals rfl
    · obtain ⟨rtt, bandwidth, least, heq⟩ := updateFromCandidateStats_spec a rttMs bps
      simp only [CongestionCall.apply, heq]
      exact ⟨ha.atMin, ha.atWindow, ha.atOne⟩
  | updateBufferState now buffered =>
    have hsame : ({ a with direct := direct } : AdaptiveCongestionController).updateBufferState
        now buffered = { a.updateBufferState now buffered with direct := direct } := by
      unfold updateBufferState
      rw [adjusted_direct ha]
      change (if a.throttled now then _ else _) = _
      split <;> rfl
    refine ⟨?_, ha.updated now buffered, ?_⟩
    · simp only [CongestionCall.apply, hsame]
      rfl
    · simp only [CongestionCall.answer, hsame]
      rfl

theorem Twins.answers (h : Twins a b) (ha : a.Cramped) (calls : List CongestionCall)
    (hcalls : ∀ call ∈ calls, call.isReset = false) : b.answers calls = a.answers calls := by
  induction calls generalizing a b with
  | nil => rfl
  | cons call calls ih =>
    simp only [List.forall_mem_cons] at hcalls
    obtain ⟨hnext, hcramped, hanswer⟩ := h.step ha hcalls.1
    simp only [AdaptiveCongestionController.answers, hanswer, ih hnext hcramped hcalls.2]

end same

/-- Nothing is known of the path and the controller is not started. -/
structure Idle (c : AdaptiveCongestionController) : Prop where
  rtt : c.estimatedRttMs = 10
  minRtt : c.minRtt = none
  stopped : c.started = false

/-- Two idle controllers of different kinds of path that no calls tell apart. -/
structure Alike (a b : AdaptiveCongestionController) : Prop where
  twins : Twins a b
  kinds : a.direct ≠ b.direct
  idle : a.Idle
  agree : ∀ calls : List CongestionCall, (∀ call ∈ calls, call.isReset = false) →
    b.answers calls = a.answers calls

section apart

variable {a b c : AdaptiveCongestionController}

theorem Idle.ratio (h : c.Idle) : c.rttRatio = 1 := by
  norm_num [rttRatio, h.rtt, h.minRtt]

theorem Idle.updated (h : c.Idle) (now : Number) (buffered : JsNumber) :
    c.updateBufferState now buffered =
      { c with cwndBytes := c.adjusted buffered, lastUpdateTime := now } :=
  updateBufferState_of_not_throttled (by simp [throttled, h.stopped])

theorem congested_by_buffer (c : AdaptiveCongestionController) :
    c.congested (.finite (max 0 c.cwndBytes + 1)) := by
  have hle := le_max_right 0 c.cwndBytes
  have hbuffer : c.cwndBytes < max 0 (max 0 c.cwndBytes + 1) := lt_max_of_lt_right (by linarith)
  simp [congested, exceeds, hbuffer]

theorem Idle.clear (h : c.Idle) (hpos : 0 < c.cwndBytes) : c.clear (.finite 0) := by
  have hwindow : 0 < c.cwndBytes * 0.8 := by linarith
  norm_num [AdaptiveCongestionController.clear, h.ratio, staysBelow]
  linarith

/-- Answers that agree show the same window. -/
theorem Alike.updated (h : Alike a b) (now : Number) (buffered : JsNumber) :
    b.adjusted buffered = a.adjusted buffered ∧
      Alike { a with cwndBytes := a.adjusted buffered, lastUpdateTime := now }
        { b with cwndBytes := b.adjusted buffered, lastUpdateTime := now } := by
  have hb : b.Idle := by
    rw [h.twins]
    exact ⟨h.idle.rtt, h.idle.minRtt, h.idle.stopped⟩
  have hagree (calls : List CongestionCall) (hcalls : ∀ call ∈ calls, call.isReset = false) :=
    h.agree (.updateBufferState now buffered :: calls)
      (List.forall_mem_cons.2 ⟨rfl, hcalls⟩)
  simp only [answers, CongestionCall.answer, CongestionCall.apply, h.idle.updated, hb.updated,
    List.cons.injEq, Option.some.injEq] at hagree
  have hwindow : b.adjusted buffered = a.adjusted buffered :=
    congrArg AdaptiveCongestionSnapshot.cwndBytes (hagree [] (by simp)).1
  refine ⟨hwindow, ?_, h.kinds, ⟨h.idle.rtt, h.idle.minRtt, h.idle.stopped⟩,
    fun calls hcalls => (hagree calls hcalls).2⟩
  rw [hwindow]
  have htwins := h.twins
  rw [Twins] at htwins ⊢
  rw [htwins]

/-- Where the window is clear, one growth step tells the two kinds of path apart unless both
end at the upper bound. -/
theorem Alike.room (h : Alike a b) (hpos : 0 < a.cwndBytes) :
    a.maxCwnd ≤ a.cwndBytes + 65536 := by
  have hb : b.clear (.finite 0) := by
    rw [h.twins]
    exact h.idle.clear hpos
  have hsame := (h.updated 0 (.finite 0)).1
  rw [adjusted_clear (h.idle.clear hpos), adjusted_clear hb] at hsame
  have hrtt : ¬ a.estimatedRttMs < 10 := by simp [h.idle.rtt]
  have hkinds := h.kinds
  by_contra hroom
  rw [not_le] at hroom
  rw [h.twins] at hsame
  simp only [increased, increase, hrtt, or_false] at hsame
  have hlarge : a.cwndBytes + 64 * 1024 < min a.maxCwnd (a.cwndBytes + 256 * 1024) :=
    lt_min (by linarith) (by linarith)
  have hsmall : min a.maxCwnd (a.cwndBytes + 64 * 1024) = a.cwndBytes + 64 * 1024 :=
    min_eq_right (by linarith)
  cases ha : a.direct <;> cases hb : b.direct <;>
    simp only [ha, hb, Bool.false_eq_true, if_true, if_false, hsmall] at hsame hkinds
  all_goals first | exact hkinds rfl | linarith

theorem Alike.shrink (h : Alike a b) : ∃ a' b', Alike a' b' ∧ a'.cwndBytes = a.decreased ∧
    a'.minCwnd = a.minCwnd ∧ a'.maxCwnd = a.maxCwnd :=
  ⟨_, _, (h.updated 0 _).2, adjusted_congested (congested_by_buffer a), rfl, rfl⟩

theorem Alike.grow (h : Alike a b) (hpos : 0 < a.cwndBytes) :
    ∃ a' b', Alike a' b' ∧ a'.cwndBytes = a.maxCwnd ∧
      a'.minCwnd = a.minCwnd ∧ a'.maxCwnd = a.maxCwnd := by
  refine ⟨_, _, (h.updated 0 (.finite 0)).2, ?_, rfl, rfl⟩
  have hroom := h.room hpos
  have hstep := le_increase a
  exact (adjusted_clear (h.idle.clear hpos)).trans (min_eq_left (by linarith))

theorem Alike.at_min (n : Nat) (h : Alike a b) (hm : 0 < a.minCwnd)
    (hlow : a.minCwnd ≤ a.cwndBytes)
    (hhigh : a.cwndBytes ≤ a.minCwnd + n * (3 / 10 * a.minCwnd)) :
    a.maxCwnd ≤ a.minCwnd + 65536 := by
  induction n generalizing a b with
  | zero =>
    have hwindow : a.cwndBytes = a.minCwnd := le_antisymm (by simpa using hhigh) hlow
    exact hwindow ▸ h.room (by linarith)
  | succ n ih =>
    obtain ⟨a', b', h', hwindow, hmin, hmax⟩ := h.shrink
    have hle := decreased_le hlow
    have hn := Nat.cast_nonneg (α := Number) n
    push_cast at hhigh
    rw [← hmin, ← hmax]
    refine ih h' (hmin ▸ hm) ?_ ?_
    · rw [hmin, hwindow]
      exact le_max_left _ _
    · rw [hmin, hwindow]
      exact hle.trans (max_le (by nlinarith) (by linarith))

/-- A window that is not too small shrinks to a positive number of bytes. -/
theorem shrinks_to (hm : c.minCwnd ≤ 0) (hwindow : 10 / 7 ≤ c.cwndBytes) :
    ∃ k : Nat, c.decreased = (k + 1 : Nat) ∧ ((k + 1 : Nat) : Number) ≤ c.cwndBytes * 0.7 := by
  have hone : (1 : Int) ≤ ⌊c.cwndBytes * 0.7⌋ := by
    rw [Int.le_floor]
    push_cast
    linarith
  obtain ⟨k, hk⟩ := Int.eq_ofNat_of_zero_le (Int.sub_nonneg_of_le hone)
  have hfloor : ⌊c.cwndBytes * 0.7⌋ = (k + 1 : Nat) := by push_cast; omega
  have hle := Int.floor_le (c.cwndBytes * 0.7)
  rw [hfloor] at hle
  refine ⟨k, ?_, by exact_mod_cast hle⟩
  rw [decreased, hfloor]
  refine max_eq_right (hm.trans ?_)
  positivity

/-- A window of a whole number of bytes shrinks down to one byte. -/
theorem Alike.at_one (n : Nat) (h : Alike a b) (hm : a.minCwnd ≤ 0)
    (hn : a.cwndBytes = (n + 1 : Nat)) : a.maxCwnd ≤ 1 + 65536 := by
  induction n using Nat.strongRecOn generalizing a b with
  | ind n ih =>
    cases n with
    | zero => simpa [hn] using h.room (by simp [hn])
    | succ n =>
      obtain ⟨a', b', h', hwindow, hmin, hmax⟩ := h.shrink
      have hnonneg := Nat.cast_nonneg (α := Number) n
      push_cast at hn
      obtain ⟨k, hk, hle⟩ := shrinks_to hm (by linarith)
      have hkn : ((k + 1 : Nat) : Number) < (n + 2 : Nat) := by
        push_cast at hle ⊢
        linarith
      exact hmax ▸ ih k (by have := Nat.cast_lt.1 hkn; omega) h' (hmin ▸ hm) (hwindow.trans hk)

theorem Alike.min_room (h : Alike a b) (hm : 0 < a.minCwnd) :
    a.maxCwnd ≤ a.minCwnd + 65536 := by
  obtain ⟨a', b', h', hwindow, hmin, hmax⟩ := h.shrink
  have hlow : a'.minCwnd ≤ a'.cwndBytes := by
    rw [hmin, hwindow]
    exact le_max_left _ _
  obtain ⟨n, hn⟩ := exists_nat_ge ((a'.cwndBytes - a'.minCwnd) / (3 / 10 * a'.minCwnd))
  rw [div_le_iff₀ (by linarith)] at hn
  rw [← hmin, ← hmax]
  exact h'.at_min n (hmin ▸ hm) hlow (by linarith)

theorem Alike.one_room (h : Alike a b) (hm : a.minCwnd ≤ 0) (hpos : 0 < a.cwndBytes) :
    a.maxCwnd ≤ 1 + 65536 := by
  by_contra hroom
  rw [not_le] at hroom
  obtain ⟨a₁, b₁, h₁, hwindow₁, hmin₁, hmax₁⟩ := h.grow hpos
  obtain ⟨a₂, b₂, h₂, hwindow₂, hmin₂, hmax₂⟩ := h₁.shrink
  obtain ⟨k, hk, -⟩ := shrinks_to (hmin₁ ▸ hm) (by linarith)
  have hle := h₂.at_one k (by rw [hmin₂, hmin₁]; exact hm) (hwindow₂.trans hk)
  linarith

end apart

theorem direct_run (c : AdaptiveCongestionController) (calls : List CongestionCall) :
    (c.run calls).direct = c.direct := by
  induction calls generalizing c with
  | nil => rfl
  | cons call calls ih =>
    refine (ih _).trans ?_
    cases call with
    | start => rfl
    | reset next => cases next <;> rfl
    | updateFromCandidateStats rttMs bps =>
      obtain ⟨rtt, bandwidth, least, heq⟩ := updateFromCandidateStats_spec c rttMs bps
      simp only [CongestionCall.apply, heq]
    | updateBufferState now buffered =>
      simp only [CongestionCall.apply, updateBufferState]
      split <;> rfl

/-- After a reset with a profile a controller answers as a new one exactly when the two are of
one kind of path or the profile leaves the window no room. -/
theorem reset_is_fresh_iff (first profile : TransferTuningProfile)
    (history : List CongestionCall) :
    (∀ calls : List CongestionCall, (∀ call ∈ calls, call.isReset = false) →
      (((new first).run history).reset (some profile)).answers calls =
        (new profile).answers calls) ↔
    first.direct = profile.direct ∨ profile.NoRoom := by
  set a := ((new first).run history).reset (some profile) with ha
  have hdirect : a.direct = first.direct := by
    rw [ha]
    exact direct_run (new first) history
  have htwins : Twins a (new profile) := rfl
  constructor
  · intro hagree
    refine or_iff_not_imp_left.2 fun hkinds => ?_
    have h : Alike a (new profile) :=
      ⟨htwins, hdirect ▸ hkinds, ⟨rfl, rfl, rfl⟩, fun calls hcalls => (hagree calls hcalls).symm⟩
    rw [← cramped_new_iff]
    exact ⟨h.min_room, h.room, fun hm hpos => (h.one_room hm hpos).trans (by norm_num)⟩
  · rintro (hkinds | hroom) calls hcalls
    · have hsame : new profile = a := by
        rw [htwins]
        exact congrArg (fun direct => { a with direct := direct }) (hkinds.symm.trans hdirect.symm)
      rw [hsame]
    · have hcramped : a.Cramped := ((cramped_new_iff profile).2 hroom).direct a.direct
      exact (htwins.answers hcramped calls hcalls).symm

/-- A controller made for a direct path goes on growing as on one after a reset for a relay. -/
theorem reset_keeps_growth :
    let c := (new DIRECT_HOST_TRANSFER_TUNING_PROFILE).reset (some RELAY_TRANSFER_TUNING_PROFILE)
    c.answers [.updateBufferState 1 (.finite 0)] ≠
      (new RELAY_TRANSFER_TUNING_PROFILE).answers [.updateBufferState 1 (.finite 0)] := by
  decide +kernel

end AdaptiveCongestionController

end PonsWarp.Webrtc
