import Mathlib.Algebra.Order.Archimedean.Basic
import PonsWarp.Webrtc.AdaptiveCongestion

set_option autoImplicit false

/-!
The window stays between the bounds of its profile, moves at most once in a tenth of a second
once the controller is started, and gets to either bound when the path stays as it is.
-/

namespace PonsWarp.Webrtc

open Core AdaptiveCongestionController

structure TransferTuningProfile.Ordered (profile : TransferTuningProfile) : Prop where
  one_le_min : 1 ≤ profile.minInFlightBytes
  min_le_initial : profile.minInFlightBytes ≤ profile.initialInFlightBytes
  initial_le_max : profile.initialInFlightBytes ≤ profile.maxInFlightBytes

namespace CongestionCall

/-- The profile that holds after a call. -/
def profile (current : TransferTuningProfile) : CongestionCall → TransferTuningProfile
  | .reset (some profile) => profile
  | _ => current

def Ordered : CongestionCall → Prop
  | .reset (some profile) => profile.Ordered
  | _ => True

def reading? : CongestionCall → Option Number
  | .updateBufferState now _ => some now
  | _ => none

/-- The call changes the window. -/
def Moves (c : AdaptiveCongestionController) (call : CongestionCall) : Prop :=
  (call.apply c).cwndBytes ≠ c.cwndBytes

end CongestionCall

def profileAfter (profile : TransferTuningProfile) (calls : List CongestionCall) :
    TransferTuningProfile :=
  calls.foldl CongestionCall.profile profile

/-- The clock is positive and does not go back. -/
def Timed (calls : List CongestionCall) : Prop :=
  (calls.filterMap CongestionCall.reading?).Pairwise (· ≤ ·) ∧
    ∀ now ∈ calls.filterMap CongestionCall.reading?, 0 < now

theorem Timed.right {calls later : List CongestionCall} (h : Timed (calls ++ later)) :
    Timed later := by
  obtain ⟨hsorted, hpos⟩ := h
  rw [List.filterMap_append] at hsorted hpos
  exact ⟨(List.pairwise_append.1 hsorted).2.1,
    fun now hnow => hpos now (List.mem_append_right _ hnow)⟩

namespace AdaptiveCongestionController

/-- The updates of a run that are not throttled: the state each one finds and the buffer it is
given. -/
def ticks (c : AdaptiveCongestionController) :
    List CongestionCall → List (AdaptiveCongestionController × JsNumber)
  | [] => []
  | call :: calls =>
    (match call with
      | .updateBufferState now buffered => if c.throttled now then [] else [(c, buffered)]
      | _ => []) ++ (call.apply c).ticks calls

structure Within (profile : TransferTuningProfile) (c : AdaptiveCongestionController) :
    Prop where
  minCwnd : c.minCwnd = profile.minInFlightBytes
  maxCwnd : c.maxCwnd = profile.maxInFlightBytes
  min_le : profile.minInFlightBytes ≤ c.cwndBytes
  le_max : c.cwndBytes ≤ profile.maxInFlightBytes

theorem within_new {profile : TransferTuningProfile} (h : profile.Ordered) :
    (new profile).Within profile :=
  ⟨rfl, rfl, h.min_le_initial, h.initial_le_max⟩

section step

variable {profile : TransferTuningProfile} {c : AdaptiveCongestionController}

theorem Within.adjusted (hc : c.Within profile) (h : profile.Ordered) (buffered : JsNumber) :
    profile.minInFlightBytes ≤ c.adjusted buffered ∧
      c.adjusted buffered ≤ profile.maxInFlightBytes := by
  have hmin := hc.minCwnd
  have hmax := hc.maxCwnd
  have hlow := hc.min_le
  have hhigh := hc.le_max
  have hone := h.one_le_min
  rcases adjusted_cases c buffered with hd | ⟨-, hi⟩ | hs
  · have hle := decreased_le (c := c) (by linarith)
    rw [hd]
    refine ⟨hmin ▸ le_max_left _ _, hle.trans (max_le ?_ ?_)⟩ <;> linarith
  · have hstep := le_increase c
    rw [hi]
    exact ⟨le_min (by linarith) (by linarith), hmax ▸ min_le_left _ _⟩
  · rw [hs]
    exact ⟨hlow, hhigh⟩

theorem Within.step (hc : c.Within profile) (h : profile.Ordered) {call : CongestionCall}
    (hcall : call.Ordered) :
    (call.apply c).Within (call.profile profile) ∧ (call.profile profile).Ordered := by
  cases call with
  | start => exact ⟨⟨hc.minCwnd, hc.maxCwnd, hc.min_le, hc.le_max⟩, h⟩
  | reset next =>
    cases next with
    | none => exact ⟨⟨hc.minCwnd, hc.maxCwnd, hc.min_le, hc.le_max⟩, h⟩
    | some next => exact ⟨⟨rfl, rfl, hcall.min_le_initial, hcall.initial_le_max⟩, hcall⟩
  | updateFromCandidateStats rttMs bps =>
    obtain ⟨rtt, bandwidth, least, heq⟩ := updateFromCandidateStats_spec c rttMs bps
    refine ⟨?_, h⟩
    simp only [CongestionCall.apply, heq]
    exact ⟨hc.minCwnd, hc.maxCwnd, hc.min_le, hc.le_max⟩
  | updateBufferState now buffered =>
    refine ⟨?_, h⟩
    cases ht : c.throttled now with
    | true =>
      simp only [CongestionCall.apply, updateBufferState_throttled ht]
      exact hc
    | false =>
      obtain ⟨hlow, hhigh⟩ := hc.adjusted h buffered
      simp only [CongestionCall.apply, updateBufferState_of_not_throttled ht]
      exact ⟨hc.minCwnd, hc.maxCwnd, hlow, hhigh⟩

end step

theorem within_run {profile : TransferTuningProfile} {c : AdaptiveCongestionController}
    (hc : c.Within profile) (h : profile.Ordered) (calls : List CongestionCall)
    (hcalls : ∀ call ∈ calls, call.Ordered) :
    (c.run calls).Within (profileAfter profile calls) ∧ (profileAfter profile calls).Ordered := by
  induction calls generalizing profile c with
  | nil => exact ⟨hc, h⟩
  | cons call calls ih =>
    simp only [List.forall_mem_cons] at hcalls
    obtain ⟨hstep, hnext⟩ := hc.step h hcalls.1
    exact ih hstep hnext hcalls.2

theorem ordered_of_not_reset {call : CongestionCall} (h : call.isReset = false)
    (profile : TransferTuningProfile) : call.Ordered ∧ call.profile profile = profile := by
  cases call with
  | reset next => simp [CongestionCall.isReset] at h
  | _ => exact ⟨trivial, rfl⟩

theorem within_later {profile : TransferTuningProfile} {c : AdaptiveCongestionController}
    (hc : c.Within profile) (h : profile.Ordered) (calls : List CongestionCall)
    (hcalls : ∀ call ∈ calls, call.isReset = false) : (c.run calls).Within profile := by
  induction calls generalizing c with
  | nil => exact hc
  | cons call calls ih =>
    simp only [List.forall_mem_cons] at hcalls
    obtain ⟨hordered, hsame⟩ := ordered_of_not_reset hcalls.1 profile
    exact ih (hsame ▸ (hc.step h hordered).1) hcalls.2

/-- The controller is started and was last updated at `since` or later. -/
structure Armed (since : Number) (c : AdaptiveCongestionController) : Prop where
  started : c.started
  since_le : since ≤ c.lastUpdateTime

theorem Armed.step {since : Number} {c : AdaptiveCongestionController} (hc : c.Armed since)
    {call : CongestionCall} (hcall : call.isStart = false ∧ call.isReset = false)
    (hread : ∀ now, call.reading? = some now → since ≤ now) : (call.apply c).Armed since := by
  cases call with
  | start => simp [CongestionCall.isStart] at hcall
  | reset next => simp [CongestionCall.isReset] at hcall
  | updateFromCandidateStats rttMs bps =>
    obtain ⟨rtt, bandwidth, least, heq⟩ := updateFromCandidateStats_spec c rttMs bps
    simp only [CongestionCall.apply, heq]
    exact ⟨hc.started, hc.since_le⟩
  | updateBufferState now buffered =>
    cases ht : c.throttled now with
    | true => simpa only [CongestionCall.apply, updateBufferState_throttled ht] using hc
    | false =>
      simp only [CongestionCall.apply, updateBufferState_of_not_throttled ht]
      exact ⟨hc.started, hread now rfl⟩

theorem Armed.run {since : Number} {c : AdaptiveCongestionController} (hc : c.Armed since)
    (calls : List CongestionCall)
    (hcalls : ∀ call ∈ calls, call.isStart = false ∧ call.isReset = false)
    (hread : ∀ now ∈ calls.filterMap CongestionCall.reading?, since ≤ now) :
    (c.run calls).Armed since := by
  induction calls generalizing c with
  | nil => exact hc
  | cons call calls ih =>
    simp only [List.forall_mem_cons] at hcalls
    refine ih (hc.step hcalls.1 fun now hnow => hread now ?_) hcalls.2 fun now hnow => hread now ?_
    · simp [hnow]
    · rw [List.filterMap_cons]
      split
      · exact hnow
      · exact List.mem_cons_of_mem _ hnow

/-- What moves the window of a controller that is not reset is an update that is not
throttled. -/
theorem of_moves {c : AdaptiveCongestionController} {call : CongestionCall}
    (h : call.Moves c) (hcall : call.isStart = false ∧ call.isReset = false) :
    ∃ now buffered, call = .updateBufferState now buffered ∧ c.throttled now = false := by
  cases call with
  | start => simp [CongestionCall.isStart] at hcall
  | reset next => simp [CongestionCall.isReset] at hcall
  | updateFromCandidateStats rttMs bps =>
    obtain ⟨rtt, bandwidth, least, heq⟩ := updateFromCandidateStats_spec c rttMs bps
    simp only [CongestionCall.Moves, CongestionCall.apply, heq, ne_eq, not_true] at h
  | updateBufferState now buffered =>
    refine ⟨now, buffered, rfl, ?_⟩
    by_contra ht
    simp only [Bool.not_eq_false] at ht
    simp only [CongestionCall.Moves, CongestionCall.apply, updateBufferState_throttled ht,
      ne_eq, not_true] at h

theorem Armed.waits {since now : Number} {c : AdaptiveCongestionController} (hc : c.Armed since)
    (hpos : 0 < since) (h : c.throttled now = false) : since + 100 ≤ now := by
  have hlast := hc.since_le
  by_contra hnow
  have ht : c.throttled now = true := by
    simp only [throttled, decide_eq_true_eq]
    exact ⟨hc.started, by linarith, by linarith⟩
  simp [ht] at h

/-- Two moves of a started controller. -/
theorem moves_apart {c : AdaptiveCongestionController} (hc : c.Armed 0)
    {calls later : List CongestionCall} {first second : CongestionCall}
    (hcalls : ∀ call ∈ calls ++ first :: (later ++ [second]),
      call.isStart = false ∧ call.isReset = false)
    (htimed : Timed (calls ++ first :: (later ++ [second])))
    (hfirst : first.Moves (c.run calls))
    (hsecond : second.Moves (c.run (calls ++ first :: later))) :
    ∃ t₁ t₂, first.reading? = some t₁ ∧ second.reading? = some t₂ ∧ t₁ + 100 ≤ t₂ := by
  simp only [List.forall_mem_append, List.forall_mem_cons] at hcalls
  obtain ⟨hbefore, hfirstCall, hlater, hsecondCall, -⟩ := hcalls
  obtain ⟨t₁, b₁, rfl, h₁⟩ := of_moves hfirst hfirstCall
  obtain ⟨t₂, b₂, rfl, h₂⟩ := of_moves hsecond hsecondCall
  obtain ⟨hsorted, hpos⟩ := htimed
  simp only [List.filterMap_append, List.filterMap_cons, CongestionCall.reading?,
    List.forall_mem_append, List.forall_mem_cons] at hpos
  simp only [List.filterMap_append, List.filterMap_cons, CongestionCall.reading?,
    List.pairwise_append, List.pairwise_cons, List.forall_mem_append] at hsorted
  obtain ⟨hbeforePos, hpos₁, -⟩ := hpos
  have harmed := hc.run calls hbefore fun now hnow => (hbeforePos now hnow).le
  have hafter : ((c.run calls).updateBufferState t₁ b₁).Armed t₁ := by
    rw [updateBufferState_of_not_throttled h₁]
    exact ⟨harmed.started, le_rfl⟩
  have hthen := hafter.run later hlater hsorted.2.1.1.1
  refine ⟨t₁, t₂, rfl, rfl, hthen.waits hpos₁ ?_⟩
  simpa only [run_append, run_cons, CongestionCall.apply] using h₂

section convergence

variable {profile : TransferTuningProfile}

/-- A distance that every tick of a kind shortens by one is gone after as many ticks. -/
theorem closes_after (h : profile.Ordered) (gap : Nat → Number → Prop)
    {kind : AdaptiveCongestionController → JsNumber → Bool}
    (htick : ∀ n c buffered, c.Within profile → kind c buffered → gap n c.cwndBytes →
      gap (n - 1) (c.adjusted buffered))
    {c : AdaptiveCongestionController} (hc : c.Within profile) {n : Nat}
    (hgap : gap n c.cwndBytes) (calls : List CongestionCall)
    (hcalls : ∀ call ∈ calls, call.isReset = false)
    (hkind : ∀ tick ∈ c.ticks calls, kind tick.1 tick.2) :
    gap (n - (c.ticks calls).length) (c.run calls).cwndBytes := by
  induction calls generalizing c n with
  | nil => simpa [ticks] using hgap
  | cons call calls ih =>
    simp only [List.forall_mem_cons] at hcalls
    simp only [ticks, List.forall_mem_append] at hkind
    have hwithin : (call.apply c).Within profile :=
      within_later hc h [call] (by simpa using hcalls.1)
    cases call with
    | start => simpa [ticks] using ih hwithin hgap hcalls.2 hkind.2
    | reset next => simp [CongestionCall.isReset] at hcalls
    | updateFromCandidateStats rttMs bps =>
      obtain ⟨rtt, bandwidth, least, heq⟩ := updateFromCandidateStats_spec c rttMs bps
      have hsame : (CongestionCall.apply c (.updateFromCandidateStats rttMs bps)).cwndBytes =
          c.cwndBytes := by
        simp only [CongestionCall.apply, heq]
      simpa [ticks] using ih hwithin (hsame ▸ hgap) hcalls.2 hkind.2
    | updateBufferState now buffered =>
      cases ht : c.throttled now with
      | true =>
        have hsame : CongestionCall.apply c (.updateBufferState now buffered) = c :=
          updateBufferState_throttled ht
        rw [hsame] at hwithin hkind
        simpa [ticks, ht, hsame] using ih hwithin hgap hcalls.2 hkind.2
      | false =>
        simp only [ht, Bool.false_eq_true, if_false, List.forall_mem_singleton] at hkind
        have hnext := htick n c buffered hc hkind.1 hgap
        have hsame : CongestionCall.apply c (.updateBufferState now buffered) =
            { c with cwndBytes := c.adjusted buffered, lastUpdateTime := now } :=
          updateBufferState_of_not_throttled ht
        rw [hsame] at hwithin hkind
        have hdone := ih hwithin hnext hcalls.2 hkind.2
        simpa [ticks, ht, hsame, Nat.sub_sub, Nat.add_comm 1] using hdone

/-- Each congested tick takes three tenths of the lower bound off the window. -/
theorem congested_tick (h : profile.Ordered) (n : Nat) (c : AdaptiveCongestionController)
    (buffered : JsNumber) (hc : c.Within profile) (hkind : c.congested buffered)
    (hgap : c.cwndBytes ≤ profile.minInFlightBytes + n * (3 / 10 * profile.minInFlightBytes)) :
    c.adjusted buffered ≤
      profile.minInFlightBytes + (n - 1 : Nat) * (3 / 10 * profile.minInFlightBytes) := by
  have hmin := hc.minCwnd
  have hlow := hc.min_le
  have hone := h.one_le_min
  have hle := decreased_le (c := c) (by linarith)
  rw [adjusted_congested hkind]
  refine hle.trans (max_le ?_ ?_)
  · rw [hmin]
    have := Nat.cast_nonneg (α := Number) (n - 1)
    nlinarith
  · cases n with
    | zero => simp at hgap ⊢; linarith
    | succ n => push_cast at hgap; simp only [Nat.add_sub_cancel]; linarith

/-- Each clear tick brings the window 64 KiB nearer to the upper bound. -/
theorem clear_tick (n : Nat) (c : AdaptiveCongestionController)
    (buffered : JsNumber) (hc : c.Within profile) (hkind : c.clear buffered)
    (hgap : profile.maxInFlightBytes ≤ c.cwndBytes + n * 65536) :
    profile.maxInFlightBytes ≤ c.adjusted buffered + (n - 1 : Nat) * 65536 := by
  have hmax := hc.maxCwnd
  have hstep := le_increase c
  have hpos := Nat.cast_nonneg (α := Number) (n - 1)
  have hn : (n : Number) ≤ (n - 1 : Nat) + 1 := by
    exact_mod_cast Nat.le_add_of_sub_le le_rfl
  rw [adjusted_clear hkind]
  have : c.maxCwnd - (n - 1 : Nat) * 65536 ≤ c.increased := le_min (by linarith) (by linarith)
  linarith

end convergence

/-- Within its bounds, in steps a tenth of a second apart, and to either bound in the end. -/
theorem window_follows_path (profile : TransferTuningProfile) (calls : List CongestionCall)
    (h : profile.Ordered) (hcalls : ∀ call ∈ calls, call.Ordered) (htimed : Timed calls) :
    let c := (new profile).run calls
    let current := profileAfter profile calls
    (current.minInFlightBytes ≤ c.cwndBytes ∧ c.cwndBytes ≤ current.maxInFlightBytes) ∧
      (1 ≤ c.getSnapshot.recommendedBatchChunks ∧ c.getSnapshot.recommendedBatchChunks ≤ 32) ∧
      (∀ before between first rest second,
        calls = before ++ .start :: (between ++ first :: (rest ++ [second])) →
        (∀ call ∈ between ++ first :: (rest ++ [second]),
          call.isStart = false ∧ call.isReset = false) →
        first.Moves ((new profile).run (before ++ .start :: between)) →
        second.Moves ((new profile).run (before ++ .start :: (between ++ first :: rest))) →
        ∃ t₁ t₂, first.reading? = some t₁ ∧ second.reading? = some t₂ ∧ t₁ + 100 ≤ t₂) ∧
      ∃ n : Nat, ∀ later : List CongestionCall, (∀ call ∈ later, call.isReset = false) →
        n ≤ (c.ticks later).length →
        ((∀ tick ∈ c.ticks later, tick.1.congested tick.2) →
          (c.run later).cwndBytes = current.minInFlightBytes) ∧
        ((∀ tick ∈ c.ticks later, tick.1.clear tick.2) →
          (c.run later).cwndBytes = current.maxInFlightBytes) := by
  obtain ⟨hc, hcurrent⟩ := within_run (within_new h) h calls hcalls
  refine ⟨⟨hc.min_le, hc.le_max⟩, ⟨le_max_left _ _, max_le (by norm_num) (min_le_left _ _)⟩,
    ?_, ?_⟩
  · rintro before between first later second rfl hquiet hfirst hsecond
    rw [List.append_cons] at htimed
    have harmed : (((new profile).run before).start).Armed 0 := ⟨rfl, le_rfl⟩
    refine moves_apart harmed hquiet htimed.right ?_ ?_
    · simpa only [run_append, run_cons, CongestionCall.apply] using hfirst
    · simpa only [run_append, run_cons, CongestionCall.apply] using hsecond
  · have hone := hcurrent.one_le_min
    set low := (profileAfter profile calls).minInFlightBytes
    set high := (profileAfter profile calls).maxInFlightBytes
    obtain ⟨n₁, h₁⟩ := exists_nat_ge ((high - low) / (3 / 10 * low))
    obtain ⟨n₂, h₂⟩ := exists_nat_ge ((high - low) / 65536)
    rw [div_le_iff₀ (by linarith)] at h₁
    rw [div_le_iff₀ (by norm_num)] at h₂
    have hlow := hc.min_le
    have hhigh := hc.le_max
    refine ⟨max n₁ n₂, fun later hlater hlength => ⟨fun hkind => ?_, fun hkind => ?_⟩⟩
    · have hdone := closes_after hcurrent
        (fun n window => window ≤ low + n * (3 / 10 * low)) (congested_tick hcurrent)
        hc (n := n₁) (by linarith) later hlater hkind
      have hend := (within_later hc hcurrent later hlater).min_le
      rw [Nat.sub_eq_zero_of_le ((le_max_left _ _).trans hlength)] at hdone
      refine le_antisymm ?_ hend
      simpa using hdone
    · have hdone := closes_after hcurrent
        (fun n window => high ≤ window + n * 65536) clear_tick
        hc (n := n₂) (by linarith) later hlater hkind
      have hend := (within_later hc hcurrent later hlater).le_max
      rw [Nat.sub_eq_zero_of_le ((le_max_right _ _).trans hlength)] at hdone
      refine le_antisymm hend ?_
      simpa using hdone

theorem window_follows_path_sample :
    let calls : List CongestionCall :=
      [.start, .updateBufferState 1 (.infinity false), .updateBufferState 101 (.finite 0)]
    let c := (new RELAY_TRANSFER_TUNING_PROFILE).run calls
    524288 ≤ c.cwndBytes ∧ c.cwndBytes ≤ 2097152 := by
  have h := (window_follows_path RELAY_TRANSFER_TUNING_PROFILE
    [.start, .updateBufferState 1 (.infinity false), .updateBufferState 101 (.finite 0)]
    (by constructor <;> norm_num [RELAY_TRANSFER_TUNING_PROFILE])
    (by simp [CongestionCall.Ordered])
    (by constructor <;> decide +kernel)).1
  norm_num [profileAfter, CongestionCall.profile, RELAY_TRANSFER_TUNING_PROFILE] at h ⊢
  exact h

end AdaptiveCongestionController

end PonsWarp.Webrtc
