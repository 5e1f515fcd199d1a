import Mathlib.Algebra.BigOperators.Group.List.Basic
import Mathlib.Data.List.Induction
import Mathlib.Data.List.Perm.Basic
import Mathlib.Tactic.Linarith
import Mathlib.Tactic.NormNum
import Mathlib.Tactic.Ring
import PonsWarp.Data.Run
import PonsWarp.Webrtc.DataChannelWrapper

set_option autoImplicit false

/-!
What becomes of a send: it waits in the queue or with the pump, or its payload was handed
to the channel and its promise is fulfilled, or its promise is rejected.
-/

namespace PonsWarp.Webrtc

open PonsWarp.Core PonsWarp.Data

/-- The sends that were called for, those handed to the channel, those that still wait, and how
the promises of the others were settled. -/
structure Books (P : Type) where
  calls : List (PendingSend P)
  handed : List (Handed P)
  unsettled : List (PendingSend P)
  bytes : Number
  fulfilled : List Nat
  rejected : List Nat

namespace Books

variable {P : Type} {b : Books P} {capacity high : Number}

structure Balanced (capacity high : Number) (b : Books P) : Prop where
  ids : b.calls.map (·.id) = List.range b.calls.length
  order : List.Sublist (b.handed.map (·.send) ++ b.unsettled) b.calls
  bytes : b.bytes = ((b.unsettled.map (·.bytes)).sum : Nat)
  room : b.bytes ≤ capacity
  settled : (b.fulfilled ++ b.rejected ++ b.unsettled.map (·.id)).Perm
    (List.range b.calls.length)
  fulfilled : b.fulfilled = (b.handed.filter (!·.threw)).map (·.send.id)
  threw : ∀ h ∈ b.handed, h.threw = true → h.send.id ∈ b.rejected
  below : ∀ h ∈ b.handed, (h.bufferedAmount : Number) < high

/-- A call that is turned down at once. -/
theorem Balanced.refuse (h : Balanced capacity high b) (payload : P) (bytes : Nat) :
    Balanced capacity high { b with
      calls := b.calls ++ [⟨b.calls.length, payload, bytes⟩]
      rejected := b.rejected ++ [b.calls.length] } := by
  refine ⟨?_, ?_, h.bytes, h.room, ?_, h.fulfilled, ?_, h.below⟩
  · simp [h.ids, List.range_succ]
  · exact h.order.trans (List.sublist_append_left _ _)
  · have hrange := h.settled.append_right [b.calls.length]
    simp only [List.length_append, List.length_singleton, List.range_succ]
    refine List.Perm.trans ?_ hrange
    simp only [List.append_assoc]
    exact .append_left _ (.append_left _ List.perm_append_comm)
  · intro call hcall hthrew
    exact List.mem_append_left _ (h.threw call hcall hthrew)

/-- A call that is queued. -/
theorem Balanced.enqueue (h : Balanced capacity high b) (payload : P) {bytes : Nat}
    (hroom : b.bytes + bytes ≤ capacity) : Balanced capacity high { b with
      calls := b.calls ++ [⟨b.calls.length, payload, bytes⟩]
      unsettled := b.unsettled ++ [⟨b.calls.length, payload, bytes⟩]
      bytes := b.bytes + bytes } := by
  refine ⟨?_, ?_, ?_, hroom, ?_, h.fulfilled, h.threw, h.below⟩
  · simp [h.ids, List.range_succ]
  · rw [← List.append_assoc]
    exact h.order.append_right _
  · simp [h.bytes]
  · have hrange := h.settled.append_right [b.calls.length]
    simp only [List.length_append, List.length_singleton, List.range_succ]
    simpa using hrange

/-- Some of the sends that wait are given up. -/
theorem Balanced.reject (h : Balanced capacity high b) {kept dropped : List (PendingSend P)}
    (hsub : List.Sublist kept b.unsettled) (hperm : b.unsettled.Perm (dropped ++ kept)) :
    Balanced capacity high { b with
      unsettled := kept
      bytes := b.bytes - (dropped.map (·.bytes)).sum
      rejected := b.rejected ++ dropped.map (·.id) } := by
  have hsum : (b.unsettled.map (·.bytes)).sum =
      (dropped.map (·.bytes)).sum + (kept.map (·.bytes)).sum := by
    rw [(hperm.map _).sum_eq, List.map_append, List.sum_append]
  refine ⟨h.ids, ?_, ?_, ?_, ?_, h.fulfilled, ?_, h.below⟩
  · exact ((List.Sublist.refl _).append hsub).trans h.order
  · simp only [h.bytes, hsum, Nat.cast_add]
    ring
  · have hpos : (0 : Number) ≤ ((dropped.map (·.bytes)).sum : Nat) := Nat.cast_nonneg _
    have hle := h.room
    simp only
    linarith
  · have hids := (hperm.map (·.id)).append_left (b.fulfilled ++ b.rejected)
    simp only [List.map_append] at hids
    refine List.Perm.trans ?_ (hids.symm.trans h.settled)
    simp [List.append_assoc]
  · intro call hcall hthrew
    exact List.mem_append_left _ (h.threw call hcall hthrew)

/-- The send that waits first is handed to the channel. -/
theorem Balanced.hand (h : Balanced capacity high b) {send : PendingSend P}
    {rest : List (PendingSend P)} (hfirst : b.unsettled = send :: rest) {bufferedAmount : Nat}
    (hbelow : (bufferedAmount : Number) < high) :
    Balanced capacity high { b with
      handed := b.handed ++ [⟨send, bufferedAmount, false⟩]
      unsettled := rest
      bytes := b.bytes - send.bytes
      fulfilled := b.fulfilled ++ [send.id] } := by
  have hsum := h.bytes
  have horder := h.order
  have hsettled := h.settled
  rw [hfirst] at hsum horder hsettled
  refine ⟨h.ids, ?_, ?_, ?_, ?_, ?_, ?_, ?_⟩
  · simpa using horder
  · simp only [hsum, List.map_cons, List.sum_cons, Nat.cast_add]
    ring
  · have hpos : (0 : Number) ≤ (send.bytes : Nat) := Nat.cast_nonneg _
    have hle := h.room
    simp only
    linarith
  · refine List.Perm.trans ?_ hsettled
    simp only [List.append_assoc, List.map_cons, List.singleton_append]
    exact .append_left _ List.perm_middle.symm
  · simp [h.fulfilled, List.filter_append]
  · intro call hcall hthrew
    rcases List.mem_append.1 hcall with hold | hnew
    · exact h.threw call hold hthrew
    · rw [List.mem_singleton.1 hnew] at hthrew
      cases hthrew
  · intro call hcall
    rcases List.mem_append.1 hcall with hold | hnew
    · exact h.below call hold
    · rw [List.mem_singleton.1 hnew]
      exact hbelow

/-- The channel throws at the send that waits first. -/
theorem Balanced.throw (h : Balanced capacity high b) {send : PendingSend P}
    {rest : List (PendingSend P)} (hfirst : b.unsettled = send :: rest) {bufferedAmount : Nat}
    (hbelow : (bufferedAmount : Number) < high) :
    Balanced capacity high { b with
      handed := b.handed ++ [⟨send, bufferedAmount, true⟩]
      unsettled := rest
      bytes := b.bytes - send.bytes
      rejected := b.rejected ++ [send.id] } := by
  have horder := h.order
  rw [hfirst] at horder
  have hdropped : b.unsettled.Perm ([send] ++ rest) := by rw [hfirst]; rfl
  have hkept : List.Sublist rest b.unsettled := by rw [hfirst]; exact List.sublist_cons_self _ _
  have hreject := h.reject hkept hdropped
  refine ⟨h.ids, ?_, ?_, ?_, hreject.settled, ?_, ?_, ?_⟩
  · simpa using horder
  · simpa using hreject.bytes
  · simpa using hreject.room
  · simp [h.fulfilled, List.filter_append]
  · intro call hcall hthrew
    rcases List.mem_append.1 hcall with hold | hnew
    · exact List.mem_append_left _ (h.threw call hold hthrew)
    · rw [List.mem_singleton.1 hnew]
      exact List.mem_append_right _ (by simp)
  · intro call hcall
    rcases List.mem_append.1 hcall with hold | hnew
    · exact h.below call hold
    · rw [List.mem_singleton.1 hnew]
      exact hbelow

end Books

namespace DataChannelWrapper

variable {P : Type} {w : DataChannelWrapper P}

/-- The sends that wait: the one that the pump has taken, and the queue. -/
def unsettled (w : DataChannelWrapper P) : List (PendingSend P) :=
  w.pumps.map (·.pending) ++ w.pendingSends

def books (w : DataChannelWrapper P) : Books P :=
  ⟨w.calls, w.handed, w.unsettled, w.pendingSendBytes, w.fulfilled, w.rejected.map (·.1)⟩

def Balanced (w : DataChannelWrapper P) : Prop :=
  w.books.Balanced w.capacity w.flowControl.highWaterMark

/-- A pump that is about to send has seen that the channel takes it, and nothing has been sent
since. -/
def Clear (w : DataChannelWrapper P) (p : Pump P) : Prop :=
  (p.suspended = .writable → (w.bufferedAmount : Number) < w.flowControl.highWaterMark) ∧
    (p.suspended = .drained → (w.bufferedAmount : Number) ≤ w.flowControl.lowWaterMark)

/-- Nothing is queued, or one pump is at work. -/
inductive Manned (w : DataChannelWrapper P) : Prop
  | idle (pumps : w.pumps = []) (pumping : w.pumpingSends = false) (queue : w.pendingSends = [])
  | working (p : Pump P) (pumps : w.pumps = [p]) (pumping : w.pumpingSends = true)
      (clear : w.Clear p)

structure Tended (w : DataChannelWrapper P) : Prop where
  marks : w.flowControl.lowWaterMark < w.flowControl.highWaterMark
  balanced : w.Balanced
  manned : w.Manned

/-- A wrapper that has just been made for a channel. -/
def new (flowControl : FlowControlProfile) (readyState : RTCDataChannelState)
    (bufferedAmount : Nat) : DataChannelWrapper P :=
  { flowControl := flowControl, readyState := readyState, bufferedAmount := bufferedAmount }

def Action.call : Action P → Option (P × Nat)
  | .send payload bytes => some (payload, bytes)
  | _ => none

/-- After the channel has closed or failed, and after the wrapper is disposed of, nothing is queued
and no pump waits for a drain. -/
theorem giveUp_leaves_nothing (w : DataChannelWrapper P) (error : SendError) :
    ((w.rejectDrainWaiters error).rejectPendingSends error).pendingSends = [] ∧
      ∀ p ∈ ((w.rejectDrainWaiters error).rejectPendingSends error).pumps,
        p.suspended ≠ .waiting := by
  refine ⟨rfl, ?_⟩
  intro p hp
  obtain ⟨before, -, rfl⟩ := List.mem_map.1 hp
  unfold Pump.answer
  split
  · simp
  · assumption

end DataChannelWrapper

end PonsWarp.Webrtc
