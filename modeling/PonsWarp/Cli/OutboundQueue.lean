import Mathlib.Algebra.BigOperators.Group.List.Basic
import Mathlib.Algebra.Ring.Int.Defs
import Mathlib.Data.List.Perm.Basic
import Mathlib.Logic.Relation
import PonsWarp.Cli.NodeWebSocketTransport
import PonsWarp.Data.Run

set_option autoImplicit false

/-!
What is charged to a connection: the sends that were accepted and not released yet, whatever
is called and whatever the sockets do.
-/

namespace PonsWarp.Cli

open PonsWarp.Data

/-- What a send still counts for. -/
def OutboundSend.due (s : OutboundSend) : Int := if s.releases = 0 then s.bytes else 0

structure OutboundSend.Sound (kind : ConnectionKind) (s : OutboundSend) : Prop where
  bytes : s.bytes = s.payload.charge kind
  once : s.releases ≤ 1
  flag : kind = .websocket → (s.released = true ↔ s.releases = 1)
  pending : kind = .socket → s.finished = false → s.releases = 0
  finished : s.finished = true → s.releases = 1 ∧ s.IsSettled
  handed : s.handed = true → s.write ≠ .queued

theorem OutboundSend.IsSettled.not_queued {s : OutboundSend} (h : s.IsSettled) :
    s.write ≠ .queued := by
  obtain ⟨failure, hs⟩ := h
  simp [hs]

theorem OutboundSend.IsSettled.congr {s s' : OutboundSend} (h : s.IsSettled)
    (hwrite : s'.write = s.write) : s'.IsSettled := by
  obtain ⟨failure, hs⟩ := h
  exact ⟨failure, hwrite.trans hs⟩

namespace PeerConnection

variable {c c' : PeerConnection} {i : Nat} {s s' : OutboundSend}

structure Balanced (c : PeerConnection) : Prop where
  sound : ∀ s ∈ c.sends, s.Sound c.kind
  queued : c.queuedBytes = (c.sends.map OutboundSend.due).sum
  room : c.queuedBytes ≤ MAX_OUTBOUND_QUEUE_BYTES
  turns : c.sends.Pairwise fun earlier later => later.write ≠ .queued → earlier.IsSettled
  wire : c.wire = (c.sends.filter (·.handed)).map (·.payload.outgoing c.kind)

theorem sends_split (hs : c.sends[i]? = some s) :
    ∃ before after, c.sends = before ++ s :: after ∧ c.sends.take i = before ∧
      ∀ s', c.sends.set i s' = before ++ s' :: after := by
  obtain ⟨hlt, rfl⟩ := List.getElem?_eq_some_iff.1 hs
  refine ⟨c.sends.take i, c.sends.drop (i + 1), ?_, rfl, ?_⟩
  · rw [List.getElem_cons_drop, List.take_append_drop]
  · intro s'
    exact List.set_eq_take_append_cons_drop.trans (if_pos hlt)

/-- One send changes, and neither its payload nor whether it was handed on does. -/
theorem Balanced.set (h : c.Balanced) (hs : c.sends[i]? = some s) (new : OutboundSend)
    (hsound : new.Sound c.kind)
    (hpayload : new.payload = s.payload) (hhanded : new.handed = s.handed) (hdue : new.due ≤ s.due)
    (hsettled : s.IsSettled → new.IsSettled)
    (hturn : new.write ≠ .queued →
      s.write ≠ .queued ∨ ∀ earlier ∈ c.sends.take i, earlier.IsSettled)
    (pendingSends : List Nat) :
    Balanced { c with
      sends := c.sends.set i new
      pendingSends := pendingSends
      queuedBytes := c.queuedBytes - s.due + new.due } := by
  obtain ⟨before, after, hsplit, htake, hset⟩ := sends_split hs
  have hturns := h.turns
  have hqueued := h.queued
  have hwire := h.wire
  have hroom := h.room
  rw [htake] at hturn
  rw [hsplit] at hturns hqueued hwire
  obtain ⟨hbefore, hmiddle, hacross⟩ := List.pairwise_append.1 hturns
  obtain ⟨hold, hafter⟩ := List.pairwise_cons.1 hmiddle
  refine ⟨?_, ?_, ?_, ?_, ?_⟩
  · intro x hx
    rcases List.mem_or_eq_of_mem_set hx with hx | rfl
    · exact h.sound x hx
    · exact hsound
  · simp only [hset, hqueued, List.map_append, List.map_cons, List.sum_append, List.sum_cons]
    omega
  · simp only
    omega
  · simp only [hset]
    refine List.pairwise_append.2 ⟨hbefore, List.pairwise_cons.2 ⟨?_, hafter⟩, ?_⟩
    · intro later hlater hwrite
      exact hsettled (hold later hlater hwrite)
    · intro earlier hearlier later hlater hwrite
      rcases List.mem_cons.1 hlater with rfl | hlater
      · rcases hturn hwrite with hbegun | hall
        · exact hacross earlier hearlier s List.mem_cons_self hbegun
        · exact hall earlier hearlier
      · exact hacross earlier hearlier later (List.mem_cons_of_mem _ hlater) hwrite
  · simp only [hset, hwire, List.filter_append, List.map_append]
    congr 1
    by_cases hone : s.handed = true
    · simp [hone, hhanded, hpayload]
    · simp [hone, hhanded]

theorem Balanced.settle (h : c.Balanced) (hs : c.sends[i]? = some s) (hwrite : s.write = .queued)
    (hturn : ∀ earlier ∈ c.sends.take i, earlier.IsSettled) (failure : Option String) :
    (c.settle i s failure).Balanced := by
  have hsound := h.sound s (List.mem_of_getElem? hs)
  have hover : s.finished = false := by
    by_contra hover
    exact (hsound.finished (by simpa using hover)).2.not_queued hwrite
  have hset := h.set hs { s with write := .settled failure }
    ⟨hsound.bytes, hsound.once, hsound.flag, hsound.pending, by simp [hover], by simp⟩
    rfl rfl (by simp [OutboundSend.due]) (fun _ => ⟨failure, rfl⟩) (fun _ => .inr hturn) c.pendingSends
  have hdue : c.queuedBytes - s.due + OutboundSend.due { s with write := .settled failure } =
      c.queuedBytes := by
    simp [OutboundSend.due]
  rw [hdue] at hset
  exact hset

/-- The send whose turn it is goes to the socket: nothing behind it has. -/
theorem Balanced.hand (h : c.Balanced) (hs : c.sends[i]? = some s) (hwrite : s.write = .queued)
    (hturn : ∀ earlier ∈ c.sends.take i, earlier.IsSettled) (write : Write)
    (hnew : write ≠ .queued) : (c.hand i s write).Balanced := by
  have hsound := h.sound s (List.mem_of_getElem? hs)
  have hover : s.finished = false := by
    by_contra hover
    exact (hsound.finished (by simpa using hover)).2.not_queued hwrite
  have hunhanded : s.handed = false := by
    by_contra hhanded
    exact hsound.handed (by simpa using hhanded) hwrite
  obtain ⟨before, after, hsplit, htake, hset⟩ := sends_split hs
  have hturns := h.turns
  have hqueued := h.queued
  have hwire := h.wire
  rw [htake] at hturn
  rw [hsplit] at hturns hqueued hwire
  obtain ⟨hbefore, hmiddle, hacross⟩ := List.pairwise_append.1 hturns
  obtain ⟨hs', hafter⟩ := List.pairwise_cons.1 hmiddle
  have hwaits : ∀ later ∈ after, later.write = .queued := by
    intro later hlater
    by_contra hbegun
    exact (hs' later hlater hbegun).not_queued hwrite
  have hnone : after.filter (·.handed) = [] := by
    rw [List.filter_eq_nil_iff]
    intro later hlater hhanded
    have hmem : later ∈ c.sends := by
      rw [hsplit]
      exact List.mem_append_right _ (List.mem_cons_of_mem _ hlater)
    exact (h.sound later hmem).handed hhanded (hwaits later hlater)
  refine ⟨?_, ?_, h.room, ?_, ?_⟩
  · intro x hx
    rcases List.mem_or_eq_of_mem_set hx with hold | rfl
    · exact h.sound x hold
    · exact ⟨hsound.bytes, hsound.once, hsound.flag, hsound.pending, by simp [hover],
        fun _ => hnew⟩
  · simp only [PeerConnection.hand, hset, hqueued, List.map_append, List.map_cons, List.sum_append,
      List.sum_cons, OutboundSend.due]
  · simp only [PeerConnection.hand, hset]
    refine List.pairwise_append.2 ⟨hbefore, List.pairwise_cons.2 ⟨?_, hafter⟩, ?_⟩
    · intro later hlater hbegun
      exact absurd (hwaits later hlater) hbegun
    · intro earlier hearlier _ _ _
      exact hturn earlier hearlier
  · simp [PeerConnection.hand, hset, hwire, hnone, hunhanded]

theorem Balanced.runWrite (h : c.Balanced) (i : Nat) (answer : Answer) :
    (c.runWrite i answer).Balanced := by
  unfold PeerConnection.runWrite
  split
  · exact h
  · rename_i s hs
    by_cases hready : s.write = .queued ∧ ∀ earlier ∈ c.sends.take i, earlier.IsSettled
    · have hsettle := fun failure => h.settle hs hready.1 hready.2 failure
      have hhand := fun failure =>
        h.hand hs hready.1 hready.2 (.settled failure) (by simp)
      rw [if_pos hready]
      split
      · split
        · split
          · exact hsettle _
          · exact hhand none
        · exact hsettle _
      · split
        · split
          · exact hhand none
          · exact h.hand hs hready.1 hready.2 .writing (by simp)
          · have hbroken := hhand (some "Peer socket closed while writing")
            exact ⟨hbroken.sound, hbroken.queued, hbroken.room, hbroken.turns, hbroken.wire⟩
          · exact hsettle _
        · exact hsettle _
    · rw [if_neg hready]
      exact h

theorem Balanced.answerWriting (h : c.Balanced) (failure : Option String) :
    (c.answerWriting failure).Balanced := by
  set f : OutboundSend → OutboundSend := fun s =>
    if s.write = .writing then { s with write := .settled failure } else s with hf
  have hsame : ∀ s, (f s).payload = s.payload ∧ (f s).handed = s.handed ∧ (f s).due = s.due := by
    intro s
    by_cases hs : s.write = .writing <;> simp [hf, hs, OutboundSend.due]
  have hsettled : ∀ s : OutboundSend, s.IsSettled → (f s).IsSettled := by
    rintro s ⟨failure', hs⟩
    exact ⟨failure', by simp [hf, hs]⟩
  have hqueued : ∀ s, (f s).write ≠ .queued → s.write ≠ .queued := by
    intro s
    by_cases hs : s.write = .writing <;> simp [hf, hs]
  have hsends : (c.answerWriting failure).sends = c.sends.map f := rfl
  refine ⟨?_, ?_, h.room, ?_, ?_⟩
  · intro x hx
    rw [hsends] at hx
    obtain ⟨s, hs, rfl⟩ := List.mem_map.1 hx
    have hsound := h.sound s hs
    by_cases hwriting : s.write = .writing
    · have hover : s.finished = false := by
        by_contra hover
        obtain ⟨-, failure', hset⟩ := hsound.finished (by simpa using hover)
        simp [hwriting] at hset
      simp only [hf, if_pos hwriting]
      exact ⟨hsound.bytes, hsound.once, hsound.flag, hsound.pending, by simp [hover], by simp⟩
    · simp only [hf, if_neg hwriting]
      exact hsound
  · rw [hsends, List.map_map]
    refine h.queued.trans (congrArg List.sum (List.map_congr_left ?_))
    intro s _
    exact (hsame s).2.2.symm
  · rw [hsends, List.pairwise_map]
    exact h.turns.imp fun himp hwrite => hsettled _ (himp (hqueued _ hwrite))
  · rw [hsends, List.filter_map, List.map_map]
    have hfilter : ((fun s : OutboundSend => s.handed) ∘ f) = fun s => s.handed :=
      funext fun s => (hsame s).2.1
    rw [hfilter]
    refine h.wire.trans (List.map_congr_left ?_)
    intro s _
    simp [(hsame s).1, PeerConnection.answerWriting]

/-- A reservation that is released once more stays as it is. -/
theorem Balanced.releaseWebSocketSend (h : c.Balanced) (hkind : c.kind = .websocket) (i : Nat) :
    (c.releaseWebSocketSend i).Balanced := by
  unfold PeerConnection.releaseWebSocketSend
  split
  · exact h
  · rename_i s hs
    have hsound := h.sound s (List.mem_of_getElem? hs)
    by_cases hreleased : s.released = true
    · rw [if_pos hreleased]
      exact h
    · have hfirst : s.releases = 0 := by
        have hflag := hsound.flag hkind
        have honce := hsound.once
        have hne : s.releases ≠ 1 := fun he => hreleased (hflag.2 he)
        omega
      have hover : s.finished = false := by
        by_contra hover
        have hone := (hsound.finished (by simpa using hover)).1
        omega
      have hset := h.set hs { s with released := true, releases := s.releases + 1 }
        ⟨hsound.bytes, by simp [hfirst], by simp [hfirst], by simp [hkind], by simp [hover],
          hsound.handed⟩
        rfl rfl (by simp [OutboundSend.due, hfirst]) (fun hs => hs.congr rfl) .inl
        (c.pendingSends.erase i)
      rw [if_neg hreleased]
      simpa [OutboundSend.due, hfirst] using hset

@[simp] theorem releaseWebSocketSend_kind (c : PeerConnection) (i : Nat) :
    (c.releaseWebSocketSend i).kind = c.kind := by
  unfold releaseWebSocketSend
  split
  · rfl
  · split <;> rfl

theorem releaseWebSocketSends_keeps {P : PeerConnection → Prop}
    (hstep : ∀ c i, P c → P (c.releaseWebSocketSend i)) (h : P c) (is : List Nat) :
    P (is.foldl PeerConnection.releaseWebSocketSend c) := by
  induction is generalizing c with
  | nil => exact h
  | cons i rest ih => exact ih (hstep c i h)

theorem Balanced.releaseWebSocketQueue (h : c.Balanced) (hkind : c.kind = .websocket) :
    c.releaseWebSocketQueue.Balanced := by
  have hboth := releaseWebSocketSends_keeps (P := fun c => c.kind = .websocket ∧ c.Balanced)
    (fun c i hc => ⟨by simp [hc.1], hc.2.releaseWebSocketSend hc.1 i⟩) ⟨hkind, h⟩ c.pendingSends
  exact hboth.2

/-- The reservation of a send that comes to its end has been released, here or before. -/
theorem getElem?_releaseWebSocketSend (hs : c.sends[i]? = some s) :
    ∃ s', (c.releaseWebSocketSend i).sends[i]? = some s' ∧ s'.released = true ∧
      s'.write = s.write := by
  obtain ⟨hlt, -⟩ := List.getElem?_eq_some_iff.1 hs
  unfold releaseWebSocketSend
  simp only [hs]
  split
  · rename_i hreleased
    exact ⟨s, hs, hreleased, rfl⟩
  · exact ⟨_, List.getElem?_set_self hlt, rfl, rfl⟩

theorem Balanced.markOver (h : c.Balanced) (hs : c.sends[i]? = some s) (hsettled : s.IsSettled)
    (hreleases : s.releases = 1) : (c.markOver i).Balanced := by
  obtain ⟨hlt, hget⟩ := List.getElem?_eq_some_iff.1 hs
  have hsound := h.sound s (List.mem_of_getElem? hs)
  have hset := h.set hs { s with finished := true }
    ⟨hsound.bytes, hsound.once, hsound.flag, by simp, fun _ => ⟨hreleases, hsettled⟩,
      hsound.handed⟩
    rfl rfl (by simp [OutboundSend.due]) (fun hs => hs.congr rfl) .inl c.pendingSends
  have hdue : c.queuedBytes - s.due + OutboundSend.due { s with finished := true } =
      c.queuedBytes := by
    simp [OutboundSend.due]
  rw [hdue] at hset
  unfold PeerConnection.markOver
  rw [List.modify_eq_set_get _ hlt]
  simpa [hget] using hset

theorem Balanced.finishSend (h : c.Balanced) (i : Nat) : (c.finishSend i).Balanced := by
  unfold PeerConnection.finishSend
  split
  · exact h
  · rename_i s hs
    by_cases hend : s.IsSettled ∧ s.finished = false
    · rw [if_pos hend]
      split
      · rename_i hkind
        obtain ⟨s', hs', hreleased, hwrite⟩ := getElem?_releaseWebSocketSend hs
        have hrelease := h.releaseWebSocketSend hkind i
        have hsound := hrelease.sound s' (List.mem_of_getElem? hs')
        have hone := (hsound.flag (by simp [hkind])).1 hreleased
        exact hrelease.markOver hs' (hend.1.congr hwrite) hone
      · rename_i hkind
        have hsound := h.sound s (List.mem_of_getElem? hs)
        have hfirst := hsound.pending hkind hend.2
        have hset := h.set hs { s with releases := s.releases + 1, finished := true }
          ⟨hsound.bytes, by simp [hfirst], by simp [hkind], by simp,
            fun _ => ⟨by simp [hfirst], hend.1.congr rfl⟩, hsound.handed⟩
          rfl rfl (by simp [OutboundSend.due, hfirst]) (fun hs => hs.congr rfl) .inl c.pendingSends
        simpa [OutboundSend.due, hfirst] using hset
    · rw [if_neg hend]
      exact h

theorem Balanced.enqueue (h : c.Balanced) (payload : Payload) :
    (c.enqueue payload).1.Balanced := by
  unfold PeerConnection.enqueue
  simp only
  split
  · exact h
  · rename_i hroom
    have hfits := Int.not_lt.1 (not_or.1 hroom).2
    refine ⟨?_, ?_, hfits, ?_, ?_⟩
    · intro x hx
      rcases List.mem_append.1 hx with hold | hnew
      · exact h.sound x hold
      · rw [List.mem_singleton.1 hnew]
        exact ⟨rfl, by simp, by simp, by simp, by simp, by simp⟩
    · simp [h.queued, OutboundSend.due]
    · refine List.pairwise_append.2 ⟨h.turns, List.pairwise_singleton _ _, ?_⟩
      intro _ _ later hlater hbegun
      rw [List.mem_singleton.1 hlater] at hbegun
      exact absurd rfl hbegun
    · simp [h.wire]

/-- What a step of the event loop does to a connection. -/
inductive Move : PeerConnection → PeerConnection → Prop
  | enqueue {c : PeerConnection} (payload : Payload) (hopen : c.isConnectionOpen = true) :
      Move c (c.enqueue payload).1
  | runWrite {c : PeerConnection} (i : Nat) (answer : Answer) : Move c (c.runWrite i answer)
  | answerWriting {c : PeerConnection} (failure : Option String) : Move c (c.answerWriting failure)
  | finishSend {c : PeerConnection} (i : Nat) : Move c (c.finishSend i)
  | release {c : PeerConnection} (hkind : c.kind = .websocket) : Move c c.releaseWebSocketQueue
  | shut {c : PeerConnection} (isOpen live : Bool) (hopen : isOpen = true → c.isOpen = true)
      (hlive : live = true → c.live = true) : Move c { c with isOpen := isOpen, live := live }

def Moves : PeerConnection → PeerConnection → Prop := Relation.ReflTransGen Move

theorem Move.balanced (h : Move c c') (hc : c.Balanced) : c'.Balanced := by
  cases h with
  | enqueue payload => exact hc.enqueue payload
  | runWrite i answer => exact hc.runWrite i answer
  | answerWriting failure => exact hc.answerWriting failure
  | finishSend i => exact hc.finishSend i
  | release hkind => exact hc.releaseWebSocketQueue hkind
  | shut => exact ⟨hc.sound, hc.queued, hc.room, hc.turns, hc.wire⟩

/-- The parts of a connection that the end of a send does not touch. -/
structure Alike (c c' : PeerConnection) : Prop where
  kind : c'.kind = c.kind
  isOpen : c'.isOpen = c.isOpen
  live : c'.live = c.live
  wire : c'.wire = c.wire
  payloads : c'.sends.map (·.payload) = c.sends.map (·.payload)

theorem Alike.refl (c : PeerConnection) : Alike c c := ⟨rfl, rfl, rfl, rfl, rfl⟩

theorem payloads_set (hs : c.sends[i]? = some s) (hpayload : s'.payload = s.payload) :
    (c.sends.set i s').map (·.payload) = c.sends.map (·.payload) := by
  obtain ⟨before, after, hsplit, -, hset⟩ := sends_split hs
  rw [hset, hsplit]
  simp [hpayload]

theorem alike_releaseWebSocketSend (h : Alike c c') (i : Nat) :
    Alike c (c'.releaseWebSocketSend i) := by
  unfold releaseWebSocketSend
  split
  · exact h
  · rename_i s hs
    split
    · exact h
    · exact ⟨h.kind, h.isOpen, h.live, h.wire, (payloads_set hs (by rfl)).trans h.payloads⟩

theorem alike_releaseWebSocketQueue (c : PeerConnection) : Alike c c.releaseWebSocketQueue :=
  releaseWebSocketSends_keeps (P := Alike c) (fun _ i hc => alike_releaseWebSocketSend hc i)
    (.refl c) c.pendingSends

theorem alike_finishSend (c : PeerConnection) (i : Nat) : Alike c (c.finishSend i) := by
  unfold finishSend
  split
  · exact .refl c
  · rename_i s hs
    split
    · split
      · have h := alike_releaseWebSocketSend (.refl c) i
        refine ⟨h.kind, h.isOpen, h.live, h.wire, ?_⟩
        rw [← h.payloads]
        unfold markOver
        refine List.ext_getElem? fun j => ?_
        simp only [List.getElem?_map, List.getElem?_modify]
        cases (c.releaseWebSocketSend i).sends[j]? with
        | none => rfl
        | some s => split <;> rfl
      · exact ⟨rfl, rfl, rfl, rfl, payloads_set hs (by rfl)⟩
    · exact .refl c

theorem alike_answerWriting (c : PeerConnection) (failure : Option String) :
    Alike c (c.answerWriting failure) := by
  refine ⟨rfl, rfl, rfl, rfl, ?_⟩
  unfold answerWriting
  rw [List.map_map]
  refine List.map_congr_left ?_
  intro s _
  simp only [Function.comp_apply]
  split <;> rfl

/-- What becomes of a connection: the sends that were accepted stay in their order, and once it is
not open it stays so, and nothing more goes to its socket. -/
structure Onward (c c' : PeerConnection) : Prop where
  kind : c'.kind = c.kind
  payloads : c.sends.map (·.payload) <+: c'.sends.map (·.payload)
  shut : c.isConnectionOpen = false → c'.isConnectionOpen = false ∧ c'.wire = c.wire

theorem Alike.onward (h : Alike c c') : Onward c c' := by
  refine ⟨h.kind, ?_, ?_⟩
  · rw [h.payloads]
  · intro hshut
    refine ⟨?_, h.wire⟩
    simpa [isConnectionOpen, h.kind, h.isOpen, h.live] using hshut

theorem Onward.refl (c : PeerConnection) : Onward c c := (Alike.refl c).onward

theorem Onward.trans {c'' : PeerConnection} (h : Onward c c') (h' : Onward c' c'') :
    Onward c c'' := by
  refine ⟨h'.kind.trans h.kind, h.payloads.trans h'.payloads, ?_⟩
  intro hshut
  obtain ⟨hshut', hwire⟩ := h.shut hshut
  obtain ⟨hshut'', hwire'⟩ := h'.shut hshut'
  exact ⟨hshut'', hwire'.trans hwire⟩

theorem alike_settle (hs : c.sends[i]? = some s) (failure : Option String) :
    Alike c (c.settle i s failure) :=
  ⟨rfl, rfl, rfl, rfl, payloads_set hs (by rfl)⟩

theorem onward_hand (hopen : c.isConnectionOpen = true) (hs : c.sends[i]? = some s)
    (write : Write) (live : Bool) : Onward c { c.hand i s write with live := live } := by
  refine ⟨rfl, ?_, fun hshut => ?_⟩
  · have hsame : (c.sends.set i { s with write := write, handed := true }).map (·.payload) =
        c.sends.map (·.payload) := payloads_set hs rfl
    simp only [hand, hsame]
    exact List.prefix_rfl
  · rw [hopen] at hshut
    cases hshut

theorem onward_runWrite (c : PeerConnection) (i : Nat) (answer : Answer) :
    Onward c (c.runWrite i answer) := by
  unfold runWrite
  split
  · exact .refl c
  · rename_i s hs
    have hsettle := fun failure => (alike_settle hs failure).onward
    split
    · split
      · split
        · rename_i hopen
          split
          · exact hsettle _
          · exact onward_hand hopen hs _ c.live
        · exact hsettle _
      · split
        · rename_i hopen
          split
          · exact onward_hand hopen hs _ c.live
          · exact onward_hand hopen hs _ c.live
          · exact onward_hand hopen hs _ false
          · exact hsettle _
        · exact hsettle _
    · exact .refl c

theorem Move.onward (h : Move c c') : Onward c c' := by
  cases h with
  | enqueue payload hopen =>
    refine ⟨?_, ?_, fun hshut => ?_⟩
    · unfold PeerConnection.enqueue
      simp only
      split <;> rfl
    · unfold PeerConnection.enqueue
      simp only
      split
      · exact List.prefix_rfl
      · simp
    · rw [hopen] at hshut
      cases hshut
  | runWrite i answer => exact onward_runWrite c i answer
  | answerWriting failure => exact (alike_answerWriting c failure).onward
  | finishSend i => exact (alike_finishSend c i).onward
  | release => exact (alike_releaseWebSocketQueue c).onward
  | shut isOpen live hopen hlive =>
    refine ⟨rfl, List.prefix_rfl, fun hshut => ⟨?_, rfl⟩⟩
    unfold isConnectionOpen at hshut ⊢
    cases hkind : c.kind <;> cases isOpen <;> cases live <;> simp_all

theorem Moves.balanced (h : Moves c c') (hc : c.Balanced) : c'.Balanced := by
  induction h with
  | refl => exact hc
  | tail _ hmove ih => exact hmove.balanced ih

theorem Moves.onward (h : Moves c c') : Onward c c' := by
  induction h with
  | refl => exact .refl c
  | tail _ hmove ih => exact ih.trans hmove.onward

theorem moves_closeConnection (c : PeerConnection) : Moves c c.closeConnection := by
  unfold closeConnection
  split
  · exact .single (.shut false false (by simp) (by simp))
  · rename_i hkind
    refine (Relation.ReflTransGen.single (Move.release hkind)).tail ?_
    exact .shut _ false id (by simp)

theorem moves_onClose (c : PeerConnection) : Moves c c.onClose := by
  unfold onClose
  split
  · refine (Relation.ReflTransGen.single (Move.shut false false (by simp) (by simp))).tail ?_
    exact .answerWriting _
  · rename_i hkind
    refine (Relation.ReflTransGen.single (Move.shut c.isOpen false id (by simp))).tail ?_
    exact .release hkind

theorem moves_onError (c : PeerConnection) (error : String) : Moves c (c.onError error) := by
  refine (Relation.ReflTransGen.single (Move.shut false c.live (by simp) id)).tail ?_
  exact .answerWriting _

theorem closeConnection_shut (c : PeerConnection) : c.closeConnection.isConnectionOpen = false := by
  unfold closeConnection
  split
  · rename_i hkind
    simp [isConnectionOpen, hkind]
  · rename_i hkind
    have hsame := (alike_releaseWebSocketQueue c).kind
    simp [isConnectionOpen, hsame, hkind]

theorem onError_shut (hkind : c.kind = .socket) (error : String) :
    (c.onError error).isConnectionOpen = false := by
  simp [onError, isConnectionOpen, answerWriting, hkind]

/-- Nothing moves any more: no write can be run, no send can come to its end, and no write waits
for its socket. -/
structure Stalled (c : PeerConnection) : Prop where
  runWrite : ∀ i answer, c.runWrite i answer = c
  finishSend : ∀ i, c.finishSend i = c
  writing : ∀ s ∈ c.sends, s.write ≠ .writing

theorem set_ne_self (hs : c.sends[i]? = some s) (hne : s' ≠ s) : c.sends.set i s' ≠ c.sends := by
  obtain ⟨before, after, hsplit, -, hset⟩ := sends_split hs
  rw [hset, hsplit]
  simpa using hne

/-- The first of the sends that are not settled could be run. -/
theorem Stalled.settled (h : c.Stalled) (hs : c.sends[i]? = some s) : s.IsSettled := by
  induction i using Nat.strong_induction_on generalizing s with
  | _ i ih =>
    have hearlier : ∀ earlier ∈ c.sends.take i, earlier.IsSettled := by
      intro earlier hmem
      obtain ⟨j, hj⟩ := List.mem_iff_getElem?.1 hmem
      rw [List.getElem?_take] at hj
      split at hj
      · rename_i hlt
        exact ih j hlt hj
      · cases hj
    cases hwrite : s.write with
    | settled failure => exact ⟨failure, hwrite⟩
    | writing => exact absurd hwrite (h.writing s (List.mem_of_getElem? hs))
    | queued =>
      have hrun := congrArg PeerConnection.sends (h.runWrite i .taken)
      have hready : s.write = .queued ∧ ∀ earlier ∈ c.sends.take i, earlier.IsSettled :=
        ⟨hwrite, hearlier⟩
      simp only [PeerConnection.runWrite, hs, if_pos hready] at hrun
      cases hkind : c.kind <;> cases hopen : c.isConnectionOpen <;>
        simp only [hkind, hopen, settle, hand, Bool.false_eq_true, if_false, if_true] at hrun <;>
        exact absurd hrun (set_ne_self hs fun he => by
          have hsame := congrArg OutboundSend.write he
          simp [hwrite] at hsame)

theorem Stalled.finished (h : c.Stalled) (hs : c.sends[i]? = some s) : s.finished = true := by
  by_contra hover
  have hend : s.IsSettled ∧ s.finished = false := ⟨h.settled hs, by simpa using hover⟩
  have hfinish := congrArg PeerConnection.sends (h.finishSend i)
  simp only [PeerConnection.finishSend, hs, if_pos hend] at hfinish
  cases hkind : c.kind with
  | socket =>
    simp only [hkind] at hfinish
    exact set_ne_self hs (fun he => hover (congrArg OutboundSend.finished he).symm) hfinish
  | websocket =>
    obtain ⟨s', hs', -⟩ := getElem?_releaseWebSocketSend hs
    simp only [hkind, markOver] at hfinish
    have hget := congrArg (fun sends => sends[i]?) hfinish
    simp only [List.getElem?_modify, if_true, hs', hs, Option.map_eq_map, Option.map_some,
      Option.some.injEq] at hget
    exact hover (congrArg OutboundSend.finished hget).symm

end PeerConnection

namespace NodeWebSocketTransport

open PeerConnection

variable {t t' t'' : NodeWebSocketTransport} {i : Nat} {c c' : PeerConnection}

/-- Each connection has moved on, and those that are there had a beginning. -/
structure Follows (t t' : NodeWebSocketTransport) : Prop where
  onward : ∀ (i : Nat) (c : PeerConnection), t.made[i]? = some c →
    ∃ c', t'.made[i]? = some c' ∧ Moves c c'
  origin : ∀ (i : Nat) (c' : PeerConnection), t'.made[i]? = some c' → (∃ c, t.made[i]? = some c ∧ Moves c c') ∨
    ∃ kind peerId, Moves { kind := kind, peerId := peerId } c'

theorem follows_of_made (h : t'.made = t.made) : Follows t t' := by
  refine ⟨fun i c hc => ⟨c, h ▸ hc, .refl⟩, fun i c' hc' => .inl ⟨c', h ▸ hc', .refl⟩⟩

theorem Follows.trans (h : Follows t t') (h' : Follows t' t'') : Follows t t'' := by
  refine ⟨?_, ?_⟩
  · intro i c hc
    obtain ⟨c', hc', hmoves⟩ := h.onward i c hc
    obtain ⟨c'', hc'', hmoves'⟩ := h'.onward i c' hc'
    exact ⟨c'', hc'', Relation.ReflTransGen.trans hmoves hmoves'⟩
  · intro i c'' hc''
    rcases h'.origin i c'' hc'' with ⟨c', hc', hmoves'⟩ | hfresh
    · rcases h.origin i c' hc' with ⟨c, hc, hmoves⟩ | ⟨kind, peerId, hmoves⟩
      · exact .inl ⟨c, hc, Relation.ReflTransGen.trans hmoves hmoves'⟩
      · exact .inr ⟨kind, peerId, Relation.ReflTransGen.trans hmoves hmoves'⟩
    · exact .inr hfresh

theorem made_update (t : NodeWebSocketTransport) (i : Nat) (f : PeerConnection → PeerConnection)
    (j : Nat) : (t.update i f).made[j]? = (t.made[j]?).map (if i = j then f else id) := by
  simp only [update, List.getElem?_modify]
  cases t.made[j]? with
  | none => rfl
  | some c => split <;> rfl

theorem follows_update {f : PeerConnection → PeerConnection}
    (hf : ∀ c, t.made[i]? = some c → Moves c (f c)) : Follows t (t.update i f) := by
  have hmoves : ∀ j c, t.made[j]? = some c → Moves c ((if i = j then f else id) c) := by
    intro j c hc
    by_cases hij : i = j
    · subst hij
      simpa using hf c hc
    · rw [if_neg hij]
      exact .refl
  refine ⟨?_, ?_⟩
  · intro j c hc
    exact ⟨_, by rw [made_update, hc, Option.map_some], hmoves j c hc⟩
  · intro j c' hc'
    rw [made_update] at hc'
    obtain ⟨c, hc, rfl⟩ := Option.map_eq_some_iff.1 hc'
    exact .inl ⟨c, hc, hmoves j c hc⟩

theorem follows_add (t : NodeWebSocketTransport) (kind : ConnectionKind) (peerId : String) :
    Follows t (t.add { kind := kind, peerId := peerId }) := by
  refine ⟨?_, ?_⟩
  · intro i c hc
    have hlt := (List.getElem?_eq_some_iff.1 hc).1
    exact ⟨c, (List.getElem?_append_left hlt).trans hc, .refl⟩
  · intro i c' hc'
    rcases List.mem_append.1 (List.mem_of_getElem? hc') with hold | hnew
    · by_cases hlt : i < t.made.length
      · exact .inl ⟨c', (List.getElem?_append_left hlt).symm.trans hc', .refl⟩
      · have hlast : c' = { kind := kind, peerId := peerId } := by
          simp only [add, List.getElem?_append_right (not_lt.1 hlt)] at hc'
          exact List.mem_singleton.1 (List.mem_of_getElem? hc')
        exact .inr ⟨kind, peerId, hlast ▸ .refl⟩
    · exact .inr ⟨kind, peerId, List.mem_singleton.1 hnew ▸ .refl⟩

theorem forget_made (t : NodeWebSocketTransport) (i : Nat) : (t.forget i).made = t.made := by
  unfold forget
  split
  · rfl
  · split <;> rfl

theorem follows_closeConnections (t : NodeWebSocketTransport) (is : List Nat) :
    Follows t (is.foldl (fun t i => t.update i (·.closeConnection)) t) := by
  induction is generalizing t with
  | nil => exact follows_of_made rfl
  | cons i rest ih =>
    have hfirst : Follows t (t.update i (·.closeConnection)) :=
      follows_update fun c _ => moves_closeConnection c
    exact hfirst.trans (ih _)

theorem follows_close (t : NodeWebSocketTransport) (peerId : Option String) :
    Follows t (t.close peerId) := by
  unfold close
  split
  · split
    · exact follows_of_made rfl
    · rename_i i _
      have hclosed : Follows t (t.update i (·.closeConnection)) :=
        follows_update fun c _ => moves_closeConnection c
      exact hclosed.trans (follows_of_made rfl)
  · exact (follows_closeConnections t _).trans (follows_of_made rfl)

theorem follows_sendRaw (t : NodeWebSocketTransport) (peerId : String) (payload : Payload) :
    Follows t (t.sendRaw peerId payload).1 := by
  unfold sendRaw
  split
  · exact follows_of_made rfl
  · rename_i i _
    split
    · exact follows_of_made rfl
    · rename_i c hc
      split
      · rename_i hopen
        split
        · exact follows_of_made rfl
        · rename_i c' hc'
          refine follows_update fun c'' hc'' => ?_
          obtain rfl : c = c'' := Option.some.inj (hc.symm.trans hc'')
          have hmove : Move c (c.enqueue payload).1 := .enqueue payload hopen
          rw [hc'] at hmove
          exact .single hmove
      · exact follows_of_made rfl

theorem follows_finish (t : NodeWebSocketTransport) (i j : Nat) : Follows t (t.finish i j) := by
  have hfinish : ∀ t : NodeWebSocketTransport, Follows t (t.update i (·.finishSend j)) :=
    fun t => follows_update fun c _ => .single (.finishSend j)
  unfold finish
  split
  · exact follows_of_made rfl
  · split
    · have hreport : ∀ peerId error : String, Follows t (t.reportError peerId error) :=
        fun _ _ => follows_of_made rfl
      split
      · exact (hreport _ _).trans (hfinish _)
      · exact (hreport _ _).trans ((follows_close _ _).trans (hfinish _))
    · exact hfinish t

theorem follows_onError (t : NodeWebSocketTransport) (i : Nat) (error : String) :
    Follows t (t.onError i error) := by
  unfold onError
  split
  · have hlost : Follows t (t.update i (·.onError error)) :=
      follows_update fun c _ => moves_onError c error
    exact hlost.trans (follows_of_made (forget_made _ i))
  · exact follows_of_made rfl

theorem follows_step (t : NodeWebSocketTransport) (a : TransportAction) :
    Follows t (t.step a) := by
  cases a with
  | connect peerId => exact follows_add t .websocket peerId
  | accept sender => exact follows_add t .socket sender
  | send peerId payload => exact follows_sendRaw t peerId payload
  | close peerId => exact follows_close t peerId
  | run i j answer => exact follows_update fun c _ => .single (.runWrite j answer)
  | finish i j => exact follows_finish t i j
  | drainEvent i => exact follows_update fun c _ => .single (.answerWriting none)
  | errorEvent i error => exact follows_onError t i error
  | closeEvent i =>
    have hclosed : Follows t (t.update i (·.onClose)) :=
      follows_update fun c _ => moves_onClose c
    exact hclosed.trans (follows_of_made (forget_made _ i))
  | lose i => exact follows_update fun c _ => .single (.shut c.isOpen false id (by simp))

/-- The action closes the connection, or it is the event that says that it is closed. -/
def Closes (t : NodeWebSocketTransport) (i : Nat) (c : PeerConnection) : TransportAction → Prop
  | .close peerId =>
    match peerId.filter (· ≠ "") with
    | some peerId => t.connections.get? peerId = some i
    | none => ∃ peerId, t.connections.get? peerId = some i
  | .errorEvent j _ => j = i ∧ c.kind = .socket
  | .closeEvent j => j = i
  | .lose j => j = i
  | _ => False

/-- A connection is not open any more, with what had gone to its socket before. -/
def Shut (t : NodeWebSocketTransport) (i : Nat) (wire : List Outgoing) : Prop :=
  ∃ c, t.made[i]? = some c ∧ c.isConnectionOpen = false ∧ c.wire = wire

theorem Shut.follows {wire : List Outgoing} (h : t.Shut i wire) (hfollows : Follows t t') :
    t'.Shut i wire := by
  obtain ⟨c, hc, hshut, rfl⟩ := h
  obtain ⟨c', hc', hmoves⟩ := hfollows.onward i c hc
  exact ⟨c', hc', hmoves.onward.shut hshut⟩

theorem Shut.congr {wire : List Outgoing} (h : t.Shut i wire) (hmade : t'.made = t.made) :
    t'.Shut i wire := h.follows (follows_of_made hmade)

end NodeWebSocketTransport

end PonsWarp.Cli
