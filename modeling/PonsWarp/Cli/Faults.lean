import PonsWarp.Cli.AfterClose

set_option autoImplicit false

/-!
Whom a fault on a connection takes down. Most of the error paths close whatever
connection the table has under the peer id that the faulty one claims.
-/

namespace PonsWarp.Cli

open PonsWarp.Data PeerConnection

/-- What the transport does about a fault: it closes by the peer id, only reports it, or marks
the connection itself. -/
inductive FaultKind
  | byPeerId
  | reported
  | itself
  deriving DecidableEq

/-- A fault on a connection, with the transport before and after it is dealt with. -/
structure Fault where
  connection : Nat
  kind : FaultKind
  before : NodeWebSocketTransport
  after : NodeWebSocketTransport

namespace NodeWebSocketTransport

variable {t t' : NodeWebSocketTransport} {i j : Nat} {c : PeerConnection}

/-- Whether a connection is open, if there is one. -/
def openAt (t : NodeWebSocketTransport) (i : Nat) : Option Bool :=
  t.made[i]?.map (·.isConnectionOpen)

/-- The connection is not open, and every other one is open and registered as it was. -/
structure Confines (i : Nat) (t t' : NodeWebSocketTransport) : Prop where
  ended : t'.openAt i ≠ some true
  others : ∀ j, j ≠ i → t'.openAt j = t.openAt j
  table : ∀ j peerId, j ≠ i → (t'.connections.get? peerId = some j ↔
    t.connections.get? peerId = some j)

/-- To close by the peer id of the connection comes to the connection itself. -/
def Reaches (t : NodeWebSocketTransport) (i : Nat) (c : PeerConnection) : Prop :=
  if c.peerId = "" then
    (∀ j peerId, t.connections.get? peerId = some j → j = i) ∧
      (c.isConnectionOpen = false ∨ ∃ peerId, t.connections.get? peerId = some i)
  else t.connections.get? c.peerId = some i ∨
    (t.connections.get? c.peerId = none ∧ c.isConnectionOpen = false)

theorem openAt_update (t : NodeWebSocketTransport) (i : Nat)
    (f : PeerConnection → PeerConnection) (j : Nat) :
    (t.update i f).openAt j =
      if i = j then t.made[j]?.map fun c => (f c).isConnectionOpen else t.openAt j := by
  rw [openAt, made_update]
  split
  · rw [Option.map_map]
    rfl
  · rw [Option.map_id_fun, id, openAt]

theorem openAt_update_of_ne (t : NodeWebSocketTransport) (f : PeerConnection → PeerConnection)
    (h : j ≠ i) : (t.update i f).openAt j = t.openAt j := by
  rw [openAt_update, if_neg fun he => h he.symm]

theorem openAt_closeConnection (t : NodeWebSocketTransport) (i : Nat) :
    (t.update i (·.closeConnection)).openAt i ≠ some true := by
  rw [openAt_update, if_pos rfl]
  cases t.made[i]? with
  | none => simp
  | some c => simp [closeConnection_shut]

/-- To close by a peer id that is not empty is confined to the connection exactly if the table has
it there, or has none and it is not open. -/
theorem confines_close_iff (hc : t.made[i]? = some c) (hne : c.peerId ≠ "") :
    Confines i t (t.close (some c.peerId)) ↔ t.connections.get? c.peerId = some i ∨
      (t.connections.get? c.peerId = none ∧ c.isConnectionOpen = false) := by
  have hsome : (some c.peerId).filter (· ≠ "") = some c.peerId := by simp [Option.filter, hne]
  cases hreg : t.connections.get? c.peerId with
  | none =>
    have hclose : t.close (some c.peerId) = t := by simp only [close, hsome, hreg]
    rw [hclose]
    simp only [reduceCtorEq, true_and, false_or]
    constructor
    · intro h
      have hended := h.ended
      rw [openAt, hc] at hended
      simpa using hended
    · intro hclosed
      refine ⟨?_, fun _ _ => rfl, fun _ _ _ => Iff.rfl⟩
      simp [openAt, hc, hclosed]
  | some k =>
    have hclose : t.close (some c.peerId) = { t.update k (·.closeConnection) with
        connections := t.connections.delete c.peerId } := by
      simp only [close, hsome, hreg]
    rw [hclose]
    simp only [Option.some.injEq, reduceCtorEq, false_and, or_false]
    constructor
    · intro h
      by_contra hki
      have htable := (h.table k c.peerId hki).2 hreg
      simp at htable
    · rintro rfl
      refine ⟨openAt_closeConnection t k, fun j hj => openAt_update_of_ne t _ hj,
        fun j peerId hj => ?_⟩
      simp only [OrderedMap.get?_delete_eq_some, and_iff_right_iff_imp]
      rintro hother rfl
      exact hj (Option.some.inj (hother.symm.trans hreg))

theorem openAt_closeConnections (t : NodeWebSocketTransport) {is : List Nat} (h : ∀ k ∈ is, k = i) :
    (∀ j, j ≠ i →
      (is.foldl (fun t i => t.update i (·.closeConnection)) t).openAt j = t.openAt j) ∧
    ((is.foldl (fun t i => t.update i (·.closeConnection)) t).openAt i ≠ some true ↔
      is ≠ [] ∨ t.openAt i ≠ some true) := by
  induction is generalizing t with
  | nil => simp
  | cons k rest ih =>
    obtain rfl := h k (by simp)
    obtain ⟨hothers, hself⟩ := ih (t.update k (·.closeConnection)) fun j hj => h j (by simp [hj])
    refine ⟨fun j hj => (hothers j hj).trans (openAt_update_of_ne t _ hj), ?_⟩
    exact iff_of_true (hself.2 (.inr (openAt_closeConnection t k))) (.inl (by simp))

/-- An empty peer id stands for all connections of the table. -/
theorem confines_closeAll_iff (hc : t.made[i]? = some c) :
    Confines i t (t.close (some "")) ↔ (∀ j peerId, t.connections.get? peerId = some j → j = i) ∧
      (c.isConnectionOpen = false ∨ ∃ peerId, t.connections.get? peerId = some i) := by
  have hnone : (some "").filter (· ≠ "") = none := by simp [Option.filter]
  have hopen : t.openAt i ≠ some true ↔ c.isConnectionOpen = false := by simp [openAt, hc]
  unfold close
  rw [hnone]
  simp only
  constructor
  · intro h
    have honly : ∀ j peerId, t.connections.get? peerId = some j → j = i := by
      intro j peerId hj
      by_contra hne
      have htable := (h.table j peerId hne).2 hj
      simp at htable
    have hvalues : ∀ k ∈ t.connections.values, k = i := by
      intro k hk
      obtain ⟨peerId, hpeer⟩ := OrderedMap.mem_values_iff.1 hk
      exact honly k peerId hpeer
    refine ⟨honly, ?_⟩
    rcases (openAt_closeConnections t hvalues).2.1 h.ended with hsome | hclosed
    · obtain ⟨k, hk⟩ := List.exists_mem_of_ne_nil _ hsome
      obtain rfl := hvalues k hk
      exact .inr (OrderedMap.mem_values_iff.1 hk)
    · exact .inl (hopen.1 hclosed)
  · rintro ⟨honly, hends⟩
    have hvalues : ∀ k ∈ t.connections.values, k = i := by
      intro k hk
      obtain ⟨peerId, hpeer⟩ := OrderedMap.mem_values_iff.1 hk
      exact honly k peerId hpeer
    obtain ⟨hothers, hself⟩ := openAt_closeConnections t hvalues
    refine ⟨hself.2 ?_, hothers, fun j peerId hj => ?_⟩
    · rcases hends with hclosed | ⟨peerId, hpeer⟩
      · exact .inr (hopen.2 hclosed)
      · exact .inl (List.ne_nil_of_mem (OrderedMap.mem_values_iff.2 ⟨peerId, hpeer⟩))
    · refine iff_of_false (by simp) fun hreg => hj (honly j peerId hreg)

theorem confines_iff_reaches (hc : t.made[i]? = some c) :
    Confines i t (t.close (some c.peerId)) ↔ t.Reaches i c := by
  unfold Reaches
  split
  · rename_i hempty
    rw [hempty]
    exact confines_closeAll_iff hc
  · rename_i hne
    exact confines_close_iff hc hne

/-- Neither the errors nor the sends of the connection matter. -/
theorem Confines.congr {t₀ t₁ : NodeWebSocketTransport} (hopen : ∀ j, t₀.openAt j = t.openAt j)
    (htable : t₀.connections = t.connections) (hopen' : ∀ j, t₁.openAt j = t'.openAt j)
    (htable' : t₁.connections = t'.connections) : Confines i t₀ t₁ ↔ Confines i t t' := by
  constructor
  · rintro ⟨hended, hothers, hregistered⟩
    refine ⟨hopen' i ▸ hended, fun j hj => ?_, fun j peerId hj => ?_⟩
    · rw [← hopen', ← hopen]
      exact hothers j hj
    · rw [← htable', ← htable]
      exact hregistered j peerId hj
  · rintro ⟨hended, hothers, hregistered⟩
    refine ⟨hopen' i ▸ hended, fun j hj => ?_, fun j peerId hj => ?_⟩
    · rw [hopen', hopen]
      exact hothers j hj
    · rw [htable', htable]
      exact hregistered j peerId hj

theorem openAt_update_same (t : NodeWebSocketTransport) (i : Nat)
    {f : PeerConnection → PeerConnection} (hf : ∀ c, (f c).isConnectionOpen = c.isConnectionOpen)
    (j : Nat) : (t.update i f).openAt j = t.openAt j := by
  rw [openAt_update]
  split
  · simp only [hf, openAt]
  · rfl

theorem finishSend_open (c : PeerConnection) (j : Nat) :
    (c.finishSend j).isConnectionOpen = c.isConnectionOpen := by
  have halike := alike_finishSend c j
  simp only [isConnectionOpen, halike.kind, halike.isOpen, halike.live]

/-- The event 'error' of a raw socket concerns that socket alone. -/
theorem confines_onError (hc : t.made[i]? = some c) (hkind : c.kind = .socket) (error : String) :
    Confines i t (t.onError i error) := by
  have hlost : (t.update i (·.onError error)).openAt i ≠ some true := by
    rw [openAt_update, if_pos rfl, hc]
    simp [onError_shut hkind]
  have honError : t.onError i error =
      ((t.update i (·.onError error)).reportError c.peerId error).forget i := by
    cases c
    cases hkind
    simp only [onError, hc]
  have hopen : ∀ j, (t.onError i error).openAt j = (t.update i (·.onError error)).openAt j := by
    intro j
    rw [honError, openAt, forget_made, openAt]
    rfl
  refine ⟨hopen i ▸ hlost, fun j hj => (hopen j).trans (openAt_update_of_ne t _ hj),
    fun j peerId hj => ?_⟩
  rw [honError]
  unfold forget
  split
  · exact Iff.rfl
  · split
    · rename_i c' _ hreg
      refine OrderedMap.get?_delete_eq_some.trans ⟨fun h => h.2, fun hother => ⟨?_, hother⟩⟩
      rintro rfl
      have hsame : t.connections.get? c'.peerId = some i := hreg
      exact hj (Option.some.inj (hother.symm.trans hsame))
    · exact Iff.rfl

end NodeWebSocketTransport

namespace Fault

/-- The connection with the fault ends, and the others are as before. -/
def Confined (f : Fault) : Prop := f.before.Confines f.connection f.after

/-- The fault is dealt with by the peer id, and that comes to the connection itself; or it is only
reported, and the connection is not open any more; or it is dealt with on the connection. -/
def Safe (f : Fault) : Prop :=
  ∀ c, f.before.made[f.connection]? = some c →
    match f.kind with
    | .byPeerId => f.before.Reaches f.connection c
    | .reported => c.isConnectionOpen = false
    | .itself => True

end Fault

namespace ReceivingTransport

open NodeWebSocketTransport

variable {J : Type} {parse : List Char → Except String J} {e : ReceivingTransport J} {i : Nat}
  {c : PeerConnection}

/-- The faults among the reactions of a connection. -/
def faultsOf (i : Nat) (peerId : String) : ReceivingTransport J → List (Reaction J) → List Fault
  | _, [] => []
  | e, x :: rest =>
    let e' := e.react i peerId x
    if x.isFault then ⟨i, .byPeerId, e.transport, e'.transport⟩ :: faultsOf i peerId e' rest
    else faultsOf i peerId e' rest

/-- The faults that an action meets: close frames, malformed texts and errors in what is received,
writes that fail, and errors of raw sockets. -/
def faults (parse : List Char → Except String J) (e : ReceivingTransport J) :
    ReceiveAction → List Fault
  | .accept sender initialData =>
    if sender = "" ∨ MAX_PENDING_RECEIVE_BYTES < initialData.length then []
    else
      let i := e.transport.made.length
      let (r, reactions) := Reader.begin parse initialData
      faultsOf i sender ({ e with transport := e.transport.step (.accept sender) }.setReader i r)
        reactions
  | .data i chunk =>
    match e.transport.made[i]? with
    | some { kind := .socket, peerId := peerId, live := true, .. } =>
      let (r, reactions) := (e.readers i).onData parse chunk
      faultsOf i peerId (e.setReader i r) reactions
    | _ => []
  | .message i data =>
    match e.transport.made[i]? with
    | some { kind := .websocket, peerId := peerId, live := true, .. } =>
      faultsOf i peerId e [messageReaction parse data]
    | _ => []
  | .transport (.finish i j) =>
    match e.transport.made[i]? with
    | none => []
    | some c =>
      match c.sends[j]? with
      | some { write := .settled (some _), finished := false, .. } =>
        match c.kind with
        | .websocket => [⟨i, .reported, e.transport, e.transport.finish i j⟩]
        | .socket => [⟨i, .byPeerId, e.transport, e.transport.finish i j⟩]
      | _ => []
  | .transport (.errorEvent i error) =>
    match e.transport.made[i]? with
    | some { kind := .socket, .. } => [⟨i, .itself, e.transport, e.transport.onError i error⟩]
    | _ => []
  | .transport _ => []

def faultsOfRun (parse : List Char → Except String J) :
    ReceivingTransport J → List ReceiveAction → List Fault
  | _, [] => []
  | e, a :: rest => faults parse e a ++ faultsOfRun parse (e.step parse a) rest

theorem safe_byPeerId {t t' : NodeWebSocketTransport} (hc : t.made[i]? = some c) :
    (⟨i, .byPeerId, t, t'⟩ : Fault).Safe ↔ t.Reaches i c := by
  constructor
  · intro h
    exact h c hc
  · intro h c' hc'
    obtain rfl := Option.some.inj (hc.symm.trans hc')
    exact h

theorem confines_reported (hc : e.transport.made[i]? = some c) (error : String) :
    e.transport.Confines i ((e.transport.reportError c.peerId error).close (some c.peerId)) ↔
      e.transport.Reaches i c := by
  have hreported := confines_iff_reaches (t := e.transport.reportError c.peerId error) hc
  constructor
  · rintro ⟨hended, hothers, htable⟩
    exact hreported.1 ⟨hended, hothers, htable⟩
  · intro h
    obtain ⟨hended, hothers, htable⟩ := hreported.2 h
    exact ⟨hended, hothers, htable⟩

theorem faultsOf_confined_iff {reactions : List (Reaction J)}
    (hc : e.transport.made[i]? = some c) :
    ∀ f ∈ faultsOf i c.peerId e reactions, f.Confined ↔ f.Safe := by
  induction reactions generalizing e c with
  | nil => simp [faultsOf]
  | cons x rest ih =>
    obtain ⟨c', hc', hmoves⟩ := (follows_react e i c.peerId x).onward i c hc
    have hrest := ih hc'
    rw [hmoves.lasting.peerId] at hrest
    intro f hf
    unfold faultsOf at hf
    simp only at hf
    split at hf
    · rename_i hfault
      rcases List.mem_cons.1 hf with rfl | hf
      · rw [safe_byPeerId hc]
        cases x with
        | delivered received => cases hfault
        | closeFrame => exact confines_iff_reaches hc
        | malformed error => exact confines_reported hc error
        | failed error => exact confines_reported hc error
      · exact hrest f hf
    · exact hrest f hf

theorem finish_confined_iff (j : Nat) :
    ∀ f ∈ faults parse e (.transport (.finish i j)), f.Confined ↔ f.Safe := by
  intro f hf
  unfold faults at hf
  simp only at hf
  split at hf
  · simp at hf
  · rename_i c hc
    split at hf
    · rename_i error _ _ _ hs
      have hdone : ∀ (t : NodeWebSocketTransport) k,
          (t.update i (·.finishSend j)).openAt k = t.openAt k := fun t k =>
        openAt_update_same t i (fun c => finishSend_open c j) k
      split at hf
      · rename_i hkind
        obtain rfl := List.mem_singleton.1 hf
        have hfinish : e.transport.finish i j =
            (e.transport.reportError c.peerId error).update i (·.finishSend j) := by
          simp only [finish, hc, hs, hkind]
        have hsafe : (⟨i, .reported, e.transport, e.transport.finish i j⟩ : Fault).Safe ↔
            c.isConnectionOpen = false := by
          simp [Fault.Safe, hc]
        rw [hsafe, Fault.Confined, hfinish]
        constructor
        · intro h
          have hended := h.ended
          rw [hdone] at hended
          simpa [openAt, reportError, hc] using hended
        · intro hclosed
          refine ⟨?_, fun k _ => hdone _ k, fun _ _ _ => Iff.rfl⟩
          rw [hdone]
          simp [openAt, reportError, hc, hclosed]
      · rename_i hkind
        obtain rfl := List.mem_singleton.1 hf
        have hfinish : e.transport.finish i j =
            ((e.transport.reportError c.peerId error).close (some c.peerId)).update i
              (·.finishSend j) := by
          simp only [finish, hc, hs, hkind]
        rw [safe_byPeerId hc, ← confines_reported hc error, Fault.Confined, hfinish]
        exact Confines.congr (fun _ => rfl) rfl (hdone _) rfl
    · simp at hf

/-- A fault is confined exactly if it is dealt with where it is. -/
theorem confined_iff_safe (a : ReceiveAction) : ∀ f ∈ faults parse e a, f.Confined ↔ f.Safe := by
  have hnone : ∀ f ∈ ([] : List Fault), f.Confined ↔ f.Safe := by simp
  cases a with
  | accept sender initialData =>
    unfold faults
    simp only
    split
    · exact hnone
    · refine faultsOf_confined_iff (c := { kind := .socket, peerId := sender }) ?_
      exact (List.getElem?_append_right (le_refl _)).trans (by simp)
  | data i chunk =>
    unfold faults
    simp only
    split
    · rename_i hc
      exact faultsOf_confined_iff
        (e := e.setReader i ((e.readers i).onData parse chunk).1) hc
    · exact hnone
  | message i data =>
    unfold faults
    simp only
    split
    · rename_i hc
      exact faultsOf_confined_iff hc
    · exact hnone
  | transport action =>
    cases action with
    | finish i j => exact finish_confined_iff j
    | errorEvent i error =>
      unfold faults
      simp only
      split
      · rename_i hc
        intro f hf
        obtain rfl := List.mem_singleton.1 hf
        exact iff_of_true (confines_onError hc rfl error) fun _ _ => trivial
      · exact hnone
    | _ => exact hnone

end ReceivingTransport

open ReceivingTransport in
/-- In a run every fault ends the connection it is on, and leaves the others open and registered,
exactly if each is met where the table has that connection under its peer id, or has none and the
connection is not open, or is an error of the socket itself. -/
theorem faults_are_confined_iff {J : Type} (parse : List Char → Except String J)
    (run : List ReceiveAction) :
    (∀ f ∈ faultsOfRun parse {} run, f.Confined) ↔ ∀ f ∈ faultsOfRun parse {} run, f.Safe := by
  have hall : ∀ (run : List ReceiveAction) (e : ReceivingTransport J),
      ∀ f ∈ faultsOfRun parse e run, f.Confined ↔ f.Safe := by
    intro run
    induction run with
    | nil => simp [faultsOfRun]
    | cons a rest ih =>
      intro e f hf
      rcases List.mem_append.1 hf with hf | hf
      · exact confined_iff_safe a f hf
      · exact ih _ f hf
  exact forall₂_congr (hall run {})

/-- Two connections claim the peer id "a", and the first receives a text that is no JSON. -/
def claimedTwice : List ReceiveAction :=
  [.accept "a" [], .accept "a" [], .data 0 [0x81, 0x01, 0x78]]

open ReceivingTransport in
/-- The second connection is closed and taken out of the table, the first stays open. -/
theorem fault_takes_down_another :
    (¬ ∀ f ∈ faultsOfRun sampleParse {} claimedTwice, f.Confined) ∧
      (steps (step sampleParse) {} claimedTwice).transport.openAt 0 = some true ∧
      (steps (step sampleParse) {} claimedTwice).transport.openAt 1 = some false ∧
      (steps (step sampleParse) {} claimedTwice).transport.connections.get? "a" = none := by
  refine ⟨fun h => ?_, by decide +kernel, by decide +kernel, by decide +kernel⟩
  have hany : (faultsOfRun sampleParse {} claimedTwice).any
      (fun f => f.after.openAt f.connection = some true) = true := by decide +kernel
  obtain ⟨f, hf, hopen⟩ := List.any_eq_true.1 hany
  exact (h f hf).ended (by simpa using hopen)

end PonsWarp.Cli
