import PonsWarp.Cli.ReceivingTransport

set_option autoImplicit false

/-!
What a raw connection hands on once it should have ended. The loop over the frames of a
data event goes on behind a close frame, and the connection that is closed is the one in
the table, so that another one on the same peer id can be hit in its place.
-/

namespace PonsWarp.Cli

open PonsWarp.Data

/-- The frame may end a message. -/
def completes (frame : Frame) : Bool :=
  frame.fin && (frame.opcode = 0x0 || frame.opcode = 0x1 || frame.opcode = 0x2)

variable {J : Type} {parse : List Char → Except String J}

/-- After the one the other hands nothing on, if the one ends the connection. -/
def Reaction.Precedes (x y : Reaction J) : Prop := x.isFault = true → y.isFault = true

namespace Reader

variable {r : Reader}

/-- Behind a close frame or a malformed text no frame ends a message. -/
def ClosesLast (parse : List Char → Except String J) : Reader → List Frame → Prop
  | _, [] => True
  | r, frame :: rest =>
    match r.handleFrame parse frame with
    | (_, .error _) => True
    | (r', .ok reactions) =>
      if reactions.any Reaction.isFault then ∀ f ∈ rest, completes f = false
      else ClosesLast parse r' rest

/-- The frames that are whole in the buffer are handled so. -/
def Orderly (parse : List Char → Except String J) (r : Reader) (buffer : List UInt8) : Prop :=
  match parseFrames buffer with
  | .error _ => True
  | .ok (frames, remaining) => ClosesLast parse { r with pending := remaining } frames

instance decidableClosesLast (parse : List Char → Except String J) :
    ∀ (r : Reader) (frames : List Frame), Decidable (ClosesLast parse r frames)
  | _, [] => isTrue trivial
  | r, frame :: rest =>
    match h : r.handleFrame parse frame with
    | (_, .error _) => isTrue (by simp [ClosesLast, h])
    | (r', .ok reactions) =>
      have := decidableClosesLast parse r' rest
      decidable_of_iff (if reactions.any Reaction.isFault then ∀ f ∈ rest, completes f = false
        else ClosesLast parse r' rest) (by simp [ClosesLast, h])

instance (parse : List Char → Except String J) (r : Reader) (buffer : List UInt8) :
    Decidable (r.Orderly parse buffer) :=
  match h : parseFrames buffer with
  | .error _ => isTrue (by simp [Orderly, h])
  | .ok (frames, remaining) =>
    decidable_of_iff (ClosesLast parse { r with pending := remaining } frames) (by simp [Orderly, h])

theorem dispatchFrame_length (opcode : UInt8) (payload : List UInt8) :
    (dispatchFrame parse opcode payload).length ≤ 1 := by
  unfold dispatchFrame
  split
  · simp
  · split
    · simp
    · split <;> simp

/-- A frame that ends no message calls no handler. -/
theorem faults_of_incomplete (parse : List Char → Except String J) {frame : Frame} (h : completes frame = false)
    {reactions : List (Reaction J)} (hok : (r.handleFrame parse frame).2 = .ok reactions) :
    ∀ x ∈ reactions, x.isFault = true := by
  have hnone : ∀ x ∈ ([] : List (Reaction J)), x.isFault = true := by simp
  unfold handleFrame at hok
  split at hok
  · rename_i hopcode
    have hfin : frame.fin = false := by simpa [completes, hopcode] using h
    split at hok
    · cases hok
    · simp only [hfin, Bool.false_eq_true, if_false] at hok
      split at hok
      · cases hok
      · cases hok
        exact hnone
  · split at hok
    · rename_i hopcode
      have hfin : frame.fin = false := by
        rcases hopcode with hopcode | hopcode
        · simpa [completes, hopcode] using h
        · simpa [completes, hopcode] using h
      simp only [hfin, Bool.false_eq_true, if_false] at hok
      split at hok
      · cases hok
      · cases hok
        exact hnone
    · rename_i hzero hdata
      cases hok
      obtain ⟨htext, hbinary⟩ := not_or.1 hdata
      unfold dispatchFrame
      rw [if_neg htext, if_neg hbinary]
      split
      · simp [Reaction.isFault]
      · exact hnone

theorem faults_of_all_incomplete (parse : List Char → Except String J) {frames : List Frame}
    (h : ∀ f ∈ frames, completes f = false) :
    ∀ x ∈ (r.handleFrames parse frames).2, x.isFault = true := by
  induction frames generalizing r with
  | nil => simp [handleFrames]
  | cons frame rest ih =>
    unfold handleFrames
    cases hstep : r.handleFrame parse frame with
    | mk r' result =>
      cases result with
      | error error => simp [Reaction.isFault]
      | ok reactions =>
        have hfirst := faults_of_incomplete parse (r := r) (h frame (by simp))
          (by rw [hstep])
        intro x hx
        rcases List.mem_append.1 hx with hx | hx
        · exact hfirst x hx
        · exact ih (fun f hf => h f (by simp [hf])) x hx

theorem pairwise_handleFrames {frames : List Frame} (h : ClosesLast parse r frames) :
    (r.handleFrames parse frames).2.Pairwise Reaction.Precedes := by
  induction frames generalizing r with
  | nil => exact .nil
  | cons frame rest ih =>
    have hlength : ∀ reactions, (r.handleFrame parse frame).2 = .ok reactions →
        reactions.length ≤ 1 := by
      intro reactions hok
      unfold handleFrame at hok
      split at hok
      · split at hok
        · cases hok
        · simp only at hok
          split at hok
          · cases hok
          · split at hok
            · cases hok
              exact dispatchFrame_length _ _
            · cases hok
              simp
      · split at hok
        · split at hok
          · cases hok
          · split at hok
            · cases hok
              exact dispatchFrame_length _ _
            · cases hok
              simp
        · cases hok
          exact dispatchFrame_length _ _
    unfold ClosesLast at h
    unfold handleFrames
    cases hstep : r.handleFrame parse frame with
    | mk r' result =>
      cases result with
      | error error => exact List.pairwise_singleton _ _
      | ok reactions =>
        rw [hstep] at h hlength
        have hone := hlength reactions rfl
        have hfirst : reactions.Pairwise Reaction.Precedes := by
          cases reactions with
          | nil => exact .nil
          | cons x rest =>
            obtain rfl : rest = [] := by simpa using hone
            exact List.pairwise_singleton _ _
        simp only at h ⊢
        split at h
        · have hrest := faults_of_all_incomplete parse (r := r') h
          refine List.pairwise_append.2 ⟨hfirst, ?_, fun x _ y hy _ => hrest y hy⟩
          exact List.pairwise_of_forall_mem_list fun x _ y hy _ => hrest y hy
        · rename_i hany
          refine List.pairwise_append.2 ⟨hfirst, ih h, fun x hx y _ hfault => ?_⟩
          exact absurd (List.any_eq_true.2 ⟨x, hx, hfault⟩) hany

theorem pairwise_parsePending (h : r.Orderly parse r.pending) :
    (r.parsePending parse).2.Pairwise Reaction.Precedes := by
  unfold Orderly at h
  unfold parsePending
  cases hparsed : parseFrames r.pending with
  | error error => exact List.pairwise_singleton _ _
  | ok parsed =>
    rw [hparsed] at h
    exact pairwise_handleFrames h

theorem pairwise_onData {chunk : List UInt8} (h : r.Orderly parse (r.pending ++ chunk)) :
    (r.onData parse chunk).2.Pairwise Reaction.Precedes := by
  unfold onData
  split
  · exact List.pairwise_singleton _ _
  · exact pairwise_parsePending (r := { r with pending := r.pending ++ chunk }) h

theorem pairwise_begin {initialData : List UInt8}
    (h : ({} : Reader).Orderly parse initialData) :
    (begin parse initialData).2.Pairwise Reaction.Precedes := by
  unfold begin
  split
  · exact pairwise_parsePending (r := { pending := initialData }) h
  · exact .nil

end Reader

/-! ### The connections that there are -/

namespace PeerConnection

variable {c c' : PeerConnection}

/-- A socket that is destroyed stays so, and a connection keeps its peer. -/
structure Lasting (c c' : PeerConnection) : Prop where
  kind : c'.kind = c.kind
  peerId : c'.peerId = c.peerId
  live : c.live = false → c'.live = false

theorem Lasting.refl (c : PeerConnection) : Lasting c c := ⟨rfl, rfl, id⟩

theorem Lasting.trans {c'' : PeerConnection} (h : Lasting c c') (h' : Lasting c' c'') :
    Lasting c c'' :=
  ⟨h'.kind.trans h.kind, h'.peerId.trans h.peerId, h'.live ∘ h.live⟩

theorem peerId_releaseWebSocketSend (c : PeerConnection) (i : Nat) :
    (c.releaseWebSocketSend i).peerId = c.peerId := by
  unfold releaseWebSocketSend
  split
  · rfl
  · split <;> rfl

theorem peerId_releaseWebSocketQueue (c : PeerConnection) :
    c.releaseWebSocketQueue.peerId = c.peerId :=
  releaseWebSocketSends_keeps (P := fun c' => c'.peerId = c.peerId)
    (fun c' i h => (peerId_releaseWebSocketSend c' i).trans h) rfl c.pendingSends

theorem lasting_enqueue (c : PeerConnection) (payload : Payload) :
    Lasting c (c.enqueue payload).1 := by
  unfold enqueue
  simp only
  split
  · exact .refl c
  · exact ⟨rfl, rfl, id⟩

theorem lasting_runWrite (c : PeerConnection) (i : Nat) (answer : Answer) :
    Lasting c (c.runWrite i answer) := by
  unfold runWrite
  split
  · exact .refl c
  · split
    · split
      · split
        · split <;> exact ⟨rfl, rfl, id⟩
        · exact ⟨rfl, rfl, id⟩
      · split
        · split
          · exact ⟨rfl, rfl, id⟩
          · exact ⟨rfl, rfl, id⟩
          · exact ⟨rfl, rfl, fun _ => rfl⟩
          · exact ⟨rfl, rfl, id⟩
        · exact ⟨rfl, rfl, id⟩
    · exact .refl c

theorem lasting_finishSend (c : PeerConnection) (i : Nat) : Lasting c (c.finishSend i) := by
  have halike := alike_finishSend c i
  refine ⟨halike.kind, ?_, fun h => halike.live.trans h⟩
  unfold finishSend
  split
  · rfl
  · split
    · split
      · exact peerId_releaseWebSocketSend c i
      · rfl
    · rfl

theorem Move.lasting (h : Move c c') : Lasting c c' := by
  cases h with
  | enqueue payload => exact lasting_enqueue c payload
  | runWrite i answer => exact lasting_runWrite c i answer
  | answerWriting failure => exact ⟨rfl, rfl, id⟩
  | finishSend i => exact lasting_finishSend c i
  | release hkind =>
    have halike := alike_releaseWebSocketQueue c
    exact ⟨halike.kind, peerId_releaseWebSocketQueue c, fun h => halike.live.trans h⟩
  | shut isOpen live hopen hlive =>
    refine ⟨rfl, rfl, fun h => ?_⟩
    cases live with
    | true => exact absurd (h.symm.trans (hlive rfl)) (by simp)
    | false => rfl

theorem Moves.lasting (h : Moves c c') : Lasting c c' := by
  induction h with
  | refl => exact .refl _
  | tail _ hmove ih => exact ih.trans hmove.lasting

end PeerConnection

namespace NodeWebSocketTransport

open PeerConnection

variable {t t' : NodeWebSocketTransport} {i : Nat} {c c' : PeerConnection}

theorem length_update (t : NodeWebSocketTransport) (i : Nat)
    (f : PeerConnection → PeerConnection) : (t.update i f).made.length = t.made.length :=
  List.length_modify _ _ _

theorem length_close (t : NodeWebSocketTransport) (peerId : Option String) :
    (t.close peerId).made.length = t.made.length := by
  have hall : ∀ (is : List Nat) (t : NodeWebSocketTransport),
      (is.foldl (fun t i => t.update i (·.closeConnection)) t).made.length = t.made.length := by
    intro is
    induction is with
    | nil => exact fun _ => rfl
    | cons i rest ih => exact fun t => (ih _).trans (length_update t i _)
  unfold close
  split
  · split
    · rfl
    · exact length_update t _ _
  · exact hall _ t

theorem length_finish (t : NodeWebSocketTransport) (i j : Nat) :
    (t.finish i j).made.length = t.made.length := by
  unfold finish
  split
  · rfl
  · split
    · split
      · exact length_update _ _ _
      · exact (length_update _ _ _).trans (length_close _ _)
    · exact length_update _ _ _

theorem length_sendRaw (t : NodeWebSocketTransport) (peerId : String) (payload : Payload) :
    (t.sendRaw peerId payload).1.made.length = t.made.length := by
  unfold sendRaw
  split
  · rfl
  · split
    · rfl
    · split
      · split
        · rfl
        · exact length_update _ _ _
      · rfl

theorem length_onError (t : NodeWebSocketTransport) (i : Nat) (error : String) :
    (t.onError i error).made.length = t.made.length := by
  unfold onError
  split
  · rw [forget_made]
    exact length_update _ _ _
  · rfl

/-- Connections are made where a peer connects or is connected to, and nowhere else. -/
theorem length_step (t : NodeWebSocketTransport) {a : TransportAction}
    (hconnect : ∀ peerId, a ≠ .connect peerId) (haccept : ∀ sender, a ≠ .accept sender) :
    (t.step a).made.length = t.made.length := by
  cases a with
  | connect peerId => exact absurd rfl (hconnect peerId)
  | accept sender => exact absurd rfl (haccept sender)
  | send peerId payload => exact length_sendRaw t peerId payload
  | close peerId => exact length_close t peerId
  | run i j answer => exact length_update _ _ _
  | finish i j => exact length_finish t i j
  | drainEvent i => exact length_update _ _ _
  | errorEvent i error => exact length_onError t i error
  | closeEvent i => exact (congrArg List.length (forget_made _ i)).trans (length_update _ _ _)
  | lose i => exact length_update _ _ _

theorem Follows.length_le (h : Follows t t') : t.made.length ≤ t'.made.length := by
  by_contra hlt
  have hin : t'.made.length < t.made.length := by omega
  obtain ⟨c', hc', -⟩ := h.onward _ _ (List.getElem?_eq_getElem hin)
  have hmore := (List.getElem?_eq_some_iff.1 hc').1
  omega

/-- What is there after a step was there before or has just been made. -/
theorem Follows.lasting (h : Follows t t') (hc : t.made[i]? = some c) (hc' : t'.made[i]? = some c') :
    Lasting c c' := by
  obtain ⟨c'', hc'', hmoves⟩ := h.onward i c hc
  obtain rfl : c'' = c' := Option.some.inj (hc''.symm.trans hc')
  exact hmoves.lasting

/-- The connection that the table has under its peer id is destroyed. -/
theorem close_live (hreg : t.connections.get? c.peerId = some i) (hne : c.peerId ≠ "")
    (hkind : c.kind = .socket) (hc : t.made[i]? = some c) :
    (t.close (some c.peerId)).made[i]? = some { c with isOpen := false, live := false } := by
  have hsome : (some c.peerId).filter (· ≠ "") = some c.peerId := by simp [Option.filter, hne]
  unfold close
  rw [hsome]
  simp only [hreg, made_update, hc, Option.map_some, if_true]
  rw [closeConnection, hkind]

end NodeWebSocketTransport

/-! ### The connections of a transport -/

namespace ReceivingTransport

open NodeWebSocketTransport

variable {e e' : ReceivingTransport J} {i j : Nat} {c : PeerConnection} {reactions : List (Reaction J)}
  {peerId : String}

theorem react_log (e : ReceivingTransport J) (i : Nat) (peerId : String) (x : Reaction J) :
    (e.react i peerId x).log = e.log ++ [(i, x)] := by
  cases x <;> rfl

theorem reactAll_log (e : ReceivingTransport J) (i : Nat) (peerId : String)
    (reactions : List (Reaction J)) :
    (e.reactAll i peerId reactions).log = e.log ++ reactions.map (i, ·) := by
  induction reactions generalizing e with
  | nil => simp [reactAll]
  | cons x rest ih =>
    have hrest := ih (e.react i peerId x)
    rw [react_log] at hrest
    rw [reactAll, List.foldl_cons]
    exact hrest.trans (by simp)

theorem happened_reactAll (e : ReceivingTransport J) (i : Nat) (peerId : String)
    (reactions : List (Reaction J)) (j : Nat) :
    (e.reactAll i peerId reactions).happened j =
      if j = i then e.happened j ++ reactions else e.happened j := by
  rw [happened, happened, reactAll_log, List.filter_append, List.map_append]
  by_cases hj : j = i
  · subst hj
    simp [List.filter_map, Function.comp_def]
  · have hi : i ≠ j := fun h => hj h.symm
    simp [List.filter_map, Function.comp_def, hj, hi]

theorem follows_react (e : ReceivingTransport J) (i : Nat) (peerId : String) (x : Reaction J) :
    Follows e.transport (e.react i peerId x).transport := by
  have hreport : ∀ error : String, Follows e.transport
      ((e.transport.reportError peerId error).close (some peerId)) := by
    intro error
    have hsame : Follows e.transport (e.transport.reportError peerId error) := follows_of_made rfl
    exact hsame.trans (follows_close _ _)
  cases x with
  | delivered received => exact follows_of_made rfl
  | closeFrame => exact follows_close _ _
  | malformed error => exact hreport error
  | failed error => exact hreport error

theorem follows_reactAll (e : ReceivingTransport J) (i : Nat) (peerId : String)
    (reactions : List (Reaction J)) :
    Follows e.transport (e.reactAll i peerId reactions).transport := by
  induction reactions generalizing e with
  | nil => exact follows_of_made rfl
  | cons x rest ih => exact (follows_react e i peerId x).trans (ih _)

theorem length_reactAll (e : ReceivingTransport J) (i : Nat) (peerId : String)
    (reactions : List (Reaction J)) :
    (e.reactAll i peerId reactions).transport.made.length = e.transport.made.length := by
  induction reactions generalizing e with
  | nil => rfl
  | cons x rest ih =>
    have hfirst : (e.react i peerId x).transport.made.length = e.transport.made.length := by
      cases x with
      | delivered received => rfl
      | closeFrame => exact length_close _ _
      | malformed error => exact length_close _ _
      | failed error => exact length_close _ _
    exact (ih _).trans hfirst

/-- A connection that the table has under its peer id is destroyed when it is to end. -/
theorem destroyed_of_fault (hc : e.transport.made[i]? = some c) (hkind : c.kind = .socket)
    (hne : c.peerId ≠ "") (hreg : e.transport.connections.get? c.peerId = some i)
    (hfault : ∃ x ∈ reactions, x.isFault = true) {c' : PeerConnection}
    (hc' : (e.reactAll i c.peerId reactions).transport.made[i]? = some c') : c'.live = false := by
  induction reactions generalizing e with
  | nil => simp at hfault
  | cons x rest ih =>
    have hrest : Follows (e.react i c.peerId x).transport
        (e.reactAll i c.peerId (x :: rest)).transport := follows_reactAll _ i c.peerId rest
    have hclosed : ∀ t : NodeWebSocketTransport, t.made = e.transport.made →
        t.connections = e.transport.connections →
        (e.react i c.peerId x).transport = t.close (some c.peerId) → c'.live = false := by
      intro t hmade htable heq
      have hdead := close_live (t := t) (c := c) (i := i) (htable ▸ hreg) hne hkind (hmade ▸ hc)
      rw [← heq] at hdead
      exact (hrest.lasting hdead hc').live rfl
    cases x with
    | delivered received =>
      refine ih (e := e.react i c.peerId (.delivered received)) hc hreg ?_ hc'
      obtain ⟨y, hy, hyfault⟩ := hfault
      rcases List.mem_cons.1 hy with rfl | hy
      · cases hyfault
      · exact ⟨y, hy, hyfault⟩
    | closeFrame => exact hclosed e.transport rfl rfl rfl
    | malformed error => exact hclosed (e.transport.reportError c.peerId error) rfl rfl rfl
    | failed error => exact hclosed (e.transport.reportError c.peerId error) rfl rfl rfl

/-- Nothing has been handed on behind a fault, and a raw connection with a fault is destroyed. -/
structure Silenced (e : ReceivingTransport J) : Prop where
  fresh : ∀ i, e.transport.made.length ≤ i → e.happened i = []
  named : ∀ (i : Nat) (c : PeerConnection), e.transport.made[i]? = some c → c.kind = .socket →
    c.peerId ≠ ""
  order : ∀ (i : Nat) (c : PeerConnection), e.transport.made[i]? = some c → c.kind = .socket →
    (e.happened i).Pairwise Reaction.Precedes
  destroyed : ∀ (i : Nat) (c : PeerConnection), e.transport.made[i]? = some c → c.kind = .socket →
    (∃ x ∈ e.happened i, x.isFault = true) → c.live = false

theorem silenced_new : Silenced ({} : ReceivingTransport J) :=
  ⟨fun _ _ => rfl, by simp, by simp, by simp⟩

/-- The old connections have moved on, the new ones are sound, and nobody has done anything. -/
theorem Silenced.follows (h : e.Silenced) (hf : Follows e.transport e'.transport)
    (hlog : e'.log = e.log) (hnew : ∀ (i : Nat) (c : PeerConnection), e.transport.made.length ≤ i →
      e'.transport.made[i]? = some c → c.kind = .socket → c.peerId ≠ "") : e'.Silenced := by
  have hhappened : ∀ i, e'.happened i = e.happened i := fun i => by simp only [happened, hlog]
  have hcases : ∀ i c', e'.transport.made[i]? = some c' →
      (e.transport.made.length ≤ i ∧ e.happened i = []) ∨
        ∃ c, e.transport.made[i]? = some c ∧ PeerConnection.Lasting c c' := by
    intro i c' hc'
    by_cases hi : e.transport.made.length ≤ i
    · exact .inl ⟨hi, h.fresh i hi⟩
    · have hget := List.getElem?_eq_getElem (l := e.transport.made) (not_le.1 hi)
      exact .inr ⟨_, hget, hf.lasting hget hc'⟩
  refine ⟨fun i hi => ?_, fun i c' hc' hkind => ?_, fun i c' hc' hkind => ?_,
    fun i c' hc' hkind hfault => ?_⟩
  · rw [hhappened]
    exact h.fresh i (hf.length_le.trans hi)
  · rcases hcases i c' hc' with ⟨hi, -⟩ | ⟨c, hc, hlast⟩
    · exact hnew i c' hi hc' hkind
    · rw [hlast.peerId]
      exact h.named i c hc (hlast.kind.symm.trans hkind)
  · rw [hhappened]
    rcases hcases i c' hc' with ⟨-, hnil⟩ | ⟨c, hc, hlast⟩
    · rw [hnil]
      exact .nil
    · exact h.order i c hc (hlast.kind.symm.trans hkind)
  · rw [hhappened] at hfault
    rcases hcases i c' hc' with ⟨-, hnil⟩ | ⟨c, hc, hlast⟩
    · simp [hnil] at hfault
    · exact hlast.live (h.destroyed i c hc (hlast.kind.symm.trans hkind) hfault)

/-- A connection does what it does, and its faults close it. -/
theorem Silenced.reactAll (h : e.Silenced) (hc : e.transport.made[i]? = some c)
    (hlive : c.kind = .socket → c.live = true)
    (horder : c.kind = .socket → reactions.Pairwise Reaction.Precedes)
    (hreg : c.kind = .socket → (∃ x ∈ reactions, x.isFault = true) →
      e.transport.connections.get? c.peerId = some i) :
    (e.reactAll i c.peerId reactions).Silenced := by
  have hf := follows_reactAll e i c.peerId reactions
  have hlength := length_reactAll e i c.peerId reactions
  have hlt := (List.getElem?_eq_some_iff.1 hc).1
  have hold : ∀ (j : Nat) (c' : PeerConnection), (e.reactAll i c.peerId reactions).transport.made[j]? = some c' →
      ∃ c₀ : PeerConnection, e.transport.made[j]? = some c₀ ∧ PeerConnection.Lasting c₀ c' := by
    intro j c' hc'
    have hj : j < e.transport.made.length := hlength ▸ (List.getElem?_eq_some_iff.1 hc').1
    have hget := List.getElem?_eq_getElem hj
    exact ⟨_, hget, hf.lasting hget hc'⟩
  have hquiet : c.kind = .socket → ∀ x ∈ e.happened i, x.isFault = false := by
    intro hkind x hx
    cases hfault : x.isFault with
    | false => rfl
    | true =>
      have hdead := h.destroyed i c hc hkind ⟨x, hx, hfault⟩
      exact absurd ((hlive hkind).symm.trans hdead) (by simp)
  refine ⟨fun j hj => ?_, fun j c' hc' hkind => ?_, fun j c' hc' hkind => ?_,
    fun j c' hc' hkind hfault => ?_⟩
  · rw [hlength] at hj
    rw [happened_reactAll, if_neg (by omega)]
    exact h.fresh j hj
  · obtain ⟨c₀, hc₀, hlast⟩ := hold j c' hc'
    rw [hlast.peerId]
    exact h.named j c₀ hc₀ (hlast.kind.symm.trans hkind)
  · obtain ⟨c₀, hc₀, hlast⟩ := hold j c' hc'
    have hkind₀ := hlast.kind.symm.trans hkind
    rw [happened_reactAll]
    split
    · rename_i hj
      subst hj
      obtain rfl : c₀ = c := Option.some.inj (hc₀.symm.trans hc)
      refine List.pairwise_append.2 ⟨h.order j c₀ hc₀ hkind₀, horder hkind₀, ?_⟩
      intro x hx y _ hfault
      exact absurd ((hquiet hkind₀ x hx).symm.trans hfault) (by simp)
    · exact h.order j c₀ hc₀ hkind₀
  · obtain ⟨c₀, hc₀, hlast⟩ := hold j c' hc'
    have hkind₀ := hlast.kind.symm.trans hkind
    rw [happened_reactAll] at hfault
    split at hfault
    · rename_i hj
      subst hj
      obtain rfl : c₀ = c := Option.some.inj (hc₀.symm.trans hc)
      obtain ⟨x, hx, hxfault⟩ := hfault
      rcases List.mem_append.1 hx with hx | hx
      · exact absurd ((hquiet hkind₀ x hx).symm.trans hxfault) (by simp)
      · exact destroyed_of_fault hc₀ hkind₀ (h.named j c₀ hc₀ hkind₀)
          (hreg hkind₀ ⟨x, hx, hxfault⟩) ⟨x, hx, hxfault⟩ hc'
    · exact hlast.live (h.destroyed j c₀ hc₀ hkind₀ hfault)

theorem Silenced.accept (h : e.Silenced) {sender : String} {initialData : List UInt8}
    (horderly : ({} : Reader).Orderly parse initialData) :
    (e.acceptSocketConnection parse sender initialData).Silenced := by
  unfold acceptSocketConnection
  split
  · exact h
  · rename_i hok
    have hsender : sender ≠ "" := fun he => hok (.inl he)
    simp only
    set e' : ReceivingTransport J := setReader { e with transport := e.transport.step (.accept sender) }
      e.transport.made.length (Reader.begin parse initialData).1
    have hmade : e'.transport.made = e.transport.made ++ [{ kind := .socket, peerId := sender }] :=
      rfl
    have hnew : e'.transport.made[e.transport.made.length]? =
        some { kind := .socket, peerId := sender } := by
      rw [hmade, List.getElem?_append_right (le_refl _), Nat.sub_self]
      rfl
    have hbefore : e'.Silenced := by
      refine h.follows (follows_step e.transport (.accept sender)) rfl fun i c hi hc _ => ?_
      rw [hmade, List.getElem?_append_right hi] at hc
      obtain rfl := List.mem_singleton.1 (List.mem_of_getElem? hc)
      exact hsender
    refine hbefore.reactAll hnew (fun _ => rfl) (fun _ => Reader.pairwise_begin horderly)
      fun _ _ => ?_
    exact OrderedMap.get?_set_self _ _ _

/-- What must not happen at an action, for nothing to be handed on behind a fault: that in one data
event a message ends behind a close frame or a malformed text, and that a connection ends while
the table has another one, or none, under its peer id. -/
def Orderly (parse : List Char → Except String J) (e : ReceivingTransport J) : ReceiveAction → Prop
  | .accept _ initialData => ({} : Reader).Orderly parse initialData
  | .data i chunk => ∀ c : PeerConnection, e.transport.made[i]? = some c → c.kind = .socket →
      c.live = true →
      (e.readers i).Orderly parse ((e.readers i).pending ++ chunk) ∧
      ((∃ x ∈ ((e.readers i).onData parse chunk).2, x.isFault = true) →
        e.transport.connections.get? c.peerId = some i)
  | _ => True

theorem silenced_step (h : e.Silenced) (a : ReceiveAction) (ha : e.Orderly parse a) :
    (e.step parse a).Silenced := by
  cases a with
  | transport action =>
    by_cases haccept : ∃ sender, action = .accept sender
    · obtain ⟨sender, rfl⟩ := haccept
      have horderly : ({} : Reader).Orderly parse [] := by
        rw [Reader.Orderly, parseFrames_none (by rfl)]
        exact trivial
      exact h.accept horderly
    · rw [step_transport fun sender he => haccept ⟨sender, he⟩]
      refine h.follows (follows_step e.transport action) rfl fun i c hi hc hkind => ?_
      by_cases hconnect : ∃ peerId, action = .connect peerId
      · obtain ⟨peerId, rfl⟩ := hconnect
        have hmade : (e.transport.step (.connect peerId)).made =
            e.transport.made ++ [{ kind := .websocket, peerId := peerId }] := rfl
        rw [hmade, List.getElem?_append_right hi] at hc
        obtain rfl := List.mem_singleton.1 (List.mem_of_getElem? hc)
        cases hkind
      · have hlength := length_step e.transport (fun peerId he => hconnect ⟨peerId, he⟩)
          fun sender he => haccept ⟨sender, he⟩
        have hlt : i < (e.transport.step action).made.length := (List.getElem?_eq_some_iff.1 hc).1
        omega
  | accept sender initialData => exact h.accept ha
  | data i chunk =>
    by_cases hraw : ∃ c : PeerConnection, e.transport.made[i]? = some c ∧ c.kind = .socket ∧
        c.live = true
    · obtain ⟨c, hc, hkind, hlive⟩ := hraw
      obtain ⟨horderly, hreg⟩ := ha c hc hkind hlive
      have hread : (e.setReader i ((e.readers i).onData parse chunk).1).Silenced :=
        ⟨h.fresh, h.named, h.order, h.destroyed⟩
      have hstep : e.step parse (.data i chunk) = _ := onData_raw hc hkind hlive chunk
      rw [hstep]
      exact hread.reactAll hc (fun _ => hlive) (fun _ => Reader.pairwise_onData horderly)
        fun _ => hreg
    · have hstep : e.step parse (.data i chunk) = e := by
        refine onData_other (fun c hc hkind => ?_) chunk
        cases hlive : c.live with
        | false => rfl
        | true => exact absurd ⟨c, hc, hkind, hlive⟩ hraw
      rw [hstep]
      exact h
  | message i data =>
    by_cases hopen : ∃ c : PeerConnection, e.transport.made[i]? = some c ∧ c.kind = .websocket ∧
        c.live = true
    · obtain ⟨c, hc, hkind, hlive⟩ := hopen
      have hnot : c.kind ≠ .socket := by simp [hkind]
      have hstep : e.step parse (.message i data) =
          e.reactAll i c.peerId [messageReaction parse data] :=
        handleWebSocketMessage_open hc hkind hlive data
      rw [hstep]
      exact h.reactAll hc (absurd · hnot) (absurd · hnot) (absurd · hnot)
    · have hstep : e.step parse (.message i data) = e := by
        refine handleWebSocketMessage_other (fun c hc hkind => ?_) data
        cases hlive : c.live with
        | false => rfl
        | true => exact absurd ⟨c, hc, hkind, hlive⟩ hopen
      rw [hstep]
      exact h

theorem silenced_run (h : Run (step parse) (Orderly parse) e e') (he : e.Silenced) : e'.Silenced :=
  h.invariant (fun _ a hs ha => silenced_step hs a ha) he

end ReceivingTransport

open ReceivingTransport in
/-- In a run whose actions are all in order, no handler is called for a raw connection once it has
met a close frame, a malformed text or an error. -/
theorem nothing_delivered_after_close {e : ReceivingTransport J} {i : Nat} {c : PeerConnection}
    {before after : List (Reaction J)} {x : Reaction J}
    (h : Run (step parse) (Orderly parse) {} e) (hc : e.transport.made[i]? = some c)
    (hkind : c.kind = .socket) (hlog : e.happened i = before ++ x :: after)
    (hfault : x.isFault = true) : ∀ received, Reaction.delivered received ∉ after := by
  have horder := (silenced_run h silenced_new).order i c hc hkind
  rw [hlog] at horder
  intro received hin
  have hlater := (List.pairwise_cons.1 (List.pairwise_append.1 horder).2.1).1 _ hin hfault
  cases hlater

/-- A close frame, and the text "12". -/
def sampleClose : List UInt8 := [0x88, 0x00]

def sampleTwelve : List UInt8 := [0x81, 0x02, 0x31, 0x32]

/-- A connection hands on a text and is closed, by two frames in one event. -/
def closedTwice : List ReceiveAction :=
  [.accept "a" [], .data 0 sampleTwelve, .data 0 (sampleClose ++ sampleClose)]

open ReceivingTransport in
theorem nothing_delivered_after_close_sample :
    (steps (step sampleParse) {} closedTwice).happened 0 =
        [.delivered (.message 12)] ++ .closeFrame :: [.closeFrame] ∧
      ∀ received, Reaction.delivered received ∉ [(Reaction.closeFrame : Reaction Nat)] := by
  have hmade : ∀ (e : ReceivingTransport Nat) (c : PeerConnection), e.transport.made[0]? = some c →
      e.transport.made = [{ kind := .socket, peerId := "a" }] →
        c = { kind := .socket, peerId := "a" } := by
    intro e c hc he
    simpa [he, eq_comm] using hc
  have hrun : Run (step sampleParse) (Orderly sampleParse) {}
      (steps (step sampleParse) {} closedTwice) := by
    refine run_of_allowed ⟨?_, fun c hc _ _ => ?_, fun c hc _ _ => ?_, trivial⟩
    · exact (by decide +kernel : ({} : Reader).Orderly sampleParse [])
    · obtain rfl := hmade _ c hc (by decide +kernel)
      exact ⟨by decide +kernel, fun _ => by decide +kernel⟩
    · obtain rfl := hmade _ c hc (by decide +kernel)
      exact ⟨by decide +kernel, fun _ => by decide +kernel⟩
  have hlog : (steps (step sampleParse) {} closedTwice).happened 0 =
      [.delivered (.message 12)] ++ .closeFrame :: [.closeFrame] := by decide +kernel
  have hc : (steps (step sampleParse) {} closedTwice).transport.made[0]? =
      some { kind := .socket, peerId := "a", isOpen := false, live := false } := by decide +kernel
  exact ⟨hlog, nothing_delivered_after_close hrun hc rfl hlog rfl⟩

open ReceivingTransport in
/-- A text behind a close frame is handed on, in the same event, and in a later one when another
connection has come under the same peer id. -/
theorem text_behind_close_is_delivered :
    (steps (step sampleParse) {} [.accept "a" [], .data 0 (sampleClose ++ sampleTwelve)]).happened 0 =
        [.closeFrame, .delivered (.message 12)] ∧
      (steps (step sampleParse) {} [.accept "a" [], .accept "a" [], .data 0 sampleClose,
        .data 0 sampleTwelve]).happened 0 = [.closeFrame, .delivered (.message 12)] := by
  constructor
  · decide +kernel
  · decide +kernel

end PonsWarp.Cli
