import PonsWarp.Data.Run
import PonsWarp.Signaling.BrowserClient

set_option autoImplicit false

/-!
How many sockets a signaling client keeps: one at a time, and none after it is closed, as
long as nothing is asked of it while it reconnects and no socket it has let go of still
has something to say.
-/

namespace PonsWarp.Signaling

open PonsWarp.Data

namespace BrowserSignalingClient

def Live (c : BrowserSignalingClient) (i : Nat) : Prop :=
  ∃ s, c.sockets[i]? = some s ∧ s.live = true

/-- A reconnect sleeps, the handler of a failed one has still to run, or none will come. -/
def Waiting (c : BrowserSignalingClient) : Prop :=
  c.sleeping ≠ [] ∨ c.rejected ≠ 0 ∨ c.state = .failed

/-- The event of a socket is heard by nobody. -/
def Unheard (c : BrowserSignalingClient) (i : Nat) (listener : ClientSocket → Bool) : Prop :=
  ∀ s, c.sockets[i]? = some s → s.readyState = .closed ∨ listener s = false

/-- No `connect` during a reconnect, no `close` while a reconnect sleeps, and no word from
a socket that is not the current one, unless it makes no difference. -/
def Orderly (c : BrowserSignalingClient) : Action → Prop
  | .connect _ => c.state = .open ∨ c.state = .connecting ∨
      c.state ≠ .reconnecting ∧ c.rejected = 0
  | .close => c.sleeping = []
  | .errorEvent i => c.socket = some i ∨ c.Unheard i (·.errorListener) ∨
      (c.socket = none ∧ c.rejected = 0 ∧ ∀ s, c.sockets[i]? = some s → s.awaited = false) ∨
      c.socket ≠ none ∧ c.state = .failed ∧
        (c.rejected = 0 ∨ ∀ s, c.sockets[i]? = some s → s.awaited = false)
  | .closeEvent i => c.socket = some i ∨ c.Unheard i (·.closeListener) ∨
      (c.state = .closing ∨ c.state = .closed) ∨
      c.socket ≠ none ∧ c.state = .failed ∧ c.rejected = 0
  | _ => True

end BrowserSignalingClient

/-- A socket without its `close` listener is gone. -/
structure ClientSocket.Wired (s : ClientSocket) : Prop where
  close : s.closeListener = false → s.live = false
  error : s.errorListener = true → s.closeListener = true

namespace BrowserSignalingClient

variable {c : BrowserSignalingClient}

structure Tended (c : BrowserSignalingClient) : Prop where
  wired : ∀ (i : Nat) (s : ClientSocket), c.sockets[i]? = some s → s.Wired
  current : ∀ i, c.Live i → c.socket = some i
  resting : c.state ≠ .connecting → c.state ≠ .reconnecting → c.state ≠ .open → ∀ i, ¬ c.Live i
  waiting : c.Waiting → ∀ (i : Nat) (s : ClientSocket), c.socket = some i →
    c.sockets[i]? = some s → s.closeListener = false
  asleep : c.sleeping ≠ [] → c.state = .reconnecting ∧ c.rejected = 0 ∧ c.sleeping.length = 1 ∧
    c.socket ≠ none
  rejected : c.rejected ≠ 0 → c.rejected = 1 ∧
    (c.state = .failed ∧ c.socket ≠ none ∨ c.state = .closed)

theorem tended_new (delays : List Nat) : (new delays).Tended := by
  constructor <;> simp [new, Live, Waiting]

theorem Tended.nothing_live (h : c.Tended) (hw : c.Waiting) (i : Nat) : ¬ c.Live i := by
  intro hlive
  obtain ⟨s, hs, hl⟩ := hlive
  have hgone := h.waiting hw i s (h.current i ⟨s, hs, hl⟩) hs
  have hdead := (h.wired i s hs).close hgone
  simp [hl] at hdead

theorem Tended.not_waiting (h : c.Tended) {i : Nat} {s : ClientSocket}
    (hcurrent : c.socket = some i) (hs : c.sockets[i]? = some s) (hclose : s.closeListener = true) :
    c.sleeping = [] ∧ c.rejected = 0 ∧ c.state ≠ .failed := by
  have hnot : ¬ c.Waiting := by
    intro hw
    have hgone := h.waiting hw i s hcurrent hs
    simp [hclose] at hgone
  simpa [Waiting] using hnot

theorem getElem?_modifySocket (c : BrowserSignalingClient) (i j : Nat)
    (f : ClientSocket → ClientSocket) :
    (c.modifySocket i f).sockets[j]? =
      if i = j then c.sockets[j]?.map f else c.sockets[j]? := by
  simp only [modifySocket, List.getElem?_modify]
  split <;> simp

/-- A socket that only loses listeners, or its life, is still tended. -/
theorem Tended.modify (h : c.Tended) {i : Nat} {f : ClientSocket → ClientSocket}
    (hf : ∀ s, c.sockets[i]? = some s → (f s).Wired ∧ ((f s).live = true → s.live = true) ∧
      (s.closeListener = false → (f s).closeListener = false)) :
    (c.modifySocket i f).Tended := by
  have hget : ∀ j s', (c.modifySocket i f).sockets[j]? = some s' →
      ∃ s, c.sockets[j]? = some s ∧ (s' = s ∨ i = j ∧ s' = f s) := by
    intro j s' hs'
    rw [getElem?_modifySocket] at hs'
    split at hs'
    · rename_i hij
      obtain ⟨s, hs, rfl⟩ := Option.map_eq_some_iff.1 hs'
      exact ⟨s, hs, .inr ⟨hij, rfl⟩⟩
    · exact ⟨s', hs', .inl rfl⟩
  have hlive : ∀ j, (c.modifySocket i f).Live j → c.Live j := by
    rintro j ⟨s', hs', hl⟩
    obtain ⟨s, hs, rfl | ⟨rfl, rfl⟩⟩ := hget j s' hs'
    · exact ⟨s', hs, hl⟩
    · exact ⟨s, hs, (hf s hs).2.1 hl⟩
  constructor
  · intro j s' hs'
    obtain ⟨s, hs, rfl | ⟨rfl, rfl⟩⟩ := hget j s' hs'
    · exact h.wired j s' hs
    · exact (hf s hs).1
  · exact fun j hj => h.current j (hlive j hj)
  · exact fun h1 h2 h3 j hj => h.resting h1 h2 h3 j (hlive j hj)
  · intro hw j s' hcurrent hs'
    obtain ⟨s, hs, rfl | ⟨rfl, rfl⟩⟩ := hget j s' hs'
    · exact h.waiting hw j s' hcurrent hs
    · exact (hf s hs).2.2 (h.waiting hw _ s hcurrent hs)
  · exact h.asleep
  · exact h.rejected

theorem Tended.onOpen (h : c.Tended) (hsleeping : c.sleeping = []) (hrejected : c.rejected = 0)
    (i : Nat) : (c.onOpen i).Tended := by
  have hopened := h.modify (i := i)
    (f := fun s => { s with opened := true, openListener := false, errorListener := false })
    fun s hs => ⟨⟨(h.wired i s hs).close, by simp⟩, by simp [ClientSocket.live], by simp⟩
  constructor
  · exact hopened.wired
  · exact hopened.current
  · exact fun _ _ hne => absurd rfl hne
  · rintro (hs | hr | hfailed)
    · exact absurd hsleeping hs
    · exact absurd hrejected hr
    · cases hfailed
  · exact fun hs => absurd hsleeping hs
  · exact fun hr => absurd hrejected hr

theorem Tended.scheduleReconnect (h : c.Tended)
    (hsleeping : c.sleeping = []) (hrejected : c.rejected = 0) (hsocket : c.socket ≠ none)
    (hgone : ∀ (i : Nat) (s : ClientSocket), c.socket = some i → c.sockets[i]? = some s →
      s.closeListener = false) : c.scheduleReconnect.Tended where
  wired := h.wired
  current := h.current
  resting _ hne _ := absurd rfl hne
  waiting _ := hgone
  asleep _ :=
    ⟨rfl, hrejected, by simp [BrowserSignalingClient.scheduleReconnect, hsleeping], hsocket⟩
  rejected hr := absurd hrejected hr

/-- With nothing alive and nothing waiting, a new socket can be opened. -/
theorem Tended.openSocket (h : c.Tended) (hdead : ∀ i, ¬ c.Live i) (hsleeping : c.sleeping = [])
    (hrejected : c.rejected = 0) {state : SignalingConnectionState}
    (hstate : state = .connecting ∨ state = .reconnecting) (ready awaited : Bool) :
    (c.openSocket state ready awaited).Tended := by
  have hopened : ∀ s : ClientSocket, s.Wired →
      Tended { c with
        state := state
        sockets := c.sockets ++ [s]
        socket := some c.sockets.length
        client := some c.sockets.length } := by
    intro s hs
    have hget : ∀ j s', (c.sockets ++ [s])[j]? = some s' →
        c.sockets[j]? = some s' ∨ j = c.sockets.length ∧ s' = s := by
      intro j s' hs'
      rw [List.getElem?_append] at hs'
      split at hs'
      · exact .inl hs'
      · obtain ⟨hj, rfl⟩ := List.getElem?_eq_some_iff.1 hs'
        simp only [List.length_singleton] at hj
        exact .inr ⟨by omega, by simp⟩
    constructor
    · intro j s' hs'
      obtain hold | ⟨-, rfl⟩ := hget j s' hs'
      · exact h.wired j s' hold
      · exact hs
    · rintro j ⟨s', hs', hl⟩
      obtain hold | ⟨rfl, -⟩ := hget j s' hs'
      · exact absurd ⟨s', hold, hl⟩ (hdead j)
      · rfl
    · intro h1 h2
      rcases hstate with rfl | rfl
      · exact absurd rfl h1
      · exact absurd rfl h2
    · rintro (hs | hr | rfl)
      · exact absurd hsleeping hs
      · exact absurd hrejected hr
      · simp at hstate
    · exact fun hs => absurd hsleeping hs
    · exact fun hr => absurd hrejected hr
  unfold BrowserSignalingClient.openSocket
  cases ready with
  | false => exact hopened _ ⟨by simp [ClientSocket.new], by simp [ClientSocket.new]⟩
  | true =>
    have hnew := hopened { ClientSocket.new awaited with readyState := .open }
      ⟨by simp [ClientSocket.new], by simp [ClientSocket.new]⟩
    exact hnew.onOpen hsleeping hrejected _

theorem modifySocket_twice (c : BrowserSignalingClient) (i : Nat)
    (f g : ClientSocket → ClientSocket) :
    (c.modifySocket i f).modifySocket i g = c.modifySocket i (g ∘ f) := by
  simp [modifySocket, List.modify_modify_eq]

/-- What happens to the current socket, when it is its end, leaves nothing alive. -/
theorem Tended.dead_modify (h : c.Tended) {i : Nat} {f : ClientSocket → ClientSocket}
    (hcurrent : c.socket = some i ∨ c.socket = none) (hf : ∀ s, (f s).live = false) (j : Nat) :
    ¬ (c.modifySocket i f).Live j := by
  rintro ⟨s', hs', hl⟩
  rw [getElem?_modifySocket] at hs'
  split at hs'
  · obtain ⟨s, -, rfl⟩ := Option.map_eq_some_iff.1 hs'
    simp [hf] at hl
  · rename_i hne
    have hsocket := h.current j ⟨s', hs', hl⟩
    rcases hcurrent with hi | hi
    · rw [hi, Option.some.injEq] at hsocket
      exact hne hsocket
    · simp [hi] at hsocket

theorem Tended.connect (h : c.Tended) {ready : Bool} (hok : c.Orderly (.connect ready)) :
    (c.connect ready).Tended := by
  unfold BrowserSignalingClient.connect
  split
  · exact h
  · rename_i hidle
    obtain ⟨hopen, hconnecting⟩ := not_or.1 hidle
    obtain ⟨hreconnecting, hrejected⟩ := (hok.resolve_left hopen).resolve_left hconnecting
    have hsleeping : c.sleeping = [] := by
      by_contra hs
      exact hreconnecting (h.asleep hs).1
    have hdead := h.resting hconnecting hreconnecting hopen
    refine h.openSocket hdead hsleeping hrejected ?_ ready false
    split <;> simp

theorem Tended.close (h : c.Tended) (hok : c.sleeping = []) : c.close.Tended := by
  have hclosed : ∀ c' : BrowserSignalingClient, c'.Tended → (∀ i, ¬ c'.Live i) →
      c'.sleeping = [] →
      Tended { c' with client := none, socket := none, state := .closed } := by
    intro c' h' hdead hsleeping
    constructor
    · exact h'.wired
    · exact fun i hi => absurd hi (hdead i)
    · exact fun _ _ _ => hdead
    · exact fun _ i s hi => by cases hi
    · exact fun hs => absurd hsleeping hs
    · exact fun hr => ⟨(h'.rejected hr).1, .inr rfl⟩
  unfold BrowserSignalingClient.close
  cases hsocket : c.socket with
  | none =>
    refine hclosed c h (fun i hi => ?_) hok
    have hcurrent := h.current i hi
    simp [hsocket] at hcurrent
  | some i =>
    have hlive : ∀ s : ClientSocket, s.close.live = false := by
      intro s
      unfold ClientSocket.close
      split
      · rename_i hgone
        simp [ClientSocket.live, hgone]
      · simp [ClientSocket.live]
    have hlisteners : ∀ s : ClientSocket, s.close.closeListener = s.closeListener ∧
        s.close.errorListener = s.errorListener := by
      intro s
      unfold ClientSocket.close
      split <;> simp
    refine hclosed _ (h.modify fun s hs => ⟨⟨fun _ => hlive s, ?_⟩, ?_, ?_⟩)
      (h.dead_modify (.inl hsocket) hlive) hok
    · rw [(hlisteners s).1, (hlisteners s).2]
      exact (h.wired i s hs).error
    · simp [hlive]
    · simp [hlisteners]

theorem Tended.openEvent (h : c.Tended) (i : Nat) : (c.step (.openEvent i)).Tended := by
  simp only [step]
  cases hs : c.sockets[i]? with
  | none => exact h
  | some s =>
    simp only
    split
    · rename_i hready
      have hlive : s.live = true := by simp [ClientSocket.live, hready.1, hready.2]
      have hclose : s.closeListener = true := by
        by_contra hgone
        have hdead := (h.wired i s hs).close (by simpa using hgone)
        simp [hlive] at hdead
      obtain ⟨hsleeping, hrejected, -⟩ := h.not_waiting (h.current i ⟨s, hs, hlive⟩) hs hclose
      have hopen : (c.modifySocket i fun s => { s with readyState := .open }).Tended := by
        refine h.modify fun s' hs' => ?_
        rw [hs, Option.some.injEq] at hs'
        subst hs'
        exact ⟨⟨fun hgone => by simp [hclose] at hgone, (h.wired i s hs).error⟩, fun _ => hlive,
          fun hgone => hgone⟩
      split
      · exact hopen.onOpen hsleeping hrejected i
      · exact hopen
    · exact h

/-- The listeners of a socket that fails, as `onError` leaves them before it has opened. -/
def unheardFailure (s : ClientSocket) : ClientSocket :=
  { s with failed := true, openListener := false, errorListener := false, closeListener := false }

theorem not_live_unheardFailure (s : ClientSocket) : (unheardFailure s).live = false := by
  simp [unheardFailure, ClientSocket.live]

theorem Tended.fail (h : c.Tended) (i : Nat) :
    (c.modifySocket i unheardFailure).Tended := by
  refine h.modify fun s' hs' => ⟨⟨?_, ?_⟩, ?_, ?_⟩ <;>
    simp [unheardFailure, ClientSocket.live]

/-- An error that leaves nothing alive; a reconnect that it ends has its handler called. -/
theorem Tended.onError (h : c.Tended) {i : Nat} {s : ClientSocket}
    (hdead : ∀ j, ¬ (c.modifySocket i unheardFailure).Live j)
    (hgone : ∀ j (s' : ClientSocket), c.socket = some j →
      (c.modifySocket i unheardFailure).sockets[j]? = some s' →
      s'.closeListener = false)
    (hsleeping : c.sleeping = [])
    (hrejected : c.rejected ≠ 0 → s.awaited = false ∧ c.rejected = 1)
    (hsocket : c.rejected ≠ 0 ∨ s.awaited = true → c.socket ≠ none) :
    ((c.modifySocket i fun s => { s with failed := true }).onError i s).Tended := by
  unfold BrowserSignalingClient.onError
  simp only [modifySocket_twice]
  split
  · refine h.modify fun s' hs' => ⟨⟨?_, ?_⟩, ?_, ?_⟩ <;> simp [ClientSocket.live]
  · constructor
    · exact (h.fail i).wired
    · exact fun j hj => absurd hj (hdead j)
    · exact fun _ _ _ => hdead
    · exact fun _ => hgone
    · exact fun hs => absurd hsleeping hs
    · intro hr
      cases ha : s.awaited with
      | true =>
        have hzero : c.rejected = 0 := by
          by_contra hne
          simp [ha] at hrejected
          exact hne hrejected
        exact ⟨by simp [hzero], .inl ⟨rfl, hsocket (.inr ha)⟩⟩
      | false =>
        have hne : c.rejected ≠ 0 := by simpa [ha] using hr
        have hone := (hrejected hne).2
        exact ⟨by simpa [ha] using hone, .inl ⟨rfl, hsocket (.inl hne)⟩⟩

theorem Tended.errorEvent (h : c.Tended) {i : Nat} (hok : c.Orderly (.errorEvent i)) :
    (c.step (.errorEvent i)).Tended := by
  simp only [step]
  cases hs : c.sockets[i]? with
  | none => exact h
  | some s =>
    simp only
    split
    · exact h
    · rename_i hopen
      split
      · rename_i hheard
        rcases hok with hcurrent | hunheard | ⟨hnone, hrejected, hnot⟩ | ⟨hsome, hfailed, hone⟩
        · obtain ⟨hsleeping, hrejected, -⟩ :=
            h.not_waiting hcurrent hs ((h.wired i s hs).error hheard)
          refine h.onError (h.dead_modify (.inl hcurrent) not_live_unheardFailure)
            (fun j s' hj hs' => ?_) hsleeping (fun hr => absurd hrejected hr) (by simp [hcurrent])
          rw [hcurrent, Option.some.injEq] at hj
          rw [getElem?_modifySocket, if_pos hj] at hs'
          obtain ⟨s₀, -, rfl⟩ := Option.map_eq_some_iff.1 hs'
          rfl
        · rcases hunheard s hs with hgone | hgone
          · exact absurd hgone hopen
          · simp [hheard] at hgone
        · have hsleeping : c.sleeping = [] := by
            by_contra hasleep
            exact (h.asleep hasleep).2.2.2 hnone
          refine h.onError (h.dead_modify (.inr hnone) not_live_unheardFailure)
            (fun j s' hj => ?_) hsleeping (fun hr => absurd hrejected hr) ?_
          · simp [hnone] at hj
          · simp [hrejected, hnot s hs]
        · have hwaiting : c.Waiting := .inr (.inr hfailed)
          have hsleeping : c.sleeping = [] := by
            by_contra hasleep
            have hreconnecting := (h.asleep hasleep).1
            simp [hfailed] at hreconnecting
          refine h.onError ((h.fail i).nothing_live hwaiting)
            ((h.fail i).waiting hwaiting) hsleeping (fun hr => ?_) fun _ => hsome
          exact ⟨hone.resolve_left hr s hs, (h.rejected hr).1⟩
      · refine h.modify fun s' hs' => ⟨⟨?_, (h.wired i s' hs').error⟩, ?_, ?_⟩ <;>
          simp [ClientSocket.live]

theorem Tended.closeEvent (h : c.Tended) {i : Nat} (hok : c.Orderly (.closeEvent i)) :
    (c.step (.closeEvent i)).Tended := by
  simp only [step]
  cases hs : c.sockets[i]? with
  | none => exact h
  | some s =>
    simp only
    split
    · exact h
    · rename_i hopen
      split
      · rename_i hheard
        unfold BrowserSignalingClient.onClose
        simp only [modifySocket_twice]
        have hclosed := h.modify (i := i) (f := (fun s => { s with
            openListener := false, errorListener := false, closeListener := false }) ∘
            fun s => { s with readyState := .closed })
          fun s' hs' =>
            ⟨⟨by simp [ClientSocket.live], by simp⟩, by simp [ClientSocket.live], by simp⟩
        split
        · exact hclosed
        · rename_i hstate
          rcases hok with hcurrent | hunheard | hclosing | ⟨hsome, hfailed, hrejected⟩
          · obtain ⟨hsleeping, hrejected, -⟩ := h.not_waiting hcurrent hs hheard
            refine hclosed.scheduleReconnect hsleeping hrejected (by simp [hcurrent]) ?_
            intro j s' hj hs'
            have hij : c.socket = some j := hj
            rw [hcurrent, Option.some.injEq] at hij
            rw [getElem?_modifySocket, if_pos hij] at hs'
            obtain ⟨s₀, -, rfl⟩ := Option.map_eq_some_iff.1 hs'
            rfl
          · rcases hunheard s hs with hgone | hgone
            · exact absurd hgone hopen
            · simp [hheard] at hgone
          · exact absurd hclosing hstate
          · have hsleeping : c.sleeping = [] := by
              by_contra hasleep
              have hreconnecting := (h.asleep hasleep).1
              simp [hfailed] at hreconnecting
            exact hclosed.scheduleReconnect hsleeping hrejected hsome
              (hclosed.waiting (.inr (.inr hfailed)))
      · refine h.modify fun s' hs' => ⟨⟨?_, (h.wired i s' hs').error⟩, ?_, ?_⟩ <;>
          simp [ClientSocket.live]

theorem Tended.timer (h : c.Tended) (k : Nat) (ready : Bool) :
    (c.step (.timer k ready)).Tended := by
  simp only [step]
  split
  · rename_i hk
    have hasleep : c.sleeping ≠ [] := by
      intro hnil
      simp [hnil] at hk
    obtain ⟨-, hrejected, hlen, -⟩ := h.asleep hasleep
    have hwoken : c.sleeping.eraseIdx k = [] := by
      have hlen' := List.length_eraseIdx_of_lt hk
      exact List.eq_nil_of_length_eq_zero (by omega)
    have hdead := h.nothing_live (.inl hasleep)
    have hawake : Tended { c with sleeping := c.sleeping.eraseIdx k } :=
      ⟨h.wired, h.current, h.resting, fun _ => h.waiting (.inl hasleep),
        fun hs => absurd hwoken hs, h.rejected⟩
    exact hawake.openSocket hdead hwoken hrejected (.inr rfl) ready true
  · exact h

theorem Tended.caught (h : c.Tended) : (c.step .caught).Tended := by
  simp only [step]
  split
  · exact h
  · rename_i hr
    obtain ⟨hone, hstate⟩ := h.rejected hr
    have hsleeping : c.sleeping = [] := by
      by_contra hasleep
      have hnone := (h.asleep hasleep).2.1
      omega
    have hzero : c.rejected - 1 = 0 := by omega
    have hhandled : Tended { c with rejected := c.rejected - 1 } :=
      ⟨h.wired, h.current, h.resting, fun _ => h.waiting (.inr (.inl hr)),
        fun hs => absurd hsleeping hs, fun hne => absurd hzero hne⟩
    split
    · rename_i hne
      rcases hstate with ⟨-, hsocket⟩ | hclosed
      · exact hhandled.scheduleReconnect hsleeping hzero hsocket (h.waiting (.inr (.inl hr)))
      · exact absurd hclosed hne.1
    · exact hhandled

/-- No orderly step brings a second socket to life. -/
theorem Tended.step (h : c.Tended) (a : Action) (hok : c.Orderly a) : (c.step a).Tended := by
  cases a with
  | connect ready => exact h.connect hok
  | close => exact h.close hok
  | openEvent i => exact h.openEvent i
  | errorEvent i => exact h.errorEvent hok
  | closeEvent i => exact h.closeEvent hok
  | timer k ready => exact h.timer k ready
  | caught => exact h.caught

theorem onClose_of_closed (c : BrowserSignalingClient) (i : Nat)
    (h : c.state = .closing ∨ c.state = .closed) :
    c.onClose i = c.modifySocket i fun s =>
      { s with openListener := false, errorListener := false, closeListener := false } :=
  if_pos h

/-- A client that has been closed, and has nothing that could open a socket. -/
structure Quiet (n : Nat) (c : BrowserSignalingClient) : Prop where
  tended : c.Tended
  sleeping : c.sleeping = []
  socket : c.socket = none
  rejected : c.rejected ≠ 0 → c.state = .closed
  sockets : c.sockets.length = n

theorem Tended.quiet_close (h : c.Tended) (hok : c.sleeping = []) :
    Quiet c.sockets.length c.close := by
  refine ⟨h.close hok, ?_, rfl, fun _ => rfl, ?_⟩
  · unfold BrowserSignalingClient.close
    split <;> exact hok
  · unfold BrowserSignalingClient.close
    split
    · simp [modifySocket]
    · rfl

theorem Quiet.step {n : Nat} (h : Quiet n c) (a : Action) (hok : c.Orderly a)
    (hconnect : ∀ ready, a ≠ .connect ready) : Quiet n (c.step a) := by
  have htended := h.tended.step a hok
  cases a with
  | connect ready => exact absurd rfl (hconnect ready)
  | close =>
    have hclosed := h.tended.quiet_close hok
    rw [h.sockets] at hclosed
    exact hclosed
  | openEvent i =>
    have hsame : c.step (.openEvent i) = c := by
      simp only [BrowserSignalingClient.step]
      cases hs : c.sockets[i]? with
      | none => rfl
      | some s =>
        refine if_neg fun hready => ?_
        have hlive := h.tended.current i ⟨s, hs, by simp [ClientSocket.live, hready.1, hready.2]⟩
        simp [h.socket] at hlive
    rw [hsame]
    exact h
  | errorEvent i =>
    simp only [BrowserSignalingClient.step] at htended ⊢
    cases hs : c.sockets[i]? with
    | none => exact h
    | some s =>
      simp only [hs] at htended ⊢
      split
      · exact h
      · rename_i hopen
        split
        · rename_i hheard
          rcases hok with hcurrent | hunheard | ⟨-, hrejected, hnot⟩ | ⟨hsome, -⟩
          · simp [h.socket] at hcurrent
          · rcases hunheard s hs with hgone | hgone
            · exact absurd hgone hopen
            · simp [hheard] at hgone
          · simp only [if_neg hopen, if_pos hheard] at htended
            have hnone := hnot s hs
            unfold onError at htended ⊢
            simp only [hnone] at htended ⊢
            split
            · exact ⟨by simp_all, h.sleeping, h.socket, h.rejected, by simp [h.sockets]⟩
            · exact ⟨by simp_all, h.sleeping, h.socket,
                fun hr => absurd hrejected (by simpa using hr), by simp [h.sockets]⟩
          · exact absurd h.socket hsome
        · rename_i hdeaf
          simp only [if_neg hopen, if_neg hdeaf] at htended
          exact ⟨htended, h.sleeping, h.socket, h.rejected, by simp [h.sockets]⟩
  | closeEvent i =>
    simp only [BrowserSignalingClient.step] at htended ⊢
    cases hs : c.sockets[i]? with
    | none => exact h
    | some s =>
      simp only [hs] at htended ⊢
      split
      · exact h
      · rename_i hopen
        split
        · rename_i hheard
          have hstate : c.state = .closing ∨ c.state = .closed := by
            rcases hok with hcurrent | hunheard | hstate | ⟨hsome, -⟩
            · simp [h.socket] at hcurrent
            · rcases hunheard s hs with hgone | hgone
              · exact absurd hgone hopen
              · simp [hheard] at hgone
            · exact hstate
            · exact absurd h.socket hsome
          simp only [if_neg hopen, if_pos hheard] at htended
          rw [onClose_of_closed (c.modifySocket i _) i hstate] at htended ⊢
          exact ⟨htended, h.sleeping, h.socket, h.rejected, by simp [h.sockets]⟩
        · rename_i hdeaf
          simp only [if_neg hopen, if_neg hdeaf] at htended
          exact ⟨htended, h.sleeping, h.socket, h.rejected, by simp [h.sockets]⟩
  | timer k ready =>
    have hsame : c.step (.timer k ready) = c := by
      simp [BrowserSignalingClient.step, h.sleeping]
    rw [hsame]
    exact h
  | caught =>
    by_cases hr : c.rejected = 0
    · have hsame : c.step .caught = c := by simp [BrowserSignalingClient.step, hr]
      rw [hsame]
      exact h
    · have hclosed := h.rejected hr
      have hnext : c.step .caught = { c with rejected := c.rejected - 1 } := by
        simp [BrowserSignalingClient.step, hr, hclosed]
      rw [hnext] at htended ⊢
      exact ⟨htended, h.sleeping, h.socket, fun _ => hclosed, h.sockets⟩

end BrowserSignalingClient

open BrowserSignalingClient in
/-- In an orderly run at most one socket is alive, and after `close` none is created before
the next `connect`. -/
theorem one_live_socket (delays : List Nat) (c : BrowserSignalingClient)
    (h : Run BrowserSignalingClient.step Orderly (.new delays) c) :
    (∀ i j, c.Live i → c.Live j → i = j) ∧
    ∀ c', Orderly c .close →
      Run BrowserSignalingClient.step (fun c a => Orderly c a ∧ ∀ ready, a ≠ .connect ready)
        (c.step .close) c' → c'.sockets.length = c.sockets.length := by
  have htended : c.Tended := h.invariant (fun _ a hc ha => hc.step a ha) (tended_new delays)
  refine ⟨fun i j hi hj => ?_, fun c' hclose hrun => ?_⟩
  · have hsame := (htended.current i hi).symm.trans (htended.current j hj)
    exact Option.some.inj hsame
  · have hquiet := hrun.invariant (P := Quiet c.sockets.length)
      (fun _ a hc ha => hc.step a ha.1 ha.2) (htended.quiet_close hclose)
    exact hquiet.sockets

namespace Sample

def client (actions : List BrowserSignalingClient.Action) : BrowserSignalingClient :=
  steps BrowserSignalingClient.step (.new [250]) actions

end Sample

theorem one_live_socket_sample :
    (Sample.client [.connect false, .openEvent 0, .close, .closeEvent 0]).sockets.length = 1 :=
  (one_live_socket [250] (Sample.client [.connect false, .openEvent 0])
    (run_of_allowed ⟨.inr (.inr ⟨by decide, rfl⟩), trivial, trivial⟩)).2
    (Sample.client [.connect false, .openEvent 0, .close, .closeEvent 0]) rfl
    (.head (BrowserSignalingClient.Action.closeEvent 0)
      ⟨.inr (.inr (.inl (.inr rfl))), by simp⟩ (.refl _))

/-- A `connect` while a reconnect sleeps gives two sockets, and a `close` does not
stop it. -/
theorem sleeping_reconnect_opens :
    (¬ ∀ c, Run BrowserSignalingClient.step (fun _ _ => True) (.new [250]) c →
      ∀ i j, c.Live i → c.Live j → i = j) ∧
    ¬ ∀ c, Run BrowserSignalingClient.step (fun _ _ => True) (.new [250]) c →
      ∀ c', Run BrowserSignalingClient.step (fun _ a => ∀ ready, a ≠ .connect ready)
        (c.step .close) c' → c'.sockets.length = c.sockets.length := by
  constructor
  · intro h
    have hsame := h (Sample.client
      [.connect false, .openEvent 0, .closeEvent 0, .connect false, .timer 0 false])
      (run_steps _ _) 1 2 ⟨_, rfl, rfl⟩ ⟨_, rfl, rfl⟩
    omega
  · intro h
    have hsame := h (Sample.client [.connect false, .openEvent 0, .closeEvent 0]) (run_steps _ _)
      (Sample.client [.connect false, .openEvent 0, .closeEvent 0, .close, .timer 0 false])
      (.head (BrowserSignalingClient.Action.timer 0 false) (by simp) (.refl _))
    exact absurd hsame (by decide)

end PonsWarp.Signaling
