import PonsWarp.Data.Run

set_option autoImplicit false

/-!
How `runSend` and `runJoin` end. Signals, a failure of the command and its success all come to one
clean-up, which closes the engine, the file and the transport one after the other; who asks for it
waits for the same promise. While an operation is under way the command may still open things, and
more signals may come.
-/

namespace PonsWarp.Cli.Shutdown

open PonsWarp.Data

inductive Signal
  | SIGINT
  | SIGTERM
  deriving DecidableEq

def Signal.code : Signal → Nat
  | .SIGINT => 130
  | .SIGTERM => 143

inductive Resource
  | engine
  | source
  | transport
  deriving DecidableEq

/-- `cleanupPromise`: not there yet, waiting for an operation, or settled. -/
inductive Cleanup (E : Type)
  | idle
  | closing (resource : Resource)
  | settled (rejection : Option E)

/-- Where the command is: at work, waiting for the clean-up with the error it will rethrow if it
failed, or at its end. -/
inductive Command (E : Type)
  | running
  | cleaning (primary : Option E)
  | returned
  | threw (error : E)

def Command.hasThrown {E : Type} : Command E → Bool
  | .threw _ => true
  | _ => false

/-- `engine` and `source` are what `getEngine` and `getSource` find. `notified` tells that the
handlers of the signal have heard of the clean-up. `failures` are the errors of the operations, in
order; no method reads it. -/
structure CliRuntime (E : Type) where
  engine : Bool
  source : Bool
  cleanup : Cleanup E
  firstError : Option E
  closed : List Resource
  logged : List E
  command : Command E
  closing : Option Signal
  notified : Bool
  removed : Bool
  exits : List Nat
  failures : List E

variable {E : Type}

namespace CliRuntime

def new : CliRuntime E :=
  ⟨false, false, .idle, none, [], [], .running, none, false, false, [], []⟩

/-- An operation starts; the clean-up waits for it. -/
def attempt (s : CliRuntime E) (resource : Resource) : CliRuntime E :=
  { s with cleanup := .closing resource, closed := s.closed ++ [resource] }

def closeTransport (s : CliRuntime E) : CliRuntime E := s.attempt .transport

def closeSource (s : CliRuntime E) : CliRuntime E :=
  if s.source then s.attempt .source else s.closeTransport

/-- A call of the function that `createCliCleanup` makes: the first one runs up to its first
`await`, the others get its promise. -/
def startCleanup (s : CliRuntime E) : CliRuntime E :=
  match s.cleanup with
  | .idle => if s.engine then s.attempt .engine else s.closeSource
  | _ => s

/-- The `catch` of an attempt. -/
def failed (s : CliRuntime E) (error : E) : CliRuntime E :=
  match s.firstError with
  | none => { s with firstError := some error, failures := s.failures ++ [error] }
  | some _ => { s with logged := s.logged ++ [error], failures := s.failures ++ [error] }

def attempted (s : CliRuntime E) : Option E → CliRuntime E
  | none => s
  | some error => s.failed error

/-- What the clean-up does after an operation. -/
def proceed (s : CliRuntime E) : Resource → CliRuntime E
  | .engine => s.closeSource
  | .source => s.closeTransport
  | .transport => { s with cleanup := .settled s.firstError }

/-- The operation under way ends, and the clean-up goes on. -/
def settle (s : CliRuntime E) (result : Option E) : CliRuntime E :=
  match s.cleanup with
  | .closing resource => (s.attempted result).proceed resource
  | _ => s

def remove (s : CliRuntime E) : CliRuntime E :=
  if s.removed || s.closing.isSome then s else { s with removed := true }

def finish (s : CliRuntime E) (code : Nat) : CliRuntime E :=
  { s with removed := true, exits := s.exits ++ [code] }

/-- A signal, which only listeners that are not removed hear. -/
def shutdown (s : CliRuntime E) (signal : Signal) : CliRuntime E :=
  if s.removed || s.closing.isSome then s else { s with closing := some signal }.startCleanup

/-- The handlers that `shutdown` gave to the promise of the clean-up. -/
def notify (s : CliRuntime E) : CliRuntime E :=
  match s.closing, s.cleanup with
  | some signal, .settled rejection =>
    if s.notified then s
    else
      match rejection with
      | none => { s with notified := true }.finish signal.code
      | some error => { s with notified := true, logged := s.logged ++ [error] }.finish 1
  | _, _ => s

/-- The command comes to `rethrowWithCleanup`, or to the `await cleanup()` of `runJoin`. -/
def leave (s : CliRuntime E) (primary : Option E) : CliRuntime E :=
  match s.command with
  | .running => { s with command := .cleaning primary }.startCleanup
  | _ => s

/-- The command goes on when the clean-up has settled. A rejection that `runJoin` meets is caught
there and rethrown after another wait for the same promise. -/
def resume (s : CliRuntime E) : CliRuntime E :=
  match s.command, s.cleanup with
  | .cleaning none, .settled none => { s with command := .returned }.remove
  | .cleaning none, .settled (some error) => { s with command := .cleaning (some error) }
  | .cleaning (some primary), .settled rejection =>
    { s with command := .threw primary, logged := s.logged ++ rejection.toList }.remove
  | _, _ => s

end CliRuntime

inductive Action (E : Type)
  | openEngine
  | openSource
  | signal (signal : Signal)
  | leave (primary : Option E)
  | settle (result : Option E)
  | notify
  | resume

open CliRuntime

def step (s : CliRuntime E) : Action E → CliRuntime E
  | .openEngine => { s with engine := true }
  | .openSource => { s with source := true }
  | .signal signal => s.shutdown signal
  | .leave primary => s.leave primary
  | .settle result => s.settle result
  | .notify => s.notify
  | .resume => s.resume

/-! ### Bookkeeping -/

namespace CliRuntime

variable {s t : CliRuntime E}

/-- The reports of the rejection after the clean-up: by the handlers, and by the command. -/
def reports (s : CliRuntime E) : List E :=
  (if s.notified then s.failures.head?.toList else []) ++
    (if s.command.hasThrown then s.failures.head?.toList else [])

/-- What has been closed by the time the clean-up is where it is. -/
def Progressed (s : CliRuntime E) : Prop :=
  match s.cleanup with
  | .idle => s.closed = []
  | .closing .engine => s.closed = [.engine]
  | .closing .source => ∃ l, l.Sublist [Resource.engine] ∧ s.closed = l ++ [.source]
  | .closing .transport => ∃ l, l.Sublist [Resource.engine, .source] ∧ s.closed = l ++ [.transport]
  | .settled rejection => rejection = s.failures.head? ∧
      ∃ l, l.Sublist [Resource.engine, .source] ∧ s.closed = l ++ [.transport]

/-- What holds at any time, in the middle of a step as well. -/
structure Kept (s : CliRuntime E) : Prop where
  progressed : s.Progressed
  first : s.firstError = s.failures.head?
  logged : s.logged = s.failures.tail ++ s.reports
  unsettled : (∀ rejection, s.cleanup ≠ .settled rejection) →
    s.notified = false ∧ s.command.hasThrown = false
  unnotified : s.notified = false → s.exits = []
  notified : s.notified = true → ∃ signal rejection, s.closing = some signal ∧
    s.cleanup = .settled rejection ∧ s.exits = [if rejection.isNone then signal.code else 1]
  listening : s.closing.isSome → s.notified = false → s.removed = false

/-- Nobody waits for a clean-up that has not been started. -/
structure Orderly (s : CliRuntime E) : Prop extends Kept s where
  started : s.cleanup = .idle → s.closing = none ∧ ∀ primary, s.command ≠ .cleaning primary

theorem Kept.reports_nil (h : s.Kept) (hu : ∀ rejection, s.cleanup ≠ .settled rejection) :
    s.reports = [] := by
  obtain ⟨hnotified, hthrew⟩ := h.unsettled hu
  simp [reports, hnotified, hthrew]

/-- The clean-up goes on to an operation. -/
theorem Kept.attempt {resource : Resource} (h : s.Kept)
    (hu : ∀ rejection, s.cleanup ≠ .settled rejection)
    (hp : (s.attempt resource).Progressed) : (s.attempt resource).Orderly := by
  obtain ⟨hnotified, hthrew⟩ := h.unsettled hu
  refine ⟨⟨hp, h.first, h.logged, fun _ => ⟨hnotified, hthrew⟩, h.unnotified,
    fun hn => ?_, h.listening⟩, fun hidle => by cases hidle⟩
  cases hnotified.symm.trans hn

theorem Kept.closeTransport (h : s.Kept) (hu : ∀ rejection, s.cleanup ≠ .settled rejection)
    {l : List Resource} (hl : l.Sublist [.engine, .source]) (hclosed : s.closed = l) :
    s.closeTransport.Orderly :=
  h.attempt hu ⟨l, hl, by rw [← hclosed]; rfl⟩

theorem Kept.closeSource (h : s.Kept) (hu : ∀ rejection, s.cleanup ≠ .settled rejection)
    {l : List Resource} (hl : l.Sublist [.engine]) (hclosed : s.closed = l) :
    s.closeSource.Orderly := by
  unfold CliRuntime.closeSource
  split
  · exact h.attempt hu ⟨l, hl, by rw [← hclosed]; rfl⟩
  · exact h.closeTransport hu (hl.trans (by decide)) hclosed

theorem Kept.startCleanup (h : s.Kept) : s.startCleanup.Orderly := by
  have hp := h.progressed
  unfold CliRuntime.startCleanup
  unfold Progressed at hp
  split
  · rename_i hidle
    rw [hidle] at hp
    have hu : ∀ rejection, s.cleanup ≠ .settled rejection := by simp [hidle]
    split
    · exact h.attempt hu (by simp [Progressed, CliRuntime.attempt, hp])
    · exact h.closeSource hu (List.nil_sublist _) hp
  · rename_i hbusy
    exact ⟨h, fun hidle => absurd hidle (by simpa using hbusy)⟩

/-- A failure is kept to be thrown, or written down. -/
theorem Kept.failed (h : s.Kept) (hu : ∀ rejection, s.cleanup ≠ .settled rejection) (error : E) :
    (s.failed error).Kept ∧ (s.failed error).cleanup = s.cleanup ∧
      (s.failed error).closed = s.closed := by
  have hnone := h.reports_nil hu
  have hlogged := h.logged
  have hfirst := h.first
  obtain ⟨hnotified, hthrew⟩ := h.unsettled hu
  have hp : ∀ (logged failures : List E) (first : Option E), Progressed { s with
      logged := logged, failures := failures, firstError := first } := by
    intro logged failures first
    have hold := h.progressed
    unfold Progressed at hold ⊢
    split at hold
    all_goals
      rename_i heq
      simp only [heq]
    · exact hold
    · exact hold
    · exact hold
    · exact hold
    · exact absurd heq (hu _)
  have hquiet : ∀ (logged failures : List E) (first : Option E), reports { s with
      logged := logged, failures := failures, firstError := first } = [] := by
    simp [reports, hnotified, hthrew]
  rw [hnone, List.append_nil] at hlogged
  unfold CliRuntime.failed
  split
  · rename_i hempty
    have hnil : s.failures = [] := by
      rw [hempty] at hfirst
      exact List.head?_eq_none_iff.1 hfirst.symm
    refine ⟨⟨hp _ _ _, ?_, ?_, h.unsettled, h.unnotified, h.notified, h.listening⟩, rfl, rfl⟩
    · simp [hnil]
    · rw [hquiet]
      simp [hlogged, hnil]
  · rename_i e hsome
    obtain ⟨e', rest, hcons⟩ : ∃ e' rest, s.failures = e' :: rest := by
      cases hf : s.failures with
      | nil => simp [hf, hsome] at hfirst
      | cons e' rest => exact ⟨e', rest, rfl⟩
    refine ⟨⟨hp _ _ _, ?_, ?_, h.unsettled, h.unnotified, h.notified, h.listening⟩, rfl, rfl⟩
    · simp [hfirst, hcons]
    · rw [hquiet]
      simp [hlogged, hcons]

theorem Orderly.settle (h : s.Orderly) (result : Option E) : (s.settle result).Orderly := by
  unfold CliRuntime.settle
  split
  · rename_i resource hclosing
    have hu : ∀ rejection, s.cleanup ≠ .settled rejection := by simp [hclosing]
    obtain ⟨hkept, hcleanup, hclosed⟩ : (s.attempted result).Kept ∧
        (s.attempted result).cleanup = s.cleanup ∧ (s.attempted result).closed = s.closed := by
      cases result with
      | none => exact ⟨h.toKept, rfl, rfl⟩
      | some error => exact h.failed hu error
    have hu' : ∀ rejection, (s.attempted result).cleanup ≠ .settled rejection := by
      rw [hcleanup]
      exact hu
    have hp := h.progressed
    unfold Progressed at hp
    rw [hclosing] at hp
    cases resource with
    | engine => exact hkept.closeSource hu' (.refl _) (hclosed.trans hp)
    | source =>
      obtain ⟨l, hl, hcut⟩ := hp
      exact hkept.closeTransport hu' (hl.append (.refl [Resource.source])) (hclosed.trans hcut)
    | transport =>
      obtain ⟨l, hl, hcut⟩ := hp
      obtain ⟨hnotified, hthrew⟩ := hkept.unsettled hu'
      refine ⟨⟨⟨hkept.first, l, hl, hclosed.trans hcut⟩, hkept.first, hkept.logged,
        fun _ => ⟨hnotified, hthrew⟩, hkept.unnotified, fun hn => ?_, hkept.listening⟩,
        fun hidle => by cases hidle⟩
      cases hnotified.symm.trans hn
  · exact h

theorem Orderly.shutdown (h : s.Orderly) (signal : Signal) : (s.shutdown signal).Orderly := by
  unfold CliRuntime.shutdown
  split
  · exact h
  · rename_i hopen
    simp only [Bool.or_eq_true, not_or, Bool.not_eq_true, Option.isSome_eq_false_iff,
      Option.isNone_iff_eq_none] at hopen
    refine Kept.startCleanup ⟨h.progressed, h.first, h.logged, h.unsettled, h.unnotified,
      fun hn => ?_, fun _ _ => hopen.1⟩
    obtain ⟨other, -, hclosing, -⟩ := h.notified hn
    cases hopen.2.symm.trans hclosing

theorem Orderly.notify (h : s.Orderly) : s.notify.Orderly := by
  have hp := h.progressed
  have hlogged := h.logged
  unfold CliRuntime.notify
  unfold Progressed at hp
  split
  · rename_i signal rejection hclosing hsettled
    rw [hsettled] at hp
    split
    · exact h
    · rename_i hn
      have hnot : s.notified = false := by simpa using hn
      have hexits := h.unnotified hnot
      cases rejection with
      | none =>
        refine ⟨⟨?_, h.first, ?_, fun hu => absurd hsettled (hu _), fun hn' => ?_, fun _ => ?_,
          fun _ hn' => ?_⟩, fun hidle => ?_⟩
        · simpa [Progressed, finish, hsettled] using hp
        · simp [finish, reports, hlogged, hnot, ← hp.1]
        · cases hn'
        · exact ⟨signal, none, hclosing, hsettled, by simp [finish, hexits]⟩
        · cases hn'
        · cases hsettled.symm.trans hidle
      | some error =>
        refine ⟨⟨?_, h.first, ?_, fun hu => absurd hsettled (hu _), fun hn' => ?_, fun _ => ?_,
          fun _ hn' => ?_⟩, fun hidle => ?_⟩
        · simpa [Progressed, finish, hsettled] using hp
        · have hhead : s.failures.head? = some error := hp.1.symm
          by_cases hthrew : s.command.hasThrown = true <;>
            simp [finish, reports, hlogged, hnot, hhead, hthrew]
        · cases hn'
        · exact ⟨signal, some error, hclosing, hsettled, by simp [finish, hexits]⟩
        · cases hn'
        · cases hsettled.symm.trans hidle
  · exact h

theorem Orderly.leave (h : s.Orderly) (primary : Option E) : (s.leave primary).Orderly := by
  unfold CliRuntime.leave
  split
  · rename_i hrunning
    have hquiet : reports { s with command := .cleaning primary } = s.reports := by
      simp [reports, hrunning, Command.hasThrown]
    exact Kept.startCleanup ⟨h.progressed, h.first, h.logged.trans (by rw [hquiet]),
      fun hu => ⟨(h.unsettled hu).1, rfl⟩, h.unnotified, h.notified, h.listening⟩
  · exact h

theorem Orderly.remove (h : s.Orderly) : s.remove.Orderly := by
  unfold CliRuntime.remove
  split
  · exact h
  · rename_i hopen
    simp only [Bool.or_eq_true, not_or, Bool.not_eq_true] at hopen
    refine ⟨⟨h.progressed, h.first, h.logged, h.unsettled, h.unnotified, h.notified,
      fun hc => ?_⟩, h.started⟩
    rw [hopen.2] at hc
    cases hc

theorem Orderly.resume (h : s.Orderly) : s.resume.Orderly := by
  have hp := h.progressed
  unfold CliRuntime.resume
  unfold Progressed at hp
  split
  · rename_i hcommand hsettled
    have hquiet : reports { s with command := .returned } = s.reports := by
      simp [reports, hcommand, Command.hasThrown]
    exact Orderly.remove ⟨⟨h.progressed, h.first, h.logged.trans (by rw [hquiet]),
      fun hu => absurd hsettled (hu _), h.unnotified, h.notified, h.listening⟩,
      fun hidle => by cases hsettled.symm.trans hidle⟩
  · rename_i error hcommand hsettled
    have hquiet : reports { s with command := .cleaning (some error) } = s.reports := by
      simp [reports, hcommand, Command.hasThrown]
    exact ⟨⟨h.progressed, h.first, h.logged.trans (by rw [hquiet]),
      fun hu => absurd hsettled (hu _), h.unnotified, h.notified, h.listening⟩,
      fun hidle => by cases hsettled.symm.trans hidle⟩
  · rename_i primary rejection hcommand hsettled
    rw [hsettled] at hp
    refine Orderly.remove ⟨⟨h.progressed, h.first, ?_, fun hu => absurd hsettled (hu _),
      h.unnotified, h.notified, h.listening⟩, fun hidle => by cases hsettled.symm.trans hidle⟩
    simp [h.logged, reports, hcommand, Command.hasThrown, hp.1]
  · exact h

theorem orderly_new : (new : CliRuntime E).Orderly := by
  refine ⟨⟨rfl, rfl, rfl, fun _ => ⟨rfl, rfl⟩, fun _ => rfl, fun h => ?_, fun _ _ => rfl⟩,
    fun _ => ⟨rfl, fun _ h => ?_⟩⟩
  · cases h
  · cases h

theorem Orderly.step (h : s.Orderly) (a : Action E) : (step s a).Orderly := by
  cases a with
  | openEngine =>
    exact ⟨⟨h.progressed, h.first, h.logged, h.unsettled, h.unnotified, h.notified, h.listening⟩,
      h.started⟩
  | openSource =>
    exact ⟨⟨h.progressed, h.first, h.logged, h.unsettled, h.unnotified, h.notified, h.listening⟩,
      h.started⟩
  | signal signal => exact h.shutdown signal
  | leave primary => exact h.leave primary
  | settle result => exact h.settle result
  | notify => exact h.notify
  | resume => exact h.resume

/-! ### What is there when its turn comes -/

def Opened (s : CliRuntime E) : Resource → Prop
  | .engine => s.engine = true
  | .source => s.source = true
  | .transport => True

/-- The clean-up has not come to the resource yet. -/
def Due (s : CliRuntime E) (r : Resource) : Prop :=
  match s.cleanup with
  | .idle => True
  | .closing .engine => r ≠ .engine
  | .closing .source => r = .transport
  | .closing .transport => False
  | .settled _ => False

/-- The resource is open and will have its turn, or has had it. -/
def Cared (s : CliRuntime E) (r : Resource) : Prop := s.Opened r ∧ s.Due r ∨ r ∈ s.closed

theorem cared_attempt {r resource : Resource} (h : s.Cared r)
    (hr : r = resource ∨ (s.attempt resource).Due r) : (s.attempt resource).Cared r := by
  obtain rfl | hdue := hr
  · exact .inr (by simp [attempt])
  · obtain ⟨hopened, -⟩ | hclosed := h
    · refine .inl ⟨?_, hdue⟩
      cases r with
      | engine => exact hopened
      | source => exact hopened
      | transport => trivial
    · exact .inr (by simp [attempt, hclosed])

theorem Cared.congr {r : Resource} (h : s.Cared r) (hengine : s.engine = true → t.engine = true)
    (hsource : s.source = true → t.source = true) (hcleanup : t.cleanup = s.cleanup)
    (hclosed : t.closed = s.closed) : t.Cared r := by
  obtain ⟨hopened, hdue⟩ | hin := h
  · refine .inl ⟨?_, by rwa [Due, hcleanup]⟩
    cases r with
    | engine => exact hengine hopened
    | source => exact hsource hopened
    | transport => trivial
  · exact .inr (hclosed ▸ hin)

theorem mem_attempt {r resource : Resource} (h : r ∈ s.closed) : r ∈ (s.attempt resource).closed := by
  simp [attempt, h]

theorem cared_closeTransport {r : Resource} (h : r = .transport ∨ r ∈ s.closed) :
    s.closeTransport.Cared r := by
  refine .inr ?_
  obtain rfl | h := h
  · simp [CliRuntime.closeTransport, attempt]
  · exact mem_attempt h

theorem cared_closeSource {r : Resource}
    (h : (r = .source ∧ s.source = true) ∨ r = .transport ∨ r ∈ s.closed) :
    s.closeSource.Cared r := by
  unfold CliRuntime.closeSource
  split
  · obtain ⟨rfl, -⟩ | rfl | h := h
    · exact .inr (by simp [attempt])
    · exact .inl ⟨trivial, rfl⟩
    · exact .inr (mem_attempt h)
  · rename_i hnone
    obtain ⟨rfl, hsource⟩ | h := h
    · exact absurd hsource hnone
    · exact cared_closeTransport h

theorem Cared.startCleanup {r : Resource} (h : s.Cared r) : s.startCleanup.Cared r := by
  unfold CliRuntime.startCleanup
  split
  · rename_i hidle
    split
    · obtain ⟨hopened, -⟩ | hin := h
      · cases r with
        | engine => exact .inr (by simp [attempt])
        | source => exact .inl ⟨hopened, by simp [Due, attempt]⟩
        | transport => exact .inl ⟨trivial, by simp [Due, attempt]⟩
      · exact .inr (mem_attempt hin)
    · rename_i hnone
      refine cared_closeSource ?_
      obtain ⟨hopened, -⟩ | hin := h
      · cases r with
        | engine => exact absurd hopened hnone
        | source => exact .inl ⟨rfl, hopened⟩
        | transport => exact .inr (.inl rfl)
      · exact .inr (.inr hin)
  · exact h

theorem attempted_fields (s : CliRuntime E) (result : Option E) :
    (s.attempted result).engine = s.engine ∧ (s.attempted result).source = s.source ∧
      (s.attempted result).cleanup = s.cleanup ∧ (s.attempted result).closed = s.closed := by
  cases result with
  | none => exact ⟨rfl, rfl, rfl, rfl⟩
  | some error =>
    simp only [attempted, failed]
    split <;> exact ⟨rfl, rfl, rfl, rfl⟩

theorem Cared.settle {r : Resource} (h : s.Cared r) (result : Option E) :
    (s.settle result).Cared r := by
  unfold CliRuntime.settle
  split
  · rename_i resource hclosing
    obtain ⟨-, hsource, -, hclosed⟩ := s.attempted_fields result
    cases resource with
    | engine =>
      refine cared_closeSource ?_
      rw [hsource, hclosed]
      obtain ⟨hopened, hdue⟩ | hin := h
      · rw [Due, hclosing] at hdue
        cases r with
        | engine => exact absurd rfl hdue
        | source => exact .inl ⟨rfl, hopened⟩
        | transport => exact .inr (.inl rfl)
      · exact .inr (.inr hin)
    | source =>
      refine cared_closeTransport ?_
      rw [hclosed]
      obtain ⟨-, hdue⟩ | hin := h
      · rw [Due, hclosing] at hdue
        exact .inl hdue
      · exact .inr hin
    | transport =>
      obtain ⟨-, hdue⟩ | hin := h
      · rw [Due, hclosing] at hdue
        exact hdue.elim
      · exact .inr (hclosed.symm ▸ hin)
  · exact h

/-- Neither what is open nor the clean-up is touched. -/
structure Aside (s t : CliRuntime E) : Prop where
  engine : t.engine = s.engine
  source : t.source = s.source
  cleanup : t.cleanup = s.cleanup
  closed : t.closed = s.closed

theorem Aside.cared {r : Resource} (h : Aside s t) (hc : s.Cared r) : t.Cared r :=
  hc.congr (by simp [h.engine]) (by simp [h.source]) h.cleanup h.closed

theorem aside_remove (s : CliRuntime E) : Aside s s.remove := by
  unfold remove
  split <;> exact ⟨rfl, rfl, rfl, rfl⟩

theorem aside_notify (s : CliRuntime E) : Aside s s.notify := by
  unfold notify
  split
  · split
    · exact ⟨rfl, rfl, rfl, rfl⟩
    · split <;> exact ⟨rfl, rfl, rfl, rfl⟩
  · exact ⟨rfl, rfl, rfl, rfl⟩

theorem aside_resume (s : CliRuntime E) : Aside s s.resume := by
  unfold resume
  split
  · obtain ⟨hengine, hsource, hcleanup, hclosed⟩ := aside_remove { s with command := .returned }
    exact ⟨hengine, hsource, hcleanup, hclosed⟩
  · exact ⟨rfl, rfl, rfl, rfl⟩
  · rename_i primary rejection _ _
    obtain ⟨hengine, hsource, hcleanup, hclosed⟩ := aside_remove
      { s with command := .threw primary, logged := s.logged ++ rejection.toList }
    exact ⟨hengine, hsource, hcleanup, hclosed⟩
  · exact ⟨rfl, rfl, rfl, rfl⟩

theorem Cared.step {r : Resource} (h : s.Cared r) (a : Action E) : (step s a).Cared r := by
  cases a with
  | openEngine => exact h.congr (fun _ => rfl) id rfl rfl
  | openSource => exact h.congr id (fun _ => rfl) rfl rfl
  | signal signal =>
    simp only [Shutdown.step, shutdown]
    split
    · exact h
    · have hcared : Cared { s with closing := some signal } r := h.congr id id rfl rfl
      exact hcared.startCleanup
  | leave primary =>
    simp only [Shutdown.step, CliRuntime.leave]
    split
    · have hcared : Cared { s with command := .cleaning primary } r := h.congr id id rfl rfl
      exact hcared.startCleanup
    · exact h
  | settle result => exact h.settle result
  | notify => exact (aside_notify s).cared h
  | resume => exact (aside_resume s).cared h

/-! ### The first signal and the first error stay -/

/-- Nothing but the clean-up, what is open and what is logged is touched. -/
structure Held (s t : CliRuntime E) : Prop where
  closing : t.closing = s.closing
  command : t.command = s.command

theorem Held.trans {u : CliRuntime E} (h : Held s t) (h' : Held t u) : Held s u :=
  ⟨h'.closing.trans h.closing, h'.command.trans h.command⟩

theorem held_closeSource (s : CliRuntime E) : Held s s.closeSource := by
  unfold closeSource
  split <;> exact ⟨rfl, rfl⟩

theorem held_startCleanup (s : CliRuntime E) : Held s s.startCleanup := by
  unfold startCleanup
  split
  · split
    · exact ⟨rfl, rfl⟩
    · exact held_closeSource s
  · exact ⟨rfl, rfl⟩

theorem held_attempted (s : CliRuntime E) (result : Option E) : Held s (s.attempted result) := by
  cases result with
  | none => exact ⟨rfl, rfl⟩
  | some error =>
    simp only [attempted, failed]
    split <;> exact ⟨rfl, rfl⟩

theorem held_settle (s : CliRuntime E) (result : Option E) : Held s (s.settle result) := by
  unfold settle
  split
  · rename_i resource _
    cases resource with
    | engine => exact (s.held_attempted result).trans (held_closeSource _)
    | source => exact (s.held_attempted result).trans ⟨rfl, rfl⟩
    | transport => exact (s.held_attempted result).trans ⟨rfl, rfl⟩
  · exact ⟨rfl, rfl⟩

theorem remove_fields (s : CliRuntime E) :
    s.remove.closing = s.closing ∧ s.remove.command = s.command := by
  unfold remove
  split <;> exact ⟨rfl, rfl⟩

theorem closing_step {signal : Signal} (h : s.closing = some signal) (a : Action E) :
    (step s a).closing = some signal := by
  cases a with
  | openEngine => exact h
  | openSource => exact h
  | signal other => simp [Shutdown.step, shutdown, h]
  | leave primary =>
    simp only [Shutdown.step, CliRuntime.leave]
    split
    · exact (held_startCleanup _).closing.trans h
    · exact h
  | settle result => exact (s.held_settle result).closing.trans h
  | notify =>
    simp only [Shutdown.step, CliRuntime.notify]
    split
    · split
      · exact h
      · split <;> exact h
    · exact h
  | resume =>
    simp only [Shutdown.step, CliRuntime.resume]
    split
    · exact (remove_fields _).1.trans h
    · exact h
    · exact (remove_fields _).1.trans h
    · exact h

/-- The command has failed with the error, and will throw it. -/
def Fails (s : CliRuntime E) (primary : E) : Prop :=
  s.command = .cleaning (some primary) ∨ s.command = .threw primary

theorem Fails.held {primary : E} (h : s.Fails primary) (ht : t.command = s.command) :
    t.Fails primary := by
  unfold Fails
  rwa [ht]

theorem Fails.step {primary : E} (h : s.Fails primary) (a : Action E) :
    (step s a).Fails primary := by
  cases a with
  | openEngine => exact h
  | openSource => exact h
  | signal signal =>
    simp only [Shutdown.step, shutdown]
    split
    · exact h
    · exact h.held (held_startCleanup _).command
  | leave other =>
    obtain h | h := h
    · exact .inl (by simp [Shutdown.step, CliRuntime.leave, h])
    · exact .inr (by simp [Shutdown.step, CliRuntime.leave, h])
  | settle result => exact h.held (s.held_settle result).command
  | notify =>
    simp only [Shutdown.step, CliRuntime.notify]
    split
    · split
      · exact h
      · split <;> exact h
    · exact h
  | resume =>
    simp only [Shutdown.step, CliRuntime.resume]
    obtain h | h := h
    · split
      · rename_i hnone _
        cases h.symm.trans hnone
      · rename_i hnone _
        cases h.symm.trans hnone
      · rename_i other rejection hsome _
        cases h.symm.trans hsome
        exact .inr (remove_fields _).2
      · exact .inl h
    · refine .inr ?_
      split
      · rename_i hnone _
        cases h.symm.trans hnone
      · rename_i hnone _
        cases h.symm.trans hnone
      · rename_i hsome _
        cases h.symm.trans hsome
      · exact h

/-! ### The end -/

/-- How many operations the clean-up waits for at most. -/
def remaining (s : CliRuntime E) : Nat :=
  match s.cleanup with
  | .idle => 4
  | .closing .engine => 3
  | .closing .source => 2
  | .closing .transport => 1
  | .settled _ => 0

theorem remaining_closeSource (s : CliRuntime E) : s.closeSource.remaining ≤ 2 := by
  unfold closeSource
  split <;> simp [remaining, attempt, closeTransport]

theorem remaining_settle (h : s.remaining ≤ 3) (result : Option E) :
    (s.settle result).remaining ≤ s.remaining - 1 := by
  unfold settle
  split
  · rename_i resource hclosing
    cases resource with
    | engine =>
      have hold : s.remaining = 3 := by simp [remaining, hclosing]
      rw [hold]
      exact remaining_closeSource _
    | source =>
      have hold : s.remaining = 2 := by simp [remaining, hclosing]
      rw [hold]
      exact Nat.le_refl 1
    | transport => exact Nat.zero_le _
  · rename_i hnot
    have hsettled : s.remaining = 0 := by
      unfold remaining at h ⊢
      split at h
      · omega
      · rename_i heq
        exact absurd heq (hnot _)
      · rename_i heq
        exact absurd heq (hnot _)
      · rename_i heq
        exact absurd heq (hnot _)
      · rfl
    omega

theorem settled_of_remaining (h : s.remaining = 0) : ∃ rejection, s.cleanup = .settled rejection := by
  unfold remaining at h
  split at h
  · omega
  · omega
  · omega
  · omega
  · rename_i rejection heq
    exact ⟨rejection, heq⟩

/-- Once a signal has come, the process ends as soon as the operations do. -/
theorem Orderly.exits (h : s.Orderly) {signal : Signal} (hs : s.closing = some signal)
    (a b c : Option E) :
    (steps Shutdown.step s [.settle a, .settle b, .settle c, .notify]).exits ≠ [] := by
  have hbusy : s.remaining ≤ 3 := by
    unfold remaining
    split
    · rename_i hidle
      cases hs.symm.trans (h.started hidle).1
    all_goals omega
  have ha := remaining_settle hbusy a
  have hb := remaining_settle (s := s.settle a) (by omega) b
  have hc := remaining_settle (s := (s.settle a).settle b) (by omega) c
  obtain ⟨rejection, hsettled⟩ := settled_of_remaining (s := ((s.settle a).settle b).settle c)
    (by omega)
  have hlast : (((s.settle a).settle b).settle c).Orderly := ((h.settle a).settle b).settle c
  have hclosing : (((s.settle a).settle b).settle c).closing = some signal := by
    rw [(held_settle _ c).closing, (held_settle _ b).closing, (held_settle _ a).closing, hs]
  simp only [steps, List.foldl_cons, List.foldl_nil, Shutdown.step]
  generalize ((s.settle a).settle b).settle c = t at hsettled hlast hclosing
  simp only [CliRuntime.notify, hclosing, hsettled]
  split
  · rename_i hn
    obtain ⟨_, _, -, -, hexits⟩ := hlast.notified hn
    simp [hexits]
  · split <;> simp [finish]

/-- The run went on from the first state to the second. -/
structure Ends (s t : CliRuntime E) : Prop where
  order : t.closed.Sublist [.engine, .source, .transport]
  released : ∀ r, s.Opened r → s.Due r → t.Due r ∨ r ∈ t.closed
  rejection : ∀ rejection, t.cleanup = .settled rejection →
    .transport ∈ t.closed ∧ rejection = t.failures.head?
  logged : t.logged = t.failures.tail ++ t.reports
  signal : ∀ signal, s.closing = some signal → t.closing = some signal
  exits : t.exits = [] ∨ ∃ signal rejection, t.closing = some signal ∧
    t.cleanup = .settled rejection ∧ t.exits = [if rejection.isNone then signal.code else 1]
  listening : t.closing.isSome → t.exits = [] → t.removed = false
  primary : ∀ primary, s.Fails primary → t.Fails primary
  ending : t.closing.isSome → ∀ a b c,
    (steps Shutdown.step t [.settle a, .settle b, .settle c, .notify]).exits ≠ []

theorem Orderly.order (h : s.Orderly) : s.closed.Sublist [.engine, .source, .transport] := by
  have hp := h.progressed
  unfold Progressed at hp
  split at hp
  · rw [hp]
    exact List.nil_sublist _
  · rw [hp]
    decide
  · obtain ⟨l, hl, hclosed⟩ := hp
    rw [hclosed]
    exact (hl.append (.refl [Resource.source])).trans (by decide)
  · obtain ⟨l, hl, hclosed⟩ := hp
    rw [hclosed]
    exact hl.append (.refl [Resource.transport])
  · obtain ⟨-, l, hl, hclosed⟩ := hp
    rw [hclosed]
    exact hl.append (.refl [Resource.transport])

end CliRuntime

/-- However signals, the end of the command, what it opens and what the operations come to
interleave, resources are closed once each and in order, what is open by its turn is closed, the
first error of the clean-up is its rejection and the others are written down, the command throws
the error it failed with, and the process ends once, not before everything is closed, with the
code of the first signal or with 1. -/
theorem shutdown_is_orderly (before after : List (Action E)) :
    Ends (steps step new before) (steps step new (before ++ after)) := by
  have horderly : ∀ run : List (Action E), (steps step new run).Orderly := fun run =>
    (run_steps new run).invariant (fun _ a h _ => h.step a) orderly_new
  have hrun : Run step (fun _ _ => True) (steps step new before)
      (steps step (new : CliRuntime E) (before ++ after)) := by
    have hcut : steps step (new : CliRuntime E) (before ++ after) =
        steps step (steps step new before) after := List.foldl_append
    rw [hcut]
    exact run_steps _ after
  have h := horderly (before ++ after)
  refine ⟨h.order, fun r hopened hdue => ?_, fun rejection hsettled => ?_, h.logged,
    fun signal hs => ?_, ?_, fun hclosing hexits => ?_, fun primary hfails => ?_,
    fun hclosing a b c => ?_⟩
  · have hcared := hrun.invariant (P := fun s => s.Cared r) (fun _ a hc _ => hc.step a)
      (.inl ⟨hopened, hdue⟩)
    exact hcared.imp_left And.right
  · have hp := h.progressed
    unfold Progressed at hp
    rw [hsettled] at hp
    obtain ⟨hfirst, l, -, hclosed⟩ := hp
    exact ⟨by simp [hclosed], hfirst⟩
  · exact hrun.invariant (P := fun s => s.closing = some signal)
      (fun _ a hc _ => closing_step hc a) hs
  · cases hn : (steps step (new : CliRuntime E) (before ++ after)).notified with
    | false => exact .inl (h.unnotified hn)
    | true => exact .inr (h.notified hn)
  · refine h.listening hclosing ?_
    cases hn : (steps step (new : CliRuntime E) (before ++ after)).notified with
    | false => rfl
    | true =>
      obtain ⟨_, _, -, -, hone⟩ := h.notified hn
      simp [hone] at hexits
  · exact hrun.invariant (P := fun s => s.Fails primary) (fun _ a hc _ => hc.step a) hfails
  · obtain ⟨signal, hs⟩ := Option.isSome_iff_exists.1 hclosing
    exact h.exits hs a b c

end PonsWarp.Cli.Shutdown
