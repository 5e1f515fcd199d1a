import PonsWarp.Core.Actions

set_option autoImplicit false

/-!
What is left of a direct window after `cancelDirectRequests`. A window that was
cancelled takes no new task and starts none of those it has; only a fill loop
that is past its check can still ask for pieces.
-/

namespace PonsWarp.Core

open PonsWarp.Data

/-- The window key of a direct request. -/
def OutstandingRequest.windowKey? (r : OutstandingRequest) : Option String :=
  r.direct.map (·.windowKey)

/-- The continuations of the code that runs in a window's chain. -/
def Frame.worksFor (ref : Nat) : Frame → Prop
  | .windowJob r _ => r = ref
  | .fillWindow r _ _ _ _ _ => r = ref
  | _ => False

/-- What may stand in a task that runs in a window's chain. -/
def Frame.InChain (ref : Nat) : Frame → Prop
  | .requestSent _ _ _ => True
  | .requestPersisted _ _ _ => True
  | .windowJob r _ => r = ref
  | .fillWindow r _ _ _ _ _ => r = ref
  | _ => False

/-- A fill loop for a window object or under its key. -/
def Frame.Fills (ref : Nat) (key : String) : Frame → Prop
  | .fillWindow r k _ _ _ _ => r = ref ∨ k = key
  | _ => False

namespace World

variable {σ : Type}

/-- The action runs code of a window: it starts the next task of the window's
chain, or takes further a task that was started there. -/
def Works (w : World σ) (a : Action) (ref : Nat) : Prop :=
  a = .window ref ∨
  ∃ i task frame, a = .resume i ∧ w.tasks[i]? = some task ∧ frame ∈ task.stack ∧ frame.worksFor ref

/-- Nothing under the key can ask for a piece without passing the check of its
window: no fill loop is suspended, and no other window object, orphaned when the
table of windows was pruned, still has tasks for the key. -/
def Quiet (w : World σ) (key : String) (ref : Nat) : Prop :=
  (∀ frame, w.Holds frame → ¬ frame.Fills ref key) ∧
  ∀ other window, w.engine.windowHeap[other]? = some window → other ≠ ref →
    ∀ job ∈ window.queue, job.key? ≠ some key

end World

/-! ### Who asks for a piece -/

section

variable {σ : Type} {e : Engine σ} {t : Turn}

/-- The first task of a window's chain, when the window lets it start. -/
def Engine.Starts (e : Engine σ) (ref : Nat) (job : WindowJob) : Prop :=
  ∃ window rest, e.windowHeap[ref]? = some window ∧ window.queue = job :: rest ∧
    window.disabled = false

theorem Grant.request_ask {p : PeerId} {f : FileId} {options : Option DirectRequestOptions}
    {m : Nat} {requestId : RequestId} {r : OutstandingRequest} {key : String}
    (h : Grant.request t p f options (.ask m requestId r)) (hk : r.windowKey? = some key) :
    ∃ o, options = some o ∧
      o.windowKey.getD (Engine.defaultWindowKey f p o.controllerId) = key := by
  have hd := h.direct
  rw [show r.direct.map (·.windowKey) = some key from hk] at hd
  cases options with
  | none => cases hd
  | some o =>
    simp only [Option.map_some, Option.some.injEq] at hd
    exact ⟨o, rfl, hd.symm⟩

theorem Grant.grid_ask {f : FileId} {options : GridScheduleOptions} {m : Nat}
    {requestId : RequestId} {r : OutstandingRequest} {key : String}
    (h : Grant.grid e t f options (.ask m requestId r)) : r.windowKey? ≠ some key := by
  have hd : r.direct = none := h.2.2
  simp [OutstandingRequest.windowKey?, hd]

theorem Grant.again_ask {p : PeerId} {f : FileId} {options : Option GridScheduleOptions} {m : Nat}
    {requestId : RequestId} {r : OutstandingRequest} {key : String}
    (h : Grant.again e t p f options (.ask m requestId r)) : r.windowKey? ≠ some key := by
  cases options with
  | some options =>
    have hgrid : Grant.grid e t f options (.ask m requestId r) := h
    exact Grant.grid_ask hgrid
  | none =>
    intro hk
    have hrequest : Grant.request t p f none (.ask m requestId r) := h
    obtain ⟨o, ho, _⟩ := Grant.request_ask hrequest hk
    cases ho

/-- Of the continuations only a fill loop makes requests under a window key. -/
theorem Frame.grant_ask {frame : Frame} {outcome : Except Failure Value} {m : Nat}
    {requestId : RequestId} {r : OutstandingRequest} {key : String}
    (h : frame.grant e t outcome (.ask m requestId r)) (hk : r.windowKey? = some key) :
    ∃ ref p f options scheduled, frame = .fillWindow ref key p f options scheduled := by
  unfold Frame.grant at h
  split at h
  all_goals first
    | exact (show False from h).elim
    | (simp [Grant.only, Grant.filling, Grant.announce, Grant.retire, Grant.lose, Grant.joined,
        Grant.joining, Grant.creating] at h; done)
    | skip
  · rename_i window windowKey p f options scheduled
    obtain h | ⟨more, hframe⟩ := h
    · obtain ⟨o, ho, hkey⟩ := Grant.request_ask h hk
      cases ho
      obtain rfl : windowKey = key := hkey
      exact ⟨window, p, f, options, scheduled, rfl⟩
    · cases hframe
  · exact absurd hk (Grant.grid_ask (show Grant.grid e t _ _ (.ask m requestId r) from h))
  · exact absurd hk (Grant.grid_ask (show Grant.grid e t _ _ (.ask m requestId r) from h))
  · obtain ⟨options, _, hgrid⟩ := h
    exact absurd hk (Grant.grid_ask hgrid)
  · obtain h | h := h
    · exact absurd hk (Grant.again_ask h)
    · cases h

theorem Call.grant_ask {c : Call} {m : Nat} {requestId : RequestId} {r : OutstandingRequest}
    {key : String} (h : c.grant e t (.ask m requestId r)) (hk : r.windowKey? = some key) :
    ∃ p f o, c = .requestNextPiece p f (some o) ∧
      o.windowKey.getD (Engine.defaultWindowKey f p o.controllerId) = key := by
  cases c with
  | requestNextPiece p f options =>
    obtain ⟨o, rfl, hkey⟩ := Grant.request_ask (show Grant.request t p f options (.ask m requestId r) from h) hk
    exact ⟨p, f, o, rfl, hkey⟩
  | requestNextGridPiece f options =>
    exact absurd hk (Grant.grid_ask (show Grant.grid e t f options (.ask m requestId r) from h))
  | requestGridPieceWindow f options total perPeer =>
    exact absurd hk (Grant.grid_ask (show Grant.grid e t f _ (.ask m requestId r) from h))
  | resumeFile f =>
    obtain ⟨manifest, _, h | h⟩ := h
    · exact (show False from h).elim
    · cases h
  | cancelCompetingGridRequests f i keep =>
    obtain h | ⟨x, h, _⟩ := h
    · exact (show False from h).elim
    · cases h
  | expireDirectRequests now =>
    obtain ⟨p, _, h⟩ := h
    exact (show False from h).elim
  | flushDirectLifecycle =>
    obtain ⟨p, _, h⟩ | ⟨windows, h⟩ := h
    · exact (show False from h).elim
    · cases h
  | dispose =>
    obtain ((⟨p, _, h⟩ | h) | ⟨windows, h⟩) | h := h
    · exact (show False from h).elim
    · exact (show False from h).elim
    · cases h
    · cases h
  | _ =>
    first
    | exact (show False from h).elim
    | simp [Call.grant, Grant.only] at h

theorem Frame.worksFor_iff {frame : Frame} {ref : Nat} : frame.worksFor ref ↔
    (∃ track, frame = .windowJob ref track) ∨
    ∃ key p f options scheduled, frame = .fillWindow ref key p f options scheduled := by
  constructor
  · intro h
    cases frame with
    | windowJob r track => exact .inl ⟨track, by rw [show r = ref from h]⟩
    | fillWindow r key p f options scheduled =>
      exact .inr ⟨key, p, f, options, scheduled, by rw [show r = ref from h]⟩
    | _ => exact h.elim
  · rintro (⟨track, rfl⟩ | ⟨key, p, f, options, scheduled, rfl⟩)
    · rfl
    · rfl

theorem Grant.not_again_works {p : PeerId} {f : FileId} {options : Option GridScheduleOptions}
    {next : Frame} {ref : Nat} (h : Grant.again e t p f options (.frame next)) :
    ¬ next.worksFor ref := by
  cases options with
  | none =>
    obtain ⟨manager, scheduled, rfl⟩ := h
    exact id
  | some options =>
    obtain ⟨result, rfl⟩ | ⟨result, rfl⟩ := h
    · exact id
    · exact id

/-- A continuation of a window's chain is only left by its own fill loop. -/
theorem Frame.grant_works {frame next : Frame} {outcome : Except Failure Value} {ref : Nat}
    (h : frame.grant e t outcome (.frame next)) (hw : next.worksFor ref) :
    ∃ key p f options scheduled more, frame = .fillWindow ref key p f options scheduled ∧
      next = .fillWindow ref key p f options more := by
  obtain ⟨track, rfl⟩ | ⟨key, p, f, options, scheduled, rfl⟩ := Frame.worksFor_iff.1 hw
  all_goals
    unfold Frame.grant at h
    split at h
    all_goals first
      | exact (show False from h).elim
      | (simp [Grant.only, Grant.filling, Grant.joined, Grant.request, Grant.joining,
          Grant.creating, Grant.gridLoop, Grant.grid, Grant.commit, Grant.corrupt, Grant.accept,
          Grant.retire, Grant.lose, Grant.announce, Grant.assembled, Grant.receive,
          Frame.restores] at h; done)
      | exact absurd hw (Grant.not_again_works (h.resolve_right (by simp [Grant.only])))
      | skip
  rename_i window windowKey q g o more
  obtain h | ⟨_, hframe⟩ := h
  · obtain ⟨_, _, hsent⟩ := h
    cases hsent
  · cases hframe
    exact ⟨key, p, f, options, more, scheduled, rfl, rfl⟩

theorem Call.not_grant_works {c : Call} {next : Frame} {ref : Nat}
    (h : c.grant e t (.frame next)) : ¬ next.worksFor ref := by
  intro hw
  obtain ⟨track, rfl⟩ | ⟨key, p, f, options, scheduled, rfl⟩ := Frame.worksFor_iff.1 hw
  all_goals
    cases c
    all_goals first
      | exact (show False from h).elim
      | simp [Call.grant, Grant.only, Grant.request, Grant.gridLoop, Grant.grid, Grant.receive,
          Grant.restoring, Frame.restores, Grant.compete, Grant.expiring, Grant.retire,
          Grant.cancel] at h

theorem Grant.not_message_works {p : PeerId} {m : WireMessage} {next : Frame} {ref : Nat}
    (h : Grant.message e t p m (.frame next)) : ¬ next.worksFor ref := by
  intro hw
  obtain ⟨-, h⟩ | ⟨-, map, -, h⟩ | ⟨-, header, -, h⟩ | ⟨-, requestId, f, i, -, -, -, h⟩ |
    ⟨-, requestId, -, h⟩ | ⟨-, requestId, -, h⟩ := h
  · cases h
  · exact (show False from h).elim
  · obtain ⟨-, -, ⟨-, h⟩ | ⟨previous, -, -, outstanding, finalized, rfl⟩⟩ := h
    · cases h
    · exact hw
  · exact (show False from h).elim
  · cases h
  · obtain ⟨q, -, -, h | h⟩ := h
    · exact (show False from h).elim
    · exact Grant.not_again_works h hw

theorem Frame.InChain.eq {frame : Frame} {ref ref' : Nat} (h : frame.InChain ref)
    (hw : frame.worksFor ref') : ref = ref' := by
  cases frame with
  | windowJob => exact (show _ = ref from h).symm.trans hw
  | fillWindow => exact (show _ = ref from h).symm.trans hw
  | _ => exact hw.elim

/-- A continuation of a window's chain leaves only such. -/
theorem Frame.InChain.grant {frame next : Frame} {outcome : Except Failure Value} {ref : Nat}
    (hc : frame.InChain ref) (h : frame.grant e t outcome (.frame next)) : next.InChain ref := by
  cases frame with
  | requestSent manager requestId scheduled =>
    cases outcome with
    | error err => exact (show False from h).elim
    | ok v =>
      cases h
      trivial
  | requestPersisted manager requestId scheduled =>
    cases outcome with
    | error err => exact (show False from h).elim
    | ok v => exact (show False from h).elim
  | fillWindow r key p f options scheduled =>
    obtain ⟨manager, s, rfl⟩ | ⟨s, h⟩ := h
    · trivial
    · cases h
      exact hc
  | windowJob r track => exact (show False from h).elim
  | _ => exact hc.elim

theorem Grant.windowJob_inChain {ref : Nat} {job : WindowJob} {next : Frame}
    (h : Grant.windowJob t ref job (.frame next)) : next.InChain ref := by
  cases job with
  | fill p f key options =>
    obtain ⟨manager, scheduled, rfl⟩ | h := h
    · trivial
    · cases h
      rfl
  | retry requestId request direct =>
    obtain ⟨manager, scheduled, rfl⟩ := h
    trivial
  | expire requestId => exact (show False from h).elim

theorem Grant.windowJob_fill {window ref : Nat} {job : WindowJob} {key : String} {p : PeerId}
    {f : FileId} {options : DirectRequestOptions} {scheduled : List ScheduledPiece}
    (h : Grant.windowJob t window job (.frame (.fillWindow ref key p f options scheduled))) :
    job.key? = some key := by
  cases job with
  | fill p f windowKey options =>
    obtain ⟨manager, s, h⟩ | h := h
    · cases h
    · cases h
      rfl
  | retry requestId request direct =>
    obtain ⟨manager, s, h⟩ := h
    cases h
  | expire requestId => exact (show False from h).elim

end

namespace World

variable {σ : Type} [StorageAdapter σ] {cfg : Config} {w : World σ} {t : Turn} {a : Action}

omit [StorageAdapter σ] in
/-- Code of a window's chain is only left by a task of that window. -/
theorem grant_works {next : Frame} {ref : Nat} (h : w.grant (t, a) (.frame next))
    (hw : next.worksFor ref) :
    a = .window ref ∨ ∃ i pending below key p f options scheduled more, a = .resume i ∧
      w.tasks[i]? = some ⟨pending, .fillWindow ref key p f options scheduled :: below⟩ ∧
      next = .fillWindow ref key p f options more := by
  cases a with
  | call c => exact absurd hw (Call.not_grant_works h)
  | message p message =>
    obtain h | ⟨m, -, h⟩ := h
    · cases h
      exact hw.elim
    · exact absurd hw (Grant.not_message_works h)
  | binary p data =>
    obtain h | ⟨header, -, rfl | ⟨-, h | h⟩⟩ := h
    · cases h
      exact hw.elim
    · exact hw.elim
    · cases h
      exact hw.elim
    · obtain ⟨outstanding, finalized, rfl⟩ := h
      exact hw.elim
  | resume i =>
    obtain ⟨pending, frame, below, outcome, hi, -, h⟩ := h
    obtain ⟨key, p, f, options, scheduled, more, rfl, rfl⟩ := Frame.grant_works h hw
    exact .inr ⟨i, pending, below, key, p, f, options, scheduled, more, rfl, hi, rfl⟩
  | window other =>
    obtain ⟨track, h⟩ | ⟨window, job, rest, -, -, -, h⟩ := h
    · cases h
      exact .inl (by rw [show other = ref from hw])
    · exact .inl (by rw [(Grant.windowJob_inChain h).eq hw])
  | upload p =>
    cases next with
    | windowJob => exact (show False from h).elim
    | fillWindow => exact (show False from h).elim
    | _ => exact hw.elim
  | timer k =>
    obtain ⟨requestId, windowKey, -, h⟩ := h
    exact (show False from h).elim

omit [StorageAdapter σ] in
/-- Who may record a request under a window key. -/
theorem grant_ask {m : Nat} {requestId : RequestId} {r : OutstandingRequest} {key : String}
    (h : w.grant (t, a) (.ask m requestId r)) (hk : r.windowKey? = some key) :
    (∃ p f o, a = .call (.requestNextPiece p f (some o)) ∧
      o.windowKey.getD (Engine.defaultWindowKey f p o.controllerId) = key) ∨
    (∃ ref job, a = .window ref ∧ w.engine.Starts ref job ∧ job.key? = some key) ∨
    ∃ i ref pending below p f options scheduled, a = .resume i ∧
      w.tasks[i]? = some ⟨pending, .fillWindow ref key p f options scheduled :: below⟩ := by
  cases a with
  | call c =>
    obtain ⟨p, f, o, rfl, hkey⟩ := Call.grant_ask h hk
    exact .inl ⟨p, f, o, rfl, hkey⟩
  | message p message =>
    obtain h | ⟨x, -, h⟩ := h
    · cases h
    · obtain ⟨-, h⟩ | ⟨-, map, -, h⟩ | ⟨-, header, -, h⟩ | ⟨-, x, f, i, -, -, -, h⟩ |
        ⟨-, x, -, h⟩ | ⟨-, x, -, h⟩ := h
      · cases h
      · exact (show False from h).elim
      · obtain ⟨-, -, ⟨-, h⟩ | ⟨previous, -, -, h⟩⟩ := h
        · cases h
        · exact (show False from h).elim
      · exact (show False from h).elim
      · cases h
      · obtain ⟨q, -, -, h | h⟩ := h
        · exact (show False from h).elim
        · exact absurd hk (Grant.again_ask h)
  | binary p data =>
    obtain h | ⟨header, -, -, h⟩ := h
    · cases h
    · exact (show False from h).elim
  | resume i =>
    obtain ⟨pending, frame, below, outcome, hi, -, h⟩ := h
    obtain ⟨ref, p, f, options, scheduled, rfl⟩ := Frame.grant_ask h hk
    exact .inr (.inr ⟨i, ref, pending, below, p, f, options, scheduled, rfl, hi⟩)
  | window ref =>
    obtain ⟨track, h⟩ | ⟨window, job, rest, hw, hq, hd, h⟩ := h
    · cases h
    · refine .inr (.inl ⟨ref, job, rfl, ⟨window, rest, hw, hq, hd⟩, ?_⟩)
      cases job with
      | fill p f windowKey options =>
        obtain h | h := h
        · obtain ⟨o, ho, hkey⟩ := Grant.request_ask h hk
          cases ho
          exact congrArg some hkey
        · cases h
      | retry x request direct =>
        obtain ⟨o, ho, hkey⟩ := Grant.request_ask
          (show Grant.request t _ _ _ (.ask m requestId r) from h) hk
        cases ho
        exact congrArg some hkey
      | expire x => exact (show False from h).elim
  | upload p => exact (show False from h).elim
  | timer k =>
    obtain ⟨x, windowKey, -, h⟩ := h
    exact (show False from h).elim

/-- In the tasks that run a window's chain nothing else stands. -/
def Chained (w : World σ) : Prop :=
  ∀ task ∈ w.tasks, ∀ ref, (∃ frame ∈ task.stack, frame.worksFor ref) →
    ∀ frame ∈ task.stack, frame.InChain ref

omit [StorageAdapter σ] in
theorem chained_new (storage : σ) (transport : Bool) : (World.new storage transport).Chained := by
  rintro task ⟨⟩

theorem Stepped.chained {w' : World σ} (hs : Stepped cfg w t a w') (h : w.Chained) :
    w'.Chained := by
  rintro task htask ref ⟨frame, hframe, hworks⟩ other hother
  cases hs with
  | spawn _ hr result hd =>
    obtain hold | hnew := List.mem_append.1 htask
    · exact h task hold ref ⟨frame, hframe, hworks⟩ other hother
    · obtain rfl := List.mem_singleton.1 hnew
      have hgranted : ∀ fr ∈ (result.2.task []).stack, w.grant (t, a) (.frame fr) := by
        intro fr hfr
        exact hd.frames fr ((mem_task_stack.1 hfr).resolve_right (by simp))
      obtain rfl | ⟨i, pending, below, key, p, f, options, scheduled, more, ha, hi, hfr⟩ :=
        grant_works (hgranted frame hframe) hworks
      · obtain ⟨track, hlabel⟩ | ⟨window, job, rest, -, -, -, hjob⟩ := hgranted other hother
        · cases hlabel
          rfl
        · exact Grant.windowJob_inChain hjob
      · exact absurd ha (hr i)
  | resume i pending top below outcome result hi ho hr hd =>
    have hmem : (⟨pending, top :: below⟩ : Task) ∈ w.tasks := List.mem_of_getElem? hi
    obtain hold | rfl := List.mem_or_eq_of_mem_set htask
    · exact h task hold ref ⟨frame, hframe, hworks⟩ other hother
    · have hchain : ∀ fr ∈ top :: below, fr.InChain ref := by
        obtain hnext | hbelow := mem_task_stack.1 hframe
        · obtain ⟨key, p, f, options, scheduled, more, rfl, rfl⟩ :=
            Frame.grant_works (hd.frames frame hnext) hworks
          exact h _ hmem ref ⟨_, List.mem_cons_self, hworks⟩
        · exact h _ hmem ref ⟨frame, List.mem_cons_of_mem _ hbelow, hworks⟩
      obtain hnext | hbelow := mem_task_stack.1 hother
      · exact (hchain top List.mem_cons_self).grant (hd.frames other hnext)
      · exact hchain other (List.mem_cons_of_mem _ hbelow)
  | alone _ e fired hc => exact h task htask ref ⟨frame, hframe, hworks⟩ other hother

end World

/-! ### A cancelled window -/

/-- Since the cancel, at which the heap had `size` windows: the window is disabled, it
is the only old one that stands under the key, and the other old ones have nothing
left to do for the key. -/
structure Engine.Silenced {σ : Type} (key : String) (ref size : Nat) (e : Engine σ) : Prop where
  lt : ref < size
  size_le : size ≤ e.windowHeap.length
  disabled : ∀ window, e.windowHeap[ref]? = some window → window.disabled = true
  current : ∀ other, e.directWindows.get? key = some other → other = ref ∨ size ≤ other
  idle : ∀ other window, e.windowHeap[other]? = some window → other < size → other ≠ ref →
    ∀ job ∈ window.queue, job.key? ≠ some key

section

variable {σ : Type} [StorageAdapter σ] {t : Turn} {G : Grant} {e e' : Engine σ}
variable {key : String} {ref size : Nat}

/-- Whatever is granted, a cancelled window is not revived. -/
theorem Change.silenced (hc : Change t G e e') (h : e.Silenced key ref size) :
    e'.Silenced key ref size := by
  have hput : ∀ (r : Nat) (w w' : DirectWindow), e.windowHeap[r]? = some w →
      (w.disabled = true → w'.disabled = true) →
      (r < size → r ≠ ref → ∀ job ∈ w'.queue, job.key? ≠ some key) →
      (e.putWindow r w').Silenced key ref size := by
    intro r w w' hw hdis hjobs
    have hlt : r < e.windowHeap.length := (List.getElem?_eq_some_iff.1 hw).1
    refine ⟨h.lt, by simpa [Engine.putWindow] using h.size_le, ?_, h.current, ?_⟩
    · intro window hwindow
      simp only [Engine.putWindow, List.getElem?_set] at hwindow
      split at hwindow
      · rename_i heq
        subst heq
        simp only [Option.some.injEq] at hwindow
        subst hwindow
        exact hdis (h.disabled w hw)
      · exact h.disabled window hwindow
    · intro other window hwindow hsize hne
      simp only [Engine.putWindow, List.getElem?_set] at hwindow
      split at hwindow
      · rename_i heq
        subst heq
        simp only [Option.some.injEq] at hwindow
        subst hwindow
        exact hjobs hsize hne
      · exact h.idle other window hwindow hsize hne
  cases hc with
  | newWindow k w hq =>
    refine ⟨h.lt, ?_, ?_, ?_, ?_⟩
    · simp only [Engine.newWindow, List.length_append]
      have := h.size_le
      omega
    · intro window hwindow
      simp only [Engine.newWindow] at hwindow
      rw [List.getElem?_append_left (h.lt.trans_le h.size_le)] at hwindow
      exact h.disabled window hwindow
    · intro other hother
      simp only [Engine.newWindow, OrderedMap.get?_set] at hother
      split at hother
      · cases hother
        exact .inr h.size_le
      · exact h.current other hother
    · intro other window hwindow hsize hne
      simp only [Engine.newWindow] at hwindow
      rw [List.getElem?_append_left (hsize.trans_le h.size_le)] at hwindow
      exact h.idle other window hwindow hsize hne
  | window r w w' hw hd hq =>
    refine hput r w w' hw hd fun hsize hne job hjob => ?_
    exact h.idle r w hw hsize hne job (hq.subset hjob)
  | enqueue k r w job hw hd hj =>
    obtain ⟨hget, hheap⟩ := Engine.window?_spec hw
    refine hput r w _ hheap id fun hsize hne job' hjob' => ?_
    obtain hold | rfl := List.mem_append.1 hjob' |>.imp_right List.mem_singleton.1
    · exact h.idle r w hheap hsize hne job' hold
    · intro hkey
      obtain rfl := hj key hkey
      obtain href | hnew := h.current r hget
      · exact hne href
      · omega
  | prune windows hw => exact ⟨h.lt, h.size_le, h.disabled, fun o ho => h.current o (hw _ _ ho), h.idle⟩
  | register m hg =>
    simp only [Engine.registerManifest]
    split <;> exact ⟨h.lt, h.size_le, h.disabled, h.current, h.idle⟩
  | dispose hg => exact ⟨h.lt, h.size_le, h.disabled, by rintro o ⟨⟩, h.idle⟩
  | _ => exact ⟨h.lt, h.size_le, h.disabled, h.current, h.idle⟩

end

/-- Nothing under the key runs or waits to run but in windows made since the cancel. -/
structure World.Silenced {σ : Type} (key : String) (ref size : Nat) (w : World σ) : Prop where
  engine : w.engine.Silenced key ref size
  chained : w.Chained
  fills : ∀ r k p f options scheduled, w.Holds (.fillWindow r k p f options scheduled) →
    r ≠ ref ∧ (k = key → size ≤ r)

namespace World

variable {σ : Type} {cfg : Config} {w w' : World σ} {t : Turn} {a : Action}
variable {key : String} {ref size : Nat}

/-- A task that starts for the key starts in a new window, and none in the old one. -/
theorem Silenced.starts (h : w.Silenced key ref size) {r : Nat} {job : WindowJob}
    (hs : w.engine.Starts r job) : r ≠ ref ∧ (job.key? = some key → size ≤ r) := by
  obtain ⟨window, rest, hw, hq, hd⟩ := hs
  have hne : r ≠ ref := by
    rintro rfl
    rw [h.engine.disabled window hw] at hd
    cases hd
  refine ⟨hne, fun hkey => ?_⟩
  by_contra hlt
  refine h.engine.idle r window hw (not_le.1 hlt) hne job ?_ hkey
  rw [hq]
  exact List.mem_cons_self

variable [StorageAdapter σ]

theorem Silenced.step (hs : Stepped cfg w t a w') (h : w.Silenced key ref size) :
    w'.Silenced key ref size := by
  refine ⟨hs.changes.keeps (fun _ _ hc => hc.silenced) h.engine, hs.chained h.chained, ?_⟩
  intro r k p f options scheduled hholds
  obtain hold | hnew := hs.frames hholds
  · exact h.fills r k p f options scheduled hold
  · obtain rfl | ⟨i, pending, below, key', p', f', options', scheduled', more, rfl, hi, hfr⟩ :=
      grant_works hnew (show Frame.worksFor r (.fillWindow r k p f options scheduled) from rfl)
    · obtain ⟨track, hlabel⟩ | ⟨window, job, rest, hw, hq, hd, hjob⟩ := hnew
      · cases hlabel
      · obtain ⟨hne, hsize⟩ := h.starts ⟨window, rest, hw, hq, hd⟩
        exact ⟨hne, fun hkey => hsize ((Grant.windowJob_fill hjob).trans (congrArg some hkey))⟩
    · cases hfr
      exact h.fills r k p f options scheduled' ⟨_, List.mem_of_getElem? hi, List.mem_cons_self⟩

/-- Under the key a step asks in the name of its caller, or in a new window. -/
theorem Silenced.asks (hs : Stepped cfg w t a w') (h : w.Silenced key ref size)
    {requestId : RequestId} {r : OutstandingRequest}
    (hr : w'.engine.outstandingRequests.get? requestId = some r) (hk : r.windowKey? = some key) :
    w.engine.outstandingRequests.get? requestId = some r ∨
    (∃ p f o, a = .call (.requestNextPiece p f (some o)) ∧
      o.windowKey.getD (Engine.defaultWindowKey f p o.controllerId) = key) ∨
    ∃ newer, size ≤ newer ∧ w.Works a newer := by
  obtain hold | ⟨m, hg⟩ := hs.changes.entry hr
  · exact .inl hold
  · refine .inr ?_
    obtain hcall | ⟨newer, job, rfl, hstarts, hjob⟩ |
      ⟨i, newer, pending, below, p, f, options, scheduled, rfl, hi⟩ := grant_ask hg hk
    · exact .inl hcall
    · exact .inr ⟨newer, (h.starts hstarts).2 hjob, .inl rfl⟩
    · refine .inr ⟨newer, ?_, .inr ⟨i, _, _, rfl, hi, List.mem_cons_self, rfl⟩⟩
      exact (h.fills _ _ _ _ _ _ ⟨_, List.mem_of_getElem? hi, List.mem_cons_self⟩).2 rfl

/-- Code of the cancelled window sends no request. -/
theorem Silenced.sends (hs : Stepped cfg w t a w') (h : w.Silenced key ref size)
    (hworks : w.Works a ref) :
    ∀ x ∈ w'.engine.log.drop w.engine.log.length, ¬ x.Requests := by
  rintro x hx ⟨p, m, failure, rfl⟩
  obtain ⟨l, hl, hspeaks⟩ := hs.changes.log
  rw [hl, List.drop_left] at hx
  obtain ⟨event, hevent⟩ | hg := hspeaks _ hx
  · cases hevent
  · obtain rfl | ⟨i, task, frame, rfl, hi, hframe, hfor⟩ := hworks
    · obtain ⟨track, hlabel⟩ | ⟨window, job, rest, hw, hq, hd, hjob⟩ := hg
      · cases hlabel
      · exact (h.starts ⟨window, rest, hw, hq, hd⟩).1 rfl
    · obtain ⟨pending, top, below, outcome, htop, -, hgrant⟩ := hg
      rw [hi] at htop
      cases htop
      have hchain := h.chained _ (List.mem_of_getElem? hi) ref ⟨frame, hframe, hfor⟩ top
        List.mem_cons_self
      cases top with
      | requestSent manager requestId scheduled =>
        cases outcome with
        | error err => exact (show False from hgrant)
        | ok v => cases hgrant
      | requestPersisted manager requestId scheduled =>
        cases outcome with
        | error err => exact (show False from hgrant)
        | ok v => exact (show False from hgrant)
      | windowJob r track => exact (show False from hgrant)
      | fillWindow r k q f options scheduled =>
        refine (h.fills r k q f options scheduled ⟨_, List.mem_of_getElem? hi, ?_⟩).1 hchain
        exact List.mem_cons_self
      | _ => exact hchain

end World

namespace Engine

variable {σ : Type} {e e1 e2 : Engine σ}

/-- The windows are the same objects under the same keys, with the same tasks, and a
disabled one stays disabled. -/
structure SameQueues (e e1 : Engine σ) : Prop where
  keys : e1.directWindows = e.directWindows
  size : e1.windowHeap.length = e.windowHeap.length
  heap : ∀ (r : Nat) (w1 : DirectWindow), e1.windowHeap[r]? = some w1 → ∃ w,
    e.windowHeap[r]? = some w ∧ w1.queue = w.queue ∧ (w.disabled = true → w1.disabled = true)

theorem SameQueues.refl (e : Engine σ) : e.SameQueues e :=
  ⟨rfl, rfl, fun _ w1 hw => ⟨w1, hw, rfl, id⟩⟩

theorem SameQueues.trans (h : e.SameQueues e1) (h' : e1.SameQueues e2) : e.SameQueues e2 := by
  refine ⟨h'.keys.trans h.keys, h'.size.trans h.size, fun r w2 hw2 => ?_⟩
  obtain ⟨w1, hw1, hq1, hd1⟩ := h'.heap r w2 hw2
  obtain ⟨w, hw, hq, hd⟩ := h.heap r w1 hw1
  exact ⟨w, hw, hq1.trans hq, hd1 ∘ hd⟩

theorem SameQueues.congr (h : e.SameQueues e1) (hk : e2.directWindows = e1.directWindows)
    (hh : e2.windowHeap = e1.windowHeap) : e.SameQueues e2 :=
  ⟨hk.trans h.keys, hh ▸ h.size, fun r w hw => h.heap r w (hh ▸ hw)⟩

theorem SameQueues.put {r : Nat} {w w' : DirectWindow} (hw : e.windowHeap[r]? = some w)
    (hq : w'.queue = w.queue) (hd : w.disabled = true → w'.disabled = true) :
    e.SameQueues (e.putWindow r w') := by
  refine ⟨rfl, by simp [putWindow], fun other w1 hw1 => ?_⟩
  simp only [putWindow, List.getElem?_set] at hw1
  split at hw1
  · rename_i heq
    subst heq
    split at hw1
    · cases hw1
      exact ⟨w, hw, hq, hd⟩
    · cases hw1
  · exact ⟨w1, hw1, rfl, id⟩

theorem allocateDirectGeneration_spec {generation : Nat}
    (h : e.allocateDirectGeneration = .ok (generation, e1)) :
    e1.directWindows = e.directWindows ∧ e1.windowHeap = e.windowHeap := by
  unfold allocateDirectGeneration at h
  split at h
  · cases h
    exact ⟨rfl, rfl⟩
  · cases h

/-- The first loop of a cancel leaves the tasks of the windows queued. -/
theorem disableWindows_sameQueues (selector : DirectCancelSelector)
    (windows : List (String × Nat)) (e : Engine σ) :
    e.SameQueues (disableWindows selector windows e).1 := by
  induction windows generalizing e with
  | nil => exact .refl e
  | cons entry rest ih =>
    obtain ⟨k, other⟩ := entry
    unfold disableWindows
    split
    · exact ih e
    · rename_i w hw
      split
      · simp only
        have hput : ∀ generation, e.SameQueues
            (e.putWindow other { w with disabled := true, generation := generation }) :=
          fun generation => .put hw rfl fun _ => rfl
        split
        · exact hput w.generation
        · rename_i generation e1 he
          obtain ⟨hkeys, hheap⟩ := allocateDirectGeneration_spec he
          have hnext : e.SameQueues
              (e1.putWindow other { w with disabled := true, generation := generation }) := by
            refine (hput generation).congr hkeys ?_
            simp only [putWindow, hheap, List.set_set]
          exact hnext.trans (ih _)
      · exact ih e

/-- A cancel that comes to its end has disabled the windows it matches. -/
theorem disableWindows_disables {selector : DirectCancelSelector} {windows : List (String × Nat)}
    {key : String} {ref : Nat} (h : disableWindows selector windows e = (e1, .ok ()))
    (hmem : ∀ w, e.windowHeap[ref]? = some w → w.disabled = true ∨
      ((key, ref) ∈ windows ∧ selector.matchesWindow key w = true)) :
    ∀ w, e1.windowHeap[ref]? = some w → w.disabled = true := by
  induction windows generalizing e with
  | nil =>
    cases h
    intro w hw
    exact (hmem w hw).resolve_right (by simp)
  | cons entry rest ih =>
    obtain ⟨k, other⟩ := entry
    unfold disableWindows at h
    split at h
    · rename_i hnone
      refine ih h fun w hw => (hmem w hw).imp_right (And.imp_left fun hin => ?_)
      obtain heq | hrest := List.mem_cons.1 hin
      · cases heq
        rw [hnone] at hw
        cases hw
      · exact hrest
    · rename_i w hw
      split at h
      · simp only at h
        split at h
        · cases h
        · rename_i generation e2 he
          obtain ⟨-, hheap⟩ := allocateDirectGeneration_spec he
          refine ih h fun w' hw' => ?_
          simp only [putWindow, hheap, List.set_set, List.getElem?_set] at hw'
          split at hw'
          · split at hw'
            · cases hw'
              exact .inl rfl
            · cases hw'
          · rename_i hne
            refine (hmem w' hw').imp_right (And.imp_left fun hin => ?_)
            obtain heq | hrest := List.mem_cons.1 hin
            · cases heq
              exact absurd rfl hne
            · exact hrest
      · rename_i hmatch
        refine ih h fun w' hw' => (hmem w' hw').imp_right fun hin => ?_
        obtain ⟨hin, hsel⟩ := hin
        refine ⟨?_, hsel⟩
        obtain heq | hrest := List.mem_cons.1 hin
        · cases heq
          rw [hw] at hw'
          cases hw'
          exact absurd hsel hmatch
        · exact hrest

/-- A window that a cancel matched is silent from then on, unless another window object
still has tasks for its key. -/
theorem silenced_of_cancel [StorageAdapter σ] {cfg : Config} {t : Turn}
    {selector : DirectCancelSelector} {key : String} {ref count : Nat} {window : DirectWindow}
    (hwindow : e.window? key = some (ref, window))
    (hmatch : selector.matchesWindow key window = true)
    (hcancel : e.cancelDirectRequests cfg t selector = (e1, .ok count))
    (hidle : ∀ other w, e.windowHeap[other]? = some w → other ≠ ref →
      ∀ job ∈ w.queue, job.key? ≠ some key) :
    e1.Silenced key ref e.windowHeap.length := by
  obtain ⟨hkey, hheap⟩ := window?_spec hwindow
  unfold cancelDirectRequests at hcancel
  split at hcancel
  · cases hcancel
  · rename_i e2 he2
    have hsame : e.SameQueues e2 := by
      have h := disableWindows_sameQueues selector e.directWindows.entries e
      rwa [he2] at h
    have hmem : ∀ w, e.windowHeap[ref]? = some w → w.disabled = true ∨
        ((key, ref) ∈ e.directWindows.entries ∧ selector.matchesWindow key w = true) := by
      intro w hw
      rw [hheap] at hw
      cases hw
      exact .inr ⟨OrderedMap.mem_entries_iff.2 hkey, hmatch⟩
    have hdisabled := disableWindows_disables he2 hmem
    have hsilenced : e2.Silenced key ref e.windowHeap.length := by
      refine ⟨(List.getElem?_eq_some_iff.1 hheap).1, hsame.size.ge, hdisabled, ?_, ?_⟩
      · intro other hother
        rw [hsame.keys, hkey] at hother
        cases hother
        exact .inl rfl
      · intro other w2 hw2 _ hne
        obtain ⟨w, hw, hq, -⟩ := hsame.heap other w2 hw2
        rw [hq]
        exact hidle other w hw hne
    cases hcancel
    have hchanges : Changes t (fun _ => True) e2
        ((cancelRequests cfg t selector e2.outstandingRequests.entries 0 e2).1.pruneDirectLifecycleMetadata
          cfg none) :=
      (changes_cancelRequests selector _ _ (List.Subset.refl _) 0 fun _ _ => trivial).trans
        (changes_prune none)
    exact hchanges.keeps (fun _ _ hc => hc.silenced) hsilenced

end Engine

/-- After a cancel the windows it matched are silent: their own code sends no request, and a
request under the key comes from a caller that names it or from a window made later. -/
theorem cancellation_is_final {σ : Type} [StorageAdapter σ] (cfg : Config) (storage : σ)
    (transport : Bool) (w w' : World σ) (t : Turn) (selector : DirectCancelSelector) (count : Nat)
    (e1 : Engine σ) (key : String) (ref : Nat) (window : DirectWindow) (x : Turn × Action)
    (hreach : Run (World.step cfg) (fun _ _ => True) (World.new storage transport) w)
    (hwindow : w.engine.window? key = some (ref, window))
    (hmatch : selector.matchesWindow key window = true)
    (hcancel : w.engine.cancelDirectRequests cfg t selector = (e1, .ok count))
    (hquiet : w.Quiet key ref)
    (hrun : Run (World.step cfg) (fun _ _ => True)
      (w.step cfg (t, .call (.cancelDirectRequests selector))) w') :
    (w'.Works x.2 ref → ∀ sent ∈ (w'.step cfg x).engine.log.drop w'.engine.log.length,
      ¬ sent.Requests) ∧
    ∀ requestId r, (w'.step cfg x).engine.outstandingRequests.get? requestId = some r →
      r.windowKey? = some key → w'.engine.outstandingRequests.get? requestId = some r ∨
      (∃ p f o, x.2 = .call (.requestNextPiece p f (some o)) ∧
        o.windowKey.getD (Engine.defaultWindowKey f p o.controllerId) = key) ∨
      ∃ newer, w.engine.windowHeap.length ≤ newer ∧ w'.Works x.2 newer := by
  have hchained : w.Chained := by
    refine hreach.invariant (P := World.Chained) ?_ (World.chained_new storage transport)
    exact fun w1 y h1 _ => (World.step_spec cfg w1 y.1 y.2).chained h1
  have hstart : (w.step cfg (t, .call (.cancelDirectRequests selector))).Silenced key ref
      w.engine.windowHeap.length := by
    have hengine : (w.step cfg (t, .call (.cancelDirectRequests selector))).engine = e1 := by
      simp only [World.step, World.spawn, Engine.call, hcancel, Engine.settled]
    have hstep := World.step_spec cfg w t (.call (.cancelDirectRequests selector))
    refine ⟨?_, hstep.chained hchained, fun r k p f options scheduled hholds => ?_⟩
    · rw [hengine]
      exact Engine.silenced_of_cancel hwindow hmatch hcancel hquiet.2
    · have hold : w.Holds (.fillWindow r k p f options scheduled) :=
        (hstep.frames hholds).resolve_right id
      have hnot := hquiet.1 _ hold
      exact ⟨fun he => hnot (.inl he), fun he => absurd (.inr he) hnot⟩
  have hsilent : w'.Silenced key ref w.engine.windowHeap.length := by
    refine hrun.invariant (P := World.Silenced key ref _) ?_ hstart
    exact fun w1 y h1 _ => h1.step (World.step_spec cfg w1 y.1 y.2)
  have hstep := World.step_spec cfg w' x.1 x.2
  exact ⟨hsilent.sends hstep, fun requestId r hr hk => hsilent.asks hstep hr hk⟩

namespace Sample

def windowOptions : DirectRequestOptions := ⟨none, none, some "k", 0⟩

/-- A window of one request at a time waits in its chain. -/
def windowed : List (Turn × Action) :=
  [(turn, .call (.joinSession "s" [pair])), (turn, .resume 0), (turn, .resume 0),
    (turn, .call (.requestPieceWindow "o" "f" windowOptions none))]

def everything : DirectCancelSelector := ⟨none, none, none, none, none⟩

end Sample

/-- A window that is cancelled before its task starts sends nothing. -/
theorem cancellation_is_final_sample :
    ((steps (World.step Sample.config) Sample.start Sample.windowed).step Sample.config
      (Sample.turn, .call (.cancelDirectRequests Sample.everything))).engine.windowHeap.length = 1 ∧
    ∀ sent ∈ (((steps (World.step Sample.config) Sample.start Sample.windowed).step Sample.config
        (Sample.turn, .call (.cancelDirectRequests Sample.everything))).step Sample.config
        (Sample.turn, .window 0)).engine.log.drop
      ((steps (World.step Sample.config) Sample.start Sample.windowed).step Sample.config
        (Sample.turn, .call (.cancelDirectRequests Sample.everything))).engine.log.length,
      ¬ sent.Requests := by
  refine ⟨by decide +kernel, (cancellation_is_final Sample.config .empty true
    (steps (World.step Sample.config) Sample.start Sample.windowed) _ Sample.turn
    Sample.everything 0 _ "k" 0 _ (Sample.turn, .window 0) (run_steps Sample.start _) rfl rfl rfl
    ⟨?_, ?_⟩ (.refl _)).1 (.inl rfl)⟩
  · rintro frame ⟨task, htask, hframe⟩
    have htasks : (steps (World.step Sample.config) Sample.start Sample.windowed).tasks =
      [⟨_, [.joinPersisted _ _]⟩, ⟨_, []⟩] := rfl
    rw [htasks] at htask
    simp only [List.mem_cons, List.not_mem_nil, or_false] at htask
    obtain rfl | rfl := htask
    · obtain rfl := List.mem_singleton.1 hframe
      exact id
    · cases hframe
  · intro other window hother hne
    have hsize : (steps (World.step Sample.config) Sample.start
        Sample.windowed).engine.windowHeap.length = 1 := by decide +kernel
    have hlt := (List.getElem?_eq_some_iff.1 hother).1
    omega

/-- The fill loop of a window that is cancelled while a request is being sent asks for
the next piece, under the key of the cancelled window. -/
theorem cancelled_fill_loop_asks :
    ∃ w w' count e1 window, Run (World.step Sample.config) (fun _ _ => True) Sample.start w ∧
      w.engine.window? "k" = some (0, window) ∧
      Sample.everything.matchesWindow "k" window = true ∧
      w.engine.cancelDirectRequests Sample.config Sample.turn Sample.everything =
        (e1, .ok count) ∧
      Run (World.step Sample.config) (fun _ _ => True) (w.step Sample.config
        (Sample.turn, .call (.cancelDirectRequests Sample.everything))) w' ∧
      w'.Works (.resume 2) 0 ∧
      (∃ sent ∈ (w'.step Sample.config (Sample.turn, .resume 2)).engine.log.drop
        w'.engine.log.length, sent.Requests) ∧
      w'.engine.countOutstandingRequestsForWindow "k" = 0 ∧
      (w'.step Sample.config (Sample.turn, .resume 2)).engine.countOutstandingRequestsForWindow
        "k" = 1 := by
  refine ⟨_, _, _, _, _,
    run_steps Sample.start (Sample.windowed ++ [(Sample.turn, .window 0)]), rfl, rfl, rfl,
    run_steps _ [(Sample.turn, .resume 2), (Sample.turn, .resume 2)], ?_, ?_, ?_, ?_⟩
  · exact .inr ⟨2, _, _, rfl, rfl, List.mem_cons_self, rfl⟩
  · exact ⟨_, List.mem_cons_self, _, _, _, rfl⟩
  · decide +kernel
  · decide +kernel

end PonsWarp.Core
