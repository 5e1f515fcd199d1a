import PonsWarp.Cli.OffsetCalls

set_option autoImplicit false

/-!
The state file beside an output. Once every call has come to its end it has the pieces that
the adapter has, unless a state was put over one that was read after it.
-/

namespace PonsWarp.Cli

open PonsWarp.Core PonsWarp.Data

namespace OffsetCalls

variable {m : FileManifest} {outputPath path : Path} {v : List Nat} {s : OffsetCalls}

/-- The state of the output with some verified pieces. -/
def stateOf (s : OffsetCalls) (m : FileManifest) (outputPath : Path) (pieces : List Nat) :
    OffsetOutputState :=
  ⟨1, s.fileId, m.size, m.pieceSize, m.pieceCount, outputPath,
    hashPieceLayout s.storage.sha256 m, pieces⟩

def textOf (s : OffsetCalls) (m : FileManifest) (outputPath : Path) (pieces : List Nat) :
    ArrayBuffer :=
  s.storage.offsetState.stringify (s.stateOf m outputPath pieces)

theorem offsetOutputState_eq (s : OffsetCalls) (m : FileManifest) (outputPath : Path)
    (verified : List Nat) :
    offsetOutputState s.storage.sha256 s.fileId ⟨m, outputPath, verified⟩ =
      s.stateOf m outputPath (verified.insertionSort (· ≤ ·)) := rfl

/-- A call that has read the verified pieces. -/
def HasRead : CallState → Prop
  | .awaiting (.writeFile _ _ _) => True
  | .awaiting (.rename _ _) => True
  | .resolved => True
  | _ => False

/-- A call that has changed the file, and has its state still to put in place. -/
def Saving : CallState → Prop
  | .awaiting (.closing _) => True
  | .awaiting .mkdir => True
  | .awaiting (.writeFile _ _ _) => True
  | .awaiting (.rename _ _) => True
  | _ => False

/-- What a call has in hand. -/
def Stage (m : FileManifest) (outputPath path : Path) (s : OffsetCalls) (id : Nat) :
    CallState → Prop
  | .awaiting (.opening target _ _) => target = outputPath
  | .awaiting (.writing target _ _) => target = outputPath
  | .awaiting (.writeFile tmp target state) => target = path ∧ tmp ≠ path ∧ tmp ≠ outputPath ∧
      ∃ pieces, (id, pieces) ∈ s.readings ∧ state = s.stateOf m outputPath pieces
  | .awaiting (.rename tmp target) => target = path ∧ tmp ≠ path ∧ tmp ≠ outputPath ∧
      ∃ pieces, (id, pieces) ∈ s.readings ∧
        s.storage.disk.get? tmp = some (s.textOf m outputPath pieces)
  | _ => True

/-- Some call has still to read the verified pieces as they are now. -/
def Unread (s : OffsetCalls) : Prop := ∃ id : Nat, s.calls[id]? = some (.awaiting .mkdir)

/-- The verified pieces as they are now will be read, or have been read last. -/
def Current (m : FileManifest) (outputPath : Path) (v : List Nat) (s : OffsetCalls) : Prop :=
  ∃ verified, s.storage.offsetOutputs.get? s.fileId = some ⟨m, outputPath, verified⟩ ∧
    (s.Unread ∨ latest v s.readings = verified.insertionSort (· ≤ ·))

/-- The state file will be replaced, or has what was read last of all that was shown. -/
def Kept (m : FileManifest) (outputPath path : Path) (v : List Nat) (s : OffsetCalls) : Prop :=
  (∃ (id : Nat) (call : CallState), s.calls[id]? = some call ∧ Saving call) ∨
    ∃ pieces, s.storage.disk.get? path = some (s.textOf m outputPath pieces) ∧
      Shown s.resolved v s.readings pieces

structure Tracked (m : FileManifest) (outputPath path : Path) (v : List Nat) (s : OffsetCalls) :
    Prop where
  statePath : s.storage.offsetStatePath s.fileId = .ok path
  output : ∃ file, s.storage.disk.get? outputPath = some file
  state : ∃ file, s.storage.disk.get? path = some file
  stage : ∀ (id : Nat) (call : CallState), s.calls[id]? = some call → s.Stage m outputPath path id call
  readers : ∀ r ∈ s.readings, ∃ call, s.calls[r.1]? = some call ∧ HasRead call
  once : (s.readings.map Prod.fst).Nodup
  apart : ∀ (id id' : Nat) (call call' : CallState) (tmp : Path), s.calls[id]? = some call →
    s.calls[id']? = some call' → call.tmp? = some tmp → call'.tmp? = some tmp → id = id'
  current : s.Current m outputPath v
  kept : s.Kept m outputPath path v

theorem setCall_get {id : Nat} {call c : CallState} (h : s.calls[id]? = some c) (j : Nat) :
    (s.calls.set id call)[j]? = if j = id then some call else s.calls[j]? := by
  obtain ⟨hlt, -⟩ := List.getElem?_eq_some_iff.1 h
  rw [List.getElem?_set]
  by_cases hj : id = j
  · rw [if_pos hj, if_pos hlt, if_pos hj.symm]
  · rw [if_neg hj, if_neg (Ne.symm hj)]

theorem resolved_iff {id : Nat} : s.resolved id = true ↔ s.calls[id]? = some .resolved := by
  unfold resolved
  cases hcall : s.calls[id]? with
  | none => simp
  | some call =>
    cases call with
    | awaiting op => simp [CallState.isResolved]
    | resolved => simp [CallState.isResolved]
    | rejected err => simp [CallState.isResolved]

theorem Stage.mono {s' : OffsetCalls} {id : Nat} {call : CallState}
    (hstate : ∀ pieces, s'.stateOf m outputPath pieces = s.stateOf m outputPath pieces)
    (htext : ∀ pieces, s'.textOf m outputPath pieces = s.textOf m outputPath pieces)
    (hreadings : ∀ r ∈ s.readings, r ∈ s'.readings)
    (hdisk : ∀ tmp, call.tmp? = some tmp → s'.storage.disk.get? tmp = s.storage.disk.get? tmp)
    (h : s.Stage m outputPath path id call) : s'.Stage m outputPath path id call := by
  cases call with
  | resolved => trivial
  | rejected err => trivial
  | awaiting op =>
    cases op with
    | opening target piece data => exact h
    | writing target piece data => exact h
    | closing pieceIndex => trivial
    | mkdir => trivial
    | writeFile tmp target state =>
      obtain ⟨htarget, hpath, hout, pieces, hmem, rfl⟩ := h
      exact ⟨htarget, hpath, hout, pieces, hreadings _ hmem, (hstate pieces).symm⟩
    | rename tmp target =>
      obtain ⟨htarget, hpath, hout, pieces, hmem, hget⟩ := h
      refine ⟨htarget, hpath, hout, pieces, hreadings _ hmem, ?_⟩
      rw [hdisk tmp rfl, hget, htext]

namespace Tracked

/-- One call goes on, to `c`. -/
structure Goes (m : FileManifest) (outputPath path : Path) (s s' : OffsetCalls) (id : Nat)
    (op : Awaited) (c : CallState) : Prop where
  before : s.calls[id]? = some (.awaiting op)
  calls : s'.calls = s.calls.set id c
  statePath : s'.storage.offsetStatePath s'.fileId = s.storage.offsetStatePath s.fileId
  sameState : ∀ pieces, s'.stateOf m outputPath pieces = s.stateOf m outputPath pieces
  sameText : ∀ pieces, s'.textOf m outputPath pieces = s.textOf m outputPath pieces
  output : ∀ file, s.storage.disk.get? outputPath = some file →
    ∃ file, s'.storage.disk.get? outputPath = some file
  state : ∀ file, s.storage.disk.get? path = some file →
    ∃ file, s'.storage.disk.get? path = some file
  disk : ∀ (j : Nat) (call : CallState) (tmp : Path), j ≠ id → s.calls[j]? = some call →
    call.tmp? = some tmp → s'.storage.disk.get? tmp = s.storage.disk.get? tmp
  stage : s'.Stage m outputPath path id c
  apart : ∀ (j : Nat) (call : CallState) (tmp : Path), j ≠ id → s.calls[j]? = some call →
    call.tmp? = some tmp → c.tmp? ≠ some tmp

namespace Goes

variable {s' : OffsetCalls} {id : Nat} {op : Awaited} {c : CallState}

theorem get (g : Goes m outputPath path s s' id op c) (j : Nat) :
    s'.calls[j]? = if j = id then some c else s.calls[j]? := by
  rw [g.calls, setCall_get g.before]

theorem get_self (g : Goes m outputPath path s s' id op c) : s'.calls[id]? = some c := by
  rw [g.get, if_pos rfl]

theorem get_of_ne (g : Goes m outputPath path s s' id op c) {j : Nat} (hj : j ≠ id) :
    s'.calls[j]? = s.calls[j]? := by
  rw [g.get, if_neg hj]

theorem resolved_of_ne (g : Goes m outputPath path s s' id op c) {j : Nat} (hj : j ≠ id) :
    s'.resolved j = s.resolved j := by
  unfold resolved
  rw [g.get_of_ne hj]

theorem stages (g : Goes m outputPath path s s' id op c)
    (h : s.Tracked m outputPath path v) (hreadings : ∀ r ∈ s.readings, r ∈ s'.readings)
    (j : Nat) (call : CallState) (hcall : s'.calls[j]? = some call) :
    s'.Stage m outputPath path j call := by
  by_cases hj : j = id
  · subst hj
    rw [g.get_self] at hcall
    cases hcall
    exact g.stage
  · rw [g.get_of_ne hj] at hcall
    exact (h.stage j call hcall).mono g.sameState g.sameText hreadings fun tmp htmp =>
      g.disk j call tmp hj hcall htmp

theorem stillApart (g : Goes m outputPath path s s' id op c) (h : s.Tracked m outputPath path v)
    (j k : Nat) (call call' : CallState) (tmp : Path) (hj : s'.calls[j]? = some call)
    (hk : s'.calls[k]? = some call') (htmp : call.tmp? = some tmp)
    (htmp' : call'.tmp? = some tmp) : j = k := by
  by_cases hjid : j = id
  · by_cases hkid : k = id
    · rw [hjid, hkid]
    · subst hjid
      rw [g.get_self] at hj
      cases hj
      rw [g.get_of_ne hkid] at hk
      exact absurd htmp (g.apart k call' tmp hkid hk htmp')
  · by_cases hkid : k = id
    · subst hkid
      rw [g.get_self] at hk
      cases hk
      rw [g.get_of_ne hjid] at hj
      exact absurd htmp' (g.apart j call tmp hjid hj htmp)
    · rw [g.get_of_ne hjid] at hj
      rw [g.get_of_ne hkid] at hk
      exact h.apart j k call call' tmp hj hk htmp htmp'

/-- A call that goes on without reading. -/
theorem tracked (g : Goes m outputPath path s s' id op c) (h : s.Tracked m outputPath path v)
    (hreadings : s'.readings = s.readings) (hread : HasRead (.awaiting op) → HasRead c)
    (hcurrent : s'.Current m outputPath v) (hkept : s'.Kept m outputPath path v) :
    s'.Tracked m outputPath path v := by
  obtain ⟨file, hfile⟩ := h.output
  obtain ⟨text, htext⟩ := h.state
  refine ⟨g.statePath.trans h.statePath, g.output file hfile, g.state text htext,
    g.stages h fun r hr => hreadings ▸ hr, fun r hr => ?_, hreadings ▸ h.once, g.stillApart h,
    hcurrent, hkept⟩
  rw [hreadings] at hr
  obtain ⟨call, hcall, hcallRead⟩ := h.readers r hr
  by_cases hid : r.1 = id
  · rw [hid, g.before] at hcall
    cases hcall
    exact ⟨c, hid ▸ g.get_self, hread hcallRead⟩
  · exact ⟨call, (g.get_of_ne hid).trans hcall, hcallRead⟩

/-- The verified pieces and what was read of them stay as they are. -/
theorem current (g : Goes m outputPath path s s' id op c) (h : s.Current m outputPath v)
    (hop : op ≠ .mkdir) (houtputs : s'.storage.offsetOutputs = s.storage.offsetOutputs)
    (hfileId : s'.fileId = s.fileId) (hreadings : s'.readings = s.readings) :
    s'.Current m outputPath v := by
  obtain ⟨verified, hget, hcurrent⟩ := h
  refine ⟨verified, by rw [houtputs, hfileId, hget], ?_⟩
  rcases hcurrent with ⟨j, hj⟩ | hlatest
  · refine .inl ⟨j, ?_⟩
    have hne : j ≠ id := by
      rintro rfl
      rw [g.before] at hj
      exact hop (CallState.awaiting.inj (Option.some.inj hj))
    rw [g.get_of_ne hne, hj]
  · exact .inr (hreadings ▸ hlatest)

theorem saving (g : Goes m outputPath path s s' id op c) (hc : Saving c) :
    s'.Kept m outputPath path v := .inl ⟨id, c, g.get_self, hc⟩

end Goes

variable {id : Nat} {uuid : String}

theorem tmp_ne (h : s.Tracked m outputPath path v) {call : CallState} {tmp : Path}
    (hcall : s.calls[id]? = some call) (htmp : call.tmp? = some tmp) :
    tmp ≠ path ∧ tmp ≠ outputPath := by
  have hstage := h.stage id call hcall
  cases call with
  | resolved => cases htmp
  | rejected err => cases htmp
  | awaiting op =>
    cases op with
    | writeFile tmp' target state =>
      cases htmp
      exact ⟨hstage.2.1, hstage.2.2.1⟩
    | rename tmp' target =>
      cases htmp
      exact ⟨hstage.2.1, hstage.2.2.1⟩
    | _ => cases htmp

/-- Only the call itself is another one afterwards. -/
theorem Goes.setCall {op : Awaited} {c : CallState}
    (hid : s.calls[id]? = some (.awaiting op)) (hstage : s.Stage m outputPath path id c)
    (hc : c.tmp? = none) : Goes m outputPath path s (s.setCall id c) id op c := by
  refine ⟨hid, rfl, rfl, fun _ => rfl, fun _ => rfl, fun file hfile => ⟨file, hfile⟩,
    fun file hfile => ⟨file, hfile⟩, fun _ _ _ _ _ _ => rfl, ?_, ?_⟩
  · exact hstage.mono (fun _ => rfl) (fun _ => rfl) (fun _ hr => hr) fun _ _ => rfl
  · intro j call tmp _ _ _
    rw [hc]
    exact Option.some_ne_none tmp ∘ Eq.symm

theorem opening (h : s.Tracked m outputPath path v) {target : Path} {piece : PieceDescriptor}
    {data : ArrayBuffer} (hid : s.calls[id]? = some (.awaiting (.opening target piece data))) :
    (s.proceed id uuid (.opening target piece data)).Tracked m outputPath path v := by
  obtain rfl : target = outputPath := h.stage id _ hid
  obtain ⟨file, hfile⟩ := h.output
  simp only [proceed, hfile]
  have g : Goes m target path s (s.setCall id (.awaiting (.writing target piece data))) id _ _ :=
    .setCall hid rfl rfl
  refine g.tracked h rfl (fun hread => hread.elim)
    (g.current h.current (fun hop => by cases hop) rfl rfl rfl) ?_
  rcases h.kept with ⟨j, call, hcall, hsaving⟩ | ⟨pieces, hget, hshown⟩
  · have hne : j ≠ id := by
      rintro rfl
      rw [hid] at hcall
      cases hcall
      exact hsaving
    exact .inl ⟨j, call, (g.get_of_ne hne).trans hcall, hsaving⟩
  · refine .inr ⟨pieces, hget, hshown.congr fun r _ hr => ?_⟩
    rw [resolved_iff, g.get] at hr
    split at hr
    · cases hr
    · exact resolved_iff.2 hr

theorem writing (h : s.Tracked m outputPath path v) {target : Path} {piece : PieceDescriptor}
    {data : ArrayBuffer} (hid : s.calls[id]? = some (.awaiting (.writing target piece data))) :
    (s.proceed id uuid (.writing target piece data)).Tracked m outputPath path v := by
  obtain rfl : target = outputPath := h.stage id _ hid
  simp only [proceed]
  generalize splice 0 ((s.storage.disk.get? target).getD []) piece.offset data = written
  have g : Goes m target path s ((s.setDisk target written).setCall id
      (.awaiting (.closing piece.index))) id (.writing target piece data)
      (.awaiting (.closing piece.index)) := by
    refine ⟨hid, rfl, rfl, fun _ => rfl, fun _ => rfl,
      fun _ _ => ⟨written, OrderedMap.get?_set_self _ _ _⟩, fun file hfile => ?_, ?_, trivial, ?_⟩
    · simp only [setCall, setDisk, OrderedMap.get?_set]
      split
      · exact ⟨written, rfl⟩
      · exact ⟨file, hfile⟩
    · intro j call tmp _ hcall htmp
      refine OrderedMap.get?_set_of_ne _ _ ?_
      exact (h.tmp_ne hcall htmp).2
    · intro j call tmp _ _ _
      exact Option.some_ne_none tmp ∘ Eq.symm
  exact g.tracked h rfl (fun hread => hread.elim)
    (g.current h.current (fun hop => by cases hop) rfl rfl rfl) (g.saving trivial)

theorem closing (h : s.Tracked m outputPath path v) {pieceIndex : Nat}
    (hid : s.calls[id]? = some (.awaiting (.closing pieceIndex))) :
    (s.proceed id uuid (.closing pieceIndex)).Tracked m outputPath path v := by
  obtain ⟨verified, houtput, -⟩ := h.current
  have hbegin : (s.setVerified ⟨m, outputPath, verified⟩
      (insertNew verified pieceIndex)).beginSave = .awaiting .mkdir := by
    have hpath : (s.setVerified ⟨m, outputPath, verified⟩
        (insertNew verified pieceIndex)).storage.offsetStatePath s.fileId = .ok path := h.statePath
    simp only [beginSave, setVerified, OrderedMap.get?_set_self] at hpath ⊢
    rw [hpath]
  simp only [proceed, houtput]
  rw [hbegin]
  have g : Goes m outputPath path s ((s.setVerified ⟨m, outputPath, verified⟩
      (insertNew verified pieceIndex)).setCall id (.awaiting .mkdir)) id (.closing pieceIndex)
      (.awaiting .mkdir) :=
    ⟨hid, rfl, rfl, fun _ => rfl, fun _ => rfl, fun file hfile => ⟨file, hfile⟩,
      fun file hfile => ⟨file, hfile⟩, fun _ _ _ _ _ _ => rfl, trivial,
      fun _ _ tmp _ _ _ => Option.some_ne_none tmp ∘ Eq.symm⟩
  exact g.tracked h rfl (fun hread => hread.elim)
    ⟨_, OrderedMap.get?_set_self _ _ _, .inl ⟨id, g.get_self⟩⟩ (g.saving trivial)

theorem unused_spec {tmp : Path} (hunused : s.unused tmp = true) :
    s.storage.disk.get? tmp = none ∧
      ∀ (j : Nat) (call : CallState), s.calls[j]? = some call → call.tmp? ≠ some tmp := by
  simp only [unused, Bool.and_eq_true, Bool.not_eq_true', OrderedMap.has_eq_false_iff,
    List.all_eq_true, decide_eq_true_eq] at hunused
  exact ⟨hunused.1, fun j call hcall => hunused.2 call (List.mem_of_getElem? hcall)⟩

/-- The state has the verified pieces as they are now. -/
theorem mkdir (h : s.Tracked m outputPath path v)
    (hid : s.calls[id]? = some (.awaiting .mkdir))
    (hunused : s.unused (tmpPath path s.pid uuid) = true) :
    (s.proceed id uuid .mkdir).Tracked m outputPath path v := by
  obtain ⟨verified, houtput, -⟩ := h.current
  obtain ⟨hnone, hnew⟩ := unused_spec hunused
  obtain ⟨file, hfile⟩ := h.output
  obtain ⟨text, htext⟩ := h.state
  simp only [proceed, readState, houtput, h.statePath, offsetOutputState_eq]
  generalize tmpPath path s.pid uuid = tmp at *
  have hout : tmp ≠ outputPath := by
    rintro rfl
    rw [hfile] at hnone
    cases hnone
  have hpath : tmp ≠ path := by
    rintro rfl
    rw [htext] at hnone
    cases hnone
  have hunread : id ∉ s.readings.map Prod.fst := by
    intro hmem
    obtain ⟨r, hr, hrid⟩ := List.mem_map.1 hmem
    obtain ⟨call, hcall, hread⟩ := h.readers r hr
    rw [hrid, hid] at hcall
    cases hcall
    exact hread
  have g : Goes m outputPath path s { s.setCall id (.awaiting (.writeFile tmp path
      (s.stateOf m outputPath (verified.insertionSort (· ≤ ·))))) with
      readings := s.readings ++ [(id, verified.insertionSort (· ≤ ·))] } id .mkdir
      (.awaiting (.writeFile tmp path
        (s.stateOf m outputPath (verified.insertionSort (· ≤ ·))))) :=
    ⟨hid, rfl, rfl, fun _ => rfl, fun _ => rfl, fun file hfile => ⟨file, hfile⟩,
      fun file hfile => ⟨file, hfile⟩, fun _ _ _ _ _ _ => rfl,
      ⟨rfl, hpath, hout, _, by simp, rfl⟩, fun j call tmp' _ hcall htmp hsame =>
        hnew j call hcall (htmp.trans hsame.symm)⟩
  refine ⟨g.statePath.trans h.statePath, g.output file hfile, g.state text htext,
    g.stages h fun r hr => List.mem_append_left _ hr, fun r hr => ?_, ?_, g.stillApart h,
    ⟨verified, houtput, .inr (latest_concat v s.readings _)⟩, g.saving trivial⟩
  · by_cases hrid : r.1 = id
    · refine ⟨.awaiting (.writeFile tmp path
        (s.stateOf m outputPath (verified.insertionSort (· ≤ ·)))), ?_, trivial⟩
      rw [hrid]
      exact g.get_self
    · rcases List.mem_append.1 hr with hr | hr
      · obtain ⟨call, hcall, hread⟩ := h.readers r hr
        exact ⟨call, (g.get_of_ne hrid).trans hcall, hread⟩
      · exact absurd (congrArg Prod.fst (List.mem_singleton.1 hr)) hrid
  · rw [List.map_append, List.nodup_append]
    refine ⟨h.once, List.nodup_singleton id, fun a ha b hb => ?_⟩
    rw [List.mem_singleton.1 hb]
    rintro rfl
    exact hunread ha

theorem writeFile (h : s.Tracked m outputPath path v) {tmp target : Path}
    {state : OffsetOutputState}
    (hid : s.calls[id]? = some (.awaiting (.writeFile tmp target state))) :
    (s.proceed id uuid (.writeFile tmp target state)).Tracked m outputPath path v := by
  obtain ⟨rfl, hpath, hout, pieces, hread, rfl⟩ := h.stage id _ hid
  have g : Goes m outputPath target s (s.proceed id uuid (.writeFile tmp target
      (s.stateOf m outputPath pieces))) id (.writeFile tmp target (s.stateOf m outputPath pieces))
      (.awaiting (.rename tmp target)) := by
    refine ⟨hid, rfl, rfl, fun _ => rfl, fun _ => rfl, fun file hfile => ⟨file, ?_⟩,
      fun file hfile => ⟨file, ?_⟩, fun j call tmp' hj hcall htmp => ?_,
      ⟨rfl, hpath, hout, pieces, hread, OrderedMap.get?_set_self _ _ _⟩, ?_⟩
    · exact (OrderedMap.get?_set_of_ne _ _ hout.symm).trans hfile
    · exact (OrderedMap.get?_set_of_ne _ _ hpath.symm).trans hfile
    · refine OrderedMap.get?_set_of_ne _ _ ?_
      rintro rfl
      exact hj (h.apart j id call _ tmp' hcall hid htmp rfl)
    · intro j call tmp' hj hcall htmp hsame
      exact hj (h.apart j id call _ tmp' hcall hid htmp hsame)
  exact g.tracked h rfl (fun _ => trivial)
    (g.current h.current (fun hop => by cases hop) rfl rfl rfl) (g.saving trivial)

/-- The state file that a call puts in place is not older than the one it replaces. -/
theorem rename (h : s.Tracked m outputPath path v) {tmp target : Path}
    (hid : s.calls[id]? = some (.awaiting (.rename tmp target)))
    (htimely : overtaken s.resolved id s.readings = false) :
    (s.proceed id uuid (.rename tmp target)).Tracked m outputPath path v := by
  obtain ⟨rfl, hpath, hout, pieces, hread, hget⟩ := h.stage id _ hid
  simp only [proceed, hget]
  have g : Goes m outputPath target s ({ s with storage := { s.storage with
      disk := (s.storage.disk.delete tmp).set target (s.textOf m outputPath pieces) } }.setCall id
        .resolved) id (.rename tmp target) .resolved := by
    refine ⟨hid, rfl, rfl, fun _ => rfl, fun _ => rfl, fun file hfile => ?_,
      fun file hfile => ⟨_, OrderedMap.get?_set_self _ _ _⟩, fun j call tmp' hj hcall htmp => ?_,
      trivial, fun _ _ tmp _ _ _ => Option.some_ne_none tmp ∘ Eq.symm⟩
    · simp only [setCall, OrderedMap.get?_set]
      split
      · exact ⟨_, rfl⟩
      · exact ⟨file, (OrderedMap.get?_delete_of_ne _ hout.symm).trans hfile⟩
    · have hne := (h.tmp_ne hcall htmp).1
      refine (OrderedMap.get?_set_of_ne _ _ hne).trans (OrderedMap.get?_delete_of_ne _ ?_)
      rintro rfl
      exact hj (h.apart j id call _ tmp' hcall hid htmp rfl)
  refine g.tracked h rfl (fun _ => trivial)
    (g.current h.current (fun hop => by cases hop) rfl rfl rfl) (.inr ⟨pieces, ?_, ?_⟩)
  · exact OrderedMap.get?_set_self _ _ _
  · exact Shown.publish hread h.once htimely fun j hj => g.resolved_of_ne hj

theorem complete (h : s.Tracked m outputPath path v)
    (hfresh : s.fresh (.complete id uuid) = true) (htimely : s.timely (.complete id uuid) = true) :
    (s.complete id uuid).Tracked m outputPath path v := by
  unfold OffsetCalls.complete
  split
  · rename_i op hid
    cases op with
    | opening target piece data => exact h.opening hid
    | writing target piece data => exact h.writing hid
    | closing pieceIndex => exact h.closing hid
    | mkdir =>
      simp only [fresh, hid, h.statePath] at hfresh
      exact h.mkdir hid hfresh
    | writeFile tmp target state => exact h.writeFile hid
    | rename tmp target =>
      simp only [timely, hid, Bool.not_eq_true'] at htimely
      exact h.rename hid htimely
  · exact h

theorem call_append {call c : CallState} {j : Nat} (hcall : (s.calls ++ [c])[j]? = some call) :
    s.calls[j]? = some call ∨ (j = s.calls.length ∧ call = c) := by
  rw [List.getElem?_append] at hcall
  split at hcall
  · exact .inl hcall
  · rename_i hle
    rw [List.getElem?_singleton] at hcall
    split at hcall
    · rename_i hzero
      cases hcall
      exact .inr ⟨by omega, rfl⟩
    · cases hcall

theorem append_call {call : CallState} {j : Nat} (hcall : s.calls[j]? = some call)
    (c : CallState) : (s.calls ++ [c])[j]? = some call := by
  obtain ⟨hlt, -⟩ := List.getElem?_eq_some_iff.1 hcall
  rw [List.getElem?_append_left hlt, hcall]

/-- A call is made, and the verified pieces have changed only if it will read them. -/
theorem begin (h : s.Tracked m outputPath path v) {s' : OffsetCalls} {c : CallState}
    (hcalls : s'.calls = s.calls ++ [c]) (hdisk : s'.storage.disk = s.storage.disk)
    (hpath : s'.storage.offsetStatePath s'.fileId = s.storage.offsetStatePath s.fileId)
    (hreadings : s'.readings = s.readings)
    (hstate : ∀ pieces, s'.stateOf m outputPath pieces = s.stateOf m outputPath pieces)
    (htext : ∀ pieces, s'.textOf m outputPath pieces = s.textOf m outputPath pieces)
    (hstage : s'.Stage m outputPath path s.calls.length c) (hc : c.tmp? = none)
    (hcurrent : s'.Current m outputPath v) : s'.Tracked m outputPath path v := by
  refine ⟨hpath.trans h.statePath, hdisk ▸ h.output, hdisk ▸ h.state, fun j call hcall => ?_,
    fun r hr => ?_, hreadings ▸ h.once, fun j k call call' tmp hj hk htmp htmp' => ?_, hcurrent, ?_⟩
  · rw [hcalls] at hcall
    rcases call_append hcall with hold | ⟨rfl, rfl⟩
    · exact (h.stage j call hold).mono hstate htext (fun r hr => hreadings ▸ hr)
        fun tmp _ => by rw [hdisk]
    · exact hstage
  · rw [hreadings] at hr
    obtain ⟨call, hcall, hread⟩ := h.readers r hr
    exact ⟨call, hcalls ▸ append_call hcall c, hread⟩
  · rw [hcalls] at hj hk
    rcases call_append hj with hj | ⟨-, rfl⟩
    · rcases call_append hk with hk | ⟨-, rfl⟩
      · exact h.apart j k call call' tmp hj hk htmp htmp'
      · rw [hc] at htmp'
        cases htmp'
    · rw [hc] at htmp
      cases htmp
  · rcases h.kept with ⟨j, call, hcall, hsaving⟩ | ⟨pieces, hget, hshown⟩
    · exact .inl ⟨j, call, hcalls ▸ append_call hcall c, hsaving⟩
    · refine .inr ⟨pieces, by rw [hdisk, hget, htext], hreadings ▸ hshown.congr fun r hr hres => ?_⟩
      obtain ⟨call, hcall, -⟩ := h.readers r hr
      rw [resolved_iff, hcalls, append_call hcall c] at hres
      exact resolved_iff.2 (hcall.trans hres)

theorem start (h : s.Tracked m outputPath path v) (call : PieceCall) :
    (s.start call).Tracked m outputPath path v := by
  obtain ⟨verified, houtput, hcurrent⟩ := h.current
  cases call with
  | writePiece pieceIndex data =>
    simp only [OffsetCalls.start, houtput]
    refine h.begin rfl rfl rfl rfl (fun _ => rfl) (fun _ => rfl) ?_ ?_ ⟨verified, houtput, ?_⟩
    · split
      · trivial
      · split
        · trivial
        · rfl
    · split
      · rfl
      · split <;> rfl
    · rcases hcurrent with ⟨j, hj⟩ | hlatest
      · exact .inl ⟨j, append_call hj _⟩
      · exact .inr hlatest
  | deletePiece pieceIndex =>
    have hbegin : (s.setVerified ⟨m, outputPath, verified⟩
        (verified.filter (· ≠ pieceIndex))).beginSave = .awaiting .mkdir := by
      have hpath : (s.setVerified ⟨m, outputPath, verified⟩
          (verified.filter (· ≠ pieceIndex))).storage.offsetStatePath s.fileId = .ok path :=
        h.statePath
      simp only [beginSave, setVerified, OrderedMap.get?_set_self] at hpath ⊢
      rw [hpath]
    simp only [OffsetCalls.start, houtput]
    rw [hbegin]
    refine h.begin rfl rfl rfl rfl (fun _ => rfl) (fun _ => rfl) trivial rfl
      ⟨_, OrderedMap.get?_set_self _ _ _, .inl ⟨s.calls.length, ?_⟩⟩
    simp [setVerified]

theorem step (h : s.Tracked m outputPath path v) (l : OffsetMove)
    (hok : s.fresh l = true ∧ s.timely l = true) :
    (s.step l).Tracked m outputPath path v := by
  cases l with
  | start call => exact h.start call
  | complete id uuid => exact h.complete hok.1 hok.2

/-- With no call on its way, the state file has the pieces of the adapter. -/
theorem idle (h : s.Tracked m outputPath path v) (hidle : s.idle = true) :
    ∃ verified, s.storage.offsetOutputs.get? s.fileId = some ⟨m, outputPath, verified⟩ ∧
      s.storage.disk.get? path =
        some (s.textOf m outputPath (verified.insertionSort (· ≤ ·))) := by
  have hdone : ∀ (j : Nat) (op : Awaited), s.calls[j]? ≠ some (.awaiting op) := by
    intro j op hj
    have hawaits := List.all_eq_true.1 hidle _ (List.mem_of_getElem? hj)
    cases hawaits
  have hread : ∀ r ∈ s.readings, s.resolved r.1 = true := by
    intro r hr
    obtain ⟨call, hcall, hcallRead⟩ := h.readers r hr
    cases call with
    | awaiting op => exact absurd hcall (hdone r.1 op)
    | resolved => exact resolved_iff.2 hcall
    | rejected err => exact hcallRead.elim
  obtain ⟨verified, houtput, hcurrent⟩ := h.current
  refine ⟨verified, houtput, ?_⟩
  rcases hcurrent with ⟨j, hj⟩ | hlatest
  · exact absurd hj (hdone j .mkdir)
  · rcases h.kept with ⟨j, call, hcall, hsaving⟩ | ⟨pieces, hget, hshown⟩
    · cases call with
      | awaiting op => exact absurd hcall (hdone j op)
      | resolved => exact hsaving.elim
      | rejected err => exact hsaving.elim
    · rw [hget, hshown.eq_latest hread, hlatest]

/-- The output as `prepareOutputFile` leaves it. -/
theorem prepared {storage : NodeFileStorageAdapter} (pid : Nat)
    (hok : (storage.prepareOutputFile m outputPath).1 = .ok ()) :
    ∃ path v, (quiet m.fileId pid (storage.prepareOutputFile m outputPath).2).Tracked
      m outputPath path v := by
  have hpath : ∃ path, storage.offsetStatePath m.fileId = .ok path := by
    cases hpath : storage.offsetStatePath m.fileId with
    | ok path => exact ⟨path, rfl⟩
    | error err =>
      have hpath' : NodeFileStorageAdapter.offsetStatePath m.fileId { storage with
          disk := storage.disk.set outputPath
            (resize 0 m.size ((storage.disk.get? outputPath).getD [])) } = .error err := hpath
      simp [NodeFileStorageAdapter.prepareOutputFile, NodeFileStorageAdapter.loadOffsetOutputState,
        hpath', Except.bind] at hok
  obtain ⟨path, hpath⟩ := hpath
  unfold NodeFileStorageAdapter.prepareOutputFile at hok ⊢
  simp only at hok ⊢
  split at hok
  · cases hok
  · rename_i saved hload
    generalize (saved.filter (NodeFileStorageAdapter.restores storage.sha256 m outputPath)).elim []
      (fun state => state.verifiedPieces.foldl insertNew []) = verified at *
    simp only [NodeFileStorageAdapter.saveOffsetOutputState, OrderedMap.get?_set_self]
    have hsaved : NodeFileStorageAdapter.offsetStatePath m.fileId { storage with
        disk := storage.disk.set outputPath
          (resize 0 m.size ((storage.disk.get? outputPath).getD []))
        offsetOutputs := storage.offsetOutputs.set m.fileId ⟨m, outputPath, verified⟩ } =
      .ok path := hpath
    rw [hsaved]
    refine ⟨path, verified.insertionSort (· ≤ ·), hpath, ?_, ⟨_, OrderedMap.get?_set_self _ _ _⟩,
      fun id call hcall => absurd hcall (by simp [quiet]),
      fun r hr => absurd hr List.not_mem_nil, List.nodup_nil,
      fun id id' call call' tmp hcall => absurd hcall (by simp [quiet]),
      ⟨verified, OrderedMap.get?_set_self _ _ _, .inr rfl⟩,
      .inr ⟨_, OrderedMap.get?_set_self _ _ _, .start _ _⟩⟩
    simp only [quiet, OrderedMap.get?_set]
    split
    · exact ⟨_, rfl⟩
    · exact ⟨_, if_pos trivial⟩

end Tracked

theorem fileId_readState (id : Nat) (uuid : String) (s : OffsetCalls) :
    (s.readState id uuid).fileId = s.fileId := by
  unfold readState
  split <;> rfl

theorem fileId_step (s : OffsetCalls) (l : OffsetMove) : (s.step l).fileId = s.fileId := by
  cases l with
  | start call =>
    cases call with
    | writePiece pieceIndex data =>
      simp only [step, start]
      split <;> rfl
    | deletePiece pieceIndex =>
      simp only [step, start]
      split <;> rfl
  | complete id uuid =>
    simp only [step, complete]
    split
    · rename_i op hid
      cases op with
      | mkdir => exact fileId_readState id uuid s
      | writing target piece data => rfl
      | writeFile tmp target state => rfl
      | opening target piece data =>
        simp only [proceed]
        split <;> rfl
      | closing pieceIndex =>
        simp only [proceed]
        split <;> rfl
      | rename tmp target =>
        simp only [proceed]
        split <;> rfl
    · rfl

end OffsetCalls

open OffsetCalls

/-- Any calls on a prepared output, in flight together: when they have all come to their end
the state file has exactly the verified pieces of the adapter, if no call has put its state
over another one that was read later. -/
theorem offset_state_is_current (storage : NodeFileStorageAdapter) (m : FileManifest)
    (outputPath : Path) (pid : Nat) (hok : (storage.prepareOutputFile m outputPath).1 = .ok ())
    (t : OffsetCalls)
    (hrun : Run step (fun s l => s.fresh l = true ∧ s.timely l = true)
      (quiet m.fileId pid (storage.prepareOutputFile m outputPath).2) t)
    (hidle : t.idle = true) :
    ∃ path output, t.storage.offsetStatePath m.fileId = .ok path ∧
      t.storage.offsetOutputs.get? m.fileId = some output ∧
      t.storage.disk.get? path = some (t.storage.offsetState.stringify
        (offsetOutputState t.storage.sha256 m.fileId output)) ∧
      ∀ i, i ∈ (offsetOutputState t.storage.sha256 m.fileId output).verifiedPieces ↔
        i ∈ output.verifiedPieces := by
  obtain ⟨path, v, hstart⟩ := Tracked.prepared pid hok
  have htracked := hrun.invariant (fun s l hs hl => Tracked.step hs l hl) hstart
  have hfileId : t.fileId = m.fileId :=
    hrun.invariant (P := fun s => s.fileId = m.fileId)
      (fun s l hs _ => (fileId_step s l).trans hs) rfl
  obtain ⟨verified, houtput, hget⟩ := htracked.idle hidle
  refine ⟨path, ⟨m, outputPath, verified⟩, ?_⟩
  rw [← hfileId]
  exact ⟨htracked.statePath, houtput, hget, fun i => List.mem_insertionSort _⟩

namespace Sample

/-- Both pieces are written; call 0 reads the verified pieces before the second is one of
them, and call 1 after. -/
def bothRead : List OffsetMove :=
  [.start (.writePiece 0 [1, 2]), .start (.writePiece 1 [3]),
    .complete 0 "", .complete 0 "", .complete 0 "", .complete 0 "a",
    .complete 1 "", .complete 1 "", .complete 1 "", .complete 1 "b",
    .complete 1 "", .complete 0 ""]

def calls (moves : List OffsetMove) : OffsetCalls :=
  steps step (quiet "f" 7 (node.prepareOutputFile layout "out/three").2) moves

def newestLast : OffsetCalls := calls (bothRead ++ [.complete 0 "", .complete 1 ""])

def oldestLast : OffsetCalls := calls (bothRead ++ [.complete 1 "", .complete 0 ""])

end Sample

theorem offset_state_is_current_sample :
    ∃ path output, Sample.newestLast.storage.offsetStatePath "f" = .ok path ∧
      Sample.newestLast.storage.offsetOutputs.get? "f" = some output ∧
      Sample.newestLast.storage.disk.get? path = some (Sample.newestLast.storage.offsetState.stringify
        (offsetOutputState Sample.newestLast.storage.sha256 "f" output)) ∧
      ∀ i, i ∈ (offsetOutputState Sample.newestLast.storage.sha256 "f" output).verifiedPieces ↔
        i ∈ output.verifiedPieces :=
  offset_state_is_current Sample.node Sample.layout "out/three" 7 (by decide +kernel)
    Sample.newestLast (run_of_allowed (by decide +kernel)) (by decide +kernel)

/-- The call that has read the pieces first puts its state in place last: the adapter has both
pieces, and the file has one. -/
theorem late_rename_loses_a_piece :
    Run step (fun s l => s.fresh l = true)
      (quiet "f" 7 (Sample.node.prepareOutputFile Sample.layout "out/three").2) Sample.oldestLast ∧
    Sample.oldestLast.calls.all CallState.isResolved = true ∧
    (Sample.oldestLast.storage.offsetOutputs.get? "f").map (·.verifiedPieces) = some [0, 1] ∧
    Sample.oldestLast.storage.disk.get? ".ponswarp-grid/sessions/s/output/f.offset-state.json" =
      some (Sample.node.offsetState.stringify (offsetOutputState Sample.node.sha256 "f"
        ⟨Sample.layout, "out/three", [0]⟩)) ∧
    Sample.node.offsetState.stringify (offsetOutputState Sample.node.sha256 "f"
        ⟨Sample.layout, "out/three", [0]⟩) ≠
      Sample.node.offsetState.stringify (offsetOutputState Sample.node.sha256 "f"
        ⟨Sample.layout, "out/three", [0, 1]⟩) :=
  ⟨run_of_allowed (by decide +kernel), by decide +kernel, by decide +kernel, by decide +kernel,
    by decide +kernel⟩

end PonsWarp.Cli
