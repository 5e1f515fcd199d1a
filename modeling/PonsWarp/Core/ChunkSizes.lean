import PonsWarp.Core.Handling
import PonsWarp.Core.JsConversion
import PonsWarp.Core.Restores
import PonsWarp.Core.Uploads

set_option autoImplicit false

/-!
How large a chunk is allowed to be. The clamp is here on any number, and an engine that is tuned
sends no frame that is larger than its clamp says.
-/

namespace PonsWarp.Core

open PonsWarp.Data

namespace Math

def floor : JsNumber → JsNumber
  | .finite x => .finite x.floor
  | x => x

def min : JsNumber → JsNumber → JsNumber
  | .nan, _ | _, .nan => .nan
  | .finite x, .finite y => .finite (x ⊓ y)
  | .infinity true, _ | _, .infinity true => .infinity true
  | .infinity false, y => y
  | x, .infinity false => x

end Math

namespace JsNumber

/-- `clampTransferChunkBytes`. -/
def clampTransferChunkBytes (requestedBytes maxBytes : JsNumber) : JsNumber :=
  let floor := ofNat 1
  let cap := floor.max (Math.floor maxBytes)
  if !requestedBytes.isFinite then ofNat DEFAULT_TRANSFER_CHUNK_BYTES
  else
    let requested := Math.floor requestedBytes
    if requested.isNonPositive then ofNat DEFAULT_TRANSFER_CHUNK_BYTES
    else Math.min (requested.max floor) cap

/-- A size that is asked for and not replaced by the default. -/
def Usable (requestedBytes : JsNumber) : Prop := ∃ x : Number, requestedBytes = .finite x ∧ 1 ≤ x

/-- A whole number of bytes from one up to a limit. -/
def Within (limit : Nat) (bytes : JsNumber) : Prop := ∃ n, bytes = ofNat n ∧ 1 ≤ n ∧ n ≤ limit

theorem within_ofNat {limit n : Nat} : Within limit (ofNat n) ↔ 1 ≤ n ∧ n ≤ limit := by
  constructor
  · rintro ⟨m, hm, hbounds⟩
    rw [ofNat_inj.1 hm]
    exact hbounds
  · exact fun hbounds => ⟨n, rfl, hbounds⟩

theorem floor_natCast (n : Nat) : (n : Number).floor = n := by
  rw [← Int.cast_natCast]
  exact Rat.floor_intCast n

theorem floor_pos_iff {x : Number} : 0 < x.floor ↔ 1 ≤ x := by
  rw [← Int.add_one_le_iff, zero_add, Rat.le_floor_iff, Int.cast_one]

theorem max_finite (x y : Number) : JsNumber.max (.finite x) (.finite y) = .finite (x ⊔ y) := by
  rw [JsNumber.max, if_neg (by simp), le]
  by_cases h : x ≤ y
  · simp [h]
  · simp [h, (not_le.1 h).le]

/-- On what is finite the clamp is that of the engine. -/
theorem clampTransferChunkBytes_finite (x cap : Number) :
    clampTransferChunkBytes (.finite x) (.finite cap) =
      ofNat (PonsWarp.Core.clampTransferChunkBytes x cap) := by
  by_cases hx : x.floor ≤ 0
  · have hx' : (x.floor : Number) ≤ 0 := Int.cast_nonpos.2 hx
    simp [clampTransferChunkBytes, PonsWarp.Core.clampTransferChunkBytes, isFinite, Math.floor,
      isNonPositive, hx, hx']
  · have hx' : ¬ (x.floor : Number) ≤ 0 := fun h => hx (Int.cast_nonpos.1 h)
    have hnonneg : 0 ≤ (x.floor ⊔ 1) ⊓ (1 ⊔ cap.floor) := by omega
    have hcast : (((x.floor ⊔ 1) ⊓ (1 ⊔ cap.floor)).toNat : Number) =
        ((x.floor : Number) ⊔ 1) ⊓ (1 ⊔ (cap.floor : Number)) := by
      rw [← Int.cast_natCast, Int.toNat_of_nonneg hnonneg]
      push_cast
      rfl
    simp [clampTransferChunkBytes, PonsWarp.Core.clampTransferChunkBytes, isFinite, Math.floor,
      Math.min, max_finite, isNonPositive, hx, hx', ofNat, hcast]

theorem clamp_of_usable {x : Number} (hx : 1 ≤ x) {cap : Nat} (hcap : 0 < cap) :
    clampTransferChunkBytes (.finite x) (ofNat cap) = ofNat (min x.floor.toNat cap) := by
  have hpos := floor_pos_iff.2 hx
  rw [ofNat, clampTransferChunkBytes_finite, PonsWarp.Core.clampTransferChunkBytes,
    floor_natCast, if_neg (by omega)]
  congr 1
  omega

theorem clamp_of_unusable {requestedBytes : JsNumber} (h : ¬ requestedBytes.Usable)
    (cap : JsNumber) :
    clampTransferChunkBytes requestedBytes cap = ofNat DEFAULT_TRANSFER_CHUNK_BYTES := by
  cases requestedBytes with
  | finite x =>
    have hx : ¬ 0 < x.floor := fun hpos => h ⟨x, rfl, floor_pos_iff.1 hpos⟩
    have hx' : (x.floor : Number) ≤ 0 := Int.cast_nonpos.2 (not_lt.1 hx)
    simp [clampTransferChunkBytes, isFinite, Math.floor, isNonPositive, hx']
  | nan => rfl
  | infinity negative => rfl

/-- The default is what may be above the ceiling. -/
theorem within_clampTransferChunkBytes {cap : Nat} (hcap : 0 < cap) (requestedBytes : JsNumber) :
    Within cap (clampTransferChunkBytes requestedBytes (ofNat cap)) ↔
      requestedBytes.Usable ∨ DEFAULT_TRANSFER_CHUNK_BYTES ≤ cap := by
  by_cases h : requestedBytes.Usable
  · obtain ⟨x, rfl, hx⟩ := h
    have hpos := floor_pos_iff.2 hx
    rw [clamp_of_usable hx hcap, within_ofNat]
    exact iff_of_true (by omega) (.inl ⟨x, rfl, hx⟩)
  · rw [clamp_of_unusable h, within_ofNat]
    simp [h, DEFAULT_TRANSFER_CHUNK_BYTES]

/-- `a <= b` of two numbers that are finite. -/
def AtMost (a b : JsNumber) : Prop := ∃ x y, a = .finite x ∧ b = .finite y ∧ x ≤ y

theorem atMost_ofNat {m n : Nat} : AtMost (ofNat m) (ofNat n) ↔ m ≤ n := by
  simp [AtMost, ofNat]

theorem clampTransferChunkBytes_mono {cap : Nat} (hcap : 0 < cap) {a b : JsNumber}
    (ha : a.Usable) (hab : AtMost a b) :
    AtMost (clampTransferChunkBytes a (ofNat cap)) (clampTransferChunkBytes b (ofNat cap)) := by
  obtain ⟨x, y, rfl, rfl, hxy⟩ := hab
  obtain ⟨_, heq, hx⟩ := ha
  cases heq
  rw [clamp_of_usable hx hcap, clamp_of_usable (hx.trans hxy) hcap, atMost_ofNat]
  have hfloor : x.floor ≤ y.floor := Rat.floor_monotone hxy
  omega

end JsNumber

/-! The frames of an engine whose chunks have a limit. -/

/-- The effects send no frame above the limit. -/
def SentWithin (limit : Nat) (l : List Effect) : Prop :=
  ∀ p bytes failure, .sendBinary p bytes failure ∈ l → bytes.length ≤ limit

theorem SentWithin.nil (limit : Nat) : SentWithin limit [] := by simp [SentWithin]

theorem SentWithin.of_calm {limit : Nat} {l : List Effect} (h : ∀ x ∈ l, ¬ x.Transfers) :
    SentWithin limit l :=
  fun _ _ _ hmem => absurd trivial (h _ hmem)

theorem SentWithin.append {limit : Nat} {l l' : List Effect} (h : SentWithin limit l)
    (h' : SentWithin limit l') : SentWithin limit (l ++ l') := by
  intro p bytes failure hmem
  obtain hmem | hmem := List.mem_append.1 hmem
  · exact h p bytes failure hmem
  · exact h' p bytes failure hmem

/-- A continuation of an upload that goes on with chunks within the limit. -/
def Frame.Fits (limit : Nat) : Frame → Prop
  | .headerSent u | .binarySent u => u.chunkSize ≤ limit
  | _ => True

theorem Frame.fits_of_not_uploadsTo {limit : Nat} {frame : Frame}
    (h : ∀ p, ¬ frame.uploadsTo p) : frame.Fits limit := by
  cases frame with
  | headerSent u => exact absurd rfl (h u.peerId)
  | binarySent u => exact absurd rfl (h u.peerId)
  | _ => trivial

theorem Upload.chunk_le {u : Upload} {limit : Nat} (h : u.chunkSize ≤ limit) :
    u.chunk.length ≤ limit := by
  rw [Upload.chunk, List.length_take]
  omega

namespace Engine

variable {σ : Type} {e : Engine σ} {t : Turn} {limit : Nat}

/-- A stretch of an upload that stays within the limit. -/
structure SendsWithin (limit : Nat) (e : Engine σ) (result : Engine σ × Next) : Prop where
  bytes : result.1.transferChunkBytes = e.transferChunkBytes
  log : ∃ l, result.1.log = e.log ++ l ∧ SentWithin limit l
  frames : ∀ frame ∈ result.2.frames, frame.Fits limit

theorem SendsWithin.stop (limit : Nat) (outcome : Except Failure Value) :
    SendsWithin limit e (e, .done outcome) where
  bytes := rfl
  log := ⟨[], by simp, .nil limit⟩
  frames := by simp [Next.frames]

theorem SendsWithin.andThen {result : Engine σ × Next} (h : SendsWithin limit e result)
    (frame : Frame) (hframe : frame.Fits limit) :
    SendsWithin limit e (result.1, result.2.andThen frame) := by
  refine ⟨h.bytes, h.log, fun next hnext => ?_⟩
  obtain hnext | rfl := Next.mem_frames_andThen hnext
  · exact h.frames next hnext
  · exact hframe

/-- Only its sizes and its log matter of the engine that a stretch starts in. -/
theorem SendsWithin.of_eq {e' : Engine σ} {result : Engine σ × Next}
    (h : SendsWithin limit e' result) (hbytes : e'.transferChunkBytes = e.transferChunkBytes)
    (hlog : e'.log = e.log) : SendsWithin limit e result :=
  ⟨h.bytes.trans hbytes, hlog ▸ h.log, h.frames⟩

theorem sendsWithin_send (p : PeerId) (message : TransferMessage) :
    SendsWithin limit e (e.send t p message) := by
  unfold send
  split
  · exact ⟨rfl, ⟨_, rfl, by simp [SentWithin]⟩, by simp [Next.frames]⟩
  · exact .stop limit _

theorem sendsWithin_sendBinary (p : PeerId) {frame : ArrayBuffer} (h : frame.length ≤ limit) :
    SendsWithin limit e (e.sendBinary t p frame) := by
  unfold sendBinary
  split
  · refine ⟨rfl, ⟨_, rfl, fun q bytes failure hmem => ?_⟩, by simp [Next.frames]⟩
    cases List.mem_singleton.1 hmem
    exact h
  · exact .stop limit _

theorem sendsWithin_sendChunkHeader {u : Upload} (h : u.chunkSize ≤ limit) :
    SendsWithin limit e (e.sendChunkHeader t u) :=
  (sendsWithin_send u.peerId _).andThen (.headerSent u) h

/-- The chunks of an upload that starts are no larger than those of the engine. -/
theorem sendsWithin_startUpload (h : e.transferChunkBytes ≤ limit) (p : PeerId)
    (request : PieceRequestMessage) (index : Nat) (data : ArrayBuffer) :
    SendsWithin limit e (e.startUpload t p request index data) :=
  sendsWithin_sendChunkHeader ((Nat.min_le_left _ _).trans h)

theorem sendsWithin_sourceRead (h : e.transferChunkBytes ≤ limit) (p : PeerId)
    (request : PieceRequestMessage) (index : Nat) (outcome : Except Failure Value) :
    SendsWithin limit e (e.sourceRead t p request index outcome) := by
  unfold sourceRead
  split
  · exact .stop limit _
  · exact sendsWithin_startUpload h p request index _
  · exact .stop limit _

theorem sendsWithin_storedRead (h : e.transferChunkBytes ≤ limit) (p : PeerId)
    (request : PieceRequestMessage) (index : Nat) (outcome : Except Failure Value) :
    SendsWithin limit e (e.storedRead t p request index outcome) := by
  unfold storedRead
  split
  · exact .stop limit _
  · exact sendsWithin_startUpload h p request index _
  · exact sendsWithin_send p _

theorem sendsWithin_headerSent {u : Upload} (h : u.chunkSize ≤ limit)
    (outcome : Except Failure Value) : SendsWithin limit e (e.headerSent t u outcome) := by
  unfold headerSent
  split
  · exact .stop limit _
  · exact (sendsWithin_sendBinary u.peerId (Upload.chunk_le h)).andThen
      (.binarySent u) h

theorem sendsWithin_binarySent {u : Upload} (h : u.chunkSize ≤ limit)
    (outcome : Except Failure Value) : SendsWithin limit e (e.binarySent t u outcome) := by
  unfold binarySent
  split
  · exact .stop limit _
  · split
    · exact sendsWithin_sendChunkHeader h
    · exact .stop limit _

theorem sendsWithin_uploadJobEnded (p : PeerId) (outcome : Except Failure Value) :
    SendsWithin limit e (e.uploadJobEnded p outcome) := by
  obtain ⟨l, hlog, hcalm, ⟨outcome', hdone⟩, -⟩ := e.uploadJobEnded_spec p outcome
  refine ⟨?_, ⟨l, hlog, .of_calm hcalm⟩, by simp [hdone, Next.frames]⟩
  unfold uploadJobEnded
  cases e.pieceSendQueues.get? p with
  | none => cases outcome <;> rfl
  | some queue => cases outcome <;> by_cases hjobs : queue.jobs = [] <;> simp [hjobs, emit]

theorem sendsWithin_storageCall {α : Type} (value : α → Value) (result : Except Failure α × σ) :
    SendsWithin limit e (e.storageCall t value result) := by
  obtain ⟨e', pending, hcall, hlog, -⟩ := storageCall_quiet (e := e) (t := t) value result
  refine ⟨?_, ⟨[], ?_, .nil limit⟩, ?_⟩
  · unfold storageCall
    split
    · split <;> rfl
    · rfl
  · rw [hcall, List.append_nil]
    exact hlog
  · simp [hcall, Next.frames]

variable [StorageAdapter σ]

theorem sendsWithin_sendRequestedPiece (p : PeerId) (request : PieceRequestMessage) :
    SendsWithin limit e (e.sendRequestedPiece t p request) := by
  unfold sendRequestedPiece
  split
  · exact .stop limit _
  · split
    · exact sendsWithin_send p _
    · rename_i index piece _
      split
      · refine ⟨rfl, ⟨[], by simp, .nil limit⟩, fun frame hframe => ?_⟩
        cases List.mem_singleton.1 hframe
        trivial
      · split
        · exact sendsWithin_send p _
        · split
          · exact .stop limit _
          · split
            · exact (sendsWithin_storageCall _ _).andThen
                (.storedRead p request index) trivial
            · exact sendsWithin_send p _

theorem sendsWithin_queued (queues : OrderedMap PeerId SendQueue) (p : PeerId)
    (request : PieceRequestMessage) :
    SendsWithin limit e ({ e with pieceSendQueues := queues }.sendRequestedPiece t p request) :=
  (sendsWithin_sendRequestedPiece p request).of_eq rfl rfl

theorem sendsWithin_startUploadJob {p : PeerId} {result : Engine σ × Next}
    (h : e.startUploadJob t p = some result) : SendsWithin limit e result := by
  unfold startUploadJob at h
  split at h
  · cases h
  · split at h
    · cases h
    · split at h
      · cases h
      · cases h
        exact (sendsWithin_queued _ p _).andThen (.uploadJob p) trivial

end Engine

theorem Changes.transferChunkBytes {σ : Type} [StorageAdapter σ] {t : Turn} {G : Grant}
    {e e' : Engine σ} (h : Changes t G e e') (hg : ¬ G .configure) :
    e'.transferChunkBytes = e.transferChunkBytes := by
  induction h with
  | refl => rfl
  | tail _ hc ih =>
    cases hc with
    | configure bytes transport subscribed _ hu => exact absurd hu hg
    | register m _ =>
      unfold Engine.registerManifest
      simp only
      split <;> exact ih
    | _ => exact ih

/-- The calls that set the size of the chunks. -/
def Action.Tunes : Action → Prop
  | .call (.setTransferChunkBytes _) | .call (.applyTransferTuning _ _) => True
  | _ => False

namespace World

variable {σ : Type} {w : World σ} {limit : Nat}

/-- The uploads under way go on with chunks within the limit. -/
def UploadsWithin (limit : Nat) (w : World σ) : Prop :=
  ∀ task ∈ w.tasks, ∀ frame ∈ task.stack, frame.Fits limit

/-- The engine and its uploads are within the limit, and so are the frames after the first. -/
structure Bounded (limit sent : Nat) (w : World σ) : Prop where
  bytes : w.engine.transferChunkBytes ≤ limit
  uploads : w.UploadsWithin limit
  log : SentWithin limit (w.engine.log.drop sent)
  sent : sent ≤ w.engine.log.length

theorem UploadsWithin.spawn (h : w.UploadsWithin limit) {result : Engine σ × Next}
    (hframes : ∀ frame ∈ result.2.frames, frame.Fits limit) :
    (w.spawn result).UploadsWithin limit := by
  intro task htask frame hframe
  obtain hold | hnew := List.mem_append.1 htask
  · exact h task hold frame hframe
  · obtain rfl := List.mem_singleton.1 hnew
    obtain hnext | hnil := mem_task_stack.1 hframe
    · exact hframes frame hnext
    · cases hnil

/-- A task goes on. -/
theorem UploadsWithin.resume (h : w.UploadsWithin limit) {i : Nat} {pending : Pending}
    {frame : Frame} {below : List Frame} (hi : w.tasks[i]? = some ⟨pending, frame :: below⟩)
    {next : Next} (hframes : ∀ frame ∈ next.frames, frame.Fits limit) {w' : World σ}
    (htasks : w'.tasks = w.tasks.set i (next.task below)) : w'.UploadsWithin limit := by
  intro task htask fr hfr
  rw [htasks] at htask
  obtain hold | rfl := List.mem_or_eq_of_mem_set htask
  · exact h task hold fr hfr
  · obtain hnext | hbelow := mem_task_stack.1 hfr
    · exact hframes fr hnext
    · exact h _ (List.mem_of_getElem? hi) fr (List.mem_cons_of_mem _ hbelow)

theorem Bounded.of_log {sent : Nat} (h : w.Bounded limit sent) {w' : World σ}
    (hbytes : w'.engine.transferChunkBytes = w.engine.transferChunkBytes)
    (huploads : w'.UploadsWithin limit) {l : List Effect}
    (hlog : w'.engine.log = w.engine.log ++ l) (hl : SentWithin limit l) :
    w'.Bounded limit sent where
  bytes := hbytes ▸ h.bytes
  uploads := huploads
  log := by
    rw [hlog, List.drop_append_of_le_length h.sent]
    exact h.log.append hl
  sent := by
    rw [hlog, List.length_append]
    exact h.sent.trans (Nat.le_add_right _ _)

variable [StorageAdapter σ] {cfg : Config} {t : Turn} {a : Action} {sent : Nat}

/-- What has to do with no upload sends no frame. -/
theorem Bounded.calm (h : w.Bounded limit sent) (ha : ¬ w.Uploads a) (ht : ¬ a.Tunes) :
    (w.step cfg (t, a)).Bounded limit sent := by
  have hspec := step_spec cfg w t a
  obtain ⟨l, hlog, hspeaks⟩ := hspec.changes.log
  have hl : SentWithin limit l := by
    refine .of_calm fun x hx hx' => ?_
    obtain ⟨event, rfl⟩ | hg := hspeaks x hx
    · exact hx'
    · have hlabel : Label.Transfers (.effect x) := hx'
      cases (grant_calm ha hlabel hg).1
  have hframes : ∀ frame, w.grant (t, a) (.frame frame) → frame.Fits limit := by
    refine fun frame hg => Frame.fits_of_not_uploadsTo fun p hp => ?_
    have hlabel : Label.Transfers (.frame frame) := ⟨p, hp⟩
    cases (grant_calm ha hlabel hg).1
  have hbytes : (w.step cfg (t, a)).engine.transferChunkBytes = w.engine.transferChunkBytes := by
    by_cases hset : a = .call .setTransport
    · subst hset
      rfl
    · refine hspec.changes.transferChunkBytes fun hg => ?_
      obtain ⟨bytes, rfl⟩ | ⟨bytes, cap, rfl⟩ | hcall := grant_configure hg
      · exact ht trivial
      · exact ht trivial
      · exact hset hcall
  refine h.of_log hbytes ?_ hlog hl
  generalize hw' : w.step cfg (t, a) = w' at hspec
  cases hspec with
  | alone _ e fired _ => exact h.uploads
  | spawn _ _ result hdoes =>
    exact h.uploads.spawn fun frame hframe => hframes frame (hdoes.frames frame hframe)
  | resume i pending frame below outcome result hi ho hr hdoes =>
    refine h.uploads.resume hi (fun fr hfr => ?_) rfl
    exact hframes fr ⟨pending, frame, below, outcome, hi, ho, hdoes.frames fr hfr⟩

/-- A stretch of an upload sends no frame above the limit. -/
theorem sendsWithin_resume (h : w.Bounded limit sent) {frame : Frame} {p : PeerId}
    (hframe : frame.uploadsTo p) (hfits : frame.Fits limit) (outcome : Except Failure Value) :
    Engine.SendsWithin limit w.engine (w.engine.resume cfg t outcome frame) := by
  cases frame with
  | sourceRead q request index =>
    exact Engine.sendsWithin_sourceRead h.bytes q request index outcome
  | storedRead q request index =>
    exact Engine.sendsWithin_storedRead h.bytes q request index outcome
  | headerSent u => exact Engine.sendsWithin_headerSent hfits outcome
  | binarySent u => exact Engine.sendsWithin_binarySent hfits outcome
  | uploadJob q => exact Engine.sendsWithin_uploadJobEnded q outcome
  | _ => exact hframe.elim

/-- As long as no size is set, no step sends a frame above the limit. -/
theorem Bounded.step (h : w.Bounded limit sent) (ht : ¬ a.Tunes) :
    (w.step cfg (t, a)).Bounded limit sent := by
  by_cases ha : w.Uploads a
  · cases a with
    | upload p =>
      cases hstart : w.engine.startUploadJob t p with
      | none => simpa [World.step, hstart] using h
      | some result =>
        have hstep : w.step cfg (t, .upload p) = w.spawn result := by simp [World.step, hstart]
        have hsends : Engine.SendsWithin limit w.engine result :=
          Engine.sendsWithin_startUploadJob hstart
        obtain ⟨l, hlog, hl⟩ := hsends.log
        rw [hstep]
        exact h.of_log hsends.bytes (h.uploads.spawn hsends.frames) hlog hl
    | resume i =>
      obtain ⟨⟨pending, stack⟩, frame, below, p, hi, hstack, hp⟩ := ha
      obtain rfl : stack = frame :: below := hstack
      cases ho : w.engine.outcome pending with
      | none => simpa [World.step, resumeTask, hi, ho] using h
      | some outcome =>
        have hfits := h.uploads _ (List.mem_of_getElem? hi) frame List.mem_cons_self
        have hsends : Engine.SendsWithin limit w.engine (w.engine.resume cfg t outcome frame) :=
          sendsWithin_resume h hp hfits outcome
        obtain ⟨l, hlog, hl⟩ := hsends.log
        have hstep : w.step cfg (t, .resume i) =
            { w with
              engine := (w.engine.resume cfg t outcome frame).1
              tasks := w.tasks.set i ((w.engine.resume cfg t outcome frame).2.task below) } := by
          simp [World.step, resumeTask, hi, ho]
        rw [hstep]
        exact h.of_log hsends.bytes (h.uploads.resume hi hsends.frames rfl) hlog hl
    | _ => exact ha.elim
  · exact h.calm ha ht

/-- `applyTransferTuning`, also for what is no finite request; the ceiling is a number of bytes. -/
def applyTransferTuning (w : World σ) (chunkSizeBytes : JsNumber) (maxBytes : Nat) : World σ :=
  let bytes := JsNumber.clampTransferChunkBytes chunkSizeBytes (.ofNat maxBytes)
  w.spawn ({ w.engine with transferChunkBytes := bytes.index?.getD 0 }, .ok .unit)

theorem step_applyTransferTuning (x : Number) (maxBytes : Nat) :
    w.step cfg (t, .call (.applyTransferTuning x (some maxBytes))) =
      w.applyTransferTuning (.finite x) maxBytes := by
  rw [applyTransferTuning, JsNumber.ofNat, JsNumber.clampTransferChunkBytes_finite,
    JsNumber.index?_ofNat]
  rfl

omit [StorageAdapter σ] in
theorem bounded_tuned (h : w.UploadsWithin limit) {chunkSizeBytes : JsNumber}
    (hbytes : (JsNumber.clampTransferChunkBytes chunkSizeBytes (.ofNat limit)).Within limit) :
    (w.applyTransferTuning chunkSizeBytes limit).Bounded limit w.engine.log.length where
  bytes := by
    obtain ⟨n, heq, -, hn⟩ := hbytes
    simpa [applyTransferTuning, spawn, heq] using hn
  uploads := h.spawn (by simp [Next.ok, Next.frames])
  log := by simp [applyTransferTuning, spawn, SentWithin.nil]
  sent := by simp [applyTransferTuning, spawn]

/-- In a run after the tuning, in which no other size is set, every frame is within the limit. -/
theorem frames_after_tuning (h : w.UploadsWithin limit) {chunkSizeBytes : JsNumber}
    (hbytes : (JsNumber.clampTransferChunkBytes chunkSizeBytes (.ofNat limit)).Within limit)
    {w' : World σ}
    (hrun : Run (World.step cfg) (fun _ x => ¬ x.2.Tunes)
      (w.applyTransferTuning chunkSizeBytes limit) w') :
    SentWithin limit (w'.engine.log.drop w.engine.log.length) :=
  (hrun.invariant (P := Bounded limit w.engine.log.length) (fun _ _ hb hx => hb.step hx)
    (bounded_tuned h hbytes)).log

end World

end PonsWarp.Core
