import Mathlib.Data.List.Perm.Subperm
import PonsWarp.Core.BookedSteps
import PonsWarp.Core.InFlight

set_option autoImplicit false

/-!
The cap of a direct window. While the table of windows has room for every key in use, the
window that was opened under a key stays there, and all that asks for pieces under the key
first looks at the cap of that window, in the same stretch of code.
-/

namespace PonsWarp.Core

open PonsWarp.Data

namespace Ledger

/-- What waits for the key waits in the chains of these windows. -/
def Waits (L : Ledger) (key : String) (Q : Nat → Prop) : Prop :=
  ∀ ref line, L.lines[ref]? = some line → ∀ job ∈ line.queue, job.key? = some key → Q ref

/-- The windows of the table are those of the keys in use. -/
def Known (L : Ledger) (keys : List String) : Prop :=
  L.disposed = false → ∀ key ref, L.windows.get? key = some ref → key ∈ keys

/-- The window of a key, which the table keeps while the engine lives. -/
structure Opened (L : Ledger) (key : String) (ref n : Nat) : Prop where
  table : L.disposed = false → L.windows.get? key = some ref
  line : ∃ line, L.lines[ref]? = some line ∧ line.cap = n

variable {max : Nat} {P : Entry → Prop} {L L' : Ledger} {key : String} {Q : Nat → Prop}
variable {ref n : Nat}

/-- A window whose line is changed. -/
theorem Waits.put {line line' : Line} (h : L.Waits key Q) (hline : L.lines[ref]? = some line)
    (hq : ∀ job ∈ line'.queue, job ∈ line.queue ∨ (job.key? = some key → Q ref)) :
    Waits { L with lines := L.lines.set ref line' } key Q := by
  intro r line1 hline1 job hjob hkey
  simp only [List.getElem?_set] at hline1
  split at hline1
  · rename_i heq
    subst heq
    split at hline1
    · cases hline1
      obtain hold | hnew := hq job hjob
      · exact h _ line hline job hold hkey
      · exact hnew hkey
    · cases hline1
  · exact h r line1 hline1 job hjob hkey

theorem Waits.enqueue {key' : String} {job : WindowJob} (h : L.Waits key Q)
    (hQ : L.disposed = false → ∀ r, L.windows.get? key = some r → Q r)
    (hjob : ∀ k, job.key? = some k → k = key') : (L.enqueue key' job).Waits key Q := by
  unfold Ledger.enqueue
  split
  · rename_i r line hline
    obtain ⟨hget, hline⟩ := line?_eq_some.1 hline
    split
    · exact h
    · rename_i hlive
      simp only [not_or, Bool.not_eq_true] at hlive
      refine h.put hline fun job' hjob' => ?_
      obtain hold | rfl := (List.mem_append.1 hjob').imp_right List.mem_singleton.1
      · exact .inl hold
      · refine .inr fun hkey => ?_
        obtain rfl := hjob key hkey
        exact hQ hlive.2 r hget
  · exact h

/-- What is new in a chain is there for the key of the window. -/
theorem Posting.waits (h : Posting max P L L')
    (hQ : L.disposed = false → ∀ r, L.windows.get? key = some r → Q r) (hw : L.Waits key Q) :
    L'.Waits key Q := by
  cases h with
  | ask x r h =>
    obtain ⟨-, hlines, -⟩ := ask_frame L x r
    intro ref line hline
    rw [hlines] at hline
    exact hw ref line hline
  | retire x r d event hr hd hid hkey hcount =>
    unfold Ledger.retire
    simp only
    split
    · refine Waits.enqueue ?_ ?_ fun k hk => (Option.some.inj hk).symm
      · exact hw
      · exact hQ
    · exact hw
  | enqueue key' job h hkey => exact hw.enqueue hQ hkey
  | newWindow key' cap h hnew hcap =>
    intro ref line hline job hjob hkey
    simp only [List.getElem?_append] at hline
    split at hline
    · exact hw ref line hline job hjob hkey
    · rw [List.getElem?_singleton] at hline
      split at hline
      · cases hline
        cases hjob
      · cases hline
  | disable ref line hline => exact hw.put hline fun job hjob => .inl hjob
  | take ref line job rest hline hq h =>
    refine hw.put hline fun job' hjob' => .inl ?_
    rw [hq]
    exact List.mem_cons_of_mem _ hjob'
  | _ => exact hw

/-- A line that is changed keeps its cap. -/
theorem exists_line_set {r : Nat} {line line' : Line} (hline : L.lines[r]? = some line)
    (hcap : line'.cap = line.cap) (h : ∃ line, L.lines[ref]? = some line ∧ line.cap = n) :
    ∃ line, (L.lines.set r line')[ref]? = some line ∧ line.cap = n := by
  obtain ⟨line1, hline1, hn⟩ := h
  by_cases hr : r = ref
  · subst hr
    rw [hline] at hline1
    cases hline1
    have hlt := (List.getElem?_eq_some_iff.1 hline).1
    exact ⟨line', List.getElem?_set_self hlt, hcap.trans hn⟩
  · exact ⟨line1, by simpa [List.getElem?_set, hr] using hline1, hn⟩

theorem exists_line_enqueue {key' : String} {job : WindowJob}
    (h : ∃ line, L.lines[ref]? = some line ∧ line.cap = n) :
    ∃ line, (L.enqueue key' job).lines[ref]? = some line ∧ line.cap = n := by
  unfold Ledger.enqueue
  split
  · rename_i r line hline
    split
    · exact h
    · exact exists_line_set (line?_eq_some.1 hline).2 rfl h
  · exact h

/-- While the table has room, a window that is open stays so. -/
theorem Posting.opened (h : Posting max P L L')
    (hsize : L.disposed = false → L.windows.size ≤ max) (ho : L.Opened key ref n) :
    L'.Opened key ref n := by
  obtain ⟨htable, hline⟩ := ho
  cases h with
  | ask x r h =>
    obtain ⟨hwindows, hlines, hdisposed⟩ := ask_frame L x r
    refine ⟨?_, by rw [hlines]; exact hline⟩
    rw [hwindows, hdisposed]
    exact htable
  | retire x r d event hr hd hid hkey hcount =>
    refine ⟨by rw [retire_eq]; exact htable, ?_⟩
    unfold Ledger.retire
    simp only
    split
    · exact exists_line_enqueue hline
    · exact hline
  | enqueue key' job h hkey => exact ⟨by simpa using htable, exists_line_enqueue hline⟩
  | newWindow key' cap h hnew hcap =>
    obtain ⟨line, hline, hn⟩ := hline
    have hlt : ref < L.lines.length := (List.getElem?_eq_some_iff.1 hline).1
    refine ⟨fun hd => ?_, line, by rw [List.getElem?_append_left hlt, hline], hn⟩
    have hne : key ≠ key' := by
      rintro rfl
      simp [line?, htable hd, hline] at hnew
    rw [OrderedMap.get?_set_of_ne _ _ hne]
    exact htable hd
  | disable r line1 hline1 => exact ⟨htable, exists_line_set hline1 rfl hline⟩
  | prune windows hsub hkeep hcut =>
    refine ⟨fun hd => ?_, hline⟩
    rw [hcut (hsize hd)]
    exact htable hd
  | take r line1 job rest hline1 hq h => exact ⟨htable, exists_line_set hline1 rfl hline⟩
  | dispose h => exact ⟨fun hd => (by cases hd), hline⟩
  | close x h => exact ⟨htable, hline⟩

/-- Where a key stands: it has no window yet, or the window at a position, with its cap. -/
structure Stands (L : Ledger) (key : String) (s : Option (Nat × Nat)) : Prop where
  absent : s = none → L.windows.get? key = none
  opened : ∀ ref n, s = some (ref, n) → L.Opened key ref n
  waits : L.Waits key fun ref => ∃ n, s = some (ref, n)

variable {s : Option (Nat × Nat)}

theorem Stands.table (h : L.Stands key s) (hd : L.disposed = false) {r : Nat}
    (hr : L.windows.get? key = some r) : ∃ n, s = some (r, n) := by
  cases s with
  | none =>
    rw [h.absent rfl] at hr
    cases hr
  | some entry =>
    obtain ⟨ref, n⟩ := entry
    rw [(h.opened ref n rfl).table hd] at hr
    cases hr
    exact ⟨n, rfl⟩

/-- A key that has no window may get one, and keeps the one it has. -/
theorem Posting.stands (h : Posting max P L L')
    (hsize : L.disposed = false → L.windows.size ≤ max) (hs : L.Stands key s) :
    ∃ s', L'.Stands key s' ∧ ∀ entry, s = some entry → s' = some entry := by
  have hwaits := h.waits (fun hd r hr => hs.table hd hr) hs.waits
  have hstays : (s = none → L'.windows.get? key = none) →
      ∃ s', L'.Stands key s' ∧ ∀ entry, s = some entry → s' = some entry := fun habsent =>
    ⟨s, ⟨habsent, fun ref n he => h.opened hsize (hs.opened ref n he), hwaits⟩, fun _ => id⟩
  cases h with
  | ask x r h =>
    obtain ⟨hwindows, -, -⟩ := ask_frame L x r
    exact hstays fun he => by rw [hwindows]; exact hs.absent he
  | retire x r d event hr hd hid hkey hcount =>
    exact hstays fun he => by rw [retire_eq]; exact hs.absent he
  | enqueue key' job h hkey => exact hstays fun he => by simpa using hs.absent he
  | newWindow key' cap h hnew hcap =>
    by_cases hk : key = key' ∧ s = none
    · obtain ⟨rfl, rfl⟩ := hk
      obtain ⟨n, rfl⟩ := hcap
      refine ⟨some (L.lines.length, n), ⟨nofun, fun ref m he => ?_, ?_⟩, nofun⟩
      · cases he
        exact ⟨fun _ => by simp, ⟨⟨[], false, n⟩, by simp, rfl⟩⟩
      · intro ref line hline job hjob hjk
        obtain ⟨m, hm⟩ := hwaits ref line hline job hjob hjk
        cases hm
    · refine hstays fun he => ?_
      have hne : key ≠ key' := fun hkey => hk ⟨hkey, he⟩
      rw [OrderedMap.get?_set_of_ne _ _ hne]
      exact hs.absent he
  | prune windows hsub hkeep hcut =>
    refine hstays fun he => ?_
    cases hr : windows.get? key with
    | none => rfl
    | some r =>
      have hold := hsub key r hr
      rw [hs.absent he] at hold
      cases hold
  | dispose h => exact hstays fun _ => rfl
  | _ => exact hstays hs.absent

theorem Known.size_le {keys : List String} (hk : L.Known keys) (hd : L.disposed = false)
    (hlen : keys.length ≤ max) : L.windows.size ≤ max := by
  have hsub : L.windows.entries.map Prod.fst ⊆ keys := by
    intro k hk'
    obtain ⟨r, hr⟩ := OrderedMap.mem_keys_iff.1 hk'
    exact hk hd k r hr
  have hle := (List.Nodup.subperm L.windows.nodup hsub).length_le
  rw [List.length_map] at hle
  exact hle.trans hlen

theorem Posting.known {keys : List String} (h : Posting max P L L')
    (hP : ∀ k, P (.opens k) → k ∈ keys ∨ ∃ ref n, L.Opened k ref n) (hk : L.Known keys) :
    L'.Known keys := by
  cases h with
  | ask x r h =>
    obtain ⟨hwindows, -, hdisposed⟩ := ask_frame L x r
    rw [Known, hwindows, hdisposed]
    exact hk
  | retire x r d event hr hd hid hkey hcount =>
    rw [retire_eq]
    exact hk
  | enqueue key' job h hkey => simpa [Known] using hk
  | newWindow key' cap h hnew hcap =>
    intro hd k r hr
    rw [OrderedMap.get?_set] at hr
    split at hr
    · rename_i hkey
      subst hkey
      refine (hP k h).resolve_right ?_
      rintro ⟨ref, n, ho⟩
      obtain ⟨line, hline, -⟩ := ho.line
      simp [line?, ho.table hd, hline] at hnew
    · exact hk hd k r hr
  | prune windows hsub hkeep hcut => exact fun hd k r hr => hk hd k r (hsub k r hr)
  | dispose h => exact fun hd => by cases hd
  | _ => exact hk

/-- What a stretch of code leaves of the keys in use. -/
theorem Postings.stands {keys : List String} (h : Postings max P L L') (hlen : keys.length ≤ max)
    (hP : ∀ k, P (.opens k) → k ∈ keys ∨ ∃ entry, L.Stands k (some entry)) (hk : L.Known keys) :
    L'.Known keys ∧ ∀ key s, L.Stands key s →
      ∃ s', L'.Stands key s' ∧ ∀ entry, s = some entry → s' = some entry := by
  induction h with
  | refl => exact ⟨hk, fun key s hs => ⟨s, hs, fun _ => id⟩⟩
  | @tail L1 L2 h hlast ih =>
    obtain ⟨hknown, hstands⟩ := ih
    refine ⟨hlast.known (fun k hopens => (hP k hopens).imp_right ?_) hknown, fun key s hs => ?_⟩
    · rintro ⟨entry, hs⟩
      obtain ⟨s', hs', hsame⟩ := hstands k _ hs
      exact ⟨entry.1, entry.2, hs'.opened _ _ (hsame entry rfl)⟩
    · obtain ⟨s1, hs1, hsame1⟩ := hstands key s hs
      obtain ⟨s2, hs2, hsame2⟩ := hlast.stands (fun hd => hknown.size_le hd hlen) hs1
      exact ⟨s2, hs2, fun entry he => hsame2 entry (hsame1 entry he)⟩

end Ledger

namespace Engine

variable {σ : Type} [StorageAdapter σ] {e : Engine σ} {cfg : Config} {t : Turn} {key : String}
variable {n : Nat}

theorem count_window_succ (e : Engine σ) (cfg : Config) (t : Turn) (p : PeerId) (f : FileId)
    (options : Option DirectRequestOptions) (key : String) :
    (e.requestNextPiece cfg t p f options).1.countOutstandingRequestsForWindow key ≤
      e.countOutstandingRequestsForWindow key + 1 := by
  have hpaced : Paced cfg t (Grant.request t p f options) False e
      (e.requestNextPiece cfg t p f options).1 := paced_requestNextPiece p f options le_rfl
  exact hpaced.countWhere_le_succ _

/-- The loop of `requestPieceWindow` asks only below the cap of its window. -/
theorem count_window_fill {ref : Nat} {w : DirectWindow} (p : PeerId) (f : FileId)
    (options : DirectRequestOptions) (scheduled : List ScheduledPiece)
    (hw : e.windowHeap[ref]? = some w) (hcap : w.cap = n)
    (h : e.countOutstandingRequestsForWindow key ≤ n) :
    (e.fillWindow cfg t ref key p f options scheduled).1.countOutstandingRequestsForWindow key ≤
      n := by
  unfold fillWindow
  simp only [hw, hcap, Option.map_some, Option.getD_some]
  split
  · rename_i hlt
    have hlt' : e.countOutstandingRequestsForWindow key < n := by exact_mod_cast hlt
    have hsucc := count_window_succ e cfg t p f
      (some { options with windowKey := some key }) key
    exact hsucc.trans hlt'
  · exact h

/-- A retry asks only below the cap of the window it finds under its key. -/
theorem count_window_retry (x : RequestId) (r : OutstandingRequest) (d : DirectRequest)
    (hcap : ∀ ref w, e.disposed = false → e.window? d.windowKey = some (ref, w) → w.cap = n)
    (h : e.countOutstandingRequestsForWindow d.windowKey ≤ n) :
    (e.retryDirectRequest cfg t x r d).1.countOutstandingRequestsForWindow d.windowKey ≤ n := by
  unfold retryDirectRequest
  split
  · exact h
  · rename_i hlive
    simp only [not_or, Bool.not_eq_true] at hlive
    split
    · exact h
    · rename_i ref w hw
      split
      · exact h
      · split
        · exact h
        · rename_i hroom
          rw [hcap ref w hlive.1 hw] at hroom
          have hlt : e.countOutstandingRequestsForWindow d.windowKey < n := by
            exact_mod_cast not_le.1 hroom
          split
          · exact h
          · rename_i e1 he1
            have htable : e1.outstandingRequests = e.outstandingRequests := by
              split at he1
              · obtain ⟨m, -, rfl⟩ := onManager_spec he1
                rfl
              · cases he1
                rfl
            have hsame : e1.countOutstandingRequestsForWindow d.windowKey =
                e.countOutstandingRequestsForWindow d.windowKey := countWhere_of_table htable _
            have hsucc := count_window_succ e1 cfg t r.peerId r.fileId
              (some ⟨some d.timeoutMs, d.controllerId, some d.windowKey, d.retryCount + 1⟩)
              d.windowKey
            exact hsucc.trans (by omega)

theorem count_windowFilled {ref : Nat} {w : DirectWindow} (p : PeerId) (f : FileId)
    (options : DirectRequestOptions) (scheduled : List ScheduledPiece)
    (outcome : Except Failure Value) (hw : e.windowHeap[ref]? = some w) (hcap : w.cap = n)
    (h : e.countOutstandingRequestsForWindow key ≤ n) :
    (e.windowFilled cfg t ref key p f options scheduled outcome).1.countOutstandingRequestsForWindow
      key ≤ n := by
  unfold windowFilled
  split
  · exact h
  · exact count_window_fill p f options _ hw hcap h
  · exact h
  · exact h

/-- A task of the window's chain keeps the requests under its key below the cap. -/
theorem count_window_task {ref : Nat} {window : DirectWindow} {job : WindowJob}
    {rest : List WindowJob} {result : Engine σ × Next}
    (hr : e.startWindowJob cfg t ref = some result) (hw : e.windowHeap[ref]? = some window)
    (hq : window.queue = job :: rest) (hkey : job.key? = some key) (hcap : window.cap = n)
    (htable : e.disposed = false → e.directWindows.get? key = some ref)
    (h : e.countOutstandingRequestsForWindow key ≤ n) :
    result.1.countOutstandingRequestsForWindow key ≤ n := by
  have hlt := (List.getElem?_eq_some_iff.1 hw).1
  unfold startWindowJob at hr
  simp only [hw, hq] at hr
  split at hr
  · cases hr
  · cases hr
    split
    · exact h
    · have hput : ∀ w, (e.putWindow ref w).windowHeap[ref]? = some w := fun w => by
        simp [putWindow, hlt]
      cases job with
      | fill p f windowKey options =>
        cases hkey
        exact count_window_fill p f options [] (hput _) hcap h
      | retry x r d =>
        cases hkey
        refine count_window_retry x r d (fun ref' w' hd hw' => ?_) h
        have hget : e.directWindows.get? d.windowKey = some ref := htable hd
        simp only [window?, putWindow, hget, List.getElem?_set_self hlt, Option.map_some,
          Option.some.injEq, Prod.mk.injEq] at hw'
        rw [← hw'.2]
        exact hcap
      | expire x => cases hkey

end Engine

/-- Direct requests are made through the windows of these keys. -/
def Call.Keyed (keys : List String) : Call → Prop
  | .requestNextPiece _ _ options => options = none
  | .requestPieceWindow p f options _ =>
    options.windowKey.getD (Engine.defaultWindowKey f p options.controllerId) ∈ keys
  | _ => True

namespace World

variable {σ : Type}

def Keyed (keys : List String) (x : Turn × Action) : Prop :=
  ∀ c, x.2 = .call c → c.Keyed keys

/-- Where a key stands in a world: its fill loops are those of its window, and its requests
do not exceed the cap. -/
structure Stands (w : World σ) (key : String) (s : Option (Nat × Nat)) : Prop where
  ledger : w.engine.ledger.Stands key s
  fills : ∀ ref p f options scheduled, w.Holds (.fillWindow ref key p f options scheduled) →
    ∃ n, s = some (ref, n)
  count : w.engine.countOutstandingRequestsForWindow key ≤ (s.map Prod.snd).getD 0

variable {w : World σ} {key : String} {s : Option (Nat × Nat)} {keys : List String}

/-- What waits for the key waits in the chain of its window. -/
theorem Stands.starts (h : w.Stands key s) {ref : Nat} {job : WindowJob}
    (hs : w.engine.Starts ref job) (hkey : job.key? = some key) : ∃ n, s = some (ref, n) := by
  obtain ⟨window, rest, hw, hq, -⟩ := hs
  refine h.ledger.waits ref window.line ?_ job ?_ hkey
  · simp [Engine.ledger, hw]
  · simp [DirectWindow.line, hq]

theorem Stands.cap {ref n : Nat} (h : w.Stands key (some (ref, n))) :
    ∃ window, w.engine.windowHeap[ref]? = some window ∧ window.cap = n := by
  obtain ⟨line, hline, hcap⟩ := (h.ledger.opened ref n rfl).line
  simp only [Engine.ledger, List.getElem?_map, Option.map_eq_some_iff] at hline
  obtain ⟨window, hw, rfl⟩ := hline
  exact ⟨window, hw, hcap⟩

theorem Stands.cap_of_window {ref : Nat} {window : DirectWindow} (h : w.Stands key s)
    (hd : w.engine.disposed = false) (hw : w.engine.window? key = some (ref, window)) :
    ∃ n : Nat, s = some (ref, n) ∧ window.cap = n := by
  unfold Engine.window? at hw
  split at hw
  · rename_i r hget
    obtain ⟨window', hwindow, heq⟩ := Option.map_eq_some_iff.1 hw
    cases heq
    obtain ⟨n, rfl⟩ := h.ledger.table hd hget
    obtain ⟨window', hwindow', hcap⟩ := h.cap
    obtain rfl : window' = window := Option.some.inj (hwindow'.symm.trans hwindow)
    exact ⟨n, rfl, hcap⟩
  · cases hw

theorem Stands.eq_none (h : w.Stands key s) (hd : w.engine.disposed = false)
    (hw : w.engine.window? key = none) : s = none := by
  cases s with
  | none => rfl
  | some entry =>
    obtain ⟨ref, n⟩ := entry
    have hget : w.engine.directWindows.get? key = some ref := (h.ledger.opened ref n rfl).table hd
    obtain ⟨window, hwindow, -⟩ := h.cap
    simp [Engine.window?, hget, hwindow] at hw

/-- A window is opened for a key in use, or for one that has its window. -/
theorem opens_known (hall : ∀ key, ∃ s, w.Stands key s) {t : Turn} {a : Action}
    (ha : Keyed keys (t, a)) {k : String}
    (h : w.books a (.opens k) ∨ w.engine.leased (.opens k)) :
    k ∈ keys ∨ ∃ entry, w.engine.ledger.Stands k (some entry) := by
  obtain h | h := h
  · cases a with
    | call c =>
      have hc := ha c rfl
      cases c with
      | requestNextPiece p f options =>
        obtain ⟨o, ho, -⟩ := h
        rw [show options = none from hc] at ho
        cases ho
      | requestPieceWindow p f options maxInFlight =>
        cases h
        exact .inl hc
      | _ => exact h.elim
    | resume i =>
      obtain ⟨pending, frame, below, hi, h⟩ := h
      cases frame with
      | fillWindow ref key p f options scheduled =>
        obtain ⟨o, ho, hk⟩ := h
        cases ho
        obtain rfl : k = key := hk
        obtain ⟨s, hs⟩ := hall k
        obtain ⟨n, rfl⟩ := hs.fills ref p f options scheduled
          ⟨_, List.mem_of_getElem? hi, List.mem_cons_self⟩
        exact .inr ⟨_, hs.ledger⟩
      | piecePersisted r outstanding => exact h.elim
      | disposeFlushed => cases h.1
      | _ => exact h.elim
    | window ref =>
      obtain ⟨window, job, rest, hw, hq, h | ⟨hd, -, h⟩⟩ := h
      · cases h
      · have hkey : job.key? = some k := by
          cases job with
          | fill p f key options =>
            obtain ⟨o, ho, hk⟩ := h
            cases ho
            exact congrArg some hk.symm
          | retry x r d =>
            obtain ⟨o, ho, hk⟩ := h
            cases ho
            exact congrArg some hk.symm
          | expire x => exact h.elim
        obtain ⟨s, hs⟩ := hall k
        obtain ⟨n, rfl⟩ := hs.starts ⟨window, rest, hw, hq, hd⟩ hkey
        exact .inr ⟨_, hs.ledger⟩
    | _ => exact h.elim
  · exact h.elim

variable [StorageAdapter σ] {cfg : Config} {t : Turn} {a : Action}

/-- A fill loop that a step leaves is one of the key's window. -/
theorem Stands.step_fills (h : w.Stands key s) {ref : Nat} {p : PeerId} {f : FileId}
    {options : DirectRequestOptions} {scheduled : List ScheduledPiece}
    (hholds : (w.step cfg (t, a)).Holds (.fillWindow ref key p f options scheduled)) :
    ∃ n, s = some (ref, n) := by
  obtain hold | hnew := (step_spec cfg w t a).frames hholds
  · exact h.fills ref p f options scheduled hold
  · obtain rfl | ⟨i, pending, below, key', p', f', options', before, more, rfl, hi, hframe⟩ :=
      grant_works hnew (show Frame.worksFor ref (.fillWindow ref key p f options scheduled) from rfl)
    · obtain ⟨track, hlabel⟩ | ⟨window, job, rest, hw, hq, hd, hjob⟩ := hnew
      · cases hlabel
      · exact h.starts ⟨window, rest, hw, hq, hd⟩ (Grant.windowJob_fill hjob)
    · cases hframe
      exact h.fills ref p f options before ⟨_, List.mem_of_getElem? hi, List.mem_cons_self⟩

/-- A step leaves the requests under a key below the cap: whatever asks under it has looked at
the cap of its window in the same stretch. -/
theorem Stands.step_count (h : w.Stands key s) (ha : Keyed keys (t, a)) :
    (w.step cfg (t, a)).engine.countOutstandingRequestsForWindow key ≤
      (s.map Prod.snd).getD 0 := by
  have hpaced := paced_step cfg w t a False.elim
  obtain hle | ⟨m, id, r, hg, hp, -⟩ := hpaced.countWhere_le_ask
    (p := fun r => (r.direct.map (·.windowKey)) = some key)
  · exact hle.trans h.count
  · obtain ⟨p, f, o, rfl, -⟩ | ⟨ref, job, rfl, hstarts, hkey⟩ |
      ⟨i, ref, pending, below, p, f, options, scheduled, rfl, hi⟩ :=
        grant_ask hg (of_decide_eq_true hp)
    · cases ha _ rfl
    · obtain ⟨n, rfl⟩ := h.starts hstarts hkey
      obtain ⟨window, hw, hcap⟩ := h.cap
      obtain ⟨window', rest, hw', hq, -⟩ := hstarts
      obtain rfl : window' = window := Option.some.inj (hw'.symm.trans hw)
      unfold step
      cases hr : w.engine.startWindowJob cfg t ref with
      | none =>
        simp only [hr, Option.map_none, Option.getD_none]
        exact h.count
      | some result =>
        simp only [hr, Option.map_some, Option.getD_some]
        exact Engine.count_window_task hr hw hq hkey hcap (h.ledger.opened ref n rfl).table
          h.count
    · obtain ⟨n, rfl⟩ := h.fills ref p f options scheduled
        ⟨_, List.mem_of_getElem? hi, List.mem_cons_self⟩
      obtain ⟨window, hw, hcap⟩ := h.cap
      unfold step
      simp only [resumeTask, hi]
      split
      · rename_i outcome ho
        exact Engine.count_windowFilled p f options scheduled outcome hw hcap h.count
      · exact h.count

/-- The windows of a world are those of the keys in use, and every key stands. -/
structure Windows (w : World σ) (keys : List String) : Prop where
  known : w.engine.ledger.Known keys
  stands : ∀ key, ∃ s, w.Stands key s

/-- Under a step every key keeps its window. -/
theorem Windows.step (h : w.Windows keys) (ha : Keyed keys (t, a))
    (hlen : keys.length ≤ cfg.maxDirectMetadataEntries) :
    (w.step cfg (t, a)).Windows keys ∧ ∀ key s, w.Stands key s →
      ∃ s', (w.step cfg (t, a)).Stands key s' ∧ ∀ entry, s = some entry → s' = some entry := by
  have hpost : Ledger.Postings cfg.maxDirectMetadataEntries _ w.engine.ledger
      (w.step cfg (t, a)).engine.ledger := books_step cfg w t a
  obtain ⟨hknown, hledger⟩ := hpost.stands hlen (fun k hk => opens_known h.stands ha hk) h.known
  have hstep : ∀ key s, w.Stands key s →
      ∃ s', (w.step cfg (t, a)).Stands key s' ∧ ∀ entry, s = some entry → s' = some entry := by
    intro key s hs
    obtain ⟨s', hs', hsame⟩ := hledger key s hs.ledger
    refine ⟨s', ⟨hs', fun ref p f options scheduled hholds => ?_, ?_⟩, hsame⟩
    · obtain ⟨n, hn⟩ := hs.step_fills hholds
      exact ⟨n, hsame _ hn⟩
    · have hcount : (w.step cfg (t, a)).engine.countOutstandingRequestsForWindow key ≤
          (s.map Prod.snd).getD 0 := hs.step_count ha
      cases s with
      | none => exact hcount.trans (Nat.zero_le _)
      | some entry =>
        rw [hsame entry rfl]
        exact hcount
  refine ⟨⟨hknown, fun key => ?_⟩, hstep⟩
  obtain ⟨s, hs⟩ := h.stands key
  obtain ⟨s', hs', -⟩ := hstep key s hs
  exact ⟨s', hs'⟩

omit [StorageAdapter σ] in
theorem windows_new (storage : σ) (transport : Bool) (keys : List String) :
    (World.new storage transport).Windows keys := by
  refine ⟨fun _ key ref h => ?_, fun key => ⟨none, ⟨fun _ => rfl, nofun, ?_⟩, ?_, ?_⟩⟩
  · cases h
  · intro ref line hline
    cases hline
  · rintro ref p f options scheduled ⟨task, htask, -⟩
    cases htask
  · exact le_rfl

end World

/-- While direct requests are made through windows, under no more keys than the engine keeps
windows for, those under a key never exceed the cap its window was created with. A key that
has no window has no request either. -/
theorem direct_requests_stay_within_window_cap {σ : Type} [StorageAdapter σ] (cfg : Config)
    (storage : σ) (transport : Bool) (keys : List String) (v w : World σ) (key : String)
    (hlen : keys.length ≤ cfg.maxDirectMetadataEntries)
    (hv : Run (World.step cfg) (fun _ x => World.Keyed keys x) (.new storage transport) v)
    (hw : Run (World.step cfg) (fun _ x => World.Keyed keys x) v w) :
    (v.engine.disposed = false → ∀ ref window, v.engine.window? key = some (ref, window) →
      (w.engine.countOutstandingRequestsForWindow key : Number) ≤ window.cap) ∧
    (w.engine.disposed = false → w.engine.window? key = none →
      w.engine.countOutstandingRequestsForWindow key = 0) := by
  have hall : v.Windows keys := by
    refine hv.invariant (P := fun u => u.Windows keys) (fun u x hu hx => ?_)
      (World.windows_new storage transport keys)
    exact (hu.step hx hlen).1
  obtain ⟨s, hs⟩ := hall.stands key
  have hrun : w.Windows keys ∧ ∃ s', w.Stands key s' ∧ ∀ entry, s = some entry → s' = some entry := by
    refine hw.invariant (P := fun u => u.Windows keys ∧ ∃ s', u.Stands key s' ∧
      ∀ entry, s = some entry → s' = some entry) (fun u x hu hx => ?_) ⟨hall, s, hs, fun _ => id⟩
    obtain ⟨hwindows, s1, hs1, hsame1⟩ := hu
    obtain ⟨hnext, hkeeps⟩ := hwindows.step hx hlen
    obtain ⟨s2, hs2, hsame2⟩ := hkeeps key s1 hs1
    exact ⟨hnext, s2, hs2, fun entry he => hsame2 entry (hsame1 entry he)⟩
  obtain ⟨-, s', hs', hsame⟩ := hrun
  refine ⟨fun hlive ref window hwindow => ?_, fun hlive hnone => ?_⟩
  · obtain ⟨n, rfl, hcap⟩ := hs.cap_of_window hlive hwindow
    have hcount := hs'.count
    rw [hsame _ rfl] at hcount
    rw [hcap]
    exact_mod_cast hcount
  · have hcount := hs'.count
    rw [hs'.eq_none hlive hnone] at hcount
    exact Nat.le_zero.1 hcount

namespace Sample

theorem keyed_resume (i : Nat) : World.Keyed ["k"] (turn, .resume i) := by
  intro c hc
  cases hc

theorem keyed_window (ref : Nat) : World.Keyed ["k"] (turn, .window ref) := by
  intro c hc
  cases hc

theorem keyed_join : World.Keyed ["k"] (turn, .call (.joinSession "s" [pair])) := by
  intro c hc
  cases hc
  trivial

theorem keyed_requestPieceWindow :
    World.Keyed ["k"] (turn, .call (.requestPieceWindow "o" "f" windowOptions none)) := by
  intro c hc
  cases hc
  exact List.mem_cons_self

end Sample

/-- The window of one request at a time asks for one piece, and no more. -/
theorem direct_requests_stay_within_window_cap_sample :
    ∃ window, (steps (World.step Sample.config) Sample.start
      Sample.windowed).engine.window? "k" = some (0, window) ∧
    ((steps (World.step Sample.config) (steps (World.step Sample.config) Sample.start
      Sample.windowed) [(Sample.turn, .window 0), (Sample.turn, .resume 2)]).engine
        |>.countOutstandingRequestsForWindow "k") = 1 ∧
    ((steps (World.step Sample.config) (steps (World.step Sample.config) Sample.start
      Sample.windowed) [(Sample.turn, .window 0), (Sample.turn, .resume 2)]).engine
        |>.countOutstandingRequestsForWindow "k" : Number) ≤ window.cap := by
  refine ⟨_, rfl, by decide +kernel, ?_⟩
  refine (direct_requests_stay_within_window_cap Sample.config MemoryStorageAdapter.empty true
    ["k"] _ _ "k" (by decide) (run_of_allowed ?_) (run_of_allowed ?_)).1 (by decide +kernel) 0 _ rfl
  · exact ⟨Sample.keyed_join, Sample.keyed_resume 0, Sample.keyed_resume 0,
      Sample.keyed_requestPieceWindow, trivial⟩
  · exact ⟨Sample.keyed_window 0, Sample.keyed_resume 2, trivial⟩

end PonsWarp.Core
