import PonsWarp.Core.Step

set_option autoImplicit false

/-!
Replays: a piece under the id of a request that is over. The guard of `receivePiece` knows
such an id from its tombstone or from the form of the ids that the engine makes.
-/

namespace PonsWarp.Core

open PonsWarp.Data

/-- A whole number as a template shows it. -/
def decimal : Int → String
  | .ofNat n => n.repr
  | .negSucc n => "-" ++ (n + 1).repr

/-- `toString(36)` on `Math.random()`. Which digits it gives is left to the implementation. -/
structure Radix36 where
  text : Number → String
  zero : text 0 = "0"
  fraction : ∀ x : Number, 0 < x → x < 1 → ∃ digits : List Char,
    digits ≠ [] ∧ digits.all isLowerAlnum = true ∧ (text x).toList = '0' :: '.' :: digits

/-- `Math.random().toString(36).slice(2)` -/
def Radix36.suffix (radix : Radix36) (random : Number) : String :=
  String.ofList ((radix.text random).toList.drop 2)

/-- `createRequestId`, for every clock. -/
def createRequestId (radix : Radix36) (fileId : FileId) (pieceIndex : Nat) (now : Int)
    (random : Number) : RequestId :=
  "req_" ++ fileId ++ "_" ++ pieceIndex.repr ++ "_" ++ decimal now ++ "_" ++ radix.suffix random

theorem Turn.createRequestId_eq {t : Turn} {radix : Radix36} {random : Number}
    (h : t.random = radix.suffix random) (f : FileId) (i : Nat) :
    t.createRequestId f i = Core.createRequestId radix f i t.now random := by
  simp [Turn.createRequestId, Core.createRequestId, h, decimal]

section Pattern

/-- What was joined with an underscore is read back at the last one. -/
theorem splitLast_append {front tail : List Char} (h : '_' ∉ tail) :
    splitLast (front ++ '_' :: tail) = some (front, tail) := by
  have hno : ∀ c ∈ tail.reverse, (decide (c ≠ '_')) = true := by
    intro c hc
    have hne : c ≠ '_' := by
      rintro rfl
      exact h (List.mem_reverse.1 hc)
    simpa using hne
  have hrev : (front ++ '_' :: tail).reverse = tail.reverse ++ '_' :: front.reverse := by simp
  unfold splitLast
  rw [hrev, List.takeWhile_append_of_pos hno, List.dropWhile_append_of_pos hno]
  simp

theorem not_mem_of_all {p : Char → Bool} {c : Char} {l : List Char} (hc : p c = false)
    (hl : l.all p = true) : c ∉ l := by
  intro hmem
  have hp := List.all_eq_true.1 hl c hmem
  simp [hc] at hp

theorem all_isDigit_repr (n : Nat) : n.repr.toList.all isDigit = true := by
  rw [List.all_eq_true]
  intro c hc
  have hmem : c ∈ Nat.toDigits 10 n := by simpa [Nat.repr] using hc
  simpa [isDigit, Char.isDigit, Char.le_def] using
    Nat.isDigit_of_mem_toDigits (by decide) (by decide) hmem

theorem repr_ne_nil (n : Nat) : n.repr.toList ≠ [] := by
  simp [Nat.repr, Nat.toDigits_ne_nil]

theorem isLowerAlnum_underscore : isLowerAlnum '_' = false := by decide

theorem not_isLineTerminator_of_isDigit {c : Char} (h : isDigit c = true) :
    isLineTerminator c = false := by
  by_contra hterm
  simp only [isLineTerminator, Bool.not_eq_false, Bool.or_eq_true, decide_eq_true_eq] at hterm
  obtain ((rfl | rfl) | rfl) | rfl := hterm <;> revert h <;> decide

theorem Radix36.suffix_zero (radix : Radix36) : radix.suffix 0 = "" := by
  simp [Radix36.suffix, radix.zero]

theorem Radix36.suffix_pos (radix : Radix36) {x : Number} (h0 : 0 < x) (h1 : x < 1) :
    (radix.suffix x).toList ≠ [] ∧ (radix.suffix x).toList.all isLowerAlnum = true := by
  obtain ⟨digits, hne, hall, htext⟩ := radix.fraction x h0 h1
  simp [Radix36.suffix, htext, hne, hall]

theorem Radix36.not_mem_suffix (radix : Radix36) {x : Number} (h0 : 0 ≤ x) (h1 : x < 1) :
    '_' ∉ (radix.suffix x).toList := by
  obtain hx | hx := h0.eq_or_lt
  · simp [← hx, radix.suffix_zero]
  · exact not_mem_of_all isLowerAlnum_underscore (radix.suffix_pos hx h1).2

theorem all_isDigit_decimal (now : Int) : (decimal now).toList.all isDigit = true ↔ 0 ≤ now := by
  cases now with
  | ofNat n =>
    have hall := all_isDigit_repr n
    simp_all [decimal]
  | negSucc n =>
    have hminus : isDigit '-' = false := by decide
    simp [decimal, hminus]

theorem decimal_ne_nil (now : Int) : (decimal now).toList ≠ [] := by
  cases now with
  | ofNat n => exact repr_ne_nil n
  | negSucc n => simp [decimal]

theorem not_mem_decimal (now : Int) : '_' ∉ (decimal now).toList := by
  cases now with
  | ofNat n => exact not_mem_of_all (by decide) (all_isDigit_repr n)
  | negSucc n =>
    simp [decimal]

/-- The pattern on a text that is put together from the right parts. -/
theorem isEngineGeneratedRequestId_eq {id : RequestId} {front time random : List Char}
    (hid : id.toList = ('r' :: 'e' :: 'q' :: '_' :: front ++ '_' :: time) ++ '_' :: random)
    (htime : '_' ∉ time) (hrandom : '_' ∉ random) :
    isEngineGeneratedRequestId id = (!random.isEmpty && random.all isLowerAlnum &&
      !time.isEmpty && time.all isDigit && !front.isEmpty &&
        front.all fun c => !isLineTerminator c) := by
  unfold isEngineGeneratedRequestId
  rw [hid, splitLast_append hrandom]
  simp only [splitLast_append htime]
  simp

theorem no_terminators_iff (f : FileId) (i : Nat) :
    ((f.toList ++ '_' :: i.repr.toList).all fun c => !isLineTerminator c) = true ↔
      ∀ c ∈ f.toList, isLineTerminator c = false := by
  have hindex : ∀ c ∈ i.repr.toList, isLineTerminator c = false := fun c hc =>
    not_isLineTerminator_of_isDigit (List.all_eq_true.1 (all_isDigit_repr i) c hc)
  have hunderscore : isLineTerminator '_' = false := by decide
  simp only [List.all_eq_true, List.mem_append, List.mem_cons, Bool.not_eq_true']
  constructor
  · intro h c hc
    exact h c (.inl hc)
  · rintro h c (hc | rfl | hc)
    · exact h c hc
    · exact hunderscore
    · exact hindex c hc

/-- The pattern knows an id of the engine by what went into it. -/
theorem isEngineGeneratedRequestId_createRequestId (radix : Radix36) (f : FileId) (i : Nat)
    (now : Int) {x : Number} (h0 : 0 ≤ x) (h1 : x < 1) :
    isEngineGeneratedRequestId (createRequestId radix f i now x) = true ↔
      0 ≤ now ∧ x ≠ 0 ∧ ∀ c ∈ f.toList, isLineTerminator c = false := by
  have hid : (createRequestId radix f i now x).toList =
      ('r' :: 'e' :: 'q' :: '_' :: (f.toList ++ '_' :: i.repr.toList) ++
        '_' :: (decimal now).toList) ++ '_' :: (radix.suffix x).toList := by
    simp [createRequestId]
  have hsuffix : (radix.suffix x).toList ≠ [] ∧
      (radix.suffix x).toList.all isLowerAlnum = true ↔ x ≠ 0 := by
    constructor
    · rintro ⟨hne, -⟩ rfl
      simp [radix.suffix_zero] at hne
    · intro hx
      exact radix.suffix_pos (h0.lt_of_ne' hx) h1
  rw [isEngineGeneratedRequestId_eq hid (not_mem_decimal now) (radix.not_mem_suffix h0 h1)]
  simp only [Bool.and_eq_true, no_terminators_iff, all_isDigit_decimal, Bool.not_eq_true',
    List.isEmpty_eq_false_iff, hsuffix]
  have hfront : f.toList ++ '_' :: i.repr.toList ≠ [] := by simp
  constructor
  · rintro ⟨⟨⟨⟨hx, -⟩, hnow⟩, -⟩, hf⟩
    exact ⟨hnow, hx, hf⟩
  · rintro ⟨hnow, hx, hf⟩
    exact ⟨⟨⟨⟨hx, decimal_ne_nil now⟩, hnow⟩, hfront⟩, hf⟩

end Pattern

namespace Engine

variable {σ : Type} {e : Engine σ}

/-- The piece is one of a file that the engine has. -/
def KnowsPiece (e : Engine σ) (f : FileId) (index : Number) : Prop :=
  ∃ manifest i ref, e.manifests.get? f = some manifest ∧ index.index? = some i ∧
    i < manifest.pieces.length ∧ e.managers.get? f = some ref

variable [StorageAdapter σ] {cfg : Config} {t : Turn} {f : FileId} {index : Number}
  {id : RequestId} {data : ArrayBuffer} {expected : Option PeerId}

/-- The call ends with the reject and has changed nothing: at once, or when the data has been
hashed and the id is still that of no open request. -/
def Refuses (e : Engine σ) (cfg : Config) (f : FileId) (index : Number) (id : RequestId)
    (data : ArrayBuffer) (expected : Option PeerId) : Prop :=
  match e.receivePiece cfg f index id data expected with
  | (e', .done outcome) => e' = e ∧ outcome = .ok (unauthorized f index id)
  | (e', .await pending frames) => e' = e ∧ ∃ frame, frames = [frame] ∧
      ∀ (t : Turn) (later : Engine σ) (outcome : Except Failure Value),
        later.outstandingRequests.get? id = none → later.outcome pending = some outcome →
        later.resume cfg t outcome frame = (later, .ok (unauthorized f index id))

omit [StorageAdapter σ] in
/-- Without the guard the data is hashed, when the piece is known. -/
theorem receivePiece_known (cfg : Config) (data : ArrayBuffer) (expected : Option PeerId)
    (hguard : ¬ (id ∈ e.directTombstones ∨
      (isEngineGeneratedRequestId id ∧ ¬ e.outstandingRequests.has id)))
    (h : e.KnowsPiece f index) :
    ∃ (i ref : Nat) (d : PieceDescriptor), index = (i : Number) ∧
      e.receivePiece cfg f index id data expected =
        (e, .await (.settled (.ok (.bool (verifyPiece cfg.hash data d))))
          [.pieceChecked ⟨f, i, id, data, expected, d, ref⟩]) := by
  obtain ⟨manifest, i, ref, hmanifest, hindex, hlt, href⟩ := h
  refine ⟨i, ref, manifest.pieces[i], Number.index?_eq_some.1 hindex, ?_⟩
  unfold receivePiece
  rw [if_neg hguard]
  simp [requireManifest, hmanifest, hindex, hlt, requireManager, href]

omit [StorageAdapter σ] in
theorem receivePiece_unknown (cfg : Config) (data : ArrayBuffer) (expected : Option PeerId)
    (hguard : ¬ (id ∈ e.directTombstones ∨
      (isEngineGeneratedRequestId id ∧ ¬ e.outstandingRequests.has id)))
    (h : ¬ e.KnowsPiece f index) :
    ∃ err, e.receivePiece cfg f index id data expected = (e, .throw err) := by
  unfold receivePiece
  rw [if_neg hguard]
  cases hmanifest : e.manifests.get? f with
  | none => exact ⟨_, by simp [requireManifest, hmanifest]; rfl⟩
  | some manifest =>
    simp only [requireManifest, hmanifest]
    split
    · exact ⟨_, rfl⟩
    · rename_i i d hpiece
      obtain ⟨j, hindex, hpiece⟩ := Option.bind_eq_some_iff.1 hpiece
      obtain ⟨d', hd, heq⟩ := Option.map_eq_some_iff.1 hpiece
      cases href : e.managers.get? f with
      | none => exact ⟨_, by simp [requireManager, href]; rfl⟩
      | some ref =>
        have hlt := (List.getElem?_eq_some_iff.1 hd).1
        exact absurd ⟨manifest, j, ref, hmanifest, hindex, hlt, href⟩ h

/-- A piece that nobody in particular is expected to send is taken or marked as corrupt. -/
theorem pieceChecked_ne_ok {r : Receipt} (h : r.expectedPeerId = none) (verified : Bool)
    (v : Value) : (e.pieceChecked cfg t r verified).2 ≠ .ok v := by
  have hstill : e.stillExpected r = true := by simp [stillExpected, h]
  unfold pieceChecked
  simp only [hstill, not_true_eq_false, if_false]
  cases verified with
  | false =>
    simp only [Bool.false_eq_true, not_false_eq_true, if_true, Next.ok, Next.throw]
    split
    · simp
    · split
      · simp
      · simp only [storageCall]
        split <;> simp [Next.andThen]
  | true =>
    simp only [not_true_eq_false, if_false, Next.ok, storageCall]
    split <;> simp [Next.andThen]

omit [StorageAdapter σ] in
theorem not_stillExpected {r : Receipt} {p : PeerId} (h : r.expectedPeerId = some p)
    (hgone : e.outstandingRequests.get? r.requestId = none) : e.stillExpected r = false := by
  simp [stillExpected, h, isExactActiveRequest, hgone]

/-- Without the guard the call is refused only for a peer that was expected. -/
theorem refuses_unguarded (hguard : ¬ (id ∈ e.directTombstones ∨
      (isEngineGeneratedRequestId id ∧ ¬ e.outstandingRequests.has id)))
    (hgone : e.outstandingRequests.get? id = none) :
    e.Refuses cfg f index id data expected ↔ expected ≠ none ∧ e.KnowsPiece f index := by
  unfold Refuses
  by_cases hknows : e.KnowsPiece f index
  · obtain ⟨i, ref, d, rfl, hreceive⟩ :=
      receivePiece_known cfg data expected hguard hknows
    rw [hreceive]
    simp only [true_and, List.cons.injEq, and_true, exists_eq_left', hknows]
    constructor
    · rintro h rfl
      exact pieceChecked_ne_ok rfl _ _ (congrArg Prod.snd (h Sample.turn e _ hgone rfl))
    · intro hexpected t later outcome hlater houtcome
      obtain ⟨p, rfl⟩ := Option.ne_none_iff_exists'.1 hexpected
      cases houtcome
      have hstill : later.stillExpected ⟨f, i, id, data, some p, d, ref⟩ = false :=
        not_stillExpected rfl hlater
      simp [resume, pieceChecked, hstill, rejectReceipt, unauthorized]
  · obtain ⟨err, hreceive⟩ :=
      receivePiece_unknown cfg data expected hguard hknows
    rw [hreceive]
    simp [Next.throw, hknows]

end Engine

/-- A piece under an id of the engine whose request is over is refused exactly if the id still
has a tombstone, or is one that the pattern knows, or the piece was expected from a peer. -/
theorem replay_is_refused_iff {σ : Type} [StorageAdapter σ] (cfg : Config) (e : Engine σ)
    (radix : Radix36) (f : FileId) (i : Nat) (now : Int) (random : Number) (h0 : 0 ≤ random)
    (h1 : random < 1)
    (hgone : e.outstandingRequests.get? (createRequestId radix f i now random) = none)
    (g : FileId) (index : Number) (data : ArrayBuffer) (expected : Option PeerId) :
    e.Refuses cfg g index (createRequestId radix f i now random) data expected ↔
      createRequestId radix f i now random ∈ e.directTombstones ∨
      (0 ≤ now ∧ random ≠ 0 ∧ ∀ c ∈ f.toList, isLineTerminator c = false) ∨
      (expected ≠ none ∧ e.KnowsPiece g index) := by
  have hpattern := isEngineGeneratedRequestId_createRequestId radix f i now h0 h1
  generalize hid : createRequestId radix f i now random = id at *
  rw [← hpattern]
  have hhas : e.outstandingRequests.has id = false := OrderedMap.has_eq_false_iff.2 hgone
  by_cases hguard : id ∈ e.directTombstones ∨
      (isEngineGeneratedRequestId id ∧ ¬ e.outstandingRequests.has id)
  · have hrefused : e.Refuses cfg g index id data expected := by
      unfold Engine.Refuses Engine.receivePiece
      rw [if_pos hguard]
      exact ⟨rfl, rfl⟩
    have hknown : id ∈ e.directTombstones ∨ isEngineGeneratedRequestId id = true :=
      hguard.imp_right And.left
    exact iff_of_true hrefused (hknown.imp_right .inl)
  · have hunknown : id ∉ e.directTombstones ∧ ¬ isEngineGeneratedRequestId id = true := by
      simpa [hhas] using hguard
    rw [Engine.refuses_unguarded hguard hgone]
    constructor
    · exact fun h => .inr (.inr h)
    · rintro (h | h | h)
      · exact absurd h hunknown.1
      · exact absurd h hunknown.2
      · exact h

namespace Sample

/-- One half is `0.i` in base 36. -/
def radix : Radix36 where
  text x := if x = 0 then "0" else "0.i"
  zero := rfl
  fraction x h0 _ := ⟨['i'], by decide, by decide, by simp [h0.ne']⟩

def receipt (id : RequestId) : List (Turn × Action) :=
  joined ++ [(turn, .call (.receivePiece "f" 0 id [1] none)), (turn, .resume 1), (turn, .resume 1),
    (turn, .resume 1), (turn, .resume 1)]

end Sample

theorem replay_is_refused_iff_sample :
    (steps (World.step Sample.config) Sample.start Sample.joined).engine.Refuses Sample.config "f" 0
      (createRequestId Sample.radix "f" 0 0 (1 / 2)) [1] none :=
  (replay_is_refused_iff Sample.config _ Sample.radix "f" 0 0 (1 / 2) (by decide +kernel)
    (by decide +kernel) (by decide +kernel) "f" 0 [1] none).2
    (.inr (.inl ⟨le_rfl, by decide +kernel, by simp [isLineTerminator]⟩))

/-- An id that ends in no digits is that of no engine, and the piece under it is taken. -/
theorem replay_is_taken :
    (steps (World.step Sample.config) Sample.start Sample.joined).engine.outstandingRequests.get?
        (createRequestId Sample.radix "f" 0 0 0) = none ∧
    ¬ (steps (World.step Sample.config) Sample.start Sample.joined).engine.Refuses Sample.config
        "f" 0 (createRequestId Sample.radix "f" 0 0 0) [1] none ∧
    (steps (World.step Sample.config) Sample.start
        (Sample.receipt (createRequestId Sample.radix "f" 0 0 0))).engine.status? "f" 0 =
      some .verified := by
  refine ⟨by decide +kernel, ?_, by decide +kernel⟩
  rw [Engine.refuses_unguarded (by decide +kernel) (by decide +kernel)]
  simp

end PonsWarp.Core
