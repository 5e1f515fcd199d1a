import PonsWarp.Core.PieceCounts
import PonsWarp.Data.Newest

set_option autoImplicit false

/-!
Piece maps arriving at an availability table. For each peer and file the table is a
register that keeps the map with the highest generation: of any deliveries in any
order, what the peer is listed for is what its newest map says.
-/

namespace PonsWarp.Core

open PonsWarp.Data

/-- The entry of a peer for a piece of the file. -/
def AvailabilityFile.provider? (file : AvailabilityFile) (i : Nat) (p : PeerId) :
    Option ProviderState :=
  (file.pieces[i]?).bind fun piece => piece.providers.get? p

theorem AvailabilityFile.provider?_modifyPiece (file : AvailabilityFile) (i j : Nat)
    (provider : ProviderState) (p : PeerId) :
    (file.modifyPiece i fun q =>
      { q with providers := q.providers.set provider.peerId provider }).provider? j p =
      if p = provider.peerId ∧ i = j ∧ j < file.pieces.length then some provider
      else file.provider? j p := by
  by_cases hij : i = j
  · subst hij
    cases hp : file.pieces[i]? with
    | none =>
      have hge : file.pieces.length ≤ i := List.getElem?_eq_none_iff.1 hp
      simp [provider?, AvailabilityFile.modifyPiece, not_lt.2 hge]
    | some q =>
      have hlt : i < file.pieces.length := (List.getElem?_eq_some_iff.1 hp).1
      by_cases hpeer : p = provider.peerId
      · simp [provider?, AvailabilityFile.modifyPiece, hlt, hpeer]
      · simp [provider?, AvailabilityFile.modifyPiece, hp, hpeer, OrderedMap.get?_set]
  · simp [provider?, AvailabilityFile.modifyPiece, List.getElem?_modify_ne _ _ hij, hij]

namespace PieceAvailabilityTable

/-- The entry that lists a peer as provider of a piece. -/
def provider? (t : PieceAvailabilityTable) (f : FileId) (i : Nat) (p : PeerId) :
    Option ProviderState :=
  (t.files.get? f).bind fun file => file.provider? i p

/-- The generation of the last map of a peer that was taken. -/
def generation? (t : PieceAvailabilityTable) (f : FileId) (p : PeerId) : Option Number :=
  (t.files.get? f).bind fun file => file.generations.get? p

end PieceAvailabilityTable

/-- A piece map that reaches the table, as `updatePeerPieceMap` is called with it. -/
structure Delivery where
  peerId : PeerId
  role : PeerRole
  map : PieceMapBroadcast
  healthScore : Number
  deriving DecidableEq, Repr

/-- The entry a delivery makes for its pieces. -/
def Delivery.provider (d : Delivery) : ProviderState :=
  ⟨d.peerId, d.role, d.map.updatedAt, d.map.updatedAt + 30000, d.healthScore⟩

namespace PieceAvailabilityTable

/-- What is thrown at the caller leaves the table as it is. -/
def deliver (t : PieceAvailabilityTable) (d : Delivery) : PieceAvailabilityTable :=
  match t.updatePeerPieceMap d.peerId d.role d.map d.healthScore with
  | .ok (_, t') => t'
  | .error _ => t

def deliverAll (t : PieceAvailabilityTable) (ds : List Delivery) : PieceAvailabilityTable :=
  ds.foldl deliver t

/-- A map replaces the entries of its peer and leaves those of the others. -/
theorem AvailabilityFile.provider?_advertise (file : AvailabilityFile) (provider : ProviderState)
    (verifiedPieces : List Number) (generation : Number) (j : Nat) (p : PeerId) :
    (AvailabilityFile.advertise file provider verifiedPieces generation).provider? j p =
      if p = provider.peerId then
        if (j : Number) ∈ verifiedPieces ∧ j < file.pieceCount then some provider else none
      else file.provider? j p := by
  simp only [AvailabilityFile.advertise]
  generalize hc : ({ file with pieces := _, sized := _ } : AvailabilityFile) = cleared
  have hcleared : cleared.provider? j p =
      if p = provider.peerId then none else file.provider? j p := by
    rw [← hc]
    simp only [AvailabilityFile.provider?, List.getElem?_map]
    cases file.pieces[j]? with
    | none => simp
    | some q => simp [OrderedMap.get?_delete]
  have hlength : cleared.pieces.length = file.pieceCount := by
    rw [← hc]
    simp [file.sized]
  have hright : (if p = provider.peerId then
      if (j : Number) ∈ verifiedPieces ∧ j < file.pieceCount then some provider else none
      else file.provider? j p) =
      if p = provider.peerId ∧ (j : Number) ∈ verifiedPieces ∧ j < file.pieceCount then
        some provider
      else cleared.provider? j p := by
    rw [hcleared]
    by_cases hpeer : p = provider.peerId <;> simp [hpeer]
  rw [hright]
  clear hc hcleared hright
  induction verifiedPieces generalizing cleared with
  | nil => simp [AvailabilityFile.provider?]
  | cons x rest ih =>
    simp only [List.foldl_cons]
    rw [ih]
    · cases hx : x.index? with
      | none =>
        have hne : (j : Number) ≠ x := by
          rintro rfl
          simp at hx
        simp [hne]
      | some i =>
        obtain rfl := Number.index?_eq_some.1 hx
        simp only [AvailabilityFile.provider?_modifyPiece, hlength, List.mem_cons, Nat.cast_inj]
        by_cases hpeer : p = provider.peerId
        · by_cases hij : i = j
          · subst hij
            by_cases hlt : i < file.pieceCount <;> simp [hpeer, hlt]
          · have hji : ¬ j = i := fun h => hij h.symm
            simp [hpeer, hij, hji]
        · simp [hpeer]
    · cases hx : x.index? with
      | none => exact hlength
      | some i => simpa [AvailabilityFile.modifyPiece] using hlength

theorem generations_advertise (file : AvailabilityFile) (provider : ProviderState)
    (verifiedPieces : List Number) (generation : Number) :
    (AvailabilityFile.advertise file provider verifiedPieces generation).generations =
      file.generations.set provider.peerId generation := by
  simp only [AvailabilityFile.advertise]
  generalize hc : ({ file with pieces := _, sized := _ } : AvailabilityFile) = cleared
  have hcleared : cleared.generations = file.generations := by rw [← hc]
  rw [← hcleared]
  clear hc hcleared
  induction verifiedPieces generalizing cleared with
  | nil => rfl
  | cons x rest ih =>
    simp only [List.foldl_cons]
    rw [ih]
    cases x.index? with
    | none => rfl
    | some i => rfl

/-- The map is well formed, counts the pieces the table counts, and is newer than what the
table has of its peer. -/
structure Takes (t : PieceAvailabilityTable) (d : Delivery) : Prop where
  valid : validateBroadcast d.map = .ok ()
  room : ∀ n, t.count d.map.fileId = some n → n = d.map.totalPieces.index?.getD 0
  fresh : ∀ g, t.generation? d.map.fileId d.peerId = some g → g < d.map.generation

/-- `t'` differs from `t` in what is listed of the peer of the delivery for its file, and
that is what the map says. -/
structure Taken (t : PieceAvailabilityTable) (d : Delivery) (t' : PieceAvailabilityTable) :
    Prop where
  count : ∀ f, t'.count f =
    if f = d.map.fileId then some (d.map.totalPieces.index?.getD 0) else t.count f
  generation : ∀ f p, t'.generation? f p =
    if f = d.map.fileId ∧ p = d.peerId then some d.map.generation else t.generation? f p
  provider : ∀ f i p, t'.provider? f i p =
    if f = d.map.fileId ∧ p = d.peerId then
      if (i : Number) ∈ d.map.verifiedPieces then some d.provider else none
    else t.provider? f i p

theorem deliver_refused {t : PieceAvailabilityTable} {d : Delivery} (h : ¬ t.Takes d) :
    t.deliver d = t := by
  unfold deliver updatePeerPieceMap
  cases hvalid : validateBroadcast d.map with
  | error err => rfl
  | ok u =>
    simp only
    cases hfile : t.ensureFile d.map.fileId (d.map.totalPieces.index?.getD 0) with
    | error err => rfl
    | ok r =>
      obtain ⟨file, t1⟩ := r
      obtain ⟨hold, rfl, hcount⟩ | ⟨hnone, rfl, rfl⟩ := ensureFile_spec hfile
      · simp only
        cases hprevious : file.generations.get? d.peerId with
        | none =>
          refine absurd ⟨hvalid, fun n hn => ?_, fun g hg => ?_⟩ h
          · simpa [PieceAvailabilityTable.count, hold, hcount] using hn.symm
          · simp [generation?, hold, hprevious] at hg
        | some previous =>
          by_cases hstale : d.map.generation ≤ previous
          · simp only [if_pos hstale]
          · refine absurd ⟨hvalid, fun n hn => ?_, fun g hg => ?_⟩ h
            · simpa [PieceAvailabilityTable.count, hold, hcount] using hn.symm
            · simp only [generation?, hold, Option.bind_some, hprevious, Option.some.injEq] at hg
              rw [← hg]
              exact not_le.1 hstale
      · refine absurd ⟨hvalid, fun n hn => ?_, fun g hg => ?_⟩ h
        · simp [PieceAvailabilityTable.count, hnone] at hn
        · simp [generation?, hnone] at hg

/-- The table after a map is advertised in the entry it has, or makes, for its file. -/
theorem taken_advertise {t t1 : PieceAvailabilityTable} {d : Delivery} {file : AvailabilityFile}
    (hvalid : validateBroadcast d.map = .ok ())
    (hfile : t.ensureFile d.map.fileId (d.map.totalPieces.index?.getD 0) = .ok (file, t1)) :
    Taken t d ⟨t1.files.set d.map.fileId (AvailabilityFile.advertise file d.provider
      d.map.verifiedPieces d.map.generation)⟩ := by
  have hbelow : ∀ i : Nat, (i : Number) ∈ d.map.verifiedPieces →
      i < d.map.totalPieces.index?.getD 0 := by
    intro i hi
    have hlt := sortedInRange_lt (validateBroadcast_eq_ok.1 hvalid).2.2 hi
    rw [totalPieces_of_valid hvalid] at hlt
    exact_mod_cast hlt
  -- what the entry says before, which a new one shares with a file the table lacks
  have hentry : file.pieceCount = d.map.totalPieces.index?.getD 0 ∧
      (∀ p, file.generations.get? p = t.generation? d.map.fileId p) ∧
      (∀ i p, file.provider? i p = t.provider? d.map.fileId i p) ∧
      ∀ f, f ≠ d.map.fileId → t1.files.get? f = t.files.get? f := by
    obtain ⟨hold, rfl, hcount⟩ | ⟨hnone, rfl, rfl⟩ := ensureFile_spec hfile
    · exact ⟨hcount, fun p => by simp [generation?, hold], fun i p => by simp [provider?, hold],
        fun f _ => rfl⟩
    · refine ⟨rfl, fun p => by simp [generation?, hnone, AvailabilityFile.new], fun i p => ?_,
        fun f hf => OrderedMap.get?_set_of_ne _ _ hf⟩
      simp only [provider?, hnone, AvailabilityFile.provider?, AvailabilityFile.new,
        Option.bind_none]
      rw [List.getElem?_replicate]
      split <;> simp
  obtain ⟨hcount, hgeneration, hprovider, hother⟩ := hentry
  constructor
  · intro f
    by_cases hf : f = d.map.fileId
    · subst hf
      simp [PieceAvailabilityTable.count, pieceCount_advertise, hcount]
    · simp [PieceAvailabilityTable.count, OrderedMap.get?_set_of_ne _ _ hf, hother f hf, hf]
  · intro f p
    by_cases hf : f = d.map.fileId
    · subst hf
      simp only [generation?, OrderedMap.get?_set_self, Option.bind_some, generations_advertise,
        OrderedMap.get?_set, true_and]
      rw [hgeneration]
      rfl
    · simp [generation?, OrderedMap.get?_set_of_ne _ _ hf, hother f hf, hf]
  · intro f i p
    by_cases hf : f = d.map.fileId
    · subst hf
      simp only [provider?, OrderedMap.get?_set_self, Option.bind_some,
        AvailabilityFile.provider?_advertise, hcount, true_and]
      rw [hprovider]
      have hlisted : ((i : Number) ∈ d.map.verifiedPieces ∧
          i < d.map.totalPieces.index?.getD 0) ↔ (i : Number) ∈ d.map.verifiedPieces :=
        ⟨And.left, fun h => ⟨h, hbelow i h⟩⟩
      simp only [hlisted]
      rfl
    · simp [provider?, OrderedMap.get?_set_of_ne _ _ hf, hother f hf, hf]

theorem deliver_taken {t : PieceAvailabilityTable} {d : Delivery} (h : t.Takes d) :
    Taken t d (t.deliver d) := by
  obtain ⟨file, t1, hfile⟩ : ∃ file t1, t.ensureFile d.map.fileId
      (d.map.totalPieces.index?.getD 0) = .ok (file, t1) := by
    unfold ensureFile
    cases hold : t.files.get? d.map.fileId with
    | none => exact ⟨_, _, rfl⟩
    | some file =>
      have hcount := h.room file.pieceCount (by simp [PieceAvailabilityTable.count, hold])
      exact ⟨file, t, by simp [hcount]⟩
  have hresult := taken_advertise h.valid hfile
  have hprevious : ∀ g, file.generations.get? d.peerId = some g → ¬ d.map.generation ≤ g := by
    intro g hg
    obtain ⟨hold, -⟩ | ⟨-, rfl, -⟩ := ensureFile_spec hfile
    · exact not_le.2 (h.fresh g (by simp [generation?, hold, hg]))
    · simp [AvailabilityFile.new] at hg
  unfold deliver updatePeerPieceMap
  simp only [h.valid, hfile]
  cases hold : file.generations.get? d.peerId with
  | none => exact hresult
  | some g =>
    simp only [if_neg (hprevious g hold)]
    exact hresult

/-- A delivery changes nothing of another peer, and nothing of another file. -/
theorem deliver_other (t : PieceAvailabilityTable) (d : Delivery) {f : FileId} {p : PeerId}
    (h : ¬ (f = d.map.fileId ∧ p = d.peerId)) :
    (t.deliver d).generation? f p = t.generation? f p ∧
      ∀ i, (t.deliver d).provider? f i p = t.provider? f i p := by
  by_cases htakes : t.Takes d
  · obtain ⟨-, hgeneration, hprovider⟩ := deliver_taken htakes
    refine ⟨?_, fun i => ?_⟩
    · rw [hgeneration, if_neg h]
    · rw [hprovider, if_neg h]
  · rw [deliver_refused htakes]
    exact ⟨rfl, fun _ => rfl⟩

theorem count_deliver {t : PieceAvailabilityTable} {f : FileId} {n : Nat} (d : Delivery)
    (h : t.count f = some n) : (t.deliver d).count f = some n := by
  by_cases htakes : t.Takes d
  · rw [(deliver_taken htakes).count]
    split
    · rename_i hf
      subst hf
      rw [htakes.room n h]
    · exact h
  · rw [deliver_refused htakes]
    exact h

/-- The piece count of a file is fixed once it is there. -/
theorem count_deliverAll {t : PieceAvailabilityTable} {f : FileId} {n : Nat} (ds : List Delivery)
    (h : t.count f = some n) : (t.deliverAll ds).count f = some n := by
  induction ds generalizing t with
  | nil => exact h
  | cons d rest ih => exact ih (count_deliver d h)

/-- What the table has of a peer for a file is what the register holds. -/
structure Shows (t : PieceAvailabilityTable) (f : FileId) (p : PeerId)
    (r : Option (Number × PieceMapBroadcast)) : Prop where
  generation : t.generation? f p = r.map Prod.fst
  listed : ∀ i : Nat, (t.provider? f i p).isSome = true ↔
    ∃ x, r = some x ∧ (i : Number) ∈ x.2.verifiedPieces

theorem Shows.deliver_other {t : PieceAvailabilityTable} {f : FileId} {p : PeerId}
    {r : Option (Number × PieceMapBroadcast)} (hs : t.Shows f p r) (d : Delivery)
    (h : ¬ (f = d.map.fileId ∧ p = d.peerId)) : (t.deliver d).Shows f p r := by
  obtain ⟨hgeneration, hprovider⟩ := PieceAvailabilityTable.deliver_other t d h
  constructor
  · rw [hgeneration]
    exact hs.generation
  · intro i
    rw [hprovider]
    exact hs.listed i

/-- A well-formed map of the peer is an offer to its register. -/
theorem Shows.offer {t : PieceAvailabilityTable} {d : Delivery}
    {r : Option (Number × PieceMapBroadcast)} (hs : t.Shows d.map.fileId d.peerId r)
    (hvalid : validateBroadcast d.map = .ok ())
    (hroom : ∀ n, t.count d.map.fileId = some n → n = d.map.totalPieces.index?.getD 0) :
    (t.deliver d).Shows d.map.fileId d.peerId (Data.offer r (d.map.generation, d.map)) := by
  by_cases hfresh : ∀ g, t.generation? d.map.fileId d.peerId = some g → g < d.map.generation
  · obtain ⟨-, hgeneration, hprovider⟩ := deliver_taken ⟨hvalid, hroom, hfresh⟩
    have hoffer : Data.offer r (d.map.generation, d.map) = some (d.map.generation, d.map) := by
      cases r with
      | none => rfl
      | some held =>
        have hlt := hfresh held.1 hs.generation
        simp [Data.offer, not_le.2 hlt]
    rw [hoffer]
    constructor
    · simp [hgeneration]
    · intro i
      rw [hprovider, if_pos ⟨rfl, rfl⟩]
      split
      · rename_i hi
        simp [hi]
      · rename_i hi
        simp [hi]
  · obtain ⟨g, hg, hle⟩ : ∃ g, t.generation? d.map.fileId d.peerId = some g ∧
        d.map.generation ≤ g := by
      simpa only [not_forall, not_lt, exists_prop] using hfresh
    have hoffer : Data.offer r (d.map.generation, d.map) = r := by
      rw [hs.generation] at hg
      obtain ⟨held, rfl, rfl⟩ := Option.map_eq_some_iff.1 hg
      simp [Data.offer, hle]
    rw [hoffer, deliver_refused fun h => hfresh h.fresh]
    exact hs

/-- The maps of a peer for a file among the deliveries, with their generations. -/
def offers (f : FileId) (p : PeerId) (ds : List Delivery) : List (Number × PieceMapBroadcast) :=
  ds.filterMap fun d =>
    if f = d.map.fileId ∧ p = d.peerId then some (d.map.generation, d.map) else none

/-- The table refines a register for each peer and file. -/
theorem Shows.deliverAll {t : PieceAvailabilityTable} {f : FileId} {p : PeerId}
    {r : Option (Number × PieceMapBroadcast)} {ds : List Delivery} (hs : t.Shows f p r)
    (hmaps : ∀ d ∈ ds, f = d.map.fileId ∧ p = d.peerId → validateBroadcast d.map = .ok () ∧
      ∀ n, (t.deliverAll ds).count f = some n → n = d.map.totalPieces.index?.getD 0) :
    (t.deliverAll ds).Shows f p ((offers f p ds).foldl Data.offer r) := by
  induction ds generalizing t r with
  | nil => exact hs
  | cons d rest ih =>
    have hrest : ∀ d' ∈ rest, f = d'.map.fileId ∧ p = d'.peerId →
        validateBroadcast d'.map = .ok () ∧ ∀ n, ((t.deliver d).deliverAll rest).count f = some n →
          n = d'.map.totalPieces.index?.getD 0 :=
      fun d' hd' => hmaps d' (List.mem_cons_of_mem d hd')
    by_cases hd : f = d.map.fileId ∧ p = d.peerId
    · obtain ⟨hvalid, hcount⟩ := hmaps d List.mem_cons_self hd
      obtain ⟨rfl, rfl⟩ := hd
      have hroom : ∀ n, t.count d.map.fileId = some n →
          n = d.map.totalPieces.index?.getD 0 :=
        fun n hn => hcount n (count_deliverAll (d :: rest) hn)
      have hoffers : offers d.map.fileId d.peerId (d :: rest) =
          (d.map.generation, d.map) :: offers d.map.fileId d.peerId rest := by
        simp [offers]
      rw [hoffers]
      exact ih (hs.offer hvalid hroom) hrest
    · have hoffers : offers f p (d :: rest) = offers f p rest := by
        simp [offers, hd]
      rw [hoffers]
      exact ih (hs.deliver_other d hd) hrest

end PieceAvailabilityTable

end PonsWarp.Core
