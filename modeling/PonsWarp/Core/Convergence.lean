import PonsWarp.Core.Broadcasts

set_option autoImplicit false

/-!
The piece maps of a whole run. Their generations tell the maps of a file apart, and as
long as the manifests are sound and keep their number of pieces every map is well formed;
so a table that gets them in any order, with any losses and repetitions, lists what the
newest of them says.
-/

namespace PonsWarp.Core

open PonsWarp.Data

/-- Every manifest that is registered is sound and has the number of pieces `N` gives its
file. -/
def Counts {σ : Type} (N : FileId → Nat) (w : World σ) (x : Turn × Action) : Prop :=
  ∀ m ∈ w.registered x.2, m.Sound ∧ m.pieceCount = N m.fileId

instance {σ : Type} (N : FileId → Nat) (w : World σ) (x : Turn × Action) :
    Decidable (Counts N w x) :=
  inferInstanceAs (Decidable (∀ _ ∈ _, _))

/-- The pieces of a manager are listed in order and counted by `n`. -/
structure PieceManager.Ordered (n : Nat) (m : PieceManager) : Prop where
  sorted : m.indices.Pairwise (· < ·)
  below : ∀ i ∈ m.indices, i < n

theorem sortedInRange_iff {total previous : Number} {l : List Number} :
    sortedInRange total previous l = true ↔
      (∀ x ∈ l, x.isSafeInteger = true ∧ 0 ≤ x ∧ x < total) ∧
        (previous :: l).Pairwise (· < ·) := by
  induction l generalizing previous with
  | nil => simp [sortedInRange]
  | cons y rest ih =>
    simp only [sortedInRange, Bool.and_eq_true, decide_eq_true_eq, ih, List.pairwise_cons,
      List.mem_cons, forall_eq_or_imp]
    constructor
    · rintro ⟨⟨⟨⟨hsafe, hnn⟩, hlt⟩, hprevious⟩, hrest, hy, hpair⟩
      exact ⟨⟨⟨hsafe, hnn, hlt⟩, hrest⟩, ⟨hprevious, fun x hx => hprevious.trans (hy x hx)⟩, hy,
        hpair⟩
    · rintro ⟨⟨⟨hsafe, hnn, hlt⟩, hrest⟩, ⟨hprevious, -⟩, hy, hpair⟩
      exact ⟨⟨⟨⟨hsafe, hnn⟩, hlt⟩, hprevious⟩, hrest, hy, hpair⟩

/-- A map of pieces that are in order and counted is well formed. -/
theorem validateBroadcast_of_ordered {map : PieceMapBroadcast} {n : Nat} {l : List Nat}
    (hn : n ≤ MAX_SAFE_INTEGER) (htotal : map.totalPieces = (n : Number))
    (hpieces : map.verifiedPieces = l.map fun (i : Nat) => (i : Number))
    (hsorted : l.Pairwise (· < ·)) (hbelow : ∀ i ∈ l, i < n) :
    validateBroadcast map = .ok () := by
  refine validateBroadcast_eq_ok.2 ⟨?_, ?_, sortedInRange_iff.2 ⟨fun x hx => ?_, ?_⟩⟩
  · rw [htotal]
    exact Number.isSafeInteger_natCast.2 hn
  · rw [htotal]
    exact Nat.cast_nonneg n
  · rw [hpieces] at hx
    obtain ⟨i, hi, rfl⟩ := List.mem_map.1 hx
    have hlt := hbelow i hi
    refine ⟨Number.isSafeInteger_natCast.2 (by omega), Nat.cast_nonneg i, ?_⟩
    rw [htotal]
    exact_mod_cast hlt
  · rw [hpieces, List.pairwise_cons, List.pairwise_map]
    refine ⟨fun x hx => ?_, hsorted.imp fun hij => by exact_mod_cast hij⟩
    obtain ⟨i, -, rfl⟩ := List.mem_map.1 hx
    exact neg_one_lt_zero.trans_le (Nat.cast_nonneg i)

/-- The manager of a sound manifest has its pieces in order, and so has a restored one. -/
theorem ordered_made (N : FileId → Nat) :
    Made (fun m => m.Sound ∧ m.pieceCount = N m.fileId) fun f m => m.Ordered (N f) := by
  constructor
  · rintro m ⟨hsound, hcount⟩
    obtain ⟨-, -, hsorted⟩ := validateBroadcast_eq_ok.1 hsound
    have hpair := ((sortedInRange_iff.1 hsorted).2.tail)
    simp only [FileManifest.ownMap, List.tail_cons, List.pairwise_map] at hpair
    refine ⟨?_, fun i hi => ?_⟩
    · rw [PieceManager.indices_new, List.pairwise_map]
      exact hpair.imp fun hij => by exact_mod_cast hij
    · rw [PieceManager.indices_new] at hi
      obtain ⟨p, hp, rfl⟩ := List.mem_map.1 hi
      rw [← hcount]
      exact hsound.index_lt hp
  · intro f m m' hshape hm
    have hindices : m'.indices = m.indices := by
      have hstates := congrArg (fun s => s.2.map Prod.fst) hshape
      simpa [PieceManager.shape, PieceManager.indices, Function.comp_def] using hstates
    exact ⟨hindices ▸ hm.sorted, hindices ▸ hm.below⟩

section

variable {σ : Type} {N : FileId → Nat}

theorem PieceManager.getVerifiedPieces_sublist (m : PieceManager) :
    m.getVerifiedPieces.Sublist m.indices :=
  List.filter_sublist.map _

/-- In a stocked engine every map that is exported is well formed. -/
theorem Engine.Stocked.export_valid {e : Engine σ} {t : Turn} {f : FileId} {map : PieceMapBroadcast}
    (h : e.Stocked (fun m => m.Sound ∧ m.pieceCount = N m.fileId) fun f m => m.Ordered (N f))
    (hmap : (e.exportPieceMapBroadcast t f).2 = .ok map) :
    validateBroadcast map = .ok () ∧ map.totalPieces = (N f : Number) := by
  obtain ⟨ref, manifest, href, hmanifest, rfl⟩ := exportPieceMapBroadcast_eq_ok.1 hmap
  obtain ⟨rfl, hsound, hcount⟩ := h.manifests f manifest hmanifest
  obtain ⟨-, -, hordered⟩ := h.managers _ ref href
  have hsub := (e.managerAt ref).getVerifiedPieces_sublist
  have hsorted := hordered.sorted.sublist hsub
  have hsame : (e.managerAt ref).getVerifiedPieces.insertionSort (· ≤ ·) =
      (e.managerAt ref).getVerifiedPieces :=
    (hsorted.imp fun hij => hij.le).insertionSort_eq
  have hsafe : manifest.pieceCount ≤ MAX_SAFE_INTEGER :=
    Number.isSafeInteger_natCast.1 (validateBroadcast_eq_ok.1 hsound).1
  refine ⟨validateBroadcast_of_ordered hsafe rfl rfl ?_ fun i hi => ?_, by simp [hcount]⟩
  · rw [hsame]
    exact hsorted
  · rw [hsame] at hi
    rw [hcount]
    exact hordered.below i (hsub.subset hi)

/-- The generation of the last map of a file. -/
def Engine.generationOf (e : Engine σ) (f : FileId) : Nat :=
  (e.localPieceMapGenerations.get? f).getD 0

variable [StorageAdapter σ] {cfg : Config}

theorem Change.generation_le {t : Turn} {G : Grant} {e e' : Engine σ} (h : Change t G e e')
    (f : FileId) : e.generationOf f ≤ e'.generationOf f := by
  cases h with
  | generation g =>
    simp only [Engine.generationOf, OrderedMap.get?_set]
    split
    · rename_i hf
      subst hf
      exact Nat.le_succ _
    · exact le_rfl
  | register m hg =>
    unfold Engine.registerManifest
    simp only
    split <;> exact le_rfl
  | _ => exact le_rfl

theorem World.generation_le (w : World σ) (x : Turn × Action) (f : FileId) :
    w.engine.generationOf f ≤ (w.step cfg x).engine.generationOf f :=
  Changes.keeps (P := fun e => w.engine.generationOf f ≤ e.generationOf f)
    (fun _ _ hc hle => hle.trans (hc.generation_le f)) (World.step_spec cfg w x.1 x.2).changes le_rfl

/-- The piece maps of a run, in the order they are made. -/
def World.emitted (cfg : Config) : World σ → List (Turn × Action) → List PieceMapBroadcast
  | _, [] => []
  | w, x :: rest => w.exported cfg x ++ emitted cfg (w.step cfg x) rest

/-- A step that exports a map gives it the next generation of its file. -/
theorem World.exported_generation {w : World σ} {x : Turn × Action} {map : PieceMapBroadcast}
    (h : map ∈ w.exported cfg x) :
    map.generation = ((w.engine.generationOf map.fileId + 1 : Nat) : Number) ∧
      (w.step cfg x).engine.generationOf map.fileId = w.engine.generationOf map.fileId + 1 := by
  obtain ⟨hmap, hgenerations⟩ := World.exported_spec h
  obtain ⟨ref, manifest, -, -, heq⟩ := Engine.exportPieceMapBroadcast_eq_ok.1 hmap
  constructor
  · exact congrArg PieceMapBroadcast.generation heq
  · rw [Engine.generationOf, hgenerations, Engine.exportPieceMapBroadcast_fst hmap]
    simp [Engine.generationOf]

/-- The maps that come later have higher generations than any before. -/
theorem World.emitted_above {w : World σ} {ls : List (Turn × Action)} {map : PieceMapBroadcast}
    (h : map ∈ w.emitted cfg ls) : (w.engine.generationOf map.fileId : Number) < map.generation := by
  induction ls generalizing w with
  | nil => cases h
  | cons x rest ih =>
    obtain hnow | hlater := List.mem_append.1 h
    · rw [(World.exported_generation hnow).1]
      exact_mod_cast Nat.lt_succ_self _
    · have hle : (w.engine.generationOf map.fileId : Number) ≤
          ((w.step cfg x).engine.generationOf map.fileId : Number) := by
        exact_mod_cast World.generation_le w x map.fileId
      exact hle.trans_lt (ih hlater)

/-- No two maps of a file have one generation. -/
theorem World.emitted_unique {w : World σ} {ls : List (Turn × Action)}
    {map map' : PieceMapBroadcast} (h : map ∈ w.emitted cfg ls) (h' : map' ∈ w.emitted cfg ls)
    (hfile : map.fileId = map'.fileId) (hgeneration : map.generation = map'.generation) :
    map = map' := by
  induction ls generalizing w with
  | nil => cases h
  | cons x rest ih =>
    -- a map of this step and a later one of the file differ in their generations
    have hapart : ∀ {a b : PieceMapBroadcast}, a ∈ w.exported cfg x →
        b ∈ (w.step cfg x).emitted cfg rest → a.fileId = b.fileId →
        a.generation ≠ b.generation := by
      intro a b ha hb hf hg
      obtain ⟨hnow, hafter⟩ := World.exported_generation ha
      have hlater := World.emitted_above hb
      rw [← hf, hafter, ← hnow, hg] at hlater
      exact lt_irrefl _ hlater
    obtain hnow | hlater := List.mem_append.1 h
    · obtain hnow' | hlater' := List.mem_append.1 h'
      · have hmap := (World.exported_spec hnow).1
        have hmap' := (World.exported_spec hnow').1
        rw [hfile, hmap'] at hmap
        exact (Except.ok.inj hmap).symm
      · exact absurd hgeneration (hapart hnow hlater' hfile)
    · obtain hnow' | hlater' := List.mem_append.1 h'
      · exact absurd hgeneration.symm (hapart hnow' hlater hfile.symm)
      · exact ih hlater hlater'

theorem World.emitted_valid {w : World σ} {ls : List (Turn × Action)} {map : PieceMapBroadcast}
    (hw : w.Stocked (fun m => m.Sound ∧ m.pieceCount = N m.fileId) fun f m => m.Ordered (N f))
    (hcounts : Allowed (World.step cfg) (Counts N) w ls) (h : map ∈ w.emitted cfg ls) :
    validateBroadcast map = .ok () ∧ map.totalPieces = (N map.fileId : Number) := by
  induction ls generalizing w with
  | nil => cases h
  | cons x rest ih =>
    obtain ⟨hx, hrest⟩ := hcounts
    obtain hnow | hlater := List.mem_append.1 h
    · exact hw.1.export_valid (World.exported_spec hnow).1
    · exact ih (hw.step (ordered_made N) hx) hrest hlater

/-- The delivery brings a map of the peer for the file. -/
def Delivery.Of (f : FileId) (p : PeerId) (d : Delivery) : Prop :=
  f = d.map.fileId ∧ p = d.peerId

/-- What a table has of a peer and a file after the deliveries, and what they did to it. -/
structure Converged (f : FileId) (p : PeerId) (t : PieceAvailabilityTable) (ds : List Delivery) :
    Prop where
  newest : ∀ d ∈ ds, d.Of f p → (∀ d' ∈ ds, d'.Of f p → d'.map.generation ≤ d.map.generation) →
    ∀ i : Nat, ((t.deliverAll ds).provider? f i p).isSome = true ↔
      (i : Number) ∈ d.map.verifiedPieces
  unheard : (∀ d ∈ ds, ¬ d.Of f p) → ∀ i : Nat, (t.deliverAll ds).provider? f i p = none
  stale : ∀ d : Delivery, d.Of f p → (validateBroadcast d.map ≠ .ok () ∨
    ∃ d' ∈ ds, d'.Of f p ∧ d.map.generation ≤ d'.map.generation) →
      (t.deliverAll ds).deliver d = t.deliverAll ds
  others : ∀ d : Delivery, d.peerId = p → ∀ g q, q ≠ p →
    ((t.deliverAll ds).deliver d).generation? g q = (t.deliverAll ds).generation? g q ∧
      ∀ i, ((t.deliverAll ds).deliver d).provider? g i q = (t.deliverAll ds).provider? g i q

/-- The maps that the peer sent converge at every table that had none of them and counts
the pieces as they do, however they are lost, repeated, reordered and mixed with the maps of
other peers. -/
def Converges (p : PeerId) (sent : List PieceMapBroadcast) : Prop :=
  ∀ (t : PieceAvailabilityTable) (f : FileId) (ds : List Delivery),
    t.Shows f p none → (∀ d ∈ ds, d.peerId = p → d.map ∈ sent) →
    (∀ d ∈ ds, d.Of f p → ∀ n, (t.deliverAll ds).count f = some n →
      d.map.totalPieces = (n : Number)) →
    Converged f p t ds

theorem mem_offers {f : FileId} {p : PeerId} {ds : List Delivery}
    {x : Number × PieceMapBroadcast} :
    x ∈ PieceAvailabilityTable.offers f p ds ↔
      ∃ d ∈ ds, d.Of f p ∧ x = (d.map.generation, d.map) := by
  simp only [PieceAvailabilityTable.offers, List.mem_filterMap, Option.ite_none_right_eq_some,
    Option.some.injEq, Delivery.Of, eq_comm (a := x)]

/-- Well-formed maps that their generations tell apart converge. -/
theorem converges_of_valid {p : PeerId} {sent : List PieceMapBroadcast}
    (hvalid : ∀ map ∈ sent, validateBroadcast map = .ok ())
    (hunique : ∀ map ∈ sent, ∀ map' ∈ sent, map.fileId = map'.fileId →
      map.generation = map'.generation → map = map') : Converges p sent := by
  intro t f ds hunheard hsent hcount
  have hshows : (t.deliverAll ds).Shows f p
      ((PieceAvailabilityTable.offers f p ds).foldl offer none) := by
    refine hunheard.deliverAll fun d hd hof => ⟨hvalid _ (hsent d hd hof.2.symm), fun n hn => ?_⟩
    rw [hcount d hd hof n hn]
    simp
  constructor
  · intro d hd hof hmax i
    have hnewest : (PieceAvailabilityTable.offers f p ds).foldl offer none =
        some (d.map.generation, d.map) := by
      refine offers_eq ⟨mem_offers.2 ⟨d, hd, hof, rfl⟩, fun y hy => ?_⟩ fun y hy hstamp => ?_
      · obtain ⟨d', hd', hof', rfl⟩ := mem_offers.1 hy
        exact hmax d' hd' hof'
      · obtain ⟨d', hd', hof', rfl⟩ := mem_offers.1 hy
        have hmap := hunique d'.map (hsent d' hd' hof'.2.symm) d.map (hsent d hd hof.2.symm)
          (hof'.1.symm.trans hof.1) hstamp
        rw [hmap]
    rw [hshows.listed, hnewest]
    simp
  · intro hnone i
    have hempty : PieceAvailabilityTable.offers f p ds = [] := by
      refine List.eq_nil_iff_forall_not_mem.2 fun x hx => ?_
      obtain ⟨d, hd, hof, -⟩ := mem_offers.1 hx
      exact hnone d hd hof
    have hlisted := hshows.listed i
    rw [hempty] at hlisted
    simpa using hlisted
  · intro d hof hstale
    refine PieceAvailabilityTable.deliver_refused fun htakes => ?_
    obtain hinvalid | ⟨d', hd', hof', hle⟩ := hstale
    · exact hinvalid htakes.valid
    · obtain ⟨hempty, -⟩ | ⟨x, hx, hnewest⟩ :=
        offers_newest (PieceAvailabilityTable.offers f p ds)
      · have hmem := mem_offers.2 ⟨d', hd', hof', rfl⟩
        rw [hempty] at hmem
        cases hmem
      · have hgeneration := hshows.generation
        rw [hx] at hgeneration
        obtain ⟨rfl, rfl⟩ := hof
        have hlt := htakes.fresh x.1 hgeneration
        have hle' := hnewest.le _ (mem_offers.2 ⟨d', hd', hof', rfl⟩)
        exact absurd (hle.trans hle') (not_le.2 hlt)
  · intro d hd g q hq
    exact PieceAvailabilityTable.deliver_other _ d fun h => hq (h.2.trans hd)

/-- As long as the manifests an engine registers are sound and keep the number of pieces of
their files, its piece maps converge in every order of delivery. -/
theorem piece_maps_converge (cfg : Config) (N : FileId → Nat) (storage : σ) (transport : Bool)
    (run : List (Turn × Action))
    (h : Allowed (World.step cfg) (Counts N) (World.new storage transport) run) (p : PeerId) :
    Converges p ((World.new storage transport).emitted cfg run) :=
  converges_of_valid (fun _ hmap => (World.emitted_valid (stocked_new storage transport) h hmap).1)
    fun _ hmap _ hmap' => World.emitted_unique hmap hmap'

end

namespace Sample

/-- The engine sends its map before and after it has the piece. -/
def twoMaps : List (Turn × Action) :=
  joined ++ [(turn, .call (.exportPieceMapBroadcast "f")),
    (turn, .call (.receivePiece "f" 0 "x" [1] none)), (turn, .resume 2), (turn, .resume 2),
    (turn, .call (.exportPieceMapBroadcast "f"))]

/-- A piece of a file is verified and then a smaller file of the same id created. -/
def shrunk : List (Turn × Action) :=
  [(turn, .call (.joinSession "s" [{ pair with fileId := "file_0" }])), (turn, .resume 0),
   (turn, .resume 0), (turn, .call (.receivePiece "file_0" 1 "x" [1] none)), (turn, .resume 1),
   (turn, .resume 1), (turn, .call (.createSession ⟨"t", 1, false⟩ [⟨"a", "", [1]⟩])),
   (turn, .resume 2), (turn, .resume 2), (turn, .resume 2),
   (turn, .call (.exportPieceMapBroadcast "file_0"))]

/-- What the engine then sends. -/
def outOfRange : PieceMapBroadcast := ⟨"file_0", [1], 1, 1, 0⟩

/-- Another peer is heard of first, with the same number of pieces. -/
def heard : List Delivery :=
  [⟨"b", .receiver, ⟨"file_0", [0], 1, 1, 0⟩, 0⟩, ⟨"a", .receiver, outOfRange, 0⟩]

end Sample

theorem piece_maps_converge_sample :
    Sample.start.emitted Sample.config Sample.twoMaps =
      [⟨"f", [], 1, 1, 0⟩, ⟨"f", [0], 1, 2, 0⟩] ∧
    Converges "a" (Sample.start.emitted Sample.config Sample.twoMaps) :=
  ⟨by decide +kernel, piece_maps_converge Sample.config (fun _ => 1) MemoryStorageAdapter.empty true
    Sample.twoMaps (by decide +kernel) "a"⟩

/-- The manager of the larger file is kept: the map says piece 1 of one, every table refuses
it and lists the sender for nothing. -/
theorem shrunk_file_map_is_refused :
    Sample.start.emitted Sample.config Sample.shrunk = [Sample.outOfRange] ∧
    ¬ Converges "a" (Sample.start.emitted Sample.config Sample.shrunk) := by
  have hsent : Sample.start.emitted Sample.config Sample.shrunk = [Sample.outOfRange] := by
    decide +kernel
  have hcount : (PieceAvailabilityTable.empty.deliverAll Sample.heard).count "file_0" = some 1 := by
    decide +kernel
  refine ⟨hsent, fun h => ?_⟩
  rw [hsent] at h
  have hconverged := h .empty "file_0" Sample.heard
    ⟨rfl, fun i => by simp [PieceAvailabilityTable.provider?, PieceAvailabilityTable.empty]⟩
    (by simp [Sample.heard]) (by rw [hcount]; simp [Sample.heard, Sample.outOfRange, Delivery.Of])
  have hlisted := hconverged.newest ⟨"a", .receiver, Sample.outOfRange, 0⟩ (by simp [Sample.heard])
    ⟨rfl, rfl⟩ (by simp [Sample.heard, Delivery.Of]) 1
  exact absurd (hlisted.2 (by decide)) (by decide +kernel)

end PonsWarp.Core
