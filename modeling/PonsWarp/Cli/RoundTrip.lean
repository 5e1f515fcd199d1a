import PonsWarp.Cli.NodeFileStorage
import PonsWarp.Core.Reassembly

set_option autoImplicit false

/-!
From a file to its pieces and back: whatever the order in which the pieces are written,
each way of putting them together gives the bytes of the file.
-/

namespace PonsWarp.Cli

open PonsWarp.Core PonsWarp.Core.ManifestGenerator PonsWarp.Data

namespace NodeFileStorageAdapter

variable {hash : ArrayBuffer → String} {data : ArrayBuffer} {m : FileManifest} {outputPath : Path}
  {P : Nat → Prop} {s : NodeFileStorageAdapter}

/-- The output of a file is prepared, and it has the right bytes at some positions. -/
structure Prepared (m : FileManifest) (outputPath : Path) (P : Nat → Prop) (data : ArrayBuffer)
    (s : NodeFileStorageAdapter) : Prop where
  output : ∃ verified, s.offsetOutputs.get? m.fileId = some ⟨m, outputPath, verified⟩
  state : ∃ path, s.offsetStatePath m.fileId = .ok path ∧ path ≠ outputPath
  file : ∃ file, s.disk.get? outputPath = some file ∧ AgreeOn P file data

theorem saveOffsetOutputState_eq {fileId : FileId} {output : OffsetOutput} {path : Path}
    (houtput : s.offsetOutputs.get? fileId = some output)
    (hpath : s.offsetStatePath fileId = .ok path) :
    ∃ text, s.saveOffsetOutputState fileId = (.ok (), { s with disk := s.disk.set path text }) := by
  simp [saveOffsetOutputState, houtput, hpath]

theorem Prepared.save (h : Prepared m outputPath P data s) :
    ∃ s', s.saveOffsetOutputState m.fileId = (.ok (), s') ∧ Prepared m outputPath P data s' := by
  obtain ⟨verified, houtput⟩ := h.output
  obtain ⟨path, hpath, hne⟩ := h.state
  obtain ⟨file, hfile, hagree⟩ := h.file
  obtain ⟨text, hsave⟩ := saveOffsetOutputState_eq houtput hpath
  refine ⟨_, hsave, ⟨verified, houtput⟩, ⟨path, hpath, hne⟩, file, ?_, hagree⟩
  rw [OrderedMap.get?_set_of_ne _ _ (Ne.symm hne), hfile]

/-- Writing a piece adds its region to what is right. -/
theorem Prepared.writePiece (hm : Describes hash data m) (h : Prepared m outputPath P data s)
    {i : Nat} (hi : i < m.pieceCount) :
    ∃ s', StorageAdapter.writePiece m.fileId i (content data m.pieceSize i) s = (.ok (), s') ∧
      Prepared m outputPath (fun j => P j ∨ i * m.pieceSize ≤ j ∧
        j < i * m.pieceSize + min m.pieceSize (data.length - i * m.pieceSize)) data s' := by
  obtain ⟨verified, houtput⟩ := h.output
  obtain ⟨file, hfile, hagree⟩ := h.file
  have hstart := hm.start hi
  have hlen : (content data m.pieceSize i).length =
      (describe hash data m.pieceSize i).size := by
    simp [content, describe]
  have hwritten := hagree.written 0 (i * m.pieceSize)
    (min m.pieceSize (data.length - i * m.pieceSize)) (by omega)
  rw [content_eq] at hwritten
  have hnext : Prepared m outputPath (fun j => P j ∨ i * m.pieceSize ≤ j ∧
      j < i * m.pieceSize + min m.pieceSize (data.length - i * m.pieceSize)) data
      { s with
        disk := s.disk.set outputPath
          (splice 0 file (i * m.pieceSize) (content data m.pieceSize i))
        offsetOutputs := s.offsetOutputs.set m.fileId
          ⟨m, outputPath, insertNew verified i⟩ } :=
    ⟨⟨_, OrderedMap.get?_set_self _ _ _⟩, h.state, ⟨_, OrderedMap.get?_set_self _ _ _, hwritten⟩⟩
  obtain ⟨s', hsave, hprepared⟩ := hnext.save
  refine ⟨s', ?_, hprepared⟩
  simp only [StorageAdapter.writePiece, NodeFileStorageAdapter.writePiece, houtput, hm.find? hi,
    hlen, hfile, describe, ne_eq, not_true_eq_false, if_false]
  exact hsave

/-- A prepared output has the size of the file. -/
theorem prepareOutputFile_prepared (hm : Describes hash data m)
    (hok : (s.prepareOutputFile m outputPath).1 = .ok ())
    (hpath : s.offsetStatePath m.fileId ≠ .ok outputPath) :
    Prepared m outputPath (fun _ => False) data (s.prepareOutputFile m outputPath).2 := by
  have hp : ∃ path, s.offsetStatePath m.fileId = .ok path := by
    cases hp : s.offsetStatePath m.fileId with
    | ok path => exact ⟨path, rfl⟩
    | error err =>
      have hp' : offsetStatePath m.fileId { s with
          disk := s.disk.set outputPath (resize 0 m.size ((s.disk.get? outputPath).getD [])) } =
        .error err := hp
      simp [prepareOutputFile, loadOffsetOutputState, hp', Except.bind] at hok
  obtain ⟨path, hp⟩ := hp
  have hne : path ≠ outputPath := by
    rintro rfl
    exact hpath hp
  unfold prepareOutputFile at hok ⊢
  simp only at hok ⊢
  split at hok
  · cases hok
  · rename_i saved hload
    generalize (saved.filter (restores s.sha256 m outputPath)).elim []
      (fun state => state.verifiedPieces.foldl insertNew []) = verified at *
    have hfresh : Prepared m outputPath (fun _ => False) data
        { s with
          disk := s.disk.set outputPath (resize 0 m.size ((s.disk.get? outputPath).getD []))
          offsetOutputs := s.offsetOutputs.set m.fileId ⟨m, outputPath, verified⟩ } :=
      ⟨⟨_, OrderedMap.get?_set_self _ _ _⟩, ⟨path, hp, hne⟩, _, OrderedMap.get?_set_self _ _ _,
        by simp [hm.size], by simp⟩
    obtain ⟨s', hsave, hprepared⟩ := hfresh.save
    rw [hsave]
    exact hprepared

/-- The positions of some pieces. -/
def Covered (m : FileManifest) (data : ArrayBuffer) (pieces : List Nat) (j : Nat) : Prop :=
  ∃ i ∈ pieces, i * m.pieceSize ≤ j ∧
    j < i * m.pieceSize + min m.pieceSize (data.length - i * m.pieceSize)

theorem Prepared.writePieces (hm : Describes hash data m) (h : Prepared m outputPath P data s)
    (writes : List Nat) (hwrites : ∀ i ∈ writes, i < m.pieceCount) :
    ∃ s', writePieces m.fileId (content data m.pieceSize) writes s = (.ok (), s') ∧
      Prepared m outputPath (fun j => P j ∨ Covered m data writes j) data s' := by
  induction writes generalizing s P with
  | nil =>
    obtain ⟨file, hfile, hagree⟩ := h.file
    refine ⟨s, rfl, h.output, h.state, file, hfile, hagree.mono fun j hj => ?_⟩
    simpa [Covered] using hj
  | cons i rest ih =>
    obtain ⟨s₁, hwrite, h₁⟩ := h.writePiece hm (hwrites i List.mem_cons_self)
    obtain ⟨s', hrest, h'⟩ := ih h₁ fun k hk => hwrites k (List.mem_cons_of_mem i hk)
    obtain ⟨file, hfile, hagree⟩ := h'.file
    refine ⟨s', by simp [Core.writePieces, hwrite, hrest], h'.output, h'.state, file, hfile,
      hagree.mono fun j hj => ?_⟩
    simp only [Covered, List.mem_cons, exists_eq_or_imp] at hj ⊢
    tauto

/-- Once all pieces are written, the output is the file. -/
theorem Prepared.complete (hm : Describes hash data m) {writes : List Nat}
    (hall : ∀ i, i < m.pieceCount → i ∈ writes)
    (h : Prepared m outputPath (fun j => P j ∨ Covered m data writes j) data s) :
    s.disk.get? outputPath = some data := by
  obtain ⟨file, hfile, hagree⟩ := h.file
  rw [hfile, hagree.eq fun j hj => .inr ⟨j / m.pieceSize, hall _ ?_, ?_⟩]
  · rw [Nat.div_lt_iff_lt_mul hm.pieceSize]
    have hreach := le_ceil_mul data.length hm.pieceSize
    rw [← hm.pieceCount] at hreach
    omega
  · have hdiv := Nat.div_add_mod j m.pieceSize
    have hmod := Nat.mod_lt j hm.pieceSize
    rw [Nat.mul_comm] at hdiv
    omega

end NodeFileStorageAdapter

/-- The pieces of a file tile it, and written in any order they give the file back: from
the memory as a blob, as far as that may be assembled, and as a stream, and from the
prepared output. -/
theorem file_round_trip (hash : ArrayBuffer → String) (createFileId : FileId) (file : Blob)
    (options : ManifestOptions) (m : FileManifest)
    (h : ManifestGenerator.create hash createFileId file options = .ok m)
    (writes : List Nat) (hwrites : ∀ i, i ∈ writes ↔ i < m.pieceCount) :
    Tiles m.pieces file.data.length m.pieceSize ∧
    (∀ (s : MemoryStorageAdapter) (session : SessionId), s.requireSession = .ok session →
      ∃ s', writePieces m.fileId (content file.data m.pieceSize) writes s = (.ok (), s') ∧
        (file.data.length ≤ DEFAULT_SAFE_ASSEMBLE_BYTES →
          (s'.assembleFile m.fileId m).map (·.data) = .ok file.data) ∧
        ∃ chunks, (∀ pulls, m.pieceCount < pulls →
          (createReadablePieceStream m.fileId m).readAll pulls s' = some (.ok chunks)) ∧
          chunks.flatten = file.data) ∧
    (∀ (s : NodeFileStorageAdapter) (outputPath : Path),
      s.offsetStatePath m.fileId ≠ .ok outputPath →
      (s.prepareOutputFile m outputPath).1 = .ok () →
      ∃ s', writePieces m.fileId (content file.data m.pieceSize) writes
          (s.prepareOutputFile m outputPath).2 = (.ok (), s') ∧
        s'.disk.get? outputPath = some file.data) := by
  obtain ⟨hm, -, -⟩ := create_describes h
  refine ⟨hm.size ▸ hm.tiles, fun s session hready => ?_, fun s outputPath hpath hok => ?_⟩
  · obtain ⟨s', hwrite, hready', hbytes⟩ := (MemoryStorageAdapter.archive session).written hready
      m.fileId (content file.data m.pieceSize) writes
    have hholds : (MemoryStorageAdapter.contents session).Holds s' m.fileId
        (content file.data m.pieceSize) m.pieces := by
      refine ⟨hready', fun p hp => ?_⟩
      rw [hm.pieces] at hp
      obtain ⟨i, hi, rfl⟩ := List.mem_map.1 hp
      have hmem := (hwrites i).2 (List.mem_range.1 hi)
      exact (hbytes i).trans (if_pos hmem)
    have hparts : (m.pieces.map fun p => content file.data m.pieceSize p.index).flatten =
        file.data := by
      have hflat := hm.flatten
      rw [hm.pieces, List.map_map]
      exact hflat
    refine ⟨s', hwrite, fun hsmall => ?_, _, fun pulls hpulls => ?_, hparts⟩
    · have hsize : ¬ DEFAULT_SAFE_ASSEMBLE_BYTES < m.size := by
        rw [hm.size]
        omega
      simp [MemoryStorageAdapter.assembleFile, assertSafeAssembleSize, hsize, hholds.assembleParts,
        Except.map, hparts]
    · have hlen : m.pieces.length = m.pieceCount := by simp [hm.pieces]
      have hread := hholds.readAll (createReadablePieceStream m.fileId m) (Nat.zero_le _)
        (hlen.trans_lt (by simpa [createReadablePieceStream] using hpulls))
      simpa [createReadablePieceStream] using hread
  · have hprepared := NodeFileStorageAdapter.prepareOutputFile_prepared hm hok hpath
    obtain ⟨s', hwrite, hwritten⟩ := hprepared.writePieces hm writes fun i hi => (hwrites i).1 hi
    exact ⟨s', hwrite, hwritten.complete hm fun i hi => (hwrites i).2 hi⟩

namespace Sample

def threeBytes : Blob := ⟨"three", "", [1, 2, 3]⟩

def twoByTwo : ManifestOptions := ⟨2, false, none, some "f", none⟩

def layout : FileManifest :=
  ⟨"1.0.0", "f", "three", 3, "", 2, 2, none, [⟨0, 0, 2, some "h"⟩, ⟨1, 2, 1, some "h"⟩]⟩

def offsetStateText (state : OffsetOutputState) : String :=
  let verifiedPieces := state.verifiedPieces.map fun i => s!"    {i}"
  "\x7b\n" ++ String.intercalate ",\n" [
    s!"  \"schemaVersion\": {state.schemaVersion}",
    s!"  \"fileId\": \"{state.fileId}\"",
    s!"  \"manifestSize\": {state.manifestSize}",
    s!"  \"pieceSize\": {state.pieceSize}",
    s!"  \"pieceCount\": {state.pieceCount}",
    s!"  \"pieceLayoutHash\": \"{state.pieceLayoutHash}\"",
    s!"  \"outputPath\": \"{state.outputPath}\"",
    "  \"verifiedPieces\": " ++ (if verifiedPieces = [] then "[]"
      else "[\n" ++ String.intercalate ",\n" verifiedPieces ++ "\n  ]"),
    "  \"updatedAt\": 0"] ++ "\n\x7d"

/-- Texts that nobody reads back; what is not a text of this kind cannot be parsed. -/
def written {α : Type} (text : α → String) : Json α :=
  ⟨fun a => (text a).toUTF8.data.toList, fun _ => .error ⟨none, "Unexpected token in JSON"⟩⟩

/-- Session `s` is open, and the output has a longer file under its name. -/
def node : NodeFileStorageAdapter :=
  ⟨fun _ => "5b5357e8a68985586e1e047e82e734b515862630c2a7eb15c9ee551888c21893",
    written offsetStateText, written fun _ => "\x7b\x7d", ".ponswarp-grid", some "s", .empty,
    OrderedMap.empty.set "out/three" [7, 7, 7, 7, 7]⟩

/-- One byte too many to be assembled in one blob. -/
def oversized : Blob := ⟨"large", "", List.replicate (DEFAULT_SAFE_ASSEMBLE_BYTES + 1) 0⟩

def memory : MemoryStorageAdapter := { MemoryStorageAdapter.empty with sessionId := some "s" }

end Sample

theorem file_round_trip_sample :
    ∃ s', writePieces "f" (content [1, 2, 3] 2) [1, 0, 1]
        (Sample.node.prepareOutputFile Sample.layout "out/three").2 = (.ok (), s') ∧
      s'.disk.get? "out/three" = some [1, 2, 3] :=
  (file_round_trip (fun _ => "h") "" Sample.threeBytes Sample.twoByTwo Sample.layout
    (by decide +kernel) [1, 0, 1] (by simp [Sample.layout]; omega)).2.2 Sample.node "out/three"
    (by decide +kernel) (by decide +kernel)

/-- Beyond the threshold `assembleFile` refuses, and an output cannot be prepared over the
file of its own state. -/
theorem oversized_is_not_assembled :
    (¬ ∀ (file : Blob) (m : FileManifest),
      ManifestGenerator.create (fun _ => "h") "" file Sample.twoByTwo = .ok m →
      ∀ writes : List Nat, (∀ i, i ∈ writes ↔ i < m.pieceCount) →
      ∃ s', writePieces m.fileId (content file.data m.pieceSize) writes Sample.memory = (.ok (), s') ∧
        (s'.assembleFile m.fileId m).map (·.data) = .ok file.data) ∧
    ∃ path, Sample.node.offsetStatePath "f" = .ok path ∧
      (Sample.node.prepareOutputFile Sample.layout path).1 ≠ .ok () := by
  constructor
  · intro h
    have hlen : Sample.oversized.data.length = DEFAULT_SAFE_ASSEMBLE_BYTES + 1 := List.length_replicate
    obtain ⟨m, hm⟩ := create_pieceOnly (fun _ => "h") "" Sample.oversized Sample.twoByTwo
      (by decide +kernel) (by rw [hlen]; decide) rfl
    obtain ⟨s', -, hassembled⟩ := h Sample.oversized m hm (List.range m.pieceCount) (by simp)
    have hsize : DEFAULT_SAFE_ASSEMBLE_BYTES < m.size := by
      rw [(create_describes hm).1.size, hlen]
      exact Nat.lt_succ_self _
    simp [MemoryStorageAdapter.assembleFile, assertSafeAssembleSize, hsize, Except.map] at hassembled
  · exact ⟨_, rfl, by decide +kernel⟩

end PonsWarp.Cli
