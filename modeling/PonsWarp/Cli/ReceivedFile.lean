import PonsWarp.Cli.RoundTrip
import PonsWarp.Core.SharedFile

set_option autoImplicit false

/-!
The output file of a receiver on the command line. Its pieces are written at their offsets, so
that none of them touches another, and what the adapter keeps beside it lies elsewhere.
-/

namespace PonsWarp.Cli

open PonsWarp.Core PonsWarp.Core.ManifestGenerator PonsWarp.Data

namespace NodeFileStorageAdapter

/-- A path under which the adapter keeps its own files. -/
def Own (rootDir : Path) (session : SessionId) (path : Path) : Prop :=
  ∃ rest, path = rootDir ++ "/sessions/" ++ session ++ rest

/-- The session is open and the output of the file prepared, of no other file. -/
structure Serves (session : SessionId) (M : FileManifest) (rootDir path : Path)
    (s : NodeFileStorageAdapter) : Prop where
  root : s.rootDir = rootDir
  session : s.sessionId = some session
  output : ∃ verified, s.offsetOutputs.get? M.fileId = some ⟨M, path, verified⟩
  alone : ∀ g, g ≠ M.fileId → s.offsetOutputs.get? g = none
  file : ∃ file, s.disk.get? path = some file ∧ file.length = M.size

variable {session : SessionId} {M : FileManifest} {rootDir path p : Path}
  {s : NodeFileStorageAdapter} {g : FileId} {i : Nat}

theorem eq_of_sanitizePathSegment {value name excerpt : String}
    (h : sanitizePathSegment value name = .ok excerpt) : excerpt = value := by
  unfold sanitizePathSegment at h
  split at h
  · cases h
  · exact (Except.ok.inj h).symm

namespace Serves

theorem sessionDir (h : s.Serves session M rootDir path) (hdir : s.sessionDir = .ok p) :
    p = rootDir ++ "/sessions/" ++ session := by
  unfold NodeFileStorageAdapter.sessionDir at hdir
  simp only [h.session] at hdir
  split at hdir
  · cases hdir
  · cases hsafe : sanitizePathSegment session "sessionId" with
    | error err => simp [hsafe, Except.map] at hdir
    | ok excerpt =>
      simp only [hsafe, Except.map, Except.ok.injEq] at hdir
      rw [← hdir, eq_of_sanitizePathSegment hsafe, h.root]
      simp [toString]

theorem statePath (h : s.Serves session M rootDir path) (hp : s.statePath = .ok p) :
    Own rootDir session p := by
  unfold NodeFileStorageAdapter.statePath at hp
  cases hdir : s.sessionDir with
  | error err => simp [hdir, Except.map] at hp
  | ok dir =>
    obtain rfl := h.sessionDir hdir
    simp only [hdir, Except.map, Except.ok.injEq] at hp
    exact ⟨"/state.json", by simp [← hp, toString, String.append_assoc]⟩

theorem offsetStatePath (h : s.Serves session M rootDir path) (hp : s.offsetStatePath g = .ok p) :
    Own rootDir session p := by
  unfold NodeFileStorageAdapter.offsetStatePath at hp
  cases hdir : s.sessionDir with
  | error err => simp [hdir, Except.bind] at hp
  | ok dir =>
    obtain rfl := h.sessionDir hdir
    cases hsafe : sanitizePathSegment g "fileId" with
    | error err => simp [hdir, hsafe, Except.bind, Except.map] at hp
    | ok excerpt =>
      simp only [hdir, hsafe, Except.bind, Except.map, Except.ok.injEq] at hp
      exact ⟨"/output/" ++ excerpt ++ ".offset-state.json", by
        simp [← hp, toString, String.append_assoc]⟩

theorem piecePath (h : s.Serves session M rootDir path) (hp : s.piecePath g i = .ok p) :
    Own rootDir session p := by
  unfold NodeFileStorageAdapter.piecePath at hp
  cases hdir : s.sessionDir with
  | error err => simp [hdir, Except.bind] at hp
  | ok dir =>
    obtain rfl := h.sessionDir hdir
    cases hsafe : sanitizePathSegment g "fileId" with
    | error err => simp [hdir, hsafe, Except.bind, Except.map] at hp
    | ok excerpt =>
      simp only [hdir, hsafe, Except.bind, Except.map, Except.ok.injEq] at hp
      exact ⟨"/pieces/" ++ excerpt ++ "/" ++ padded i ++ ".part", by
        simp [← hp, toString, String.append_assoc]⟩

end Serves

/-- The regions of the pieces do not meet, and lie within the file. -/
structure Apart (M : FileManifest) : Prop where
  within : ∀ q ∈ M.pieces, q.offset + q.size ≤ M.size
  apart : ∀ q ∈ M.pieces, ∀ q' ∈ M.pieces, q.index ≠ q'.index →
    q.offset + q.size ≤ q'.offset ∨ q'.offset + q'.size ≤ q.offset

/-- What the output has of a piece that the adapter lists. -/
def outputPiece (M : FileManifest) (path : Path) (s : NodeFileStorageAdapter) (i : Nat) :
    Option ArrayBuffer :=
  match s.offsetOutputs.get? M.fileId with
  | none => none
  | some output =>
    if i ∉ output.verifiedPieces then none
    else
      match M.pieces.find? fun candidate => candidate.index = i with
      | none => none
      | some piece => (s.disk.get? path).map fun file => excerpt file piece.offset piece.size

theorem outputPiece_eq {verified : List Nat}
    {file : ArrayBuffer} (hverified : s.offsetOutputs.get? M.fileId = some ⟨M, path, verified⟩)
    (hfile : s.disk.get? path = some file) (i : Nat) :
    s.outputPiece M path i = if i ∉ verified then none
      else (M.pieces.find? fun q => q.index = i).map fun q => excerpt file q.offset q.size := by
  unfold NodeFileStorageAdapter.outputPiece
  simp only [hverified, hfile, Option.map_some]
  split
  · rfl
  · cases M.pieces.find? fun q => q.index = i <;> rfl

/-- A file that the adapter writes elsewhere. -/
theorem Serves.elsewhere (h : s.Serves session M rootDir path) (hout : ¬ Own rootDir session path)
    (hp : Own rootDir session p) (disk : OrderedMap Path ArrayBuffer)
    (hdisk : ∀ q, q ≠ p → disk.get? q = s.disk.get? q) :
    Serves session M rootDir path { s with disk := disk } ∧
      NodeFileStorageAdapter.outputPiece M path { s with disk := disk } = s.outputPiece M path := by
  have hne : path ≠ p := by
    rintro rfl
    exact hout hp
  have hsame := hdisk path hne
  refine ⟨⟨h.root, h.session, h.output, h.alone, ?_⟩, ?_⟩
  · obtain ⟨file, hfile, hlength⟩ := h.file
    exact ⟨file, hsame.trans hfile, hlength⟩
  · funext i
    simp only [NodeFileStorageAdapter.outputPiece, hsame]

/-- The list of pieces that is saved for an output lies elsewhere. -/
theorem Serves.saveOffsetOutputState (h : s.Serves session M rootDir path)
    (hout : ¬ Own rootDir session path) (g : FileId) :
    (s.saveOffsetOutputState g).2.Serves session M rootDir path ∧
      (s.saveOffsetOutputState g).2.outputPiece M path = s.outputPiece M path := by
  unfold NodeFileStorageAdapter.saveOffsetOutputState
  split
  · exact ⟨h, rfl⟩
  · split
    · exact ⟨h, rfl⟩
    · rename_i hp
      exact h.elsewhere hout (h.offsetStatePath hp) _ fun q hq => OrderedMap.get?_set_of_ne _ _ hq

theorem Serves.writePiece (h : s.Serves session M rootDir path) (hapart : Apart M)
    (hout : ¬ Own rootDir session path) (g : FileId) (i : Nat) (data : ArrayBuffer) :
    (s.writePiece g i data).2.Serves session M rootDir path ∧
      ∀ j d, (s.writePiece g i data).2.outputPiece M path j = some d →
        s.outputPiece M path j = some d ∨ (g = M.fileId ∧ j = i ∧ d = data) := by
  unfold NodeFileStorageAdapter.writePiece
  by_cases hg : g = M.fileId
  · subst hg
    obtain ⟨verified, hverified⟩ := h.output
    obtain ⟨file, hfile, hlength⟩ := h.file
    simp only [hverified, hfile]
    split
    · exact ⟨h, fun j d => .inl⟩
    · rename_i piece hpiece
      split
      · exact ⟨h, fun j d => .inl⟩
      · rename_i hsize
        have hsize : data.length = piece.size := not_not.1 hsize
        have hmem := List.mem_of_find?_eq_some hpiece
        have hindex : piece.index = i := by simpa using List.find?_some hpiece
        have hbound : piece.offset + data.length ≤ file.length := by
          rw [hsize, hlength]
          exact hapart.within piece hmem
        have hwritten : Serves session M rootDir path { s with
            disk := s.disk.set path (splice 0 file piece.offset data)
            offsetOutputs := s.offsetOutputs.set M.fileId
              ⟨M, path, insertNew verified i⟩ } := by
          refine ⟨h.root, h.session, ⟨_, OrderedMap.get?_set_self ..⟩, fun g hg => ?_, ?_⟩
          · rw [OrderedMap.get?_set_of_ne _ _ hg]
            exact h.alone g hg
          · exact ⟨_, OrderedMap.get?_set_self .., (length_splice 0 hbound).trans hlength⟩
        obtain ⟨hserves, hsame⟩ := hwritten.saveOffsetOutputState hout M.fileId
        refine ⟨hserves, fun j d hd => ?_⟩
        rw [hsame, outputPiece_eq (OrderedMap.get?_set_self ..)
          (OrderedMap.get?_set_self ..)] at hd
        rw [outputPiece_eq hverified hfile]
        split at hd
        · cases hd
        · rename_i hlisted
          obtain ⟨q, hq, rfl⟩ := Option.map_eq_some_iff.1 hd
          have hq' : q.index = j := by simpa using List.find?_some hq
          by_cases hj : j = i
          · subst hj
            cases hpiece.symm.trans hq
            refine .inr ⟨trivial, rfl, ?_⟩
            rw [← hsize]
            exact excerpt_splice_self 0 hbound
          · left
            have hold : j ∈ verified := by
              have hnew := not_not.1 hlisted
              simpa [mem_insertNew, hj] using hnew
            have hne : piece.index ≠ q.index := by
              rw [hindex, hq']
              exact Ne.symm hj
            rw [if_neg (not_not.2 hold), hq, Option.map_some,
              excerpt_splice_of_apart 0 hbound]
            rw [hsize]
            exact hapart.apart piece hmem q (List.mem_of_find?_eq_some hq) hne
  · simp only [h.alone g hg]
    split
    · exact ⟨h, fun j d => .inl⟩
    · rename_i p hp
      obtain ⟨hserves, hsame⟩ := h.elsewhere hout (h.piecePath hp)
        (s.disk.set p data) fun q hq => OrderedMap.get?_set_of_ne _ _ hq
      exact ⟨hserves, fun j d hd => .inl (hsame ▸ hd)⟩

theorem Serves.deletePiece (h : s.Serves session M rootDir path)
    (hout : ¬ Own rootDir session path) (g : FileId) (i : Nat) :
    (s.deletePiece g i).2.Serves session M rootDir path ∧
      Within ((s.deletePiece g i).2.outputPiece M path) (s.outputPiece M path) := by
  unfold NodeFileStorageAdapter.deletePiece
  by_cases hg : g = M.fileId
  · subst hg
    obtain ⟨verified, hverified⟩ := h.output
    obtain ⟨file, hfile, hlength⟩ := h.file
    simp only [hverified]
    have hremoved : Serves session M rootDir path { s with
        offsetOutputs := s.offsetOutputs.set M.fileId
          ⟨M, path, verified.filter (· ≠ i)⟩ } := by
      refine ⟨h.root, h.session, ⟨_, OrderedMap.get?_set_self ..⟩, fun g hg => ?_, h.file⟩
      rw [OrderedMap.get?_set_of_ne _ _ hg]
      exact h.alone g hg
    obtain ⟨hserves, hsame⟩ := hremoved.saveOffsetOutputState hout M.fileId
    refine ⟨hserves, fun j d hd => ?_⟩
    rw [hsame, outputPiece_eq (s := { s with
      offsetOutputs := s.offsetOutputs.set M.fileId ⟨M, path, verified.filter (· ≠ i)⟩ })
      (OrderedMap.get?_set_self ..) hfile] at hd
    rw [outputPiece_eq hverified hfile]
    split at hd
    · cases hd
    · rename_i hlisted
      have hold : j ∈ verified := (List.mem_filter.1 (not_not.1 hlisted)).1
      rw [if_neg (not_not.2 hold)]
      exact hd
  · split
    · rename_i output houtput
      cases (h.alone g hg).symm.trans houtput
    · split
      · exact ⟨h, .refl _⟩
      · rename_i p hp
        obtain ⟨hserves, hsame⟩ := h.elsewhere hout (h.piecePath hp)
          (s.disk.delete p) fun q hq => by simp [OrderedMap.get?_delete, hq]
        exact ⟨hserves, hsame ▸ .refl _⟩

theorem Serves.saveState (h : s.Serves session M rootDir path)
    (hout : ¬ Own rootDir session path) (state : PersistedSessionState) :
    (s.saveState state).2.Serves session M rootDir path ∧
      Within ((s.saveState state).2.outputPiece M path) (s.outputPiece M path) := by
  unfold NodeFileStorageAdapter.saveState
  split
  · exact ⟨h, .refl _⟩
  · rename_i p hp
    obtain ⟨hserves, hsame⟩ := h.elsewhere hout (h.statePath hp) _
      fun q hq => OrderedMap.get?_set_of_ne _ _ hq
    exact ⟨hserves, hsame ▸ .refl _⟩

/-- The session of the adapter is a field of its own. -/
theorem Serves.opened (h : s.Serves session M rootDir path) :
    Serves session M rootDir path { s with sessionId := some session } :=
  ⟨h.root, rfl, h.output, h.alone, h.file⟩

/-- The output of a file as a shelf. -/
def outputShelf (session : SessionId) (M : FileManifest) (rootDir path : Path) (hapart : Apart M)
    (hout : ¬ Own rootDir session path) : Shelf NodeFileStorageAdapter session M.fileId where
  Fits := Serves session M rootDir path
  held := outputPiece M path
  init s h := by
    simp only [StorageAdapter.init, NodeFileStorageAdapter.init]
    cases hsafe : sanitizePathSegment session "sessionId" with
    | error err => exact ⟨h, .refl _⟩
    | ok excerpt =>
      obtain rfl := eq_of_sanitizePathSegment hsafe
      exact ⟨h.opened, .refl _⟩
  write s g i data h := h.writePiece hapart hout g i data
  read s g i h := by
    have hsame : (StorageAdapter.readPiece g i s).2 = s := by
      change (NodeFileStorageAdapter.readPiece g i s).2 = s
      unfold NodeFileStorageAdapter.readPiece
      split
      · split
        · rfl
        · split
          · rfl
          · split <;> rfl
      · rfl
    rw [hsame]
    exact ⟨h, .refl _⟩
  answer s i d h hread := by
    obtain ⟨verified, hverified⟩ := h.output
    obtain ⟨file, hfile, -⟩ := h.file
    rw [outputPiece_eq hverified hfile]
    simp only [StorageAdapter.readPiece, NodeFileStorageAdapter.readPiece, hverified, hfile] at hread
    split at hread
    · cases hread
    · rename_i hlisted
      rw [if_neg hlisted]
      split at hread
      · cases hread
      · rename_i piece hpiece
        cases hread
        rw [hpiece]
        rfl
  erase s g i h := h.deletePiece hout g i
  save s state h := h.saveState hout state
  load s id h := by
    simp only [StorageAdapter.loadState, NodeFileStorageAdapter.loadState]
    split
    · exact ⟨h, .refl _⟩
    · simp only [h.session, Option.getD_some]
      exact ⟨h.opened, .refl _⟩

/-- Before the output is prepared. -/
structure Unprepared (rootDir : Path) (s : NodeFileStorageAdapter) : Prop where
  root : s.rootDir = rootDir
  outputs : s.offsetOutputs = .empty

theorem Unprepared.of_eq (h : s.Unprepared rootDir) {s' : NodeFileStorageAdapter}
    (hroot : s'.rootDir = s.rootDir) (houtputs : s'.offsetOutputs = s.offsetOutputs) :
    s'.Unprepared rootDir :=
  ⟨hroot.trans h.root, houtputs.trans h.outputs⟩

/-- An engine does not prepare an output. -/
theorem unprepared_of_run {cfg : Config} {v w : World NodeFileStorageAdapter}
    (h : Run (World.step cfg) (fun _ x => Receives session M x.2) v w)
    (hv : v.engine.storage.Unprepared rootDir) : w.engine.storage.Unprepared rootDir := by
  refine kept_of_run (P := Unprepared rootDir) ?_ ?_ ?_ ?_ ?_ ?_
    (fun _ x (hx : Receives session M x.2) => hx.within) h hv
  · intro s hs
    simp only [StorageAdapter.init, NodeFileStorageAdapter.init]
    split
    · exact hs
    · exact hs.of_eq rfl rfl
  · intro s g i data hs
    simp only [StorageAdapter.writePiece, NodeFileStorageAdapter.writePiece, hs.outputs,
      OrderedMap.get?_empty]
    split
    · exact hs
    · exact hs.of_eq rfl hs.outputs.symm
  · intro s g i hs
    simp only [StorageAdapter.readPiece, NodeFileStorageAdapter.readPiece, hs.outputs,
      OrderedMap.get?_empty]
    exact hs
  · intro s g i hs
    simp only [StorageAdapter.deletePiece, NodeFileStorageAdapter.deletePiece, hs.outputs,
      OrderedMap.get?_empty]
    split
    · exact hs
    · exact hs.of_eq rfl hs.outputs.symm
  · intro s state hs
    simp only [StorageAdapter.saveState, NodeFileStorageAdapter.saveState]
    split
    · exact hs
    · exact hs.of_eq rfl rfl
  · intro s id hs
    simp only [StorageAdapter.loadState, NodeFileStorageAdapter.loadState]
    split
    · exact hs
    · exact hs.of_eq rfl rfl

/-- The output is prepared for the session that is open. -/
theorem Unprepared.serves (h : s.Unprepared rootDir) (hsession : s.sessionId = some session)
    (hout : ¬ Own rootDir session path) (hok : (s.prepareOutputFile M path).1 = .ok ()) :
    (s.prepareOutputFile M path).2.Serves session M rootDir path := by
  unfold prepareOutputFile at hok ⊢
  simp only at hok ⊢
  split at hok
  · cases hok
  · rename_i saved hload
    generalize (saved.filter (restores s.sha256 M path)).elim []
      (fun state => state.verifiedPieces.foldl insertNew []) = verified at *
    have hfresh : Serves session M rootDir path { s with
        disk := s.disk.set path (resize 0 M.size ((s.disk.get? path).getD []))
        offsetOutputs := s.offsetOutputs.set M.fileId ⟨M, path, verified⟩ } := by
      refine ⟨h.root, hsession, ⟨_, OrderedMap.get?_set_self ..⟩, fun g hg => ?_, ?_⟩
      · rw [OrderedMap.get?_set_of_ne _ _ hg, h.outputs]
        rfl
      · exact ⟨_, OrderedMap.get?_set_self .., length_resize ..⟩
    exact (hfresh.saveOffsetOutputState hout M.fileId).1

end NodeFileStorageAdapter

section

variable {hash : ArrayBuffer → String} {data : ArrayBuffer} {M : FileManifest}

theorem apart_of_describes (h : Describes hash data M) : NodeFileStorageAdapter.Apart M := by
  have hpiece : ∀ q ∈ M.pieces, q.offset = q.index * M.pieceSize ∧ q.index < M.pieceCount ∧
      q.size = min M.pieceSize (data.length - q.index * M.pieceSize) := by
    intro q hq
    rw [h.pieces] at hq
    obtain ⟨i, hi, rfl⟩ := List.mem_map.1 hq
    exact ⟨rfl, List.mem_range.1 hi, rfl⟩
  constructor
  · intro q hq
    obtain ⟨hoffset, hlt, hsize⟩ := hpiece q hq
    have hstart := h.start hlt
    rw [h.size]
    omega
  · intro q hq q' hq' hne
    obtain ⟨hoffset, -, hsize⟩ := hpiece q hq
    obtain ⟨hoffset', -, hsize'⟩ := hpiece q' hq'
    obtain hlt | hlt := Nat.lt_or_gt_of_ne hne
    · left
      have hle := Nat.mul_le_mul_right M.pieceSize (Nat.succ_le_of_lt hlt)
      rw [Nat.succ_mul] at hle
      omega
    · right
      have hle := Nat.mul_le_mul_right M.pieceSize (Nat.succ_le_of_lt hlt)
      rw [Nat.succ_mul] at hle
      omega

/-- A file that has every piece at its place. -/
theorem eq_of_excerpts (h : Describes hash data M) {file : ArrayBuffer}
    (hlength : file.length = M.size)
    (hpieces : ∀ i, i < M.pieceCount → excerpt file (i * M.pieceSize)
      (min M.pieceSize (data.length - i * M.pieceSize)) = content data M.pieceSize i) :
    file = data := by
  have hagree : AgreeOn (fun _ => True) file data := by
    refine ⟨hlength.trans h.size, fun j _ => ?_⟩
    by_cases hj : j < data.length
    · have hdiv := Nat.div_add_mod j M.pieceSize
      have hmod := Nat.mod_lt j h.pieceSize
      have hcount : j / M.pieceSize < M.pieceCount := by
        rw [Nat.div_lt_iff_lt_mul h.pieceSize]
        have hreach := le_ceil_mul data.length h.pieceSize
        rw [← h.pieceCount] at hreach
        omega
      have hpiece := hpieces _ hcount
      rw [← content_eq] at hpiece
      have hbyte := congrArg (fun l : ArrayBuffer => l[j % M.pieceSize]?) hpiece
      rw [Nat.mul_comm] at hdiv
      simp only [getElem?_excerpt] at hbyte
      rw [if_pos (by omega), if_pos (by omega), hdiv] at hbyte
      exact hbyte
    · have hsize := h.size
      rw [List.getElem?_eq_none (by omega), List.getElem?_eq_none (by omega)]
  exact hagree.eq fun _ _ => trivial

end

/-- What a download leaves in its output file, once each piece can be read from there: the file
that was shared, unless the hash has a collision. The output is prepared after the join, and the
pieces that were kept from an earlier run have to pass their checks. -/
theorem download_is_the_shared_file (cfg : Config) (hhash : ∀ d, cfg.hash d ≠ "")
    (createFileId : FileId) (file : Blob) (options : ManifestOptions) (M : FileManifest)
    (hM : ManifestGenerator.create cfg.hash createFileId file options = .ok M)
    (session : SessionId) (storage : NodeFileStorageAdapter)
    (hstorage : storage.offsetOutputs = .empty) (path : Path)
    (hout : ¬ NodeFileStorageAdapter.Own storage.rootDir session path) (transport : Bool)
    (v w : World NodeFileStorageAdapter)
    (hjoined : Run (World.step cfg) (fun _ x => Receives session M x.2)
      (World.new storage transport) v)
    (hsession : v.engine.storage.sessionId = some session)
    (hok : (v.engine.storage.prepareOutputFile M path).1 = .ok ())
    (hkept : ∀ i d, (v.engine.storage.prepareOutputFile M path).2.outputPiece M path i = some d →
      M.Vouches cfg.hash i d)
    (hreceived : Run (World.step cfg) (fun _ x => Receives session M x.2)
      (v.withStorage (v.engine.storage.prepareOutputFile M path).2) w)
    (hall : ∀ i, i < M.pieceCount →
      ∃ d, (StorageAdapter.readPiece M.fileId i w.engine.storage).1 = .ok (some d)) :
    w.engine.storage.disk.get? path = some file.data ∨
      ∃ i d, i < M.pieceCount ∧ Collides cfg.hash d (content file.data M.pieceSize i) := by
  obtain ⟨hdescribes, -⟩ := create_describes hM
  have hunprepared : v.engine.storage.Unprepared storage.rootDir :=
    NodeFileStorageAdapter.unprepared_of_run hjoined ⟨rfl, hstorage⟩
  obtain ⟨hjoins, hchecked⟩ := joins_of_run hjoined
  let shelf := NodeFileStorageAdapter.outputShelf session M storage.rootDir path
    (apart_of_describes hdescribes) hout
  have hkept' : shelf.Fits w.engine.storage ∧
      ∀ i d, shelf.held w.engine.storage i = some d → M.Vouches cfg.hash i d :=
    vouched_of_run hreceived hjoins (hchecked.withStorage _)
      (hunprepared.serves hsession hout hok) hkept
  obtain ⟨hserves, hvouched⟩ := hkept'
  refine or_iff_not_imp_right.2 fun hnone => ?_
  obtain ⟨bytes, hbytes, hlength⟩ := hserves.file
  obtain ⟨verified, hverified⟩ := hserves.output
  have hsame : bytes = file.data := by
    refine eq_of_excerpts hdescribes hlength fun i hi => ?_
    obtain ⟨d, hread⟩ := hall i hi
    have hheld := shelf.answer _ i d hserves hread
    have hpiece : d = content file.data M.pieceSize i := by
      obtain ⟨-, heq | hcollides⟩ := hdescribes.of_vouches hhash (hvouched i d hheld)
      · exact heq
      · exact absurd ⟨i, d, hi, hcollides⟩ hnone
    have heq := (NodeFileStorageAdapter.outputPiece_eq hverified hbytes i).symm.trans hheld
    split at heq
    · cases heq
    · rw [hdescribes.find? hi] at heq
      exact (Option.some.inj heq).trans hpiece
  rw [hbytes, hsame]

namespace Sample

/-- The session is joined from the command line. -/
def joined : World NodeFileStorageAdapter :=
  steps (World.step Core.Sample.config) (World.new node true) Core.Sample.joined

def prepared : Except Failure Unit × NodeFileStorageAdapter :=
  joined.engine.storage.prepareOutputFile Core.Sample.manifest "out/three"

/-- The only piece arrives. -/
def downloaded : World NodeFileStorageAdapter :=
  steps (World.step Core.Sample.config) (joined.withStorage prepared.2)
    [(Core.Sample.turn, .call (.receivePiece "f" 0 "m" [1] none)), (Core.Sample.turn, .resume 1)]

end Sample

theorem download_is_the_shared_file_sample :
    Sample.downloaded.engine.storage.disk.get? "out/three" = some [1] ∨
      ∃ i d, i < 1 ∧ Collides Core.Sample.config.hash d (content [1] 1 i) := by
  have hout : ¬ NodeFileStorageAdapter.Own ".ponswarp-grid" "s" "out/three" := by
    rintro ⟨rest, h⟩
    have hhead := congrArg (fun path : String => path.toList.head?) h
    simp at hhead
  have hhash : ∀ d, Core.Sample.config.hash d ≠ "" := by
    intro d
    simp only [Core.Sample.config]
    split <;> decide
  have hfresh : ∀ i, Sample.prepared.2.outputPiece Core.Sample.manifest "out/three" i = none := by
    intro i
    have hnone : (Sample.prepared.2.offsetOutputs.get? "f").map (·.verifiedPieces) = some [] := by
      decide +kernel
    obtain ⟨output, houtput, hverified⟩ := Option.map_eq_some_iff.1 hnone
    have houtput' : Sample.prepared.2.offsetOutputs.get? Core.Sample.manifest.fileId =
      some output := houtput
    simp [NodeFileStorageAdapter.outputPiece, houtput', hverified]
  have hread : ∀ i, i < 1 →
      ∃ d, (StorageAdapter.readPiece "f" i Sample.downloaded.engine.storage).1 = .ok (some d) := by
    intro i hi
    obtain rfl : i = 0 := by omega
    exact ⟨[1], by decide +kernel⟩
  refine download_is_the_shared_file Core.Sample.config hhash "" ⟨"f", "", [1]⟩
    ⟨1, false, none, some "f", none⟩ Core.Sample.manifest (by decide +kernel) "s" Sample.node rfl
    "out/three" hout true Sample.joined Sample.downloaded (run_of_allowed (by decide +kernel))
    (by decide +kernel) (by decide +kernel) (fun i d hd => ?_) (run_of_allowed (by decide +kernel))
    hread
  exact absurd (hfresh i ▸ hd) (by simp)

end PonsWarp.Cli
