import PonsWarp.Cli.JoinOutput

set_option autoImplicit false

/-!
A download stays in its directory, whatever the descriptor calls the file.
-/

namespace PonsWarp.Cli

open PonsWarp.Core PonsWarp.Data PonsWarp.Data.Posix

/-- An entry of a directory. -/
def Child (dir l : List Name) : Prop := ∃ n, Plain n ∧ l = dir ++ [n]

theorem child_move {dir : List Name} {n : Name} (h : Plain n) : Child dir (move dir n) :=
  ⟨n, h, move_plain h dir⟩

theorem not_child_self (dir : List Name) : ¬ Child dir dir := by
  rintro ⟨n, -, h⟩
  have hlength := congrArg List.length h
  simp at hlength

theorem not_child_dropLast (dir : List Name) : ¬ Child dir dir.dropLast := by
  rintro ⟨n, -, h⟩
  have hlength := congrArg List.length h
  simp only [List.length_dropLast, List.length_append, List.length_singleton] at hlength
  omega

theorem not_child_move {dir : List Name} {n : Name} (hslash : '/' ∉ n) (h : ¬ Plain n) :
    ¬ Child dir (move dir n) := by
  rcases move_of_not_plain hslash h dir with hstay | hup
  · rw [hstay]
    exact not_child_self dir
  · rw [hup]
    exact not_child_dropLast dir

theorem slash_outputName (manifest : FileManifest) : '/' ∉ outputName manifest := by
  unfold outputName basename
  intro h
  rcases List.eq_nil_or_concat ((parts manifest.name.toList).filter (· ≠ [])) with hnil | hconcat
  · rw [hnil] at h
    simp at h
  · obtain ⟨front, last, hconcat⟩ := hconcat
    rw [hconcat, List.concat_eq_append, List.getLastD_concat] at h
    have hmem : last ∈ (parts manifest.name.toList).filter (· ≠ []) := by
      rw [hconcat]
      simp
    exact not_mem_of_mem_parts (List.mem_of_mem_filter hmem) h

/-- The name of the temporary file is one whatever the name in the descriptor is. -/
theorem plain_tempName (manifest : FileManifest) :
    Plain ('.' :: outputName manifest ++ ".ponswarp-partial".toList) := by
  have hsuffix : ".ponswarp-partial".toList =
      ['.', 'p', 'o', 'n', 's', 'w', 'a', 'r', 'p', '-', 'p', 'a', 'r', 't', 'i', 'a', 'l'] := rfl
  have hlength : 2 < ('.' :: outputName manifest ++ ".ponswarp-partial".toList).length := by
    rw [hsuffix]
    simp only [List.length_append, List.length_cons]
    omega
  refine ⟨by simp, ?_, ?_, ?_⟩
  · intro h
    rw [h] at hlength
    simp at hlength
  · intro h
    rw [h] at hlength
    simp at hlength
  · have hname := slash_outputName manifest
    rw [hsuffix]
    simp [hname]

theorem tempName_ne (manifest : FileManifest) :
    '.' :: outputName manifest ++ ".ponswarp-partial".toList ≠ outputName manifest := by
  intro h
  have hlength := congrArg List.length h
  simp only [List.length_append, List.length_cons] at hlength
  omega

namespace Workplace

variable {dir : List Name} {base : FileTree} {before : List (List Name)} {cwd : List Name}
  {path : List Char} {w : Workplace}

/-- What a download has changed lies in its directory, and what it still writes to does. -/
structure Confined (dir : List Name) (base : FileTree) (before : List (List Name))
    (cwd : List Name) (path : List Char) (w : Workplace) : Prop where
  outside : ∀ l, ¬ Child dir l → w.tree.node l = base.node l
  opened : ∀ l ∈ w.opened, l ∈ before ∨ Child dir l
  cwd : w.cwd = cwd
  outputs : ∀ fileId output, w.storage.offsetOutputs.get? fileId = some output →
    output.outputPath = String.ofList path

theorem node_setContent_of_ne {t : FileTree} {l m : List Name} (h : m ≠ l) (content : List UInt8) :
    (t.setContent l content).node m = t.node m := by
  unfold FileTree.setContent
  split
  · exact FileTree.node_put_of_ne h _
  · rfl

theorem openFile_eq {t : FileTree} {p : List Char} {l : List Name} {content : List UInt8}
    (h : t.openFile cwd p = .ok (l, content)) : l = location cwd p := by
  unfold FileTree.openFile at h
  split at h
  · cases h
  · rename_i hfind
    split at h
    · cases h
    · cases h
      exact FileTree.find_eq hfind
    · cases h

theorem saveOffsetOutputState_outputs (fileId : FileId) (s : NodeFileStorageAdapter) :
    (s.saveOffsetOutputState fileId).2.offsetOutputs = s.offsetOutputs := by
  unfold NodeFileStorageAdapter.saveOffsetOutputState
  split
  · rfl
  · split <;> rfl

theorem outputs_set {s : NodeFileStorageAdapter} {fileId : FileId} {output : OffsetOutput}
    (h : ∀ id o, s.offsetOutputs.get? id = some o → o.outputPath = String.ofList path)
    (houtput : output.outputPath = String.ofList path) :
    ∀ id o, (s.offsetOutputs.set fileId output).get? id = some o →
      o.outputPath = String.ofList path := by
  intro id o ho
  rw [OrderedMap.get?_set] at ho
  split at ho
  · exact Option.some.inj ho ▸ houtput
  · exact h id o ho

/-- A file at the place of the output is opened, and perhaps written. -/
theorem Confined.touch (h : w.Confined dir base before cwd path)
    (hpath : Child dir (location cwd path)) (tree : FileTree) {s : NodeFileStorageAdapter}
    (htree : ∀ l, l ≠ location cwd path → tree.node l = w.tree.node l)
    (hs : ∀ fileId output, s.offsetOutputs.get? fileId = some output →
      output.outputPath = String.ofList path) :
    ({ w with tree := tree, opened := w.opened ++ [location cwd path], storage := s } :
      Workplace).Confined dir base before cwd path := by
  refine ⟨?_, ?_, h.cwd, hs⟩
  · intro l hl
    refine (htree l ?_).trans (h.outside l hl)
    rintro rfl
    exact hl hpath
  · intro l hl
    rcases List.mem_append.1 hl with hold | hnew
    · exact h.opened l hold
    · rw [List.mem_singleton.1 hnew]
      exact .inr hpath

theorem Confined.storage (h : w.Confined dir base before cwd path) {s : NodeFileStorageAdapter}
    (hs : ∀ fileId output, s.offsetOutputs.get? fileId = some output →
      output.outputPath = String.ofList path) :
    ({ w with storage := s } : Workplace).Confined dir base before cwd path :=
  ⟨h.outside, h.opened, h.cwd, hs⟩

theorem Confined.writePiece (h : w.Confined dir base before cwd path)
    (hpath : Child dir (location cwd path)) (fileId : FileId) (pieceIndex : Nat)
    (data : ArrayBuffer) : (w.writePiece fileId pieceIndex data).Confined dir base before cwd path := by
  unfold Workplace.writePiece
  split
  · rename_i output houtput
    split
    · exact h
    · split
      · exact h
      · split
        · exact h
        · rename_i l content hopen
          have hsame := h.outputs fileId output houtput
          rw [hsame, h.cwd, String.toList_ofList] at hopen
          obtain rfl := openFile_eq hopen
          refine h.touch hpath _ (fun l hl => node_setContent_of_ne hl _) ?_
          rw [saveOffsetOutputState_outputs]
          exact outputs_set h.outputs hsame
  · rename_i hnone
    refine h.storage ?_
    have hkept : (w.storage.writePiece fileId pieceIndex data).2.offsetOutputs =
        w.storage.offsetOutputs := by
      unfold NodeFileStorageAdapter.writePiece
      rw [hnone]
      simp only
      split <;> rfl
    rw [hkept]
    exact h.outputs

theorem Confined.readPiece (h : w.Confined dir base before cwd path)
    (hpath : Child dir (location cwd path)) (fileId : FileId) (pieceIndex : Nat) :
    (w.readPiece fileId pieceIndex).Confined dir base before cwd path := by
  unfold Workplace.readPiece
  split
  · rename_i output houtput
    split
    · exact h
    · split
      · exact h
      · rename_i l content hopen
        rw [h.outputs fileId output houtput, h.cwd, String.toList_ofList] at hopen
        obtain rfl := openFile_eq hopen
        exact h.touch hpath _ (fun _ _ => rfl) h.outputs
  · exact h

theorem Confined.perform (h : w.Confined dir base before cwd path)
    (hpath : Child dir (location cwd path)) (call : StorageCall) :
    (w.perform call).Confined dir base before cwd path := by
  cases call with
  | writePiece fileId pieceIndex data => exact h.writePiece hpath fileId pieceIndex data
  | readPiece fileId pieceIndex => exact h.readPiece hpath fileId pieceIndex
  | deletePiece fileId pieceIndex =>
    refine h.storage ?_
    unfold NodeFileStorageAdapter.deletePiece
    split
    · rename_i output houtput
      rw [saveOffsetOutputState_outputs]
      exact outputs_set h.outputs (h.outputs fileId output houtput)
    · split <;> exact h.outputs
  | saveState state =>
    refine h.storage ?_
    unfold NodeFileStorageAdapter.saveState
    split <;> exact h.outputs

theorem Confined.performs (h : w.Confined dir base before cwd path)
    (hpath : Child dir (location cwd path)) (calls : List StorageCall) :
    (calls.foldl Workplace.perform w).Confined dir base before cwd path := by
  induction calls generalizing w with
  | nil => exact h
  | cons call rest ih => exact ih (h.perform hpath call)

/-- The directory is there, and the path to it has been followed. -/
structure Entered (base : FileTree) (cwd : List Name) (outDir : String) : Prop where
  named : outDir.toList ≠ []
  walkable : base.Walkable (start cwd outDir.toList) (parts outDir.toList)

variable {outDir : String}

theorem openAppend_eq {t t' : FileTree} {p : List Char} {l : List Name}
    (h : t.openAppend cwd p = .ok (t', l)) :
    l = location cwd p ∧ t.node l ≠ some .dir ∧ ∀ m, m ≠ l → t'.node m = t.node m := by
  unfold FileTree.openAppend at h
  split at h
  · cases h
  · rename_i hfind
    split at h
    · cases h
    · rename_i hnode
      cases h
      exact ⟨FileTree.find_eq hfind, by simp [hnode], fun _ _ => rfl⟩
    · rename_i hnode
      cases h
      exact ⟨FileTree.find_eq hfind, by simp [hnode], fun m hm => FileTree.node_put_of_ne hm _⟩

/-- A name that is none leads to a directory, which is not opened as a file. -/
theorem node_degenerate {t : FileTree} (h : Entered t cwd outDir) {n : Name} (hslash : '/' ∉ n)
    (hn : ¬ Plain n) : t.node (location cwd (join outDir.toList n)) = some .dir := by
  rw [location_join cwd h.named hslash]
  rcases move_of_not_plain hslash hn (walk (start cwd outDir.toList) (parts outDir.toList)) with
    hstay | hup
  · exact (congrArg t.node hstay).trans h.walkable.walk
  · exact (congrArg t.node hup).trans (FileTree.node_dropLast h.walkable.walk)

theorem prepareOutputFile_degenerate (h : Entered w.tree w.cwd outDir) {n : Name}
    (hslash : '/' ∉ n) (hn : ¬ Plain n) (manifest : FileManifest) :
    w.prepareOutputFile manifest (join outDir.toList n) =
      (.error (systemFailure .EISDIR "open" (join outDir.toList n)), w) := by
  have hfind := FileTree.find_join h.named h.walkable hslash
  unfold prepareOutputFile FileTree.openAppend
  simp only [FileTree.mkdir_dirname hfind, hfind, node_degenerate h hslash hn]

theorem Confined.prepareOutputFile (manifest : FileManifest) {n : Name}
    (hentered : Entered w.tree cwd outDir) (hn : Plain n)
    (h : w.Confined (location cwd outDir.toList) base before cwd (join outDir.toList n)) :
    (w.prepareOutputFile manifest (join outDir.toList n)).2.Confined
      (location cwd outDir.toList) base before cwd (join outDir.toList n) := by
  have hfind := FileTree.find_join hentered.named hentered.walkable hn.slash
  have hchild : Child (location cwd outDir.toList) (location cwd (join outDir.toList n)) := by
    rw [location_join cwd hentered.named hn.slash]
    exact child_move hn
  unfold Workplace.prepareOutputFile
  simp only [h.cwd, FileTree.mkdir_dirname hfind]
  split
  · exact ⟨h.outside, h.opened, rfl, h.outputs⟩
  · rename_i tree l hopen
    obtain ⟨rfl, -, htree⟩ := openAppend_eq hopen
    have htouch := fun content => h.touch hchild (s := w.storage)
      (tree.setContent (location cwd (join outDir.toList n)) content)
      (fun l hl => (node_setContent_of_ne hl _).trans (htree l hl)) h.outputs
    rw [h.cwd] at htouch
    split
    · exact htouch _
    · refine (htouch _).storage ?_
      rw [saveOffsetOutputState_outputs]
      exact outputs_set h.outputs rfl

theorem rename_eq {t t' : FileTree} {p q : List Char} {l m : List Name}
    (h : t.rename cwd p q = .ok (t', l, m)) :
    l = location cwd p ∧ m = location cwd q ∧ t.node m ≠ some .dir ∧
      ∀ k, k ≠ l → k ≠ m → t'.node k = t.node k := by
  unfold FileTree.rename at h
  split at h
  · cases h
  · rename_i hopen
    split at h
    · cases h
    · rename_i hfind
      split at h
      · cases h
      · rename_i hnode
        split at h
        · cases h
          exact ⟨openFile_eq hopen, FileTree.find_eq hfind, hnode, fun _ _ _ => rfl⟩
        · cases h
          refine ⟨openFile_eq hopen, FileTree.find_eq hfind, hnode, fun k hl hm => ?_⟩
          rw [FileTree.node_erase_of_ne hl, FileTree.node_put_of_ne hm]

theorem Confined.checkHash (h : w.Confined dir base before cwd path)
    (hpath : Child dir (location cwd path)) {hash : ArrayBuffer → String} {manifest : FileManifest}
    {w' : Workplace} (hchecked : w.checkHash hash manifest path = .ok w') :
    w'.Confined dir base before cwd path := by
  unfold Workplace.checkHash at hchecked
  split at hchecked
  · cases hchecked
    exact h
  · split at hchecked
    · cases hchecked
    · rename_i l content hopen
      split at hchecked
      · cases hchecked
      · cases hchecked
        rw [h.cwd] at hopen
        obtain rfl := openFile_eq hopen
        exact h.touch hpath _ (fun _ _ => rfl) h.outputs

/-- The file gets its name in the directory, or keeps the one that it has. -/
theorem Confined.renameOutput (h : w.Confined dir base before cwd path)
    (hpath : Child dir (location cwd path)) {target : List Char}
    (htarget : Child dir (location cwd target) ∨
      w.tree.node (location cwd target) = some .dir) :
    (w.renameOutput path target).2.Confined dir base before cwd path ∧
      (w.tree.node (location cwd target) = some .dir →
        ∃ err, (w.renameOutput path target).1 = .error err) := by
  unfold Workplace.renameOutput
  rw [h.cwd]
  split
  · exact ⟨⟨h.outside, h.opened, h.cwd, h.outputs⟩, fun _ => ⟨_, rfl⟩⟩
  · rename_i tree l m hrename
    obtain ⟨rfl, rfl, hnode, htree⟩ := rename_eq hrename
    have htarget' := htarget.resolve_right hnode
    refine ⟨⟨?_, ?_, rfl, h.outputs⟩, fun hdir => absurd hdir hnode⟩
    · intro k hk
      refine (htree k ?_ ?_).trans (h.outside k hk)
      · rintro rfl
        exact hk hpath
      · rintro rfl
        exact hk htarget'
    · intro k hk
      simp only [List.mem_append, List.mem_cons, List.not_mem_nil, or_false] at hk
      rcases hk with hold | rfl | rfl
      · exact h.opened k hold
      · exact .inr hpath
      · exact .inr htarget'

theorem complete_confined {manifest : FileManifest} {command : JoinCommand}
    (hentered : Entered base cwd command.outDir) (hash : ArrayBuffer → String)
    (hchild : Child (location cwd command.outDir.toList) (location cwd path))
    (hpath : path = if command.seedAfterComplete then outputPath command.outDir manifest
      else tempOutputPath command.outDir manifest)
    (h : w.Confined (location cwd command.outDir.toList) base before cwd path) :
    (w.complete hash manifest command).2.Confined (location cwd command.outDir.toList) base before
        cwd path ∧
      (¬ Plain (outputName manifest) → command.seedAfterComplete = false →
        ∃ err, (w.complete hash manifest command).1 = .error err) := by
  have hslash := slash_outputName manifest
  unfold complete
  simp only [← hpath]
  split
  · exact ⟨h, fun _ _ => ⟨_, rfl⟩⟩
  · split
    · exact ⟨h, fun _ _ => ⟨_, rfl⟩⟩
    · split
      · exact ⟨h, fun _ _ => ⟨_, rfl⟩⟩
      · split
        · exact ⟨h, fun _ _ => ⟨_, rfl⟩⟩
        · rename_i w' hchecked
          have h' := h.checkHash hchild hchecked
          cases hseed : command.seedAfterComplete with
          | true => exact ⟨h', fun _ he => by cases he⟩
          | false =>
            have htemp : path = tempOutputPath command.outDir manifest := by simpa [hseed] using hpath
            simp only [Bool.false_eq_true, if_false, ← htemp]
            by_cases hn : Plain (outputName manifest)
            · have htarget : Child (location cwd command.outDir.toList)
                  (location cwd (outputPath command.outDir manifest)) := by
                rw [outputPath, location_join cwd hentered.named hslash]
                exact child_move hn
              exact ⟨(h'.renameOutput hchild (.inl htarget)).1, fun hno => absurd hn hno⟩
            · have htarget : w'.tree.node (location cwd (outputPath command.outDir manifest)) =
                  some .dir := by
                refine (h'.outside _ ?_).trans (node_degenerate hentered hslash hn)
                rw [outputPath, location_join cwd hentered.named hslash]
                exact not_child_move hslash hn
              obtain ⟨hconfined, herror⟩ := h'.renameOutput hchild (.inr htarget)
              exact ⟨hconfined, fun _ _ => herror htarget⟩

/-- Outside of the directory a download leaves everything as it is after the directory was made. -/
structure Stays (w w' : Workplace) (outDir : String) : Prop where
  outside : (∀ l, ¬ Child (location w.cwd outDir.toList) l → w'.tree.node l = w.tree.node l) ∨
    ∀ l, ¬ Child (location w.cwd outDir.toList) l →
      w'.tree.node l = (w.tree.mkdir w.cwd outDir.toList).1.node l
  opened : ∀ l ∈ w'.opened, l ∈ w.opened ∨ Child (location w.cwd outDir.toList) l

theorem Confined.stays {w' : Workplace} {outDir : String}
    (h : w'.Confined (location w.cwd outDir.toList) (w.tree.mkdir w.cwd outDir.toList).1 w.opened
      w.cwd path) : Stays w w' outDir := ⟨.inr h.outside, h.opened⟩

/-- The two paths of a download lead to two entries of its directory. -/
structure Placed (cwd : List Name) (outDir : String) (manifest : FileManifest) : Prop where
  output : Child (location cwd outDir.toList) (location cwd (outputPath outDir manifest))
  temp : Child (location cwd outDir.toList) (location cwd (tempOutputPath outDir manifest))
  distinct : location cwd (outputPath outDir manifest) ≠
    location cwd (tempOutputPath outDir manifest)

theorem placed {manifest : FileManifest} (hnamed : outDir.toList ≠ [])
    (hn : Plain (outputName manifest)) (cwd : List Name) : Placed cwd outDir manifest := by
  have htemp := plain_tempName manifest
  refine ⟨?_, ?_, ?_⟩
  · rw [outputPath, location_join cwd hnamed hn.slash]
    exact child_move hn
  · rw [tempOutputPath, location_join cwd hnamed htemp.slash]
    exact child_move htemp
  · rw [outputPath, tempOutputPath, location_join cwd hnamed hn.slash,
      location_join cwd hnamed htemp.slash, move_plain hn, move_plain htemp]
    intro he
    exact tempName_ne manifest (List.singleton_inj.1 (List.append_cancel_left he)).symm

theorem download_stays (course : JoinCourse) (manifest : FileManifest) (command : JoinCommand)
    (hnew : ∀ fileId, w.storage.offsetOutputs.get? fileId = none) :
    Stays w (w.download course manifest command).2 command.outDir ∧
      (Placed w.cwd command.outDir manifest ∨
        ∃ err, (w.download course manifest command).1 = .error err) := by
  unfold download
  cases hmkdir : w.tree.mkdir w.cwd command.outDir.toList with
  | mk tree result =>
    have htree : tree = (w.tree.mkdir w.cwd command.outDir.toList).1 := by rw [hmkdir]
    cases result with
    | error e =>
      refine ⟨⟨.inr fun l _ => ?_, fun l hl => .inl hl⟩, .inr ⟨_, rfl⟩⟩
      simp only [htree]
    | ok u =>
      have hok : (w.tree.mkdir w.cwd command.outDir.toList).2 = .ok () := by rw [hmkdir]
      obtain ⟨hwalkable, hnamed⟩ := FileTree.mkdir_location hok
      rw [← htree] at hwalkable
      have hentered : Entered tree w.cwd command.outDir := ⟨hnamed, hwalkable⟩
      have hslash := slash_outputName manifest
      simp only
      by_cases hdegenerate : command.seedAfterComplete = true ∧ ¬ Plain (outputName manifest)
      · have hprepare := prepareOutputFile_degenerate (w := { w with tree := tree }) hentered hslash
          hdegenerate.2 manifest
        rw [hdegenerate.1]
        simp only [if_true, outputPath, hprepare]
        refine ⟨⟨.inr fun l _ => ?_, fun l hl => .inl hl⟩, .inr ⟨_, rfl⟩⟩
        simp only [htree]
      · obtain ⟨n, hn, hactive⟩ : ∃ n, Plain n ∧ (if command.seedAfterComplete = true then
            outputPath command.outDir manifest else tempOutputPath command.outDir manifest) =
            join command.outDir.toList n := by
          cases hseed : command.seedAfterComplete with
          | true =>
            have hplain : Plain (outputName manifest) := by
              by_contra hno
              exact hdegenerate ⟨hseed, hno⟩
            exact ⟨_, hplain, rfl⟩
          | false => exact ⟨_, plain_tempName manifest, rfl⟩
        have hchild : Child (location w.cwd command.outDir.toList)
            (location w.cwd (join command.outDir.toList n)) := by
          rw [location_join w.cwd hnamed hn.slash]
          exact child_move hn
        have hstart : Confined (location w.cwd command.outDir.toList) tree w.opened w.cwd
            (join command.outDir.toList n) { w with tree := tree } := by
          refine ⟨fun _ _ => rfl, fun l hl => .inl hl, rfl, ?_⟩
          intro fileId output houtput
          rw [hnew fileId] at houtput
          cases houtput
        have hprepared := hstart.prepareOutputFile manifest hentered hn
        rw [hactive]
        split
        · rename_i err w' hprepare
          rw [hprepare, htree] at hprepared
          exact ⟨hprepared.stays, .inr ⟨_, rfl⟩⟩
        · rename_i w' hprepare
          rw [hprepare] at hprepared
          have hperformed := hprepared.performs hchild course.calls
          cases course.transferred with
          | error err =>
            rw [htree] at hperformed
            exact ⟨hperformed.stays, .inr ⟨_, rfl⟩⟩
          | ok u =>
            obtain ⟨hconfined, herror⟩ :=
              complete_confined hentered course.hash hchild hactive.symm hperformed
            rw [htree] at hconfined
            refine ⟨hconfined.stays, ?_⟩
            by_cases hplain : Plain (outputName manifest)
            · exact .inl (placed hnamed hplain w.cwd)
            · have hseed : command.seedAfterComplete = false := by
                by_contra hseed
                exact hdegenerate ⟨by simpa using hseed, hplain⟩
              exact .inr (herror hplain hseed)

/-- Whatever a descriptor calls its file: the paths of the download are two entries of the output
directory, or it fails, and in any case nothing else is opened or changed. -/
theorem downloads_stay_in_directory (json : Json CliSessionDescriptor) (course : JoinCourse)
    (command : JoinCommand) (w : Workplace) :
    Stays w (runJoin json course command w).2 command.outDir ∧
      ((∃ err, (runJoin json course command w).1 = .error err) ∨
        ∃ descriptor manifest more, decodeJoinDescriptor json command.session = .ok descriptor ∧
          descriptor.manifests = manifest :: more ∧ Placed w.cwd command.outDir manifest) := by
  have hsame : ∀ storage, Stays w { w with storage := storage } command.outDir :=
    fun _ => ⟨.inl fun _ _ => rfl, fun _ hl => .inl hl⟩
  unfold runJoin
  split
  · exact ⟨hsame w.storage, .inl ⟨_, rfl⟩⟩
  · rename_i descriptor hdecode
    simp only
    split
    · exact ⟨hsame _, .inl ⟨_, rfl⟩⟩
    · split
      · exact ⟨hsame _, .inl ⟨_, rfl⟩⟩
      · rename_i manifest more hmanifests
        obtain ⟨hstays, hplaced | herror⟩ := download_stays (w := { w with storage := { w.storage with
          sessionId := some descriptor.sessionId, offsetOutputs := .empty } }) course manifest command
          (fun _ => rfl)
        · exact ⟨⟨hstays.outside, hstays.opened⟩,
            .inr ⟨descriptor, manifest, more, hdecode, hmanifests, hplaced⟩⟩
        · exact ⟨⟨hstays.outside, hstays.opened⟩, .inl herror⟩

end Workplace

end PonsWarp.Cli
