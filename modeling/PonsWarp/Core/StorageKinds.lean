import PonsWarp.Core.IndexedDbStorage
import PonsWarp.Core.OpfsStorage

set_option autoImplicit false

/-!
The storages of a page, used one call after the other: the file system of the origin, a database
and the memory answer as the storage does that keeps its pieces by session, file and index.
-/

namespace PonsWarp.Core

open PonsWarp.Data Posix

namespace OPFSStorageAdapter

/-- The directory of a session. -/
def place (id : SessionId) : List Name := [GRID, SESSIONS, id.toList]

/-- A file id that can name a directory beside the files of the session. -/
structure Regular (f : FileId) : Prop where
  name : EntryName f.toList
  state : f.toList ≠ STATE
  probe : f.toList ≠ PROBE

instance (f : FileId) : Decidable (Regular f) :=
  decidable_of_iff (EntryName f.toList ∧ f.toList ≠ STATE ∧ f.toList ≠ PROBE)
    ⟨fun ⟨h, hstate, hprobe⟩ => ⟨h, hstate, hprobe⟩,
      fun ⟨h, hstate, hprobe⟩ => ⟨h, hstate, hprobe⟩⟩

theorem entryName_consts :
    EntryName GRID ∧ EntryName SESSIONS ∧ EntryName STATE ∧ EntryName PROBE := by
  decide +kernel

theorem entryName_pieceName (i : Nat) : EntryName (pieceName i) := by
  have hpiece : ".piece".toList = ['.', 'p', 'i', 'e', 'c', 'e'] := rfl
  have hdigits : ∀ c ∈ i.repr.toList, c.isDigit = true := by
    intro c hc
    rw [Nat.toList_repr] at hc
    exact Nat.isDigit_of_mem_toDigits (by decide) (by decide) hc
  have hno : ∀ c : Char, c.isDigit = false → c ∉ ".piece".toList → c ∉ pieceName i := by
    intro c hc hout hin
    obtain hdigit | hlast := List.mem_append.1 hin
    · rw [hdigits c hdigit] at hc
      cases hc
    · exact hout hlast
  have hlong : 6 ≤ (pieceName i).length := by
    simp [pieceName, hpiece]
  refine ⟨⟨?_, ?_, ?_, hno _ (by decide) (by decide)⟩, hno _ (by decide) (by decide)⟩ <;>
  · intro heq
    simp [heq] at hlong

theorem pieceName_inj {i j : Nat} : pieceName i = pieceName j ↔ i = j := by
  constructor
  · intro h
    have hdigits := List.append_cancel_right h
    simp only [Nat.toList_repr] at hdigits
    have hval := congrArg (Nat.ofDigitChars 10 · 0) hdigits
    simpa using hval
  · rintro rfl
    rfl

/-- What the tree has of the pieces and states of a storage. -/
structure Layout (text : StateText) (node : List Name → Option Node) (t : SessionStorage) :
    Prop where
  grid : ∀ c, node [GRID] ≠ some (.file c)
  sessions : ∀ c, node [GRID, SESSIONS] ≠ some (.file c)
  dirs : ∀ id c, node (place id) ≠ some (.file c)
  folders : ∀ id f c, Regular f → node (place id ++ [f.toList]) ≠ some (.file c)
  pieces : ∀ id f i, Regular f →
    node (place id ++ [f.toList] ++ [pieceName i]) = (t.pieces.get? (id, f, i)).map .file
  states : ∀ id, node (place id ++ [STATE]) =
    (t.states.get? id).map fun state => .file (text.stringify state)
  probe : ∀ id, node (place id ++ [PROBE]) = none

variable {text : StateText} {node : List Name → Option Node} {t : SessionStorage} {l : List Name}
  {id : SessionId} {f : FileId} {i : Nat}

/-- A directory where the adapter has one. -/
inductive Folder : List Name → Prop
  | grid : Folder [GRID]
  | sessions : Folder [GRID, SESSIONS]
  | session (id : SessionId) : Folder (place id)
  | file (id : SessionId) (f : FileId) (h : Regular f) : Folder (place id ++ [f.toList])

theorem Layout.folder (h : Layout text node t) (hl : Folder l) :
    ∀ c, node l ≠ some (.file c) := by
  cases hl with
  | grid => exact h.grid
  | sessions => exact h.sessions
  | session id => exact h.dirs id
  | file id f hf => exact fun c => h.folders id f c hf

theorem Layout.mkdir (h : Layout text node t) (hl : Folder l) :
    Layout text (fun m => if m = l then some .dir else node m) t := by
  refine ⟨?_, ?_, ?_, ?_, ?_, ?_, ?_⟩
  · intro c
    split
    · simp
    · exact h.grid c
  · intro c
    split
    · simp
    · exact h.sessions c
  · intro id c
    split
    · simp
    · exact h.dirs id c
  · intro id f c hf
    split
    · simp
    · exact h.folders id f c hf
  · intro id f i hf
    have hne : place id ++ [f.toList] ++ [pieceName i] ≠ l := by
      cases hl <;> simp [place]
    simp only [hne, if_false]
    exact h.pieces id f i hf
  · intro id
    have hne : place id ++ [STATE] ≠ l := by
      cases hl with
      | file id' f hf => simp [place, Ne.symm hf.state]
      | _ => simp [place]
    simp only [hne, if_false]
    exact h.states id
  · intro id
    have hne : place id ++ [PROBE] ≠ l := by
      cases hl with
      | file id' f hf => simp [place, Ne.symm hf.probe]
      | _ => simp [place]
    simp only [hne, if_false]
    exact h.probe id

/-- The file of a piece is written or erased. -/
theorem Layout.setPiece (h : Layout text node t) (id : SessionId) (f : FileId) (i : Nat)
    (data : Option ArrayBuffer) (pieces : OrderedMap (SessionId × FileId × Nat) ArrayBuffer)
    (hpieces : ∀ k, pieces.get? k = if k = (id, f, i) then data else t.pieces.get? k) :
    Layout text (fun m => if m = place id ++ [f.toList] ++ [pieceName i]
      then data.map .file else node m) { t with pieces := pieces } := by
  refine ⟨?_, ?_, ?_, ?_, ?_, ?_, ?_⟩
  · simpa [place] using h.grid
  · simpa [place] using h.sessions
  · simpa [place] using h.dirs
  · simpa [place] using h.folders
  · intro id' f' i' hf
    simp only [hpieces, Prod.mk.injEq]
    by_cases heq : id' = id ∧ f' = f ∧ i' = i
    · obtain ⟨rfl, rfl, rfl⟩ := heq
      simp
    · have hne : place id' ++ [f'.toList] ++ [pieceName i'] ≠
          place id ++ [f.toList] ++ [pieceName i] := by
        simpa [place, String.toList_inj, pieceName_inj] using heq
      simp only [hne, heq, if_false]
      exact h.pieces id' f' i' hf
  · simpa [place] using h.states
  · simpa [place] using h.probe

theorem state_ne_probe : STATE ≠ PROBE := by decide +kernel

theorem Layout.setState (h : Layout text node t) (id : SessionId) (state : PersistedSessionState) :
    Layout text (fun m => if m = place id ++ [STATE] then some (.file (text.stringify state))
      else node m) { t with states := t.states.set id state } := by
  refine ⟨?_, ?_, ?_, ?_, ?_, ?_, ?_⟩
  · simpa [place] using h.grid
  · simpa [place] using h.sessions
  · simpa [place] using h.dirs
  · intro id' f c hf
    have hne : place id' ++ [f.toList] ≠ place id ++ [STATE] := by
      simp [place, hf.state]
    simp only [hne, if_false]
    exact h.folders id' f c hf
  · simpa [place] using h.pieces
  · intro id'
    simp only [OrderedMap.get?_set]
    by_cases heq : id' = id
    · subst heq
      simp
    · have hne : place id' ++ [STATE] ≠ place id ++ [STATE] := by
        simpa [place, String.toList_inj] using heq
      simp only [hne, heq, if_false]
      exact h.states id'
  · intro id'
    have hne : place id' ++ [PROBE] ≠ place id ++ [STATE] := by
      simp [place, Ne.symm state_ne_probe]
    simp only [hne, if_false]
    exact h.probe id'

/-- A session is removed. -/
theorem Layout.remove (h : Layout text node t) (id : SessionId) :
    Layout text (fun m => if place id <+: m then none else node m)
      { t with
        pieces := t.pieces.deleteAll (t.pieces.keys.filter (·.1 = id))
        states := t.states.delete id } := by
  have hplace : ∀ (id' : SessionId) (more : List Name),
      place id <+: place id' ++ more ↔ id' = id := by
    intro id' more
    simp [place, String.toList_inj, eq_comm]
  refine ⟨?_, ?_, ?_, ?_, ?_, ?_, ?_⟩
  · simpa [place] using h.grid
  · simpa [place] using h.sessions
  · intro id' c
    have hp := hplace id' []
    rw [List.append_nil] at hp
    simp only [hp]
    split
    · simp
    · exact h.dirs id' c
  · intro id' f c hf
    simp only [hplace]
    split
    · simp
    · exact h.folders id' f c hf
  · intro id' f i hf
    simp only [List.append_assoc, hplace, OrderedMap.get?_deleteAll]
    by_cases heq : id' = id
    · subst heq
      simp only [if_true]
      split
      · rfl
      · rename_i hout
        cases hget : t.pieces.get? (id', f, i) with
        | none => rfl
        | some d => exact absurd (List.mem_filter.2 ⟨OrderedMap.mem_keys_iff.2 ⟨d, hget⟩, by simp⟩) hout
    · have hout : (id', f, i) ∉ t.pieces.keys.filter (·.1 = id) := by
        simp [heq]
      simp only [heq, hout, if_false]
      rw [← List.append_assoc]
      exact h.pieces id' f i hf
  · intro id'
    simp only [hplace, OrderedMap.get?_delete]
    split
    · rfl
    · exact h.states id'
  · intro id'
    simp only [hplace]
    split
    · rfl
    · exact h.probe id'

/-- A call that a page makes in order: session and file ids can be names in a directory, a
session is open when its pieces are asked for, and only its own state is saved and loaded. -/
def Orderly (t : SessionStorage) : StorageCall → Prop
  | .init id => EntryName id.toList
  | .writePiece f _ _ | .readPiece f _ | .hasPiece f _ | .deletePiece f _ =>
    Regular f ∧ t.opened.isSome
  | .saveState state =>
    validatePersistedSessionState state = .ok () ∧ t.opened = some state.sessionId
  | .loadState id => t.opened = some id
  | .cleanup id => EntryName id.toList ∧ t.opened.isSome

instance decidableOrderly (t : SessionStorage) : ∀ c, Decidable (Orderly t c)
  | .init id => inferInstanceAs (Decidable (EntryName id.toList))
  | .writePiece f _ _ | .readPiece f _ | .hasPiece f _ | .deletePiece f _ =>
    inferInstanceAs (Decidable (Regular f ∧ t.opened.isSome))
  | .saveState state => inferInstanceAs
      (Decidable (validatePersistedSessionState state = .ok () ∧ t.opened = some state.sessionId))
  | .loadState id => inferInstanceAs (Decidable (t.opened = some id))
  | .cleanup id => inferInstanceAs (Decidable (EntryName id.toList ∧ t.opened.isSome))

/-- The adapter keeps what the storage does. -/
structure Keeps (text : StateText) (s : OPFSStorageAdapter) (t : SessionStorage) : Prop where
  available : s.available = true
  text : s.text = text
  layout : Layout s.text s.tree.node t
  session : s.sessionId = t.opened
  root : s.root = t.opened.map place
  opened : ∀ id, t.opened = some id →
    EntryName id.toList ∧ s.tree.node (place id) = some .dir
  valid : ∀ id state, t.states.get? id = some state →
    validatePersistedSessionState state = .ok () ∧
      s.text.parse (s.text.stringify state) = .ok state

variable {s : OPFSStorageAdapter}

theorem ne_empty_of_entryName (h : EntryName id.toList) : id ≠ "" := by
  rintro rfl
  exact h.1.nonempty rfl

theorem Keeps.requireRoot (h : s.Keeps text t) (hid : t.opened = some id) :
    s.requireRoot = .ok (place id) := by
  have hne := ne_empty_of_entryName (h.opened id hid).1
  simp [OPFSStorageAdapter.requireRoot, h.root, h.session, hid, hne]

theorem Keeps.session? (h : s.Keeps text t) (hid : t.opened = some id) : t.session? = some id := by
  have hne := ne_empty_of_entryName (h.opened id hid).1
  simp [SessionStorage.session?, hid, Option.filter, hne]

theorem onTree_mkdir (s : OPFSStorageAdapter) {here : List Name} {n : Name} (hn : EntryName n)
    (hhere : s.tree.node here = some .dir) (hlayout : Layout s.text s.tree.node t)
    (hfolder : Folder (here ++ [n])) :
    ∃ tree, s.onTree (s.tree.getDirectoryHandle here n true) =
        (.ok (here ++ [n]), { s with tree := tree }) ∧
      Layout s.text tree.node t ∧ tree.node (here ++ [n]) = some .dir ∧
      ∀ m, s.tree.node m = some .dir → tree.node m = some .dir := by
  obtain ⟨tree, htree, hnodes⟩ :=
    FileTree.getDirectoryHandle_create hn hhere (hlayout.folder hfolder)
  have hnode : tree.node = fun m => if m = here ++ [n] then some .dir else s.tree.node m :=
    funext hnodes
  refine ⟨tree, by simp [onTree, htree], hnode ▸ hlayout.mkdir hfolder, by simp [hnodes], ?_⟩
  intro m hm
  rw [hnodes]
  split
  · rfl
  · exact hm

theorem writeTo_eq (s : OPFSStorageAdapter) {here : List Name} {n : Name} (hn : EntryName n)
    (hhere : s.tree.node here = some .dir) (hnode : s.tree.node (here ++ [n]) ≠ some .dir)
    (data : ArrayBuffer) :
    ∃ tree, s.writeTo here n data = (.ok (), { s with tree := tree }) ∧
      tree.node = fun m => if m = here ++ [n] then some (.file data) else s.tree.node m := by
  obtain ⟨t₁, t₂, hfile, hwrite, hnodes⟩ := FileTree.writeFile_create hn hhere hnode data
  exact ⟨t₂, by simp [writeTo, hfile, hwrite], funext hnodes⟩

theorem probe_eq (s : OPFSStorageAdapter) {root : List Name} (hroot : s.requireRoot = .ok root)
    (hdir : s.tree.node root = some .dir) (hnone : s.tree.node (root ++ [PROBE]) = none) :
    ∃ tree, s.probe = (.ok (), { s with tree := tree }) ∧ tree.node = s.tree.node := by
  have hprobe := entryName_consts.2.2.2
  obtain ⟨t₁, hwrite, hnode₁⟩ := writeTo_eq s hprobe hdir (by simp [hnone]) [1]
  have hfile : t₁.node (root ++ [PROBE]) = some (.file [1]) := by simp [hnode₁]
  refine ⟨t₁.erase (root ++ [PROBE]), ?_, ?_⟩
  · simp [probe, hroot, hwrite, FileTree.getFile, FileTree.removeEntry, hfile, hprobe]
  · funext m
    rw [FileTree.node_erase_file hfile, hnode₁]
    by_cases hm : m = root ++ [PROBE]
    · rw [if_pos hm, hm, hnone]
    · simp only [hm, if_false]

theorem Keeps.sessionsRoot (h : s.Keeps text t) :
    ∃ tree, s.sessionsRoot = (.ok [GRID, SESSIONS], { s with tree := tree }) ∧
      Layout s.text tree.node t ∧ tree.node [GRID, SESSIONS] = some .dir ∧
      ∀ m, s.tree.node m = some .dir → tree.node m = some .dir := by
  obtain ⟨hgrid, hsessions, -, -⟩ := entryName_consts
  obtain ⟨t₁, hfirst, hlayout₁, hdir₁, hkeeps₁⟩ :=
    onTree_mkdir s hgrid s.tree.root h.layout Folder.grid
  obtain ⟨t₂, hsecond, hlayout₂, hdir₂, hkeeps₂⟩ := onTree_mkdir { s with tree := t₁ }
    hsessions hdir₁ hlayout₁ Folder.sessions
  refine ⟨t₂, ?_, hlayout₂, hdir₂, fun m hm => hkeeps₂ m (hkeeps₁ m hm)⟩
  simp only [OPFSStorageAdapter.sessionsRoot, hfirst]
  exact hsecond

theorem Keeps.init (h : s.Keeps text t) (hid : EntryName id.toList) :
    (s.call (.init id)).1 = (t.call (.init id)).1 ∧ (s.step (.init id)).Keeps text (t.step (.init id)) := by
  obtain ⟨t₁, hroot, hlayout₁, hdir₁, hkeeps₁⟩ := h.sessionsRoot
  obtain ⟨t₂, hdirectory, hlayout₂, hdir₂, hkeeps₂⟩ := onTree_mkdir { s with tree := t₁ }
    hid hdir₁ hlayout₁ (Folder.session id)
  have hne := ne_empty_of_entryName hid
  have hready : OPFSStorageAdapter.requireRoot { s with
      tree := t₂, root := some (place id), sessionId := some id } = .ok (place id) := by
    simp [OPFSStorageAdapter.requireRoot, hne]
  obtain ⟨t₃, hprobe, hsame⟩ := probe_eq _ hready hdir₂ (hlayout₂.probe id)
  have hcall : s.init id = (.ok (), { s with
      tree := t₃, root := some (place id), sessionId := some id }) := by
    unfold OPFSStorageAdapter.init
    rw [if_neg (by simp [h.available]), hroot]
    dsimp only at hdirectory ⊢
    rw [hdirectory]
    exact hprobe
  refine ⟨by simp [call, hcall, SessionStorage.call, Except.map], ?_⟩
  simp only [step, call, hcall, SessionStorage.step, SessionStorage.call, Prod.map, id_eq]
  refine ⟨h.available, h.text, ?_, rfl, rfl, fun id' hid' => ?_, h.valid⟩
  · have hlayout : Layout s.text t₃.node t := hsame ▸ hlayout₂
    exact ⟨hlayout.grid, hlayout.sessions, hlayout.dirs, hlayout.folders, hlayout.pieces,
      hlayout.states, hlayout.probe⟩
  · cases hid'
    exact ⟨hid, hsame ▸ hdir₂⟩

theorem Keeps.getFileDirectory (h : s.Keeps text t) (hid : t.opened = some id) (hf : Regular f) :
    s.getFileDirectory f false =
      if s.tree.node (place id ++ [f.toList]) = some .dir then
        (.ok (.ok (place id ++ [f.toList])), s)
      else (.ok (.error .NotFoundError), s) := by
  obtain ⟨-, hdir⟩ := h.opened id hid
  have hget := FileTree.getDirectoryHandle_eq hf.name hdir fun c => h.layout.folders id f c hf
  simp only [OPFSStorageAdapter.getFileDirectory, h.requireRoot hid, hget, onTree]
  by_cases hfolder : s.tree.node (place id ++ [f.toList]) = some .dir
  · simp only [hfolder, if_true]
    rfl
  · simp only [hfolder, if_false]
    rfl

/-- Where there is no directory of a file, there is no piece of it. -/
theorem Keeps.no_piece (h : s.Keeps text t) (hf : Regular f)
    (hdir : s.tree.node (place id ++ [f.toList]) ≠ some .dir) (i : Nat) :
    t.pieces.get? (id, f, i) = none := by
  have hpiece := h.layout.pieces id f i hf
  cases hget : t.pieces.get? (id, f, i) with
  | none => rfl
  | some d =>
    rw [hget] at hpiece
    have hparent := s.tree.closed (place id ++ [f.toList] ++ [pieceName i]) (by simp)
      (by rw [hpiece]; simp)
    rw [List.dropLast_concat] at hparent
    exact absurd hparent hdir

theorem Keeps.readPiece (h : s.Keeps text t) (hid : t.opened = some id) (hf : Regular f) (i : Nat) :
    s.readPiece f i = (.ok (t.pieces.get? (id, f, i)), s) := by
  have hpiece := h.layout.pieces id f i hf
  unfold OPFSStorageAdapter.readPiece
  rw [h.getFileDirectory hid hf]
  by_cases hdir : s.tree.node (place id ++ [f.toList]) = some .dir
  · have hfile := FileTree.getFileHandle_eq (entryName_pieceName i) hdir (by
      rw [hpiece]
      cases t.pieces.get? (id, f, i) <;> simp)
    rw [if_pos hdir]
    simp only [Except.bind, hfile, hpiece]
    cases hget : t.pieces.get? (id, f, i) with
    | none => simp
    | some d =>
      rw [hget] at hpiece
      simp [-List.append_assoc, hpiece, FileTree.getFile]
  · rw [if_neg hdir, h.no_piece hf hdir i]
    rfl

theorem Keeps.writePiece (h : s.Keeps text t) (hid : t.opened = some id) (hf : Regular f) (i : Nat)
    (data : ArrayBuffer) :
    ∃ tree, s.writePiece f i data = (.ok (), { s with tree := tree }) ∧
      OPFSStorageAdapter.Keeps text { s with tree := tree }
        { t with pieces := t.pieces.set (id, f, i) data } := by
  obtain ⟨hname, hdir⟩ := h.opened id hid
  obtain ⟨t₁, hfolder, hlayout₁, hdir₁, hkeeps₁⟩ :=
    onTree_mkdir s hf.name hdir h.layout (Folder.file id f hf)
  obtain ⟨t₂, hwrite, hnode₂⟩ := writeTo_eq { s with tree := t₁ } (entryName_pieceName i) hdir₁
    (by
      rw [hlayout₁.pieces id f i hf]
      cases t.pieces.get? (id, f, i) <;> simp) data
  refine ⟨t₂, ?_, h.available, h.text, ?_, h.session, h.root, fun id' hid' => ?_, h.valid⟩
  · simp only [OPFSStorageAdapter.writePiece, OPFSStorageAdapter.getFileDirectory,
      h.requireRoot hid, hfolder, Prod.map, id_eq]
    dsimp only at hwrite
    rw [hwrite]
    rfl
  · simp only [hnode₂]
    exact hlayout₁.setPiece id f i (some data) _ fun k => OrderedMap.get?_set ..
  · cases hid.symm.trans hid'
    refine ⟨hname, ?_⟩
    have hne : place id ≠ place id ++ [f.toList] ++ [pieceName i] := by simp [place]
    simp only [hnode₂, hne, if_false]
    exact hkeeps₁ _ hdir

theorem Keeps.deletePiece (h : s.Keeps text t) (hid : t.opened = some id) (hf : Regular f) (i : Nat) :
    ∃ tree, s.deletePiece f i = (.ok (), { s with tree := tree }) ∧
      OPFSStorageAdapter.Keeps text { s with tree := tree }
        { t with pieces := t.pieces.delete (id, f, i) } := by
  have hpiece := h.layout.pieces id f i hf
  unfold OPFSStorageAdapter.deletePiece
  rw [h.getFileDirectory hid hf]
  have hsame : t.pieces.get? (id, f, i) = none →
      OPFSStorageAdapter.Keeps text s { t with pieces := t.pieces.delete (id, f, i) } := by
    intro hnone
    rw [OrderedMap.delete_of_get? hnone]
    exact h
  by_cases hdir : s.tree.node (place id ++ [f.toList]) = some .dir
  · rw [if_pos hdir]
    simp only [Except.bind, FileTree.removeEntry, entryName_pieceName, not_true_eq_false, if_false,
      hpiece]
    cases hget : t.pieces.get? (id, f, i) with
    | none => exact ⟨s.tree, rfl, hsame hget⟩
    | some d =>
      rw [hget] at hpiece
      have hnode : (s.tree.erase (place id ++ [f.toList] ++ [pieceName i])).node = fun m =>
          if m = place id ++ [f.toList] ++ [pieceName i]
            then (none : Option ArrayBuffer).map .file else s.tree.node m :=
        funext fun m => FileTree.node_erase_file hpiece m
      refine ⟨_, rfl, h.available, h.text, ?_, h.session, h.root, fun id' hid' => ?_, h.valid⟩
      · rw [hnode]
        exact h.layout.setPiece id f i none _ fun k => OrderedMap.get?_delete ..
      · cases hid.symm.trans hid'
        obtain ⟨hname, hopen⟩ := h.opened id hid
        have hne : place id ≠ place id ++ [f.toList] ++ [pieceName i] := by simp [place]
        refine ⟨hname, ?_⟩
        simp only [hnode, hne, if_false]
        exact hopen
  · rw [if_neg hdir]
    exact ⟨s.tree, rfl, hsame (h.no_piece hf hdir i)⟩

theorem Keeps.saveState (h : s.Keeps text t) {state : PersistedSessionState}
    (hid : t.opened = some state.sessionId)
    (hvalid : validatePersistedSessionState state = .ok ())
    (htext : s.text.parse (s.text.stringify state) = .ok state) :
    ∃ tree, s.saveState state = (.ok (), { s with tree := tree }) ∧
      OPFSStorageAdapter.Keeps text { s with tree := tree }
        { t with states := t.states.set state.sessionId state } := by
  obtain ⟨hname, hdir⟩ := h.opened _ hid
  have hstate := entryName_consts.2.2.1
  obtain ⟨t₁, hwrite, hnode₁⟩ := writeTo_eq s hstate hdir (by
    rw [h.layout.states]
    cases t.states.get? state.sessionId <;> simp) (s.text.stringify state)
  refine ⟨t₁, ?_, h.available, h.text, ?_, h.session, h.root, fun id' hid' => ?_, ?_⟩
  · simp only [OPFSStorageAdapter.saveState, h.requireRoot hid, hwrite]
    rfl
  · simp only [hnode₁]
    exact h.layout.setState state.sessionId state
  · cases hid.symm.trans hid'
    have hne : place state.sessionId ≠ place state.sessionId ++ [STATE] := by simp [place]
    refine ⟨hname, ?_⟩
    simp only [hnode₁, hne, if_false]
    exact hdir
  · intro id' state' hget
    rw [OrderedMap.get?_set] at hget
    split at hget
    · cases hget
      exact ⟨hvalid, htext⟩
    · exact h.valid id' state' hget

theorem Keeps.loadState (h : s.Keeps text t) (hid : t.opened = some id) :
    s.loadState id = (.ok (t.states.get? id), s) := by
  obtain ⟨-, hdir⟩ := h.opened id hid
  have hstate := h.layout.states id
  have hfile := FileTree.getFileHandle_eq entryName_consts.2.2.1 hdir (by
    rw [hstate]
    cases t.states.get? id <;> simp)
  have hopen : s.sessionId = some id := h.session.trans hid
  have hready := h.requireRoot hid
  unfold OPFSStorageAdapter.loadState
  simp only [hopen, ne_eq, not_true_eq_false, if_false, Except.bind, hready, hfile, hstate]
  cases hget : t.states.get? id with
  | none => simp
  | some state =>
    rw [hget] at hstate
    obtain ⟨hvalid, htext⟩ := h.valid id state hget
    simp [FileTree.getFile, hstate, htext, hvalid, Except.map]

theorem Keeps.cleanup (h : s.Keeps text t) (hid : EntryName id.toList) :
    (s.call (.cleanup id)).1 = (t.call (.cleanup id)).1 ∧
      (s.step (.cleanup id)).Keeps text (t.step (.cleanup id)) := by
  obtain ⟨t₁, hroot, hlayout₁, hdir₁, hkeeps₁⟩ := h.sessionsRoot
  have hplace : [GRID, SESSIONS] ++ [id.toList] = place id := rfl
  have hremoved := hlayout₁.remove id
  -- A session without a directory has nothing to be removed.
  have htree : ∃ tree, ((t₁.removeEntry [GRID, SESSIONS] id.toList true = .ok tree) ∨
      (t₁.removeEntry [GRID, SESSIONS] id.toList true = .error .NotFoundError ∧ tree = t₁)) ∧
      tree.node = fun m => if place id <+: m then none else t₁.node m := by
    unfold FileTree.removeEntry
    rw [if_neg (not_not.2 hid), hplace]
    cases hnode : t₁.node (place id) with
    | none =>
      refine ⟨t₁, .inr ⟨rfl, rfl⟩, funext fun m => ?_⟩
      split
      · rename_i hprefix
        obtain ⟨more, rfl⟩ := hprefix
        by_contra hsome
        by_cases hmore : more = []
        · rw [hmore, List.append_nil, hnode] at hsome
          exact hsome rfl
        · rw [FileTree.node_prefix hsome hmore] at hnode
          cases hnode
      · rfl
    | some node =>
      cases node with
      | file content => exact absurd hnode (hlayout₁.dirs id content)
      | dir =>
        exact ⟨_, .inl rfl, funext fun m => FileTree.node_removeTree (by simp [place]) m⟩
  obtain ⟨tree, hremove, hnode⟩ := htree
  have hcall : s.cleanup id = (.ok (), { s with
      root := if s.sessionId = some id then none else s.root
      sessionId := if s.sessionId = some id then none else s.sessionId
      tree := tree }) := by
    unfold OPFSStorageAdapter.cleanup
    rw [if_neg (by simp [h.available]), hroot]
    obtain hok | ⟨hnone, rfl⟩ := hremove
    · simp only [hok]
    · simp only [hnone]
  refine ⟨by simp [call, hcall, SessionStorage.call, Except.map], ?_⟩
  simp only [step, call, hcall, SessionStorage.step, SessionStorage.call, Prod.map, id_eq,
    h.session, h.root]
  refine ⟨h.available, h.text, ?_, rfl, ?_, fun id' hid' => ?_, fun id' state hget => ?_⟩
  · rw [hnode]
    exact ⟨hremoved.grid, hremoved.sessions, hremoved.dirs, hremoved.folders, hremoved.pieces,
      hremoved.states, hremoved.probe⟩
  · simp only
    split <;> rfl
  · simp only at hid'
    split at hid'
    · cases hid'
    · rename_i hother
      obtain ⟨hname, hdir⟩ := h.opened id' hid'
      have hne : id' ≠ id := by
        rintro rfl
        exact hother hid'
      refine ⟨hname, ?_⟩
      have hapart : ¬ place id <+: place id' := by
        simpa [place, String.toList_inj] using Ne.symm hne
      simp only [hnode, hapart, if_false]
      exact hkeeps₁ _ hdir
  · exact h.valid id' state (OrderedMap.get?_delete_eq_some.1 hget).2

/-- An orderly call has the same answer in both. -/
theorem Keeps.call (h : s.Keeps text t) {c : StorageCall} (hc : Orderly t c)
    (htext : ∀ state, c = .saveState state → text.parse (text.stringify state) = .ok state) :
    (s.call c).1 = (t.call c).1 ∧ (s.step c).Keeps text (t.step c) := by
  cases c with
  | init id => exact h.init hc
  | writePiece f i data =>
    obtain ⟨hf, hopen⟩ := hc
    obtain ⟨id, hid⟩ := Option.isSome_iff_exists.1 hopen
    obtain ⟨tree, hwrite, hkeeps⟩ := h.writePiece hid hf i data
    simp only [step, OPFSStorageAdapter.call, hwrite, SessionStorage.step, SessionStorage.call,
      SessionStorage.inSession, h.session? hid]
    exact ⟨rfl, hkeeps⟩
  | readPiece f i =>
    obtain ⟨hf, hopen⟩ := hc
    obtain ⟨id, hid⟩ := Option.isSome_iff_exists.1 hopen
    simp only [step, OPFSStorageAdapter.call, h.readPiece hid hf i, SessionStorage.step,
      SessionStorage.call, SessionStorage.inSession, h.session? hid]
    exact ⟨rfl, h⟩
  | hasPiece f i =>
    obtain ⟨hf, hopen⟩ := hc
    obtain ⟨id, hid⟩ := Option.isSome_iff_exists.1 hopen
    simp only [step, OPFSStorageAdapter.call, hasPiece, h.readPiece hid hf i, SessionStorage.step,
      SessionStorage.call, SessionStorage.inSession, h.session? hid]
    exact ⟨rfl, h⟩
  | deletePiece f i =>
    obtain ⟨hf, hopen⟩ := hc
    obtain ⟨id, hid⟩ := Option.isSome_iff_exists.1 hopen
    obtain ⟨tree, hdelete, hkeeps⟩ := h.deletePiece hid hf i
    simp only [step, OPFSStorageAdapter.call, hdelete, SessionStorage.step, SessionStorage.call,
      SessionStorage.inSession, h.session? hid]
    exact ⟨rfl, hkeeps⟩
  | saveState state =>
    obtain ⟨hvalid, hid⟩ := hc
    obtain ⟨tree, hsave, hkeeps⟩ := h.saveState hid hvalid (h.text ▸ htext state rfl)
    simp only [step, OPFSStorageAdapter.call, hsave, SessionStorage.step, SessionStorage.call,
      hvalid]
    exact ⟨rfl, hkeeps⟩
  | loadState id =>
    simp only [step, OPFSStorageAdapter.call, h.loadState hc, SessionStorage.step,
      SessionStorage.call]
    exact ⟨rfl, h⟩
  | cleanup id => exact h.cleanup hc.1

theorem Keeps.answers {calls : List StorageCall} (h : s.Keeps text t)
    (hc : Allowed SessionStorage.step Orderly t calls)
    (htext : ∀ state, .saveState state ∈ calls →
      text.parse (text.stringify state) = .ok state) : s.answers calls = t.answers calls := by
  induction calls generalizing s t with
  | nil => rfl
  | cons c rest ih =>
    obtain ⟨hsame, hnext⟩ := h.call hc.1 fun state hstate => htext state (by simp [hstate])
    have hrest := ih hnext hc.2 fun state hstate => htext state (List.mem_cons_of_mem _ hstate)
    simp only [OPFSStorageAdapter.answers, SessionStorage.answers, hsame, hrest]

end OPFSStorageAdapter

/-- Nothing fails. -/
def IDBTurn.calm : IDBTurn := ⟨none, none, fun _ => none⟩

/-- An adapter that has its database to itself. -/
structure IDBStorage where
  available : Bool
  adapter : IndexedDBStorageAdapter
  db : IDBDatabase

namespace IDBStorage

/-- A method until it ends; `none` when it has not by then. -/
def proceed (available : Bool) : Nat → IDBDatabase → IDBStretch →
    Option (Except Failure StorageAnswer × IDBStorage)
  | 0, _, _ => none
  | n + 1, db, stretch =>
    let db := stretch.requests.foldl IDBDatabase.apply db
    match stretch.next with
    | .done result => some (result, ⟨available, stretch.adapter, db⟩)
    | .wait frame => proceed available n db (stretch.adapter.resume .calm db frame)

/-- No method has more than six stretches. -/
def call (s : IDBStorage) (c : StorageCall) : Option (Except Failure StorageAnswer × IDBStorage) :=
  proceed s.available 6 s.db (s.adapter.start .calm s.db s.available c)

/-- What the calls answer, one after the other. -/
def answers (s : IDBStorage) : List StorageCall → Option (List (Except Failure StorageAnswer))
  | [] => some []
  | c :: rest =>
    match s.call c with
    | some (answer, s') => (s'.answers rest).map (answer :: ·)
    | none => none

/-- The database keeps what the storage does. -/
structure Keeps (s : IDBStorage) (t : SessionStorage) : Prop where
  available : s.available = true
  session : s.adapter.sessionId = t.opened
  opened : ∀ id, t.opened = some id → s.adapter.db = true ∧ id ≠ ""
  pieces : s.db.pieces = t.pieces
  states : s.db.sessions = t.states

variable {s : IDBStorage} {t : SessionStorage} {id : SessionId}

theorem foldl_delete_pieces (keys : List (SessionId × FileId × Nat)) (db : IDBDatabase) :
    (keys.map fun k => IDBRequest.delete (.piece k.1 k.2.1 k.2.2)).foldl IDBDatabase.apply db =
      { db with pieces := db.pieces.deleteAll keys } := by
  induction keys generalizing db with
  | nil => rfl
  | cons k rest ih => exact ih _

theorem foldl_delete_manifests (keys : List (SessionId × FileId)) (db : IDBDatabase) :
    (keys.map fun k => IDBRequest.delete (.manifest k.1 k.2)).foldl IDBDatabase.apply db =
      { db with manifests := db.manifests.deleteAll keys } := by
  induction keys generalizing db with
  | nil => rfl
  | cons k rest ih => exact ih _

theorem foldl_put_manifests (id : SessionId) (manifests : List FileManifest) (db : IDBDatabase) :
    ∃ all, (manifests.map (IDBRequest.putManifest id)).foldl IDBDatabase.apply db =
      { db with manifests := all } := by
  induction manifests generalizing db with
  | nil => exact ⟨db.manifests, rfl⟩
  | cons m rest ih => exact ih _

theorem request_calm {a : IndexedDBStorageAdapter} (ha : a.db = true) (rs : List IDBRequest)
    (next : IDBNext) : a.request .calm rs next = ⟨a, rs, next⟩ := by
  have hnone : rs.findSome? IDBTurn.calm.failed = none :=
    List.findSome?_eq_none_iff.2 fun _ _ => rfl
  simp [IndexedDBStorageAdapter.request, IndexedDBStorageAdapter.requireDb, ha, hnone]

theorem query_calm {a : IndexedDBStorageAdapter} (ha : a.db = true) (next : IDBNext) :
    a.query .calm next = ⟨a, [], next⟩ := by
  simp [IndexedDBStorageAdapter.query, IndexedDBStorageAdapter.requireDb, ha, IDBTurn.calm]

theorem Keeps.inSession (h : s.Keeps t) (hid : t.opened = some id) (f : SessionId → IDBStretch) :
    s.adapter.inSession f = f id := by
  obtain ⟨-, hne⟩ := h.opened id hid
  simp [IndexedDBStorageAdapter.inSession, IndexedDBStorageAdapter.requireSession, h.session, hid,
    hne]

theorem Keeps.session? (h : s.Keeps t) (hid : t.opened = some id) : t.session? = some id := by
  simp [SessionStorage.session?, hid, Option.filter, (h.opened id hid).2]

theorem Keeps.init (h : s.Keeps t) (hne : id ≠ "") :
    ∃ s', s.call (.init id) = some ((t.call (.init id)).1, s') ∧ s'.Keeps (t.step (.init id)) := by
  have hopened : ∀ id', some id = some id' → true = true ∧ id' ≠ "" := by
    rintro id' hid'
    cases hid'
    exact ⟨rfl, hne⟩
  by_cases hdb : s.adapter.db = true
  · refine ⟨⟨s.available, { s.adapter with sessionId := some id }, s.db⟩, ?_, h.available, rfl,
      fun id' hid' => ⟨hdb, (hopened id' hid').2⟩, h.pieces, h.states⟩
    simp [call, proceed, IndexedDBStorageAdapter.start, IndexedDBStorageAdapter.init, h.available,
      hdb, SessionStorage.call]
  · refine ⟨⟨s.available, ⟨true, some id⟩, s.db⟩, ?_, h.available, rfl, hopened, h.pieces,
      h.states⟩
    simp [call, proceed, IndexedDBStorageAdapter.start, IndexedDBStorageAdapter.init, h.available,
      hdb, SessionStorage.call, IndexedDBStorageAdapter.resume, IDBTurn.calm]

theorem Keeps.cleanup (h : s.Keeps t) (hopen : t.opened.isSome) :
    ∃ s', s.call (.cleanup id) = some ((t.call (.cleanup id)).1, s') ∧
      s'.Keeps (t.step (.cleanup id)) := by
  obtain ⟨current, hcurrent⟩ := Option.isSome_iff_exists.1 hopen
  obtain ⟨hdb, -⟩ := h.opened current hcurrent
  refine ⟨⟨s.available, { s.adapter with
      sessionId := if s.adapter.sessionId = some id then none else s.adapter.sessionId },
    { sessions := s.db.sessions.delete id
      pieces := s.db.pieces.deleteAll (s.db.pieces.keys.filter (·.1 = id))
      manifests := s.db.manifests.deleteAll (s.db.manifests.keys.filter (·.1 = id)) }⟩, ?_,
    h.available, ?_, fun id' hid' => ?_, ?_, ?_⟩
  · simp only [call, proceed, IndexedDBStorageAdapter.start, IndexedDBStorageAdapter.resume,
      request_calm hdb, query_calm hdb, IndexedDBStorageAdapter.stop, List.foldl_cons,
      List.foldl_nil, IDBDatabase.apply, foldl_delete_pieces, foldl_delete_manifests,
      SessionStorage.call]
  · simp only [SessionStorage.step, SessionStorage.call, h.session]
  · simp only [SessionStorage.step, SessionStorage.call] at hid'
    split at hid'
    · cases hid'
    · exact h.opened id' hid'
  · simp only [SessionStorage.step, SessionStorage.call, h.pieces]
  · simp only [SessionStorage.step, SessionStorage.call, h.states]

/-- An orderly call ends, with the same answer in both. -/
theorem Keeps.call (h : s.Keeps t) {c : StorageCall} (hc : OPFSStorageAdapter.Orderly t c) :
    ∃ s', s.call c = some ((t.call c).1, s') ∧ s'.Keeps (t.step c) := by
  cases c with
  | init id => exact h.init (OPFSStorageAdapter.ne_empty_of_entryName hc)
  | writePiece f i data =>
    obtain ⟨id, hid⟩ := Option.isSome_iff_exists.1 hc.2
    refine ⟨⟨s.available, s.adapter, s.db.apply (.putPiece id f i data)⟩, ?_, h.available, ?_, ?_,
      ?_, ?_⟩
    · simp only [IDBStorage.call, proceed, IndexedDBStorageAdapter.start, h.inSession hid,
        request_calm (h.opened id hid).1, SessionStorage.call, SessionStorage.inSession,
        h.session? hid, List.foldl_cons, List.foldl_nil]
    all_goals simp only [SessionStorage.step, SessionStorage.call, SessionStorage.inSession,
      h.session? hid, IDBDatabase.apply, h.pieces]
    · exact h.session
    · exact h.opened
    · exact h.states
  | readPiece f i =>
    obtain ⟨id, hid⟩ := Option.isSome_iff_exists.1 hc.2
    refine ⟨s, ?_, ?_⟩
    · simp only [IDBStorage.call, proceed, IndexedDBStorageAdapter.start, h.inSession hid,
        query_calm (h.opened id hid).1, SessionStorage.call, SessionStorage.inSession,
        h.session? hid, h.pieces, List.foldl_nil]
    · simpa only [SessionStorage.step, SessionStorage.call, SessionStorage.inSession,
        h.session? hid] using h
  | hasPiece f i =>
    obtain ⟨id, hid⟩ := Option.isSome_iff_exists.1 hc.2
    refine ⟨s, ?_, ?_⟩
    · simp only [IDBStorage.call, proceed, IndexedDBStorageAdapter.start, h.inSession hid,
        query_calm (h.opened id hid).1, SessionStorage.call, SessionStorage.inSession,
        h.session? hid, h.pieces, List.foldl_nil]
    · simpa only [SessionStorage.step, SessionStorage.call, SessionStorage.inSession,
        h.session? hid] using h
  | deletePiece f i =>
    obtain ⟨id, hid⟩ := Option.isSome_iff_exists.1 hc.2
    refine ⟨⟨s.available, s.adapter, s.db.apply (.delete (.piece id f i))⟩, ?_, h.available, ?_,
      ?_, ?_, ?_⟩
    · simp only [IDBStorage.call, proceed, IndexedDBStorageAdapter.start, h.inSession hid,
        request_calm (h.opened id hid).1, SessionStorage.call, SessionStorage.inSession,
        h.session? hid, List.foldl_cons, List.foldl_nil]
    all_goals simp only [SessionStorage.step, SessionStorage.call, SessionStorage.inSession,
      h.session? hid, IDBDatabase.apply, h.pieces]
    · exact h.session
    · exact h.opened
    · exact h.states
  | saveState state =>
    obtain ⟨hvalid, hid⟩ := hc
    have hdb := (h.opened _ hid).1
    obtain ⟨manifests, hputs⟩ := foldl_put_manifests state.sessionId state.manifests
      (s.db.apply (.putSession state))
    refine ⟨⟨s.available, s.adapter, { s.db.apply (.putSession state) with
      manifests := manifests }⟩, ?_, h.available, ?_, ?_, ?_, ?_⟩
    · simp only [IDBStorage.call, proceed, IndexedDBStorageAdapter.start,
        IndexedDBStorageAdapter.resume, hvalid, request_calm hdb, SessionStorage.call,
        List.foldl_cons, List.foldl_nil, hputs]
    all_goals simp only [SessionStorage.step, SessionStorage.call, hvalid, IDBDatabase.apply,
      h.states]
    · exact h.session
    · exact h.opened
    · exact h.pieces
  | loadState id =>
    have hopen : s.adapter.sessionId = some id := h.session.trans hc
    refine ⟨s, ?_, h⟩
    simp only [IDBStorage.call, proceed, IndexedDBStorageAdapter.start, hopen, ne_eq,
      not_true_eq_false, if_false, query_calm (h.opened id hc).1, SessionStorage.call, h.states,
      List.foldl_nil]
  | cleanup id => exact h.cleanup hc.2

theorem Keeps.answers {calls : List StorageCall} (h : s.Keeps t)
    (hc : Allowed SessionStorage.step OPFSStorageAdapter.Orderly t calls) :
    s.answers calls = some (t.answers calls) := by
  induction calls generalizing s t with
  | nil => rfl
  | cons c rest ih =>
    obtain ⟨s', hcall, hnext⟩ := h.call hc.1
    simp only [IDBStorage.answers, SessionStorage.answers, hcall, ih hnext hc.2, Option.map_some]

end IDBStorage

namespace OPFSStorageAdapter

/-- The file system of an origin that has not used it. -/
def fresh (text : StateText) : OPFSStorageAdapter where
  available := true
  text := text
  root := none
  sessionId := none
  tree :=
    { node := fun l => if l = [] then some .dir else none
      root := rfl
      closed := by
        intro l hl hnode
        simp [hl] at hnode }

theorem keeps_fresh (text : StateText) : (fresh text).Keeps text .empty := by
  refine ⟨rfl, rfl, ?_, rfl, rfl, ?_, ?_⟩
  · constructor <;> simp [fresh, place, SessionStorage.empty]
  · rintro id ⟨⟩
  · rintro id state ⟨⟩

end OPFSStorageAdapter

/-- A database that is not open yet. -/
def IDBStorage.fresh : IDBStorage := ⟨true, ⟨false, none⟩, .empty⟩

namespace Sample

end Sample

end PonsWarp.Core
