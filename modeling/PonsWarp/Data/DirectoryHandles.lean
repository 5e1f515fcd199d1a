import PonsWarp.Data.FileTree

set_option autoImplicit false

/-!
Directories and files behind handles: an entry is asked for by its name, and made where that is
wanted. A file is replaced as a whole when what was written to it is closed.
-/

namespace PonsWarp.Data.Posix

inductive HandleError
  | TypeError
  | NotFoundError
  | TypeMismatchError
  | InvalidModificationError
  deriving DecidableEq, Repr

/-- A name that an entry may have. -/
def EntryName (n : Name) : Prop := Plain n ∧ '\\' ∉ n

instance (n : Name) : Decidable (EntryName n) := inferInstanceAs (Decidable (_ ∧ _))

namespace FileTree

variable {t : FileTree} {here l : List Name} {n : Name}

def getDirectoryHandle (t : FileTree) (here : List Name) (n : Name) (create : Bool) :
    Except HandleError (FileTree × List Name) :=
  if ¬ EntryName n then .error .TypeError
  else if t.node here ≠ some .dir then .error .NotFoundError
  else
    match t.node (here ++ [n]) with
    | some .dir => .ok (t, here ++ [n])
    | some (.file _) => .error .TypeMismatchError
    | none =>
      if create then .ok (t.put (here ++ [n]) .dir, here ++ [n]) else .error .NotFoundError

def getFileHandle (t : FileTree) (here : List Name) (n : Name) (create : Bool) :
    Except HandleError (FileTree × List Name) :=
  if ¬ EntryName n then .error .TypeError
  else if t.node here ≠ some .dir then .error .NotFoundError
  else
    match t.node (here ++ [n]) with
    | some .dir => .error .TypeMismatchError
    | some (.file _) => .ok (t, here ++ [n])
    | none =>
      if create then .ok (t.put (here ++ [n]) (.file []), here ++ [n]) else .error .NotFoundError

/-- The bytes of a file. -/
def getFile (t : FileTree) (l : List Name) : Except HandleError (List UInt8) :=
  match t.node l with
  | some (.file content) => .ok content
  | _ => .error .NotFoundError

/-- A file is opened for writing, written and closed. -/
def writeFile (t : FileTree) (l : List Name) (content : List UInt8) : Except HandleError FileTree :=
  match t.node l with
  | some (.file _) => .ok (t.put l (.file content))
  | _ => .error .NotFoundError

/-- Everything below a place goes. -/
def removeTree (t : FileTree) (l : List Name) : FileTree :=
  if h : l ≠ [] then
    { node := fun m => if l <+: m then none else t.node m
      root := by rw [if_neg (fun hp => h (List.prefix_nil.1 hp)), t.root]
      closed := by
        intro m hm hnode
        by_cases hp : l <+: m
        · simp [hp] at hnode
        · rw [if_neg hp] at hnode
          rw [if_neg (fun hd => hp (hd.trans (List.dropLast_prefix m))), t.closed m hm hnode] }
  else t

/-- An entry of a directory is removed, a directory with all that is in it, and only when
`recursive`: a tree does not list what is in a directory, so none is taken to be empty. -/
def removeEntry (t : FileTree) (here : List Name) (n : Name) (recursive : Bool) :
    Except HandleError FileTree :=
  if ¬ EntryName n then .error .TypeError
  else
    match t.node (here ++ [n]) with
    | none => .error .NotFoundError
    | some (.file _) => .ok (t.erase (here ++ [n]))
    | some .dir =>
      if recursive then .ok (t.removeTree (here ++ [n])) else .error .InvalidModificationError

theorem node_removeTree (hl : l ≠ []) (m : List Name) :
    (t.removeTree l).node m = if l <+: m then none else t.node m := by
  rw [removeTree, dif_pos hl]

theorem node_erase_file {content : List UInt8} (h : t.node l = some (.file content))
    (m : List Name) : (t.erase l).node m = if m = l then none else t.node m := by
  have hfile : t.isFile l = true := by simp [isFile, h]
  rw [erase, dif_pos hfile]

/-- A directory is there afterwards. -/
theorem getDirectoryHandle_create (hn : EntryName n) (hhere : t.node here = some .dir)
    (hnode : ∀ content, t.node (here ++ [n]) ≠ some (.file content)) :
    ∃ t', t.getDirectoryHandle here n true = .ok (t', here ++ [n]) ∧
      ∀ m, t'.node m = if m = here ++ [n] then some .dir else t.node m := by
  unfold getDirectoryHandle
  simp only [hn, hhere, not_true_eq_false, if_false, ne_eq, if_true]
  cases hentry : t.node (here ++ [n]) with
  | none =>
    have hput : t.Puttable (here ++ [n]) .dir := ⟨by simp, by simpa using hhere, fun _ => rfl⟩
    exact ⟨_, rfl, node_put hput⟩
  | some node =>
    cases node with
    | file content => exact absurd hentry (hnode content)
    | dir =>
      refine ⟨t, rfl, fun m => ?_⟩
      split
      · rename_i hm
        rw [hm, hentry]
      · rfl

theorem getDirectoryHandle_eq (hn : EntryName n) (hhere : t.node here = some .dir)
    (hnode : ∀ content, t.node (here ++ [n]) ≠ some (.file content)) :
    t.getDirectoryHandle here n false = if t.node (here ++ [n]) = some .dir
      then .ok (t, here ++ [n]) else .error .NotFoundError := by
  unfold getDirectoryHandle
  simp only [hn, hhere, not_true_eq_false, if_false, ne_eq]
  cases hentry : t.node (here ++ [n]) with
  | none => simp
  | some node =>
    cases node with
    | file content => exact absurd hentry (hnode content)
    | dir => simp

theorem getFileHandle_eq (hn : EntryName n) (hhere : t.node here = some .dir)
    (hnode : t.node (here ++ [n]) ≠ some .dir) :
    t.getFileHandle here n false = if t.node (here ++ [n]) = none
      then .error .NotFoundError else .ok (t, here ++ [n]) := by
  unfold getFileHandle
  simp only [hn, hhere, not_true_eq_false, if_false, ne_eq]
  cases hentry : t.node (here ++ [n]) with
  | none => simp
  | some node =>
    cases node with
    | file content => simp
    | dir => exact absurd hentry hnode

/-- A file is made if it is not there, and then written. -/
theorem writeFile_create (hn : EntryName n) (hhere : t.node here = some .dir)
    (hnode : t.node (here ++ [n]) ≠ some .dir) (content : List UInt8) :
    ∃ t₁ t₂, t.getFileHandle here n true = .ok (t₁, here ++ [n]) ∧
      t₁.writeFile (here ++ [n]) content = .ok t₂ ∧
      ∀ m, t₂.node m = if m = here ++ [n] then some (.file content) else t.node m := by
  have hwrite : ∀ (t₁ : FileTree) (old : List UInt8),
      t₁.node (here ++ [n]) = some (.file old) → t₁.node here = some .dir →
      ∃ t₂, t₁.writeFile (here ++ [n]) content = .ok t₂ ∧
        ∀ m, t₂.node m = if m = here ++ [n] then some (.file content) else t₁.node m := by
    intro t₁ old hfile hdir
    have hput : t₁.Puttable (here ++ [n]) (.file content) :=
      ⟨by simp, by simpa using hdir, fun hsame => by rw [hfile] at hsame; cases hsame⟩
    exact ⟨_, by simp only [writeFile, hfile], node_put hput⟩
  unfold getFileHandle
  simp only [hn, hhere, not_true_eq_false, if_false, ne_eq, if_true]
  cases hentry : t.node (here ++ [n]) with
  | none =>
    have hput : t.Puttable (here ++ [n]) (.file []) :=
      ⟨by simp, by simpa using hhere, fun hsame => by rw [hentry] at hsame; cases hsame⟩
    have hne : here ≠ here ++ [n] := by simp
    obtain ⟨t₂, ht₂, hnodes⟩ := hwrite (t.put (here ++ [n]) (.file [])) []
      (by rw [node_put hput, if_pos rfl]) (by rw [node_put hput, if_neg hne, hhere])
    refine ⟨_, t₂, rfl, ht₂, fun m => ?_⟩
    rw [hnodes, node_put hput]
    split <;> rfl
  | some node =>
    cases node with
    | dir => exact absurd hentry hnode
    | file old =>
      obtain ⟨t₂, ht₂, hnodes⟩ := hwrite t old hentry hhere
      exact ⟨t, t₂, rfl, ht₂, hnodes⟩

end FileTree

end PonsWarp.Data.Posix
