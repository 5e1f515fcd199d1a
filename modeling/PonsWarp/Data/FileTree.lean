import PonsWarp.Data.PosixPath

set_option autoImplicit false

/-!
A tree of directories and files, without links, and what the system does with a path: each
part of it is looked up in a directory that has to be there.
-/

namespace PonsWarp.Data.Posix

inductive Node
  | dir
  | file (content : List UInt8)
  deriving DecidableEq

inductive Errno
  | ENOENT
  | ENOTDIR
  | EISDIR
  | EEXIST
  deriving DecidableEq, Repr

/-- What is there, by the names on the way to it; what has a name is in a directory. -/
structure FileTree where
  node : List Name → Option Node
  root : node [] = some .dir
  closed : ∀ l, l ≠ [] → node l ≠ none → node l.dropLast = some .dir

namespace FileTree

variable {t t' : FileTree} {here l : List Name}

/-- A file or a directory may be put at a place in a directory; a directory stays one. -/
structure Puttable (t : FileTree) (l : List Name) (n : Node) : Prop where
  named : l ≠ []
  parent : t.node l.dropLast = some .dir
  stays : t.node l = some .dir → n = .dir

instance (t : FileTree) (l : List Name) (n : Node) : Decidable (t.Puttable l n) :=
  decidable_of_iff (l ≠ [] ∧ t.node l.dropLast = some .dir ∧ (t.node l = some .dir → n = .dir))
    ⟨fun ⟨h, hparent, hstays⟩ => ⟨h, hparent, hstays⟩,
      fun ⟨h, hparent, hstays⟩ => ⟨h, hparent, hstays⟩⟩

theorem dropLast_ne {l : List Name} (h : l ≠ []) : l.dropLast ≠ l := by
  intro he
  have hlength := congrArg List.length he
  rw [List.length_dropLast] at hlength
  have hpos := List.length_pos_of_ne_nil h
  omega

def put (t : FileTree) (l : List Name) (n : Node) : FileTree :=
  if h : t.Puttable l n then
    { node := fun m => if m = l then some n else t.node m
      root := by rw [if_neg (fun he => h.named he.symm), t.root]
      closed := by
        intro m hm hnode
        by_cases hml : m = l
        · rw [hml, if_neg (dropLast_ne h.named), h.parent]
        · rw [if_neg hml] at hnode
          have hparent := t.closed m hm hnode
          by_cases hdrop : m.dropLast = l
          · rw [if_pos hdrop, h.stays (by rw [← hdrop, hparent])]
          · rw [if_neg hdrop, hparent] }
  else t

def isFile (t : FileTree) (l : List Name) : Bool :=
  match t.node l with
  | some (.file _) => true
  | _ => false

def erase (t : FileTree) (l : List Name) : FileTree :=
  if h : t.isFile l then
    { node := fun m => if m = l then none else t.node m
      root := by
        have hne : [] ≠ l := by
          intro he
          rw [← he, isFile, t.root] at h
          cases h
        rw [if_neg hne, t.root]
      closed := by
        intro m hm hnode
        by_cases hml : m = l
        · simp [hml] at hnode
        · rw [if_neg hml] at hnode
          have hparent := t.closed m hm hnode
          have hdrop : m.dropLast ≠ l := by
            intro he
            rw [← he, isFile, hparent] at h
            cases h
          rw [if_neg hdrop, hparent] }
  else t

theorem node_put {n : Node} (h : t.Puttable l n) (m : List Name) :
    (t.put l n).node m = if m = l then some n else t.node m := by
  rw [put, dif_pos h]

theorem node_put_of_ne {m : List Name} (h : m ≠ l) (n : Node) :
    (t.put l n).node m = t.node m := by
  unfold put
  split
  · exact if_neg h
  · rfl

theorem node_erase_of_ne {m : List Name} (h : m ≠ l) : (t.erase l).node m = t.node m := by
  unfold erase
  split
  · exact if_neg h
  · rfl

/-- Every directory on the way is there. -/
theorem node_prefix (h : t.node (here ++ l) ≠ none) (hl : l ≠ []) : t.node here = some .dir := by
  induction l using List.reverseRecOn with
  | nil => exact absurd rfl hl
  | append_singleton front last ih =>
    have hparent := t.closed (here ++ (front ++ [last])) (by simp) h
    rw [← List.append_assoc, List.dropLast_concat] at hparent
    cases front with
    | nil => simpa using hparent
    | cons n more => exact ih (by simp [hparent]) (by simp)

theorem node_dropLast (h : t.node here = some .dir) : t.node here.dropLast = some .dir := by
  by_cases hhere : here = []
  · rw [hhere]
    exact t.root
  · exact t.closed here hhere (by simp [h])

/-- The place that a path leads to; the last part of it need not be there. -/
def locate (t : FileTree) : List Name → List Name → Except Errno (List Name)
  | here, [] => .ok here
  | here, n :: rest =>
    match t.node here with
    | some .dir => locate t (move here n) rest
    | some (.file _) => .error .ENOTDIR
    | none => .error .ENOENT

def find (t : FileTree) (cwd : List Name) (p : List Char) : Except Errno (List Name) :=
  if p = [] then .error .ENOENT else t.locate (start cwd p) (parts p)

/-- Make the directories of a path that are missing. -/
def mkdirs (t : FileTree) : List Name → List Name → FileTree × Except Errno Unit
  | here, [] =>
    match t.node here with
    | some .dir => (t, .ok ())
    | some (.file _) => (t, .error .EEXIST)
    | none => (t, .error .ENOENT)
  | here, n :: rest =>
    match t.node here with
    | some .dir =>
      match t.node (move here n) with
      | some _ => mkdirs t (move here n) rest
      | none => mkdirs (t.put (move here n) .dir) (move here n) rest
    | some (.file _) => (t, .error .ENOTDIR)
    | none => (t, .error .ENOENT)

/-- `mkdir` with `recursive`. -/
def mkdir (t : FileTree) (cwd : List Name) (p : List Char) : FileTree × Except Errno Unit :=
  if p = [] then (t, .error .ENOENT) else t.mkdirs (start cwd p) (parts p)

/-- `open` for appending, which makes a file where there is none. -/
def openAppend (t : FileTree) (cwd : List Name) (p : List Char) :
    Except Errno (FileTree × List Name) :=
  match t.find cwd p with
  | .error e => .error e
  | .ok l =>
    match t.node l with
    | some .dir => .error .EISDIR
    | some (.file _) => .ok (t, l)
    | none => .ok (t.put l (.file []), l)

/-- `open` of a file that is there. -/
def openFile (t : FileTree) (cwd : List Name) (p : List Char) :
    Except Errno (List Name × List UInt8) :=
  match t.find cwd p with
  | .error e => .error e
  | .ok l =>
    match t.node l with
    | some .dir => .error .EISDIR
    | some (.file content) => .ok (l, content)
    | none => .error .ENOENT

def setContent (t : FileTree) (l : List Name) (content : List UInt8) : FileTree :=
  if t.isFile l then t.put l (.file content) else t

/-- `rename` of a file. -/
def rename (t : FileTree) (cwd : List Name) (source target : List Char) :
    Except Errno (FileTree × List Name × List Name) :=
  match t.openFile cwd source with
  | .error e => .error e
  | .ok (l, content) =>
    match t.find cwd target with
    | .error e => .error e
    | .ok m =>
      match t.node m with
      | some .dir => .error .EISDIR
      | _ => if l = m then .ok (t, l, m) else .ok ((t.put m (.file content)).erase l, l, m)

/-- Each part of the way is a directory, and so is the place that it leads to. -/
def Walkable (t : FileTree) : List Name → List Name → Prop
  | here, [] => t.node here = some .dir
  | here, n :: rest => t.node here = some .dir ∧ Walkable t (move here n) rest

theorem Walkable.first {names : List Name} (h : t.Walkable here names) :
    t.node here = some .dir := by
  cases names with
  | nil => exact h
  | cons n rest => exact h.1

theorem walkable_append {names more : List Name} :
    t.Walkable here (names ++ more) ↔
      t.Walkable here names ∧ t.Walkable (walk here names) more := by
  induction names generalizing here with
  | nil =>
    constructor
    · exact fun h => ⟨h.first, h⟩
    · exact fun h => h.2
  | cons n rest ih =>
    simp only [List.cons_append, Walkable, ih]
    exact and_assoc.symm

theorem Walkable.walk {names : List Name} (h : t.Walkable here names) :
    t.node (walk here names) = some .dir := by
  rw [← List.append_nil names] at h
  exact (walkable_append.1 h).2

theorem locate_of_walkable {names : List Name} (h : t.Walkable here names) :
    t.locate here names = .ok (Posix.walk here names) := by
  induction names generalizing here with
  | nil => rfl
  | cons n rest ih =>
    simp only [locate, h.1]
    exact ih h.2

theorem locate_concat {names : List Name} (h : t.Walkable here names) (n : Name) :
    t.locate here (names ++ [n]) = .ok (move (Posix.walk here names) n) := by
  induction names generalizing here with
  | nil =>
    simp only [List.nil_append, locate, show t.node here = some .dir from h]
    rfl
  | cons m rest ih =>
    simp only [List.cons_append, locate, h.1]
    exact ih h.2

/-- What was looked up led through directories. -/
theorem walkable_of_locate {names more : List Name} (hmore : more ≠ [])
    (h : t.locate here (names ++ more) = .ok l) : t.Walkable here names := by
  induction names generalizing here with
  | nil =>
    obtain ⟨n, rest, rfl⟩ := List.exists_cons_of_ne_nil hmore
    simp only [List.nil_append, locate] at h
    split at h
    · assumption
    · cases h
    · cases h
  | cons n rest ih =>
    simp only [List.cons_append, locate] at h
    split at h
    · exact ⟨by assumption, ih h⟩
    · cases h
    · cases h

theorem walkable_skips {names : List Name} (h : ∀ n ∈ names, Skip n)
    (hhere : t.node here = some .dir) : t.Walkable here names := by
  induction names with
  | nil => exact hhere
  | cons n rest ih =>
    simp only [List.forall_mem_cons] at h
    refine ⟨hhere, ?_⟩
    rw [move_skip h.1]
    exact ih h.2

theorem walkable_filter {names : List Name} :
    t.Walkable here (names.filter (¬ Skip ·)) ↔ t.Walkable here names := by
  induction names generalizing here with
  | nil => exact Iff.rfl
  | cons n rest ih =>
    by_cases hn : Skip n
    · rw [List.filter_cons_of_neg (by simpa using hn), ih]
      simp only [Walkable, move_skip hn]
      exact ⟨fun h => ⟨h.first, h⟩, fun h => h.2⟩
    · rw [List.filter_cons_of_pos (by simpa using hn)]
      simp only [Walkable, ih]

/-- A path without detours leads through directories when both of its ends are some. -/
theorem walkable_reduced {allowAboveRoot : Bool} {names : List Name}
    (h : Reduced allowAboveRoot names) (hhere : t.node here = some .dir)
    (hend : t.node (Posix.walk here names) = some .dir) : t.Walkable here names := by
  obtain ⟨ups, down, rfl, hplain, -⟩ := h.split
  have hups : ∀ (ups : Nat) (here : List Name), t.node here = some .dir →
      t.Walkable here (List.replicate ups ['.', '.']) := by
    intro ups
    induction ups with
    | zero => exact fun here hhere => hhere
    | succ ups ih =>
      intro here hhere
      refine ⟨hhere, ?_⟩
      rw [move_up]
      exact ih _ (node_dropLast hhere)
  refine walkable_append.2 ⟨hups ups here hhere, ?_⟩
  rw [walk_append] at hend
  have hbase := (hups ups here hhere).walk
  clear hups h hhere
  generalize Posix.walk here (List.replicate ups ['.', '.']) = base at hend hbase
  induction down generalizing base with
  | nil => exact hbase
  | cons n rest ih =>
    have hn := hplain n List.mem_cons_self
    have hrest : ∀ m ∈ rest, Plain m := fun m hm => hplain m (List.mem_cons_of_mem _ hm)
    rw [Posix.walk, List.foldl_cons, move_plain hn] at hend
    refine ⟨hbase, ?_⟩
    rw [move_plain hn]
    refine ih hrest (base ++ [n]) hend ?_
    rw [← Posix.walk, walk_plain hrest] at hend
    cases rest with
    | nil => simpa using hend
    | cons m more => exact node_prefix (by rw [hend]; simp) (List.cons_ne_nil m more)

theorem mkdirs_of_walkable {names : List Name} (h : t.Walkable here names) :
    t.mkdirs here names = (t, .ok ()) := by
  induction names generalizing here with
  | nil => simp only [mkdirs, show t.node here = some .dir from h]
  | cons n rest ih => simp only [mkdirs, h.1, h.2.first, ih h.2]

/-- What is there stays, and what is made is a directory. -/
structure Extends (t t' : FileTree) : Prop where
  keeps : ∀ l, t.node l ≠ none → t'.node l = t.node l
  makes : ∀ l, t.node l = none → t'.node l = none ∨ t'.node l = some .dir

theorem Extends.refl (t : FileTree) : Extends t t := ⟨fun _ _ => rfl, fun _ h => .inl h⟩

theorem Extends.trans {t'' : FileTree} (h : Extends t t') (h' : Extends t' t'') :
    Extends t t'' := by
  refine ⟨?_, ?_⟩
  · intro l hl
    have hkeeps := h.keeps l hl
    rw [h'.keeps l (by rw [hkeeps]; exact hl), hkeeps]
  · intro l hl
    rcases h.makes l hl with hnone | hdir
    · exact h'.makes l hnone
    · exact .inr ((h'.keeps l (by simp [hdir])).trans hdir)

theorem extends_put_dir (hnew : t.node l = none) : Extends t (t.put l .dir) := by
  refine ⟨?_, ?_⟩
  · intro m hm
    refine node_put_of_ne ?_ _
    rintro rfl
    exact hm hnew
  · intro m hm
    by_cases hput : t.Puttable l .dir
    · rw [node_put hput]
      split
      · exact .inr rfl
      · exact .inl hm
    · rw [put, dif_neg hput]
      exact .inl hm

theorem extends_mkdirs (t : FileTree) (here names : List Name) :
    Extends t (t.mkdirs here names).1 := by
  induction names generalizing t here with
  | nil =>
    simp only [mkdirs]
    split <;> exact .refl t
  | cons n rest ih =>
    simp only [mkdirs]
    split
    · split
      · exact ih t _
      · rename_i hnew
        exact (extends_put_dir hnew).trans (ih _ _)
    · exact .refl t
    · exact .refl t

theorem walkable_mkdirs {names : List Name} (h : (t.mkdirs here names).2 = .ok ()) :
    (t.mkdirs here names).1.Walkable here names := by
  induction names generalizing t here with
  | nil =>
    simp only [mkdirs] at h ⊢
    split at h
    · rename_i hdir
      exact hdir
    · cases h
    · cases h
  | cons n rest ih =>
    have hextends := extends_mkdirs t here (n :: rest)
    simp only [mkdirs] at h hextends ⊢
    cases hhere : t.node here with
    | none => simp [hhere] at h
    | some node =>
      cases node with
      | file content => simp [hhere] at h
      | dir =>
        simp only [hhere] at h hextends ⊢
        have hstays := (hextends.keeps here (by simp [hhere])).trans hhere
        cases hnext : t.node (move here n) with
        | none =>
          simp only [hnext] at h hstays ⊢
          exact ⟨hstays, ih h⟩
        | some next =>
          simp only [hnext] at h hstays ⊢
          exact ⟨hstays, ih h⟩

theorem first_of_locate {names : List Name} (hnames : names ≠ [])
    (h : t.locate here names = .ok l) : t.node here = some .dir := by
  have hnone : t.Walkable here [] := walkable_of_locate hnames h
  exact hnone

/-- A directory that a path has been followed from does not have to be made. -/
theorem mkdir_dirname {cwd : List Name} {p : List Char} (h : t.find cwd p = .ok l) :
    t.mkdir cwd (dirname p) = (t, .ok ()) := by
  unfold find at h
  split at h
  · cases h
  · rename_i hp
    obtain ⟨habsolute, hparts⟩ := parts_dirname hp
    have hstart : start cwd (dirname p) = start cwd p := by simp [start, habsolute]
    unfold mkdir
    rw [if_neg (dirname_ne_nil p), hstart]
    refine mkdirs_of_walkable ?_
    rcases hparts with hskips | ⟨more, hmore, heq⟩
    · exact walkable_skips hskips (first_of_locate (parts_ne_nil p) h)
    · rw [heq] at h
      exact walkable_of_locate hmore h

theorem locate_eq {names : List Name} (h : t.locate here names = .ok l) :
    l = Posix.walk here names := by
  induction names generalizing here with
  | nil => exact (Except.ok.inj h).symm
  | cons n rest ih =>
    simp only [locate] at h
    split at h
    · exact ih h
    · cases h
    · cases h

theorem find_eq {cwd : List Name} {p : List Char} (h : t.find cwd p = .ok l) :
    l = location cwd p := by
  unfold find at h
  split at h
  · cases h
  · exact locate_eq h

theorem mkdir_location {cwd : List Name} {p : List Char} (h : (t.mkdir cwd p).2 = .ok ()) :
    (t.mkdir cwd p).1.Walkable (start cwd p) (parts p) ∧ p ≠ [] := by
  unfold mkdir at h ⊢
  split at h
  · cases h
  · rename_i hp
    rw [if_neg hp]
    exact ⟨walkable_mkdirs h, hp⟩

theorem join_ne_nil {first : List Char} (hfirst : first ≠ []) (second : List Char) :
    join first second ≠ [] := by
  have hne : ∀ p : List Char, p ≠ [] → normalize p ≠ [] := by
    intro p hp hnil
    by_cases hrest : rest p = []
    · rw [normalize_of_rest_nil hp hrest] at hnil
      split at hnil
      · cases hnil
      · split at hnil <;> cases hnil
    · obtain ⟨n, more, hcons⟩ := List.exists_cons_of_ne_nil hrest
      have hn := ((reduced_rest p).slash (by rw [hcons]; exact List.mem_cons_self)).1
      have hparts := (parts_normalize hp hrest).1
      have hmem : n ∈ parts (normalize p) := by
        rw [hparts, hcons]
        simp
      rw [hnil] at hmem
      exact hn (.inl (List.mem_singleton.1 hmem))
  rw [join_eq hfirst]
  split
  · exact hne _ hfirst
  · exact hne _ (by simp)

/-- A name that is joined to a directory that is there is found in it, also one that leads
nowhere or up. -/
theorem find_join {cwd : List Name} {p : List Char} (hp : p ≠ [])
    (hw : t.Walkable (start cwd p) (parts p)) {n : Name} (hn : '/' ∉ n) :
    t.find cwd (join p n) = .ok (location cwd (join p n)) := by
  have hstart : start cwd (join p n) = start cwd p := by simp [start, isAbsolute_join hp]
  have hroot : (!isAbsolute p) = false → start cwd p = [] := by
    intro habsolute
    simp only [Bool.not_eq_false'] at habsolute
    simp [start, habsolute]
  unfold find
  rw [if_neg (join_ne_nil hp n)]
  by_cases hplain : Plain n
  · obtain ⟨before, hparts, hfilter⟩ := parts_join hp hplain
    have hend : t.node (Posix.walk (start cwd p) (Posix.rest p)) = some .dir := by
      rw [Posix.rest, walk_reduce (fun _ h => not_mem_of_mem_parts h) hroot]
      exact hw.walk
    have hbefore : t.Walkable (start cwd p) before := by
      rw [← walkable_filter, hfilter]
      exact walkable_reduced (reduced_rest p) hw.first hend
    unfold location
    rw [hparts, hstart, locate_concat hbefore, walk_append]
    rfl
  · have hdir : t.node (location cwd (join p n)) = some .dir := by
      rw [location_join cwd hp hn]
      rcases move_of_not_plain hn hplain (Posix.walk (start cwd p) (parts p)) with hstay | hup
      · exact (congrArg t.node hstay).trans hw.walk
      · exact (congrArg t.node hup).trans (node_dropLast hw.walk)
    refine locate_of_walkable ?_
    set j := if n = [] then p else p ++ '/' :: n with hj
    have hjne : j ≠ [] := by
      rw [hj]
      split
      · exact hp
      · simp
    have hjoin : join p n = normalize j := join_eq hp n
    have hjstart : start cwd j = start cwd p := by
      rw [← hstart, hjoin]
      simp [start, isAbsolute_normalize hjne]
    rw [location, hstart, ← walk_filter, hjoin, filter_parts_normalize hjne] at hdir
    rw [hstart, ← walkable_filter, hjoin, filter_parts_normalize hjne]
    exact walkable_reduced (reduced_rest j) hw.first hdir

end FileTree

end PonsWarp.Data.Posix
