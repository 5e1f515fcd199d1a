import Mathlib.Data.List.Basic
import Mathlib.Data.List.Infix

set_option autoImplicit false

/-!
Paths of the POSIX kind, as `node:path` takes them apart and puts them together, and the
place in a tree of directories that a path leads to.
-/

namespace PonsWarp.Data.Posix

abbrev Name := List Char

def parts (p : List Char) : List Name := p.splitOn '/'

/-- The part of a path that stays where it is. -/
def Skip (n : Name) : Prop := n = [] ∨ n = ['.']

instance (n : Name) : Decidable (Skip n) := inferInstanceAs (Decidable (_ ∨ _))

/-- The name of an entry of a directory. -/
structure Plain (n : Name) : Prop where
  nonempty : n ≠ []
  dot : n ≠ ['.']
  up : n ≠ ['.', '.']
  slash : '/' ∉ n

instance (n : Name) : Decidable (Plain n) :=
  decidable_of_iff (n ≠ [] ∧ n ≠ ['.'] ∧ n ≠ ['.', '.'] ∧ '/' ∉ n)
    ⟨fun ⟨h, hdot, hup, hslash⟩ => ⟨h, hdot, hup, hslash⟩,
      fun ⟨h, hdot, hup, hslash⟩ => ⟨h, hdot, hup, hslash⟩⟩

def basename (p : List Char) : Name := ((parts p).filter (· ≠ [])).getLastD []

def dirname : List Char → List Char
  | [] => ['.']
  | first :: body =>
    let rest := (body.reverse.dropWhile (· = '/')).dropWhile (· ≠ '/')
    if rest = [] then (if first = '/' then ['/'] else ['.'])
    else if first = '/' ∧ rest.length = 1 then ['/', '/']
    else (first :: body).take rest.length

/-- One turn of `normalizeString`: `stack` is what the parts so far have left over. -/
def push (allowAboveRoot : Bool) (stack : List Name) (n : Name) : List Name :=
  if Skip n then stack
  else if n = ['.', '.'] then
    if stack = [] ∨ stack.getLast? = some ['.', '.'] then
      if allowAboveRoot then stack ++ [n] else stack
    else stack.dropLast
  else stack ++ [n]

def reduce (allowAboveRoot : Bool) (names : List Name) : List Name :=
  names.foldl (push allowAboveRoot) []

def isAbsolute (p : List Char) : Bool := p.head? = some '/'

def normalize (p : List Char) : List Char :=
  if p = [] then ['.']
  else
    let trailingSeparator := p.getLast? = some '/'
    let path := ['/'].intercalate (reduce (!isAbsolute p) (parts p))
    if path = [] then
      if isAbsolute p then ['/'] else if trailingSeparator then ['.', '/'] else ['.']
    else
      (if isAbsolute p then ['/'] else []) ++ path ++ (if trailingSeparator then ['/'] else [])

def join (first second : List Char) : List Char :=
  let path := [first, second].filter (· ≠ [])
  if path = [] then ['.'] else normalize (['/'].intercalate path)

def resolve (cwd p : List Char) : List Char :=
  if isAbsolute p then '/' :: ['/'].intercalate (reduce false (parts p))
  else '/' :: ['/'].intercalate (reduce false (parts cwd ++ parts p))

/-- One part of a path leads on from a directory, which is given by the names on the way to it. -/
def move (here : List Name) (n : Name) : List Name :=
  if Skip n then here else if n = ['.', '.'] then here.dropLast else here ++ [n]

def walk (here : List Name) (names : List Name) : List Name := names.foldl move here

/-- Where a path starts. -/
def start (cwd : List Name) (p : List Char) : List Name := if isAbsolute p then [] else cwd

def location (cwd : List Name) (p : List Char) : List Name := walk (start cwd p) (parts p)

theorem Plain.not_skip {n : Name} (h : Plain n) : ¬ Skip n := by
  rintro (he | he)
  · exact h.nonempty he
  · exact h.dot he

theorem push_plain {n : Name} (h : Plain n) (allowAboveRoot : Bool) (stack : List Name) :
    push allowAboveRoot stack n = stack ++ [n] := by
  rw [push, if_neg h.not_skip, if_neg h.up]

theorem move_plain {n : Name} (h : Plain n) (here : List Name) : move here n = here ++ [n] := by
  rw [move, if_neg h.not_skip, if_neg h.up]

theorem move_skip {n : Name} (h : Skip n) (here : List Name) : move here n = here := by
  rw [move, if_pos h]

theorem move_up (here : List Name) : move here ['.', '.'] = here.dropLast := by
  simp [move, Skip]

/-- A part that is no name of an entry does not lead into the directory. -/
theorem move_of_not_plain {n : Name} (hslash : '/' ∉ n) (h : ¬ Plain n) (here : List Name) :
    move here n = here ∨ move here n = here.dropLast := by
  by_cases hskip : Skip n
  · exact .inl (move_skip hskip here)
  · by_cases hup : n = ['.', '.']
    · rw [hup]
      exact .inr (move_up here)
    · exact absurd ⟨fun he => hskip (.inl he), fun he => hskip (.inr he), hup, hslash⟩ h

@[simp] theorem walk_nil (here : List Name) : walk here [] = here := rfl

theorem walk_append (here names more : List Name) :
    walk here (names ++ more) = walk (walk here names) more := by
  simp [walk]

theorem walk_plain {names : List Name} (h : ∀ n ∈ names, Plain n) (here : List Name) :
    walk here names = here ++ names := by
  induction names generalizing here with
  | nil => simp
  | cons n rest ih =>
    simp only [List.forall_mem_cons] at h
    rw [walk, List.foldl_cons, move_plain h.1]
    refine (ih h.2 _).trans ?_
    simp

theorem walk_filter (here names : List Name) :
    walk here (names.filter (¬ Skip ·)) = walk here names := by
  induction names generalizing here with
  | nil => rfl
  | cons n rest ih =>
    by_cases hn : Skip n
    · rw [List.filter_cons_of_neg (by simpa using hn), ih]
      simp [walk, move_skip hn]
    · rw [List.filter_cons_of_pos (by simpa using hn)]
      exact ih _

/-- What `normalizeString` leaves: steps up, which an absolute path has none of, and then names. -/
structure Reduced (allowAboveRoot : Bool) (stack : List Name) : Prop where
  split : ∃ ups names, stack = List.replicate ups ['.', '.'] ++ names ∧ (∀ n ∈ names, Plain n) ∧
    (allowAboveRoot = false → ups = 0)

theorem Reduced.push {allowAboveRoot : Bool} {stack : List Name}
    (h : Reduced allowAboveRoot stack) {n : Name} (hn : '/' ∉ n) :
    Reduced allowAboveRoot (push allowAboveRoot stack n) := by
  obtain ⟨ups, names, rfl, hnames, habove⟩ := h.split
  by_cases hskip : Skip n
  · rw [Posix.push, if_pos hskip]
    exact h
  · by_cases hup : n = ['.', '.']
    · rw [Posix.push, if_neg hskip, if_pos hup]
      rcases List.eq_nil_or_concat names with rfl | ⟨front, last, rfl⟩
      · simp only [List.append_nil]
        split
        · split
          · rename_i hallowed
            refine ⟨ups + 1, [], ?_, by simp, by simp [hallowed]⟩
            rw [hup, List.append_nil, List.replicate_succ']
          · exact ⟨ups, [], by simp, by simp, habove⟩
        · refine ⟨ups - 1, [], by simp, by simp, ?_⟩
          intro hfalse
          rw [habove hfalse]
      · rw [List.concat_eq_append] at hnames ⊢
        have hlast := hnames last (by simp)
        have hopen : ¬ (List.replicate ups ['.', '.'] ++ (front ++ [last]) = [] ∨
            (List.replicate ups ['.', '.'] ++ (front ++ [last])).getLast? = some ['.', '.']) := by
          simp [hlast.up]
        rw [if_neg hopen, ← List.append_assoc, List.dropLast_concat]
        exact ⟨ups, front, rfl, fun m hm => hnames m (by simp [hm]), habove⟩
    · have hplain : Plain n := ⟨fun he => hskip (.inl he), fun he => hskip (.inr he), hup, hn⟩
      rw [push_plain hplain]
      refine ⟨ups, names ++ [n], by simp, ?_, habove⟩
      intro m hm
      rcases List.mem_append.1 hm with hold | hnew
      · exact hnames m hold
      · rw [List.mem_singleton.1 hnew]
        exact hplain

/-- Above the root there is nothing, so a path that starts there may forget its steps up. -/
theorem walk_push {allowAboveRoot : Bool} {stack : List Name} (h : Reduced allowAboveRoot stack)
    {here : List Name} (hroot : allowAboveRoot = false → here = []) (n : Name) :
    walk here (push allowAboveRoot stack n) = move (walk here stack) n := by
  obtain ⟨ups, names, rfl, hnames, habove⟩ := h.split
  by_cases hskip : Skip n
  · rw [push, if_pos hskip, move_skip hskip]
  · by_cases hup : n = ['.', '.']
    · subst hup
      rw [push, if_neg hskip, if_pos rfl, move_up]
      rcases List.eq_nil_or_concat names with rfl | ⟨front, last, rfl⟩
      · simp only [List.append_nil]
        split
        · split
          · rw [walk_append]
            exact move_up _
          · rename_i hforbidden
            have hfalse : allowAboveRoot = false := by simpa using hforbidden
            rw [habove hfalse, hroot hfalse]
            rfl
        · rename_i hopen
          cases ups with
          | zero => simp at hopen
          | succ ups => simp [List.replicate_succ'] at hopen
      · rw [List.concat_eq_append] at hnames ⊢
        have hlast := hnames last (by simp)
        have hopen : ¬ (List.replicate ups ['.', '.'] ++ (front ++ [last]) = [] ∨
            (List.replicate ups ['.', '.'] ++ (front ++ [last])).getLast? = some ['.', '.']) := by
          simp [hlast.up]
        rw [if_neg hopen, ← List.append_assoc, List.dropLast_concat, walk_append _ _ [last]]
        simp [walk, move_plain hlast]
    · rw [push, if_neg hskip, if_neg hup, walk_append]
      rfl

theorem reduced_reduce {names : List Name} (h : ∀ n ∈ names, '/' ∉ n) (allowAboveRoot : Bool) :
    Reduced allowAboveRoot (reduce allowAboveRoot names) := by
  have hstack : ∀ stack, Reduced allowAboveRoot stack →
      Reduced allowAboveRoot (names.foldl (push allowAboveRoot) stack) := by
    induction names with
    | nil => exact fun stack hs => hs
    | cons n rest ih =>
      simp only [List.forall_mem_cons] at h
      exact fun stack hs => ih h.2 _ (hs.push h.1)
  exact hstack [] ⟨0, [], rfl, by simp, fun _ => rfl⟩

theorem walk_reduce {names : List Name} (h : ∀ n ∈ names, '/' ∉ n) {allowAboveRoot : Bool}
    {here : List Name} (hroot : allowAboveRoot = false → here = []) :
    walk here (reduce allowAboveRoot names) = walk here names := by
  have hstack : ∀ stack, Reduced allowAboveRoot stack →
      walk here (names.foldl (push allowAboveRoot) stack) = walk (walk here stack) names := by
    induction names with
    | nil => exact fun stack _ => rfl
    | cons n rest ih =>
      simp only [List.forall_mem_cons] at h
      intro stack hs
      refine (ih h.2 _ (hs.push h.1)).trans ?_
      rw [walk_push hs hroot]
      rfl
  exact hstack [] ⟨0, [], rfl, by simp, fun _ => rfl⟩

theorem not_mem_of_mem_parts {p : List Char} {n : Name} (h : n ∈ parts p) : '/' ∉ n := by
  induction p generalizing n with
  | nil =>
    rw [List.mem_singleton.1 h]
    simp
  | cons c rest ih =>
    simp only [parts, List.splitOn_cons_eq_if_modifyHead] at h
    split at h
    · rcases List.mem_cons.1 h with rfl | hrest
      · simp
      · exact ih hrest
    · rename_i hc
      obtain ⟨first, more, hsplit⟩ := List.exists_cons_of_ne_nil (List.splitOn_ne_nil '/' rest)
      rw [hsplit, List.modifyHead_cons] at h
      have hfirst : '/' ∉ first := ih (by simp [parts, hsplit])
      rcases List.mem_cons.1 h with rfl | hmore
      · have hne : ¬ '/' = c := fun he => hc (by simp [← he])
        simp [hne, hfirst]
      · exact ih (by simp [parts, hsplit, hmore])

theorem parts_ne_nil (p : List Char) : parts p ≠ [] := List.splitOn_ne_nil _ _

theorem parts_append_slash (p q : List Char) : parts (p ++ '/' :: q) = parts p ++ parts q :=
  List.splitOn_append_cons_self p q

theorem parts_eq_singleton {n : Name} (h : '/' ∉ n) : parts n = [n] := List.splitOn_eq_singleton h

theorem parts_slash (p : List Char) : parts ('/' :: p) = [] :: parts p := parts_append_slash [] p

theorem Reduced.slash {allowAboveRoot : Bool} {stack : List Name}
    (h : Reduced allowAboveRoot stack) {n : Name} (hn : n ∈ stack) : ¬ Skip n ∧ '/' ∉ n := by
  obtain ⟨ups, names, rfl, hnames, -⟩ := h.split
  rcases List.mem_append.1 hn with hup | hname
  · rw [List.eq_of_mem_replicate hup]
    decide
  · exact ⟨(hnames n hname).not_skip, (hnames n hname).slash⟩

theorem Reduced.filter {allowAboveRoot : Bool} {stack : List Name}
    (h : Reduced allowAboveRoot stack) : stack.filter (¬ Skip ·) = stack := by
  rw [List.filter_eq_self]
  intro n hn
  simpa using (h.slash hn).1

/-- What a path leaves over when it is normalised. -/
def rest (p : List Char) : List Name := reduce (!isAbsolute p) (parts p)

theorem reduced_rest (p : List Char) : Reduced (!isAbsolute p) (rest p) :=
  reduced_reduce (fun _ h => not_mem_of_mem_parts h) _

theorem intercalate_rest_ne_nil {p : List Char} (h : rest p ≠ []) :
    ['/'].intercalate (rest p) ≠ [] ∧ (['/'].intercalate (rest p)).head? ≠ some '/' := by
  have hreduced := reduced_rest p
  obtain ⟨first, more, hrest⟩ := List.exists_cons_of_ne_nil h
  have hfirst := hreduced.slash (by rw [hrest]; exact List.mem_cons_self)
  cases first with
  | nil => exact absurd (Or.inl rfl) hfirst.1
  | cons c cs =>
    have hc : c ≠ '/' := fun he => hfirst.2 (by simp [he])
    rw [hrest]
    cases more <;> simp [hc]

/-- The parts of a normalised path: those that are left over, with an empty one before them for the
root and one behind them for a separator at the end. -/
theorem parts_normalize {p : List Char} (hp : p ≠ []) (hrest : rest p ≠ []) :
    parts (normalize p) = (if isAbsolute p then [[]] else []) ++ rest p ++
      (if p.getLast? = some '/' then [[]] else []) ∧ isAbsolute (normalize p) = isAbsolute p := by
  obtain ⟨hne, hhead⟩ := intercalate_rest_ne_nil hrest
  have hparts : parts (['/'].intercalate (rest p)) = rest p :=
    List.splitOn_intercalate '/' (fun n hn => ((reduced_rest p).slash hn).2) hrest
  have hnormalize : normalize p = (if isAbsolute p then ['/'] else []) ++
      ['/'].intercalate (rest p) ++ (if p.getLast? = some '/' then ['/'] else []) := by
    unfold normalize
    rw [if_neg hp]
    exact if_neg hne
  have htail : parts (['/'].intercalate (rest p) ++ (if p.getLast? = some '/' then ['/'] else [])) =
      rest p ++ (if p.getLast? = some '/' then [[]] else []) := by
    split
    · rw [parts_append_slash, hparts]
      rfl
    · simp [hparts]
  rw [hnormalize, List.append_assoc, List.append_assoc]
  cases habs : isAbsolute p with
  | true =>
    refine ⟨?_, rfl⟩
    simp only [if_true, List.singleton_append, parts_slash, htail]
  | false =>
    refine ⟨by simpa using htail, ?_⟩
    simp only [Bool.false_eq_true, if_false, List.nil_append, isAbsolute]
    obtain ⟨c, cs, hpath⟩ := List.exists_cons_of_ne_nil hne
    rw [hpath] at hhead ⊢
    simpa using hhead

theorem normalize_of_rest_nil {p : List Char} (hp : p ≠ []) (hrest : rest p = []) :
    normalize p = if isAbsolute p then ['/'] else
      if p.getLast? = some '/' then ['.', '/'] else ['.'] := by
  have hpath : ['/'].intercalate (reduce (!isAbsolute p) (parts p)) = [] := by
    rw [show reduce (!isAbsolute p) (parts p) = [] from hrest]
    rfl
  unfold normalize
  rw [if_neg hp]
  exact if_pos hpath

theorem isAbsolute_normalize {p : List Char} (hp : p ≠ []) :
    isAbsolute (normalize p) = isAbsolute p := by
  by_cases hrest : rest p = []
  · rw [normalize_of_rest_nil hp hrest]
    cases isAbsolute p with
    | true => rfl
    | false => simp only [Bool.false_eq_true, if_false]; split <;> rfl
  · exact (parts_normalize hp hrest).2

theorem filter_parts_normalize {p : List Char} (hp : p ≠ []) :
    (parts (normalize p)).filter (¬ Skip ·) = rest p := by
  by_cases hrest : rest p = []
  · rw [normalize_of_rest_nil hp hrest, hrest]
    split
    · decide
    · split <;> decide
  · rw [(parts_normalize hp hrest).1, List.filter_append, List.filter_append, (reduced_rest p).filter]
    have hskip : ([[]] : List Name).filter (¬ Skip ·) = [] := by decide
    split <;> split <;> simp only [hskip, List.filter_nil, List.nil_append, List.append_nil]

/-- A normalised path leads where the path leads. -/
theorem location_normalize (cwd : List Name) {p : List Char} (hp : p ≠ []) :
    location cwd (normalize p) = location cwd p := by
  have hroot : (!isAbsolute p) = false → start cwd p = [] := by
    intro habs
    simp only [Bool.not_eq_false'] at habs
    simp [start, habs]
  have hstart : start cwd (normalize p) = start cwd p := by
    simp [start, isAbsolute_normalize hp]
  unfold location
  rw [hstart, ← walk_filter, filter_parts_normalize hp]
  exact walk_reduce (fun _ h => not_mem_of_mem_parts h) hroot

/-- What `join` normalises. -/
theorem join_eq {first : List Char} (hfirst : first ≠ []) (second : List Char) :
    join first second =
      normalize (if second = [] then first else first ++ '/' :: second) := by
  by_cases hsecond : second = []
  · simp [join, hfirst, hsecond]
  · simp [join, hfirst, hsecond]

theorem isAbsolute_append {p : List Char} (hp : p ≠ []) (q : List Char) :
    isAbsolute (p ++ q) = isAbsolute p := by
  obtain ⟨c, cs, rfl⟩ := List.exists_cons_of_ne_nil hp
  rfl

theorem isAbsolute_join {first : List Char} (hfirst : first ≠ []) (second : List Char) :
    isAbsolute (join first second) = isAbsolute first := by
  rw [join_eq hfirst]
  split
  · exact isAbsolute_normalize hfirst
  · rw [isAbsolute_normalize (by simp), isAbsolute_append hfirst]

example : join "out/../down/".toList (basename "../../etc/passwd/".toList) = "down/passwd".toList := by
  decide

/-- One more name is one more move. -/
theorem location_join (cwd : List Name) {first : List Char} (hfirst : first ≠ []) {n : Name}
    (hn : '/' ∉ n) : location cwd (join first n) = move (location cwd first) n := by
  rw [join_eq hfirst]
  split
  · rename_i hempty
    rw [location_normalize cwd hfirst, move_skip (.inl hempty)]
  · rw [location_normalize cwd (by simp)]
    unfold location start
    rw [isAbsolute_append hfirst, parts_append_slash, parts_eq_singleton hn, walk_append]
    rfl

theorem rest_join {first : List Char} (hfirst : first ≠ []) {n : Name} (hn : Plain n) :
    rest (first ++ '/' :: n) = rest first ++ [n] := by
  unfold rest reduce
  rw [isAbsolute_append hfirst, parts_append_slash, parts_eq_singleton hn.slash, List.foldl_append]
  exact push_plain hn _ _

/-- A name is the last part of the path that it is joined to, and before it stand the parts that
are left over, with others that lead nowhere. -/
theorem parts_join {first : List Char} (hfirst : first ≠ []) {n : Name} (hn : Plain n) :
    ∃ before, parts (join first n) = before ++ [n] ∧
      before.filter (¬ Skip ·) = rest first := by
  obtain ⟨c, cs, rfl⟩ := List.exists_cons_of_ne_nil hn.nonempty
  have hlast : (first ++ '/' :: c :: cs).getLast? ≠ some '/' := by
    intro he
    have hmem : '/' ∈ c :: cs := by
      rw [List.getLast?_append, List.getLast?_cons_cons] at he
      have hsome : ((c :: cs).getLast?.or first.getLast?) = (c :: cs).getLast? := by
        simp [List.getLast?_cons]
      rw [hsome] at he
      exact List.mem_of_getLast? he
    exact hn.slash hmem
  have hne : first ++ '/' :: c :: cs ≠ [] := by simp
  have hrest := rest_join hfirst hn
  have hjoin := (parts_normalize hne (by simp [hrest])).1
  rw [if_neg hlast, List.append_nil, hrest, ← List.append_assoc] at hjoin
  refine ⟨_, by rw [join_eq hfirst, if_neg (List.cons_ne_nil c cs)]; exact hjoin, ?_⟩
  rw [List.filter_append, (reduced_rest first).filter]
  have hskip : ([[]] : List Name).filter (¬ Skip ·) = [] := by decide
  split <;> simp only [hskip, List.filter_nil, List.nil_append]

theorem dirname_ne_nil (p : List Char) : dirname p ≠ [] := by
  cases p with
  | nil => exact List.cons_ne_nil _ _
  | cons first body =>
    unfold dirname
    simp only
    split
    · split <;> exact List.cons_ne_nil _ _
    · rename_i hne
      split
      · exact List.cons_ne_nil _ _
      · simpa [List.take_eq_nil_iff] using hne

/-- The directory of a path starts where the path does, and it is a part of the way there. -/
theorem parts_dirname {p : List Char} (hp : p ≠ []) :
    isAbsolute (dirname p) = isAbsolute p ∧
      ((∀ n ∈ parts (dirname p), Skip n) ∨
        ∃ more, more ≠ [] ∧ parts p = parts (dirname p) ++ more) := by
  obtain ⟨first, body, rfl⟩ := List.exists_cons_of_ne_nil hp
  unfold dirname
  simp only
  set left := (body.reverse.dropWhile (· = '/')).dropWhile (· ≠ '/') with hleft
  split
  · by_cases hfirst : first = '/'
    · rw [if_pos hfirst, hfirst]
      exact ⟨rfl, .inl (by decide)⟩
    · rw [if_neg hfirst]
      refine ⟨?_, .inl (by decide)⟩
      simp [isAbsolute, hfirst]
  · rename_i hne
    split
    · rename_i htwo
      rw [htwo.1]
      exact ⟨rfl, .inl (by decide)⟩
    · obtain ⟨c, cs, hcons⟩ := List.exists_cons_of_ne_nil hne
      have hc : c = '/' := by
        have hhead := List.head?_dropWhile_not (fun x => decide (x ≠ '/'))
          (body.reverse.dropWhile (· = '/'))
        rw [← hleft, hcons] at hhead
        simpa using hhead
      have hsuffix : left <:+ body.reverse :=
        (List.dropWhile_suffix _).trans (List.dropWhile_suffix _)
      obtain ⟨gone, hgone⟩ := hsuffix
      have hbody : body = cs.reverse ++ '/' :: gone.reverse := by
        have hreverse := congrArg List.reverse hgone
        rw [List.reverse_reverse, hcons, hc] at hreverse
        simpa using hreverse.symm
      have htake : (first :: body).take left.length = first :: cs.reverse := by
        rw [hcons, List.length_cons, List.take_succ_cons, hbody,
          List.take_append_of_le_length (by simp), List.take_of_length_le (by simp)]
      rw [htake]
      refine ⟨rfl, .inr ⟨parts gone.reverse, parts_ne_nil _, ?_⟩⟩
      rw [hbody, ← List.cons_append]
      exact parts_append_slash _ _

end PonsWarp.Data.Posix
