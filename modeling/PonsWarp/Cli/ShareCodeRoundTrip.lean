import PonsWarp.Cli.ShareCodes

set_option autoImplicit false

/-!
When the parsers of the command line and of the web application take the same code out of
what was made of it.
-/

namespace PonsWarp.ShareCodes

open PonsWarp.Cli PonsWarp.Data

variable {p : Platform} {word : List Char} {c : Char}

/-- What a code is without its dash. No code has the letter O. -/
structure Word (word : List Char) : Prop where
  length : word.length = 8
  chars : ∀ c ∈ word, isCodeChar c = true ∧ c ≠ 'O'

theorem isAlpha_eq (c : Char) : c.isAlpha = (c.isUpper || c.isLower) := rfl

theorem isUpper_eq (c : Char) : c.isUpper = decide ('A'.val ≤ c.val ∧ c.val ≤ 'Z'.val) := rfl

theorem isLower_eq (c : Char) :
    c.isLower = (decide ('a'.val ≤ c.val) && decide (c.val ≤ 'z'.val)) := rfl

theorem toLower_of_not_upper (h : ¬ c.isUpper = true) : c.toLower = c := by
  simp only [isUpper_eq, decide_eq_true_eq] at h
  exact dif_neg h

theorem toUpper_of_not_lower (h : ¬ c.isLower = true) : c.toUpper = c := by
  simp only [isLower_eq, Bool.and_eq_true, decide_eq_true_eq] at h
  exact dif_neg h

theorem ascii_of_alphanum (h : c.isAlphanum = true) : c.toNat < 128 := by
  simp only [Char.isAlphanum, isAlpha_eq, isUpper_eq, isLower_eq, Char.isDigit,
    Bool.or_eq_true, Bool.and_eq_true, decide_eq_true_eq, UInt32.le_iff_toNat_le] at h
  have hval : c.toNat = c.val.toNat := rfl
  rcases h with (h | h) | h
  · have hle : c.val.toNat ≤ 90 := h.2
    omega
  · have hle : c.val.toNat ≤ 122 := h.2
    omega
  · have hle : c.val.toNat ≤ 57 := h.2
    omega

/-- What holds of every character of ASCII holds of this one. -/
theorem ascii_forall {P : Char → Prop} (hall : ∀ n : Fin 128, P (Char.ofNat n.val))
    (h : c.toNat < 128) : P c := by
  have hc := hall ⟨c.toNat, h⟩
  simpa using hc

theorem alphanum_of_codeChar (h : isCodeChar c = true) : c.isAlphanum = true := by
  simp only [isCodeChar, Bool.or_eq_true] at h
  rcases h with hupper | hdigit
  · simp [Char.isAlphanum, isAlpha_eq, hupper]
  · simp [Char.isAlphanum, hdigit]

theorem upper_codeChar (h : isCodeChar c = true) : p.upper c = [c] := by
  have hascii := ascii_of_alphanum (alphanum_of_codeChar h)
  have hupper : isCodeChar c = true → c.toUpper = c :=
    ascii_forall (P := fun c => isCodeChar c = true → c.toUpper = c) (by decide) hascii
  rw [p.ascii c hascii, hupper h]

theorem normalizeCode_append (text more : List Char) :
    p.normalizeCode (text ++ more) = p.normalizeCode text ++ p.normalizeCode more := by
  simp [Platform.normalizeCode]

theorem normalizeCode_codeChars {text : List Char} (h : ∀ c ∈ text, isCodeChar c = true) :
    p.normalizeCode text = text := by
  induction text with
  | nil => rfl
  | cons c rest ih =>
    simp only [List.forall_mem_cons] at h
    rw [← List.singleton_append, normalizeCode_append, ih h.2]
    simp [Platform.normalizeCode, upper_codeChar h.1, h.1]

theorem normalizeCode_dash : p.normalizeCode ['-'] = [] := by
  have hdash := p.ascii '-' (by decide)
  simp only [Platform.normalizeCode, List.flatMap_cons, List.flatMap_nil, hdash]
  decide

theorem Word.normalize (h : Word word) : p.normalizeCode word = word :=
  normalizeCode_codeChars fun c hc => (h.chars c hc).1

theorem Word.normalize_dashed (h : Word word) : p.normalizeCode (dashed word) = word := by
  have htake : p.normalizeCode (word.take 4) = word.take 4 :=
    normalizeCode_codeChars fun c hc => (h.chars c (List.mem_of_mem_take hc)).1
  have hdrop : p.normalizeCode (word.drop 4) = word.drop 4 :=
    normalizeCode_codeChars fun c hc => (h.chars c (List.mem_of_mem_drop hc)).1
  rw [dashed, ← List.singleton_append, normalizeCode_append, normalizeCode_append, htake, hdrop,
    normalizeCode_dash, List.nil_append, List.take_append_drop]

theorem Word.ne_nil (h : Word word) : word ≠ [] := by
  intro he
  have hlength := h.length
  rw [he] at hlength
  cases hlength

theorem Word.not_dash (h : Word word) : '-' ∉ word := by
  intro hmem
  have hdash := (h.chars '-' hmem).1
  revert hdash
  decide

theorem length_dashed (h : Word word) : (dashed word).length = 9 := by
  have hlength := h.length
  simp only [dashed, List.length_append, List.length_take, List.length_cons, List.length_drop]
  omega

theorem mem_dashed (h : c ∈ dashed word) : c ∈ word ∨ c = '-' := by
  rcases List.mem_append.1 h with htake | hrest
  · exact .inl (List.mem_of_mem_take htake)
  · rcases List.mem_cons.1 hrest with hdash | hdrop
    · exact .inr hdash
    · exact .inl (List.mem_of_mem_drop hdrop)

theorem produced_word {code : List Char} (h : p.Produced code) :
    ∃ word, Word word ∧ (code = word ∨ code = dashed word) := by
  cases h with
  | web draws =>
    refine ⟨createShareCode draws, ⟨by simp [createShareCode], ?_⟩, .inl rfl⟩
    intro c hc
    obtain ⟨i, -, rfl⟩ := List.mem_map.1 hc
    have hall : ∀ i : Fin 32, isCodeChar (CODE_CHARS.getD i.val 'A') = true ∧
        CODE_CHARS.getD i.val 'A' ≠ 'O' := by decide
    exact hall i
  | cli fileId =>
    set digits := (hex (p.sha256 (utf8Encode fileId)).toList).take 8 with hdigits
    have hlength : digits.length = 8 := by
      rw [hdigits, List.length_take, length_hex, Vector.length_toList]
      rfl
    have hhex : ∀ c ∈ digits, ∃ n : Fin 16, c = hexDigit n.val := by
      intro c hc
      obtain ⟨b, -, hb⟩ := List.mem_flatMap.1 (List.mem_of_mem_take hc)
      have hlt := b.toNat_lt
      simp only [List.mem_cons, List.not_mem_nil, or_false] at hb
      rcases hb with rfl | rfl
      · exact ⟨⟨b.toNat / 16, by omega⟩, rfl⟩
      · exact ⟨⟨b.toNat % 16, by omega⟩, rfl⟩
    have hupper : ∀ digits : List Char, (∀ c ∈ digits, ∃ n : Fin 16, c = hexDigit n.val) →
        digits.flatMap p.upper = digits.map Char.toUpper ∧
          ∀ c ∈ digits.map Char.toUpper, isCodeChar c = true ∧ c ≠ 'O' := by
      intro digits hdigits
      induction digits with
      | nil => simp
      | cons d rest ih =>
        simp only [List.forall_mem_cons] at hdigits
        obtain ⟨n, rfl⟩ := hdigits.1
        have hall : ∀ n : Fin 16, (hexDigit n.val).toNat < 128 ∧
            isCodeChar (hexDigit n.val).toUpper = true ∧ (hexDigit n.val).toUpper ≠ 'O' := by decide
        obtain ⟨hrest, hchars⟩ := ih hdigits.2
        refine ⟨by simp [p.ascii _ (hall n).1, hrest], ?_⟩
        simp only [List.map_cons, List.forall_mem_cons]
        exact ⟨(hall n).2, hchars⟩
    obtain ⟨hmap, hchars⟩ := hupper digits hhex
    refine ⟨digits.map Char.toUpper, ⟨by simp [hlength], hchars⟩, .inr ?_⟩
    rw [Platform.dryRunShareCode, ← hdigits, hmap]

/-! What is cut off at the ends. -/

theorem dropWhile_append_of_head {before text : List Char} (hne : text ≠ [])
    (hhead : ∀ c ∈ text.head?, isSpace c = false) :
    (before ++ text).dropWhile isSpace = before.dropWhile isSpace ++ text := by
  obtain ⟨first, rest, rfl⟩ := List.exists_cons_of_ne_nil hne
  have hfirst : isSpace first = false := hhead first rfl
  induction before with
  | nil => simp [hfirst]
  | cons b before ih =>
    by_cases hb : isSpace b = true
    · simpa [hb] using ih
    · simp [hb]

theorem trim_append (before : List Char) {text : List Char} (hne : text ≠ [])
    (hhead : ∀ c ∈ text.head?, isSpace c = false) (hlast : ∀ c ∈ text.getLast?, isSpace c = false) :
    trim (before ++ text) = before.dropWhile isSpace ++ text := by
  unfold trim
  rw [dropWhile_append_of_head hne hhead]
  obtain ⟨front, last, rfl⟩ := (List.eq_nil_or_concat text).resolve_left hne
  rw [List.concat_eq_append] at hlast ⊢
  have hend : isSpace last = false := hlast last (by simp)
  rw [← List.append_assoc, List.reverse_append]
  simp [hend]

theorem trim_eq {text : List Char} (hne : text ≠ [])
    (hchars : ∀ c ∈ text, isSpace c = false) : trim text = text := by
  have htrim : trim ([] ++ text) = [] ++ text :=
    trim_append [] hne (fun c hc => hchars c (List.mem_of_head? hc))
      fun c hc => hchars c (List.mem_of_getLast? hc)
  exact htrim

theorem not_space_of_alphanum (h : c.isAlphanum = true) : isSpace c = false :=
  ascii_forall (P := fun c => c.isAlphanum = true → isSpace c = false) (by decide)
    (ascii_of_alphanum h) h

/-! The first match of the pattern for links. -/

theorem eq_of_toLower {d : Char} (hd : d.isAlphanum = false) (h : d = c.toLower) : c = d := by
  by_cases hupper : c.isUpper = true
  · have hascii : c.toNat < 128 :=
      ascii_of_alphanum (by simp [Char.isAlphanum, isAlpha_eq, hupper])
    have hletter : c.isUpper = true → c.toLower.isAlphanum = true :=
      ascii_forall (P := fun c => c.isUpper = true → c.toLower.isAlphanum = true) (by decide) hascii
    rw [h, hletter hupper] at hd
    cases hd
  · rw [h, toLower_of_not_upper hupper]

theorem ne_slash_of_groupChar (h : isGroupChar c = true) : c ≠ '/' := by
  rintro rfl
  revert h
  decide

/-- A group does not reach over a slash. -/
theorem group_append (text more : List Char) : group (text ++ '/' :: more) = group text := by
  have htake : (text ++ '/' :: more).takeWhile isGroupChar = text.takeWhile isGroupChar := by
    induction text with
    | nil => exact List.takeWhile_cons_of_neg (by decide)
    | cons c rest ih =>
      by_cases hc : isGroupChar c = true
      · simp [hc, ih]
      · simp [hc]
  simp only [group, htake]

theorem group_slash (more : List Char) : group ('/' :: more) = none := group_append [] more

theorem group_hash (more : List Char) : group ('#' :: more) = none := by
  simp [group, show isGroupChar '#' = false by decide]

theorem afterLiteral_eq {literal text rest : List Char}
    (h : afterLiteral literal text = some rest) :
    ∃ taken, text = taken ++ rest ∧ taken.map Char.toLower = literal.map Char.toLower := by
  induction literal generalizing text with
  | nil =>
    cases h
    exact ⟨[], rfl, rfl⟩
  | cons x literal ih =>
    cases text with
    | nil => cases h
    | cons c text =>
      simp only [afterLiteral] at h
      split at h
      · rename_i hx
        obtain ⟨taken, rfl, htaken⟩ := ih h
        exact ⟨c :: taken, rfl, by simp [hx, htaken]⟩
      · cases h

/-- Each literal ends with a part of three characters between slashes. -/
theorem afterLiteral_path {literal text rest : List Char} (hliteral : literal ∈ PATH_LITERALS)
    (h : afterLiteral literal text = some rest) :
    ∃ before x, text = before ++ '/' :: (x ++ '/' :: rest) ∧ x.length = 3 ∧ '/' ∉ x := by
  have hend : ∃ front, literal.map Char.toLower = front ++ ['/', 'g', 'e', 't', '/'] := by
    simp only [PATH_LITERALS, List.mem_cons, List.not_mem_nil, or_false] at hliteral
    rcases hliteral with rfl | rfl | rfl
    · exact ⟨['#'], by decide⟩
    · exact ⟨[], by decide⟩
    · exact ⟨['p', 'o', 'n', 's', 'w', 'a', 'r', 'p', ':', '/'], by decide⟩
  obtain ⟨front, hfront⟩ := hend
  obtain ⟨taken, rfl, htaken⟩ := afterLiteral_eq h
  rw [hfront] at htaken
  obtain ⟨before, last, rfl, -, hlast⟩ := List.map_eq_append_iff.1 htaken
  obtain ⟨a, afterA, rfl, ha, hafterA⟩ := List.map_eq_cons_iff.1 hlast
  obtain ⟨x, afterX, rfl, hx, hafterX⟩ := List.map_eq_cons_iff.1 hafterA
  obtain ⟨y, afterY, rfl, hy, hafterY⟩ := List.map_eq_cons_iff.1 hafterX
  obtain ⟨z, afterZ, rfl, hz, hafterZ⟩ := List.map_eq_cons_iff.1 hafterY
  obtain ⟨b, none, rfl, hb, hnone⟩ := List.map_eq_cons_iff.1 hafterZ
  obtain rfl : none = [] := List.map_eq_nil_iff.1 hnone
  obtain rfl := eq_of_toLower (by decide) ha.symm
  obtain rfl := eq_of_toLower (by decide) hb.symm
  refine ⟨before, [x, y, z], by simp, rfl, ?_⟩
  have hslash : Char.toLower '/' = '/' := by decide
  simp only [List.mem_cons, List.not_mem_nil, or_false]
  rintro (rfl | rfl | rfl)
  · rw [hslash] at hx
    revert hx
    decide
  · rw [hslash] at hy
    revert hy
    decide
  · rw [hslash] at hz
    revert hz
    decide

theorem groupAt_eq {text captured : List Char} (h : groupAt text = some captured) :
    ∃ before x rest, text = before ++ '/' :: (x ++ '/' :: rest) ∧ x.length = 3 ∧ '/' ∉ x ∧
      group rest = some captured := by
  obtain ⟨literal, hliteral, hbind⟩ := List.exists_of_findSome?_eq_some h
  obtain ⟨rest, hrest, hgroup⟩ := Option.bind_eq_some_iff.1 hbind
  obtain ⟨before, x, htext, hlength, hslash⟩ := afterLiteral_path hliteral hrest
  exact ⟨before, x, rest, htext, hlength, hslash, hgroup⟩

theorem pathMatch_eq {text captured : List Char} (h : pathMatch text = some captured) :
    ∃ before x rest, text = before ++ '/' :: (x ++ '/' :: rest) ∧ x.length = 3 ∧ '/' ∉ x ∧
      group rest = some captured := by
  induction text with
  | nil => cases h
  | cons c text ih =>
    simp only [pathMatch, Option.or_eq_some_iff] at h
    rcases h with hhere | ⟨-, hlater⟩
    · exact groupAt_eq hhere
    · obtain ⟨before, x, rest, rfl, hx⟩ := ih hlater
      exact ⟨c :: before, x, rest, rfl, hx⟩

theorem pathMatch_of_no_slash {text : List Char} (h : '/' ∉ text) : pathMatch text = none := by
  cases hmatch : pathMatch text with
  | none => rfl
  | some captured =>
    obtain ⟨before, x, rest, rfl, -⟩ := pathMatch_eq hmatch
    simp at h

theorem pathMatch_found (before : List Char) {rest captured : List Char}
    (h : group rest = some captured) :
    pathMatch (before ++ '/' :: 'g' :: 'e' :: 't' :: '/' :: rest) ≠ none := by
  induction before with
  | nil =>
    have hhere : groupAt ('/' :: 'g' :: 'e' :: 't' :: '/' :: rest) = some captured := by
      simp [groupAt, PATH_LITERALS, afterLiteral, h]
    simp [pathMatch, hhere]
  | cons c before ih =>
    simp only [List.cons_append, pathMatch]
    intro hnone
    exact ih (Option.or_eq_none_iff.1 hnone).2

/-- The host of a link is no group, and its path is that of the code. -/
theorem pathMatch_shareLink (o : UrlOrigin) {code : List Char} (hslash : '/' ∉ code)
    (hgroup : group code = some code) :
    pathMatch (o.text ++ "/get/".toList ++ code) = some code := by
  have hget : "/get/".toList = '/' :: 'g' :: 'e' :: 't' :: ['/'] := rfl
  have htext : o.text ++ "/get/".toList ++ code =
      o.text ++ '/' :: 'g' :: 'e' :: 't' :: '/' :: code := by simp [hget]
  rw [htext]
  cases hmatch : pathMatch (o.text ++ '/' :: 'g' :: 'e' :: 't' :: '/' :: code) with
  | none => exact absurd hmatch (pathMatch_found o.text hgroup)
  | some captured =>
    obtain ⟨before, x, rest, hsplit, hlength, hx, hcaptured⟩ := pathMatch_eq hmatch
    have hleft := congrArg (List.splitOn '/') hsplit
    have hrest : rest = ['/'].intercalate (rest.splitOn '/') := (List.intercalate_splitOn '/').symm
    have hcolon : '/' ∉ o.scheme ++ [':'] := by simp [o.scheme_plain]
    have hpath : ('g' :: 'e' :: 't' :: '/' :: code).splitOn '/' = [['g', 'e', 't'], code] := by
      have hjoined : 'g' :: 'e' :: 't' :: '/' :: code = ['g', 'e', 't'] ++ '/' :: code := rfl
      rw [hjoined, List.splitOn_append_cons_self_of_not_mem (by decide),
        List.splitOn_eq_singleton hslash]
    rw [List.splitOn_append_cons_self before, List.splitOn_append_cons_self_of_not_mem hx,
      List.splitOn_append_cons_self, hpath] at hleft
    obtain ⟨first, others, hfirst⟩ := List.exists_cons_of_ne_nil (List.splitOn_ne_nil '/' before)
    obtain ⟨head, tail, hhead⟩ := List.exists_cons_of_ne_nil (List.splitOn_ne_nil '/' rest)
    rw [hfirst, hhead] at hleft
    rw [hhead] at hrest
    -- The part that follows `x` is the code, unless the host is taken for `get`.
    have hhost : ∀ more, rest ≠ 'g' :: 'e' :: 't' :: '/' :: more := by
      rintro more rfl
      have hshort : group ('g' :: 'e' :: 't' :: '/' :: more) = none := by
        rw [show 'g' :: 'e' :: 't' :: '/' :: more = ['g', 'e', 't'] ++ '/' :: more from rfl,
          group_append]
        decide
      rw [hshort] at hcaptured
      cases hcaptured
    have hcode : rest = code := by
      unfold UrlOrigin.text at hleft
      cases hauthority : o.authority with
      | none =>
        have horigin : (o.scheme ++ [':']).splitOn '/' = [o.scheme ++ [':']] :=
          List.splitOn_eq_singleton hcolon
        rw [hauthority] at hleft
        simp only [horigin, List.cons_append, List.nil_append, List.cons.injEq] at hleft
        rcases others with _ | ⟨second, others⟩
        · simp only [List.nil_append, List.cons.injEq] at hleft
          rw [hrest, ← hleft.2.2.1, ← hleft.2.2.2]
          simp
        · have hlong := congrArg List.length hleft.2
          simp at hlong
          omega
      | some a =>
        have ha := o.authority_plain a hauthority
        have horigin : (o.scheme ++ ':' :: '/' :: '/' :: a).splitOn '/' =
            [o.scheme ++ [':'], [], a] := by
          have hsplitHost : o.scheme ++ ':' :: '/' :: '/' :: a =
              (o.scheme ++ [':']) ++ '/' :: ([] ++ '/' :: a) := by simp
          rw [hsplitHost, List.splitOn_append_cons_self_of_not_mem hcolon,
            List.splitOn_append_cons_self_of_not_mem (by simp), List.splitOn_eq_singleton ha]
        rw [hauthority] at hleft
        simp only [horigin, List.cons_append, List.nil_append, List.cons.injEq] at hleft
        rcases others with _ | ⟨second, _ | ⟨third, others⟩⟩
        · simp only [List.nil_append, List.cons.injEq] at hleft
          rw [← hleft.2.1] at hlength
          cases hlength
        · simp only [List.cons_append, List.nil_append, List.cons.injEq] at hleft
          refine absurd ?_ (hhost code)
          rw [hrest, ← hleft.2.2.2.1, ← hleft.2.2.2.2]
          simp
        · rcases others with _ | ⟨fourth, others⟩
          · simp only [List.cons_append, List.nil_append, List.cons.injEq] at hleft
            rw [hrest, ← hleft.2.2.2.2.1, ← hleft.2.2.2.2.2]
            simp
          · have hlong := congrArg List.length hleft.2
            simp at hlong
            omega
    rw [hcode, hgroup] at hcaptured
    exact hcaptured.symm

theorem afterLiteral_append {literal : List Char} (hliteral : '#' ∉ literal)
    (text more : List Char) :
    (afterLiteral literal (text ++ '/' :: '#' :: more)).bind group =
      (afterLiteral literal text).bind group := by
  induction text generalizing literal with
  | nil =>
    rcases literal with _ | ⟨x, _ | ⟨y, literal⟩⟩
    · exact (group_slash ('#' :: more)).trans (by decide)
    · simp only [List.nil_append, afterLiteral]
      split
      · exact group_hash more
      · rfl
    · have hy : ¬ y.toLower = Char.toLower '#' := by
        intro he
        have hhash : '#' = y.toLower := by rw [he]; decide
        exact hliteral (by simp [eq_of_toLower (by decide) hhash])
      by_cases hx : x.toLower = Char.toLower '/'
      · simp only [List.nil_append, afterLiteral, if_pos hx, if_neg hy]
      · simp only [List.nil_append, afterLiteral, if_neg hx]
  | cons c text ih =>
    cases literal with
    | nil => exact group_append _ _
    | cons x literal =>
      simp only [List.cons_append, afterLiteral]
      split
      · exact ih fun hmem => hliteral (List.mem_cons_of_mem _ hmem)
      · rfl

/-- What comes after the base of a link is no part of a match that begins in the base. -/
theorem groupAt_append (c : Char) (text more : List Char) :
    groupAt (c :: (text ++ '/' :: '#' :: more)) = groupAt (c :: text) := by
  have hsame : ∀ literal ∈ PATH_LITERALS,
      (afterLiteral literal (c :: (text ++ '/' :: '#' :: more))).bind group =
        (afterLiteral literal (c :: text)).bind group := by
    intro literal hliteral
    have htail : ∃ x rest, literal = x :: rest ∧ '#' ∉ rest := by
      simp only [PATH_LITERALS, List.mem_cons, List.not_mem_nil, or_false] at hliteral
      rcases hliteral with rfl | rfl | rfl
      · exact ⟨'#', "/get/".toList, rfl, by decide⟩
      · exact ⟨'/', "get/".toList, rfl, by decide⟩
      · exact ⟨'p', "onswarp://get/".toList, rfl, by decide⟩
    obtain ⟨x, rest, rfl, hrest⟩ := htail
    simp only [afterLiteral]
    split
    · exact afterLiteral_append hrest text more
    · rfl
  simp only [groupAt, PATH_LITERALS, List.mem_cons, List.not_mem_nil, or_false, forall_eq_or_imp,
    forall_eq, List.findSome?_cons, List.findSome?_nil] at hsame ⊢
  rw [hsame.1, hsame.2.1, hsame.2.2]

theorem pathMatch_append (base : List Char) {more captured : List Char}
    (h : group more = some captured) :
    pathMatch (base ++ '/' :: '#' :: '/' :: 'g' :: 'e' :: 't' :: '/' :: more) =
      (pathMatch base).or (some captured) := by
  induction base with
  | nil =>
    have hslash : groupAt ('/' :: '#' :: '/' :: 'g' :: 'e' :: 't' :: '/' :: more) = none := by
      simp [groupAt, PATH_LITERALS, afterLiteral]
    have hhash : groupAt ('#' :: '/' :: 'g' :: 'e' :: 't' :: '/' :: more) = some captured := by
      simp [groupAt, PATH_LITERALS, afterLiteral, h]
    simp [pathMatch, hslash, hhash]
  | cons c base ih =>
    simp only [List.cons_append, pathMatch, groupAt_append, ih, Option.or_assoc]

theorem toLower_ne_space {x : Char} (hx : isSpace x = false)
    (hkind : x.isLower = true ∨ x.isAlphanum = false) (h : isSpace c = true) :
    ¬ x.toLower = c.toLower := by
  have hc : c.toLower = c := by
    by_cases hupper : c.isUpper = true
    · have halphanum : c.isAlphanum = true := by simp [Char.isAlphanum, isAlpha_eq, hupper]
      rw [not_space_of_alphanum halphanum] at h
      cases h
    · exact toLower_of_not_upper hupper
  have hsame : x.toLower = x := by
    rcases hkind with hlower | hother
    · have hascii : x.toNat < 128 :=
        ascii_of_alphanum (by simp [Char.isAlphanum, isAlpha_eq, hlower])
      exact ascii_forall (P := fun x => x.isLower = true → x.toLower = x) (by decide) hascii hlower
    · by_cases hupper : x.isUpper = true
      · simp [Char.isAlphanum, isAlpha_eq, hupper] at hother
      · exact toLower_of_not_upper hupper
  intro he
  rw [hc, hsame] at he
  rw [he, h] at hx
  cases hx

/-- White space in front of a text is no part of a match. -/
theorem pathMatch_dropWhile (text : List Char) :
    pathMatch (text.dropWhile isSpace) = pathMatch text := by
  induction text with
  | nil => rfl
  | cons c text ih =>
    by_cases hc : isSpace c = true
    · have hhash := toLower_ne_space (x := '#') (by decide) (by decide) hc
      have hslash := toLower_ne_space (x := '/') (by decide) (by decide) hc
      have hletter := toLower_ne_space (x := 'p') (by decide) (by decide) hc
      have hliterals : PATH_LITERALS = ['#' :: "/get/".toList, '/' :: "get/".toList,
          'p' :: "onswarp://get/".toList] := by decide
      have hnone : groupAt (c :: text) = none := by
        simp only [groupAt, hliterals, afterLiteral, List.findSome?_cons, List.findSome?_nil,
          if_neg hhash, if_neg hslash, if_neg hletter, Option.bind_none]
      rw [List.dropWhile_cons_of_pos hc, ih, pathMatch, hnone, Option.none_or]
    · rw [List.dropWhile_cons_of_neg (by simpa using hc)]

/-! A code with its dash, and the command line, which looks at the last nine characters. -/

theorem dashed_append {a b : List Char} (ha : a.length = 4) : dashed (a ++ b) = a ++ '-' :: b := by
  rw [dashed, List.take_left' ha, List.drop_left' ha]

theorem isDashed_iff {text : List Char} :
    isDashed text = true ↔ ∃ a b, text = a ++ '-' :: b ∧ a.length = 4 ∧ b.length = 4 ∧
      (∀ c ∈ a, c.isAlphanum = true) ∧ ∀ c ∈ b, c.isAlphanum = true := by
  constructor
  · intro h
    simp only [isDashed, Bool.and_eq_true, decide_eq_true_eq, List.all_eq_true] at h
    obtain ⟨⟨⟨hlength, hfront⟩, hdash⟩, hback⟩ := h
    have hdrop : text.drop 4 = '-' :: text.drop 5 := by
      have hlt : 4 < text.length := by omega
      rw [List.drop_eq_getElem_cons hlt, (List.getElem?_eq_some_iff.1 hdash).2]
    refine ⟨text.take 4, text.drop 5, ?_, ?_, ?_, hfront, hback⟩
    · rw [← hdrop, List.take_append_drop]
    · rw [List.length_take]
      omega
    · rw [List.length_drop]
      omega
  · rintro ⟨a, b, rfl, ha, hb, hfront, hback⟩
    have hdrop : (a ++ '-' :: b).drop 5 = b := by
      rw [List.drop_append, ha]
      simp [ha]
    have hdash : (a ++ '-' :: b)[4]? = some '-' := by
      rw [List.getElem?_append_right (by omega), ha]
      rfl
    simp only [isDashed, hdrop, hdash, List.take_left' ha, List.length_append, List.length_cons, ha,
      hb, Bool.and_eq_true, decide_eq_true_eq, List.all_eq_true]
    exact ⟨⟨⟨trivial, hfront⟩, trivial⟩, hback⟩

theorem upper_alphanum {text : List Char} (h : ∀ c ∈ text, c.isAlphanum = true) :
    text.flatMap p.upper = text.map Char.toUpper ∧
      ∀ c ∈ text.map Char.toUpper, isCodeChar c = true := by
  induction text with
  | nil => simp
  | cons c rest ih =>
    simp only [List.forall_mem_cons] at h
    have hascii := ascii_of_alphanum h.1
    have hcode : c.isAlphanum = true → isCodeChar c.toUpper = true :=
      ascii_forall (P := fun c => c.isAlphanum = true → isCodeChar c.toUpper = true) (by decide)
        hascii
    obtain ⟨hrest, hchars⟩ := ih h.2
    refine ⟨by simp [p.ascii c hascii, hrest], ?_⟩
    simp only [List.map_cons, List.forall_mem_cons]
    exact ⟨hcode h.1, hchars⟩

theorem alphanum_of_toUpper (h : isCodeChar c.toUpper = true) : c.isAlphanum = true := by
  by_cases hlower : c.isLower = true
  · simp [Char.isAlphanum, isAlpha_eq, hlower]
  · rw [toUpper_of_not_lower hlower] at h
    exact alphanum_of_codeChar h

theorem toUpper_dashed (h : Word word) : (dashed word).map Char.toUpper = dashed word := by
  have hsame : ∀ c ∈ dashed word, c.toUpper = c := by
    intro c hc
    rcases mem_dashed hc with hmem | rfl
    · have hchar := (h.chars c hmem).1
      exact ascii_forall (P := fun c => isCodeChar c = true → c.toUpper = c) (by decide)
        (ascii_of_alphanum (alphanum_of_codeChar hchar)) hchar
    · decide
  rw [List.map_congr_left hsame, List.map_id']

theorem Word.isDashed_of_toUpper (h : Word word) {last : List Char}
    (hlast : last.map Char.toUpper = dashed word) : isDashed last = true := by
  obtain ⟨a, rest, rfl, ha, hrest⟩ := List.map_eq_append_iff.1 hlast
  obtain ⟨dash, b, rfl, hdash, hb⟩ := List.map_eq_cons_iff.1 hrest
  have hlength := h.length
  have hfront := congrArg List.length ha
  have hback := congrArg List.length hb
  simp only [List.length_map, List.length_take, List.length_drop] at hfront hback
  have hcode : ∀ text : List Char, (∀ c ∈ text.map Char.toUpper, c ∈ word) →
      ∀ c ∈ text, c.isAlphanum = true := by
    intro text hin c hc
    exact alphanum_of_toUpper (h.chars _ (hin _ (List.mem_map_of_mem hc))).1
  have hsame : dash = '-' := by
    by_cases hlower : dash.isLower = true
    · have hascii := ascii_of_alphanum (c := dash) (by simp [Char.isAlphanum, isAlpha_eq, hlower])
      have hletter : dash.isLower = true → dash.toUpper ≠ '-' :=
        ascii_forall (P := fun c => c.isLower = true → c.toUpper ≠ '-') (by decide) hascii
      exact absurd hdash (hletter hlower)
    · rwa [toUpper_of_not_lower hlower] at hdash
  subst hsame
  refine isDashed_iff.2 ⟨a, b, rfl, by omega, by omega, hcode a ?_, hcode b ?_⟩
  · rw [ha]
    exact fun c hc => List.mem_of_mem_take hc
  · rw [hb]
    exact fun c hc => List.mem_of_mem_drop hc

theorem upper_dashed {last : List Char} (h : isDashed last = true) :
    last.flatMap p.upper = last.map Char.toUpper ∧
      last.map Char.toUpper = dashed (p.normalizeCode (last.map Char.toUpper)) := by
  obtain ⟨a, b, rfl, ha, hb, hfront, hback⟩ := isDashed_iff.1 h
  obtain ⟨hupperA, hcodeA⟩ := upper_alphanum (p := p) hfront
  obtain ⟨hupperB, hcodeB⟩ := upper_alphanum (p := p) hback
  have hdash := p.ascii '-' (by decide)
  have hmap : (a ++ '-' :: b).map Char.toUpper =
      a.map Char.toUpper ++ '-' :: b.map Char.toUpper := by
    rw [List.map_append, List.map_cons]
    rfl
  have hnormal : p.normalizeCode (a.map Char.toUpper ++ '-' :: b.map Char.toUpper) =
      a.map Char.toUpper ++ b.map Char.toUpper := by
    rw [← List.singleton_append, normalizeCode_append, normalizeCode_append,
      normalizeCode_codeChars hcodeA, normalizeCode_codeChars hcodeB, normalizeCode_dash,
      List.nil_append]
  refine ⟨?_, ?_⟩
  · rw [List.flatMap_append, List.flatMap_cons, hupperA, hupperB, hdash, hmap]
    rfl
  · rw [hmap, hnormal, dashed_append (by rw [List.length_map, ha])]

/-- The command line takes a code out of a text when its last nine characters are this code. -/
theorem cliParse_iff (h : Word word) {value before last : List Char}
    (htrim : trim value = before ++ last) (hlength : last.length = 9) :
    (p.cliParseShareCode value ≠ [] ∧ p.normalizeCode (p.cliParseShareCode value) = word) ↔
      last.map Char.toUpper = dashed word := by
  have hdrop : (trim value).drop ((trim value).length - 9) = last := by
    rw [htrim, List.length_append, hlength, Nat.add_sub_cancel, List.drop_left]
  unfold Platform.cliParseShareCode
  simp only [hdrop]
  by_cases hdashed : isDashed last = true
  · obtain ⟨hupper, hform⟩ := upper_dashed (p := p) hdashed
    rw [if_pos hdashed, hupper]
    constructor
    · rintro ⟨-, hword⟩
      rw [hform, hword]
    · intro hsame
      rw [hsame]
      refine ⟨?_, h.normalize_dashed⟩
      intro hnil
      have hnine := length_dashed h
      rw [hnil] at hnine
      cases hnine
  · rw [if_neg hdashed]
    constructor
    · rintro ⟨hnil, -⟩
      exact absurd rfl hnil
    · intro hsame
      exact absurd (h.isDashed_of_toUpper hsame) hdashed

theorem cliParse_short {value : List Char} (h : (trim value).length < 9) :
    p.cliParseShareCode value = [] := by
  have hdashed : isDashed ((trim value).drop ((trim value).length - 9)) ≠ true := by
    intro hdashed
    obtain ⟨a, b, hsplit, ha, hb, -⟩ := isDashed_iff.1 hdashed
    have hlength := congrArg List.length hsplit
    rw [List.length_drop, List.length_append, List.length_cons, ha, hb] at hlength
    omega
  unfold Platform.cliParseShareCode
  simp only [if_neg hdashed]

/-! The forms of a code, in the web application. -/

/-- What a code is written as: a word, with its dash or without. -/
theorem Word.chars_of_code (h : Word word)
    {code : List Char} (hcode : code = word ∨ code = dashed word)
    (hc : c ∈ code) : isGroupChar c = true := by
  have hword : ∀ c ∈ word, isGroupChar c = true := by
    intro c hc
    simp [isGroupChar, alphanum_of_codeChar (h.chars c hc).1]
  rcases hcode with rfl | rfl
  · exact hword c hc
  · rcases mem_dashed hc with hmem | rfl
    · exact hword c hmem
    · decide

theorem not_space_of_groupChar (h : isGroupChar c = true) : isSpace c = false := by
  simp only [isGroupChar, Bool.or_eq_true, decide_eq_true_eq] at h
  rcases h with halphanum | rfl
  · exact not_space_of_alphanum halphanum
  · decide

theorem Word.length_of_code (h : Word word) {code : List Char}
    (hcode : code = word ∨ code = dashed word) : 8 ≤ code.length ∧ code.length ≤ 9 := by
  have hlength := h.length
  have hdashed := length_dashed h
  rcases hcode with rfl | rfl <;> omega

theorem Word.normalize_code (h : Word word) {code : List Char}
    (hcode : code = word ∨ code = dashed word) : p.normalizeCode code = word := by
  rcases hcode with rfl | rfl
  · exact h.normalize
  · exact h.normalize_dashed

theorem group_code (h : Word word) {code : List Char} (hcode : code = word ∨ code = dashed word)
    (more : List Char) (hmore : ∀ c ∈ more.head?, isGroupChar c = false) :
    group (code ++ more) = some code := by
  have htake : (code ++ more).takeWhile isGroupChar = code := by
    rw [List.takeWhile_append_of_pos fun c hc => h.chars_of_code hcode hc]
    cases more with
    | nil => simp
    | cons c rest => simp [hmore c rfl]
  have hlength := h.length_of_code hcode
  have hshort : code.take 16 = code := List.take_of_length_le (by omega)
  simp only [group, htake, hshort, if_neg (show ¬ code.length < 4 by omega)]

/-- A bare code is taken as it is. -/
theorem bareOrSegment_code (h : Word word) {code : List Char}
    (hcode : code = word ∨ code = dashed word) : p.bareOrSegment code = word := by
  have hbare : Platform.isBare code = true := by
    rcases hcode with rfl | rfl
    · have hall : code.all Char.isAlphanum = true :=
        List.all_eq_true.2 fun c hc => alphanum_of_codeChar (h.chars c hc).1
      simp [Platform.isBare, h.length, hall]
    · simp [Platform.isBare, h.isDashed_of_toUpper (toUpper_dashed h)]
  have hnormal : p.normalizeCode code = word := h.normalize_code hcode
  simp [Platform.bareOrSegment, hbare, hnormal, h.length]

/-- What a link captures first decides, when it is a code. -/
theorem webParse_of_match (h : Word word) {value captured : List Char}
    (hmatch : pathMatch (trim value) = some captured) (hnormal : p.normalizeCode captured = word) :
    p.webParseShareCode value = word := by
  have hne : trim value ≠ [] := by
    intro hnil
    rw [hnil] at hmatch
    cases hmatch
  simp [Platform.webParseShareCode, hne, hmatch, hnormal, h.length]

/-- The last segment of a link of the server is its query, which is no code. -/
theorem bareOrSegment_query (h : Word word) (front : List Char) {session : List Char}
    (hsession : ∀ c ∈ session, c ≠ '/' ∧ c ≠ '?' ∧ c ≠ '#') :
    p.bareOrSegment (front ++ '?' :: ("session=".toList ++ session)) ≠ word := by
  have hquery : ∀ c ∈ "session=".toList ++ session,
      (decide (c = '/') || decide (c = '?') || decide (c = '#')) = false := by
    intro c hc
    rcases List.mem_append.1 hc with hfixed | hmem
    · have hall : "session=".toList.all
          (fun c => !(decide (c = '/') || decide (c = '?') || decide (c = '#'))) = true := by decide
      simpa using List.all_eq_true.1 hall c hfixed
    · simp [hsession c hmem]
  have hlast : ((front ++ '?' :: ("session=".toList ++ session)).splitOnP
      fun c => c = '/' || c = '?' || c = '#').filter (· ≠ []) =
      ((front.splitOnP fun c => c = '/' || c = '?' || c = '#').filter (· ≠ [])) ++
        ["session=".toList ++ session] := by
    have hquerySegment := List.splitOnP_eq_singleton hquery
    rw [List.splitOnP_append_cons _ _ (by decide), List.filter_append, hquerySegment]
    simp
  have hbare : Platform.isBare (front ++ '?' :: ("session=".toList ++ session)) ≠ true := by
    intro hbare
    have hmem : '?' ∈ front ++ '?' :: ("session=".toList ++ session) := by simp
    simp only [Platform.isBare, Bool.or_eq_true, Bool.and_eq_true, List.all_eq_true] at hbare
    rcases hbare with hdashed | ⟨-, hall⟩
    · obtain ⟨a, b, hsplit, -, -, ha, hb⟩ := isDashed_iff.1 hdashed
      rw [hsplit] at hmem
      simp only [List.mem_append, List.mem_cons] at hmem
      rcases hmem with hin | hdash | hin
      · exact absurd (ha _ hin) (by decide)
      · exact absurd hdash (by decide)
      · exact absurd (hb _ hin) (by decide)
    · exact absurd (hall _ hmem) (by decide)
  have hletter : 'O' ∈ p.normalizeCode ("session=".toList ++ session) := by
    have hupper := p.ascii 'o' (by decide)
    simp only [Platform.normalizeCode, List.mem_filter, List.mem_flatMap]
    exact ⟨⟨'o', by simp, by rw [hupper]; decide⟩, by decide⟩
  intro hword
  simp only [Platform.bareOrSegment, if_neg hbare, hlast] at hword
  rw [List.getLastD_concat] at hword
  split at hword
  · rename_i height
    cases height
  · split at hword
    · rw [hword] at hletter
      exact (h.chars _ hletter).2 rfl
    · exact h.ne_nil hword.symm

theorem webParse_codeChars (value : List Char) :
    ∀ c ∈ p.webParseShareCode value, isCodeChar c = true := by
  have hnormal : ∀ text : List Char, ∀ c ∈ p.normalizeCode text, isCodeChar c = true :=
    fun text c hc => (List.mem_filter.1 hc).2
  have hsegment : ∀ text : List Char, ∀ c ∈ p.bareOrSegment text, isCodeChar c = true := by
    intro text c hc
    unfold Platform.bareOrSegment at hc
    extract_lets bare segments normalized at hc
    by_cases hbare : bare.length = 8
    · have hmem : c ∈ if Platform.isBare text then p.normalizeCode text else [] := by
        simpa only [if_pos hbare] using hc
      split at hmem
      · exact hnormal text c hmem
      · cases hmem
    · rw [if_neg hbare] at hc
      split at hc
      · exact hnormal _ c hc
      · cases hc
  intro c hc
  simp only [Platform.webParseShareCode] at hc
  split at hc
  · cases hc
  · split at hc
    · exact hsegment _ c hc
    · split at hc
      · exact hnormal _ c hc
      · exact hsegment _ c hc

theorem agrees_iff (h : Word word)
    {code text : List Char} (hcode : code = word ∨ code = dashed word) :
    Agrees p code text ↔
      (p.cliParseShareCode text ≠ [] ∧ p.normalizeCode (p.cliParseShareCode text) = word) ∧
        p.webParseShareCode text = word := by
  have hnormal : p.normalizeCode code = word := h.normalize_code hcode
  have hweb := normalizeCode_codeChars (p := p) (webParse_codeChars (p := p) text)
  constructor
  · rintro ⟨hcli, -, hsame⟩
    rw [hnormal] at hcli hsame
    exact ⟨hcli, hweb.symm.trans hsame⟩
  · rintro ⟨hcli, hsame⟩
    refine ⟨by rwa [hnormal], ?_, by rw [hweb, hsame, hnormal]⟩
    rw [hsame]
    exact h.ne_nil

theorem dash_mem_dashed : '-' ∈ dashed word := by simp [dashed]

theorem agrees_plain (h : Word word)
    {code : List Char} (hcode : code = word ∨ code = dashed word) :
    Agrees p code code ↔ '-' ∈ code := by
  have htrim : trim code = code := by
    refine trim_eq ?_ fun c hc => not_space_of_groupChar (h.chars_of_code hcode hc)
    intro hnil
    have hlength := h.length_of_code hcode
    rw [hnil] at hlength
    simp at hlength
  have hslash : '/' ∉ code := fun hmem => ne_slash_of_groupChar (h.chars_of_code hcode hmem) rfl
  have hne : code ≠ [] := by
    intro hnil
    have hlength := h.length_of_code hcode
    rw [hnil] at hlength
    simp at hlength
  have hweb : p.webParseShareCode code = word := by
    simp [Platform.webParseShareCode, htrim, hne, pathMatch_of_no_slash hslash,
      bareOrSegment_code h hcode]
  rw [agrees_iff h hcode, and_iff_left hweb]
  rcases hcode with rfl | rfl
  · have hshort : p.cliParseShareCode code = [] := by
      refine cliParse_short ?_
      rw [htrim, h.length]
      decide
    simp [hshort, h.not_dash]
  · have hsplit : trim (dashed word) = [] ++ dashed word := htrim
    rw [cliParse_iff h hsplit (length_dashed h)]
    exact iff_of_true (toUpper_dashed h) dash_mem_dashed

theorem pathMatch_trim {before text : List Char} (hne : text ≠ [])
    (hhead : ∀ c ∈ text.head?, isSpace c = false) (hlast : ∀ c ∈ text.getLast?, isSpace c = false) :
    pathMatch (trim (before ++ text)) = pathMatch (before ++ text) := by
  rw [trim_append before hne hhead hlast, ← dropWhile_append_of_head hne hhead, pathMatch_dropWhile]

theorem agrees_shareLink (h : Word word)
    {code : List Char} (hcode : code = word ∨ code = dashed word)
    (o : UrlOrigin) : Agrees p code (o.text ++ "/get/".toList ++ code) ↔ '-' ∈ code := by
  have hchars : ∀ c ∈ code, isGroupChar c = true := fun c hc => h.chars_of_code hcode hc
  have hslash : '/' ∉ code := fun hmem => ne_slash_of_groupChar (hchars _ hmem) rfl
  have hgroup : group code = some code := by
    have hend := group_code h hcode [] (by simp)
    rwa [List.append_nil] at hend
  have hlength := h.length_of_code hcode
  have hne : "/get/".toList ++ code ≠ [] := by simp
  have hhead : ∀ c ∈ ("/get/".toList ++ code).head?, isSpace c = false := by
    intro c hc
    obtain rfl : '/' = c := by simpa using hc
    decide
  have hlast : ∀ c ∈ ("/get/".toList ++ code).getLast?, isSpace c = false := by
    have hcodeNe : code ≠ [] := by
      rintro rfl
      simp at hlength
    rw [List.getLast?_append_of_ne_nil _ hcodeNe]
    exact fun c hc => not_space_of_groupChar (hchars c (List.mem_of_getLast? hc))
  have hmatch := pathMatch_shareLink o hslash hgroup
  rw [List.append_assoc] at hmatch ⊢
  have hweb : p.webParseShareCode (o.text ++ ("/get/".toList ++ code)) = word :=
    webParse_of_match h (by rw [pathMatch_trim hne hhead hlast, hmatch]) (h.normalize_code hcode)
  have htrim := trim_append o.text hne hhead hlast
  rw [agrees_iff h hcode, and_iff_left hweb]
  rcases hcode with rfl | rfl
  · have hsplit : o.text.dropWhile isSpace ++ ("/get/".toList ++ code) =
        (o.text.dropWhile isSpace ++ "/get".toList) ++ '/' :: code := by simp
    rw [cliParse_iff h (htrim.trans hsplit) (by simp [h.length])]
    refine iff_of_false ?_ h.not_dash
    intro hsame
    have hmem : '/' ∈ dashed code := by
      rw [← hsame]
      exact List.mem_cons_self
    rcases mem_dashed hmem with hin | hdash
    · exact hslash hin
    · exact absurd hdash (by decide)
  · have hsplit : o.text.dropWhile isSpace ++ ("/get/".toList ++ dashed word) =
        (o.text.dropWhile isSpace ++ "/get/".toList) ++ dashed word := by simp
    rw [cliParse_iff h (htrim.trans hsplit) (length_dashed h)]
    exact iff_of_true (toUpper_dashed h) dash_mem_dashed

theorem mem_session {session : List Char} (h : c ∈ encodeURIComponent session) :
    isSpace c = false ∧ c ≠ '/' ∧ c ≠ '?' ∧ c ≠ '#' ∧ c ≠ '=' := by
  have hplain : ∀ c : Char, isUnreserved c = true →
      isSpace c = false ∧ c ≠ '/' ∧ c ≠ '?' ∧ c ≠ '#' ∧ c ≠ '=' := by
    intro c hc
    have hascii : c.toNat < 128 := by
      simp only [isUnreserved, Bool.or_eq_true, decide_eq_true_eq] at hc
      rcases hc with (halphanum | hsign) | hquote
      · exact ascii_of_alphanum halphanum
      · have hall : ['-', '_', '.', '!', '~', '*', '(', ')'].all (·.toNat < 128) = true := by decide
        simpa using List.all_eq_true.1 hall c hsign
      · omega
    exact ascii_forall (P := fun c => isUnreserved c = true →
      isSpace c = false ∧ c ≠ '/' ∧ c ≠ '?' ∧ c ≠ '#' ∧ c ≠ '=') (by decide) hascii hc
  rcases mem_encodeURIComponent h with rfl | hunreserved
  · decide
  · exact hplain c hunreserved

theorem encodeURIComponent_word (h : Word word) : encodeURIComponent word = word := by
  refine encodeURIComponent_of_unreserved fun c hc => ?_
  simp [isUnreserved, alphanum_of_codeChar (h.chars c hc).1]

/-- The last nine characters of a link of the server: they are of the session when it is long
enough. -/
theorem last_nine (h : Word word) (front session : List Char) (hsign : '=' ∉ session) :
    ∃ before last, front ++ ("?session=".toList ++ session) = before ++ last ∧ last.length = 9 ∧
      (last.map Char.toUpper = dashed word ↔
        ∃ before last, session = before ++ last ∧ last.map Char.toUpper = dashed word) := by
  have hnine : ∀ last : List Char, last.map Char.toUpper = dashed word → last.length = 9 := by
    intro last hsame
    rw [← length_dashed h, ← hsame, List.length_map]
  by_cases hlong : 9 ≤ session.length
  · refine ⟨front ++ ("?session=".toList ++ session.take (session.length - 9)),
      session.drop (session.length - 9), ?_, by rw [List.length_drop]; omega, ?_⟩
    · rw [List.append_assoc, List.append_assoc, List.take_append_drop]
    · constructor
      · intro hsame
        exact ⟨_, _, (List.take_append_drop _ session).symm, hsame⟩
      · rintro ⟨before, last, rfl, hsame⟩
        have hlast := hnine last hsame
        rwa [List.length_append, hlast, Nat.add_sub_cancel, List.drop_left]
  · have hquery : "?session=".toList = "?session".toList.take session.length ++
        ("?session".toList.drop session.length ++ ['=']) := by
      rw [← List.append_assoc, List.take_append_drop]
      rfl
    refine ⟨front ++ "?session".toList.take session.length,
      "?session".toList.drop session.length ++ ['='] ++ session, ?_, ?_, ?_⟩
    · rw [hquery]
      simp only [List.append_assoc]
    · have hfixed : "?session".toList.length = 8 := rfl
      simp only [List.length_append, List.length_drop, hfixed, List.length_singleton]
      omega
    · refine iff_of_false ?_ ?_
      · intro hsame
        have hmem : '=' ∈ dashed word := by
          rw [← hsame]
          exact List.mem_map.2 ⟨'=', by simp, rfl⟩
        rcases mem_dashed hmem with hin | hdash
        · exact absurd (h.chars _ hin).1 (by decide)
        · exact absurd hdash (by decide)
      · rintro ⟨before, last, rfl, hsame⟩
        have hlast := hnine last hsame
        rw [List.length_append] at hlong
        omega

theorem agrees_serverLink (h : Word word) {code : List Char}
    (hcode : code = word ∨ code = dashed word) (base session : List Char) :
    Agrees p code (p.serverLink base code session) ↔
      (∀ captured, pathMatch (stripSlash base) = some captured →
        p.normalizeCode captured = word) ∧
      ∃ front last, encodeURIComponent session = front ++ last ∧
        last.map Char.toUpper = dashed word := by
  have hsession : ∀ c ∈ encodeURIComponent session, isSpace c = false ∧ c ≠ '/' ∧ c ≠ '?' ∧
      c ≠ '#' ∧ c ≠ '=' := fun c hc => mem_session hc
  set enc := encodeURIComponent session with henc
  have hnormal : p.normalizeCode code = word := h.normalize_code hcode
  have hlink : p.serverLink base code session = stripSlash base ++
      ("/#/get/".toList ++ (word ++ ("?session=".toList ++ enc))) := by
    rw [Platform.serverLink, hnormal, encodeURIComponent_word h, ← henc]
    simp only [List.append_assoc]
  rw [agrees_iff h hcode, hlink]
  set path := "/#/get/".toList ++ (word ++ ("?session=".toList ++ enc)) with hpath
  have hne : path ≠ [] := by simp [hpath]
  have hhead : ∀ c ∈ path.head?, isSpace c = false := by
    intro c hc
    obtain rfl : '/' = c := by simpa [hpath] using hc
    decide
  have hlast : ∀ c ∈ path.getLast?, isSpace c = false := by
    intro c hc
    have hend : path.getLast? = ("=".toList ++ enc).getLast? := by
      have hsplit : path =
          ("/#/get/".toList ++ word ++ "?session".toList) ++ ("=".toList ++ enc) := by
        simp [hpath]
      rw [hsplit, List.getLast?_append_of_ne_nil _ (by simp)]
    rw [hend] at hc
    rcases List.mem_append.1 (List.mem_of_getLast? hc) with hsign | hmem
    · obtain rfl : c = '=' := by simpa using hsign
      decide
    · exact (hsession c hmem).1
  have hgroup : group (word ++ ("?session=".toList ++ enc)) = some word := by
    refine group_code h (.inl rfl) _ ?_
    intro c hc
    obtain rfl : '?' = c := by simpa using hc
    decide
  have hmatch : pathMatch (trim (stripSlash base ++ path)) =
      (pathMatch (stripSlash base)).or (some word) := by
    rw [pathMatch_trim hne hhead hlast, hpath]
    exact pathMatch_append (stripSlash base) hgroup
  have htrim := trim_append (stripSlash base) hne hhead hlast
  -- The command line sees the end of the session.
  have hcli : (p.cliParseShareCode (stripSlash base ++ path) ≠ [] ∧
      p.normalizeCode (p.cliParseShareCode (stripSlash base ++ path)) = word) ↔
        ∃ front last, enc = front ++ last ∧ last.map Char.toUpper = dashed word := by
    obtain ⟨before, last, hsplit, hlength, hiff⟩ :=
      last_nine h ((stripSlash base).dropWhile isSpace ++ ("/#/get/".toList ++ word)) enc
        fun hmem => (hsession _ hmem).2.2.2.2 rfl
    have hwhole : (stripSlash base).dropWhile isSpace ++ path = before ++ last := by
      rw [← hsplit, hpath]
      simp only [List.append_assoc]
    rw [cliParse_iff h (htrim.trans hwhole) hlength, hiff]
  -- The web application sees what the base captures first.
  have hweb : p.webParseShareCode (stripSlash base ++ path) = word ↔
      ∀ captured, pathMatch (stripSlash base) = some captured →
        p.normalizeCode captured = word := by
    cases hbase : pathMatch (stripSlash base) with
    | none =>
      rw [hbase] at hmatch
      exact iff_of_true (webParse_of_match h hmatch h.normalize) (by simp)
    | some captured =>
      rw [hbase, Option.some_or] at hmatch
      constructor
      · intro hword later hlater
        cases hlater
        have hfallback : p.bareOrSegment (trim (stripSlash base ++ path)) ≠ word := by
          have hwhole : trim (stripSlash base ++ path) =
              ((stripSlash base).dropWhile isSpace ++ ("/#/get/".toList ++ word)) ++
                '?' :: ("session=".toList ++ enc) := by
            rw [htrim, hpath]
            simp
          rw [hwhole]
          refine bareOrSegment_query h _ fun c hc => ?_
          obtain ⟨-, hslash, hquery, hhash, -⟩ := hsession c hc
          exact ⟨hslash, hquery, hhash⟩
        have htrimNe : trim (stripSlash base ++ path) ≠ [] := by simp [htrim, hne]
        simp only [Platform.webParseShareCode, if_neg htrimNe, hmatch] at hword
        split at hword
        · exact hword
        · exact absurd hword hfallback
      · intro hcaptured
        exact webParse_of_match h hmatch (hcaptured captured rfl)
  rw [hcli, hweb, and_comm]

variable (p)

/-- A form of a code is read the same way everywhere exactly when it is `Understood`. -/
theorem share_codes_agree {code : List Char} (h : p.Produced code) (form : Form) :
    (∀ text, form.emit p code = some text → Agrees p code text) ↔ Understood p code form := by
  obtain ⟨word, hword, hcode⟩ := produced_word h
  have hnormal : p.normalizeCode code = word := hword.normalize_code hcode
  cases form with
  | plain =>
    simp only [Form.emit, Option.some.injEq, forall_eq', Understood]
    exact agrees_plain hword hcode
  | shareLink coordinator =>
    simp only [Form.emit, Platform.shareLink, Understood]
    cases horigin : p.newUrl (normalizeCoordinator coordinator) with
    | none => simp
    | some o =>
      simp only [Option.map_some, Option.some.injEq, forall_eq', reduceCtorEq, or_false]
      exact agrees_shareLink hword hcode o
  | serverLink base session =>
    simp only [Form.emit, Option.some.injEq, forall_eq', Understood, hnormal]
    exact agrees_serverLink hword hcode base session

/-- A platform that knows one URL and the upper case of ASCII. -/
def asciiPlatform : Platform where
  upper := fun c => [c.toUpper]
  newUrl := fun text =>
    if text = "https://grid.test/".toList then
      some ⟨"https".toList, some "grid.test".toList, by decide, by rintro a ⟨⟩; decide⟩
    else none
  sha256 := fun _ => Vector.replicate 32 0
  ascii := fun _ _ => rfl

def firstDraws : Vector (Fin 32) 8 := ⟨#[0, 1, 2, 3, 4, 5, 6, 7], rfl⟩

theorem share_codes_agree_sample :
    Agrees asciiPlatform (createShareCode firstDraws)
      (asciiPlatform.serverLink "https://grid.test/".toList (createShareCode firstDraws)
        "room-ABCD-EFGH".toList) := by
  have hiff := share_codes_agree asciiPlatform (.web firstDraws)
    (.serverLink "https://grid.test/".toList "room-ABCD-EFGH".toList)
  refine hiff.2 ⟨?_, ?_⟩ _ rfl
  · have hbase : pathMatch (stripSlash "https://grid.test/".toList) = none := by decide
    intro captured hcaptured
    rw [hbase] at hcaptured
    cases hcaptured
  · exact ⟨"room-".toList, "ABCD-EFGH".toList, by decide, by decide⟩

/-- The command line does not take the code that the web application shows. -/
theorem web_code_is_refused :
    ¬ ∀ (p : Platform) (code : List Char), p.Produced code → ∀ (form : Form) (text : List Char),
      form.emit p code = some text → Agrees p code text := by
  intro h
  have hagrees := h asciiPlatform _ (.web firstDraws) .plain (createShareCode firstDraws) rfl
  have hrefused : asciiPlatform.cliParseShareCode (createShareCode firstDraws) = [] := by decide
  exact hagrees.cli.1 hrefused

end PonsWarp.ShareCodes
