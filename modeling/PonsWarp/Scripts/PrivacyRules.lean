import Mathlib.Data.List.Perm.Subperm
import PonsWarp.Cli.ShareCodeRoundTrip
import PonsWarp.Scripts.ValidateDirectTransferRuns

set_option autoImplicit false

/-!
What the rules of the script about fields and private values say about an object whose keys
are known.
-/

namespace PonsWarp.Scripts

open PonsWarp.Core PonsWarp.Demo PonsWarp.ShareCodes

variable {path : String} {fields : Fields} {keys : List String}

theorem report_eq_nil {failed : Bool} {error : String} :
    report failed error = [] ↔ failed = false := by
  cases failed <;> simp [report]

/-! Objects with exactly these keys. -/

theorem keys_perm (h : exactKeys (some (.object fields)) keys = true) (hkeys : keys.Nodup) :
    (fields.map Prod.fst).Perm keys := by
  simp only [exactKeys, Bool.and_eq_true, decide_eq_true_eq, List.all_eq_true,
    List.contains_iff_mem] at h
  obtain ⟨hlength, hall⟩ := h
  have hsub : keys.Subperm (fields.map Prod.fst) := hkeys.subperm hall
  exact (hsub.perm_of_length_le (by rw [List.length_map, hlength])).symm

theorem exact_eq_nil {value : Option JsValue} (h : exactKeys value keys = true)
    (hkeys : keys.Nodup) : exact value keys path = [] := by
  cases value with
  | none => rfl
  | some value =>
    cases value with
    | object fields =>
      have hperm := keys_perm h hkeys
      simp only [exact, List.append_eq_nil_iff, List.map_eq_nil_iff, List.filter_eq_nil_iff,
        Bool.not_eq_true', Bool.not_eq_false, List.contains_iff_mem]
      exact ⟨fun key hkey => hperm.mem_iff.1 hkey, fun key hkey => hperm.mem_iff.2 hkey⟩
    | _ => cases h

theorem field?_of_mem (h : (fields.map Prod.fst).Nodup) {key : String} {value : JsValue}
    (hmem : (key, value) ∈ fields) : Fields.field? fields key = some value := by
  induction fields with
  | nil => cases hmem
  | cons entry rest ih =>
    obtain ⟨k, v⟩ := entry
    simp only [List.map_cons, List.nodup_cons] at h
    unfold Fields.field?
    rcases List.mem_cons.1 hmem with hhead | htail
    · cases hhead
      simp
    · have hne : (key == k) = false := by
        rw [beq_eq_false_iff_ne]
        rintro rfl
        exact h.1 (List.mem_map.2 ⟨_, htail, rfl⟩)
      rw [List.lookup_cons, hne]
      exact ih h.2 htail

/-- Every entry of such an object has one of the keys, and is found under it. -/
theorem entry_of_exactKeys (h : exactKeys (some (.object fields)) keys = true) (hkeys : keys.Nodup)
    {entry : String × JsValue} (hentry : entry ∈ fields) :
    entry.1 ∈ keys ∧ Fields.field? fields entry.1 = some entry.2 := by
  have hperm := keys_perm h hkeys
  refine ⟨hperm.mem_iff.1 (List.mem_map_of_mem hentry), ?_⟩
  exact field?_of_mem (hperm.nodup_iff.2 hkeys) hentry

theorem field?_isSome (h : exactKeys (some (.object fields)) keys = true) {key : String}
    (hkey : key ∈ keys) : ∃ value, (key, value) ∈ fields := by
  simp only [exactKeys, Bool.and_eq_true, List.all_eq_true, List.contains_iff_mem] at h
  obtain ⟨⟨k, value⟩, hmem, rfl⟩ := List.mem_map.1 (h.2 key hkey)
  exact ⟨value, hmem⟩

/-! Values without anything private. -/

/-- Nothing in the value, if there is one, looks private. -/
def Discreet (value : Option JsValue) : Prop :=
  ∀ v, value = some v → ∀ path, privacy path v = []

theorem discreet_of_integer {value : Option JsValue} (h : integer value = true) :
    Discreet value := by
  rintro v rfl path
  cases v with
  | number x => rfl
  | _ => cases h

theorem discreet_of_boolean {value : Option JsValue} (h : isBoolean value = true) :
    Discreet value := by
  rintro v rfl path
  cases v with
  | bool b => rfl
  | _ => cases h

theorem discreet_of_number {value : Option JsValue} {n : Nat} (h : isNumber value n = true) :
    Discreet value := by
  rintro v rfl path
  cases v with
  | number x => rfl
  | _ => cases h

theorem discreet_of_oneOf {value : Option JsValue} {names : List String}
    (h : isOneOf value names = true)
    (hnames : ∀ name ∈ names, isPrivateText name.toList = false) : Discreet value := by
  rintro v rfl path
  cases v with
  | string s =>
    simp only [isOneOf, List.contains_iff_mem] at h
    simp [privacy, report, hnames s h]
  | _ => cases h

theorem privacyFields_eq_nil :
    privacyFields path fields = [] ↔ ∀ entry ∈ fields, isPrivateField entry.1 = false ∧
      privacy (path ++ "." ++ entry.1) entry.2 = [] := by
  induction fields with
  | nil => simp [privacyFields]
  | cons entry rest ih =>
    obtain ⟨key, value⟩ := entry
    simp only [privacyFields, privacyEntry, privacyField, List.append_eq_nil_iff, report_eq_nil, ih,
      List.forall_mem_cons]

/-- An object with these keys is discreet when they are and their values are. -/
theorem discreet_object (h : exactKeys (some (.object fields)) keys = true) (hkeys : keys.Nodup)
    (hnames : ∀ key ∈ keys, isPrivateField key = false)
    (hvalues : ∀ key ∈ keys, Discreet (Fields.field? fields key)) :
    Discreet (some (.object fields)) := by
  rintro v hv path
  cases hv
  rw [privacy, privacyFields_eq_nil]
  intro entry hentry
  obtain ⟨hkey, hfield⟩ := entry_of_exactKeys h hkeys hentry
  exact ⟨hnames _ hkey, hvalues _ hkey _ hfield _⟩

theorem afterLiteral_none {P : Char → Prop} {literal text : List Char}
    (htext : ∀ c ∈ text, P c.toLower) {x : Char} (hx : x ∈ literal) (hne : ¬ P x.toLower) :
    afterLiteral literal text = none := by
  cases hafter : afterLiteral literal text with
  | none => rfl
  | some rest =>
    obtain ⟨taken, rfl, htaken⟩ := afterLiteral_eq hafter
    have hmem : x.toLower ∈ taken.map Char.toLower := by
      rw [htaken]
      exact List.mem_map_of_mem hx
    obtain ⟨c, hc, hsame⟩ := List.mem_map.1 hmem
    exact absurd (hsame ▸ htext c (List.mem_append_left _ hc)) hne

theorem toLower_digit {c : Char} (h : c.isDigit = true) : c.toLower = c :=
  ascii_forall (P := fun c => c.isDigit = true → c.toLower = c) (by decide)
    (ascii_of_alphanum (by simp [Char.isAlphanum, h])) h

/-- The position in an array is no private name. -/
theorem isPrivateField_index (index : Nat) : isPrivateField (toString index) = false := by
  have hdigits : ∀ c ∈ (toString index).toList, c.toLower.isDigit = true := by
    intro c hc
    rw [Nat.toString_eq_repr, Nat.toList_repr] at hc
    have hdigit := Nat.isDigit_of_mem_toDigits (by decide) (by decide) hc
    rw [toLower_digit hdigit, hdigit]
  have hwords : ∀ word ∈ PRIVATE_WORDS, ∃ x ∈ word.toList, ¬ x.toLower.isDigit = true := by
    intro word hword
    simp only [PRIVATE_WORDS, List.mem_cons, List.not_mem_nil, or_false] at hword
    rcases hword with rfl | rfl | rfl | rfl | rfl | rfl | rfl | rfl | rfl | rfl | rfl | rfl | rfl |
      rfl | rfl | rfl
    all_goals exact ⟨_, List.mem_cons_self, by decide⟩
  have hnone : PRIVATE_WORDS.any
      (fun word => (toString index).toList.tails.any (startsWith word)) = false := by
    simp only [List.any_eq_false, List.any_eq_true, not_exists, not_and, Bool.not_eq_true]
    intro word hword suffix hsuffix
    obtain ⟨x, hx, hne⟩ := hwords word hword
    have hsub := ((List.mem_tails _ _).1 hsuffix).subset
    have hafter := afterLiteral_none (P := fun c => c.isDigit = true)
      (fun c hc => hdigits c (hsub hc)) hx hne
    simp [startsWith, hafter]
  simp only [isPrivateField, hnone, Bool.false_and]

theorem discreet_array {items : List JsValue} (h : ∀ item ∈ items, Discreet (some item)) :
    Discreet (some (.array items)) := by
  rintro v hv path
  cases hv
  rw [privacy]
  generalize 0 = index
  induction items generalizing index with
  | nil => rfl
  | cons item rest ih =>
    simp only [List.forall_mem_cons] at h
    rw [privacyItems, ih h.2, h.1 _ rfl, privacyField, isPrivateField_index]
    rfl

/-! The text of a digest. -/

theorem toLower_hex {c : Char} (h : isLowerHex c = true) :
    c.toLower = c ∧ c.toNat < 128 ∧ isSpace c = false ∧ c ≠ '=' ∧ c ≠ ':' ∧ c ≠ '.' := by
  have hascii : c.toNat < 128 := by
    simp only [isLowerHex, Bool.or_eq_true, Bool.and_eq_true, decide_eq_true_eq] at h
    rcases h with hdigit | ⟨hlow, hhigh⟩
    · exact ascii_of_alphanum (by simp [Char.isAlphanum, hdigit])
    · have hle : c.val.toNat ≤ 102 := by
        have hval := UInt32.le_iff_toNat_le.1 hhigh
        exact hval
      have hval : c.toNat = c.val.toNat := rfl
      omega
  exact ascii_forall (P := fun c => isLowerHex c = true → c.toLower = c ∧ c.toNat < 128 ∧
    isSpace c = false ∧ c ≠ '=' ∧ c ≠ ':' ∧ c ≠ '.') (by decide) hascii h

theorem afterOctet_mem {text rest : List Char} (h : afterOctet text = some rest) : '.' ∈ text := by
  unfold afterOctet at h
  split at h
  · rename_i later hdrop
    have hmem : '.' ∈ text.dropWhile Char.isDigit := by simp [hdrop]
    exact (List.dropWhile_sublist _).subset hmem
  · cases h

theorem afterHextet_mem {text rest : List Char} (h : afterHextet text = some rest) :
    ':' ∈ text := by
  unfold afterHextet at h
  split at h
  · rename_i later hdrop
    have hmem : ':' ∈ text.dropWhile isHex := by simp [hdrop]
    exact (List.dropWhile_sublist _).subset hmem
  · cases h

theorem isIpv6_of_no_colon {text : List Char} (h : ':' ∉ text) : isIpv6 text = false := by
  cases hafter : afterHextet text with
  | none => simp [isIpv6, hafter]
  | some rest => exact absurd (afterHextet_mem hafter) h

theorem isPrivateHere_hex {text : List Char} (h : ∀ c ∈ text, isLowerHex c = true) :
    isPrivateHere text = false := by
  have hlower : ∀ c ∈ text, isLowerHex c.toLower = true := by
    intro c hc
    rw [(toLower_hex (h c hc)).1, h c hc]
  have hnone : ∀ literal : String, (∃ x ∈ literal.toList, ¬ isLowerHex x.toLower = true) →
      afterLiteral literal.toList text = none := by
    rintro literal ⟨x, hx, hne⟩
    exact afterLiteral_none (P := fun c => isLowerHex c = true) hlower hx hne
  have hcolon : ∀ literal : String, ':' ∈ literal.toList →
      afterLiteral literal.toList text = none :=
    fun literal hmem => hnone literal ⟨':', hmem, by decide⟩
  have hipv4 : isIpv4 text = false := by
    cases hafter : afterOctet text with
    | none => simp [isIpv4, hafter]
    | some rest => exact absurd rfl (toLower_hex (h '.' (afterOctet_mem hafter))).2.2.2.2.2
  have hipv6 : isIpv6After text = false := by
    cases text with
    | nil => rfl
    | cons c rest =>
      obtain ⟨-, -, hspace, hequals, -⟩ := toLower_hex (h c List.mem_cons_self)
      simp [isIpv6After, hspace, hequals]
  simp only [isPrivateHere, startsWith, isAssigned, hcolon "http://" (by decide),
    hcolon "https://" (by decide), hcolon "ws://" (by decide), hcolon "wss://" (by decide), hipv4,
    hipv6, hnone "-----BEGIN" ⟨'-', by decide, by decide⟩,
    hnone "bearer" ⟨'r', by decide, by decide⟩, hnone "token" ⟨'t', by decide, by decide⟩,
    hnone "secret" ⟨'s', by decide, by decide⟩, hnone "password" ⟨'p', by decide, by decide⟩,
    hnone "credential" ⟨'r', by decide, by decide⟩, Option.isSome_none, Option.elim_none,
    Bool.or_self]

theorem isPrivateText_sha {text : List Char} (h : shaPattern text = true) :
    isPrivateText text = false := by
  simp only [shaPattern, Bool.and_eq_true, decide_eq_true_eq, List.all_eq_true] at h
  obtain ⟨hlength, hhex⟩ := h
  have hunits : utf16Length text = text.length := by
    unfold utf16Length
    have hone : text.map (fun c => if 0x10000 ≤ c.toNat then 2 else 1) = text.map fun _ => 1 := by
      refine List.map_congr_left fun c hc => if_neg ?_
      have hascii := (toLower_hex (hhex c hc)).2.1
      omega
    rw [hone]
    simp
  have hcolon : ':' ∉ text := fun hmem => (toLower_hex (hhex ':' hmem)).2.2.2.2.1 rfl
  have htails : text.tails.any isPrivateHere = false := by
    simp only [List.any_eq_false, Bool.not_eq_true]
    intro suffix hsuffix
    exact isPrivateHere_hex fun c hc => hhex c (((List.mem_tails _ _).1 hsuffix).subset hc)
  simp [isPrivateText, hunits, hlength, isIpv6_of_no_colon hcolon, htails]

end PonsWarp.Scripts
