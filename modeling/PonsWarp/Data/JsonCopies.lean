import PonsWarp.Data.Json

set_option autoImplicit false

/-!
What is left of a value that is written as JSON and read again: fields that are undefined are
gone, and a few values at the leaves have become others.
-/

namespace PonsWarp.Data.Json

namespace Value

/-- A value that stands somewhere in another. -/
inductive Within (part : Value) : Value → Prop where
  | self : Within part part
  | item {items : List Value} {item : Value} (hmem : item ∈ items) (h : Within part item) :
      Within part (.array items)
  | field {fields : Fields} {entry : Text × Value} (hmem : entry ∈ fields)
      (h : Within part entry.2) : Within part (.object fields)

/-- No object in the value has a key twice, as no object of the language has. -/
def Plain (value : Value) : Prop :=
  ∀ fields, Within (.object fields) value → (fields.map Prod.fst).Nodup

theorem Plain.item {items : List Value} (h : Plain (.array items)) {item : Value}
    (hmem : item ∈ items) : Plain item :=
  fun fields hwithin => h fields (.item hmem hwithin)

theorem Plain.field {fields : Fields} (h : Plain (.object fields)) {entry : Text × Value}
    (hmem : entry ∈ fields) : Plain entry.2 :=
  fun fields' hwithin => h fields' (.field hmem hwithin)

theorem Plain.nodup {fields : Fields} (h : Plain (.object fields)) :
    (fields.map Prod.fst).Nodup :=
  h fields .self

theorem plain_scalar {value : Value} (h : ∀ fields, ¬ Within (.object fields) value) :
    Plain value :=
  fun fields hwithin => absurd hwithin (h fields)

theorem plain_object {fields : Fields} (hnodup : (fields.map Prod.fst).Nodup)
    (h : ∀ entry ∈ fields, Plain entry.2) : Plain (.object fields) := by
  intro inner hwithin
  cases hwithin with
  | self => exact hnodup
  | field hmem hinner => exact h _ hmem inner hinner

theorem plain_string (s : Text) : Plain (.string s) :=
  plain_scalar fun _ h => by cases h

theorem plain_number (x : Double) : Plain (.number x) :=
  plain_scalar fun _ h => by cases h

theorem plain_bool (b : Bool) : Plain (.bool b) :=
  plain_scalar fun _ h => by cases h

theorem plain_undefined : Plain .undefined :=
  plain_scalar fun _ h => by cases h

mutual

/-- The value without the fields that are undefined, and with its leaves replaced. -/
def mapLeaves (leaf : Value → Value) : Value → Value
  | .array items => .array (mapItems leaf items)
  | .object fields => .object (mapFields leaf fields)
  | value => leaf value

def mapItems (leaf : Value → Value) : List Value → List Value
  | [] => []
  | item :: rest => mapLeaves leaf item :: mapItems leaf rest

def mapFields (leaf : Value → Value) : List (Text × Value) → List (Text × Value)
  | [] => []
  | entry :: rest => (mapEntry leaf entry).toList ++ mapFields leaf rest

def mapEntry (leaf : Value → Value) : Text × Value → Option (Text × Value)
  | (key, child) => if child.isUndefined then none else some (key, mapLeaves leaf child)

end

/-- The value without the fields that are undefined. -/
def withoutUndefined (value : Value) : Value := mapLeaves id value

/-- What a value that is no container becomes on its way through a text. -/
def leafCopy : Value → Value
  | .undefined | .number .nan | .number (.infinity _) => .null
  | .number (.zero _) => .number (.zero false)
  | value => value

/-- What is read of the text of a value. -/
def copy (value : Value) : Value := mapLeaves leafCopy value

theorem mapItems_eq (leaf : Value → Value) (items : List Value) :
    mapItems leaf items = items.map (mapLeaves leaf) := by
  induction items with
  | nil => rfl
  | cons item rest ih => rw [mapItems, ih, List.map_cons]

theorem mapFields_eq (leaf : Value → Value) (fields : Fields) :
    mapFields leaf fields = (fields.filter fun entry => !entry.2.isUndefined).map
      fun entry => (entry.1, mapLeaves leaf entry.2) := by
  induction fields with
  | nil => rfl
  | cons entry rest ih =>
    rw [mapFields, ih, mapEntry, List.filter_cons]
    cases entry.2.isUndefined <;> rfl

theorem mapLeaves_array (leaf : Value → Value) (items : List Value) :
    mapLeaves leaf (.array items) = .array (items.map (mapLeaves leaf)) := by
  rw [mapLeaves, mapItems_eq]

theorem mapLeaves_object (leaf : Value → Value) (fields : Fields) :
    mapLeaves leaf (.object fields) = .object ((fields.filter fun entry => !entry.2.isUndefined).map
      fun entry => (entry.1, mapLeaves leaf entry.2)) := by
  rw [mapLeaves, mapFields_eq]

theorem withoutUndefined_array (items : List Value) :
    withoutUndefined (.array items) = .array (items.map withoutUndefined) :=
  mapLeaves_array id items

theorem withoutUndefined_object (fields : Fields) :
    ∃ kept, withoutUndefined (.object fields) = .object kept :=
  ⟨_, mapLeaves_object id fields⟩

/-- A value that is no container and stands somewhere in another, but not as a field that is
undefined. -/
inductive Leaf (leaf : Value) : Value → Prop where
  | self (harray : ∀ items, leaf ≠ .array items) (hobject : ∀ fields, leaf ≠ .object fields) :
      Leaf leaf leaf
  | item {items : List Value} {item : Value} (hmem : item ∈ items) (h : Leaf leaf item) :
      Leaf leaf (.array items)
  | field {fields : Fields} {entry : Text × Value} (hmem : entry ∈ fields)
      (hdefined : entry.2.isUndefined = false) (h : Leaf leaf entry.2) :
      Leaf leaf (.object fields)

theorem leaf_object {leaf : Value} {fields : Fields} : Leaf leaf (.object fields) ↔
    ∃ entry ∈ fields, entry.2.isUndefined = false ∧ Leaf leaf entry.2 := by
  constructor
  · intro h
    cases h with
    | self _ hobject => exact absurd rfl (hobject fields)
    | field hmem hdefined hleaf => exact ⟨_, hmem, hdefined, hleaf⟩
  · rintro ⟨entry, hmem, hdefined, hleaf⟩
    exact .field hmem hdefined hleaf

theorem leaf_string {leaf : Value} {s : Text} :
    Leaf leaf (.string s) ↔ leaf = .string s := by
  constructor
  · intro h
    cases h
    rfl
  · rintro rfl
    exact .self (by simp) (by simp)

theorem leaf_number {leaf : Value} {x : Double} :
    Leaf leaf (.number x) ↔ leaf = .number x := by
  constructor
  · intro h
    cases h
    rfl
  · rintro rfl
    exact .self (by simp) (by simp)

/-- Two replacements make the same of a value exactly when they agree at its leaves. -/
theorem mapLeaves_eq_iff (f g : Value → Value) (value : Value) :
    mapLeaves f value = mapLeaves g value ↔ ∀ leaf, Leaf leaf value → f leaf = g leaf := by
  have hscalar (value : Value) (harray : ∀ items, value ≠ .array items)
      (hobject : ∀ fields, value ≠ .object fields) :
      f value = g value ↔ ∀ leaf, Leaf leaf value → f leaf = g leaf := by
    constructor
    · intro h leaf hleaf
      cases hleaf with
      | self => exact h
      | item => exact absurd rfl (harray _)
      | field => exact absurd rfl (hobject _)
    · exact fun h => h value (.self harray hobject)
  induction value using inward with
  | undefined => exact hscalar _ (by simp) (by simp)
  | null => exact hscalar _ (by simp) (by simp)
  | bool b => exact hscalar _ (by simp) (by simp)
  | number x => exact hscalar _ (by simp) (by simp)
  | string s => exact hscalar _ (by simp) (by simp)
  | array items ih =>
    rw [mapLeaves_array, mapLeaves_array, Value.array.injEq, List.map_inj_left]
    constructor
    · intro h leaf hleaf
      cases hleaf with
      | self harray _ => exact absurd rfl (harray items)
      | item hmem hleaf => exact (ih _ hmem).1 (h _ hmem) leaf hleaf
    · exact fun h item hmem => (ih item hmem).2 fun leaf hleaf => h leaf (.item hmem hleaf)
  | object fields ih =>
    rw [mapLeaves_object, mapLeaves_object, Value.object.injEq, List.map_inj_left]
    constructor
    · intro h leaf hleaf
      cases hleaf with
      | self _ hobject => exact absurd rfl (hobject fields)
      | @field _ entry hmem hdefined hleaf =>
        have hentry := h entry (List.mem_filter.2 ⟨hmem, by simpa using hdefined⟩)
        exact (ih entry hmem).1 (Prod.mk.inj hentry).2 leaf hleaf
    · intro h entry hentry
      obtain ⟨hmem, hdefined⟩ := List.mem_filter.1 hentry
      rw [(ih entry hmem).2 fun leaf hleaf => h leaf (.field hmem (by simpa using hdefined) hleaf)]

/-- A value comes back as it is, but for the fields that are undefined, exactly when no leaf of it
is another on its way. -/
theorem copy_eq_iff (value : Value) :
    copy value = withoutUndefined value ↔ ∀ leaf, Leaf leaf value → leafCopy leaf = leaf :=
  mapLeaves_eq_iff leafCopy id value

/-- The leaves that become others: `undefined`, `NaN`, the infinities and the negative zero. -/
theorem leafCopy_eq_self {leaf : Value} : leafCopy leaf = leaf ↔
    leaf ≠ .undefined ∧ leaf ≠ .number .nan ∧ (∀ negative, leaf ≠ .number (.infinity negative)) ∧
      leaf ≠ .number (.zero true) := by
  cases leaf with
  | undefined => simp [leafCopy]
  | null => simp [leafCopy]
  | bool b => simp [leafCopy]
  | number x =>
    cases x with
    | nan => simp [leafCopy]
    | infinity negative => simp [leafCopy]
    | zero negative => cases negative <;> simp [leafCopy]
    | finite negative x => simp [leafCopy]
  | string s => simp [leafCopy]
  | array items => simp [leafCopy]
  | object fields => simp [leafCopy]

/-! The properties of a value. -/

/-- `value[key]` of a value that has properties: what is not there is `undefined`. -/
def get (value : Value) (key : Text) : Value :=
  match value with
  | .object fields => (fields.lookup key).getD .undefined
  | _ => .undefined

theorem Plain.get {value : Value} (h : Plain value) (key : Text) : Plain (value.get key) := by
  cases value with
  | object fields =>
    rw [Value.get]
    cases hlookup : fields.lookup key with
    | none => exact plain_undefined
    | some child =>
      obtain ⟨before, after, rfl, -⟩ := List.lookup_eq_some_iff.1 hlookup
      have hmem : (key, child) ∈ before ++ (key, child) :: after := by simp
      exact h.field hmem
  | _ => exact plain_undefined

theorem lookup_filter_map {fields : Fields} (h : (fields.map Prod.fst).Nodup) (key : Text)
    (leaf : Value → Value) :
    ((fields.filter fun entry => !entry.2.isUndefined).map
      fun entry => (entry.1, mapLeaves leaf entry.2)).lookup key =
      ((fields.lookup key).filter fun child => !child.isUndefined).map (mapLeaves leaf) := by
  induction fields with
  | nil => rfl
  | cons entry rest ih =>
    obtain ⟨name, child⟩ := entry
    rw [List.map_cons, List.nodup_cons] at h
    have ih := ih h.2
    by_cases hkey : key = name
    · subst hkey
      cases hchild : child.isUndefined with
      | false => simp [hchild]
      | true =>
        have hnone : rest.lookup key = none := by
          rw [List.lookup_eq_none_iff]
          intro entry hentry
          simp only [bne_iff_ne, ne_eq]
          rintro rfl
          exact h.1 (List.mem_map.2 ⟨entry, hentry, rfl⟩)
        rw [hnone] at ih
        rw [List.filter_cons, List.lookup_cons]
        simpa only [hchild, Bool.not_true, Bool.false_eq_true, if_false, beq_self_eq_true,
          Option.filter_some, Option.filter_none] using ih
    · have hne : (key == name) = false := by simpa using hkey
      rw [List.filter_cons, List.lookup_cons, hne]
      cases child.isUndefined with
      | false => simpa [List.lookup_cons, hne] using ih
      | true => simpa using ih

theorem isUndefined_iff {value : Value} : value.isUndefined = true ↔ value = .undefined := by
  cases value <;> simp [isUndefined]

theorem get_withoutUndefined {value : Value} (h : Plain value) (key : Text) :
    (withoutUndefined value).get key = withoutUndefined (value.get key) := by
  cases value with
  | object fields =>
    rw [withoutUndefined, mapLeaves_object, get, lookup_filter_map h.nodup, get]
    cases fields.lookup key with
    | none => simp [withoutUndefined, mapLeaves]
    | some child =>
      cases hdefined : child.isUndefined with
      | false => simp [Option.filter_some, hdefined, withoutUndefined]
      | true =>
        rw [isUndefined_iff.1 hdefined]
        simp [Option.filter_some, isUndefined, withoutUndefined, mapLeaves]
  | array items => rfl
  | undefined => rfl
  | null => rfl
  | bool b => rfl
  | number x => rfl
  | string s => rfl

end Value

open Value

/-! `JSON.parse` of what `JSON.stringify` has written. -/

theorem stringify_eq_none {format : NumberFormat} {value : Value} :
    stringify format value = none ↔ value = .undefined := by
  cases value with
  | bool b => cases b <;> simp [stringify]
  | _ => simp [stringify]

theorem isWordUnit_of_isLiteral {text : Text} (h : isLiteral text = true) :
    text ≠ [] ∧ ∀ c ∈ text, isWordUnit c = true := by
  rw [isLiteral, Bool.and_eq_true, List.all_eq_true] at h
  refine ⟨?_, h.1⟩
  rintro rfl
  exact absurd h.2 (by decide)

/-- A literal of a number is none of the three words. -/
theorem readWord_literal {text : Text} (h : isLiteral text = true) :
    readWord text = some (.number (readLiteral text)) := by
  have hnull : text ≠ units "null" := by
    rintro rfl
    exact absurd h (by decide)
  have htrue : text ≠ units "true" := by
    rintro rfl
    exact absurd h (by decide)
  have hfalse : text ≠ units "false" := by
    rintro rfl
    exact absurd h (by decide)
  rw [readWord, if_neg hnull, if_neg htrue, if_neg hfalse, if_pos h]

theorem readWord_negative {text : Text} (h : isLiteral text = true) :
    readWord (45 :: text) = some (.number (readLiteral text).neg) := by
  have hliteral : isLiteral (45 :: text) = false := by
    have hsign : isDigit 45 = false := by decide
    simp [isLiteral, afterInteger, hsign]
  have hnull : 45 :: text ≠ units "null" := fun heq => absurd (List.cons.inj heq).1 (by decide)
  have htrue : 45 :: text ≠ units "true" := fun heq => absurd (List.cons.inj heq).1 (by decide)
  have hfalse : 45 :: text ≠ units "false" := fun heq => absurd (List.cons.inj heq).1 (by decide)
  rw [readWord, if_neg hnull, if_neg htrue, if_neg hfalse, hliteral]
  simp [h]

theorem reads_null : Reads (units "null") .null :=
  reads_word (by decide) (List.all_eq_true.1 (by decide)) rfl

theorem reads_bool (b : Bool) :
    Reads (units (if b then "true" else "false")) (.bool b) := by
  cases b with
  | true => exact reads_word (by decide) (List.all_eq_true.1 (by decide)) rfl
  | false => exact reads_word (by decide) (List.all_eq_true.1 (by decide)) rfl

theorem reads_zero :
    Reads (units "0") (.number (.zero false)) := by
  refine reads_word (by decide) (List.all_eq_true.1 (by decide)) ?_
  rw [readWord_literal (by decide)]
  have hzero : readLiteral (units "0") = .zero false := by decide +kernel
  rw [hzero]

theorem reads_number (format : NumberFormat) (x : Double) :
    Reads (numberText format x) (leafCopy (.number x)) := by
  cases x with
  | nan => exact reads_null
  | infinity negative => exact reads_null
  | zero negative => exact reads_zero
  | finite negative x =>
    have hliteral := format.isLiteral_toText x
    obtain ⟨hne, hunits⟩ := isWordUnit_of_isLiteral hliteral
    cases negative with
    | false =>
      refine reads_word hne hunits ?_
      rw [numberText, readWord_literal hliteral, format.readLiteral_toText]
      rfl
    | true =>
      refine reads_word (by simp [numberText]) ?_ ?_
      · exact List.forall_mem_cons.2 ⟨by decide, hunits⟩
      · rw [numberText, readWord_negative hliteral, format.readLiteral_toText]
        rfl

theorem itemTexts_eq (format : NumberFormat) (items : List Value) :
    itemTexts format items =
      items.map fun item => (stringify format item).getD (units "null") := by
  induction items with
  | nil => rfl
  | cons item rest ih => rw [itemTexts, ih, List.map_cons]

/-- An item is written even if it is undefined. -/
theorem reads_item {format : NumberFormat} {item : Value}
    (h : ∀ text, stringify format item = some text → Reads text (copy item)) :
    Reads ((stringify format item).getD (units "null")) (copy item) := by
  cases hcase : stringify format item with
  | some text => exact h text hcase
  | none =>
    rw [stringify_eq_none.1 hcase]
    exact reads_null

/-- The fields that are written are those that are defined. -/
theorem reads_fields {format : NumberFormat} {fields : Fields}
    (h : ∀ entry ∈ fields, ∀ text, stringify format entry.2 = some text →
      Reads text (copy entry.2)) :
    List.Forall₂ ReadsMember (fieldTexts format fields) (mapFields leafCopy fields) := by
  induction fields with
  | nil => exact .nil
  | cons entry rest ih =>
    obtain ⟨key, child⟩ := entry
    rw [List.forall_mem_cons] at h
    have ih := ih h.2
    rw [fieldTexts, mapFields, fieldText, mapEntry]
    cases hcase : stringify format child with
    | none =>
      rw [stringify_eq_none.1 hcase]
      exact ih
    | some text =>
      have hdefined : child.isUndefined = false := by
        rw [Bool.eq_false_iff, ne_eq, isUndefined_iff]
        rintro rfl
        simp [stringify] at hcase
      rw [hdefined]
      exact .cons ⟨text, rfl, h.1 text hcase⟩ ih

theorem nodup_mapFields {fields : Fields} (h : (fields.map Prod.fst).Nodup)
    (leaf : Value → Value) : ((mapFields leaf fields).map Prod.fst).Nodup := by
  rw [mapFields_eq, List.map_map]
  exact h.sublist (List.filter_sublist.map Prod.fst)

/-- The text of a value is read as the copy of the value. -/
theorem reads_stringify (format : NumberFormat) (value : Value) (hplain : Plain value) :
    ∀ text, stringify format value = some text → Reads text (copy value) := by
  induction value using inward with
  | undefined => simp [stringify]
  | null =>
    rintro text ⟨⟩
    exact reads_null
  | bool b =>
    intro text htext
    have h := reads_bool b
    cases b with
    | true =>
      cases htext
      exact h
    | false =>
      cases htext
      exact h
  | number x =>
    rintro text ⟨⟩
    exact reads_number format x
  | string s =>
    rintro text ⟨⟩
    exact reads_string s
  | array items ih =>
    rintro text ⟨⟩
    rw [copy, mapLeaves_array, itemTexts_eq]
    refine reads_array ?_
    rw [List.forall₂_map_left_iff, List.forall₂_map_right_iff, List.forall₂_same]
    exact fun item hmem => reads_item (ih item hmem (hplain.item hmem))
  | object fields ih =>
    rintro text ⟨⟩
    refine reads_object (reads_fields fun entry hmem => ?_) (nodup_mapFields hplain.nodup leafCopy)
    exact ih entry hmem (hplain.field hmem)

/-- What is read of the text of a value. -/
theorem parse_stringify {format : NumberFormat} {value : Value} (hplain : Plain value)
    {text : Text} (h : stringify format value = some text) :
    parse text = some (copy value) :=
  parse_of_reads (reads_stringify format value hplain text h)

end PonsWarp.Data.Json
