import PonsWarp.Cli.JoinDescriptor
import PonsWarp.Core.PersistedValue

set_option autoImplicit false

/-!
The hints of the providers of a file: what the search of `coordinator-runtime` finds in the values
that a coordinator answers, and when it finds all that it looks for.
-/

namespace PonsWarp.Core.JsValue

/-- Induction inwards: into the items of an array and the fields of a record. -/
theorem inward {motive : JsValue → Prop} (null : motive .null) (bool : ∀ b, motive (.bool b))
    (number : ∀ x, motive (.number x)) (string : ∀ s, motive (.string s))
    (array : ∀ items, (∀ item ∈ items, motive item) → motive (.array items))
    (object : ∀ fields : Fields, (∀ entry ∈ fields, motive entry.2) → motive (.object fields))
    (value : JsValue) : motive value :=
  @JsValue.rec motive (fun items => ∀ item ∈ items, motive item)
    (fun fields => ∀ entry ∈ fields, motive entry.2) (fun entry => motive entry.2)
    null bool number string array object
    (by simp) (fun _ _ hhead htail => List.forall_mem_cons.2 ⟨hhead, htail⟩)
    (by simp) (fun _ _ hhead htail => List.forall_mem_cons.2 ⟨hhead, htail⟩)
    (fun _ _ hchild => hchild) value

end PonsWarp.Core.JsValue

namespace PonsWarp.Cli

open PonsWarp.Core

structure DirectTransferHint where
  join : String
  peer : Option String
  deriving DecidableEq

def PEER_SCHEME : List Char :=
  ['p', 'o', 'n', 's', 'w', 'a', 'r', 'p', '-', 'p', 'e', 'e', 'r', ':', '/', '/']

def isJoin (value : String) : Bool := JOIN_SCHEME.isPrefixOf value.toList

def isPeer (value : String) : Bool := PEER_SCHEME.isPrefixOf value.toList

/-- The value, when `typeof` says `string`. -/
def stringOf : Option JsValue → Option String
  | some (.string s) => some s
  | _ => none

/-- A property of any value but `null`; what is not a record has none of those that are read. -/
def property? (value : JsValue) (key : String) : Option JsValue :=
  match value with
  | .object fields => Fields.field? fields key
  | _ => none

def DESCRIPTOR_FIELDS : List String := ["value", "descriptor", "join", "directJoin", "ponswarpJoin"]

/-- `raw`. -/
def rawOf (fields : Fields) : Option String :=
  DESCRIPTOR_FIELDS.findSome? fun key => stringOf (Fields.field? fields key)

def extractPeerHint (fields : Fields) : Option String :=
  ["peer", "peerDescriptor"].findSome? fun key =>
    (stringOf (Fields.field? fields key)).filter isPeer

def isPeerKind (fields : Fields) : Bool :=
  let kind := stringOf (Fields.field? fields "kind")
  kind = some "ponswarp-peer" || kind = some "peer"

/-- The two variables of the loop over an array. -/
structure Gathered where
  join : Option String
  peer : Option String

namespace Gathered

/-- `join ??= nested?.join; peer ??= nested?.peer`. -/
def next (gathered : Gathered) (nested : Option DirectTransferHint) : Gathered where
  join := gathered.join.or (nested.map (·.join))
  peer := gathered.peer.or (nested.bind (·.peer))

def hint (gathered : Gathered) : Option DirectTransferHint :=
  match gathered.join with
  | some join => if join = "" then none else some ⟨join, gathered.peer⟩
  | none => none

end Gathered

/-- The part of `findHintInValue` for records, on what the two fields of a record hold. -/
def findHintInRecord (fields : Fields) (directTransfer endpointHints : Option DirectTransferHint) :
    Option DirectTransferHint :=
  let nested := (directTransfer.or endpointHints).filter (·.join ≠ "")
  match rawOf fields with
  | some raw =>
    if isJoin raw then some ⟨raw, extractPeerHint fields⟩
    else if isPeerKind fields && isPeer raw then some ⟨"", some raw⟩
    else nested
  | none => nested

mutual

def findHintInValue : JsValue → Option DirectTransferHint
  | .string s => if isJoin s then some ⟨s, none⟩ else none
  | .array items => (findHintInItems ⟨none, none⟩ items).hint
  | .object fields =>
    findHintInRecord fields (findHintInField "directTransfer" fields)
      (findHintInField "endpointHints" fields)
  | _ => none

def findHintInItems (gathered : Gathered) : List JsValue → Gathered
  | [] => gathered
  | item :: rest => findHintInItems (gathered.next (findHintInValue item)) rest

def findHintInField (key : String) : List (String × JsValue) → Option DirectTransferHint
  | [] => none
  | entry :: rest => (findHintInEntry key entry).getD (findHintInField key rest)

def findHintInEntry (key : String) : String × JsValue → Option (Option DirectTransferHint)
  | (name, child) => if key == name then some (findHintInValue child) else none

end

/-- `online === false`. -/
def isOffline (provider : JsValue) : Bool :=
  match property? provider "online" with
  | some (.bool b) => !b
  | _ => false

def providersOf (candidates : JsValue) : List JsValue :=
  ["providers", "candidates"].flatMap fun key =>
    match property? candidates key with
    | some (.array items) => items
    | _ => []

/-- The hint that one provider has, if it is with a descriptor. -/
def hintOf (provider : JsValue) : Option DirectTransferHint :=
  if isOffline provider then none
  else ((property? provider "endpointHints").bind findHintInValue).filter (·.join ≠ "")

/-- The search goes through one collection after the other; reading a property of `null` throws. -/
def findHintInProviders : List JsValue → Except Failure (Option DirectTransferHint)
  | [] => .ok none
  | .null :: _ => .error ⟨none, "Cannot read properties of null (reading 'online')"⟩
  | provider :: rest =>
    match hintOf provider with
    | some hint => .ok (some hint)
    | none => findHintInProviders rest

def findDirectTransferHint (_resolved candidates : JsValue) :
    Except Failure (Option DirectTransferHint) :=
  findHintInProviders (providersOf candidates)

/-! What the equations of the source say. -/

theorem findHintInField_eq (key : String) (fields : Fields) :
    findHintInField key fields = (Fields.field? fields key).bind findHintInValue := by
  induction fields with
  | nil => rfl
  | cons entry rest ih =>
    obtain ⟨name, child⟩ := entry
    rw [findHintInField, findHintInEntry, Fields.field?, List.lookup_cons, ih]
    cases key == name <;> rfl

theorem findHintInValue_object (fields : Fields) :
    findHintInValue (.object fields) =
      findHintInRecord fields ((Fields.field? fields "directTransfer").bind findHintInValue)
        ((Fields.field? fields "endpointHints").bind findHintInValue) := by
  rw [findHintInValue, findHintInField_eq, findHintInField_eq]

theorem findHintInItems_join (gathered : Gathered) (items : List JsValue) :
    (findHintInItems gathered items).join =
      gathered.join.or (items.findSome? fun item => (findHintInValue item).map (·.join)) := by
  induction items generalizing gathered with
  | nil => simp [findHintInItems]
  | cons item rest ih =>
    rw [findHintInItems, ih, Gathered.next, Option.or_assoc, List.findSome?_cons]
    cases findHintInValue item <;> rfl

theorem findHintInValue_array {items : List JsValue} {join : String} :
    (∃ peer, findHintInValue (.array items) = some ⟨join, peer⟩) ↔
      join ≠ "" ∧
        items.findSome? (fun item => (findHintInValue item).map (·.join)) = some join := by
  have hjoin := findHintInItems_join ⟨none, none⟩ items
  rw [Option.none_or] at hjoin
  rw [findHintInValue, ← hjoin, Gathered.hint]
  cases (findHintInItems ⟨none, none⟩ items).join with
  | none => simp
  | some found =>
    by_cases hempty : found = ""
    · simp [hempty, eq_comm]
    · simpa [hempty] using fun h => h ▸ hempty

theorem isJoin_ne_empty {value : String} (h : isJoin value = true) : value ≠ "" := by
  rintro rfl
  exact absurd h (by decide)

/-- The two schemes part at their ninth character. -/
theorem isJoin_of_isPeer {value : String} (h : isPeer value = true) : isJoin value = false := by
  rw [Bool.eq_false_iff]
  intro hjoin
  have hpeer : PEER_SCHEME <+: value.toList := List.isPrefixOf_iff_prefix.1 h
  have hprefix : JOIN_SCHEME <+: value.toList := List.isPrefixOf_iff_prefix.1 hjoin
  obtain hcase | hcase := List.prefix_or_prefix_of_prefix hpeer hprefix
  · exact absurd hcase (by decide)
  · exact absurd hcase (by decide)

/-- A record that is taken for a hint at a peer: it ends the search where it stands. -/
def PeerRecord (value : JsValue) : Prop :=
  ∃ fields raw, value = .object fields ∧ isPeerKind fields = true ∧ rawOf fields = some raw ∧
    isPeer raw = true

/-- A descriptor in a position that the search recognises. -/
inductive HoldsJoin : JsValue → String → Prop where
  | text {join : String} (h : isJoin join = true) : HoldsJoin (.string join) join
  | item {items : List JsValue} {item : JsValue} {join : String} (hmem : item ∈ items)
      (h : HoldsJoin item join) : HoldsJoin (.array items) join
  | named {fields : Fields} {key join : String} (hkey : key ∈ DESCRIPTOR_FIELDS)
      (hfield : Fields.field? fields key = some (.string join)) (h : isJoin join = true) :
      HoldsJoin (.object fields) join
  | nested {fields : Fields} {key join : String} {child : JsValue}
      (hkey : key = "directTransfer" ∨ key = "endpointHints")
      (hfield : Fields.field? fields key = some child) (h : HoldsJoin child join) :
      HoldsJoin (.object fields) join

/-- A descriptor that nothing beside it keeps from being found: no hint at a peer is before it in
an array or in the record around it, and in a record it is the first text. -/
inductive ReachedJoin : JsValue → String → Prop where
  | text {join : String} (h : isJoin join = true) : ReachedJoin (.string join) join
  | item {before after : List JsValue} {item : JsValue} {join : String}
      (hbefore : ∀ other ∈ before, ¬ PeerRecord other) (h : ReachedJoin item join) :
      ReachedJoin (.array (before ++ item :: after)) join
  | named {fields : Fields} {join : String} (hraw : rawOf fields = some join)
      (h : isJoin join = true) : ReachedJoin (.object fields) join
  | directTransfer {fields : Fields} {join : String} {child : JsValue}
      (hrecord : ¬ PeerRecord (.object fields))
      (hfield : Fields.field? fields "directTransfer" = some child) (h : ReachedJoin child join) :
      ReachedJoin (.object fields) join
  | endpointHints {fields : Fields} {join : String} {child : JsValue}
      (hrecord : ¬ PeerRecord (.object fields))
      (hdirect : ∀ other, Fields.field? fields "directTransfer" = some other → ¬ PeerRecord other)
      (hfield : Fields.field? fields "endpointHints" = some child) (h : ReachedJoin child join) :
      ReachedJoin (.object fields) join

theorem stringOf_eq_some {value : Option JsValue} {s : String} :
    stringOf value = some s ↔ value = some (.string s) := by
  rcases value with - | value
  · simp [stringOf]
  · cases value <;> simp [stringOf]

theorem ReachedJoin.holdsJoin {value : JsValue} {join : String} (h : ReachedJoin value join) :
    HoldsJoin value join := by
  induction h with
  | text h => exact .text h
  | item hbefore h ih => exact .item (by simp) ih
  | named hraw h =>
    obtain ⟨key, hkey, hfield⟩ := List.exists_of_findSome?_eq_some hraw
    exact .named hkey (stringOf_eq_some.1 hfield) h
  | directTransfer hrecord hfield h ih => exact .nested (Or.inl rfl) hfield ih
  | endpointHints hrecord hdirect hfield h ih => exact .nested (Or.inr rfl) hfield ih

/-! What is found in a record: a text, a hint at a peer or what is within. -/

theorem findHintInRecord_named {fields : Fields} {raw : String}
    {directTransfer endpointHints : Option DirectTransferHint} (hraw : rawOf fields = some raw)
    (h : isJoin raw = true) :
    findHintInRecord fields directTransfer endpointHints = some ⟨raw, extractPeerHint fields⟩ := by
  simp [findHintInRecord, hraw, h]

theorem findHintInRecord_peer {fields : Fields}
    (directTransfer endpointHints : Option DirectTransferHint) (h : PeerRecord (.object fields)) :
    ∃ raw, findHintInRecord fields directTransfer endpointHints = some ⟨"", some raw⟩ := by
  obtain ⟨_, raw, heq, hkind, hraw, hpeer⟩ := h
  cases heq
  exact ⟨raw, by simp [findHintInRecord, hraw, hkind, hpeer, isJoin_of_isPeer hpeer]⟩

theorem findHintInRecord_nested {fields : Fields}
    {directTransfer endpointHints : Option DirectTransferHint}
    (hjoin : ∀ raw, rawOf fields = some raw → isJoin raw = false)
    (h : ¬ PeerRecord (.object fields)) :
    findHintInRecord fields directTransfer endpointHints =
      (directTransfer.or endpointHints).filter (·.join ≠ "") := by
  rw [findHintInRecord]
  cases hraw : rawOf fields with
  | none => rfl
  | some raw =>
    have hpeer : (isPeerKind fields && isPeer raw) = false := by
      rw [Bool.eq_false_iff, ne_eq, Bool.and_eq_true]
      rintro ⟨hkind, hraw'⟩
      exact h ⟨fields, raw, rfl, hkind, hraw, hraw'⟩
    simp [hjoin raw hraw, hpeer]

/-- The three ways out of a record. -/
theorem findHintInRecord_cases (fields : Fields) :
    (∃ raw, rawOf fields = some raw ∧ isJoin raw = true) ∨ PeerRecord (.object fields) ∨
      ((∀ raw, rawOf fields = some raw → isJoin raw = false) ∧ ¬ PeerRecord (.object fields)) := by
  by_cases hpeer : PeerRecord (.object fields)
  · exact .inr (.inl hpeer)
  · by_cases hjoin : ∃ raw, rawOf fields = some raw ∧ isJoin raw = true
    · exact .inl hjoin
    · exact .inr (.inr ⟨fun raw hraw => Bool.eq_false_iff.2 fun h => hjoin ⟨raw, hraw, h⟩, hpeer⟩)

/-- Only hints at peers are found without a descriptor. -/
theorem peerRecord_iff {value : JsValue} :
    PeerRecord value ↔ ∃ peer, findHintInValue value = some ⟨"", peer⟩ := by
  cases value with
  | null => simp [PeerRecord, findHintInValue]
  | bool b => simp [PeerRecord, findHintInValue]
  | number x => simp [PeerRecord, findHintInValue]
  | string s =>
    by_cases h : isJoin s = true
    · simp [PeerRecord, findHintInValue, h, isJoin_ne_empty h]
    · simp [PeerRecord, findHintInValue, h]
  | array items => simp [PeerRecord, findHintInValue_array]
  | object fields =>
    rw [findHintInValue_object]
    obtain ⟨raw, hraw, hjoin⟩ | hpeer | ⟨hjoin, hpeer⟩ := findHintInRecord_cases fields
    · have hother : ¬ PeerRecord (.object fields) := by
        rintro ⟨_, other, heq, -, hother, hpeer⟩
        cases heq
        rw [hraw] at hother
        cases hother
        exact absurd hjoin (by simp [isJoin_of_isPeer hpeer])
      simp [findHintInRecord_named hraw hjoin, hother, isJoin_ne_empty hjoin]
    · obtain ⟨raw, hfound⟩ := findHintInRecord_peer
        ((Fields.field? fields "directTransfer").bind findHintInValue)
        ((Fields.field? fields "endpointHints").bind findHintInValue) hpeer
      exact iff_of_true hpeer ⟨some raw, hfound⟩
    · simp [findHintInRecord_nested hjoin hpeer, hpeer, Option.filter_eq_some_iff]

theorem not_peerRecord {value : JsValue} :
    ¬ PeerRecord value ↔ ∀ hint, findHintInValue value = some hint → hint.join ≠ "" := by
  rw [peerRecord_iff]
  constructor
  · rintro h ⟨join, peer⟩ hfound rfl
    exact h ⟨peer, hfound⟩
  · rintro h ⟨peer, hfound⟩
    exact h _ hfound rfl

theorem found_of_field {fields : Fields} {key : String} {hint : DirectTransferHint}
    (h : (Fields.field? fields key).bind findHintInValue = some hint) :
    ∃ child, Fields.field? fields key = some child ∧ findHintInValue child = some hint :=
  Option.bind_eq_some_iff.1 h

/-- A hint that is found is a descriptor that nothing kept from being found. -/
theorem reached_of_found (value : JsValue) :
    ∀ hint, findHintInValue value = some hint → hint.join ≠ "" → ReachedJoin value hint.join := by
  induction value using JsValue.inward with
  | null => simp [findHintInValue]
  | bool b => simp [findHintInValue]
  | number x => simp [findHintInValue]
  | string s =>
    intro hint hfound hjoin
    by_cases h : isJoin s = true
    · simp only [findHintInValue, h, if_true, Option.some.injEq] at hfound
      subst hfound
      exact .text h
    · simp [findHintInValue, h] at hfound
  | array items ih =>
    rintro ⟨join, peer⟩ hfound hjoin
    obtain ⟨-, hfirst⟩ := findHintInValue_array.1 ⟨peer, hfound⟩
    obtain ⟨before, item, after, rfl, hitem, hbefore⟩ := List.findSome?_eq_some_iff.1 hfirst
    obtain ⟨found, hnested, rfl⟩ := Option.map_eq_some_iff.1 hitem
    refine .item (fun other hmem => not_peerRecord.2 fun hint h => ?_)
      (ih item (by simp) found hnested hjoin)
    exact absurd (hbefore other hmem) (by simp [h])
  | object fields ih =>
    intro hint hfound hjoin
    have hchild {key : String} {child : JsValue} (hfield : Fields.field? fields key = some child)
        (h : findHintInValue child = some hint) : ReachedJoin child hint.join := by
      obtain ⟨before, after, rfl, -⟩ := List.lookup_eq_some_iff.1 hfield
      exact ih (key, child) (by simp) hint h hjoin
    rw [findHintInValue_object] at hfound
    obtain ⟨raw, hraw, hjoin'⟩ | hpeer | ⟨hjoin', hpeer⟩ := findHintInRecord_cases fields
    · rw [findHintInRecord_named hraw hjoin'] at hfound
      cases hfound
      exact .named hraw hjoin'
    · obtain ⟨raw, hempty⟩ := findHintInRecord_peer
        ((Fields.field? fields "directTransfer").bind findHintInValue)
        ((Fields.field? fields "endpointHints").bind findHintInValue) hpeer
      rw [hempty] at hfound
      cases hfound
      exact absurd rfl hjoin
    · rw [findHintInRecord_nested hjoin' hpeer] at hfound
      obtain hdirect | ⟨hnone, hhints⟩ :=
        Option.or_eq_some_iff.1 (Option.filter_eq_some_iff.1 hfound).1
      · obtain ⟨child, hfield, h⟩ := found_of_field hdirect
        exact .directTransfer hpeer hfield (hchild hfield h)
      · obtain ⟨child, hfield, h⟩ := found_of_field hhints
        refine .endpointHints hpeer (fun other hother => ?_) hfield (hchild hfield h)
        rw [hother] at hnone
        exact not_peerRecord.2 fun hint h => absurd hnone (by simp [h])

/-- What is within a record that is no hint at a peer is found there, if not something before it. -/
theorem found_in_record {fields : Fields} (hrecord : ¬ PeerRecord (.object fields))
    {hint : DirectTransferHint} (hjoin : hint.join ≠ "")
    (h : ((Fields.field? fields "directTransfer").bind findHintInValue).or
      ((Fields.field? fields "endpointHints").bind findHintInValue) = some hint) :
    ∃ found, findHintInValue (.object fields) = some found ∧ found.join ≠ "" := by
  rw [findHintInValue_object]
  obtain ⟨raw, hraw, hraw'⟩ | hpeer | ⟨hraw, -⟩ := findHintInRecord_cases fields
  · exact ⟨_, findHintInRecord_named hraw hraw', isJoin_ne_empty hraw'⟩
  · exact absurd hpeer hrecord
  · refine ⟨hint, ?_, hjoin⟩
    rw [findHintInRecord_nested hraw hrecord, h]
    simp [hjoin]

theorem found_of_reached {value : JsValue} {join : String} (h : ReachedJoin value join) :
    ∃ hint, findHintInValue value = some hint ∧ hint.join ≠ "" := by
  induction h with
  | text h => exact ⟨_, by rw [findHintInValue, if_pos h], isJoin_ne_empty h⟩
  | @item before after item join hbefore h ih =>
    obtain ⟨found, hfound, hjoin⟩ := ih
    let join? := fun other => (findHintInValue other).map (·.join)
    have hfirst : (before ++ item :: after).findSome? join? =
        (before.findSome? join?).or (some found.join) := by
      simp [join?, hfound]
    cases hcase : before.findSome? join? with
    | none =>
      rw [hcase, Option.none_or] at hfirst
      obtain ⟨peer, h⟩ := findHintInValue_array.2 ⟨hjoin, hfirst⟩
      exact ⟨_, h, hjoin⟩
    | some first =>
      rw [hcase, Option.some_or] at hfirst
      obtain ⟨other, hmem, hother⟩ := List.exists_of_findSome?_eq_some hcase
      obtain ⟨hint, hhint, rfl⟩ := Option.map_eq_some_iff.1 hother
      have hne := not_peerRecord.1 (hbefore other hmem) hint hhint
      obtain ⟨peer, h⟩ := findHintInValue_array.2 ⟨hne, hfirst⟩
      exact ⟨_, h, hne⟩
  | named hraw h =>
    exact ⟨_, by rw [findHintInValue_object, findHintInRecord_named hraw h], isJoin_ne_empty h⟩
  | directTransfer hrecord hfield h ih =>
    obtain ⟨found, hfound, hjoin⟩ := ih
    exact found_in_record hrecord hjoin (by simp [hfield, hfound])
  | @endpointHints fields join child hrecord hdirect hfield h ih =>
    obtain ⟨found, hfound, hjoin⟩ := ih
    cases hcase : (Fields.field? fields "directTransfer").bind findHintInValue with
    | none => exact found_in_record hrecord hjoin (by simp [hcase, hfield, hfound])
    | some hint =>
      obtain ⟨other, hother, hhint⟩ := found_of_field hcase
      exact found_in_record hrecord (not_peerRecord.1 (hdirect other hother) hint hhint)
        (by simp [hcase])

/-! The search over the providers. -/

/-- A provider that is not marked offline has the descriptor among its hints. -/
def Offers (provider : JsValue) (join : String) : Prop :=
  isOffline provider = false ∧
    ∃ hints, property? provider "endpointHints" = some hints ∧ HoldsJoin hints join

/-- It has it where nothing keeps it from being found. -/
def Shows (provider : JsValue) (join : String) : Prop :=
  isOffline provider = false ∧
    ∃ hints, property? provider "endpointHints" = some hints ∧ ReachedJoin hints join

theorem Shows.offers {provider : JsValue} {join : String} (h : Shows provider join) :
    Offers provider join := by
  obtain ⟨honline, hints, hhints, hreached⟩ := h
  exact ⟨honline, hints, hhints, hreached.holdsJoin⟩

theorem shows_of_hintOf {provider : JsValue} {hint : DirectTransferHint}
    (h : hintOf provider = some hint) : Shows provider hint.join := by
  obtain ⟨honline, h⟩ : isOffline provider = false ∧
      ((property? provider "endpointHints").bind findHintInValue).filter (·.join ≠ "") =
        some hint := by
    simpa [hintOf] using h
  obtain ⟨hfound, hjoin⟩ := Option.filter_eq_some_iff.1 h
  obtain ⟨hints, hhints, hfound⟩ := Option.bind_eq_some_iff.1 hfound
  exact ⟨honline, hints, hhints, reached_of_found hints hint hfound (by simpa using hjoin)⟩

theorem hintOf_eq_none {provider : JsValue} :
    hintOf provider = none ↔ ¬ ∃ join, Shows provider join := by
  constructor
  · rintro h ⟨join, honline, hints, hhints, hreached⟩
    obtain ⟨hint, hfound, hjoin⟩ := found_of_reached hreached
    simp [hintOf, honline, hhints, hfound, hjoin] at h
  · intro h
    cases hcase : hintOf provider with
    | none => rfl
    | some hint => exact absurd ⟨hint.join, shows_of_hintOf hcase⟩ h

theorem hintOf_null : hintOf .null = none := rfl

theorem findHintInProviders_cons {provider : JsValue} (rest : List JsValue)
    (h : provider ≠ .null) : findHintInProviders (provider :: rest) =
      (hintOf provider).elim (findHintInProviders rest) fun hint => .ok (some hint) := by
  rw [findHintInProviders]
  · cases hintOf provider <;> rfl
  · exact h

/-- A descriptor is shown before any provider that is `null`. -/
def ShownInTime (providers : List JsValue) : Prop :=
  ∃ before provider after, providers = before ++ provider :: after ∧
    (∀ other ∈ before, other ≠ .null) ∧ ∃ join, Shows provider join

theorem shownInTime_cons {provider : JsValue} {rest : List JsValue} :
    ShownInTime (provider :: rest) ↔
      (∃ join, Shows provider join) ∨ provider ≠ .null ∧ ShownInTime rest := by
  constructor
  · rintro ⟨before, shown, after, heq, hbefore, hshows⟩
    obtain ⟨rfl, h⟩ | ⟨before', rfl, h⟩ := List.cons_eq_append_iff.1 heq
    · obtain ⟨rfl, -⟩ := List.cons_eq_cons.1 h
      exact .inl hshows
    · exact .inr ⟨hbefore provider (by simp),
        before', shown, after, h, fun other hmem => hbefore other (by simp [hmem]), hshows⟩
  · rintro (hshows | ⟨hnull, before, shown, after, rfl, hbefore, hshows⟩)
    · exact ⟨[], provider, rest, rfl, by simp, hshows⟩
    · exact ⟨provider :: before, shown, after, rfl, List.forall_mem_cons.2 ⟨hnull, hbefore⟩, hshows⟩

theorem not_shownInTime_nil : ¬ ShownInTime [] := by
  rintro ⟨before, provider, after, h, -⟩
  simp at h

theorem found_iff (providers : List JsValue) :
    (∃ hint, findHintInProviders providers = .ok (some hint)) ↔ ShownInTime providers := by
  induction providers with
  | nil => simp [findHintInProviders, not_shownInTime_nil]
  | cons provider rest ih =>
    rw [shownInTime_cons]
    by_cases hnull : provider = .null
    · subst hnull
      have hshows := hintOf_eq_none.1 hintOf_null
      simp only [hshows, findHintInProviders]
      simp
    · rw [findHintInProviders_cons rest hnull]
      cases hcase : hintOf provider with
      | none => simp [ih, hnull, hintOf_eq_none.1 hcase]
      | some hint => exact iff_of_true ⟨hint, rfl⟩ (.inl ⟨_, shows_of_hintOf hcase⟩)

theorem shows_of_found (providers : List JsValue) {hint : DirectTransferHint}
    (h : findHintInProviders providers = .ok (some hint)) :
    ∃ provider ∈ providers, Shows provider hint.join := by
  induction providers with
  | nil => cases h
  | cons provider rest ih =>
    by_cases hnull : provider = .null
    · subst hnull
      cases h
    · rw [findHintInProviders_cons rest hnull] at h
      cases hcase : hintOf provider with
      | none =>
        rw [hcase] at h
        obtain ⟨other, hmem, hshows⟩ := ih h
        exact ⟨other, List.mem_cons_of_mem _ hmem, hshows⟩
      | some found =>
        rw [hcase] at h
        cases h
        exact ⟨provider, List.mem_cons_self, shows_of_hintOf hcase⟩

theorem nothing_iff (providers : List JsValue) :
    findHintInProviders providers = .ok none ↔
      ∀ provider ∈ providers, provider ≠ .null ∧ ¬ ∃ join, Shows provider join := by
  induction providers with
  | nil => simp [findHintInProviders]
  | cons provider rest ih =>
    rw [List.forall_mem_cons, ← ih]
    by_cases hnull : provider = .null
    · simp [hnull, findHintInProviders]
    · rw [findHintInProviders_cons rest hnull]
      cases hcase : hintOf provider with
      | none => simp [hnull, hintOf_eq_none.1 hcase]
      | some hint =>
        exact iff_of_false (by simp) fun h => h.1.2 ⟨_, shows_of_hintOf hcase⟩

/-- The search finds a descriptor of a provider that is not offline whenever there is one, exactly
when one of them is shown before any provider that is `null`, or when there is neither. -/
theorem hint_search_is_complete (resolved candidates : JsValue) :
    (((∃ provider ∈ providersOf candidates, ∃ join, Offers provider join) →
        ∃ hint, findDirectTransferHint resolved candidates = .ok (some hint) ∧
          ∃ provider ∈ providersOf candidates, Offers provider hint.join) ∧
      ((¬ ∃ provider ∈ providersOf candidates, ∃ join, Offers provider join) →
        findDirectTransferHint resolved candidates = .ok none)) ↔
    (ShownInTime (providersOf candidates) ∨
      ∀ provider ∈ providersOf candidates, provider ≠ .null ∧ ¬ ∃ join, Offers provider join) := by
  have hsound {hint : DirectTransferHint}
      (h : findDirectTransferHint resolved candidates = .ok (some hint)) :
      ∃ provider ∈ providersOf candidates, Offers provider hint.join := by
    obtain ⟨provider, hmem, hshows⟩ := shows_of_found _ h
    exact ⟨provider, hmem, hshows.offers⟩
  constructor
  · rintro ⟨hsome, hnone⟩
    by_cases hoffers : ∃ provider ∈ providersOf candidates, ∃ join, Offers provider join
    · obtain ⟨hint, hfound, -⟩ := hsome hoffers
      exact .inl ((found_iff _).1 ⟨hint, hfound⟩)
    · have h := (nothing_iff _).1 (hnone hoffers)
      exact .inr fun provider hmem =>
        ⟨(h provider hmem).1, fun hoffer => hoffers ⟨provider, hmem, hoffer⟩⟩
  · rintro (hshown | hneither)
    · obtain ⟨hint, hfound⟩ := (found_iff _).2 hshown
      obtain ⟨provider, hmem, hoffers⟩ := hsound hfound
      exact ⟨fun _ => ⟨hint, hfound, provider, hmem, hoffers⟩,
        fun h => absurd ⟨provider, hmem, hint.join, hoffers⟩ h⟩
    · refine ⟨?_, fun _ => ?_⟩
      · rintro ⟨provider, hmem, hoffers⟩
        exact absurd hoffers (hneither provider hmem).2
      · rw [findDirectTransferHint, nothing_iff]
        exact fun provider hmem => ⟨(hneither provider hmem).1, fun h =>
          (hneither provider hmem).2 (h.imp fun _ => Shows.offers)⟩

/-- A hint at a peer, and after it in the same array a descriptor. -/
def hintsBehindPeer : JsValue :=
  .object [("providers", .array [.object [("online", .bool true), ("endpointHints", .array [
    .object [("kind", .string "ponswarp-peer"), ("value", .string "ponswarp-peer://seed")],
    .string "ponswarp://join/owner"])]])]

/-- The descriptor is there, and what the search answers is `undefined`. -/
theorem peer_hint_hides_descriptor :
    ¬ ((∃ provider ∈ providersOf hintsBehindPeer, ∃ join, Offers provider join) →
        ∃ hint, findDirectTransferHint .null hintsBehindPeer = .ok (some hint) ∧
          ∃ provider ∈ providersOf hintsBehindPeer, Offers provider hint.join) := by
  intro h
  have hcarries : HoldsJoin (.array [
      .object [("kind", .string "ponswarp-peer"), ("value", .string "ponswarp-peer://seed")],
      .string "ponswarp://join/owner"]) "ponswarp://join/owner" :=
    .item (List.mem_cons_of_mem _ List.mem_cons_self) (.text (by decide))
  obtain ⟨hint, hfound, -⟩ := h ⟨_, List.mem_cons_self, _, rfl, _, rfl, hcarries⟩
  have hnothing : findDirectTransferHint .null hintsBehindPeer = .ok none := by decide +kernel
  rw [hnothing] at hfound
  cases hfound

end PonsWarp.Cli
