import PonsWarp.Cli.ShareCodes
import PonsWarp.Cli.SocketReceiver
import PonsWarp.Data.OrderedMap
import PonsWarp.Data.Search

set_option autoImplicit false

/-!
The handshake on a raw socket. The limit on it is checked against the end of the header
as far as it stands in one data event, and the header is read from all that has come, so
that a header end which is cut in two counts for nothing.
-/

namespace PonsWarp.Cli

open PonsWarp.Data PonsWarp.ShareCodes

def MAX_RAW_HANDSHAKE_BYTES : Nat := 16 * 1024

def DELIMITER : List UInt8 := [0xd, 0xa, 0xd, 0xa]

/-- What the language gives: `toLowerCase`, and `new URL(target, base).searchParams.get(name)`, where
the constructor may throw. -/
structure UrlPlatform where
  toLowerCase : List Char → List Char
  searchParam : List Char → List Char → List Char → Option (Option (List Char))

/-- `header.split('\r\n')` -/
def headerLines : List Char → List (List Char)
  | [] => [[]]
  | '\r' :: '\n' :: rest => [] :: headerLines rest
  | c :: rest =>
    match headerLines rest with
    | [] => [[c]]
    | line :: more => (c :: line) :: more

/-- What the handshake of a socket has come to. Of an accepted connection there is what it has
been given of the frames. -/
inductive Handshake
  | waiting (pending : List UInt8)
  | destroyed
  | refused
  | accepted (sender key : List Char) (frames : List UInt8)
  | thrown
  deriving DecidableEq

namespace Handshake

def setHeader (p : UrlPlatform) (headers : OrderedMap (List Char) (List Char)) (line : List Char) :
    OrderedMap (List Char) (List Char) :=
  match indexOf [':'] line with
  | none => headers
  | some separator =>
    headers.set (p.toLowerCase (trim (line.take separator))) (trim (line.drop (separator + 1)))

/-- The peer id and the key, unless the URL is none. -/
def parseRawUpgradeRequest (p : UrlPlatform) (header : List Char) :
    Option (Option (List Char) × Option (List Char)) :=
  let lines := headerLines header
  let target := ((lines.headD []).splitOn ' ')[1]?.getD ['/']
  let headers := lines.tail.foldl (setHeader p) .empty
  let host := (headers.get? "host".toList).getD "127.0.0.1".toList
  (p.searchParam target ("http://".toList ++ host) "from".toList).map fun sender =>
    (sender, headers.get? "sec-websocket-key".toList)

def acceptSocketConnection (sender key : List Char) (initialData : List UInt8) : Handshake :=
  if MAX_PENDING_RECEIVE_BYTES < initialData.length then .destroyed
  else .accepted sender key initialData

/-- The header is there whole, and what is behind it. -/
def finish (p : UrlPlatform) (header rest : List UInt8) : Handshake :=
  match parseRawUpgradeRequest p (utf8Decode header) with
  | none => .thrown
  | some (sender, key) =>
    match sender.filter (· ≠ []), key.filter (· ≠ []) with
    | some sender, some key => acceptSocketConnection sender key rest
    | _, _ => .refused

def handshakeBytes (pending chunk : List UInt8) : Nat :=
  match indexOf DELIMITER chunk with
  | none => pending.length + chunk.length
  | some delimiter => pending.length + delimiter + 4

/-- One data event. A connection that is accepted takes it for frames, and a socket that is
destroyed has none. -/
def onHandshakeData (p : UrlPlatform) : Handshake → List UInt8 → Handshake
  | .waiting pending, chunk =>
    if MAX_RAW_HANDSHAKE_BYTES < handshakeBytes pending chunk ∨
        MAX_PENDING_RECEIVE_BYTES < pending.length ∨
        MAX_PENDING_RECEIVE_BYTES - pending.length < chunk.length then .destroyed
    else
      let pending := pending ++ chunk
      match indexOf DELIMITER pending with
      | none => .waiting pending
      | some headerEnd => finish p (pending.take headerEnd) (pending.drop (headerEnd + 4))
  | .accepted sender key frames, chunk => .accepted sender key (frames ++ chunk)
  | h, _ => h

/-- `handleRawSocket` on the data events of a socket. -/
def handleRawSocket (p : UrlPlatform) (chunks : List (List UInt8)) : Handshake :=
  chunks.foldl (onHandshakeData p) (.waiting [])

/-! ### One data event -/

variable {p : UrlPlatform} {pending chunk header rest : List UInt8} {chunks : List (List UInt8)}
  {i : Nat}

/-- The event brings more than the buffer may hold, or what counts of it goes beyond the limit:
all of it, or what stands up to the first header end that lies within it. -/
def Overruns (pending chunk : List UInt8) : Prop :=
  MAX_PENDING_RECEIVE_BYTES < pending.length + chunk.length ∨
    (indexOf DELIMITER chunk = none ∧ MAX_RAW_HANDSHAKE_BYTES < pending.length + chunk.length) ∨
    ∃ d, indexOf DELIMITER chunk = some d ∧ MAX_RAW_HANDSHAKE_BYTES < pending.length + d + 4

/-- The event that completes the header overruns. -/
def Overrun : List UInt8 → List (List UInt8) → Prop
  | _, [] => False
  | pending, chunk :: rest =>
    if (indexOf DELIMITER (pending ++ chunk)).isSome then Overruns pending chunk
    else Overrun (pending ++ chunk) rest

theorem overruns_iff (hsmall : pending.length ≤ MAX_RAW_HANDSHAKE_BYTES) :
    (MAX_RAW_HANDSHAKE_BYTES < handshakeBytes pending chunk ∨
      MAX_PENDING_RECEIVE_BYTES < pending.length ∨
      MAX_PENDING_RECEIVE_BYTES - pending.length < chunk.length) ↔ Overruns pending chunk := by
  have hlimits : MAX_RAW_HANDSHAKE_BYTES ≤ MAX_PENDING_RECEIVE_BYTES := by decide
  unfold Overruns handshakeBytes
  cases indexOf DELIMITER chunk with
  | none =>
    simp only [true_and, reduceCtorEq, false_and, exists_false, or_false]
    omega
  | some d =>
    simp only [reduceCtorEq, false_and, false_or, Option.some.injEq, exists_eq_left']
    omega

/-- The URL and the two fields decide on a header that is whole. -/
def answer (p : UrlPlatform) (header rest : List UInt8) : Handshake :=
  match parseRawUpgradeRequest p (utf8Decode header) with
  | none => .thrown
  | some (sender, key) =>
    match sender.filter (· ≠ []), key.filter (· ≠ []) with
    | some sender, some key => .accepted sender key rest
    | _, _ => .refused

theorem finish_eq_answer (h : rest.length ≤ MAX_PENDING_RECEIVE_BYTES) :
    finish p header rest = answer p header rest := by
  have hfits : ¬ MAX_PENDING_RECEIVE_BYTES < rest.length := by omega
  simp only [finish, answer, acceptSocketConnection, if_neg hfits]

theorem answer_ne_destroyed (p : UrlPlatform) (header rest : List UInt8) :
    answer p header rest ≠ .destroyed := by
  unfold answer
  split
  · simp
  · split <;> simp

theorem answer_eq_thrown : answer p header rest = .thrown ↔
    parseRawUpgradeRequest p (utf8Decode header) = none := by
  unfold answer
  split
  · rename_i hnone
    simp [hnone]
  · rename_i hsome
    rw [hsome]
    split <;> simp

theorem onHandshakeData_none (hsmall : pending.length ≤ MAX_RAW_HANDSHAKE_BYTES)
    (hnone : indexOf DELIMITER (pending ++ chunk) = none) :
    onHandshakeData p (.waiting pending) chunk =
      if MAX_RAW_HANDSHAKE_BYTES < (pending ++ chunk).length then .destroyed
      else .waiting (pending ++ chunk) := by
  have hlimits : MAX_RAW_HANDSHAKE_BYTES ≤ MAX_PENDING_RECEIVE_BYTES := by decide
  have hchunk : indexOf DELIMITER chunk = none := by
    cases hsome : indexOf DELIMITER chunk with
    | none => rfl
    | some d =>
      obtain ⟨j, -, hj⟩ := indexOf_append_left hsome pending
      rw [hnone] at hj
      cases hj
  have hover : Overruns pending chunk ↔ MAX_RAW_HANDSHAKE_BYTES < (pending ++ chunk).length := by
    simp only [Overruns, hchunk, List.length_append, true_and, reduceCtorEq, false_and,
      exists_false, or_false]
    omega
  simp only [onHandshakeData, overruns_iff hsmall, hover, hnone]

theorem onHandshakeData_some (hsmall : pending.length ≤ MAX_RAW_HANDSHAKE_BYTES)
    (hsome : indexOf DELIMITER (pending ++ chunk) = some i) :
    (Overruns pending chunk → onHandshakeData p (.waiting pending) chunk = .destroyed) ∧
    (¬ Overruns pending chunk → onHandshakeData p (.waiting pending) chunk =
      answer p ((pending ++ chunk).take i) ((pending ++ chunk).drop (i + 4))) := by
  simp only [onHandshakeData, hsome]
  constructor
  · intro hover
    rw [if_pos ((overruns_iff hsmall).2 hover)]
  · intro hover
    rw [if_neg (mt (overruns_iff hsmall).1 hover)]
    refine finish_eq_answer ?_
    have hfits : ¬ MAX_PENDING_RECEIVE_BYTES < pending.length + chunk.length :=
      fun h => hover (.inl h)
    rw [List.length_drop, List.length_append]
    omega

/-- A header that ends beyond the limit overruns, wherever it is cut. -/
theorem overruns_of_late (hsome : indexOf DELIMITER (pending ++ chunk) = some i)
    (hlate : MAX_RAW_HANDSHAKE_BYTES < i + 4) : Overruns pending chunk := by
  have hle := indexOf_le (by decide) hsome
  cases hchunk : indexOf DELIMITER chunk with
  | none =>
    refine .inr (.inl ⟨hchunk, ?_⟩)
    rw [List.length_append] at hle
    have hfour : DELIMITER.length = 4 := rfl
    omega
  | some d =>
    obtain ⟨j, hj, hfound⟩ := indexOf_append_left hchunk pending
    obtain rfl : i = j := Option.some.inj (hsome.symm.trans hfound)
    exact .inr (.inr ⟨d, hchunk, by omega⟩)

/-! ### All data events -/

theorem foldl_answer (p : UrlPlatform) (header rest : List UInt8) (chunks : List (List UInt8)) :
    chunks.foldl (onHandshakeData p) (answer p header rest) =
      answer p header (rest ++ chunks.flatten) := by
  induction chunks generalizing rest with
  | nil => simp
  | cons chunk chunks ih =>
    have hstep : onHandshakeData p (answer p header rest) chunk = answer p header (rest ++ chunk) := by
      unfold answer
      split
      · rfl
      · split <;> rfl
    rw [List.foldl_cons, hstep, ih, List.flatten_cons, List.append_assoc]

theorem foldl_destroyed (p : UrlPlatform) (chunks : List (List UInt8)) :
    chunks.foldl (onHandshakeData p) .destroyed = .destroyed := by
  induction chunks with
  | nil => rfl
  | cons chunk chunks ih => exact ih

/-- Without a header end the socket waits for more, as long as the limit allows. -/
theorem foldl_waiting_none (hsmall : pending.length ≤ MAX_RAW_HANDSHAKE_BYTES)
    (hnone : indexOf DELIMITER (pending ++ chunks.flatten) = none) :
    chunks.foldl (onHandshakeData p) (.waiting pending) =
      if MAX_RAW_HANDSHAKE_BYTES < (pending ++ chunks.flatten).length then .destroyed
      else .waiting (pending ++ chunks.flatten) := by
  induction chunks generalizing pending with
  | nil =>
    rw [List.flatten_nil, List.append_nil, if_neg (by omega)]
    rfl
  | cons chunk chunks ih =>
    rw [List.flatten_cons, ← List.append_assoc] at hnone
    have hfirst : indexOf DELIMITER (pending ++ chunk) = none := by
      cases hsome : indexOf DELIMITER (pending ++ chunk) with
      | none => rfl
      | some i =>
        rw [indexOf_append (by decide) hsome] at hnone
        cases hnone
    rw [List.foldl_cons, onHandshakeData_none hsmall hfirst, List.flatten_cons,
      ← List.append_assoc]
    split
    · rename_i hlong
      rw [foldl_destroyed, if_pos]
      rw [List.length_append]
      omega
    · rename_i hshort
      exact ih (by omega) hnone

/-- A header end within the limit is found unless its event overruns, and one beyond it is not. -/
theorem foldl_waiting_some (hsmall : pending.length ≤ MAX_RAW_HANDSHAKE_BYTES)
    (hbefore : indexOf DELIMITER pending = none)
    (hsome : indexOf DELIMITER (pending ++ chunks.flatten) = some i) :
    ((MAX_RAW_HANDSHAKE_BYTES < i + 4 ∨ Overrun pending chunks) →
      chunks.foldl (onHandshakeData p) (.waiting pending) = .destroyed) ∧
    (¬ (MAX_RAW_HANDSHAKE_BYTES < i + 4 ∨ Overrun pending chunks) →
      chunks.foldl (onHandshakeData p) (.waiting pending) =
        answer p ((pending ++ chunks.flatten).take i)
          ((pending ++ chunks.flatten).drop (i + 4))) := by
  induction chunks generalizing pending with
  | nil =>
    rw [List.flatten_nil, List.append_nil, hbefore] at hsome
    cases hsome
  | cons chunk chunks ih =>
    rw [List.flatten_cons, ← List.append_assoc] at hsome ⊢
    rw [List.foldl_cons]
    cases hfirst : indexOf DELIMITER (pending ++ chunk) with
    | none =>
      have hover : Overrun pending (chunk :: chunks) ↔ Overrun (pending ++ chunk) chunks := by
        simp [Overrun, hfirst]
      rw [onHandshakeData_none hsmall hfirst, hover]
      split
      · rename_i hlong
        -- so much without a header end leaves it beyond the limit
        have hlate : MAX_RAW_HANDSHAKE_BYTES < i + 4 := by
          by_contra hsoon
          have hfour : DELIMITER.length = 4 := rfl
          have hearly := indexOf_of_append hsome (by omega)
          rw [hfirst] at hearly
          cases hearly
        exact ⟨fun _ => foldl_destroyed p chunks, fun h => absurd (.inl hlate) h⟩
      · rename_i hshort
        exact ih (by omega) hfirst hsome
    | some k =>
      obtain rfl : k = i := by
        rw [indexOf_append (by decide) hfirst] at hsome
        exact Option.some.inj hsome
      have hover : Overrun pending (chunk :: chunks) ↔ Overruns pending chunk := by
        simp [Overrun, hfirst]
      obtain ⟨hdestroyed, hanswer⟩ := onHandshakeData_some (p := p) hsmall hfirst
      have hfour : DELIMITER.length = 4 := rfl
      have hle := indexOf_le (by decide) hfirst
      rw [hover]
      constructor
      · intro h
        rw [hdestroyed (h.elim (overruns_of_late hfirst) id), foldl_destroyed]
      · intro h
        have htake : (pending ++ chunk ++ chunks.flatten).take k = (pending ++ chunk).take k :=
          List.take_append_of_le_length (by omega)
        have hdrop : (pending ++ chunk ++ chunks.flatten).drop (k + 4) =
            (pending ++ chunk).drop (k + 4) ++ chunks.flatten :=
          List.drop_append_of_le_length (by omega)
        rw [hanswer fun ho => h (.inr ho), foldl_answer, htake, hdrop]

/-- The outcome when there is a header end. -/
theorem handleRawSocket_some (p : UrlPlatform) (chunks : List (List UInt8))
    (hsome : indexOf DELIMITER chunks.flatten = some i) :
    ((MAX_RAW_HANDSHAKE_BYTES < i + 4 ∨ Overrun [] chunks) →
      handleRawSocket p chunks = .destroyed) ∧
    (¬ (MAX_RAW_HANDSHAKE_BYTES < i + 4 ∨ Overrun [] chunks) → handleRawSocket p chunks =
      answer p (chunks.flatten.take i) (chunks.flatten.drop (i + 4))) :=
  foldl_waiting_some (by decide) rfl hsome

theorem handleRawSocket_none (hnone : indexOf DELIMITER chunks.flatten = none) :
    handleRawSocket p chunks =
      if MAX_RAW_HANDSHAKE_BYTES < chunks.flatten.length then .destroyed
      else .waiting chunks.flatten :=
  foldl_waiting_none (by decide) hnone

end Handshake

open Handshake

/-- Two ways to cut a stream come to the same, and nothing is thrown, exactly if a header that
ends within the limit overruns in both, or in neither and its URL is one. -/
theorem handshake_ignores_boundaries_iff {p : UrlPlatform} {chunks chunks' : List (List UInt8)}
    (h : chunks.flatten = chunks'.flatten) :
    (handleRawSocket p chunks = handleRawSocket p chunks' ∧
      handleRawSocket p chunks ≠ .thrown ∧ handleRawSocket p chunks' ≠ .thrown) ↔
    ∀ i, indexOf DELIMITER chunks.flatten = some i → i + 4 ≤ MAX_RAW_HANDSHAKE_BYTES →
      (Overrun [] chunks ∧ Overrun [] chunks') ∨
      (¬ Overrun [] chunks ∧ ¬ Overrun [] chunks' ∧
        parseRawUpgradeRequest p (utf8Decode (chunks.flatten.take i)) ≠ none) := by
  cases hfound : indexOf DELIMITER chunks.flatten with
  | none =>
    rw [handleRawSocket_none hfound, handleRawSocket_none (h ▸ hfound), ← h]
    refine iff_of_true ⟨rfl, ?_⟩ (by simp)
    split <;> simp
  | some i =>
    have hfirst := handleRawSocket_some p chunks hfound
    have hsecond := @handleRawSocket_some i p chunks' (h ▸ hfound)
    rw [← h] at hsecond
    simp only [Option.some.injEq, forall_eq']
    by_cases hlate : MAX_RAW_HANDSHAKE_BYTES < i + 4
    · rw [hfirst.1 (.inl hlate), hsecond.1 (.inl hlate)]
      exact iff_of_true ⟨rfl, by simp⟩ fun hsoon => absurd hlate (by omega)
    · have hsoon : i + 4 ≤ MAX_RAW_HANDSHAKE_BYTES := by omega
      have hne := answer_ne_destroyed p (chunks.flatten.take i) (chunks.flatten.drop (i + 4))
      have hthrown := @answer_eq_thrown p (chunks.flatten.take i) (chunks.flatten.drop (i + 4))
      by_cases hover : Overrun [] chunks <;> by_cases hover' : Overrun [] chunks'
      · rw [hfirst.1 (.inr hover), hsecond.1 (.inr hover')]
        simp [hover, hover']
      · rw [hfirst.1 (.inr hover), hsecond.2 (by tauto)]
        simp [hover, hover', hsoon, hne.symm]
      · rw [hfirst.2 (by tauto), hsecond.1 (.inr hover')]
        simp [hover, hover', hsoon, hne]
      · rw [hfirst.2 (by tauto), hsecond.2 (by tauto)]
        simp [hover, hover', hsoon, hthrown]

/-- The URLs of the samples: one with a space in its host is none. -/
def sampleUrls : UrlPlatform where
  toLowerCase := List.map Char.toLower
  searchParam target base name :=
    if ' ' ∈ base then none
    else if target = "/peer?from=a".toList ∧ name = "from".toList then some (some ['a'])
    else some none

/-- A header, but for the last byte of its end. -/
def sampleHeader : List UInt8 :=
  utf8Encode "GET /peer?from=a HTTP/1.1\r\nSec-WebSocket-Key: k\r\n\r".toList

/-- As many bytes of frames as the handshake may have. -/
def sampleFrameBytes : List UInt8 := List.replicate MAX_RAW_HANDSHAKE_BYTES 0

theorem handshake_ignores_boundaries_sample :
    (handleRawSocket sampleUrls [sampleHeader, [0xa]] =
        handleRawSocket sampleUrls [sampleHeader ++ [0xa]] ∧
      handleRawSocket sampleUrls [sampleHeader, [0xa]] ≠ .thrown ∧
      handleRawSocket sampleUrls [sampleHeader ++ [0xa]] ≠ .thrown) ↔
    ∀ i, indexOf DELIMITER [sampleHeader, [0xa]].flatten = some i →
      i + 4 ≤ MAX_RAW_HANDSHAKE_BYTES →
      (Overrun [] [sampleHeader, [0xa]] ∧ Overrun [] [sampleHeader ++ [0xa]]) ∨
      (¬ Overrun [] [sampleHeader, [0xa]] ∧ ¬ Overrun [] [sampleHeader ++ [0xa]] ∧
        parseRawUpgradeRequest sampleUrls
          (utf8Decode ([sampleHeader, [0xa]].flatten.take i)) ≠ none) :=
  handshake_ignores_boundaries_iff (by simp)

/-- The same bytes are accepted when the header end comes in one event and refused room when its
last byte comes with the frames. A host with a space in it is thrown at whoever reads data. -/
theorem handshake_depends_on_boundaries :
    [sampleHeader ++ 0xa :: sampleFrameBytes].flatten =
        [sampleHeader, 0xa :: sampleFrameBytes].flatten ∧
      handleRawSocket sampleUrls [sampleHeader ++ 0xa :: sampleFrameBytes] =
        .accepted ['a'] ['k'] sampleFrameBytes ∧
      handleRawSocket sampleUrls [sampleHeader, 0xa :: sampleFrameBytes] = .destroyed ∧
      handleRawSocket sampleUrls [utf8Encode "GET / HTTP/1.1\r\nHost: a b\r\n\r\n".toList] =
        .thrown := by
  have hheader : indexOf DELIMITER (sampleHeader ++ [0xa]) = some 47 := by decide +kernel
  have hsplit : sampleHeader ++ 0xa :: sampleFrameBytes =
      (sampleHeader ++ [0xa]) ++ sampleFrameBytes := by simp
  have hfound : indexOf DELIMITER (sampleHeader ++ 0xa :: sampleFrameBytes) = some 47 := by
    rw [hsplit]
    exact indexOf_append (by decide) hheader _
  have hbytes : sampleFrameBytes.length = 16384 := List.length_replicate
  have hlength : sampleHeader.length = 50 := by decide +kernel
  refine ⟨by simp, ?_, ?_, by decide +kernel⟩
  · have hnot : ¬ Overrun [] [sampleHeader ++ 0xa :: sampleFrameBytes] := by
      have hlimit : MAX_PENDING_RECEIVE_BYTES = 16777230 := rfl
      have hsmall : MAX_RAW_HANDSHAKE_BYTES = 16384 := rfl
      simp [Overrun, Overruns, hfound, hbytes, hlength, hlimit, hsmall]
    have hanswer := (@handleRawSocket_some 47 sampleUrls
      [sampleHeader ++ 0xa :: sampleFrameBytes] (by simpa using hfound)).2 (by
        rintro (hlate | hover)
        · exact absurd hlate (by decide)
        · exact hnot hover)
    have hparse : parseRawUpgradeRequest sampleUrls (utf8Decode (sampleHeader.take 47)) =
        some (some ['a'], some ['k']) := by decide +kernel
    have htake : [sampleHeader ++ 0xa :: sampleFrameBytes].flatten.take 47 =
        sampleHeader.take 47 := by
      rw [List.flatten_singleton, List.take_append_of_le_length (by omega)]
    have hdrop : [sampleHeader ++ 0xa :: sampleFrameBytes].flatten.drop 51 = sampleFrameBytes := by
      rw [List.flatten_singleton, hsplit, List.drop_left' (by simp [hlength])]
    rw [hanswer, htake, hdrop, answer, hparse]
    rfl
  · have hnone : indexOf DELIMITER (0xa :: sampleFrameBytes) = none :=
      indexOf_eq_none_of_not_mem (by simp [sampleFrameBytes])
    have hfirst : indexOf DELIMITER sampleHeader = none := by decide +kernel
    have hover : Overrun [] [sampleHeader, 0xa :: sampleFrameBytes] := by
      simp only [Overrun, List.nil_append, hfirst, Option.isSome_none, Bool.false_eq_true, if_false,
        hfound, Option.isSome_some, if_true]
      refine .inr (.inl ⟨hnone, ?_⟩)
      rw [List.length_cons, hbytes, hlength]
      decide
    exact (@handleRawSocket_some 47 sampleUrls [sampleHeader, 0xa :: sampleFrameBytes]
      (by simpa using hfound)).1 (.inr hover)

end PonsWarp.Cli
