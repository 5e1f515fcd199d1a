import PonsWarp.Cli.ShareIdentity
import PonsWarp.Data.UriComponent

set_option autoImplicit false

/-!
Share codes: the two ways to make one, the links that carry one, and the two parsers that
take it out again. A code has eight characters; the command line shows it with a dash in
the middle, the web application without.
-/

namespace PonsWarp.ShareCodes

open PonsWarp.Cli PonsWarp.Data

/-- What stands before the path in a URL. -/
structure UrlOrigin where
  scheme : List Char
  authority : Option (List Char)
  scheme_plain : '/' ∉ scheme
  authority_plain : ∀ a, authority = some a → '/' ∉ a

def UrlOrigin.text (o : UrlOrigin) : List Char :=
  o.scheme ++ ':' :: match o.authority with
    | none => []
    | some a => '/' :: '/' :: a

/-- What the language gives: the upper case of a character, which is the usual one for ASCII, and
the URL of a text, of which only the part before the path is looked at. -/
structure Platform where
  upper : Char → List Char
  newUrl : List Char → Option UrlOrigin
  sha256 : List UInt8 → Vector UInt8 32
  ascii : ∀ c : Char, c.toNat < 128 → upper c = [c.toUpper]

def isSpace (c : Char) : Bool :=
  c.toNat ∈ [0x9, 0xa, 0xb, 0xc, 0xd, 0x20, 0xa0, 0x1680, 0x2028, 0x2029, 0x202f, 0x205f, 0x3000,
    0xfeff] || (0x2000 ≤ c.toNat && c.toNat ≤ 0x200a)

def trim (text : List Char) : List Char :=
  ((text.dropWhile isSpace).reverse.dropWhile isSpace).reverse

/-- The class `[A-Z0-9]`. -/
def isCodeChar (c : Char) : Bool := c.isUpper || c.isDigit

/-- The class `[A-Z0-9-]` where the case is ignored. -/
def isGroupChar (c : Char) : Bool := c.isAlphanum || c = '-'

def CODE_CHARS : List Char := "ABCDEFGHJKLMNPQRSTUVWXYZ23456789".toList

/-- The `draws` are those of `Math.random`. -/
def createShareCode (draws : Vector (Fin 32) 8) : List Char :=
  draws.toList.map fun i => CODE_CHARS.getD i.val 'A'

def dashed (word : List Char) : List Char := word.take 4 ++ '-' :: word.drop 4

/-- The pattern `[A-Z0-9]{4}-[A-Z0-9]{4}` where the case is ignored. -/
def isDashed (text : List Char) : Bool :=
  text.length = 9 && (text.take 4).all Char.isAlphanum && text[4]? = some '-' &&
    (text.drop 5).all Char.isAlphanum

def stripSlash (base : List Char) : List Char :=
  if base.getLast? = some '/' then base.dropLast else base

def normalizeCoordinator (coordinator : List Char) : List Char :=
  if coordinator.getLast? = some '/' then coordinator else coordinator ++ ['/']

/-- The beginning of a text that is taken for `literal` where the case is ignored, taken off. -/
def afterLiteral : List Char → List Char → Option (List Char)
  | [], text => some text
  | _ :: _, [] => none
  | x :: literal, c :: text =>
    if x.toLower = c.toLower then afterLiteral literal text else none

/-- The group `([A-Z0-9-]{4,16})`, which takes what it can. -/
def group (text : List Char) : Option (List Char) :=
  let taken := (text.takeWhile isGroupChar).take 16
  if taken.length < 4 then none else some taken

def PATH_LITERALS : List (List Char) :=
  ["#/get/".toList, "/get/".toList, "ponswarp://get/".toList]

def groupAt (text : List Char) : Option (List Char) :=
  PATH_LITERALS.findSome? fun literal => (afterLiteral literal text).bind group

/-- The group of the first match of the pattern for links, which is one of the literals and then the
group; what the pattern goes on with may be empty. -/
def pathMatch : List Char → Option (List Char)
  | [] => none
  | c :: text => (groupAt (c :: text)).or (pathMatch text)

namespace Platform

variable (p : Platform)

def normalizeCode (text : List Char) : List Char := (text.flatMap p.upper).filter isCodeChar

def dryRunShareCode (fileId : List Char) : List Char :=
  dashed (((hex (p.sha256 (utf8Encode fileId)).toList).take 8).flatMap p.upper)

def shareLink (coordinator code : List Char) : Option (List Char) :=
  (p.newUrl (normalizeCoordinator coordinator)).map fun origin =>
    origin.text ++ "/get/".toList ++ code

/-- The link of the server, which has put the code into its registry. -/
def serverLink (publicBaseUrl code sessionId : List Char) : List Char :=
  stripSlash publicBaseUrl ++ "/#/get/".toList ++ encodeURIComponent (p.normalizeCode code) ++
    "?session=".toList ++ encodeURIComponent sessionId

/-- `parseShareCode` of the command line. Its pattern ends with `$`, so what it captures are the
last nine characters. -/
def cliParseShareCode (value : List Char) : List Char :=
  let trimmed := trim value
  let last := trimmed.drop (trimmed.length - 9)
  if isDashed last then last.flatMap p.upper else []

def isBare (text : List Char) : Bool :=
  isDashed text || (text.length = 8 && text.all Char.isAlphanum)

/-- The end of `parseShareCode` of the web application: a bare code, or the last segment. -/
def bareOrSegment (trimmed : List Char) : List Char :=
  let bare := if isBare trimmed then p.normalizeCode trimmed else []
  if bare.length = 8 then bare
  else
    let segments := (trimmed.splitOnP fun c => c = '/' || c = '?' || c = '#').filter (· ≠ [])
    let normalized := p.normalizeCode (segments.getLastD [])
    if normalized.length = 8 then normalized else []

/-- `parseShareCode` of the web application. -/
def webParseShareCode (value : List Char) : List Char :=
  let trimmed := trim value
  if trimmed = [] then []
  else
    match pathMatch trimmed with
    | none => p.bareOrSegment trimmed
    | some captured =>
      let normalized := p.normalizeCode captured
      if normalized.length = 8 then normalized else p.bareOrSegment trimmed

/-- The codes that the two commands make. -/
inductive Produced : List Char → Prop
  | web (draws : Vector (Fin 32) 8) : Produced (createShareCode draws)
  | cli (fileId : List Char) : Produced (p.dryRunShareCode fileId)

end Platform

/-- The forms that a code is emitted in. -/
inductive Form
  | plain
  | shareLink (coordinator : List Char)
  | serverLink (publicBaseUrl sessionId : List Char)

def Form.emit (p : Platform) (code : List Char) : Form → Option (List Char)
  | .plain => some code
  | .shareLink coordinator => p.shareLink coordinator code
  | .serverLink publicBaseUrl sessionId => some (p.serverLink publicBaseUrl code sessionId)

/-- Both parsers take a code out of the text, and it is the same one for the registry. -/
structure Agrees (p : Platform) (code text : List Char) : Prop where
  cli : p.cliParseShareCode text ≠ [] ∧
    p.normalizeCode (p.cliParseShareCode text) = p.normalizeCode code
  web : p.webParseShareCode text ≠ [] ∧
    p.normalizeCode (p.webParseShareCode text) = p.normalizeCode code

/-- When a form is understood everywhere: the code has its dash, and a link of the server ends with
the code once more and has no other one in front. -/
def Understood (p : Platform) (code : List Char) : Form → Prop
  | .plain => '-' ∈ code
  | .shareLink coordinator => '-' ∈ code ∨ p.newUrl (normalizeCoordinator coordinator) = none
  | .serverLink publicBaseUrl sessionId =>
    (∀ captured, pathMatch (stripSlash publicBaseUrl) = some captured →
      p.normalizeCode captured = p.normalizeCode code) ∧
    ∃ front last, encodeURIComponent sessionId = front ++ last ∧
      last.map Char.toUpper = dashed (p.normalizeCode code)

end PonsWarp.ShareCodes
