import StromDB.Domain.Coordinate
import StromDB.Lib.Text

namespace StromDB

open Text

def STREAM_PATH_BYTES_MAX : Nat := 512

def CONTENT_TYPE_BYTES_MAX : Nat := 256

inductive StreamPathError where
  | overMaxBytes
  | controlCharacter
  | emptySegment
  | relativeSegment
  | reservedRootSegment
deriving DecidableEq, Repr

def ROOT_SEGMENT_RESERVED : String := "__ds"

def validateSegment (index : Nat) (segment : Chars) : Except StreamPathError Unit :=
  if segment.isEmpty then .error .emptySegment
  else if segment = ".".toList ∨ segment = "..".toList then .error .relativeSegment
  else if index = 0 ∧ segment = ROOT_SEGMENT_RESERVED.toList then .error .reservedRootSegment
  else .ok ()

def validateSegments : Nat → List Chars → Except StreamPathError Unit
  | _, [] => .ok ()
  | index, segment :: rest =>
    match validateSegment index segment with
    | .error error => .error error
    | .ok () => validateSegments (index + 1) rest

def validateStreamPath (path : String) : Except StreamPathError Unit :=
  if byteLength path.toList > STREAM_PATH_BYTES_MAX then .error .overMaxBytes
  else if path.toList.any isControl then .error .controlCharacter
  else validateSegments 0 (splitChar '/' path.toList)

structure StreamPath where
  text : String
  valid : validateStreamPath text = .ok ()
deriving DecidableEq, Repr

namespace StreamPath

def fromStr (path : String) : Except StreamPathError StreamPath :=
  match checked : validateStreamPath path with
  | .ok () => .ok ⟨path, checked⟩
  | .error error => .error error

def bytesLen (path : StreamPath) : Nat := byteLength path.text.toList

theorem text_injective (a b : StreamPath) (same : a.text = b.text) : a = b := by
  cases a
  cases b
  simpa using same

instance : Ord StreamPath := ⟨compareOn StreamPath.text⟩
instance : Std.TransOrd StreamPath := OrdKey.trans_on StreamPath.text
instance : Std.LawfulEqOrd StreamPath := OrdKey.lawful_on text_injective

theorem bytesLen_le (path : StreamPath) : path.bytesLen ≤ STREAM_PATH_BYTES_MAX := by
  have valid := path.valid
  unfold validateStreamPath at valid
  split at valid
  · cases valid
  · rename_i fits
    exact Nat.le_of_not_gt fits

end StreamPath

inductive ContentTypeError where
  | overMaxBytes
  | malformed
  | unsupportedParameter
  | nonCanonical
deriving DecidableEq, Repr

inductive MediaType where
  | octetStream
  | json
  | general (canonical : String)
deriving DecidableEq, Repr

def ESSENCE_OCTET_STREAM : String := "application/octet-stream"

def ESSENCE_JSON : String := "application/json"

def isTokenChar (c : Char) : Bool :=
  ('a' ≤ c && c ≤ 'z') || ('A' ≤ c && c ≤ 'Z') || ('0' ≤ c && c ≤ '9') || "!#$%&'*+-.^_`|~".toList.contains c

def isToken (input : Chars) : Bool := !input.isEmpty && input.all isTokenChar

def MediaType.asStr : MediaType → String
  | .octetStream => ESSENCE_OCTET_STREAM
  | .json => ESSENCE_JSON
  | .general canonical => canonical

def parseParameters : List Chars → Option Chars → Except ContentTypeError (Option Chars)
  | [], charset => .ok charset
  | parameter :: rest, charset =>
    match splitOnce '=' (trim parameter) with
    | none => .error .malformed
    | some (nameRaw, valueRaw) =>
      if !eqIgnoreAsciiCase (trim nameRaw) "charset".toList then .error .unsupportedParameter
      else if !isToken (trim valueRaw) || charset.isSome then .error .malformed
      else parseParameters rest (some (toAsciiLowercase (trim valueRaw)))

def parameterBytes : Option Chars → Nat
  | none => 0
  | some value => byteLength "; charset=".toList + byteLength value

def canonicalSpelling (typeRaw subtypeRaw : Chars) : Option Chars → Chars
  | none => toAsciiLowercase typeRaw ++ '/' :: toAsciiLowercase subtypeRaw
  | some charset =>
    toAsciiLowercase typeRaw ++ '/' :: toAsciiLowercase subtypeRaw ++ "; charset=".toList ++ charset

def finishMediaType (essenceRaw typeRaw subtypeRaw : Chars) (charset : Option Chars) : Except ContentTypeError MediaType :=
  if byteLength essenceRaw + parameterBytes charset > CONTENT_TYPE_BYTES_MAX then .error .overMaxBytes
  else if charset.isNone ∧ eqIgnoreAsciiCase essenceRaw ESSENCE_OCTET_STREAM.toList then .ok .octetStream
  else if charset.isNone ∧ eqIgnoreAsciiCase essenceRaw ESSENCE_JSON.toList then .ok .json
  else .ok (.general (String.ofList (canonicalSpelling typeRaw subtypeRaw charset)))

def parseParts (essenceRaw : Chars) (parameters : List Chars) : Except ContentTypeError MediaType :=
  match splitOnce '/' essenceRaw with
  | none => .error .malformed
  | some (typeRaw, subtypeRaw) =>
    if !isToken typeRaw || !isToken subtypeRaw then .error .malformed
    else
      match parseParameters parameters none with
      | .error error => .error error
      | .ok charset => finishMediaType essenceRaw typeRaw subtypeRaw charset

def parseMediaType (input : String) : Except ContentTypeError MediaType :=
  if byteLength input.toList > CONTENT_TYPE_BYTES_MAX then .error .overMaxBytes
  else
    match splitChar ';' input.toList with
    | [] => .error .malformed -- str::split yields at least one part
    | first :: parameters => parseParts (trim first) parameters

structure StreamContentType where
  media : MediaType
  parsed : ∃ input, parseMediaType input = .ok media

instance : DecidableEq StreamContentType := fun a b =>
  decidable_of_iff (a.media = b.media) (by
    cases a
    cases b
    simp)

namespace StreamContentType

def octetStream : StreamContentType := ⟨.octetStream, ESSENCE_OCTET_STREAM, by decide⟩

def asStr (contentType : StreamContentType) : String := contentType.media.asStr

def fromStr (input : String) : Except ContentTypeError StreamContentType :=
  match parsed : parseMediaType input with
  | .ok media => .ok ⟨media, input, parsed⟩
  | .error error => .error error

end StreamContentType

theorem byteLength_canonicalSpelling (typeRaw subtypeRaw : Chars) (charset : Option Chars) :
    byteLength (canonicalSpelling typeRaw subtypeRaw charset) =
      byteLength (typeRaw ++ '/' :: subtypeRaw) + parameterBytes charset := by
  cases charset with
  | none => simp [canonicalSpelling, parameterBytes, byteLength_toAsciiLowercase]
  | some value =>
    simp only [canonicalSpelling, parameterBytes, byteLength_append, byteLength_cons, byteLength_toAsciiLowercase]
    omega

theorem finishMediaType_bytes {essenceRaw typeRaw subtypeRaw : Chars} {charset : Option Chars} {media : MediaType}
    (essence : essenceRaw = typeRaw ++ '/' :: subtypeRaw)
    (finished : finishMediaType essenceRaw typeRaw subtypeRaw charset = .ok media) :
    byteLength media.asStr.toList ≤ CONTENT_TYPE_BYTES_MAX := by
  unfold finishMediaType at finished
  split at finished
  · cases finished
  rename_i fits
  split at finished
  · cases finished
    decide
  split at finished
  · cases finished
    decide
  cases finished
  simp only [MediaType.asStr, String.toList_ofList, byteLength_canonicalSpelling, ← essence]
  exact Nat.le_of_not_gt fits

theorem parseParts_bytes {essenceRaw : Chars} {parameters : List Chars} {media : MediaType}
    (parsed : parseParts essenceRaw parameters = .ok media) : byteLength media.asStr.toList ≤ CONTENT_TYPE_BYTES_MAX := by
  unfold parseParts at parsed
  split at parsed
  · cases parsed
  rename_i typeRaw subtypeRaw once
  split at parsed
  · cases parsed
  split at parsed
  · cases parsed
  exact finishMediaType_bytes (splitOnce_eq_some once) parsed

theorem StreamContentType.bytesLen_le (contentType : StreamContentType) :
    byteLength contentType.asStr.toList ≤ CONTENT_TYPE_BYTES_MAX := by
  obtain ⟨media, input, parsed⟩ := contentType
  unfold parseMediaType at parsed
  split at parsed
  · cases parsed
  split at parsed
  · cases parsed
  exact parseParts_bytes parsed

inductive StreamLifecycle where
  | opened
  | closed
deriving DecidableEq, Repr

def StreamLifecycle.isClosed : StreamLifecycle → Bool
  | .opened => false
  | .closed => true

-- The timestamps of jiff, and the law of its two conversions: a timestamp is
-- its number of nanoseconds since the Unix epoch.
class Jiff where
  Timestamp : Type
  decEq : DecidableEq Timestamp
  asNanosecond : Timestamp → Int
  fromNanosecond : Int → Option Timestamp
  fromNanosecond_eq_some : ∀ nanosecond timestamp, fromNanosecond nanosecond = some timestamp ↔ nanosecond = asNanosecond timestamp

attribute [reducible, instance] Jiff.decEq

variable [Jiff]

structure ExpiresAt where
  timestamp : Jiff.Timestamp
deriving DecidableEq

def ExpiresAt.nanosecond (expiresAt : ExpiresAt) : Int := Jiff.asNanosecond expiresAt.timestamp

inductive ExpiryPolicy where
  | none
  | slidingTtl (seconds : NonZeroU64)
  | absoluteExpiry (expiresAt : ExpiresAt)
deriving DecidableEq

inductive CreateOutcome where
  | created
  | alreadyExists
deriving DecidableEq, Repr

inductive CloseStreamOutcome where
  | closed
  | alreadyClosed
deriving DecidableEq, Repr

end StromDB
