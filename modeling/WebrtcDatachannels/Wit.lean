import Mathlib.Tactic.Common

/-!
# The shared WIT types

The structural types of `wit/webrtc.wit` that both implementations exchange with their guests, and
the two conversions between bytes and strings that the sources take from the Rust standard library.
A payload is a list of bytes; a `string` is a Lean `String`, which like a WIT `string` holds valid
UTF-8 only.
-/

namespace WebrtcDatachannels

/-- A byte payload. -/
abbrev Bytes := List UInt8

/-- `types.error`. -/
inductive Error where
  | closed
  | timedOut
  | invalidSignaling (reason : String)
  | receivingViaStream
  | receiveBufferOverflow
  | other (reason : String)
deriving DecidableEq, Repr

/-- `types.message`. -/
inductive Message where
  | binary (data : Bytes)
  | string (text : String)
deriving DecidableEq, Repr

/-- `types.message-kind`. -/
inductive MessageKind where
  | binary
  | string
deriving DecidableEq, Repr

/-- `types.stream-message`, with the bytes its payload stream carries. -/
structure StreamMessage where
  kind : MessageKind
  length : Nat
  data : Bytes
deriving DecidableEq, Repr

/-- `types.send-via-stream-error`. -/
structure SendViaStreamError where
  error : Error
  sent : Nat
deriving DecidableEq, Repr

/-- `types.ice-candidate`. -/
structure IceCandidate where
  candidate : String
  sdpMid : Option String
  sdpMlineIndex : Option Nat
deriving DecidableEq, Repr

/-! ## Strings and bytes -/

/-- `String::from_utf8`: the string with these bytes, when they are valid UTF-8. -/
def fromUtf8 (data : Bytes) : Option String := String.fromUTF8? ⟨data.toArray⟩

/-- `String::into_bytes`. -/
def intoBytes (text : String) : Bytes := text.toUTF8.toList

/-- The byte continues a UTF-8 sequence. -/
def isCont (b : UInt8) : Bool := b &&& 0xC0 == 0x80

/-- The range of the second byte of a three-byte or four-byte UTF-8 sequence, by its first byte. -/
def secondRange (b : UInt8) : UInt8 × UInt8 :=
  if b == 0xE0 then (0xA0, 0xBF)
  else if b == 0xED then (0x80, 0x9F)
  else if b == 0xF0 then (0x90, 0xBF)
  else if b == 0xF4 then (0x80, 0x8F)
  else (0x80, 0xBF)

/-- The low six bits of a continuation byte. -/
def contBits (b : UInt8) : Nat := (b &&& 0x3F).toNat

/-- The first character of a byte sequence, or `none` when it starts with an invalid sequence, and
the bytes after it. An invalid sequence is the longest prefix of a valid one, or a single byte. -/
def utf8Step (b : UInt8) (rest : Bytes) : Option Char × Bytes :=
  let inRange (c : UInt8) : Bool := (secondRange b).1 ≤ c && c ≤ (secondRange b).2
  if b < 0x80 then (some (Char.ofNat b.toNat), rest)
  else if 0xC2 ≤ b && b ≤ 0xDF then
    match rest with
    | c :: rest' =>
      if isCont c then (some (Char.ofNat ((b &&& 0x1F).toNat * 64 + contBits c)), rest')
      else (none, rest)
    | [] => (none, [])
  else if 0xE0 ≤ b && b ≤ 0xEF then
    match rest with
    | c :: d :: rest' =>
      if !inRange c then (none, rest)
      else if !isCont d then (none, d :: rest')
      else (some (Char.ofNat (((b &&& 0x0F).toNat * 64 + contBits c) * 64 + contBits d)), rest')
    | [c] => if inRange c then (none, []) else (none, rest)
    | [] => (none, [])
  else if 0xF0 ≤ b && b ≤ 0xF4 then
    match rest with
    | c :: d :: e :: rest' =>
      if !inRange c then (none, rest)
      else if !isCont d then (none, d :: e :: rest')
      else if !isCont e then (none, e :: rest')
      else
        (some (Char.ofNat ((((b &&& 0x07).toNat * 64 + contBits c) * 64 + contBits d) * 64 +
          contBits e)), rest')
    | [c, d] => if !inRange c then (none, rest) else if isCont d then (none, []) else (none, [d])
    | [c] => if inRange c then (none, []) else (none, rest)
    | [] => (none, [])
  else (none, rest)

/-- The characters of `fromUtf8Lossy`; each step consumes a byte, so the length is enough fuel. -/
def lossyChars : Nat → Bytes → List Char
  | 0, _ => []
  | _ + 1, [] => []
  | fuel + 1, b :: rest =>
    ((utf8Step b rest).1.getD '\uFFFD') :: lossyChars fuel (utf8Step b rest).2

/-- The text of `Utf8Error` for the first invalid sequence of the data from `index` on; each step
consumes a byte, so the length is enough fuel. A sequence that the end of the data cuts off is
incomplete, any other is invalid. -/
def utf8ErrorFrom : Nat → Nat → Bytes → String
  | 0, _, _ => ""
  | _ + 1, _, [] => ""
  | fuel + 1, index, b :: rest =>
    let after := (utf8Step b rest).2
    let len := rest.length + 1 - after.length
    match (utf8Step b rest).1 with
    | some _ => utf8ErrorFrom fuel (index + len) after
    | none =>
      if after.isEmpty && 0xC2 ≤ b && b ≤ 0xF4 then
        "incomplete utf-8 byte sequence from index " ++ toString index
      else
        "invalid utf-8 sequence of " ++ toString len ++ " bytes from index " ++ toString index

/-- `FromUtf8Error::to_string` of data that is not valid UTF-8. -/
def utf8Error (data : Bytes) : String := utf8ErrorFrom data.length 0 data

/-- `String::from_utf8_lossy`: each invalid sequence becomes U+FFFD. -/
def fromUtf8Lossy (data : Bytes) : String := String.ofList (lossyChars data.length data)

end WebrtcDatachannels
