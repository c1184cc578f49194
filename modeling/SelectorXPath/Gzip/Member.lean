import SelectorXPath.Gzip.Crc32
import SelectorXPath.Gzip.Inflate

namespace SelectorXPath

namespace Gzip

def takeBytes (count : Nat) (bytes : Bytes) : Except GzipError (Bytes × Bytes) :=
  if count ≤ bytes.length then .ok (bytes.take count, bytes.drop count) else .error .truncated

def littleEndian (bytes : Bytes) : Nat := bytes.foldr (fun b n => b.toNat + 256 * n) 0

def maxFieldLength : Nat := 65535

def skipZeroEnded : Nat → Bytes → Except GzipError Bytes
  | _, [] => .error .truncated
  | room, b :: rest =>
    if b = 0 then .ok rest
    else match room with
      | 0 => .error .fieldTooLong
      | room + 1 => skipZeroEnded room rest

def skipSized (bytes : Bytes) : Except GzipError Bytes :=
  match takeBytes 2 bytes with
  | .error e => .error e
  | .ok (size, rest) =>
    match takeBytes (littleEndian size) rest with
    | .error e => .error e
    | .ok (_, rest') => .ok rest'

structure HeaderFlags where
  checksum : Bool
  extra : Bool
  name : Bool
  comment : Bool
deriving DecidableEq, Repr

def HeaderFlags.ofByte (b : UInt8) : HeaderFlags where
  checksum := b &&& 0x02 != 0
  extra := b &&& 0x04 != 0
  name := b &&& 0x08 != 0
  comment := b &&& 0x10 != 0

def skipIf (announced : Bool) (skip : Bytes → Except GzipError Bytes) (bytes : Bytes) :
    Except GzipError Bytes :=
  if announced then skip bytes else .ok bytes

/-- Drops the checksum of a header, which is the lower half of the CRC-32 of what stands before it
in the whole stream. -/
def skipHeaderChecksum (whole bytes : Bytes) : Except GzipError Bytes :=
  match takeBytes 2 bytes with
  | .error e => .error e
  | .ok (sum, rest) =>
    if littleEndian sum = (crc32 (whole.take (whole.length - bytes.length))).toNat % 65536 then
      .ok rest
    else .error .checksumMismatch

def skipParts (whole : Bytes) (flags : HeaderFlags) (bytes : Bytes) : Except GzipError Bytes :=
  match skipIf flags.extra skipSized bytes with
  | .error e => .error e
  | .ok afterExtra =>
    match skipIf flags.name (skipZeroEnded maxFieldLength) afterExtra with
    | .error e => .error e
    | .ok afterName =>
      match skipIf flags.comment (skipZeroEnded maxFieldLength) afterName with
      | .error e => .error e
      | .ok afterComment => skipIf flags.checksum (skipHeaderChecksum whole) afterComment

def skipHeader (bytes : Bytes) : Except GzipError Bytes :=
  match takeBytes 10 bytes with
  | .error e => .error e
  | .ok (start, rest) =>
    match start with
    | 0x1F :: 0x8B :: 0x08 :: flags :: _ =>
      if flags &&& 0xE0 = 0 then skipParts bytes (.ofByte flags) rest else .error .invalidHeader
    | _ => .error .invalidHeader

def checkTrailer (contents trailer : Bytes) : Except GzipError Unit :=
  match takeBytes 8 trailer with
  | .error e => .error e
  | .ok (fields, _) =>
    if littleEndian (fields.take 4) = (crc32 contents).toNat ∧
        littleEndian (fields.drop 4) = contents.length % 4294967296 then .ok ()
    else .error .checksumMismatch

def decompress (bytes : Bytes) : Except GzipError Bytes :=
  match skipHeader bytes with
  | .error e => .error e
  | .ok body =>
    match inflate (bitsOf body) with
    | .error e => .error e
    | .ok (out, bits) =>
      match checkTrailer out.toList (body.drop (body.length - bits.length / 8)) with
      | .error e => .error e
      | .ok () => .ok out.toList

end Gzip

end SelectorXPath
