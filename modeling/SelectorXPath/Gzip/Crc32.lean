import SelectorXPath.Text.Basic

namespace SelectorXPath

namespace Gzip

def crcBit (register : UInt32) : UInt32 :=
  if register % 2 = 1 then (register >>> 1) ^^^ 0xEDB88320 else register >>> 1

def crcByte (register : UInt32) (byte : UInt8) : UInt32 :=
  Nat.repeat crcBit 8 (register ^^^ byte.toUInt32)

def crc32 (bytes : Bytes) : UInt32 := bytes.foldl crcByte 0xFFFFFFFF ^^^ 0xFFFFFFFF

end Gzip

end SelectorXPath
