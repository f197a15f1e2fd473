/-!
# The checksum of a compressed member

The cyclic redundancy check of thirty-two bits with the reversed polynomial `0xEDB88320`, taken bit by bit.
-/
namespace DocQuery.Gzip

def checksumBit (register : UInt32) : UInt32 :=
  if register &&& 1 = 1 then (register >>> 1) ^^^ 0xEDB88320 else register >>> 1

def checksumByte (register : UInt32) (byte : UInt8) : UInt32 :=
  Nat.repeat checksumBit 8 (register ^^^ byte.toUInt32)

def checksum (bytes : List UInt8) : UInt32 :=
  bytes.foldl checksumByte 0xFFFFFFFF ^^^ 0xFFFFFFFF

end DocQuery.Gzip
