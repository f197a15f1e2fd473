/-!
# Decoders of compressed files

A document that is stored compressed is had through a decoder.  How it decodes is left open here, but it takes a file
only if the file starts as every compressed one does.
-/
namespace DocQuery.Gzip

def magic : List UInt8 := [0x1f, 0x8b]

def hasMagic (bytes : List UInt8) : Bool :=
  magic.isPrefixOf bytes

/-- **What gives the content of compressed files.** -/
class Decoder where
  decompress? (file : List UInt8) : Option ByteArray
  hasMagic_of_decompress? {file : List UInt8} {out : ByteArray} : decompress? file = some out → hasMagic file = true

export Decoder (decompress? hasMagic_of_decompress?)

end DocQuery.Gzip
