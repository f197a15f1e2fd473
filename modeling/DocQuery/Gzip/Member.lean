import DocQuery.Gzip.Checksum
import DocQuery.Gzip.Decoder
import DocQuery.Gzip.Inflate
/-!
# Compressed files

A member has a header, a compressed stream, and the checksum and the length of what the stream stands for.  Only the
first member of a file counts, and what is behind it is not looked at.
-/
namespace DocQuery.Gzip

def littleEndian (bytes : List UInt8) : Nat :=
  bytes.foldr (fun b n => n * 256 + b.toNat) 0

def skipText (bytes : List UInt8) : Option (List UInt8) :=
  match bytes.dropWhile (· != 0) with
  | _ :: rest => some rest
  | [] => none

def skipExtra (bytes : List UInt8) : Option (List UInt8) :=
  let length := littleEndian (bytes.take 2)
  if bytes.length < 2 || bytes.length < length + 2 then none else some (bytes.drop (length + 2))

def skipHeaderChecksum (member bytes : List UInt8) : Option (List UInt8) :=
  let header := member.take (member.length - bytes.length)
  if bytes.length < 2 || littleEndian (bytes.take 2) ≠ (checksum header).toNat % Nat.pow 2 16 then none
  else some (bytes.drop 2)

def skipHeader (member : List UInt8) : Option (List UInt8) :=
  match member with
  | 0x1f :: 0x8b :: 8 :: flags :: _ :: _ :: _ :: _ :: _ :: _ :: rest => do
    let has (bit : Nat) : Bool := flags.toNat.testBit bit
    if 32 ≤ flags.toNat then none
    else
      let rest ← if has 2 then skipExtra rest else some rest
      let rest ← if has 3 then skipText rest else some rest
      let rest ← if has 4 then skipText rest else some rest
      if has 1 then skipHeaderChecksum member rest else some rest
  | _ => none

/-- What the first member of a file stands for, if the file is sound. -/
def firstMember? (file : List UInt8) : Option ByteArray := do
  let stream ← skipHeader file
  let (out, bits) ← inflate (bitsOf stream)
  let (sum, bits) ← number? 32 (toByte bits)
  let (length, _) ← number? 32 bits
  if sum = (checksum out.toList).toNat && length = out.size % Nat.pow 2 32 then return ⟨out⟩ else none

theorem hasMagic_of_firstMember? {file : List UInt8} {out : ByteArray} (h : firstMember? file = some out) :
    hasMagic file = true := by
  obtain ⟨stream, hstream, -⟩ := Option.bind_eq_some_iff.1 h
  unfold skipHeader at hstream
  split at hstream
  · simp [hasMagic, magic]
  · cases hstream

instance firstMemberDecoder : Decoder where
  decompress? := firstMember?
  hasMagic_of_decompress? := hasMagic_of_firstMember?

end DocQuery.Gzip
