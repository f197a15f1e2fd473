/-!
# Decompression

A compressed stream is a sequence of bits, the lowest of each byte first.  It holds blocks: bytes as they are, or
symbols in a prefix code, each of which is a byte, the end of the block, or a distance and a length by which earlier
output is repeated.  The code of a block is fixed or is given by the lengths of its codewords.
-/
namespace DocQuery.Gzip

def bitsOf (bytes : List UInt8) : List Bool :=
  bytes.flatMap fun b => (List.range 8).map fun i => b.toNat.testBit i

def number? : Nat → List Bool → Option (Nat × List Bool)
  | 0, bits => some (0, bits)
  | _ + 1, [] => none
  | n + 1, b :: bits => (number? n bits).map fun (value, rest) => (2 * value + b.toNat, rest)

/-- The bits from the next whole byte on.  The bits still to come tell how many of a byte are left. -/
def toByte (bits : List Bool) : List Bool :=
  bits.drop (bits.length % 8)

/-! ## Prefix codes -/

/-- **A prefix code**: how many codewords there are of each length from one on, and the symbols in the order of their
codewords. -/
structure Code where
  counts : List Nat
  symbols : Array Nat

def longestCodeword : Nat := 15

/-- The code with given codeword lengths; symbols of length zero have none.  A code with several words must be
complete. -/
def Code.ofLengths? (lengths : List Nat) : Option Code :=
  let counts := (List.range longestCodeword).map fun n => lengths.count (n + 1)
  let space := counts.foldl (fun space count => 2 * (space + count)) 0
  let symbols := (List.range longestCodeword).flatMap fun n =>
    (lengths.zipIdx.filter fun entry => entry.1 == n + 1).map Prod.snd
  if space ≠ Nat.pow 2 (longestCodeword + 1) && symbols.length > 1 then none else some ⟨counts, symbols.toArray⟩

/-- The symbol of the next codeword.  `word` holds the bits read so far, `first` is the first codeword of their
length plus one bit, and `index` the number of symbols with shorter codewords. -/
def Code.symbolFrom (code : Code) (word first index : Nat) : List Nat → List Bool → Option (Nat × List Bool)
  | [], _ => none
  | _ :: _, [] => none
  | count :: counts, b :: bits =>
    let word := 2 * word + b.toNat
    if word < first + count then
      if first ≤ word then code.symbols[index + (word - first)]?.map (·, bits) else none
    else code.symbolFrom word (2 * (first + count)) (index + count) counts bits

def Code.symbol? (code : Code) (bits : List Bool) : Option (Nat × List Bool) :=
  code.symbolFrom 0 0 0 code.counts bits

/-! ## Repeated output -/

def lengthTable : List (Nat × Nat) :=
  [(3, 0), (4, 0), (5, 0), (6, 0), (7, 0), (8, 0), (9, 0), (10, 0), (11, 1), (13, 1), (15, 1), (17, 1), (19, 2),
    (23, 2), (27, 2), (31, 2), (35, 3), (43, 3), (51, 3), (59, 3), (67, 4), (83, 4), (99, 4), (115, 4), (131, 5),
    (163, 5), (195, 5), (227, 5), (258, 0)]

def distanceTable : List (Nat × Nat) :=
  [(1, 0), (2, 0), (3, 0), (4, 0), (5, 1), (7, 1), (9, 2), (13, 2), (17, 3), (25, 3), (33, 4), (49, 4), (65, 5),
    (97, 5), (129, 6), (193, 6), (257, 7), (385, 7), (513, 8), (769, 8), (1025, 9), (1537, 9), (2049, 10),
    (3073, 10), (4097, 11), (6145, 11), (8193, 12), (12289, 12), (16385, 13), (24577, 13)]

def tableNumber? (table : List (Nat × Nat)) (symbol : Nat) (bits : List Bool) : Option (Nat × List Bool) := do
  let (base, extra) ← table[symbol]?
  let (more, bits) ← number? extra bits
  return (base + more, bits)

/-- Output with bytes from a distance back repeated.  The copy may run into what it has itself written. -/
def copyBack (distance : Nat) : Nat → Array UInt8 → Option (Array UInt8)
  | 0, out => some out
  | n + 1, out =>
    if distance ≤ out.size then
      match out[out.size - distance]? with
      | some b => copyBack distance n (out.push b)
      | none => none
    else none

/-! ## Blocks -/

/-- The output after a block of symbols.  `fuel` bounds the number of symbols; each takes at least one bit. -/
def symbols (literals distances : Code) : Nat → Array UInt8 → List Bool → Option (Array UInt8 × List Bool)
  | 0, _, _ => none
  | fuel + 1, out, bits => do
    let (symbol, bits) ← literals.symbol? bits
    if symbol < 256 then symbols literals distances fuel (out.push (UInt8.ofNat symbol)) bits
    else if symbol = 256 then return (out, bits)
    else
      let (length, bits) ← tableNumber? lengthTable (symbol - 257) bits
      let (distanceSymbol, bits) ← distances.symbol? bits
      let (distance, bits) ← tableNumber? distanceTable distanceSymbol bits
      symbols literals distances fuel (← copyBack distance length out) bits

def stored (out : Array UInt8) (bits : List Bool) : Option (Array UInt8 × List Bool) := do
  let (length, bits) ← number? 16 (toByte bits)
  let (complement, bits) ← number? 16 bits
  if length + complement ≠ Nat.pow 2 16 - 1 then none
  else bytes length out bits
where
  /-- The output after the given number of whole bytes. -/
  bytes : Nat → Array UInt8 → List Bool → Option (Array UInt8 × List Bool)
    | 0, out, bits => some (out, bits)
    | n + 1, out, bits => do
      let (b, bits) ← number? 8 bits
      bytes n (out.push (UInt8.ofNat b)) bits

def fixedLengths : List Nat :=
  List.replicate 144 8 ++ List.replicate 112 9 ++ List.replicate 24 7 ++ List.replicate 8 8

/-- The order in which the lengths of the code of lengths are given. -/
def lengthOrder : List Nat :=
  [16, 17, 18, 0, 8, 7, 9, 6, 10, 5, 11, 4, 12, 3, 13, 2, 14, 1, 15]

/-- Codeword lengths, until there are as many as wanted, from the last to the first: given one by one, or as a
repetition of the last length or of zero. -/
def lengths (code : Code) (wanted : Nat) : Nat → List Nat → List Bool → Option (List Nat × List Bool)
  | 0, _, _ => none
  | fuel + 1, found, bits =>
    if found.length = wanted then some (found, bits)
    else if wanted < found.length then none
    else do
      let (symbol, bits) ← code.symbol? bits
      if symbol < 16 then lengths code wanted fuel (symbol :: found) bits
      else if symbol = 16 then
        let last ← found.head?
        let (n, bits) ← number? 2 bits
        lengths code wanted fuel (List.replicate (n + 3) last ++ found) bits
      else if symbol = 17 then
        let (n, bits) ← number? 3 bits
        lengths code wanted fuel (List.replicate (n + 3) 0 ++ found) bits
      else
        let (n, bits) ← number? 7 bits
        lengths code wanted fuel (List.replicate (n + 11) 0 ++ found) bits

def smallLengths : Nat → List Bool → Option (List Nat × List Bool)
  | 0, bits => some ([], bits)
  | n + 1, bits => do
    let (length, bits) ← number? 3 bits
    let (rest, bits) ← smallLengths n bits
    return (length :: rest, bits)

def ownCodes (bits : List Bool) : Option (Code × Code × List Bool) := do
  let (literalCount, bits) ← number? 5 bits
  let (distanceCount, bits) ← number? 5 bits
  let (lengthCount, bits) ← number? 4 bits
  let literalCount := literalCount + 257
  let distanceCount := distanceCount + 1
  if 286 < literalCount || 30 < distanceCount then none
  else
    let (given, bits) ← smallLengths (lengthCount + 4) bits
    let named := lengthOrder.zip given
    let code ← Code.ofLengths? ((List.range 19).map fun symbol => (named.lookup symbol).getD 0)
    let wanted := literalCount + distanceCount
    let (found, bits) ← lengths code wanted (wanted + 1) [] bits
    let all := found.reverse
    return (← Code.ofLengths? (all.take literalCount), ← Code.ofLengths? (all.drop literalCount), bits)

/-- The output after all blocks.  `fuel` bounds their number; each takes at least three bits. -/
def blocks : Nat → Array UInt8 → List Bool → Option (Array UInt8 × List Bool)
  | 0, _, _ => none
  | fuel + 1, out, bits => do
    let (last, bits) ← number? 1 bits
    let (kind, bits) ← number? 2 bits
    let (out, bits) ← match kind with
      | 0 => stored out bits
      | 1 => do
        let literals ← Code.ofLengths? fixedLengths
        let distances ← Code.ofLengths? (List.replicate 32 5)
        symbols literals distances bits.length out bits
      | 2 => do
        let (literals, distances, bits) ← ownCodes bits
        symbols literals distances bits.length out bits
      | _ => none
    if last = 1 then return (out, bits) else blocks fuel out bits

def inflate (bits : List Bool) : Option (Array UInt8 × List Bool) :=
  blocks bits.length #[] bits

end DocQuery.Gzip
