/-
# The 64-bit xxHash digest

A seeded digest of a string of bytes, all arithmetic modulo `2 ^ 64`.  The bytes
are cut into little-endian words of eight (`words`).  Texts of 32 bytes or more
are absorbed four words at a time into four lanes (`Lanes.absorb`), which are
then merged; shorter texts start from the seed alone.  The words, the half word
and the bytes left over follow one by one, and `avalanche` spreads every bit of
the result.
-/

namespace CallResolution
namespace XXHash64

def prime1 : UInt64 := 0x9e3779b185ebca87
def prime2 : UInt64 := 0xc2b2ae3d27d4eb4f
def prime3 : UInt64 := 0x165667b19e3779f9
def prime4 : UInt64 := 0x85ebca77c2b2ae63
def prime5 : UInt64 := 0x27d4eb2f165667c5

/-- Rotation toward the high end by `k` bits, `0 < k < 64`. -/
def rotateLeft (x k : UInt64) : UInt64 := (x <<< k) ||| (x >>> (64 - k))

/-- The number that the bytes write, least significant first. -/
def littleEndian : List UInt8 → UInt64
  | [] => 0
  | b :: bs => b.toUInt64 ||| (littleEndian bs <<< 8)

/-- The bytes as words of eight, and the fewer than eight bytes left over. -/
def words : List UInt8 → List UInt64 × List UInt8
  | a :: b :: c :: d :: e :: f :: g :: h :: rest =>
    let (ws, tail) := words rest
    (littleEndian [a, b, c, d, e, f, g, h] :: ws, tail)
  | tail => ([], tail)

/-- One word absorbed into a lane. -/
def round (lane word : UInt64) : UInt64 := rotateLeft (lane + word * prime2) 31 * prime1

/-- The four accumulators of a text of 32 bytes or more. -/
structure Lanes where
  first : UInt64
  second : UInt64
  third : UInt64
  fourth : UInt64

namespace Lanes

def ofSeed (seed : UInt64) : Lanes :=
  ⟨seed + prime1 + prime2, seed + prime2, seed, seed - prime1⟩

/-- Absorbs the words four at a time; the fewer than four left over come back. -/
def absorb (lanes : Lanes) : List UInt64 → Lanes × List UInt64
  | a :: b :: c :: d :: rest =>
    absorb ⟨round lanes.first a, round lanes.second b, round lanes.third c,
      round lanes.fourth d⟩ rest
  | rest => (lanes, rest)

/-- The lanes rotated apart and added, then mixed in once more, one after the other. -/
def merge (lanes : Lanes) : UInt64 :=
  let sum := rotateLeft lanes.first 1 + rotateLeft lanes.second 7 + rotateLeft lanes.third 12 +
    rotateLeft lanes.fourth 18
  [lanes.first, lanes.second, lanes.third, lanes.fourth].foldl
    (fun acc lane => (acc ^^^ round 0 lane) * prime1 + prime4) sum

end Lanes

def mixWord (acc word : UInt64) : UInt64 :=
  rotateLeft (acc ^^^ round 0 word) 27 * prime1 + prime4

def mixHalfWord (acc half : UInt64) : UInt64 :=
  rotateLeft (acc ^^^ half * prime1) 23 * prime2 + prime3

def mixByte (acc : UInt64) (byte : UInt8) : UInt64 :=
  rotateLeft (acc ^^^ byte.toUInt64 * prime5) 11 * prime1

/-- Mixes in fewer than eight bytes: four of them as a half word if there are as
many, the others singly. -/
def mixTail (acc : UInt64) : List UInt8 → UInt64
  | a :: b :: c :: d :: rest => rest.foldl mixByte (mixHalfWord acc (littleEndian [a, b, c, d]))
  | rest => rest.foldl mixByte acc

/-- The last step, after which each bit of the input bears on each bit of the digest. -/
def avalanche (x : UInt64) : UInt64 :=
  let x := (x ^^^ (x >>> 33)) * prime2
  let x := (x ^^^ (x >>> 29)) * prime3
  x ^^^ (x >>> 32)

/-- The digest of `bytes` under `seed`. -/
def digest (seed : UInt64) (bytes : List UInt8) : UInt64 :=
  let (ws, tail) := words bytes
  let (start, ws) :=
    if bytes.length < 32 then (seed + prime5, ws)
    else
      let (lanes, ws) := (Lanes.ofSeed seed).absorb ws
      (lanes.merge, ws)
  avalanche (mixTail (ws.foldl mixWord (start + UInt64.ofNat bytes.length)) tail)

/-- The digest of a text is that of its UTF-8 bytes. -/
def digestText (seed : UInt64) (text : String) : UInt64 := digest seed text.toUTF8.data.toList

end XXHash64
end CallResolution
