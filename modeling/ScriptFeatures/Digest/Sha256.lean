/-! The digest SHA-256 (FIPS 180-4) of a sequence of bytes.

A message is padded to whole blocks of sixteen words. Each block is expanded to sixty-four words,
and these are mixed one by one into a state of eight words. -/

namespace ScriptFeatures.Digest

/-- The eight words of the state. -/
structure State where
  a : UInt32
  b : UInt32
  c : UInt32
  d : UInt32
  e : UInt32
  f : UInt32
  g : UInt32
  h : UInt32
  deriving DecidableEq, Repr, Inhabited

def State.initial : State :=
  ⟨0x6a09e667, 0xbb67ae85, 0x3c6ef372, 0xa54ff53a, 0x510e527f, 0x9b05688c, 0x1f83d9ab, 0x5be0cd19⟩

def State.words (s : State) : List UInt32 :=
  [s.a, s.b, s.c, s.d, s.e, s.f, s.g, s.h]

def State.add (s t : State) : State :=
  ⟨s.a + t.a, s.b + t.b, s.c + t.c, s.d + t.d, s.e + t.e, s.f + t.f, s.g + t.g, s.h + t.h⟩

def roundConstants : List UInt32 :=
  [0x428a2f98, 0x71374491, 0xb5c0fbcf, 0xe9b5dba5, 0x3956c25b, 0x59f111f1, 0x923f82a4, 0xab1c5ed5,
   0xd807aa98, 0x12835b01, 0x243185be, 0x550c7dc3, 0x72be5d74, 0x80deb1fe, 0x9bdc06a7, 0xc19bf174,
   0xe49b69c1, 0xefbe4786, 0x0fc19dc6, 0x240ca1cc, 0x2de92c6f, 0x4a7484aa, 0x5cb0a9dc, 0x76f988da,
   0x983e5152, 0xa831c66d, 0xb00327c8, 0xbf597fc7, 0xc6e00bf3, 0xd5a79147, 0x06ca6351, 0x14292967,
   0x27b70a85, 0x2e1b2138, 0x4d2c6dfc, 0x53380d13, 0x650a7354, 0x766a0abb, 0x81c2c92e, 0x92722c85,
   0xa2bfe8a1, 0xa81a664b, 0xc24b8b70, 0xc76c51a3, 0xd192e819, 0xd6990624, 0xf40e3585, 0x106aa070,
   0x19a4c116, 0x1e376c08, 0x2748774c, 0x34b0bcb5, 0x391c0cb3, 0x4ed8aa4a, 0x5b9cca4f, 0x682e6ff3,
   0x748f82ee, 0x78a5636f, 0x84c87814, 0x8cc70208, 0x90befffa, 0xa4506ceb, 0xbef9a3f7, 0xc67178f2]

/-- A word rotated to the right. -/
def rotate (x n : UInt32) : UInt32 :=
  (x >>> n) ||| (x <<< (32 - n))

/-- Mixes one word of the expanded block and its constant into the state. -/
def round (s : State) (entry : UInt32 × UInt32) : State :=
  let choice := (s.e &&& s.f) ^^^ (~~~s.e &&& s.g)
  let majority := (s.a &&& s.b) ^^^ (s.a &&& s.c) ^^^ (s.b &&& s.c)
  let t := s.h + (rotate s.e 6 ^^^ rotate s.e 11 ^^^ rotate s.e 25) + choice + entry.1 + entry.2
  let u := (rotate s.a 2 ^^^ rotate s.a 13 ^^^ rotate s.a 22) + majority
  ⟨t + u, s.a, s.b, s.c, s.d + t, s.e, s.f, s.g⟩

/-- Adds `count` words to an expanded block, which is given with its last word first. -/
def expand : Nat → List UInt32 → List UInt32
  | 0, ws => ws
  | count + 1, ws =>
    let x := ws.getD 14 0
    let y := ws.getD 1 0
    let w := (rotate y 17 ^^^ rotate y 19 ^^^ (y >>> 10)) + ws.getD 6 0 +
      (rotate x 7 ^^^ rotate x 18 ^^^ (x >>> 3)) + ws.getD 15 0
    expand count (w :: ws)

/-- Mixes a block of sixteen words into the state. -/
def compress (s : State) (block : List UInt32) : State :=
  let schedule := (expand 48 block.reverse).reverse
  s.add ((schedule.zip roundConstants).foldl round s)

def compressAll (s : State) : Nat → List UInt32 → State
  | 0, _ => s
  | blocks + 1, ws => compressAll (compress s (ws.take 16)) blocks (ws.drop 16)

/-- A natural number as `count` bytes, the most significant first. -/
def bigEndian (count n : Nat) : List UInt8 :=
  (List.range count).reverse.map fun i => (n >>> (8 * i)).toUInt8

/-- A message with a one bit, zeros and its length in bits at its end, so that it fills whole blocks
of 64 bytes. -/
def pad (message : List UInt8) : List UInt8 :=
  let zeros := (119 - message.length % 64) % 64
  message ++ 0x80 :: (List.replicate zeros 0 ++ bigEndian 8 (8 * message.length))

/-- Bytes as words of four, the most significant byte first. -/
def wordsOnto (done : List UInt32) : List UInt8 → List UInt32
  | a :: b :: c :: d :: rest =>
    wordsOnto (((a.toUInt32 <<< 24) ||| (b.toUInt32 <<< 16) ||| (c.toUInt32 <<< 8) ||| d.toUInt32)
      :: done) rest
  | _ => done.reverse

/-- The digest of a message as 64 hexadecimal digits in lower case. -/
def sha256 (message : List UInt8) : String :=
  let words := wordsOnto [] (pad message)
  let final := compressAll .initial (words.length / 16) words
  String.ofList (final.words.flatMap fun w =>
    (List.range 8).reverse.map fun i => Nat.digitChar ((w.toNat >>> (4 * i)) % 16))

end ScriptFeatures.Digest
