import Nteract.Lib.Bytes

namespace Nteract.Lib.Sha256

open Nteract.Lib.Bytes

-- Words are natural numbers below 2 ^ 32.
def WORD : Nat := 2 ^ 32

def ROUND_CONSTANTS : List Nat :=
  [0x428a2f98, 0x71374491, 0xb5c0fbcf, 0xe9b5dba5, 0x3956c25b, 0x59f111f1, 0x923f82a4, 0xab1c5ed5,
   0xd807aa98, 0x12835b01, 0x243185be, 0x550c7dc3, 0x72be5d74, 0x80deb1fe, 0x9bdc06a7, 0xc19bf174,
   0xe49b69c1, 0xefbe4786, 0x0fc19dc6, 0x240ca1cc, 0x2de92c6f, 0x4a7484aa, 0x5cb0a9dc, 0x76f988da,
   0x983e5152, 0xa831c66d, 0xb00327c8, 0xbf597fc7, 0xc6e00bf3, 0xd5a79147, 0x06ca6351, 0x14292967,
   0x27b70a85, 0x2e1b2138, 0x4d2c6dfc, 0x53380d13, 0x650a7354, 0x766a0abb, 0x81c2c92e, 0x92722c85,
   0xa2bfe8a1, 0xa81a664b, 0xc24b8b70, 0xc76c51a3, 0xd192e819, 0xd6990624, 0xf40e3585, 0x106aa070,
   0x19a4c116, 0x1e376c08, 0x2748774c, 0x34b0bcb5, 0x391c0cb3, 0x4ed8aa4a, 0x5b9cca4f, 0x682e6ff3,
   0x748f82ee, 0x78a5636f, 0x84c87814, 0x8cc70208, 0x90befffa, 0xa4506ceb, 0xbef9a3f7, 0xc67178f2]

def INITIAL_STATE : List Nat :=
  [0x6a09e667, 0xbb67ae85, 0x3c6ef372, 0xa54ff53a, 0x510e527f, 0x9b05688c, 0x1f83d9ab, 0x5be0cd19]

def rotateRight (count word : Nat) : Nat :=
  (word >>> count ||| word <<< (32 - count)) % WORD

def smallSigma0 (word : Nat) : Nat := rotateRight 7 word ^^^ rotateRight 18 word ^^^ (word >>> 3)
def smallSigma1 (word : Nat) : Nat := rotateRight 17 word ^^^ rotateRight 19 word ^^^ (word >>> 10)
def bigSigma0 (word : Nat) : Nat := rotateRight 2 word ^^^ rotateRight 13 word ^^^ rotateRight 22 word
def bigSigma1 (word : Nat) : Nat := rotateRight 6 word ^^^ rotateRight 11 word ^^^ rotateRight 25 word
def choose (x y z : Nat) : Nat := (x &&& y) ^^^ ((WORD - 1 - x) &&& z)
def majority (x y z : Nat) : Nat := (x &&& y) ^^^ (x &&& z) ^^^ (y &&& z)

-- The schedule is kept newest word first.
def expand : Nat → List Nat → List Nat
  | 0, words => words
  | count + 1, words =>
    expand count ((smallSigma1 (words.getD 1 0) + words.getD 6 0 +
      smallSigma0 (words.getD 14 0) + words.getD 15 0) % WORD :: words)

def round : List Nat → Nat × Nat → List Nat
  | [a, b, c, d, e, f, g, h], (constant, word) =>
    let first := h + bigSigma1 e + choose e f g + constant + word
    let second := bigSigma0 a + majority a b c
    [(first + second) % WORD, a, b, c, (d + first) % WORD, e, f, g]
  | state, _ => state

def beNat (bytes : List UInt8) : Nat := bytes.foldl (fun acc byte => acc * 256 + byte.toNat) 0

def wordsOf : Nat → List UInt8 → List Nat
  | 0, _ => []
  | count + 1, bytes => beNat (bytes.take 4) :: wordsOf count (bytes.drop 4)

def compress (state : List Nat) (block : List UInt8) : List Nat :=
  let schedule := (expand 48 (wordsOf 16 block).reverse).reverse
  List.zipWith (fun before after => (before + after) % WORD) state
    ((ROUND_CONSTANTS.zip schedule).foldl round state)

def blocks : Nat → List UInt8 → List (List UInt8)
  | 0, _ => []
  | count + 1, bytes => bytes.take 64 :: blocks count (bytes.drop 64)

-- One marker bit, zeros up to eight bytes short of a block, then the bit length.
def pad (message : List UInt8) : List UInt8 :=
  message ++ [0x80] ++ List.replicate ((119 - message.length % 64) % 64) 0 ++
    (leBytes 8 (8 * message.length)).reverse

@[irreducible] def sha256 (message : List UInt8) : Digest :=
  let padded := pad message
  let words := (blocks (padded.length / 64) padded).foldl compress INITIAL_STATE
  Fin.ofNat (2 ^ 256) (words.foldl (fun acc word => acc * WORD + word) 0)

-- The digest of "abc" published with the algorithm.
example : sha256 [0x61, 0x62, 0x63] =
    0xba7816bf8f01cfea414140de5dae2223b00361a396177a9cb410ff61f20015ad := by
  decide +kernel

end Nteract.Lib.Sha256
