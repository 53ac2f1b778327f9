/-
**The digest function SHA-256.**

A computable definition, for the places where a result about an arbitrary digest function is applied
to the one that programs use. The input is padded to blocks of 64 bytes; a block is sixteen words, most
significant byte first, and every round consumes one word of a window that slides along the message
schedule. `hash` gives the 32 bytes of the digest. Nothing is proved about the function here, and nothing
can be assumed about it.
-/

import Exochain.Foundation.Machine

namespace Foundation.Sha256

/-! ### Rounds -/

def rotateRight (word count : UInt32) : UInt32 := (word >>> count) ||| (word <<< (32 - count))

/-- The working state: eight words. -/
structure State where
  a : UInt32
  b : UInt32
  c : UInt32
  d : UInt32
  e : UInt32
  f : UInt32
  g : UInt32
  h : UInt32

/-- The initial state. -/
def initial : State :=
  ⟨0x6a09e667, 0xbb67ae85, 0x3c6ef372, 0xa54ff53a, 0x510e527f, 0x9b05688c, 0x1f83d9ab, 0x5be0cd19⟩

/-- The constants of the sixty-four rounds. -/
def constants : List UInt32 :=
  [
    0x428a2f98, 0x71374491, 0xb5c0fbcf, 0xe9b5dba5, 0x3956c25b, 0x59f111f1,
    0x923f82a4, 0xab1c5ed5, 0xd807aa98, 0x12835b01, 0x243185be, 0x550c7dc3,
    0x72be5d74, 0x80deb1fe, 0x9bdc06a7, 0xc19bf174, 0xe49b69c1, 0xefbe4786,
    0x0fc19dc6, 0x240ca1cc, 0x2de92c6f, 0x4a7484aa, 0x5cb0a9dc, 0x76f988da,
    0x983e5152, 0xa831c66d, 0xb00327c8, 0xbf597fc7, 0xc6e00bf3, 0xd5a79147,
    0x06ca6351, 0x14292967, 0x27b70a85, 0x2e1b2138, 0x4d2c6dfc, 0x53380d13,
    0x650a7354, 0x766a0abb, 0x81c2c92e, 0x92722c85, 0xa2bfe8a1, 0xa81a664b,
    0xc24b8b70, 0xc76c51a3, 0xd192e819, 0xd6990624, 0xf40e3585, 0x106aa070,
    0x19a4c116, 0x1e376c08, 0x2748774c, 0x34b0bcb5, 0x391c0cb3, 0x4ed8aa4a,
    0x5b9cca4f, 0x682e6ff3, 0x748f82ee, 0x78a5636f, 0x84c87814, 0x8cc70208,
    0x90befffa, 0xa4506ceb, 0xbef9a3f7, 0xc67178f2]

/-- One round, with its constant and its word of the schedule. -/
def round (state : State) (constant word : UInt32) : State :=
  let ⟨a, b, c, d, e, f, g, h⟩ := state
  let sum1 := rotateRight e 6 ^^^ rotateRight e 11 ^^^ rotateRight e 25
  let choice := (e &&& f) ^^^ ((~~~ e) &&& g)
  let first := h + sum1 + choice + constant + word
  let sum0 := rotateRight a 2 ^^^ rotateRight a 13 ^^^ rotateRight a 22
  let majority := (a &&& b) ^^^ (a &&& c) ^^^ (b &&& c)
  ⟨first + sum0 + majority, a, b, c, d + first, e, f, g⟩

/-- The window of sixteen words, one word further along the schedule. -/
def slide : List UInt32 → List UInt32
  | [] => []
  | word :: rest =>
    let after1 := rest.getD 0 0
    let after14 := rest.getD 13 0
    let low := rotateRight after1 7 ^^^ rotateRight after1 18 ^^^ (after1 >>> 3)
    let high := rotateRight after14 17 ^^^ rotateRight after14 19 ^^^ (after14 >>> 10)
    rest ++ [word + low + rest.getD 8 0 + high]

/-- The rounds that the constants are left for. -/
def rounds : List UInt32 → State → List UInt32 → State
  | [], state, _ => state
  | constant :: left, state, window =>
    rounds left (round state constant (window.headD 0)) (slide window)

/-- Sixty-four rounds over a block, added to the state they started from. -/
def compress (state : State) (block : List UInt32) : State :=
  let done := rounds constants state block
  ⟨state.a + done.a, state.b + done.b, state.c + done.c, state.d + done.d, state.e + done.e,
    state.f + done.f, state.g + done.g, state.h + done.h⟩

/-! ### From bytes to words and back -/

/-- Four bytes as a word, most significant first. -/
def readWord (bytes : List UInt8) : UInt32 :=
  UInt32.ofNat ((bytes.take 4).foldl (fun above byte => 256 * above + byte.toNat) 0)

/-- The words of a byte string, a given number of them. -/
def readWords : ℕ → List UInt8 → List UInt32
  | 0, _ => []
  | count + 1, bytes => readWord bytes :: readWords count (bytes.drop 4)

/-- The padded input: a set bit, zeros, and the length in bits. -/
def pad (bytes : List UInt8) : List UInt8 :=
  bytes ++ 0x80 :: List.replicate ((119 - bytes.length % 64) % 64) 0 ++
    (leBytes 8 (8 * bytes.length)).reverse

/-- The blocks of a padded input, a given number of them. -/
def absorb : ℕ → State → List UInt8 → State
  | 0, state, _ => state
  | count + 1, state, bytes => absorb count (compress state (readWords 16 bytes)) (bytes.drop 64)

/-- The bytes of a word, most significant first. -/
def wordBytes (word : UInt32) : List UInt8 := (leBytes 4 word.toNat).reverse

/-- The bytes of a state. -/
def State.bytes (state : State) : FixedBytes 32 where
  toList := wordBytes state.a ++ wordBytes state.b ++ wordBytes state.c ++ wordBytes state.d ++
    (wordBytes state.e ++ wordBytes state.f ++ wordBytes state.g ++ wordBytes state.h)
  length_eq := by simp [wordBytes]

/-- The digest of a byte string. -/
def hash (bytes : List UInt8) : FixedBytes 32 :=
  (absorb ((pad bytes).length / 64) initial (pad bytes)).bytes

/-- The digest of the empty string. -/
example : (hash []).toList.reverse = leBytes 32
    0xe3b0c44298fc1c149afbf4c8996fb92427ae41e4649b934ca495991b7852b855 := by decide +kernel

end Foundation.Sha256
