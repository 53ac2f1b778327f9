/-
**The digest function BLAKE3.**

A computable definition, for the places where a result about an arbitrary digest function is applied
to the one that programs use. The input is cut into chunks of 1024 bytes, a chunk into blocks of 64;
the blocks of a chunk are chained by `compress`, and the chunks are the leaves of a binary tree
whose left subtrees are as large as a power of two allows.

Words are 32 bits wide and wrap around. Sixteen of them make a `Block`, written as four rows of four:
a message block and the state of `compress` both have this shape. `hash` gives the 32 bytes of the
unkeyed digest. Nothing is proved about the function here, and nothing can be assumed about it.
-/

import Exochain.Foundation.Machine

namespace Foundation.Blake3

/-! ### Compression -/

/-- Four words. -/
structure Row where
  w0 : UInt32
  w1 : UInt32
  w2 : UInt32
  w3 : UInt32

/-- Sixteen words, row by row. -/
structure Block where
  r0 : Row
  r1 : Row
  r2 : Row
  r3 : Row

/-- Eight words: what one compression hands to the next. -/
structure ChainingValue where
  low : Row
  high : Row

def rotateRight (word count : UInt32) : UInt32 := (word >>> count) ||| (word <<< (32 - count))

/-- The mixing function on four words of the state and two of the message. -/
def mix (a b c d x y : UInt32) : Row :=
  let a := a + b + x
  let d := rotateRight (d ^^^ a) 16
  let c := c + d
  let b := rotateRight (b ^^^ c) 12
  let a := a + b + y
  let d := rotateRight (d ^^^ a) 8
  let c := c + d
  let b := rotateRight (b ^^^ c) 7
  ⟨a, b, c, d⟩

/-- One round: the columns of the state, then its diagonals. -/
def round (state message : Block) : Block :=
  let ⟨s0, s1, s2, s3⟩ := state
  let ⟨m0, m1, m2, m3⟩ := message
  let c0 := mix s0.w0 s1.w0 s2.w0 s3.w0 m0.w0 m0.w1
  let c1 := mix s0.w1 s1.w1 s2.w1 s3.w1 m0.w2 m0.w3
  let c2 := mix s0.w2 s1.w2 s2.w2 s3.w2 m1.w0 m1.w1
  let c3 := mix s0.w3 s1.w3 s2.w3 s3.w3 m1.w2 m1.w3
  let d0 := mix c0.w0 c1.w1 c2.w2 c3.w3 m2.w0 m2.w1
  let d1 := mix c1.w0 c2.w1 c3.w2 c0.w3 m2.w2 m2.w3
  let d2 := mix c2.w0 c3.w1 c0.w2 c1.w3 m3.w0 m3.w1
  let d3 := mix c3.w0 c0.w1 c1.w2 c2.w3 m3.w2 m3.w3
  { r0 := ⟨d0.w0, d1.w0, d2.w0, d3.w0⟩
    r1 := ⟨d3.w1, d0.w1, d1.w1, d2.w1⟩
    r2 := ⟨d2.w2, d3.w2, d0.w2, d1.w2⟩
    r3 := ⟨d1.w3, d2.w3, d3.w3, d0.w3⟩ }

/-- The order of the message words in the next round. -/
def permute (message : Block) : Block :=
  let ⟨m0, m1, m2, m3⟩ := message
  { r0 := ⟨m0.w2, m1.w2, m0.w3, m2.w2⟩
    r1 := ⟨m1.w3, m0.w0, m1.w0, m3.w1⟩
    r2 := ⟨m0.w1, m2.w3, m3.w0, m1.w1⟩
    r3 := ⟨m2.w1, m3.w2, m3.w3, m2.w0⟩ }

def rounds : ℕ → Block → Block → Block
  | 0, state, _ => state
  | count + 1, state, message => rounds count (round state message) (permute message)

/-- The initial chaining value. -/
def iv : ChainingValue :=
  { low := ⟨0x6A09E667, 0xBB67AE85, 0x3C6EF372, 0xA54FF53A⟩
    high := ⟨0x510E527F, 0x9B05688C, 0x1F83D9AB, 0x5BE0CD19⟩ }

def xorRow (first second : Row) : Row :=
  ⟨first.w0 ^^^ second.w0, first.w1 ^^^ second.w1, first.w2 ^^^ second.w2, first.w3 ^^^ second.w3⟩

/-- Seven rounds over the chaining value, the counter, the block length and the flags. -/
def compress (cv : ChainingValue) (message : Block) (counter : UInt64) (blockLen flags : UInt32) :
    ChainingValue :=
  let start : Block :=
    ⟨cv.low, cv.high, iv.low, ⟨counter.toUInt32, (counter >>> 32).toUInt32, blockLen, flags⟩⟩
  let done := rounds 7 start message
  ⟨xorRow done.r0 done.r2, xorRow done.r1 done.r3⟩

/-! ### From bytes to words and back -/

/-- The first four bytes as a word, least significant first; missing bytes are zero. -/
def readWord (bytes : List UInt8) : UInt32 :=
  UInt32.ofNat ((bytes.take 4).foldr (fun byte above => byte.toNat + 256 * above) 0)

def readRow (bytes : List UInt8) : Row :=
  ⟨readWord bytes, readWord (bytes.drop 4), readWord (bytes.drop 8), readWord (bytes.drop 12)⟩

def readBlock (bytes : List UInt8) : Block :=
  ⟨readRow bytes, readRow (bytes.drop 16), readRow (bytes.drop 32), readRow (bytes.drop 48)⟩

def Row.bytes (row : Row) : List UInt8 :=
  leBytes 4 row.w0.toNat ++ leBytes 4 row.w1.toNat ++
    (leBytes 4 row.w2.toNat ++ leBytes 4 row.w3.toNat)

theorem Row.length_bytes (row : Row) : row.bytes.length = 16 := by
  simp only [bytes, List.length_append, length_leBytes]

/-- The bytes of a chaining value. -/
def ChainingValue.bytes (cv : ChainingValue) : FixedBytes 32 where
  toList := cv.low.bytes ++ cv.high.bytes
  length_eq := by rw [List.length_append, Row.length_bytes, Row.length_bytes]

/-! ### Chunks and the tree over them -/

def chunkStart : UInt32 := 1
def chunkEnd : UInt32 := 2
def parentNode : UInt32 := 4
def rootNode : UInt32 := 8

/-- The chained blocks of a chunk. The first block carries `first`, the last one `last`. -/
def chunk (counter : UInt64) (last : UInt32) :
    ℕ → UInt32 → ChainingValue → List UInt8 → ChainingValue
  | 0, _, cv, _ => cv
  | blocks + 1, first, cv, bytes =>
    if bytes.length ≤ 64 then
      compress cv (readBlock bytes) counter (UInt32.ofNat bytes.length) (first ||| last)
    else
      chunk counter last blocks 0 (compress cv (readBlock (bytes.take 64)) counter 64 first)
        (bytes.drop 64)

/-- The tree over the chunks, with a bound on its depth. The root carries the flag `root`. -/
def tree : ℕ → UInt64 → UInt32 → List UInt8 → ChainingValue
  | 0, _, _, _ => iv
  | depth + 1, counter, root, bytes =>
    if bytes.length ≤ 1024 then chunk counter (chunkEnd ||| root) 16 chunkStart iv bytes
    else
      let leftChunks := 2 ^ Nat.log2 ((bytes.length - 1) / 1024)
      let left := tree depth counter 0 (bytes.take (1024 * leftChunks))
      let right := tree depth (counter + UInt64.ofNat leftChunks) 0
        (bytes.drop (1024 * leftChunks))
      compress iv ⟨left.low, left.high, right.low, right.high⟩ 0 64 (parentNode ||| root)

/-- The digest of a byte string. -/
def hash (bytes : List UInt8) : FixedBytes 32 :=
  (tree (bytes.length + 1) 0 rootNode bytes).bytes

/-- The digest of the empty string. -/
example : (hash []).toList = leBytes 32
    0x62321fe4ca939accb712c1adc925cb9b49c9dc36ea4d40a0a6a1f9f5b94913af := by decide +kernel

end Foundation.Blake3
