/-
**`exo-core` — what the CBOR writer writes.**

`hash_structured` hands its value to a CBOR writer of another crate. The results take the writer as a
parameter; this is the format it writes, for the places where a concrete one is needed. An item starts
with a head, the major type and an argument in its shortest form. A structure is a map from the names
of its fields, a variant without fields its name, a fixed array of bytes an array of numbers.
-/

import Exochain.Foundation.Codes
import Exochain.Core.Hash

namespace Exochain.ExoCore.Cbor

open Foundation

/-- The head of an item. -/
def head (major argument : ℕ) : List UInt8 :=
  let initial (info : ℕ) : UInt8 := UInt8.ofNat (32 * major + info)
  if argument < 24 then [initial argument]
  else if argument < 2 ^ 8 then initial 24 :: (leBytes 1 argument).reverse
  else if argument < 2 ^ 16 then initial 25 :: (leBytes 2 argument).reverse
  else if argument < 2 ^ 32 then initial 26 :: (leBytes 4 argument).reverse
  else initial 27 :: (leBytes 8 argument).reverse

/-- A number. -/
def unsigned (n : ℕ) : List UInt8 := head 0 n

/-- A byte string. -/
def bytes (string : List UInt8) : List UInt8 := head 2 string.length ++ string

/-- A text. -/
def text (string : String) : List UInt8 := head 3 (textBytes string).length ++ textBytes string

/-- A fixed array of bytes. -/
def array {width : ℕ} (fixed : FixedBytes width) : List UInt8 :=
  head 4 width ++ fixed.toList.flatMap fun byte => unsigned byte.toNat

/-- A structure, from its fields in their order. -/
def map (fields : List (String × List UInt8)) : List UInt8 :=
  head 5 fields.length ++ fields.flatMap fun field => text field.1 ++ field.2

/-- A variant with fields: a map of one entry, from the name of the variant. -/
def variant (name : String) (fields : List (String × List UInt8)) : List UInt8 :=
  map [(name, map fields)]

/-- The structure with `a` equal to 42 and `b` equal to `hello`. -/
example : map [("a", unsigned 42), ("b", text "hello")] =
    [0xa2, 0x61, 0x61, 0x18, 0x2a, 0x61, 0x62, 0x65, 0x68, 0x65, 0x6c, 0x6c, 0x6f] := by decide +kernel

end Exochain.ExoCore.Cbor
