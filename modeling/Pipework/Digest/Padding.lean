/-!
# Padding of hashed messages

Both digests cut a message into blocks of 64 bytes after appending a one bit, zeros and the length
of the message in bits. They differ in the order of bytes inside a word.
-/

namespace Pipework.Digest

/-- Order of the bytes of a word, least or most significant byte first. -/
inductive ByteOrder where
  | little
  | big

/-- The `n` low bytes of a number. -/
def ByteOrder.bytes (order : ByteOrder) (n value : Nat) : List UInt8 :=
  let little := (List.range n).map fun i => UInt8.ofNat (value >>> (8 * i))
  match order with
  | .little => little
  | .big => little.reverse

/-- The 32-bit word of four bytes. -/
def ByteOrder.word (order : ByteOrder) (a b c d : UInt8) : UInt32 :=
  match order with
  | .little => a.toUInt32 ||| b.toUInt32 <<< 8 ||| c.toUInt32 <<< 16 ||| d.toUInt32 <<< 24
  | .big => d.toUInt32 ||| c.toUInt32 <<< 8 ||| b.toUInt32 <<< 16 ||| a.toUInt32 <<< 24

/-- The message followed by a one bit, zeros up to a whole number of blocks, and its length. -/
def ByteOrder.padded (order : ByteOrder) (message : List UInt8) : List UInt8 :=
  let zeros := (119 - message.length % 64) % 64
  message ++ 0x80 :: List.replicate zeros 0 ++ order.bytes 8 (8 * message.length)

/-- The words of a list of bytes; up to three left-over bytes are dropped. -/
def ByteOrder.words (order : ByteOrder) : List UInt8 → List UInt32
  | a :: b :: c :: d :: rest => order.word a b c d :: order.words rest
  | _ => []

/-- Groups of sixteen words, each a block of the message. -/
def blocks (words : List UInt32) : List (Array UInt32) :=
  (List.range (words.length / 16)).map fun i => ((words.drop (16 * i)).take 16).toArray

/-- A word turned left by `n` bits. -/
def rotateLeft (x : UInt32) (n : UInt32) : UInt32 := x <<< n ||| x >>> (32 - n)

/-- A word turned right by `n` bits. -/
def rotateRight (x : UInt32) (n : UInt32) : UInt32 := x >>> n ||| x <<< (32 - n)

/-- Two lower-case hexadecimal digits for each byte. -/
def hex (bytes : List UInt8) : String :=
  String.ofList (bytes.flatMap fun b =>
    [Nat.digitChar (b.toNat / 16), Nat.digitChar (b.toNat % 16)])

end Pipework.Digest
