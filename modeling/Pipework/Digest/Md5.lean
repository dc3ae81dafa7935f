import Pipework.Digest.Padding

/-!
# MD5

`md5` is the digest of a list of bytes, `md5Hex` its lower-case hexadecimal text for the UTF-8
bytes of a string.
-/

namespace Pipework.Digest

namespace Md5

/-- Integer parts of `2^32 |sin i|` for `i` from 1 to 64. -/
def roundConstants : Array UInt32 := #[
  0xd76aa478, 0xe8c7b756, 0x242070db, 0xc1bdceee, 0xf57c0faf, 0x4787c62a,
  0xa8304613, 0xfd469501, 0x698098d8, 0x8b44f7af, 0xffff5bb1, 0x895cd7be,
  0x6b901122, 0xfd987193, 0xa679438e, 0x49b40821, 0xf61e2562, 0xc040b340,
  0x265e5a51, 0xe9b6c7aa, 0xd62f105d, 0x02441453, 0xd8a1e681, 0xe7d3fbc8,
  0x21e1cde6, 0xc33707d6, 0xf4d50d87, 0x455a14ed, 0xa9e3e905, 0xfcefa3f8,
  0x676f02d9, 0x8d2a4c8a, 0xfffa3942, 0x8771f681, 0x6d9d6122, 0xfde5380c,
  0xa4beea44, 0x4bdecfa9, 0xf6bb4b60, 0xbebfbc70, 0x289b7ec6, 0xeaa127fa,
  0xd4ef3085, 0x04881d05, 0xd9d4d039, 0xe6db99e5, 0x1fa27cf8, 0xc4ac5665,
  0xf4292244, 0x432aff97, 0xab9423a7, 0xfc93a039, 0x655b59c3, 0x8f0ccc92,
  0xffeff47d, 0x85845dd1, 0x6fa87e4f, 0xfe2ce6e0, 0xa3014314, 0x4e0811a1,
  0xf7537e82, 0xbd3af235, 0x2ad7d2bb, 0xeb86d391]

/-- The rotation amounts of the four passes, each used in turn. -/
def rotations : Array UInt32 := #[7, 12, 17, 22, 5, 9, 14, 20, 4, 11, 16, 23, 6, 10, 15, 21]

/-- The four words of the chaining value. -/
structure Chain where
  a : UInt32
  b : UInt32
  c : UInt32
  d : UInt32

def start : Chain := ⟨0x67452301, 0xefcdab89, 0x98badcfe, 0x10325476⟩

/-- The mixing function of a pass and the word of the block that its `i`-th round takes. -/
def mix (s : Chain) (i : Nat) : UInt32 × Nat :=
  if i < 16 then ((s.b &&& s.c) ||| (~~~s.b &&& s.d), i)
  else if i < 32 then ((s.d &&& s.b) ||| (~~~s.d &&& s.c), (5 * i + 1) % 16)
  else if i < 48 then (s.b ^^^ s.c ^^^ s.d, (3 * i + 5) % 16)
  else (s.c ^^^ (s.b ||| ~~~s.d), (7 * i) % 16)

def round (block : Array UInt32) (s : Chain) (i : Nat) : Chain :=
  let (f, j) := mix s i
  let sum := s.a + f + roundConstants.getD i 0 + block.getD j 0
  let turned := rotateLeft sum (rotations.getD (i / 16 * 4 + i % 4) 0)
  ⟨s.d, s.b + turned, s.b, s.c⟩

def absorb (s : Chain) (block : Array UInt32) : Chain :=
  let t := (List.range 64).foldl (round block) s
  ⟨s.a + t.a, s.b + t.b, s.c + t.c, s.d + t.d⟩

end Md5

/-- The 16 bytes of the digest. -/
def md5 (message : List UInt8) : List UInt8 :=
  let s := (blocks (ByteOrder.little.words (ByteOrder.little.padded message))).foldl Md5.absorb
    Md5.start
  [s.a, s.b, s.c, s.d].flatMap fun w => ByteOrder.little.bytes 4 w.toNat

def md5Hex (message : String) : String := hex (md5 message.toUTF8.toList)

end Pipework.Digest
