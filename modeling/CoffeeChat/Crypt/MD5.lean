import CoffeeChat.Base.Buffer
import CoffeeChat.Crypt.RFC1321

/-!
# The class `MD5`

`crypt/md5.h` and `crypt/md5.cpp`. The class keeps its words in `ulong`, which is
`unsigned long`: 32 bits wide in the data model ILP32 and 64 in LP64, that of the macOS and Linux
targets. The model takes the data model as a parameter and computes with words of that width, as
the code does, so that it shows which bits a rotation brings down.

Accesses to the buffer, the padding and the input are checked, and so is that the one loop of
`update` ends.
-/

namespace CoffeeChat

open Lib RFC1321

/-! ## Words -/

/-- How wide `unsigned long` and `size_t` are. -/
inductive DataModel where
  | ilp32
  | lp64
  deriving DecidableEq, Repr

/-- The bits of a `ulong`. -/
def DataModel.width : DataModel → Nat
  | .ilp32 => 32
  | .lp64 => 64

/-- `sizeof(ulong)`. -/
def DataModel.sizeofUlong (m : DataModel) : Nat := m.width / 8

/-- `ulong`. -/
abbrev Ulong (m : DataModel) := BitVec m.width

namespace MD5

def S11 : Nat := 7
def S12 : Nat := 12
def S13 : Nat := 17
def S14 : Nat := 22
def S21 : Nat := 5
def S22 : Nat := 9
def S23 : Nat := 14
def S24 : Nat := 20
def S31 : Nat := 4
def S32 : Nat := 11
def S33 : Nat := 16
def S34 : Nat := 23
def S41 : Nat := 6
def S42 : Nat := 10
def S43 : Nat := 15
def S44 : Nat := 21

section Macros

variable {w : Nat}

def F (x y z : BitVec w) : BitVec w := x &&& y ||| ~~~x &&& z
def G (x y z : BitVec w) : BitVec w := x &&& z ||| y &&& ~~~z
def H (x y z : BitVec w) : BitVec w := x ^^^ y ^^^ z
def I (x y z : BitVec w) : BitVec w := y ^^^ (x ||| ~~~z)

/-- `ROTATE_LEFT(x, n)`. -/
def ROTATE_LEFT (x : BitVec w) (n : Nat) : BitVec w := x <<< n ||| x >>> (32 - n)

/-- The basic function a macro calls. -/
def basic : Round → BitVec w → BitVec w → BitVec w → BitVec w
  | .F => F
  | .G => G
  | .H => H
  | .I => I

/-- The three assignments that `FF`, `GG`, `HH` and `II` expand to. -/
def execute (x : Nat → BitVec w) (v : Words w) (o : Operation) : Words w :=
  let v := v.set o.a (v.get o.a +
    (basic o.round (v.get o.b) (v.get o.c) (v.get o.d) + x o.k + o.t.setWidth w))
  let v := v.set o.a (ROTATE_LEFT (v.get o.a) o.s)
  v.set o.a (v.get o.a + v.get o.b)

end Macros

/-! The statements `FF (a, b, c, d, x[k], s, ac)` and so on, from `a` to `ac`. -/

def FF : Var → Var → Var → Var → Nat → Nat → BitVec 32 → Operation := .mk .F
def GG : Var → Var → Var → Var → Nat → Nat → BitVec 32 → Operation := .mk .G
def HH : Var → Var → Var → Var → Nat → Nat → BitVec 32 → Operation := .mk .H
def II : Var → Var → Var → Var → Nat → Nat → BitVec 32 → Operation := .mk .I

/-- The 64 statements of `transform`. -/
def statements : List Operation := [
  FF .a .b .c .d 0 S11 0xd76aa478,
  FF .d .a .b .c 1 S12 0xe8c7b756,
  FF .c .d .a .b 2 S13 0x242070db,
  FF .b .c .d .a 3 S14 0xc1bdceee,
  FF .a .b .c .d 4 S11 0xf57c0faf,
  FF .d .a .b .c 5 S12 0x4787c62a,
  FF .c .d .a .b 6 S13 0xa8304613,
  FF .b .c .d .a 7 S14 0xfd469501,
  FF .a .b .c .d 8 S11 0x698098d8,
  FF .d .a .b .c 9 S12 0x8b44f7af,
  FF .c .d .a .b 10 S13 0xffff5bb1,
  FF .b .c .d .a 11 S14 0x895cd7be,
  FF .a .b .c .d 12 S11 0x6b901122,
  FF .d .a .b .c 13 S12 0xfd987193,
  FF .c .d .a .b 14 S13 0xa679438e,
  FF .b .c .d .a 15 S14 0x49b40821,
  GG .a .b .c .d 1 S21 0xf61e2562,
  GG .d .a .b .c 6 S22 0xc040b340,
  GG .c .d .a .b 11 S23 0x265e5a51,
  GG .b .c .d .a 0 S24 0xe9b6c7aa,
  GG .a .b .c .d 5 S21 0xd62f105d,
  GG .d .a .b .c 10 S22 0x2441453,
  GG .c .d .a .b 15 S23 0xd8a1e681,
  GG .b .c .d .a 4 S24 0xe7d3fbc8,
  GG .a .b .c .d 9 S21 0x21e1cde6,
  GG .d .a .b .c 14 S22 0xc33707d6,
  GG .c .d .a .b 3 S23 0xf4d50d87,
  GG .b .c .d .a 8 S24 0x455a14ed,
  GG .a .b .c .d 13 S21 0xa9e3e905,
  GG .d .a .b .c 2 S22 0xfcefa3f8,
  GG .c .d .a .b 7 S23 0x676f02d9,
  GG .b .c .d .a 12 S24 0x8d2a4c8a,
  HH .a .b .c .d 5 S31 0xfffa3942,
  HH .d .a .b .c 8 S32 0x8771f681,
  HH .c .d .a .b 11 S33 0x6d9d6122,
  HH .b .c .d .a 14 S34 0xfde5380c,
  HH .a .b .c .d 1 S31 0xa4beea44,
  HH .d .a .b .c 4 S32 0x4bdecfa9,
  HH .c .d .a .b 7 S33 0xf6bb4b60,
  HH .b .c .d .a 10 S34 0xbebfbc70,
  HH .a .b .c .d 13 S31 0x289b7ec6,
  HH .d .a .b .c 0 S32 0xeaa127fa,
  HH .c .d .a .b 3 S33 0xd4ef3085,
  HH .b .c .d .a 6 S34 0x4881d05,
  HH .a .b .c .d 9 S31 0xd9d4d039,
  HH .d .a .b .c 12 S32 0xe6db99e5,
  HH .c .d .a .b 15 S33 0x1fa27cf8,
  HH .b .c .d .a 2 S34 0xc4ac5665,
  II .a .b .c .d 0 S41 0xf4292244,
  II .d .a .b .c 7 S42 0x432aff97,
  II .c .d .a .b 14 S43 0xab9423a7,
  II .b .c .d .a 5 S44 0xfc93a039,
  II .a .b .c .d 12 S41 0x655b59c3,
  II .d .a .b .c 3 S42 0x8f0ccc92,
  II .c .d .a .b 10 S43 0xffeff47d,
  II .b .c .d .a 1 S44 0x85845dd1,
  II .a .b .c .d 8 S41 0x6fa87e4f,
  II .d .a .b .c 15 S42 0xfe2ce6e0,
  II .c .d .a .b 6 S43 0xa3014314,
  II .b .c .d .a 13 S44 0x4e0811a1,
  II .a .b .c .d 4 S41 0xf7537e82,
  II .d .a .b .c 11 S42 0xbd3af235,
  II .c .d .a .b 2 S43 0x2ad7d2bb,
  II .b .c .d .a 9 S44 0xeb86d391]

/-- Byte `j` of a block as a word. -/
def byteAt {w : Nat} (input : Bytes) (j : Nat) : BitVec w :=
  BitVec.ofNat w (input.getD j 0).toNat

/-- `decode(input, output, 64)`: the word `output[i]`. -/
def decode {w : Nat} (input : Bytes) (i : Nat) : BitVec w :=
  byteAt input (4 * i) ||| byteAt input (4 * i + 1) <<< 8 ||| byteAt input (4 * i + 2) <<< 16 |||
    byteAt input (4 * i + 3) <<< 24

/-- `transform(block)`, as a function of `_state`. -/
def transform {w : Nat} (state : Words w) (block : Bytes) : Words w :=
  state.add (statements.foldl (execute (decode block)) state)

/-- The four bytes that `encode` makes of a word. -/
def encodeWord {w : Nat} (x : BitVec w) : Bytes :=
  [UInt8.ofNat (x &&& 0xff).toNat, UInt8.ofNat (x >>> 8 &&& 0xff).toNat,
    UInt8.ofNat (x >>> 16 &&& 0xff).toNat, UInt8.ofNat (x >>> 24 &&& 0xff).toNat]

/-- `encode(input, output, length)`. -/
def encode {w : Nat} (input : List (BitVec w)) (length : Nat) : Bytes :=
  (input.take (length / 4)).flatMap encodeWord

/-- `PADDING`. -/
def PADDING : Bytes := 0x80 :: List.replicate 63 0

/-- `HEX`. -/
def HEX : List Char :=
  ['0', '1', '2', '3', '4', '5', '6', '7', '8', '9', 'a', 'b', 'c', 'd', 'e', 'f']

/-- `bytesToHexString(input, length)`. -/
def bytesToHexString (input : Bytes) : List Char :=
  input.flatMap fun t ↦ [HEX.getD (t.toNat / 16) '0', HEX.getD (t.toNat % 16) '0']

end MD5

/-! ## The object -/

/-- The members of `MD5`. -/
structure MD5 (m : DataModel) where
  state : Words m.width
  count0 : Ulong m
  count1 : Ulong m
  buffer : Bytes
  digestBytes : Bytes
  finished : Bool
  buffer_length : buffer.length = 64
  deriving DecidableEq

namespace MD5

variable {m : DataModel}

/-- An object over memory that happens to be zero. -/
def zeroed (m : DataModel) : MD5 m where
  state := ⟨0, 0, 0, 0⟩
  count0 := 0
  count1 := 0
  buffer := List.replicate 64 0
  digestBytes := List.replicate 16 0
  finished := false
  buffer_length := rfl

/-- `reset()`. The constructor of an object calls it on members that are not initialized. -/
def reset (o : MD5 m) : MD5 m :=
  { o with
    finished := false, count0 := 0, count1 := 0
    state := ⟨0x67452301, 0xefcdab89, 0x98badcfe, 0x10325476⟩ }

/-- `memcpy(&_buffer[index], d, n)`. -/
def writeBuffer (o : MD5 m) (index : Nat) (d : Bytes) : Result (MD5 m) :=
  if h : index + d.length ≤ o.buffer.length then
    .ok { o with
      buffer := o.buffer.take index ++ d ++ o.buffer.drop (index + d.length)
      buffer_length := (length_overwrite h).trans o.buffer_length }
  else .error .outOfBounds

/-- The number of bytes in `_buffer`, `(_count[0] >> 3) & 0x3f`. -/
def index (o : MD5 m) : Nat := (o.count0 >>> 3 &&& 0x3f).toNat

/-- `for (i = partLen; i + 63 < length; i += 64) transform(&input[i])`. -/
def transformLoop (m : DataModel) (input : Bytes) :
    Nat → Words m.width → Nat → Result (Words m.width × Nat)
  | 0, _, _ => .error .notTerminated
  | fuel + 1, state, i =>
    -- the sums of the loop wrap around in `ulong`
    if (i + 63) % 2 ^ m.width < input.length then do
      let block ← load input i 64
      transformLoop m input fuel (transform state block) ((i + 64) % 2 ^ m.width)
    else .ok (state, i)

/-- `update(input, length)`. -/
def update (o : MD5 m) (input : Bytes) : Result (MD5 m) := do
  let length : Ulong m := BitVec.ofNat m.width input.length
  let index := o.index
  let count0 := o.count0 + length <<< 3
  -- the sum is below a summand when it has carried
  let count1 := if count0 < length <<< 3 then o.count1 + 1 else o.count1
  let count1 := count1 + length >>> 29
  let o := { o with finished := false, count0, count1 }
  let partLen := 64 - index
  let (o, index, i) ←
    if input.length ≥ partLen then do
      let part ← load input 0 partLen
      let o ← o.writeBuffer index part
      let (state, i) ← transformLoop m input (input.length + 1) (transform o.state o.buffer) partLen
      pure ({ o with state }, 0, i)
    else pure (o, index, 0)
  let rest ← load input i (input.length - i)
  o.writeBuffer index rest

/-- `memcpy(dst, src, n)` on arrays of four `ulong`. -/
def memcpyWords (dst src : Words m.width) (n : Nat) : Words m.width where
  a := if m.sizeofUlong ≤ n then src.a else dst.a
  b := if 2 * m.sizeofUlong ≤ n then src.b else dst.b
  c := if 3 * m.sizeofUlong ≤ n then src.c else dst.c
  d := if 4 * m.sizeofUlong ≤ n then src.d else dst.d

/-- The length of the padding up to 56 bytes modulo 64. -/
def padLen (o : MD5 m) : Nat := if o.index < 56 then 56 - o.index else 120 - o.index

/-- `final()`. The members it saves are restored as far as its two `memcpy` reach. -/
def final (o : MD5 m) : Result (MD5 m) := do
  -- the counts are encoded before the padding is counted
  let bits := encode [o.count0, o.count1] 8
  let padding ← load PADDING 0 o.padLen
  let padded ← o.update padding
  let ended ← padded.update bits
  return { ended with
    digestBytes := encode [ended.state.a, ended.state.b, ended.state.c, ended.state.d] 16
    state := memcpyWords ended.state o.state 16
    count0 := if m.sizeofUlong ≤ 8 then o.count0 else ended.count0
    count1 := if 2 * m.sizeofUlong ≤ 8 then o.count1 else ended.count1 }

/-- `digest()`. -/
def digest (o : MD5 m) : Result (Bytes × MD5 m) := do
  let o ← if o.finished then pure o else final { o with finished := true }
  return (o.digestBytes, o)

/-- `toString()`. -/
def toString (o : MD5 m) : Result (List Char × MD5 m) := do
  let (digest, o) ← o.digest
  return (bytesToHexString digest, o)

/-- `MD5 md; md.update(s); md.toString()`, with the object built over the given memory. -/
def hash (memory : MD5 m) (s : Bytes) : Result (List Char) := do
  let o ← memory.reset.update s
  let (str, _) ← o.toString
  return str

end MD5

/-- An argument of `update`: an object in memory is smaller than half the address space. -/
structure Input (m : DataModel) where
  bytes : Bytes
  length_lt : bytes.length < 2 ^ (m.width - 1)

end CoffeeChat
