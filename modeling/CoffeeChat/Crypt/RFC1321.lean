import CoffeeChat.Lib.Absorb
import CoffeeChat.Lib.Endian
import CoffeeChat.Lib.Fold

/-!
# The MD5 message digest

The algorithm of RFC 1321 on whole byte strings: padding, the sixteen words of a block, the 64
operations of the four rounds, and the digest. The operations are generated from the pattern of
the rounds. A word is 32 bits wide here; `Words` is the register file of any word width, which an
implementation shares.
-/

namespace CoffeeChat.RFC1321

open Lib Lib.Endian

/-! ## Registers and operations -/

/-- The four registers. -/
inductive Var where
  | a
  | b
  | c
  | d
  deriving DecidableEq, Repr

/-- The contents of the four registers. -/
structure Words (w : Nat) where
  a : BitVec w
  b : BitVec w
  c : BitVec w
  d : BitVec w
  deriving DecidableEq, Repr

namespace Words

variable {w : Nat}

/-- The content of a register. -/
def get (v : Words w) : Var → BitVec w
  | .a => v.a
  | .b => v.b
  | .c => v.c
  | .d => v.d

/-- Replace the content of a register. -/
def set (v : Words w) (r : Var) (x : BitVec w) : Words w :=
  match r with
  | .a => { v with a := x }
  | .b => { v with b := x }
  | .c => { v with c := x }
  | .d => { v with d := x }

/-- The registers added one by one. -/
def add (v u : Words w) : Words w := ⟨v.a + u.a, v.b + u.b, v.c + u.c, v.d + u.d⟩

end Words

/-- The four rounds, by their function. -/
inductive Round where
  | F
  | G
  | H
  | I
  deriving DecidableEq, Repr

/-- The operation `[abcd k s i]` of a round, with the table entry `T[i]`. -/
structure Operation where
  round : Round
  a : Var
  b : Var
  c : Var
  d : Var
  k : Nat
  s : Nat
  t : BitVec 32
  deriving DecidableEq, Repr

/-- The table `T`: the integer part of `4294967296 * abs(sin(i))` for `i` from 1 to 64. -/
def table : List (BitVec 32) := [
  0xd76aa478, 0xe8c7b756, 0x242070db, 0xc1bdceee, 0xf57c0faf, 0x4787c62a, 0xa8304613, 0xfd469501,
  0x698098d8, 0x8b44f7af, 0xffff5bb1, 0x895cd7be, 0x6b901122, 0xfd987193, 0xa679438e, 0x49b40821,
  0xf61e2562, 0xc040b340, 0x265e5a51, 0xe9b6c7aa, 0xd62f105d, 0x02441453, 0xd8a1e681, 0xe7d3fbc8,
  0x21e1cde6, 0xc33707d6, 0xf4d50d87, 0x455a14ed, 0xa9e3e905, 0xfcefa3f8, 0x676f02d9, 0x8d2a4c8a,
  0xfffa3942, 0x8771f681, 0x6d9d6122, 0xfde5380c, 0xa4beea44, 0x4bdecfa9, 0xf6bb4b60, 0xbebfbc70,
  0x289b7ec6, 0xeaa127fa, 0xd4ef3085, 0x04881d05, 0xd9d4d039, 0xe6db99e5, 0x1fa27cf8, 0xc4ac5665,
  0xf4292244, 0x432aff97, 0xab9423a7, 0xfc93a039, 0x655b59c3, 0x8f0ccc92, 0xffeff47d, 0x85845dd1,
  0x6fa87e4f, 0xfe2ce6e0, 0xa3014314, 0x4e0811a1, 0xf7537e82, 0xbd3af235, 0x2ad7d2bb, 0xeb86d391]

/-- The function, word and shift of operation `i`, counted from zero. -/
def schedule (i : Nat) : Round × Nat × Nat :=
  match i / 16 with
  | 0 => (.F, i % 16, [7, 12, 17, 22].getD (i % 4) 0)
  | 1 => (.G, (5 * i + 1) % 16, [5, 9, 14, 20].getD (i % 4) 0)
  | 2 => (.H, (3 * i + 5) % 16, [4, 11, 16, 23].getD (i % 4) 0)
  | _ => (.I, 7 * i % 16, [6, 10, 15, 21].getD (i % 4) 0)

/-- Operation `i`, counted from zero. The registers turn by one from each to the next. -/
def operation (i : Nat) : Operation :=
  let (round, k, s) := schedule i
  let t := table.getD i 0
  match i % 4 with
  | 0 => ⟨round, .a, .b, .c, .d, k, s, t⟩
  | 1 => ⟨round, .d, .a, .b, .c, k, s, t⟩
  | 2 => ⟨round, .c, .d, .a, .b, k, s, t⟩
  | _ => ⟨round, .b, .c, .d, .a, k, s, t⟩

/-- The 64 operations. -/
def operations : List Operation := (List.range 64).map operation

/-- The functions of the four rounds. -/
def Round.apply (r : Round) (x y z : BitVec 32) : BitVec 32 :=
  match r with
  | .F => x &&& y ||| ~~~x &&& z
  | .G => x &&& z ||| y &&& ~~~z
  | .H => x ^^^ y ^^^ z
  | .I => y ^^^ (x ||| ~~~z)

/-- `a = b + ((a + F(b,c,d) + X[k] + T[i]) <<< s)`. -/
def step (x : Nat → BitVec 32) (v : Words 32) (o : Operation) : Words 32 :=
  let t := v.get o.a + o.round.apply (v.get o.b) (v.get o.c) (v.get o.d) + x o.k + o.t
  v.set o.a (v.get o.b + t.rotateLeft o.s)

/-! ## Blocks and digests -/

/-- Word `k` of a block, low-order byte first. -/
def word (block : List UInt8) (k : Nat) : BitVec 32 :=
  BitVec.ofNat 32 (leValue ((block.drop (4 * k)).take 4))

/-- Process one 64-byte block. -/
def compress (v : Words 32) (block : List UInt8) : Words 32 :=
  v.add (operations.foldl (step (word block)) v)

/-- The registers at the start. -/
def initial : Words 32 := ⟨0x67452301, 0xefcdab89, 0x98badcfe, 0x10325476⟩

/-- A one bit, zeros up to 56 bytes modulo 64, and the length in bits modulo `2 ^ 64`. -/
def padding (length : Nat) : List UInt8 :=
  0x80 :: List.replicate ((119 - length % 64) % 64) 0 ++ leBytes 8 (8 * length)

/-- The bytes of the registers, low-order byte first. -/
def bytes (v : Words 32) : List UInt8 :=
  leBytes 4 v.a.toNat ++ leBytes 4 v.b.toNat ++ leBytes 4 v.c.toNat ++ leBytes 4 v.d.toNat

/-- The blocks of a padded message. -/
def paddedBlocks (s : List UInt8) : List (List UInt8) :=
  Absorb.fullBlocks 64 (s ++ padding s.length)

/-- The message digest. -/
def digest (s : List UInt8) : List UInt8 := bytes ((paddedBlocks s).foldl compress initial)

/-- The message digest in lower-case hexadecimal. -/
def hexDigest (s : List UInt8) : List Char :=
  (digest s).flatMap fun x ↦ [Nat.digitChar (x.toNat / 16), Nat.digitChar (x.toNat % 16)]

/-- The digest of the empty string. -/
theorem hexDigest_nil : hexDigest [] = "d41d8cd98f00b204e9800998ecf8427e".toList := by
  decide +kernel

example : hexDigest [0x61, 0x62, 0x63] = "900150983cd24fb0d6963f7d28e17f72".toList := by
  decide +kernel

/-! ## Working values -/

/-- The values that the operations assign to their registers, in one block. -/
def assigned (v : Words 32) (block : List UInt8) : List (BitVec 32) :=
  Fold.outputs (step (word block)) (fun v o ↦ (step (word block) v o).get o.a) v operations

/-- The values that all operations assign in the run over a message. -/
def workingValues (s : List UInt8) : List (List (BitVec 32)) :=
  Fold.outputs compress assigned initial (paddedBlocks s)

end CoffeeChat.RFC1321
