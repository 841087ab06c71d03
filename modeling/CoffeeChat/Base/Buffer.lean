import CoffeeChat.Lib.Endian
import CoffeeChat.Lib.Memory

/-!
# The byte buffer

`cim::base::Buffer` of `base/buffer.h`: one allocation, of which the bytes from `readIndex` to
`writeIndex` are the unread content and the first `reservedPrependSize` are kept free for
prepending. Indices and sizes are `size_t`, here natural numbers, reduced by `sizeT` where a
sum may leave 64 bits. Every `assert` of the source is a `check`, and every `memcpy` goes
through `load` and `store`, so an operation that returns has kept inside the allocation.

The words read and written are those of a little-endian host. Fresh memory is filled with
zeros; the operations never read a byte they have not written.
-/

namespace CoffeeChat

open Lib Lib.Endian

/-- A byte string. -/
abbrev Bytes := List UInt8

/-- A string of ASCII characters as bytes. -/
def asciiBytes (cs : List Char) : Bytes := cs.map fun c ↦ UInt8.ofNat c.toNat

/-- Reduction to `size_t`. -/
def sizeT (n : Nat) : Nat := n % 2 ^ 64

/-- `Buffer::kCheapPrependSize`. -/
def kCheapPrependSize : Nat := 8

/-- `Buffer::kInitialSize`. -/
def kInitialSize : Nat := 1024

/-- The members of `Buffer`; `storage` is the allocation `buffer_` points to. -/
structure Buffer where
  storage : Bytes
  capacity : Nat
  readIndex : Nat
  writeIndex : Nat
  reservedPrependSize : Nat
  deriving DecidableEq, Repr

namespace Buffer

/-! ## Sizes -/

/-- `length()`, the number of unread bytes. -/
def length (b : Buffer) : Result Nat := do
  check (b.writeIndex ≥ b.readIndex)
  return b.writeIndex - b.readIndex

/-- `size()`, the same as `length()`. -/
def size (b : Buffer) : Result Nat := b.length

/-- `WritableBytes()`, the space behind the content. -/
def writableBytes (b : Buffer) : Result Nat := do
  check (b.capacity ≥ b.writeIndex)
  return b.capacity - b.writeIndex

/-- `PrependableBytes()`, the space before the content. -/
def prependableBytes (b : Buffer) : Nat := b.readIndex

/-- The bytes that `data()` points to, `length()` of them. -/
def contents (b : Buffer) : Bytes :=
  (b.storage.drop b.readIndex).take (b.writeIndex - b.readIndex)

/-- The constructor `Buffer(initial_size, reserved_prepend_size)`. -/
def new (initialSize reservedPrependSize : Nat) : Result Buffer := do
  let capacity := sizeT (reservedPrependSize + initialSize)
  let b : Buffer :=
    ⟨List.replicate capacity 0, capacity, reservedPrependSize, reservedPrependSize,
      reservedPrependSize⟩
  let length ← b.length
  check (length = 0)
  let writable ← b.writableBytes
  check (writable = initialSize)
  check (b.prependableBytes = reservedPrependSize)
  return b

/-- `Swap(rhs)`: every member changes places. The buffer and `rhs` behind it. -/
def swap (b rhs : Buffer) : Buffer × Buffer :=
  ({ storage := rhs.storage, capacity := rhs.capacity, readIndex := rhs.readIndex,
     writeIndex := rhs.writeIndex, reservedPrependSize := rhs.reservedPrependSize },
   { storage := b.storage, capacity := b.capacity, readIndex := b.readIndex,
     writeIndex := b.writeIndex, reservedPrependSize := b.reservedPrependSize })

/-! ## Dropping content -/

/-- `Truncate(n)`. The guard adds in `size_t`. -/
def truncate (b : Buffer) (n : Nat) : Buffer :=
  if n = 0 then
    { b with readIndex := b.reservedPrependSize, writeIndex := b.reservedPrependSize }
  else if b.writeIndex > sizeT (b.readIndex + n) then
    { b with writeIndex := sizeT (b.readIndex + n) }
  else b

/-- `Reset()`. -/
def reset (b : Buffer) : Buffer := b.truncate 0

/-- `Skip(len)`. -/
def skip (b : Buffer) (len : Nat) : Result Buffer := do
  let length ← b.length
  if len < length then return { b with readIndex := b.readIndex + len }
  else return b.reset

/-! ## Writing -/

/-- `grow(len)`: a larger allocation, or the content moved to the front of the old one. -/
def grow (b : Buffer) (len : Nat) : Result Buffer := do
  let writable ← b.writableBytes
  if sizeT (writable + b.prependableBytes) < sizeT (len + b.reservedPrependSize) then
    let n := sizeT (sizeT (b.capacity * 2) + len)
    let m ← b.length
    let unread ← load b.storage b.readIndex m
    let d ← store (List.replicate n 0) b.reservedPrependSize unread
    return { b with
      storage := d, capacity := n, readIndex := b.reservedPrependSize,
      writeIndex := m + b.reservedPrependSize }
  else
    check (b.reservedPrependSize < b.readIndex)
    let readable ← b.length
    let unread ← load b.storage b.readIndex readable
    let moved ← store b.storage b.reservedPrependSize unread
    let b' := { b with
      storage := moved, readIndex := b.reservedPrependSize,
      writeIndex := b.reservedPrependSize + readable }
    let length ← b'.length
    check (readable = length)
    let writable' ← b'.writableBytes
    check (writable' ≥ len)
    return b'

/-- `Reserve(len)`. -/
def reserve (b : Buffer) (len : Nat) : Result Buffer :=
  if b.capacity ≥ sizeT (len + b.reservedPrependSize) then .ok b
  else b.grow (sizeT (len + b.reservedPrependSize))

/-- `EnsureWritableBytes(len)`. -/
def ensureWritableBytes (b : Buffer) (len : Nat) : Result Buffer := do
  let writable ← b.writableBytes
  let b' ← if writable < len then b.grow len else pure b
  let writable' ← b'.writableBytes
  check (writable' ≥ len)
  return b'

/-- A `memcpy` of the bytes to `WriteBegin()`; no index moves. -/
def storeAtWriteBegin (b : Buffer) (d : Bytes) : Result Buffer := do
  let storage ← store b.storage b.writeIndex d
  return { b with storage }

/-- `Write(d, len)`. -/
def write (b : Buffer) (d : Bytes) : Result Buffer := do
  let b ← b.ensureWritableBytes d.length
  let b ← b.storeAtWriteBegin d
  check (sizeT (b.writeIndex + d.length) ≤ b.capacity)
  return { b with writeIndex := b.writeIndex + d.length }

/-- `WriteBytes(n)`. -/
def writeBytes (b : Buffer) (n : Nat) : Result Buffer := do
  let writable ← b.writableBytes
  check (n ≤ writable)
  return { b with writeIndex := b.writeIndex + n }

/-- `Prepend(d, len)`: a `memcpy` before the content. -/
def prepend (b : Buffer) (d : Bytes) : Result Buffer := do
  check (d.length ≤ b.prependableBytes)
  let readIndex := b.readIndex - d.length
  let storage ← store b.storage readIndex d
  return { b with storage, readIndex }

/-- `UnwriteBytes(n)`. -/
def unwriteBytes (b : Buffer) (n : Nat) : Result Buffer := do
  let length ← b.length
  check (n ≤ length)
  return { b with writeIndex := b.writeIndex - n }

end Buffer

/-- `evppbswap_64(x)`. -/
def evppbswap64 (x : UInt64) : UInt64 :=
  ((x &&& 0xff00000000000000) >>> 56) ||| ((x &&& 0x00ff000000000000) >>> 40) |||
  ((x &&& 0x0000ff0000000000) >>> 24) ||| ((x &&& 0x000000ff00000000) >>> 8) |||
  ((x &&& 0x00000000ff000000) <<< 8) ||| ((x &&& 0x0000000000ff0000) <<< 24) |||
  ((x &&& 0x000000000000ff00) <<< 40) ||| ((x &&& 0x00000000000000ff) <<< 56)

/-- `htonl` and `ntohl` of a little-endian host. -/
def htonl (x : UInt32) : UInt32 := UInt32.ofNat (byteSwap 4 x.toNat)

/-- `htons` and `ntohs` of a little-endian host. -/
def htons (x : UInt16) : UInt16 := UInt16.ofNat (byteSwap 2 x.toNat)

namespace Buffer

/-- `AppendInt32(x)`: the four bytes of `htonl(x)` as the host stores them. -/
def appendInt32 (b : Buffer) (x : Int32) : Result Buffer :=
  b.write (leBytes 4 (htonl x.toUInt32).toNat)

/-- `AppendInt16(x)`. -/
def appendInt16 (b : Buffer) (x : Int16) : Result Buffer :=
  b.write (leBytes 2 (htons x.toUInt16).toNat)

/-- `AppendInt64(x)`. -/
def appendInt64 (b : Buffer) (x : Int64) : Result Buffer :=
  b.write (leBytes 8 (evppbswap64 x.toUInt64).toNat)

/-- `AppendInt8(x)`. -/
def appendInt8 (b : Buffer) (x : Int8) : Result Buffer :=
  b.write (leBytes 1 x.toUInt8.toNat)

/-- `PrependInt64(x)`. -/
def prependInt64 (b : Buffer) (x : Int64) : Result Buffer :=
  b.prepend (leBytes 8 (evppbswap64 x.toUInt64).toNat)

/-- `PrependInt32(x)`. -/
def prependInt32 (b : Buffer) (x : Int32) : Result Buffer :=
  b.prepend (leBytes 4 (htonl x.toUInt32).toNat)

/-- `PrependInt16(x)`. -/
def prependInt16 (b : Buffer) (x : Int16) : Result Buffer :=
  b.prepend (leBytes 2 (htons x.toUInt16).toNat)

/-- `PrependInt8(x)`. -/
def prependInt8 (b : Buffer) (x : Int8) : Result Buffer :=
  b.prepend (leBytes 1 x.toUInt8.toNat)

/-- `ToText()`: a zero byte behind the content, which stays as it was. -/
def toText (b : Buffer) : Result Buffer := do
  let b ← b.appendInt8 0
  b.unwriteBytes 1

/-! ## Reading -/

/-- `PeekInt32()`. -/
def peekInt32 (b : Buffer) : Result Int32 := do
  let length ← b.length
  check (length ≥ 4)
  let be32 ← load b.storage b.readIndex 4
  return (htonl (UInt32.ofNat (leValue be32))).toInt32

/-- `PeekInt16()`. -/
def peekInt16 (b : Buffer) : Result Int16 := do
  let length ← b.length
  check (length ≥ 2)
  let be16 ← load b.storage b.readIndex 2
  return (htons (UInt16.ofNat (leValue be16))).toInt16

/-- `ReadInt32()`. -/
def readInt32 (b : Buffer) : Result (Int32 × Buffer) := do
  let result ← b.peekInt32
  let b ← b.skip 4
  return (result, b)

/-- `ReadInt16()`. -/
def readInt16 (b : Buffer) : Result (Int16 × Buffer) := do
  let result ← b.peekInt16
  let b ← b.skip 2
  return (result, b)

/-- `PeekInt64()`. -/
def peekInt64 (b : Buffer) : Result Int64 := do
  let length ← b.length
  check (length ≥ 8)
  let be64 ← load b.storage b.readIndex 8
  return (evppbswap64 (UInt64.ofNat (leValue be64))).toInt64

/-- `PeekInt8()`. -/
def peekInt8 (b : Buffer) : Result Int8 := do
  let length ← b.length
  check (length ≥ 1)
  let x ← load b.storage b.readIndex 1
  return (UInt8.ofNat (leValue x)).toInt8

/-- `ReadInt64()`. -/
def readInt64 (b : Buffer) : Result (Int64 × Buffer) := do
  let result ← b.peekInt64
  let b ← b.skip 8
  return (result, b)

/-- `ReadInt8()`. -/
def readInt8 (b : Buffer) : Result (Int8 × Buffer) := do
  let result ← b.peekInt8
  let b ← b.skip 1
  return (result, b)

/-- The bytes of `ToSlice()`. -/
def toSlice (b : Buffer) : Result Bytes := do
  let length ← b.length
  load b.storage b.readIndex length

/-- `Shrink(reserve)`. The other buffer keeps the default reserve for prepending. -/
def shrink (b : Buffer) (reserve : Nat) : Result Buffer := do
  let length ← b.length
  let other ← new (sizeT (length + reserve)) kCheapPrependSize
  let slice ← b.toSlice
  let other ← other.write slice
  return (b.swap other).1

/-- `NextAll()`, with the bytes of the slice it returns. -/
def nextAll (b : Buffer) : Result (Bytes × Buffer) := do
  let result ← b.toSlice
  return (result, b.reset)

/-- `Next(len)`, with the bytes of the slice it returns. -/
def next (b : Buffer) (len : Nat) : Result (Bytes × Buffer) := do
  let length ← b.length
  if len < length then
    let result ← load b.storage b.readIndex len
    return (result, { b with readIndex := b.readIndex + len })
  else b.nextAll

/-- `ReadByte()`. -/
def readByte (b : Buffer) : Result (UInt8 × Buffer) := do
  let length ← b.length
  check (length ≥ 1)
  if length = 0 then return (0, b)
  else
    let c ← load b.storage b.readIndex 1
    return (c.headD 0, { b with readIndex := b.readIndex + 1 })

/-- `UnreadBytes(n)`. -/
def unreadBytes (b : Buffer) (n : Nat) : Result Buffer := do
  check (n < b.readIndex)
  return { b with readIndex := b.readIndex - n }

end Buffer

end CoffeeChat
