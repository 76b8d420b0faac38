/-!
# The FNV-1 accumulator

Incremental hashing of 32-bit inputs, one byte at a time and lowest byte first. The result depends
on the order of the inputs and on nothing else.

The top byte of a signed input is taken with its sign, so the last step of a negative input folds
all 32 bits of the sign extension.

## Main definitions

* `Fnv`: an accumulator, with `mixByte`, `mix`, `mixWord` and `mixLong`.
* `Fnv.ofItems`: the hash of a sequence whose items may be absent.
-/

set_option autoImplicit false

namespace ExprTree

/-- An accumulator. -/
structure Fnv where
  state : UInt32
deriving DecidableEq, Repr

namespace Fnv

/-- The state that an accumulator starts from. -/
def offset : UInt32 := 2166136261

/-- The factor applied after each folded byte. -/
def prime : UInt32 := 16777619

/-- A new accumulator. -/
def new : Fnv := ⟨offset⟩

/-- Fold one step. -/
def step (h : Fnv) (bits : UInt32) : Fnv := ⟨(h.state ^^^ bits) * prime⟩

/-- Fold a byte. -/
def mixByte (h : Fnv) (byte : UInt8) : Fnv := h.step byte.toUInt32

/-- The bits of a signed 32-bit input, shifted right by 24 with the sign kept. -/
def topByte (bits : UInt32) : UInt32 :=
  if bits < 0x80000000 then bits >>> 24 else (bits >>> 24) ||| 0xffffff00

/-- Fold the bits of a signed 32-bit input. -/
def mixWord (h : Fnv) (bits : UInt32) : Fnv :=
  (((h.step (bits &&& 0xff)).step ((bits >>> 8) &&& 0xff)).step ((bits >>> 16) &&& 0xff)).step
    (topByte bits)

/-- Fold a signed 32-bit input. -/
def mix (h : Fnv) (n : Int) : Fnv := h.mixWord (.ofNat (n % 4294967296).toNat)

/-- Fold a 64-bit input, its low half first. -/
def mixLong (h : Fnv) (bits : UInt64) : Fnv :=
  (h.mixWord bits.toUInt32).mixWord (bits >>> 32).toUInt32

/-- Folded for an absent item. -/
def absentItem : Int := 1337

/-- Added to every present item, so that a small item still moves the accumulator. -/
def itemSalt : UInt32 := 1928529265

/-- Fold one item of a sequence. -/
@[inline]
def mixItem (h : Fnv) : Option UInt32 → Fnv
  | none => h.mix absentItem
  | some item => h.mixWord (item + itemSalt)

/-- The hash of a sequence of items. The accumulator starts at zero. -/
def ofItems (items : List (Option UInt32)) : UInt32 := (items.foldl mixItem ⟨0⟩).state

end Fnv

end ExprTree
