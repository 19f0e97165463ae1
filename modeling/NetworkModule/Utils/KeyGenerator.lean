import Mathlib

/-!
# KeyGenerator

The 64-bit keys of `Utils/KeyGenerator.h`: eight bits of tag, eight bits of slot
and a 48-bit sequence number that skips 0.  The counter behind the sequence
number is `uint64_t` and never reset.
-/

namespace NetworkModule

/-- `KeyTag`. -/
inductive KeyTag where
  | none
  | dbQuery
  | session
  | wal
  deriving DecidableEq, Repr

/-- The value of the enumerator. -/
def KeyTag.toUInt64 : KeyTag → UInt64
  | .none => 0
  | .dbQuery => 1
  | .session => 2
  | .wal => 3

/-- `KeyGenerator` in instance mode. -/
structure KeyGenerator where
  mPrefix : UInt64
  mSeq : UInt64 := 0
  deriving DecidableEq, Repr

namespace KeyGenerator

/-- `kSeqMask`. -/
def kSeqMask : UInt64 := ((1 : UInt64) <<< 48) - 1

/-- The constructor. -/
def make (tag : KeyTag) (slot : UInt8) : KeyGenerator :=
  ⟨(tag.toUInt64 <<< 56) ||| (slot.toUInt64 <<< 48), 0⟩

/-- `GetSlot`. -/
def getSlot (id : UInt64) : UInt8 := ((id >>> 48) &&& 0xFF).toUInt8

/-- The key that `Next` returns. -/
def nextId (g : KeyGenerator) : UInt64 :=
  let seq := (g.mSeq + 1) &&& kSeqMask
  g.mPrefix ||| (if seq = 0 then 1 else seq)

/-- The generator after `Next`. -/
def next (g : KeyGenerator) : KeyGenerator := { g with mSeq := g.mSeq + 1 }

@[simp] theorem next_mPrefix (g : KeyGenerator) : g.next.mPrefix = g.mPrefix := rfl

/-! ## Keys as numbers -/

theorem make_toNat (tag : KeyTag) (slot : UInt8) :
    (make tag slot).mPrefix.toNat = tag.toUInt64.toNat * 2 ^ 56 + slot.toNat * 2 ^ 48 := by
  have hslot := slot.toNat_lt
  have hlt : slot.toNat <<< 48 < 2 ^ 56 := by
    rw [Nat.shiftLeft_eq]
    omega
  have hshift : (slot.toNat <<< 48) % 2 ^ 64 = slot.toNat <<< 48 :=
    Nat.mod_eq_of_lt (hlt.trans (by decide))
  have htag : (tag.toUInt64 <<< 56).toNat = tag.toUInt64.toNat <<< 56 := by
    cases tag <;> rfl
  have hmake : (make tag slot).mPrefix.toNat =
      tag.toUInt64.toNat <<< 56 ||| slot.toNat <<< 48 := by
    rw [← hshift, ← htag]
    simp [make]
  rw [hmake, ← Nat.shiftLeft_add_eq_or_of_lt hlt, Nat.shiftLeft_eq, Nat.shiftLeft_eq]

/-- The prefix of the keys of a worker. -/
theorem make_mPrefix_toNat (slot : UInt8) :
    (make .dbQuery slot).mPrefix.toNat = 2 ^ 56 + slot.toNat * 2 ^ 48 := by
  rw [make_toNat]
  rfl

theorem getSlot_toNat (id : UInt64) : (getSlot id).toNat = id.toNat / 2 ^ 48 % 2 ^ 8 := by
  have hand : id.toNat >>> 48 &&& 255 = id.toNat / 2 ^ 48 % 2 ^ 8 := by
    rw [Nat.shiftRight_eq_div_pow]
    exact Nat.and_two_pow_sub_one_eq_mod (n := 8) _
  simp only [getSlot, UInt64.toNat_toUInt8, UInt64.toNat_and, UInt64.toNat_shiftRight]
  simp
  omega

/-- The sequence number in the key that is returned at this counter. -/
def seqAfter (mSeq : Nat) : Nat := if (mSeq + 1) % 2 ^ 48 = 0 then 1 else (mSeq + 1) % 2 ^ 48

theorem seqAfter_pos (c : Nat) : 0 < seqAfter c := by
  rw [seqAfter]
  split
  · exact Nat.one_pos
  next hne => exact Nat.pos_of_ne_zero hne

theorem seqAfter_lt (c : Nat) : seqAfter c < 2 ^ 48 := by
  rw [seqAfter]
  split
  · decide
  · exact Nat.mod_lt _ (by decide)

/-- A key is its prefix and its sequence number. -/
theorem toNat_nextId {g : KeyGenerator} {a : Nat} (hp : g.mPrefix.toNat = a * 2 ^ 48) :
    g.nextId.toNat = g.mPrefix.toNat + seqAfter g.mSeq.toNat := by
  have hand : ((g.mSeq + 1) &&& kSeqMask).toNat = (g.mSeq.toNat + 1) % 2 ^ 48 := by
    have hmask : kSeqMask.toNat = 2 ^ 48 - 1 := by decide
    rw [UInt64.toNat_and, UInt64.toNat_add, hmask, Nat.and_two_pow_sub_one_eq_mod]
    exact Nat.mod_mod_of_dvd _ (by decide)
  have hzero : (g.mSeq + 1) &&& kSeqMask = 0 ↔ (g.mSeq.toNat + 1) % 2 ^ 48 = 0 := by
    rw [← hand]
    exact UInt64.toNat_inj.symm
  have hseq : (if (g.mSeq + 1) &&& kSeqMask = 0 then 1 else (g.mSeq + 1) &&& kSeqMask).toNat =
      seqAfter g.mSeq.toNat := by
    simp only [seqAfter, hzero]
    split
    · rfl
    · exact hand
  have hnext : g.nextId = g.mPrefix |||
      (if (g.mSeq + 1) &&& kSeqMask = 0 then 1 else (g.mSeq + 1) &&& kSeqMask) := rfl
  rw [hnext, UInt64.toNat_or, hseq, hp, ← Nat.shiftLeft_eq,
    Nat.shiftLeft_add_eq_or_of_lt (seqAfter_lt _)]

/-- The sequence number is the number of the call, as long as the counter is in range. -/
theorem nextId_toNat {g : KeyGenerator} {a : Nat} (hp : g.mPrefix.toNat = a * 2 ^ 48)
    (hseq : g.mSeq.toNat + 1 < 2 ^ 48) : g.nextId.toNat = g.mPrefix.toNat + (g.mSeq.toNat + 1) := by
  have hmod : (g.mSeq.toNat + 1) % 2 ^ 48 = g.mSeq.toNat + 1 := Nat.mod_eq_of_lt hseq
  rw [toNat_nextId hp, seqAfter, hmod, if_neg (Nat.succ_ne_zero _)]

end KeyGenerator

end NetworkModule
