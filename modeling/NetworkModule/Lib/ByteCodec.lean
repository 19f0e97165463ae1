import NetworkModule.Lib.ReadLog

/-!
# Reading back what was written

A `Reader` reads a value from a buffer at an offset, and gives the offset behind it.  It
fails when the buffer ends too early.  `Reads r bytes a` says that `r` reads these bytes as
`a`, wherever they stand and whatever follows, and that it fails when the buffer ends within
them.  So a format that is read as its parts are written one after the other (`Reads.bind`)
is read back, and none of its proper beginnings is accepted.

A `Scalar` is a type whose values are copied as a fixed number of bytes, the low one first.
-/

namespace ByteCodec

open ReadLog (littleEndian)

variable {α β : Type}

/-! ## Numbers as bytes -/

/-- The `n` low bytes of a number, the low one first. -/
def leBytes : Nat → Nat → List UInt8
  | 0, _ => []
  | n + 1, v => UInt8.ofNat v :: leBytes n (v / 256)

@[simp] theorem length_leBytes (n v : Nat) : (leBytes n v).length = n := by
  induction n generalizing v with
  | zero => rfl
  | succ n ih => rw [leBytes, List.length_cons, ih]

theorem littleEndian_leBytes {n v : Nat} (h : v < 256 ^ n) : littleEndian (leBytes n v) = v := by
  induction n generalizing v with
  | zero =>
      rw [Nat.pow_zero] at h
      rw [Nat.lt_one_iff.mp h]
      rfl
  | succ n ih =>
      have hv : v / 256 < 256 ^ n := by
        rw [Nat.pow_succ] at h
        exact Nat.div_lt_of_lt_mul (Nat.mul_comm _ _ ▸ h)
      rw [leBytes, littleEndian, ih hv, UInt8.toNat_ofNat']
      exact Nat.mod_add_div v 256

/-- A type whose values are copied byte by byte. -/
class Scalar (α : Type) where
  size : Nat
  toNat : α → Nat
  ofNat : Nat → α
  toNat_lt : ∀ a, toNat a < 256 ^ size
  ofNat_toNat : ∀ a, ofNat (toNat a) = a

namespace Scalar

instance : Scalar UInt8 where
  size := 1
  toNat := UInt8.toNat
  ofNat := UInt8.ofNat
  toNat_lt := UInt8.toNat_lt
  ofNat_toNat _ := UInt8.ofNat_toNat

instance : Scalar UInt16 where
  size := 2
  toNat := UInt16.toNat
  ofNat := UInt16.ofNat
  toNat_lt := UInt16.toNat_lt
  ofNat_toNat _ := UInt16.ofNat_toNat

instance : Scalar UInt32 where
  size := 4
  toNat := UInt32.toNat
  ofNat := UInt32.ofNat
  toNat_lt := UInt32.toNat_lt
  ofNat_toNat _ := UInt32.ofNat_toNat

instance : Scalar UInt64 where
  size := 8
  toNat := UInt64.toNat
  ofNat := UInt64.ofNat
  toNat_lt := UInt64.toNat_lt
  ofNat_toNat _ := UInt64.ofNat_toNat

variable [Scalar α]

def bytes (a : α) : List UInt8 := leBytes (size α) (toNat a)

def ofBytes (bs : List UInt8) : α := ofNat (littleEndian bs)

@[simp] theorem length_bytes (a : α) : (bytes a).length = size α := length_leBytes _ _

@[simp] theorem ofBytes_bytes (a : α) : ofBytes (bytes a) = a := by
  rw [ofBytes, bytes, littleEndian_leBytes (toNat_lt a), ofNat_toNat]

/-- A program that reads a scalar where it stands in the memory. -/
theorem val_unsigned {mem before after : List UInt8} {a : α}
    (h : mem = before ++ (bytes a ++ after)) :
    (ReadLog.unsigned before.length (size α)).val mem = toNat a := by
  have hbytes : ((mem.drop before.length).take (size α)) = bytes a := by
    rw [h, List.drop_left, ← length_bytes a, List.take_left]
  change littleEndian ((mem.drop before.length).take (size α)) = toNat a
  rw [hbytes]
  exact littleEndian_leBytes (toNat_lt a)

end Scalar

/-! ## Readers -/

/-- A value and the offset behind it, from a buffer and an offset. -/
def Reader (α : Type) : Type := List UInt8 → Nat → Option (α × Nat)

namespace Reader

instance : Monad Reader where
  pure a := fun _ offset => some (a, offset)
  bind r f := fun buffer offset => (r buffer offset).bind fun x => f x.1 buffer x.2

theorem bind_apply (r : Reader α) (f : α → Reader β) (buffer : List UInt8) (offset : Nat) :
    (r >>= f) buffer offset = (r buffer offset).bind fun x => f x.1 buffer x.2 := rfl

/-- The next `n` bytes. -/
def takeBytes (n : Nat) : Reader (List UInt8) := fun buffer offset =>
  if buffer.length < offset + n then none else some ((buffer.drop offset).take n, offset + n)

/-- The next scalar. -/
def scalar (α : Type) [Scalar α] : Reader α := do
  let bs ← takeBytes (Scalar.size α)
  return Scalar.ofBytes bs

/-- So many scalars. -/
def scalars (α : Type) [Scalar α] : Nat → Reader (List α)
  | 0 => pure []
  | n + 1 => do
    let a ← scalar α
    let as ← scalars α n
    return a :: as

end Reader

/-- The reader reads these bytes as this value, and no proper beginning of them. -/
structure Reads (r : Reader α) (bytes : List UInt8) (a : α) : Prop where
  whole : ∀ before after,
    r (before ++ (bytes ++ after)) before.length = some (a, before.length + bytes.length)
  cut : ∀ before part, part <+: bytes → part.length < bytes.length →
    r (before ++ part) before.length = none

theorem reads_pure (a : α) : Reads (pure a) [] a where
  whole := fun _ _ => rfl
  cut := fun _ _ _ hlt => absurd hlt (Nat.not_lt_zero _)

theorem reads_takeBytes (bytes : List UInt8) : Reads (Reader.takeBytes bytes.length) bytes bytes where
  whole := by
    intro before after
    have hlen : ¬ (before ++ (bytes ++ after)).length < before.length + bytes.length := by
      simp
    rw [Reader.takeBytes, if_neg hlen, List.drop_left, List.take_left]
  cut := by
    intro before part _ hlt
    have hlen : (before ++ part).length < before.length + bytes.length := by
      rw [List.length_append]
      exact Nat.add_lt_add_left hlt _
    rw [Reader.takeBytes, if_pos hlen]

/-- Two parts, one after the other. -/
theorem Reads.bind {r : Reader α} {f : α → Reader β} {xs ys : List UInt8} {a : α} {b : β}
    (hr : Reads r xs a) (hf : Reads (f a) ys b) : Reads (r >>= f) (xs ++ ys) b where
  whole := by
    intro before after
    have hwhole := hf.whole (before ++ xs) after
    rw [List.length_append, List.append_assoc] at hwhole
    rw [Reader.bind_apply, List.append_assoc, hr.whole before (ys ++ after), Option.bind_some,
      hwhole, List.length_append, Nat.add_assoc]
  cut := by
    intro before part hpart hlt
    rw [Reader.bind_apply]
    rcases Nat.lt_or_ge part.length xs.length with hshort | hlong
    · -- The buffer ends within the first part.
      have hxs : part <+: xs := List.prefix_of_prefix_length_le hpart (List.prefix_append xs ys)
        hshort.le
      rw [hr.cut before part hxs hshort]
      rfl
    · obtain ⟨rest, rfl⟩ := List.prefix_of_prefix_length_le (List.prefix_append xs ys) hpart hlong
      have hrest : rest <+: ys := (List.prefix_append_right_inj xs).mp hpart
      have hcut := hf.cut (before ++ xs) rest hrest (by simpa using hlt)
      rw [List.length_append, List.append_assoc] at hcut
      rw [hr.whole before rest, Option.bind_some, hcut]

theorem Reads.map {r : Reader α} {bytes : List UInt8} {a : α} (hr : Reads r bytes a) (f : α → β) :
    Reads (r >>= fun x => pure (f x)) bytes (f a) := by
  have h := hr.bind (f := fun x => pure (f x)) (reads_pure (f a))
  rwa [List.append_nil] at h

theorem reads_scalar [Scalar α] (a : α) : Reads (Reader.scalar α) (Scalar.bytes a) a := by
  have h := reads_takeBytes (Scalar.bytes a)
  rw [Scalar.length_bytes] at h
  have hmap := h.map (Scalar.ofBytes (α := α))
  rwa [Scalar.ofBytes_bytes] at hmap

theorem reads_scalars [Scalar α] (as : List α) :
    Reads (Reader.scalars α as.length) (as.flatMap Scalar.bytes) as := by
  induction as with
  | nil => exact reads_pure []
  | cons a as ih =>
      rw [List.flatMap_cons]
      exact (reads_scalar a).bind (ih.map (a :: ·))

end ByteCodec
