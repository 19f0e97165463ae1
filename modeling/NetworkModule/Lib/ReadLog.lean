import Mathlib

/-!
# Programs that read a memory

A `ReadLog` program reads bytes of a memory and keeps a log of the offsets that it reads.
The memory is the list of the bytes from a base address on, as far as they can be read at
all.  A program does not check the offsets, so the log may go beyond the memory, and what
is read there is of no account.

`Within m mem n` says that the program reads below the offset `n` only.  It is decided
along the program: `within_bind` for a sequence, `within_bytes` for a field of a fixed
size, and `within_cString` for a text that ends with its first zero byte, wherever that
is.
-/

/-- A program that reads a memory: its result and the offsets that it reads. -/
def ReadLog (α : Type*) : Type _ := List UInt8 → α × List Nat

namespace ReadLog

variable {α β : Type}

instance : Monad ReadLog where
  pure a := fun _ => (a, [])
  bind m f := fun mem => ((f (m mem).1 mem).1, (m mem).2 ++ (f (m mem).1 mem).2)

/-- The result of a program. -/
def val (m : ReadLog α) (mem : List UInt8) : α := (m mem).1

/-- The offsets that a program reads. -/
def reads (m : ReadLog α) (mem : List UInt8) : List Nat := (m mem).2

@[simp] theorem val_pure (a : α) (mem : List UInt8) : (pure a : ReadLog α).val mem = a := rfl

@[simp] theorem val_bind (m : ReadLog α) (f : α → ReadLog β) (mem : List UInt8) :
    (m >>= f).val mem = (f (m.val mem)).val mem := rfl

/-- The number of these bytes, the low one first. -/
def littleEndian : List UInt8 → Nat
  | [] => 0
  | b :: bs => b.toNat + 256 * littleEndian bs

/-- The `n` bytes at an offset. -/
def bytes (off n : Nat) : ReadLog (List UInt8) := fun mem =>
  ((mem.drop off).take n, List.range' off n)

/-- The unsigned number of `n` bytes at an offset. -/
def unsigned (off n : Nat) : ReadLog Nat := do
  let bs ← bytes off n
  return littleEndian bs

/-- The text at an offset that a zero byte ends.  The zero byte is read as well. -/
def cString (off : Nat) : ReadLog (List UInt8) := fun mem =>
  let text := (mem.drop off).takeWhile (· ≠ 0)
  (text, List.range' off (text.length + 1))

/-! ## Reading below an offset -/

/-- The program reads only below the offset `n`. -/
def Within (m : ReadLog α) (mem : List UInt8) (n : Nat) : Prop := ∀ k ∈ m.reads mem, k < n

instance (m : ReadLog α) (mem : List UInt8) (n : Nat) : Decidable (Within m mem n) :=
  inferInstanceAs (Decidable (∀ k ∈ m.reads mem, k < n))

variable {mem : List UInt8} {n : Nat}

@[simp] theorem within_pure (a : α) : Within (pure a) mem n := fun _ hk => by cases hk

@[simp] theorem within_bind {m : ReadLog α} {f : α → ReadLog β} :
    Within (m >>= f) mem n ↔ Within m mem n ∧ Within (f (m.val mem)) mem n := by
  refine ⟨fun h => ⟨fun k hk => h k ?_, fun k hk => h k ?_⟩, fun h k hk => ?_⟩
  · exact List.mem_append_left _ hk
  · exact List.mem_append_right _ hk
  · rcases List.mem_append.mp hk with hl | hr
    · exact h.1 k hl
    · exact h.2 k hr

/-- A field that ends below `n`. -/
theorem within_bytes {off len : Nat} (h : off + len ≤ n) : Within (bytes off len) mem n := by
  intro k hk
  have := (List.mem_range'_1.mp hk).2
  omega

theorem within_unsigned {off len : Nat} (h : off + len ≤ n) : Within (unsigned off len) mem n :=
  within_bind.mpr ⟨within_bytes h, within_pure _⟩

theorem within_cString {off : Nat} :
    Within (cString off) mem n ↔ off + ((mem.drop off).takeWhile (· ≠ 0)).length < n := by
  constructor
  · intro h
    refine h _ (List.mem_range'_1.mpr ⟨by omega, by omega⟩)
  · intro h k hk
    have := (List.mem_range'_1.mp hk).2
    omega

theorem Within.mono {m : ReadLog α} {n' : Nat} (h : Within m mem n) (hle : n ≤ n') :
    Within m mem n' := fun k hk => lt_of_lt_of_le (h k hk) hle

/-- A text ends inside a field exactly when the field has a zero byte. -/
theorem length_takeWhile_lt {l : List UInt8} {len : Nat} (hlen : len ≤ l.length) :
    (l.takeWhile (· ≠ 0)).length < len ↔ 0 ∈ l.take len := by
  induction l generalizing len with
  | nil =>
      obtain rfl : len = 0 := by simpa using hlen
      simp
  | cons b l ih =>
      cases len with
      | zero => simp
      | succ len =>
          by_cases hb : b = 0
          · simp [hb]
          · have hb' : ¬ 0 = b := fun h => hb h.symm
            simpa [List.takeWhile_cons, hb, hb'] using ih (by simpa using hlen)

end ReadLog
