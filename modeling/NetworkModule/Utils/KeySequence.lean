import NetworkModule.Utils.KeyGenerator

/-!
# The keys of one generator

`Next` adds 1 to a 64-bit counter and puts its low 48 bits into the key, with 1 in
place of 0.  The counter comes to a multiple of `2 ^ 48` at some point, and the key of
that call has the sequence number 1.  So has the key of the next call.

Tag and slot are right in every key, and no key is invalid (`decodes_keys`).
`keysOk_iff` says which consecutive calls give different keys: those that do not go on
after such a multiple.
-/

namespace NetworkModule.KeyGenerator

/-- `GetTag`, as the value of the enumerator. -/
def getTag (id : UInt64) : UInt8 := (id >>> 56).toUInt8

/-- `GetSeq`. -/
def getSeq (id : UInt64) : UInt64 := id &&& kSeqMask

/-- `IsValid`. -/
def isValid (id : UInt64) : Bool := getSeq id != 0

/-- What `n` consecutive calls of `Next` return. -/
def keys : Nat → KeyGenerator → List UInt64
  | 0, _ => []
  | n + 1, g => g.nextId :: keys n g.next

/-- What is promised of the keys of `n` calls, from any value of the counter on. -/
structure KeysOk (tag : KeyTag) (slot : UInt8) (mSeq : UInt64) (n : Nat) : Prop where
  decodes : ∀ id ∈ keys n ⟨(make tag slot).mPrefix, mSeq⟩,
    getTag id = tag.toUInt64.toUInt8 ∧ getSlot id = slot ∧ isValid id = true
  distinct : (keys n ⟨(make tag slot).mPrefix, mSeq⟩).Nodup

/-! ## The parts of a key -/

theorem getTag_toNat (id : UInt64) : (getTag id).toNat = id.toNat / 2 ^ 56 % 2 ^ 8 := by
  rw [getTag, UInt64.toNat_toUInt8, UInt64.toNat_shiftRight, Nat.shiftRight_eq_div_pow]
  rfl

theorem getSeq_toNat (id : UInt64) : (getSeq id).toNat = id.toNat % 2 ^ 48 := by
  have hmask : kSeqMask.toNat = 2 ^ 48 - 1 := by decide
  rw [getSeq, UInt64.toNat_and, hmask, Nat.and_two_pow_sub_one_eq_mod]

section
variable {tag : KeyTag} {slot : UInt8} {id : UInt64} {seq : Nat}

/-- A key with this prefix and this sequence number is taken apart again. -/
theorem decodes_of_toNat (hid : id.toNat = (make tag slot).mPrefix.toNat + seq) (hpos : 0 < seq)
    (hlt : seq < 2 ^ 48) :
    getTag id = tag.toUInt64.toUInt8 ∧ getSlot id = slot ∧ isValid id = true := by
  rw [make_toNat] at hid
  have hslot := slot.toNat_lt
  have htag : tag.toUInt64.toNat < 2 ^ 8 := by cases tag <;> decide
  refine ⟨?_, ?_, ?_⟩
  · apply UInt8.toNat_inj.mp
    rw [getTag_toNat, UInt64.toNat_toUInt8, hid]
    omega
  · apply UInt8.toNat_inj.mp
    rw [getSlot_toNat, hid]
    omega
  · have hseq : (getSeq id).toNat ≠ 0 := by
      rw [getSeq_toNat, hid]
      omega
    exact bne_iff_ne.mpr fun hzero => hseq (by rw [hzero]; rfl)

/-! ## Consecutive calls -/

/-- The counter wraps at a multiple of `2 ^ 48`, so nothing is seen of it. -/
theorem seqAfter_mod (c : Nat) : seqAfter (c % 2 ^ 64) = seqAfter c := by
  have hmod : (c % 2 ^ 64 + 1) % 2 ^ 48 = (c + 1) % 2 ^ 48 := by omega
  rw [seqAfter, seqAfter, hmod]

theorem map_toNat_keys {g : KeyGenerator} {a : Nat} (hp : g.mPrefix.toNat = a * 2 ^ 48) (n : Nat) :
    (keys n g).map UInt64.toNat =
      (List.range n).map fun i => g.mPrefix.toNat + seqAfter (g.mSeq.toNat + i) := by
  induction n generalizing g with
  | zero => rfl
  | succ n ih =>
      have hseq : g.next.mSeq.toNat = (g.mSeq.toNat + 1) % 2 ^ 64 := UInt64.toNat_add _ _
      rw [keys, List.map_cons, toNat_nextId hp, ih (g := g.next) hp, List.range_succ_eq_map,
        List.map_cons, List.map_map]
      congr 1
      refine List.map_congr_left fun i hi => ?_
      rw [next_mPrefix, Function.comp, ← seqAfter_mod (g.next.mSeq.toNat + i), hseq,
        Nat.mod_add_mod, seqAfter_mod, Nat.add_right_comm, Nat.add_assoc]

theorem make_mul (tag : KeyTag) (slot : UInt8) :
    (make tag slot).mPrefix.toNat = (tag.toUInt64.toNat * 2 ^ 8 + slot.toNat) * 2 ^ 48 := by
  rw [make_toNat]
  omega

/-- Every key has the tag and the slot, and is valid. -/
theorem decodes_keys (mSeq : UInt64) (n : Nat) :
    ∀ id ∈ keys n ⟨(make tag slot).mPrefix, mSeq⟩,
      getTag id = tag.toUInt64.toUInt8 ∧ getSlot id = slot ∧ isValid id = true := by
  intro id hmem
  have hkey : id.toNat ∈ (keys n ⟨(make tag slot).mPrefix, mSeq⟩).map UInt64.toNat :=
    List.mem_map_of_mem hmem
  rw [map_toNat_keys (g := ⟨(make tag slot).mPrefix, mSeq⟩) (make_mul tag slot)] at hkey
  obtain ⟨i, -, hid⟩ := List.mem_map.mp hkey
  exact decodes_of_toNat hid.symm (seqAfter_pos _) (seqAfter_lt _)

/-- Calls less than `2 ^ 48 - 1` apart get the same number only if they follow each other
and the first has 1 in place of 0. -/
theorem seqAfter_eq_iff {c i j : Nat} (hlt : i < j) (hnear : j < i + (2 ^ 48 - 1)) :
    seqAfter (c + i) = seqAfter (c + j) ↔ j = i + 1 ∧ (c + i + 1) % 2 ^ 48 = 0 := by
  rw [seqAfter, seqAfter]
  constructor
  · intro heq
    split at heq
    next hi =>
      split at heq
      next hj => omega
      next hj => omega
    next hi =>
      split at heq
      next hj => omega
      next hj => omega
  · rintro ⟨rfl, hzero⟩
    rw [if_pos hzero, if_neg (by omega)]
    omega

/-- The keys are different exactly when no call but the last brings the counter to a multiple
of `2 ^ 48`. -/
theorem nodup_keys_iff {g : KeyGenerator} {a n : Nat} (hp : g.mPrefix.toNat = a * 2 ^ 48)
    (hn : n < 2 ^ 48 - 1) :
    (keys n g).Nodup ↔ ∀ i < n - 1, (g.mSeq.toNat + i + 1) % 2 ^ 48 ≠ 0 := by
  rw [← List.nodup_map_iff (f := UInt64.toNat) fun _ _ h => UInt64.toNat_inj.mp h,
    map_toNat_keys hp, List.nodup_map_iff_inj_on List.nodup_range]
  constructor
  · intro hinj i hi hzero
    have heq := (seqAfter_eq_iff (c := g.mSeq.toNat) (Nat.lt_succ_self i)
      (Nat.add_lt_add_left (by decide) i)).mpr ⟨rfl, hzero⟩
    have := hinj i (List.mem_range.mpr (by omega)) (i + 1) (List.mem_range.mpr (by omega))
      (congrArg _ heq)
    omega
  · intro hnever i hi j hj heq
    have hi := List.mem_range.mp hi
    have hj := List.mem_range.mp hj
    have heq := Nat.add_left_cancel heq
    rcases Nat.lt_trichotomy i j with hlt | rfl | hlt
    · obtain ⟨rfl, hzero⟩ := (seqAfter_eq_iff hlt (by omega)).mp heq
      exact absurd hzero (hnever i (by omega))
    · rfl
    · obtain ⟨rfl, hzero⟩ := (seqAfter_eq_iff hlt (by omega)).mp heq.symm
      exact absurd hzero (hnever j (by omega))

end

/-- The keys of fewer than `2 ^ 48 - 1` calls are as promised exactly when no call but the last
brings the counter to a multiple of `2 ^ 48`. -/
theorem keysOk_iff (tag : KeyTag) (slot : UInt8) (mSeq : UInt64) (n : Nat) (hn : n < 2 ^ 48 - 1) :
    KeysOk tag slot mSeq n ↔ ∀ i < n - 1, (mSeq.toNat + i + 1) % 2 ^ 48 ≠ 0 := by
  rw [← nodup_keys_iff (g := ⟨(make tag slot).mPrefix, mSeq⟩) (make_mul tag slot) hn]
  exact ⟨fun h => h.distinct, fun h => ⟨decodes_keys mSeq n, h⟩⟩

theorem keysOk_fiveCalls : KeysOk .dbQuery 3 (2 ^ 48 - 5) 5 :=
  (keysOk_iff .dbQuery 3 (2 ^ 48 - 5) 5 (by decide)).mpr (by decide)

/-- The counter stands before a multiple of `2 ^ 48`, and `Next` is called twice. -/
theorem not_keysOk_wrap : ¬ KeysOk .dbQuery 3 (2 ^ 48 - 1) 2 :=
  fun h => absurd h.distinct (by decide)

end NetworkModule.KeyGenerator
