import Mathlib

/-!
# Stores into a buffer

A store puts some bytes at an offset of a buffer.  Stores that stay inside the buffer and
apart from each other are all there in the end (`holds_applyAll`), in whatever order they
were made.
-/

namespace Stores

/-- Some bytes for an offset. -/
structure Store where
  offset : Nat
  bytes : List UInt8
  deriving DecidableEq, Repr

variable {buf : List UInt8} {ws : List Store} {v w : Store} {i n : Nat}

namespace Store

/-- The end of the bytes. -/
def stop (w : Store) : Nat := w.offset + w.bytes.length

/-- The buffer after the store. -/
def apply (buf : List UInt8) (w : Store) : List UInt8 :=
  buf.take w.offset ++ (w.bytes ++ buf.drop w.stop)

/-- The bytes lie in a buffer of this size. -/
def Inside (w : Store) (n : Nat) : Prop := w.stop ≤ n

/-- The bytes of two stores do not overlap. -/
def Apart (v w : Store) : Prop := v.stop ≤ w.offset ∨ w.stop ≤ v.offset

/-- The bytes are in the buffer. -/
def Holds (w : Store) (buf : List UInt8) : Prop :=
  ∀ i < w.bytes.length, buf[w.offset + i]? = w.bytes[i]?

theorem length_apply (h : w.Inside buf.length) : (apply buf w).length = buf.length := by
  have hstop : w.offset + w.bytes.length ≤ buf.length := h
  rw [apply, List.length_append, List.length_append, List.length_take, List.length_drop, stop]
  omega

theorem getElem?_apply (h : w.Inside buf.length) (hi : w.offset ≤ i) (hlt : i < w.stop) :
    (apply buf w)[i]? = w.bytes[i - w.offset]? := by
  have hstop : w.offset + w.bytes.length ≤ buf.length := h
  rw [stop] at hlt
  have htake : (buf.take w.offset).length = w.offset := by
    rw [List.length_take]
    omega
  rw [apply, List.getElem?_append_right (htake.trans_le hi), htake,
    List.getElem?_append_left (by omega)]

theorem getElem?_apply_of_outside (h : w.Inside buf.length) (hi : i < w.offset ∨ w.stop ≤ i) :
    (apply buf w)[i]? = buf[i]? := by
  have hstop : w.offset + w.bytes.length ≤ buf.length := h
  have htake : (buf.take w.offset).length = w.offset := by
    rw [List.length_take]
    omega
  rw [stop] at hi
  rw [apply]
  rcases hi with hbefore | hbehind
  · rw [List.getElem?_append_left (by omega), List.getElem?_take_of_lt hbefore]
  · rw [List.getElem?_append_right (by omega), htake, List.getElem?_append_right (by omega),
      List.getElem?_drop, stop]
    congr 1
    omega

theorem holds_apply (h : w.Inside buf.length) : w.Holds (apply buf w) := by
  intro i hi
  rw [getElem?_apply h (Nat.le_add_right _ _) (Nat.add_lt_add_left hi _),
    Nat.add_sub_cancel_left]

theorem Holds.apply (hv : v.Holds buf) (h : w.Inside buf.length) (happart : v.Apart w) :
    v.Holds (apply buf w) := by
  intro i hi
  have houtside : v.offset + i < w.offset ∨ w.stop ≤ v.offset + i := by
    rcases happart with hbefore | hbehind
    · rw [stop] at hbefore
      exact .inl (by omega)
    · exact .inr (Nat.le_add_right_of_le hbehind)
  rw [getElem?_apply_of_outside h houtside]
  exact hv i hi

end Store

/-- The buffer after some stores. -/
def applyAll (buf : List UInt8) (ws : List Store) : List UInt8 := ws.foldl Store.apply buf

theorem length_applyAll (hinside : ∀ w ∈ ws, w.Inside buf.length) :
    (applyAll buf ws).length = buf.length := by
  induction ws generalizing buf with
  | nil => rfl
  | cons w ws ih =>
      have hlen : (Store.apply buf w).length = buf.length :=
        Store.length_apply (hinside w List.mem_cons_self)
      have hrest : ∀ v ∈ ws, v.Inside (Store.apply buf w).length := by
        intro v hv
        rw [hlen]
        exact hinside v (List.mem_cons_of_mem _ hv)
      exact (ih hrest).trans hlen

theorem Store.Holds.applyAll (hv : v.Holds buf) (hinside : ∀ w ∈ ws, w.Inside buf.length)
    (happart : ∀ w ∈ ws, v.Apart w) : v.Holds (applyAll buf ws) := by
  induction ws generalizing buf with
  | nil => exact hv
  | cons w ws ih =>
      have hw : w.Inside buf.length := hinside w List.mem_cons_self
      apply ih (hv.apply hw (happart w List.mem_cons_self))
      · intro u hu
        rw [Store.length_apply hw]
        exact hinside u (List.mem_cons_of_mem _ hu)
      · intro u hu
        exact happart u (List.mem_cons_of_mem _ hu)

/-- Stores that do not overlap are all there in the end. -/
theorem holds_applyAll (hinside : ∀ w ∈ ws, w.Inside buf.length)
    (happart : ws.Pairwise Store.Apart) : ∀ w ∈ ws, w.Holds (applyAll buf ws) := by
  induction ws generalizing buf with
  | nil => exact fun w hw => absurd hw List.not_mem_nil
  | cons v ws ih =>
      have hv : v.Inside buf.length := hinside v List.mem_cons_self
      have hinside' : ∀ w ∈ ws, w.Inside (Store.apply buf v).length := by
        intro w hw
        rw [Store.length_apply hv]
        exact hinside w (List.mem_cons_of_mem _ hw)
      obtain ⟨hfirst, hrest⟩ := List.pairwise_cons.mp happart
      intro w hw
      rcases List.mem_cons.mp hw with rfl | hw
      · exact (Store.holds_apply hv).applyAll hinside' hfirst
      · exact ih hinside' hrest w hw

end Stores
