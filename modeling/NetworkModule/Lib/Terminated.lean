import Mathlib.Data.Set.Function
import Mathlib.Data.List.Basic

/-!
# Fields with a terminator

A list of fields is written one after the other, each with the same element behind it.  The
lengths are not written.  If the element is in none of the fields, then splitting there gives them
back (`splitOn_terminated`), so the fields can be told from what is written.
-/

namespace Terminated

variable {α : Type*}

/-- The fields, each with `sep` behind it. -/
def terminated (sep : α) (fields : List (List α)) : List α :=
  fields.flatMap fun field => field ++ [sep]

@[simp] theorem terminated_nil (sep : α) : terminated sep [] = [] := rfl

theorem terminated_cons (sep : α) (field : List α) (fields : List (List α)) :
    terminated sep (field :: fields) = field ++ sep :: terminated sep fields := by
  rw [terminated, List.flatMap_cons, List.append_assoc]
  rfl

theorem terminated_append (sep : α) (fields fields' : List (List α)) :
    terminated sep (fields ++ fields') = terminated sep fields ++ terminated sep fields' :=
  List.flatMap_append

/-- Splitting at the terminator gives the fields, and nothing behind the last of them. -/
theorem splitOn_terminated [BEq α] [LawfulBEq α] {sep : α} {fields : List (List α)}
    (h : ∀ field ∈ fields, sep ∉ field) : (terminated sep fields).splitOn sep = fields ++ [[]] := by
  induction fields with
  | nil => exact List.splitOn_nil sep
  | cons field fields ih =>
      obtain ⟨hfield, hfields⟩ := List.forall_mem_cons.mp h
      rw [terminated_cons, List.splitOn_append_cons_self_of_not_mem hfield, ih hfields]
      rfl

/-- Fields without the terminator are determined by what is written. -/
theorem terminated_injOn (sep : α) :
    Set.InjOn (terminated sep) {fields | ∀ field ∈ fields, sep ∉ field} := by
  classical
  intro fields h fields' h' heq
  have hsplit : fields ++ [[]] = fields' ++ [[]] := by
    rw [← splitOn_terminated h, ← splitOn_terminated h', heq]
  exact List.append_cancel_right hsplit

end Terminated
