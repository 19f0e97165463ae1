import Mathlib

/-!
# Text as the C++ library reads it

`std::getline` on a string stream, `std::stoull`, `std::stoi` and
`std::to_string`, over lists of characters.  A conversion that throws is `none`.

The lemmas say what reading gives back of what was written: a field up to its
delimiter (`getline_append`), and the digits of a number (`stoull_decimal`,
`stoi_decimal`).  Of a text that is cut off reading gives a cut field
(`getline_take_le`), and the first digits of a number are a number themselves
(`take_decimal`).
-/

namespace CppText

/-! ## getline -/

/-- `std::getline(ss, field, delim)`.  The argument is what is left of the stream,
and `none` if the end was met.  It fails if no character is left. -/
def getline (delim : Char) : Option (List Char) → Option (List Char × Option (List Char))
  | none => none
  | some [] => none
  | some (c :: cs) =>
      match (c :: cs).dropWhile (· ≠ delim) with
      | [] => some (c :: cs, none)
      | _ :: rest => some ((c :: cs).takeWhile (· ≠ delim), some rest)

@[simp] theorem getline_none (delim : Char) : getline delim none = none := rfl

@[simp] theorem getline_nil (delim : Char) : getline delim (some []) = none := rfl

/-- A field without the delimiter, and the delimiter after it. -/
theorem getline_append {delim : Char} {field : List Char} (h : delim ∉ field) (rest : List Char) :
    getline delim (some (field ++ delim :: rest)) = some (field, some rest) := by
  have hall : ∀ c ∈ field, decide (c ≠ delim) = true := by
    intro c hc
    simpa using fun he : c = delim => h (he ▸ hc)
  have hdrop : (field ++ delim :: rest).dropWhile (· ≠ delim) = delim :: rest := by
    rw [List.dropWhile_append_of_pos hall, List.dropWhile_cons_of_neg (by simp)]
  have htake : (field ++ delim :: rest).takeWhile (· ≠ delim) = field := by
    rw [List.takeWhile_append_of_pos hall, List.takeWhile_cons_of_neg (by simp), List.append_nil]
  obtain ⟨c, cs, hcs⟩ : ∃ c cs, field ++ delim :: rest = c :: cs := by
    cases field with
    | nil => exact ⟨_, _, rfl⟩
    | cons c cs => exact ⟨_, _, rfl⟩
  rw [hcs] at hdrop htake ⊢
  simp only [getline, hdrop, htake]

/-- A last field without the delimiter. -/
theorem getline_end {delim : Char} {field : List Char} (h : delim ∉ field) (hne : field ≠ []) :
    getline delim (some field) = some (field, none) := by
  cases field with
  | nil => exact absurd rfl hne
  | cons c cs =>
      have hdrop : (c :: cs).dropWhile (· ≠ delim) = [] := by
        rw [List.dropWhile_eq_nil_iff]
        intro x hx
        simpa using fun he : x = delim => h (he ▸ hx)
      simp only [getline, hdrop]

/-- The rest of the line, which may be empty. -/
theorem getline_rest {delim : Char} {field : List Char} (h : delim ∉ field) :
    ((getline delim (some field)).map Prod.fst).getD [] = field := by
  by_cases hne : field = []
  · subst hne
    rfl
  · rw [getline_end h hne]
    rfl

/-- A field that is cut short is the last one. -/
theorem getline_take_le {delim : Char} {field : List Char} (h : delim ∉ field) (rest : List Char)
    {k : Nat} (hk : k ≤ field.length) :
    getline delim (some ((field ++ delim :: rest).take k)) =
      if k = 0 ∨ field = [] then none else some (field.take k, none) := by
  rw [List.take_append_of_le_length hk]
  split
  next h0 =>
    have hnil : field.take k = [] := List.take_eq_nil_iff.mpr h0
    rw [hnil]
    rfl
  next h0 =>
    exact getline_end (fun hc => h (List.mem_of_mem_take hc)) fun hnil =>
      h0 (List.take_eq_nil_iff.mp hnil)

/-- A field that is not cut, with what is left after it. -/
theorem getline_take_gt {delim : Char} {field : List Char} (h : delim ∉ field) (rest : List Char)
    {k : Nat} (hk : field.length < k) :
    getline delim (some ((field ++ delim :: rest).take k)) =
      some (field, some (rest.take (k - field.length - 1))) := by
  obtain ⟨j, rfl⟩ : ∃ j, k = field.length + 1 + j := ⟨k - field.length - 1, by omega⟩
  have hsplit : (field ++ delim :: rest).take (field.length + 1 + j) =
      field ++ delim :: rest.take j := by
    rw [Nat.add_assoc, List.take_length_add_append, Nat.add_comm 1 j, List.take_succ_cons]
  have hsub : field.length + 1 + j - field.length - 1 = j := by omega
  rw [hsplit, hsub, getline_append h]

/-! ## Numbers -/

/-- `isspace` in the C locale. -/
def isSpace (c : Char) : Bool := c = ' ' || (9 ≤ c.toNat && c.toNat ≤ 13)

/-- An optional sign. -/
def scanSign : List Char → Bool × List Char
  | '-' :: rest => (true, rest)
  | '+' :: rest => (false, rest)
  | rest => (false, rest)

/-- What `strtoull` and `strtol` read: a sign and the digits after it.  Leading blanks
are skipped, and what follows the digits is ignored. -/
def scanNumber (cs : List Char) : Option (Bool × Nat) :=
  let signed := scanSign (cs.dropWhile isSpace)
  let ds := signed.2.takeWhile Char.isDigit
  if ds.isEmpty then none else some (signed.1, Nat.ofDigitChars 10 ds 0)

/-- `std::stoull`. -/
def stoull (cs : List Char) : Option UInt64 :=
  match scanNumber cs with
  | none => none
  | some (neg, n) =>
      if n < 2 ^ 64 then some (if neg then 0 - UInt64.ofNat n else UInt64.ofNat n) else none

/-- `std::stoi`. -/
def stoi (cs : List Char) : Option Int :=
  match scanNumber cs with
  | none => none
  | some (neg, n) =>
      let z : Int := if neg then -(n : Int) else n
      if -2 ^ 31 ≤ z ∧ z < 2 ^ 31 then some z else none

/-- `std::to_string`, and `operator<<` of a stream, on an unsigned number. -/
def decimal (n : Nat) : List Char := Nat.toDigits 10 n

theorem isDigit_of_mem_decimal {n : Nat} {c : Char} (h : c ∈ decimal n) : c.isDigit = true :=
  Nat.isDigit_of_mem_toDigits (by decide) (by decide) h

/-- A character that is no digit does not occur in a number. -/
theorem notMem_decimal {c : Char} (h : c.isDigit = false) (n : Nat) : c ∉ decimal n := by
  intro hc
  rw [isDigit_of_mem_decimal hc] at h
  cases h

theorem isSpace_of_isDigit {c : Char} (h : c.isDigit = true) : isSpace c = false := by
  simp only [Char.isDigit, Bool.and_eq_true, decide_eq_true_eq] at h
  have h48 : 48 ≤ c.toNat := h.1
  have hne : c ≠ ' ' := by
    rintro rfl
    exact absurd h48 (by decide)
  have h13 : ¬ c.toNat ≤ 13 := by omega
  simp [isSpace, hne, h13]

theorem scanSign_of_isDigit {c : Char} (h : c.isDigit = true) (cs : List Char) :
    scanSign (c :: cs) = (false, c :: cs) := by
  have hminus : c ≠ '-' := by rintro rfl; cases h
  have hplus : c ≠ '+' := by rintro rfl; cases h
  simp [scanSign, hminus, hplus]

theorem scanNumber_decimal (n : Nat) : scanNumber (decimal n) = some (false, n) := by
  obtain ⟨c, cs, hcs⟩ : ∃ c cs, decimal n = c :: cs := by
    cases h : decimal n with
    | nil => exact absurd h Nat.toDigits_ne_nil
    | cons c cs => exact ⟨c, cs, rfl⟩
  have hall : ∀ x ∈ c :: cs, x.isDigit = true := fun x hx =>
    isDigit_of_mem_decimal (n := n) (hcs ▸ hx)
  have hc : c.isDigit = true := hall c List.mem_cons_self
  have htake : (c :: cs).takeWhile Char.isDigit = c :: cs := List.takeWhile_eq_self_iff.mpr hall
  have hval : Nat.ofDigitChars 10 (c :: cs) 0 = n := by
    rw [← hcs]
    exact Nat.ofDigitChars_ten_toDigits
  rw [scanNumber, hcs, List.dropWhile_cons_of_neg (by simp [isSpace_of_isDigit hc]),
    scanSign_of_isDigit hc]
  simp only [htake, hval]
  rfl

theorem stoull_decimal {n : Nat} (h : n < 2 ^ 64) : stoull (decimal n) = some (UInt64.ofNat n) := by
  simp only [stoull, scanNumber_decimal, if_pos h]
  rfl

theorem stoi_decimal {n : Nat} (h : n < 2 ^ 31) : stoi (decimal n) = some (n : Int) := by
  simp only [stoi, scanNumber_decimal]
  have hb : -2 ^ 31 ≤ (n : Int) ∧ (n : Int) < 2 ^ 31 := by omega
  rw [if_neg Bool.false_ne_true, if_pos hb]

/-- The first digits of a number are a number. -/
theorem take_decimal (n : Nat) {j : Nat} (hpos : 0 < j) (hle : j ≤ (decimal n).length) :
    (decimal n).take j = decimal (n / 10 ^ ((decimal n).length - j)) := by
  induction n using Nat.strong_induction_on with
  | _ n ih =>
    rcases Nat.lt_or_ge n 10 with hlt | hge
    · have hone : decimal n = [n.digitChar] := Nat.toDigits_of_lt_base hlt
      have hj : j = (decimal n).length := by
        rw [hone] at hle ⊢
        exact le_antisymm hle hpos
      rw [hj, List.take_length, Nat.sub_self, Nat.pow_zero, Nat.div_one]
    · have hsnoc : decimal n = decimal (n / 10) ++ [(n % 10).digitChar] :=
        Nat.toDigits_of_base_le (by decide) hge
      have hlen : (decimal n).length = (decimal (n / 10)).length + 1 := by
        rw [hsnoc, List.length_append, List.length_singleton]
      rcases Nat.eq_or_lt_of_le hle with hj | hj
      · rw [hj, List.take_length, Nat.sub_self, Nat.pow_zero, Nat.div_one]
      · have hshort : j ≤ (decimal (n / 10)).length := by omega
        have hexp : (decimal n).length - j = ((decimal (n / 10)).length - j) + 1 := by omega
        rw [hexp, Nat.pow_succ', ← Nat.div_div_eq_div_mul, ← ih (n / 10) (by omega) hshort]
        conv_lhs => rw [hsnoc, List.take_append_of_le_length hshort]

end CppText
