/-! # Identifiers of a dump

Channels are numbered, and the identifier of a channel is its number written in base sixty-four
without leading zeros. The digits are the letters, the ten numerals, the underscore and the dollar
sign, in this order.
-/

namespace SyncCircuit.Identifier

def alphabet : List Char :=
  "abcdefghijklmnopqrstuvwxyzABCDEFGHIJKLMNOPQRSTUVWXYZ0123456789_$".toList

def base : Nat := 64

def letter (digit : Nat) : Char :=
  alphabet.getD digit 'a'

/-- The digits of a number, most significant first. -/
def digits (n : Nat) : List Nat :=
  if n < base then [n] else digits (n / base) ++ [n % base]
termination_by n
decreasing_by
  rename_i large
  simp only [base] at *
  omega

/-- The identifier of the channel with a number. -/
def ofNat (n : Nat) : String :=
  String.ofList ((digits n).map letter)

/-- The number that digits stand for. -/
def valueOf (ds : List Nat) : Nat :=
  ds.foldl (fun value digit => value * base + digit) 0

theorem valueOf_digits (n : Nat) : valueOf (digits n) = n := by
  induction n using digits.induct with
  | case1 n small => rw [digits, if_pos small]; simp [valueOf]
  | case2 n large ih =>
      rw [digits, if_neg large]
      simp only [valueOf, List.foldl_append, List.foldl_cons, List.foldl_nil] at ih ⊢
      rw [ih, Nat.mul_comm]
      exact Nat.div_add_mod n base

theorem digits_lt (n : Nat) : ∀ digit ∈ digits n, digit < base := by
  induction n using digits.induct with
  | case1 n small =>
      rw [digits, if_pos small]
      simpa using small
  | case2 n large ih =>
      rw [digits, if_neg large]
      intro digit mem
      rcases List.mem_append.mp mem with first | last
      · exact ih digit first
      · rw [List.mem_singleton.mp last]
        exact Nat.mod_lt n (by decide)

theorem digits_ne_nil (n : Nat) : digits n ≠ [] := by
  rw [digits]
  split <;> simp

theorem head?_digits_eq_zero_iff (n : Nat) : (digits n).head? = some 0 ↔ n = 0 := by
  induction n using digits.induct with
  | case1 n small =>
      rw [digits, if_pos small]
      simp
  | case2 n large ih =>
      have positive : n / base ≠ 0 := by
        simp only [base] at *
        omega
      have nonzero : n ≠ 0 := by
        rintro rfl
        exact positive rfl
      obtain ⟨first, rest, split⟩ := List.exists_cons_of_ne_nil (digits_ne_nil (n / base))
      rw [split, List.head?_cons] at ih
      rw [digits, if_neg large, split, List.cons_append, List.head?_cons, ih]
      exact iff_of_false positive nonzero

theorem idxOf_letter : ∀ digit < base, alphabet.idxOf (letter digit) = digit := by decide +kernel

theorem length_alphabet : alphabet.length = base := by decide +kernel

theorem letter_mem_alphabet {digit : Nat} (h : digit < base) : letter digit ∈ alphabet := by
  rw [← List.idxOf_lt_length_iff, idxOf_letter digit h, length_alphabet]
  exact h

/-- The number that an identifier stands for: every letter is worth its place in the alphabet. -/
def toNat (id : String) : Nat :=
  valueOf (id.toList.map alphabet.idxOf)

@[simp]
theorem toNat_ofNat (n : Nat) : toNat (ofNat n) = n := by
  have read : ((digits n).map letter).map alphabet.idxOf = digits n := by
    rw [List.map_map]
    refine (List.map_congr_left fun digit mem => ?_).trans (List.map_id _)
    exact idxOf_letter digit (digits_lt n digit mem)
  rw [toNat, ofNat, String.toList_ofList, read, valueOf_digits]

/-- Different numbers have different identifiers. -/
theorem ofNat_injective {m n : Nat} (h : ofNat m = ofNat n) : m = n := by
  rw [← toNat_ofNat m, h, toNat_ofNat]

end SyncCircuit.Identifier
