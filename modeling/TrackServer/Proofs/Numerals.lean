import Mathlib.Data.Nat.Digits.Defs
import TrackServer.Proofs.Display
import TrackServer.Text.Decimal

/-!
# Proofs/Numerals — which texts spell which numbers

A `Numeral` is an optional plus sign and one or more decimal digits, however many zeros stand in
front, and its value is the positional one.  Reading below a bound succeeds on exactly the numerals
whose value is below it (`read_eq_ok_iff`): the bound is looked at after every digit, but digits
never make a number smaller, so no numeral is lost and no value wraps.
-/

namespace TrackServer.Decimal

variable {bound v : Nat} {b : UInt8} {digits rest text : List UInt8}

/-! ## Digits -/

/-- The bytes of the ten digits. -/
def IsDigit (b : UInt8) : Prop :=
  0x30 ≤ b ∧ b ≤ 0x39

instance : DecidablePred IsDigit :=
  fun _ => inferInstanceAs (Decidable (_ ∧ _))

/-- **The number that digits spell**, the first of them the most significant. -/
def value (digits : List UInt8) : Nat :=
  Nat.ofDigits 10 (digits.reverse.map fun b => b.toNat - 0x30)

theorem value_nil : value [] = 0 := rfl

theorem value_cons (b : UInt8) (rest : List UInt8) :
    value (b :: rest) = (b.toNat - 0x30) * 10 ^ rest.length + value rest := by
  rw [value, List.reverse_cons, List.map_append, Nat.ofDigits_append, List.map_singleton,
    Nat.ofDigits_singleton, List.length_map, List.length_reverse, value]
  ring

theorem digit?_eq_some_iff {d : Nat} : digit? b = some d ↔ IsDigit b ∧ d = b.toNat - 0x30 := by
  unfold digit? IsDigit
  split <;> simp [*, eq_comm]

theorem readDigits_cons_of_isDigit (hb : IsDigit b) (start : Nat) (rest : List UInt8) :
    readDigits bound start (b :: rest)
      = if start * 10 + (b.toNat - 0x30) < bound
        then readDigits bound (start * 10 + (b.toNat - 0x30)) rest else .error .tooLarge := by
  rw [readDigits, digit?_eq_some_iff.2 ⟨hb, rfl⟩]

theorem readDigits_cons_of_not_isDigit (hb : ¬ IsDigit b) (start : Nat) (rest : List UInt8) :
    readDigits bound start (b :: rest) = .error .invalidDigit := by
  have hd : digit? b = none :=
    Option.eq_none_iff_forall_ne_some.2 fun d hd => hb (digit?_eq_some_iff.1 hd).1
  rw [readDigits, hd]

/-- Digits behind a number never make it smaller. -/
theorem le_mul_pow_add (n : Nat) (digits : List UInt8) :
    n ≤ n * 10 ^ digits.length + value digits :=
  Nat.le_add_right_of_le (Nat.le_mul_of_pos_right n (Nat.pow_pos (by decide)))

/-- **Digits are read on top of a value** as long as the number stays below the bound. -/
theorem readDigits_eq_ok_iff {start : Nat} : readDigits bound start digits = .ok v ↔
    (∀ b ∈ digits, IsDigit b) ∧ v = start * 10 ^ digits.length + value digits
      ∧ (digits = [] ∨ v < bound) := by
  induction digits generalizing start with
  | nil => simp [readDigits, value_nil, eq_comm]
  | cons b rest ih =>
    rw [List.forall_mem_cons, List.length_cons, value_cons]
    by_cases hb : IsDigit b
    · rw [readDigits_cons_of_isDigit hb]
      set d := b.toNat - 0x30
      have hv : start * 10 ^ (rest.length + 1) + (d * 10 ^ rest.length + value rest)
          = (start * 10 + d) * 10 ^ rest.length + value rest := by ring
      have hle := le_mul_pow_add (start * 10 + d) rest
      rw [hv]
      by_cases hlt : start * 10 + d < bound
      · rw [if_pos hlt, ih]
        constructor
        · rintro ⟨all, rfl, rfl | below⟩
          · exact ⟨⟨hb, all⟩, rfl, .inr (by simpa [value_nil] using hlt)⟩
          · exact ⟨⟨hb, all⟩, rfl, .inr below⟩
        · rintro ⟨⟨-, all⟩, rfl, hnil | below⟩
          · cases hnil
          · exact ⟨all, rfl, .inr below⟩
      · rw [if_neg hlt]
        refine iff_of_false (fun h => by cases h) ?_
        rintro ⟨-, rfl, hnil | below⟩
        · cases hnil
        · exact hlt (Nat.lt_of_le_of_lt hle below)
    · rw [readDigits_cons_of_not_isDigit hb]
      exact iff_of_false (fun h => by cases h) fun h => hb h.1.1

/-! ## Numerals -/

/-- **A numeral and its value**: digits, at least one, after an optional plus sign. -/
inductive Numeral : List UInt8 → Nat → Prop
  | plain {digits : List UInt8} (nonempty : digits ≠ []) (all : ∀ b ∈ digits, IsDigit b) :
    Numeral digits (value digits)
  | signed {digits : List UInt8} (nonempty : digits ≠ []) (all : ∀ b ∈ digits, IsDigit b) :
    Numeral (plus :: digits) (value digits)

/-- The plus sign is no digit. -/
theorem dropPlus_of_digits (h : ∀ b ∈ digits, IsDigit b) : dropPlus digits = digits := by
  cases digits with
  | nil => rfl
  | cons b rest =>
    have hb : b ≠ plus := by
      rintro rfl
      exact absurd (h plus List.mem_cons_self).1 (by decide)
    rw [dropPlus, if_neg hb]

/-- **A numeral is its digits after the sign.** -/
theorem numeral_iff : Numeral text v ↔
    dropPlus text ≠ [] ∧ (∀ b ∈ dropPlus text, IsDigit b) ∧ v = value (dropPlus text) := by
  constructor
  · intro h
    cases h with
    | plain nonempty all =>
      rw [dropPlus_of_digits all]
      exact ⟨nonempty, all, rfl⟩
    | signed nonempty all =>
      rw [dropPlus, if_pos rfl]
      exact ⟨nonempty, all, rfl⟩
  · rintro ⟨nonempty, all, rfl⟩
    cases text with
    | nil => exact absurd rfl nonempty
    | cons b rest =>
      by_cases hb : b = plus
      · subst hb
        rw [dropPlus, if_pos rfl] at nonempty all ⊢
        exact .signed nonempty all
      · rw [dropPlus, if_neg hb] at nonempty all ⊢
        exact .plain nonempty all

/-- **Reading below a bound succeeds exactly on the numerals of smaller numbers.** -/
theorem read_eq_ok_iff : read bound text = .ok v ↔ Numeral text v ∧ v < bound := by
  rw [numeral_iff, read]
  by_cases ht : text = []
  · subst ht
    simp [dropPlus]
  · rw [if_neg ht]
    by_cases hd : dropPlus text = []
    · simp [hd]
    · rw [if_neg hd, readDigits_eq_ok_iff, Nat.zero_mul, Nat.zero_add]
      simp only [hd, false_or, ne_eq, not_false_eq_true, true_and, and_assoc]

theorem read?_eq_some_iff : read? bound text = some v ↔ Numeral text v ∧ v < bound := by
  rw [← read_eq_ok_iff, read?]
  cases read bound text <;> simp [Except.toOption]

/-! ## Numbers written out -/

/-- The digits of a number are those from 0 to 9. -/
theorem toNat_of_mem_toDigits {n : Nat} {c : Char} (h : c ∈ Nat.toDigits 10 n) :
    0x30 ≤ c.toNat ∧ c.toNat ≤ 0x39 :=
  Char.isDigit_iff_toNat.1 (Nat.isDigit_of_mem_toDigits (by decide) (by decide) h)

theorem toNat_ofNat_digit {c : Char} (h : 0x30 ≤ c.toNat ∧ c.toNat ≤ 0x39) :
    (UInt8.ofNat c.toNat).toNat = c.toNat := by
  rw [UInt8.toNat_ofNat', Nat.mod_eq_of_lt (by omega)]

/-- A number is written in one byte a digit. -/
theorem bytes_toString (n : Nat) :
    Ascii.bytes (toString n) = (Nat.toDigits 10 n).map fun c => UInt8.ofNat c.toNat := by
  rw [Nat.toString_eq_ofList_toDigits]
  refine Utf8.bytes_ofList_of_ascii fun c hc => ?_
  exact Nat.lt_of_le_of_lt (toNat_of_mem_toDigits hc).2 (by decide)

theorem bytes_toString_ne_nil (n : Nat) : Ascii.bytes (toString n) ≠ [] := by
  rw [bytes_toString]
  exact mt List.map_eq_nil_iff.1 Nat.toDigits_ne_nil

theorem isDigit_of_mem_toString {n : Nat} (h : b ∈ Ascii.bytes (toString n)) : IsDigit b := by
  rw [bytes_toString, List.mem_map] at h
  obtain ⟨c, hc, rfl⟩ := h
  have hdigit := toNat_of_mem_toDigits hc
  rw [IsDigit, UInt8.le_iff_toNat_le, UInt8.le_iff_toNat_le, toNat_ofNat_digit hdigit]
  exact hdigit

/-- The bytes of digits spell the number that the digits do. -/
theorem value_map_toNat {digits : List Char}
    (h : ∀ c ∈ digits, 0x30 ≤ c.toNat ∧ c.toNat ≤ 0x39) :
    value (digits.map fun c => UInt8.ofNat c.toNat) = Nat.ofDigitChars 10 digits 0 := by
  induction digits with
  | nil => rfl
  | cons c rest ih =>
    rw [List.forall_mem_cons] at h
    calc value ((c :: rest).map fun c => UInt8.ofNat c.toNat)
        = (c.toNat - 0x30) * 10 ^ rest.length + Nat.ofDigitChars 10 rest 0 := by
          rw [List.map_cons, value_cons, ih h.2, List.length_map, toNat_ofNat_digit h.1]
      _ = 10 ^ rest.length * (c.toNat - 0x30) + Nat.ofDigitChars 10 rest 0 := by
          rw [Nat.mul_comm]
      _ = Nat.ofDigitChars 10 rest (c.toNat - 0x30) :=
          Nat.ofDigitChars_eq_ofDigitChars_zero.symm
      _ = Nat.ofDigitChars 10 (c :: rest) 0 := by
          rw [Nat.ofDigitChars_cons, Nat.mul_zero, Nat.zero_add]
          rfl

/-- **A number written out is a numeral of it.** -/
theorem numeral_toString (n : Nat) : Numeral (Ascii.bytes (toString n)) n := by
  have hvalue : value (Ascii.bytes (toString n)) = n := by
    rw [bytes_toString, value_map_toNat fun c => toNat_of_mem_toDigits,
      Nat.ofDigitChars_ten_toDigits]
  have hnumeral := Numeral.plain (bytes_toString_ne_nil n) fun b hb => isDigit_of_mem_toString hb
  rwa [hvalue] at hnumeral

/-- A number below a power of ten has no more digits than that. -/
theorem length_toString_le {n k : Nat} (hk : 0 < k) (h : n < 10 ^ k) :
    (Ascii.bytes (toString n)).length ≤ k := by
  rw [bytes_toString, List.length_map]
  exact (Nat.length_toDigits_le_iff (by decide) hk).2 h

end TrackServer.Decimal
