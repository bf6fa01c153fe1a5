import TrackServer.Text.Utf8

/-!
# Proofs/Display — names that are text are displayed as that text

A name is text if its bytes are the UTF-8 encoding of one (`IsText`).  The reader of names goes
through the encoding of a character byte by byte and completes that character (`scan_encoding`), so
such a name is displayed as it stands (`display_bytes`).  Any other name is displayed as a text that
has other bytes (`bytes_display_eq_iff`).

Text or not, a name is displayed with as many line breaks as it has (`count_display`): no sequence
of more bytes gives one, and no broken sequence swallows one.
-/

namespace TrackServer.Utf8

/-- The bytes of a text are those of its characters in turn. -/
theorem bytes_ofList (characters : List Char) :
    Ascii.bytes (String.ofList characters) = characters.flatMap String.utf8EncodeChar := by
  rw [Ascii.bytes, String.toByteArray_ofList, List.utf8Encode, List.toList_data_toByteArray]

/-- A character below 0x80 has one byte… -/
theorem utf8EncodeChar_of_lt {c : Char} (h : c.toNat < 0x80) :
    String.utf8EncodeChar c = [UInt8.ofNat c.toNat] := by
  fun_cases String.utf8EncodeChar c with
  | case1 => rfl
  | case2 n hn | case3 n hn | case4 n hn => exact absurd (Nat.le_of_lt_succ h) hn

/-- …so a text of such characters has one byte a character. -/
theorem bytes_ofList_of_ascii {characters : List Char} (h : ∀ c ∈ characters, c.toNat < 0x80) :
    Ascii.bytes (String.ofList characters) = characters.map fun c => UInt8.ofNat c.toNat := by
  rw [bytes_ofList, List.map_eq_flatMap]
  induction characters with
  | nil => rfl
  | cons c rest ih =>
    rw [List.forall_mem_cons] at h
    rw [List.flatMap_cons, List.flatMap_cons, utf8EncodeChar_of_lt h.1, ih h.2]

/-! ## One byte -/

/-- A byte below 0x80 is a character. -/
theorem step_start_of_lt {n : Nat} (h : n < 0x80) :
    step .start (UInt8.ofNat n) = ([Char.ofNat n], .start) := by
  have hall : ∀ n < 0x80, step .start (UInt8.ofNat n) = ([Char.ofNat n], .start) := by
    decide +kernel
  exact hall n h

/-- The first byte of two. -/
theorem step_start_two {k : Nat} (hl : 2 ≤ k) (hu : k < 0x20) :
    step .start (UInt8.ofNat (k + 0xC0)) = ([], .inside k 0 0x80 0xBF) := by
  have hall : ∀ k < 0x20, 2 ≤ k →
      step .start (UInt8.ofNat (k + 0xC0)) = ([], .inside k 0 0x80 0xBF) := by
    decide +kernel
  exact hall k hu hl

/-- The first byte of three; the second one is bounded so that no shorter sequence and no surrogate
is admitted. -/
theorem step_start_three {k : Nat} (h : k < 0x10) :
    step .start (UInt8.ofNat (k + 0xE0))
      = ([], .inside k 1 (if k = 0 then 0xA0 else 0x80) (if k = 0xD then 0x9F else 0xBF)) := by
  have hall : ∀ k < 0x10, step .start (UInt8.ofNat (k + 0xE0))
      = ([], .inside k 1 (if k = 0 then 0xA0 else 0x80) (if k = 0xD then 0x9F else 0xBF)) := by
    decide +kernel
  exact hall k h

/-- The first byte of four; the second one is bounded so that no shorter sequence and nothing beyond
the last character is admitted. -/
theorem step_start_four {k : Nat} (h : k < 5) :
    step .start (UInt8.ofNat (k + 0xF0))
      = ([], .inside k 2 (if k = 0 then 0x90 else 0x80) (if k = 4 then 0x8F else 0xBF)) := by
  have hall : ∀ k < 5, step .start (UInt8.ofNat (k + 0xF0))
      = ([], .inside k 2 (if k = 0 then 0x90 else 0x80) (if k = 4 then 0x8F else 0xBF)) := by
    decide +kernel
  exact hall k h

/-- A byte that a sequence admits carries six bits. -/
theorem step_inside {value more k : Nat} {low high : UInt8} (hk : k < 0x40)
    (hlow : low.toNat ≤ k + 0x80) (hhigh : k + 0x80 ≤ high.toNat) :
    step (.inside value more low high) (UInt8.ofNat (k + 0x80))
      = match more with
        | 0 => ([Char.ofNat (value * 64 + k)], .start)
        | more + 1 => ([], .inside (value * 64 + k) more 0x80 0xBF) := by
  have hn : (UInt8.ofNat (k + 0x80)).toNat = k + 0x80 := by
    rw [UInt8.toNat_ofNat', Nat.mod_eq_of_lt (by omega)]
  have hadmits : low ≤ UInt8.ofNat (k + 0x80) ∧ UInt8.ofNat (k + 0x80) ≤ high := by
    rw [UInt8.le_iff_toNat_le, UInt8.le_iff_toNat_le, hn]
    exact ⟨hlow, hhigh⟩
  cases more <;> simp only [step, if_pos hadmits, hn, Nat.add_sub_cancel]

/-- The last byte of a sequence completes the character. -/
theorem scan_last {value k : Nat} (hk : k < 0x40) (rest : List UInt8) :
    scan (.inside value 0 0x80 0xBF) (UInt8.ofNat (k + 0x80) :: rest)
      = Char.ofNat (value * 64 + k) :: scan .start rest := by
  rw [scan_cons, step_inside hk]
  · rfl
  · exact Nat.le_add_left _ _
  · show k + 0x80 ≤ 0xBF
    omega

/-! ## One character -/

/-- The character of the two bytes that its number is cut into… -/
theorem scan_two {n : Nat} (hl : 0x7F < n) (hu : n ≤ 0x7FF) (rest : List UInt8) :
    scan .start (UInt8.ofNat (n / 64 + 0xC0) :: UInt8.ofNat (n % 64 + 0x80) :: rest)
      = Char.ofNat n :: scan .start rest := by
  rw [scan_cons, step_start_two (by omega) (by omega), List.nil_append, scan_last (by omega),
    show n / 64 * 64 + n % 64 = n by omega]

/-- …of the three bytes… -/
theorem scan_three {n : Nat} (hl : 0x7FF < n) (hu : n ≤ 0xFFFF)
    (valid : n < 0xD800 ∨ 0xDFFF < n) (rest : List UInt8) :
    scan .start (UInt8.ofNat (n / 4096 + 0xE0) :: UInt8.ofNat (n / 64 % 64 + 0x80)
        :: UInt8.ofNat (n % 64 + 0x80) :: rest)
      = Char.ofNat n :: scan .start rest := by
  have hlow : (if n / 4096 = 0 then 0xA0 else 0x80 : UInt8).toNat ≤ n / 64 % 64 + 0x80 := by
    split
    · show 0xA0 ≤ n / 64 % 64 + 0x80
      omega
    · exact Nat.le_add_left _ _
  have hhigh : n / 64 % 64 + 0x80 ≤ (if n / 4096 = 0xD then 0x9F else 0xBF : UInt8).toNat := by
    split
    · show n / 64 % 64 + 0x80 ≤ 0x9F
      omega
    · show n / 64 % 64 + 0x80 ≤ 0xBF
      omega
  rw [scan_cons, step_start_three (by omega), List.nil_append, scan_cons,
    step_inside (by omega) hlow hhigh, List.nil_append, scan_last (by omega),
    show (n / 4096 * 64 + n / 64 % 64) * 64 + n % 64 = n by omega]

/-- …or of the four bytes. -/
theorem scan_four {n : Nat} (hl : 0xFFFF < n) (hu : n < 0x110000) (rest : List UInt8) :
    scan .start (UInt8.ofNat (n / 262144 + 0xF0) :: UInt8.ofNat (n / 4096 % 64 + 0x80)
        :: UInt8.ofNat (n / 64 % 64 + 0x80) :: UInt8.ofNat (n % 64 + 0x80) :: rest)
      = Char.ofNat n :: scan .start rest := by
  have hlow : (if n / 262144 = 0 then 0x90 else 0x80 : UInt8).toNat ≤ n / 4096 % 64 + 0x80 := by
    split
    · show 0x90 ≤ n / 4096 % 64 + 0x80
      omega
    · exact Nat.le_add_left _ _
  have hhigh : n / 4096 % 64 + 0x80 ≤ (if n / 262144 = 4 then 0x8F else 0xBF : UInt8).toNat := by
    split
    · show n / 4096 % 64 + 0x80 ≤ 0x8F
      omega
    · show n / 4096 % 64 + 0x80 ≤ 0xBF
      omega
  have hthird : n / 64 % 64 + 0x80 ≤ (0xBF : UInt8).toNat := by
    show n / 64 % 64 + 0x80 ≤ 0xBF
    omega
  rw [scan_cons, step_start_four (by omega), List.nil_append, scan_cons,
    step_inside (by omega) hlow hhigh, List.nil_append, scan_cons,
    step_inside (by omega) (Nat.le_add_left _ _) hthird, List.nil_append, scan_last (by omega),
    show ((n / 262144 * 64 + n / 4096 % 64) * 64 + n / 64 % 64) * 64 + n % 64 = n by omega]

/-- **The encoding of a character is read as that character.** -/
theorem scan_encoding (c : Char) (rest : List UInt8) :
    scan .start (String.utf8EncodeChar c ++ rest) = c :: scan .start rest := by
  have hc : Char.ofNat c.val.toNat = c := Char.ofNat_toNat c
  have hvalid : c.val.toNat < 0xD800 ∨ 0xDFFF < c.val.toNat ∧ c.val.toNat < 0x110000 := c.valid
  rw [← congrArg (· :: scan .start rest) hc]
  fun_cases String.utf8EncodeChar c with
  | case1 n hn =>
    rw [List.singleton_append, scan_cons, step_start_of_lt (by omega)]
    rfl
  | case2 n hl hu =>
    rw [Nat.mod_eq_of_lt (show n / 64 < 0x20 by omega)]
    exact scan_two (by omega) hu rest
  | case3 n hl hl' hu =>
    rw [Nat.mod_eq_of_lt (show n / 4096 < 0x10 by omega)]
    exact scan_three (by omega) hu (hvalid.imp id And.left) rest
  | case4 n hl hl' hl'' =>
    rw [Nat.mod_eq_of_lt (show n / 262144 < 0x08 by omega)]
    exact scan_four (by omega) (by omega) rest

/-- **The encoding of characters is read as them.** -/
theorem scan_encodings (characters : List Char) :
    scan .start (characters.flatMap String.utf8EncodeChar) = characters := by
  induction characters with
  | nil => rfl
  | cons c rest ih => rw [List.flatMap_cons, scan_encoding, ih]

/-! ## Names -/

/-- A name that is text: its bytes are the encoding of one. -/
def IsText (name : List UInt8) : Prop :=
  ∃ text, Ascii.bytes text = name

/-- **A text is displayed as it stands.** -/
theorem display_bytes (text : String) : display (Ascii.bytes text) = text := by
  rw [← String.ofList_toList (s := text), bytes_ofList, display, scan_encodings]

/-- **The displayed text has the bytes of the name exactly if the name is text.** -/
theorem bytes_display_eq_iff {name : List UInt8} :
    Ascii.bytes (display name) = name ↔ IsText name := by
  refine ⟨fun h => ⟨display name, h⟩, ?_⟩
  rintro ⟨text, rfl⟩
  rw [display_bytes]

/-! ## Line breaks -/

/-- Whether the sequence that the reader is inside of can only give a character of two bytes or
more: the bits taken, with the least that the next byte adds, are those of no shorter one. -/
def Pending.wide : Pending → Bool
  | .start => true
  | .inside value 0 low _ => 0x80 ≤ low.toNat && 2 ≤ value
  | .inside value (_ + 1) low _ => 0x80 ≤ low.toNat && 2 ≤ value * 64 + (low.toNat - 0x80)

/-- Bits that make two or more are those of no shorter sequence, whatever follows. -/
theorem Pending.wide_inside {value more : Nat} {high : UInt8} (h : 2 ≤ value) :
    (inside value more 0x80 high).wide = true := by
  cases more with
  | zero => simpa [wide] using h
  | succ more =>
    simp only [wide, Bool.and_eq_true, decide_eq_true_eq]
    exact ⟨Nat.le_refl _, by omega⟩

theorem wide_lead (b : UInt8) : (lead b).2.wide = true := by
  have hall : ∀ n < 0x100, (lead (UInt8.ofNat n)).2.wide = true := by decide +kernel
  simpa using hall b.toNat b.toNat_lt

theorem count_lead (b : UInt8) : (lead b).1.count '\n' = [b].count Ascii.newline := by
  have hall : ∀ n < 0x100,
      (lead (UInt8.ofNat n)).1.count '\n' = [UInt8.ofNat n].count Ascii.newline := by
    decide +kernel
  simpa using hall b.toNat b.toNat_lt

theorem ofNat_ne_newline {n : Nat} (h : 0x80 ≤ n) : Char.ofNat n ≠ '\n' := by
  intro heq
  by_cases hvalid : n.isValidChar
  · have hchar : Char.ofNat n = Char.ofNatAux n hvalid := dif_pos hvalid
    have hn : n = 0x0A := congrArg Char.toNat (hchar.symm.trans heq)
    omega
  · have hchar : Char.ofNat n = '\x00' := dif_neg hvalid
    exact absurd (hchar.symm.trans heq) (by decide)

/-- A byte inside a sequence is no line break. -/
theorem count_of_le {b : UInt8} (h : 0x80 ≤ b.toNat) : [b].count Ascii.newline = 0 := by
  refine List.count_eq_zero.2 fun hmem => ?_
  rw [← List.mem_singleton.1 hmem] at h
  exact absurd h (by decide)

/-- One byte gives a line break exactly if it is one, and leaves no short sequence begun. -/
theorem step_wide {pending : Pending} (h : pending.wide = true) (b : UInt8) :
    (step pending b).1.count '\n' = [b].count Ascii.newline ∧ (step pending b).2.wide = true := by
  cases pending with
  | start => exact ⟨count_lead b, wide_lead b⟩
  | inside value more low high =>
    rw [step]
    split
    · next hadmits =>
      have hlow : low.toNat ≤ b.toNat := UInt8.le_iff_toNat_le.1 hadmits.1
      cases more with
      | zero =>
        simp only [Pending.wide, Bool.and_eq_true, decide_eq_true_eq] at h
        rw [count_of_le (by omega)]
        exact ⟨List.count_eq_zero.2 fun hmem =>
          ofNat_ne_newline (by omega) (List.mem_singleton.1 hmem).symm, rfl⟩
      | succ more =>
        simp only [Pending.wide, Bool.and_eq_true, decide_eq_true_eq] at h
        rw [count_of_le (by omega)]
        exact ⟨rfl, Pending.wide_inside (by omega)⟩
    · exact ⟨by rw [List.count_cons_of_ne (by decide), count_lead], wide_lead b⟩

theorem count_scan {pending : Pending} (h : pending.wide = true) (name : List UInt8) :
    (scan pending name).count '\n' = name.count Ascii.newline := by
  induction name generalizing pending with
  | nil => cases pending <;> rfl
  | cons b rest ih =>
    obtain ⟨hb, hwide⟩ := step_wide h b
    rw [scan_cons, List.count_append, hb, ih hwide, ← List.count_append, List.singleton_append]

/-- **A name is displayed with the line breaks that it has.** -/
theorem count_display (name : List UInt8) :
    (display name).toList.count '\n' = name.count Ascii.newline := by
  rw [display, String.toList_ofList, count_scan rfl]

end TrackServer.Utf8
