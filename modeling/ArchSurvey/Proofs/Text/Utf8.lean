import ArchSurvey.Text.Utf8

/-!
# Reading back UTF-8

The bytes of a text are read back as the text.
-/

namespace ArchSurvey.Text.Utf8

theorem toNat_ofNat_of_lt {n : Nat} (small : n < 256) :
    (UInt8.ofNat n).toNat = n := by
  rw [UInt8.toNat_ofNat']
  omega

/-- The rule of a first byte, by its value. -/
theorem sequenceRule_ofNat {n : Nat} (small : n < 256) :
    sequenceRule (UInt8.ofNat n) =
      if n < 0x80 then some (0, 0, 0)
      else if 0xC2 ≤ n ∧ n ≤ 0xDF then some (1, 0x80, 0xBF)
      else if n = 0xE0 then some (2, 0xA0, 0xBF)
      else if n = 0xED then some (2, 0x80, 0x9F)
      else if 0xE1 ≤ n ∧ n ≤ 0xEF then some (2, 0x80, 0xBF)
      else if n = 0xF0 then some (3, 0x90, 0xBF)
      else if 0xF1 ≤ n ∧ n ≤ 0xF3 then some (3, 0x80, 0xBF)
      else if n = 0xF4 then some (3, 0x80, 0x8F)
      else none := by
  have value := toNat_ofNat_of_lt small
  simp only [sequenceRule, UInt8.lt_iff_toNat_lt, UInt8.le_iff_toNat_le,
    beq_iff_eq, ← UInt8.toNat_inj, value, Bool.and_eq_true, decide_eq_true_eq]
  rfl

/-- A byte that continues a sequence within a range. -/
theorem matched_cons {count n : Nat} {low high : UInt8} (small : n < 256)
    (above : low.toNat ≤ n) (below : n ≤ high.toNat) (rest : List UInt8) :
    matched (count + 1) low high (UInt8.ofNat n :: rest) =
      1 + matched count 0x80 0xBF rest := by
  have value := toNat_ofNat_of_lt small
  simp [matched, UInt8.le_iff_toNat_le, value, above, below]

theorem matched_zero (low high : UInt8) (rest : List UInt8) :
    matched 0 low high rest = 0 := by
  cases rest <;> rfl

theorem units_cons {first : UInt8} {tail : List UInt8} {unit : Option Char}
    {taken : Nat} (read : next first tail = (unit, taken)) :
    units (first :: tail) = unit :: units (tail.drop taken) := by
  rw [units, read]

/-- A sequence that keeps its rule stands for one character. -/
theorem next_eq {first : UInt8} {count : Nat} {low high : UInt8}
    {tail : List UInt8} {c : Char}
    (rule : sequenceRule first = some (count, low, high))
    (complete : matched count low high tail = count)
    (value : codePoint first count tail = c.toNat) :
    next first tail = (some c, count) := by
  rw [next, rule]
  simp [complete, value, Char.ofNat_toNat]

/-- The first two bytes of three fit together. -/
theorem exists_rule_three {n : Nat} (large : 2048 ≤ n) (small : n ≤ 65535)
    (scalar : n < 0xD800 ∨ 0xDFFF < n) : ∃ low high : UInt8,
    sequenceRule (UInt8.ofNat (n / 4096 % 16 + 224)) = some (2, low, high) ∧
      low.toNat ≤ n / 64 % 64 + 128 ∧ n / 64 % 64 + 128 ≤ high.toNat := by
  rw [sequenceRule_ofNat (by omega), if_neg (by omega), if_neg (by omega)]
  by_cases first : n / 4096 % 16 + 224 = 0xE0
  · rw [if_pos first]
    exact ⟨_, _, rfl, by simp; omega, by simp; omega⟩
  · rw [if_neg first]
    by_cases before : n / 4096 % 16 + 224 = 0xED
    · rw [if_pos before]
      exact ⟨_, _, rfl, by simp, by simp; omega⟩
    · rw [if_neg before, if_pos (by omega)]
      exact ⟨_, _, rfl, by simp, by simp; omega⟩

/-- The first two bytes of four fit together. -/
theorem exists_rule_four {n : Nat} (large : 65536 ≤ n) (small : n < 0x110000) :
    ∃ low high : UInt8,
      sequenceRule (UInt8.ofNat (n / 262144 % 8 + 240)) = some (3, low, high) ∧
        low.toNat ≤ n / 4096 % 64 + 128 ∧ n / 4096 % 64 + 128 ≤ high.toNat := by
  rw [sequenceRule_ofNat (by omega), if_neg (by omega), if_neg (by omega),
    if_neg (by omega), if_neg (by omega), if_neg (by omega)]
  by_cases first : n / 262144 % 8 + 240 = 0xF0
  · rw [if_pos first]
    exact ⟨_, _, rfl, by simp; omega, by simp; omega⟩
  · rw [if_neg first]
    by_cases last : n / 262144 % 8 + 240 = 0xF4
    · rw [if_neg (by omega), if_pos last]
      exact ⟨_, _, rfl, by simp, by simp; omega⟩
    · rw [if_pos (by omega)]
      exact ⟨_, _, rfl, by simp, by simp; omega⟩

/-- The bytes of a character stand for it, whatever follows. -/
theorem units_utf8EncodeChar (c : Char) (rest : List UInt8) :
    units (String.utf8EncodeChar c ++ rest) = some c :: units rest := by
  have scalar : c.toNat < 0xD800 ∨ 0xDFFF < c.toNat ∧ c.toNat < 0x110000 :=
    c.valid
  generalize size : c.toNat = n at scalar
  have value : c.val.toNat = n := size
  rw [String.utf8EncodeChar, value]
  by_cases one : n ≤ 127
  · rw [if_pos one]
    refine units_cons (next_eq ?_ (matched_zero 0 0 rest) ?_)
    · rw [sequenceRule_ofNat (by omega), if_pos (by omega)]
    · simp [codePoint, size, Nat.mod_eq_of_lt (show n < 256 by omega)]
  · rw [if_neg one]
    by_cases two : n ≤ 2047
    · rw [if_pos two, List.cons_append, List.cons_append, List.nil_append]
      have rule : sequenceRule (UInt8.ofNat (n / 64 % 32 + 192)) =
          some (1, 0x80, 0xBF) := by
        rw [sequenceRule_ofNat (by omega), if_neg (by omega),
          if_pos (by omega)]
      refine units_cons (next_eq rule ?_ ?_)
      · rw [matched_cons (by omega) (by simp) (by simp; omega), matched_zero]
      · rw [size]
        simp [codePoint]
        omega
    · rw [if_neg two]
      by_cases three : n ≤ 65535
      · obtain ⟨low, high, rule, above, below⟩ :=
          exists_rule_three (n := n) (by omega) three (by omega)
        rw [if_pos three, List.cons_append, List.cons_append, List.cons_append,
          List.nil_append]
        refine units_cons (next_eq rule ?_ ?_)
        · rw [matched_cons (by omega) above below,
            matched_cons (by omega) (by simp) (by simp; omega), matched_zero]
        · rw [size]
          simp [codePoint]
          omega
      · obtain ⟨low, high, rule, above, below⟩ :=
          exists_rule_four (n := n) (by omega) (by omega)
        rw [if_neg three, List.cons_append, List.cons_append, List.cons_append,
          List.cons_append, List.nil_append]
        refine units_cons (next_eq rule ?_ ?_)
        · rw [matched_cons (by omega) above below,
            matched_cons (by omega) (by simp) (by simp; omega),
            matched_cons (by omega) (by simp) (by simp; omega), matched_zero]
        · rw [size]
          simp [codePoint]
          omega

theorem units_encode (text : List Char) :
    units (encode text) = text.map some := by
  induction text with
  | nil => simp [encode, units]
  | cons c rest ih =>
      rw [encode, List.flatMap_cons, units_utf8EncodeChar, List.map_cons]
      exact congrArg (some c :: ·) ih

/-- The bytes of a text are read back as the text. -/
theorem decode?_encode (text : List Char) :
    decode? (encode text) = some text := by
  rw [decode?, units_encode]
  induction text with
  | nil => rfl
  | cons c rest ih => simp [ih]

end ArchSurvey.Text.Utf8
