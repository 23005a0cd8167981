import Mathlib.Tactic.IntervalCases
import Sequencer.Text.Utf8

/-! Text that is encoded is read again as it was: no character is lost, and none is replaced. -/
namespace Sequencer.Text.Utf8

/-- The range of the second byte of a character of three bytes whose first byte holds `high`. -/
def secondOfThree (high : Nat) : UInt8 × UInt8 :=
  if high = 0 then (0xA0, 0xBF) else if high = 13 then (0x80, 0x9F) else (0x80, 0xBF)

/-- The range of the second byte of a character of four bytes whose first byte holds `high`. -/
def secondOfFour (high : Nat) : UInt8 × UInt8 :=
  if high = 0 then (0x90, 0xBF) else if high = 4 then (0x80, 0x8F) else (0x80, 0xBF)

theorem lead_one {n : Nat} (ascii : n ≤ 127) : lead (UInt8.ofNat n) = ([Char.ofNat n], .between) := by
  have small : (UInt8.ofNat n).toNat = n := by
    rw [UInt8.toNat_ofNat']
    omega
  have below : UInt8.ofNat n < 0x80 := by
    rw [UInt8.lt_iff_toNat_lt, small]
    exact Nat.lt_succ_of_le ascii
  rw [lead, if_pos below, small]

theorem lead_two {high : Nat} (least : 2 ≤ high) (most : high < 32) :
    lead (UInt8.ofNat (high + 192)) = ([], .inside high 1 0x80 0xBF) := by
  interval_cases high <;> rfl

theorem lead_three {high : Nat} (most : high < 16) : lead (UInt8.ofNat (high + 224)) =
    ([], .inside high 2 (secondOfThree high).1 (secondOfThree high).2) := by
  interval_cases high <;> rfl

theorem lead_four {high : Nat} (most : high ≤ 4) : lead (UInt8.ofNat (high + 240)) =
    ([], .inside high 3 (secondOfFour high).1 (secondOfFour high).2) := by
  interval_cases high <;> rfl

/-- The second byte of a character of three bytes rules out short characters and surrogates. -/
theorem within_secondOfThree {v : Nat} (least : 2048 ≤ v) (most : v < 65536)
    (valid : v < 55296 ∨ 57343 < v) :
    (secondOfThree (v / 4096)).1.toNat ≤ v / 64 % 64 + 128 ∧
      v / 64 % 64 + 128 ≤ (secondOfThree (v / 4096)).2.toNat := by
  unfold secondOfThree
  split
  · change 160 ≤ _ ∧ _ ≤ 191
    omega
  · split
    · change 128 ≤ _ ∧ _ ≤ 159
      omega
    · change 128 ≤ _ ∧ _ ≤ 191
      omega

/-- The second byte of a character of four bytes rules out short characters and too large ones. -/
theorem within_secondOfFour {v : Nat} (least : 65536 ≤ v) (most : v < 1114112) :
    (secondOfFour (v / 262144)).1.toNat ≤ v / 4096 % 64 + 128 ∧
      v / 4096 % 64 + 128 ≤ (secondOfFour (v / 262144)).2.toNat := by
  unfold secondOfFour
  split
  · change 144 ≤ _ ∧ _ ≤ 191
    omega
  · split
    · change 128 ≤ _ ∧ _ ≤ 143
      omega
    · change 128 ≤ _ ∧ _ ≤ 191
      omega

theorem decodeFrom_lead {next : State} {b : UInt8} {completed : List Char}
    (begins : lead b = (completed, next)) (rest : List UInt8) :
    decodeFrom .between (b :: rest) = completed ++ decodeFrom next rest := by
  rw [decodeFrom.eq_def]
  dsimp only [step]
  rw [begins]

/-- A later byte of a character, in its range, adds six bits. -/
theorem step_inside {bits missing six : Nat} {low high : UInt8} (few : six < 64)
    (least : low.toNat ≤ six + 128) (most : six + 128 ≤ high.toNat) :
    step (.inside bits missing low high) (UInt8.ofNat (six + 128)) =
      if missing ≤ 1 then ([Char.ofNat (bits * 64 + six)], .between)
      else ([], .inside (bits * 64 + six) (missing - 1) 0x80 0xBF) := by
  have value : (UInt8.ofNat (six + 128)).toNat = six + 128 := by
    rw [UInt8.toNat_ofNat']
    omega
  have within : low ≤ UInt8.ofNat (six + 128) ∧ UInt8.ofNat (six + 128) ≤ high := by
    rw [UInt8.le_iff_toNat_le, UInt8.le_iff_toNat_le, value]
    exact ⟨least, most⟩
  have last : (six + 128) % 64 = six := by omega
  simp only [step, within, and_self, if_true, value, last]

theorem decodeFrom_second {bits missing six : Nat} {range : UInt8 × UInt8} (few : six < 64)
    (within : range.1.toNat ≤ six + 128 ∧ six + 128 ≤ range.2.toNat) (rest : List UInt8) :
    decodeFrom (.inside bits (missing + 2) range.1 range.2) (UInt8.ofNat (six + 128) :: rest) =
      decodeFrom (.inside (bits * 64 + six) (missing + 1) 0x80 0xBF) rest := by
  rw [decodeFrom.eq_def]
  dsimp only
  rw [step_inside few within.1 within.2, if_neg (by omega)]
  rfl

theorem decodeFrom_middle {bits missing six : Nat} (few : six < 64) (rest : List UInt8) :
    decodeFrom (.inside bits (missing + 2) 0x80 0xBF) (UInt8.ofNat (six + 128) :: rest) =
      decodeFrom (.inside (bits * 64 + six) (missing + 1) 0x80 0xBF) rest := by
  refine @decodeFrom_second bits missing six (0x80, 0xBF) few ?_ rest
  change 128 ≤ six + 128 ∧ six + 128 ≤ 191
  omega

theorem decodeFrom_last {bits six : Nat} (few : six < 64) (rest : List UInt8) :
    decodeFrom (.inside bits 1 0x80 0xBF) (UInt8.ofNat (six + 128) :: rest) =
      Char.ofNat (bits * 64 + six) :: decodeFrom .between rest := by
  have least : (0x80 : UInt8).toNat ≤ six + 128 := Nat.le_add_left 128 six
  have most : six + 128 ≤ (0xBF : UInt8).toNat := by
    change six + 128 ≤ 191
    omega
  rw [decodeFrom.eq_def]
  dsimp only
  rw [step_inside few least most, if_pos (Nat.le_refl 1)]
  rfl

/-- The bytes of a character are read as that character, whatever comes behind them. -/
theorem decodeFrom_encodeChar (c : Char) (rest : List UInt8) :
    decodeFrom .between (String.utf8EncodeChar c ++ rest) = c :: decodeFrom .between rest := by
  have valid : c.val.toNat < 55296 ∨ 57343 < c.val.toNat ∧ c.val.toNat < 1114112 := c.valid
  have same : Char.ofNat c.val.toNat = c := Char.ofNat_toNat c
  unfold String.utf8EncodeChar
  dsimp only
  generalize c.val.toNat = v at valid same ⊢
  -- A character takes one to four bytes.
  split
  · rename_i ascii
    rw [List.singleton_append, decodeFrom_lead (lead_one ascii), same]
    rfl
  · split
    · have first : v / 64 % 32 = v / 64 := by omega
      have all : v / 64 * 64 + v % 64 = v := by omega
      simp only [List.cons_append, List.nil_append]
      rw [first, decodeFrom_lead (lead_two (by omega) (by omega)), List.nil_append,
        decodeFrom_last (by omega), all, same]
    · split
      · have first : v / 4096 % 16 = v / 4096 := by omega
        have all : (v / 4096 * 64 + v / 64 % 64) * 64 + v % 64 = v := by omega
        have second := within_secondOfThree (v := v) (by omega) (by omega) (by omega)
        simp only [List.cons_append, List.nil_append]
        rw [first, decodeFrom_lead (lead_three (by omega)), List.nil_append,
          decodeFrom_second (by omega) second, decodeFrom_last (by omega), all, same]
      · have first : v / 262144 % 8 = v / 262144 := by omega
        have all : ((v / 262144 * 64 + v / 4096 % 64) * 64 + v / 64 % 64) * 64 + v % 64 = v := by
          omega
        have second := within_secondOfFour (v := v) (by omega) (by omega)
        simp only [List.cons_append, List.nil_append]
        rw [first, decodeFrom_lead (lead_four (by omega)), List.nil_append,
          decodeFrom_second (by omega) second, decodeFrom_middle (by omega),
          decodeFrom_last (by omega), all, same]

theorem decode_encode (text : String) : decode (encode text) = text := by
  have all (characters : List Char) :
      decodeFrom .between (characters.flatMap String.utf8EncodeChar) = characters := by
    induction characters with
    | nil => rfl
    | cons c rest ih => rw [List.flatMap_cons, decodeFrom_encodeChar, ih]
  rw [decode, encode, all, String.ofList_toList]

end Sequencer.Text.Utf8
