import AnpIdentity.Encoding.Unambiguous
import Mathlib.Data.Nat.Basic
import Mathlib.Data.String.Basic

/-! Strings and numbers as bytes: UTF-8 text and decimal numerals. -/

namespace AnpIdentity.Encoding

/-- The bytes of a string. -/
def utf8 (s : String) : List UInt8 := s.toByteArray.data.toList

theorem utf8_injective : Function.Injective utf8 := by
  intro s t same
  refine String.toByteArray_inj.mp (ByteArray.ext ?_)
  exact Array.toList_inj.mp same

theorem utf8_length (s : String) : (utf8 s).length = s.utf8ByteSize := by
  unfold utf8 String.utf8ByteSize
  rfl

/-- A number in decimal digits. -/
def decimal (n : Nat) : List UInt8 := (Nat.toDigits 10 n).map (fun c => UInt8.ofNat c.toNat)

private def value (digits : List UInt8) : Nat := digits.foldl (fun sum digit => 10 * sum + (digit.toNat - 48)) 0

private theorem digit_toNat {n : Nat} (small : n < 10) : (UInt8.ofNat n.digitChar.toNat).toNat = 48 + n := by
  rw [Nat.toNat_digitChar_of_lt_ten small, UInt8.toNat_ofNat', Nat.mod_eq_of_lt (by omega)]

private theorem value_decimal (n : Nat) : value (decimal n) = n := by
  induction n using Nat.strongRecOn with
  | ind n ih =>
    by_cases small : n < 10
    · unfold decimal value
      rw [Nat.toDigits_of_lt_base small]
      simp only [List.map_cons, List.map_nil, List.foldl_cons, List.foldl_nil, digit_toNat small]
      omega
    · have fewer := ih (n / 10) (by omega)
      unfold decimal value at fewer ⊢
      rw [Nat.toDigits_of_base_le (by omega) (by omega), List.map_append, List.foldl_append, fewer]
      simp only [List.map_cons, List.map_nil, List.foldl_cons, List.foldl_nil, digit_toNat (Nat.mod_lt n (by omega : 0 < 10))]
      omega

theorem decimal_injective : Function.Injective decimal := by
  intro m n same
  rw [← value_decimal m, ← value_decimal n, same]

theorem decimal_digits {n : Nat} {byte : UInt8} (inside : byte ∈ decimal n) : 48 ≤ byte.toNat ∧ byte.toNat ≤ 57 := by
  obtain ⟨c, listed, rfl⟩ := List.mem_map.mp inside
  have digit := Nat.isDigit_of_mem_toDigits (by omega) (by omega) listed
  have bounds : 48 ≤ c.toNat ∧ c.toNat ≤ 57 := by
    simpa [Char.isDigit, UInt32.le_iff_toNat_le] using digit
  rw [UInt8.toNat_ofNat', Nat.mod_eq_of_lt (by omega)]
  exact bounds

/-- A number that ends at a byte that is no digit. -/
theorem decimal_terminated {stop : UInt8} (other : stop.toNat < 48 ∨ 57 < stop.toNat) :
    Unambiguous (fun n => decimal n ++ [stop]) := by
  refine .terminated decimal_injective (fun n inside => ?_)
  have digits := decimal_digits inside
  omega

end AnpIdentity.Encoding
