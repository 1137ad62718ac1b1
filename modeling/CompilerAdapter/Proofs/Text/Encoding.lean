import CompilerAdapter.Text.Encoding

/-!
# Numerals and bytes read back

A number is read back from its hexadecimal digits, with zeros in front of them or without, and a text of ASCII
characters from its bytes.
-/

namespace CompilerAdapter

/-! ### Hexadecimal digits -/

variable {n : Nat}

theorem hexValue?_digitChar (digit : n < 16) : hexValue? n.digitChar = some n := by
  have all : ∀ k : Fin 16, hexValue? (Nat.digitChar k) = some k.val := by decide
  exact all ⟨n, digit⟩

theorem hexNumber?_toDigits (n : Nat) : hexNumber? (Nat.toDigits 16 n) = some n := by
  induction n using Nat.strongRecOn with
  | ind n ih =>
    unfold hexNumber? at ih ⊢
    by_cases single : n < 16
    · rw [Nat.toDigits_of_lt_base single]
      simp [hexValue?_digitChar single]
    · have least : 16 ≤ n := by omega
      have last := hexValue?_digitChar (n := n % 16) (by omega)
      rw [Nat.toDigits_of_base_le (by decide) least, List.foldlM_append, ih (n / 16) (by omega)]
      simp [last]
      omega

theorem hexNumber?_hexDigits (width n : Nat) : hexNumber? (hexDigits width n) = some n := by
  unfold hexDigits
  dsimp only
  generalize width - (Nat.toDigits 16 n).length = zeros
  induction zeros with
  | zero => exact hexNumber?_toDigits n
  | succ zeros ih => exact ih

theorem length_hexDigits (small : n < 65536) : (hexDigits 4 n).length = 4 := by
  have short : (Nat.toDigits 16 n).length ≤ 4 := (Nat.length_toDigits_le_iff (by decide) (by decide)).mpr small
  unfold hexDigits
  rw [List.length_append, List.length_replicate]
  omega

/-! ### Bytes -/

theorem toNat_toUInt8 {c : Char} (plain : c.toNat < 0x80) : c.toUInt8.toNat = c.toNat := by
  rw [Char.toUInt8, UInt32.toNat_toUInt8]
  exact Nat.mod_eq_of_lt (Nat.lt_trans plain (by decide))

namespace Utf8

variable {text : List Char}

theorem decodeFrom_plain (plain : ∀ c ∈ text, c.toNat < 0x80) (offset : Nat) (done : List Char) :
    decodeFrom offset done 0 (text.map Char.toNat) = .ok (done.reverse ++ text) := by
  induction text generalizing offset done with
  | nil => simp [decodeFrom]
  | cons c rest ih =>
    obtain ⟨here, later⟩ := List.forall_mem_cons.mp plain
    rw [List.map_cons, decodeFrom]
    simp [lead?, here, continuation, ih later]

theorem decode_plain (plain : ∀ c ∈ text, c.toNat < 0x80) : decode (text.map Char.toUInt8) = .ok text := by
  have bytes : (text.map Char.toUInt8).map UInt8.toNat = text.map Char.toNat := by
    rw [List.map_map]
    exact List.map_congr_left fun c member => toNat_toUInt8 (plain c member)
  rw [decode, bytes, decodeFrom_plain plain, List.reverse_nil, List.nil_append]

end Utf8

end CompilerAdapter
