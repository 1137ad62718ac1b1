import CompilerAdapter.Json.Reader
import CompilerAdapter.Json.Writer
import CompilerAdapter.Proofs.Text.Encoding

/-!
# Strings in JSON text

A character is written by its UTF-16 units, plainly, escaped by name or escaped unit by unit. Reading gathers the units
and puts the characters together again, so a string is read back as it was written: `readString_writeString`.
-/

namespace CompilerAdapter.Json

/-! ### Units -/

/-- The UTF-16 units of a character. -/
def unitsOf (c : Char) : List Nat :=
  if c.toNat < 0x10000 then [c.toNat]
  else [0xd800 + (c.toNat - 0x10000) / 0x400, 0xdc00 + (c.toNat - 0x10000) % 0x400]

theorem toNat_range (c : Char) : c.toNat < 0xd800 ∨ 0xdfff < c.toNat ∧ c.toNat < 0x110000 := c.valid

theorem highUnit_lt (c : Char) : 0xd800 + (c.toNat - 0x10000) / 0x400 < 16 ^ 4 := by
  have range := toNat_range c
  omega

theorem lowUnit_lt (c : Char) : 0xdc00 + (c.toNat - 0x10000) % 0x400 < 16 ^ 4 := by
  omega

theorem joinUnits_cons {n : Nat} (plain : isHighSurrogate n = false) (units : List Nat) :
    joinUnits (n :: units) = joinUnits.unitChar n :: joinUnits units := by
  cases units with
  | nil => rfl
  | cons next units => simp [joinUnits, plain]

theorem joinUnits_unitsOf_append (c : Char) (units : List Nat) :
    joinUnits (unitsOf c ++ units) = c :: joinUnits units := by
  have range := toNat_range c
  unfold unitsOf
  split
  · have notHigh : isHighSurrogate c.toNat = false := by
      simp [isHighSurrogate]
      omega
    have notLow : isLowSurrogate c.toNat = false := by
      simp [isLowSurrogate]
      omega
    rw [List.singleton_append, joinUnits_cons notHigh]
    simp [joinUnits.unitChar, notHigh, notLow]
  · generalize offset : c.toNat - 0x10000 = k
    have high : isHighSurrogate (0xd800 + k / 0x400) = true := by
      simp [isHighSurrogate]
      omega
    have low : isLowSurrogate (0xdc00 + k % 0x400) = true := by
      simp [isLowSurrogate]
      omega
    have whole : 0x10000 + (0xd800 + k / 0x400 - 0xd800) * 0x400 + (0xdc00 + k % 0x400 - 0xdc00) = c.toNat := by
      omega
    rw [List.cons_append, List.singleton_append, joinUnits, high, low, whole]
    simp

theorem joinUnits_flatMap_unitsOf (s : List Char) : joinUnits (s.flatMap unitsOf) = s := by
  induction s with
  | nil => rfl
  | cons c s ih => rw [List.flatMap_cons, joinUnits_unitsOf_append, ih]

/-! ### Reading what was written -/

variable {opening rest : List Char} {units : List Nat}

/-- An escaped unit is read if the text goes on behind it. -/
theorem readUnits_unitEscape {n : Nat} (small : n < 16 ^ 4) (more : rest ≠ []) :
    readUnits opening units (unitEscape n ++ rest) = readUnits opening (n :: units) rest := by
  have spelled := hexNumber?_hexDigits 4 n
  have four := length_hexDigits small
  unfold unitEscape
  obtain ⟨next, rest, rfl⟩ := List.exists_cons_of_ne_nil more
  match hexDigits 4 n, spelled, four with
  | [h₁, h₂, h₃, h₄], spelled, _ => simp [readUnits, spelled]

theorem readUnits_pair {high low : Nat} (h : high < 16 ^ 4) (l : low < 16 ^ 4) (more : rest ≠ []) :
    readUnits opening units (unitEscape high ++ unitEscape low ++ rest) =
      readUnits opening (low :: high :: units) rest := by
  have behind : unitEscape low ++ rest ≠ [] := by simp [unitEscape]
  rw [List.append_assoc, readUnits_unitEscape h behind, readUnits_unitEscape l more]

theorem readUnits_plain {c : Char} (visible : 0x20 ≤ c.toNat) (plain : ¬ (c = '"' ∨ c = '\\')) :
    readUnits opening units (c :: rest) = readUnits opening (c.toNat :: units) rest := by
  rw [not_or] at plain
  have shown : ¬ c.toNat < 0x20 := by omega
  rw [readUnits.eq_def]
  simp [plain, shown]

theorem readUnits_escaped {e d : Char} (named : escaped? e = some d) (units : List Nat) :
    readUnits opening units ('\\' :: e :: rest) = readUnits opening (d.toNat :: units) rest := by
  have noUnit : e ≠ 'u' := by
    intro same
    subst same
    cases named
  rw [readUnits.eq_def]
  simp [named]

theorem readUnits_writeChar (c : Char) (more : rest ≠ []) :
    readUnits opening units (writeChar c ++ rest) = readUnits opening ((unitsOf c).reverse ++ units) rest := by
  have single (small : c.toNat < 0x10000) : (unitsOf c).reverse ++ units = c.toNat :: units := by
    rw [unitsOf, if_pos small]
    rfl
  have named {e : Char} (known : escaped? e = some c) (small : c.toNat < 0x10000) :
      readUnits opening units (['\\', e] ++ rest) = readUnits opening ((unitsOf c).reverse ++ units) rest := by
    rw [single small]
    exact readUnits_escaped known units
  unfold writeChar
  split
  · rename_i mark
    rcases mark with rfl | rfl
    · exact named rfl (by decide)
    · exact named rfl (by decide)
  iterate 5
    split
    · subst c
      exact named rfl (by decide)
  rename_i plain _ _ _ _ _
  split
  · rename_i visible
    rw [single (by omega)]
    exact readUnits_plain visible.1 plain
  split
  · rename_i small
    rw [single small]
    exact readUnits_unitEscape small more
  · rename_i large
    rw [readUnits_pair (highUnit_lt c) (lowUnit_lt c) more, unitsOf, if_neg large]
    simp

theorem readUnits_quote : readUnits opening units ('"' :: rest) = .ok (units.reverse, rest) := by
  rw [readUnits.eq_def]
  simp

theorem readUnits_flatMap_writeChar (s : List Char) : readUnits opening units (s.flatMap writeChar ++ '"' :: rest) =
    .ok (units.reverse ++ s.flatMap unitsOf, rest) := by
  induction s generalizing units with
  | nil => simp [readUnits_quote]
  | cons c s ih =>
    rw [List.flatMap_cons, List.append_assoc, readUnits_writeChar c (by simp), ih]
    simp

theorem readString_writeString (s rest : List Char) :
    readString (writeString s ++ rest) = .ok (String.ofList s, rest) := by
  have quoted : writeString s ++ rest = '"' :: (s.flatMap writeChar ++ '"' :: rest) := by simp [writeString]
  unfold readString
  rw [quoted, List.tail_cons, readUnits_flatMap_writeChar]
  simp [joinUnits_flatMap_unitsOf]

end CompilerAdapter.Json
