import CompilerAdapter.Document.Basic

/-! # The order of sets

A set that holds numbers only is shown in the order of the slots that they fall into; of equal ones, the first is kept.
Any other set is shown in the order in which it was written. -/
namespace CompilerAdapter

namespace MemberOrder

/-! ### Numbers as slots -/

def modulus : Nat := 2 ^ 61 - 1

/-- The residue of a number that is not negative; two to the power of 61 counts as one. -/
def residue (mantissa : Nat) (exponent : Int) : Nat :=
  mantissa * 2 ^ (Int.emod exponent 61).toNat % modulus

/-- What a residue with a sign comes to in 64 bits. Minus one is not used. -/
def word (negative : Bool) (n : Nat) : UInt64 :=
  if negative then (if n = 1 then 0 - 2 else 0 - UInt64.ofNat n) else UInt64.ofNat n

def key? : Number → Option UInt64
  | .int n => some (word (decide (n < 0)) (residue n.natAbs 0))
  | .float (.finite negative mantissa exponent) => some (word negative (residue mantissa exponent))
  | .float (.infinite negative) => some (word negative 314159)
  | .float (.nan _) => none

/-! ### Slots -/

/-- How many slots there are for a number of members: a power of two, with more than half of them free. -/
def slotCount (members : Nat) : Nat := if members < 5 then 8 else 2 ^ ((2 * members).log2 + 1)

/-- The free slot for a key: the home slot and, where there is room, the nine behind it are tried, and then those of
another home, which all bits of the key have a say in. -/
def freeSlot (taken : List Nat) (size : Nat) : Nat → UInt64 → Nat → Nat
  | 0, _, home => home
  | fuel + 1, rest, home =>
    let candidates := (List.range (if home + 9 < size then 10 else 1)).map (home + ·)
    match candidates.find? fun slot => !taken.contains slot with
    | some slot => slot
    | none =>
      let rest := rest >>> 5
      freeSlot taken size fuel rest ((home * 5 + 1 + rest.toNat) % size)

def place (size : Nat) (taken : List (Nat × Scalar)) : List (UInt64 × Scalar) → List (Nat × Scalar)
  | [] => taken.reverse
  | (key, member) :: rest =>
    let slot := freeSlot (taken.map (·.1)) size (size + 14) key (key.toNat % size)
    place size ((slot, member) :: taken) rest

end MemberOrder

open MemberOrder in
def inMemberOrder (members : List Scalar) : List Scalar :=
  match members.mapM fun m => (m.asNumber?.bind key?).map (·, m) with
  | some keyed => ((place (slotCount members.length) [] keyed).mergeSort fun a b => decide (a.1 ≤ b.1)).map (·.2)
  | none => members

end CompilerAdapter
