import CompilerAdapter.Text.CharacterClass
import CompilerAdapter.Text.Encoding

/-! # Quoted text

How messages show a text: between single quotes, or between double ones if it holds single quotes only, with escapes
for what cannot be seen. -/
namespace CompilerAdapter

namespace Quoted

def mark (s : List Char) : Char :=
  if s.contains '\'' && !s.contains '"' then '"' else '\''

/-- A code point that is not shown, in the shortest of the three escapes. -/
def hidden (n : Nat) : List Char :=
  if n < 0x100 then '\\' :: 'x' :: hexDigits 2 n
  else if n < 0x10000 then '\\' :: 'u' :: hexDigits 4 n
  else '\\' :: 'U' :: hexDigits 8 n

def char (mark c : Char) : List Char :=
  if c = mark ∨ c = '\\' then ['\\', c]
  else if c = '\n' then ['\\', 'n']
  else if c = '\r' then ['\\', 'r']
  else if c = '\t' then ['\\', 't']
  else if isPrintable c then [c]
  else hidden c.toNat

end Quoted

def quoted (s : List Char) : List Char :=
  Quoted.mark s :: s.flatMap (Quoted.char (Quoted.mark s)) ++ [Quoted.mark s]

def quotedBytes (content : List UInt8) : List Char :=
  let chars := content.map fun b => Char.ofNat b.toNat
  let char (c : Char) : List Char :=
    if 0x7f ≤ c.toNat then Quoted.hidden c.toNat else Quoted.char (Quoted.mark chars) c
  Quoted.mark chars :: chars.flatMap char ++ [Quoted.mark chars]

end CompilerAdapter
