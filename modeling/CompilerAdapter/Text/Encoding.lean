/-! # Encodings

Hexadecimal digits; base 64, where every letter stands for six bits and equal signs fill up the last group of four; and
UTF-8, where bytes are refused at the first character they cannot hold. -/
namespace CompilerAdapter

def hexDigits (width n : Nat) : List Char :=
  let digits := Nat.toDigits 16 n
  List.replicate (width - digits.length) '0' ++ digits

def hexValue? (c : Char) : Option Nat :=
  if '0' ≤ c ∧ c ≤ '9' then some (c.toNat - '0'.toNat)
  else if 'a' ≤ c ∧ c ≤ 'f' then some (c.toNat - 'a'.toNat + 10)
  else if 'A' ≤ c ∧ c ≤ 'F' then some (c.toNat - 'A'.toNat + 10)
  else none

def hexNumber? (digits : List Char) : Option Nat :=
  digits.foldlM (fun n c => (hexValue? c).map (n * 16 + ·)) 0

end CompilerAdapter

namespace CompilerAdapter.Base64

def letterValue? (c : Char) : Option Nat :=
  if 'A' ≤ c ∧ c ≤ 'Z' then some (c.toNat - 'A'.toNat)
  else if 'a' ≤ c ∧ c ≤ 'z' then some (c.toNat - 'a'.toNat + 26)
  else if '0' ≤ c ∧ c ≤ '9' then some (c.toNat - '0'.toNat + 52)
  else if c = '+' then some 62
  else if c = '/' then some 63
  else none

/-- The values of the letters up to the fill of a group, or up to the end of the text, and whether there was a fill.
Other characters are passed over, and so is an equal sign that does not complete a group of at least two letters.
`letters` holds the letters so far, the last one first, and `fill` counts the equal signs since then. -/
def lettersFrom (letters : List Nat) (fill : Nat) : List Char → List Nat × Bool
  | [] => (letters.reverse, false)
  | c :: rest =>
    let inGroup := letters.length % 4
    if c = '=' then
      if inGroup < 2 then lettersFrom letters fill rest
      else if 4 ≤ inGroup + fill + 1 then (letters.reverse, true)
      else lettersFrom letters (fill + 1) rest
    else
      match letterValue? c with
      | some value => lettersFrom (value :: letters) 0 rest
      | none => lettersFrom letters fill rest

/-- The bytes that groups of four letters stand for; bits that are left over are dropped. -/
def bytesOf : List Nat → List UInt8
  | a :: b :: c :: d :: rest =>
    UInt8.ofNat (a * 4 + b / 16) :: UInt8.ofNat (b * 16 + c / 4) :: UInt8.ofNat (c * 64 + d) :: bytesOf rest
  | [a, b, c] => [UInt8.ofNat (a * 4 + b / 16), UInt8.ofNat (b * 16 + c / 4)]
  | [a, b] => [UInt8.ofNat (a * 4 + b / 16)]
  | _ => []

def decode? (text : List Char) : Option (List UInt8) :=
  let (letters, filled) := lettersFrom [] 0 text
  if filled || letters.length % 4 == 0 then some (bytesOf letters) else none

end CompilerAdapter.Base64

namespace CompilerAdapter.Utf8

inductive FaultKind where
  | invalidStart
  | invalidContinuation
  | unexpectedEnd
  deriving DecidableEq, Repr

structure Fault where
  kind : FaultKind
  start : Nat
  size : Nat
  byte : Nat
  deriving DecidableEq, Repr

structure Lead where
  bits : Nat
  following : Nat
  low : Nat
  high : Nat

/-- The ranges of the second byte leave out overlong forms, surrogates and what lies beyond the last code point. -/
def lead? (b : Nat) : Option Lead :=
  if b < 0x80 then some ⟨b, 0, 0x80, 0xbf⟩
  else if b < 0xc2 then none
  else if b < 0xe0 then some ⟨b - 0xc0, 1, 0x80, 0xbf⟩
  else if b < 0xf0 then
    some ⟨b - 0xe0, 2, if b = 0xe0 then 0xa0 else 0x80, if b = 0xed then 0x9f else 0xbf⟩
  else if b < 0xf5 then
    some ⟨b - 0xf0, 3, if b = 0xf0 then 0x90 else 0x80, if b = 0xf4 then 0x8f else 0xbf⟩
  else none

def continuation (low high : Nat) : Nat → List Nat → List Nat
  | 0, _ => []
  | _, [] => []
  | wanted + 1, b :: rest => if low ≤ b ∧ b ≤ high then b :: continuation 0x80 0xbf wanted rest else []

/-- Decodes from `offset` on. The next `skip` bytes belong to the last character of `done`, which holds what has been
decoded, the last character first. -/
def decodeFrom (offset : Nat) (done : List Char) : Nat → List Nat → Except Fault (List Char)
  | _, [] => .ok done.reverse
  | skip + 1, _ :: rest => decodeFrom (offset + 1) done skip rest
  | 0, b :: rest =>
    match lead? b with
    | none => .error ⟨.invalidStart, offset, 1, b⟩
    | some lead =>
      let tail := continuation lead.low lead.high lead.following rest
      if tail.length = lead.following then
        let code := tail.foldl (fun code t => code * 0x40 + (t - 0x80)) lead.bits
        decodeFrom (offset + 1) (Char.ofNat code :: done) lead.following rest
      else
        .error ⟨if tail.length = rest.length then .unexpectedEnd else .invalidContinuation, offset, tail.length + 1, b⟩

def decode (bytes : List UInt8) : Except Fault (List Char) :=
  decodeFrom 0 [] 0 (bytes.map UInt8.toNat)

def FaultKind.message : FaultKind → String
  | .invalidStart => "invalid start byte"
  | .invalidContinuation => "invalid continuation byte"
  | .unexpectedEnd => "unexpected end of data"

def Fault.message (f : Fault) : String :=
  let shown (n : Nat) := String.ofList (Nat.toDigits 10 n)
  let place :=
    if f.size = 1 then
      "byte 0x" ++ String.ofList (hexDigits 2 f.byte) ++ " in position " ++ shown f.start
    else "bytes in position " ++ shown f.start ++ "-" ++ shown (f.start + f.size - 1)
  "'utf-8' codec can't decode " ++ place ++ ": " ++ f.kind.message

end CompilerAdapter.Utf8
