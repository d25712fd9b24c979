import ScriptHost.Text.Bytes
import ScriptHost.Text.Quoted

/-!
# JSON strings

The written form of a text, and reading one from bytes. Reading has two steps. `scan` finds the
closing quote and splits what stands before it into pieces, which is all that a skipped string needs;
`join` then pairs surrogates, and the bytes must be well-formed UTF-8.
-/

namespace ScriptHost.Json

def escape (c : Char) : String :=
  if c = '"' then "\\\""
  else if c = '\\' then "\\\\"
  else if c = '\x08' then "\\b"
  else if c = '\x0c' then "\\f"
  else if c = '\n' then "\\n"
  else if c = '\r' then "\\r"
  else if c = '\t' then "\\t"
  else if c.toNat < 0x20 then "\\u" ++ Text.hexPadded 4 c.toNat
  else c.toString

def write (s : String) : String := "\"" ++ String.join (s.toList.map escape) ++ "\""

/-- Part of a string: a byte, as it stands or from a short escape, or a unit given in hexadecimal. -/
inductive Piece where
  | byte (b : UInt8)
  | unit (n : Nat)
deriving DecidableEq

def shortEscape? (b : UInt8) : Option UInt8 :=
  if b = 0x22 ∨ b = 0x5c ∨ b = 0x2f then some b
  else if b = 0x62 then some 8
  else if b = 0x66 then some 12
  else if b = 0x6e then some 10
  else if b = 0x72 then some 13
  else if b = 0x74 then some 9
  else none

def hexValue? (b : UInt8) : Option Nat :=
  if 0x30 ≤ b ∧ b ≤ 0x39 then some (b.toNat - 0x30)
  else if 0x41 ≤ b ∧ b ≤ 0x46 then some (b.toNat - 0x41 + 10)
  else if 0x61 ≤ b ∧ b ≤ 0x66 then some (b.toNat - 0x61 + 10)
  else none

def hexUnit? (a b c d : UInt8) : Option Nat := do
  return ((← hexValue? a) * 16 + (← hexValue? b)) * 256 + (← hexValue? c) * 16 + (← hexValue? d)

/-- The pieces up to the closing quote, and what follows it. Controls must be escaped. -/
def scan : List UInt8 → Option (List Piece × List UInt8)
  | [] => none
  | b :: r =>
    if b = 0x22 then some ([], r)
    else if b < 0x20 then none
    else if b ≠ 0x5c then (scan r).map fun (ps, t) => (.byte b :: ps, t)
    else
      match r with
      | [] => none
      | e :: r' =>
        if e ≠ 0x75 then
          (shortEscape? e).bind fun b' => (scan r').map fun (ps, t) => (.byte b' :: ps, t)
        else
          match r' with
          | h₁ :: h₂ :: h₃ :: h₄ :: r'' =>
            (hexUnit? h₁ h₂ h₃ h₄).bind fun n => (scan r'').map fun (ps, t) => (.unit n :: ps, t)
          | _ => none

def isHighSurrogate (n : Nat) : Bool := 0xd800 ≤ n && n ≤ 0xdbff

def isLowSurrogate (n : Nat) : Bool := 0xdc00 ≤ n && n ≤ 0xdfff

/-- The bytes that the pieces stand for; a surrogate must be one of a pair. -/
def join : List Piece → Option (List UInt8)
  | [] => some []
  | .byte b :: ps => (join ps).map (b :: ·)
  | .unit n :: ps =>
    if isHighSurrogate n then
      match ps with
      | .unit m :: ps' =>
        if isLowSurrogate m then
          (join ps').map
            (String.utf8EncodeChar (Char.ofNat (0x10000 + (n - 0xd800) * 0x400 + (m - 0xdc00))) ++ ·)
        else none
      | _ => none
    else if isLowSurrogate n then none
    else (join ps).map (String.utf8EncodeChar (Char.ofNat n) ++ ·)

/-- The text whose opening quote has been read, and what follows its closing quote. -/
def readText (bs : List UInt8) : Option (String × List UInt8) := do
  let (ps, rest) ← scan bs
  return (← Text.ofBytes? (← join ps), rest)

end ScriptHost.Json
