import ScriptHost.Json.Text

/-!
# JSON values

Walking over a value whose content does not matter, and reading the members of an object with a
function that decides what to do with each name.
-/

namespace ScriptHost.Json

def isBlankByte (b : UInt8) : Bool := b == 0x20 || b == 0x0a || b == 0x0d || b == 0x09

def skipBlank (bs : List UInt8) : List UInt8 := bs.dropWhile isBlankByte

def isDigitByte (b : UInt8) : Bool := 0x30 ≤ b && b ≤ 0x39

def skipDigits (bs : List UInt8) : Option (List UInt8) :=
  match bs with
  | b :: r => if isDigitByte b then some (r.dropWhile isDigitByte) else none
  | [] => none

def skipExponent : List UInt8 → Option (List UInt8)
  | e :: r =>
    if e = 0x65 ∨ e = 0x45 then
      match r with
      | s :: r' => if s = 0x2b ∨ s = 0x2d then skipDigits r' else skipDigits r
      | [] => none
    else some (e :: r)
  | [] => some []

/-- A number without its sign: no zero in front of other digits, and digits around every mark. -/
def skipUnsigned (bs : List UInt8) : Option (List UInt8) := do
  let rest ← match bs with
    | b :: r =>
      if b = 0x30 then
        match r with
        | d :: _ => if isDigitByte d then none else some r
        | [] => some r
      else skipDigits bs
    | [] => none
  match rest with
  | p :: r => if p = 0x2e then skipExponent (← skipDigits r) else skipExponent rest
  | [] => some []

/-- The rest after the given bytes, if they stand first. -/
def expect (word bs : List UInt8) : Option (List UInt8) :=
  if word.isPrefixOf bs then some (bs.drop word.length) else none

/-- `null` without its first letter, and the two other words likewise. -/
def ull : List UInt8 := [0x75, 0x6c, 0x6c]
def rue : List UInt8 := [0x72, 0x75, 0x65]
def alse : List UInt8 := [0x61, 0x6c, 0x73, 0x65]

mutual

/-- What follows a value. The first argument bounds the nesting and the number of members together;
the length of the text is always enough. -/
def skipValue : Nat → List UInt8 → Option (List UInt8)
  | 0, _ => none
  | n + 1, bs =>
    match skipBlank bs with
    | [] => none
    | b :: r =>
      if b = 0x6e then expect ull r
      else if b = 0x74 then expect rue r
      else if b = 0x66 then expect alse r
      else if b = 0x22 then (scan r).map Prod.snd
      else if b = 0x2d then skipUnsigned r
      else if b = 0x5b then
        match skipBlank r with
        | [] => none
        | c :: r' => if c = 0x5d then some r' else skipItems n (c :: r')
      else if b = 0x7b then
        match skipBlank r with
        | [] => none
        | c :: r' => if c = 0x7d then some r' else skipMembers n (c :: r')
      else skipUnsigned (b :: r)

def skipItems : Nat → List UInt8 → Option (List UInt8)
  | 0, _ => none
  | n + 1, bs =>
    match skipValue n bs with
    | none => none
    | some r =>
      match skipBlank r with
      | [] => none
      | c :: r' => if c = 0x2c then skipItems n r' else if c = 0x5d then some r' else none

def skipMembers : Nat → List UInt8 → Option (List UInt8)
  | 0, _ => none
  | n + 1, bs =>
    match skipBlank bs with
    | [] => none
    | q :: r =>
      if q ≠ 0x22 then none
      else
        match scan r with
        | none => none
        | some (_, r₁) =>
          match skipBlank r₁ with
          | [] => none
          | c :: r₂ =>
            if c ≠ 0x3a then none
            else
              match skipValue n r₂ with
              | none => none
              | some r₃ =>
                match skipBlank r₃ with
                | [] => none
                | c :: r₄ => if c = 0x2c then skipMembers n r₄ else if c = 0x7d then some r₄ else none

end

/-- The members of an object from the next one on. `step` is given the state, the name, and the text
from the member's value on. -/
def readMembers {σ : Type} (step : σ → String → List UInt8 → Option (σ × List UInt8)) :
    Nat → σ → List UInt8 → Option (σ × List UInt8)
  | 0, _, _ => none
  | n + 1, s, bs =>
    match skipBlank bs with
    | [] => none
    | q :: r =>
      if q ≠ 0x22 then none
      else do
        let (name, r₁) ← readText r
        match skipBlank r₁ with
        | [] => none
        | c :: r₂ =>
          if c ≠ 0x3a then none
          else
            let (s', r₃) ← step s name (skipBlank r₂)
            match skipBlank r₃ with
            | [] => none
            | c :: r₄ =>
              if c = 0x2c then readMembers step n s' r₄
              else if c = 0x7d then some (s', r₄)
              else none

def readObject {σ : Type} (step : σ → String → List UInt8 → Option (σ × List UInt8)) (s : σ)
    (bs : List UInt8) : Option (σ × List UInt8) :=
  match skipBlank bs with
  | [] => none
  | c :: r => if c = 0x7d then some (s, r) else readMembers step bs.length s (c :: r)

end ScriptHost.Json
