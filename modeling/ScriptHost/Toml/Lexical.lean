import ScriptHost.Binary64.Reading

/-!
# TOML lexemes

Blanks, comments, keys' letters, strings and numbers of the TOML format. A reader takes characters
from the front of the text and gives back what follows; `none` means that the text is not TOML.
-/

namespace ScriptHost.Toml

abbrev Chars := List Char

def isBlank (c : Char) : Bool := c == ' ' || c == '\t'

def skipBlank (cs : Chars) : Chars := cs.dropWhile isBlank

/-- Characters that may stand in a comment, and those that may stand unescaped in a string. -/
def isPlain (c : Char) : Bool := c == '\t' || (0x20 ≤ c.toNat && c.toNat != 0x7f)

/-- The rest of the line after a comment mark; what follows must still be a line end. -/
def skipComment : Chars → Chars
  | '#' :: cs => cs.dropWhile isPlain
  | cs => cs

def newline? : Chars → Option Chars
  | '\n' :: cs => some cs
  | '\r' :: '\n' :: cs => some cs
  | _ => none

/-- The text after the rest of a line that holds blanks and a comment at most. -/
def endLine (cs : Chars) : Option Chars :=
  match skipComment (skipBlank cs) with
  | [] => some []
  | c :: r => newline? (c :: r)

/-- The text after blanks, comments and line ends. -/
def skipLines : Nat → Chars → Option Chars
  | 0, cs => some cs
  | n + 1, cs =>
    match skipComment (skipBlank cs) with
    | [] => some []
    | c :: r =>
      if c = '\n' ∨ c = '\r' then (newline? (c :: r)).bind (skipLines n)
      else some (c :: r)

/-! ## Strings -/

def hexDigit? (c : Char) : Option Nat :=
  if '0' ≤ c ∧ c ≤ '9' then some (c.toNat - 48)
  else if 'a' ≤ c ∧ c ≤ 'f' then some (c.toNat - 87)
  else if 'A' ≤ c ∧ c ≤ 'F' then some (c.toNat - 55)
  else none

/-- The character that the given number of hexadecimal digits stand for. -/
def codePoint? (digits : Nat) (cs : Chars) : Option (Char × Chars) := do
  let ds := cs.take digits
  if ds.length < digits then none
  else
    let n ← ds.foldlM (fun n c => (hexDigit? c).map (16 * n + ·)) 0
    if n.isValidChar then some (Char.ofNat n, cs.drop digits)
    else none

/-- What an escape stands for, after its backslash. -/
def unescape : Chars → Option (Char × Chars)
  | 'b' :: cs => some ('\x08', cs)
  | 't' :: cs => some ('\t', cs)
  | 'n' :: cs => some ('\n', cs)
  | 'f' :: cs => some ('\x0c', cs)
  | 'r' :: cs => some ('\r', cs)
  | 'e' :: cs => some ('\x1b', cs)
  | '"' :: cs => some ('"', cs)
  | '\\' :: cs => some ('\\', cs)
  | 'x' :: cs => codePoint? 2 cs
  | 'u' :: cs => codePoint? 4 cs
  | 'U' :: cs => codePoint? 8 cs
  | _ => none

/-- A string in double quotes on one line, after its opening quote. -/
def basicString : Nat → Chars → Option (Chars × Chars)
  | 0, _ => none
  | _ + 1, [] => none
  | n + 1, c :: cs =>
    if c = '"' then some ([], cs)
    else if c = '\\' then do
      let (x, r) ← unescape cs
      let (xs, t) ← basicString n r
      return (x :: xs, t)
    else if isPlain c then (basicString n cs).map fun (xs, t) => (c :: xs, t)
    else none

def literalString : Chars → Option (Chars × Chars)
  | [] => none
  | c :: cs =>
    if c = '\'' then some ([], cs)
    else if isPlain c then (literalString cs).map fun (xs, t) => (c :: xs, t)
    else none

/-- The quotes that end a string over several lines: three, before which one or two may belong to it. -/
def closingQuotes (q : Char) (cs : Chars) : Option (Chars × Chars) :=
  let run := cs.takeWhile (· == q)
  if run.length < 3 then none
  else if run.length ≤ 5 then some (List.replicate (run.length - 3) q, cs.drop run.length)
  else some ([q, q], cs.drop 5)

def skipSpace : Chars → Chars
  | [] => []
  | '\r' :: '\n' :: cs => skipSpace cs
  | c :: cs => if isBlank c || c == '\n' then skipSpace cs else c :: cs

/-- The text after a backslash that joins lines: blanks, a line end, and all blanks and line ends
after it. -/
def joinLines (cs : Chars) : Option Chars := (newline? (skipBlank cs)).map skipSpace

/-- A string in triple quotes of the given kind, after the opening ones. Escapes belong to the
double quotes only. Line ends are kept as they are written. -/
def multilineString (q : Char) : Nat → Chars → Option (Chars × Chars)
  | 0, _ => none
  | _ + 1, [] => none
  | n + 1, c :: cs =>
    match closingQuotes q (c :: cs) with
    | some end? => some end?
    | none =>
      if c = '\\' ∧ q = '"' then
        match joinLines cs with
        | some r => multilineString q n r
        | none => do
          let (x, r) ← unescape cs
          let (xs, t) ← multilineString q n r
          return (x :: xs, t)
      else if isPlain c || c == '\n' then (multilineString q n cs).map fun (xs, t) => (c :: xs, t)
      else
        match c, cs with
        | '\r', '\n' :: r => (multilineString q n r).map fun (xs, t) => ('\r' :: '\n' :: xs, t)
        | _, _ => none

def skipFirstNewline (cs : Chars) : Chars := (newline? cs).getD cs

def readString (cs : Chars) : Option (String × Chars) :=
  let made (r : Option (Chars × Chars)) : Option (String × Chars) :=
    r.map fun (xs, t) => (String.ofList xs, t)
  match cs with
  | '"' :: '"' :: '"' :: r => made (multilineString '"' r.length (skipFirstNewline r))
  | '\'' :: '\'' :: '\'' :: r => made (multilineString '\'' r.length (skipFirstNewline r))
  | '"' :: r => made (basicString r.length r)
  | '\'' :: r => made (literalString r)
  | _ => none

/-! ## Keys -/

def isKeyChar (c : Char) : Bool := c.isAlphanum || c == '_' || c == '-'

def readKeyPart (cs : Chars) : Option (String × Chars) :=
  match cs with
  | '"' :: r => (basicString r.length r).map fun (xs, t) => (String.ofList xs, t)
  | '\'' :: r => (literalString r).map fun (xs, t) => (String.ofList xs, t)
  | _ =>
    let part := cs.takeWhile isKeyChar
    if part.isEmpty then none else some (String.ofList part, cs.dropWhile isKeyChar)

/-- The parts of a key from the next one on; blanks may stand around the dots. -/
def readKeyParts : Nat → Chars → Option (List String × Chars)
  | 0, _ => none
  | n + 1, cs => do
    let (part, r) ← readKeyPart (skipBlank cs)
    match skipBlank r with
    | '.' :: r' =>
      let (parts, t) ← readKeyParts n r'
      return (part :: parts, t)
    | r' => return ([part], r')

def maxKeyParts : Nat := 80

def readKey (cs : Chars) : Option (List String × Chars) :=
  (readKeyParts (cs.length + 1) cs).filter fun (parts, _) => parts.length ≤ maxKeyParts

/-! ## Numbers, dates and words -/

inductive Word where
  | boolean (b : Bool)
  | integer (i : Int)
  | float
  | moment
deriving DecidableEq

/-- The characters of a row in which single underscores may stand between characters of the class,
the underscores left out. -/
def ungroup (ok : Char → Bool) : Chars → Option Chars
  | [] => none
  | [c] => if ok c then some [c] else none
  | c :: '_' :: d :: r => if ok c && ok d then (ungroup ok (d :: r)).map (c :: ·) else none
  | c :: r => if ok c then (ungroup ok r).map (c :: ·) else none

def isHexDigit (c : Char) : Bool := (hexDigit? c).isSome
def isOctalDigit (c : Char) : Bool := '0' ≤ c && c ≤ '7'
def isBinaryDigit (c : Char) : Bool := c == '0' || c == '1'

def natOf (base : Nat) (ds : Chars) : Nat := ds.foldl (fun n c => base * n + (hexDigit? c).getD 0) 0

/-- Digits without a zero in front of others. -/
def decimalDigits? (cs : Chars) : Option Chars := do
  let ds ← ungroup Char.isDigit cs
  if ds.length > 1 ∧ ds.head? = some '0' then none else some ds

/-- Integers of at most 128 bits, with or without a sign. -/
def isWideInteger (i : Int) : Bool :=
  -0x80000000000000000000000000000000 ≤ i && i ≤ 0xffffffffffffffffffffffffffffffff

def readInteger? (cs : Chars) : Option Int :=
  match cs with
  | '0' :: 'x' :: r => (ungroup isHexDigit r).map fun ds => (natOf 16 ds : Int)
  | '0' :: 'o' :: r => (ungroup isOctalDigit r).map fun ds => (natOf 8 ds : Int)
  | '0' :: 'b' :: r => (ungroup isBinaryDigit r).map fun ds => (natOf 2 ds : Int)
  | _ =>
    let (neg, ds) := Binary64.splitSign cs
    (decimalDigits? ds).map fun ds => if neg then -(natOf 10 ds : Int) else natOf 10 ds

/-- An integer that is not too large to be represented. -/
def integer? (cs : Chars) : Option Int := (readInteger? cs).filter isWideInteger

def isExponent (cs : Chars) : Bool := (ungroup Char.isDigit (Binary64.splitSign cs).2).isSome

def isExponentMark (c : Char) : Bool := c == 'e' || c == 'E'

/-- Whether the digits stand for a finite number, after rounding. -/
def isFinite (cs : Chars) : Bool :=
  match Binary64.read? (cs.filter (· != '_')) with
  | some x => x.isFinite
  | none => false

/-- A number with a fraction or an exponent. One that is too large must be written as infinite. -/
def isFloat (cs : Chars) : Bool :=
  let body := (Binary64.splitSign cs).2
  if body = "inf".toList ∨ body = "nan".toList then true
  else
    let mantissa := body.takeWhile fun c => !isExponentMark c
    let exponent := body.dropWhile fun c => !isExponentMark c
    let whole := mantissa.takeWhile (· != '.')
    let part := mantissa.dropWhile (· != '.')
    (decimalDigits? whole).isSome &&
      (part.isEmpty || (ungroup Char.isDigit (part.drop 1)).isSome) &&
      (exponent.isEmpty || isExponent (exponent.drop 1)) &&
      !(part.isEmpty && exponent.isEmpty) && isFinite cs

def fixedDigits (n : Nat) (cs : Chars) : Option (Nat × Chars) :=
  let ds := cs.take n
  if ds.length = n ∧ ds.all Char.isDigit then some (natOf 10 ds, cs.drop n) else none

def daysIn (year month : Nat) : Nat :=
  if month = 2 then (if year % 4 = 0 ∧ (year % 100 ≠ 0 ∨ year % 400 = 0) then 29 else 28)
  else if month = 4 ∨ month = 6 ∨ month = 9 ∨ month = 11 then 30 else 31

def skipDate (cs : Chars) : Option Chars := do
  let (y, r) ← fixedDigits 4 cs
  let '-' :: r := r | none
  let (m, r) ← fixedDigits 2 r
  let '-' :: r := r | none
  let (d, r) ← fixedDigits 2 r
  if 1 ≤ m ∧ m ≤ 12 ∧ 1 ≤ d ∧ d ≤ daysIn y m then some r else none

def skipSeconds (cs : Chars) : Option Chars :=
  match cs with
  | ':' :: r => do
    let (s, r) ← fixedDigits 2 r
    if 60 < s then none
    else
      match r with
      | '.' :: r' =>
        if (r'.takeWhile Char.isDigit).isEmpty then none else some (r'.dropWhile Char.isDigit)
      | _ => some r
  | _ => some cs

def skipTime (cs : Chars) : Option Chars := do
  let (h, r) ← fixedDigits 2 cs
  let ':' :: r := r | none
  let (m, r) ← fixedDigits 2 r
  if h ≤ 23 ∧ m ≤ 59 then skipSeconds r else none

def isOffset (cs : Chars) : Bool :=
  match cs with
  | [] => true
  | [c] => c == 'Z' || c == 'z'
  | s :: r =>
    (s == '+' || s == '-') &&
      match fixedDigits 2 r with
      | some (h, ':' :: r') =>
        (match fixedDigits 2 r' with
        | some (m, []) => h ≤ 23 && m ≤ 59
        | _ => false)
      | _ => false

/-- A date, a time, or both with an optional offset. -/
def isMoment (cs : Chars) : Bool :=
  match skipTime cs with
  | some r => r.isEmpty
  | none =>
    match skipDate cs with
    | none => false
    | some [] => true
    | some (t :: r) =>
      (t == 'T' || t == 't' || t == ' ') &&
        match skipTime r with
        | some r' => isOffset r'
        | none => false

def isWordChar (c : Char) : Bool := c.isAlphanum || c == '_' || c == '-' || c == '+' || c == '.' || c == ':'

def word? (cs : Chars) : Option Word :=
  if cs = "true".toList then some (.boolean true)
  else if cs = "false".toList then some (.boolean false)
  else
    match integer? cs with
    | some i => some (.integer i)
    | none => if isFloat cs then some .float else if isMoment cs then some .moment else none

/-- A bare word. One blank may stand between a date and a time. -/
def readWord (cs : Chars) : Option (Word × Chars) :=
  let w := cs.takeWhile isWordChar
  let r := cs.dropWhile isWordChar
  match r with
  | ' ' :: d :: _ =>
    if (skipDate w = some []) && d.isDigit then
      let r' := r.drop 1
      (word? (w ++ ' ' :: r'.takeWhile isWordChar)).map fun x => (x, r'.dropWhile isWordChar)
    else (word? w).map fun x => (x, r)
  | _ => (word? w).map fun x => (x, r)

end ScriptHost.Toml
