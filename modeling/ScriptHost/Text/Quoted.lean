import ScriptHost.Text.Printable

/-!
# Quoted text

A text in double quotes, for diagnostics: the quote, the backslash and the common controls have
short escapes, every other character that would not show by itself is written by its code point, and
the rest stands for itself. Lists and sets of texts are quoted member by member.
-/

namespace ScriptHost.Text

def hexDigits (n : Nat) : String := String.ofList (Nat.toDigits 16 n)

/-- `n` in lower-case hexadecimal, padded with zeros to `width`. -/
def hexPadded (width n : Nat) : String :=
  let ds := Nat.toDigits 16 n
  String.ofList (List.replicate (width - ds.length) '0' ++ ds)

def escape (c : Char) : String :=
  if c = '\x00' then "\\0"
  else if c = '\t' then "\\t"
  else if c = '\n' then "\\n"
  else if c = '\r' then "\\r"
  else if c = '"' then "\\\""
  else if c = '\\' then "\\\\"
  else if isGraphemeExtend c || !isPrintable c then "\\u\x7b" ++ hexDigits c.toNat ++ "\x7d"
  else c.toString

def quote (s : String) : String := "\"" ++ String.join (s.toList.map escape) ++ "\""

def quoteList (xs : List String) : String := "[" ++ ", ".intercalate (xs.map quote) ++ "]"

def quoteSet (xs : List String) : String := "\x7b" ++ ", ".intercalate (xs.map quote) ++ "\x7d"

end ScriptHost.Text
