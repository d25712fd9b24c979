import ScriptHost.Toml.Lexical

/-!
# TOML documents

A document is read into a tree of tables. What tells tables apart is how they came to be: by a header
of their own, as a part of another header, or as a part of a dotted key. These forms decide what a
later line may add to them. Arrays and inline tables are checked, and their contents are not kept.
-/

namespace ScriptHost.Toml

inductive Value where
  | str (s : String)
  | word (w : Word)
  | array
  | inline
deriving DecidableEq

inductive Form where
  | headed
  | implied
  | dotted
deriving DecidableEq

inductive Item where
  | value (v : Value)
  | table (form : Form) (entries : List (String × Item))
  /-- An array of tables: the entries of the last one, which is the only one that can still grow. -/
  | tables (last : List (String × Item))

abbrev Entries := List (String × Item)

def Entries.get? (es : Entries) (k : String) : Option Item := es.lookup k

def Entries.put (es : Entries) (k : String) (i : Item) : Entries :=
  if es.any (fun e => e.1 == k) then es.map fun e => if e.1 == k then (k, i) else e else es ++ [(k, i)]

/-- Add a value under a dotted key. The way may lead through tables that are implied by headers and
through the last table of an array, but `isOpen` says whether the table at hand may be given a value
itself: on the way only tables made by dotted keys may. -/
def insertKey (v : Value) (isOpen : Bool) : List String → Entries → Option Entries
  | [], _ => none
  | [k], es => if isOpen && (es.get? k).isNone then some (es.put k (.value v)) else none
  | k :: ks, es =>
    match es.get? k with
    | none => (insertKey v true ks []).map fun sub => es.put k (.table .dotted sub)
    | some (.table .headed _) | some (.value _) => none
    | some (.table form sub) =>
      (insertKey v (form == .dotted) ks sub).map fun sub' => es.put k (.table form sub')
    | some (.tables last) => (insertKey v false ks last).map fun sub' => es.put k (.tables sub')

/-- Change the entries of the table that a header names, after the tables on the way to it. `open?`
says what becomes of the entry with the last part of the name. -/
def atHeader (open? : Option Item → Option Item) : List String → Entries → Option Entries
  | [], _ => none
  | [k], es => (open? (es.get? k)).map fun i => es.put k i
  | k :: ks, es =>
    match es.get? k with
    | none => (atHeader open? ks []).map fun sub => es.put k (.table .implied sub)
    | some (.table form sub) => (atHeader open? ks sub).map fun sub' => es.put k (.table form sub')
    | some (.tables last) => (atHeader open? ks last).map fun sub' => es.put k (.tables sub')
    | some (.value _) => none

def openTable : Option Item → Option Item
  | none => some (.table .headed [])
  | some (.table .implied sub) => some (.table .headed sub)
  | some _ => none

/-- A header in double brackets starts an array of tables or goes on to its next one. -/
def openRow : Option Item → Option Item
  | none => some (.tables [])
  | some (.tables _) => some (.tables [])
  | some _ => none

/-- Add a value to the table that the current header names; the empty name is the document. -/
def insertUnder (v : Value) (key : List String) : List String → Entries → Option Entries
  | [], es => insertKey v true key es
  | h :: hs, es =>
    match es.get? h with
    | some (.table form sub) => (insertUnder v key hs sub).map fun sub' => es.put h (.table form sub')
    | some (.tables last) => (insertUnder v key hs last).map fun sub' => es.put h (.tables sub')
    | _ => none

/-! ## Values -/

mutual

/-- A value, in as many brackets and braces more as `depth` says. The first argument bounds the
nesting and the number of items together. -/
def readValue : Nat → Nat → Chars → Option (Value × Chars)
  | 0, _, _ => none
  | n + 1, depth, cs =>
    match cs, depth with
    | '"' :: _, _ | '\'' :: _, _ => (readString cs).map fun (s, r) => (.str s, r)
    | '[' :: _, 0 | '\x7b' :: _, 0 => none
    | '[' :: r, d + 1 => (readItems n d r).map fun t => (.array, t)
    | '\x7b' :: r, d + 1 => (readPairs n d [] r).map fun t => (.inline, t)
    | _, _ => (readWord cs).map fun (w, r) => (.word w, r)

/-- The items of an array from the next one on, and its closing bracket. A comma may stand last. -/
def readItems : Nat → Nat → Chars → Option Chars
  | 0, _, _ => none
  | n + 1, depth, cs => do
    match ← skipLines cs.length cs with
    | [] => none
    | ']' :: t => some t
    | c :: r =>
      let (_, t) ← readValue n depth (c :: r)
      match ← skipLines t.length t with
      | ',' :: t' => readItems n depth t'
      | ']' :: t' => some t'
      | _ => none

/-- The pairs of an inline table from the next one on, and its closing brace. Lines may end around the
equals sign, and a comma may stand last. -/
def readPairs : Nat → Nat → Entries → Chars → Option Chars
  | 0, _, _, _ => none
  | n + 1, depth, es, cs => do
    match ← skipLines cs.length cs with
    | '\x7d' :: t => some t
    | r =>
      let (key, r) ← readKey r
      let '=' :: r := ← skipLines r.length r | none
      let (v, t) ← readValue n depth (← skipLines r.length r)
      let es ← insertKey v true key es
      match ← skipLines t.length t with
      | ',' :: t' => readPairs n depth es t'
      | '\x7d' :: t' => some t'
      | _ => none

end

def maxNesting : Nat := 80

/-! ## Lines -/

def readLines : Nat → List String → Entries → Chars → Option Entries
  | 0, _, _, _ => none
  | n + 1, header, es, cs => do
    match skipBlank cs with
    | [] => some es
    | '[' :: '[' :: r =>
      let (name, r) ← readKey r
      let ']' :: ']' :: r := r | none
      let es ← atHeader openRow name es
      readLines n name es (← endLine r)
    | '[' :: r =>
      let (name, r) ← readKey r
      let ']' :: r := r | none
      let es ← atHeader openTable name es
      readLines n name es (← endLine r)
    | c :: r =>
      if c = '#' ∨ c = '\n' ∨ c = '\r' then readLines n header es (← endLine (c :: r))
      else
        let (key, r) ← readKey (c :: r)
        let '=' :: r := r | none
        let r := skipBlank r
        let (v, t) ← readValue (r.length + 1) maxNesting r
        let es ← insertUnder v key header es
        readLines n header es (← endLine t)

/-- The entries of a document. A byte order mark may stand first. -/
def read? (text : String) : Option Entries :=
  let cs := match text.toList with
    | '\ufeff' :: r => r
    | r => r
  readLines (cs.length + 1) [] [] cs

end ScriptHost.Toml
