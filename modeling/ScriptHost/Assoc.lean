/-!
# Association tables

A finite map as a list of pairs in the order in which the keys were first put. All stores of the
engine are such tables. The laws say what each operation does to `get?`, which is the only view the
rest of the library uses besides `keys` and `size`.
-/

namespace ScriptHost

/-- A finite map from `κ` to `ν`. -/
structure Assoc (κ ν : Type) where
  entries : List (κ × ν) := []
deriving DecidableEq

namespace Assoc

variable {κ ν : Type} [DecidableEq κ]

instance : Inhabited (Assoc κ ν) := ⟨⟨[]⟩⟩

/-- Value of the first pair with a given key. -/
def getIn (k : κ) : List (κ × ν) → Option ν
  | [] => none
  | (k', v) :: rest => if k' = k then some v else getIn k rest

/-- Replace the value of the first pair with the key, or add a pair at the end. -/
def putIn (k : κ) (v : ν) : List (κ × ν) → List (κ × ν)
  | [] => [(k, v)]
  | (k', v') :: rest => if k' = k then (k, v) :: rest else (k', v') :: putIn k v rest

def get? (t : Assoc κ ν) (k : κ) : Option ν := getIn k t.entries

def contains (t : Assoc κ ν) (k : κ) : Bool := (t.get? k).isSome

def put (t : Assoc κ ν) (k : κ) (v : ν) : Assoc κ ν := ⟨putIn k v t.entries⟩

def erase (t : Assoc κ ν) (k : κ) : Assoc κ ν := ⟨t.entries.filter fun e => !decide (e.1 = k)⟩

/-- Apply `f` to the value of a key, if it has one. -/
def adjust (t : Assoc κ ν) (k : κ) (f : ν → ν) : Assoc κ ν :=
  match t.get? k with
  | some v => t.put k (f v)
  | none => t

omit [DecidableEq κ] in
def keys (t : Assoc κ ν) : List κ := t.entries.map Prod.fst

omit [DecidableEq κ] in
def keysWhere (t : Assoc κ ν) (p : ν → Bool) : List κ := (t.entries.filter fun e => p e.2).map Prod.fst

omit [DecidableEq κ] in
def size (t : Assoc κ ν) : Nat := t.entries.length

theorem getIn_putIn_self (k : κ) (v : ν) (es : List (κ × ν)) : getIn k (putIn k v es) = some v := by
  induction es with
  | nil => simp [putIn, getIn]
  | cons e rest ih =>
    obtain ⟨k', v'⟩ := e
    by_cases h : k' = k <;> simp [putIn, getIn, h, ih]

theorem getIn_putIn_ne {k k' : κ} (h : k ≠ k') (v : ν) (es : List (κ × ν)) :
    getIn k' (putIn k v es) = getIn k' es := by
  induction es with
  | nil => simp [putIn, getIn, h]
  | cons e rest ih =>
    obtain ⟨a, b⟩ := e
    by_cases ha : a = k
    · subst ha; simp [putIn, getIn, h]
    · simp [putIn, getIn, ha, ih]

@[simp] theorem get?_put_self (t : Assoc κ ν) (k : κ) (v : ν) : (t.put k v).get? k = some v :=
  getIn_putIn_self k v t.entries

theorem get?_put_ne (t : Assoc κ ν) {k k' : κ} (h : k ≠ k') (v : ν) :
    (t.put k v).get? k' = t.get? k' :=
  getIn_putIn_ne h v t.entries

theorem get?_put (t : Assoc κ ν) (k k' : κ) (v : ν) :
    (t.put k v).get? k' = if k = k' then some v else t.get? k' := by
  by_cases h : k = k'
  · subst h; simp
  · simp [h, get?_put_ne t h]

theorem get?_empty (k : κ) : (⟨[]⟩ : Assoc κ ν).get? k = none := rfl

end Assoc
end ScriptHost
