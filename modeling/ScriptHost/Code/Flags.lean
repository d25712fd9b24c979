/-!
# Call-site flags

A word of 32 bits: four flags at the bottom, and from bit 11 on the program point of the site.
-/

namespace ScriptHost

/-- Flags of a call site, with its program point. -/
structure SiteFlags where
  bits : UInt32 := 0
deriving DecidableEq, Inhabited

namespace SiteFlags

/-- The access targets a scope object rather than an ordinary receiver. -/
def scope : SiteFlags := ⟨1⟩

def fastScope : SiteFlags := ⟨2⟩

def strict : SiteFlags := ⟨4⟩

/-- The operation runs under a type assumption that may fail. -/
def optimistic : SiteFlags := ⟨8⟩

/-- First bit of the program point. -/
def pointShift : UInt32 := 11

/-- The greatest program point: all bits from `pointShift` on. -/
def maxPoint : Int32 := 2097151

def union (a b : SiteFlags) : SiteFlags := ⟨a.bits ||| b.bits⟩

instance : OrOp SiteFlags := ⟨union⟩

def contains (a b : SiteFlags) : Bool := a.bits &&& b.bits == b.bits

def isScope (f : SiteFlags) : Bool := f.contains scope

def isStrict (f : SiteFlags) : Bool := f.contains strict

def isOptimistic (f : SiteFlags) : Bool := f.contains optimistic

def point (f : SiteFlags) : Int32 := (f.bits >>> pointShift).toInt32

def validPoint (pp : Int32) : Bool := 0 ≤ pp && pp ≤ maxPoint

/-- Replace the program point by a valid one, leaving the bits below it. -/
def withPoint (f : SiteFlags) (pp : Int32) : SiteFlags :=
  ⟨(f.bits &&& 2047) ||| (pp.toUInt32 <<< pointShift)⟩

/-- The flags that are set, by name, and a program point other than zero. -/
def text (f : SiteFlags) : String :=
  "|".intercalate <|
    (if f.isScope then ["scope"] else []) ++
    (if f.contains fastScope then ["fastscope"] else []) ++
    (if f.isStrict then ["strict"] else []) ++
    (if f.isOptimistic then ["optimistic"] else []) ++
    (if f.point = 0 then [] else ["pp=" ++ toString f.point])

end SiteFlags
end ScriptHost
