import ScriptHost.Adapter.HostType
import ScriptHost.Text.Bytes
import ScriptHost.Text.Quoted

/-!
# Class name hash

The 64-bit hash that tells apart the generated classes of one simple name. It is fed words, each
added to the state and multiplied by a constant; a row of bytes is first folded to one word by
products of 128 bits whose halves are combined.
-/

namespace ScriptHost.NameHash

/-- The state after some words. -/
abbrev State := UInt64

def step (h : State) (word : UInt64) : State := (h + word) * 0xf1357aea2e62a9c5

/-- The hash of what was fed: the state rotated left by 26 bits. -/
def result (h : State) : UInt64 := (h <<< 26) ||| (h >>> 38)

/-- The halves of the product, combined bit by bit. -/
def foldedProduct (x y : UInt64) : UInt64 :=
  let p := x.toNat * y.toNat
  UInt64.ofNat p ^^^ UInt64.ofNat (p / 0x10000000000000000)

def littleEndian (bs : List UInt8) : UInt64 := bs.foldr (fun b n => n * 256 + b.toUInt64) 0

def seed₀ : UInt64 := 0x243f6a8885a308d3
def seed₁ : UInt64 := 0x13198a2e03707344
def chunkKey : UInt64 := 0xa4093822299f31d0

/-- Fold the chunks of sixteen bytes, as many as asked for. -/
def chunks : Nat → UInt64 → UInt64 → List UInt8 → UInt64 × UInt64
  | 0, s₀, s₁, _ => (s₀, s₁)
  | n + 1, s₀, s₁, bs =>
    let t := foldedProduct (s₀ ^^^ littleEndian (bs.take 8)) (chunkKey ^^^ littleEndian ((bs.drop 8).take 8))
    chunks n s₁ t (bs.drop 16)

/-- The two words that a row of bytes is folded to; the last sixteen bytes, or all of fewer, enter
both ends. -/
def lanes (bs : List UInt8) : UInt64 × UInt64 :=
  let n := bs.length
  let last (k : Nat) := littleEndian (bs.drop (n - k))
  if 16 < n then
    let (s₀, s₁) := chunks ((n - 1) / 16) seed₀ seed₁ bs
    (s₀ ^^^ littleEndian ((bs.drop (n - 16)).take 8), s₁ ^^^ last 8)
  else if 8 ≤ n then (seed₀ ^^^ littleEndian (bs.take 8), seed₁ ^^^ last 8)
  else if 4 ≤ n then (seed₀ ^^^ littleEndian (bs.take 4), seed₁ ^^^ last 4)
  else if 1 ≤ n then
    (seed₀ ^^^ littleEndian (bs.take 1),
      seed₁ ^^^ ((last 1 <<< 8) ||| littleEndian ((bs.drop (n / 2)).take 1)))
  else (seed₀, seed₁)

def bytesWord (bs : List UInt8) : UInt64 :=
  let (s₀, s₁) := lanes bs
  foldedProduct s₀ s₁ ^^^ UInt64.ofNat bs.length

/-! ## What is fed -/

def feedText (h : State) (s : String) : State := step (step h (bytesWord (Text.toBytes s))) 0xff

def feedNat (h : State) (n : Nat) : State := step h (UInt64.ofNat n)

def feedTy (h : State) (t : Ty) : State := feedNat h t.tag.toNat

def feedSignature (h : State) (s : Signature) : State :=
  s.params.foldl feedTy (feedNat (feedTy h s.ret) s.params.length)

def kindNumber : TypeKind → Nat
  | .interface => 0
  | .classType => 1

/-- One overridden method: its name, and its signature if the target has it. -/
def feedOverride (target : HostType) (h : State) (name : String) : State :=
  let h := feedText h name
  match target.method? name with
  | some m => feedSignature h m.signature
  | none => h

/-- The hash of an adapter of `target` with the given overrides, in ascending order. -/
def adapterHash (target : HostType) (overrides : List String) (classLevel : Bool) : UInt64 :=
  let h := feedNat (feedNat (feedText 0 target.name) (kindNumber target.kind)) (if classLevel then 1 else 0)
  result (overrides.foldl (feedOverride target) h)

end ScriptHost.NameHash
