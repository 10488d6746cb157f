import PacketLayer.Crypto.Negotiated

/-!
# Stand-ins for engines

Rehearsals use negotiated engines, and besides them stand-ins whose results are
laid down in advance, so that failures occur where they are wanted. A
specification describes a protection before its engines are made.
-/

namespace PacketLayer.Rehearsal

/-- A cipher in a rehearsal. -/
inductive Cipher where
  | engine (engine : Crypto.Engine)
  /-- Adds one mask to every octet. -/
  | mask (byte : UInt8)
  /-- Changes nothing for so many calls, and then fails every time. -/
  | failing (calls : Nat) (text : String)
  deriving DecidableEq, Repr

namespace Cipher

/-- Transforms a string. -/
def apply : Cipher → Bytes → Except Fault Bytes × Cipher
  | engine state, data =>
      let (output, state) := state.apply data
      (output, engine state)
  | mask byte, data => (.ok (data.map (· ^^^ byte)), mask byte)
  | failing 0 text, _ => (.error (.reported .crypto text), failing 0 text)
  | failing (calls + 1) text, data => (.ok data, failing calls text)

/-- Every cipher of a rehearsal keeps the length. -/
theorem length_apply {cipher : Cipher} {input output : Bytes}
    (happly : (cipher.apply input).1 = .ok output) : output.length = input.length := by
  cases cipher with
  | engine state => exact Crypto.Engine.length_apply happly
  | mask byte =>
      obtain rfl := Except.ok.inj happly
      exact List.length_map _
  | failing calls text =>
      cases calls with
      | zero => cases happly
      | succ calls =>
          obtain rfl := Except.ok.inj happly
          rfl

instance : BlockCipher Cipher where
  apply := apply
  length_eq := length_apply

end Cipher

/-- What a cipher is made of. -/
inductive CipherSpec where
  | negotiated (algorithm : Crypto.CipherAlgorithm) (key iv : Bytes)
  | mask (byte : UInt8)
  | failing (calls : Nat) (text : String)
  deriving DecidableEq, Repr

/-- Makes a cipher for one direction. -/
def CipherSpec.build (direction : Direction) : CipherSpec → Except Fault Cipher
  | negotiated algorithm key iv => (algorithm.engine direction key iv).map .engine
  | mask byte => .ok (.mask byte)
  | failing calls text => .ok (.failing calls text)

/-- The block size of a cipher, unless another is asked for. -/
def CipherSpec.blockSize : CipherSpec → Nat
  | negotiated algorithm _ _ => algorithm.blockSize
  | mask _ | failing _ _ => maxBlockSize

/-- What a tag engine is made of. -/
inductive MacSpec where
  | negotiated (algorithm : Crypto.MacAlgorithm) (key : Bytes)
  /-- Yields the same tag for every packet, of whatever length. -/
  | fixed (size : Nat) (tag : Bytes)
  /-- Fails for every packet. -/
  | failing (size : Nat) (text : String)
  deriving DecidableEq, Repr

/-- Makes a tag engine. -/
def MacSpec.build : MacSpec → Except Fault Mac
  | negotiated algorithm key => (Crypto.MacKey.make algorithm key).map (·.mac)
  | fixed size tag => .ok ⟨size, fun _ _ => .ok tag⟩
  | failing size text => .ok ⟨size, fun _ _ => .error (.reported .crypto text)⟩

/-- The tag size of a tag engine, unless another is asked for. -/
def MacSpec.tagSize : MacSpec → Nat
  | negotiated algorithm _ => algorithm.tagSize
  | fixed size _ | failing size _ => size

/-- What a protection is made of. -/
structure ProtectionSpec where
  cipher : CipherSpec
  mac : MacSpec
  /-- The block size and the tag size, if they are not those of the engines. -/
  sizes : Option (Nat × Nat) := none
  deriving DecidableEq, Repr

/-- Makes a protection for one direction. The cipher is made first, then the tag
engine, and then the sizes are judged. -/
def ProtectionSpec.build (direction : Direction) (spec : ProtectionSpec) :
    Except Fault (Protection Cipher) := do
  let cipher ← spec.cipher.build direction
  let mac ← spec.mac.build
  let (blockSize, tagSize) := spec.sizes.getD (spec.cipher.blockSize, spec.mac.tagSize)
  Protection.make cipher blockSize mac tagSize

end PacketLayer.Rehearsal
