import PacketLayer.Crypto.CipherAlgorithm
import PacketLayer.Crypto.MacAlgorithm
import PacketLayer.Protection

/-!
# Negotiated protections

Key exchange negotiates a cipher and a tag algorithm and derives their keys. The
engines keep the length of what they transform, so together they form a
protection.
-/

namespace PacketLayer.Crypto

/-- A state-passing map yields as many results as it is given arguments. -/
theorem length_mapM {σ α β : Type} (f : α → StateM σ β) (xs : List α) (s : σ) :
    (xs.mapM f s).1.length = xs.length := by
  induction xs generalizing s with
  | nil => rfl
  | cons x xs ih =>
      rw [List.mapM_cons]
      exact congrArg (· + 1) (ih _)

/-- The octets of whole blocks are as many as the string they were cut from. -/
theorem length_flatMap_toBytes (blocks : List Aes.Block) :
    (blocks.flatMap Aes.Block.toBytes).length = 16 * blocks.length := by
  induction blocks with
  | nil => rfl
  | cons block blocks ih =>
      rw [List.flatMap_cons, List.length_append, ih, Aes.Block.length_toBytes, List.length_cons]
      omega

/-- Engines keep the length of what they transform. -/
theorem Engine.length_apply {engine : Engine} {input output : Bytes}
    (happly : (engine.apply input).1 = .ok output) : output.length = input.length := by
  cases engine with
  | counter state =>
      obtain rfl := Except.ok.inj happly
      exact length_mapM _ _ _
  | chaining direction state =>
      by_cases hwhole : input.length % 16 = 0
      · simp only [Engine.apply, Chaining.apply, if_pos hwhole] at happly
        rw [← Except.ok.inj happly, length_flatMap_toBytes, length_mapM, Chaining.blocks,
          List.length_map, Bytes.length_pieces]
        omega
      · simp only [Engine.apply, Chaining.apply, if_neg hwhole] at happly
        cases happly

instance : BlockCipher Engine where
  apply := Engine.apply
  length_eq := Engine.length_apply

/-- The protection of negotiated algorithms for one direction. The cipher is
made first, so its fault is the one reported when both are at fault. -/
def negotiated (cipher : CipherAlgorithm) (direction : Direction) (key iv : Bytes)
    (mac : MacAlgorithm) (macKey : Bytes) : Except Fault (Protection Engine) := do
  let engine ← cipher.engine direction key iv
  let macKey ← MacKey.make mac macKey
  Protection.make engine cipher.blockSize macKey.mac mac.tagSize

end PacketLayer.Crypto
