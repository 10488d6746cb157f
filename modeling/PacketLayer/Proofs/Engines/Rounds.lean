import Mathlib.Data.LawfulXor.Basic
import PacketLayer.Crypto.Aes.Schedule

/-! # The block cipher is undone

Every layer of a round has an inverse. Doubling is additive, so mixing a column four times leaves
it as it was; the substitution rests on an inversion, which is its own inverse. Deciphering
therefore undoes enciphering under every schedule of round keys.
-/

namespace PacketLayer.Crypto.Aes

theorem xor_left_comm (a b c : UInt8) : a ^^^ (b ^^^ c) = b ^^^ (a ^^^ c) := by
  ac_rfl

/-! ## Mixing -/

theorem double_eq (a : UInt8) : double a = a <<< 1 ^^^ if a.toBitVec.msb then 0x1b else 0 := by
  have hmsb : a < 0x80 ↔ a.toBitVec.msb = false := by
    rw [BitVec.msb_eq_false_iff_two_mul_lt]
    change a.toNat < 128 ↔ 2 * a.toNat < 256
    omega
  unfold double
  by_cases hsmall : a < 0x80
  · rw [if_pos hsmall, if_neg (by simp [hmsb.mp hsmall])]
  · rw [if_neg hsmall, if_pos (by simpa using mt hmsb.mpr hsmall)]

theorem double_xor (a b : UInt8) : double (a ^^^ b) = double a ^^^ double b := by
  have hshift : (a ^^^ b) <<< 1 = a <<< 1 ^^^ b <<< 1 := by
    apply UInt8.eq_of_toBitVec_eq
    simp [BitVec.shiftLeft_xor_distrib]
  have hmsb : (a ^^^ b).toBitVec.msb = (a.toBitVec.msb ^^ b.toBitVec.msb) := by
    simp
  have hreduce (s t : Bool) : (if s ^^ t then (0x1b : UInt8) else 0) =
      (if s then 0x1b else 0) ^^^ (if t then 0x1b else 0) := by
    cases s <;> cases t <;> rfl
  rw [double_eq, double_eq, double_eq, hshift, hmsb, hreduce]
  ac_rfl

namespace Column

theorem xor_xor (w key : Column) : (w.xor key).xor key = w := by
  simp [xor]

theorem map_map {f g : UInt8 → UInt8} (hinverse : ∀ a, g (f a) = a) (w : Column) :
    (w.map f).map g = w := by
  simp [map, hinverse]

/-- What mixing twice comes to. -/
def spread (w : Column) : Column :=
  ⟨w.a ^^^ double (double (w.a ^^^ w.c)), w.b ^^^ double (double (w.b ^^^ w.d)),
    w.c ^^^ double (double (w.a ^^^ w.c)), w.d ^^^ double (double (w.b ^^^ w.d))⟩

theorem mix_mix (w : Column) : w.mix.mix = w.spread := by
  obtain ⟨a, b, c, d⟩ := w
  simp only [mix, spread, double_xor, mk.injEq]
  refine ⟨?_, ?_, ?_, ?_⟩ <;>
    simp only [UInt8.xor_assoc, UInt8.xor_comm, xor_left_comm, UInt8.xor_self, UInt8.xor_zero,
      UInt8.zero_xor, xor_cancel_left]

theorem spread_spread (w : Column) : w.spread.spread = w := by
  obtain ⟨a, b, c, d⟩ := w
  have hsum (a b even : UInt8) : a ^^^ even ^^^ (b ^^^ even) = a ^^^ b := by
    rw [UInt8.xor_assoc, UInt8.xor_comm b, xor_cancel_left]
  simp only [spread, hsum, xor_cancel_right]

theorem unmix_mix (w : Column) : w.mix.unmix = w :=
  calc w.mix.unmix
    _ = w.mix.spread.mix := rfl
    _ = w.mix.mix.mix.mix := by rw [← mix_mix]
    _ = w.spread.spread := by rw [mix_mix, mix_mix]
    _ = w := spread_spread w

end Column

/-! ## Substitution -/

theorem substitute_eq (a : UInt8) : substitute a = mixBits (inverse a) := by
  have hentry : substitute a = mixBits (inverse (.ofNat a.toNat)) :=
    Vector.getElem_ofFn a.toNat_lt
  rw [hentry, UInt8.ofNat_toNat]

theorem unsubstitute_eq (a : UInt8) : unsubstitute a = inverse (unmixBits a) := by
  have hentry : unsubstitute a = inverse (unmixBits (.ofNat a.toNat)) :=
    Vector.getElem_ofFn a.toNat_lt
  rw [hentry, UInt8.ofNat_toNat]

theorem unmixBits_mixBits (a : UInt8) : unmixBits (mixBits a) = a := by
  have hall : ∀ i : Fin 256, unmixBits (mixBits (.ofFin i)) = .ofFin i := by
    decide +kernel
  exact hall a.toFin

/-! Inverting on numbers is what the check of all octets can afford. -/

/-- Doubling on numbers. -/
def doubleNat (a : Nat) : Nat :=
  if a < 128 then 2 * a else (2 * a) ^^^ 0x11b

/-- The product on numbers. -/
def mulNat : Nat → Nat → Nat → Nat
  | 0, _, _ => 0
  | bits + 1, a, b => (if b % 2 = 1 then a else 0) ^^^ mulNat bits (doubleNat a) (b / 2)

/-- The inverse on numbers. -/
def inverseNat (a : Nat) : Nat :=
  let a2 := mulNat 8 a a
  let a4 := mulNat 8 a2 a2
  let a8 := mulNat 8 a4 a4
  let a16 := mulNat 8 a8 a8
  let a32 := mulNat 8 a16 a16
  let a64 := mulNat 8 a32 a32
  let a128 := mulNat 8 a64 a64
  mulNat 8 (mulNat 8 (mulNat 8 a2 a4) (mulNat 8 a8 a16)) (mulNat 8 (mulNat 8 a32 a64) a128)

theorem toNat_double (a : UInt8) : (double a).toNat = doubleNat a.toNat := by
  have hall : ∀ i : Fin 256, (double (.ofFin i)).toNat = doubleNat i.val := by
    decide +kernel
  exact hall a.toFin

theorem toNat_mulBits (bits : Nat) (a b : UInt8) :
    (mulBits bits a b).toNat = mulNat bits a.toNat b.toNat := by
  induction bits generalizing a b with
  | zero => rfl
  | succ bits ih =>
      have hodd : b &&& 1 = 1 ↔ b.toNat % 2 = 1 := by
        rw [← UInt8.toNat_inj, UInt8.toNat_and]
        exact iff_of_eq (congrArg (· = 1) (Nat.and_one_is_mod _))
      have hhalf : (b >>> 1).toNat = b.toNat / 2 := by
        rw [UInt8.toNat_shiftRight]
        exact Nat.shiftRight_eq_div_pow _ _
      rw [mulBits, mulNat, UInt8.toNat_xor, ih, toNat_double, hhalf]
      congr 1
      split <;> simp_all

theorem toNat_inverse (a : UInt8) : (inverse a).toNat = inverseNat a.toNat := by
  simp only [inverse, inverseNat, mul, toNat_mulBits]

theorem inverse_inverse (a : UInt8) : inverse (inverse a) = a := by
  have hnat : ∀ i : Fin 256, inverseNat (inverseNat i.val) = i.val := by
    decide +kernel
  apply UInt8.toNat_inj.mp
  rw [toNat_inverse, toNat_inverse]
  exact hnat a.toFin

theorem unsubstitute_substitute (a : UInt8) : unsubstitute (substitute a) = a := by
  rw [substitute_eq, unsubstitute_eq, unmixBits_mixBits, inverse_inverse]

/-! ## Rounds -/

namespace Block

theorem xor_xor (s key : Block) : (s.xor key).xor key = s := by
  simp [xor, Column.xor_xor]

theorem unshiftRows_shiftRows (s : Block) : s.shiftRows.unshiftRows = s :=
  rfl

theorem map_map {f g : Column → Column} (hinverse : ∀ w, g (f w) = w) (s : Block) :
    (s.map f).map g = s := by
  simp [map, hinverse]

theorem unsubstitute_substitute (s : Block) : s.substitute.unsubstitute = s :=
  map_map (Column.map_map Aes.unsubstitute_substitute) s

end Block

theorem decipherRound_encipherRound (state key : Block) :
    decipherRound key (encipherRound state key) = state := by
  unfold decipherRound encipherRound
  rw [Block.xor_xor, Block.map_map Column.unmix_mix, Block.unshiftRows_shiftRows,
    Block.unsubstitute_substitute]

theorem foldr_decipherRound (keys : List Block) (state : Block) :
    keys.foldr decipherRound (keys.foldl encipherRound state) = state := by
  induction keys generalizing state with
  | nil => rfl
  | cons key keys ih =>
      rw [List.foldl_cons, List.foldr_cons, ih, decipherRound_encipherRound]

/-- Under every schedule of round keys, deciphering undoes enciphering. -/
theorem Schedule.decipher_encipher (keys : Schedule) (block : Block) :
    keys.decipher (keys.encipher block) = block := by
  unfold decipher encipher
  rw [Block.xor_xor, Block.unshiftRows_shiftRows, Block.unsubstitute_substitute,
    foldr_decipherRound, Block.xor_xor]

end PacketLayer.Crypto.Aes
