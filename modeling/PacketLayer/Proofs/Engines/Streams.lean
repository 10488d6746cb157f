import PacketLayer.Crypto.Negotiated
import PacketLayer.Proofs.Engines.Rounds

/-! # Engines are undone piece by piece

What an engine carries from call to call lets it go on where it stopped, so a string may be
transformed in pieces. The engine for the other direction, started from the same material, gives
back what was enciphered, and both stand at the same place afterwards.
-/

namespace PacketLayer.Crypto

open Aes

/-! ## Maps that carry a state -/

section Mapping

variable {σ α β : Type}

theorem mapM_append_eq (f : α → StateM σ β) (xs ys : List α) (s : σ) :
    (xs ++ ys).mapM f s = ((xs.mapM f s).1 ++ (ys.mapM f (xs.mapM f s).2).1,
      (ys.mapM f (xs.mapM f s).2).2) := by
  rw [List.mapM_append]
  rfl

/-- A map whose steps are undone is undone from the same state on. -/
theorem mapM_undone {f : α → StateM σ β} {g : β → StateM σ α}
    (hundone : ∀ x s, g (f x s).1 s = (x, (f x s).2)) (xs : List α) (s : σ) :
    (xs.mapM f s).1.mapM g s = (xs, (xs.mapM f s).2) := by
  induction xs generalizing s with
  | nil => rfl
  | cons x xs ih =>
      have hmap : (x :: xs).mapM f s =
          ((f x s).1 :: (xs.mapM f (f x s).2).1, (xs.mapM f (f x s).2).2) := by
        rw [List.mapM_cons]
        rfl
      have hback (y : β) (ys : List β) : (y :: ys).mapM g s =
          ((g y s).1 :: (ys.mapM g (g y s).2).1, (ys.mapM g (g y s).2).2) := by
        rw [List.mapM_cons]
        rfl
      rw [hmap, hback, hundone, ih]

end Mapping

/-! ## The counter -/

namespace Counter

theorem apply_apply (data : Bytes) (state : Counter) :
    (Counter.apply (Counter.apply data state).1 state) = (data, (Counter.apply data state).2) := by
  refine mapM_undone (fun datum state => ?_) data state
  exact Prod.ext (xor_cancel_right datum state.next.1) rfl

theorem apply_append (data more : Bytes) (state : Counter) :
    Counter.apply (data ++ more) state =
      ((Counter.apply data state).1 ++ (Counter.apply more (Counter.apply data state).2).1,
        (Counter.apply more (Counter.apply data state).2).2) :=
  mapM_append_eq octet data more state

end Counter

/-! ## The chain -/

namespace Aes

theorem Column.toBytes_ofBytes {bytes : Bytes} (hlong : 4 ≤ bytes.length) :
    (Column.ofBytes bytes).toBytes = bytes.take 4 := by
  match bytes, hlong with
  | _ :: _ :: _ :: _ :: _, _ => rfl

namespace Block

theorem toBytes_ofBytes {bytes : Bytes} (hlength : bytes.length = 16) :
    (ofBytes bytes).toBytes = bytes := by
  have hcolumn (count : Nat) (hcount : count ≤ 12) :
      (Column.ofBytes (bytes.drop count)).toBytes = (bytes.drop count).take 4 :=
    Column.toBytes_ofBytes (by rw [List.length_drop, hlength]; omega)
  calc (ofBytes bytes).toBytes
    _ = (Column.ofBytes (bytes.drop 0)).toBytes ++ (Column.ofBytes (bytes.drop 4)).toBytes ++
        (Column.ofBytes (bytes.drop 8)).toBytes ++ (Column.ofBytes (bytes.drop 12)).toBytes := rfl
    _ = bytes.take 4 ++ (bytes.drop 4).take 4 ++ (bytes.drop 8).take 4 ++
        (bytes.drop 12).take 4 := by
      rw [hcolumn 0 (by decide), hcolumn 4 (by decide), hcolumn 8 (by decide),
        hcolumn 12 (by decide), List.drop_zero]
    _ = bytes.take 16 := by rw [← List.take_add, ← List.take_add, ← List.take_add]
    _ = bytes := List.take_of_length_le (Nat.le_of_eq hlength)

end Block

end Aes

namespace Chaining

theorem exists_blocks {data : Bytes} (hwhole : 16 ∣ data.length) :
    ∃ blocks : List Block, data = blocks.flatMap Block.toBytes := by
  obtain ⟨count, hcount⟩ := hwhole
  induction count generalizing data with
  | zero => exact ⟨[], List.eq_nil_of_length_eq_zero hcount⟩
  | succ count ih =>
      have hfront : (data.take 16).length = 16 := by
        rw [List.length_take]
        omega
      have hback : (data.drop 16).length = 16 * count := by
        rw [List.length_drop]
        omega
      obtain ⟨blocks, hblocks⟩ := ih hback
      refine ⟨.ofBytes (data.take 16) :: blocks, ?_⟩
      rw [List.flatMap_cons, Block.toBytes_ofBytes hfront, ← hblocks, List.take_append_drop]

theorem pieces_flatMap (bs : List Block) :
    (Bytes.pieces 16 bs.length (bs.flatMap Block.toBytes)).map Block.ofBytes = bs := by
  induction bs with
  | nil => rfl
  | cons block bs ih =>
      have hdrop : (block.toBytes ++ bs.flatMap Block.toBytes).drop 16 =
          bs.flatMap Block.toBytes :=
        List.drop_left' block.length_toBytes
      have htake : (block.toBytes ++ bs.flatMap Block.toBytes).take 16 = block.toBytes :=
        List.take_left' block.length_toBytes
      rw [List.flatMap_cons, List.length_cons, Bytes.pieces, List.map_cons, hdrop, htake, ih]
      rfl

theorem apply_flatMap (direction : Direction) (bs : List Block) (state : Chaining) :
    Chaining.apply direction (bs.flatMap Block.toBytes) state =
      (.ok ((bs.mapM (process direction) state).1.flatMap Block.toBytes),
        (bs.mapM (process direction) state).2) := by
  have hlength := length_flatMap_toBytes bs
  have hwhole : (bs.flatMap Block.toBytes).length % 16 = 0 := by omega
  have hcount : (bs.flatMap Block.toBytes).length / 16 = bs.length := by omega
  unfold Chaining.apply
  rw [if_pos hwhole, blocks, hcount, pieces_flatMap]

/-- Blocks that were enciphered are deciphered from the same place in the chain. -/
theorem decipher_encipher (bs : List Block) (state : Chaining) :
    (bs.mapM (process .outbound) state).1.mapM (process .inbound) state =
      (bs, (bs.mapM (process .outbound) state).2) := by
  refine mapM_undone (fun block state => ?_) bs state
  have hblock : (state.keys.decipher (state.keys.encipher (block.xor state.previous))).xor
      state.previous = block := by
    rw [Schedule.decipher_encipher, Block.xor_xor]
  exact Prod.ext hblock rfl

end Chaining

/-! ## Engines -/

namespace Engine

/-- The strings that an engine transforms: every string, or those of whole blocks. -/
def Takes (data : Bytes) : Engine → Prop
  | counter _ => True
  | chaining _ _ => 16 ∣ data.length

/-- The engines for the two directions, at the same place. -/
inductive Partners : Engine → Engine → Prop where
  | counter (state : Counter) : Partners (.counter state) (.counter state)
  | chaining (state : Chaining) : Partners (.chaining .outbound state) (.chaining .inbound state)

theorem Takes.of_dvd {data : Bytes} (engine : Engine) (hwhole : 16 ∣ data.length) :
    engine.Takes data := by
  cases engine with
  | counter state => trivial
  | chaining direction state => exact hwhole

theorem apply_counter (state : Counter) (data : Bytes) :
    (counter state).apply data =
      (.ok (Counter.apply data state).1, counter (Counter.apply data state).2) :=
  rfl

theorem apply_chaining (direction : Direction) (bs : List Block) (state : Chaining) :
    (chaining direction state).apply (bs.flatMap Block.toBytes) =
      (.ok ((bs.mapM (Chaining.process direction) state).1.flatMap Block.toBytes),
        chaining direction (bs.mapM (Chaining.process direction) state).2) := by
  rw [apply, Chaining.apply_flatMap]

/-- An engine may be given a string in two pieces. -/
theorem exists_apply_append {engine : Engine} {data more : Bytes} (hdata : engine.Takes data)
    (hmore : engine.Takes more) :
    ∃ output middle rest last, engine.apply data = (.ok output, middle) ∧
      middle.apply more = (.ok rest, last) ∧
      engine.apply (data ++ more) = (.ok (output ++ rest), last) := by
  cases engine with
  | counter state =>
      refine ⟨_, _, _, _, apply_counter state data, apply_counter _ more, ?_⟩
      rw [apply_counter, Counter.apply_append]
  | chaining direction state =>
      obtain ⟨bs, rfl⟩ := Chaining.exists_blocks hdata
      obtain ⟨cs, rfl⟩ := Chaining.exists_blocks hmore
      refine ⟨_, _, _, _, apply_chaining direction bs state, apply_chaining direction cs _, ?_⟩
      rw [← List.flatMap_append, apply_chaining, mapM_append_eq, List.flatMap_append]

/-- What an engine makes of a string, its partner turns back, and they remain partners. -/
theorem Partners.undo {encipherer decipherer : Engine} (hpartners : Partners encipherer decipherer)
    {data : Bytes} (htakes : encipherer.Takes data) :
    ∃ enciphered encipherer' decipherer',
      encipherer.apply data = (.ok enciphered, encipherer') ∧
      decipherer.apply enciphered = (.ok data, decipherer') ∧
      Partners encipherer' decipherer' := by
  cases hpartners with
  | counter state =>
      refine ⟨_, _, _, apply_counter state data, ?_, .counter _⟩
      rw [apply_counter, Counter.apply_apply]
  | chaining state =>
      obtain ⟨bs, rfl⟩ := Chaining.exists_blocks htakes
      refine ⟨_, _, _, apply_chaining .outbound bs state, ?_, .chaining _⟩
      rw [apply_chaining, Chaining.decipher_encipher]

end Engine

end PacketLayer.Crypto
