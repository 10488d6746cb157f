import PacketLayer.Proofs.Chunks

/-! # Chunks that are refused

An engine in block chaining mode overwrites a buffer block by block, and refuses a buffer that
ends within a block before it has touched any of it. The chain then stands where it stood, so
what is transformed later does not tell that anything was refused.
-/

namespace PacketLayer.Crypto

open Aes

namespace Chaining

/-- Overwrites blocks at the front of a buffer, so many of them, by what becomes of them. -/
def overwrite (direction : Direction) : Nat → Bytes → StateM Chaining Bytes
  | 0, buffer => pure buffer
  | count + 1, buffer => do
      let block ← process direction (.ofBytes (buffer.take 16))
      let rest ← overwrite direction count (buffer.drop 16)
      return block.toBytes ++ rest

/-- Overwrites a buffer of whole blocks. Returned are whether this was done, the buffer, and the
chain. -/
def transform (direction : Direction) (buffer : Bytes) (state : Chaining) :
    Except Fault Unit × Bytes × Chaining :=
  if buffer.length % 16 ≠ 0 then
    (.error (.partialBlock direction buffer.length 16), buffer, state)
  else
    let result := overwrite direction (buffer.length / 16) buffer state
    (.ok (), result.1, result.2)

/-- Blocks that are overwritten one by one are transformed as a list of blocks is. -/
theorem overwrite_flatMap (direction : Direction) (bs : List Block) (state : Chaining) :
    overwrite direction bs.length (bs.flatMap Block.toBytes) state =
      ((bs.mapM (process direction) state).1.flatMap Block.toBytes,
        (bs.mapM (process direction) state).2) := by
  induction bs generalizing state with
  | nil => rfl
  | cons block bs ih =>
      have hfront :
          Block.ofBytes ((block.toBytes ++ bs.flatMap Block.toBytes).take 16) = block := by
        rw [List.take_left' block.length_toBytes]
        rfl
      have hback : (block.toBytes ++ bs.flatMap Block.toBytes).drop 16 =
          bs.flatMap Block.toBytes :=
        List.drop_left' block.length_toBytes
      have hmap : (block :: bs).mapM (process direction) state =
          ((process direction block state).1 ::
              (bs.mapM (process direction) (process direction block state).2).1,
            (bs.mapM (process direction) (process direction block state).2).2) := by
        rw [List.mapM_cons]
        rfl
      have hoverwrite : overwrite direction (block :: bs).length
          ((block :: bs).flatMap Block.toBytes) state =
          ((process direction block state).1.toBytes ++ (overwrite direction bs.length
              (bs.flatMap Block.toBytes) (process direction block state).2).1,
            (overwrite direction bs.length (bs.flatMap Block.toBytes)
              (process direction block state).2).2) := by
        rw [List.flatMap_cons, List.length_cons, overwrite, hfront, hback]
        rfl
      rw [hoverwrite, hmap, ih, List.flatMap_cons]

end Chaining

namespace Engine

/-- Transforms a buffer in place. Returned are whether this was done, the buffer, and the
engine. -/
def transform : Engine → Bytes → Except Fault Unit × Bytes × Engine
  | counter state, buffer =>
      let (output, state) := Counter.apply buffer state
      (.ok (), output, counter state)
  | chaining direction state, buffer =>
      let (result, buffer, state) := Chaining.transform direction buffer state
      (result, buffer, chaining direction state)

/-- Transforms buffers in turn; one that is refused does not end the series. -/
def transformEach : List Bytes → Engine → List (Except Fault Unit × Bytes)
  | [], _ => []
  | buffer :: buffers, engine =>
      let (result, buffer, engine) := engine.transform buffer
      (result, buffer) :: transformEach buffers engine

/-- What the owner of a buffer makes of it afterwards: nothing, if it was refused. -/
def returned : Except Fault Unit × Bytes → Except Fault Bytes
  | (.ok (), buffer) => .ok buffer
  | (.error fault, _) => .error fault

variable {engine : Engine} {data : Bytes}

/-- A buffer that is taken holds afterwards what the engine makes of it. -/
theorem transform_of_takes (htakes : engine.Takes data) :
    ∃ output next, engine.apply data = (.ok output, next) ∧
      engine.transform data = (.ok (), output, next) := by
  cases engine with
  | counter state => exact ⟨_, _, apply_counter state data, rfl⟩
  | chaining direction state =>
      obtain ⟨bs, rfl⟩ := Chaining.exists_blocks htakes
      refine ⟨_, _, apply_chaining direction bs state, ?_⟩
      have hlength := length_flatMap_toBytes bs
      have hwhole : ¬(bs.flatMap Block.toBytes).length % 16 ≠ 0 := by omega
      have hcount : (bs.flatMap Block.toBytes).length / 16 = bs.length := by omega
      rw [transform, Chaining.transform, if_neg hwhole, hcount, Chaining.overwrite_flatMap]

/-- A buffer that is refused stays as it is, and so does the engine. -/
theorem transform_of_refused (hrefused : ¬engine.Takes data) :
    ∃ fault, engine.apply data = (.error fault, engine) ∧
      engine.transform data = (.error fault, data, engine) ∧ fault.category = .crypto := by
  cases engine with
  | counter state => exact absurd trivial hrefused
  | chaining direction state =>
      have hpartial : data.length % 16 ≠ 0 := fun hwhole =>
        hrefused (Nat.dvd_of_mod_eq_zero hwhole)
      refine ⟨.partialBlock direction data.length 16, ?_, ?_, rfl⟩
      · rw [apply, Chaining.apply, if_neg hpartial]
      · rw [transform, Chaining.transform, if_pos hpartial]

/-- The series after a buffer that is taken goes on with the engine as it is then. -/
theorem transformEach_of_takes (htakes : engine.Takes data) :
    ∃ output next, engine.apply data = (.ok output, next) ∧ ∀ buffers,
      engine.transformEach (data :: buffers) = (.ok (), output) :: next.transformEach buffers := by
  obtain ⟨output, next, happly, htransform⟩ := transform_of_takes htakes
  exact ⟨output, next, happly, fun buffers => by rw [transformEach, htransform]⟩

/-- The series after a buffer that is refused goes on with the engine as it was before. -/
theorem transformEach_of_refused (hrefused : ¬engine.Takes data) :
    ∃ fault, engine.apply data = (.error fault, engine) ∧ fault.category = .crypto ∧ ∀ buffers,
      engine.transformEach (data :: buffers) =
        (.error fault, data) :: engine.transformEach buffers := by
  obtain ⟨fault, happly, htransform, hcrypto⟩ := transform_of_refused hrefused
  exact ⟨fault, happly, hcrypto, fun buffers => by rw [transformEach, htransform]⟩

/-- Buffers that are transformed in turn give what strings do. -/
theorem applyEach_eq (buffers : List Bytes) (engine : Engine) :
    engine.applyEach buffers = (engine.transformEach buffers).map returned := by
  induction buffers generalizing engine with
  | nil => rfl
  | cons buffer buffers ih =>
      by_cases htakes : engine.Takes buffer
      · obtain ⟨output, next, happly, heach⟩ := transformEach_of_takes htakes
        rw [heach, List.map_cons, ← ih, applyEach, happly]
        rfl
      · obtain ⟨fault, happly, -, heach⟩ := transformEach_of_refused htakes
        rw [heach, List.map_cons, ← ih, applyEach, happly]
        rfl

/-- Whether a buffer consists of whole blocks. -/
def isWhole (blockSize : Nat) (buffer : Bytes) : Bool :=
  decide (blockSize ∣ buffer.length)

/-- A series of buffers is transformed as if those that do not consist of whole blocks had not
been offered. -/
structure Traceless (blockSize : Nat) (engine : Engine) (buffers : List Bytes) : Prop where
  answered : (engine.transformEach buffers).length = buffers.length
  refused : ∀ entry ∈ buffers.zip (engine.transformEach buffers),
    isWhole blockSize entry.1 = false →
      ∃ fault, entry.2 = (.error fault, entry.1) ∧ fault.category = .crypto
  spared : ((buffers.zip (engine.transformEach buffers)).filter
      fun entry => isWhole blockSize entry.1).map Prod.snd =
    engine.transformEach (buffers.filter (isWhole blockSize))
  transformed : ∃ outputs : List Bytes,
    engine.transformEach (buffers.filter (isWhole blockSize)) =
      outputs.map fun output => (.ok (), output)

theorem traceless {blockSize : Nat} {engine : Engine}
    (htakes : ∀ chunk, engine.Takes chunk ↔ blockSize ∣ chunk.length) (buffers : List Bytes) :
    Traceless blockSize engine buffers := by
  induction buffers generalizing engine with
  | nil => exact ⟨rfl, nofun, rfl, [], rfl⟩
  | cons buffer buffers ih =>
      cases hwhole : isWhole blockSize buffer with
      | true =>
          obtain ⟨output, next, happly, heach⟩ :=
            transformEach_of_takes ((htakes buffer).mpr (of_decide_eq_true hwhole))
          obtain ⟨hanswered, hrefused, hspared, outputs, htransformed⟩ :=
            ih fun chunk => (takes_apply happly chunk).trans (htakes chunk)
          have hfilter : (buffer :: buffers).filter (isWhole blockSize) =
              buffer :: buffers.filter (isWhole blockSize) := List.filter_cons_of_pos hwhole
          refine ⟨?_, ?_, ?_, output :: outputs, ?_⟩
          · rw [heach, List.length_cons, hanswered, List.length_cons]
          · rw [heach, List.zip_cons_cons, List.forall_mem_cons]
            refine ⟨fun hpartial => ?_, hrefused⟩
            rw [hwhole] at hpartial
            cases hpartial
          · rw [hfilter, heach, heach, List.zip_cons_cons, List.filter_cons]
            simp only [hwhole, if_true, List.map_cons, hspared]
          · rw [hfilter, heach, htransformed, List.map_cons]
      | false =>
          obtain ⟨fault, -, hcrypto, heach⟩ := transformEach_of_refused
            fun htaken => of_decide_eq_false hwhole ((htakes buffer).mp htaken)
          obtain ⟨hanswered, hrefused, hspared, htransformed⟩ := ih htakes
          have hfilter : (buffer :: buffers).filter (isWhole blockSize) =
              buffers.filter (isWhole blockSize) := List.filter_cons_of_neg (by simp [hwhole])
          refine ⟨?_, ?_, ?_, hfilter ▸ htransformed⟩
          · rw [heach, List.length_cons, hanswered, List.length_cons]
          · rw [heach, List.zip_cons_cons, List.forall_mem_cons]
            exact ⟨fun _ => ⟨fault, rfl, hcrypto⟩, hrefused⟩
          · rw [hfilter, heach, List.zip_cons_cons, List.filter_cons]
            simp only [hwhole, Bool.false_eq_true, if_false, hspared]

end Engine

/-- Under every cipher in block chaining mode, a chunk that does not consist of whole blocks is
refused and left as it is, and what becomes of the other chunks does not depend on it. -/
theorem refusals_leave_no_trace {algorithm : CipherAlgorithm}
    (hchained : algorithm = .aes128Cbc ∨ algorithm = .aes256Cbc) {direction : Direction}
    {key iv : Bytes} {engine : Engine} (hengine : algorithm.engine direction key iv = .ok engine)
    (chunks : List Bytes) :
    engine.applyEach chunks = (engine.transformEach chunks).map Engine.returned ∧
      Engine.Traceless algorithm.blockSize engine chunks := by
  refine ⟨Engine.applyEach_eq chunks engine, Engine.traceless (fun chunk => ?_) chunks⟩
  obtain ⟨chain, rfl⟩ : ∃ chain, engine = .chaining direction chain := by
    unfold CipherAlgorithm.engine at hengine
    split at hengine
    · cases hengine
    split at hengine
    · cases hengine
    · obtain rfl := Except.ok.inj hengine
      rcases hchained with rfl | rfl
      · exact ⟨_, rfl⟩
      · exact ⟨_, rfl⟩
  exact Iff.rfl

/-- Between two good chunks, one of twenty octets is refused by a decipherer. -/
theorem refusals_leave_no_trace_between :
    ∃ engine : Engine,
      CipherAlgorithm.aes256Cbc.engine .inbound surplusKey (List.replicate 16 2) = .ok engine ∧
        Engine.Traceless 16 engine
          [List.replicate 16 3, List.replicate 20 4, List.replicate 32 5] := by
  have hkey : CipherAlgorithm.aes256Cbc.keySize ≤ surplusKey.length := by decide
  have hiv : CipherAlgorithm.aes256Cbc.ivSize ≤ (List.replicate 16 2 : Bytes).length := by decide
  have hengine := CipherAlgorithm.engine_eq hkey hiv .inbound
  exact ⟨_, hengine, (refusals_leave_no_trace (.inr rfl) hengine _).2⟩

end PacketLayer.Crypto
