import PacketLayer.Proofs.Engines

/-! # Strings that are transformed in chunks

Writer and reader cut the same octets in different places. An engine that is given a string in
chunks makes of it what it makes of the whole, so the engine for the other direction restores
the string along any cuts of its own.
-/

namespace PacketLayer.Crypto

namespace Engine

theorem takes_apply {engine next : Engine} {data : Bytes} {result : Except Fault Bytes}
    (happly : engine.apply data = (result, next)) (chunk : Bytes) :
    next.Takes chunk ↔ engine.Takes chunk := by
  cases engine with
  | counter state =>
      cases happly
      exact Iff.rfl
  | chaining direction state =>
      cases happly
      exact Iff.rfl

theorem takes_flatten {engine : Engine} {chunks : List Bytes}
    (hchunks : ∀ chunk ∈ chunks, engine.Takes chunk) : engine.Takes chunks.flatten := by
  cases engine with
  | counter state => trivial
  | chaining direction state =>
      induction chunks with
      | nil => exact Nat.dvd_zero 16
      | cons chunk chunks ih =>
          obtain ⟨hchunk, hrest⟩ := List.forall_mem_cons.mp hchunks
          change 16 ∣ (chunk ++ chunks.flatten).length
          rw [List.length_append]
          exact Nat.dvd_add hchunk (ih hrest)

/-- What an engine makes of chunks in turn is what it makes of them put together. -/
theorem exists_applyEach {engine : Engine} {chunks : List Bytes}
    (hchunks : ∀ chunk ∈ chunks, engine.Takes chunk) :
    ∃ (outputs : List Bytes) (last : Engine), engine.applyEach chunks = outputs.map .ok ∧
      outputs.map List.length = chunks.map List.length ∧
      engine.apply chunks.flatten = (.ok outputs.flatten, last) := by
  induction chunks generalizing engine with
  | nil =>
      refine ⟨[], engine, rfl, rfl, ?_⟩
      cases engine <;> rfl
  | cons chunk chunks ih =>
      obtain ⟨hchunk, hrest⟩ := List.forall_mem_cons.mp hchunks
      obtain ⟨output, middle, rest, last, hfirst, hsecond, hboth⟩ :=
        exists_apply_append hchunk (takes_flatten hrest)
      obtain ⟨outputs, end', heach, hlengths, hwhole⟩ :=
        ih fun other hmem => (takes_apply hfirst other).mpr (hrest other hmem)
      rw [hsecond] at hwhole
      obtain ⟨houtputs, rfl⟩ := Prod.mk.inj hwhole
      obtain rfl := Except.ok.inj houtputs
      have hlength : output.length = chunk.length := length_apply (congrArg Prod.fst hfirst)
      refine ⟨output :: outputs, last, ?_, ?_, hboth⟩
      · rw [applyEach, hfirst]
        dsimp only
        rw [heach, List.map_cons]
      · rw [List.map_cons, List.map_cons, hlength, hlengths]

/-- Partners undo each other whichever way each of them is given the octets. -/
theorem Partners.undo_chunks {encipherer decipherer : Engine}
    (hpartners : encipherer.Partners decipherer) {chunks : List Bytes}
    (hchunks : ∀ chunk ∈ chunks, encipherer.Takes chunk) :
    ∃ outputs : List Bytes, encipherer.applyEach chunks = outputs.map .ok ∧
      outputs.map List.length = chunks.map List.length ∧
      ∀ pieces : List Bytes, pieces.flatten = outputs.flatten →
        (∀ piece ∈ pieces, decipherer.Takes piece) →
        ∃ restored : List Bytes, decipherer.applyEach pieces = restored.map .ok ∧
          restored.map List.length = pieces.map List.length ∧
          restored.flatten = chunks.flatten := by
  obtain ⟨outputs, last, heach, hlengths, hwhole⟩ := exists_applyEach hchunks
  refine ⟨outputs, heach, hlengths, fun pieces hpieces htakes => ?_⟩
  obtain ⟨enciphered, encipherer', decipherer', hencipher, hdecipher, -⟩ :=
    hpartners.undo (takes_flatten hchunks)
  obtain ⟨rfl, -⟩ : outputs.flatten = enciphered ∧ last = encipherer' := by
    rw [hwhole] at hencipher
    obtain ⟨houtputs, hlast⟩ := Prod.mk.inj hencipher
    exact ⟨Except.ok.inj houtputs, hlast⟩
  obtain ⟨restored, last', heach', hlengths', hwhole'⟩ := exists_applyEach htakes
  rw [hpieces, hdecipher] at hwhole'
  exact ⟨restored, heach', hlengths', (Except.ok.inj (congrArg Prod.fst hwhole')).symm⟩

end Engine

namespace CipherAlgorithm

/-- The chunks that a cipher may be given: any octets in counter mode, whole blocks otherwise. -/
def Admits (algorithm : CipherAlgorithm) (chunk : Bytes) : Prop :=
  match algorithm with
  | aes128Ctr | aes192Ctr | aes256Ctr => True
  | aes128Cbc | aes256Cbc => algorithm.blockSize ∣ chunk.length

theorem takes_start {algorithm : CipherAlgorithm} {direction : Direction} {key iv chunk : Bytes} :
    (algorithm.start direction key iv).Takes chunk ↔ algorithm.Admits chunk := by
  cases algorithm <;> exact Iff.rfl

theorem engine_eq {algorithm : CipherAlgorithm} {key iv : Bytes}
    (hkey : algorithm.keySize ≤ key.length) (hiv : algorithm.ivSize ≤ iv.length)
    (direction : Direction) : algorithm.engine direction key iv =
      .ok (algorithm.start direction (key.take algorithm.keySize)
        (iv.take algorithm.ivSize)) := by
  rw [engine, if_neg (Nat.not_lt.mpr hkey), if_neg (Nat.not_lt.mpr hiv)]

end CipherAlgorithm

/-- Under every cipher with enough key material, a string that is enciphered in chunks is
restored when the octets that result are deciphered in any chunks, and nothing fails. -/
theorem engines_restore {algorithm : CipherAlgorithm} {key iv : Bytes}
    (hkey : algorithm.keySize ≤ key.length) (hiv : algorithm.ivSize ≤ iv.length)
    {chunks : List Bytes} (hchunks : ∀ chunk ∈ chunks, algorithm.Admits chunk) :
    ∃ (encipherer decipherer : Engine) (outputs : List Bytes),
      algorithm.engine .outbound key iv = .ok encipherer ∧
      algorithm.engine .inbound key iv = .ok decipherer ∧
      encipherer.applyEach chunks = outputs.map .ok ∧
      outputs.map List.length = chunks.map List.length ∧
      ∀ pieces : List Bytes, pieces.flatten = outputs.flatten →
        (∀ piece ∈ pieces, algorithm.Admits piece) →
        ∃ restored : List Bytes, decipherer.applyEach pieces = restored.map .ok ∧
          restored.map List.length = pieces.map List.length ∧
          restored.flatten = chunks.flatten := by
  have hencipherer := CipherAlgorithm.engine_eq hkey hiv .outbound
  have hdecipherer := CipherAlgorithm.engine_eq hkey hiv .inbound
  obtain ⟨outputs, heach, hlengths, hrestores⟩ :=
    (partners_of_engine hencipherer hdecipherer).undo_chunks fun chunk hmem =>
      CipherAlgorithm.takes_start.mpr (hchunks chunk hmem)
  refine ⟨_, _, outputs, hencipherer, hdecipherer, heach, hlengths, fun pieces hpieces htakes => ?_⟩
  exact hrestores pieces hpieces fun piece hmem =>
    CipherAlgorithm.takes_start.mpr (htakes piece hmem)

def surplusKey : Bytes := List.replicate 40 1

/-- The last two blocks are enciphered together and deciphered apart. -/
theorem engines_restore_chained :
    ∃ (encipherer decipherer : Engine) (outputs restored : List Bytes),
      CipherAlgorithm.aes256Cbc.engine .outbound surplusKey (List.replicate 16 2) =
        .ok encipherer ∧
      CipherAlgorithm.aes256Cbc.engine .inbound surplusKey (List.replicate 16 2) =
        .ok decipherer ∧
      encipherer.applyEach [List.replicate 16 3, [], List.replicate 32 4] =
        outputs.map .ok ∧
      decipherer.applyEach [outputs.flatten.take 32, outputs.flatten.drop 32] =
        restored.map .ok ∧
      restored.flatten = List.replicate 16 3 ++ List.replicate 32 4 := by
  have hkey : CipherAlgorithm.aes256Cbc.keySize ≤ surplusKey.length := by decide
  have hiv : CipherAlgorithm.aes256Cbc.ivSize ≤ (List.replicate 16 2 : Bytes).length := by decide
  have hchunks : ∀ chunk ∈ [List.replicate 16 3, [], List.replicate 32 4],
      CipherAlgorithm.aes256Cbc.Admits chunk := by
    simp [CipherAlgorithm.Admits, CipherAlgorithm.blockSize]
  obtain ⟨encipherer, decipherer, outputs, hencipherer, hdecipherer, heach, hlengths,
    hrestores⟩ := engines_restore hkey hiv hchunks
  have hlength : outputs.flatten.length = 48 := by
    rw [List.length_flatten, hlengths]
    rfl
  obtain ⟨restored, hback, -, hrestored⟩ := hrestores
    [outputs.flatten.take 32, outputs.flatten.drop 32] (by simp) (by
      simp [CipherAlgorithm.Admits, CipherAlgorithm.blockSize, hlength])
  exact ⟨encipherer, decipherer, outputs, restored, hencipherer, hdecipherer, heach, hback,
    hrestored⟩

end PacketLayer.Crypto
