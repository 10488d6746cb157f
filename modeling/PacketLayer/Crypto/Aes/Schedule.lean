import PacketLayer.Crypto.Aes.Block

/-!
# The block cipher

A key is expanded into round keys. Enciphering a block applies the rounds from
the first to the last; deciphering applies the inverse rounds from the last to
the first.
-/

namespace PacketLayer.Crypto.Aes

/-- The round keys of a key: the one added before the first round, those of the
rounds that mix columns, and that of the last round, which does not. -/
structure Schedule where
  first : Block
  middle : List Block
  last : Block
  deriving DecidableEq, Repr

/-- The round constant of each turn through the key. -/
def roundConstant : Nat → UInt8
  | 0 => 0
  | 1 => 1
  | turn + 2 => double (roundConstant (turn + 1))

/-- The column that follows a prefix of the expanded key. -/
def nextColumn (keyColumns : Nat) (columns : Array Column) : Column :=
  let place := columns.size
  let previous := columns.getD (place - 1) default
  let changed :=
    if place % keyColumns = 0 then
      (previous.rotate.map substitute).xor ⟨roundConstant (place / keyColumns), 0, 0, 0⟩
    else if 6 < keyColumns ∧ place % keyColumns = 4 then previous.map substitute
    else previous
  (columns.getD (place - keyColumns) default).xor changed

/-- Appends `count` columns to a prefix of the expanded key. -/
def extend (keyColumns : Nat) : Nat → Array Column → Array Column
  | 0, columns => columns
  | count + 1, columns =>
      extend keyColumns count (columns.push (nextColumn keyColumns columns))

/-- The round key made of the four columns at four times `round`. -/
def roundKey (columns : Array Column) (round : Nat) : Block :=
  ⟨columns.getD (4 * round) default, columns.getD (4 * round + 1) default,
    columns.getD (4 * round + 2) default, columns.getD (4 * round + 3) default⟩

/-- Expands a key of 16, 24 or 32 octets, for 10, 12 or 14 rounds. -/
def Schedule.ofKey (key : Bytes) : Schedule :=
  let keyColumns := key.length / 4
  let rounds := keyColumns + 6
  let start := (Bytes.pieces 4 keyColumns key).map Column.ofBytes
  let columns := extend keyColumns (4 * (rounds + 1) - keyColumns) start.toArray
  { first := roundKey columns 0
    middle := (List.range (rounds - 1)).map fun round => roundKey columns (round + 1)
    last := roundKey columns rounds }

/-- One round that mixes columns. -/
def encipherRound (state key : Block) : Block :=
  (state.substitute.shiftRows.map Column.mix).xor key

/-- The inverse of a round that mixes columns. -/
def decipherRound (key state : Block) : Block :=
  ((state.xor key).map Column.unmix).unshiftRows.unsubstitute

namespace Schedule

/-- Enciphers one block. -/
def encipher (keys : Schedule) (block : Block) : Block :=
  (keys.middle.foldl encipherRound (block.xor keys.first)).substitute.shiftRows.xor keys.last

/-- Deciphers one block. -/
def decipher (keys : Schedule) (block : Block) : Block :=
  (keys.middle.foldr decipherRound (block.xor keys.last).unshiftRows.unsubstitute).xor keys.first

end Schedule

end PacketLayer.Crypto.Aes
