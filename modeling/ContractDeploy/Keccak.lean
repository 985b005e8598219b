import ContractDeploy.Bytes

/-!
# Keccak-256

The hash that names code and transactions: the sponge over the 1600-bit Keccak permutation with a
rate of 136 bytes and the padding byte `0x01`. The state is 25 lanes of 64 bits, lane
`x + 5 * y` holding column `x` of row `y`, and every step of a round is written as the lane that
it leaves at each index.
-/

namespace ContractDeploy

namespace Keccak

/-- The 25 lanes of the sponge. -/
abbrev State := Vector UInt64 25

/-- A rotation of a lane towards its most significant bit. -/
def rotate (lane : UInt64) (amount : Nat) : UInt64 :=
  (lane <<< UInt64.ofNat amount) ||| (lane >>> UInt64.ofNat (64 - amount))

/-- How far each lane is rotated in a round. -/
def offsets : Vector Nat 25 :=
  #v[0, 1, 62, 28, 27, 36, 44, 6, 55, 20, 3, 10, 43, 25, 39, 41, 45, 15, 21, 8, 18, 2, 61, 56, 14]

/-- The constant that each of the 24 rounds adds to the first lane. -/
def roundConstants : List UInt64 :=
  [0x0000000000000001, 0x0000000000008082, 0x800000000000808A, 0x8000000080008000,
   0x000000000000808B, 0x0000000080000001, 0x8000000080008081, 0x8000000000008009,
   0x000000000000008A, 0x0000000000000088, 0x0000000080008009, 0x000000008000000A,
   0x000000008000808B, 0x800000000000008B, 0x8000000000008089, 0x8000000000008003,
   0x8000000000008002, 0x8000000000000080, 0x000000000000800A, 0x800000008000000A,
   0x8000000080008081, 0x8000000000008080, 0x0000000080000001, 0x8000000080008008]

/-- Lane `x` of row `y`, both taken modulo five. -/
def lane (state : State) (x y : Nat) : UInt64 :=
  state[x % 5 + 5 * (y % 5)]

/-- The parity of each column. -/
def parities (state : State) : Vector UInt64 5 :=
  Vector.ofFn fun x =>
    lane state x 0 ^^^ lane state x 1 ^^^ lane state x 2 ^^^ lane state x 3 ^^^ lane state x 4

/-- Adds to each lane the parities of two neighbouring columns. -/
def diffuse (state : State) : State :=
  let p := parities state
  let d : Vector UInt64 5 :=
    Vector.ofFn fun x => p[(x.val + 4) % 5] ^^^ rotate p[(x.val + 1) % 5] 1
  Vector.ofFn fun i => state[i] ^^^ d[i.val % 5]

/-- Rotates every lane by its offset and moves it to its new place. -/
def scatter (state : State) : State :=
  Vector.ofFn fun i =>
    let y := i.val % 5
    let x := (y + 3 * (i.val / 5)) % 5
    rotate state[x + 5 * y] (offsets[x + 5 * y])

/-- Mixes the lanes of each row, the only step that is not linear. -/
def mixRows (state : State) : State :=
  Vector.ofFn fun i =>
    let x := i.val % 5
    let y := i.val / 5
    lane state x y ^^^ (~~~ lane state (x + 1) y &&& lane state (x + 2) y)

/-- One round of the permutation. -/
def round (state : State) (constant : UInt64) : State :=
  let mixed := mixRows (scatter (diffuse state))
  mixed.set 0 (mixed[0] ^^^ constant)

/-- The permutation: all rounds in turn. -/
def permute (state : State) : State := roundConstants.foldl round state

/-- The bytes that one block takes in. -/
def rate : Nat := 136

/-- A lane from eight bytes, least significant first; missing bytes read as zero. -/
def laneOfBytes (bytes : Bytes) : UInt64 :=
  (bytes.take 8).foldr (fun b acc => acc * 256 + b.toUInt64) 0

/-- The eight bytes of a lane, least significant first. -/
def bytesOfLane (lane : UInt64) : Bytes :=
  [lane.toUInt8, (lane >>> 8).toUInt8, (lane >>> 16).toUInt8, (lane >>> 24).toUInt8,
   (lane >>> 32).toUInt8, (lane >>> 40).toUInt8, (lane >>> 48).toUInt8, (lane >>> 56).toUInt8]

/-- Adds one block to the state and permutes it. -/
def absorbBlock (state : State) (block : Bytes) : State :=
  permute (Vector.ofFn fun i =>
    if i.val < rate / 8 then state[i] ^^^ laneOfBytes (block.drop (8 * i.val)) else state[i])

/-- The last block: what is left of the message, a one bit, zeros, and a one bit at the end. -/
def padded (rest : Bytes) : Bytes :=
  if rest.length + 1 = rate then rest ++ [0x81]
  else rest ++ [0x01] ++ Bytes.zeros (rate - 2 - rest.length) ++ [0x80]

/-- Takes in a message block by block. -/
def absorb (state : State) (message : Bytes) : State :=
  if rate ≤ message.length then absorb (absorbBlock state (message.take rate)) (message.drop rate)
  else absorbBlock state (padded message)
termination_by message.length
decreasing_by
  have : 0 < rate := by decide
  simp only [List.length_drop]
  omega

/-- The first four lanes as bytes. -/
def squeeze (state : State) : Hash where
  bytes := bytesOfLane state[0] ++ bytesOfLane state[1] ++ bytesOfLane state[2] ++
    bytesOfLane state[3]
  length_bytes := rfl

end Keccak

/-- The Keccak-256 hash of a byte string. -/
def keccak256 (message : Bytes) : Hash :=
  Keccak.squeeze (Keccak.absorb (Vector.replicate 25 0) message)

end ContractDeploy
