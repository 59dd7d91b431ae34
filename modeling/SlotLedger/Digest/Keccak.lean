import SlotLedger.Bytes

/-!
# Keccak-256

The sponge of width 1600 with rate 1088.  The padding has no domain suffix: a one bit, zeros, and a
one bit at the end of the block.  Storage cells of mappings are addressed by this digest.

The state is a square of five rows of five 64-bit lanes; the lane in row `y`, column `x` comes at
position `5 * y + x` of a block.  Each step of a round is written on whole rows.
-/

namespace SlotLedger.Keccak

/-- Five lanes with the same `y` coordinate. -/
structure Row where
  x0 : UInt64
  x1 : UInt64
  x2 : UInt64
  x3 : UInt64
  x4 : UInt64
deriving DecidableEq

/-- The permutation's state: five rows. -/
structure State where
  y0 : Row
  y1 : Row
  y2 : Row
  y3 : Row
  y4 : Row
deriving DecidableEq

/-- A lane turned left by `n` bits, `0 < n < 64`. -/
@[inline] def turn (lane : UInt64) (n : UInt64) : UInt64 :=
  (lane <<< n) ||| (lane >>> (64 - n))

/-- Lane-wise exclusive or of two rows. -/
@[inline] def Row.xor (a b : Row) : Row :=
  ⟨a.x0 ^^^ b.x0, a.x1 ^^^ b.x1, a.x2 ^^^ b.x2, a.x3 ^^^ b.x3, a.x4 ^^^ b.x4⟩

/-- The row of zero lanes. -/
def Row.zero : Row := ⟨0, 0, 0, 0, 0⟩

/-- The state of zero lanes. -/
def State.zero : State := ⟨.zero, .zero, .zero, .zero, .zero⟩

/-- θ: every lane takes up the parities of the column before it and of the column after it, the
latter turned by one bit. -/
def theta (s : State) : State :=
  let parity := ((((s.y0.xor s.y1).xor s.y2).xor s.y3).xor s.y4)
  let effect : Row :=
    ⟨parity.x4 ^^^ turn parity.x1 1, parity.x0 ^^^ turn parity.x2 1,
      parity.x1 ^^^ turn parity.x3 1, parity.x2 ^^^ turn parity.x4 1,
      parity.x3 ^^^ turn parity.x0 1⟩
  ⟨s.y0.xor effect, s.y1.xor effect, s.y2.xor effect, s.y3.xor effect, s.y4.xor effect⟩

/-- ρ and π: every lane is turned by its own offset and moved along a diagonal. -/
def scatter (s : State) : State :=
  { y0 := ⟨s.y0.x0, turn s.y1.x1 44, turn s.y2.x2 43, turn s.y3.x3 21, turn s.y4.x4 14⟩
    y1 := ⟨turn s.y0.x3 28, turn s.y1.x4 20, turn s.y2.x0 3, turn s.y3.x1 45, turn s.y4.x2 61⟩
    y2 := ⟨turn s.y0.x1 1, turn s.y1.x2 6, turn s.y2.x3 25, turn s.y3.x4 8, turn s.y4.x0 18⟩
    y3 := ⟨turn s.y0.x4 27, turn s.y1.x0 36, turn s.y2.x1 10, turn s.y3.x2 15, turn s.y4.x3 56⟩
    y4 := ⟨turn s.y0.x2 62, turn s.y1.x3 55, turn s.y2.x4 39, turn s.y3.x0 41, turn s.y4.x1 2⟩ }

/-- χ on one row: a lane changes where its right neighbour is clear and the next one is set. -/
@[inline] def Row.mix (r : Row) : Row :=
  ⟨r.x0 ^^^ (~~~r.x1 &&& r.x2), r.x1 ^^^ (~~~r.x2 &&& r.x3), r.x2 ^^^ (~~~r.x3 &&& r.x4),
    r.x3 ^^^ (~~~r.x4 &&& r.x0), r.x4 ^^^ (~~~r.x0 &&& r.x1)⟩

/-- One round: θ, ρ, π, χ, and ι with the round's constant on the first lane. -/
def round (s : State) (constant : UInt64) : State :=
  let t := scatter (theta s)
  let first := t.y0.mix
  ⟨{ first with x0 := first.x0 ^^^ constant }, t.y1.mix, t.y2.mix, t.y3.mix, t.y4.mix⟩

/-- The constants of the twenty-four rounds. -/
def constants : List UInt64 :=
  [0x0000000000000001, 0x0000000000008082, 0x800000000000808a, 0x8000000080008000,
    0x000000000000808b, 0x0000000080000001, 0x8000000080008081, 0x8000000000008009,
    0x000000000000008a, 0x0000000000000088, 0x0000000080008009, 0x000000008000000a,
    0x000000008000808b, 0x800000000000008b, 0x8000000000008089, 0x8000000000008003,
    0x8000000000008002, 0x8000000000000080, 0x000000000000800a, 0x800000008000000a,
    0x8000000080008081, 0x8000000000008080, 0x0000000080000001, 0x8000000080008008]

/-- The permutation: all rounds in order. -/
def permute (s : State) : State := constants.foldl round s

/-- Octets absorbed per permutation. -/
def rate : Nat := 136

/-- The lane at position `i` of a block, its eight octets lowest first. -/
def lane (block : Bytes) (i : Nat) : UInt64 :=
  UInt64.ofNat (Bytes.ofLittleEndian ((block.drop (8 * i)).take 8))

/-- The row at position `y` of a block of seventeen lanes; missing lanes are zero. -/
def row (block : Bytes) (y : Nat) : Row :=
  ⟨lane block (5 * y), lane block (5 * y + 1), lane block (5 * y + 2), lane block (5 * y + 3),
    lane block (5 * y + 4)⟩

/-- Mix a block into the state and permute. -/
def absorb (s : State) (block : Bytes) : State :=
  permute
    { y0 := s.y0.xor (row block 0)
      y1 := s.y1.xor (row block 1)
      y2 := s.y2.xor (row block 2)
      y3 := s.y3.xor (row block 3)
      y4 := s.y4 }

/-- The last block of a message whose remaining octets are given: a `01` octet after them and the
top bit of the block's last octet set. -/
def lastBlock (rest : Bytes) : Bytes :=
  if rest.length = rate - 1 then
    rest ++ [0x81]
  else
    rest ++ [0x01] ++ List.replicate (rate - 2 - rest.length) 0x00 ++ [0x80]

/-- Absorb a message: `blocks` whole blocks first, then the padded last one. -/
def absorbAll : (blocks : Nat) → State → Bytes → State
  | 0, s, rest => absorb s (lastBlock rest)
  | blocks + 1, s, message =>
    absorbAll blocks (absorb s (message.take rate)) (message.drop rate)

/-- The Keccak-256 digest of a message: thirty-two octets. -/
def digest (message : Bytes) : Bytes :=
  let s := absorbAll (message.length / rate) .zero message
  [s.y0.x0, s.y0.x1, s.y0.x2, s.y0.x3].flatMap fun l => Bytes.littleEndian 8 l.toNat

@[simp] theorem length_digest (message : Bytes) : (digest message).length = 32 := by
  simp [digest]

end SlotLedger.Keccak
