/-! Reading bytes bit by bit, the lowest bit of each byte first. -/

namespace MapLoader.Flate

structure Bits where
  bytes : ByteArray
  position : Nat := 0

namespace Bits

def left (b : Bits) : Nat := 8 * b.bytes.size - b.position

def bit? (b : Bits) : Option (Nat × { c : Bits // c.left < b.left }) :=
  if h : b.position < 8 * b.bytes.size then
    let byte := b.bytes[b.position / 8].toNat
    some (byte >>> (b.position % 8) % 2,
      ⟨{ b with position := b.position + 1 }, by simp only [left]; omega⟩)
  else none

/-- What is left when nothing was read. -/
def same (b : Bits) : { c : Bits // c.left ≤ b.left } := ⟨b, Nat.le_refl _⟩

def number? : (n : Nat) → (b : Bits) → Option (Nat × { c : Bits // c.left ≤ b.left })
  | 0, b => some (0, b.same)
  | n + 1, b =>
    match b.bit? with
    | none => none
    | some (low, ⟨c, hc⟩) =>
      match number? n c with
      | none => none
      | some (high, ⟨d, hd⟩) => some (low + 2 * high, ⟨d, by omega⟩)

def align (b : Bits) : Bits := { b with position := (b.position + 7) / 8 * 8 }

def takeBytes? (n : Nat) (b : Bits) : Option (ByteArray × Bits) :=
  let start := b.position / 8
  if start + n ≤ b.bytes.size then
    some (b.bytes.extract start (start + n), { b with position := b.position + 8 * n })
  else none

end Bits

end MapLoader.Flate
