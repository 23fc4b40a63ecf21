/-
# Writers

A writer collects bytes, up to a limit if it has one. A writer that is full takes
what still fits and fails on the rest, so what was written is always a first
part of what was offered.
-/

namespace RingTape

/-- The bytes taken so far and how many more will be taken; `none` for no limit. -/
structure Writer where
  room : Option Nat := none
  written : Array UInt8 := #[]
  deriving DecidableEq, Repr, Inhabited

namespace Writer

/-- Offer bytes to a writer. The flag says whether all of them were taken. -/
def write : Writer → List UInt8 → Writer × Bool
  | ⟨none, written⟩, bytes => (⟨none, written ++ bytes⟩, true)
  | ⟨some n, written⟩, bytes =>
    let taken := bytes.take n
    (⟨some (n - taken.length), written ++ taken⟩, bytes.length ≤ n)

end Writer

end RingTape
