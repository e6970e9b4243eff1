import MachinePool.Machine

/-!
Drawing one of several equally good machines by random words.

An index below `n` is the whole part of `n · w / 2³²` for a random word `w`.
Where the fraction is so large that further random digits could carry into the
whole part, one more word is drawn and the carry added; so the index is that of
a fraction of sixty-four random bits.
-/

namespace MachinePool.Placement

/-- Random words, in the order in which they are drawn. After the given words all are zero. -/
structure RandomWords where
  pending : List UInt32
  /-- The number of words drawn so far. -/
  drawn : Nat := 0
  deriving DecidableEq, Repr

def RandomWords.next (words : RandomWords) : UInt32 × RandomWords :=
  match words.pending with
  | [] => (0, { words with drawn := words.drawn + 1 })
  | w :: rest => (w, ⟨rest, words.drawn + 1⟩)

/-- Draws an index below `n`, for `n` between one and 2³². -/
def drawIndex (n : Nat) (words : RandomWords) : Nat × RandomWords :=
  let (w, words) := words.next
  let whole := w.toNat * n / UInt32.size
  let fraction := w.toNat * n % UInt32.size
  if UInt32.size - n < fraction then
    let (v, words) := words.next
    (if UInt32.size ≤ fraction + v.toNat * n / UInt32.size then whole + 1 else whole, words)
  else (whole, words)

/-- Draws one of the machines; no word is drawn when there are none. -/
def draw (machines : List Machine) (words : RandomWords) : Option Machine × RandomWords :=
  match machines with
  | [] => (none, words)
  | _ =>
    let (index, words) := drawIndex machines.length words
    (machines[index]?, words)

end MachinePool.Placement
