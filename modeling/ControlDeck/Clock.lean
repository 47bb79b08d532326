namespace ControlDeck.Clock

variable {σ ε : Type}

/-- Lets time go on by some milliseconds, one after the other. -/
def advance (tick : Nat → σ → σ × List ε) : Nat → Nat → σ → σ × List (Nat × ε)
  | 0, _, s => (s, [])
  | ms + 1, now, s =>
    let (s, out) := tick (now + 1) s
    let (s, more) := advance tick ms (now + 1) s
    (s, out.map ((now + 1, ·)) ++ more)

end ControlDeck.Clock
