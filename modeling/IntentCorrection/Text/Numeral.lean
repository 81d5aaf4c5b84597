import IntentCorrection.Text.Blank

namespace IntentCorrection.Text

def natural? (bound : Nat) (cs : List Char) : Option Nat :=
  let ds := if cs.head? = some '+' then cs.tail else cs
  if ds.isEmpty || !ds.all Char.isDigit then none
  else
    let n := ds.foldl (fun n c ↦ 10 * n + (c.toNat - '0'.toNat)) 0
    if n < bound then some n else none

end IntentCorrection.Text
