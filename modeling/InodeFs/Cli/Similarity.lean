/-!
Jaro and Jaro-Winkler similarities, in double precision and in the order of operations that fixes
their value, used to suggest the switch a mistyped one meant.
-/

namespace InodeFs

namespace Cli

/-- One pass of the Jaro matching: the first unconsumed equal character within the window. -/
def matchChar (b : List Char) (consumed : List Bool) (c : Char) (lo hi : Nat) :
    List Bool × Option Nat :=
  let rec go (j : Nat) (bs : List Char) (cs : List Bool) : List Bool × Option Nat :=
    match bs, cs with
    | x :: bs', used :: cs' =>
      if lo ≤ j && j ≤ hi && x == c && !used then (true :: cs', some j)
      else
        let (rest, found) := go (j + 1) bs' cs'
        (used :: rest, found)
    | _, cs => (cs, none)
  go 0 b consumed

/-- The Jaro similarity of two strings. -/
def jaro (a b : String) : Float :=
  if a == b then 1.0
  else
    let xs := a.toList
    let bs := b.toList
    let aLen := xs.length
    let bLen := bs.length
    if aLen == 0 || bLen == 0 || (aLen == 1 && bLen == 1) then 0.0
    else
      let range := max aLen bLen / 2 - 1
      let step := fun (acc : List Bool × Float × Float × Nat × Nat) (c : Char) =>
        let (consumed, hits, transpositions, lastIndex, i) := acc
        let lo := if i > range then i - range else 0
        let hi := min (bLen - 1) (i + range)
        match matchChar bs consumed c lo hi with
        | (consumed, some j) =>
          (consumed, hits + 1, (if j < lastIndex then transpositions + 1 else transpositions),
            j, i + 1)
        | (consumed, none) => (consumed, hits, transpositions, lastIndex, i + 1)
      let (_, m, t, _, _) := xs.foldl step (List.replicate bLen false, 0.0, 0.0, 0, 0)
      if m == 0.0 then 0.0
      else (1.0 / 3.0) * ((m / aLen.toFloat) + (m / bLen.toFloat) + ((m - t) / m))

/-- The length of the common prefix of two lists. -/
def commonPrefix : List Char → List Char → Nat
  | x :: xs, y :: ys => if x == y then commonPrefix xs ys + 1 else 0
  | _, _ => 0

/-- The Jaro similarity raised by a tenth of the rest per character of common prefix. -/
def jaroWinkler (a b : String) : Float :=
  let j := jaro a b
  let p := commonPrefix a.toList b.toList
  let w := j + (0.1 * p.toFloat * (1.0 - j))
  if w ≤ 1.0 then w else 1.0

/-- The candidate most similar to `word` above 0.8, the first of equals winning. -/
def closest (word : String) (candidates : List String) : Option String :=
  let best := candidates.foldl (fun (acc : Option (Float × String)) c =>
    let score := jaroWinkler word c
    if score > 0.8 then
      match acc with
      | none => some (score, c)
      | some (s, _) => if s < score then some (score, c) else acc
    else acc) none
  best.map (·.2)

end Cli

end InodeFs
