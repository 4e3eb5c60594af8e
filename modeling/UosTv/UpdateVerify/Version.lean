import UosTv.Rust.Numbers

/-!
The order of versions in `update-verify`.

A version is read as the numbers between its dots; what is not a `u32` is skipped. Two
versions are compared number by number, with zeros where one has ended; if one of them has
no numbers at all nothing is a downgrade.
-/

namespace UpdateVerify

open Rust

/-- The closure `parse` of `is_downgrade`. -/
def parse (version : String) : List Nat := (split version '.').filterMap parseU32

/-- The loop of `is_downgrade` over the positions that are left. -/
def isDowngradeAt (current newer : List Nat) : List Nat → Bool
  | [] => false
  | i :: is =>
    let cv := current[i]?.getD 0
    let nv := newer[i]?.getD 0
    if nv < cv then true else if cv < nv then false else isDowngradeAt current newer is

/-- `is_downgrade`. -/
def isDowngrade (current newer : String) : Bool :=
  let c := parse current
  let n := parse newer
  if c = [] ∨ n = [] then false else isDowngradeAt c n (List.range (max c.length n.length))

example : isDowngrade "1.1.0" "0.9.0" = true := by decide

end UpdateVerify
