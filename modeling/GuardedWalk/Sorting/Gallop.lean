/-!
# Galloping searches

The elements at the beginning of a sequence that have a property are counted without looking at all
of them. The search starts at a hint, moves away from it in strides that double, and halves what is
left between the last two places it has looked at. Looking at an element may have an effect, so the
places that are looked at, and their order, are part of the result.

## Main definitions

* `GuardedWalk.Sorting.halve` — the search between two places.
* `GuardedWalk.Sorting.stride` — the strides away from a place.
* `GuardedWalk.Sorting.gallop` — the search from a hint.

## Main results

* `GuardedWalk.Sorting.halve_pure` — a property that holds up to a place is searched for up to it.
-/

set_option autoImplicit false

namespace GuardedWalk.Sorting

variable {m : Type → Type} [Monad m] {α : Type}

/-- How many elements have a property, if those before the place `low` do and those from the place
`high` on do not; at most `fuel` elements are looked at. -/
def halve (has : α → m Bool) (xs : Array α) : Nat → Nat → Nat → m Nat
  | 0, low, _ => return low
  | fuel + 1, low, high =>
    if low < high then
      let middle := low + (high - low) / 2
      match xs[middle]? with
      | none => return low
      | some x => do
        if ← has x then halve has xs fuel (middle + 1) high else halve has xs fuel low middle
    else return low

/-- Looks at elements at distances that double, as long as the answer is `going` and the distance is
below `most`; says the last distance with that answer and the one at which the search stops. -/
def stride (has : α → m Bool) (going : Bool) (at? : Nat → Option α) (most : Nat) :
    Nat → Nat → Nat → m (Nat × Nat)
  | 0, last, distance => return (last, min distance most)
  | fuel + 1, last, distance =>
    if distance < most then
      match at? distance with
      | none => return (last, distance)
      | some x => do
        if (← has x) = going then
          stride has going at? most fuel distance (2 * distance + 1)
        else return (last, distance)
    else return (last, most)

/-- How many elements at the beginning have a property, searched for from the place `hint`. -/
def gallop (has : α → m Bool) (xs : Array α) (hint : Nat) : m Nat :=
  match xs[hint]? with
  | none => return 0
  | some x => do
    if ← has x then
      let (last, stop) ←
        stride has true (fun d => xs[hint + d]?) (xs.size - hint) xs.size 0 1
      halve has xs xs.size (hint + last + 1) (hint + stop)
    else
      let (last, stop) ← stride has false (fun d => xs[hint - d]?) (hint + 1) xs.size 0 1
      halve has xs xs.size (hint + 1 - stop) (hint - last)

/-- A property that holds of the elements before a place between `low` and `high`, and of no other
ones there, is found to hold up to that place. -/
theorem halve_pure {has : α → Bool} {xs : Array α} {place : Nat}
    (hp : ∀ i (h : i < xs.size), has xs[i] = decide (i < place)) {fuel low high : Nat}
    (hl : low ≤ place) (hh : place ≤ high) (hs : high ≤ xs.size) (hf : high - low ≤ fuel) :
    halve (m := Id) (fun x => pure (has x)) xs fuel low high = pure place := by
  induction fuel generalizing low high with
  | zero =>
    have : low = place := by omega
    simp [halve, this]
  | succ fuel ih =>
    by_cases hlt : low < high
    · have hm : low + (high - low) / 2 < xs.size := by omega
      simp only [halve, hlt, if_true, Array.getElem?_eq_getElem hm]
      by_cases h : low + (high - low) / 2 < place
      · have ht : has xs[low + (high - low) / 2] = true := by simp [hp _ hm, h]
        simp only [ht, pure_bind, if_true]
        exact ih (by omega) hh hs (by omega)
      · have ht : has xs[low + (high - low) / 2] = false := by simp [hp _ hm, h]
        simp only [ht, pure_bind]
        exact ih hl (by omega) (by omega) (by omega)
    · have : low = place := by omega
      simp [halve, this ▸ hlt, this]

end GuardedWalk.Sorting
