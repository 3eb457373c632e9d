import Mathlib

/-!
# Round robin

A ring of parties, each with the number of ticks its slice has left. The head of the ring has the
turn. At a tick with nothing left it goes to the end with a fresh slice, so a slice of `n` makes a
turn of `n + 1` ticks.

- `tick`: one tick; `turn`: a whole turn.
- `entry`: who has a turn, and with which slice.
- `tick_turnStart_add`: the ring after any number of ticks.
-/

namespace OsKernel.Lib.RoundRobin

variable {α : Type*}

/-- One tick. -/
def tick (quantum : α → Nat) : List (α × Nat) → List (α × Nat)
  | [] => []
  | (t, 0) :: rest => rest ++ [(t, quantum t)]
  | (t, left + 1) :: rest => (t, left) :: rest

/-- All ticks of a turn. -/
def turn (quantum : α → Nat) : List (α × Nat) → List (α × Nat)
  | [] => []
  | (t, _) :: rest => rest ++ [(t, quantum t)]

/-- The party of turn `j` and the slice it has then: the one it came with in the first round, a
fresh one in every later round. -/
def entry (quantum : α → Nat) (ring : List (α × Nat)) (j : Nat) : Option (α × Nat) :=
  if j < ring.length then ring[j]?
  else ring[j % ring.length]?.map fun e => (e.1, quantum e.1)

/-- How many ticks turn `j` takes. -/
def turnLength (quantum : α → Nat) (ring : List (α × Nat)) (j : Nat) : Nat :=
  match entry quantum ring j with
  | none => 0
  | some e => e.2 + 1

/-- How many ticks the turns before turn `j` take. -/
def turnStart (quantum : α → Nat) (ring : List (α × Nat)) : Nat → Nat
  | 0 => 0
  | j + 1 => turnStart quantum ring j + turnLength quantum ring j

/-- The ring with `i` ticks of the head's slice used up. -/
def used (i : Nat) : List (α × Nat) → List (α × Nat)
  | [] => []
  | (t, left) :: rest => (t, left - i) :: rest

variable (quantum : α → Nat) {ring : List (α × Nat)}

/-! ## One turn -/

theorem tick_used {t : α} {left i : Nat} (rest : List (α × Nat)) (hi : i ≤ left) :
    (tick quantum)^[i] ((t, left) :: rest) = (t, left - i) :: rest := by
  induction i generalizing left with
  | zero => rfl
  | succ i ih =>
    cases left with
    | zero => omega
    | succ left =>
      rw [Function.iterate_succ_apply, tick, ih (by omega), Nat.add_sub_add_right]

theorem tick_turn (t : α) (left : Nat) (rest : List (α × Nat)) :
    (tick quantum)^[left + 1] ((t, left) :: rest) = turn quantum ((t, left) :: rest) := by
  rw [Function.iterate_succ_apply', tick_used quantum rest (Nat.le_refl _), Nat.sub_self]
  rfl

@[simp] theorem length_turn (ring : List (α × Nat)) :
    (turn quantum ring).length = ring.length := by
  cases ring with
  | nil => rfl
  | cons e rest => simp [turn]

@[simp] theorem length_turns (ring : List (α × Nat)) (j : Nat) :
    ((turn quantum)^[j] ring).length = ring.length := by
  induction j with
  | zero => rfl
  | succ j ih => rw [Function.iterate_succ_apply', length_turn, ih]

/-! ## Many turns -/

/-- A round later a party has its turn again, with a fresh slice. -/
theorem entry_add_length (ring : List (α × Nat)) (j : Nat) :
    entry quantum ring (j + ring.length) =
      (entry quantum ring j).map fun e => (e.1, quantum e.1) := by
  unfold entry
  rw [if_neg (by omega), Nat.add_mod_right]
  by_cases hj : j < ring.length
  · rw [if_pos hj, Nat.mod_eq_of_lt hj]
  · rw [if_neg hj, Option.map_map]
    rfl

theorem entry_isSome (hring : ring ≠ []) (j : Nat) : (entry quantum ring j).isSome = true := by
  have hpos : 0 < ring.length := List.length_pos_iff.mpr hring
  unfold entry
  split
  · next hj => simp [hj]
  · have hmod := Nat.mod_lt j hpos
    simp [hmod]

theorem turnLength_pos (hring : ring ≠ []) (j : Nat) : 0 < turnLength quantum ring j := by
  obtain ⟨e, he⟩ := Option.isSome_iff_exists.mp (entry_isSome quantum hring j)
  simp [turnLength, he]

/-- After `j` turns the party at position `m` is the one whose turn comes `m` turns later. -/
theorem getElem?_turns {j m : Nat} (hm : m < ring.length) :
    ((turn quantum)^[j] ring)[m]? = entry quantum ring (j + m) := by
  induction j generalizing m with
  | zero => simp [entry, hm]
  | succ j ih =>
    rw [Function.iterate_succ_apply']
    have hlen := length_turns quantum ring j
    cases hturns : (turn quantum)^[j] ring with
    | nil =>
      rw [hturns, List.length_nil] at hlen
      omega
    | cons e rest =>
      rw [hturns, List.length_cons] at hlen
      by_cases hlast : m + 1 < ring.length
      · -- everybody else moves up
        have hup := ih hlast
        rw [hturns, List.getElem?_cons_succ] at hup
        rw [turn, List.getElem?_append_left (by omega), hup]
        congr 1
        omega
      · have hm' : m = rest.length := by omega
        have hhead := ih (show 0 < ring.length by omega)
        rw [hturns, List.getElem?_cons_zero, Nat.add_zero] at hhead
        have hround : j + 1 + m = j + ring.length := by omega
        rw [turn, hm', List.getElem?_concat_length, ← hm', hround, entry_add_length, ← hhead]
        rfl

theorem tick_turnStart (ring : List (α × Nat)) (j : Nat) :
    (tick quantum)^[turnStart quantum ring j] ring = (turn quantum)^[j] ring := by
  induction j with
  | zero => rfl
  | succ j ih =>
    rw [turnStart, Nat.add_comm, Function.iterate_add_apply, ih, Function.iterate_succ_apply']
    cases hturns : (turn quantum)^[j] ring with
    | nil =>
      rw [turn]
      exact Function.iterate_fixed rfl _
    | cons e rest =>
      have hlen := length_turns quantum ring j
      rw [hturns, List.length_cons] at hlen
      have hhead := getElem?_turns quantum (j := j) (show 0 < ring.length by omega)
      rw [hturns, List.getElem?_cons_zero, Nat.add_zero] at hhead
      rw [turnLength, ← hhead]
      exact tick_turn quantum e.1 e.2 rest

/-- Inside turn `j`. -/
theorem tick_turnStart_add {j i : Nat} (hi : i < turnLength quantum ring j) :
    (tick quantum)^[turnStart quantum ring j + i] ring =
      used i ((turn quantum)^[j] ring) := by
  rw [Nat.add_comm, Function.iterate_add_apply, tick_turnStart]
  cases hturns : (turn quantum)^[j] ring with
  | nil => exact Function.iterate_fixed rfl _
  | cons e rest =>
    have hlen := length_turns quantum ring j
    rw [hturns, List.length_cons] at hlen
    have hhead := getElem?_turns quantum (j := j) (show 0 < ring.length by omega)
    rw [hturns, List.getElem?_cons_zero, Nat.add_zero] at hhead
    rw [turnLength, ← hhead] at hi
    exact tick_used quantum rest (Nat.lt_succ_iff.mp hi)

/-- Every tick falls into a turn. -/
theorem exists_turn (hring : ring ≠ []) (n : Nat) :
    ∃ j i, i < turnLength quantum ring j ∧ n = turnStart quantum ring j + i := by
  induction n with
  | zero => exact ⟨0, 0, turnLength_pos quantum hring 0, rfl⟩
  | succ n ih =>
    obtain ⟨j, i, hi, rfl⟩ := ih
    by_cases hnext : i + 1 < turnLength quantum ring j
    · exact ⟨j, i + 1, hnext, rfl⟩
    · refine ⟨j + 1, 0, turnLength_pos quantum hring (j + 1), ?_⟩
      rw [turnStart]
      omega

end OsKernel.Lib.RoundRobin
