import Mathlib

/-!
# Runs of free positions

Positions are numbers, some of them in use. A run is a block of consecutive positions. This module
has what an allocator of runs rests on: a scan from position 0 that counts free positions in a row
finds the first run that is long enough, and runs that were free when they were taken are disjoint.
A second resource may stand behind the positions, as frames of memory stand behind pages.

- `Scanned`: what a scan knows at a position; one lemma for each way to go on.
- `FirstFit`: the answer of a scan.
- `Owned`: runs in use that are pairwise disjoint; `Owned.take` adds one that was free.
- `freeCount`: how many positions are free.
- `Backing`: positions in use, each backed by a frame of its own.
-/

namespace OsKernel.Lib

/-! ## Runs -/

/-- The positions from `start` on, `len` of them. -/
structure Run where
  start : Nat
  len : Nat
deriving DecidableEq, Repr

namespace Run

instance : Membership Nat Run := ⟨fun r i => r.start ≤ i ∧ i < r.start + r.len⟩

theorem mem_iff {r : Run} {i : Nat} : i ∈ r ↔ r.start ≤ i ∧ i < r.start + r.len := Iff.rfl

theorem mem_one {s i : Nat} : i ∈ (⟨s, 1⟩ : Run) ↔ i = s := by
  rw [mem_iff]
  dsimp only
  omega

/-- The first position and the rest. -/
theorem mem_succ {s cnt i : Nat} : i ∈ (⟨s, cnt + 1⟩ : Run) ↔ i = s ∨ i ∈ (⟨s + 1, cnt⟩ : Run) := by
  rw [mem_iff, mem_iff]
  dsimp only
  omega

theorem first_notMem {s cnt : Nat} : s ∉ (⟨s + 1, cnt⟩ : Run) := fun h => Nat.not_succ_le_self s h.1

instance (r : Run) (i : Nat) : Decidable (i ∈ r) :=
  inferInstanceAs (Decidable (r.start ≤ i ∧ i < r.start + r.len))

/-- No position of the run is in use. -/
def Clear (used : Nat → Bool) (r : Run) : Prop := ∀ i ∈ r, used i = false

/-- Every position of the run is in use. -/
def Used (used : Nat → Bool) (r : Run) : Prop := ∀ i ∈ r, used i = true

/-- The runs have no position in common. -/
def Disjoint (r r' : Run) : Prop := ∀ i ∈ r, i ∉ r'

variable {used used' : Nat → Bool} {r r' : Run}

theorem Disjoint.symm (h : Disjoint r r') : Disjoint r' r := fun i hi hi' => h i hi' hi

/-- A run that is free and one in use are disjoint. -/
theorem Clear.disjoint (h : r.Clear used) (h' : r'.Used used) : Disjoint r r' := by
  intro i hi hi'
  have hfree := h i hi
  rw [h' i hi'] at hfree
  cases hfree

theorem Used.mono (hle : ∀ i, used i = true → used' i = true) (h : r.Used used) : r.Used used' :=
  fun i hi => hle i (h i hi)

end Run

/-! ## Scans -/

/-- The first run of `cnt` free positions below `total` starts at `s`. -/
structure FirstFit (used : Nat → Bool) (total cnt s : Nat) : Prop where
  clear : Run.Clear used ⟨s, cnt⟩
  bound : s + cnt ≤ total
  first : ∀ s', s' < s → ¬ Run.Clear used ⟨s', cnt⟩

/-- What a scan for `cnt` free positions in a row knows at `pos`, when the last `unused` positions
were free: this is all of them since the last one in use, and no run has been missed. -/
structure Scanned (used : Nat → Bool) (cnt pos unused : Nat) : Prop where
  lt : unused < cnt
  le : unused ≤ pos
  clear : Run.Clear used ⟨pos - unused, unused⟩
  missed : ∀ s, s + cnt ≤ pos → ¬ Run.Clear used ⟨s, cnt⟩
  since : ∀ s, s < pos - unused → s + cnt > pos - unused → ¬ Run.Clear used ⟨s, cnt⟩

namespace Scanned

variable {used : Nat → Bool} {cnt pos unused : Nat}

theorem start (hcnt : 0 < cnt) : Scanned used cnt 0 0 where
  lt := hcnt
  le := Nat.le_refl 0
  clear i hi := absurd hi.2 (Nat.not_lt.mpr hi.1)
  missed s hs := by omega
  since s hs := by omega

/-- The position is in use. -/
theorem occupied (h : Scanned used cnt pos unused) (hpos : used pos = true) :
    Scanned used cnt (pos + 1) 0 := by
  have hnot : ∀ s, s ≤ pos → pos < s + cnt → ¬ Run.Clear used ⟨s, cnt⟩ := by
    intro s hs hlt hclear
    have hfree := hclear pos ⟨hs, hlt⟩
    rw [hpos] at hfree
    cases hfree
  have hlt := h.lt
  refine ⟨by omega, Nat.zero_le _, fun i hi => absurd hi.2 (Nat.not_lt.mpr hi.1), ?_, ?_⟩
  · intro s hs
    by_cases hle : s + cnt ≤ pos
    · exact h.missed s hle
    · exact hnot s (by omega) (by omega)
  · intro s hs hgt
    exact hnot s (by omega) (by omega)

/-- Several positions in a row are in use. -/
theorem occupied_run (h : Scanned used cnt pos unused) {k : Nat} (hk : 0 < k)
    (hused : Run.Used used ⟨pos, k⟩) : Scanned used cnt (pos + k) 0 := by
  induction k with
  | zero => omega
  | succ k ih =>
    have hlast : used (pos + k) = true :=
      hused (pos + k) ⟨Nat.le_add_right pos k, Nat.add_lt_add_left (Nat.lt_succ_self k) pos⟩
    cases k with
    | zero => exact h.occupied hlast
    | succ k =>
      have hprev := ih (Nat.succ_pos k) fun i hi => hused i ⟨hi.1, Nat.lt_succ_of_lt hi.2⟩
      exact hprev.occupied hlast

/-- The free positions with this one. -/
private theorem extend (h : Scanned used cnt pos unused) (hpos : used pos = false) :
    Run.Clear used ⟨pos - unused, unused + 1⟩ := by
  intro i hi
  obtain ⟨hlo, hhi⟩ := Run.mem_iff.mp hi
  dsimp only at hlo hhi
  have hle := h.le
  by_cases heq : i = pos
  · rw [heq, hpos]
  · exact h.clear i ⟨hlo, show i < pos - unused + unused by omega⟩

/-- The position is free, and one more is still needed. -/
theorem vacant (h : Scanned used cnt pos unused) (hpos : used pos = false)
    (hne : unused + 1 ≠ cnt) : Scanned used cnt (pos + 1) (unused + 1) := by
  have hlt := h.lt
  have hle := h.le
  refine ⟨by omega, by omega, ?_, ?_, ?_⟩
  · rw [Nat.add_sub_add_right]
    exact h.extend hpos
  · intro s hs
    by_cases hold : s + cnt ≤ pos
    · exact h.missed s hold
    · -- such a run would be longer than the free positions before it
      exact h.since s (by omega) (by omega)
  · rw [Nat.add_sub_add_right]
    exact h.since

/-- The position is free, and it is the last one needed. -/
theorem found (h : Scanned used cnt pos unused) (hpos : used pos = false)
    (hcnt : unused + 1 = cnt) {total : Nat} (htotal : pos < total) :
    FirstFit used total cnt (pos + 1 - cnt) := by
  have hle := h.le
  have hstart : pos + 1 - cnt = pos - unused := by omega
  refine ⟨?_, by omega, ?_⟩
  · rw [hstart, ← hcnt]
    exact h.extend hpos
  · intro s hs
    by_cases hold : s + cnt ≤ pos
    · exact h.missed s hold
    · exact h.since s (by omega) (by omega)

end Scanned

/-! ## Owned runs -/

/-- The positions of `r` are in use from now on. -/
def mark (used : Nat → Bool) (r : Run) : Nat → Bool := fun i => used i || decide (i ∈ r)

theorem mark_used (used : Nat → Bool) (r : Run) : r.Used (mark used r) := by
  intro i hi
  simp [mark, hi]

theorem mark_le {used : Nat → Bool} {r : Run} {i : Nat} (h : used i = true) :
    mark used r i = true := by
  simp [mark, h]

/-- Runs in use, pairwise disjoint. -/
structure Owned (used : Nat → Bool) (rs : List Run) : Prop where
  used : ∀ r ∈ rs, r.Used used
  disjoint : rs.Pairwise Run.Disjoint

namespace Owned

variable {used used' : Nat → Bool} {rs : List Run}

theorem nil (used : Nat → Bool) : Owned used [] := ⟨nofun, .nil⟩

theorem mono (h : Owned used rs) (hle : ∀ i, used i = true → used' i = true) : Owned used' rs :=
  ⟨fun r hr => (h.used r hr).mono hle, h.disjoint⟩

/-- **Taking a free run** keeps the runs disjoint. -/
theorem take (h : Owned used rs) {r : Run} (hclear : r.Clear used) :
    Owned (mark used r) (r :: rs) where
  used r' hr' := by
    rcases List.mem_cons.mp hr' with rfl | hmem
    · exact mark_used used r'
    · exact (h.used r' hmem).mono fun _ => mark_le
  disjoint := by
    rw [List.pairwise_cons]
    exact ⟨fun r' hr' => hclear.disjoint (h.used r' hr'), h.disjoint⟩

end Owned

/-! ## Counting free positions -/

/-- The number of free positions below `total`. -/
def freeCount (used : Nat → Bool) (total : Nat) : Nat :=
  (List.range total).countP fun i => !used i

theorem freeCount_succ (used : Nat → Bool) (total : Nat) :
    freeCount used (total + 1) = freeCount used total + if used total then 0 else 1 := by
  rw [freeCount, List.range_succ, List.countP_append, List.countP_singleton, freeCount]
  cases used total <;> rfl

/-- All positions are in use. -/
theorem freeCount_eq_zero {used : Nat → Bool} {total : Nat} (h : ∀ i, i < total → used i = true) :
    freeCount used total = 0 := by
  induction total with
  | zero => rfl
  | succ total ih =>
    rw [freeCount_succ, h total (Nat.lt_succ_self total), ih fun i hi => h i (Nat.lt_succ_of_lt hi)]
    rfl

/-- All positions are free. -/
theorem freeCount_eq_total {used : Nat → Bool} {total : Nat}
    (h : ∀ i, i < total → used i = false) : freeCount used total = total := by
  induction total with
  | zero => rfl
  | succ total ih =>
    rw [freeCount_succ, h total (Nat.lt_succ_self total), ih fun i hi => h i (Nat.lt_succ_of_lt hi)]
    rfl

/-- The more positions are in use, the fewer are free. -/
theorem freeCount_le {used used' : Nat → Bool} {total : Nat}
    (h : ∀ i, i < total → used i = true → used' i = true) :
    freeCount used' total ≤ freeCount used total := by
  refine List.countP_mono_left fun i hi hfree => ?_
  have hlt := List.mem_range.mp hi
  rw [Bool.not_eq_true'] at hfree ⊢
  by_contra hused
  rw [h i hlt (Bool.not_eq_false _ ▸ hused)] at hfree
  cases hfree

/-- Taking a free position leaves one less. -/
theorem freeCount_mark {used : Nat → Bool} {total i : Nat} (hi : i < total)
    (hfree : used i = false) : freeCount (mark used ⟨i, 1⟩) total + 1 = freeCount used total := by
  have hmark : ∀ k, mark used ⟨i, 1⟩ k = if k = i then true else used k := by
    intro k
    by_cases hk : k = i
    · rw [if_pos hk]
      exact mark_used used ⟨i, 1⟩ k (Run.mem_one.mpr hk)
    · simp [mark, Run.mem_one, hk]
  -- below the position nothing changes
  have hbelow : ∀ n, n ≤ i → freeCount (mark used ⟨i, 1⟩) n = freeCount used n := by
    intro n hn
    induction n with
    | zero => rfl
    | succ n ih =>
      have hne : n ≠ i := by omega
      rw [freeCount_succ, freeCount_succ, ih (by omega), hmark, if_neg hne]
  induction total with
  | zero => omega
  | succ total ih =>
    rw [freeCount_succ, freeCount_succ, hmark]
    by_cases hlast : total = i
    · rw [hlast, hbelow i (Nat.le_refl i), hfree]
      simp
    · rw [if_neg hlast, Nat.add_right_comm, ih (by omega)]

/-! ## Backing -/

/-- Positions in use, some of them backed by a frame that is taken and backs no other position. -/
structure Backing (used taken : Nat → Bool) (map : Nat → Option Nat) : Prop where
  used : ∀ {s f}, map s = some f → used s = true
  taken : ∀ {s f}, map s = some f → taken f = true
  inj : ∀ {s s' f}, map s = some f → map s' = some f → s = s'

namespace Backing

variable {used taken : Nat → Bool} {map : Nat → Option Nat}

theorem empty (used taken : Nat → Bool) : Backing used taken fun _ => none := ⟨nofun, nofun, nofun⟩

/-- More positions are in use. -/
theorem reserve (h : Backing used taken map) (r : Run) : Backing (mark used r) taken map :=
  ⟨fun hs => mark_le (h.used hs), h.taken, h.inj⟩

/-- A position in use is free of any backing when it was free before. -/
theorem clear (h : Backing used taken map) {r : Run} (hr : r.Clear used) {s : Nat} (hs : s ∈ r) :
    map s = none := by
  cases hmap : map s with
  | none => rfl
  | some f =>
    have := hr s hs
    rw [h.used hmap] at this
    cases this

/-- **A free frame** is put behind a position in use. -/
theorem back (h : Backing used taken map) {s f : Nat} (hs : used s = true)
    (hf : taken f = false) :
    Backing used (mark taken ⟨f, 1⟩) (Function.update map s (some f)) := by
  have hnew : ∀ {s'}, map s' ≠ some f := by
    intro s' hmap
    rw [h.taken hmap] at hf
    cases hf
  have hself : mark taken ⟨f, 1⟩ f = true := mark_used _ _ f (Run.mem_one.mpr rfl)
  refine ⟨?_, ?_, ?_⟩
  · intro s' f' hmap
    by_cases heq : s' = s
    · rw [heq, hs]
    · rw [Function.update_of_ne heq] at hmap
      exact h.used hmap
  · intro s' f' hmap
    by_cases heq : s' = s
    · rw [heq, Function.update_self, Option.some.injEq] at hmap
      rw [← hmap, hself]
    · rw [Function.update_of_ne heq] at hmap
      exact mark_le (h.taken hmap)
  · intro s₁ s₂ f' h₁ h₂
    by_cases heq₁ : s₁ = s
    · by_cases heq₂ : s₂ = s
      · rw [heq₁, heq₂]
      · rw [heq₁, Function.update_self] at h₁
        rw [Function.update_of_ne heq₂, ← h₁] at h₂
        exact absurd h₂ hnew
    · rw [Function.update_of_ne heq₁] at h₁
      by_cases heq₂ : s₂ = s
      · rw [heq₂, Function.update_self] at h₂
        rw [← h₂] at h₁
        exact absurd h₁ hnew
      · rw [Function.update_of_ne heq₂] at h₂
        exact h.inj h₁ h₂

end Backing

end OsKernel.Lib
