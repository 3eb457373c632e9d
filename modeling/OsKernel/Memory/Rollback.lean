import OsKernel.Memory.KernelHeap

/-!
# malloc_page out of frames

The comment at the failure branch of `malloc_page` asks for a rollback of what has been taken so
far. The branch returns at once, so the reserved addresses stay reserved.

- `mallocLoop_vaddrs`: the loop never touches the bitmap of the virtual addresses.
- `RolledBack`: what the comment asks for; `mallocPage_never_rolledBack`: it never happens.
-/

namespace OsKernel

open Lib

/-! ## What the loop leaves alone -/

/-- Nothing has changed: the bitmaps, the page directory of `t` and its page tables. -/
structure RolledBack (t : Tid) (pf : PoolFlags) (m m' : Memory) : Prop where
  vaddr : (m'.vaddrs t pf).vaddrBitmap.get = (m.vaddrs t pf).vaddrBitmap.get
  kernelPool : m'.kernelPool.poolBitmap.get = m.kernelPool.poolBitmap.get
  userPool : m'.userPool.poolBitmap.get = m.userPool.poolBitmap.get
  dir : ∀ i, i < 0x400 → dirEntry (m.cr3 t) m'.ram i = dirEntry (m.cr3 t) m.ram i
  table : ∀ i j, i < 0x400 → j < 0x400 → present (dirEntry (m.cr3 t) m.ram i) = true →
    tableEntry (m.cr3 t) m'.ram i j = tableEntry (m.cr3 t) m.ram i j

section Loop

variable {t : Tid} {pf : PoolFlags} {m m' : Memory}

theorem vaddrs_setPool (m : Memory) (p : Pool) : (m.setPool p pf).vaddrs t pf = m.vaddrs t pf := by
  cases pf with
  | kernel => rfl
  | user => rfl

theorem vaddrs_setVaddrs (m : Memory) (va : VirtualAddr) :
    (m.setVaddrs t va pf).vaddrs t pf = va := by
  cases pf with
  | kernel => rfl
  | user => exact Function.update_self _ _ _

/-- `page_table_add` changes memory and `kernel_pool` only. -/
theorem pageTableAdd_vaddrs {vaddr pagePhyaddr : UInt32}
    (h : pageTableAdd t vaddr pagePhyaddr m = .ok m') : m'.vaddrs t pf = m.vaddrs t pf := by
  obtain ⟨_, -, h⟩ := bind_eq_ok.mp h
  obtain ⟨_, -, h⟩ := bind_eq_ok.mp h
  obtain ⟨e, -, h⟩ := bind_eq_ok.mp h
  split at h
  · obtain ⟨_, -, h⟩ := bind_eq_ok.mp h
    obtain ⟨_, -, h⟩ := bind_eq_ok.mp h
    obtain ⟨_, -, h⟩ := bind_eq_ok.mp h
    cases h
    cases pf with
    | kernel => rfl
    | user => rfl
  · obtain ⟨_, -, h⟩ := bind_eq_ok.mp h
    obtain ⟨_, -, h⟩ := bind_eq_ok.mp h
    obtain ⟨_, -, h⟩ := bind_eq_ok.mp h
    obtain ⟨_, -, h⟩ := bind_eq_ok.mp h
    obtain ⟨_, -, h⟩ := bind_eq_ok.mp h
    obtain ⟨_, -, h⟩ := bind_eq_ok.mp h
    cases h
    cases pf with
    | kernel => rfl
    | user => rfl

/-- **The loop** leaves the virtual addresses alone, whether it completes or not. -/
theorem mallocLoop_vaddrs {cnt : Nat} {vaddr : UInt32} {complete : Bool}
    (h : mallocLoop t pf cnt vaddr m = .ok (complete, m')) : m'.vaddrs t pf = m.vaddrs t pf := by
  induction cnt generalizing vaddr m with
  | zero =>
    cases h
    rfl
  | succ cnt ih =>
    obtain ⟨⟨pagePhyaddr, p⟩, -, h⟩ := bind_eq_ok.mp h
    dsimp only at h
    split at h
    · cases h
      exact vaddrs_setPool m p
    · obtain ⟨m₁, hadd, hrest⟩ := bind_eq_ok.mp h
      rw [ih hrest, pageTableAdd_vaddrs hadd, vaddrs_setPool]

end Loop

/-! ## No rollback -/

section Failure

variable {t : Tid} {pf : PoolFlags} {pgCnt : UInt32} {m m' : Memory}

/-- A call that finds a run of free pages keeps the run, whatever it returns. -/
theorem mallocPage_reserved {a : UInt32} {start : Nat}
    (hscan : bitmapScan (m.vaddrs t pf).vaddrBitmap pgCnt.toNat = some start)
    (hret : mallocPage t pf pgCnt m = .ok (a, m')) : 0 < pgCnt.toNat ∧
    (m'.vaddrs t pf).vaddrBitmap.get =
      mark (m.vaddrs t pf).vaddrBitmap.get ⟨start, pgCnt.toNat⟩ := by
  obtain ⟨_, hassert, hret⟩ := bind_eq_ok.mp hret
  obtain ⟨⟨addrStart, m₁⟩, hvaddr, hret⟩ := bind_eq_ok.mp hret
  obtain ⟨⟨complete, m₂⟩, hloop, hret⟩ := bind_eq_ok.mp hret
  cases hret
  have hpos : 0 < pgCnt.toNat := by
    by_contra hzero
    have hle : (decide (pgCnt > 0)) = false := by
      rw [decide_eq_false_iff_not, gt_iff_lt, UInt32.lt_iff_toNat_lt]
      exact hzero
    rw [hle] at hassert
    cases hassert
  obtain ⟨btmp, -, hget, heq⟩ := vaddrGet_some hpos hscan
  have hreserve : m₁ = m.setVaddrs t { m.vaddrs t pf with vaddrBitmap := btmp } pf := by
    rw [heq] at hvaddr
    cases pf with
    | kernel =>
      cases hvaddr
      rfl
    | user =>
      obtain ⟨_, -, hvaddr⟩ := bind_eq_ok.mp hvaddr
      cases hvaddr
      rfl
  refine ⟨hpos, ?_⟩
  rw [mallocLoop_vaddrs hloop, hreserve, vaddrs_setVaddrs]
  exact hget

/-- So does `get_kernel_pages` or `get_user_pages`. -/
theorem getPages_reserved {a : UInt32} {start : Nat}
    (hscan : bitmapScan (m.vaddrs t pf).vaddrBitmap pgCnt.toNat = some start)
    (hret : getPages t pf pgCnt m = .ok (a, m')) : 0 < pgCnt.toNat ∧
    (m'.vaddrs t pf).vaddrBitmap.get =
      mark (m.vaddrs t pf).vaddrBitmap.get ⟨start, pgCnt.toNat⟩ := by
  obtain ⟨⟨vaddr, m₁⟩, hmalloc, hret⟩ := bind_eq_ok.mp hret
  have hreserved := mallocPage_reserved hscan hmalloc
  dsimp only at hret
  split at hret
  · obtain ⟨ram, -, hret⟩ := bind_eq_ok.mp hret
    cases hret
    cases pf with
    | kernel => exact hreserved
    | user => exact hreserved
  · cases hret
    exact hreserved

/-- The first page of the run was free and is not any more. -/
theorem not_rolledBack {start : Nat} (hpos : 0 < pgCnt.toNat)
    (hscan : bitmapScan (m.vaddrs t pf).vaddrBitmap pgCnt.toNat = some start)
    (hget : (m'.vaddrs t pf).vaddrBitmap.get =
      mark (m.vaddrs t pf).vaddrBitmap.get ⟨start, pgCnt.toNat⟩) : ¬ RolledBack t pf m m' := by
  intro hback
  have hfit := bitmapScan_spec (m.vaddrs t pf).vaddrBitmap hpos
  rw [hscan] at hfit
  have hfirst : start ∈ (⟨start, pgCnt.toNat⟩ : Run) :=
    Run.mem_iff.mpr ⟨Nat.le_refl start, Nat.lt_add_of_pos_right hpos⟩
  have hfree := hfit.clear start hfirst
  have hsame := congrFun (hback.vaddr.symm.trans hget) start
  rw [mark_used _ _ start hfirst, hfree] at hsame
  cases hsame

/-- **No rollback.** Whenever there is a run of free pages and the frames run out, the call returns
`NULL` and leaves something behind. -/
theorem mallocPage_never_rolledBack (t : Tid) (pf : PoolFlags) (pgCnt : UInt32) (m : Memory)
    (hrun : ∃ start, start + pgCnt.toNat ≤ (m.vaddrs t pf).vaddrBitmap.size ∧
      Run.Clear (m.vaddrs t pf).vaddrBitmap.get ⟨start, pgCnt.toNat⟩)
    (hpos : 0 < pgCnt.toNat) :
    (∀ m', mallocPage t pf pgCnt m = .ok (0, m') → ¬ RolledBack t pf m m') ∧
      ∀ m', getPages t pf pgCnt m = .ok (0, m') → ¬ RolledBack t pf m m' := by
  cases hscan : bitmapScan (m.vaddrs t pf).vaddrBitmap pgCnt.toNat with
  | none => exact absurd hrun ((bitmapScan_eq_none_iff _ hpos).mp hscan)
  | some start =>
    constructor
    · intro m' hret
      exact not_rolledBack hpos hscan (mallocPage_reserved hscan hret).2
    · intro m' hret
      exact not_rolledBack hpos hscan (getPages_reserved hscan hret).2

/-- A machine with 4 MB. A process with the addresses from 0x8048000 on has its PCB, its page
directory and its bitmap in the first 32 kernel pages, and all of the 256 user frames are in use. -/
def usedUp : Memory :=
  { (bootedHeap 0x400000).mem with
    kernelPool := ⟨⟨32, 0xc009a000, fun i => if i < 4 then 0xff else 0⟩, 0x200000, 0x100000⟩
    userPool := ⟨⟨32, 0xc009a020, fun _ => 0xff⟩, 0x300000, 0x100000⟩
    kernelVaddr := ⟨⟨32, 0xc009a040, fun i => if i < 4 then 0xff else 0⟩, kHeapStart⟩
    userprogVaddr := fun _ => ⟨⟨0x16ff7, 0xc0101000, fun _ => 0⟩, 0x8048000⟩
    pgdir := fun _ => 0xc0118000 }

/-- No frame is left for `palloc`. -/
theorem usedUp_palloc : palloc usedUp.userPool = .ok (0, usedUp.userPool) := by
  rcases palloc_spec usedUp.userPool with ⟨-, h⟩ | ⟨s, _, _, hfree, -, -, -⟩
  · exact h
  · have hbit : usedUp.userPool.poolBitmap.get s = decide (s % 8 < 8) :=
      Nat.testBit_two_pow_sub_one 8 (s % 8)
    rw [hbit, decide_eq_true (Nat.mod_lt s (by decide))] at hfree
    cases hfree

/-- `malloc_page(PF_USER, 1)` there. -/
theorem usedUp_returns : ∃ m', mallocPage 1 .user 1 usedUp = .ok (0, m') ∧
    (m'.vaddrs 1 .user).vaddrBitmap.get 0 = true := by
  obtain ⟨m₁, hvaddr, hpool, hbit⟩ : ∃ m₁, vaddrGet 1 .user 1 usedUp = .ok (0x8048000, m₁) ∧
      m₁.userPool = usedUp.userPool ∧ (m₁.vaddrs 1 .user).vaddrBitmap.get 0 = true :=
    ⟨_, rfl, rfl, rfl⟩
  refine ⟨m₁.setPool usedUp.userPool .user, ?_, hbit⟩
  have hassert : ((1 : UInt32) > 0 && (1 : UInt32) < 3840) = true := rfl
  have hone : (1 : UInt32).toNat = 1 := rfl
  simp only [mallocPage, hassert, assert_true, ok_bind, hvaddr, hone, mallocLoop, Memory.pool, hpool,
    usedUp_palloc, if_true, pure_eq_ok, Bool.false_eq_true, if_false]

theorem usedUp_run : ∃ start, start + (1 : UInt32).toNat ≤ (usedUp.vaddrs 1 .user).vaddrBitmap.size ∧
    Run.Clear (usedUp.vaddrs 1 .user).vaddrBitmap.get ⟨start, (1 : UInt32).toNat⟩ := by
  refine ⟨0, by decide, fun i _ => ?_⟩
  exact Nat.zero_testBit (i % 8)

/-- The call returns `NULL` and is not rolled back. -/
theorem mallocPage_usedUp : ∃ m', mallocPage 1 .user 1 usedUp = .ok (0, m') ∧
    ¬ RolledBack 1 .user usedUp m' := by
  obtain ⟨m', hret, -⟩ := usedUp_returns
  exact ⟨m', hret, (mallocPage_never_rolledBack 1 .user 1 usedUp usedUp_run (by decide)).1 m' hret⟩

/-- What is left behind: the first page of the process is not free any more. -/
theorem usedUp_leak :
    freeCount usedUp.userPool.poolBitmap.get usedUp.userPool.poolBitmap.size < (1 : UInt32).toNat ∧
      ∃ m', mallocPage 1 .user 1 usedUp = .ok (0, m') ∧ ¬ RolledBack 1 .user usedUp m' := by
  obtain ⟨m', hret, hbit⟩ := usedUp_returns
  refine ⟨?_, m', hret, fun hback => ?_⟩
  · have hfull : ∀ s, s < 256 → usedUp.userPool.poolBitmap.get s = true := fun s _ =>
      (Nat.testBit_two_pow_sub_one 8 (s % 8)).trans (decide_eq_true (Nat.mod_lt s (by decide)))
    have hzero : freeCount usedUp.userPool.poolBitmap.get 256 = 0 := freeCount_eq_zero hfull
    exact hzero ▸ Nat.one_pos
  · rw [hback.vaddr] at hbit
    cases hbit

end Failure

end OsKernel

