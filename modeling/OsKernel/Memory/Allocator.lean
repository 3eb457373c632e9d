import OsKernel.Memory.Paging
import OsKernel.Memory.Pool
import OsKernel.Thread.Basic

/-!
# kernel/memory.c: allocating pages

The functions between `vaddr_get` and `get_user_pages`, called by a thread `t` and run to their
end. `NULL` is the address 0, as in C, so that `malloc_page` goes on with it where the source does.
The lock of `user_pool` is the scheduler's business and has no effect on a single caller.

- `vaddrGet`, `palloc`, `pageTableAdd`, `mallocPage`, `getKernelPages`, `getUserPages`,
  `getAPage`, `addrV2p`.
- `vaddrGet_some`, `palloc_spec`, `pageTableAdd_present`, `pageTableAdd_absent`: what each does.
-/

namespace OsKernel

open Lib

/-! ## The data -/

/-- `enum pool_flags` -/
inductive PoolFlags where
  | kernel
  | user
deriving DecidableEq, Repr

/-- The memory manager's data. `userprogVaddr t` and `pgdir t` are the fields of the PCB of thread
`t`; while it runs, cr3 holds `cr3 t`. -/
structure Memory extends Pools where
  userprogVaddr : Tid → VirtualAddr
  pgdir : Tid → UInt32
  cr3 : Tid → Nat
  ram : ByteMemory

namespace Memory

/-- `pf & PF_KERNEL ? &kernel_pool : &user_pool` -/
def pool (m : Memory) : PoolFlags → Pool
  | .kernel => m.kernelPool
  | .user => m.userPool

def setPool (m : Memory) (p : Pool) : PoolFlags → Memory
  | .kernel => { m with kernelPool := p }
  | .user => { m with userPool := p }

/-- The virtual addresses `vaddr_get` works on. -/
def vaddrs (m : Memory) (t : Tid) : PoolFlags → VirtualAddr
  | .kernel => m.kernelVaddr
  | .user => m.userprogVaddr t

def setVaddrs (m : Memory) (t : Tid) (va : VirtualAddr) : PoolFlags → Memory
  | .kernel => { m with kernelVaddr := va }
  | .user => { m with userprogVaddr := Function.update m.userprogVaddr t va }

end Memory

/-- The address of the page with a given bit. -/
def VirtualAddr.pageAddr (va : VirtualAddr) (bitIdx : Nat) : UInt32 :=
  va.vaddrStart + UInt32.ofNat bitIdx * pgSize

/-- The physical address of the frame with a given bit. -/
def Pool.pageAddr (p : Pool) (bitIdx : Nat) : UInt32 :=
  UInt32.ofNat bitIdx * pgSize + p.phyAddrStart

/-! ## The functions -/

/-- `vaddr_get` -/
def vaddrGet (t : Tid) (pf : PoolFlags) (pgCnt : UInt32) (m : Memory) :
    Except Panic (UInt32 × Memory) :=
  let va := m.vaddrs t pf
  match bitmapScan va.vaddrBitmap pgCnt.toNat with
  | none => return (0, m)
  | some bitIdxStart => do
    let btmp ← setBits bitIdxStart pgCnt.toNat va.vaddrBitmap
    let vaddrStart := va.pageAddr bitIdxStart
    -- only the branch of the user addresses checks the result
    if pf = .user then assert (vaddrStart < 0xc0000000 - pgSize) .vaddrGetUser
    return (vaddrStart, m.setVaddrs t { va with vaddrBitmap := btmp } pf)

/-- `palloc` -/
def palloc (pool : Pool) : Except Panic (UInt32 × Pool) :=
  match bitmapScan pool.poolBitmap 1 with
  | none => return (0, pool)
  | some bitIdx => do
    let btmp ← bitmapSet pool.poolBitmap bitIdx 1
    return (pool.pageAddr bitIdx, { pool with poolBitmap := btmp })

/-- `page_table_add` -/
def pageTableAdd (t : Tid) (vaddr pagePhyaddr : UInt32) (m : Memory) : Except Panic Memory := do
  assert (vaddr != 0) .pageTableAddVaddr
  assert (pagePhyaddr != 0) .pageTableAddPhyaddr
  let cr3 := m.cr3 t
  let pde := pdePtr vaddr
  let pte := ptePtr vaddr
  let e ← load32 cr3 m.ram pde
  if e &&& 0x01 ≠ 0 then
    let e ← load32 cr3 m.ram pte
    assert (e &&& 0x01 = 0) .pageTableAddPte
    let ram ← store32 cr3 m.ram pte (entryOf pagePhyaddr)
    return { m with ram := ram }
  else
    -- the frame of the new table is used without a test for NULL
    let (pdePhyaddr, kernelPool) ← palloc m.kernelPool
    let ram ← store32 cr3 m.ram pde (entryOf pdePhyaddr)
    let ram ← memset cr3 ram (pte &&& 0xfffff000) 0 pgSize
    let e ← load32 cr3 ram pte
    assert (e &&& 0x01 = 0) .pageTableAddPte
    let ram ← store32 cr3 ram pte (entryOf pagePhyaddr)
    return { m with kernelPool := kernelPool, ram := ram }

/-- The loop of `malloc_page`, with `cnt` turns left; the result is false when it returns `NULL`. -/
def mallocLoop (t : Tid) (pf : PoolFlags) : Nat → UInt32 → Memory → Except Panic (Bool × Memory)
  | 0, _, m => .ok (true, m)
  | cnt + 1, vaddr, m => do
    let (pagePhyaddr, pool) ← palloc (m.pool pf)
    let m := m.setPool pool pf
    if pagePhyaddr = 0 then return (false, m)
    let m ← pageTableAdd t vaddr pagePhyaddr m
    mallocLoop t pf cnt (vaddr + pgSize) m

/-- `malloc_page` -/
def mallocPage (t : Tid) (pf : PoolFlags) (pgCnt : UInt32) (m : Memory) :
    Except Panic (UInt32 × Memory) := do
  assert (pgCnt > 0 && pgCnt < 3840) .mallocPageCnt
  let (addrStart, m) ← vaddrGet t pf pgCnt m
  let (complete, m) ← mallocLoop t pf pgCnt.toNat addrStart m
  return (if complete then addrStart else 0, m)

/-- What `get_kernel_pages` and `get_user_pages` have in common. -/
def getPages (t : Tid) (pf : PoolFlags) (pgCnt : UInt32) (m : Memory) :
    Except Panic (UInt32 × Memory) := do
  let (vaddr, m) ← mallocPage t pf pgCnt m
  if vaddr ≠ 0 then
    let ram ← memset (m.cr3 t) m.ram vaddr 0 (pgCnt * pgSize)
    return (vaddr, { m with ram := ram })
  else return (vaddr, m)

/-- `get_kernel_pages` -/
def getKernelPages (t : Tid) (pgCnt : UInt32) (m : Memory) : Except Panic (UInt32 × Memory) :=
  getPages t .kernel pgCnt m

/-- `get_user_pages` -/
def getUserPages (t : Tid) (pgCnt : UInt32) (m : Memory) : Except Panic (UInt32 × Memory) :=
  getPages t .user pgCnt m

/-- `get_a_page` without the lock of the pool; `NULL` is 0. -/
def getAPage (t : Tid) (pf : PoolFlags) (vaddr : UInt32) (m : Memory) :
    Except Panic (UInt32 × Memory) := do
  -- a process for user pages, a kernel thread for kernel pages
  assert ((m.pgdir t != 0 && pf == .user) || (m.pgdir t == 0 && pf == .kernel)) .getAPageKind
  let va := m.vaddrs t pf
  let bitIdx := ((vaddr - va.vaddrStart) / pgSize).toNat
  assert (bitIdx > 0) .getAPageBitIdx
  let btmp ← bitmapSet va.vaddrBitmap bitIdx 1
  let m := m.setVaddrs t { va with vaddrBitmap := btmp } pf
  let (pagePhyaddr, pool) ← palloc (m.pool pf)
  let m := m.setPool pool pf
  if pagePhyaddr = 0 then return (0, m)
  let m ← pageTableAdd t vaddr pagePhyaddr m
  return (vaddr, m)

/-- `addr_v2p` -/
def addrV2p (t : Tid) (vaddr : UInt32) (m : Memory) : Except Panic UInt32 := do
  let e ← load32 (m.cr3 t) m.ram (ptePtr vaddr)
  return (e &&& 0xfffff000) + (vaddr &&& 0x00000fff)

/-! ## vaddr_get and palloc -/

/-- There is no run of free pages. -/
theorem vaddrGet_none {t : Tid} {pf : PoolFlags} {pgCnt : UInt32} {m : Memory}
    (h : bitmapScan (m.vaddrs t pf).vaddrBitmap pgCnt.toNat = none) :
    vaddrGet t pf pgCnt m = .ok (0, m) := by
  simp only [vaddrGet, h, pure_eq_ok]

/-- The first run of free pages is taken. -/
theorem vaddrGet_some {t : Tid} {pf : PoolFlags} {pgCnt : UInt32} {m : Memory} {s : Nat}
    (hcnt : 0 < pgCnt.toNat)
    (h : bitmapScan (m.vaddrs t pf).vaddrBitmap pgCnt.toNat = some s) :
    ∃ btmp, SameArea (m.vaddrs t pf).vaddrBitmap btmp ∧
      btmp.get = mark (m.vaddrs t pf).vaddrBitmap.get ⟨s, pgCnt.toNat⟩ ∧
      vaddrGet t pf pgCnt m = (do
        if pf = .user then
          assert ((m.vaddrs t pf).pageAddr s < 0xc0000000 - pgSize) .vaddrGetUser
        return ((m.vaddrs t pf).pageAddr s,
          m.setVaddrs t { m.vaddrs t pf with vaddrBitmap := btmp } pf)) := by
  have hfit := bitmapScan_spec (m.vaddrs t pf).vaddrBitmap hcnt
  rw [h] at hfit
  obtain ⟨btmp, hset, harea, hget⟩ := setBits_spec hfit.bound
  refine ⟨btmp, harea, hget, ?_⟩
  simp only [vaddrGet, h, hset, ok_bind]

/-- **`palloc`** takes the first free frame, and returns `NULL` when there is none. -/
theorem palloc_spec (pool : Pool) :
    ((∀ s, s < pool.poolBitmap.size → pool.poolBitmap.get s = true) ∧
      palloc pool = .ok (0, pool)) ∨
    ∃ s btmp, s < pool.poolBitmap.size ∧ pool.poolBitmap.get s = false ∧
      SameArea pool.poolBitmap btmp ∧ btmp.get = mark pool.poolBitmap.get ⟨s, 1⟩ ∧
      palloc pool = .ok (pool.pageAddr s, { pool with poolBitmap := btmp }) := by
  have hfit := bitmapScan_spec pool.poolBitmap Nat.one_pos
  cases hscan : bitmapScan pool.poolBitmap 1 with
  | none =>
    rw [hscan] at hfit
    refine Or.inl ⟨fun s hs => ?_, by simp only [palloc, hscan, pure_eq_ok]⟩
    by_contra hfree
    refine hfit s hs fun i hi => ?_
    rw [Run.mem_one.mp hi]
    exact Bool.eq_false_iff.mpr hfree
  | some s =>
    rw [hscan] at hfit
    obtain ⟨btmp, hset, harea, hget⟩ := bitmapSet_one pool.poolBitmap hfit.bound
    refine Or.inr ⟨s, btmp, hfit.bound, hfit.clear s (Run.mem_one.mpr rfl), harea, hget, ?_⟩
    simp only [palloc, hscan, hset, ok_bind, pure_eq_ok]

/-! ## page_table_add -/

section PageTableAdd

variable {t : Tid} {vaddr pagePhyaddr : UInt32} {m : Memory}

/-- The table exists: its entry is written. -/
theorem pageTableAdd_present (hrec : Recursive (m.cr3 t) m.ram) (hvaddr : vaddr ≠ 0)
    (hphyaddr : pagePhyaddr ≠ 0)
    (hdir : present (dirEntry (m.cr3 t) m.ram (dirIndex vaddr)) = true)
    (htable : present (tableEntry (m.cr3 t) m.ram (dirIndex vaddr) (tableIndex vaddr)) = false) :
    pageTableAdd t vaddr pagePhyaddr m = .ok { m with
      ram := m.ram.write32
        (frame (dirEntry (m.cr3 t) m.ram (dirIndex vaddr)) + 4 * tableIndex vaddr)
        (entryOf pagePhyaddr) } := by
  have hv : (vaddr != 0) = true := bne_iff_ne.mpr hvaddr
  have hp : (pagePhyaddr != 0) = true := bne_iff_ne.mpr hphyaddr
  have hpde := (present_iff _).mpr hdir
  have hpte : tableEntry (m.cr3 t) m.ram (dirIndex vaddr) (tableIndex vaddr) &&& 0x01 = 0 := by
    by_contra hne
    have := (present_iff _).mp hne
    rw [htable] at this
    cases this
  simp only [pageTableAdd, hv, hp, assert_true, ok_bind, hrec.load32_pdePtr, hpde, ne_eq,
    not_false_eq_true, if_true, hrec.load32_ptePtr hdir, hpte, decide_true,
    hrec.store32_ptePtr hdir, pure_eq_ok]

/-- **The table is missing**: it is taken from `kernel_pool` and cleared first. -/
theorem pageTableAdd_absent (hrec : Recursive (m.cr3 t) m.ram) (hvaddr : vaddr ≠ 0)
    (hphyaddr : pagePhyaddr ≠ 0)
    (hdir : present (dirEntry (m.cr3 t) m.ram (dirIndex vaddr)) = false)
    {pdePhyaddr : UInt32} {kernelPool : Pool}
    (hpalloc : palloc m.kernelPool = .ok (pdePhyaddr, kernelPool))
    (haligned : pdePhyaddr.toNat % 0x1000 = 0) (hcr3 : m.cr3 t % 0x1000 = 0)
    (hne : pdePhyaddr.toNat ≠ m.cr3 t) :
    ∃ ram, Filled
        (m.ram.write32 (m.cr3 t + 4 * dirIndex vaddr) (entryOf pdePhyaddr)) ram 0x1000
        (fun k => pdePhyaddr.toNat + k) 0 ∧
      pageTableAdd t vaddr pagePhyaddr m = .ok { m with
        kernelPool := kernelPool
        ram := ram.write32 (pdePhyaddr.toNat + 4 * tableIndex vaddr) (entryOf pagePhyaddr) } := by
  have hv : (vaddr != 0) = true := bne_iff_ne.mpr hvaddr
  have hp : (pagePhyaddr != 0) = true := bne_iff_ne.mpr hphyaddr
  have hpde : ¬ dirEntry (m.cr3 t) m.ram (dirIndex vaddr) &&& 0x01 ≠ 0 := by
    rw [present_iff, hdir]
    exact Bool.false_ne_true
  have hlt : dirIndex vaddr < 1023 := by
    refine Nat.lt_of_le_of_ne (Nat.le_of_lt_succ (dirIndex_lt vaddr)) fun heq => ?_
    rw [heq, hrec.present] at hdir
    cases hdir
  have htable := tableIndex_lt vaddr
  -- the directory gets its entry
  obtain ⟨hrec₁, hentry₁⟩ := hrec.addTable hlt (entryOf pdePhyaddr)
  generalize hram₁ : m.ram.write32 (m.cr3 t + 4 * dirIndex vaddr) (entryOf pdePhyaddr) = ram₁
  rw [hram₁] at hrec₁ hentry₁
  have hpresent₁ : present (dirEntry (m.cr3 t) ram₁ (dirIndex vaddr)) = true :=
    hentry₁ ▸ present_entryOf haligned
  have hframe₁ : frame (dirEntry (m.cr3 t) ram₁ (dirIndex vaddr)) = pdePhyaddr.toNat :=
    hentry₁ ▸ frame_entryOf haligned
  -- the new table is cleared
  have hmapped := hrec₁.mapped (dirIndex_lt vaddr) hpresent₁ hcr3 (hframe₁ ▸ hne) (ptePtr_page vaddr)
  rw [hframe₁] at hmapped
  have hdst : (ptePtr vaddr &&& 0xfffff000) ≠ 0 := by
    intro heq
    have hpage := ptePtr_page vaddr
    rw [heq, UInt32.toNat_zero] at hpage
    omega
  obtain ⟨ram₂, hmemset, hfilled⟩ := @memset_filled _ _ _ pgSize _ 0 hdst hmapped
  have heq₂ := eqOn_other_page haligned hcr3 hne hfilled.outside
  have hrec₂ := hrec₁.congr heq₂
  have hentry₂ := dirEntry_congr heq₂ (dirIndex_lt vaddr)
  have hpresent₂ := hentry₂ ▸ hpresent₁
  have hframe₂ := hentry₂ ▸ hframe₁
  have hzero : tableEntry (m.cr3 t) ram₂ (dirIndex vaddr) (tableIndex vaddr) = 0 := by
    rw [tableEntry, hframe₂]
    refine ByteMemory.read32_zero fun k hk => ?_
    rw [Nat.add_assoc]
    exact hfilled.inside (4 * tableIndex vaddr + k) (show _ < 0x1000 by omega)
  refine ⟨ram₂, hfilled, ?_⟩
  simp only [pageTableAdd, hv, hp, assert_true, ok_bind, hrec.load32_pdePtr, hpde, if_false,
    hpalloc, hrec.store32_pdePtr, hram₁, hmemset, hrec₂.load32_ptePtr hpresent₂, hzero,
    hrec₂.store32_ptePtr hpresent₂, hframe₂, pure_eq_ok]
  rfl

end PageTableAdd

end OsKernel
