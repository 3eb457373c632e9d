import OsKernel.Boot.SetupPage
import OsKernel.Lib.TransitionSystem

/-!
# get_kernel_pages over whole runs

- `getKernelPages_some`: one call that finds a run of pages, and what it leaves as it was.
- `HeapRun`, `heapRuns`: calls one after another, with the blocks returned so far.
- `kernelPages_sound`: every block is new memory, and no earlier block is touched.
- `kernelPages_return_iff`: when a call returns at all.
-/

namespace OsKernel

open Lib

/-! ## Accesses to the heap -/

section Access

variable {cr3 : Nat} {m : Memory} {map : Nat → Option Nat}

/-- A heap page leads to its frame. -/
theorem HeapInv.translate_some (h : HeapInv cr3 m map) {vaddr : UInt32} {s off f : Nat}
    (hmap : map s = some f) (hoff : off < 0x1000)
    (hv : vaddr.toNat = 0xc0100000 + 0x1000 * s + off) :
    translate cr3 m.ram vaddr = .ok (poolStart + 0x1000 * f + off) := by
  have hs := h.outside s f hmap
  have hentry := h.entry s hs
  rw [hmap] at hentry
  obtain ⟨hdir, htable, hmod⟩ := heap_fields hoff hv
  have hpresent := h.tables.heap_present (Nat.lt_trans hs h.vaddrSize)
  have htrans := @translate_eq cr3 m.ram vaddr
  rw [hdir, htable, hmod] at htrans
  rw [htrans hpresent hentry.1]
  congr 2
  exact hentry.2

/-- A heap page without a frame leads nowhere. -/
theorem HeapInv.translate_none (h : HeapInv cr3 m map) {vaddr : UInt32} {s off : Nat}
    (hs : s < m.kernelVaddr.vaddrBitmap.size) (hmap : map s = none) (hoff : off < 0x1000)
    (hv : vaddr.toNat = 0xc0100000 + 0x1000 * s + off) :
    translate cr3 m.ram vaddr = .error .pageFault := by
  have hentry := h.entry s hs
  rw [hmap] at hentry
  obtain ⟨hdir, htable, -⟩ := heap_fields hoff hv
  have hpresent := h.tables.heap_present (Nat.lt_trans hs h.vaddrSize)
  have habsent : present (tableEntry cr3 m.ram (heapDir s) (heapSlot s)) = false := hentry
  simp only [translate, hdir, htable, hpresent, habsent, assert_true, assert_false, ok_bind,
    error_bind]

/-- What is stored in the frames does not matter. -/
theorem HeapInv.congr (h : HeapInv cr3 m map) {ram' : ByteMemory}
    (heq : ByteMemory.EqOn 0 poolStart m.ram ram') : HeapInv cr3 { m with ram := ram' } map where
  tables := h.tables.congr (h.tables.eqOn_dir heq)
  vaddrStart := h.vaddrStart
  vaddrSize := h.vaddrSize
  phyAddrStart := h.phyAddrStart
  poolSize := h.poolSize
  poolBound := h.poolBound
  entry s hs := by
    have hsame := h.tables.heapEntry_congr heq (Nat.lt_trans hs h.vaddrSize)
    rw [hsame]
    exact h.entry s hs
  outside := h.outside
  frame := h.frame
  backing := h.backing

/-- More pages are in use. -/
theorem HeapInv.reserve (h : HeapInv cr3 m map) {r : Run} {btmp : Bitmap}
    (harea : SameArea m.kernelVaddr.vaddrBitmap btmp)
    (hget : btmp.get = mark m.kernelVaddr.vaddrBitmap.get r) :
    HeapInv cr3 { m with kernelVaddr := { m.kernelVaddr with vaddrBitmap := btmp } } map where
  tables := h.tables
  vaddrStart := h.vaddrStart
  vaddrSize := harea.size ▸ h.vaddrSize
  phyAddrStart := h.phyAddrStart
  poolSize := h.poolSize
  poolBound := h.poolBound
  entry s hs := h.entry s (harea.size ▸ hs)
  outside s f hmap := harea.size ▸ h.outside s f hmap
  frame := h.frame
  backing := by
    show Backing btmp.get m.kernelPool.poolBitmap.get map
    rw [hget]
    exact h.backing.reserve r

/-- The bytes behind the pages of a run, in the order of their addresses. -/
def runBytes (map : Nat → Option Nat) (start i : Nat) : Nat :=
  poolStart + 0x1000 * (map (start + i / 0x1000)).getD 0 + i % 0x1000

/-- The pages of a run are mapped, and stay so whatever their bytes are. -/
theorem HeapInv.mapped (h : HeapInv cr3 m map) {start cnt : Nat}
    (hall : ∀ s ∈ (⟨start, cnt⟩ : Run), ∃ f, map s = some f) :
    Mapped cr3 m.ram (heapAddr start) (0x1000 * cnt) (runBytes map start) := by
  intro ram' hram' i hi
  have hlow : ByteMemory.EqOn 0 poolStart m.ram ram' := by
    intro a _ ha
    refine hram' a fun k _ heq => ?_
    unfold runBytes at heq
    omega
  have hmem : start + i / 0x1000 ∈ (⟨start, cnt⟩ : Run) := Run.mem_iff.mpr ⟨Nat.le_add_right _ _,
    Nat.add_lt_add_left (Nat.div_lt_of_lt_mul hi) start⟩
  obtain ⟨f, hf⟩ := hall _ hmem
  have hbound := Nat.lt_trans (h.outside _ f hf) h.vaddrSize
  have hstart : start < 0x10000 := Nat.lt_of_le_of_lt (Nat.le_add_right _ _) hbound
  have haddr : (heapAddr start + UInt32.ofNat i).toNat =
      0xc0100000 + 0x1000 * (start + i / 0x1000) + i % 0x1000 := by
    rw [UInt32.toNat_add, heapAddr_toNat hstart, UInt32.toNat_ofNat']
    omega
  have htrans := (h.congr hlow).translate_some hf (Nat.mod_lt i (by decide)) haddr
  rw [htrans, runBytes, hf]
  rfl

end Access

/-! ## One call -/

/-- What a call that takes the pages of `r` leaves as it was, and what it does to the bitmap. -/
structure Allocated (r : Run) (m : Memory) (map : Nat → Option Nat) (m' : Memory)
    (map' : Nat → Option Nat) : Prop where
  area : SameArea m.kernelVaddr.vaddrBitmap m'.kernelVaddr.vaddrBitmap
  used : m'.kernelVaddr.vaddrBitmap.get = mark m.kernelVaddr.vaddrBitmap.get r
  outside : ∀ s, s ∉ r → map' s = map s
  contents : ∀ s f, s ∉ r → map s = some f → ∀ off, off < 0x1000 →
    m'.ram (poolStart + 0x1000 * f + off) = m.ram (poolStart + 0x1000 * f + off)
  cr3 : m'.cr3 = m.cr3
  frames : r.len ≤ freeCount m.kernelPool.poolBitmap.get m.kernelPool.poolBitmap.size →
    freeCount m'.kernelPool.poolBitmap.get m'.kernelPool.poolBitmap.size + r.len =
      freeCount m.kernelPool.poolBitmap.get m.kernelPool.poolBitmap.size

/-- The pages of `r` are mapped and read zero. -/
def Zeroed (r : Run) (m : Memory) (map : Nat → Option Nat) : Prop :=
  ∀ s ∈ r, ∃ f, map s = some f ∧ ∀ off, off < 0x1000 → m.ram (poolStart + 0x1000 * f + off) = 0

section Call

variable {t : Tid} {n : UInt32} {m : Memory} {map : Nat → Option Nat}

/-- The bytes of one page of the run. -/
theorem runBytes_page (map : Nat → Option Nat) {start s f off : Nat} (hs : start ≤ s)
    (hmap : map s = some f) (hoff : off < 0x1000) :
    runBytes map start (0x1000 * (s - start) + off) = poolStart + 0x1000 * f + off := by
  have hdiv : start + (0x1000 * (s - start) + off) / 0x1000 = s := by omega
  have hmod : (0x1000 * (s - start) + off) % 0x1000 = off := by omega
  rw [runBytes, hdiv, hmod, hmap]
  rfl

/-- `memset` on new pages. -/
theorem memset_run (h : HeapInv (m.cr3 t) m map) {start : Nat} (hn : n.toNat < 3840)
    (hstart : start < 0x10000)
    (hall : ∀ s ∈ (⟨start, n.toNat⟩ : Run), ∃ f, map s = some f) :
    ∃ ram', memset (m.cr3 t) m.ram (heapAddr start) 0 (n * pgSize) = .ok ram' ∧
      HeapInv (m.cr3 t) { m with ram := ram' } map ∧
      Zeroed ⟨start, n.toNat⟩ { m with ram := ram' } map ∧
      ∀ s f, s ∉ (⟨start, n.toNat⟩ : Run) → map s = some f → ∀ off, off < 0x1000 →
        ram' (poolStart + 0x1000 * f + off) = m.ram (poolStart + 0x1000 * f + off) := by
  have hsize : (n * pgSize).toNat = 0x1000 * n.toNat := by
    rw [UInt32.toNat_mul]
    show n.toNat * 0x1000 % 2 ^ 32 = _
    omega
  have hmapped := h.mapped hall
  rw [← hsize] at hmapped
  obtain ⟨ram', hmemset, hfilled⟩ := memset_filled 0 (heapAddr_ne_zero hstart) hmapped
  rw [hsize] at hfilled
  refine ⟨ram', hmemset, h.congr ?_, ?_, ?_⟩
  · intro a _ ha
    refine hfilled.outside a fun i _ heq => ?_
    unfold runBytes at heq
    omega
  · intro s hs
    obtain ⟨f, hf⟩ := hall s hs
    refine ⟨f, hf, fun off hoff => ?_⟩
    obtain ⟨hlo, hhi⟩ := Run.mem_iff.mp hs
    dsimp only at hlo hhi
    rw [← runBytes_page map hlo hf hoff]
    exact hfilled.inside _ (by omega)
  · intro s f hout hf off hoff
    refine hfilled.outside _ fun i hi heq => ?_
    -- the byte would be in the frame of another page
    have hmem : start + i / 0x1000 ∈ (⟨start, n.toNat⟩ : Run) := Run.mem_iff.mpr
      ⟨Nat.le_add_right _ _, Nat.add_lt_add_left (Nat.div_lt_of_lt_mul hi) start⟩
    obtain ⟨f', hf'⟩ := hall _ hmem
    rw [runBytes, hf', Option.getD_some] at heq
    have hframe : f = f' := by omega
    exact hout (h.backing.inj hf (hframe ▸ hf') ▸ hmem)

/-- `malloc_page` for the kernel, when there is a run of free pages: the pages are reserved and
mapped one by one, and `NULL` is returned when the frames run out. -/
theorem mallocPage_some (h : HeapInv (m.cr3 t) m map) (hpos : 0 < n.toNat)
    (hn : n.toNat < 3840) {start : Nat}
    (hscan : bitmapScan m.kernelVaddr.vaddrBitmap n.toNat = some start) :
    ∃ m' map', HeapInv (m.cr3 t) m' map' ∧ Allocated ⟨start, n.toNat⟩ m map m' map' ∧
      mallocPage t .kernel n m = .ok
        (if n.toNat ≤ freeCount m.kernelPool.poolBitmap.get m.kernelPool.poolBitmap.size
          then heapAddr start else 0, m') ∧
      (n.toNat ≤ freeCount m.kernelPool.poolBitmap.get m.kernelPool.poolBitmap.size →
        ∀ s ∈ (⟨start, n.toNat⟩ : Run), ∃ f, map' s = some f) := by
  have hfit := bitmapScan_spec m.kernelVaddr.vaddrBitmap hpos
  rw [hscan] at hfit
  have hassert : (n > 0 && n < 3840) = true := by
    rw [Bool.and_eq_true, decide_eq_true_iff, decide_eq_true_iff]
    exact ⟨UInt32.lt_iff_toNat_lt.mpr hpos, UInt32.lt_iff_toNat_lt.mpr hn⟩
  -- the pages are reserved
  obtain ⟨btmp, harea, hget, hvaddr⟩ := @vaddrGet_some t .kernel n m start hpos hscan
  have haddr : (m.vaddrs t .kernel).pageAddr start = heapAddr start := by
    rw [VirtualAddr.pageAddr, heapAddr]
    congr 1
    exact h.vaddrStart
  rw [haddr] at hvaddr
  -- they are mapped
  obtain ⟨m', map', hloop, hinv, honly, hall⟩ := mallocLoop_heap (t := t)
    (m := { m with kernelVaddr := { m.kernelVaddr with vaddrBitmap := btmp } })
    (h.reserve harea hget)
    (by
      show start + n.toNat ≤ btmp.size
      rw [harea.size]
      exact hfit.bound)
    (by
      show Run.Used btmp.get ⟨start, n.toNat⟩
      rw [hget]
      exact mark_used _ _)
    (fun s hs => h.backing.clear hfit.clear hs)
  have hkernel : ¬ PoolFlags.kernel = .user := by decide
  refine ⟨m', map', hinv, ⟨?_, ?_, honly.outside, ?_, honly.cr3, fun hle => (hall hle).2⟩, ?_,
    fun hle => (hall hle).1⟩
  · rw [honly.vaddr]
    exact harea
  · rw [honly.vaddr]
    exact hget
  · exact fun s f _ _ off _ => honly.high _ (by omega)
  · simp only [mallocPage, hassert, assert_true, ok_bind, hvaddr, if_neg hkernel, pure_eq_ok,
      Memory.setVaddrs, Memory.vaddrs, hloop, decide_eq_true_iff]

/-- **A call that finds a run of free pages** returns it if there are enough frames, and `NULL`
otherwise. -/
theorem getKernelPages_some (h : HeapInv (m.cr3 t) m map) (hpos : 0 < n.toNat)
    (hn : n.toNat < 3840) {start : Nat}
    (hscan : bitmapScan m.kernelVaddr.vaddrBitmap n.toNat = some start) :
    ∃ m' map', HeapInv (m.cr3 t) m' map' ∧ Allocated ⟨start, n.toNat⟩ m map m' map' ∧
      getKernelPages t n m = .ok
        (if n.toNat ≤ freeCount m.kernelPool.poolBitmap.get m.kernelPool.poolBitmap.size
          then heapAddr start else 0, m') ∧
      (n.toNat ≤ freeCount m.kernelPool.poolBitmap.get m.kernelPool.poolBitmap.size →
        Zeroed ⟨start, n.toNat⟩ m' map') := by
  have hfit := bitmapScan_spec m.kernelVaddr.vaddrBitmap hpos
  rw [hscan] at hfit
  have hstart : start < 0x10000 := by
    have hbound := hfit.bound
    have hsize := h.vaddrSize
    omega
  obtain ⟨m₁, map₁, hinv, halloc, hmalloc, hall⟩ := mallocPage_some h hpos hn hscan
  by_cases henough : n.toNat ≤ freeCount m.kernelPool.poolBitmap.get m.kernelPool.poolBitmap.size
  · -- the new pages are cleared
    have hcr3 : m₁.cr3 t = m.cr3 t := by rw [halloc.cr3]
    obtain ⟨ram', hmemset, hinv', hzero, hkeep⟩ := memset_run (hcr3 ▸ hinv) hn hstart (hall henough)
    rw [hcr3] at hinv'
    refine ⟨_, map₁, hinv', ⟨halloc.area, halloc.used, halloc.outside, ?_, halloc.cr3,
      halloc.frames⟩, ?_, fun _ => hzero⟩
    · intro s f hout hf off hoff
      exact (hkeep s f hout ((halloc.outside s hout).trans hf) off hoff).trans
        (halloc.contents s f hout hf off hoff)
    · rw [if_pos henough] at hmalloc ⊢
      simp only [getKernelPages, getPages, hmalloc, ok_bind, ne_eq, heapAddr_ne_zero hstart,
        not_false_eq_true, if_true, hmemset, pure_eq_ok]
  · refine ⟨m₁, map₁, hinv, halloc, ?_, fun hle => absurd hle henough⟩
    rw [if_neg henough] at hmalloc ⊢
    simp only [getKernelPages, getPages, hmalloc, ok_bind, ne_eq, not_true_eq_false, if_false,
      pure_eq_ok]

/-- A call that finds no run goes on with address 0: it returns if there is no frame either, and fails an
assertion of `page_table_add` otherwise. -/
theorem getKernelPages_none (h : HeapInv (m.cr3 t) m map) (hpos : 0 < n.toNat)
    (hn : n.toNat < 3840) (hscan : bitmapScan m.kernelVaddr.vaddrBitmap n.toNat = none) :
    getKernelPages t n m =
      if freeCount m.kernelPool.poolBitmap.get m.kernelPool.poolBitmap.size = 0 then .ok (0, m)
      else .error .pageTableAddVaddr := by
  have hassert : (n > 0 && n < 3840) = true := by
    rw [Bool.and_eq_true, decide_eq_true_iff, decide_eq_true_iff]
    exact ⟨UInt32.lt_iff_toNat_lt.mpr hpos, UInt32.lt_iff_toNat_lt.mpr hn⟩
  have hvaddr := @vaddrGet_none t .kernel n m hscan
  obtain ⟨k, hk⟩ := Nat.exists_eq_succ_of_ne_zero (Nat.pos_iff_ne_zero.mp hpos)
  have hzero : ((0 : UInt32) != 0) = false := rfl
  rcases palloc_spec m.kernelPool with ⟨hfull, hpalloc⟩ | ⟨f, btmp, hf, hfree, -, -, hpalloc⟩
  · rw [if_pos (freeCount_eq_zero hfull)]
    simp only [getKernelPages, getPages, mallocPage, hassert, assert_true, ok_bind, hvaddr, hk,
      Nat.succ_eq_add_one, mallocLoop, Memory.pool, hpalloc, Memory.setPool, if_true, pure_eq_ok,
      Bool.false_eq_true, if_false, ne_eq, not_true_eq_false]
  · have hcount := freeCount_mark hf hfree
    rw [if_neg (by omega)]
    simp only [getKernelPages, getPages, mallocPage, hassert, assert_true, ok_bind, hvaddr, hk,
      Nat.succ_eq_add_one, mallocLoop, Memory.pool, hpalloc, if_neg (h.pageAddr_ne_zero hf),
      pageTableAdd, hzero, assert_false, error_bind]

end Call

/-! ## Runs of calls -/

/-- The memory between two calls, and the blocks returned so far: their addresses and numbers of
pages, the newest first. -/
structure HeapRun where
  mem : Memory
  blocks : List (UInt32 × UInt32)

/-- An address of the kernel heap. -/
def HeapAddress (m : Memory) (vaddr : UInt32) : Prop :=
  kHeapStart.toNat ≤ vaddr.toNat ∧
    vaddr.toNat < kHeapStart.toNat + 0x1000 * m.kernelVaddr.vaddrBitmap.size

/-- After `mem_pool_init`, before the first call. -/
structure HeapStart (allMem : UInt32) (cr3 : Nat) (s : HeapRun) : Prop where
  pools : ∃ bytes, s.mem.toPools = memPoolInit allMem bytes
  tables : KernelTables cr3 s.mem.ram
  unmapped : ∀ vaddr, HeapAddress s.mem vaddr → translate cr3 s.mem.ram vaddr = .error .pageFault
  blocks : s.blocks = []

/-- Calls of `get_kernel_pages`, one after another. -/
def heapRuns (allMem : UInt32) (cr3 : Nat) : System HeapRun (Tid × UInt32) Panic where
  init := HeapStart allMem cr3
  step e s := some do
    let (a, m) ← getKernelPages e.1 e.2 s.mem
    return { mem := m, blocks := if a ≠ 0 then (a, e.2) :: s.blocks else s.blocks }

/-- The caller runs on the page directory at `cr3`. -/
def OnDirectory (cr3 : Nat) (s : HeapRun) (e : Tid × UInt32) : Prop := s.mem.cr3 e.1 = cr3

/-- What a call that returns the block of `n` pages at `a` promises, when `blocks` were returned
before. -/
structure NewBlock (cr3 : Nat) (m : Memory) (blocks : List (UInt32 × UInt32)) (a n : UInt32) :
    Prop where
  aligned : a.toNat % 0x1000 = 0
  inside : kHeapStart.toNat ≤ a.toNat ∧ a.toNat + 0x1000 * n.toNat ≤
    kHeapStart.toNat + 0x1000 * m.kernelVaddr.vaddrBitmap.size
  disjoint : ∀ b ∈ blocks, ∀ i, i < 0x1000 * n.toNat → ∀ j, j < 0x1000 * b.2.toNat →
    a.toNat + i ≠ b.1.toNat + j
  /-- A frame of `kernel_pool` in use, which is no page table and no part of one. -/
  backed : ∀ k, k < n.toNat → ∃ p, translate cr3 m.ram (a + UInt32.ofNat k * pgSize) = .ok p ∧
    p % 0x1000 = 0 ∧ m.kernelPool.phyAddrStart.toNat ≤ p ∧
    p < m.kernelPool.phyAddrStart.toNat + m.kernelPool.poolSize.toNat ∧
    m.kernelPool.poolBitmap.get ((p - m.kernelPool.phyAddrStart.toNat) / 0x1000) = true ∧
    p ≠ cr3 ∧ ∀ i, i < 0x400 → present (dirEntry cr3 m.ram i) = true → p ≠ frame (dirEntry cr3 m.ram i)
  /-- No other page of the heap has it, in the block or outside. -/
  exclusive : ∀ k, k < n.toNat → ∀ vaddr, HeapAddress m vaddr → vaddr.toNat % 0x1000 = 0 →
    vaddr ≠ a + UInt32.ofNat k * pgSize →
    translate cr3 m.ram vaddr ≠ translate cr3 m.ram (a + UInt32.ofNat k * pgSize)
  zero : ∀ i, i < 0x1000 * n.toNat → load8 cr3 m.ram (a + UInt32.ofNat i) = .ok 0

/-- The mapping and the contents of a block are the same in both memories. -/
def BlockKept (cr3 : Nat) (m m' : Memory) (b : UInt32 × UInt32) : Prop :=
  ∀ i, i < 0x1000 * b.2.toNat →
    translate cr3 m'.ram (b.1 + UInt32.ofNat i) = translate cr3 m.ram (b.1 + UInt32.ofNat i) ∧
    load8 cr3 m'.ram (b.1 + UInt32.ofNat i) = load8 cr3 m.ram (b.1 + UInt32.ofNat i)

/-- The block that a run of pages is. -/
def blockOf (r : Run) : UInt32 × UInt32 := (heapAddr r.start, UInt32.ofNat r.len)

/-- The returned blocks are runs in use, disjoint and mapped. -/
structure HeapBlocks (cr3 : Nat) (s : HeapRun) (map : Nat → Option Nat) (rs : List Run) : Prop where
  inv : HeapInv cr3 s.mem map
  owned : Owned s.mem.kernelVaddr.vaddrBitmap.get rs
  mapped : ∀ r ∈ rs, ∀ p ∈ r, ∃ f, map p = some f
  len : ∀ r ∈ rs, r.len < 3840
  blocks : s.blocks = rs.map blockOf

section Runs

variable {allMem : UInt32} {cr3 : Nat}

/-- The addresses of the heap are those of its pages. -/
theorem HeapAddress.page {m : Memory} {vaddr : UInt32} (h : HeapAddress m vaddr) :
    ∃ s, s < m.kernelVaddr.vaddrBitmap.size ∧
      vaddr.toNat = 0xc0100000 + 0x1000 * s + vaddr.toNat % 0x1000 := by
  have hstart : kHeapStart.toNat = 0xc0100000 := rfl
  obtain ⟨hlo, hhi⟩ := h
  rw [hstart] at hlo hhi
  exact ⟨(vaddr.toNat - 0xc0100000) / 0x1000, by omega, by omega⟩

/-- An address inside a block of mapped pages. -/
theorem HeapInv.block_addr {m : Memory} {map : Nat → Option Nat} (h : HeapInv cr3 m map) {r : Run}
    (hmapped : ∀ p ∈ r, ∃ f, map p = some f) (i : Nat) (hi : i < 0x1000 * r.len) :
    r.start + i / 0x1000 ∈ r ∧
      (heapAddr r.start + UInt32.ofNat i).toNat =
        0xc0100000 + 0x1000 * (r.start + i / 0x1000) + i % 0x1000 := by
  have hmem : r.start + i / 0x1000 ∈ r := Run.mem_iff.mpr ⟨Nat.le_add_right _ _,
    Nat.add_lt_add_left (Nat.div_lt_of_lt_mul hi) r.start⟩
  obtain ⟨f, hf⟩ := hmapped _ hmem
  have hbound := Nat.lt_trans (h.outside _ f hf) h.vaddrSize
  refine ⟨hmem, ?_⟩
  rw [UInt32.toNat_add, heapAddr_toNat (Nat.lt_of_le_of_lt (Nat.le_add_right _ _) hbound),
    UInt32.toNat_ofNat']
  omega

/-- A returned block, seen through its addresses. -/
theorem HeapInv.newBlock {m : Memory} {map : Nat → Option Nat} (h : HeapInv cr3 m map) {r : Run}
    {rs : List Run} (hzero : Zeroed r m map) (hlen : r.len < 3840) (hpos : 0 < r.len)
    (hdisjoint : ∀ r' ∈ rs, Run.Disjoint r r') (hlens : ∀ r' ∈ rs, r'.len < 3840)
    (hmapped : ∀ r' ∈ rs, ∀ p ∈ r', ∃ f, map p = some f) :
    NewBlock cr3 m (rs.map blockOf) (heapAddr r.start) (UInt32.ofNat r.len) := by
  have hself : ∀ p ∈ r, ∃ f, map p = some f := fun p hp => (hzero p hp).imp fun _ hf => hf.1
  have hn : (UInt32.ofNat r.len).toNat = r.len := by
    rw [UInt32.toNat_ofNat']
    omega
  have hheap : kHeapStart.toNat = 0xc0100000 := rfl
  have hpages := h.block_addr hself
  -- the last page bounds the others
  have hlast := hpages (0x1000 * (r.len - 1)) (by omega)
  obtain ⟨f₁, hf₁⟩ := hself _ hlast.1
  have hbound := h.outside _ f₁ hf₁
  have hsize := h.vaddrSize
  have haddr : (heapAddr r.start).toNat = 0xc0100000 + 0x1000 * r.start :=
    heapAddr_toNat (by omega)
  have hpageAddr : ∀ k, k < r.len → r.start + k ∈ r ∧
      (heapAddr r.start + UInt32.ofNat k * pgSize).toNat = 0xc0100000 + 0x1000 * (r.start + k) := by
    intro k hk
    have hmem : r.start + k ∈ r :=
      Run.mem_iff.mpr ⟨Nat.le_add_right _ _, Nat.add_lt_add_left hk r.start⟩
    refine ⟨hmem, ?_⟩
    rw [UInt32.toNat_add, UInt32.toNat_mul, haddr, UInt32.toNat_ofNat']
    show (0xc0100000 + 0x1000 * r.start + k % 2 ^ 32 * 0x1000 % 2 ^ 32) % 2 ^ 32 = _
    omega
  have htrans : ∀ k, k < r.len → ∃ f, map (r.start + k) = some f ∧
      translate cr3 m.ram (heapAddr r.start + UInt32.ofNat k * pgSize) =
        .ok (poolStart + 0x1000 * f) := by
    intro k hk
    obtain ⟨hmem, hk'⟩ := hpageAddr k hk
    obtain ⟨f, hf⟩ := hself _ hmem
    exact ⟨f, hf, h.translate_some hf (Nat.succ_pos 0xfff) hk'⟩
  refine ⟨?_, ?_, ?_, ?_, ?_, ?_⟩
  · omega
  · omega
  · intro b hb i hi j hj
    obtain ⟨r', hr', rfl⟩ := List.mem_map.mp hb
    have hn' : (UInt32.ofNat r'.len).toNat = r'.len := by
      have := hlens r' hr'
      rw [UInt32.toNat_ofNat']
      omega
    show (heapAddr r.start).toNat + i ≠ (heapAddr r'.start).toNat + j
    have hj' : j < 0x1000 * r'.len := hn' ▸ hj
    obtain ⟨hmem, -⟩ := hpages i (hn ▸ hi)
    obtain ⟨hmem', -⟩ := h.block_addr (hmapped r' hr') j hj'
    obtain ⟨f', hf'⟩ := hmapped r' hr' _ hmem'
    have haddr' : (heapAddr r'.start).toNat = 0xc0100000 + 0x1000 * r'.start := by
      have := h.outside _ f' hf'
      exact heapAddr_toNat (by omega)
    rw [haddr, haddr']
    intro heq
    have hpage : r.start + i / 0x1000 = r'.start + j / 0x1000 := by omega
    exact hdisjoint r' hr' _ hmem (hpage ▸ hmem')
  · intro k hk
    obtain ⟨f, hf, hok⟩ := htrans k (hn ▸ hk)
    have hframe := h.frame _ f hf
    have hpool := h.poolSize
    have hlow := h.tables.low
    have hphy := h.phyAddrStart
    have hdiv : (poolStart + 0x1000 * f - poolStart) / 0x1000 = f := by omega
    refine ⟨_, hok, by unfold poolStart; omega, by omega, by omega, ?_, by omega, ?_⟩
    · rw [hphy, hdiv]
      exact h.backing.taken hf
    · intro i hi hpresent
      by_cases heq : i = 1023
      · rw [heq, h.tables.recursive.frame]
        omega
      · have := h.tables.table_low i (by omega) hpresent
        omega
  · intro k hk vaddr hv halign hne
    obtain ⟨hmem, hk'⟩ := hpageAddr k (hn ▸ hk)
    obtain ⟨f, hf, hok⟩ := htrans k (hn ▸ hk)
    obtain ⟨s, hs, hs'⟩ := hv.page
    rw [halign] at hs'
    rw [hok]
    cases hmap : map s with
    | none => rw [h.translate_none hs hmap (Nat.succ_pos 0xfff) hs']; exact nofun
    | some f' =>
      rw [h.translate_some hmap (Nat.succ_pos 0xfff) hs']
      intro heq
      have hsame : f' = f := by
        have := Except.ok.inj heq
        omega
      -- the same frame would mean the same page
      have hpage := h.backing.inj hmap (hsame ▸ hf)
      exact hne (UInt32.toNat_inj.mp (by rw [hk', hs', hpage, Nat.add_zero]))
  · intro i hi
    obtain ⟨hmem, hi'⟩ := hpages i (hn ▸ hi)
    obtain ⟨f, hf, hbytes⟩ := hzero _ hmem
    rw [load8, h.translate_some hf (Nat.mod_lt i (by decide)) hi', ok_bind,
      hbytes _ (Nat.mod_lt i (by decide))]
    rfl

/-- A call that leaves the pages of a block alone keeps its mapping and its contents. -/
theorem Allocated.blockKept {m m' : Memory} {map map' : Nat → Option Nat} {r r' : Run}
    (h : HeapInv cr3 m map) (h' : HeapInv cr3 m' map') (halloc : Allocated r m map m' map')
    (hdisjoint : Run.Disjoint r r') (hlen : r'.len < 3840)
    (hmapped : ∀ p ∈ r', ∃ f, map p = some f) : BlockKept cr3 m m' (blockOf r') := by
  intro i hi
  have hn : (UInt32.ofNat r'.len).toNat = r'.len := by
    rw [UInt32.toNat_ofNat']
    omega
  obtain ⟨hmem, haddr⟩ := h.block_addr hmapped i (by rw [← hn]; exact hi)
  obtain ⟨f, hf⟩ := hmapped _ hmem
  have hout : r'.start + i / 0x1000 ∉ r := fun hr => hdisjoint _ hr hmem
  have hf' := (halloc.outside _ hout).trans hf
  have hoff := Nat.mod_lt i (show 0 < 0x1000 by decide)
  have hold := h.translate_some hf hoff haddr
  have hnew := h'.translate_some hf' hoff haddr
  show translate cr3 m'.ram (heapAddr r'.start + UInt32.ofNat i) =
      translate cr3 m.ram (heapAddr r'.start + UInt32.ofNat i) ∧
    load8 cr3 m'.ram (heapAddr r'.start + UInt32.ofNat i) =
      load8 cr3 m.ram (heapAddr r'.start + UInt32.ofNat i)
  rw [load8, load8, hold, hnew, ok_bind, ok_bind,
    halloc.contents _ f hout hf _ hoff]
  exact ⟨rfl, rfl⟩

/-- The pools that `mem_pool_init` makes, and page tables that map nothing in the heap. -/
theorem HeapStart.inv {s : HeapRun} (h : HeapStart allMem cr3 s) (hmem : 0x200000 ≤ allMem.toNat) :
    HeapBlocks cr3 s (fun _ => none) [] := by
  obtain ⟨bytes, hpools⟩ := h.pools
  have hkernel : s.mem.kernelPool = (memPoolInit allMem bytes).kernelPool := by rw [hpools]
  have hvaddr : s.mem.kernelVaddr = (memPoolInit allMem bytes).kernelVaddr := by rw [hpools]
  have hbytes := memPoolInit_kernel hmem bytes
  obtain ⟨hlen, -, -, -⟩ := memPoolInit_addr bytes hmem 0
  have hsize : s.mem.kernelVaddr.vaddrBitmap.size = 8 * (freePages allMem / 2 % 65536 / 8) := by
    rw [hvaddr, Bitmap.size, hlen, hbytes]
  have hpoolSize : s.mem.kernelPool.poolBitmap.size = 8 * (freePages allMem / 2 % 65536 / 8) := by
    rw [hkernel, Bitmap.size, hbytes]
  refine ⟨⟨h.tables, ?_, ?_, ?_, ?_, ?_, ?_, by simp, by simp, .empty _ _⟩, .nil _, by simp,
    by simp, h.blocks⟩
  · rw [hvaddr]
    rfl
  · omega
  · rw [hkernel]
    rfl
  · rw [hkernel, memPoolInit_poolSize hmem bytes, ← hkernel, hpoolSize]
    omega
  · omega
  · intro p hp
    have hlt : p < 0x10000 := by omega
    have haddr := heapAddr_toNat hlt
    have hheap : HeapAddress s.mem (heapAddr p) := by
      show 0xc0100000 ≤ _ ∧ _ < 0xc0100000 + _
      omega
    have htrans := h.unmapped _ hheap
    obtain ⟨hdir, htable, -⟩ := heap_fields (Nat.succ_pos 0xfff) haddr
    -- the directory entry is present, so it is the table entry that is not
    show present (tableEntry cr3 s.mem.ram (heapDir p) (heapSlot p)) = false
    rw [← hdir, ← htable, Bool.eq_false_iff]
    intro hpresent
    rw [translate_eq (hdir ▸ h.tables.heap_present hlt) hpresent] at htrans
    cases htrans

/-- What one call does to the blocks. -/
theorem HeapBlocks.call {s : HeapRun} {map : Nat → Option Nat} {rs : List Run} {t : Tid}
    {n a : UInt32} {m' : Memory} (h : HeapBlocks cr3 s map rs) (ht : s.mem.cr3 t = cr3)
    (hret : getKernelPages t n s.mem = .ok (a, m')) :
    ∃ map' rs', HeapBlocks cr3
        { mem := m', blocks := if a ≠ 0 then (a, n) :: s.blocks else s.blocks } map' rs' ∧
      (a ≠ 0 → NewBlock cr3 m' s.blocks a n) ∧ ∀ b ∈ s.blocks, BlockKept cr3 s.mem m' b := by
  have hassert : (n > 0 && n < 3840) = true := by
    by_contra hne
    rw [Bool.not_eq_true] at hne
    simp only [getKernelPages, getPages, mallocPage, hne, assert_false, error_bind] at hret
    cases hret
  rw [Bool.and_eq_true, decide_eq_true_iff, decide_eq_true_iff] at hassert
  have hpos : 0 < n.toNat := UInt32.lt_iff_toNat_lt.mp hassert.1
  have hn : n.toNat < 3840 := UInt32.lt_iff_toNat_lt.mp hassert.2
  subst ht
  cases hscan : bitmapScan s.mem.kernelVaddr.vaddrBitmap n.toNat with
  | none =>
    rw [getKernelPages_none h.inv hpos hn hscan] at hret
    split at hret
    · cases hret
      exact ⟨map, rs, h, fun hne => absurd rfl hne, fun b _ i _ => ⟨rfl, rfl⟩⟩
    · cases hret
  | some start =>
    have hfit := bitmapScan_spec s.mem.kernelVaddr.vaddrBitmap hpos
    rw [hscan] at hfit
    obtain ⟨m₁, map', hinv, halloc, hcall, hzero⟩ := getKernelPages_some h.inv hpos hn hscan
    rw [hcall] at hret
    have hdisjoint : ∀ r ∈ rs, Run.Disjoint ⟨start, n.toNat⟩ r :=
      fun r hr => hfit.clear.disjoint (h.owned.used r hr)
    have hold : ∀ r ∈ rs, ∀ p ∈ r, ∃ f, map' p = some f := by
      intro r hr p hp
      obtain ⟨f, hf⟩ := h.mapped r hr p hp
      exact ⟨f, (halloc.outside p fun hnew => hdisjoint r hr p hnew hp).trans hf⟩
    have howned := h.owned.take hfit.clear
    rw [← halloc.used] at howned
    have hkept : ∀ b ∈ s.blocks, BlockKept (s.mem.cr3 t) s.mem m₁ b := by
      intro b hb
      rw [h.blocks] at hb
      obtain ⟨r, hr, rfl⟩ := List.mem_map.mp hb
      exact halloc.blockKept h.inv hinv (hdisjoint r hr) (h.len r hr) (h.mapped r hr)
    by_cases henough :
      n.toNat ≤ freeCount s.mem.kernelPool.poolBitmap.get s.mem.kernelPool.poolBitmap.size
    · rw [if_pos henough] at hret
      cases hret
      have hstart : start < 0x10000 := by
        have hbound := hfit.bound
        have hsize := h.inv.vaddrSize
        omega
      have hne := heapAddr_ne_zero hstart
      have hnew := hinv.newBlock (hzero henough) hn hpos hdisjoint h.len hold
      rw [← h.blocks, UInt32.ofNat_toNat] at hnew
      refine ⟨map', ⟨start, n.toNat⟩ :: rs, ⟨hinv, howned, ?_, ?_, ?_⟩, fun _ => hnew, hkept⟩
      · intro r hr p hp
        rcases List.mem_cons.mp hr with rfl | hr
        · exact (hzero henough p hp).imp fun _ hf => hf.1
        · exact hold r hr p hp
      · intro r hr
        rcases List.mem_cons.mp hr with rfl | hr
        · exact hn
        · exact h.len r hr
      · rw [if_pos hne, List.map_cons, ← h.blocks, blockOf, UInt32.ofNat_toNat]
    · rw [if_neg henough] at hret
      cases hret
      refine ⟨map', rs, ⟨hinv, ?_, hold, h.len, ?_⟩, fun hne => absurd rfl hne, hkept⟩
      · exact ⟨fun r hr => howned.used r (List.mem_cons_of_mem _ hr), h.owned.disjoint⟩
      · simp only [ne_eq, not_true_eq_false, if_false]
        exact h.blocks

/-- The blocks of a whole run. -/
theorem heapRuns_blocks (hmem : 0x200000 ≤ allMem.toNat) {s : HeapRun}
    (hs : (heapRuns allMem cr3).Reach (OnDirectory cr3) s) :
    ∃ map rs, HeapBlocks cr3 s map rs := by
  refine @System.Reach.invariant _ _ _ (heapRuns allMem cr3) (OnDirectory cr3)
    (fun s => ∃ map rs, HeapBlocks cr3 s map rs) ?_ ?_ s hs
  · exact fun s hinit => ⟨_, _, hinit.inv hmem⟩
  · intro s e s' _ ⟨map, rs, h⟩ hguard hstep
    obtain ⟨⟨a, m'⟩, hret, hs'⟩ := bind_eq_ok.mp (Option.some.inj hstep)
    cases hs'
    obtain ⟨map', rs', h', -, -⟩ := h.call hguard hret
    exact ⟨map', rs', h'⟩

/-- **Kernel pages.** In every run of calls of `get_kernel_pages`, a call that returns a block
returns new zeroed memory with frames of its own, and no call touches a block returned before. -/
theorem kernelPages_sound (hmem : 0x200000 ≤ allMem.toNat) {s : HeapRun}
    (hs : (heapRuns allMem cr3).Reach (OnDirectory cr3) s) {t : Tid} (ht : s.mem.cr3 t = cr3)
    {n a : UInt32} {m' : Memory} (hret : getKernelPages t n s.mem = .ok (a, m')) :
    (a ≠ 0 → NewBlock cr3 m' s.blocks a n) ∧ ∀ b ∈ s.blocks, BlockKept cr3 s.mem m' b := by
  obtain ⟨map, rs, h⟩ := heapRuns_blocks hmem hs
  obtain ⟨_, _, -, hnew, hkept⟩ := h.call ht hret
  exact ⟨hnew, hkept⟩

end Runs

/-! ## When a call returns -/

/-- The pools can serve `n` pages: there is a run of free pages and there are frames for it. -/
structure Serves (m : Memory) (n : Nat) : Prop where
  pages : ∃ start, start + n ≤ m.kernelVaddr.vaddrBitmap.size ∧
    Run.Clear m.kernelVaddr.vaddrBitmap.get ⟨start, n⟩
  frames : n ≤ freeCount m.kernelPool.poolBitmap.get m.kernelPool.poolBitmap.size

/-- The call returns a block of free pages when it can be served, and `NULL` when it cannot; and
without a run of pages it takes no frame. -/
def CallReturns (t : Tid) (n : UInt32) (m : Memory) : Prop :=
  ∃ a m', getKernelPages t n m = .ok (a, m') ∧
    (Serves m n.toNat → ∃ start, start + n.toNat ≤ m.kernelVaddr.vaddrBitmap.size ∧
      Run.Clear m.kernelVaddr.vaddrBitmap.get ⟨start, n.toNat⟩ ∧ a = heapAddr start ∧ a ≠ 0) ∧
    (¬ Serves m n.toNat → a = 0) ∧
    ((¬ ∃ start, start + n.toNat ≤ m.kernelVaddr.vaddrBitmap.size ∧
      Run.Clear m.kernelVaddr.vaddrBitmap.get ⟨start, n.toNat⟩) →
        m'.kernelPool.poolBitmap.get = m.kernelPool.poolBitmap.get)

section Returns

variable {allMem : UInt32} {cr3 : Nat} {t : Tid} {n : UInt32} {m : Memory} {map : Nat → Option Nat}

/-- The scan finds a run if there is one. -/
theorem bitmapScan_eq_none_iff (btmp : Bitmap) {cnt : Nat} (hcnt : 0 < cnt) :
    bitmapScan btmp cnt = none ↔
      ¬ ∃ start, start + cnt ≤ btmp.size ∧ Run.Clear btmp.get ⟨start, cnt⟩ := by
  have hfit := bitmapScan_spec btmp hcnt
  cases hscan : bitmapScan btmp cnt with
  | none =>
    rw [hscan] at hfit
    refine ⟨fun _ ⟨start, hbound, hclear⟩ => hfit start hbound hclear, fun _ => rfl⟩
  | some start =>
    rw [hscan] at hfit
    exact ⟨nofun, fun hnone => absurd ⟨start, hfit.bound, hfit.clear⟩ hnone⟩

/-- With a run of pages the call returns. -/
theorem HeapInv.returns_some (h : HeapInv (m.cr3 t) m map) (hpos : 0 < n.toNat)
    (hn : n.toNat < 3840) {start : Nat}
    (hscan : bitmapScan m.kernelVaddr.vaddrBitmap n.toNat = some start) : CallReturns t n m := by
  have hfit := bitmapScan_spec m.kernelVaddr.vaddrBitmap hpos
  rw [hscan] at hfit
  have hrun : ∃ start, start + n.toNat ≤ m.kernelVaddr.vaddrBitmap.size ∧
      Run.Clear m.kernelVaddr.vaddrBitmap.get ⟨start, n.toNat⟩ := ⟨start, hfit.bound, hfit.clear⟩
  obtain ⟨m', _, -, -, hcall, -⟩ := getKernelPages_some h hpos hn hscan
  refine ⟨_, m', hcall, fun hserves => ?_, fun hnot => ?_, fun hnone => absurd hrun hnone⟩
  · rw [if_pos hserves.frames]
    have hbound := hfit.bound
    have hsize := h.vaddrSize
    exact ⟨start, hfit.bound, hfit.clear, rfl, heapAddr_ne_zero (by omega)⟩
  · rw [if_neg fun henough => hnot ⟨hrun, henough⟩]

/-- **When a call returns.** In every run a call does what it is meant to do, unless there is no run
of free pages while a frame is free. -/
theorem kernelPages_return_iff (hmem : 0x200000 ≤ allMem.toNat) {s : HeapRun}
    (hs : (heapRuns allMem cr3).Reach (OnDirectory cr3) s) (ht : s.mem.cr3 t = cr3)
    (hpos : 0 < n.toNat) (hn : n.toNat < 3840) :
    CallReturns t n s.mem ↔
      (∃ start, start + n.toNat ≤ s.mem.kernelVaddr.vaddrBitmap.size ∧
        Run.Clear s.mem.kernelVaddr.vaddrBitmap.get ⟨start, n.toNat⟩) ∨
      ∀ f, f < s.mem.kernelPool.poolBitmap.size → s.mem.kernelPool.poolBitmap.get f = true := by
  obtain ⟨map, rs, hblocks⟩ := heapRuns_blocks hmem hs
  have h := hblocks.inv
  subst ht
  cases hscan : bitmapScan s.mem.kernelVaddr.vaddrBitmap n.toNat with
  | some start =>
    have hrun := (not_congr (bitmapScan_eq_none_iff s.mem.kernelVaddr.vaddrBitmap hpos)).mp
      (by rw [hscan]; exact nofun)
    exact iff_of_true (h.returns_some hpos hn hscan) (Or.inl (not_not.mp hrun))
  | none =>
    have hrun := (bitmapScan_eq_none_iff _ hpos).mp hscan
    have hcall := getKernelPages_none h hpos hn hscan
    by_cases hcount : freeCount s.mem.kernelPool.poolBitmap.get s.mem.kernelPool.poolBitmap.size = 0
    · rw [if_pos hcount] at hcall
      refine iff_of_true ⟨0, s.mem, hcall, fun hserves => absurd hserves.pages hrun,
        fun _ => rfl, fun _ => rfl⟩ (Or.inr fun f hf => ?_)
      by_contra hfree
      have := freeCount_mark hf (Bool.eq_false_iff.mpr hfree)
      omega
    · rw [if_neg hcount] at hcall
      refine iff_of_false ?_ ?_
      · intro ⟨a, m', hret, _⟩
        rw [hcall] at hret
        cases hret
      · intro hor
        exact hcount (freeCount_eq_zero (hor.resolve_left hrun))

end Returns

/-! ## A machine right after mem_init -/

/-- The kernel after `mem_init`, on memory that was zero before. -/
def bootedHeap (allMem : UInt32) : HeapRun where
  mem := { memPoolInit allMem (fun _ => 0) with
    userprogVaddr := fun _ => ⟨⟨0, 0, fun _ => 0⟩, 0⟩
    pgdir := fun _ => 0
    cr3 := fun _ => pageDirTablePos
    ram := setupPage fun _ => 0 }
  blocks := []

theorem bootedHeap_ram (allMem : UInt32) : (bootedHeap allMem).mem.ram = setupPage fun _ => 0 := by
  simp only [bootedHeap]

/-- The heap is below the recursive window. -/
theorem heapAddress_lt {allMem : UInt32} (hmem : 0x200000 ≤ allMem.toNat) {vaddr : UInt32}
    (h : HeapAddress (bootedHeap allMem).mem vaddr) :
    0xc0100000 ≤ vaddr.toNat ∧ vaddr.toNat < 0xffc00000 := by
  obtain ⟨hlo, hhi⟩ := h
  have hstart : kHeapStart.toNat = 0xc0100000 := rfl
  have hsize : (bootedHeap allMem).mem.kernelVaddr.vaddrBitmap.size =
      8 * (memPoolInit allMem fun _ => 0).kernelPool.poolBitmap.btmpBytesLen.toNat := rfl
  rw [hsize, memPoolInit_kernel hmem] at hhi
  omega

theorem bootedHeap_start {allMem : UInt32} (hmem : 0x200000 ≤ allMem.toNat) :
    HeapStart allMem pageDirTablePos (bootedHeap allMem) := by
  have hspace : InitialSpace (setupPage fun _ => 0) := TablesClear.initialSpace fun _ _ _ _ => rfl
  rw [← bootedHeap_ram allMem] at hspace
  refine ⟨⟨fun _ => 0, rfl⟩, ?_, fun vaddr hv => ?_, rfl⟩
  · rw [bootedHeap_ram]
    exact setupPage_tables fun _ => 0
  obtain ⟨hlo, hhi⟩ := heapAddress_lt hmem hv
  exact hspace.absent vaddr (by omega) (Or.inr hlo) hhi

/-- The heap has been used up to the page `k`, and `n` frames are free. -/
structure HeapRoom (cr3 k n : Nat) (m : Memory) : Prop where
  heap : ∃ map, HeapInv cr3 m map
  size : m.kernelVaddr.vaddrBitmap.size = 256
  clear : ∀ i, k ≤ i → i < 256 → m.kernelVaddr.vaddrBitmap.get i = false
  frames : freeCount m.kernelPool.poolBitmap.get m.kernelPool.poolBitmap.size = n

/-- There are pages and frames for a call. -/
theorem HeapRoom.getKernelPages {t : Tid} {k n : Nat} {m : Memory} {c : UInt32}
    (h : HeapRoom (m.cr3 t) k n m) (hpos : 0 < c.toNat) (hk : k + c.toNat ≤ 256) (hn : c.toNat ≤ n) :
    ∃ a m', getKernelPages t c m = .ok (a, m') ∧ a ≠ 0 ∧ m'.cr3 = m.cr3 ∧
      HeapRoom (m.cr3 t) (k + c.toNat) (n - c.toNat) m' := by
  obtain ⟨⟨map, hinv⟩, hsize, hclear, hframes⟩ := h
  have hrun : Run.Clear m.kernelVaddr.vaddrBitmap.get ⟨k, c.toNat⟩ := by
    intro i hi
    exact hclear i hi.1 (Nat.lt_of_lt_of_le hi.2 hk)
  have hfit := bitmapScan_spec m.kernelVaddr.vaddrBitmap hpos
  cases hscan : bitmapScan m.kernelVaddr.vaddrBitmap c.toNat with
  | none => exact absurd ⟨k, by omega, hrun⟩ ((bitmapScan_eq_none_iff _ hpos).mp hscan)
  | some start =>
    rw [hscan] at hfit
    have hle : start ≤ k := Nat.not_lt.mp fun hlt => hfit.first k hlt hrun
    have hbound := hfit.bound
    obtain ⟨m', map', hinv', halloc, hcall, -⟩ := getKernelPages_some hinv hpos (by omega) hscan
    rw [hframes, if_pos hn] at hcall
    have hleft : freeCount m'.kernelPool.poolBitmap.get m'.kernelPool.poolBitmap.size + c.toNat = n :=
      (halloc.frames (by rw [hframes]; exact hn)).trans hframes
    refine ⟨_, m', hcall, heapAddr_ne_zero (by omega), halloc.cr3, ⟨map', hinv'⟩,
      halloc.area.size.trans hsize, fun i hi hlt => ?_, by omega⟩
    rw [halloc.used, mark, hclear i (by omega) hlt, Bool.false_or, decide_eq_false_iff_not]
    intro hmem
    have hend : i < start + c.toNat := hmem.2
    omega

theorem bootedHeap_room : HeapRoom pageDirTablePos 0 256 (bootedHeap 0x400000).mem where
  heap := ⟨_, ((bootedHeap_start (by decide)).inv (by decide)).inv⟩
  size := rfl
  clear _ _ hi := bitmapInit_get _ hi
  frames := freeCount_eq_total fun i (hi : i < 256) => bitmapInit_get _ hi

/-- The second block on a machine with 4 MB, two pages beside one. -/
theorem kernelPages_sound_second : ∃ b m a m',
    getKernelPages 0 1 (bootedHeap 0x400000).mem = .ok (b, m) ∧ b ≠ 0 ∧
    getKernelPages 0 2 m = .ok (a, m') ∧ NewBlock pageDirTablePos m' [(b, 1)] a 2 ∧
    BlockKept pageDirTablePos m m' (b, 1) := by
  have hstart : HeapStart 0x400000 pageDirTablePos (bootedHeap 0x400000) :=
    bootedHeap_start (by decide)
  obtain ⟨b, m, hfirst, hb, hcr3, hroom⟩ := @HeapRoom.getKernelPages 0 0 256
    (bootedHeap 0x400000).mem 1 bootedHeap_room (by decide) (by decide) (by decide)
  have ht : m.cr3 0 = pageDirTablePos := by rw [hcr3]; rfl
  have hroom' : HeapRoom (m.cr3 0) 1 255 m := by rw [ht]; exact hroom
  obtain ⟨a, m', hsecond, ha, -, -⟩ := @HeapRoom.getKernelPages 0 1 255 m 2 hroom' (by decide)
    (by decide) (by decide)
  have hstep : (heapRuns 0x400000 pageDirTablePos).step (0, 1) (bootedHeap 0x400000) =
      some (.ok ⟨m, [(b, 1)]⟩) := by
    show some (do
      let (a, m) ← getKernelPages 0 1 (bootedHeap 0x400000).mem
      return (⟨m, if a ≠ 0 then (a, 1) :: [] else []⟩ : HeapRun)) = _
    rw [hfirst, ok_bind]
    simp only [if_pos hb, pure_eq_ok]
  have hsound := kernelPages_sound (s := ⟨m, [(b, 1)]⟩) (by decide) (.step (.init hstart) rfl hstep) ht
    hsecond
  exact ⟨b, m, a, m', hfirst, hb, hsecond, hsound.1 ha, hsound.2 _ List.mem_cons_self⟩

/-- The same machine, where a call is told in advance that it returns. -/
theorem kernelPages_return_first : CallReturns 0 2 (bootedHeap 0x400000).mem :=
  (kernelPages_return_iff (by decide) (.init (bootedHeap_start (by decide))) rfl (by decide)
    (by decide)).mpr (Or.inl ⟨0, by decide, fun i hi => bootedHeap_room.clear i hi.1
      (Nat.lt_of_lt_of_le hi.2 (by decide))⟩)

/-- With eight pages and eight frames, a first call for nine pages ends in `page_table_add`. -/
theorem kernelPages_panic :
    HeapStart 0x210000 pageDirTablePos (bootedHeap 0x210000) ∧
      ¬ CallReturns 0 9 (bootedHeap 0x210000).mem := by
  refine ⟨bootedHeap_start (by decide), ?_⟩
  intro ⟨a, m', hret, _⟩
  have hpanic : getKernelPages 0 9 (bootedHeap 0x210000).mem = .error .pageTableAddVaddr := rfl
  rw [hpanic] at hret
  cases hret

end OsKernel
