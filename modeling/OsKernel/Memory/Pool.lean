import OsKernel.Memory.Bitmap

/-!
# kernel/memory.c: the pools

`mem_pool_init` divides the memory above 2 MB between the kernel and the users, and lays out three
bitmaps one behind the other from `MEM_BITMAP_BASE` on. Page numbers are kept in 16 bits.

- `memPoolInit`, with `memPoolInit_kernel`, `memPoolInit_user` and so on: the sizes it computes.
- `BitmapsFit`: the bitmaps stay in the four pages below the main thread's PCB.
- `bitmapsFit_iff`: for which memory sizes they do.
-/

namespace OsKernel

open Lib

/-! ## The data -/

/-- `PG_SIZE` -/
def pgSize : UInt32 := 4096

/-- `MEM_BITMAP_BASE` -/
def memBitmapBase : UInt32 := 0xc009a000

/-- `K_HEAP_START` -/
def kHeapStart : UInt32 := 0xc0100000

/-- `struct pool` without its lock, which the kernel keeps. -/
structure Pool where
  poolBitmap : Bitmap
  phyAddrStart : UInt32
  poolSize : UInt32

/-- `struct virtual_addr` -/
structure VirtualAddr where
  vaddrBitmap : Bitmap
  vaddrStart : UInt32

/-- `kernel_pool`, `user_pool` and `kernel_vaddr`. -/
structure Pools where
  kernelPool : Pool
  userPool : Pool
  kernelVaddr : VirtualAddr

/-- `mem_pool_init`; `bytes` is what the memory under the bitmaps held before. -/
def memPoolInit (allMem : UInt32) (bytes : Nat → UInt8) : Pools :=
  let pageTableSize := pgSize * 256
  let usedMem := pageTableSize + 0x100000
  let freeMem := allMem - usedMem
  let allFreePages := freeMem / pgSize
  let kernelFreePages : UInt16 := (allFreePages / 2).toUInt16
  let userFreePages : UInt16 := (allFreePages - kernelFreePages.toUInt32).toUInt16
  let kbmLength := (kernelFreePages / 8).toUInt32
  let ubmLength := (userFreePages / 8).toUInt32
  let kpStart := usedMem
  let upStart := kpStart + kernelFreePages.toUInt32 * pgSize
  { kernelPool := {
      poolBitmap := bitmapInit { btmpBytesLen := kbmLength, bits := memBitmapBase, bytes := bytes }
      phyAddrStart := kpStart
      poolSize := kernelFreePages.toUInt32 * pgSize }
    userPool := {
      poolBitmap := bitmapInit
        { btmpBytesLen := ubmLength, bits := memBitmapBase + kbmLength, bytes := bytes }
      phyAddrStart := upStart
      poolSize := userFreePages.toUInt32 * pgSize }
    kernelVaddr := {
      vaddrBitmap := bitmapInit
        { btmpBytesLen := kbmLength, bits := memBitmapBase + kbmLength + ubmLength, bytes := bytes }
      vaddrStart := kHeapStart } }

/-! ## The sizes -/

/-- Pages above 2 MB. -/
def freePages (allMem : UInt32) : Nat := (allMem.toNat - 0x200000) / 4096

section

variable {allMem : UInt32} (h : 0x200000 ≤ allMem.toNat) (bytes : Nat → UInt8)
include h

private theorem allFreePages_toNat :
    ((allMem - (pgSize * 256 + 0x100000)) / pgSize).toNat = freePages allMem := by
  have hused : pgSize * 256 + 0x100000 = 0x200000 := rfl
  have hle : (0x200000 : UInt32) ≤ allMem := UInt32.le_iff_toNat_le.mpr h
  rw [hused, UInt32.toNat_div, UInt32.toNat_sub_of_le _ _ hle]
  rfl

private theorem kernelFreePages_toNat :
    (((allMem - (pgSize * 256 + 0x100000)) / pgSize) / 2).toUInt16.toNat =
      freePages allMem / 2 % 65536 := by
  rw [UInt32.toNat_toUInt16, UInt32.toNat_div, allFreePages_toNat h]
  rfl

/-- The bytes of the kernel's two bitmaps. -/
theorem memPoolInit_kernel :
    (memPoolInit allMem bytes).kernelPool.poolBitmap.btmpBytesLen.toNat =
      freePages allMem / 2 % 65536 / 8 := by
  show ((((allMem - (pgSize * 256 + 0x100000)) / pgSize) / 2).toUInt16 / 8).toUInt32.toNat = _
  rw [UInt16.toNat_toUInt32, UInt16.toNat_div, kernelFreePages_toNat h]
  rfl

theorem memPoolInit_poolSize :
    (memPoolInit allMem bytes).kernelPool.poolSize.toNat =
      0x1000 * (freePages allMem / 2 % 65536) := by
  show ((((allMem - (pgSize * 256 + 0x100000)) / pgSize) / 2).toUInt16.toUInt32 * pgSize).toNat = _
  rw [UInt32.toNat_mul, UInt16.toNat_toUInt32, kernelFreePages_toNat h]
  show freePages allMem / 2 % 65536 * 0x1000 % 2 ^ 32 = _
  omega

/-- The users' frames begin behind the kernel's. -/
theorem memPoolInit_userStart :
    (memPoolInit allMem bytes).userPool.phyAddrStart.toNat =
      0x200000 + 0x1000 * (freePages allMem / 2 % 65536) := by
  have hpoolSize := memPoolInit_poolSize h bytes
  have hkernel : (memPoolInit allMem bytes).kernelPool.poolSize =
      (((allMem - (pgSize * 256 + 0x100000)) / pgSize) / 2).toUInt16.toUInt32 * pgSize := rfl
  have hused : (pgSize * 256 + 0x100000 : UInt32).toNat = 0x200000 := rfl
  show (pgSize * 256 + 0x100000 +
    (((allMem - (pgSize * 256 + 0x100000)) / pgSize) / 2).toUInt16.toUInt32 * pgSize).toNat = _
  rw [← hkernel, UInt32.toNat_add, hused, hpoolSize]
  omega

/-- The bytes of the users' bitmap. -/
theorem memPoolInit_user :
    (memPoolInit allMem bytes).userPool.poolBitmap.btmpBytesLen.toNat =
      (freePages allMem - freePages allMem / 2 % 65536) % 65536 / 8 := by
  have hle : (((allMem - (pgSize * 256 + 0x100000)) / pgSize) / 2).toUInt16.toUInt32 ≤
      (allMem - (pgSize * 256 + 0x100000)) / pgSize := by
    rw [UInt32.le_iff_toNat_le, UInt16.toNat_toUInt32, kernelFreePages_toNat h, allFreePages_toNat h]
    omega
  show (((allMem - (pgSize * 256 + 0x100000)) / pgSize -
    (((allMem - (pgSize * 256 + 0x100000)) / pgSize) / 2).toUInt16.toUInt32).toUInt16 /
      8).toUInt32.toNat = _
  rw [UInt16.toNat_toUInt32, UInt16.toNat_div, UInt32.toNat_toUInt16, UInt32.toNat_sub_of_le _ _ hle,
    UInt16.toNat_toUInt32, kernelFreePages_toNat h, allFreePages_toNat h]
  rfl

end

/-! ## Where the bitmaps lie -/

/-- The address of a byte of a bitmap. -/
def Bitmap.addr (btmp : Bitmap) (i : Nat) : Nat := btmp.bits.toNat + i

/-- The three bitmaps, in the order of their addresses. -/
def Pools.bitmaps (p : Pools) : List Bitmap :=
  [p.kernelPool.poolBitmap, p.userPool.poolBitmap, p.kernelVaddr.vaddrBitmap]

/-- The bitmaps are disjoint and lie in the area reserved for them, so that neither `bitmap_init`,
which writes every byte of a bitmap, nor a later `bitmap_set` on one of them writes to the page at
`0xc009e000`. -/
structure BitmapsFit (p : Pools) : Prop where
  disjoint : p.bitmaps.Pairwise fun b b' =>
    ∀ i j, i < b.btmpBytesLen.toNat → j < b'.btmpBytesLen.toNat → b.addr i ≠ b'.addr j
  reserved : ∀ b ∈ p.bitmaps, ∀ i, i < b.btmpBytesLen.toNat →
    0xc009a000 ≤ b.addr i ∧ b.addr i < 0xc009e000
  set_outside : ∀ b ∈ p.bitmaps, ∀ b₁ b₂ bitIdx val, SameArea b b₁ →
    bitmapSet b₁ bitIdx val = .ok b₂ → b.addr (bitIdx / 8) < 0xc009e000

/-- The byte that `bitmap_set` writes belongs to the bitmap. -/
theorem bitmapSet_inside {btmp btmp' : Bitmap} {bitIdx : Nat} {val : UInt8}
    (h : bitmapSet btmp bitIdx val = .ok btmp') : bitIdx / 8 < btmp.btmpBytesLen.toNat := by
  obtain ⟨_, -, h⟩ := bind_eq_ok.mp h
  obtain ⟨_, hassert, -⟩ := bind_eq_ok.mp h
  by_contra hge
  rw [decide_eq_false hge] at hassert
  cases hassert

section Layout

variable {allMem : UInt32} {bytes : Nat → UInt8}

/-- The bitmaps follow one another from `MEM_BITMAP_BASE` on. -/
theorem memPoolInit_addr (bytes : Nat → UInt8) (h : 0x200000 ≤ allMem.toNat) (i : Nat) :
    let p := memPoolInit allMem bytes
    let kbm := p.kernelPool.poolBitmap.btmpBytesLen.toNat
    let ubm := p.userPool.poolBitmap.btmpBytesLen.toNat
    p.kernelVaddr.vaddrBitmap.btmpBytesLen.toNat = kbm ∧
    p.kernelPool.poolBitmap.addr i = 0xc009a000 + i ∧
    p.userPool.poolBitmap.addr i = 0xc009a000 + kbm + i ∧
    p.kernelVaddr.vaddrBitmap.addr i = 0xc009a000 + kbm + ubm + i := by
  intro p kbm ubm
  have hkbm : kbm = freePages allMem / 2 % 65536 / 8 := memPoolInit_kernel h bytes
  have hubm : ubm = (freePages allMem - freePages allMem / 2 % 65536) % 65536 / 8 :=
    memPoolInit_user h bytes
  have hbase : memBitmapBase.toNat = 0xc009a000 := rfl
  have huser : (memBitmapBase + p.kernelPool.poolBitmap.btmpBytesLen).toNat =
      0xc009a000 + kbm := by
    rw [UInt32.toNat_add, hbase]
    show (0xc009a000 + kbm) % 2 ^ 32 = _
    omega
  refine ⟨rfl, rfl, ?_, ?_⟩
  · show (memBitmapBase + p.kernelPool.poolBitmap.btmpBytesLen).toNat + i = _
    rw [huser]
  · show (memBitmapBase + p.kernelPool.poolBitmap.btmpBytesLen +
      p.userPool.poolBitmap.btmpBytesLen).toNat + i = _
    rw [UInt32.toNat_add, huser]
    show (0xc009a000 + kbm + ubm) % 2 ^ 32 + i = _
    omega

/-- **The bitmaps fit** exactly up to a memory size of `0x15760000`, about 343 MB. -/
theorem bitmapsFit_iff (h : 0x200000 ≤ allMem.toNat) (hmax : allMem.toNat ≤ 0x20000000) :
    BitmapsFit (memPoolInit allMem bytes) ↔ allMem.toNat < 0x15760000 := by
  have hkbm := memPoolInit_kernel h bytes
  have hubm := memPoolInit_user h bytes
  obtain ⟨hvaddr, -, -, -⟩ := memPoolInit_addr bytes h 0
  have haddr := fun i => (memPoolInit_addr bytes h i).2
  have hpages : freePages allMem = (allMem.toNat - 0x200000) / 4096 := rfl
  constructor
  · intro hfit
    by_contra hge
    -- the last byte of the third bitmap is in the main thread's page
    have hlast : 0 < (memPoolInit allMem bytes).kernelPool.poolBitmap.btmpBytesLen.toNat := by omega
    have := (hfit.reserved (memPoolInit allMem bytes).kernelVaddr.vaddrBitmap
      (by simp [Pools.bitmaps]) ((memPoolInit allMem bytes).kernelPool.poolBitmap.btmpBytesLen.toNat - 1)
      (by omega)).2
    rw [(haddr _).2.2] at this
    omega
  · intro hlt
    have hreserved : ∀ b ∈ (memPoolInit allMem bytes).bitmaps, ∀ i, i < b.btmpBytesLen.toNat →
        0xc009a000 ≤ b.addr i ∧ b.addr i < 0xc009e000 := by
      intro b hb i hi
      obtain ⟨hk, hu, hv⟩ := haddr i
      simp only [Pools.bitmaps, List.mem_cons, List.not_mem_nil, or_false] at hb
      rcases hb with rfl | rfl | rfl
      · rw [hk]
        omega
      · rw [hu]
        omega
      · rw [hv]
        omega
    refine ⟨?_, hreserved, ?_⟩
    · simp only [Pools.bitmaps, List.pairwise_cons, List.mem_cons, List.not_mem_nil, or_false,
        forall_eq_or_imp, forall_eq, false_imp_iff, implies_true, List.Pairwise.nil, and_true]
      refine ⟨⟨?_, ?_⟩, ?_⟩
      · intro i j hi hj
        rw [(haddr i).1, (haddr j).2.1]
        omega
      · intro i j hi hj
        rw [(haddr i).1, (haddr j).2.2]
        omega
      · intro i j hi hj
        rw [(haddr i).2.1, (haddr j).2.2]
        omega
    · intro b hb b₁ b₂ bitIdx val harea hset
      have hinside := bitmapSet_inside hset
      rw [harea.len] at hinside
      exact (hreserved b hb _ hinside).2

/-- A machine with 256 MB. -/
theorem bitmapsFit_256MB : BitmapsFit (memPoolInit 0x10000000 fun _ => 0) :=
  (bitmapsFit_iff (by decide) (by decide)).mpr (by decide)

/-- With 512 MB the third bitmap ends in the main thread's page. -/
theorem bitmaps_overflow_512MB : ¬ BitmapsFit (memPoolInit 0x20000000 fun _ => 0) := by
  intro h
  exact absurd (h.reserved _ (List.mem_cons_of_mem _ (List.mem_cons_of_mem _ List.mem_cons_self))
    8159 (by decide)).2 (by decide)

end Layout

end OsKernel
