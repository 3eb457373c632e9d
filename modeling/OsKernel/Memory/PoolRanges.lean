import OsKernel.Boot.SetupPage
import OsKernel.Memory.Allocator

/-!
# kernel/memory.c: the frames of the pools

`mem_pool_init` halves the pages above 2 MB, keeps the two counts in 16 bits and gives each pool a
bitmap of whole bytes. Each of these steps can only lose frames.

- `Pool.HoldsFrames`: what `palloc` returns lies in the range of the pool.
- `PoolsPartition`: the two ranges are disjoint parts of the memory behind the page tables.
- `pools_partition`: this is so for every memory size.
-/

namespace OsKernel

open Lib

/-! ## The ranges -/

/-- The frames with a bit, and so those `palloc` returns, lie between `phy_addr_start` and
`phy_addr_start + pool_size`; their addresses are computed without overflow. -/
structure Pool.HoldsFrames (p : Pool) : Prop where
  offset : ∀ i, i < p.poolBitmap.size →
    (UInt32.ofNat i * pgSize).toNat = 0x1000 * i ∧ 0x1000 * i < 2 ^ 31
  address : ∀ i, i < p.poolBitmap.size →
    (p.pageAddr i).toNat = p.phyAddrStart.toNat + 0x1000 * i
  inside : ∀ i, i < p.poolBitmap.size →
    (p.pageAddr i).toNat + 0x1000 ≤ p.phyAddrStart.toNat + p.poolSize.toNat
  palloc : ∀ q q' a, SameArea p.poolBitmap q.poolBitmap → q.phyAddrStart = p.phyAddrStart →
    palloc q = .ok (a, q') → a ≠ 0 →
      p.phyAddrStart.toNat ≤ a.toNat ∧ a.toNat + 0x1000 ≤ p.phyAddrStart.toNat + p.poolSize.toNat

/-- The pools divide memory of the given size: their ranges do not overlap, begin behind the page
directory and the page tables of the boot loader and end inside the memory. Up to 512 MB at most 14
frames have no bit. -/
structure PoolsPartition (allMem : UInt32) (p : Pools) : Prop where
  kernel : p.kernelPool.HoldsFrames
  user : p.userPool.HoldsFrames
  kernelStart : 0x200000 ≤ p.kernelPool.phyAddrStart.toNat
  userStart : 0x200000 ≤ p.userPool.phyAddrStart.toNat
  disjoint : p.kernelPool.phyAddrStart.toNat + p.kernelPool.poolSize.toNat ≤
    p.userPool.phyAddrStart.toNat
  kernelEnd : p.kernelPool.phyAddrStart.toNat + p.kernelPool.poolSize.toNat ≤ allMem.toNat
  userEnd : p.userPool.phyAddrStart.toNat + p.userPool.poolSize.toNat ≤ allMem.toNat
  directory : pageDirTablePos + 0x1000 ≤ 0x200000
  tables : ∀ ram i, i < 0x400 → present (dirEntry pageDirTablePos (setupPage ram) i) = true →
    frame (dirEntry pageDirTablePos (setupPage ram) i) + 0x1000 ≤ 0x200000
  covered : allMem.toNat ≤ 0x20000000 →
    freePages allMem ≤ p.kernelPool.poolBitmap.size + p.userPool.poolBitmap.size + 14

/-! ## Every memory size -/

/-- A pool whose bitmap has no more bits than its range has frames. -/
theorem Pool.holdsFrames_of_le {p : Pool} {pages : Nat} (hpages : pages < 2 ^ 16)
    (hsize : p.poolSize.toNat = 0x1000 * pages) (hbits : p.poolBitmap.size ≤ pages)
    (hend : p.phyAddrStart.toNat + 0x1000 * pages < 2 ^ 32) : p.HoldsFrames := by
  have hoffset : ∀ i, i < p.poolBitmap.size →
      (UInt32.ofNat i * pgSize).toNat = 0x1000 * i ∧ 0x1000 * i < 2 ^ 31 := by
    intro i hi
    refine ⟨?_, by omega⟩
    rw [UInt32.toNat_mul, UInt32.toNat_ofNat_of_lt' (show i < 2 ^ 32 by omega)]
    show i * 0x1000 % 2 ^ 32 = _
    omega
  have haddress : ∀ i, i < p.poolBitmap.size →
      (p.pageAddr i).toNat = p.phyAddrStart.toNat + 0x1000 * i := by
    intro i hi
    rw [Pool.pageAddr, UInt32.toNat_add, (hoffset i hi).1]
    omega
  have hinside : ∀ i, i < p.poolBitmap.size →
      (p.pageAddr i).toNat + 0x1000 ≤ p.phyAddrStart.toNat + p.poolSize.toNat := by
    intro i hi
    rw [haddress i hi, hsize]
    omega
  refine ⟨hoffset, haddress, hinside, ?_⟩
  intro q q' a harea hstart hpalloc hne
  rcases palloc_spec q with ⟨-, hnull⟩ | ⟨s, btmp, hs, -, -, -, hsome⟩
  · rw [hnull] at hpalloc
    cases hpalloc
    exact absurd rfl hne
  · rw [hsome] at hpalloc
    cases hpalloc
    have hs' : s < p.poolBitmap.size := harea.size ▸ hs
    have hsame : q.pageAddr s = p.pageAddr s := by rw [Pool.pageAddr, Pool.pageAddr, hstart]
    rw [hsame]
    exact ⟨by rw [haddress s hs']; omega, hinside s hs'⟩

section

variable {allMem : UInt32} (h : 0x200000 ≤ allMem.toNat) (bytes : Nat → UInt8)
include h

/-- The size of the users' range. -/
theorem memPoolInit_userSize :
    (memPoolInit allMem bytes).userPool.poolSize.toNat =
      0x1000 * ((freePages allMem - freePages allMem / 2 % 65536) % 65536) := by
  have hused : pgSize * 256 + 0x100000 = 0x200000 := rfl
  have hle : (0x200000 : UInt32) ≤ allMem := UInt32.le_iff_toNat_le.mpr h
  have hall : ((allMem - 0x200000) / pgSize).toNat = freePages allMem := by
    rw [UInt32.toNat_div, UInt32.toNat_sub_of_le _ _ hle]
    rfl
  have hkernel : ((allMem - 0x200000) / pgSize / 2).toUInt16.toNat = freePages allMem / 2 % 65536 := by
    rw [UInt32.toNat_toUInt16, UInt32.toNat_div, hall]
    rfl
  have hsub : ((allMem - 0x200000) / pgSize / 2).toUInt16.toUInt32 ≤ (allMem - 0x200000) / pgSize := by
    rw [UInt32.le_iff_toNat_le, UInt16.toNat_toUInt32, hkernel, hall]
    omega
  have hsize : (memPoolInit allMem bytes).userPool.poolSize =
      ((allMem - 0x200000) / pgSize -
        ((allMem - 0x200000) / pgSize / 2).toUInt16.toUInt32).toUInt16.toUInt32 * pgSize := rfl
  rw [hsize, UInt32.toNat_mul, UInt16.toNat_toUInt32, UInt32.toNat_toUInt16,
    UInt32.toNat_sub_of_le _ _ hsub, UInt16.toNat_toUInt32, hkernel, hall]
  show (freePages allMem - freePages allMem / 2 % 65536) % 65536 * 0x1000 % 2 ^ 32 = _
  omega

/-- **The pools divide the free memory**, whatever its size is. -/
theorem pools_partition : PoolsPartition allMem (memPoolInit allMem bytes) := by
  have hlt := allMem.toNat_lt
  have hfree : freePages allMem = (allMem.toNat - 0x200000) / 4096 := rfl
  have hkstart : (memPoolInit allMem bytes).kernelPool.phyAddrStart.toNat = 0x200000 := rfl
  have hksize := memPoolInit_poolSize h bytes
  have hustart := memPoolInit_userStart h bytes
  have husize := memPoolInit_userSize h bytes
  have hkbits : (memPoolInit allMem bytes).kernelPool.poolBitmap.size =
      8 * (freePages allMem / 2 % 65536 / 8) := by
    rw [Bitmap.size, memPoolInit_kernel h bytes]
  have hubits : (memPoolInit allMem bytes).userPool.poolBitmap.size =
      8 * ((freePages allMem - freePages allMem / 2 % 65536) % 65536 / 8) := by
    rw [Bitmap.size, memPoolInit_user h bytes]
  refine ⟨?_, ?_, by omega, by omega, by omega, by omega, by omega, by decide, ?_, ?_⟩
  · exact Pool.holdsFrames_of_le (by omega) hksize (by omega) (by omega)
  · exact Pool.holdsFrames_of_le (by omega) husize (by omega) (by omega)
  · intro ram i hi hpresent
    have haligned : frame (dirEntry pageDirTablePos (setupPage ram) i) % 0x1000 = 0 :=
      frame_aligned _
    by_cases hlast : i = 1023
    · rw [hlast, setupPage_dir ram (by decide)]
      decide
    · have hlow := (setupPage_tables ram).table_low i (by omega) hpresent
      unfold poolStart at hlow
      omega
  · intro hmax
    omega

end

/-- A machine with 32 MB. -/
theorem pools_partition_32MB : PoolsPartition 0x2000000 (memPoolInit 0x2000000 fun _ => 0) :=
  pools_partition (by decide) _

end OsKernel
