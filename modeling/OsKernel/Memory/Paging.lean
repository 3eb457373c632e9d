import OsKernel.Kernel.Debug
import OsKernel.Lib.ByteMemory

/-!
# Two-level paging

The processor translates a 32-bit virtual address through the page directory that cr3 points to.
The kernel runs with cr0.WP clear, so the R/W bits do not restrict it, and an entry only ever goes
from absent to present, so no stale translation is cached. `setup_page` lets the last directory
entry point to the directory itself; with it `pde_ptr` and `pte_ptr` give the entries of an address
virtual addresses of their own.

- `translate`, `load32`, `store32`, `load8`, `store8`: accesses through a virtual address.
- `pdePtr`, `ptePtr`; `load32_pdePtr`, `load32_ptePtr` and so on: what is behind them.
- `memset`; `memset_filled`: it fills a mapped area and changes no other byte.
- `memcpy`; `memcpy_copied`: it copies one mapped area to another.
-/

namespace OsKernel

open Lib

/-! ## The processor -/

/-- The P bit of an entry. -/
def present (e : UInt32) : Bool := decide (e.toNat % 2 = 1)

/-- The physical address in an entry. -/
def frame (e : UInt32) : Nat := e.toNat / 0x1000 * 0x1000

/-- Bits 22 to 31 of a virtual address. -/
def dirIndex (vaddr : UInt32) : Nat := vaddr.toNat / 0x400000

/-- Bits 12 to 21 of a virtual address. -/
def tableIndex (vaddr : UInt32) : Nat := vaddr.toNat / 0x1000 % 0x400

/-- An entry of the page directory at `cr3`. -/
def dirEntry (cr3 : Nat) (ram : ByteMemory) (i : Nat) : UInt32 := ram.read32 (cr3 + 4 * i)

/-- An entry of the page table that a directory entry points to. -/
def tableEntry (cr3 : Nat) (ram : ByteMemory) (i j : Nat) : UInt32 :=
  ram.read32 (frame (dirEntry cr3 ram i) + 4 * j)

/-- The physical address behind a virtual one. -/
def translate (cr3 : Nat) (ram : ByteMemory) (vaddr : UInt32) : Except Panic Nat := do
  assert (present (dirEntry cr3 ram (dirIndex vaddr))) .pageFault
  let pte := tableEntry cr3 ram (dirIndex vaddr) (tableIndex vaddr)
  assert (present pte) .pageFault
  return frame pte + vaddr.toNat % 0x1000

/-- Read a word; the address is a multiple of 4, so the word does not cross a page. -/
def load32 (cr3 : Nat) (ram : ByteMemory) (vaddr : UInt32) : Except Panic UInt32 := do
  let a ← translate cr3 ram vaddr
  return ram.read32 a

/-- Write a word; the address is a multiple of 4. -/
def store32 (cr3 : Nat) (ram : ByteMemory) (vaddr x : UInt32) : Except Panic ByteMemory := do
  let a ← translate cr3 ram vaddr
  return ram.write32 a x

/-- Read a byte. -/
def load8 (cr3 : Nat) (ram : ByteMemory) (vaddr : UInt32) : Except Panic UInt8 := do
  let a ← translate cr3 ram vaddr
  return ram a

/-- Write a byte. -/
def store8 (cr3 : Nat) (ram : ByteMemory) (vaddr : UInt32) (x : UInt8) :
    Except Panic ByteMemory := do
  let a ← translate cr3 ram vaddr
  return Function.update ram a x

/-! ## kernel/memory.c: the entries of an address -/

/-- `PDE_IDX` -/
def PDE_IDX (addr : UInt32) : UInt32 := (addr &&& 0xffc00000) >>> 22

/-- `PTE_IDX` -/
def PTE_IDX (addr : UInt32) : UInt32 := (addr &&& 0x003ff000) >>> 12

/-- `pte_ptr` -/
def ptePtr (vaddr : UInt32) : UInt32 :=
  (0xffc00000 : UInt32) + ((vaddr &&& 0xffc00000) >>> 10) + PTE_IDX vaddr * 4

/-- `pde_ptr` -/
def pdePtr (vaddr : UInt32) : UInt32 := 0xfffff000 + PDE_IDX vaddr * 4

/-- `PG_US_U | PG_RW_W | PG_P_1` beside a frame. -/
def entryOf (pagePhyaddr : UInt32) : UInt32 := pagePhyaddr ||| 4 ||| 2 ||| 1

/-! ## lib/string.c: memset and memcpy -/

/-- The loop of `memset`. -/
def memsetLoop (cr3 : Nat) (val : UInt8) : Nat → UInt32 → ByteMemory → Except Panic ByteMemory
  | 0, _, ram => .ok ram
  | size + 1, dst, ram => do
    let ram ← store8 cr3 ram dst val
    memsetLoop cr3 val size (dst + 1) ram

/-- `memset` -/
def memset (cr3 : Nat) (ram : ByteMemory) (dst : UInt32) (val : UInt8) (size : UInt32) :
    Except Panic ByteMemory := do
  assert (dst != 0) .memsetDst
  memsetLoop cr3 val size.toNat dst ram

/-- The loop of `memcpy`. -/
def memcpyLoop (cr3 : Nat) : Nat → UInt32 → UInt32 → ByteMemory → Except Panic ByteMemory
  | 0, _, _, ram => .ok ram
  | size + 1, dst, src, ram => do
    let x ← load8 cr3 ram src
    let ram ← store8 cr3 ram dst x
    memcpyLoop cr3 size (dst + 1) (src + 1) ram

/-- `memcpy` -/
def memcpy (cr3 : Nat) (ram : ByteMemory) (dst src size : UInt32) : Except Panic ByteMemory := do
  assert (dst != 0 && src != 0) .memcpyArgs
  memcpyLoop cr3 size.toNat dst src ram

/-! ## Fields of an address -/

/-- A mask of `w` ones from bit `k` on cuts out a field. -/
private theorem and_field (x k w : Nat) :
    x &&& ((2 ^ w - 1) * 2 ^ k) = x / 2 ^ k % 2 ^ w * 2 ^ k := by
  apply Nat.eq_of_testBit_eq
  intro i
  rw [Nat.testBit_and, Nat.testBit_mul_two_pow, Nat.testBit_mul_two_pow, Nat.testBit_mod_two_pow,
    Nat.testBit_two_pow_sub_one, Nat.testBit_div_two_pow]
  by_cases hi : k ≤ i
  · simp [hi, Bool.and_comm]
  · simp [hi]

theorem dirIndex_lt (vaddr : UInt32) : dirIndex vaddr < 0x400 := by
  have := vaddr.toNat_lt
  unfold dirIndex
  omega

theorem tableIndex_lt (vaddr : UInt32) : tableIndex vaddr < 0x400 :=
  Nat.mod_lt _ (by decide)

private theorem and_dir (vaddr : UInt32) :
    vaddr.toNat &&& 0xffc00000 = dirIndex vaddr * 0x400000 := by
  have hfield := and_field vaddr.toNat 22 10
  have hlt : dirIndex vaddr < 2 ^ 10 := dirIndex_lt vaddr
  have hidx : vaddr.toNat / 2 ^ 22 = dirIndex vaddr := rfl
  rw [hidx, Nat.mod_eq_of_lt hlt] at hfield
  exact hfield

theorem PDE_IDX_toNat (vaddr : UInt32) : (PDE_IDX vaddr).toNat = dirIndex vaddr := by
  have hand : (vaddr &&& 0xffc00000).toNat = dirIndex vaddr * 0x400000 := by
    rw [UInt32.toNat_and]
    exact and_dir vaddr
  have hshift : (PDE_IDX vaddr).toNat = (dirIndex vaddr * 0x400000) >>> 22 := by
    rw [PDE_IDX, UInt32.toNat_shiftRight, hand]
    rfl
  rw [hshift, Nat.shiftRight_eq_div_pow]
  exact Nat.mul_div_cancel _ (by decide)

theorem PTE_IDX_toNat (vaddr : UInt32) : (PTE_IDX vaddr).toNat = tableIndex vaddr := by
  have hand : (vaddr &&& 0x003ff000).toNat = tableIndex vaddr * 0x1000 := by
    rw [UInt32.toNat_and]
    exact and_field vaddr.toNat 12 10
  have hshift : (PTE_IDX vaddr).toNat = (tableIndex vaddr * 0x1000) >>> 12 := by
    rw [PTE_IDX, UInt32.toNat_shiftRight, hand]
    rfl
  rw [hshift, Nat.shiftRight_eq_div_pow]
  exact Nat.mul_div_cancel _ (by decide)

/-- The directory, seen through its last entry, is the last page of the address space. -/
theorem pdePtr_toNat (vaddr : UInt32) : (pdePtr vaddr).toNat = 0xfffff000 + 4 * dirIndex vaddr := by
  have hlt := dirIndex_lt vaddr
  rw [pdePtr, UInt32.toNat_add, UInt32.toNat_mul, PDE_IDX_toNat]
  show (0xfffff000 + dirIndex vaddr * 4 % 2 ^ 32) % 2 ^ 32 = _
  omega

/-- The tables are the last 4 MB. -/
theorem ptePtr_toNat (vaddr : UInt32) :
    (ptePtr vaddr).toNat = 0xffc00000 + 0x1000 * dirIndex vaddr + 4 * tableIndex vaddr := by
  have hdir := dirIndex_lt vaddr
  have htable := tableIndex_lt vaddr
  have hand : (vaddr &&& 0xffc00000).toNat = dirIndex vaddr * 0x400000 := by
    rw [UInt32.toNat_and]
    exact and_dir vaddr
  have hshift : ((vaddr &&& 0xffc00000) >>> 10).toNat = 0x1000 * dirIndex vaddr := by
    have hdiv : ((vaddr &&& 0xffc00000) >>> 10).toNat = (dirIndex vaddr * 0x400000) >>> 10 := by
      rw [UInt32.toNat_shiftRight, hand]
      rfl
    rw [hdiv, Nat.shiftRight_eq_div_pow]
    omega
  rw [ptePtr, UInt32.toNat_add, UInt32.toNat_add, UInt32.toNat_mul, PTE_IDX_toNat, hshift]
  show ((0xffc00000 + 0x1000 * dirIndex vaddr) % 2 ^ 32 + tableIndex vaddr * 4 % 2 ^ 32) % 2 ^ 32 = _
  omega

/-- `(int)pte & 0xfffff000` is where the table itself is seen. -/
theorem ptePtr_page (vaddr : UInt32) :
    (ptePtr vaddr &&& 0xfffff000).toNat = 0xffc00000 + 0x1000 * dirIndex vaddr := by
  have hdir := dirIndex_lt vaddr
  have htable := tableIndex_lt vaddr
  have hand : (ptePtr vaddr &&& 0xfffff000).toNat =
      (ptePtr vaddr).toNat / 0x1000 % 0x100000 * 0x1000 := by
    rw [UInt32.toNat_and]
    exact and_field (ptePtr vaddr).toNat 12 20
  rw [hand, ptePtr_toNat]
  omega

/-! ## Entries -/

theorem and_frame (e : UInt32) : (e &&& 0xfffff000).toNat = frame e := by
  have hfield := and_field e.toNat 12 20
  have he := e.toNat_lt
  rw [UInt32.toNat_and]
  show e.toNat &&& ((2 ^ 20 - 1) * 2 ^ 12) = _
  rw [hfield, frame]
  omega

theorem and_offset (vaddr : UInt32) : (vaddr &&& 0x00000fff).toNat = vaddr.toNat % 0x1000 := by
  rw [UInt32.toNat_and]
  exact Nat.and_two_pow_sub_one_eq_mod vaddr.toNat 12

theorem frame_lt (e : UInt32) : frame e + 0x1000 ≤ 2 ^ 32 := by
  have he := e.toNat_lt
  unfold frame
  omega

theorem present_iff (e : UInt32) : e &&& 0x01 ≠ 0 ↔ present e = true := by
  rw [ne_eq, ← UInt32.toNat_inj, UInt32.toNat_and, present, decide_eq_true_iff]
  show ¬ (e.toNat &&& 1 = 0) ↔ _
  rw [Nat.and_one_is_mod]
  omega

/-- The P bit of a word in memory is in its first byte. -/
theorem present_read32 (ram : ByteMemory) (a : Nat) :
    present (ram.read32 a) = decide ((ram a).toNat % 2 = 1) := by
  have h0 := (ram a).toNat_lt
  have h1 := (ram (a + 1)).toNat_lt
  have h2 := (ram (a + 2)).toNat_lt
  have h3 := (ram (a + 3)).toNat_lt
  rw [present, ByteMemory.read32, UInt32.toNat_ofNat', decide_eq_decide]
  omega

theorem frame_aligned (e : UInt32) : frame e % 0x1000 = 0 := Nat.mul_mod_left _ _

/-- The attribute bits stand below the address of a frame. -/
theorem entryOf_toNat {pagePhyaddr : UInt32} (h : pagePhyaddr.toNat % 0x1000 = 0) :
    (entryOf pagePhyaddr).toNat = pagePhyaddr.toNat + 7 := by
  have hbits : ((pagePhyaddr ||| 4 ||| 2 ||| 1 : UInt32)).toNat = pagePhyaddr.toNat ||| 7 := by
    simp only [UInt32.toNat_or, Nat.or_assoc]
    rfl
  obtain ⟨q, hq⟩ := Nat.dvd_of_mod_eq_zero h
  rw [entryOf, hbits, hq]
  exact (Nat.two_pow_add_eq_or_of_lt (i := 12) (by decide : 7 < 2 ^ 12) q).symm

theorem present_entryOf {pagePhyaddr : UInt32} (h : pagePhyaddr.toNat % 0x1000 = 0) :
    present (entryOf pagePhyaddr) = true := by
  rw [present, entryOf_toNat h, decide_eq_true_iff]
  omega

theorem frame_entryOf {pagePhyaddr : UInt32} (h : pagePhyaddr.toNat % 0x1000 = 0) :
    frame (entryOf pagePhyaddr) = pagePhyaddr.toNat := by
  rw [frame, entryOf_toNat h]
  omega

/-! ## Accesses -/

section Access

variable {cr3 : Nat} {ram ram' : ByteMemory} {vaddr : UInt32}

/-- Both entries are present. -/
theorem translate_eq (hdir : present (dirEntry cr3 ram (dirIndex vaddr)) = true)
    (htable : present (tableEntry cr3 ram (dirIndex vaddr) (tableIndex vaddr)) = true) :
    translate cr3 ram vaddr =
      .ok (frame (tableEntry cr3 ram (dirIndex vaddr) (tableIndex vaddr)) + vaddr.toNat % 0x1000) := by
  simp only [translate, hdir, htable, assert_true, ok_bind, pure_eq_ok]

/-- A change outside the directory keeps its entries. -/
theorem dirEntry_congr (h : ByteMemory.EqOn cr3 0x1000 ram ram') {i : Nat} (hi : i < 0x400) :
    dirEntry cr3 ram' i = dirEntry cr3 ram i :=
  h.read32 (by omega) (by omega)

/-- A change outside the directory and a table keeps the entries of the table. -/
theorem tableEntry_congr {i j : Nat} (h : ByteMemory.EqOn cr3 0x1000 ram ram')
    (htable : ByteMemory.EqOn (frame (dirEntry cr3 ram i)) 0x1000 ram ram') (hi : i < 0x400)
    (hj : j < 0x400) : tableEntry cr3 ram' i j = tableEntry cr3 ram i j := by
  rw [tableEntry, tableEntry, dirEntry_congr h hi]
  exact htable.read32 (by omega) (by omega)

/-- The walk uses two entries. -/
theorem translate_congr (hdir : dirEntry cr3 ram' (dirIndex vaddr) = dirEntry cr3 ram (dirIndex vaddr))
    (htable : present (dirEntry cr3 ram (dirIndex vaddr)) = true →
      tableEntry cr3 ram' (dirIndex vaddr) (tableIndex vaddr) =
        tableEntry cr3 ram (dirIndex vaddr) (tableIndex vaddr)) :
    translate cr3 ram' vaddr = translate cr3 ram vaddr := by
  unfold translate
  rw [hdir]
  cases hpresent : present (dirEntry cr3 ram (dirIndex vaddr)) with
  | false => rfl
  | true => rw [htable hpresent]

/-- An address is mapped or the walk faults. -/
theorem translate_cases (cr3 : Nat) (ram : ByteMemory) (vaddr : UInt32) :
    (present (dirEntry cr3 ram (dirIndex vaddr)) = true ∧
      present (tableEntry cr3 ram (dirIndex vaddr) (tableIndex vaddr)) = true ∧
      translate cr3 ram vaddr = .ok
        (frame (tableEntry cr3 ram (dirIndex vaddr) (tableIndex vaddr)) + vaddr.toNat % 0x1000)) ∨
    ((present (dirEntry cr3 ram (dirIndex vaddr)) = true →
      present (tableEntry cr3 ram (dirIndex vaddr) (tableIndex vaddr)) = false) ∧
      translate cr3 ram vaddr = .error .pageFault) := by
  cases hdir : present (dirEntry cr3 ram (dirIndex vaddr)) with
  | false => exact Or.inr ⟨nofun, by simp only [translate, hdir, assert_false, error_bind]⟩
  | true =>
    cases htable : present (tableEntry cr3 ram (dirIndex vaddr) (tableIndex vaddr)) with
    | true => exact Or.inl ⟨rfl, rfl, translate_eq hdir htable⟩
    | false =>
      exact Or.inr ⟨fun _ => rfl, by
        simp only [translate, hdir, htable, assert_true, assert_false, ok_bind, error_bind]⟩

/-- The last entry of the directory points to the directory. -/
structure Recursive (cr3 : Nat) (ram : ByteMemory) : Prop where
  present : present (dirEntry cr3 ram 1023) = true
  frame : frame (dirEntry cr3 ram 1023) = cr3

theorem Recursive.congr (h : Recursive cr3 ram) (heq : ByteMemory.EqOn cr3 0x1000 ram ram') :
    Recursive cr3 ram' := by
  have hentry := dirEntry_congr heq (show 1023 < 0x400 by decide)
  exact ⟨hentry ▸ h.present, hentry ▸ h.frame⟩

/-- A new directory entry. -/
theorem Recursive.addTable (h : Recursive cr3 ram) {i : Nat} (hi : i < 1023) (e : UInt32) :
    Recursive cr3 (ram.write32 (cr3 + 4 * i) e) ∧
      dirEntry cr3 (ram.write32 (cr3 + 4 * i) e) i = e := by
  have hother : dirEntry cr3 (ram.write32 (cr3 + 4 * i) e) 1023 = dirEntry cr3 ram 1023 :=
    ByteMemory.read32_write32_of_disjoint (by omega)
  exact ⟨⟨hother ▸ h.present, hother ▸ h.frame⟩, ByteMemory.read32_write32 _ _ _⟩

/-- What the last directory entry makes a table of tables. -/
theorem Recursive.tableEntry (h : Recursive cr3 ram) (i : Nat) :
    tableEntry cr3 ram 1023 i = dirEntry cr3 ram i := by
  rw [OsKernel.tableEntry, h.frame, dirEntry]

/-- An address in the last 4 MB is one in a table. -/
theorem Recursive.translate_table (h : Recursive cr3 ram) {i off : Nat} (hi : i < 0x400)
    (hoff : off < 0x1000) (hpresent : OsKernel.present (dirEntry cr3 ram i) = true)
    (haddr : vaddr.toNat = 0xffc00000 + 0x1000 * i + off) :
    translate cr3 ram vaddr = .ok (OsKernel.frame (dirEntry cr3 ram i) + off) := by
  have hdir : dirIndex vaddr = 1023 := by
    unfold dirIndex
    omega
  have htable : tableIndex vaddr = i := by
    unfold tableIndex
    omega
  have hmod : vaddr.toNat % 0x1000 = off := by omega
  have heq := @translate_eq cr3 ram vaddr
  rw [hdir, htable, h.tableEntry, hmod] at heq
  exact heq h.present hpresent

theorem Recursive.translate_pdePtr (h : Recursive cr3 ram) :
    translate cr3 ram (pdePtr vaddr) = .ok (cr3 + 4 * dirIndex vaddr) := by
  have hlt := dirIndex_lt vaddr
  have heq := @Recursive.translate_table cr3 ram (pdePtr vaddr) h 1023 (4 * dirIndex vaddr)
    (by decide) (by omega) h.present (pdePtr_toNat vaddr)
  rw [h.frame] at heq
  exact heq

theorem Recursive.translate_ptePtr (h : Recursive cr3 ram)
    (hdir : OsKernel.present (dirEntry cr3 ram (dirIndex vaddr)) = true) :
    translate cr3 ram (ptePtr vaddr) =
      .ok (OsKernel.frame (dirEntry cr3 ram (dirIndex vaddr)) + 4 * tableIndex vaddr) := by
  have hlt := tableIndex_lt vaddr
  exact h.translate_table (dirIndex_lt vaddr) (by omega) hdir (ptePtr_toNat vaddr)

/-- `*pde_ptr(vaddr)` -/
theorem Recursive.load32_pdePtr (h : Recursive cr3 ram) :
    load32 cr3 ram (pdePtr vaddr) = .ok (dirEntry cr3 ram (dirIndex vaddr)) := by
  rw [load32, h.translate_pdePtr]
  rfl

/-- `*pte_ptr(vaddr)` -/
theorem Recursive.load32_ptePtr (h : Recursive cr3 ram)
    (hdir : OsKernel.present (dirEntry cr3 ram (dirIndex vaddr)) = true) :
    load32 cr3 ram (ptePtr vaddr) =
      .ok (OsKernel.tableEntry cr3 ram (dirIndex vaddr) (tableIndex vaddr)) := by
  rw [load32, h.translate_ptePtr hdir]
  rfl

/-- `*pde_ptr(vaddr) = x` -/
theorem Recursive.store32_pdePtr (h : Recursive cr3 ram) (x : UInt32) :
    store32 cr3 ram (pdePtr vaddr) x = .ok (ram.write32 (cr3 + 4 * dirIndex vaddr) x) := by
  rw [store32, h.translate_pdePtr]
  rfl

/-- `*pte_ptr(vaddr) = x` -/
theorem Recursive.store32_ptePtr (h : Recursive cr3 ram)
    (hdir : OsKernel.present (dirEntry cr3 ram (dirIndex vaddr)) = true) (x : UInt32) :
    store32 cr3 ram (ptePtr vaddr) x =
      .ok (ram.write32 (OsKernel.frame (dirEntry cr3 ram (dirIndex vaddr)) + 4 * tableIndex vaddr)
        x) := by
  rw [store32, h.translate_ptePtr hdir]
  rfl

end Access

/-! ## memset on a mapped area -/

/-- The `size` addresses from `dst` on lead to `phys 0`, `phys 1` and so on, and still do after
any change to these bytes only. -/
def Mapped (cr3 : Nat) (ram : ByteMemory) (dst : UInt32) (size : Nat) (phys : Nat → Nat) : Prop :=
  ∀ ram', (∀ a, (∀ i, i < size → a ≠ phys i) → ram' a = ram a) → ∀ i, i < size →
    translate cr3 ram' (dst + UInt32.ofNat i) = .ok (phys i)

/-- `ram'` is `ram` with `val` at `phys 0`, ..., `phys (size - 1)`. -/
structure Filled (ram ram' : ByteMemory) (size : Nat) (phys : Nat → Nat) (val : UInt8) : Prop where
  inside : ∀ i, i < size → ram' (phys i) = val
  outside : ∀ a, (∀ i, i < size → a ≠ phys i) → ram' a = ram a

theorem memsetLoop_filled {cr3 size : Nat} {ram : ByteMemory} {dst : UInt32} {phys : Nat → Nat}
    (val : UInt8) (h : Mapped cr3 ram dst size phys) :
    ∃ ram', memsetLoop cr3 val size dst ram = .ok ram' ∧ Filled ram ram' size phys val := by
  induction size generalizing ram dst phys with
  | zero => exact ⟨ram, rfl, nofun, fun _ _ => rfl⟩
  | succ size ih =>
    have hfirst : translate cr3 ram dst = .ok (phys 0) := by
      have := h ram (fun _ _ => rfl) 0 (Nat.succ_pos size)
      simpa using this
    have hupdate : ∀ a, a ≠ phys 0 → Function.update ram (phys 0) val a = ram a :=
      fun a ha => Function.update_of_ne ha _ _
    -- the other addresses still lead where they did
    have hrest : Mapped cr3 (Function.update ram (phys 0) val) (dst + 1) size
        (fun i => phys (i + 1)) := by
      intro ram' hram' i hi
      have := h ram' (fun a ha => by
        rw [hram' a fun i hi => ha (i + 1) (Nat.succ_lt_succ hi)]
        exact hupdate a (ha 0 (Nat.succ_pos size))) (i + 1) (Nat.succ_lt_succ hi)
      rwa [UInt32.ofNat_add, UInt32.add_comm (UInt32.ofNat i), ← UInt32.add_assoc] at this
    obtain ⟨ram', hloop, hfilled⟩ := ih hrest
    refine ⟨ram', ?_, ?_, ?_⟩
    · simp only [memsetLoop, store8, hfirst, ok_bind, pure_eq_ok]
      exact hloop
    · intro i hi
      by_cases hagain : ∃ k, k < size ∧ phys i = phys (k + 1)
      · obtain ⟨k, hk, heq⟩ := hagain
        rw [heq]
        exact hfilled.inside k hk
      · have hout : ∀ k, k < size → phys i ≠ phys (k + 1) := fun k hk heq => hagain ⟨k, hk, heq⟩
        cases i with
        | zero => rw [hfilled.outside _ hout, Function.update_self]
        | succ i => exact absurd rfl (hout i (Nat.lt_of_succ_lt_succ hi))
    · intro a ha
      rw [hfilled.outside a fun i hi => ha (i + 1) (Nat.succ_lt_succ hi)]
      exact hupdate a (ha 0 (Nat.succ_pos size))

/-- A change inside one page leaves every other page alone. -/
theorem eqOn_other_page {ram ram' : ByteMemory} {p q : Nat} (hp : p % 0x1000 = 0)
    (hq : q % 0x1000 = 0) (hne : p ≠ q)
    (h : ∀ a, (∀ k, k < 0x1000 → a ≠ p + k) → ram' a = ram a) :
    ByteMemory.EqOn q 0x1000 ram ram' := by
  intro a hlo hhi
  refine h a fun k hk heq => hne ?_
  omega

/-- A table is mapped in the last 4 MB. -/
theorem Recursive.mapped {cr3 i : Nat} {ram : ByteMemory} {dst : UInt32} (h : Recursive cr3 ram)
    (hi : i < 0x400) (hpresent : OsKernel.present (dirEntry cr3 ram i) = true)
    (hcr3 : cr3 % 0x1000 = 0) (hne : OsKernel.frame (dirEntry cr3 ram i) ≠ cr3)
    (hdst : dst.toNat = 0xffc00000 + 0x1000 * i) :
    Mapped cr3 ram dst 0x1000 (fun k => OsKernel.frame (dirEntry cr3 ram i) + k) := by
  intro ram' hram' k hk
  have heq := eqOn_other_page (frame_aligned _) hcr3 hne hram'
  have hentry := dirEntry_congr heq hi
  have haddr : (dst + UInt32.ofNat k).toNat = 0xffc00000 + 0x1000 * i + k := by
    rw [UInt32.toNat_add, hdst, UInt32.toNat_ofNat']
    omega
  have htrans := (h.congr heq).translate_table hi hk (hentry ▸ hpresent) haddr
  rwa [hentry] at htrans

/-- **`memset`** on a mapped area fills the bytes behind it and changes no other. -/
theorem memset_filled {cr3 : Nat} {ram : ByteMemory} {dst size : UInt32} {phys : Nat → Nat}
    (val : UInt8) (hdst : dst ≠ 0) (h : Mapped cr3 ram dst size.toNat phys) :
    ∃ ram', memset cr3 ram dst val size = .ok ram' ∧ Filled ram ram' size.toNat phys val := by
  have hne : (dst != 0) = true := bne_iff_ne.mpr hdst
  simp only [memset, hne, assert_true, ok_bind]
  exact memsetLoop_filled val h

/-! ## memcpy between mapped areas -/

/-- `ram'` is `ram` with the bytes from `src 0`, ..., `src (size - 1)` at `phys 0` and so on. -/
structure Copied (ram ram' : ByteMemory) (size : Nat) (phys src : Nat → Nat) : Prop where
  inside : ∀ i, i < size → ram' (phys i) = ram (src i)
  outside : ∀ a, (∀ i, i < size → a ≠ phys i) → ram' a = ram a

/-- The areas are disjoint and what is copied does not change where the source is. -/
structure Copyable (cr3 : Nat) (ram : ByteMemory) (dst src : UInt32) (size : Nat)
    (phys srcPhys : Nat → Nat) : Prop where
  dst : Mapped cr3 ram dst size phys
  src : ∀ ram', (∀ a, (∀ i, i < size → a ≠ phys i) → ram' a = ram a) → ∀ i, i < size →
    translate cr3 ram' (src + UInt32.ofNat i) = .ok (srcPhys i)
  inj : ∀ i k, i < size → k < size → phys i = phys k → i = k
  disjoint : ∀ i k, i < size → k < size → srcPhys i ≠ phys k

/-- The rest of the areas, after the first byte. -/
theorem Copyable.rest {cr3 size : Nat} {ram : ByteMemory} {dst src : UInt32}
    {phys srcPhys : Nat → Nat} (h : Copyable cr3 ram dst src (size + 1) phys srcPhys) (x : UInt8) :
    Copyable cr3 (Function.update ram (phys 0) x) (dst + 1) (src + 1) size
      (fun i => phys (i + 1)) (fun i => srcPhys (i + 1)) := by
  have hchange : ∀ ram' : ByteMemory, (∀ a, (∀ i, i < size → a ≠ phys (i + 1)) →
      ram' a = Function.update ram (phys 0) x a) →
      ∀ a, (∀ i, i < size + 1 → a ≠ phys i) → ram' a = ram a := by
    intro ram' hram' a ha
    rw [hram' a fun i hi => ha (i + 1) (Nat.succ_lt_succ hi)]
    exact Function.update_of_ne (ha 0 (Nat.succ_pos size)) _ _
  refine ⟨?_, ?_, ?_, ?_⟩
  · intro ram' hram' i hi
    have := h.dst ram' (hchange ram' hram') (i + 1) (Nat.succ_lt_succ hi)
    rwa [UInt32.ofNat_add, UInt32.add_comm (UInt32.ofNat i), ← UInt32.add_assoc] at this
  · intro ram' hram' i hi
    have := h.src ram' (hchange ram' hram') (i + 1) (Nat.succ_lt_succ hi)
    rwa [UInt32.ofNat_add, UInt32.add_comm (UInt32.ofNat i), ← UInt32.add_assoc] at this
  · intro i k hi hk heq
    exact Nat.succ.inj (h.inj _ _ (Nat.succ_lt_succ hi) (Nat.succ_lt_succ hk) heq)
  · exact fun i k hi hk => h.disjoint _ _ (Nat.succ_lt_succ hi) (Nat.succ_lt_succ hk)

theorem memcpyLoop_copied {cr3 size : Nat} {ram : ByteMemory} {dst src : UInt32}
    {phys srcPhys : Nat → Nat} (h : Copyable cr3 ram dst src size phys srcPhys) :
    ∃ ram', memcpyLoop cr3 size dst src ram = .ok ram' ∧ Copied ram ram' size phys srcPhys := by
  induction size generalizing ram dst src phys srcPhys with
  | zero => exact ⟨ram, rfl, nofun, fun _ _ => rfl⟩
  | succ size ih =>
    have hsrc : translate cr3 ram src = .ok (srcPhys 0) := by
      have := h.src ram (fun _ _ => rfl) 0 (Nat.succ_pos size)
      simpa using this
    have hdst : translate cr3 ram dst = .ok (phys 0) := by
      have := h.dst ram (fun _ _ => rfl) 0 (Nat.succ_pos size)
      simpa using this
    obtain ⟨ram', hloop, hcopied⟩ := ih (h.rest (ram (srcPhys 0)))
    refine ⟨ram', ?_, ?_, ?_⟩
    · simp only [memcpyLoop, load8, store8, hsrc, hdst, ok_bind, pure_eq_ok]
      exact hloop
    · intro i hi
      cases i with
      | zero =>
        -- the first byte is not written again
        have hout : ∀ k, k < size → phys 0 ≠ phys (k + 1) := fun k hk heq =>
          absurd (h.inj _ _ hi (Nat.succ_lt_succ hk) heq) (Nat.succ_ne_zero k).symm
        rw [hcopied.outside _ hout, Function.update_self]
      | succ i =>
        rw [hcopied.inside i (Nat.lt_of_succ_lt_succ hi)]
        exact Function.update_of_ne (h.disjoint _ _ hi (Nat.succ_pos size)) _ _
    · intro a ha
      rw [hcopied.outside a fun i hi => ha (i + 1) (Nat.succ_lt_succ hi)]
      exact Function.update_of_ne (ha 0 (Nat.succ_pos size)) _ _

/-- **`memcpy`** copies the bytes and changes no other. -/
theorem memcpy_copied {cr3 : Nat} {ram : ByteMemory} {dst src size : UInt32}
    {phys srcPhys : Nat → Nat} (hdst : dst ≠ 0) (hsrc : src ≠ 0)
    (h : Copyable cr3 ram dst src size.toNat phys srcPhys) :
    ∃ ram', memcpy cr3 ram dst src size = .ok ram' ∧ Copied ram ram' size.toNat phys srcPhys := by
  have hne : (dst != 0 && src != 0) = true := by
    rw [Bool.and_eq_true]
    exact ⟨bne_iff_ne.mpr hdst, bne_iff_ne.mpr hsrc⟩
  simp only [memcpy, hne, assert_true, ok_bind]
  exact memcpyLoop_copied h

end OsKernel
