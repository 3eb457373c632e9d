import OsKernel.Memory.HeapMap

/-!
# boot/loader.S: setup_page

The loader builds the page directory and the first page table before paging is on, so its stores go
to physical memory. It installs 255 page tables for the kernel half, but fills in no more than the
first 256 entries of the first one. The rest of the tables is whatever the memory held before.

- `setupPage`: the routine, on any contents of the memory.
- `setupPage_dir`, `setupPage_table`: every entry of the directory and of the tables.
- `setupPage_tables`: the kernel half is as the memory manager relies on it.
- `setupPage_initial_iff`: the address space it makes, and what that depends on.
-/

namespace OsKernel

open Lib

/-! ## The routine -/

/-- `PAGE_DIR_TABLE_POS` -/
def pageDirTablePos : Nat := 0x100000

/-- The loop `.clear_page_dir` with `ecx` turns left. -/
def clearPageDir : Nat → Nat → ByteMemory → ByteMemory
  | 0, _, ram => ram
  | ecx + 1, esi, ram => clearPageDir ecx (esi + 1) (Function.update ram (pageDirTablePos + esi) 0)

/-- The loops `.creat_pte` and `.create_kernel_pde`: store an entry and go on to the next frame. -/
def storeEntries (ebx : Nat) : Nat → Nat → UInt32 → ByteMemory → ByteMemory
  | 0, _, _, ram => ram
  | ecx + 1, esi, entry, ram =>
    storeEntries ebx ecx (esi + 1) (entry + 0x1000) (ram.write32 (ebx + 4 * esi) entry)

/-- `.creat_pte`: the low 1 MB -/
def creatPte (ebx : Nat) (ram : ByteMemory) : ByteMemory := storeEntries ebx 256 0 (4 ||| 2 ||| 1) ram

/-- `.create_kernel_pde`: the directory entries 769 to 1022 -/
def createKernelPde (ram : ByteMemory) : ByteMemory :=
  storeEntries pageDirTablePos 254 769 (UInt32.ofNat (pageDirTablePos + 0x2000) ||| 4 ||| 2 ||| 1) ram

/-- `setup_page` -/
def setupPage (ram : ByteMemory) : ByteMemory :=
  let ram := clearPageDir 4096 0 ram
  let ebx := pageDirTablePos + 0x1000
  let eax := UInt32.ofNat ebx ||| 4 ||| 2 ||| 1
  let ram := ram.write32 (pageDirTablePos + 0x00) eax
  let ram := ram.write32 (pageDirTablePos + 0xc00) eax
  let eax := eax - 0x1000
  let ram := ram.write32 (pageDirTablePos + 4092) eax
  let ram := creatPte ebx ram
  createKernelPde ram

/-! ## The loops -/

theorem clearPageDir_outside {ecx esi a : Nat} (ram : ByteMemory)
    (h : a < pageDirTablePos + esi ∨ pageDirTablePos + esi + ecx ≤ a) :
    clearPageDir ecx esi ram a = ram a := by
  induction ecx generalizing esi ram with
  | zero => rfl
  | succ ecx ih =>
    rw [clearPageDir, ih _ (by omega)]
    exact Function.update_of_ne (by omega) _ _

theorem clearPageDir_inside {ecx esi k : Nat} (hk : k < ecx) (ram : ByteMemory) :
    clearPageDir ecx esi ram (pageDirTablePos + (esi + k)) = 0 := by
  induction ecx generalizing esi k ram with
  | zero => omega
  | succ ecx ih =>
    cases k with
    | zero =>
      -- the later turns do not come back to this byte
      rw [clearPageDir, clearPageDir_outside _ (by omega)]
      exact Function.update_self _ _ _
    | succ k =>
      have hnext : esi + (k + 1) = esi + 1 + k := by omega
      rw [hnext]
      exact ih (Nat.lt_of_succ_lt_succ hk) _

theorem storeEntries_outside {ebx ecx esi a : Nat} {e : UInt32} (ram : ByteMemory)
    (h : a < ebx + 4 * esi ∨ ebx + 4 * (esi + ecx) ≤ a) :
    storeEntries ebx ecx esi e ram a = ram a := by
  induction ecx generalizing esi e ram with
  | zero => rfl
  | succ ecx ih =>
    rw [storeEntries, ih _ (by omega)]
    exact ByteMemory.write32_outside (by omega)

theorem storeEntries_read32_outside {ebx ecx esi a : Nat} {e : UInt32} (ram : ByteMemory)
    (h : a + 4 ≤ ebx + 4 * esi ∨ ebx + 4 * (esi + ecx) ≤ a) :
    (storeEntries ebx ecx esi e ram).read32 a = ram.read32 a := by
  have heq : ByteMemory.EqOn a 4 ram (storeEntries ebx ecx esi e ram) :=
    fun b hlo hhi => storeEntries_outside ram (by omega)
  exact heq.read32 (Nat.le_refl a) (Nat.le_refl _)

/-- The `k`-th entry that is stored. -/
theorem storeEntries_inside {ebx ecx esi k : Nat} {e : UInt32} (hk : k < ecx) (ram : ByteMemory) :
    (storeEntries ebx ecx esi e ram).read32 (ebx + 4 * (esi + k)) =
      e + UInt32.ofNat (0x1000 * k) := by
  induction ecx generalizing esi e k ram with
  | zero => omega
  | succ ecx ih =>
    cases k with
    | zero =>
      rw [storeEntries, storeEntries_read32_outside _ (by omega)]
      simp
    | succ k =>
      have hplace : esi + (k + 1) = esi + 1 + k := by omega
      have hvalue : 0x1000 * (k + 1) = 0x1000 + 0x1000 * k := by omega
      rw [storeEntries, hplace, ih (Nat.lt_of_succ_lt_succ hk), hvalue, UInt32.ofNat_add,
        ← UInt32.add_assoc]
      rfl

/-! ## The entries -/

section Entries

variable (ram : ByteMemory)

/-- The stores of the routine, with the values they store. -/
theorem setupPage_eq : setupPage ram =
    storeEntries pageDirTablePos 254 769 0x102007 (storeEntries 0x101000 256 0 7
      ((((clearPageDir 4096 0 ram).write32 pageDirTablePos 0x101007).write32
        (pageDirTablePos + 0xc00) 0x101007).write32 (pageDirTablePos + 4092) 0x100007)) := by
  have hentry : UInt32.ofNat (pageDirTablePos + 0x2000) ||| 4 ||| 2 ||| 1 = 0x102007 := rfl
  have hfirst : UInt32.ofNat 0x101000 ||| 4 ||| 2 ||| 1 = 0x101007 := rfl
  have hlow : (4 ||| 2 ||| 1 : UInt32) = 7 := rfl
  have hdir : (0x101007 : UInt32) - 0x1000 = 0x100007 := rfl
  have htable : pageDirTablePos + 0x1000 = 0x101000 := rfl
  simp only [setupPage, createKernelPde, creatPte, hentry, hfirst, hlow, hdir, htable, Nat.add_zero]

/-- The directory after the routine. -/
def bootDirEntry (i : Nat) : UInt32 :=
  if i = 0 ∨ i = 768 then 0x101007
  else if i = 1023 then 0x100007
  else if 769 ≤ i then UInt32.ofNat (0x102007 + 0x1000 * (i - 769))
  else 0

/-- **The directory** does not depend on the old contents of the memory. -/
theorem setupPage_dir {i : Nat} (hi : i < 0x400) :
    dirEntry pageDirTablePos (setupPage ram) i = bootDirEntry i := by
  have hpos : pageDirTablePos = 0x100000 := rfl
  rw [dirEntry, setupPage_eq]
  unfold bootDirEntry
  by_cases hkernel : 769 ≤ i ∧ i < 1023
  · -- stored by the last loop
    have hplace : i = 769 + (i - 769) := by omega
    rw [if_neg (by omega), if_neg (by omega), if_pos hkernel.1, UInt32.ofNat_add]
    conv => lhs; rw [hplace]
    exact storeEntries_inside (by omega) _
  · rw [storeEntries_read32_outside _ (by omega), storeEntries_read32_outside _ (by omega)]
    by_cases hlast : i = 1023
    · rw [if_neg (by omega), if_pos hlast, hlast]
      exact ByteMemory.read32_write32 _ _ _
    rw [ByteMemory.read32_write32_of_disjoint (by omega)]
    by_cases hhalf : i = 768
    · rw [if_pos (Or.inr hhalf), hhalf]
      exact ByteMemory.read32_write32 _ _ _
    rw [ByteMemory.read32_write32_of_disjoint (by omega)]
    by_cases hzero : i = 0
    · rw [if_pos (Or.inl hzero), hzero]
      exact ByteMemory.read32_write32 _ _ _
    · rw [ByteMemory.read32_write32_of_disjoint (by omega), if_neg (by omega), if_neg hlast,
        if_neg (by omega)]
      refine ByteMemory.read32_zero fun k hk => ?_
      have hbyte : pageDirTablePos + 4 * i + k = pageDirTablePos + (0 + (4 * i + k)) := by omega
      rw [hbyte]
      exact clearPageDir_inside (by omega) ram

/-- The first 256 entries of the first table. -/
theorem setupPage_low {j : Nat} (hj : j < 256) :
    (setupPage ram).read32 (0x101000 + 4 * j) = UInt32.ofNat (7 + 0x1000 * j) := by
  have hpos : pageDirTablePos = 0x100000 := rfl
  have hplace : 0x101000 + 4 * j = 0x101000 + 4 * (0 + j) := by omega
  rw [setupPage_eq, storeEntries_read32_outside _ (by omega), UInt32.ofNat_add, hplace]
  exact storeEntries_inside hj _

/-- Nothing behind them is written. -/
theorem setupPage_stale {a : Nat} (ha : 0x101400 ≤ a) : setupPage ram a = ram a := by
  have hpos : pageDirTablePos = 0x100000 := rfl
  rw [setupPage_eq, storeEntries_outside _ (by omega), storeEntries_outside _ (by omega),
    ByteMemory.write32_outside (by omega), ByteMemory.write32_outside (by omega),
    ByteMemory.write32_outside (by omega), clearPageDir_outside _ (by omega)]

/-- The first MB stays as it was. -/
theorem setupPage_below {a : Nat} (ha : a < 0x100000) : setupPage ram a = ram a := by
  have hpos : pageDirTablePos = 0x100000 := rfl
  rw [setupPage_eq, storeEntries_outside _ (by omega), storeEntries_outside _ (by omega),
    ByteMemory.write32_outside (by omega), ByteMemory.write32_outside (by omega),
    ByteMemory.write32_outside (by omega), clearPageDir_outside _ (by omega)]

/-- The frame of the table that serves the directory entry `i`. -/
def bootTable (i : Nat) : Nat := if i = 0 then 0x101000 else 0x101000 + 0x1000 * (i - 768)

/-- The entries with a table. -/
theorem bootDirEntry_table {i : Nat} (hi : i < 1023) (h : i = 0 ∨ 768 ≤ i) :
    present (bootDirEntry i) = true ∧ frame (bootDirEntry i) = bootTable i := by
  unfold bootDirEntry bootTable present frame
  by_cases hfirst : i = 0 ∨ i = 768
  · rw [if_pos hfirst]
    refine ⟨rfl, ?_⟩
    rcases hfirst with rfl | rfl
    · rfl
    · rfl
  · have hnat : (UInt32.ofNat (0x102007 + 0x1000 * (i - 769))).toNat = 0x102007 + 0x1000 * (i - 769) := by
      rw [UInt32.toNat_ofNat']
      omega
    rw [if_neg hfirst, if_neg (by omega), if_pos (by omega), hnat, decide_eq_true_iff,
      if_neg (by omega)]
    omega

/-- The entries without one. -/
theorem bootDirEntry_none {i : Nat} (h0 : i ≠ 0) (h : i < 768) :
    present (bootDirEntry i) = false := by
  unfold bootDirEntry
  rw [if_neg (by omega), if_neg (by omega), if_neg (by omega)]
  rfl

/-- **The kernel half** is laid out as the memory manager relies on it. -/
theorem setupPage_tables : KernelTables pageDirTablePos (setupPage ram) := by
  have hpos : pageDirTablePos = 0x100000 := rfl
  have hpool : poolStart = 0x200000 := rfl
  have hdir : ∀ i, i < 0x400 → dirEntry pageDirTablePos (setupPage ram) i = bootDirEntry i :=
    fun i hi => setupPage_dir ram hi
  refine ⟨rfl, by decide, ⟨?_, ?_⟩, ?_, ?_, ?_, ?_⟩
  · rw [hdir 1023 (by decide)]
    rfl
  · rw [hdir 1023 (by decide)]
    rfl
  · intro i hlo hhi
    rw [hdir i (by omega)]
    exact (bootDirEntry_table hhi (Or.inr hlo)).1
  · intro i hi hpresent
    rw [hdir i (by omega)] at hpresent ⊢
    by_cases hnone : i ≠ 0 ∧ i < 768
    · rw [bootDirEntry_none hnone.1 hnone.2] at hpresent
      cases hpresent
    · rw [(bootDirEntry_table hi (by omega)).2, bootTable]
      split
      · omega
      · omega
  · intro i hlo hhi
    rw [hdir i (by omega), (bootDirEntry_table hhi (Or.inr hlo)).2, bootTable, if_neg (by omega)]
    omega
  · intro i j hi hi' hj hj'
    rw [hdir i (by omega), hdir j (by omega), (bootDirEntry_table hi' (Or.inr hi)).2,
      (bootDirEntry_table hj' (Or.inr hj)).2, bootTable, bootTable, if_neg (by omega),
      if_neg (by omega)]
    omega

/-- The entry that serves an address outside the recursive window. -/
theorem setupPage_table {i j : Nat} (hi : i < 1023) (h : i = 0 ∨ 768 ≤ i) :
    tableEntry pageDirTablePos (setupPage ram) i j =
      (setupPage ram).read32 (bootTable i + 4 * j) := by
  rw [tableEntry, setupPage_dir ram (by omega), (bootDirEntry_table hi h).2]

end Entries

/-! ## The address space -/

/-- The old contents of the part of the tables that the routine leaves as it was: no dword has the
bit that would make it a present entry. -/
def TablesClear (ram : ByteMemory) : Prop :=
  ∀ a, 0x101400 ≤ a → a < 0x200000 → a % 4 = 0 → (ram a).toNat % 2 = 0

/-- The address space the kernel is meant to start in: outside the recursive window the first 1 MB
is mapped twice, and nothing else is; so no page of the heap has a present entry. -/
structure InitialSpace (ram : ByteMemory) : Prop where
  low : ∀ vaddr : UInt32, vaddr.toNat < 0x100000 →
    translate pageDirTablePos ram vaddr = .ok vaddr.toNat
  high : ∀ vaddr : UInt32, 0xc0000000 ≤ vaddr.toNat → vaddr.toNat < 0xc0100000 →
    translate pageDirTablePos ram vaddr = .ok (vaddr.toNat - 0xc0000000)
  absent : ∀ vaddr : UInt32, 0x100000 ≤ vaddr.toNat →
    (vaddr.toNat < 0xc0000000 ∨ 0xc0100000 ≤ vaddr.toNat) → vaddr.toNat < 0xffc00000 →
    translate pageDirTablePos ram vaddr = .error .pageFault
  heap : ∀ vaddr : UInt32, 0xc0100000 ≤ vaddr.toNat → vaddr.toNat < 0xffc00000 →
    ∃ e, load32 pageDirTablePos ram (ptePtr vaddr) = .ok e ∧ e &&& 0x01 = 0

section Space

variable {ram : ByteMemory}

/-- The first 1 MB, in both of its places. -/
theorem setupPage_mapped {vaddr : UInt32} (hdir : dirIndex vaddr = 0 ∨ dirIndex vaddr = 768)
    (htable : tableIndex vaddr < 256) :
    translate pageDirTablePos (setupPage ram) vaddr =
      .ok (0x1000 * tableIndex vaddr + vaddr.toNat % 0x1000) := by
  have hlt : dirIndex vaddr < 1023 := by omega
  have hcase : dirIndex vaddr = 0 ∨ 768 ≤ dirIndex vaddr := by omega
  have hfirst : bootTable (dirIndex vaddr) = 0x101000 := by
    rcases hdir with h | h
    · rw [h]
      rfl
    · rw [h]
      rfl
  have hentry : tableEntry pageDirTablePos (setupPage ram) (dirIndex vaddr) (tableIndex vaddr) =
      UInt32.ofNat (7 + 0x1000 * tableIndex vaddr) := by
    rw [setupPage_table ram hlt hcase, hfirst, setupPage_low ram htable]
  have hnat : (UInt32.ofNat (7 + 0x1000 * tableIndex vaddr)).toNat =
      7 + 0x1000 * tableIndex vaddr := by
    rw [UInt32.toNat_ofNat']
    omega
  have hpresent : present (UInt32.ofNat (7 + 0x1000 * tableIndex vaddr)) = true := by
    rw [present, hnat, decide_eq_true_iff]
    omega
  have hframe : frame (UInt32.ofNat (7 + 0x1000 * tableIndex vaddr)) = 0x1000 * tableIndex vaddr := by
    rw [frame, hnat]
    omega
  rw [translate_eq ?_ (hentry ▸ hpresent), hentry, hframe]
  rw [setupPage_dir ram (by omega)]
  exact (bootDirEntry_table hlt hcase).1

/-- Everywhere else the old contents of the memory decide. -/
theorem setupPage_stale_entry {i j : Nat} (hi : i < 1023) (h : i = 0 ∨ 768 ≤ i)
    (hstale : 256 ≤ j ∨ 769 ≤ i) :
    present (tableEntry pageDirTablePos (setupPage ram) i j) =
      decide ((ram (bootTable i + 4 * j)).toNat % 2 = 1) := by
  rw [setupPage_table ram hi h, present_read32, setupPage_stale]
  unfold bootTable
  split
  · omega
  · omega

/-- No directory entry, no mapping. -/
theorem setupPage_unmapped {vaddr : UInt32} (h0 : dirIndex vaddr ≠ 0) (h : dirIndex vaddr < 768) :
    translate pageDirTablePos (setupPage ram) vaddr = .error .pageFault := by
  have habsent : present (dirEntry pageDirTablePos (setupPage ram) (dirIndex vaddr)) = false := by
    rw [setupPage_dir ram (by omega)]
    exact bootDirEntry_none h0 h
  simp only [translate, habsent, assert_false, error_bind]

/-- The entry of a page the routine does not map. -/
theorem TablesClear.entry (h : TablesClear ram) {i j : Nat} (hi : i < 1023)
    (hcase : i = 0 ∨ 768 ≤ i) (hj : j < 0x400) (hstale : 256 ≤ j ∨ 769 ≤ i) :
    present (tableEntry pageDirTablePos (setupPage ram) i j) = false := by
  have hclear : (ram (bootTable i + 4 * j)).toNat % 2 = 0 := by
    unfold bootTable
    split
    · exact h _ (by omega) (by omega) (by omega)
    · exact h _ (by omega) (by omega) (by omega)
  rw [setupPage_stale_entry hi hcase hstale, hclear]
  rfl

/-- A present entry that was left in the memory maps a page. -/
theorem stale_mapped (ram : ByteMemory) {a : Nat} (hlo : 0x101400 ≤ a) (hhi : a < 0x200000) (halign : a % 4 = 0)
    (hodd : (ram a).toNat % 2 = 1) :
    ∃ vaddr : UInt32, 0xc0100000 ≤ vaddr.toNat ∧ vaddr.toNat < 0xffc00000 ∧
      translate pageDirTablePos (setupPage ram) vaddr ≠ .error .pageFault := by
  -- the table and the slot that the address belongs to
  have hvaddr : (UInt32.ofNat (0xc0000000 + 0x1000 * ((a - 0x101000) / 4))).toNat =
      0xc0000000 + 0x1000 * ((a - 0x101000) / 4) := by
    rw [UInt32.toNat_ofNat']
    omega
  generalize UInt32.ofNat (0xc0000000 + 0x1000 * ((a - 0x101000) / 4)) = vaddr at hvaddr
  have hdir : dirIndex vaddr = 768 + (a - 0x101000) / 0x1000 := by
    unfold dirIndex
    omega
  have hentry : bootTable (dirIndex vaddr) + 4 * tableIndex vaddr = a := by
    unfold bootTable tableIndex
    rw [if_neg (by omega), hdir, hvaddr]
    omega
  have hstale : 256 ≤ tableIndex vaddr ∨ 769 ≤ dirIndex vaddr := by
    unfold tableIndex
    omega
  have hpresent := @setupPage_stale_entry ram (dirIndex vaddr) (tableIndex vaddr) (by omega)
    (by omega) hstale
  rw [hentry, hodd] at hpresent
  refine ⟨vaddr, by omega, by omega, ?_⟩
  rw [translate_eq ?_ hpresent]
  · exact nofun
  · rw [setupPage_dir ram (by omega)]
    exact (bootDirEntry_table (by omega) (by omega)).1

/-- Memory without such entries gives the address space that is meant. -/
theorem TablesClear.initialSpace (h : TablesClear ram) : InitialSpace (setupPage ram) := by
  refine ⟨?_, ?_, ?_, ?_⟩
  · intro vaddr hv
    rw [setupPage_mapped (by unfold dirIndex; omega) (by unfold tableIndex; omega)]
    refine congrArg Except.ok ?_
    unfold tableIndex
    omega
  · intro vaddr hlo hhi
    rw [setupPage_mapped (by unfold dirIndex; omega) (by unfold tableIndex; omega)]
    refine congrArg Except.ok ?_
    unfold tableIndex
    omega
  · intro vaddr hlo hside hwin
    by_cases hnone : dirIndex vaddr ≠ 0 ∧ dirIndex vaddr < 768
    · exact setupPage_unmapped hnone.1 hnone.2
    · have hlt : dirIndex vaddr < 1023 := by
        unfold dirIndex
        omega
      have hcase : dirIndex vaddr = 0 ∨ 768 ≤ dirIndex vaddr := by omega
      have hstale : 256 ≤ tableIndex vaddr ∨ 769 ≤ dirIndex vaddr := by
        unfold tableIndex dirIndex at *
        omega
      have hentry := h.entry hlt hcase (tableIndex_lt vaddr) hstale
      have hdir := (bootDirEntry_table hlt hcase).1
      rw [← setupPage_dir ram (show dirIndex vaddr < 0x400 by omega)] at hdir
      simp only [translate, hdir, hentry, assert_true, assert_false, ok_bind, error_bind]
  · intro vaddr hlo hhi
    have hlt : dirIndex vaddr < 1023 := by
      unfold dirIndex
      omega
    have hcase : 768 ≤ dirIndex vaddr := by
      unfold dirIndex
      omega
    have hstale : 256 ≤ tableIndex vaddr ∨ 769 ≤ dirIndex vaddr := by
      unfold tableIndex dirIndex
      omega
    have hentry := h.entry hlt (Or.inr hcase) (tableIndex_lt vaddr) hstale
    have hdir := (bootDirEntry_table hlt (Or.inr hcase)).1
    rw [← setupPage_dir ram (show dirIndex vaddr < 0x400 by omega)] at hdir
    refine ⟨_, (setupPage_tables ram).recursive.load32_ptePtr hdir, ?_⟩
    by_contra hne
    rw [← ne_eq, present_iff, hentry] at hne
    cases hne

/-- **The initial address space** is right exactly when the memory under the tables held no present
entry before. -/
theorem setupPage_initial_iff (ram : ByteMemory) :
    InitialSpace (setupPage ram) ↔ TablesClear ram := by
  constructor
  · intro h a hlo hhi halign
    by_contra hne
    obtain ⟨vaddr, hv, hv', hmapped⟩ := stale_mapped ram hlo hhi halign (by omega)
    exact hmapped (h.absent vaddr (by omega) (Or.inr hv) hv')
  · exact TablesClear.initialSpace

/-- Memory full of ones: the heap is mapped from the start. -/
theorem setupPage_stale_ones : ¬ InitialSpace (setupPage fun _ => 1) := by
  intro h
  obtain ⟨vaddr, hlo, hhi, hmapped⟩ := stale_mapped (fun _ => 1)
    (show 0x101400 ≤ 0x102000 by decide) (by decide) (by decide) rfl
  exact hmapped (h.absent vaddr (by omega) (Or.inr hlo) hhi)

end Space

end OsKernel
