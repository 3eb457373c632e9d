import OsKernel.Memory.Growth
import OsKernel.Userprog.Process

/-!
# The frames behind page tables

When the first page of a 4 MB region is mapped, `page_table_add` takes a frame for the page table
from `kernel_pool`, and goes on with the frame 0 if there is none. As long as this does not happen,
every page table has a frame of its own that is mapped nowhere.

- `TableInv`: the frames of page tables, directories and pages stay apart.
- `userTurn`, `mallocLoop_user`, `getAPage_tables`: the operations on user pages.
- `TablesServed`: there are frames for the tables that a call has to make.
- `pageTables_owned`: every page table has a frame of its own, in every run where this holds.
-/

namespace OsKernel

open Lib

/-! ## Page tables -/

/-- The end of the frames of `kernel_pool`. -/
def kernelEnd (p : Pools) : Nat := poolStart + 0x1000 * p.kernelPool.poolBitmap.size

/-- A page table that `page_table_add` has made: all tables of user addresses are, but for the
first one of the boot loader. -/
structure MadeTable (m : Memory) (d i : Nat) : Prop where
  user : i < 768
  present : present (dirEntry d m.ram i) = true
  made : d = pageDirTablePos → i ≠ 0

/-- The frame of a page that the directory `d` maps, outside the recursive window. -/
structure MapsFrame (m : Memory) (d i j f : Nat) : Prop where
  dir : i < 1023
  table : j < 0x400
  dir_present : present (dirEntry d m.ram i) = true
  present : present (tableEntry d m.ram i j) = true
  frame : frame (tableEntry d m.ram i j) = f

/-- The virtual addresses of a process are page addresses below the kernel. -/
structure UserRange (va : VirtualAddr) : Prop where
  aligned : va.vaddrStart.toNat % 0x1000 = 0
  bound : va.vaddrStart.toNat + 0x1000 * va.vaddrBitmap.size ≤ 0xc0000000

/-- Page tables, directories and pages have frames of their own. -/
structure TableInv (m : Memory) (dirs : List Nat) : Prop where
  spaces : Spaces m dirs
  userOk : m.userPool.Ok
  apart : kernelEnd m.toPools ≤ m.userPool.phyAddrStart.toNat
  boot : pageDirTablePos ∈ dirs
  first : dirEntry pageDirTablePos m.ram 0 = bootDirEntry 0
  dirs_low : ∀ d ∈ dirs, d + 0x1000 ≤ kernelEnd m.toPools
  owned : ∀ d ∈ dirs, ∀ i, MadeTable m d i → ∃ f, f < m.kernelPool.poolBitmap.size ∧
    frame (dirEntry d m.ram i) = poolStart + 0x1000 * f
  distinct : ∀ d ∈ dirs, ∀ d' ∈ dirs, ∀ i i', MadeTable m d i → MadeTable m d' i' →
    frame (dirEntry d m.ram i) = frame (dirEntry d' m.ram i') → d = d' ∧ i = i'
  pages : ∀ d ∈ dirs, ∀ i j f, MapsFrame m d i j f → ¬ m.kernelPool.FreeFrame f ∧
    ∀ d' ∈ dirs, ∀ i', MadeTable m d' i' → f ≠ frame (dirEntry d' m.ram i')
  users : ∀ t, UserRange (m.userprogVaddr t)

section TableInv

variable {t : Tid} {m m' : Memory} {dirs : List Nat} {d : Nat}

/-- Every page table lies below the end of `kernel_pool`. -/
theorem TableInv.table_low (h : TableInv m dirs) (hd : d ∈ dirs) {i : Nat} (hi : i < 1023)
    (hpresent : present (dirEntry d m.ram i) = true) :
    frame (dirEntry d m.ram i) + 0x1000 ≤ kernelEnd m.toPools ∧
      (MadeTable m d i ∨ frame (dirEntry d m.ram i) < poolStart) := by
  have hpool : poolStart = 0x200000 := rfl
  by_cases hmade : i < 768 ∧ (d = pageDirTablePos → i ≠ 0)
  · have hm : MadeTable m d i := ⟨hmade.1, hpresent, hmade.2⟩
    obtain ⟨f, hf, hframe⟩ := h.owned d hd i hm
    refine ⟨?_, Or.inl hm⟩
    unfold kernelEnd
    omega
  · -- one of the boot loader's tables
    have hboot : dirEntry d m.ram i = bootDirEntry i ∧ (i = 0 ∨ 768 ≤ i) := by
      by_cases hlo : 768 ≤ i
      · exact ⟨h.spaces.kernel d hd i hlo hi, Or.inr hlo⟩
      · have hfirst : d = pageDirTablePos ∧ i = 0 := by
          by_contra hne
          exact hmade ⟨by omega, fun heq hzero => hne ⟨heq, hzero⟩⟩
        rw [hfirst.1, hfirst.2]
        exact ⟨h.first, Or.inl rfl⟩
    have hframe : frame (dirEntry d m.ram i) + 0x1000 ≤ poolStart := by
      rw [hboot.1, (bootDirEntry_table hi hboot.2).2, bootTable]
      split
      · omega
      · omega
    refine ⟨?_, Or.inr (by omega)⟩
    unfold kernelEnd
    omega

/-- The bytes above `kernel_pool` are not part of the paging structures. -/
theorem TableInv.entries_low (h : TableInv m dirs) {ram' : ByteMemory}
    (hram : ∀ x, x < kernelEnd m.toPools → ram' x = m.ram x) (hd : d ∈ dirs) :
    (∀ i, i < 0x400 → dirEntry d ram' i = dirEntry d m.ram i) ∧
      ∀ i j, i < 1023 → j < 0x400 → present (dirEntry d m.ram i) = true →
        tableEntry d ram' i j = tableEntry d m.ram i j := by
  have hlow := h.dirs_low d hd
  have hdir : ByteMemory.EqOn d 0x1000 m.ram ram' := fun x _ hhi => hram x (by omega)
  refine ⟨fun i hi => dirEntry_congr hdir hi, fun i j hi hj hpresent => ?_⟩
  have htable := (h.table_low hd hi hpresent).1
  exact tableEntry_congr hdir (fun x _ hhi => hram x (by omega)) (by omega) hj

/-- The frame `f` has not been in use before. -/
def NewFrame (m m' : Memory) (f : Nat) : Prop :=
  (m.kernelPool.FreeFrame f ∧ ¬ m'.kernelPool.FreeFrame f) ∨ kernelEnd m.toPools ≤ f

/-- **No table is made**: the directories are as they were, and pages are mapped to new frames
only. -/
theorem TableInv.remap (h : TableInv m dirs) (hpools : KernelPools m'.toPools)
    (hsize : m'.kernelPool.poolBitmap.size = m.kernelPool.poolBitmap.size)
    (hfree : ∀ a, m'.kernelPool.FreeFrame a → m.kernelPool.FreeFrame a)
    (huser : m'.userPool.Ok) (hstart : m'.userPool.phyAddrStart = m.userPool.phyAddrStart)
    (husers : ∀ t, UserRange (m'.userprogVaddr t))
    (hdirs : ∀ d ∈ dirs, ByteMemory.EqOn d 0x1000 m.ram m'.ram)
    (hentry : ∀ d ∈ dirs, ∀ i j, i < 1023 → j < 0x400 → present (dirEntry d m.ram i) = true →
      present (tableEntry d m'.ram i j) = true →
      tableEntry d m'.ram i j = tableEntry d m.ram i j ∨
        NewFrame m m' (frame (tableEntry d m'.ram i j))) : TableInv m' dirs := by
  have hend : kernelEnd m'.toPools = kernelEnd m.toPools := by
    unfold kernelEnd
    rw [hsize]
  have hdir : ∀ d ∈ dirs, ∀ i, i < 0x400 → dirEntry d m'.ram i = dirEntry d m.ram i :=
    fun d hd i hi => dirEntry_congr (hdirs d hd) hi
  have hmade : ∀ d ∈ dirs, ∀ i, MadeTable m' d i → MadeTable m d i := by
    intro d hd i hm
    have huser := hm.user
    exact ⟨hm.user, hdir d hd i (by omega) ▸ hm.present, hm.made⟩
  refine ⟨h.spaces.congr hpools hfree hdirs, huser, ?_, h.boot, ?_, ?_, ?_, ?_, ?_, husers⟩
  · rw [hend, hstart]
    exact h.apart
  · rw [hdir _ h.boot 0 (by decide)]
    exact h.first
  · rw [hend]
    exact h.dirs_low
  · intro d hd i hm
    have huser := hm.user
    rw [hdir d hd i (by omega), hsize]
    exact h.owned d hd i (hmade d hd i hm)
  · intro d hd d' hd' i i' hm hm' hframe
    have huser := hm.user
    have huser' := hm'.user
    rw [hdir d hd i (by omega), hdir d' hd' i' (by omega)] at hframe
    exact h.distinct d hd d' hd' i i' (hmade d hd i hm) (hmade d' hd' i' hm') hframe
  · intro d hd i j f hmaps
    have hpresent := hmaps.dir_present
    have hi := hmaps.dir
    rw [hdir d hd i (by omega)] at hpresent
    rcases hentry d hd i j hmaps.dir hmaps.table hpresent hmaps.present with hsame | hnew
    · -- an old page
      have hold : MapsFrame m d i j f :=
        ⟨hmaps.dir, hmaps.table, hpresent, hsame ▸ hmaps.present, hsame ▸ hmaps.frame⟩
      obtain ⟨hused, hnot⟩ := h.pages d hd i j f hold
      refine ⟨fun hf => hused (hfree f hf), fun d' hd' i' hm => ?_⟩
      have huser := hm.user
      rw [hdir d' hd' i' (by omega)]
      exact hnot d' hd' i' (hmade d' hd' i' hm)
    · -- a new one
      rw [hmaps.frame] at hnew
      have hnotTable : ∀ d' ∈ dirs, ∀ i', MadeTable m d' i' → f ≠ frame (dirEntry d' m.ram i') := by
        intro d' hd' i' hm heq
        have huser := hm.user
        rcases hnew with ⟨hfree', -⟩ | hhigh
        · exact (h.spaces.tables d' hd' i' (by omega) hm.present).2 (heq ▸ hfree')
        · have hlow := (h.table_low hd' (show i' < 1023 by omega) hm.present).1
          omega
      refine ⟨?_, fun d' hd' i' hm => ?_⟩
      · rcases hnew with ⟨-, hused⟩ | hhigh
        · exact hused
        · intro hf
          obtain ⟨-, -, hlt⟩ := h.spaces.pools.ok.free (hfree f hf)
          rw [h.spaces.pools.phyAddrStart] at hlt
          unfold kernelEnd at hhigh
          omega
      · have huser := hm.user
        rw [hdir d' hd' i' (by omega)]
        exact hnotTable d' hd' i' (hmade d' hd' i' hm)

/-- **Operations on the kernel heap.** -/
theorem HeapStep.tables (hstep : HeapStep m m') (h : TableInv m dirs) : TableInv m' dirs := by
  -- a page that is neither free nor one of the heap's tables
  have hpage : ∀ a, a % 4 = 0 → ¬ (0x101400 ≤ a ∧ a < 0x141400) →
      ¬ m.kernelPool.FreeFrame (a / 0x1000 * 0x1000) → m'.ram.read32 a = m.ram.read32 a := by
    intro a ha harea hused
    refine ByteMemory.read32_congr fun k hk => hstep.ram _ (by omega) fun q hq hin => hused ?_
    have haligned := (h.spaces.pools.free hq).1
    have heq : a / 0x1000 * 0x1000 = q := by omega
    exact heq ▸ hq
  refine h.remap hstep.pools hstep.size hstep.free (hstep.userPool ▸ h.userOk)
    (by rw [hstep.userPool]) (fun t => by rw [hstep.userprogVaddr]; exact h.users t)
    (fun d hd => hstep.eqOn_dir h.spaces hd) ?_
  · intro d hd i j hi hj hpresent hmapped
    have hdir : dirEntry d m'.ram i = dirEntry d m.ram i :=
      dirEntry_congr (hstep.eqOn_dir h.spaces hd) (by omega)
    have haligned := frame_aligned (dirEntry d m.ram i)
    unfold tableEntry at hmapped ⊢
    rw [hdir] at hmapped ⊢
    by_cases harea : 0x101400 ≤ frame (dirEntry d m.ram i) + 4 * j ∧
        frame (dirEntry d m.ram i) + 4 * j < 0x141400
    · -- an entry of the heap
      obtain ⟨s, hs, hplace⟩ : ∃ s, s < 0x10000 ∧
          frame (dirEntry d m.ram i) + 4 * j = heapPlace s := by
        refine ⟨(frame (dirEntry d m.ram i) + 4 * j - 0x101400) / 4, by omega, ?_⟩
        unfold heapPlace
        omega
      rw [hplace]
      rcases hstep.entry s hs with hsame | ⟨q, hfree, hused, hnew⟩
      · exact Or.inl hsame
      · rw [hnew, frame_entryOf (h.spaces.pools.free hfree).1]
        exact Or.inr (Or.inl ⟨hfree, hused⟩)
    · refine Or.inl (hpage _ (by omega) harea ?_)
      have heq : (frame (dirEntry d m.ram i) + 4 * j) / 0x1000 * 0x1000 =
          frame (dirEntry d m.ram i) := by omega
      rw [heq]
      exact (h.spaces.tables d hd i hi hpresent).2

end TableInv

/-! ## One user page -/

/-- What mapping the page of `vaddr` to the frame `p` does to the active directory. -/
structure UserPage (t : Tid) (vaddr p : UInt32) (m m' : Memory) : Prop where
  cr3 : m'.cr3 = m.cr3
  userPool : m'.userPool = m.userPool
  size : kernelEnd m'.toPools = kernelEnd m.toPools
  dir_self : present (dirEntry (m.cr3 t) m'.ram (dirIndex vaddr)) = true
  dir_other : ∀ i, i < 0x400 → i ≠ dirIndex vaddr →
    dirEntry (m.cr3 t) m'.ram i = dirEntry (m.cr3 t) m.ram i
  frames : m'.kernelPool.freeFrames +
    (if present (dirEntry (m.cr3 t) m.ram (dirIndex vaddr)) then 0 else 1) = m.kernelPool.freeFrames
  self : tableEntry (m.cr3 t) m'.ram (dirIndex vaddr) (tableIndex vaddr) = entryOf p
  kept : ∀ i j f, MapsFrame m (m.cr3 t) i j f → MapsFrame m' (m.cr3 t) i j f

section UserTurn

variable {t : Tid} {m m' : Memory} {dirs : List Nat} {vaddr p : UInt32}

/-- An entry in a table that is there. -/
theorem userTurn_entry (h : TableInv m dirs) (hd : m.cr3 t ∈ dirs) (hv : dirIndex vaddr < 768)
    (hp : p.toNat % 0x1000 = 0) (hhigh : kernelEnd m.toPools ≤ p.toNat)
    (hdir : present (dirEntry (m.cr3 t) m.ram (dirIndex vaddr)) = true)
    (hentry : present (tableEntry (m.cr3 t) m.ram (dirIndex vaddr) (tableIndex vaddr)) = false)
    {F : Nat} (hplace : frame (dirEntry (m.cr3 t) m.ram (dirIndex vaddr)) = F) :
    TableInv { m with ram := m.ram.write32 (F + 4 * tableIndex vaddr) (entryOf p) } dirs ∧
    UserPage t vaddr p m
      { m with ram := m.ram.write32 (F + 4 * tableIndex vaddr) (entryOf p) } := by
  have hslot := tableIndex_lt vaddr
  have hframe := frame_aligned (dirEntry (m.cr3 t) m.ram (dirIndex vaddr))
  obtain ⟨hnot, -⟩ := h.spaces.tables _ hd _ (show dirIndex vaddr < 1023 by omega) hdir
  rw [hplace] at hframe hnot
  have hdirs : ∀ d ∈ dirs, ByteMemory.EqOn d 0x1000 m.ram
      (m.ram.write32 (F + 4 * tableIndex vaddr) (entryOf p)) :=
    h.spaces.eqOn_page hframe hnot fun a ha => ByteMemory.write32_outside (by omega)
  -- an entry at another place stays
  have hother : ∀ d ∈ dirs, ∀ i j, i < 0x400 → j < 0x400 →
      tableEntry d (m.ram.write32 (F + 4 * tableIndex vaddr) (entryOf p)) i j =
        if frame (dirEntry d m.ram i) = F ∧ j = tableIndex vaddr then entryOf p
        else tableEntry d m.ram i j := by
    intro d hd' i j hi hj
    have haligned := frame_aligned (dirEntry d m.ram i)
    rw [tableEntry, dirEntry_congr (hdirs d hd') hi]
    by_cases hsame : frame (dirEntry d m.ram i) = F ∧ j = tableIndex vaddr
    · rw [if_pos hsame, hsame.1, hsame.2]
      exact ByteMemory.read32_write32 _ _ _
    · rw [if_neg hsame]
      apply ByteMemory.read32_write32_of_disjoint
      by_cases heq : frame (dirEntry d m.ram i) = F
      · have hne : j ≠ tableIndex vaddr := fun hj' => hsame ⟨heq, hj'⟩
        omega
      · omega
  have hactive := fun i hi => @dirEntry_congr _ _ _ (hdirs _ hd) i hi
  refine ⟨h.remap h.spaces.pools rfl (fun _ ha => ha) h.userOk rfl h.users hdirs ?_, ?_⟩
  · intro d hd' i j hi hj _ _
    dsimp only
    rw [hother d hd' i j (by omega) hj]
    by_cases hsame : frame (dirEntry d m.ram i) = F ∧ j = tableIndex vaddr
    · rw [if_pos hsame, frame_entryOf hp]
      exact Or.inr (Or.inr hhigh)
    · rw [if_neg hsame]
      exact Or.inl rfl
  · refine ⟨rfl, rfl, rfl, ?_, fun i hi _ => hactive i hi, ?_, ?_, ?_⟩
    · rw [hactive _ (dirIndex_lt vaddr)]
      exact hdir
    · rw [if_pos hdir]
      rfl
    · rw [hother _ hd _ _ (dirIndex_lt vaddr) hslot, if_pos ⟨hplace, rfl⟩]
    · intro i j f hmaps
      have hi := hmaps.dir
      have hkeep : tableEntry (m.cr3 t) (m.ram.write32 (F + 4 * tableIndex vaddr) (entryOf p)) i j =
          tableEntry (m.cr3 t) m.ram i j := by
        rw [hother _ hd i j (by omega) hmaps.table]
        refine if_neg fun hsame => ?_
        -- the place was free
        have hpresent := hmaps.present
        rw [tableEntry, hsame.1, hsame.2, ← hplace] at hpresent
        exact absurd (hpresent.symm.trans hentry) (by decide)
      refine ⟨hmaps.dir, hmaps.table, ?_, ?_, ?_⟩
      · rw [hactive i (by omega)]
        exact hmaps.dir_present
      · rw [hkeep]
        exact hmaps.present
      · rw [hkeep]
        exact hmaps.frame

/-- The table of `vaddr` is new, in the frame `q`, and has the entry for the frame `p`. -/
structure FirstEntry (t : Tid) (vaddr p q : UInt32) (pool : Pool) (ram : ByteMemory) (m : Memory)
    (dirs : List Nat) : Prop where
  inv : TableInv m dirs
  active : m.cr3 t ∈ dirs
  page : p.toNat % 0x1000 = 0
  high : kernelEnd m.toPools ≤ p.toNat
  absent : present (dirEntry (m.cr3 t) m.ram (dirIndex vaddr)) = false
  spaces : Spaces { m with kernelPool := pool, ram := ram } dirs
  taken : Taken m.kernelPool q.toNat pool
  made : TableMade dirs (m.cr3 t) (dirIndex vaddr) (tableIndex vaddr) q (entryOf p) m.ram ram

section FirstEntry

variable {q : UInt32} {pool : Pool} {ram : ByteMemory} {d i j f : Nat}

theorem FirstEntry.aligned (h : FirstEntry t vaddr p q pool ram m dirs) : q.toNat % 0x1000 = 0 :=
  (h.inv.spaces.pools.free h.taken.free).1

theorem FirstEntry.kernelEnd (h : FirstEntry t vaddr p q pool ram m dirs) :
    OsKernel.kernelEnd { m.toPools with kernelPool := pool } = OsKernel.kernelEnd m.toPools := by
  have hsize := h.taken.area.size
  unfold OsKernel.kernelEnd
  dsimp only
  rw [hsize]

/-- All other directory entries stay. -/
theorem FirstEntry.dir_kept (h : FirstEntry t vaddr p q pool ram m dirs) (hd : d ∈ dirs)
    (hi : i < 0x400) (hne : ¬ (d = m.cr3 t ∧ i = dirIndex vaddr)) :
    dirEntry d ram i = dirEntry d m.ram i :=
  h.made.dir_other d hd i hi fun heq hi' => hne ⟨heq, hi'⟩

theorem FirstEntry.frame_self (h : FirstEntry t vaddr p q pool ram m dirs) :
    frame (dirEntry (m.cr3 t) ram (dirIndex vaddr)) = q.toNat := by
  rw [h.made.dir_self, frame_entryOf h.aligned]

/-- The other tables stay. -/
theorem FirstEntry.table_kept (h : FirstEntry t vaddr p q pool ram m dirs) (hd : d ∈ dirs)
    (hi : i < 1023) (hj : j < 0x400) (hpresent : present (dirEntry d m.ram i) = true) :
    tableEntry d ram i j = tableEntry d m.ram i j := by
  obtain ⟨hnot, hused⟩ := h.inv.spaces.tables d hd i hi hpresent
  have hframe := frame_aligned (dirEntry d m.ram i)
  have hne : ¬ (d = m.cr3 t ∧ i = dirIndex vaddr) := by
    intro ⟨heq, hi'⟩
    rw [heq, hi', h.absent] at hpresent
    cases hpresent
  rw [tableEntry, tableEntry, h.dir_kept hd (by omega) hne]
  have hpage := h.made.outside _ hframe hnot fun heq => hused (heq ▸ h.taken.free)
  exact hpage.read32 (by omega) (by omega)

theorem FirstEntry.entry (h : FirstEntry t vaddr p q pool ram m dirs) (hj : j < 0x400) :
    tableEntry (m.cr3 t) ram (dirIndex vaddr) j = if j = tableIndex vaddr then entryOf p else 0 := by
  rw [tableEntry, h.frame_self]
  exact h.made.table j hj

/-- A mapping is an old one or that of `vaddr`. -/
theorem FirstEntry.maps_cases (h : FirstEntry t vaddr p q pool ram m dirs) (hd : d ∈ dirs)
    (hmaps : MapsFrame { m with kernelPool := pool, ram := ram } d i j f) :
    MapsFrame m d i j f ∨ (d = m.cr3 t ∧ i = dirIndex vaddr ∧ f = p.toNat) := by
  have hi := hmaps.dir
  have hpresent := hmaps.dir_present
  have hmapped := hmaps.present
  have hframe := hmaps.frame
  have hzero : present 0 = false := rfl
  dsimp only at hpresent hmapped hframe
  by_cases hplace : d = m.cr3 t ∧ i = dirIndex vaddr
  · rw [hplace.1, hplace.2, h.entry hmaps.table] at hmapped hframe
    by_cases hj : j = tableIndex vaddr
    · rw [if_pos hj, frame_entryOf h.page] at hframe
      exact Or.inr ⟨hplace.1, hplace.2, hframe.symm⟩
    · rw [if_neg hj, hzero] at hmapped
      cases hmapped
  · rw [h.dir_kept hd (by omega) hplace] at hpresent
    have hkeep := h.table_kept hd hmaps.dir hmaps.table hpresent
    exact Or.inl ⟨hmaps.dir, hmaps.table, hpresent, hkeep ▸ hmapped, hkeep ▸ hframe⟩

/-- A table is an old one or that of `vaddr`. -/
theorem FirstEntry.made_cases (h : FirstEntry t vaddr p q pool ram m dirs) (hd : d ∈ dirs)
    (hm : MadeTable { m with kernelPool := pool, ram := ram } d i) :
    MadeTable m d i ∧ dirEntry d ram i = dirEntry d m.ram i ∨
      d = m.cr3 t ∧ i = dirIndex vaddr ∧ frame (dirEntry d ram i) = q.toNat := by
  have huser := hm.user
  by_cases hplace : d = m.cr3 t ∧ i = dirIndex vaddr
  · rw [hplace.1, hplace.2]
    exact Or.inr ⟨rfl, rfl, h.frame_self⟩
  · have hkeep := h.dir_kept hd (by omega) hplace
    exact Or.inl ⟨⟨hm.user, hkeep ▸ hm.present, hm.made⟩, hkeep⟩

/-- The new table shares its frame with no other. -/
theorem FirstEntry.distinct (h : FirstEntry t vaddr p q pool ram m dirs) {d' i' : Nat} (hd : d ∈ dirs)
    (hd' : d' ∈ dirs) (hm : MadeTable { m with kernelPool := pool, ram := ram } d i)
    (hm' : MadeTable { m with kernelPool := pool, ram := ram } d' i')
    (hframes : frame (dirEntry d ram i) = frame (dirEntry d' ram i')) : d = d' ∧ i = i' := by
  have huser := hm.user
  have huser' := hm'.user
  rcases h.made_cases hd hm with ⟨hold, hkeep⟩ | ⟨heq, hi, hframe⟩
  · rcases h.made_cases hd' hm' with ⟨hold', hkeep'⟩ | ⟨-, -, hframe'⟩
    · rw [hkeep, hkeep'] at hframes
      exact h.inv.distinct d hd d' hd' i i' hold hold' hframes
    · rw [hkeep, hframe'] at hframes
      have hused := (h.inv.spaces.tables d hd i (by omega) hold.present).2
      exact absurd (hframes ▸ h.taken.free) hused
  · rcases h.made_cases hd' hm' with ⟨hold', hkeep'⟩ | ⟨heq', hi', -⟩
    · rw [hframe, hkeep'] at hframes
      have hused := (h.inv.spaces.tables d' hd' i' (by omega) hold'.present).2
      exact absurd (hframes ▸ h.taken.free) hused
    · exact ⟨heq.trans heq'.symm, hi.trans hi'.symm⟩

/-- No mapped page is a page table. -/
theorem FirstEntry.pages (h : FirstEntry t vaddr p q pool ram m dirs) (hd : d ∈ dirs)
    (hmaps : MapsFrame { m with kernelPool := pool, ram := ram } d i j f) :
    ¬ pool.FreeFrame f ∧ ∀ d' ∈ dirs, ∀ i',
      MadeTable { m with kernelPool := pool, ram := ram } d' i' → f ≠ frame (dirEntry d' ram i') := by
  have hless : ∀ a, pool.FreeFrame a → m.kernelPool.FreeFrame a :=
    fun a ha => ((h.taken.rest a).mp ha).1
  rcases h.maps_cases hd hmaps with hold | ⟨-, -, rfl⟩
  · obtain ⟨hused, hnot⟩ := h.inv.pages d hd i j f hold
    refine ⟨fun hf => hused (hless f hf), fun d' hd' i' hm' => ?_⟩
    rcases h.made_cases hd' hm' with ⟨hold', hkeep'⟩ | ⟨-, -, hframe'⟩
    · rw [hkeep']
      exact hnot d' hd' i' hold'
    · rw [hframe']
      exact fun heq => hused (heq ▸ h.taken.free)
  · -- the page is a user frame, and those lie above every frame of the kernel's pool
    have hhigh := h.high
    unfold OsKernel.kernelEnd at hhigh
    have hbelow : ∀ a, m.kernelPool.FreeFrame a → a < p.toNat := by
      intro a ha
      obtain ⟨-, -, hlt⟩ := h.inv.spaces.pools.ok.free ha
      rw [h.inv.spaces.pools.phyAddrStart] at hlt
      omega
    refine ⟨fun hf => absurd (hbelow _ (hless _ hf)) (Nat.lt_irrefl _), fun d' hd' i' hm' => ?_⟩
    have huser' := hm'.user
    rcases h.made_cases hd' hm' with ⟨hold', hkeep'⟩ | ⟨-, -, hframe'⟩
    · have hlow := (h.inv.table_low hd' (show i' < 1023 by omega) hold'.present).1
      unfold OsKernel.kernelEnd at hlow
      rw [hkeep']
      omega
    · rw [hframe']
      exact (hbelow _ h.taken.free).ne'

theorem FirstEntry.tableInv (h : FirstEntry t vaddr p q pool ram m dirs) :
    TableInv { m with kernelPool := pool, ram := ram } dirs := by
  have hsize := h.taken.area.size
  refine ⟨h.spaces, h.inv.userOk, ?_, h.inv.boot, ?_, ?_, ?_, ?_, ?_, h.inv.users⟩
  · rw [h.kernelEnd]
    exact h.inv.apart
  · rw [← h.inv.first]
    refine h.dir_kept h.inv.boot (show 0 < 0x400 by decide) fun hplace => ?_
    -- the first table of the boot loader is there
    have habsent := h.absent
    rw [← hplace.1, ← hplace.2, h.inv.first] at habsent
    cases habsent
  · rw [h.kernelEnd]
    exact h.inv.dirs_low
  · intro d hd i hm
    dsimp only
    rw [hsize]
    rcases h.made_cases hd hm with ⟨hold, hkeep⟩ | ⟨-, -, hframe⟩
    · rw [hkeep]
      exact h.inv.owned d hd i hold
    · rw [hframe]
      obtain ⟨f, hf, -, hq⟩ := h.taken.free
      rw [h.inv.spaces.pools.phyAddrStart] at hq
      exact ⟨f, hf, hq⟩
  · exact fun d hd d' hd' i i' hm hm' hframes => h.distinct hd hd' hm hm' hframes
  · exact fun d hd i j f hmaps => h.pages hd hmaps

theorem FirstEntry.userPage (h : FirstEntry t vaddr p q pool ram m dirs) :
    UserPage t vaddr p m { m with kernelPool := pool, ram := ram } := by
  have hslot := tableIndex_lt vaddr
  refine ⟨rfl, rfl, h.kernelEnd, ?_, ?_, ?_, ?_, ?_⟩
  · dsimp only
    rw [h.made.dir_self]
    exact present_entryOf h.aligned
  · exact fun i hi hne => h.dir_kept h.active hi fun hplace => hne hplace.2
  · rw [if_neg (by rw [h.absent]; decide)]
    exact h.taken.count
  · exact (h.entry hslot).trans (if_pos rfl)
  · intro i j f hm
    have hi := hm.dir
    have hkeep := h.table_kept h.active hm.dir hm.table hm.dir_present
    refine ⟨hm.dir, hm.table, ?_, hkeep ▸ hm.present, hkeep ▸ hm.frame⟩
    dsimp only
    rw [h.dir_kept h.active (show i < 0x400 by omega) fun hplace => ?_]
    · exact hm.dir_present
    · have hpresent := hm.dir_present
      rw [hplace.2, h.absent] at hpresent
      cases hpresent

end FirstEntry

/-- **A turn on a user page**, with a frame for the table if one is needed. -/
theorem userTurn (h : TableInv m dirs) (hd : m.cr3 t ∈ dirs) (hv : dirIndex vaddr < 768)
    (hp : p.toNat % 0x1000 = 0) (hhigh : kernelEnd m.toPools ≤ p.toNat)
    (hroom : present (dirEntry (m.cr3 t) m.ram (dirIndex vaddr)) = false →
      0 < m.kernelPool.freeFrames)
    (hret : pageTableAdd t vaddr p m = .ok m') : TableInv m' dirs ∧ UserPage t vaddr p m m' := by
  obtain ⟨hspaces, -, -⟩ := pageTableAdd_spaces h.spaces hd hv hret
  obtain ⟨-, -, hadd⟩ := pageTableAdd_inv (h.spaces.last _ hd) (fun _ q pool hpalloc => by
    obtain ⟨haligned, hnot, -⟩ := h.spaces.newTable hpalloc
    exact ⟨haligned, fun heq => hnot (heq ▸ hd)⟩) hret
  cases hadd with
  | entry hdir hentry => exact userTurn_entry h hd hv hp hhigh hdir hentry rfl
  | table hdir hpalloc hfilled =>
    obtain ⟨haligned, hnot, -⟩ := h.spaces.newTable hpalloc
    have hmade := h.spaces.tableMade (e := entryOf p) hd (dirIndex_lt vaddr) (tableIndex_lt vaddr)
      haligned hnot hfilled
    rcases palloc_taken h.spaces.pools.ok hpalloc with ⟨-, -, hnone⟩ | ⟨-, htaken⟩
    · have hpos := hroom hdir
      omega
    · have hfirst : FirstEntry t vaddr p _ _ _ m dirs :=
        ⟨h, hd, hp, hhigh, hdir, hspaces, htaken, hmade⟩
      exact ⟨hfirst.tableInv, hfirst.userPage⟩

end UserTurn

/-! ## Enough frames for the tables -/

/-- How many of the directory entries `lo`, ..., `hi` have no table. -/
def missingTables (d : Nat) (ram : ByteMemory) (lo hi : Nat) : Nat :=
  freeCount (fun i => decide (i < lo) || present (dirEntry d ram i)) (hi + 1)

/-- There are frames for the tables of `cnt` pages from `vaddr` on. -/
def TablesServed (m : Memory) (d : Nat) (vaddr : UInt32) (cnt : Nat) : Prop :=
  0 < cnt → missingTables d m.ram (vaddr.toNat / 0x400000)
    ((vaddr.toNat + 0x1000 * (cnt - 1)) / 0x400000) ≤ m.kernelPool.freeFrames

/-- The page `vaddr + 0x1000 * k` is mapped to a user frame. -/
def UserMapped (m : Memory) (d : Nat) (vaddr : UInt32) (k : Nat) : Prop :=
  ∃ f, kernelEnd m.toPools ≤ f ∧
    MapsFrame m d ((vaddr.toNat + 0x1000 * k) / 0x400000)
      ((vaddr.toNat + 0x1000 * k) / 0x1000 % 0x400) f

section Served

variable {t : Tid} {m m' : Memory} {dirs : List Nat} {vaddr p : UInt32} {cnt : Nat}

/-- If the first table is missing there is a frame for it. -/
theorem TablesServed.room {d : Nat} (h : TablesServed m d vaddr (cnt + 1))
    (hdir : present (dirEntry d m.ram (dirIndex vaddr)) = false) :
    0 < m.kernelPool.freeFrames := by
  have hle := h (Nat.succ_pos cnt)
  have hmark := @freeCount_mark (fun i => decide (i < dirIndex vaddr) || present (dirEntry d m.ram i))
    ((vaddr.toNat + 0x1000 * (cnt + 1 - 1)) / 0x400000 + 1) (dirIndex vaddr)
    (by unfold dirIndex; omega) (by simp [hdir])
  unfold missingTables at hle
  change _ = freeCount (fun i => decide (i < vaddr.toNat / 0x400000) || _) _ at hmark
  omega

/-- The rest of the pages, after the first one. -/
theorem TablesServed.rest (h : TablesServed m (m.cr3 t) vaddr (cnt + 1))
    (hpage : UserPage t vaddr p m m') (hbound : vaddr.toNat + 0x1000 * (cnt + 1) ≤ 0xc0000000) :
    TablesServed m' (m.cr3 t) (vaddr + pgSize) cnt := by
  intro hpos
  have hle := h (Nat.succ_pos cnt)
  have hnext : (vaddr + pgSize).toNat = vaddr.toNat + 0x1000 := by
    rw [UInt32.toNat_add]
    show (vaddr.toNat + 0x1000) % 2 ^ 32 = _
    omega
  have hlast : vaddr.toNat + 0x1000 * (cnt + 1 - 1) = vaddr.toNat + 0x1000 + 0x1000 * (cnt - 1) := by
    omega
  have hindex : dirIndex vaddr = vaddr.toNat / 0x400000 := rfl
  have hframes := hpage.frames
  rw [hnext]
  rw [hlast] at hle
  unfold missingTables at hle ⊢
  generalize hhi : (vaddr.toNat + 0x1000 + 0x1000 * (cnt - 1)) / 0x400000 = hi at hle ⊢
  -- what has a table still has one
  have hkeep : ∀ i, i < hi + 1 → present (dirEntry (m.cr3 t) m.ram i) = true →
      present (dirEntry (m.cr3 t) m'.ram i) = true := by
    intro i hi' hpresent
    by_cases heq : i = dirIndex vaddr
    · rw [heq]
      exact hpage.dir_self
    · rw [hpage.dir_other i (by omega) heq]
      exact hpresent
  cases hdir : present (dirEntry (m.cr3 t) m.ram (dirIndex vaddr)) with
  | true =>
    rw [hdir] at hframes
    have hmono : freeCount (fun i => decide (i < (vaddr.toNat + 0x1000) / 0x400000) ||
        present (dirEntry (m.cr3 t) m'.ram i)) (hi + 1) ≤
      freeCount (fun i => decide (i < vaddr.toNat / 0x400000) ||
        present (dirEntry (m.cr3 t) m.ram i)) (hi + 1) := by
      refine freeCount_le fun i hi' hused => ?_
      rw [Bool.or_eq_true, decide_eq_true_iff] at hused ⊢
      rcases hused with hlt | hpresent
      · exact Or.inl (by omega)
      · exact Or.inr (hkeep i hi' hpresent)
    replace hframes : m'.kernelPool.freeFrames = m.kernelPool.freeFrames := hframes
    omega
  | false =>
    rw [hdir] at hframes
    have hmark := @freeCount_mark (fun i => decide (i < vaddr.toNat / 0x400000) ||
      present (dirEntry (m.cr3 t) m.ram i)) (hi + 1) (dirIndex vaddr) (by omega)
      (by simp [hindex, hindex ▸ hdir])
    have hmono : freeCount (fun i => decide (i < (vaddr.toNat + 0x1000) / 0x400000) ||
        present (dirEntry (m.cr3 t) m'.ram i)) (hi + 1) ≤
      freeCount (mark (fun i => decide (i < vaddr.toNat / 0x400000) ||
        present (dirEntry (m.cr3 t) m.ram i)) ⟨dirIndex vaddr, 1⟩) (hi + 1) := by
      refine freeCount_le fun i hi' hused => ?_
      rw [mark, Bool.or_eq_true, Bool.or_eq_true, decide_eq_true_iff, decide_eq_true_iff,
        Run.mem_one] at hused
      rw [Bool.or_eq_true, decide_eq_true_iff]
      rcases hused with (hlt | hpresent) | heq
      · exact Or.inl (by omega)
      · exact Or.inr (hkeep i hi' hpresent)
      · rw [heq]
        exact Or.inr hpage.dir_self
    replace hframes : m'.kernelPool.freeFrames + 1 = m.kernelPool.freeFrames := hframes
    omega

/-- A frame is taken for a user page. -/
theorem TableInv.takeUser (h : TableInv m dirs) {q : Nat} {pool : Pool}
    (htaken : Taken m.userPool q pool) (hok : pool.Ok) :
    TableInv { m with userPool := pool } dirs :=
  h.remap ⟨h.spaces.pools.ok, h.spaces.pools.phyAddrStart, h.spaces.pools.vaddrStart,
    h.spaces.pools.vaddrSize⟩ rfl (fun _ ha => ha) hok htaken.start h.users
    (fun _ _ => .refl _) (fun _ _ _ _ _ _ _ _ => Or.inl rfl)

/-- **The loop of `malloc_page`** on user pages, when there are frames for the tables, as there have
been if one is left in the end. -/
theorem mallocLoop_user {complete : Bool} (h : TableInv m dirs) (hd : m.cr3 t ∈ dirs)
    (hbound : vaddr.toNat + 0x1000 * cnt ≤ 0xc0000000)
    (hserved : TablesServed m (m.cr3 t) vaddr (min cnt m.userPool.freeFrames) ∨
      0 < m'.kernelPool.freeFrames)
    (hret : mallocLoop t .user cnt vaddr m = .ok (complete, m')) :
    TableInv m' dirs ∧ m'.cr3 = m.cr3 ∧ kernelEnd m'.toPools = kernelEnd m.toPools ∧
      (∀ i j f, MapsFrame m (m.cr3 t) i j f → MapsFrame m' (m.cr3 t) i j f) ∧
      (complete = true → ∀ k, k < cnt → UserMapped m' (m.cr3 t) vaddr k) := by
  induction cnt generalizing vaddr m with
  | zero =>
    cases hret
    exact ⟨h, rfl, rfl, fun _ _ _ hmaps => hmaps, fun _ => nofun⟩
  | succ cnt ih =>
    obtain ⟨⟨p, pool⟩, hpalloc, hret⟩ := bind_eq_ok.mp hret
    dsimp only at hret
    rcases palloc_taken h.userOk hpalloc with ⟨rfl, rfl, -⟩ | ⟨hne, htaken⟩
    · -- the frames have run out
      rw [if_pos rfl] at hret
      cases hret
      exact ⟨h, rfl, rfl, fun _ _ _ hmaps => hmaps, nofun⟩
    rw [if_neg hne] at hret
    obtain ⟨m₁, hadd, hrest⟩ := bind_eq_ok.mp hret
    obtain ⟨haligned, hlow, -⟩ := h.userOk.free htaken.free
    have hhigh := Nat.le_trans h.apart hlow
    have hmin : min (cnt + 1) m.userPool.freeFrames = min cnt pool.freeFrames + 1 := by
      have hcount := htaken.count
      omega
    rw [hmin] at hserved
    -- the frame is taken
    have h₀ := h.takeUser htaken (htaken.ok h.userOk)
    have hserved₀ : TablesServed { m with userPool := pool } (m.cr3 t) vaddr
      (min cnt pool.freeFrames + 1) ∨ 0 < m'.kernelPool.freeFrames := hserved
    have hgrows : Grows t .kernel { m with userPool := pool } m' :=
      (pageTableAdd_grows hadd).trans (mallocLoop_grows hrest)
    have hroom : present (dirEntry (m.cr3 t) m.ram (dirIndex vaddr)) = false →
        0 < m.kernelPool.freeFrames := by
      intro habsent
      rcases hserved₀ with hserved₀ | hleft
      · exact hserved₀.room habsent
      · exact Nat.lt_of_lt_of_le hleft hgrows.kernelPool.freeFrames_le
    obtain ⟨h₁, hpage⟩ := userTurn h₀ hd (by unfold dirIndex; omega) haligned hhigh hroom hadd
    have hcr3 : m₁.cr3 = m.cr3 := hpage.cr3
    have hnext : (vaddr + pgSize).toNat = vaddr.toNat + 0x1000 := by
      rw [UInt32.toNat_add]
      show (vaddr.toNat + 0x1000) % 2 ^ 32 = _
      omega
    have hfirst : MapsFrame m₁ (m.cr3 t) (dirIndex vaddr) (tableIndex vaddr) p.toNat := by
      refine ⟨?_, tableIndex_lt vaddr, hpage.dir_self, ?_, ?_⟩
      · unfold dirIndex
        omega
      · rw [hpage.self]
        exact present_entryOf haligned
      · rw [hpage.self]
        exact frame_entryOf haligned
    have hmax : vaddr.toNat + 0x1000 * (min cnt pool.freeFrames + 1) ≤ 0xc0000000 :=
      Nat.le_trans (Nat.add_le_add_left (Nat.mul_le_mul_left 0x1000
        (Nat.succ_le_succ (Nat.min_le_left cnt pool.freeFrames))) _) hbound
    have hserved₁ := hserved₀.imp_left fun hserved₀ => hserved₀.rest hpage hmax
    have huser : m₁.userPool = pool := hpage.userPool
    rw [← huser, ← hcr3] at hserved₁
    obtain ⟨h', hcr3', hend, hkept, hmapped⟩ := ih h₁ (hcr3 ▸ hd) (by omega) hserved₁ hrest
    rw [hcr3] at hkept hmapped
    have hend₁ : kernelEnd m₁.toPools = kernelEnd m.toPools := hpage.size
    refine ⟨h', hcr3'.trans hcr3, hend.trans hend₁, fun i j f hmaps => ?_, ?_⟩
    · have hmaps₀ : MapsFrame { m with userPool := pool } (m.cr3 t) i j f :=
        ⟨hmaps.dir, hmaps.table, hmaps.dir_present, hmaps.present, hmaps.frame⟩
      exact hkept i j f (hpage.kept i j f hmaps₀)
    intro hcomplete k hk
    cases k with
    | zero =>
      refine ⟨p.toNat, ?_, hkept _ _ _ hfirst⟩
      rw [hend, hend₁]
      exact hhigh
    | succ k =>
      have hplace : vaddr.toNat + 0x1000 * (k + 1) = (vaddr + pgSize).toNat + 0x1000 * k := by
        omega
      unfold UserMapped
      rw [hplace]
      exact hmapped hcomplete k (Nat.lt_of_succ_lt_succ hk)

end Served

/-! ## The calls -/

/-- The bytes behind the user pages from `vaddr` on. -/
def userBytes (d : Nat) (ram : ByteMemory) (vaddr : UInt32) (i : Nat) : Nat :=
  frame (tableEntry d ram ((vaddr.toNat + i) / 0x400000) ((vaddr.toNat + i) / 0x1000 % 0x400)) +
    i % 0x1000

section Calls

variable {t : Tid} {m m' : Memory} {dirs : List Nat} {d : Nat} {vaddr n a : UInt32} {cnt : Nat}

/-- Memory above `kernel_pool` is written. -/
theorem TableInv.fill (h : TableInv m dirs) {ram' : ByteMemory}
    (hram : ∀ x, x < kernelEnd m.toPools → ram' x = m.ram x) :
    TableInv { m with ram := ram' } dirs := by
  refine h.remap h.spaces.pools rfl (fun _ ha => ha) h.userOk rfl h.users ?_ ?_
  · intro d hd x _ hhi
    have hlow := h.dirs_low d hd
    exact hram x (by omega)
  · intro d hd i j hi hj hpresent _
    exact Or.inl ((h.entries_low hram hd).2 i j hi hj hpresent)

/-- Bits of the addresses of a process are set. -/
theorem TableInv.setVaddrs (h : TableInv m dirs) (t : Tid) {btmp : Bitmap}
    (harea : SameArea (m.userprogVaddr t).vaddrBitmap btmp) :
    TableInv (m.setVaddrs t { m.userprogVaddr t with vaddrBitmap := btmp } .user) dirs := by
  have hpools : KernelPools (m.setVaddrs t { m.userprogVaddr t with vaddrBitmap := btmp }
      .user).toPools := h.spaces.pools
  refine h.remap hpools rfl (fun _ ha => ha) h.userOk rfl ?_ (fun _ _ => .refl _)
    (fun _ _ _ _ _ _ _ _ => Or.inl rfl)
  intro t'
  by_cases heq : t' = t
  · rw [heq]
    show UserRange (Function.update m.userprogVaddr t _ t)
    rw [Function.update_self]
    exact ⟨(h.users t).aligned, harea.size ▸ (h.users t).bound⟩
  · show UserRange (Function.update m.userprogVaddr t _ t')
    rw [Function.update_of_ne heq]
    exact h.users t'

/-- The place of a byte of a user page. -/
theorem UserMapped.place {i : Nat} (haligned : vaddr.toNat % 0x1000 = 0)
    (h : UserMapped m d vaddr (i / 0x1000)) :
    ∃ f, kernelEnd m.toPools ≤ f ∧
      MapsFrame m d ((vaddr.toNat + i) / 0x400000) ((vaddr.toNat + i) / 0x1000 % 0x400) f ∧
      userBytes d m.ram vaddr i = f + i % 0x1000 := by
  obtain ⟨f, hhigh, hmaps⟩ := h
  have hdir : (vaddr.toNat + 0x1000 * (i / 0x1000)) / 0x400000 = (vaddr.toNat + i) / 0x400000 := by
    omega
  have htable : (vaddr.toNat + 0x1000 * (i / 0x1000)) / 0x1000 % 0x400 =
      (vaddr.toNat + i) / 0x1000 % 0x400 := by omega
  rw [hdir, htable] at hmaps
  refine ⟨f, hhigh, hmaps, ?_⟩
  rw [userBytes, hmaps.frame]

/-- The new user pages can be cleared. -/
theorem TableInv.userMapped (h : TableInv m dirs) (hd : d ∈ dirs)
    (haligned : vaddr.toNat % 0x1000 = 0) (hbound : vaddr.toNat + 0x1000 * cnt ≤ 0xc0000000)
    (hall : ∀ k, k < cnt → UserMapped m d vaddr k) :
    Mapped d m.ram vaddr (0x1000 * cnt) (userBytes d m.ram vaddr) ∧
      ∀ i, i < 0x1000 * cnt → kernelEnd m.toPools ≤ userBytes d m.ram vaddr i := by
  have hhigh : ∀ i, i < 0x1000 * cnt → kernelEnd m.toPools ≤ userBytes d m.ram vaddr i := by
    intro i hi
    obtain ⟨f, hf, -, hplace⟩ := (hall _ (Nat.div_lt_of_lt_mul hi)).place haligned
    rw [hplace]
    exact Nat.le_trans hf (Nat.le_add_right _ _)
  refine ⟨?_, hhigh⟩
  intro ram' hram' i hi
  obtain ⟨f, -, hmaps, hplace⟩ := (hall _ (Nat.div_lt_of_lt_mul hi)).place haligned
  obtain ⟨hdirs, htables⟩ := h.entries_low (fun x hx => hram' x fun k hk heq => by
    have := hhigh k hk
    omega) hd
  have hnat : (vaddr + UInt32.ofNat i).toNat = vaddr.toNat + i := by
    rw [UInt32.toNat_add, UInt32.toNat_ofNat']
    omega
  have hi' := hmaps.dir
  have hdir := hdirs _ (show (vaddr.toNat + i) / 0x400000 < 0x400 by omega)
  have htable := htables _ _ hmaps.dir hmaps.table hmaps.dir_present
  have htrans := @translate_eq d ram' (vaddr + UInt32.ofNat i)
  have hdirIndex : dirIndex (vaddr + UInt32.ofNat i) = (vaddr.toNat + i) / 0x400000 := by
    rw [dirIndex, hnat]
  have htableIndex : tableIndex (vaddr + UInt32.ofNat i) = (vaddr.toNat + i) / 0x1000 % 0x400 := by
    rw [tableIndex, hnat]
  rw [hdirIndex, htableIndex, hdir, htable, hmaps.frame, hnat] at htrans
  rw [htrans hmaps.dir_present hmaps.present, hplace]
  refine congrArg Except.ok ?_
  omega

/-- What `get_user_pages` does, when there are frames for the page tables: nothing, or addresses are
reserved, the loop runs, and only user frames are cleared afterwards. -/
theorem getUserPages_inv (h : TableInv m dirs) (hd : m.cr3 t ∈ dirs)
    (hserved : (∀ start, bitmapScan (m.userprogVaddr t).vaddrBitmap n.toNat = some start →
      TablesServed m (m.cr3 t) ((m.userprogVaddr t).pageAddr start)
        (min n.toNat m.userPool.freeFrames)) ∨ 0 < m'.kernelPool.freeFrames)
    (hret : getUserPages t n m = .ok (a, m')) :
    m' = m ∨ ∃ start btmp complete m₂ ram,
      bitmapScan (m.userprogVaddr t).vaddrBitmap n.toNat = some start ∧
      SameArea (m.userprogVaddr t).vaddrBitmap btmp ∧
      ((m.userprogVaddr t).pageAddr start).toNat + 0x1000 * n.toNat ≤ 0xc0000000 ∧
      mallocLoop t .user n.toNat ((m.userprogVaddr t).pageAddr start)
        (m.setVaddrs t { m.userprogVaddr t with vaddrBitmap := btmp } .user) =
          .ok (complete, m₂) ∧
      TableInv m₂ dirs ∧ m' = { m₂ with ram := ram } ∧
      (∀ x, x < kernelEnd m₂.toPools → ram x = m₂.ram x) ∧
      ∀ x, (complete = true → ∀ i, i < 0x1000 * n.toNat →
        x ≠ userBytes (m.cr3 t) m₂.ram ((m.userprogVaddr t).pageAddr start) i) →
        ram x = m₂.ram x := by
  obtain ⟨⟨addr, m₂⟩, hmalloc, hret⟩ := bind_eq_ok.mp hret
  obtain ⟨hpos, hn⟩ := mallocPage_cnt hmalloc
  obtain ⟨_, -, hmalloc⟩ := bind_eq_ok.mp hmalloc
  obtain ⟨⟨addrStart, m₁⟩, hvaddr, hmalloc⟩ := bind_eq_ok.mp hmalloc
  obtain ⟨⟨complete, m₂⟩, hloop, hmalloc⟩ := bind_eq_ok.mp hmalloc
  cases hmalloc
  cases hscan : bitmapScan (m.vaddrs t .user).vaddrBitmap n.toNat with
  | none =>
    rw [vaddrGet_none hscan] at hvaddr
    cases hvaddr
    have hok : (m.pool .user).Ok := h.userOk
    obtain ⟨hsame, hcomplete⟩ := mallocLoop_null hok hloop
    rw [hsame, ite_self] at hret
    cases hret
    exact Or.inl rfl
  | some start =>
    have hfit := bitmapScan_spec (m.vaddrs t .user).vaddrBitmap hpos
    rw [hscan] at hfit
    obtain ⟨btmp, harea, -, heq⟩ := vaddrGet_some hpos hscan
    rw [heq] at hvaddr
    obtain ⟨_, -, hvaddr⟩ := bind_eq_ok.mp hvaddr
    cases hvaddr
    have h₁ := h.setVaddrs t harea
    have hrange := h.users t
    have hsize : start + n.toNat ≤ (m.userprogVaddr t).vaddrBitmap.size := hfit.bound
    have haddr : ((m.vaddrs t .user).pageAddr start).toNat =
        (m.userprogVaddr t).vaddrStart.toNat + 0x1000 * start := by
      have hbound := hrange.bound
      rw [VirtualAddr.pageAddr, UInt32.toNat_add, UInt32.toNat_mul, UInt32.toNat_ofNat']
      show ((m.userprogVaddr t).vaddrStart.toNat + start % 2 ^ 32 * 0x1000 % 2 ^ 32) % 2 ^ 32 = _
      omega
    have hbound : ((m.vaddrs t .user).pageAddr start).toNat + 0x1000 * n.toNat ≤ 0xc0000000 := by
      have hbound := hrange.bound
      omega
    have haligned : ((m.vaddrs t .user).pageAddr start).toNat % 0x1000 = 0 := by
      have haligned := hrange.aligned
      omega
    have hlast : m'.kernelPool = m₂.kernelPool := by
      dsimp only at hret
      by_cases hne : (if complete = true then (m.vaddrs t .user).pageAddr start else 0) ≠ 0
      · rw [if_pos hne] at hret
        obtain ⟨ram, -, hret⟩ := bind_eq_ok.mp hret
        cases hret
        rfl
      · rw [if_neg hne] at hret
        cases hret
        rfl
    rw [hlast] at hserved
    obtain ⟨h₂, hcr3, -, -, hmapped⟩ := mallocLoop_user h₁ hd hbound
      (hserved.imp_left fun hserved => hserved start hscan) hloop
    refine Or.inr ⟨start, btmp, complete, m₂, m'.ram, hscan, harea, hbound, hloop, h₂, ?_⟩
    cases complete with
    | false =>
      cases hret
      exact ⟨rfl, fun _ _ => rfl, fun _ _ => rfl⟩
    | true =>
      by_cases hne : (m.vaddrs t .user).pageAddr start ≠ 0
      · simp only [if_true, if_pos hne] at hret
        obtain ⟨ram', hmemset, hret⟩ := bind_eq_ok.mp hret
        cases hret
        have hbytes : (n * pgSize).toNat = 0x1000 * n.toNat := by
          rw [UInt32.toNat_mul]
          show n.toNat * 0x1000 % 2 ^ 32 = _
          omega
        obtain ⟨hmap, hhigh⟩ := h₂.userMapped hd haligned hbound (hmapped rfl)
        rw [← hbytes] at hmap hhigh
        obtain ⟨ram₂, hfill, hfilled⟩ := memset_filled 0 hne hmap
        have hcr3' : m₂.cr3 t = m.cr3 t := congrFun hcr3 t
        rw [hcr3'] at hmemset
        have hsame := Except.ok.inj (hmemset.symm.trans hfill)
        subst hsame
        refine ⟨rfl, fun x hx => hfilled.outside x fun i hi heq => ?_, fun x hx =>
          hfilled.outside x fun i hi => hx rfl i (hbytes ▸ hi)⟩
        have := hhigh i hi
        omega
      · simp only [if_true, if_neg hne] at hret
        cases hret
        exact ⟨rfl, fun _ _ => rfl, fun _ _ => rfl⟩

/-- **`get_user_pages`**, when there are frames for the page tables. -/
theorem getUserPages_tables (h : TableInv m dirs) (hd : m.cr3 t ∈ dirs)
    (hserved : (∀ start, bitmapScan (m.userprogVaddr t).vaddrBitmap n.toNat = some start →
      TablesServed m (m.cr3 t) ((m.userprogVaddr t).pageAddr start)
        (min n.toNat m.userPool.freeFrames)) ∨ 0 < m'.kernelPool.freeFrames)
    (hret : getUserPages t n m = .ok (a, m')) : TableInv m' dirs := by
  rcases getUserPages_inv h hd hserved hret with rfl | ⟨_, _, _, m₂, ram, -, -, -, -, h₂, rfl, hlow, -⟩
  · exact h
  · exact h₂.fill hlow

/-- The bit that `get_a_page` sets belongs to the page. -/
theorem bitmapSet_page {btmp btmp' : Bitmap} {bitIdx : Nat}
    (h : bitmapSet btmp bitIdx 1 = .ok btmp') : bitIdx < btmp.size ∧ SameArea btmp btmp' := by
  have hlt : bitIdx < btmp.size := by
    have hinside := bitmapSet_inside h
    unfold Bitmap.size
    omega
  obtain ⟨btmp₂, hset, harea, -⟩ := bitmapSet_one btmp hlt
  rw [h] at hset
  cases hset
  exact ⟨hlt, harea⟩

/-- **`get_a_page`**, when there is a frame for the page table. -/
theorem getAPage_tables {pf : PoolFlags} (h : TableInv m dirs) (hd : m.cr3 t ∈ dirs)
    (hserved : pf = .user → TablesServed m (m.cr3 t) vaddr (min 1 m.userPool.freeFrames) ∨
      0 < m'.kernelPool.freeFrames)
    (hret : getAPage t pf vaddr m = .ok (a, m')) : TableInv m' dirs := by
  obtain ⟨_, -, hret⟩ := bind_eq_ok.mp hret
  obtain ⟨_, -, hret⟩ := bind_eq_ok.mp hret
  obtain ⟨btmp, hset, hret⟩ := bind_eq_ok.mp hret
  obtain ⟨⟨p, pool⟩, hpalloc, hret⟩ := bind_eq_ok.mp hret
  obtain ⟨hbit, harea⟩ := bitmapSet_page hset
  have hpage : (pgSize : UInt32).toNat = 0x1000 := rfl
  rw [UInt32.toNat_div, hpage] at hbit
  have hv := vaddr.toNat_lt
  cases pf with
  | kernel =>
    have hstart : (m.vaddrs t .kernel).vaddrStart = kHeapStart := h.spaces.pools.vaddrStart
    have hheap : kHeapStart.toNat = 0xc0100000 := rfl
    have hsize : (m.vaddrs t .kernel).vaddrBitmap.size < 0x10000 := h.spaces.pools.vaddrSize
    have hstep := HeapStep.reserve h.spaces.pools harea
    have h₁ := hstep.tables h
    have hok : m.kernelPool.Ok := h.spaces.pools.ok
    rcases palloc_taken hok hpalloc with ⟨rfl, rfl, -⟩ | ⟨hne, -⟩
    · cases hret
      exact h₁
    · simp only [if_neg hne] at hret
      obtain ⟨m₂, hadd, hret⟩ := bind_eq_ok.mp hret
      cases hret
      rw [hstart, UInt32.toNat_sub, hheap] at hbit
      have haddr : vaddr.toNat = 0xc0100000 +
          0x1000 * ((2 ^ 32 - 0xc0100000 + vaddr.toNat) % 2 ^ 32 / 0x1000) +
          vaddr.toNat % 0x1000 := by omega
      have hturn := heapTurn h₁.spaces hd (by omega) (Nat.mod_lt _ (by decide)) haddr hpalloc hne
        hadd
      exact hturn.1.tables h₁
  | user =>
    have hrange := h.users t
    have hbound := hrange.bound
    have haligned := hrange.aligned
    have h₁ := h.setVaddrs t harea
    rcases palloc_taken h.userOk hpalloc with ⟨rfl, rfl, -⟩ | ⟨hne, htaken⟩
    · cases hret
      exact h₁
    · simp only [if_neg hne] at hret
      obtain ⟨m₂, hadd, hret⟩ := bind_eq_ok.mp hret
      cases hret
      obtain ⟨hp, hlow, -⟩ := h.userOk.free htaken.free
      have hone : min 1 m.userPool.freeFrames = 0 + 1 := by
        have hpos := Pool.freeFrames_pos htaken.free
        omega
      have hserved₁ := hserved rfl
      rw [hone] at hserved₁
      have hlt : dirIndex vaddr < 768 := by
        have hnat : (vaddr - (m.userprogVaddr t).vaddrStart).toNat / 0x1000 <
          (m.userprogVaddr t).vaddrBitmap.size := hbit
        rw [UInt32.toNat_sub] at hnat
        unfold dirIndex
        omega
      have hgrows : Grows t .kernel _ m' := pageTableAdd_grows hadd
      refine (userTurn (h₁.takeUser htaken (htaken.ok h.userOk)) hd hlt hp
        (Nat.le_trans h.apart hlow) (fun habsent => ?_) hadd).1
      rcases hserved₁ with hserved₁ | hleft
      · exact hserved₁.room habsent
      · exact Nat.lt_of_lt_of_le hleft hgrows.kernelPool.freeFrames_le

/-- **A new directory** has no page tables of its own. -/
theorem TableInv.newDir (h : TableInv m dirs) (hstep : HeapStep m m') {s : Nat} {q : UInt32}
    (hpage : HeapPage m m' s q) (hnew : NewDir m'.ram q) : TableInv m' (q.toNat :: dirs) := by
  have h' := hstep.tables h
  have hspaces := h.spaces.newDir hstep hpage hnew
  have hzero : present 0 = false := rfl
  have hnone : ∀ i, ¬ MadeTable m' q.toNat i := by
    intro i hm
    have hpresent := hm.present
    rw [hnew.user i hm.user, hzero] at hpresent
    cases hpresent
  have hmem : ∀ d ∈ q.toNat :: dirs, ∀ i, MadeTable m' d i → d ∈ dirs := by
    intro d hd i hm
    rcases List.mem_cons.mp hd with rfl | hd
    · exact absurd hm (hnone i)
    · exact hd
  refine ⟨hspaces, h'.userOk, h'.apart, List.mem_cons_of_mem _ h'.boot, h'.first, ?_, ?_, ?_, ?_,
    h'.users⟩
  · intro d hd
    rcases List.mem_cons.mp hd with rfl | hd
    · obtain ⟨-, -, hlt⟩ := h.spaces.pools.ok.free hpage.free
      rw [h.spaces.pools.phyAddrStart] at hlt
      unfold kernelEnd
      rw [hstep.size]
      exact hlt
    · exact h'.dirs_low d hd
  · exact fun d hd i hm => h'.owned d (hmem d hd i hm) i hm
  · intro d hd d' hd' i i' hm hm'
    exact h'.distinct d (hmem d hd i hm) d' (hmem d' hd' i' hm') i i' hm hm'
  · intro d hd i j f hmaps
    have hold : ∃ d₀ ∈ dirs, MapsFrame m' d₀ i j f := by
      rcases List.mem_cons.mp hd with rfl | hd
      · -- the kernel half is the boot loader's
        have hi := hmaps.dir
        have hkernel : 768 ≤ i := by
          by_contra hlt
          have hpresent := hmaps.dir_present
          rw [hnew.user i (by omega), hzero] at hpresent
          cases hpresent
        have hsame : dirEntry pageDirTablePos m'.ram i = dirEntry q.toNat m'.ram i := by
          rw [hnew.kernel i hkernel hi, h'.spaces.kernel _ h'.boot i hkernel hi]
        have htable : tableEntry pageDirTablePos m'.ram i j = tableEntry q.toNat m'.ram i j := by
          rw [tableEntry, hsame, tableEntry]
        refine ⟨pageDirTablePos, h'.boot, hmaps.dir, hmaps.table, ?_, ?_, ?_⟩
        · rw [hsame]
          exact hmaps.dir_present
        · rw [htable]
          exact hmaps.present
        · rw [htable]
          exact hmaps.frame
      · exact ⟨d, hd, hmaps⟩
    obtain ⟨d₀, hd₀, hmaps₀⟩ := hold
    obtain ⟨hused, hnot⟩ := h'.pages d₀ hd₀ i j f hmaps₀
    exact ⟨hused, fun d' hd' i' hm => hnot d' (hmem d' hd' i' hm) i' hm⟩

/-- `create_user_vaddr_bitmap` gives a process the addresses up to the kernel. -/
theorem createUserVaddrBitmap_tables {userVaddrStart : UInt32}
    (hstart : userVaddrStart.toNat ≤ 0xc0000000) (halign : userVaddrStart.toNat % 0x1000 = 0)
    {userProg : Tid} (h : TableInv m dirs) (hd : m.cr3 t ∈ dirs)
    (hret : createUserVaddrBitmap userVaddrStart t userProg m = .ok m') : TableInv m' dirs := by
  obtain ⟨⟨bits, m₁⟩, hpages, hret⟩ := bind_eq_ok.mp hret
  obtain ⟨_, -, hret⟩ := bind_eq_ok.mp hret
  cases hret
  have h₁ := (getKernelPages_step h.spaces hd hpages).1.tables h
  have hpools : KernelPools m₁.toPools := h₁.spaces.pools
  refine h₁.remap hpools rfl (fun _ ha => ha) h₁.userOk rfl ?_ (fun _ _ => .refl _)
    (fun _ _ _ _ _ _ _ _ => Or.inl rfl)
  intro t'
  by_cases heq : t' = userProg
  · rw [heq]
    show UserRange (Function.update m₁.userprogVaddr userProg _ userProg)
    rw [Function.update_self]
    refine ⟨halign, ?_⟩
    have hlen : ((0xc0000000 - userVaddrStart) / pgSize / 8).toNat =
        (0xc0000000 - userVaddrStart.toNat) / 0x1000 / 8 := by
      have hle : userVaddrStart ≤ 0xc0000000 := UInt32.le_iff_toNat_le.mpr hstart
      rw [UInt32.toNat_div, UInt32.toNat_div, UInt32.toNat_sub_of_le _ _ hle]
      rfl
    show userVaddrStart.toNat + 0x1000 * (8 * ((0xc0000000 - userVaddrStart) / pgSize / 8).toNat) ≤ _
    rw [hlen]
    omega
  · show UserRange (Function.update m₁.userprogVaddr userProg _ t')
    rw [Function.update_of_ne heq]
    exact h₁.users t'

end Calls

/-! ## Runs of calls -/

/-- The calls that allocate memory, and those that set up the address space of a process. -/
inductive PageOp where
  | newDir
  | newUserVaddr (userProg : Tid)
  | kernelPages (pgCnt : UInt32)
  | userPages (pgCnt : UInt32)
  | aPage (pf : PoolFlags) (vaddr : UInt32)

/-- A thread makes a call while the directory at `dir` is active. -/
structure PageEvent where
  thread : Tid
  dir : Nat
  op : PageOp

def PageOp.exec (userVaddrStart : UInt32) (t : Tid) (s : SpaceRun) : PageOp → Except Panic SpaceRun
  | .newDir => SpaceOp.newDir.exec t s
  | .newUserVaddr userProg => do
    let m ← createUserVaddrBitmap userVaddrStart t userProg s.mem
    return { s with mem := m }
  | .kernelPages pgCnt => (SpaceOp.kernelPages pgCnt).exec t s
  | .userPages pgCnt => do
    let (_, m) ← getUserPages t pgCnt s.mem
    return { s with mem := m }
  | .aPage pf vaddr => do
    let (_, m) ← getAPage t pf vaddr s.mem
    return { s with mem := m }

/-- The machine starts on memory without left-over page table entries, and the threads there are
have no addresses of their own or those of a process. -/
structure PageStart (allMem : UInt32) (s : SpaceRun) : Prop where
  pools : ∃ bytes, s.mem.toPools = memPoolInit allMem bytes
  ram : ∃ ram, TablesClear ram ∧ s.mem.ram = setupPage ram
  dirs : s.dirs = [pageDirTablePos]
  users : ∀ t, UserRange (s.mem.userprogVaddr t)

/-- Calls one after another. -/
def pageRuns (allMem userVaddrStart : UInt32) : System SpaceRun PageEvent Panic where
  init := PageStart allMem
  step e s := some (e.op.exec userVaddrStart e.thread
    { s with mem := s.mem.activate e.thread e.dir })

/-- There are frames for the page tables that a call needs: for the pages it maps, which are as many
as it asks for or as there are user frames. -/
def PageOp.Served (t : Tid) (d : Nat) (m : Memory) : PageOp → Prop
  | .userPages pgCnt => ∀ start,
    bitmapScan (m.userprogVaddr t).vaddrBitmap pgCnt.toNat = some start →
      TablesServed m d ((m.userprogVaddr t).pageAddr start)
        (min pgCnt.toNat m.userPool.freeFrames)
  | .aPage .user vaddr => TablesServed m d vaddr (min 1 m.userPool.freeFrames)
  | _ => True

/-- The active directory is one of those made so far, and the page tables can be made. -/
def ServedCall (s : SpaceRun) (e : PageEvent) : Prop :=
  e.dir ∈ s.dirs ∧ e.op.Served e.thread e.dir s.mem

/-- Every page table that `page_table_add` has made has a frame of `kernel_pool` that is in use,
belongs to no other page table, and is not mapped as a page. -/
structure PageTablesOwned (m : Memory) (dirs : List Nat) : Prop where
  owned : ∀ d ∈ dirs, ∀ i, MadeTable m d i → ∃ f, f < m.kernelPool.poolBitmap.size ∧
    m.kernelPool.poolBitmap.get f = true ∧
    frame (dirEntry d m.ram i) = m.kernelPool.phyAddrStart.toNat + 0x1000 * f
  distinct : ∀ d ∈ dirs, ∀ d' ∈ dirs, ∀ i i', MadeTable m d i → MadeTable m d' i' →
    frame (dirEntry d m.ram i) = frame (dirEntry d' m.ram i') → d = d' ∧ i = i'
  unmapped : ∀ d ∈ dirs, ∀ i, MadeTable m d i → ∀ d' ∈ dirs, ∀ i' j f,
    MapsFrame m d' i' j f → f ≠ frame (dirEntry d m.ram i)

section Runs

variable {allMem userVaddrStart : UInt32} {m : Memory} {dirs : List Nat} {s s' : SpaceRun}

theorem TableInv.owns (h : TableInv m dirs) : PageTablesOwned m dirs := by
  refine ⟨?_, h.distinct, fun d hd i hm d' hd' i' j f hmaps =>
    (h.pages d' hd' i' j f hmaps).2 d hd i hm⟩
  intro d hd i hm
  have huser := hm.user
  obtain ⟨f, hf, hframe⟩ := h.owned d hd i hm
  rw [h.spaces.pools.phyAddrStart]
  refine ⟨f, hf, ?_, hframe⟩
  -- a table never is in a free frame
  by_contra hfree
  refine (h.spaces.tables d hd i (by omega) hm.present).2 ⟨f, hf, Bool.eq_false_iff.mpr hfree, ?_⟩
  rw [h.spaces.pools.phyAddrStart]
  exact hframe

theorem TableInv.activate (h : TableInv m dirs) (t : Tid) (d : Nat) :
    TableInv (m.activate t d) dirs :=
  ⟨h.spaces.activate t d, h.userOk, h.apart, h.boot, h.first, h.dirs_low,
    fun d hd i hm => h.owned d hd i ⟨hm.user, hm.present, hm.made⟩,
    fun d hd d' hd' i i' hm hm' => h.distinct d hd d' hd' i i' ⟨hm.user, hm.present, hm.made⟩
      ⟨hm'.user, hm'.present, hm'.made⟩,
    fun d hd i j f hmaps => by
      obtain ⟨hused, hnot⟩ := h.pages d hd i j f
        ⟨hmaps.dir, hmaps.table, hmaps.dir_present, hmaps.present, hmaps.frame⟩
      exact ⟨hused, fun d' hd' i' hm => hnot d' hd' i' ⟨hm.user, hm.present, hm.made⟩⟩,
    h.users⟩

/-- The user pool of `mem_pool_init` follows the kernel's. -/
theorem userPool_init (hmem : 0x200000 ≤ allMem.toNat) (bytes : Nat → UInt8) :
    (memPoolInit allMem bytes).userPool.Ok ∧
      kernelEnd (memPoolInit allMem bytes) ≤
        (memPoolInit allMem bytes).userPool.phyAddrStart.toNat := by
  have hstart := memPoolInit_userStart hmem bytes
  have hkernel := memPoolInit_kernel hmem bytes
  have huser := memPoolInit_user hmem bytes
  have hpool : poolStart = 0x200000 := rfl
  have hpages : freePages allMem = (allMem.toNat - 0x200000) / 4096 := rfl
  have hlt := allMem.toNat_lt
  refine ⟨⟨?_, ?_, ?_⟩, ?_⟩
  · rw [hstart]
    omega
  · rw [hstart]
    omega
  · rw [hstart, Bitmap.size, huser]
    omega
  · rw [hstart, kernelEnd, Bitmap.size, hkernel]
    omega

/-- The boot loader maps the first 1 MB only. -/
theorem PageStart.maps_entry (h : PageStart allMem s) {i j f : Nat}
    (hmaps : MapsFrame s.mem pageDirTablePos i j f) :
    j < 256 ∧ tableEntry pageDirTablePos s.mem.ram i j = UInt32.ofNat (7 + 0x1000 * j) := by
  obtain ⟨ram, hclear, hram⟩ := h.ram
  have hi := hmaps.dir
  have hj := hmaps.table
  have hdirPresent := hmaps.dir_present
  have hpresent := hmaps.present
  rw [hram, setupPage_dir ram (show i < 0x400 by omega)] at hdirPresent
  have hcase : i = 0 ∨ 768 ≤ i := by
    by_contra hlt
    rw [bootDirEntry_none (by omega) (by omega)] at hdirPresent
    cases hdirPresent
  -- only the entries of the first 1 MB are present
  by_cases hstale : 256 ≤ j ∨ 769 ≤ i
  · rw [hram, hclear.entry hi hcase hj hstale] at hpresent
    cases hpresent
  · have htable : bootTable i = 0x101000 := by
      rw [bootTable]
      split
      · rfl
      · omega
    refine ⟨by omega, ?_⟩
    rw [hram, setupPage_table ram hi hcase, htable, setupPage_low ram (by omega)]

theorem PageStart.maps_low (h : PageStart allMem s) {i j f : Nat}
    (hmaps : MapsFrame s.mem pageDirTablePos i j f) : f < poolStart := by
  have hpool : poolStart = 0x200000 := rfl
  obtain ⟨hj, hentry⟩ := h.maps_entry hmaps
  have hframe := hmaps.frame
  rw [hentry, OsKernel.frame, UInt32.toNat_ofNat'] at hframe
  omega

theorem PageStart.spaceStart (h : PageStart allMem s) : SpaceStart allMem s := by
  obtain ⟨ram, -, hram⟩ := h.ram
  exact ⟨h.pools, ⟨ram, hram⟩, h.dirs⟩

/-- The boot loader's directory maps the first 1 MB and has no tables for users. -/
theorem PageStart.tables (h : PageStart allMem s) (hmem : 0x200000 ≤ allMem.toNat) :
    TableInv s.mem s.dirs := by
  obtain ⟨bytes, hpools⟩ := h.pools
  obtain ⟨ram, hclear, hram⟩ := h.ram
  have hpos : pageDirTablePos = 0x100000 := rfl
  have hpool : poolStart = 0x200000 := rfl
  have hspaces := h.spaceStart.spaces hmem
  have hdir : ∀ i, i < 0x400 → dirEntry pageDirTablePos s.mem.ram i = bootDirEntry i := by
    intro i hi
    rw [hram]
    exact setupPage_dir ram hi
  have honly : ∀ d ∈ s.dirs, d = pageDirTablePos := by
    intro d hd
    rw [h.dirs] at hd
    exact List.mem_singleton.mp hd
  have hnone : ∀ d ∈ s.dirs, ∀ i, ¬ MadeTable s.mem d i := by
    intro d hd i hm
    have huser := hm.user
    have hpresent := hm.present
    rw [honly d hd, hdir i (by omega),
      bootDirEntry_none (hm.made (honly d hd)) hm.user] at hpresent
    cases hpresent
  obtain ⟨huserOk, hapart⟩ := userPool_init hmem bytes
  refine ⟨hspaces, ?_, ?_, ?_, hdir 0 (by decide), ?_, ?_, ?_, ?_, h.users⟩
  · rw [hpools]
    exact huserOk
  · rw [hpools]
    exact hapart
  · rw [h.dirs]
    exact List.mem_cons_self
  · intro d hd
    rw [honly d hd]
    unfold kernelEnd
    omega
  · exact fun d hd i hm => absurd hm (hnone d hd i)
  · exact fun d hd d' hd' i i' hm => absurd hm (hnone d hd i)
  · intro d hd i j f hmaps
    refine ⟨fun hfree => ?_, fun d' hd' i' hm => absurd hm (hnone d' hd' i')⟩
    have hlo := (hspaces.pools.free hfree).2
    have hlow := h.maps_low (honly d hd ▸ hmaps)
    omega

/-- **One call** for whose page tables there are frames. -/
theorem PageOp.exec_tables (hstart : userVaddrStart.toNat ≤ 0xc0000000)
    (halign : userVaddrStart.toNat % 0x1000 = 0) {t : Tid} {op : PageOp}
    (h : TableInv s.mem s.dirs) (ht : s.mem.cr3 t ∈ s.dirs)
    (hserved : op.Served t (s.mem.cr3 t) s.mem ∨ 0 < s'.mem.kernelPool.freeFrames)
    (hret : op.exec userVaddrStart t s = .ok s') : TableInv s'.mem s'.dirs := by
  cases op with
  | newDir =>
    obtain ⟨hstep, hsame | ⟨page, q, hq, hnew, hdirs⟩⟩ := newDir_exec h.spaces ht hret
    · rw [hsame]
      exact hstep.tables h
    · rw [hdirs]
      exact h.newDir hstep hq hnew
  | newUserVaddr userProg =>
    obtain ⟨m, hcreate, hret⟩ := bind_eq_ok.mp hret
    cases hret
    exact createUserVaddrBitmap_tables hstart halign h ht hcreate
  | kernelPages n =>
    obtain ⟨⟨a, m⟩, hpages, hret⟩ := bind_eq_ok.mp hret
    cases hret
    exact (getKernelPages_step h.spaces ht hpages).1.tables h
  | userPages n =>
    obtain ⟨⟨a, m⟩, hpages, hret⟩ := bind_eq_ok.mp hret
    cases hret
    exact getUserPages_tables h ht hserved hpages
  | aPage pf vaddr =>
    obtain ⟨⟨a, m⟩, hpage, hret⟩ := bind_eq_ok.mp hret
    cases hret
    refine getAPage_tables h ht (fun hpf => ?_) hpage
    rw [hpf] at hserved
    exact hserved

/-- **Page tables have frames of their own**, in every run whose calls find the frames for the page
tables they have to make. -/
theorem pageTables_owned (hmem : 0x200000 ≤ allMem.toNat)
    (hstart : userVaddrStart.toNat ≤ 0xc0000000) (halign : userVaddrStart.toNat % 0x1000 = 0)
    (hs : (pageRuns allMem userVaddrStart).Reach ServedCall s) : PageTablesOwned s.mem s.dirs := by
  refine TableInv.owns ?_
  refine @System.Reach.invariant _ _ _ (pageRuns allMem userVaddrStart) ServedCall
    (fun s => TableInv s.mem s.dirs) (fun s hinit => hinit.tables hmem) ?_ s hs
  intro s e s' _ h ⟨hdir, hserved⟩ hstep
  have hcr3 := activate_cr3 s.mem e.thread e.dir
  refine PageOp.exec_tables (s := { s with mem := s.mem.activate e.thread e.dir }) hstart halign
    (h.activate e.thread e.dir) ?_ (Or.inl ?_) (Option.some.inj hstep)
  · rw [hcr3]
    exact hdir
  · show e.op.Served e.thread ((s.mem.activate e.thread e.dir).cr3 e.thread) _
    rw [hcr3]
    exact hserved

/-! ## A process on a machine with 4 MB -/

/-- The first page of a region: a table is made from whatever `palloc` returns. -/
theorem getAPage_first {t : Tid} {vaddr p q : UInt32} {pool kernelPool : Pool} (h : Spaces m dirs)
    (hd : m.cr3 t ∈ dirs) (hpgdir : m.pgdir t ≠ 0) (hvaddr : vaddr ≠ 0)
    (hpos : 0 < ((vaddr - (m.userprogVaddr t).vaddrStart) / pgSize).toNat)
    (hbit : ((vaddr - (m.userprogVaddr t).vaddrStart) / pgSize).toNat <
      (m.userprogVaddr t).vaddrBitmap.size)
    (habsent : present (dirEntry (m.cr3 t) m.ram (dirIndex vaddr)) = false)
    (huser : palloc m.userPool = .ok (p, pool)) (hp : p ≠ 0)
    (hkernel : palloc m.kernelPool = .ok (q, kernelPool)) :
    ∃ m', getAPage t .user vaddr m = .ok (vaddr, m') ∧ m'.kernelPool = kernelPool ∧
      dirEntry (m.cr3 t) m'.ram (dirIndex vaddr) = entryOf q := by
  obtain ⟨btmp, hset, -, -⟩ := bitmapSet_one (m.userprogVaddr t).vaddrBitmap hbit
  obtain ⟨haligned, hnot, -⟩ := h.newTable hkernel
  have hkind : ((m.pgdir t != 0 && PoolFlags.user == .user) ||
      (m.pgdir t == 0 && PoolFlags.user == .kernel)) = true := by
    have hne : (m.pgdir t != 0) = true := bne_iff_ne.mpr hpgdir
    rw [hne]
    rfl
  have hvaddrs : m.vaddrs t .user = m.userprogVaddr t := rfl
  have hpool : ((m.setVaddrs t { m.userprogVaddr t with vaddrBitmap := btmp } .user).pool .user) =
      m.userPool := rfl
  -- the page is reserved and has a frame
  obtain ⟨m₁, hm₁⟩ : ∃ m₁, m₁ = (m.setVaddrs t { m.userprogVaddr t with vaddrBitmap := btmp }
    .user).setPool pool .user := ⟨_, rfl⟩
  have hcr3 : m₁.cr3 = m.cr3 := by rw [hm₁]; rfl
  have hram : m₁.ram = m.ram := by rw [hm₁]; rfl
  have hkernel₁ : m₁.kernelPool = m.kernelPool := by rw [hm₁]; rfl
  rw [← hcr3, ← hram] at habsent
  obtain ⟨ram, hfilled, hadd⟩ := pageTableAdd_absent (by rw [hcr3, hram]; exact h.last _ hd) hvaddr hp
    habsent (hkernel₁ ▸ hkernel) haligned (by rw [hcr3]; exact h.aligned hd)
    (fun heq => hnot (by rw [heq, hcr3]; exact hd))
  rw [hcr3, hram] at hfilled
  have hmade := h.tableMade (e := entryOf p) hd (dirIndex_lt vaddr) (tableIndex_lt vaddr) haligned hnot
    hfilled
  refine ⟨{ m₁ with
    kernelPool := kernelPool
    ram := ram.write32 (q.toNat + 4 * tableIndex vaddr) (entryOf p) }, ?_, rfl, hmade.dir_self⟩
  have hpos' : decide (((vaddr - (m.userprogVaddr t).vaddrStart) / pgSize).toNat > 0) = true :=
    decide_eq_true hpos
  simp only [getAPage, hkind, assert_true, ok_bind, hvaddrs, hpos', hset, hpool, huser, if_neg hp,
    ← hm₁, hadd, pure_eq_ok]

/-- The kernel after `mem_init` on a machine with 4 MB, and the addresses of a process. -/
def processStart : SpaceRun where
  mem := { (bootedHeap 0x400000).mem with
    userprogVaddr := fun _ => ⟨⟨0x16ff7, 0xc0101000, fun _ => 0⟩, 0x8048000⟩
    pgdir := fun t => if t = 0 then 0 else 0xc0118000 }
  dirs := [pageDirTablePos]

theorem processStart_start : PageStart 0x400000 processStart := by
  have hrange : UserRange ⟨⟨0x16ff7, 0xc0101000, fun _ => 0⟩, 0x8048000⟩ := ⟨by decide, by decide⟩
  refine ⟨⟨fun _ => 0, rfl⟩, ⟨fun _ => 0, fun _ _ _ _ => rfl, ?_⟩, rfl, fun _ => hrange⟩
  simp only [processStart, bootedHeap]

/-- There is no table for the addresses of the process yet. -/
theorem PageStart.absent {allMem : UInt32} {s : SpaceRun} (h : PageStart allMem s) {i : Nat}
    (h0 : i ≠ 0) (hi : i < 768) : present (dirEntry pageDirTablePos s.mem.ram i) = false := by
  obtain ⟨ram, -, hram⟩ := h.ram
  have hdir := setupPage_dir ram (show i < 0x400 by omega)
  rw [hram, hdir]
  exact bootDirEntry_none h0 hi

/-- The heap is empty. -/
theorem PageStart.heapStart (h : PageStart allMem s) (hmem : 0x200000 ≤ allMem.toNat) :
    HeapStart allMem pageDirTablePos ⟨s.mem, []⟩ := by
  have hsize := (h.tables hmem).spaces.pools.vaddrSize
  obtain ⟨ram, hclear, hram⟩ := h.ram
  have hspace := hclear.initialSpace
  have htables := setupPage_tables ram
  rw [← hram] at hspace htables
  refine ⟨h.pools, htables, ?_, rfl⟩
  intro vaddr ⟨hlo, hhi⟩
  have hheap : kHeapStart.toNat = 0xc0100000 := rfl
  dsimp only at hhi
  exact hspace.absent vaddr (by omega) (Or.inr (by omega)) (by omega)

/-- All frames of `kernel_pool` are free at the start. -/
theorem processStart_frames : processStart.mem.kernelPool.freeFrames = 256 := by
  have hframes : ∀ i, i < 256 → processStart.mem.kernelPool.poolBitmap.get i = false :=
    fun i hi => bitmapInit_get _ hi
  have hcount := freeCount_eq_total hframes
  exact hcount

/-- One page needs one table at most. -/
theorem missingTables_one (d : Nat) (ram : ByteMemory) (lo : Nat) :
    missingTables d ram lo lo ≤ 1 := by
  have hbelow : freeCount (fun i => decide (i < lo) || present (dirEntry d ram i)) lo = 0 := by
    refine freeCount_eq_zero fun i hi => ?_
    rw [decide_eq_true hi, Bool.true_or]
  rw [missingTables, freeCount_succ, hbelow]
  split
  · decide
  · decide

/-- The first page of the process gets a page table with a frame of its own. -/
theorem pageTables_owned_first : ∃ m', getAPage 1 .user 0x8049000 processStart.mem =
    .ok (0x8049000, m') ∧ PageTablesOwned m' [pageDirTablePos] := by
  have hstart := processStart_start
  have htables := hstart.tables (by decide)
  have habsent := hstart.absent (i := 32) (by decide) (by decide)
  have hframes := processStart_frames
  have hactive : processStart.mem.activate 1 pageDirTablePos = processStart.mem := activate_self rfl
  have huserVaddr : processStart.mem.userprogVaddr 1 =
    ⟨⟨0x16ff7, 0xc0101000, fun _ => 0⟩, 0x8048000⟩ := rfl
  have hpgdir : processStart.mem.pgdir 1 ≠ 0 := by decide
  have hcr3 : processStart.mem.cr3 1 = pageDirTablePos := rfl
  obtain ⟨pool, huser⟩ : ∃ pool, palloc processStart.mem.userPool = .ok (0x300000, pool) := ⟨_, rfl⟩
  obtain ⟨kernelPool, hkernel⟩ : ∃ pool, palloc processStart.mem.kernelPool = .ok (0x200000, pool) :=
    ⟨_, rfl⟩
  have hdirs : processStart.dirs = [pageDirTablePos] := rfl
  generalize processStart = s at *
  obtain ⟨m', hret, -⟩ := @getAPage_first _ _ 1 0x8049000 _ _ _ _ htables.spaces
    (by rw [hcr3, hdirs]; exact List.mem_cons_self) hpgdir (by decide)
    (by rw [huserVaddr]; decide) (by rw [huserVaddr]; decide) (by rw [hcr3]; exact habsent) huser
    (by decide) hkernel
  refine ⟨m', hret, ?_⟩
  have hreach : (pageRuns 0x400000 0x8048000).Reach ServedCall ⟨m', [pageDirTablePos]⟩ := by
    refine .step (e := ⟨1, pageDirTablePos, .aPage .user 0x8049000⟩) (.init hstart) ⟨?_, ?_⟩ ?_
    · rw [hdirs]
      exact List.mem_cons_self
    · intro hpos
      have hle := missingTables_one pageDirTablePos s.mem.ram 32
      have hone : min 1 s.mem.userPool.freeFrames = 1 := by omega
      rw [hone, hframes]
      exact Nat.le_trans hle (by decide)
    · show some (PageOp.exec 0x8048000 1 ⟨s.mem.activate 1 pageDirTablePos, s.dirs⟩
        (.aPage .user 0x8049000)) = _
      rw [hactive, PageOp.exec, hret, hdirs]
      rfl
  exact pageTables_owned (by decide) (by decide) (by decide) hreach

/-- A kernel thread takes all frames of `kernel_pool`. -/
theorem processStart_exhausted : ∃ a m₁, getKernelPages 0 256 processStart.mem = .ok (a, m₁) ∧
    HeapStep processStart.mem m₁ ∧ m₁.kernelPool.freeFrames = 0 := by
  have hstart := processStart_start
  have htables := hstart.tables (by decide)
  have hframes := processStart_frames
  have hinv := ((hstart.heapStart (by decide)).inv (by decide)).inv
  have hpages : ∀ i, i < 256 → processStart.mem.kernelVaddr.vaddrBitmap.get i = false :=
    fun i hi => bitmapInit_get _ hi
  have hsize : processStart.mem.kernelVaddr.vaddrBitmap.size = 256 := by decide
  have hcr3 : processStart.mem.cr3 0 = pageDirTablePos := rfl
  have hdirs : processStart.dirs = [pageDirTablePos] := rfl
  generalize processStart = s at *
  have hcount : (256 : UInt32).toNat = 256 := rfl
  have hserves : Serves s.mem (256 : UInt32).toNat := by
    refine ⟨⟨0, by rw [hsize]; decide, fun i hi => hpages i ?_⟩, ?_⟩
    · have hlt := hi.2
      rw [hcount] at hlt
      simpa using hlt
    · exact Nat.le_of_eq hframes.symm
  obtain ⟨start, hscan⟩ : ∃ start,
      bitmapScan s.mem.kernelVaddr.vaddrBitmap (256 : UInt32).toNat = some start := by
    cases hscan : bitmapScan s.mem.kernelVaddr.vaddrBitmap (256 : UInt32).toNat with
    | none => exact absurd hserves.pages ((bitmapScan_eq_none_iff _ (by decide)).mp hscan)
    | some start => exact ⟨start, rfl⟩
  obtain ⟨a, m₁, hcall, hserved, -⟩ := HeapInv.returns_some (t := 0) (m := s.mem)
    (by rw [hcr3]; exact hinv) (show 0 < (256 : UInt32).toNat by decide) (by decide) hscan
  obtain ⟨_, -, -, -, hne⟩ := hserved hserves
  obtain ⟨hstep, hblock⟩ := getKernelPages_step htables.spaces
    (by rw [hcr3, hdirs]; exact List.mem_cons_self) hcall
  obtain ⟨_, -, hblock⟩ := hblock hne
  refine ⟨a, m₁, hcall, hstep, ?_⟩
  have hleft := hblock.frames
  omega

/-- A kernel thread takes all frames of `kernel_pool`; then the first page of the process gets a page
table in the frame 0. -/
theorem pageTables_unowned : ∃ s, (pageRuns 0x400000 0x8048000).Reach (fun s e => e.dir ∈ s.dirs) s ∧
    ¬ PageTablesOwned s.mem s.dirs := by
  have hstart := processStart_start
  have htables := hstart.tables (by decide)
  have habsent := hstart.absent (i := 32) (by decide) (by decide)
  obtain ⟨a, m₁, hcall, hstep, hnone⟩ := processStart_exhausted
  have hactive : ∀ t, processStart.mem.activate t pageDirTablePos = processStart.mem := fun _ =>
    activate_self rfl
  have huserVaddr : processStart.mem.userprogVaddr 1 =
    ⟨⟨0x16ff7, 0xc0101000, fun _ => 0⟩, 0x8048000⟩ := rfl
  have hpgdir : processStart.mem.pgdir 1 ≠ 0 := by decide
  have hcr3 : ∀ t, processStart.mem.cr3 t = pageDirTablePos := fun _ => rfl
  obtain ⟨pool, huser⟩ : ∃ pool, palloc processStart.mem.userPool = .ok (0x300000, pool) := ⟨_, rfl⟩
  have hdirs : processStart.dirs = [pageDirTablePos] := rfl
  generalize processStart = s at *
  have hmem : pageDirTablePos ∈ s.dirs := by
    rw [hdirs]
    exact List.mem_cons_self
  -- the kernel thread
  have hreach₁ : (pageRuns 0x400000 0x8048000).Reach (fun s e => e.dir ∈ s.dirs) ⟨m₁, s.dirs⟩ := by
    refine .step (e := ⟨0, pageDirTablePos, .kernelPages 256⟩) (.init hstart) hmem ?_
    show some (PageOp.exec 0x8048000 0 ⟨s.mem.activate 0 pageDirTablePos, s.dirs⟩
      (.kernelPages 256)) = _
    rw [hactive, PageOp.exec, SpaceOp.exec, hcall]
    rfl
  -- the process
  have h₁ := hstep.tables htables
  have hcr3₁ : m₁.cr3 1 = pageDirTablePos := by rw [hstep.cr3, hcr3]
  have hactive₁ : m₁.activate 1 pageDirTablePos = m₁ := activate_self hcr3₁
  have habsent₁ : present (dirEntry pageDirTablePos m₁.ram 32) = false := by
    rw [dirEntry_congr (hstep.eqOn_dir htables.spaces hmem) (show 32 < 0x400 by decide)]
    exact habsent
  obtain ⟨q, kernelPool, hkernel⟩ : ∃ q pool, palloc m₁.kernelPool = .ok (q, pool) := by
    rcases palloc_spec m₁.kernelPool with ⟨-, h⟩ | ⟨_, _, -, -, -, -, h⟩
    · exact ⟨_, _, h⟩
    · exact ⟨_, _, h⟩
  obtain ⟨hzero, hsame⟩ : q = 0 ∧ kernelPool = m₁.kernelPool := by
    rcases palloc_taken h₁.spaces.pools.ok hkernel with ⟨hzero, hsame, -⟩ | ⟨-, htaken⟩
    · exact ⟨hzero, hsame⟩
    · have hpos := Pool.freeFrames_pos htaken.free
      omega
  rw [hzero] at hkernel
  obtain ⟨m₂, hret, hpool, hentry⟩ := @getAPage_first _ _ 1 0x8049000 _ _ _ _ h₁.spaces
    (by rw [hcr3₁]; exact hmem) (by rw [hstep.pgdir]; exact hpgdir) (by decide)
    (by rw [hstep.userprogVaddr, huserVaddr]; decide)
    (by rw [hstep.userprogVaddr, huserVaddr]; decide) (by rw [hcr3₁]; exact habsent₁)
    (by rw [hstep.userPool]; exact huser) (by decide) hkernel
  refine ⟨⟨m₂, s.dirs⟩, .step (e := ⟨1, pageDirTablePos, .aPage .user 0x8049000⟩) hreach₁ hmem ?_,
    fun howned => ?_⟩
  · show some (PageOp.exec 0x8048000 1 ⟨m₁.activate 1 pageDirTablePos, s.dirs⟩
      (.aPage .user 0x8049000)) = _
    rw [hactive₁, PageOp.exec, hret]
    rfl
  · -- the frame 0 is none of the pool's
    have hindex : dirIndex 0x8049000 = 32 := rfl
    rw [hcr3₁, hindex] at hentry
    have hmade : MadeTable m₂ pageDirTablePos 32 :=
      ⟨by decide, by rw [hentry]; exact present_entryOf rfl, fun _ => by decide⟩
    obtain ⟨f, -, -, hframe⟩ := howned.owned _ hmem 32 hmade
    rw [hentry, frame_entryOf rfl, UInt32.toNat_zero, hpool, hsame, h₁.spaces.pools.phyAddrStart]
      at hframe
    unfold poolStart at hframe
    omega

end Runs

end OsKernel
