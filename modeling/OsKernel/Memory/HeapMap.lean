import OsKernel.Memory.Allocator

/-!
# The kernel heap behind its page tables

The kernel heap is the range of virtual addresses that `kernel_vaddr` manages. `setup_page` gives
every page of it a page table once and for all, so that allocating kernel pages only fills in table
entries. Seen from above the heap is a map from pages to frames of `kernel_pool`.

- `KernelTables`: a page directory as `setup_page` lays it out; `setupPage`: the one it builds.
- `HeapInv`: the bitmaps, the table entries and a map from pages to frames agree.
- `mapHeapPage`: one turn of the loop of `malloc_page`; `mallocLoop_heap`: the whole loop.
-/

namespace OsKernel

open Lib

/-! ## Heap pages -/

/-- The address of a page of the heap. -/
def heapAddr (s : Nat) : UInt32 := kHeapStart + UInt32.ofNat s * pgSize

/-- The first physical address of `kernel_pool`. -/
def poolStart : Nat := 0x200000

/-- The directory entry of a heap page. -/
def heapDir (s : Nat) : Nat := 768 + (256 + s) / 1024

/-- Its place in the page table. -/
def heapSlot (s : Nat) : Nat := (256 + s) % 1024

theorem heapAddr_toNat {s : Nat} (hs : s < 0x10000) :
    (heapAddr s).toNat = 0xc0100000 + 0x1000 * s := by
  rw [heapAddr, UInt32.toNat_add, UInt32.toNat_mul, UInt32.toNat_ofNat']
  show (0xc0100000 + s % 2 ^ 32 * 0x1000 % 2 ^ 32) % 2 ^ 32 = _
  omega

theorem heapAddr_ne_zero {s : Nat} (hs : s < 0x10000) : heapAddr s ≠ 0 := by
  intro heq
  have := heapAddr_toNat hs
  rw [heq, UInt32.toNat_zero] at this
  omega

theorem heapAddr_succ (s : Nat) : heapAddr s + pgSize = heapAddr (s + 1) := by
  rw [heapAddr, heapAddr, UInt32.ofNat_add, UInt32.add_mul, UInt32.add_assoc]
  rfl

theorem heapDir_lt {s : Nat} (hs : s < 0x10000) : heapDir s < 1023 := by
  unfold heapDir
  omega

theorem heapSlot_lt (s : Nat) : heapSlot s < 0x400 := Nat.mod_lt _ (by decide)

/-- The fields of an address in a heap page. -/
theorem heap_fields {vaddr : UInt32} {s off : Nat} (hoff : off < 0x1000)
    (h : vaddr.toNat = 0xc0100000 + 0x1000 * s + off) :
    dirIndex vaddr = heapDir s ∧ tableIndex vaddr = heapSlot s ∧ vaddr.toNat % 0x1000 = off := by
  unfold dirIndex tableIndex heapDir heapSlot
  omega

/-! ## The tables -/

/-- A page directory as `setup_page` lays it out: the entries from 768 on are present, with page
tables of their own below 2 MB, and the last entry points to the directory. -/
structure KernelTables (cr3 : Nat) (ram : ByteMemory) : Prop where
  aligned : cr3 % 0x1000 = 0
  low : cr3 < poolStart
  recursive : Recursive cr3 ram
  table_present : ∀ i, 768 ≤ i → i < 1023 → present (dirEntry cr3 ram i) = true
  table_low : ∀ i, i < 1023 → present (dirEntry cr3 ram i) = true →
    frame (dirEntry cr3 ram i) < poolStart
  table_ne_dir : ∀ i, 768 ≤ i → i < 1023 → frame (dirEntry cr3 ram i) ≠ cr3
  table_inj : ∀ i j, 768 ≤ i → i < 1023 → 768 ≤ j → j < 1023 →
    frame (dirEntry cr3 ram i) = frame (dirEntry cr3 ram j) → i = j

/-- The table entry of a heap page. -/
def heapEntry (cr3 : Nat) (ram : ByteMemory) (s : Nat) : UInt32 :=
  tableEntry cr3 ram (heapDir s) (heapSlot s)

section Tables

variable {cr3 : Nat} {ram ram' : ByteMemory}

/-- The low memory holds the directory and the tables. -/
theorem KernelTables.eqOn_dir (h : KernelTables cr3 ram)
    (heq : ByteMemory.EqOn 0 poolStart ram ram') : ByteMemory.EqOn cr3 0x1000 ram ram' := by
  intro a hlo hhi
  have haligned := h.aligned
  have hlow := h.low
  unfold poolStart at hlow heq
  exact heq a (Nat.zero_le a) (by omega)

theorem KernelTables.congr (h : KernelTables cr3 ram)
    (heq : ByteMemory.EqOn cr3 0x1000 ram ram') : KernelTables cr3 ram' := by
  have hentry : ∀ i, i < 1023 → dirEntry cr3 ram' i = dirEntry cr3 ram i :=
    fun i hi => dirEntry_congr heq (by omega)
  refine ⟨h.aligned, h.low, h.recursive.congr heq, ?_, ?_, ?_, ?_⟩
  · intro i hlo hhi
    rw [hentry i hhi]
    exact h.table_present i hlo hhi
  · intro i hi
    rw [hentry i hi]
    exact h.table_low i hi
  · intro i hlo hhi
    rw [hentry i hhi]
    exact h.table_ne_dir i hlo hhi
  · intro i j hi hi' hj hj'
    rw [hentry i hi', hentry j hj']
    exact h.table_inj i j hi hi' hj hj'

theorem KernelTables.heap_present (h : KernelTables cr3 ram) {s : Nat} (hs : s < 0x10000) :
    present (dirEntry cr3 ram (heapDir s)) = true :=
  h.table_present _ (Nat.le_add_right 768 _) (heapDir_lt hs)

/-- The table of a heap page lies below 2 MB as a whole. -/
theorem KernelTables.heap_table_low (h : KernelTables cr3 ram) {s : Nat} (hs : s < 0x10000) :
    frame (dirEntry cr3 ram (heapDir s)) + 0x1000 ≤ poolStart := by
  have hlow := h.table_low _ (heapDir_lt hs) (h.heap_present hs)
  have haligned := frame_aligned (dirEntry cr3 ram (heapDir s))
  unfold poolStart at hlow ⊢
  omega

/-- The entries of the heap are kept by what keeps the low memory. -/
theorem KernelTables.heapEntry_congr (h : KernelTables cr3 ram)
    (heq : ByteMemory.EqOn 0 poolStart ram ram') {s : Nat} (hs : s < 0x10000) :
    heapEntry cr3 ram' s = heapEntry cr3 ram s := by
  have htable := h.heap_table_low hs
  have hdir := heapDir_lt hs
  refine tableEntry_congr (h.eqOn_dir heq) ?_ (by omega) (heapSlot_lt s)
  intro a hlo hhi
  exact heq a (Nat.zero_le a) (by omega)

/-- What a write of one table entry does to the memory. -/
structure EntryWritten (cr3 : Nat) (ram ram' : ByteMemory) (s : Nat) (e : UInt32) : Prop where
  dir : ByteMemory.EqOn cr3 0x1000 ram ram'
  self : heapEntry cr3 ram' s = e
  other : ∀ s', s' < 0x10000 → s' ≠ s → heapEntry cr3 ram' s' = heapEntry cr3 ram s'
  high : ∀ a, poolStart ≤ a → ram' a = ram a

/-- **One entry** is written and no other. -/
theorem KernelTables.write (h : KernelTables cr3 ram) {s : Nat} (hs : s < 0x10000) (e : UInt32) :
    EntryWritten cr3 ram
      (ram.write32 (frame (dirEntry cr3 ram (heapDir s)) + 4 * heapSlot s) e) s e := by
  have hslot := heapSlot_lt s
  have hne : frame (dirEntry cr3 ram (heapDir s)) ≠ cr3 :=
    h.table_ne_dir _ (Nat.le_add_right 768 _) (heapDir_lt hs)
  have haligned := frame_aligned (dirEntry cr3 ram (heapDir s))
  have hcr3 := h.aligned
  have hlow := h.heap_table_low hs
  have hdir : ByteMemory.EqOn cr3 0x1000 ram
      (ram.write32 (frame (dirEntry cr3 ram (heapDir s)) + 4 * heapSlot s) e) :=
    ByteMemory.eqOn_write32 (by omega)
  have hentry : ∀ s', s' < 0x10000 → dirEntry cr3
      (ram.write32 (frame (dirEntry cr3 ram (heapDir s)) + 4 * heapSlot s) e) (heapDir s') =
        dirEntry cr3 ram (heapDir s') :=
    fun s' hs' => dirEntry_congr hdir (Nat.lt_succ_of_lt (heapDir_lt hs'))
  refine ⟨hdir, ?_, ?_, ?_⟩
  · rw [heapEntry, tableEntry, hentry s hs]
    exact ByteMemory.read32_write32 _ _ _
  · intro s' hs' hother
    have hslot' := heapSlot_lt s'
    have haligned' := frame_aligned (dirEntry cr3 ram (heapDir s'))
    rw [heapEntry, tableEntry, hentry s' hs', heapEntry, tableEntry]
    -- two pages share the table or they share the slot, but not both
    have hplace : heapDir s' ≠ heapDir s ∨ heapSlot s' ≠ heapSlot s := by
      unfold heapDir heapSlot
      omega
    apply ByteMemory.read32_write32_of_disjoint
    by_cases hsame : heapDir s' = heapDir s
    · rw [hsame]
      have := hplace.resolve_left (fun hne => hne hsame)
      omega
    · have htables : frame (dirEntry cr3 ram (heapDir s')) ≠ frame (dirEntry cr3 ram (heapDir s)) :=
        fun heq => hsame (h.table_inj _ _ (Nat.le_add_right 768 _) (heapDir_lt hs')
          (Nat.le_add_right 768 _) (heapDir_lt hs) heq)
      omega
  · intro a ha
    exact ByteMemory.write32_outside (by omega)

end Tables

/-! ## The heap as a map -/

/-- A table entry says what the map says. -/
def EntryHolds (e : UInt32) : Option Nat → Prop
  | none => present e = false
  | some f => present e = true ∧ frame e = poolStart + 0x1000 * f

/-- The map is what the bitmaps and the page tables say. Frames are numbered from the start of
`kernel_pool` on. -/
structure HeapInv (cr3 : Nat) (m : Memory) (map : Nat → Option Nat) : Prop where
  tables : KernelTables cr3 m.ram
  vaddrStart : m.kernelVaddr.vaddrStart = kHeapStart
  vaddrSize : m.kernelVaddr.vaddrBitmap.size < 0x10000
  phyAddrStart : m.kernelPool.phyAddrStart.toNat = poolStart
  poolSize : 0x1000 * m.kernelPool.poolBitmap.size ≤ m.kernelPool.poolSize.toNat
  poolBound : m.kernelPool.poolBitmap.size < 0x10000
  entry : ∀ s, s < m.kernelVaddr.vaddrBitmap.size → EntryHolds (heapEntry cr3 m.ram s) (map s)
  outside : ∀ s f, map s = some f → s < m.kernelVaddr.vaddrBitmap.size
  frame : ∀ s f, map s = some f → f < m.kernelPool.poolBitmap.size
  backing : Backing m.kernelVaddr.vaddrBitmap.get m.kernelPool.poolBitmap.get map

/-- What mapping the pages of a run leaves as it was. -/
structure MapsOnly (r : Run) (m : Memory) (map : Nat → Option Nat) (m' : Memory)
    (map' : Nat → Option Nat) : Prop where
  outside : ∀ s, s ∉ r → map' s = map s
  vaddr : m'.kernelVaddr = m.kernelVaddr
  cr3 : m'.cr3 = m.cr3
  high : ∀ a, poolStart ≤ a → m'.ram a = m.ram a

theorem MapsOnly.refl (r : Run) (m : Memory) (map : Nat → Option Nat) : MapsOnly r m map m map :=
  ⟨fun _ _ => rfl, rfl, rfl, fun _ _ => rfl⟩

/-- The first page and the rest. -/
theorem MapsOnly.cons {start cnt : Nat} {m₁ m₂ m₃ : Memory} {map₁ map₂ map₃ : Nat → Option Nat}
    (h : MapsOnly ⟨start, 1⟩ m₁ map₁ m₂ map₂) (h' : MapsOnly ⟨start + 1, cnt⟩ m₂ map₂ m₃ map₃) :
    MapsOnly ⟨start, cnt + 1⟩ m₁ map₁ m₃ map₃ where
  outside s hs := by
    rw [Run.mem_succ, not_or, ← Run.mem_one] at hs
    rw [h'.outside s hs.2, h.outside s hs.1]
  vaddr := h'.vaddr.trans h.vaddr
  cr3 := h'.cr3.trans h.cr3
  high a ha := (h'.high a ha).trans (h.high a ha)

section Loop

variable {cr3 : Nat} {t : Tid} {m : Memory} {map : Nat → Option Nat}

/-- The physical address of a frame. -/
theorem HeapInv.pageAddr_toNat (h : HeapInv cr3 m map) {f : Nat}
    (hf : f < m.kernelPool.poolBitmap.size) :
    (m.kernelPool.pageAddr f).toNat = poolStart + 0x1000 * f := by
  have hbound := h.poolBound
  rw [Pool.pageAddr, UInt32.toNat_add, UInt32.toNat_mul, UInt32.toNat_ofNat', h.phyAddrStart]
  show (f % 2 ^ 32 * 0x1000 % 2 ^ 32 + 0x200000) % 2 ^ 32 = 0x200000 + 0x1000 * f
  omega

theorem HeapInv.pageAddr_ne_zero (h : HeapInv cr3 m map) {f : Nat}
    (hf : f < m.kernelPool.poolBitmap.size) : m.kernelPool.pageAddr f ≠ 0 := by
  intro heq
  have hpage := h.pageAddr_toNat hf
  rw [heq, UInt32.toNat_zero] at hpage
  unfold poolStart at hpage
  omega

/-- **One turn** of the loop: a free frame is put behind a heap page that is in use. -/
theorem mapHeapPage (h : HeapInv (m.cr3 t) m map) {s f : Nat} {btmp : Bitmap}
    (hs : s < m.kernelVaddr.vaddrBitmap.size) (hused : m.kernelVaddr.vaddrBitmap.get s = true)
    (hmap : map s = none) (hf : f < m.kernelPool.poolBitmap.size)
    (hfree : m.kernelPool.poolBitmap.get f = false) (harea : SameArea m.kernelPool.poolBitmap btmp)
    (hget : btmp.get = mark m.kernelPool.poolBitmap.get ⟨f, 1⟩) :
    ∃ m', pageTableAdd t (heapAddr s) (m.kernelPool.pageAddr f)
        { m with kernelPool := { m.kernelPool with poolBitmap := btmp } } = .ok m' ∧
      HeapInv (m.cr3 t) m' (Function.update map s (some f)) ∧
      MapsOnly ⟨s, 1⟩ m map m' (Function.update map s (some f)) ∧
      m'.kernelPool = { m.kernelPool with poolBitmap := btmp } := by
  have hs' : s < 0x10000 := Nat.lt_trans hs h.vaddrSize
  obtain ⟨hdirIdx, htableIdx, -⟩ := heap_fields (Nat.succ_pos 0xfff) (heapAddr_toNat hs')
  have hpage := h.pageAddr_toNat hf
  have haligned : (m.kernelPool.pageAddr f).toNat % 0x1000 = 0 := by
    rw [hpage]
    unfold poolStart
    omega
  have hphyaddr := h.pageAddr_ne_zero hf
  have habsent := h.entry s hs
  rw [hmap] at habsent
  have hdir := h.tables.heap_present hs'
  have hwritten := h.tables.write hs' (entryOf (m.kernelPool.pageAddr f))
  have hadd := @pageTableAdd_present t (heapAddr s) (m.kernelPool.pageAddr f)
    { m with kernelPool := { m.kernelPool with poolBitmap := btmp } } h.tables.recursive (heapAddr_ne_zero hs') hphyaddr (hdirIdx ▸ hdir)
    (by rw [hdirIdx, htableIdx]; exact habsent)
  rw [hdirIdx, htableIdx] at hadd
  refine ⟨_, hadd, ?_, ?_, rfl⟩
  · refine ⟨h.tables.congr hwritten.dir, h.vaddrStart, h.vaddrSize, h.phyAddrStart, ?_, ?_, ?_, ?_,
      ?_, ?_⟩
    · rw [harea.size]
      exact h.poolSize
    · rw [harea.size]
      exact h.poolBound
    · intro s' hlt
      by_cases heq : s' = s
      · rw [heq, hwritten.self, Function.update_self]
        exact ⟨present_entryOf haligned, (frame_entryOf haligned).trans hpage⟩
      · rw [hwritten.other s' (Nat.lt_trans hlt h.vaddrSize) heq, Function.update_of_ne heq]
        exact h.entry s' hlt
    · intro s' f' hmap'
      by_cases heq : s' = s
      · rw [heq]
        exact hs
      · rw [Function.update_of_ne heq] at hmap'
        exact h.outside s' f' hmap'
    · intro s' f' hmap'
      rw [harea.size]
      by_cases heq : s' = s
      · rw [heq, Function.update_self, Option.some.injEq] at hmap'
        rw [← hmap']
        exact hf
      · rw [Function.update_of_ne heq] at hmap'
        exact h.frame s' f' hmap'
    · rw [hget]
      exact h.backing.back hused hfree
  · refine ⟨?_, rfl, rfl, hwritten.high⟩
    intro s' hout
    exact Function.update_of_ne (fun heq => hout (Run.mem_one.mpr heq)) _ _

/-- **The whole loop** maps the pages of a run one by one until the frames run out. -/
theorem mallocLoop_heap {cnt s : Nat} (h : HeapInv (m.cr3 t) m map)
    (hbound : s + cnt ≤ m.kernelVaddr.vaddrBitmap.size)
    (hused : Run.Used m.kernelVaddr.vaddrBitmap.get ⟨s, cnt⟩)
    (hmap : ∀ i ∈ (⟨s, cnt⟩ : Run), map i = none) :
    ∃ m' map', mallocLoop t .kernel cnt (heapAddr s) m =
        .ok (decide (cnt ≤ freeCount m.kernelPool.poolBitmap.get m.kernelPool.poolBitmap.size), m') ∧
      HeapInv (m.cr3 t) m' map' ∧ MapsOnly ⟨s, cnt⟩ m map m' map' ∧
      (cnt ≤ freeCount m.kernelPool.poolBitmap.get m.kernelPool.poolBitmap.size →
        (∀ i ∈ (⟨s, cnt⟩ : Run), ∃ f, map' i = some f) ∧
        freeCount m'.kernelPool.poolBitmap.get m'.kernelPool.poolBitmap.size + cnt =
          freeCount m.kernelPool.poolBitmap.get m.kernelPool.poolBitmap.size) := by
  induction cnt generalizing s m map with
  | zero =>
    refine ⟨m, map, by simp [mallocLoop], h, .refl _ m map, fun _ => ⟨fun i hi => ?_, rfl⟩⟩
    exact absurd hi.2 (Nat.not_lt.mpr hi.1)
  | succ cnt ih =>
    rcases palloc_spec m.kernelPool with ⟨hfull, hpalloc⟩ | ⟨f, btmp, hf, hfree, harea, hget, hpalloc⟩
    · -- no frame is left
      have hnone := freeCount_eq_zero hfull
      rw [hnone]
      refine ⟨m, map, ?_, h, .refl _ m map, fun hle => absurd hle (Nat.not_succ_le_zero cnt)⟩
      simp [mallocLoop, Memory.pool, Memory.setPool, hpalloc]
    · have hfirst : s ∈ (⟨s, cnt + 1⟩ : Run) := Run.mem_succ.mpr (Or.inl rfl)
      have hrest : ∀ i ∈ (⟨s + 1, cnt⟩ : Run), i ≠ s ∧ i ∈ (⟨s, cnt + 1⟩ : Run) := fun i hi =>
        ⟨fun heq => Run.first_notMem (heq ▸ hi), Run.mem_succ.mpr (Or.inr hi)⟩
      obtain ⟨m₁, hadd, hinv₁, honly₁, hpool₁⟩ := mapHeapPage h (by omega) (hused s hfirst)
        (hmap s hfirst) hf hfree harea hget
      have hphyaddr := h.pageAddr_ne_zero hf
      have hcr3 : m₁.cr3 t = m.cr3 t := by rw [honly₁.cr3]
      -- one frame less for the rest
      have hcount : freeCount m₁.kernelPool.poolBitmap.get m₁.kernelPool.poolBitmap.size + 1 =
          freeCount m.kernelPool.poolBitmap.get m.kernelPool.poolBitmap.size := by
        rw [hpool₁]
        show freeCount btmp.get btmp.size + 1 = _
        rw [hget, harea.size]
        exact freeCount_mark hf hfree
      obtain ⟨m', map', hloop, hinv', honly', hall'⟩ := ih (s := s + 1) (hcr3 ▸ hinv₁)
        (by rw [honly₁.vaddr]; omega)
        (by
          rw [honly₁.vaddr]
          exact fun i hi => hused i (hrest i hi).2)
        (by
          intro i hi
          rw [Function.update_of_ne (hrest i hi).1]
          exact hmap i (hrest i hi).2)
      rw [hcr3] at hinv'
      refine ⟨m', map', ?_, hinv', honly₁.cons honly', ?_⟩
      · simp only [mallocLoop, Memory.pool, Memory.setPool, hpalloc, ok_bind, if_neg hphyaddr, hadd,
          heapAddr_succ, hloop, ← hcount, Nat.add_le_add_iff_right]
      · intro hle
        obtain ⟨hmapped, hleft⟩ := hall' (by omega)
        refine ⟨fun i hi => ?_, by omega⟩
        rcases Run.mem_succ.mp hi with heq | hmem
        · exact ⟨f, by rw [heq, honly'.outside s Run.first_notMem, Function.update_self]⟩
        · exact hmapped i hmem

end Loop

end OsKernel
