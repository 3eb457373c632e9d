import OsKernel.Memory.AddressSpace

/-!
# Several page directories at once

Every process has a page directory of its own, and all of them name the kernel page tables that
`setup_page` made. What `page_table_add` and `get_kernel_pages` write lies in page tables and in
frames that were free, and neither of the two is a directory.

- `Pool.FreeFrame`, `palloc_taken`: the free frames of a pool, and what `palloc` does to them.
- `Spaces`: the directories are set up as `create_page_dir` leaves them, and stay apart from
  page tables and free frames.
- `pageTableAdd_spaces`, `getKernelPages_step`: one operation on one of the directories.
-/

namespace OsKernel

open Lib

/-! ## Free frames -/

/-- The addresses of a pool are page addresses. -/
structure Pool.Ok (p : Pool) : Prop where
  pos : 0 < p.phyAddrStart.toNat
  aligned : p.phyAddrStart.toNat % 0x1000 = 0
  bound : p.phyAddrStart.toNat + 0x1000 * p.poolBitmap.size ≤ 2 ^ 32

/-- A free frame of the pool, by its physical address. -/
def Pool.FreeFrame (p : Pool) (a : Nat) : Prop :=
  ∃ f, f < p.poolBitmap.size ∧ p.poolBitmap.get f = false ∧ a = p.phyAddrStart.toNat + 0x1000 * f

/-- How many frames are free. -/
def Pool.freeFrames (p : Pool) : Nat := freeCount p.poolBitmap.get p.poolBitmap.size

/-- The frame at `q` has been taken from the pool `p`, and `p'` is left. -/
structure Taken (p : Pool) (q : Nat) (p' : Pool) : Prop where
  free : p.FreeFrame q
  rest : ∀ a, p'.FreeFrame a ↔ p.FreeFrame a ∧ a ≠ q
  area : SameArea p.poolBitmap p'.poolBitmap
  start : p'.phyAddrStart = p.phyAddrStart
  count : p'.freeFrames + 1 = p.freeFrames

section Frames

variable {p p' : Pool} {q : UInt32}

theorem Pool.freeFrames_pos {a : Nat} (h : p.FreeFrame a) : 0 < p.freeFrames := by
  obtain ⟨f, hf, hfree, -⟩ := h
  have hcount := freeCount_mark hf hfree
  unfold Pool.freeFrames
  omega

theorem Pool.Ok.pageAddr_toNat (h : p.Ok) {f : Nat} (hf : f < p.poolBitmap.size) :
    (p.pageAddr f).toNat = p.phyAddrStart.toNat + 0x1000 * f := by
  have hbound := h.bound
  rw [Pool.pageAddr, UInt32.toNat_add, UInt32.toNat_mul, UInt32.toNat_ofNat']
  show (f % 2 ^ 32 * 0x1000 % 2 ^ 32 + _) % 2 ^ 32 = _
  omega

theorem Pool.Ok.free (h : p.Ok) {a : Nat} (ha : p.FreeFrame a) :
    a % 0x1000 = 0 ∧ p.phyAddrStart.toNat ≤ a ∧
      a + 0x1000 ≤ p.phyAddrStart.toNat + 0x1000 * p.poolBitmap.size := by
  obtain ⟨f, hf, -, rfl⟩ := ha
  have haligned := h.aligned
  omega

theorem Taken.ok (h : Taken p q.toNat p') (hp : p.Ok) : p'.Ok where
  pos := h.start ▸ hp.pos
  aligned := h.start ▸ hp.aligned
  bound := by
    rw [h.start, h.area.size]
    exact hp.bound

/-- **`palloc`** takes a free frame, or there is none and the result is `NULL`. -/
theorem palloc_taken (hp : p.Ok) (hret : palloc p = .ok (q, p')) :
    (q = 0 ∧ p' = p ∧ p.freeFrames = 0) ∨ (q ≠ 0 ∧ Taken p q.toNat p') := by
  rcases palloc_spec p with ⟨hfull, hnone⟩ | ⟨f, btmp, hf, hfree, harea, hget, hsome⟩
  · rw [hnone] at hret
    cases hret
    exact Or.inl ⟨rfl, rfl, freeCount_eq_zero hfull⟩
  · rw [hsome] at hret
    cases hret
    have hpage := hp.pageAddr_toNat hf
    have hpos := hp.pos
    refine Or.inr ⟨?_, ⟨f, hf, hfree, hpage⟩, ?_, harea, rfl, ?_⟩
    · intro heq
      rw [heq, UInt32.toNat_zero] at hpage
      omega
    · intro a
      constructor
      · rintro ⟨f', hf', hfree', ha⟩
        dsimp only at hf' hfree' ha
        rw [harea.size] at hf'
        rw [hget, mark, Bool.or_eq_false_iff, decide_eq_false_iff_not, Run.mem_one] at hfree'
        refine ⟨⟨f', hf', hfree'.1, ha⟩, ?_⟩
        omega
      · rintro ⟨⟨f', hf', hfree', ha⟩, hne⟩
        refine ⟨f', ?_, ?_, ha⟩
        · show f' < btmp.size
          rw [harea.size]
          exact hf'
        · show btmp.get f' = false
          rw [hget, mark, Bool.or_eq_false_iff, decide_eq_false_iff_not, Run.mem_one]
          refine ⟨hfree', fun heq => hne ?_⟩
          rw [ha, hpage, heq]
    · show freeCount btmp.get btmp.size + 1 = _
      rw [hget, harea.size]
      exact freeCount_mark hf hfree

end Frames

/-! ## The directories -/

/-- `kernel_pool` and `kernel_vaddr` as `mem_pool_init` leaves them, but for the bits. -/
structure KernelPools (m : Pools) : Prop where
  ok : m.kernelPool.Ok
  phyAddrStart : m.kernelPool.phyAddrStart.toNat = poolStart
  vaddrStart : m.kernelVaddr.vaddrStart = kHeapStart
  vaddrSize : m.kernelVaddr.vaddrBitmap.size < 0x10000

/-- The page directories `dirs` share the kernel page tables. -/
structure Spaces (m : Memory) (dirs : List Nat) : Prop where
  pools : KernelPools m.toPools
  last : ∀ d ∈ dirs, Recursive d m.ram
  kernel : ∀ d ∈ dirs, ∀ i, 768 ≤ i → i < 1023 → dirEntry d m.ram i = bootDirEntry i
  place : ∀ d ∈ dirs, d = pageDirTablePos ∨ poolStart ≤ d
  used : ∀ d ∈ dirs, ¬ m.kernelPool.FreeFrame d
  tables : ∀ d ∈ dirs, ∀ i, i < 1023 → present (dirEntry d m.ram i) = true →
    frame (dirEntry d m.ram i) ∉ dirs ∧ ¬ m.kernelPool.FreeFrame (frame (dirEntry d m.ram i))

/-- Where the table entry of a heap page is, whichever directory is used. -/
def heapPlace (s : Nat) : Nat := 0x101400 + 4 * s

section Spaces

variable {m : Memory} {dirs : List Nat} {d : Nat}

theorem KernelPools.free {m : Pools} (h : KernelPools m) {a : Nat} (ha : m.kernelPool.FreeFrame a) :
    a % 0x1000 = 0 ∧ poolStart ≤ a := by
  obtain ⟨haligned, hlo, -⟩ := h.ok.free ha
  rw [h.phyAddrStart] at hlo
  exact ⟨haligned, hlo⟩

theorem Spaces.aligned (h : Spaces m dirs) (hd : d ∈ dirs) : d % 0x1000 = 0 :=
  (h.last d hd).aligned

/-- The tables of the heap are the boot loader's. -/
theorem Spaces.heap_dir (h : Spaces m dirs) (hd : d ∈ dirs) {s : Nat} (hs : s < 0x10000) :
    present (dirEntry d m.ram (heapDir s)) = true ∧
      frame (dirEntry d m.ram (heapDir s)) + 4 * heapSlot s = heapPlace s := by
  have hlt := heapDir_lt hs
  have hlo : 768 ≤ heapDir s := Nat.le_add_right 768 _
  obtain ⟨hpresent, hframe⟩ := bootDirEntry_table hlt (Or.inr hlo)
  rw [h.kernel d hd _ hlo hlt, hframe, bootTable, if_neg (by omega)]
  refine ⟨hpresent, ?_⟩
  unfold heapPlace heapDir heapSlot
  omega

theorem Spaces.heapEntry_eq (h : Spaces m dirs) (hd : d ∈ dirs) {s : Nat} (hs : s < 0x10000) :
    heapEntry d m.ram s = m.ram.read32 (heapPlace s) := by
  rw [heapEntry, tableEntry, (h.heap_dir hd hs).2]

/-- What is outside the directories does not matter, as long as no frame is given back. -/
theorem Spaces.congr (h : Spaces m dirs) {m' : Memory} (hpools : KernelPools m'.toPools)
    (hfree : ∀ a, m'.kernelPool.FreeFrame a → m.kernelPool.FreeFrame a)
    (heq : ∀ d ∈ dirs, ByteMemory.EqOn d 0x1000 m.ram m'.ram) : Spaces m' dirs := by
  have hentry : ∀ d ∈ dirs, ∀ i, i < 0x400 → dirEntry d m'.ram i = dirEntry d m.ram i :=
    fun d hd i hi => dirEntry_congr (heq d hd) hi
  refine ⟨hpools, fun d hd => (h.last d hd).congr (heq d hd), ?_, h.place,
    fun d hd hfree' => h.used d hd (hfree d hfree'), ?_⟩
  · intro d hd i hlo hhi
    rw [hentry d hd i (by omega)]
    exact h.kernel d hd i hlo hhi
  · intro d hd i hi hpresent
    rw [hentry d hd i (by omega)] at hpresent ⊢
    obtain ⟨hnot, hused⟩ := h.tables d hd i hi hpresent
    exact ⟨hnot, fun hfree' => hused (hfree _ hfree')⟩

/-- A page that is not a directory. -/
theorem Spaces.eqOn_page (h : Spaces m dirs) {ram' : ByteMemory} {q : Nat} (hq : q % 0x1000 = 0)
    (hnot : q ∉ dirs) (hout : ∀ a, (a < q ∨ q + 0x1000 ≤ a) → ram' a = m.ram a) :
    ∀ d ∈ dirs, ByteMemory.EqOn d 0x1000 m.ram ram' := by
  intro d hd a hlo hhi
  have haligned := h.aligned hd
  have hne : q ≠ d := fun heq => hnot (heq ▸ hd)
  exact hout a (by omega)

end Spaces

/-! ## page_table_add on one of the directories -/

section PageTableAdd

variable {t : Tid} {m m' : Memory} {dirs : List Nat} {vaddr p : UInt32}

/-- A frame for a new table is not a directory; when no frame is left it is the frame 0. -/
theorem Spaces.newTable (h : Spaces m dirs) {q : UInt32} {pool : Pool}
    (hpalloc : palloc m.kernelPool = .ok (q, pool)) :
    q.toNat % 0x1000 = 0 ∧ q.toNat ∉ dirs ∧
      KernelPools { m.toPools with kernelPool := pool } ∧
      ¬ pool.FreeFrame q.toNat ∧ ∀ a, pool.FreeFrame a → m.kernelPool.FreeFrame a := by
  rcases palloc_taken h.pools.ok hpalloc with ⟨rfl, rfl, hnone⟩ | ⟨-, htaken⟩
  · have hno : ∀ a, ¬ m.kernelPool.FreeFrame a := by
      intro a hfree
      have hpos := Pool.freeFrames_pos hfree
      omega
    refine ⟨rfl, ?_, h.pools, hno _, fun a ha => ha⟩
    intro hmem
    have hpos : pageDirTablePos = 0x100000 := rfl
    have hpool : poolStart = 0x200000 := rfl
    have hzero : (0 : UInt32).toNat = 0 := rfl
    rw [hzero] at hmem
    rcases h.place 0 hmem with h0 | h0
    · omega
    · omega
  · refine ⟨(h.pools.free htaken.free).1, fun hmem => h.used _ hmem htaken.free, ?_,
      fun hfree => ((htaken.rest _).mp hfree).2 rfl, fun a ha => ((htaken.rest a).mp ha).1⟩
    exact ⟨htaken.ok h.pools.ok, htaken.start ▸ h.pools.phyAddrStart, h.pools.vaddrStart,
      h.pools.vaddrSize⟩

/-- A directory entry `i` of `d` is written, and the page at `q` it names becomes a table with the
single entry `e` at `j`. -/
structure TableMade (dirs : List Nat) (d i j : Nat) (q e : UInt32) (ram ram' : ByteMemory) :
    Prop where
  dir_self : dirEntry d ram' i = entryOf q
  dir_other : ∀ d' ∈ dirs, ∀ k, k < 0x400 → (d' = d → k ≠ i) →
    dirEntry d' ram' k = dirEntry d' ram k
  table : ∀ l, l < 0x400 → ram'.read32 (q.toNat + 4 * l) = if l = j then e else 0
  outside : ∀ f, f % 0x1000 = 0 → f ∉ dirs → f ≠ q.toNat → ByteMemory.EqOn f 0x1000 ram ram'

/-- The writes of `page_table_add` when it makes a table. -/
theorem Spaces.tableMade (h : Spaces m dirs) {d i j : Nat} (hd : d ∈ dirs) (hi : i < 0x400)
    (hj : j < 0x400) {q e : UInt32} {ram : ByteMemory} (haligned : q.toNat % 0x1000 = 0)
    (hnot : q.toNat ∉ dirs)
    (hfilled : Filled (m.ram.write32 (d + 4 * i) (entryOf q)) ram 0x1000
      (fun k => q.toNat + k) 0) :
    TableMade dirs d i j q e m.ram (ram.write32 (q.toNat + 4 * j) e) := by
  have hactive := h.aligned hd
  have hout : ∀ a, (a < q.toNat ∨ q.toNat + 0x1000 ≤ a) →
      ram.write32 (q.toNat + 4 * j) e a = m.ram.write32 (d + 4 * i) (entryOf q) a := by
    intro a ha
    rw [ByteMemory.write32_outside (by omega)]
    exact hfilled.outside a fun k hk => by omega
  have hpage : ∀ d' ∈ dirs, ByteMemory.EqOn d' 0x1000
      (m.ram.write32 (d + 4 * i) (entryOf q)) (ram.write32 (q.toNat + 4 * j) e) := by
    intro d' hd' a hlo hhi
    have haligned' := h.aligned hd'
    have hne : q.toNat ≠ d' := fun heq => hnot (heq ▸ hd')
    exact hout a (by omega)
  refine ⟨?_, ?_, ?_, ?_⟩
  · rw [dirEntry_congr (hpage d hd) hi]
    exact ByteMemory.read32_write32 _ _ _
  · intro d' hd' k hk hother
    have haligned' := h.aligned hd'
    rw [dirEntry_congr (hpage d' hd') hk]
    apply ByteMemory.read32_write32_of_disjoint
    by_cases heq : d' = d
    · have hne := hother heq
      omega
    · omega
  · intro l hl
    by_cases heq : l = j
    · rw [if_pos heq, heq]
      exact ByteMemory.read32_write32 _ _ _
    · rw [if_neg heq, ByteMemory.read32_write32_of_disjoint (by omega)]
      refine ByteMemory.read32_zero fun k hk => ?_
      rw [Nat.add_assoc]
      exact hfilled.inside _ (by omega)
  · intro f hf hnot' hne a hlo hhi
    have hne' : f ≠ d := fun heq => hnot' (heq ▸ hd)
    rw [hout a (by omega)]
    exact ByteMemory.write32_outside (by omega)

/-- **On a user address** `page_table_add` leaves the shared half alone, whether it makes a table or
not, and also when no frame is left for the table. -/
theorem pageTableAdd_spaces (h : Spaces m dirs) (hd : m.cr3 t ∈ dirs) (hv : dirIndex vaddr < 768)
    (hret : pageTableAdd t vaddr p m = .ok m') :
    Spaces m' dirs ∧ m'.cr3 = m.cr3 ∧ m'.kernelVaddr = m.kernelVaddr := by
  have hrec := h.last _ hd
  obtain ⟨-, -, hadd⟩ := pageTableAdd_inv hrec (fun _ q pool hpalloc => by
    obtain ⟨haligned, hnot, -⟩ := h.newTable hpalloc
    exact ⟨haligned, fun heq => hnot (heq ▸ hd)⟩) hret
  have hslot := tableIndex_lt vaddr
  cases hadd with
  | entry hdir _ =>
    obtain ⟨hnot, -⟩ := h.tables _ hd _ (by omega) hdir
    refine ⟨h.congr h.pools (fun _ ha => ha) ?_, rfl, rfl⟩
    exact h.eqOn_page (frame_aligned _) hnot fun a ha => ByteMemory.write32_outside (by omega)
  | table hdir hpalloc hfilled =>
    obtain ⟨haligned, hnot, hpools, hused, hfree⟩ := h.newTable hpalloc
    have hmade := h.tableMade (e := entryOf p) hd (dirIndex_lt vaddr) hslot haligned hnot hfilled
    refine ⟨⟨hpools, ?_, ?_, h.place, fun d hd' hfree' => h.used d hd' (hfree d hfree'), ?_⟩, rfl,
      rfl⟩
    · intro d hd'
      have hlast := hmade.dir_other d hd' 1023 (by decide) (fun _ => by omega)
      exact ⟨hlast ▸ (h.last d hd').present, hlast ▸ (h.last d hd').frame⟩
    · intro d hd' i hlo hhi
      have hsame := hmade.dir_other d hd' i (by omega) (fun _ => by omega)
      exact hsame.trans (h.kernel d hd' i hlo hhi)
    · intro d hd' i hi hpresent
      dsimp only at hpresent ⊢
      by_cases hplace : d = m.cr3 t ∧ i = dirIndex vaddr
      · rw [hplace.1, hplace.2, hmade.dir_self, frame_entryOf haligned]
        exact ⟨hnot, hused⟩
      · rw [hmade.dir_other d hd' i (by omega) (fun heq hi' => hplace ⟨heq, hi'⟩)]
          at hpresent ⊢
        obtain ⟨hnot', hused'⟩ := h.tables d hd' i hi hpresent
        exact ⟨hnot', fun hfree' => hused' (hfree _ hfree')⟩

/-- **On a heap address** it only fills in an entry of a kernel page table. -/
theorem pageTableAdd_heap (h : Spaces m dirs) (hd : m.cr3 t ∈ dirs) {s off : Nat} (hs : s < 0x10000)
    (hoff : off < 0x1000) (hv : vaddr.toNat = 0xc0100000 + 0x1000 * s + off)
    (hret : pageTableAdd t vaddr p m = .ok m') :
    m' = { m with ram := m.ram.write32 (heapPlace s) (entryOf p) } := by
  obtain ⟨hdir, htable, -⟩ := heap_fields hoff hv
  obtain ⟨hpresent, hplace⟩ := h.heap_dir hd hs
  have hnew : present (dirEntry (m.cr3 t) m.ram (dirIndex vaddr)) = false → ∀ q pool,
      palloc m.kernelPool = .ok (q, pool) → q.toNat % 0x1000 = 0 ∧ q.toNat ≠ m.cr3 t := by
    intro habsent
    rw [hdir, hpresent] at habsent
    cases habsent
  obtain ⟨-, -, hadd⟩ := pageTableAdd_inv (h.last _ hd) hnew hret
  cases hadd with
  | entry _ _ => rw [hdir, htable, hplace]
  | table habsent _ _ =>
    rw [hdir, hpresent] at habsent
    cases habsent

end PageTableAdd

/-! ## Steps in the shared half -/

/-- What an operation on the kernel heap does: frames are taken from `kernel_pool`, some heap pages
get a new entry, and memory is written only there and in frames that were free. -/
structure HeapStep (m m' : Memory) : Prop where
  cr3 : m'.cr3 = m.cr3
  userPool : m'.userPool = m.userPool
  userprogVaddr : m'.userprogVaddr = m.userprogVaddr
  pgdir : m'.pgdir = m.pgdir
  pools : KernelPools m'.toPools
  size : m'.kernelPool.poolBitmap.size = m.kernelPool.poolBitmap.size
  heapSize : m'.kernelVaddr.vaddrBitmap.size = m.kernelVaddr.vaddrBitmap.size
  free : ∀ a, m'.kernelPool.FreeFrame a → m.kernelPool.FreeFrame a
  entry : ∀ s, s < 0x10000 → m'.ram.read32 (heapPlace s) = m.ram.read32 (heapPlace s) ∨
    ∃ q : UInt32, m.kernelPool.FreeFrame q.toNat ∧ ¬ m'.kernelPool.FreeFrame q.toNat ∧
      m'.ram.read32 (heapPlace s) = entryOf q
  ram : ∀ x, ¬ (0x101400 ≤ x ∧ x < 0x141400) →
    (∀ q, m.kernelPool.FreeFrame q → ¬ (q ≤ x ∧ x < q + 0x1000)) → m'.ram x = m.ram x

section HeapStep

variable {t : Tid} {m m₁ m' : Memory} {dirs : List Nat}

theorem HeapStep.refl (h : KernelPools m.toPools) : HeapStep m m :=
  ⟨rfl, rfl, rfl, rfl, h, rfl, rfl, fun _ ha => ha, fun _ _ => Or.inl rfl, fun _ _ _ => rfl⟩

/-- Bits of `kernel_vaddr` are set. -/
theorem HeapStep.reserve (h : KernelPools m.toPools) {btmp : Bitmap}
    (harea : SameArea m.kernelVaddr.vaddrBitmap btmp) :
    HeapStep m { m with kernelVaddr := { m.kernelVaddr with vaddrBitmap := btmp } } :=
  ⟨rfl, rfl, rfl, rfl, ⟨h.ok, h.phyAddrStart, h.vaddrStart, harea.size.symm ▸ h.vaddrSize⟩, rfl,
    harea.size, fun _ ha => ha, fun _ _ => Or.inl rfl, fun _ _ _ => rfl⟩

theorem HeapStep.trans (h : HeapStep m m₁) (h' : HeapStep m₁ m') : HeapStep m m' where
  cr3 := h'.cr3.trans h.cr3
  userPool := h'.userPool.trans h.userPool
  userprogVaddr := h'.userprogVaddr.trans h.userprogVaddr
  pgdir := h'.pgdir.trans h.pgdir
  pools := h'.pools
  size := h'.size.trans h.size
  heapSize := h'.heapSize.trans h.heapSize
  free a ha := h.free a (h'.free a ha)
  entry s hs := by
    rcases h'.entry s hs with hsame | ⟨q, hfree, hused, hnew⟩
    · rw [hsame]
      rcases h.entry s hs with hsame₁ | ⟨q, hfree, hused, hnew⟩
      · exact Or.inl hsame₁
      · exact Or.inr ⟨q, hfree, fun hq => hused (h'.free _ hq), hnew⟩
    · exact Or.inr ⟨q, h.free _ hfree, hused, hnew⟩
  ram x harea hx := by
    rw [h'.ram x harea fun q hq => hx q (h.free q hq), h.ram x harea hx]

/-- Only memory in free frames of `p` is written. -/
def FillsFree (p : Pool) (ram ram' : ByteMemory) : Prop :=
  ∀ x, (∀ q, p.FreeFrame q → ¬ (q ≤ x ∧ x < q + 0x1000)) → ram' x = ram x

/-- The tables of the heap are not in a free frame. -/
theorem FillsFree.heapPlace {ram ram' : ByteMemory} (h : FillsFree m.kernelPool ram ram')
    (hm : KernelPools m.toPools) {s : Nat} (hs : s < 0x10000) :
    ram'.read32 (heapPlace s) = ram.read32 (heapPlace s) := by
  have hpool : poolStart = 0x200000 := rfl
  have hplace : ByteMemory.EqOn (OsKernel.heapPlace s) 4 ram ram' := by
    intro x hlo hhi
    refine h x fun q hq hin => ?_
    have hfree := (hm.free hq).2
    unfold OsKernel.heapPlace at hlo hhi
    omega
  exact hplace.read32 (Nat.le_refl _) (Nat.le_refl _)

/-- More of the memory that was free is written. -/
theorem HeapStep.fill (h : HeapStep m m') (hm : KernelPools m.toPools) {ram' : ByteMemory}
    (hram : FillsFree m.kernelPool m'.ram ram') : HeapStep m { m' with ram := ram' } where
  cr3 := h.cr3
  userPool := h.userPool
  userprogVaddr := h.userprogVaddr
  pgdir := h.pgdir
  pools := h.pools
  size := h.size
  heapSize := h.heapSize
  free := h.free
  entry s hs := by
    dsimp only
    rw [hram.heapPlace hm hs]
    exact h.entry s hs
  ram x harea hx := (hram x hx).trans (h.ram x harea hx)

/-- The directories stay as they are. -/
theorem HeapStep.eqOn_dir (hstep : HeapStep m m') (h : Spaces m dirs) {d : Nat} (hd : d ∈ dirs) :
    ByteMemory.EqOn d 0x1000 m.ram m'.ram := by
  intro a hlo hhi
  have hpos : pageDirTablePos = 0x100000 := rfl
  have hpool : poolStart = 0x200000 := rfl
  have haligned := h.aligned hd
  refine hstep.ram a ?_ fun q hq hin => ?_
  · rcases h.place d hd with hplace | hplace
    · omega
    · omega
  · have hne : q ≠ d := fun heq => h.used d hd (heq ▸ hq)
    have hfree := h.pools.free hq
    omega

theorem HeapStep.spaces (hstep : HeapStep m m') (h : Spaces m dirs) : Spaces m' dirs :=
  h.congr hstep.pools hstep.free fun _ hd => hstep.eqOn_dir h hd

/-- **One page**: a frame is taken and put behind a heap address. -/
theorem heapTurn (h : Spaces m dirs) (hd : m.cr3 t ∈ dirs) {vaddr p : UInt32} {pool : Pool}
    {s off : Nat} (hs : s < 0x10000) (hoff : off < 0x1000)
    (hv : vaddr.toNat = 0xc0100000 + 0x1000 * s + off)
    (hpalloc : palloc m.kernelPool = .ok (p, pool)) (hp : p ≠ 0)
    (hret : pageTableAdd t vaddr p { m with kernelPool := pool } = .ok m') :
    HeapStep m m' ∧ Taken m.kernelPool p.toNat m'.kernelPool ∧ m'.kernelVaddr = m.kernelVaddr ∧
      m'.ram = m.ram.write32 (heapPlace s) (entryOf p) := by
  rcases palloc_taken h.pools.ok hpalloc with ⟨hzero, -, -⟩ | ⟨-, htaken⟩
  · exact absurd hzero hp
  have hpools : KernelPools { m.toPools with kernelPool := pool } :=
    ⟨htaken.ok h.pools.ok, htaken.start ▸ h.pools.phyAddrStart, h.pools.vaddrStart,
      h.pools.vaddrSize⟩
  have hless : ∀ a, pool.FreeFrame a → m.kernelPool.FreeFrame a :=
    fun a ha => ((htaken.rest a).mp ha).1
  have h₁ : Spaces { m with kernelPool := pool } dirs :=
    h.congr hpools hless fun d _ => .refl m.ram
  have hm' := pageTableAdd_heap h₁ hd hs hoff hv hret
  subst hm'
  refine ⟨⟨rfl, rfl, rfl, rfl, hpools, htaken.area.size, rfl, hless, ?_, ?_⟩, htaken, rfl, rfl⟩
  · intro s' hs'
    dsimp only
    by_cases heq : s' = s
    · rw [heq]
      exact Or.inr ⟨p, htaken.free, fun hq => ((htaken.rest _).mp hq).2 rfl,
        ByteMemory.read32_write32 _ _ _⟩
    · refine Or.inl (ByteMemory.read32_write32_of_disjoint ?_)
      unfold heapPlace
      omega
  · intro x harea _
    refine ByteMemory.write32_outside ?_
    unfold heapPlace
    omega

/-- The frame at `q` was free and lies behind the heap page `s` now. -/
structure HeapPage (m m' : Memory) (s : Nat) (q : UInt32) : Prop where
  free : m.kernelPool.FreeFrame q.toNat
  used : ¬ m'.kernelPool.FreeFrame q.toNat
  entry : m'.ram.read32 (heapPlace s) = entryOf q

/-- **The loop of `malloc_page`** on heap pages. -/
theorem mallocLoop_step {cnt s : Nat} {complete : Bool} (h : Spaces m dirs) (hd : m.cr3 t ∈ dirs)
    (hs : s + cnt ≤ 0x10000)
    (hret : mallocLoop t .kernel cnt (heapAddr s) m = .ok (complete, m')) :
    HeapStep m m' ∧ m'.kernelVaddr = m.kernelVaddr ∧
      (∀ s', s' < s → m'.ram.read32 (heapPlace s') = m.ram.read32 (heapPlace s')) ∧
      (complete = true → m'.kernelPool.freeFrames + cnt = m.kernelPool.freeFrames ∧
        ∀ k, k < cnt → ∃ q, HeapPage m m' (s + k) q) := by
  induction cnt generalizing s m with
  | zero =>
    cases hret
    exact ⟨.refl h.pools, rfl, fun _ _ => rfl, fun _ => ⟨rfl, nofun⟩⟩
  | succ cnt ih =>
    obtain ⟨⟨p, pool⟩, hpalloc, hret⟩ := bind_eq_ok.mp hret
    dsimp only at hret
    split at hret
    · next hzero =>
      -- the frames have run out
      rw [hzero] at hpalloc
      rcases palloc_taken h.pools.ok hpalloc with ⟨-, hpool, -⟩ | ⟨hne, -⟩
      · cases hret
        have hsame : m.setPool pool .kernel = m := by
          rw [hpool]
          rfl
        rw [hsame]
        exact ⟨.refl h.pools, rfl, fun _ _ => rfl, nofun⟩
      · exact absurd rfl hne
    · next hne =>
      obtain ⟨m₁, hadd, hrest⟩ := bind_eq_ok.mp hret
      have hlt : s < 0x10000 := by omega
      have hv := heapAddr_toNat hlt
      obtain ⟨hstep₁, htaken, hvaddr₁, hram₁⟩ :=
        heapTurn h hd hlt (Nat.succ_pos 0xfff) hv hpalloc hne hadd
      rw [heapAddr_succ] at hrest
      obtain ⟨hstep, hvaddr, hkept, hpages⟩ :=
        ih (hstep₁.spaces h) (hstep₁.cr3 ▸ hd) (by omega) hrest
      refine ⟨hstep₁.trans hstep, hvaddr.trans hvaddr₁, ?_, ?_⟩
      · intro s' hs'
        rw [hkept s' (by omega), hram₁]
        refine ByteMemory.read32_write32_of_disjoint ?_
        unfold heapPlace
        omega
      · intro hcomplete
        obtain ⟨hcount, hpages⟩ := hpages hcomplete
        have hone := htaken.count
        refine ⟨by omega, fun k hk => ?_⟩
        cases k with
        | zero =>
          refine ⟨p, htaken.free, fun hq => ?_, ?_⟩
          · exact ((htaken.rest _).mp (hstep.free _ hq)).2 rfl
          · show m'.ram.read32 (heapPlace s) = _
            rw [hkept _ (Nat.lt_succ_self s), hram₁]
            exact ByteMemory.read32_write32 _ _ _
        | succ k =>
          obtain ⟨q, hpage⟩ := hpages k (Nat.lt_of_succ_lt_succ hk)
          refine ⟨q, hstep₁.free _ hpage.free, hpage.used, ?_⟩
          have hplace : s + (k + 1) = s + 1 + k := by omega
          rw [hplace]
          exact hpage.entry

/-- A heap page is where its entry says, in every directory. -/
theorem Spaces.translate_heap (h : Spaces m dirs) {d : Nat} (hd : d ∈ dirs) {vaddr q : UInt32}
    {s off : Nat} (hs : s < 0x10000) (hoff : off < 0x1000)
    (hv : vaddr.toNat = 0xc0100000 + 0x1000 * s + off) (hq : q.toNat % 0x1000 = 0)
    (hentry : m.ram.read32 (heapPlace s) = entryOf q) :
    translate d m.ram vaddr = .ok (q.toNat + off) := by
  obtain ⟨hdir, htable, hmod⟩ := heap_fields hoff hv
  have hpage := h.heapEntry_eq hd hs
  rw [hentry, heapEntry] at hpage
  have htrans := @translate_eq d m.ram vaddr
  rw [hdir, htable, hmod, hpage, frame_entryOf hq] at htrans
  exact htrans (h.heap_dir hd hs).1 (present_entryOf hq)

/-- The bytes behind the heap pages from `s` on. -/
def heapBytes (ram : ByteMemory) (s i : Nat) : Nat :=
  frame (ram.read32 (heapPlace (s + i / 0x1000))) + i % 0x1000

/-- The bytes of new pages are in frames that were free. -/
theorem heapBytes_fillsFree (hm : KernelPools m.toPools) {s cnt : Nat}
    (hpages : ∀ k, k < cnt → ∃ q, HeapPage m m' (s + k) q) {ram' : ByteMemory}
    (hram' : ∀ x, (∀ i, i < 0x1000 * cnt → x ≠ heapBytes m'.ram s i) → ram' x = m'.ram x) :
    FillsFree m.kernelPool m'.ram ram' := by
  intro x hx
  refine hram' x fun i hi heq => ?_
  obtain ⟨q, hpage⟩ := hpages (i / 0x1000) (Nat.div_lt_of_lt_mul hi)
  rw [heapBytes, hpage.entry, frame_entryOf (hm.free hpage.free).1] at heq
  exact hx q.toNat hpage.free (by omega)

/-- The new pages can be cleared. -/
theorem HeapStep.mapped (hstep : HeapStep m m') (h : Spaces m dirs) {d : Nat} (hd : d ∈ dirs)
    {s cnt : Nat} (hs : s + cnt ≤ 0x10000)
    (hpages : ∀ k, k < cnt → ∃ q, HeapPage m m' (s + k) q) :
    Mapped d m'.ram (heapAddr s) (0x1000 * cnt) (heapBytes m'.ram s) := by
  intro ram' hram' i hi
  have hfills := heapBytes_fillsFree h.pools hpages hram'
  obtain ⟨q, hpage⟩ := hpages (i / 0x1000) (Nat.div_lt_of_lt_mul hi)
  have haligned := (h.pools.free hpage.free).1
  have hlt : s + i / 0x1000 < 0x10000 := by
    have := Nat.div_lt_of_lt_mul hi
    omega
  have haddr : (heapAddr s + UInt32.ofNat i).toNat =
      0xc0100000 + 0x1000 * (s + i / 0x1000) + i % 0x1000 := by
    rw [UInt32.toNat_add, heapAddr_toNat (by omega), UInt32.toNat_ofNat']
    omega
  rw [heapBytes, hpage.entry, frame_entryOf haligned]
  exact ((hstep.fill h.pools hfills).spaces h).translate_heap hd hlt (Nat.mod_lt i (by decide)) haddr
    haligned ((hfills.heapPlace h.pools hlt).trans hpage.entry)

end HeapStep

/-! ## get_kernel_pages on one of the directories -/

/-- The new block of `n` heap pages from `s` on: every page has a frame that was free, and is zero. -/
structure HeapBlock (s n : Nat) (m m' : Memory) : Prop where
  bound : s + n ≤ m.kernelVaddr.vaddrBitmap.size
  frames : m'.kernelPool.freeFrames + n = m.kernelPool.freeFrames
  pages : ∀ k, k < n → ∃ q, HeapPage m m' (s + k) q ∧
    ∀ off, off < 0x1000 → m'.ram (q.toNat + off) = 0

section KernelPages

variable {t : Tid} {m m' : Memory} {dirs : List Nat} {n a : UInt32}

/-- `vaddr_get` for the kernel: addresses are reserved, or there is no run and the result is 0. -/
theorem vaddrGet_step (h : Spaces m dirs) (hn : 0 < n.toNat)
    (hret : vaddrGet t .kernel n m = .ok (a, m')) :
    (a = 0 ∧ m' = m) ∨
      ∃ s, a = heapAddr s ∧ s + n.toNat ≤ m.kernelVaddr.vaddrBitmap.size ∧ HeapStep m m' ∧
        m'.kernelPool = m.kernelPool := by
  cases hscan : bitmapScan (m.vaddrs t .kernel).vaddrBitmap n.toNat with
  | none =>
    rw [vaddrGet_none hscan] at hret
    cases hret
    exact Or.inl ⟨rfl, rfl⟩
  | some s =>
    have hfit := bitmapScan_spec (m.vaddrs t .kernel).vaddrBitmap hn
    rw [hscan] at hfit
    obtain ⟨btmp, harea, -, heq⟩ := vaddrGet_some hn hscan
    rw [heq] at hret
    cases hret
    refine Or.inr ⟨s, ?_, hfit.bound, .reserve h.pools harea, rfl⟩
    rw [VirtualAddr.pageAddr, heapAddr]
    congr 1
    exact h.pools.vaddrStart

/-- From address 0 the loop does not get past the first page. -/
theorem mallocLoop_null {pf : PoolFlags} {cnt : Nat} {complete : Bool} (hp : (m.pool pf).Ok)
    (hret : mallocLoop t pf cnt 0 m = .ok (complete, m')) : m' = m ∧ (complete = true → cnt = 0) := by
  cases cnt with
  | zero =>
    cases hret
    exact ⟨rfl, fun _ => rfl⟩
  | succ cnt =>
    obtain ⟨⟨p, pool⟩, hpalloc, hret⟩ := bind_eq_ok.mp hret
    dsimp only at hret
    split at hret
    · next hzero =>
      rw [hzero] at hpalloc
      rcases palloc_taken hp hpalloc with ⟨-, hpool, -⟩ | ⟨hne, -⟩
      · cases hret
        refine ⟨?_, nofun⟩
        rw [hpool]
        cases pf with
        | kernel => rfl
        | user => rfl
      · exact absurd rfl hne
    · -- `ASSERT(_vaddr != NULL)`
      obtain ⟨_, hadd, -⟩ := bind_eq_ok.mp hret
      obtain ⟨_, hzero, -⟩ := bind_eq_ok.mp hadd
      cases hzero

/-- The range that `malloc_page` checks. -/
theorem mallocPage_cnt {pf : PoolFlags} (hret : mallocPage t pf n m = .ok (a, m')) :
    0 < n.toNat ∧ n.toNat < 3840 := by
  obtain ⟨_, hassert, -⟩ := bind_eq_ok.mp hret
  by_contra hbad
  have hfalse : (n > 0 && n < 3840) = false := by
    rw [Bool.eq_false_iff, ne_eq, Bool.and_eq_true, decide_eq_true_iff, decide_eq_true_iff,
      gt_iff_lt, UInt32.lt_iff_toNat_lt, UInt32.lt_iff_toNat_lt]
    exact hbad
  rw [hfalse] at hassert
  cases hassert

/-- `malloc_page` for the kernel. -/
theorem mallocPage_step (h : Spaces m dirs) (hd : m.cr3 t ∈ dirs)
    (hret : mallocPage t .kernel n m = .ok (a, m')) :
    HeapStep m m' ∧ (a ≠ 0 → ∃ s, a = heapAddr s ∧
      s + n.toNat ≤ m.kernelVaddr.vaddrBitmap.size ∧
      m'.kernelPool.freeFrames + n.toNat = m.kernelPool.freeFrames ∧
      ∀ k, k < n.toNat → ∃ q, HeapPage m m' (s + k) q) := by
  have hcount := mallocPage_cnt hret
  obtain ⟨_, -, hret⟩ := bind_eq_ok.mp hret
  obtain ⟨⟨addrStart, m₁⟩, hvaddr, hret⟩ := bind_eq_ok.mp hret
  obtain ⟨⟨complete, m₂⟩, hloop, hret⟩ := bind_eq_ok.mp hret
  cases hret
  have hsize := h.pools.vaddrSize
  rcases vaddrGet_step h hcount.1 hvaddr with ⟨hnull, rfl⟩ | ⟨s, hs, hbound, hreserve, hsame⟩
  · rw [hnull] at hloop ⊢
    have hok : (m₁.pool .kernel).Ok := h.pools.ok
    rw [(mallocLoop_null hok hloop).1, ite_self]
    exact ⟨.refl h.pools, fun hne => absurd rfl hne⟩
  · rw [hs] at hloop ⊢
    obtain ⟨hstep, -, -, hpages⟩ :=
      mallocLoop_step (hreserve.spaces h) (hreserve.cr3 ▸ hd) (by omega) hloop
    refine ⟨hreserve.trans hstep, fun hne => ?_⟩
    cases complete with
    | false => exact absurd rfl hne
    | true =>
      obtain ⟨hframes, hpages⟩ := hpages rfl
      rw [hsame] at hframes
      refine ⟨s, rfl, hbound, hframes, fun k hk => ?_⟩
      obtain ⟨q, hpage⟩ := hpages k hk
      exact ⟨q, hreserve.free _ hpage.free, hpage.used, hpage.entry⟩

/-- **`get_kernel_pages`** keeps to the shared half, and a block it returns is new and zeroed. -/
theorem getKernelPages_step (h : Spaces m dirs) (hd : m.cr3 t ∈ dirs)
    (hret : getKernelPages t n m = .ok (a, m')) :
    HeapStep m m' ∧ (a ≠ 0 → ∃ s, a = heapAddr s ∧ HeapBlock s n.toNat m m') := by
  obtain ⟨⟨vaddr, m₁⟩, hmalloc, hret⟩ := bind_eq_ok.mp hret
  have hn := (mallocPage_cnt hmalloc).2
  obtain ⟨hstep, hblock⟩ := mallocPage_step h hd hmalloc
  dsimp only at hret
  split at hret
  · next hne =>
    obtain ⟨ram', hmemset, hret⟩ := bind_eq_ok.mp hret
    cases hret
    obtain ⟨s, hs, hbound, hframes, hpages⟩ := hblock hne
    have hsize := h.pools.vaddrSize
    have hbytes : (n * pgSize).toNat = 0x1000 * n.toNat := by
      rw [UInt32.toNat_mul]
      show n.toNat * 0x1000 % 2 ^ 32 = _
      omega
    have hmapped := hstep.mapped h hd (by omega) hpages
    rw [← hbytes] at hmapped
    obtain ⟨ram₂, hfill, hfilled⟩ := memset_filled 0 (hs ▸ hne) hmapped
    rw [hs, hstep.cr3] at hmemset
    rw [hmemset] at hfill
    cases hfill
    rw [hbytes] at hfilled
    have hfills := heapBytes_fillsFree h.pools hpages hfilled.outside
    refine ⟨hstep.fill h.pools hfills, fun _ => ⟨s, hs, hbound, hframes, fun k hk => ?_⟩⟩
    obtain ⟨q, hpage⟩ := hpages k hk
    have haligned := (h.pools.free hpage.free).1
    refine ⟨q, ⟨hpage.free, hpage.used, ?_⟩, fun off hoff => ?_⟩
    · exact (hfills.heapPlace h.pools (by omega)).trans hpage.entry
    · have hinside := hfilled.inside (0x1000 * k + off) (by omega)
      have hdiv : (0x1000 * k + off) / 0x1000 = k := by omega
      have hmod : (0x1000 * k + off) % 0x1000 = off := by omega
      rw [heapBytes, hdiv, hmod, hpage.entry, frame_entryOf haligned] at hinside
      exact hinside
  · next hzero =>
    cases hret
    exact ⟨hstep, fun hne => absurd hne hzero⟩

end KernelPages

end OsKernel
