import OsKernel.Memory.Spaces

/-!
# userprog/process.c: page directories

A new page directory gets the kernel half of the directory that is active when it is made, and its
own frame as the last entry. The directories are never synchronised afterwards.

- `createPageDir`, `createUserVaddrBitmap`; `createPageDir_step`: what the new directory holds.
- `SpaceRun`, `spaceRuns`: operations one after another, each on one of the directories made so far.
- `spaces_share_kernel`: all directories have the kernel half in common, in every run.
-/

namespace OsKernel

open Lib

/-! ## The functions -/

/-- `create_page_dir`; `NULL` is 0. -/
def createPageDir (t : Tid) (m : Memory) : Except Panic (UInt32 × Memory) := do
  let (pageDirVaddr, m) ← getKernelPages t 1 m
  if pageDirVaddr = 0 then return (0, m)
  let ram ← memcpy (m.cr3 t) m.ram (pageDirVaddr + 0x300 * 4) (0xfffff000 + 0x300 * 4) 1024
  let m := { m with ram := ram }
  let newPageDirPhyAddr ← addrV2p t pageDirVaddr m
  let ram ← store32 (m.cr3 t) m.ram (pageDirVaddr + 4 * 1023) (entryOf newPageDirPhyAddr)
  return (pageDirVaddr, { m with ram := ram })

/-- `create_user_vaddr_bitmap`. `USER_VADDR_START` is defined in a header that the repository does
not contain. -/
def createUserVaddrBitmap (userVaddrStart : UInt32) (t userProg : Tid) (m : Memory) :
    Except Panic Memory := do
  let btmpBytesLen := (0xc0000000 - userVaddrStart) / pgSize / 8
  let bitmapPgCnt := (btmpBytesLen + pgSize - 1) / pgSize
  let (bits, m) ← getKernelPages t bitmapPgCnt m
  -- `bitmap_init` clears the bits with `memset`
  assert (bits != 0) .memsetDst
  return m.setVaddrs userProg
    { vaddrBitmap := bitmapInit { btmpBytesLen := btmpBytesLen, bits := bits, bytes := fun _ => 0 }
      vaddrStart := userVaddrStart } .user

/-! ## The new directory -/

/-- The frame `q` holds a page directory with nothing but the kernel half. -/
structure NewDir (ram : ByteMemory) (q : UInt32) : Prop where
  user : ∀ i, i < 768 → dirEntry q.toNat ram i = 0
  kernel : ∀ i, 768 ≤ i → i < 1023 → dirEntry q.toNat ram i = bootDirEntry i
  last : dirEntry q.toNat ram 1023 = entryOf q

/-- The bytes `create_page_dir` leaves in the new page make it such a directory. -/
theorem NewDir.of_bytes {ram ram' : ByteMemory} {q : UInt32} {d : Nat}
    (hbyte : ∀ off, off < 0xffc → ram' (q.toNat + off) = if off < 0xc00 then 0 else ram (d + off))
    (hkernel : ∀ i, 768 ≤ i → i < 1023 → dirEntry d ram i = bootDirEntry i)
    (hlast : ram'.read32 (q.toNat + 0xffc) = entryOf q) : NewDir ram' q := by
  refine ⟨fun i hi => ?_, fun i hlo hhi => ?_, hlast⟩
  · refine ByteMemory.read32_zero fun k hk => ?_
    rw [Nat.add_assoc, hbyte _ (by omega), if_pos (by omega)]
  · rw [← hkernel i hlo hhi]
    refine ByteMemory.read32_congr fun k hk => ?_
    rw [Nat.add_assoc, hbyte _ (by omega), if_neg (by omega), ← Nat.add_assoc]

section CreatePageDir

variable {t : Tid} {m m' : Memory} {dirs : List Nat} {a : UInt32}

/-- The upper quarter of the active directory can be copied to a new page. -/
theorem HeapStep.copyable (hstep : HeapStep m m') (h : Spaces m dirs) {d : Nat} (hd : d ∈ dirs)
    {s : Nat} (hs : s < 0x10000) {q : UInt32} (hpage : HeapPage m m' s q) :
    Copyable d m'.ram (heapAddr s + 0x300 * 4) (0xfffff000 + 0x300 * 4) 1024
      (fun i => q.toNat + (0xc00 + i)) (fun i => d + (0xc00 + i)) := by
  have haligned := (h.pools.free hpage.free).1
  have hdir := h.aligned hd
  have hne : q.toNat ≠ d := fun heq => h.used d hd (heq ▸ hpage.free)
  have hfills : ∀ ram' : ByteMemory,
      (∀ x, (∀ i, i < 1024 → x ≠ q.toNat + (0xc00 + i)) → ram' x = m'.ram x) →
      FillsFree m.kernelPool m'.ram ram' := by
    intro ram' hram' x hx
    refine hram' x fun i hi heq => ?_
    exact hx q.toNat hpage.free (by omega)
  refine ⟨?_, ?_, fun i k _ _ heq => by omega, fun i k hi hk => by omega⟩
  · intro ram' hram' i hi
    have hfill := hfills ram' hram'
    refine ((hstep.fill h.pools hfill).spaces h).translate_heap hd hs (by omega) ?_ haligned
      ((hfill.heapPlace h.pools hs).trans hpage.entry)
    rw [UInt32.toNat_add, UInt32.toNat_add, heapAddr_toNat hs, UInt32.toNat_ofNat']
    show ((0xc0100000 + 0x1000 * s + 0xc00) % 2 ^ 32 + i % 2 ^ 32) % 2 ^ 32 = _
    omega
  · intro ram' hram' i hi
    have hrec : Recursive d ram' := ((hstep.fill h.pools (hfills ram' hram')).spaces h).last d hd
    have haddr : ((0xfffff000 : UInt32) + 0x300 * 4 + UInt32.ofNat i).toNat =
        0xffc00000 + 0x1000 * 1023 + (0xc00 + i) := by
      rw [UInt32.toNat_add, UInt32.toNat_ofNat']
      show (0xfffffc00 + i % 2 ^ 32) % 2 ^ 32 = _
      omega
    have htrans := hrec.translate_table (by decide) (by omega) hrec.present haddr
    rw [hrec.frame] at htrans
    exact htrans

/-- What `create_page_dir` does to the page it gets: the page was free, and nothing else is written. -/
theorem createPageDir_fills (h : Spaces m dirs) (hd : m.cr3 t ∈ dirs)
    (hret : createPageDir t m = .ok (a, m')) :
    ∃ m₁ ram, getKernelPages t 1 m = .ok (a, m₁) ∧ m' = { m₁ with ram := ram } ∧
      FillsFree m.kernelPool m₁.ram ram ∧ (a ≠ 0 → ∃ s q, s < 0x10000 ∧ a = heapAddr s ∧
        HeapPage m m' s q ∧ NewDir m'.ram q) := by
  obtain ⟨⟨pageDirVaddr, m₁⟩, hpages, hret⟩ := bind_eq_ok.mp hret
  obtain ⟨hstep, hblock⟩ := getKernelPages_step h hd hpages
  dsimp only at hret
  split at hret
  · next hzero =>
    cases hret
    exact ⟨m', m'.ram, hzero ▸ hpages, rfl, fun _ _ => rfl, fun hne => absurd rfl hne⟩
  next hne =>
  obtain ⟨s, rfl, hbound, -, hzero⟩ := hblock hne
  have hsize := h.pools.vaddrSize
  have hone : (1 : UInt32).toNat = 1 := rfl
  have hs : s < 0x10000 := by omega
  obtain ⟨q, hpage, hzero⟩ := hzero 0 (by decide)
  rw [Nat.add_zero] at hpage
  have haligned := (h.pools.free hpage.free).1
  have hdir := h.aligned hd
  have hqne : q.toNat ≠ m.cr3 t := fun heq => h.used _ hd (heq ▸ hpage.free)
  -- the copy
  obtain ⟨ram₂, hmemcpy, hret⟩ := bind_eq_ok.mp hret
  have hdst : heapAddr s + 0x300 * 4 ≠ 0 := by
    intro heq
    have hnat := congrArg UInt32.toNat heq
    rw [UInt32.toNat_add, heapAddr_toNat hs] at hnat
    replace hnat : (0xc0100000 + 0x1000 * s + 0xc00) % 2 ^ 32 = 0 := hnat
    omega
  obtain ⟨ram, hcopy, hcopied⟩ := @memcpy_copied (m.cr3 t) m₁.ram (heapAddr s + 0x300 * 4)
    (0xfffff000 + 0x300 * 4) 1024 _ _ hdst (by decide) (hstep.copyable h hd hs hpage)
  rw [hstep.cr3, hcopy] at hmemcpy
  have hram := Except.ok.inj hmemcpy
  subst hram
  have hfill : FillsFree m.kernelPool m₁.ram ram := by
    intro x hx
    refine hcopied.outside x fun i hi heq => ?_
    replace hi : i < 1024 := hi
    exact hx q.toNat hpage.free (by omega)
  have hstep₂ := hstep.fill h.pools hfill
  have hentry₂ := (hfill.heapPlace h.pools hs).trans hpage.entry
  have hspaces₂ := hstep₂.spaces h
  -- the physical address of the new directory
  obtain ⟨phyAddr, hv2p, hret⟩ := bind_eq_ok.mp hret
  have htrans : translate (m.cr3 t) ram (heapAddr s) = .ok (q.toNat + 0) :=
    hspaces₂.translate_heap hd hs (by decide) (heapAddr_toNat hs) haligned hentry₂
  have hphy : phyAddr = q := by
    have hq := @addrV2p_eq (heapAddr s) t { m₁ with ram := ram } (hstep.cr3 ▸ hspaces₂.last _ hd) _
      (hstep.cr3 ▸ htrans)
    rw [hv2p, Nat.add_zero, UInt32.ofNat_toNat] at hq
    exact Except.ok.inj hq
  rw [hphy] at hret
  -- the last entry
  obtain ⟨ram₃, hstore, hret⟩ := bind_eq_ok.mp hret
  cases hret
  have hlast : translate (m.cr3 t) ram (heapAddr s + 4 * 1023) = .ok (q.toNat + 0xffc) := by
    refine hspaces₂.translate_heap hd hs (by decide) ?_ haligned hentry₂
    rw [UInt32.toNat_add, heapAddr_toNat hs]
    show (0xc0100000 + 0x1000 * s + 0xffc) % 2 ^ 32 = _
    omega
  have hram₃ : ram₃ = ram.write32 (q.toNat + 0xffc) (entryOf q) := by
    rw [store32, hstep.cr3, hlast] at hstore
    exact (Except.ok.inj hstore).symm
  subst hram₃
  have hfill₃ : FillsFree m.kernelPool m₁.ram (ram.write32 (q.toNat + 0xffc) (entryOf q)) := by
    intro x hx
    have hout := hx q.toNat hpage.free
    rw [ByteMemory.write32_outside (by omega)]
    exact hfill x hx
  refine ⟨m₁, _, hpages, rfl, hfill₃, fun _ => ⟨s, q, hs, rfl, ⟨hpage.free, hpage.used, ?_⟩, ?_⟩⟩
  · exact (hfill₃.heapPlace h.pools hs).trans hpage.entry
  have hbyte : ∀ off, off < 0xffc → ram.write32 (q.toNat + 0xffc) (entryOf q) (q.toNat + off) =
      if off < 0xc00 then 0 else m₁.ram (m.cr3 t + off) := by
    intro off hoff
    rw [ByteMemory.write32_outside (by omega)]
    by_cases hlo : off < 0xc00
    · rw [if_pos hlo, hcopied.outside _ fun i _ => by omega]
      exact hzero off (by omega)
    · obtain ⟨i, rfl⟩ := Nat.exists_eq_add_of_le (Nat.not_lt.mp hlo)
      rw [if_neg hlo]
      exact hcopied.inside i (show i < 1024 by omega)
  exact .of_bytes hbyte ((hstep.spaces h).kernel _ hd) (ByteMemory.read32_write32 _ _ _)

/-- **`create_page_dir`** writes to the kernel heap only, and the page it returns is a directory
with the shared kernel half. -/
theorem createPageDir_step (h : Spaces m dirs) (hd : m.cr3 t ∈ dirs)
    (hret : createPageDir t m = .ok (a, m')) :
    HeapStep m m' ∧ (a ≠ 0 → ∃ s q, s < 0x10000 ∧ a = heapAddr s ∧ HeapPage m m' s q ∧
      NewDir m'.ram q) := by
  obtain ⟨m₁, ram, hpages, rfl, hfills, hdir⟩ := createPageDir_fills h hd hret
  exact ⟨(getKernelPages_step h hd hpages).1.fill h.pools hfills, hdir⟩

/-- The new directory is one of them. -/
theorem Spaces.newDir (h : Spaces m dirs) (hstep : HeapStep m m') {s : Nat} {q : UInt32}
    (hpage : HeapPage m m' s q) (hnew : NewDir m'.ram q) : Spaces m' (q.toNat :: dirs) := by
  have hspaces := hstep.spaces h
  have hpos : pageDirTablePos = 0x100000 := rfl
  have hpool : poolStart = 0x200000 := rfl
  obtain ⟨haligned, hlo⟩ := h.pools.free hpage.free
  have hzero : present 0 = false := rfl
  have hnotTable : ∀ d ∈ dirs, ∀ i, i < 1023 → present (dirEntry d m'.ram i) = true →
      frame (dirEntry d m'.ram i) ≠ q.toNat := by
    intro d hd i hi hpresent heq
    have hentry : dirEntry d m'.ram i = dirEntry d m.ram i :=
      dirEntry_congr (hstep.eqOn_dir h hd) (by omega)
    rw [hentry] at hpresent heq
    exact (h.tables d hd i hi hpresent).2 (heq ▸ hpage.free)
  refine ⟨hspaces.pools, ?_, ?_, ?_, ?_, ?_⟩
  · intro d hd
    rcases List.mem_cons.mp hd with rfl | hd
    · exact ⟨hnew.last ▸ present_entryOf haligned, hnew.last ▸ frame_entryOf haligned⟩
    · exact hspaces.last d hd
  · intro d hd
    rcases List.mem_cons.mp hd with rfl | hd
    · exact hnew.kernel
    · exact hspaces.kernel d hd
  · intro d hd
    rcases List.mem_cons.mp hd with rfl | hd
    · exact Or.inr hlo
    · exact hspaces.place d hd
  · intro d hd
    rcases List.mem_cons.mp hd with rfl | hd
    · exact hpage.used
    · exact hspaces.used d hd
  · intro d hd i hi hpresent
    rcases List.mem_cons.mp hd with rfl | hd
    · -- only the kernel half is present
      have hkernel : 768 ≤ i := by
        by_contra hlt
        rw [hnew.user i (by omega), hzero] at hpresent
        cases hpresent
      have hframe := (bootDirEntry_table hi (Or.inr hkernel)).2
      rw [hnew.kernel i hkernel hi, hframe, bootTable, if_neg (by omega)]
      refine ⟨fun hmem => ?_, fun hfree => ?_⟩
      · rcases List.mem_cons.mp hmem with heq | hmem
        · omega
        · rcases h.place _ hmem with hplace | hplace
          · omega
          · omega
      · have hlo' := (hspaces.pools.free hfree).2
        omega
    · obtain ⟨hnot, hused⟩ := hspaces.tables d hd i hi hpresent
      refine ⟨fun hmem => ?_, hused⟩
      rcases List.mem_cons.mp hmem with heq | hmem
      · exact hnotTable d hd i hi hpresent heq
      · exact hnot hmem

end CreatePageDir

/-! ## Runs on several directories -/

/-- The memory and the physical addresses of the page directories made so far. -/
structure SpaceRun where
  mem : Memory
  dirs : List Nat

/-- The operations on address spaces. -/
inductive SpaceOp where
  | newDir
  | kernelPages (pgCnt : UInt32)
  | addPage (vaddr pagePhyaddr : UInt32)

/-- A thread carries out an operation while the directory at `dir` is active. -/
structure SpaceEvent where
  thread : Tid
  dir : Nat
  op : SpaceOp

/-- cr3 is loaded, as `page_dir_activate` does. -/
def Memory.activate (m : Memory) (t : Tid) (dir : Nat) : Memory :=
  { m with cr3 := Function.update m.cr3 t dir }

def SpaceOp.exec (t : Tid) (s : SpaceRun) : SpaceOp → Except Panic SpaceRun
  | .newDir => do
    let (pageDirVaddr, m) ← createPageDir t s.mem
    if pageDirVaddr = 0 then return { s with mem := m }
    -- the value that `page_dir_activate` will load
    let dir ← addrV2p t pageDirVaddr m
    return { mem := m, dirs := dir.toNat :: s.dirs }
  | .kernelPages pgCnt => do
    let (_, m) ← getKernelPages t pgCnt s.mem
    return { s with mem := m }
  | .addPage vaddr pagePhyaddr => do
    let m ← pageTableAdd t vaddr pagePhyaddr s.mem
    return { s with mem := m }

/-- After `setup_page` and `mem_pool_init`: one directory, and any contents of the memory before. -/
structure SpaceStart (allMem : UInt32) (s : SpaceRun) : Prop where
  pools : ∃ bytes, s.mem.toPools = memPoolInit allMem bytes
  ram : ∃ ram, s.mem.ram = setupPage ram
  dirs : s.dirs = [pageDirTablePos]

/-- Operations one after another. -/
def spaceRuns (allMem : UInt32) : System SpaceRun SpaceEvent Panic where
  init := SpaceStart allMem
  step e s := some (e.op.exec e.thread { s with mem := s.mem.activate e.thread e.dir })

/-- The active directory is one of those made so far, and `page_table_add` is called for user
addresses. -/
def OnSpaces (s : SpaceRun) (e : SpaceEvent) : Prop :=
  e.dir ∈ s.dirs ∧ ∀ vaddr p, e.op = .addPage vaddr p → vaddr.toNat < 0xc0000000

/-- All directories have the kernel half in common. -/
structure SharedKernel (m : Memory) (dirs : List Nat) : Prop where
  present : ∀ d ∈ dirs, ∀ i, 768 ≤ i → i < 1023 → present (dirEntry d m.ram i) = true
  equal : ∀ d ∈ dirs, ∀ d' ∈ dirs, ∀ i, 768 ≤ i → i < 1023 →
    dirEntry d' m.ram i = dirEntry d m.ram i
  last : ∀ d ∈ dirs, OsKernel.present (dirEntry d m.ram 1023) = true ∧
    frame (dirEntry d m.ram 1023) = d
  /-- The test with which `page_table_add` chooses its branch. -/
  table : ∀ d ∈ dirs, ∀ vaddr, HeapAddress m vaddr →
    ∃ e, load32 d m.ram (pdePtr vaddr) = .ok e ∧ e &&& 0x01 ≠ 0
  translate : ∀ d ∈ dirs, ∀ d' ∈ dirs, ∀ vaddr, HeapAddress m vaddr →
    translate d' m.ram vaddr = translate d m.ram vaddr

section Runs

variable {m m' : Memory} {dirs : List Nat} {allMem : UInt32}

/-- What the directories are set up for. -/
theorem Spaces.sharedKernel (h : Spaces m dirs) : SharedKernel m dirs := by
  have hequal : ∀ d ∈ dirs, ∀ d' ∈ dirs, ∀ i, 768 ≤ i → i < 1023 →
      dirEntry d' m.ram i = dirEntry d m.ram i := by
    intro d hd d' hd' i hlo hhi
    rw [h.kernel d hd i hlo hhi, h.kernel d' hd' i hlo hhi]
  -- the directory entry of a heap address
  have hindex : ∀ vaddr, HeapAddress m vaddr → 768 ≤ dirIndex vaddr ∧ dirIndex vaddr < 1023 := by
    intro vaddr ⟨hlo, hhi⟩
    have hstart : kHeapStart.toNat = 0xc0100000 := rfl
    have hsize := h.pools.vaddrSize
    unfold dirIndex
    omega
  have hpresent : ∀ d ∈ dirs, ∀ i, 768 ≤ i → i < 1023 → present (dirEntry d m.ram i) = true := by
    intro d hd i hlo hhi
    rw [h.kernel d hd i hlo hhi]
    exact (bootDirEntry_table hhi (Or.inr hlo)).1
  refine ⟨hpresent, hequal, fun d hd => ⟨(h.last d hd).present, (h.last d hd).frame⟩, ?_, ?_⟩
  · intro d hd vaddr hv
    obtain ⟨hlo, hhi⟩ := hindex vaddr hv
    exact ⟨_, (h.last d hd).load32_pdePtr, (present_iff _).mpr (hpresent d hd _ hlo hhi)⟩
  · intro d hd d' hd' vaddr hv
    obtain ⟨hlo, hhi⟩ := hindex vaddr hv
    have hdir := hequal d hd d' hd' _ hlo hhi
    unfold OsKernel.translate tableEntry
    rw [hdir]

theorem Spaces.activate (h : Spaces m dirs) (t : Tid) (d : Nat) : Spaces (m.activate t d) dirs :=
  ⟨h.pools, h.last, h.kernel, h.place, h.used, h.tables⟩

theorem activate_cr3 (m : Memory) (t : Tid) (d : Nat) : (m.activate t d).cr3 t = d :=
  Function.update_self _ _ _

theorem activate_self {t : Tid} {d : Nat} (h : m.cr3 t = d) : m.activate t d = m := by
  rw [Memory.activate, ← h, Function.update_eq_self]

theorem activate_ram (m : Memory) (t : Tid) (d : Nat) : (m.activate t d).ram = m.ram := rfl

/-- The pools that `mem_pool_init` makes. -/
theorem kernelPools_init (hmem : 0x200000 ≤ allMem.toNat) (bytes : Nat → UInt8) :
    KernelPools (memPoolInit allMem bytes) := by
  have hlen := memPoolInit_kernel hmem bytes
  obtain ⟨hvaddr, -⟩ := memPoolInit_addr bytes hmem 0
  have hstart : (memPoolInit allMem bytes).kernelPool.phyAddrStart.toNat = 0x200000 := rfl
  refine ⟨⟨?_, ?_, ?_⟩, hstart, rfl, ?_⟩
  · rw [hstart]
    decide
  · rw [hstart]
  · rw [hstart, Bitmap.size, hlen]
    omega
  · rw [Bitmap.size, hvaddr, hlen]
    omega

/-- The directory of the boot loader. -/
theorem SpaceStart.spaces {s : SpaceRun} (h : SpaceStart allMem s) (hmem : 0x200000 ≤ allMem.toNat) :
    Spaces s.mem s.dirs := by
  obtain ⟨bytes, hpools⟩ := h.pools
  obtain ⟨ram, hram⟩ := h.ram
  have hpos : pageDirTablePos = 0x100000 := rfl
  have hpool : poolStart = 0x200000 := rfl
  have hkernel : KernelPools s.mem.toPools := hpools ▸ kernelPools_init hmem bytes
  have htables := setupPage_tables ram
  have hdir : ∀ i, i < 0x400 → dirEntry pageDirTablePos s.mem.ram i = bootDirEntry i := by
    intro i hi
    rw [hram]
    exact setupPage_dir ram hi
  have honly : ∀ d ∈ s.dirs, d = pageDirTablePos := by
    intro d hd
    rw [h.dirs] at hd
    exact List.mem_singleton.mp hd
  refine ⟨hkernel, ?_, ?_, fun d hd => Or.inl (honly d hd), ?_, ?_⟩
  · intro d hd
    rw [honly d hd, hram]
    exact htables.recursive
  · intro d hd i hlo hhi
    rw [honly d hd]
    exact hdir i (by omega)
  · intro d hd hfree
    have hlo := (hkernel.free hfree).2
    rw [honly d hd] at hlo
    omega
  · intro d hd i hi hpresent
    rw [honly d hd] at hpresent ⊢
    rw [hdir i (by omega)] at hpresent ⊢
    have hcase : i = 0 ∨ 768 ≤ i := by
      by_contra hnone
      rw [bootDirEntry_none (by omega) (by omega)] at hpresent
      cases hpresent
    -- the tables lie between the directory and the pool
    have hplace : 0x101000 ≤ frame (bootDirEntry i) ∧ frame (bootDirEntry i) < 0x200000 := by
      rw [(bootDirEntry_table hi hcase).2, bootTable]
      split
      · omega
      · omega
    refine ⟨fun hmem => ?_, fun hfree => ?_⟩
    · have heq := honly _ hmem
      omega
    · have hlo := (hkernel.free hfree).2
      omega

/-- Making a directory: `create_page_dir` fails, or there is a new directory. -/
theorem newDir_exec {s s' : SpaceRun} {t : Tid} (h : Spaces s.mem s.dirs)
    (ht : s.mem.cr3 t ∈ s.dirs) (hret : SpaceOp.newDir.exec t s = .ok s') :
    HeapStep s.mem s'.mem ∧ (s'.dirs = s.dirs ∨ ∃ page q, HeapPage s.mem s'.mem page q ∧
      NewDir s'.mem.ram q ∧ s'.dirs = q.toNat :: s.dirs) := by
  obtain ⟨⟨a, m⟩, hcreate, hret⟩ := bind_eq_ok.mp hret
  obtain ⟨hstep, hdir⟩ := createPageDir_step h ht hcreate
  dsimp only at hret
  split at hret
  · cases hret
    exact ⟨hstep, Or.inl rfl⟩
  next hne =>
  obtain ⟨page, q, hpage, rfl, hq, hnew⟩ := hdir hne
  have haligned := (h.pools.free hq.free).1
  obtain ⟨dir, hv2p, hret⟩ := bind_eq_ok.mp hret
  cases hret
  -- the address that will be loaded to cr3
  have hspaces := hstep.spaces h
  have htrans := hspaces.translate_heap (hstep.cr3 ▸ ht) hpage (Nat.succ_pos 0xfff)
    (heapAddr_toNat hpage) haligned hq.entry
  rw [addrV2p_eq (hspaces.last _ (hstep.cr3 ▸ ht)) htrans, Nat.add_zero, UInt32.ofNat_toNat] at hv2p
  cases hv2p
  exact ⟨hstep, Or.inr ⟨page, q, hq, hnew, rfl⟩⟩

/-- **One operation** on one of the directories. -/
theorem SpaceOp.exec_spaces {s s' : SpaceRun} {t : Tid} {op : SpaceOp} (h : Spaces s.mem s.dirs)
    (ht : s.mem.cr3 t ∈ s.dirs)
    (hv : ∀ vaddr p, op = .addPage vaddr p → vaddr.toNat < 0xc0000000)
    (hret : op.exec t s = .ok s') : Spaces s'.mem s'.dirs := by
  cases op with
  | newDir =>
    obtain ⟨hstep, hsame | ⟨page, q, hq, hnew, hdirs⟩⟩ := newDir_exec h ht hret
    · rw [hsame]
      exact hstep.spaces h
    · rw [hdirs]
      exact h.newDir hstep hq hnew
  | kernelPages n =>
    obtain ⟨⟨a, m⟩, hpages, hret⟩ := bind_eq_ok.mp hret
    cases hret
    exact (getKernelPages_step h ht hpages).1.spaces h
  | addPage vaddr p =>
    obtain ⟨m, hadd, hret⟩ := bind_eq_ok.mp hret
    cases hret
    have huser := hv vaddr p rfl
    refine (pageTableAdd_spaces h ht ?_ hadd).1
    unfold dirIndex
    omega

/-- **Every run** keeps the directories apart from everything that is written. -/
theorem spaceRuns_spaces (hmem : 0x200000 ≤ allMem.toNat) {s : SpaceRun}
    (hs : (spaceRuns allMem).Reach OnSpaces s) : Spaces s.mem s.dirs := by
  refine @System.Reach.invariant _ _ _ (spaceRuns allMem) OnSpaces
    (fun s => Spaces s.mem s.dirs) (fun s hinit => hinit.spaces hmem) ?_ s hs
  intro s e s' _ h ⟨hdir, hv⟩ hstep
  refine SpaceOp.exec_spaces (s := { s with mem := s.mem.activate e.thread e.dir })
    (h.activate e.thread e.dir) ?_ hv (Option.some.inj hstep)
  rw [activate_cr3]
  exact hdir

/-- **One kernel half.** In every run all page directories agree on the kernel half, between the
operations and after any number of turns of the loop of `malloc_page`. -/
theorem spaces_share_kernel (hmem : 0x200000 ≤ allMem.toNat) {s : SpaceRun}
    (hs : (spaceRuns allMem).Reach OnSpaces s) :
    SharedKernel s.mem s.dirs ∧
      ∀ (t : Tid), ∀ d ∈ s.dirs, ∀ (n a : UInt32) (m₁ : Memory), 0 < n.toNat →
        vaddrGet t .kernel n (s.mem.activate t d) = .ok (a, m₁) →
        ∀ (k : Nat) (m₂ : Memory), k ≤ n.toNat →
          mallocLoop t .kernel k a m₁ = .ok (true, m₂) → SharedKernel m₂ s.dirs := by
  have h := spaceRuns_spaces hmem hs
  refine ⟨h.sharedKernel, ?_⟩
  intro t d hd n a m₁ hn hvaddr k m₂ hk hloop
  have hactive := h.activate t d
  have ht : (s.mem.activate t d).cr3 t ∈ s.dirs := by
    rw [activate_cr3]
    exact hd
  have hsize := hactive.pools.vaddrSize
  rcases vaddrGet_step hactive hn hvaddr with ⟨rfl, rfl⟩ | ⟨page, rfl, hbound, hreserve, -⟩
  · have hok : ((s.mem.activate t d).pool .kernel).Ok := hactive.pools.ok
    rw [(mallocLoop_null hok hloop).1]
    exact hactive.sharedKernel
  · have hspaces := hreserve.spaces hactive
    obtain ⟨hstep, -⟩ := mallocLoop_step hspaces (hreserve.cr3 ▸ ht) (by omega) hloop
    exact (hstep.spaces hspaces).sharedKernel

end Runs

/-! ## A machine with 4 MB -/

/-- There are pages and frames for more calls, which the thread `t` makes with the loader's directory
active. -/
structure SpaceRoom (t : Tid) (dirs : List Nat) (k n : Nat) (m : Memory) : Prop where
  spaces : Spaces m dirs
  active : m.cr3 t = pageDirTablePos
  mem : pageDirTablePos ∈ dirs
  room : HeapRoom pageDirTablePos k n m

section SpaceRoom

variable {t : Tid} {dirs : List Nat} {k n : Nat} {m : Memory} {c : UInt32}

theorem SpaceRoom.cr3_mem (h : SpaceRoom t dirs k n m) : m.cr3 t ∈ dirs := h.active ▸ h.mem

theorem SpaceRoom.getKernelPages (h : SpaceRoom t dirs k n m) (hpos : 0 < c.toNat)
    (hk : k + c.toNat ≤ 256) (hn : c.toNat ≤ n) :
    ∃ a m', getKernelPages t c m = .ok (a, m') ∧ a ≠ 0 ∧ HeapStep m m' ∧
      SpaceRoom t dirs (k + c.toNat) (n - c.toNat) m' := by
  obtain ⟨a, m', hret, hne, hcr3, hroom⟩ := HeapRoom.getKernelPages (h.active.symm ▸ h.room) hpos hk hn
  have hstep := (getKernelPages_step h.spaces h.cr3_mem hret).1
  rw [h.active] at hroom
  exact ⟨a, m', hret, hne, hstep, hstep.spaces h.spaces, by rw [hcr3, h.active], h.mem, hroom⟩

/-- The user bitmaps are not part of it. -/
theorem SpaceRoom.users (h : SpaceRoom t dirs k n m) (f : Tid → VirtualAddr) :
    SpaceRoom t dirs k n { m with userprogVaddr := f } := by
  obtain ⟨⟨hpools, hlast, hkernel, hplace, hused, htables⟩, hactive, hmem,
    ⟨⟨map, hinv⟩, hsize, hclear, hframes⟩⟩ := h
  obtain ⟨h₁, h₂, h₃, h₄, h₅, h₆, h₇, h₈, h₉, h₁₀⟩ := hinv
  exact ⟨⟨hpools, hlast, hkernel, hplace, hused, htables⟩, hactive, hmem,
    ⟨⟨map, h₁, h₂, h₃, h₄, h₅, h₆, h₇, h₈, h₉, h₁₀⟩, hsize, hclear, hframes⟩⟩

/-- What is written to a free frame is not part of it. -/
theorem HeapRoom.fill {m₁ : Memory} {ram : ByteMemory} (h : HeapRoom pageDirTablePos k n m₁)
    (hm : KernelPools m.toPools) (hfill : FillsFree m.kernelPool m₁.ram ram) :
    HeapRoom pageDirTablePos k n { m₁ with ram := ram } := by
  obtain ⟨⟨map, hinv⟩, hsize, hclear, hframes⟩ := h
  refine ⟨⟨map, hinv.congr fun x _ hx => hfill x fun q hq hmem => ?_⟩, hsize, hclear, hframes⟩
  have hlo := (hm.free hq).2
  omega

/-- A page directory can be made. -/
theorem SpaceRoom.createPageDir (h : SpaceRoom t dirs k n m) (hk : k + 1 ≤ 256) (hn : 1 ≤ n) :
    ∃ page q m', createPageDir t m = .ok (heapAddr page, m') ∧ heapAddr page ≠ 0 ∧
      addrV2p t (heapAddr page) m' = .ok q ∧ HeapStep m m' ∧ q.toNat ∉ dirs ∧ NewDir m'.ram q ∧
      SpaceRoom t (q.toNat :: dirs) (k + 1) (n - 1) m' := by
  obtain ⟨a, m₁, hpages, hne, hstep, hroom⟩ := h.getKernelPages (c := 1) (by decide) hk hn
  obtain ⟨-, hblock⟩ := getKernelPages_step h.spaces h.cr3_mem hpages
  obtain ⟨i, rfl, hbound, -, hpage⟩ := hblock hne
  have hsize := h.room.size
  have hone : (1 : UInt32).toNat = 1 := rfl
  have hi : i < 0x10000 := by omega
  obtain ⟨q, hpage, -⟩ := hpage 0 (by decide)
  rw [Nat.add_zero] at hpage
  have haligned := (h.spaces.pools.free hpage.free).1
  have hdst : heapAddr i + 0x300 * 4 ≠ 0 := by
    intro heq
    have hnat := congrArg UInt32.toNat heq
    rw [UInt32.toNat_add, heapAddr_toNat hi] at hnat
    replace hnat : (0xc0100000 + 0x1000 * i + 0xc00) % 2 ^ 32 = 0 := hnat
    omega
  obtain ⟨ram, hcopy, hcopied⟩ := @memcpy_copied (m₁.cr3 t) m₁.ram (heapAddr i + 0x300 * 4)
    (0xfffff000 + 0x300 * 4) 1024 _ _ hdst (by decide)
    (hstep.copyable h.spaces (hstep.cr3 ▸ h.cr3_mem) hi hpage)
  have hfill : FillsFree m.kernelPool m₁.ram ram := by
    intro x hx
    refine hcopied.outside x fun i hi heq => ?_
    replace hi : i < 1024 := hi
    exact hx q.toNat hpage.free (by omega)
  have hspaces := (hstep.fill h.spaces.pools hfill).spaces h.spaces
  have hentry := (hfill.heapPlace h.spaces.pools hi).trans hpage.entry
  have htrans : ∀ off : Nat, off < 0x1000 → ∀ v : UInt32, v.toNat = 0xc0100000 + 0x1000 * i + off →
      translate (m₁.cr3 t) ram v = .ok (q.toNat + off) := fun off hoff v hv =>
    hspaces.translate_heap hroom.cr3_mem hi hoff hv haligned hentry
  have hv2p := @addrV2p_eq (heapAddr i) t { m₁ with ram := ram } (hspaces.last _ hroom.cr3_mem) _
    (htrans 0 (by decide) _ (heapAddr_toNat hi))
  have hlast : translate (m₁.cr3 t) ram (heapAddr i + 4 * 1023) = .ok (q.toNat + 0xffc) := by
    refine htrans 0xffc (by decide) _ ?_
    rw [UInt32.toNat_add, heapAddr_toNat hi]
    show (0xc0100000 + 0x1000 * i + 0xffc) % 2 ^ 32 = _
    omega
  obtain ⟨m', hret⟩ : ∃ m', OsKernel.createPageDir t m = .ok (heapAddr i, m') := by
    simp only [OsKernel.createPageDir, hpages, ok_bind, if_neg hne, hcopy, hv2p, store32, hlast,
      pure_eq_ok]
    exact ⟨_, rfl⟩
  -- what is known of the call that returns
  obtain ⟨m₂, ram', hpages₂, rfl, hfill', hdir⟩ := createPageDir_fills h.spaces h.cr3_mem hret
  cases hpages.symm.trans hpages₂
  obtain ⟨page, q', hlt, heq, hpage', hnew⟩ := hdir hne
  have hstep' := hstep.fill h.spaces.pools hfill'
  have hspaces' := h.spaces.newDir hstep' hpage' hnew
  have htrans' := (hstep'.spaces h.spaces).translate_heap (hstep'.cr3 ▸ h.cr3_mem) hlt
    (Nat.succ_pos 0xfff) (heapAddr_toNat hlt) (h.spaces.pools.free hpage'.free).1 hpage'.entry
  have haddr := addrV2p_eq (t := t) ((hstep'.spaces h.spaces).last _ (hstep'.cr3 ▸ h.cr3_mem)) htrans'
  rw [Nat.add_zero, UInt32.ofNat_toNat, ← heq] at haddr
  exact ⟨i, q', _, hret, hne, haddr, hstep', fun hmem => h.spaces.used _ hmem hpage'.free, hnew,
    hspaces', hroom.active, List.mem_cons_of_mem _ h.mem, hroom.room.fill h.spaces.pools hfill'⟩

/-- The same as an operation of a run. -/
theorem SpaceRoom.newDir (h : SpaceRoom t dirs k n m) (hk : k + 1 ≤ 256) (hn : 1 ≤ n) :
    ∃ q m', SpaceOp.newDir.exec t ⟨m, dirs⟩ = .ok ⟨m', q.toNat :: dirs⟩ ∧ HeapStep m m' ∧
      q.toNat ∉ dirs ∧ NewDir m'.ram q ∧ SpaceRoom t (q.toNat :: dirs) (k + 1) (n - 1) m' := by
  obtain ⟨page, q, m', hcreate, hne, haddr, hstep, hnot, hnew, hroom⟩ := h.createPageDir hk hn
  refine ⟨q, m', ?_, hstep, hnot, hnew, hroom⟩
  simp only [SpaceOp.exec, hcreate, ok_bind, if_neg hne, haddr, pure_eq_ok]

end SpaceRoom

/-- A machine with 4 MB makes a second directory and then takes two pages of the heap. -/
theorem spaces_share_kernel_second : ∃ q m₁ a m₂,
    SpaceOp.newDir.exec 0 ⟨(bootedHeap 0x400000).mem, [pageDirTablePos]⟩ =
      .ok ⟨m₁, [q, pageDirTablePos]⟩ ∧
    getKernelPages 0 2 m₁ = .ok (a, m₂) ∧ a ≠ 0 ∧ SharedKernel m₂ [q, pageDirTablePos] := by
  have hspace : SpaceStart 0x400000 ⟨(bootedHeap 0x400000).mem, [pageDirTablePos]⟩ :=
    ⟨⟨fun _ => 0, rfl⟩, ⟨fun _ => 0, bootedHeap_ram _⟩, rfl⟩
  have hstart : SpaceRoom 0 [pageDirTablePos] 0 256 (bootedHeap 0x400000).mem :=
    ⟨hspace.spaces (by decide), rfl, List.mem_cons_self, bootedHeap_room⟩
  obtain ⟨q, m₁, hdir, -, -, -, hroom⟩ := hstart.newDir (by decide) (by decide)
  obtain ⟨a, m₂, hpages, hne, -, -⟩ := hroom.getKernelPages (c := 2) (by decide) (by decide) (by decide)
  have hsecond : (spaceRuns 0x400000).Reach OnSpaces ⟨m₁, [q.toNat, pageDirTablePos]⟩ := by
    refine .step (e := ⟨0, pageDirTablePos, .newDir⟩) (.init hspace) ⟨List.mem_cons_self, nofun⟩ ?_
    show some (SpaceOp.newDir.exec 0 ⟨(bootedHeap 0x400000).mem.activate 0 pageDirTablePos, _⟩) = _
    rw [activate_self hstart.active, hdir]
  refine ⟨q.toNat, m₁, a, m₂, hdir, hpages, hne, (@spaces_share_kernel 0x400000 (by decide)
    ⟨m₂, _⟩ (.step (e := ⟨0, pageDirTablePos, .kernelPages 2⟩) hsecond ⟨hroom.mem, nofun⟩ ?_)).1⟩
  show some (SpaceOp.exec 0 ⟨m₁.activate 0 pageDirTablePos, _⟩ (.kernelPages 2)) = _
  rw [activate_self hroom.active, SpaceOp.exec, hpages]
  rfl

end OsKernel
