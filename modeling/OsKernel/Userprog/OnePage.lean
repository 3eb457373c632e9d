import OsKernel.Userprog.PageTables

/-!
# kernel/memory.c: get_a_page

`get_a_page` maps the page of an address that its caller has chosen. It works for every page of the
caller's range but the first one: `ASSERT(bit_idx > 0)` takes the index 0 for a failure.

- `PageOp.exec_grows`, `TableInv.of_free`: what is known of a state with a free frame, in any run.
- `OneEntry`, `pageTableAdd_one`: `page_table_add` adds one entry and changes no other.
- `FreePage`, `PageGiven`, `StaysTaken`: what `get_a_page` is asked for, and what it is to do.
- `aPage_served_iff`: it does so if and only if the index is not 0.
-/

namespace OsKernel

open Lib

/-! ## Calls one after another -/

/-- The bitmap of `t` is not replaced by a new one. -/
def PageOp.Keeps (t : Tid) (pf : PoolFlags) : PageOp → Prop
  | .newUserVaddr userProg => pf = .user → userProg ≠ t
  | _ => True

section Runs

variable {t u : Tid} {pf : PoolFlags} {m m' : Memory} {a userVaddrStart allMem : UInt32}
  {s s' : SpaceRun}

theorem createPageDir_grows (h : createPageDir u m = .ok (a, m')) : Grows t pf m m' := by
  obtain ⟨⟨pageDirVaddr, m₁⟩, hpages, h⟩ := bind_eq_ok.mp h
  have hfirst : Grows t pf m m₁ := getPages_grows hpages
  dsimp only at h
  split at h
  · cases h
    exact hfirst
  · obtain ⟨_, -, h⟩ := bind_eq_ok.mp h
    obtain ⟨_, -, h⟩ := bind_eq_ok.mp h
    obtain ⟨_, -, h⟩ := bind_eq_ok.mp h
    cases h
    exact hfirst.trans (.of_pools (.refl _) (.refl _) rfl rfl)

theorem createUserVaddrBitmap_grows {userProg : Tid} (hkeep : pf = .user → userProg ≠ t)
    (h : createUserVaddrBitmap userVaddrStart u userProg m = .ok m') : Grows t pf m m' := by
  obtain ⟨⟨bits, m₁⟩, hpages, h⟩ := bind_eq_ok.mp h
  obtain ⟨_, -, h⟩ := bind_eq_ok.mp h
  cases h
  refine Grows.trans (getPages_grows hpages) ⟨.refl _, .refl _, ?_, ?_⟩
  · cases pf with
    | kernel => exact .refl _
    | user =>
      show BitmapGrows _ (Function.update m₁.userprogVaddr userProg _ t).vaddrBitmap
      rw [Function.update_of_ne (hkeep rfl).symm]
      exact .refl _
  · cases pf with
    | kernel => rfl
    | user =>
      show (Function.update m₁.userprogVaddr userProg _ t).vaddrStart = _
      rw [Function.update_of_ne (hkeep rfl).symm]
      rfl

/-- **One call** gives nothing back. -/
theorem PageOp.exec_grows {op : PageOp} (hkeep : op.Keeps t pf)
    (hret : op.exec userVaddrStart u s = .ok s') : Grows t pf s.mem s'.mem := by
  cases op with
  | newDir =>
    obtain ⟨⟨pageDirVaddr, m⟩, hcreate, hret⟩ := bind_eq_ok.mp hret
    have hgrows : Grows t pf s.mem m := createPageDir_grows hcreate
    dsimp only at hret
    split at hret
    · cases hret
      exact hgrows
    · obtain ⟨_, -, hret⟩ := bind_eq_ok.mp hret
      cases hret
      exact hgrows
  | newUserVaddr userProg =>
    obtain ⟨m, hcreate, hret⟩ := bind_eq_ok.mp hret
    cases hret
    exact createUserVaddrBitmap_grows hkeep hcreate
  | kernelPages n =>
    obtain ⟨⟨a, m⟩, hpages, hret⟩ := bind_eq_ok.mp hret
    cases hret
    exact getPages_grows hpages
  | userPages n =>
    obtain ⟨⟨a, m⟩, hpages, hret⟩ := bind_eq_ok.mp hret
    cases hret
    exact getPages_grows hpages
  | aPage pf' vaddr =>
    obtain ⟨⟨a, m⟩, hpage, hret⟩ := bind_eq_ok.mp hret
    cases hret
    exact getAPage_grows hpage

/-- cr3 has no part in it. -/
theorem Grows.activate (m : Memory) (u : Tid) (d : Nat) : Grows t pf m (m.activate u d) :=
  .of_pools (.refl _) (.refl _) rfl rfl

/-- **Any number of calls** give nothing back. -/
theorem laterCalls_grows
    (hs : ((pageRuns allMem userVaddrStart).startAt s).Reach (fun _ e => e.op.Keeps t pf) s') :
    Grows t pf s.mem s'.mem := by
  induction hs with
  | init h =>
    cases h
    exact .refl t pf _
  | @step s₁ s₂ e _ hkeep hstep ih =>
    have hcall := PageOp.exec_grows hkeep (Option.some.inj hstep)
    exact (ih.trans (.activate s₁.mem e.thread e.dir)).trans hcall

/-- **A frame is left.** Then no call before can have gone without one, and every page table has a
frame of its own. -/
theorem TableInv.of_free (hmem : 0x200000 ≤ allMem.toNat)
    (hstart : userVaddrStart.toNat ≤ 0xc0000000) (halign : userVaddrStart.toNat % 0x1000 = 0)
    (hs : (pageRuns allMem userVaddrStart).Reach (fun s e => e.dir ∈ s.dirs) s)
    (hleft : 0 < s.mem.kernelPool.freeFrames) : TableInv s.mem s.dirs := by
  induction hs with
  | init h => exact h.tables hmem
  | @step s₁ s₂ e _ hdir hstep ih =>
    have hcr3 := activate_cr3 s₁.mem e.thread e.dir
    have hret := Option.some.inj hstep
    have hgrows : Grows 0 .kernel s₁.mem s₂.mem := by
      refine Grows.trans (.activate s₁.mem e.thread e.dir) (PageOp.exec_grows ?_ hret)
      cases e.op with
      | newUserVaddr userProg => exact nofun
      | _ => trivial
    have hleft₁ := Nat.lt_of_lt_of_le hleft hgrows.kernelPool.freeFrames_le
    refine PageOp.exec_tables (s := { s₁ with mem := s₁.mem.activate e.thread e.dir }) hstart halign
      ((ih hleft₁).activate e.thread e.dir) ?_ (Or.inr hleft) hret
    rw [hcr3]
    exact hdir

end Runs

/-! ## One more entry -/

/-- Where the entry of page `j` in region `i` is. -/
def entryPlace (d : Nat) (ram : ByteMemory) (i j : Nat) : Nat := frame (dirEntry d ram i) + 4 * j

/-- The page `j` of region `i` gets the entry `e`, in a table that was there or is new. What is mapped
through another entry stays as it is, in every directory. -/
structure OneEntry (dirs : List Nat) (d i j : Nat) (e : UInt32) (m m' : Memory) : Prop where
  dir : present (dirEntry d m'.ram i) = true
  self : tableEntry d m'.ram i j = e
  others : ∀ d' ∈ dirs, ∀ i' j' f, entryPlace d' m'.ram i' j' ≠ entryPlace d m'.ram i j →
    (MapsFrame m' d' i' j' f ↔ MapsFrame m d' i' j' f)

section OneEntry

variable {t : Tid} {m : Memory} {dirs : List Nat} {d i j : Nat} {vaddr p e : UInt32}

/-- An entry of a table that is there is written. -/
theorem Spaces.oneEntry (h : Spaces m dirs) (hd : d ∈ dirs) (hi : i < 1023) (hj : j < 0x400)
    (hdir : present (dirEntry d m.ram i) = true) {F : Nat}
    (hplace : frame (dirEntry d m.ram i) + 4 * j = F) :
    OneEntry dirs d i j e m { m with ram := m.ram.write32 F e } := by
  have hframe := frame_aligned (dirEntry d m.ram i)
  obtain ⟨hnot, -⟩ := h.tables d hd i hi hdir
  have hdirs : ∀ d' ∈ dirs, ∀ i', i' < 0x400 →
      dirEntry d' (m.ram.write32 F e) i' = dirEntry d' m.ram i' := by
    intro d' hd' i' hi'
    have heq : ∀ d' ∈ dirs, ByteMemory.EqOn d' 0x1000 m.ram (m.ram.write32 F e) :=
      h.eqOn_page hframe hnot fun a ha => ByteMemory.write32_outside (by omega)
    exact dirEntry_congr (heq d' hd') hi'
  have hself := hdirs d hd i (by omega)
  refine ⟨hself ▸ hdir, ?_, ?_⟩
  · rw [tableEntry, hself, hplace]
    exact ByteMemory.read32_write32 _ _ _
  · intro d' hd' i' j' f hne
    -- another place in the same table, or a place in another one
    have hkeep : i' < 1023 → j' < 0x400 →
        tableEntry d' (m.ram.write32 F e) i' j' =
          tableEntry d' m.ram i' j' := by
      intro hi' hj'
      have hframe' := frame_aligned (dirEntry d' m.ram i')
      have hplaces : frame (dirEntry d' m.ram i') + 4 * j' ≠ F := by
        intro heq
        refine hne ?_
        dsimp only
        rw [entryPlace, entryPlace, hdirs d' hd' i' (by omega), hself, hplace]
        exact heq
      rw [tableEntry, hdirs d' hd' i' (by omega)]
      refine ByteMemory.read32_write32_of_disjoint ?_
      omega
    constructor
    · rintro ⟨hi', hj', hdir', hpresent, hf⟩
      dsimp only at hdir' hpresent hf
      rw [hdirs d' hd' i' (by omega)] at hdir'
      rw [hkeep hi' hj'] at hpresent hf
      exact ⟨hi', hj', hdir', hpresent, hf⟩
    · rintro ⟨hi', hj', hdir', hpresent, hf⟩
      rw [← hdirs d' hd' i' (by omega)] at hdir'
      rw [← hkeep hi' hj'] at hpresent hf
      exact ⟨hi', hj', hdir', hpresent, hf⟩

/-- A table is made in the frame `q` for the first entry of a region. -/
theorem Spaces.oneEntry_made (h : Spaces m dirs) (hd : d ∈ dirs) (hi : i < 1023) (hj : j < 0x400)
    (hdir : present (dirEntry d m.ram i) = false) {q : UInt32} {pool : Pool} {ram : ByteMemory}
    (hfree : m.kernelPool.FreeFrame q.toNat)
    (hmade : TableMade dirs d i j q e m.ram ram) :
    OneEntry dirs d i j e m { m with kernelPool := pool, ram := ram } := by
  have haligned := (h.pools.free hfree).1
  have hself : frame (dirEntry d ram i) = q.toNat := by
    rw [hmade.dir_self, frame_entryOf haligned]
  -- the new table is in none of the old places
  have hother : ∀ d' ∈ dirs, ∀ i', i' < 0x400 → ¬ (d' = d ∧ i' = i) →
      dirEntry d' ram i' = dirEntry d' m.ram i' :=
    fun d' hd' i' hi' hne => hmade.dir_other d' hd' i' hi' fun heq hi'' => hne ⟨heq, hi''⟩
  have hkeep : ∀ d' ∈ dirs, ∀ i' j', i' < 1023 → j' < 0x400 →
      present (dirEntry d' m.ram i') = true → tableEntry d' ram i' j' = tableEntry d' m.ram i' j' := by
    intro d' hd' i' j' hi' hj' hpresent
    obtain ⟨hnot, hused⟩ := h.tables d' hd' i' hi' hpresent
    have hframe := frame_aligned (dirEntry d' m.ram i')
    have hne : ¬ (d' = d ∧ i' = i) := by
      rintro ⟨heq, hi''⟩
      rw [heq, hi'', hdir] at hpresent
      cases hpresent
    rw [tableEntry, tableEntry, hother d' hd' i' (by omega) hne]
    have hpage := hmade.outside _ hframe hnot fun heq => hused (heq ▸ hfree)
    exact hpage.read32 (by omega) (by omega)
  refine ⟨?_, ?_, ?_⟩
  · dsimp only
    rw [hmade.dir_self]
    exact present_entryOf haligned
  · dsimp only
    rw [tableEntry, hself, hmade.table j hj, if_pos rfl]
  · intro d' hd' i' j' f hne
    constructor
    · rintro ⟨hi', hj', hdir', hpresent, hf⟩
      dsimp only at hdir' hpresent hf hne
      by_cases hplace : d' = d ∧ i' = i
      · -- the other entries of the new table are zero
        obtain ⟨rfl, rfl⟩ := hplace
        have hslot : j' ≠ j := fun heq => hne (by rw [heq])
        have hzero : present 0 = false := rfl
        rw [tableEntry, hself, hmade.table j' hj', if_neg hslot, hzero] at hpresent
        cases hpresent
      · rw [hother d' hd' i' (by omega) hplace] at hdir'
        rw [hkeep d' hd' i' j' hi' hj' hdir'] at hpresent hf
        exact ⟨hi', hj', hdir', hpresent, hf⟩
    · rintro ⟨hi', hj', hdir', hpresent, hf⟩
      have hplace : ¬ (d' = d ∧ i' = i) := by
        rintro ⟨heq, hi''⟩
        rw [heq, hi'', hdir] at hdir'
        cases hdir'
      rw [← hkeep d' hd' i' j' hi' hj' hdir'] at hpresent hf
      rw [← hother d' hd' i' (by omega) hplace] at hdir'
      exact ⟨hi', hj', hdir', hpresent, hf⟩

/-- **`page_table_add`** for a page that is not mapped, with a frame for the table if one is needed. -/
theorem pageTableAdd_one (h : Spaces m dirs) (hd : m.cr3 t ∈ dirs) (hi : dirIndex vaddr < 1023)
    (hvaddr : vaddr ≠ 0) (hp : p ≠ 0)
    (hunmapped : ∀ f, ¬ MapsFrame m (m.cr3 t) (dirIndex vaddr) (tableIndex vaddr) f)
    (hroom : 0 < m.kernelPool.freeFrames ∨ present (dirEntry (m.cr3 t) m.ram (dirIndex vaddr)) = true) :
    ∃ pool ram, pageTableAdd t vaddr p m = .ok { m with kernelPool := pool, ram := ram } ∧
      (present (dirEntry (m.cr3 t) m.ram (dirIndex vaddr)) = true → pool = m.kernelPool) ∧
      OneEntry dirs (m.cr3 t) (dirIndex vaddr) (tableIndex vaddr) (entryOf p) m
        { m with kernelPool := pool, ram := ram } := by
  have hrec := h.last _ hd
  have hslot := tableIndex_lt vaddr
  cases hdir : present (dirEntry (m.cr3 t) m.ram (dirIndex vaddr)) with
  | true =>
    have hentry : present (tableEntry (m.cr3 t) m.ram (dirIndex vaddr) (tableIndex vaddr)) = false := by
      refine Bool.eq_false_iff.mpr fun hpresent => ?_
      exact hunmapped _ ⟨hi, hslot, hdir, hpresent, rfl⟩
    exact ⟨m.kernelPool, _, pageTableAdd_present hrec hvaddr hp hdir hentry, fun _ => rfl,
      h.oneEntry hd hi hslot hdir rfl⟩
  | false =>
    obtain ⟨⟨q, pool⟩, hpalloc⟩ : ∃ r, palloc m.kernelPool = .ok r := by
      rcases palloc_spec m.kernelPool with ⟨-, hret⟩ | ⟨_, _, -, -, -, -, hret⟩
      · exact ⟨_, hret⟩
      · exact ⟨_, hret⟩
    obtain ⟨haligned, hnot, -⟩ := h.newTable hpalloc
    have htaken : Taken m.kernelPool q.toNat pool := by
      rcases palloc_taken h.pools.ok hpalloc with ⟨-, -, hnone⟩ | ⟨-, htaken⟩
      · rw [hdir] at hroom
        rcases hroom with hpos | hfalse
        · omega
        · cases hfalse
      · exact htaken
    obtain ⟨ram, hfilled, hret⟩ := pageTableAdd_absent hrec hvaddr hp hdir hpalloc haligned
      (h.aligned hd) fun heq => hnot (heq ▸ hd)
    exact ⟨pool, _, hret, nofun, h.oneEntry_made hd hi hslot hdir htaken.free
      (h.tableMade hd (dirIndex_lt vaddr) hslot haligned hnot hfilled)⟩

end OneEntry

/-! ## One page -/

/-- `bit_idx`: the index of the page of `vaddr` among those that `t` manages. -/
def pageIndex (m : Memory) (t : Tid) (pf : PoolFlags) (vaddr : UInt32) : Nat :=
  ((vaddr - (m.vaddrs t pf).vaddrStart) / pgSize).toNat

/-- A managed page of a process or of the kernel that is not in use, with a frame for it and one for
a page table. -/
structure FreePage (t : Tid) (pf : PoolFlags) (vaddr : UInt32) (m : Memory) : Prop where
  kind : (m.pgdir t ≠ 0 ∧ pf = .user) ∨ (m.pgdir t = 0 ∧ pf = .kernel)
  aligned : vaddr.toNat % 0x1000 = 0
  managed : pageIndex m t pf vaddr < (m.vaddrs t pf).vaddrBitmap.size
  clear : (m.vaddrs t pf).vaddrBitmap.get (pageIndex m t pf vaddr) = false
  unmapped : ∀ f, ¬ MapsFrame m (m.cr3 t) (dirIndex vaddr) (tableIndex vaddr) f
  frame : 0 < (m.pool pf).freeFrames
  table : 0 < m.kernelPool.freeFrames

/-- A region whose page table is the boot loader's. -/
def BootRegion (d i : Nat) : Prop := 768 ≤ i ∨ (d = pageDirTablePos ∧ i = 0)

/-- What `get_a_page` is to do for the page of `vaddr`. -/
structure PageGiven (t : Tid) (pf : PoolFlags) (vaddr : UInt32) (dirs : List Nat) (m m' : Memory) :
    Prop where
  area : SameArea (m.vaddrs t pf).vaddrBitmap (m'.vaddrs t pf).vaddrBitmap
  start : (m'.vaddrs t pf).vaddrStart = (m.vaddrs t pf).vaddrStart
  bit : (m'.vaddrs t pf).vaddrBitmap.get =
    mark (m.vaddrs t pf).vaddrBitmap.get ⟨pageIndex m t pf vaddr, 1⟩
  /-- No other bitmap of addresses changes. -/
  rest : ∀ u pf', (pf' = pf → pf = .user ∧ u ≠ t) → m'.vaddrs u pf' = m.vaddrs u pf'
  frame : ∃ p, Taken (m.pool pf) p (m'.pool pf) ∧
    MapsFrame m' (m.cr3 t) (dirIndex vaddr) (tableIndex vaddr) p
  mappings : ∀ d ∈ dirs, ∀ i j f,
    entryPlace d m'.ram i j ≠ entryPlace (m.cr3 t) m'.ram (dirIndex vaddr) (tableIndex vaddr) →
      (MapsFrame m' d i j f ↔ MapsFrame m d i j f)
  /-- The entry is that of no other page, unless the table is one of those that all directories
  share. -/
  alone : ∀ d ∈ dirs, ∀ i j, i < 1023 → j < 0x400 → present (dirEntry d m'.ram i) = true →
    entryPlace d m'.ram i j = entryPlace (m.cr3 t) m'.ram (dirIndex vaddr) (tableIndex vaddr) →
      j = tableIndex vaddr ∧ ((d = m.cr3 t ∧ i = dirIndex vaddr) ∨
        (BootRegion d i ∧ BootRegion (m.cr3 t) (dirIndex vaddr)))

section OnePage

variable {t : Tid} {pf : PoolFlags} {vaddr : UInt32} {m m' : Memory} {dirs : List Nat}

/-- The addresses that a thread manages are page addresses, and none of them is in the recursive
window. -/
theorem TableInv.managed (h : TableInv m dirs) (t : Tid) (pf : PoolFlags) :
    (m.vaddrs t pf).vaddrStart.toNat % 0x1000 = 0 ∧
      (m.vaddrs t pf).vaddrStart.toNat + 0x1000 * (m.vaddrs t pf).vaddrBitmap.size ≤
        (match pf with | .kernel => 0xd0100000 | .user => 0xc0000000) ∧
      (pf = .kernel → (m.vaddrs t pf).vaddrStart.toNat = 0xc0100000) := by
  cases pf with
  | kernel =>
    have hstart : (m.vaddrs t .kernel).vaddrStart = kHeapStart := h.spaces.pools.vaddrStart
    have hsize : (m.vaddrs t .kernel).vaddrBitmap.size < 0x10000 := h.spaces.pools.vaddrSize
    have hheap : kHeapStart.toNat = 0xc0100000 := rfl
    rw [hstart]
    refine ⟨rfl, ?_, fun _ => rfl⟩
    dsimp only
    omega
  | user => exact ⟨(h.users t).aligned, (h.users t).bound, nofun⟩

/-- The address of a managed page. -/
theorem FreePage.addr (hpage : FreePage t pf vaddr m) (h : TableInv m dirs) :
    vaddr.toNat = (m.vaddrs t pf).vaddrStart.toNat + 0x1000 * pageIndex m t pf vaddr := by
  obtain ⟨haligned, hbound, -⟩ := h.managed t pf
  have hindex : pageIndex m t pf vaddr =
      (2 ^ 32 - (m.vaddrs t pf).vaddrStart.toNat + vaddr.toNat) % 2 ^ 32 / 0x1000 := by
    rw [pageIndex, UInt32.toNat_div, UInt32.toNat_sub]
    rfl
  have hmanaged := hpage.managed
  have hpages := hpage.aligned
  have hlt := vaddr.toNat_lt
  have hend : (m.vaddrs t pf).vaddrStart.toNat + 0x1000 * (m.vaddrs t pf).vaddrBitmap.size ≤
      2 ^ 32 := by
    cases pf with
    | kernel => exact Nat.le_trans hbound (by decide)
    | user => exact Nat.le_trans hbound (by decide)
  omega

/-- Its region is one of the kernel's or of the user's. -/
theorem FreePage.region (hpage : FreePage t pf vaddr m) (h : TableInv m dirs) :
    dirIndex vaddr < 1023 ∧ (pf = .kernel ↔ 768 ≤ dirIndex vaddr) := by
  have haddr := hpage.addr h
  have hmanaged := hpage.managed
  obtain ⟨-, hbound, hkernel⟩ := h.managed t pf
  unfold dirIndex
  cases pf with
  | kernel =>
    have hstart := hkernel rfl
    dsimp only at hbound
    exact ⟨by omega, fun _ => by omega, fun _ => rfl⟩
  | user =>
    dsimp only at hbound
    exact ⟨by omega, nofun, fun hle => by omega⟩

/-- The bit and the frame are taken, and nothing else has changed. -/
structure PageTaken (t : Tid) (pf : PoolFlags) (btmp : Bitmap) (pool : Pool) (m m₁ : Memory) :
    Prop where
  cr3 : m₁.cr3 = m.cr3
  ram : m₁.ram = m.ram
  vaddrs : m₁.vaddrs t pf = { m.vaddrs t pf with vaddrBitmap := btmp }
  rest : ∀ u pf', (pf' = pf → pf = .user ∧ u ≠ t) → m₁.vaddrs u pf' = m.vaddrs u pf'
  pool : m₁.pool pf = pool
  table : pf = .user → m₁.kernelPool = m.kernelPool

theorem pageTaken (t : Tid) (pf : PoolFlags) (btmp : Bitmap) (pool : Pool) (m : Memory) :
    PageTaken t pf btmp pool m
      ((m.setVaddrs t { m.vaddrs t pf with vaddrBitmap := btmp } pf).setPool pool pf) := by
  cases pf with
  | kernel =>
    refine ⟨rfl, rfl, rfl, fun u pf' hne => ?_, rfl, nofun⟩
    cases pf' with
    | kernel => cases (hne rfl).1
    | user => rfl
  | user =>
    refine ⟨rfl, rfl, Function.update_self _ _ _, fun u pf' hne => ?_, rfl, fun _ => rfl⟩
    cases pf' with
    | kernel => rfl
    | user => exact Function.update_of_ne (hne rfl).2 _ _

/-- The caller may ask for the page. -/
theorem getAPage_kind (h : (m.pgdir t ≠ 0 ∧ pf = .user) ∨ (m.pgdir t = 0 ∧ pf = .kernel)) :
    ((m.pgdir t != 0 && pf == .user) || (m.pgdir t == 0 && pf == .kernel)) = true := by
  rcases h with ⟨hne, rfl⟩ | ⟨heq, rfl⟩
  · rw [bne_iff_ne.mpr hne]
    rfl
  · rw [heq]
    rfl

/-- `get_a_page` up to `page_table_add`. -/
theorem getAPage_eq {btmp : Bitmap} {p : UInt32} {pool : Pool}
    (hkind : (m.pgdir t ≠ 0 ∧ pf = .user) ∨ (m.pgdir t = 0 ∧ pf = .kernel))
    (hpos : pageIndex m t pf vaddr ≠ 0)
    (hset : bitmapSet (m.vaddrs t pf).vaddrBitmap (pageIndex m t pf vaddr) 1 = .ok btmp)
    (hpalloc : palloc (m.pool pf) = .ok (p, pool)) :
    ∃ m₁, PageTaken t pf btmp pool m m₁ ∧ getAPage t pf vaddr m =
      if p = 0 then .ok (0, m₁) else do
        let m' ← pageTableAdd t vaddr p m₁
        return (vaddr, m') := by
  have hindex : decide (((vaddr - (m.vaddrs t pf).vaddrStart) / pgSize).toNat > 0) = true :=
    decide_eq_true (Nat.pos_of_ne_zero hpos)
  have hpool : (m.setVaddrs t { m.vaddrs t pf with vaddrBitmap := btmp } pf).pool pf = m.pool pf := by
    cases pf with
    | kernel => rfl
    | user => rfl
  unfold pageIndex at hset
  refine ⟨_, pageTaken t pf btmp pool m, ?_⟩
  simp only [getAPage, getAPage_kind hkind, assert_true, ok_bind, hindex, hset, hpool, hpalloc]
  rfl

/-- The directories do not notice. -/
theorem PageTaken.spaces {btmp : Bitmap} {p : Nat} {pool : Pool} {m₁ : Memory}
    (htake : PageTaken t pf btmp pool m m₁) (h : TableInv m dirs)
    (harea : SameArea (m.vaddrs t pf).vaddrBitmap btmp) (htaken : Taken (m.pool pf) p pool) :
    Spaces m₁ dirs := by
  have hsame : ∀ d ∈ dirs, ByteMemory.EqOn d 0x1000 m.ram m₁.ram := by
    intro d _
    rw [htake.ram]
    exact .refl _
  cases pf with
  | kernel =>
    have hpool : m₁.kernelPool = pool := htake.pool
    have hvaddr : m₁.kernelVaddr = { m.kernelVaddr with vaddrBitmap := btmp } := htake.vaddrs
    have hstart : pool.phyAddrStart = m.kernelPool.phyAddrStart := htaken.start
    have hok : m.kernelPool.Ok := h.spaces.pools.ok
    have hsize : btmp.size = m.kernelVaddr.vaddrBitmap.size := harea.size
    refine h.spaces.congr ⟨?_, ?_, ?_, ?_⟩ (fun a ha => ?_) hsame
    · rw [hpool]
      exact ⟨hstart ▸ hok.pos, hstart ▸ hok.aligned, by
        rw [hstart, htaken.area.size]
        exact hok.bound⟩
    · rw [hpool, hstart]
      exact h.spaces.pools.phyAddrStart
    · rw [hvaddr]
      exact h.spaces.pools.vaddrStart
    · rw [hvaddr]
      dsimp only
      rw [hsize]
      exact h.spaces.pools.vaddrSize
    · rw [hpool] at ha
      exact ((htaken.rest a).mp ha).1
  | user =>
    have hpool := htake.table rfl
    have hvaddr : m₁.kernelVaddr = m.kernelVaddr := htake.rest t .kernel nofun
    refine h.spaces.congr ⟨?_, ?_, ?_, ?_⟩ (fun a ha => ?_) hsame
    · rw [hpool]
      exact h.spaces.pools.ok
    · rw [hpool]
      exact h.spaces.pools.phyAddrStart
    · rw [hvaddr]
      exact h.spaces.pools.vaddrStart
    · rw [hvaddr]
      exact h.spaces.pools.vaddrSize
    · rw [hpool] at ha
      exact ha

/-- The tables that `page_table_add` makes are those outside the boot loader's regions, and lie above
the boot loader's. -/
theorem TableInv.region_cases (h : TableInv m dirs) {d i : Nat} (hd : d ∈ dirs) (hi : i < 1023)
    (hpresent : present (dirEntry d m.ram i) = true) :
    (BootRegion d i ∧ OsKernel.frame (dirEntry d m.ram i) < poolStart) ∨
      (MadeTable m d i ∧ poolStart ≤ OsKernel.frame (dirEntry d m.ram i)) := by
  have hpool : poolStart = 0x200000 := rfl
  have hmade : MadeTable m d i → poolStart ≤ OsKernel.frame (dirEntry d m.ram i) := by
    intro hm
    obtain ⟨f, -, hframe⟩ := h.owned d hd i hm
    omega
  rcases (h.table_low hd hi hpresent).2 with hm | hlow
  · exact Or.inr ⟨hm, hmade hm⟩
  · refine Or.inl ⟨?_, hlow⟩
    by_contra hnot
    unfold BootRegion at hnot
    have hge := hmade ⟨by omega, hpresent, fun heq hzero => hnot (Or.inr ⟨heq, hzero⟩)⟩
    omega

/-- Two pages with one entry. -/
theorem TableInv.samePlace (h : TableInv m dirs) {d d' i i' j j' : Nat} (hd : d ∈ dirs)
    (hd' : d' ∈ dirs) (hi : i < 1023) (hi' : i' < 1023) (hj : j < 0x400) (hj' : j' < 0x400)
    (hpresent : present (dirEntry d m.ram i) = true)
    (hpresent' : present (dirEntry d' m.ram i') = true)
    (hplace : entryPlace d m.ram i j = entryPlace d' m.ram i' j') :
    j = j' ∧ ((d = d' ∧ i = i') ∨ (BootRegion d i ∧ BootRegion d' i')) := by
  have hframe := frame_aligned (dirEntry d m.ram i)
  have hframe' := frame_aligned (dirEntry d' m.ram i')
  unfold entryPlace at hplace
  refine ⟨by omega, ?_⟩
  have hsame : OsKernel.frame (dirEntry d m.ram i) = OsKernel.frame (dirEntry d' m.ram i') := by omega
  rcases h.region_cases hd hi hpresent with ⟨hboot, hlow⟩ | ⟨hmade, hhigh⟩
  · rcases h.region_cases hd' hi' hpresent' with ⟨hboot', -⟩ | ⟨-, hhigh'⟩
    · exact Or.inr ⟨hboot, hboot'⟩
    · omega
  · rcases h.region_cases hd' hi' hpresent' with ⟨-, hlow'⟩ | ⟨hmade', -⟩
    · omega
    · exact Or.inl (h.distinct d hd d' hd' i i' hmade hmade' hsame)

/-- **A page with an index other than 0** is given. -/
theorem FreePage.given (hpage : FreePage t pf vaddr m) (h : TableInv m dirs) (hd : m.cr3 t ∈ dirs)
    (hpos : pageIndex m t pf vaddr ≠ 0) :
    ∃ m', getAPage t pf vaddr m = .ok (vaddr, m') ∧ PageGiven t pf vaddr dirs m m' := by
  obtain ⟨hi, hregion⟩ := hpage.region h
  have haddr := hpage.addr h
  have hvaddr : vaddr ≠ 0 := by
    rintro rfl
    rw [UInt32.toNat_zero] at haddr
    omega
  obtain ⟨btmp, hset, harea, hget⟩ := bitmapSet_one _ hpage.managed
  -- the frame
  have hok : (m.pool pf).Ok := by
    cases pf with
    | kernel => exact h.spaces.pools.ok
    | user => exact h.userOk
  obtain ⟨p, pool, hpalloc, hp, htaken⟩ : ∃ p pool, palloc (m.pool pf) = .ok (p, pool) ∧ p ≠ 0 ∧
      Taken (m.pool pf) p.toNat pool := by
    have hfree := hpage.frame
    rcases palloc_spec (m.pool pf) with ⟨hfull, hret⟩ | ⟨_, _, -, -, -, -, hret⟩
    · have hnone : (m.pool pf).freeFrames = 0 := freeCount_eq_zero hfull
      omega
    · rcases palloc_taken hok hret with ⟨-, -, hnone⟩ | ⟨hp, htaken⟩
      · omega
      · exact ⟨_, _, hret, hp, htaken⟩
  have hp0 := (hok.free htaken.free).1
  obtain ⟨m₁, htake, heval⟩ := getAPage_eq hpage.kind hpos hset hpalloc
  rw [if_neg hp] at heval
  have hspaces := htake.spaces h harea htaken
  -- the entry
  have hmaps₁ : ∀ d i j f, MapsFrame m₁ d i j f ↔ MapsFrame m d i j f := by
    intro d i j f
    have hram := htake.ram
    constructor
    · intro ⟨hi, hj, hdir, hpresent, hf⟩
      rw [hram] at hdir hpresent hf
      exact ⟨hi, hj, hdir, hpresent, hf⟩
    · intro ⟨hi, hj, hdir, hpresent, hf⟩
      rw [← hram] at hdir hpresent hf
      exact ⟨hi, hj, hdir, hpresent, hf⟩
  have hkernelDir : pf = .kernel →
      present (dirEntry (m₁.cr3 t) m₁.ram (dirIndex vaddr)) = true := by
    intro hpf
    have hlo := hregion.mp hpf
    rw [htake.cr3, htake.ram, h.spaces.kernel _ hd _ hlo hi]
    exact (bootDirEntry_table hi (Or.inr hlo)).1
  have hroom : 0 < m₁.kernelPool.freeFrames ∨
      present (dirEntry (m₁.cr3 t) m₁.ram (dirIndex vaddr)) = true := by
    cases pf with
    | kernel => exact Or.inr (hkernelDir rfl)
    | user =>
      rw [htake.table rfl]
      exact Or.inl hpage.table
  obtain ⟨pool', ram, hadd, hkeep, hone⟩ := @pageTableAdd_one t m₁ dirs vaddr p hspaces
    (htake.cr3 ▸ hd) hi hvaddr hp
    (fun f hmaps => hpage.unmapped f (htake.cr3 ▸ (hmaps₁ _ _ _ _).mp hmaps)) hroom
  rw [hadd] at heval
  refine ⟨_, heval, ?_⟩
  generalize hm' : { m₁ with kernelPool := pool', ram := ram } = m' at heval hone
  have hvaddrs : ∀ u pf', m'.vaddrs u pf' = m₁.vaddrs u pf' := by
    intro u pf'
    rw [← hm']
    cases pf' with
    | kernel => rfl
    | user => rfl
  have hpool' : m'.pool pf = pool := by
    rw [← htake.pool, ← hm']
    cases pf with
    | kernel => exact hkeep (hkernelDir rfl)
    | user => rfl
  have hself := htake.vaddrs
  rw [← hvaddrs] at hself
  rw [htake.cr3] at hone
  refine ⟨?_, ?_, ?_, fun u pf' hne => (hvaddrs u pf').trans (htake.rest u pf' hne), ?_, ?_, ?_⟩
  · rw [hself]
    exact harea
  · rw [hself]
  · rw [hself]
    exact hget
  · refine ⟨p.toNat, hpool' ▸ htaken, hi, tableIndex_lt vaddr, hone.dir, ?_, ?_⟩
    · rw [hone.self]
      exact present_entryOf hp0
    · rw [hone.self]
      exact frame_entryOf hp0
  · intro d hd' i j f hne
    exact (hone.others d hd' i j f hne).trans (hmaps₁ d i j f)
  · -- all tables have frames of their own, the new one too
    have hinv : TableInv m' dirs := by
      refine getAPage_tables h hd (fun _ => Or.inl fun _ => ?_) heval
      have hle := missingTables_one (m.cr3 t) m.ram (vaddr.toNat / 0x400000)
      have hroom := hpage.table
      have hlast : vaddr.toNat + 0x1000 * (min 1 m.userPool.freeFrames - 1) = vaddr.toNat := by omega
      rw [hlast]
      omega
    intro d hd' i j hi' hj hpresent hplace
    exact hinv.samePlace hd' hd hi' hi hj (tableIndex_lt vaddr) hpresent hone.dir hplace

/-- However the calls go on, `vaddr_get` returns no range with the page of `vaddr`, as long as `t`
does not get another bitmap. -/
def StaysTaken (allMem userVaddrStart : UInt32) (t : Tid) (pf : PoolFlags) (vaddr : UInt32)
    (s : SpaceRun) : Prop :=
  ∀ s', ((pageRuns allMem userVaddrStart).startAt s).Reach (fun _ e => e.op.Keeps t pf) s' →
    ∀ u, (pf = .user → u = t) → ∀ n a m', vaddrGet u pf n s'.mem = .ok (a, m') → a ≠ 0 →
      ¬ (a.toNat ≤ vaddr.toNat ∧ vaddr.toNat < a.toNat + 0x1000 * n.toNat)

theorem PageGiven.staysTaken (hgiven : PageGiven t pf vaddr dirs m m')
    (hpage : FreePage t pf vaddr m) (h : TableInv m dirs) (allMem userVaddrStart : UInt32) :
    StaysTaken allMem userVaddrStart t pf vaddr ⟨m', dirs⟩ := by
  intro s' hs' u hu n a m₂ hret ha
  obtain ⟨-, hbound, -⟩ := h.managed t pf
  have hrange : (m'.vaddrs t pf).InRange := by
    unfold VirtualAddr.InRange
    rw [hgiven.start, hgiven.area.size]
    cases pf with
    | kernel => exact Nat.le_trans hbound (by decide)
    | user => exact Nat.le_trans hbound (by decide)
  have hbit : (m'.vaddrs t pf).vaddrBitmap.get (pageIndex m t pf vaddr) = true := by
    rw [hgiven.bit]
    exact mark_used _ _ _ (Run.mem_one.mpr rfl)
  have haddr := hpage.addr h
  rw [← hgiven.start] at haddr
  rw [haddr]
  cases pf with
  | kernel =>
    -- all threads share the kernel's addresses
    have hkeep : ∀ op : PageOp, op.Keeps t .kernel → op.Keeps u .kernel := by
      intro op _
      cases op with
      | newUserVaddr _ => exact nofun
      | _ => trivial
    have hgrows : Grows u .kernel m' s'.mem :=
      laterCalls_grows (hs'.mono fun _ e hk => hkeep e.op hk)
    exact hgrows.not_returned hrange hbit hret ha
  | user =>
    have hgrows : Grows t .user m' s'.mem := laterCalls_grows hs'
    rw [hu rfl] at hret
    exact hgrows.not_returned hrange hbit hret ha

/-- **The index 0** fails the assertion. -/
theorem getAPage_first_page (hkind : (m.pgdir t ≠ 0 ∧ pf = .user) ∨ (m.pgdir t = 0 ∧ pf = .kernel))
    (hzero : pageIndex m t pf vaddr = 0) : getAPage t pf vaddr m = .error .getAPageBitIdx := by
  have hindex : decide (((vaddr - (m.vaddrs t pf).vaddrStart) / pgSize).toNat > 0) = false :=
    decide_eq_false (by unfold pageIndex at hzero; omega)
  simp only [getAPage, getAPage_kind hkind, assert_true, ok_bind, hindex, assert_false, error_bind]

/-- **`get_a_page` serves a managed page if and only if it is not the first one**, in every state that
the calls lead to. -/
theorem aPage_served_iff {allMem userVaddrStart : UInt32} (hmem : 0x200000 ≤ allMem.toNat)
    (hstart : userVaddrStart.toNat ≤ 0xc0000000) (halign : userVaddrStart.toNat % 0x1000 = 0)
    {s : SpaceRun} (hs : (pageRuns allMem userVaddrStart).Reach (fun s e => e.dir ∈ s.dirs) s)
    {d : Nat} (hd : d ∈ s.dirs) (hpage : FreePage t pf vaddr (s.mem.activate t d)) :
    (∃ m', getAPage t pf vaddr (s.mem.activate t d) = .ok (vaddr, m') ∧
      PageGiven t pf vaddr s.dirs (s.mem.activate t d) m' ∧
      StaysTaken allMem userVaddrStart t pf vaddr ⟨m', s.dirs⟩) ↔
    pageIndex (s.mem.activate t d) t pf vaddr ≠ 0 := by
  have hinv := (TableInv.of_free hmem hstart halign hs hpage.table).activate t d
  constructor
  · rintro ⟨m', hret, -⟩ hzero
    rw [getAPage_first_page hpage.kind hzero] at hret
    cases hret
  · intro hpos
    obtain ⟨m', hret, hgiven⟩ := hpage.given hinv (by rw [activate_cr3]; exact hd) hpos
    exact ⟨m', hret, hgiven, hgiven.staysTaken hpage hinv allMem userVaddrStart⟩

/-- The pages of a process on a machine with 4 MB. -/
theorem processStart_freePage {i : Nat} (hi : i < 0x400)
    (hvaddr : vaddr.toNat = 0x8048000 + 0x1000 * i) :
    pageIndex (processStart.mem.activate 1 pageDirTablePos) 1 .user vaddr = i ∧
      FreePage 1 .user vaddr (processStart.mem.activate 1 pageDirTablePos) := by
  have hindex : pageIndex (processStart.mem.activate 1 pageDirTablePos) 1 .user vaddr = i := by
    have hstart : (0x8048000 : UInt32).toNat = 0x8048000 := rfl
    have hsize : (pgSize : UInt32).toNat = 0x1000 := rfl
    show ((vaddr - 0x8048000) / pgSize).toNat = i
    rw [UInt32.toNat_div, UInt32.toNat_sub, hstart, hsize]
    omega
  have hframes := processStart_frames
  have habsent := processStart_start.absent (i := dirIndex vaddr) (by unfold dirIndex; omega)
    (by unfold dirIndex; omega)
  refine ⟨hindex, Or.inl ⟨by decide, rfl⟩, by omega, ?_, ?_, ?_, ?_, ?_⟩
  · rw [hindex]
    have hsize : ((processStart.mem.activate 1 pageDirTablePos).vaddrs 1
        .user).vaddrBitmap.size = 0xb7fb8 := rfl
    rw [hsize]
    omega
  · rw [hindex]
    show ((0 : UInt8).toNat.testBit (i % 8)) = false
    exact Nat.zero_testBit _
  · intro f hmaps
    have hpresent := hmaps.dir_present
    rw [activate_cr3, activate_ram, habsent] at hpresent
    cases hpresent
  · obtain ⟨pool, huser⟩ : ∃ pool, palloc processStart.mem.userPool = .ok (0x300000, pool) :=
      ⟨_, rfl⟩
    have hok := (processStart_start.tables (by decide)).userOk
    rcases palloc_taken hok huser with ⟨hzero, -⟩ | ⟨-, htaken⟩
    · exact absurd hzero (by decide)
    · exact Pool.freeFrames_pos htaken.free
  · show 0 < processStart.mem.kernelPool.freeFrames
    rw [hframes]
    decide

/-- The second page of a process is served. -/
theorem aPage_served_second : ∃ m', getAPage 1 .user 0x8049000
    (processStart.mem.activate 1 pageDirTablePos) = .ok (0x8049000, m') ∧
    PageGiven 1 .user 0x8049000 processStart.dirs (processStart.mem.activate 1 pageDirTablePos) m' ∧
    StaysTaken 0x400000 0x8048000 1 .user 0x8049000 ⟨m', processStart.dirs⟩ := by
  obtain ⟨hindex, hpage⟩ := @processStart_freePage 0x8049000 1 (by decide) rfl
  refine (aPage_served_iff (by decide) (by decide) (by decide) (.init processStart_start)
    List.mem_cons_self hpage).mpr ?_
  rw [hindex]
  decide

/-- The first one is not. -/
theorem aPage_first_refused : ∃ s, (pageRuns 0x400000 0x8048000).Reach (fun s e => e.dir ∈ s.dirs) s ∧
    pageDirTablePos ∈ s.dirs ∧ FreePage 1 .user 0x8048000 (s.mem.activate 1 pageDirTablePos) ∧
    getAPage 1 .user 0x8048000 (s.mem.activate 1 pageDirTablePos) = .error .getAPageBitIdx := by
  obtain ⟨hindex, hpage⟩ := @processStart_freePage 0x8048000 0 (by decide) rfl
  exact ⟨processStart, .init processStart_start, List.mem_cons_self, hpage,
    getAPage_first_page hpage.kind hindex⟩

end OnePage

end OsKernel
