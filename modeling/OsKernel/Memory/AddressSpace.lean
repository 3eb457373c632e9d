import OsKernel.Memory.KernelHeap

/-!
# One page more in an address space

What `page_table_add` does to the translation of all addresses. The tables are reached through the
directory entries that point back to the directory; the addresses behind such an entry are a window
on the tables and not memory of their own.

- `pageTableAdd_inv`: the two things `page_table_add` can do.
- `recursive_walks`: where the walks of `pte_ptr` and `pde_ptr` end.
- `PageMapped`, `pageTableAdd_mapped`: the new page is mapped and the others are as they were.
-/

namespace OsKernel

open Lib

/-! ## Inversion -/

/-- The two ways through `page_table_add`. -/
inductive PageTableAdd (t : Tid) (vaddr pagePhyaddr : UInt32) (m : Memory) : Memory → Prop where
  /-- The table is there, and its entry is free. -/
  | entry (hdir : present (dirEntry (m.cr3 t) m.ram (dirIndex vaddr)) = true)
      (htable : present (tableEntry (m.cr3 t) m.ram (dirIndex vaddr) (tableIndex vaddr)) = false) :
      PageTableAdd t vaddr pagePhyaddr m { m with
        ram := m.ram.write32
          (frame (dirEntry (m.cr3 t) m.ram (dirIndex vaddr)) + 4 * tableIndex vaddr)
          (entryOf pagePhyaddr) }
  /-- A new table is made. -/
  | table {pdePhyaddr : UInt32} {kernelPool : Pool} {ram : ByteMemory}
      (hdir : present (dirEntry (m.cr3 t) m.ram (dirIndex vaddr)) = false)
      (hpalloc : palloc m.kernelPool = .ok (pdePhyaddr, kernelPool))
      (hfilled : Filled (m.ram.write32 (m.cr3 t + 4 * dirIndex vaddr) (entryOf pdePhyaddr)) ram
        0x1000 (fun k => pdePhyaddr.toNat + k) 0) :
      PageTableAdd t vaddr pagePhyaddr m { m with
        kernelPool := kernelPool
        ram := ram.write32 (pdePhyaddr.toNat + 4 * tableIndex vaddr) (entryOf pagePhyaddr) }

section Inversion

variable {t : Tid} {vaddr pagePhyaddr : UInt32} {m m' : Memory}

theorem Recursive.aligned {cr3 : Nat} {ram : ByteMemory} (h : Recursive cr3 ram) :
    cr3 % 0x1000 = 0 := by
  rw [← h.frame]
  exact frame_aligned _

/-- **Inversion**: a call that returns did one of the two. -/
theorem pageTableAdd_inv (hrec : Recursive (m.cr3 t) m.ram)
    (hnew : present (dirEntry (m.cr3 t) m.ram (dirIndex vaddr)) = false →
      ∀ q pool, palloc m.kernelPool = .ok (q, pool) → q.toNat % 0x1000 = 0 ∧ q.toNat ≠ m.cr3 t)
    (hret : pageTableAdd t vaddr pagePhyaddr m = .ok m') :
    vaddr ≠ 0 ∧ pagePhyaddr ≠ 0 ∧ PageTableAdd t vaddr pagePhyaddr m m' := by
  obtain ⟨_, hv, hbody⟩ := bind_eq_ok.mp hret
  obtain ⟨_, hp, hbody⟩ := bind_eq_ok.mp hbody
  have hvaddr : vaddr ≠ 0 := by
    intro heq
    rw [heq] at hv
    cases hv
  have hphyaddr : pagePhyaddr ≠ 0 := by
    intro heq
    rw [heq] at hp
    cases hp
  refine ⟨hvaddr, hphyaddr, ?_⟩
  cases hdir : present (dirEntry (m.cr3 t) m.ram (dirIndex vaddr)) with
  | true =>
    cases htable : present (tableEntry (m.cr3 t) m.ram (dirIndex vaddr) (tableIndex vaddr)) with
    | false =>
      rw [pageTableAdd_present hrec hvaddr hphyaddr hdir htable] at hret
      cases hret
      exact .entry hdir htable
    | true =>
      -- the second assertion
      have hpde := (present_iff _).mpr hdir
      have hpte : ¬ tableEntry (m.cr3 t) m.ram (dirIndex vaddr) (tableIndex vaddr) &&& 0x01 = 0 :=
        (present_iff _).mpr htable
      simp only [hrec.load32_pdePtr, ok_bind, hpde, ne_eq, not_false_eq_true, if_true,
        hrec.load32_ptePtr hdir, hpte, decide_false, assert_false, error_bind] at hbody
      cases hbody
  | false =>
    obtain ⟨⟨q, pool⟩, hpalloc⟩ : ∃ r, palloc m.kernelPool = .ok r := by
      rcases palloc_spec m.kernelPool with ⟨-, h⟩ | ⟨s, btmp, -, -, -, -, h⟩
      · exact ⟨_, h⟩
      · exact ⟨_, h⟩
    obtain ⟨haligned, hne⟩ := hnew hdir q pool hpalloc
    obtain ⟨ram, hfilled, hadd⟩ := pageTableAdd_absent hrec hvaddr hphyaddr hdir hpalloc haligned
      hrec.aligned hne
    rw [hadd] at hret
    cases hret
    exact .table hdir hpalloc hfilled

end Inversion

/-! ## Translation -/

section Translation

variable {cr3 : Nat} {ram ram' : ByteMemory} {vaddr : UInt32}

/-- `addr_v2p` agrees with the processor on mapped addresses. -/
theorem addrV2p_eq {t : Tid} {m : Memory} (hrec : Recursive (m.cr3 t) m.ram) {a : Nat}
    (htrans : translate (m.cr3 t) m.ram vaddr = .ok a) :
    addrV2p t vaddr m = .ok (UInt32.ofNat a) := by
  rcases translate_cases (m.cr3 t) m.ram vaddr with ⟨hdir, -, hok⟩ | ⟨-, herror⟩
  · rw [hok] at htrans
    cases htrans
    rw [addrV2p, hrec.load32_ptePtr hdir, ok_bind, pure_eq_ok]
    refine congrArg Except.ok (UInt32.toNat_inj.mp ?_)
    have hlt := frame_lt (tableEntry (m.cr3 t) m.ram (dirIndex vaddr) (tableIndex vaddr))
    rw [UInt32.toNat_add, and_frame, and_offset, UInt32.toNat_ofNat']
  · rw [herror] at htrans
    cases htrans

/-- Addresses of one page use the same entries. -/
theorem samePage_index {v v' : UInt32} (h : v'.toNat / 0x1000 = v.toNat / 0x1000) :
    dirIndex v' = dirIndex v ∧ tableIndex v' = tableIndex v := by
  unfold dirIndex tableIndex
  omega

theorem page_of_index {v v' : UInt32} (hdir : dirIndex v' = dirIndex v)
    (htable : tableIndex v' = tableIndex v) : v'.toNat / 0x1000 = v.toNat / 0x1000 := by
  unfold dirIndex tableIndex at *
  omega

end Translation

/-! ## Entries before and after -/

/-- One table entry is written, in a table that the directory had or has now; `i` and `j` are the
indices of the entry. -/
structure EntryAdded (cr3 : Nat) (ram ram' : ByteMemory) (i j : Nat) (e : UInt32) : Prop where
  dir_present : present (dirEntry cr3 ram' i) = true
  dir_kept : present (dirEntry cr3 ram i) = true → dirEntry cr3 ram' i = dirEntry cr3 ram i
  dir_other : ∀ k, k < 0x400 → k ≠ i → dirEntry cr3 ram' k = dirEntry cr3 ram k
  self : tableEntry cr3 ram' i j = e
  /-- A new table has no other entry. -/
  new_table : present (dirEntry cr3 ram i) = false → ∀ l, l < 0x400 → l ≠ j →
    present (tableEntry cr3 ram' i l) = false
  /-- The place of the entry was free. -/
  free : ∀ k, k < 0x400 → present (dirEntry cr3 ram k) = true →
    frame (dirEntry cr3 ram' k) = frame (dirEntry cr3 ram' i) →
    present (tableEntry cr3 ram k j) = false
  /-- The other entries, unless they share the place of the new one. -/
  other : ∀ k l, k < 0x400 → l < 0x400 → present (dirEntry cr3 ram k) = true →
    frame (dirEntry cr3 ram k) ≠ cr3 →
    ¬ (frame (dirEntry cr3 ram' k) = frame (dirEntry cr3 ram' i) ∧ l = j) →
    tableEntry cr3 ram' k l = tableEntry cr3 ram k l

/-- A frame that `palloc` takes for a page table is not part of the paging structures. -/
def FreshTable (t : Tid) (m : Memory) : Prop :=
  ∀ q pool, palloc m.kernelPool = .ok (q, pool) → q.toNat % 0x1000 = 0 ∧ q.toNat ≠ m.cr3 t ∧
    ∀ k, k < 0x400 → present (dirEntry (m.cr3 t) m.ram k) = true →
      frame (dirEntry (m.cr3 t) m.ram k) ≠ q.toNat

/-- The addresses whose directory entry points back to the directory. -/
def InWindow (cr3 : Nat) (ram : ByteMemory) (vaddr : UInt32) : Prop :=
  present (dirEntry cr3 ram (dirIndex vaddr)) = true ∧ frame (dirEntry cr3 ram (dirIndex vaddr)) = cr3

section Entries

variable {t : Tid} {vaddr pagePhyaddr : UInt32} {m m' : Memory}

theorem pageTableAdd_cr3 (h : PageTableAdd t vaddr pagePhyaddr m m') : m'.cr3 = m.cr3 := by
  cases h with
  | entry _ _ => rfl
  | table _ _ _ => rfl

/-- An entry of a table that was there. -/
theorem entryAdded_entry {cr3 : Nat} {ram : ByteMemory} {i j : Nat} (hrec : Recursive cr3 ram)
    (hi : i < 0x400) (hj : j < 0x400) (hdir : present (dirEntry cr3 ram i) = true)
    (htable : present (tableEntry cr3 ram i j) = false)
    (hne : frame (dirEntry cr3 ram i) ≠ cr3) (e : UInt32) :
    EntryAdded cr3 ram (ram.write32 (frame (dirEntry cr3 ram i) + 4 * j) e) i j e := by
  have hcr3 := hrec.aligned
  have hframe := frame_aligned (dirEntry cr3 ram i)
  have hkeep : ∀ k, k < 0x400 → dirEntry cr3
      (ram.write32 (frame (dirEntry cr3 ram i) + 4 * j) e) k = dirEntry cr3 ram k :=
    fun k hk => dirEntry_congr (ByteMemory.eqOn_write32 (by omega)) hk
  refine ⟨(hkeep i hi).symm ▸ hdir, fun _ => hkeep i hi, fun k hk _ => hkeep k hk, ?_, ?_, ?_, ?_⟩
  · rw [tableEntry, hkeep i hi]
    exact ByteMemory.read32_write32 _ _ _
  · intro habsent
    rw [hdir] at habsent
    cases habsent
  · intro k hk _ hsame
    rw [hkeep k hk, hkeep i hi] at hsame
    rw [tableEntry, hsame]
    exact htable
  · intro k l hk hl _ _ hplace
    rw [hkeep k hk, hkeep i hi] at hplace
    have hframe' := frame_aligned (dirEntry cr3 ram k)
    rw [tableEntry, tableEntry, hkeep k hk]
    apply ByteMemory.read32_write32_of_disjoint
    by_cases hsame : frame (dirEntry cr3 ram k) = frame (dirEntry cr3 ram i)
    · have hslot : l ≠ j := fun heq => hplace ⟨hsame, heq⟩
      omega
    · omega

/-- The first entry of a new table. -/
theorem entryAdded_table {cr3 q : Nat} {ram ram₁ : ByteMemory} {i j : Nat} {pde : UInt32}
    (hrec : Recursive cr3 ram) (hi : i < 1023) (hj : j < 0x400)
    (hdir : present (dirEntry cr3 ram i) = false) (hpresent : present pde = true)
    (hpde : frame pde = q) (hne : q ≠ cr3)
    (hfresh : ∀ k, k < 0x400 → present (dirEntry cr3 ram k) = true → frame (dirEntry cr3 ram k) ≠ q)
    (hfilled : Filled (ram.write32 (cr3 + 4 * i) pde) ram₁ 0x1000 (fun k => q + k) 0) (e : UInt32) :
    EntryAdded cr3 ram (ram₁.write32 (q + 4 * j) e) i j e := by
  have hcr3 := hrec.aligned
  have hq : q % 0x1000 = 0 := hpde ▸ frame_aligned pde
  -- outside the new table only the directory entry is written
  have hout : ∀ a, (a < q ∨ q + 0x1000 ≤ a) →
      ram₁.write32 (q + 4 * j) e a = ram.write32 (cr3 + 4 * i) pde a := by
    intro a ha
    rw [ByteMemory.write32_outside (by omega)]
    exact hfilled.outside a fun k hk => by omega
  have hpage : ByteMemory.EqOn cr3 0x1000 (ram.write32 (cr3 + 4 * i) pde)
      (ram₁.write32 (q + 4 * j) e) := fun a hlo hhi => hout a (by omega)
  have hself : dirEntry cr3 (ram₁.write32 (q + 4 * j) e) i = pde := by
    rw [dirEntry_congr hpage (Nat.lt_succ_of_lt hi)]
    exact ByteMemory.read32_write32 _ _ _
  have hother : ∀ k, k < 0x400 → k ≠ i →
      dirEntry cr3 (ram₁.write32 (q + 4 * j) e) k = dirEntry cr3 ram k := by
    intro k hk hki
    rw [dirEntry_congr hpage hk]
    exact ByteMemory.read32_write32_of_disjoint (by omega)
  refine ⟨hself ▸ hpresent, ?_, hother, ?_, ?_, ?_, ?_⟩
  · intro hpre
    rw [hdir] at hpre
    cases hpre
  · rw [tableEntry, hself, hpde]
    exact ByteMemory.read32_write32 _ _ _
  · intro _ l hl hlj
    have hzero : ram₁.read32 (q + 4 * l) = 0 := by
      refine ByteMemory.read32_zero fun k hk => ?_
      rw [Nat.add_assoc]
      exact hfilled.inside _ (by omega)
    rw [tableEntry, hself, hpde, ByteMemory.read32_write32_of_disjoint (by omega), hzero]
    rfl
  · intro k hk hpre hsame
    have hki : k ≠ i := by
      intro heq
      rw [heq, hdir] at hpre
      cases hpre
    rw [hother k hk hki, hself, hpde] at hsame
    exact absurd hsame (hfresh k hk hpre)
  · intro k l hk hl hpre hwin _
    have hki : k ≠ i := by
      intro heq
      rw [heq, hdir] at hpre
      cases hpre
    have hframe := frame_aligned (dirEntry cr3 ram k)
    have hneq := hfresh k hk hpre
    rw [tableEntry, tableEntry, hother k hk hki]
    have htable : ByteMemory.EqOn (frame (dirEntry cr3 ram k)) 0x1000 ram
        (ram₁.write32 (q + 4 * j) e) := by
      intro a hlo hhi
      rw [hout a (by omega)]
      exact ByteMemory.write32_outside (by omega)
    exact htable.read32 (by omega) (by omega)

/-- **Both ways** add one entry. -/
theorem PageTableAdd.entryAdded (h : PageTableAdd t vaddr pagePhyaddr m m')
    (hrec : Recursive (m.cr3 t) m.ram) (hwin : ¬ InWindow (m.cr3 t) m.ram vaddr)
    (hfresh : present (dirEntry (m.cr3 t) m.ram (dirIndex vaddr)) = false → FreshTable t m) :
    EntryAdded (m.cr3 t) m.ram m'.ram (dirIndex vaddr) (tableIndex vaddr) (entryOf pagePhyaddr) := by
  cases h with
  | entry hdir htable =>
    exact entryAdded_entry hrec (dirIndex_lt vaddr) (tableIndex_lt vaddr) hdir htable
      (fun heq => hwin ⟨hdir, heq⟩) _
  | table hdir hpalloc hfilled =>
    obtain ⟨haligned, hne, hother⟩ := hfresh hdir _ _ hpalloc
    have hlt : dirIndex vaddr < 1023 := by
      refine Nat.lt_of_le_of_ne (Nat.le_of_lt_succ (dirIndex_lt vaddr)) fun heq => ?_
      rw [heq, hrec.present] at hdir
      cases hdir
    exact entryAdded_table hrec hlt (tableIndex_lt vaddr) hdir (present_entryOf haligned)
      (frame_entryOf haligned) hne hother hfilled _

/-- The directory still points to itself. -/
theorem EntryAdded.recursive {cr3 : Nat} {ram ram' : ByteMemory} {i j : Nat} {e : UInt32}
    (h : EntryAdded cr3 ram ram' i j e) (hi : i < 1023) (hrec : Recursive cr3 ram) :
    Recursive cr3 ram' := by
  have hlast := h.dir_other 1023 (by decide) (by omega)
  exact ⟨hlast ▸ hrec.present, hlast ▸ hrec.frame⟩

end Entries

/-! ## The new page -/

/-- The entry of `v'` is the entry of `v`: their directory entries name one table, and they have the
same index in it. -/
def SharesEntry (cr3 : Nat) (ram : ByteMemory) (v v' : UInt32) : Prop :=
  present (dirEntry cr3 ram (dirIndex v')) = true ∧
    frame (dirEntry cr3 ram (dirIndex v')) = frame (dirEntry cr3 ram (dirIndex v)) ∧
    tableIndex v' = tableIndex v

/-- The page of `v` has been mapped to the frame `p`, and outside the recursive windows nothing else
has changed but for the addresses that share the table entry of `v`. -/
structure PageMapped (t : Tid) (v p : UInt32) (m m' : Memory) : Prop where
  self : ∀ v' : UInt32, v'.toNat / 0x1000 = v.toNat / 0x1000 →
    addrV2p t v' m' = .ok (p + (v' &&& 0x00000fff))
  kept : ∀ (v' : UInt32) (a : Nat), ¬ InWindow (m.cr3 t) m.ram v' →
    translate (m.cr3 t) m.ram v' = .ok a →
    translate (m.cr3 t) m'.ram v' = .ok a ∧ addrV2p t v' m' = addrV2p t v' m
  fresh : ∀ v' : UInt32, ¬ InWindow (m.cr3 t) m.ram v' →
    translate (m.cr3 t) m.ram v' = .error .pageFault → v'.toNat / 0x1000 ≠ v.toNat / 0x1000 →
    ¬ SharesEntry (m.cr3 t) m'.ram v v' → translate (m.cr3 t) m'.ram v' = .error .pageFault
  shared : ∀ v' : UInt32, SharesEntry (m.cr3 t) m'.ram v v' →
    translate (m.cr3 t) m'.ram v' = .ok (p.toNat + v'.toNat % 0x1000)

section Mapped

variable {t : Tid} {v p : UInt32} {m m' : Memory}

/-- A new entry for a page makes it mapped. -/
theorem EntryAdded.pageMapped (h : EntryAdded (m.cr3 t) m.ram m'.ram (dirIndex v) (tableIndex v)
    (entryOf p)) (hcr3 : m'.cr3 = m.cr3) (hrec : Recursive (m.cr3 t) m.ram)
    (hi : dirIndex v < 1023) (hp : p.toNat % 0x1000 = 0) : PageMapped t v p m m' := by
  have hshared : ∀ v' : UInt32, SharesEntry (m.cr3 t) m'.ram v v' →
      translate (m.cr3 t) m'.ram v' = .ok (p.toNat + v'.toNat % 0x1000) := by
    rintro v' ⟨hdir, hframe, hindex⟩
    have hentry : tableEntry (m.cr3 t) m'.ram (dirIndex v') (tableIndex v') = entryOf p := by
      rw [tableEntry, hframe, hindex]
      exact h.self
    rw [translate_eq hdir (hentry ▸ present_entryOf hp), hentry, frame_entryOf hp]
  -- an entry that was there keeps its directory entry
  have hdirs : ∀ k, k < 0x400 → present (dirEntry (m.cr3 t) m.ram k) = true →
      dirEntry (m.cr3 t) m'.ram k = dirEntry (m.cr3 t) m.ram k := by
    intro k hk hpre
    by_cases heq : k = dirIndex v
    · rw [heq] at hpre ⊢
      exact h.dir_kept hpre
    · exact h.dir_other k hk heq
  refine ⟨?_, ?_, ?_, hshared⟩
  · intro v' hpage
    obtain ⟨hdir, htable⟩ := samePage_index hpage
    have htrans := hshared v' ⟨hdir ▸ h.dir_present, by rw [hdir], htable⟩
    rw [← hcr3] at htrans
    rw [addrV2p_eq (hcr3 ▸ h.recursive hi hrec) htrans]
    refine congrArg Except.ok (UInt32.toNat_inj.mp ?_)
    rw [UInt32.toNat_add, and_offset, UInt32.toNat_ofNat']
  · intro v' a hwin htrans
    rcases translate_cases (m.cr3 t) m.ram v' with ⟨hdir, htable, hok⟩ | ⟨-, herror⟩
    · have hkeep := hdirs _ (dirIndex_lt v') hdir
      have hafter : translate (m.cr3 t) m'.ram v' = .ok a := by
        rw [← htrans]
        refine translate_congr hkeep fun _ => ?_
        refine h.other _ _ (dirIndex_lt v') (tableIndex_lt v') hdir (fun heq => hwin ⟨hdir, heq⟩) ?_
        rintro ⟨hsame, hindex⟩
        rw [hindex, h.free _ (dirIndex_lt v') hdir hsame] at htable
        cases htable
      refine ⟨hafter, ?_⟩
      rw [← hcr3] at hafter
      rw [addrV2p_eq (hcr3 ▸ h.recursive hi hrec) hafter, addrV2p_eq hrec htrans]
    · rw [herror] at htrans
      cases htrans
  · intro v' hwin herror hpage hnot
    rcases translate_cases (m.cr3 t) m.ram v' with ⟨-, -, hok⟩ | ⟨hentry, -⟩
    · rw [hok] at herror
      cases herror
    cases hdir : present (dirEntry (m.cr3 t) m.ram (dirIndex v')) with
    | true =>
      rw [← herror]
      have hkeep := hdirs _ (dirIndex_lt v') hdir
      refine translate_congr hkeep fun _ => ?_
      refine h.other _ _ (dirIndex_lt v') (tableIndex_lt v') hdir (fun heq => hwin ⟨hdir, heq⟩) ?_
      rintro ⟨hsame, hindex⟩
      exact hnot ⟨hkeep ▸ hdir, hsame, hindex⟩
    | false =>
      by_cases heq : dirIndex v' = dirIndex v
      · -- the table is new
        have hindex : tableIndex v' ≠ tableIndex v := fun hsame => hpage (page_of_index heq hsame)
        have hpre := h.new_table (heq ▸ hdir) _ (tableIndex_lt v') hindex
        rw [← heq] at hpre
        simp only [translate, heq ▸ h.dir_present, hpre, assert_true, assert_false, ok_bind,
          error_bind]
      · rw [← herror]
        refine translate_congr (h.dir_other _ (dirIndex_lt v') heq) fun hpre => ?_
        rw [hdir] at hpre
        cases hpre

end Mapped

/-- **Recursive mapping.** Through a directory whose last entry names it, `pte_ptr` and `pde_ptr`
reach the entries of an address; and `page_table_add` maps the page it is asked to map, keeps what
was mapped, and maps nothing else but what shares the table entry. -/
theorem recursive_mapping :
    (∀ (cr3 : Nat) (ram : ByteMemory) (v : UInt32), Recursive cr3 ram →
      present (dirEntry cr3 ram (v.toNat / 2 ^ 22)) = true →
      translate cr3 ram (ptePtr v) =
        .ok (frame (dirEntry cr3 ram (v.toNat / 2 ^ 22)) + 4 * (v.toNat / 2 ^ 12 % 2 ^ 10)) ∧
      translate cr3 ram (pdePtr v) = .ok (cr3 + 4 * (v.toNat / 2 ^ 22))) ∧
    ∀ (t : Tid) (v p : UInt32) (m m' : Memory), Recursive (m.cr3 t) m.ram →
      ¬ InWindow (m.cr3 t) m.ram v → p.toNat % 0x1000 = 0 →
      (present (dirEntry (m.cr3 t) m.ram (dirIndex v)) = false → FreshTable t m) →
      pageTableAdd t v p m = .ok m' → PageMapped t v p m m' := by
  constructor
  · exact fun cr3 ram v hrec hdir => ⟨hrec.translate_ptePtr hdir, hrec.translate_pdePtr⟩
  · intro t v p m m' hrec hwin hp hfresh hret
    have hnew : present (dirEntry (m.cr3 t) m.ram (dirIndex v)) = false → ∀ q pool,
        palloc m.kernelPool = .ok (q, pool) → q.toNat % 0x1000 = 0 ∧ q.toNat ≠ m.cr3 t := by
      intro hdir q pool hpalloc
      obtain ⟨haligned, hne, -⟩ := hfresh hdir q pool hpalloc
      exact ⟨haligned, hne⟩
    obtain ⟨-, -, hadd⟩ := pageTableAdd_inv hrec hnew hret
    have hi : dirIndex v < 1023 := by
      refine Nat.lt_of_le_of_ne (Nat.le_of_lt_succ (dirIndex_lt v)) fun heq => hwin ?_
      unfold InWindow
      rw [heq]
      exact ⟨hrec.present, hrec.frame⟩
    exact (hadd.entryAdded hrec hwin hfresh).pageMapped (pageTableAdd_cr3 hadd) hrec hi hp

/-! ## Two directories that share -/

/-- The first heap page on a machine with 4 MB. -/
theorem bootedHeap_add : ∃ m', pageTableAdd 0 0xc0100000 0x200000 (bootedHeap 0x400000).mem = .ok m' ∧
    EntryAdded pageDirTablePos (bootedHeap 0x400000).mem.ram m'.ram 768 256 (entryOf 0x200000) := by
  have htables : KernelTables pageDirTablePos (bootedHeap 0x400000).mem.ram :=
    (bootedHeap_start (by decide)).tables
  have hdir : present (dirEntry pageDirTablePos (bootedHeap 0x400000).mem.ram 768) = true :=
    htables.table_present 768 (by decide) (by decide)
  have htable : present (tableEntry pageDirTablePos (bootedHeap 0x400000).mem.ram 768 256) = false := by
    have hclear : TablesClear fun _ => 0 := fun _ _ _ _ => rfl
    rw [bootedHeap_ram]
    exact hclear.entry (by decide) (Or.inr (by decide)) (by decide) (Or.inl (by decide))
  have hindex : dirIndex 0xc0100000 = 768 := rfl
  have hslot : tableIndex 0xc0100000 = 256 := rfl
  have hcr3 : (bootedHeap 0x400000).mem.cr3 0 = pageDirTablePos := rfl
  have hret := @pageTableAdd_present 0 0xc0100000 0x200000 (bootedHeap 0x400000).mem
  rw [hindex, hslot, hcr3] at hret
  have hadd := entryAdded_entry htables.recursive (i := 768) (j := 256) (by decide) (by decide) hdir
    htable (htables.table_ne_dir 768 (by decide) (by decide)) (entryOf 0x200000)
  generalize bootedHeap 0x400000 = s at *
  refine ⟨_, hret htables.recursive (by decide) (by decide) hdir htable, ?_⟩
  exact hadd

/-- The first heap page is mapped as it should be. -/
theorem recursive_mapping_first : ∃ m',
    pageTableAdd 0 0xc0100000 0x200000 (bootedHeap 0x400000).mem = .ok m' ∧
    PageMapped 0 0xc0100000 0x200000 (bootedHeap 0x400000).mem m' := by
  obtain ⟨m', hret, -⟩ := bootedHeap_add
  have htables : KernelTables pageDirTablePos (bootedHeap 0x400000).mem.ram :=
    (bootedHeap_start (by decide)).tables
  have hdir : present (dirEntry pageDirTablePos (bootedHeap 0x400000).mem.ram 768) = true :=
    htables.table_present 768 (by decide) (by decide)
  refine ⟨m', hret, recursive_mapping.2 0 0xc0100000 0x200000 _ m' htables.recursive ?_ (by decide)
    ?_ hret⟩
  · exact fun hwin => htables.table_ne_dir 768 (by decide) (by decide) hwin.2
  · intro habsent
    have hindex : dirIndex 0xc0100000 = 768 := rfl
    rw [hindex] at habsent
    exact absurd (hdir.symm.trans habsent) (by decide)

/-- A directory whose entries 0 and 1023 both name it. -/
def selfTwice : ByteMemory :=
  (ByteMemory.write32 (fun _ => 0) pageDirTablePos 0x100007).write32 (pageDirTablePos + 4 * 1023)
    0x100007

/-- The memory with this directory. -/
def selfTwiceMem : Memory := { (bootedHeap 0x400000).mem with ram := selfTwice }

theorem selfTwice_dir (k : Nat) :
    dirEntry pageDirTablePos selfTwice k = if k = 0 ∨ k = 1023 then 0x100007 else 0 := by
  have hpos : pageDirTablePos = 0x100000 := rfl
  rw [dirEntry, selfTwice]
  by_cases hlast : k = 1023
  · rw [if_pos (Or.inr hlast), hlast]
    exact ByteMemory.read32_write32 _ _ _
  · rw [ByteMemory.read32_write32_of_disjoint (by omega)]
    by_cases hfirst : k = 0
    · rw [if_pos (Or.inl hfirst), hfirst]
      exact ByteMemory.read32_write32 _ _ _
    · rw [ByteMemory.read32_write32_of_disjoint (by omega), if_neg (by omega)]
      exact ByteMemory.read32_zero fun _ _ => rfl

/-- In the directory of `setup_page` the first table stands in two places, so mapping a heap page
maps an address in the low 4 MB as well; and where a second entry names the directory, a new page
table turns up as a page behind that entry. -/
theorem recursive_mapping_shared :
    (∃ m', Recursive pageDirTablePos (bootedHeap 0x400000).mem.ram ∧
      pageTableAdd 0 0xc0100000 0x200000 (bootedHeap 0x400000).mem = .ok m' ∧
      translate pageDirTablePos (bootedHeap 0x400000).mem.ram 0xc0100000 = .error .pageFault ∧
      translate pageDirTablePos (bootedHeap 0x400000).mem.ram 0x00100000 = .error .pageFault ∧
      translate pageDirTablePos m'.ram 0x00100000 = .ok 0x200000) ∧
    ∃ m', Recursive pageDirTablePos selfTwiceMem.ram ∧
      pageTableAdd 0 0x01400000 0x300000 selfTwiceMem = .ok m' ∧
      translate pageDirTablePos selfTwiceMem.ram 0x01400000 = .error .pageFault ∧
      translate pageDirTablePos selfTwiceMem.ram 0x00005000 = .error .pageFault ∧
      translate pageDirTablePos m'.ram 0x00005000 ≠ .error .pageFault := by
  constructor
  · obtain ⟨m', hret, hadd⟩ := bootedHeap_add
    have htables : KernelTables pageDirTablePos (bootedHeap 0x400000).mem.ram :=
      (bootedHeap_start (by decide)).tables
    have hspace : InitialSpace (bootedHeap 0x400000).mem.ram := by
      rw [bootedHeap_ram]
      exact TablesClear.initialSpace fun _ _ _ _ => rfl
    have hdirs : ∀ k, k < 0x400 → dirEntry pageDirTablePos (bootedHeap 0x400000).mem.ram k =
        bootDirEntry k := by
      intro k hk
      rw [bootedHeap_ram]
      exact setupPage_dir _ hk
    -- the entries 0 and 768 are the same
    have hfirst : dirEntry pageDirTablePos m'.ram 0 = 0x101007 := by
      rw [hadd.dir_other 0 (by decide) (by decide), hdirs 0 (by decide)]
      rfl
    have hentry : tableEntry pageDirTablePos m'.ram 0 256 = entryOf 0x200000 := by
      have hself := hadd.self
      rw [tableEntry, hadd.dir_kept (by rw [hdirs 768 (by decide)]; rfl), hdirs 768 (by decide)]
        at hself
      rw [tableEntry, hfirst]
      exact hself
    refine ⟨m', htables.recursive, hret, hspace.absent _ (by decide) (Or.inr (by decide)) (by decide),
      hspace.absent _ (by decide) (Or.inl (by decide)) (by decide), ?_⟩
    have htrans := @translate_eq pageDirTablePos m'.ram 0x00100000
    have hdir : dirIndex 0x00100000 = 0 := rfl
    have htable : tableIndex 0x00100000 = 256 := rfl
    rw [hdir, htable, hentry, hfirst] at htrans
    exact htrans rfl (present_entryOf (by decide))
  · have hrec : Recursive pageDirTablePos selfTwice := by
      refine ⟨?_, ?_⟩
      · rw [selfTwice_dir]
        rfl
      · rw [selfTwice_dir]
        rfl
    have hdir : present (dirEntry pageDirTablePos selfTwice 5) = false := by
      rw [selfTwice_dir]
      rfl
    have hpalloc : ∃ pool, palloc selfTwiceMem.kernelPool = .ok (0x200000, pool) := ⟨_, rfl⟩
    obtain ⟨pool, hpalloc⟩ := hpalloc
    obtain ⟨ram, hfilled, hret⟩ := @pageTableAdd_absent 0 0x01400000 0x300000 selfTwiceMem hrec
      (by decide) (by decide) hdir _ pool hpalloc (by decide) rfl (by decide)
    have hadd := entryAdded_table (i := 5) (j := 0) hrec (by decide) (by decide) hdir
      (present_entryOf (by decide)) (frame_entryOf (by decide)) (by decide)
      (fun k _ _ => by
        rw [selfTwice_dir]
        split
        · decide
        · decide) hfilled (entryOf 0x300000)
    refine ⟨_, hrec, hret, ?_, ?_, ?_⟩
    · show translate pageDirTablePos selfTwice 0x01400000 = _
      have hindex : dirIndex 0x01400000 = 5 := rfl
      simp only [translate, hindex, hdir, assert_false, error_bind]
    · show translate pageDirTablePos selfTwice 0x00005000 = _
      have hindex : dirIndex 0x00005000 = 0 := rfl
      have htable : tableIndex 0x00005000 = 5 := rfl
      have hentry : present (tableEntry pageDirTablePos selfTwice 0 5) = false := by
        rw [tableEntry, selfTwice_dir]
        exact hdir
      have hfirst : present (dirEntry pageDirTablePos selfTwice 0) = true := by
        rw [selfTwice_dir]
        rfl
      simp only [translate, hindex, htable, hfirst, hentry, assert_true, assert_false, ok_bind,
        error_bind]
    · -- the new directory entry is read as a table entry
      have hindex : dirIndex 0x00005000 = 0 := rfl
      have htable : tableIndex 0x00005000 = 5 := rfl
      have hfirst := hadd.dir_other 0 (by decide) (by decide)
      rw [selfTwice_dir] at hfirst
      have htrans := @translate_eq pageDirTablePos
        (ram.write32 (UInt32.toNat 0x200000 + 4 * 0) (entryOf 0x300000)) 0x00005000
      rw [hindex, htable, tableEntry, hfirst] at htrans
      have hok := htrans rfl hadd.dir_present
      intro herror
      exact absurd (hok.symm.trans herror) (by rintro ⟨⟩)

end OsKernel
