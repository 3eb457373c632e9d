import OsKernel.Lib.Ledger
import OsKernel.Userprog.OnePage

/-!
# Address spaces and the frames behind them

Every frame that `palloc` hands out for a page goes behind one page table entry, entries are never
changed afterwards, and a process gets its pages from `user_pool` only. So processes do not see each
other's memory, nor that of the kernel.

- `HoldsFrame`, `FrameInv`: the entries that map a frame of a pool, and what is known of them.
- `Kept`: what a call leaves as it is, mappings and the data of processes.
- `EntryPut`, `pageTableAdd_put`: `page_table_add` writes one entry, which was not in use.
- `PageOp.exec_frames`, `pageRuns_frames`, `laterCalls_kept`: the calls, one by one and in runs.
- `address_spaces_isolated`: no two user pages share a frame, and none shares one with the kernel.
- `kernel_open_to_users`: but user mode may access all that is mapped.
-/

namespace OsKernel

open Lib

/-! ## Frames in use -/

/-- The frame can be handed out. -/
def FreeIn (m : Memory) (f : Nat) : Prop := m.kernelPool.FreeFrame f ∨ m.userPool.FreeFrame f

/-- The entry at the place `p` maps a page to the frame `f`, above the boot loader's memory. -/
def HoldsFrame (m : Memory) (dirs : List Nat) (p f : Nat) : Prop :=
  poolStart ≤ f ∧ ∃ d ∈ dirs, ∃ i j, MapsFrame m d i j f ∧ entryPlace d m.ram i j = p

/-- `PG_US_U | PG_RW_W | PG_P_1` -/
def UserBits (e : UInt32) : Prop := e.toNat % 8 = 7

/-- A frame is behind one entry at most, and the frames of user pages are not the kernel's. All
entries have the same bits. -/
structure FrameInv (m : Memory) (dirs : List Nat) : Prop where
  tables : TableInv m dirs
  ledger : Ledger (HoldsFrame m dirs) (FreeIn m)
  user : ∀ d ∈ dirs, ∀ i j f, MadeTable m d i → MapsFrame m d i j f → kernelEnd m.toPools ≤ f
  dir_bits : ∀ d ∈ dirs, ∀ i, i < 0x400 → present (dirEntry d m.ram i) = true →
    UserBits (dirEntry d m.ram i)
  table_bits : ∀ d ∈ dirs, ∀ i j f, MapsFrame m d i j f → UserBits (tableEntry d m.ram i j)

/-- What is mapped stays mapped to the same frame, and what is behind the kernel's memory and in use
is not written. -/
structure Kept (dirs : List Nat) (m m' : Memory) : Prop where
  maps : ∀ d ∈ dirs, ∀ i j f, MapsFrame m d i j f → MapsFrame m' d i j f
  size : kernelEnd m'.toPools = kernelEnd m.toPools
  free : ∀ f, m'.userPool.FreeFrame f → m.userPool.FreeFrame f
  data : ∀ x, kernelEnd m.toPools ≤ x → ¬ m.userPool.FreeFrame (x / 0x1000 * 0x1000) →
    m'.ram x = m.ram x

/-- Mappings are a matter of the memory only. -/
theorem MapsFrame.of_ram {m m' : Memory} {d i j f : Nat} (hram : m'.ram = m.ram)
    (h : MapsFrame m d i j f) : MapsFrame m' d i j f :=
  ⟨h.dir, h.table, hram ▸ h.dir_present, hram ▸ h.present, hram ▸ h.frame⟩

section Kept

variable {dirs : List Nat} {m m' m₁ m₂ m₃ : Memory}

theorem Kept.of_ram (hram : m'.ram = m.ram) (hsize : kernelEnd m'.toPools = kernelEnd m.toPools)
    (hfree : ∀ f, m'.userPool.FreeFrame f → m.userPool.FreeFrame f) : Kept dirs m m' :=
  ⟨fun _ _ _ _ _ hmaps => hmaps.of_ram hram, hsize, hfree, fun _ _ _ => by rw [hram]⟩

theorem Kept.refl (dirs : List Nat) (m : Memory) : Kept dirs m m := .of_ram rfl rfl fun _ hf => hf

theorem Kept.trans (h : Kept dirs m₁ m₂) (h' : Kept dirs m₂ m₃) : Kept dirs m₁ m₃ where
  maps d hd i j f hmaps := h'.maps d hd i j f (h.maps d hd i j f hmaps)
  size := h'.size.trans h.size
  free f hf := h.free f (h'.free f hf)
  data x hx hused :=
    (h'.data x (h.size ▸ hx) fun hf => hused (h.free _ hf)).trans (h.data x hx hused)

/-- What holds of a larger list of directories. -/
theorem Kept.sub {dirs' : List Nat} (h : Kept dirs' m m') (hsub : dirs ⊆ dirs') : Kept dirs m m' :=
  ⟨fun d hd => h.maps d (hsub hd), h.size, h.free, h.data⟩

end Kept

section SameEntries

variable {m m' : Memory} {dirs : List Nat}

/-- The entries of the directories and of their tables are the same. -/
structure SameEntries (dirs : List Nat) (ram ram' : ByteMemory) : Prop where
  dir : ∀ d ∈ dirs, ∀ i, i < 0x400 → dirEntry d ram' i = dirEntry d ram i
  table : ∀ d ∈ dirs, ∀ i j, i < 1023 → j < 0x400 → present (dirEntry d ram i) = true →
    tableEntry d ram' i j = tableEntry d ram i j

theorem SameEntries.refl (dirs : List Nat) (ram : ByteMemory) : SameEntries dirs ram ram :=
  ⟨fun _ _ _ _ => rfl, fun _ _ _ _ _ _ _ => rfl⟩

/-- The same pages are mapped. -/
theorem SameEntries.maps (h : SameEntries dirs m.ram m'.ram) {d i j f : Nat} (hd : d ∈ dirs) :
    MapsFrame m' d i j f ↔ MapsFrame m d i j f := by
  constructor
  · intro hmaps
    have hi := hmaps.dir
    have hpresent := hmaps.dir_present
    rw [h.dir d hd i (by omega)] at hpresent
    have heq := h.table d hd i j hi hmaps.table hpresent
    exact ⟨hi, hmaps.table, hpresent, heq ▸ hmaps.present, heq ▸ hmaps.frame⟩
  · intro hmaps
    have hi := hmaps.dir
    have heq := h.table d hd i j hi hmaps.table hmaps.dir_present
    refine ⟨hi, hmaps.table, ?_, heq.symm ▸ hmaps.present, heq.symm ▸ hmaps.frame⟩
    rw [h.dir d hd i (by omega)]
    exact hmaps.dir_present

/-- **No page is mapped.** -/
theorem FrameInv.same (h : FrameInv m dirs) (h' : TableInv m' dirs)
    (hsame : SameEntries dirs m.ram m'.ram) (hfree : ∀ f, FreeIn m' f → FreeIn m f)
    (hsize : kernelEnd m'.toPools = kernelEnd m.toPools) : FrameInv m' dirs := by
  refine ⟨h', h.ledger.mono ?_ hfree, ?_, ?_, ?_⟩
  · rintro p f ⟨hlo, d, hd, i, j, hmaps, hplace⟩
    have hi := hmaps.dir
    refine ⟨hlo, d, hd, i, j, (hsame.maps hd).mp hmaps, ?_⟩
    rw [← hplace, entryPlace, entryPlace, hsame.dir d hd i (by omega)]
  · intro d hd i j f hmade hmaps
    have hi := hmaps.dir
    have hpresent := hmade.present
    rw [hsame.dir d hd i (by omega)] at hpresent
    rw [hsize]
    exact h.user d hd i j f ⟨hmade.user, hpresent, hmade.made⟩ ((hsame.maps hd).mp hmaps)
  · intro d hd i hi hpresent
    rw [hsame.dir d hd i hi] at hpresent ⊢
    exact h.dir_bits d hd i hi hpresent
  · intro d hd i j f hmaps
    have hold := (hsame.maps hd).mp hmaps
    rw [hsame.table d hd i j hold.dir hold.table hold.dir_present]
    exact h.table_bits d hd i j f hold

/-- The memory is not written. -/
theorem FrameInv.sameRam (h : FrameInv m dirs) (h' : TableInv m' dirs) (hram : m'.ram = m.ram)
    (hkernel : m'.kernelPool = m.kernelPool) (huser : m'.userPool = m.userPool) :
    FrameInv m' dirs ∧ Kept dirs m m' := by
  have hsize : kernelEnd m'.toPools = kernelEnd m.toPools := by rw [kernelEnd, kernelEnd, hkernel]
  refine ⟨h.same h' (hram ▸ .refl _ _) (fun f hf => ?_) hsize, .of_ram hram hsize fun f hf => huser ▸ hf⟩
  rw [FreeIn, hkernel, huser] at hf
  exact hf

/-- Memory above the kernel's is written. -/
theorem FrameInv.fill (h : FrameInv m dirs) {ram' : ByteMemory}
    (hram : ∀ x, x < kernelEnd m.toPools → ram' x = m.ram x) :
    FrameInv { m with ram := ram' } dirs ∧
      ∀ d ∈ dirs, ∀ i j f, MapsFrame { m with ram := ram' } d i j f ↔ MapsFrame m d i j f := by
  have hsame : SameEntries dirs m.ram { m with ram := ram' }.ram :=
    ⟨fun d hd i hi => (h.tables.entries_low hram hd).1 i hi,
      fun d hd => (h.tables.entries_low hram hd).2⟩
  exact ⟨h.same (h.tables.fill hram) hsame (fun _ hf => hf) rfl, fun d hd _ _ _ => hsame.maps hd⟩

/-- Memory is written that was free before an operation on the heap. -/
theorem FrameInv.fillFree (h : FrameInv m' dirs) (hm : Spaces m dirs) (hstep : HeapStep m m')
    {ram' : ByteMemory} (hfill : FillsFree m.kernelPool m'.ram ram')
    (h' : TableInv { m' with ram := ram' } dirs) :
    FrameInv { m' with ram := ram' } dirs ∧ Kept dirs m' { m' with ram := ram' } := by
  have hpage : ∀ q, q % 0x1000 = 0 → ¬ m.kernelPool.FreeFrame q →
      ByteMemory.EqOn q 0x1000 m'.ram ram' := by
    intro q hq hused x hlo hhi
    refine hfill x fun q' hfree hin => hused ?_
    have haligned := (hm.pools.free hfree).1
    have heq : q = q' := by omega
    exact heq ▸ hfree
  have hdir : ∀ d ∈ dirs, ByteMemory.EqOn d 0x1000 m'.ram ram' :=
    fun d hd => hpage d (hm.aligned hd) (hm.used d hd)
  have hsame : SameEntries dirs m'.ram { m' with ram := ram' }.ram := by
    refine ⟨fun d hd i hi => dirEntry_congr (hdir d hd) hi, ?_⟩
    intro d hd i j hi hj hpresent
    refine tableEntry_congr (hdir d hd) (hpage _ (frame_aligned _) ?_) (by omega) hj
    -- the table was there before the operation
    have hold : dirEntry d m'.ram i = dirEntry d m.ram i :=
      dirEntry_congr (hstep.eqOn_dir hm hd) (by omega)
    rw [hold] at hpresent ⊢
    exact (hm.tables d hd i hi hpresent).2
  refine ⟨h.same h' hsame (fun _ hf => hf) rfl,
    fun d hd _ _ _ => (hsame.maps hd).mpr, rfl,
    fun _ hf => hf, fun x hx _ => hfill x fun q hfree hin => ?_⟩
  -- the frames of the kernel lie below
  obtain ⟨-, -, hlt⟩ := hm.pools.ok.free hfree
  rw [hm.pools.phyAddrStart] at hlt
  rw [kernelEnd, hstep.size] at hx
  omega

end SameEntries

/-! ## One page -/

/-- The entry `j` of table `i` is written. Its place was not in use, and all other entries stay. -/
structure EntryPut (dirs : List Nat) (d i j : Nat) (e : UInt32) (m m' : Memory) : Prop where
  cr3 : m'.cr3 = m.cr3
  userPool : m'.userPool = m.userPool
  size : m'.kernelPool.poolBitmap.size = m.kernelPool.poolBitmap.size
  free : ∀ f, m'.kernelPool.FreeFrame f → m.kernelPool.FreeFrame f
  dir_kept : ∀ d' ∈ dirs, ∀ i', i' < 0x400 → present (dirEntry d' m.ram i') = true →
    dirEntry d' m'.ram i' = dirEntry d' m.ram i'
  /-- or it is that of the new table -/
  dir_old : ∀ d' ∈ dirs, ∀ i', i' < 0x400 → dirEntry d' m'.ram i' = dirEntry d' m.ram i' ∨
    UserBits (dirEntry d' m'.ram i')
  table_kept : ∀ d' ∈ dirs, ∀ i' j' f, MapsFrame m d' i' j' f →
    tableEntry d' m'.ram i' j' = tableEntry d' m.ram i' j'
  one : OneEntry dirs d i j e m m'
  unused : ∀ d' ∈ dirs, ∀ i' j' f, MapsFrame m d' i' j' f →
    entryPlace d' m'.ram i' j' ≠ entryPlace d m'.ram i j
  data : ∀ x, kernelEnd m.toPools ≤ x → m'.ram x = m.ram x

section OnePage

variable {t : Tid} {m m' : Memory} {dirs : List Nat} {d i j : Nat} {e vaddr p : UInt32} {pool : Pool}

theorem userBits_entryOf (hp : p.toNat % 0x1000 = 0) : UserBits (entryOf p) := by
  rw [UserBits, entryOf_toNat hp]
  omega

/-- **`page_table_add`** writes one entry, when there is a frame for the table if one is needed. -/
theorem pageTableAdd_put (h : Spaces m dirs) (hd : m.cr3 t ∈ dirs) (hi : dirIndex vaddr < 1023)
    (hlow : m.cr3 t + 0x1000 ≤ kernelEnd m.toPools)
    (htables : present (dirEntry (m.cr3 t) m.ram (dirIndex vaddr)) = true →
      frame (dirEntry (m.cr3 t) m.ram (dirIndex vaddr)) + 0x1000 ≤ kernelEnd m.toPools)
    (hroom : present (dirEntry (m.cr3 t) m.ram (dirIndex vaddr)) = false →
      0 < m.kernelPool.freeFrames)
    (hret : pageTableAdd t vaddr p m = .ok m') :
    EntryPut dirs (m.cr3 t) (dirIndex vaddr) (tableIndex vaddr) (entryOf p) m m' := by
  have hslot := tableIndex_lt vaddr
  obtain ⟨-, -, hadd⟩ := pageTableAdd_inv (h.last _ hd) (fun _ q pool hpalloc => by
    obtain ⟨haligned, hnot, -⟩ := h.newTable hpalloc
    exact ⟨haligned, fun heq => hnot (heq ▸ hd)⟩) hret
  cases hadd with
  | entry hdir htable =>
    obtain ⟨hnot, -⟩ := h.tables _ hd _ hi hdir
    have hdirs := h.eqOn_page (frame_aligned _) hnot fun a ha =>
      ByteMemory.write32_outside (x := entryOf p)
        (a := frame (dirEntry (m.cr3 t) m.ram (dirIndex vaddr)) + 4 * tableIndex vaddr) (by omega)
    have hsame : ∀ d' ∈ dirs, ∀ i', i' < 0x400 → dirEntry d' _ i' = dirEntry d' m.ram i' :=
      fun d' hd' i' hi' => dirEntry_congr (hdirs d' hd') hi'
    have hself := hsame _ hd (dirIndex vaddr) (by omega)
    have hunused : ∀ d' ∈ dirs, ∀ i' j' f, MapsFrame m d' i' j' f →
        frame (dirEntry d' m.ram i') + 4 * j' ≠
          frame (dirEntry (m.cr3 t) m.ram (dirIndex vaddr)) + 4 * tableIndex vaddr := by
      intro d' hd' i' j' f hmaps heq
      -- the entry there is in use
      have hpresent := hmaps.present
      rw [tableEntry, heq] at hpresent
      rw [tableEntry, hpresent] at htable
      cases htable
    refine ⟨rfl, rfl, rfl, fun _ hf => hf, fun d' hd' i' hi' _ => hsame d' hd' i' hi',
      fun d' hd' i' hi' => Or.inl (hsame d' hd' i' hi'), ?_, h.oneEntry hd hi hslot hdir rfl, ?_, ?_⟩
    · intro d' hd' i' j' f hmaps
      have hne := hunused d' hd' i' j' f hmaps
      have hframe := frame_aligned (dirEntry d' m.ram i')
      have hframe' := frame_aligned (dirEntry (m.cr3 t) m.ram (dirIndex vaddr))
      have hi' := hmaps.dir
      have hj' := hmaps.table
      rw [tableEntry, hsame d' hd' i' (by omega)]
      exact ByteMemory.read32_write32_of_disjoint (by omega)
    · intro d' hd' i' j' f hmaps heq
      have hi' := hmaps.dir
      dsimp only at heq
      rw [entryPlace, entryPlace, hsame d' hd' i' (by omega), hself] at heq
      exact hunused d' hd' i' j' f hmaps heq
    · intro x hx
      have hend := htables hdir
      exact ByteMemory.write32_outside (by omega)
  | @table q _ _ hdir hpalloc hfilled =>
    obtain ⟨haligned, hnot, -⟩ := h.newTable hpalloc
    have hmade := h.tableMade (e := entryOf p) hd (dirIndex_lt vaddr) hslot haligned hnot hfilled
    rcases palloc_taken h.pools.ok hpalloc with ⟨-, -, hnone⟩ | ⟨-, htaken⟩
    · have hpos := hroom hdir
      omega
    have hother : ∀ d' i', present (dirEntry d' m.ram i') = true → d' = m.cr3 t →
        i' ≠ dirIndex vaddr := by
      intro d' i' hpresent heq hi'
      rw [heq, hi', hdir] at hpresent
      cases hpresent
    have hsame := fun d' hd' i' (hi' : i' < 0x400) hpresent =>
      hmade.dir_other d' hd' i' hi' (hother d' i' hpresent)
    have hqlow : q.toNat + 0x1000 ≤ kernelEnd m.toPools := by
      obtain ⟨-, -, hlt⟩ := h.pools.ok.free htaken.free
      rw [h.pools.phyAddrStart] at hlt
      exact hlt
    refine ⟨rfl, rfl, htaken.area.size, fun f hf => ((htaken.rest f).mp hf).1, hsame, ?_, ?_,
      h.oneEntry_made hd hi hslot hdir htaken.free hmade, ?_, ?_⟩
    · intro d' hd' i' hi'
      by_cases hnew : d' = m.cr3 t ∧ i' = dirIndex vaddr
      · obtain ⟨rfl, rfl⟩ := hnew
        refine Or.inr ?_
        dsimp only
        rw [hmade.dir_self]
        exact userBits_entryOf haligned
      · exact Or.inl (hmade.dir_other d' hd' i' hi' fun heq hi'' => hnew ⟨heq, hi''⟩)
    · intro d' hd' i' j' f hmaps
      obtain ⟨hout, hused⟩ := h.tables d' hd' i' hmaps.dir hmaps.dir_present
      have hframe := frame_aligned (dirEntry d' m.ram i')
      have hi' := hmaps.dir
      have hj' := hmaps.table
      rw [tableEntry, hsame d' hd' i' (by omega) hmaps.dir_present]
      exact (hmade.outside _ hframe hout fun heq => hused (heq ▸ htaken.free)).read32
        (by omega) (by omega)
    · intro d' hd' i' j' f hmaps heq
      -- the new table is in a frame that was free
      have hframe := frame_aligned (dirEntry d' m.ram i')
      have hi' := hmaps.dir
      have htable := hmaps.table
      dsimp only at heq
      rw [entryPlace, entryPlace, hsame d' hd' i' (by omega) hmaps.dir_present, hmade.dir_self,
        frame_entryOf haligned] at heq
      have hused := (h.tables d' hd' i' hmaps.dir hmaps.dir_present).2
      have hq : frame (dirEntry d' m.ram i') = q.toNat := by omega
      exact hused (hq ▸ htaken.free)
    · intro x hx
      dsimp only
      rw [ByteMemory.write32_outside (by omega), hfilled.outside x fun k hk => by omega]
      exact ByteMemory.write32_outside (by omega)

theorem EntryPut.kept (h : EntryPut dirs d i j e m m') : Kept dirs m m' := by
  refine ⟨fun d' hd' i' j' f hmaps => ?_, ?_, fun f hf => h.userPool ▸ hf, fun x hx _ => h.data x hx⟩
  · exact (h.one.others d' hd' i' j' f (h.unused d' hd' i' j' f hmaps)).mpr hmaps
  · rw [kernelEnd, kernelEnd, h.size]

/-- What is mapped was mapped before, or is the new page. -/
theorem EntryPut.maps (h : EntryPut dirs d i j e m m') {d' i' j' f : Nat} (hd' : d' ∈ dirs)
    (hmaps : MapsFrame m' d' i' j' f) :
    (MapsFrame m d' i' j' f ∧ entryPlace d' m'.ram i' j' = entryPlace d' m.ram i' j') ∨
      (entryPlace d' m'.ram i' j' = entryPlace d m'.ram i j ∧ f = frame e) := by
  by_cases hplace : entryPlace d' m'.ram i' j' = entryPlace d m'.ram i j
  · refine Or.inr ⟨hplace, ?_⟩
    have hframe := hmaps.frame
    rw [tableEntry, ← entryPlace, hplace, entryPlace, ← tableEntry, h.one.self] at hframe
    exact hframe.symm
  · have hold := (h.one.others d' hd' i' j' f hplace).mp hmaps
    have hi' := hold.dir
    refine Or.inl ⟨hold, ?_⟩
    rw [entryPlace, entryPlace, h.dir_kept d' hd' i' (by omega) hold.dir_present]

/-- The frames of the two pools are apart. -/
theorem TableInv.pools_apart (h : TableInv m dirs) {a b : Nat} (ha : m.kernelPool.FreeFrame a)
    (hb : m.userPool.FreeFrame b) : a < kernelEnd m.toPools ∧ kernelEnd m.toPools ≤ b := by
  obtain ⟨-, -, hlt⟩ := h.spaces.pools.ok.free ha
  rw [h.spaces.pools.phyAddrStart] at hlt
  refine ⟨?_, Nat.le_trans h.apart (h.userOk.free hb).2.1⟩
  unfold kernelEnd
  omega

/-- A frame that `palloc` has handed out is not free any more, and was before. -/
theorem TableInv.taken {pf : PoolFlags} (h : TableInv m dirs)
    (htaken : Taken (m.pool pf) p.toNat pool) :
    p.toNat % 0x1000 = 0 ∧ poolStart ≤ p.toNat ∧ FreeIn m p.toNat ∧
      ∀ f, FreeIn (m.setPool pool pf) f → FreeIn m f ∧ f ≠ p.toNat := by
  cases pf with
  | kernel =>
    have hfree : m.kernelPool.FreeFrame p.toNat := htaken.free
    obtain ⟨haligned, hlo⟩ := h.spaces.pools.free hfree
    refine ⟨haligned, hlo, Or.inl hfree, fun f hf => ?_⟩
    rcases hf with hf | hf
    · obtain ⟨hold, hne⟩ := (htaken.rest f).mp hf
      exact ⟨Or.inl hold, hne⟩
    · have hapart := h.pools_apart hfree hf
      exact ⟨Or.inr hf, by omega⟩
  | user =>
    have hfree : m.userPool.FreeFrame p.toNat := htaken.free
    obtain ⟨haligned, hlo, -⟩ := h.userOk.free hfree
    refine ⟨haligned, ?_, Or.inr hfree, fun f hf => ?_⟩
    · have hapart := h.apart
      unfold kernelEnd at hapart
      omega
    · rcases hf with hf | hf
      · have hapart := h.pools_apart hf hfree
        exact ⟨Or.inl hf, by omega⟩
      · obtain ⟨hold, hne⟩ := (htaken.rest f).mp hf
        exact ⟨Or.inr hold, hne⟩

/-- **A frame goes behind one entry.** -/
theorem FrameInv.put (h : FrameInv m dirs) (pf : PoolFlags)
    (htaken : Taken (m.pool pf) p.toNat pool)
    (hput : EntryPut dirs d i j (entryOf p) (m.setPool pool pf) m') (h' : TableInv m' dirs)
    (hd : d ∈ dirs) (hi : i < 1023) (hj : j < 0x400) (hregion : pf = .kernel → 768 ≤ i) :
    FrameInv m' dirs ∧ Kept dirs m m' := by
  obtain ⟨haligned, hlo, hfree, hrest⟩ := h.tables.taken htaken
  have hram : (m.setPool pool pf).ram = m.ram := by
    cases pf with
    | kernel => rfl
    | user => rfl
  have hpool : kernelEnd (m.setPool pool pf).toPools = kernelEnd m.toPools := by
    cases pf with
    | kernel => exact congrArg (fun n => poolStart + 0x1000 * n) htaken.area.size
    | user => rfl
  have huserFree : ∀ f, (m.setPool pool pf).userPool.FreeFrame f → m.userPool.FreeFrame f := by
    cases pf with
    | kernel => exact fun f hf => hf
    | user => exact fun f hf => ((htaken.rest f).mp hf).1
  have hkept : Kept dirs m m' := (Kept.of_ram hram hpool huserFree).trans hput.kept
  refine ⟨⟨h', ?_, ?_, ?_, ?_⟩, hkept⟩
  · refine h.ledger.give (entryPlace d m'.ram i j) hfree ?_ fun f hf => hrest f ?_
    · rintro place f ⟨hstart, d', hd', i', j', hmaps, hplace⟩
      rcases hput.maps hd' hmaps with ⟨hold, hsame⟩ | ⟨hnew, hf⟩
      · rw [hsame, hram] at hplace
        exact Or.inl ⟨hstart, d', hd', i', j', hold.of_ram hram.symm, hplace⟩
      · rw [frame_entryOf haligned] at hf
        exact Or.inr ⟨hplace.symm.trans hnew, hf⟩
    · rcases hf with hf | hf
      · exact Or.inl (hput.free f hf)
      · exact Or.inr (hput.userPool ▸ hf)
  · intro d' hd' i' j' f hmade hmaps
    rw [hkept.size]
    rcases hput.maps hd' hmaps with ⟨hold, -⟩ | ⟨hplace, hf⟩
    · refine h.user d' hd' i' j' f ⟨hmade.user, ?_, hmade.made⟩ (hold.of_ram hram.symm)
      exact (hold.of_ram hram.symm).dir_present
    · rw [frame_entryOf haligned] at hf
      rw [hf]
      cases pf with
      | kernel =>
        -- the heap is not in a table of user addresses
        have hkernel := hregion rfl
        have huser := hmade.user
        obtain ⟨-, hsame | ⟨hboot, -⟩⟩ := h'.samePlace hd' hd hmaps.dir hi hmaps.table hj
          hmaps.dir_present hput.one.dir hplace
        · omega
        · rcases hboot with hboot | ⟨heq, hzero⟩
          · omega
          · exact absurd hzero (hmade.made heq)
      | user => exact Nat.le_trans h.tables.apart (h.tables.userOk.free htaken.free).2.1
  · intro d' hd' i' hi' hpresent
    rcases hput.dir_old d' hd' i' hi' with hold | hnew
    · rw [hold, hram] at hpresent ⊢
      exact h.dir_bits d' hd' i' hi' hpresent
    · exact hnew
  · intro d' hd' i' j' f hmaps
    rcases hput.maps hd' hmaps with ⟨hold, -⟩ | ⟨hplace, -⟩
    · rw [hput.table_kept d' hd' i' j' f hold, hram]
      exact h.table_bits d' hd' i' j' f (hold.of_ram hram.symm)
    · rw [tableEntry, ← entryPlace, hplace, entryPlace, ← tableEntry, hput.one.self]
      exact userBits_entryOf haligned

end OnePage

/-! ## The calls -/

section Calls

variable {t : Tid} {m m' : Memory} {dirs : List Nat} {d : Nat} {vaddr n a p : UInt32} {cnt : Nat}
  {pool : Pool}

/-- A page of the kernel heap. -/
theorem FrameInv.heapTurn (h : FrameInv m dirs) (hd : m.cr3 t ∈ dirs) {s off : Nat}
    (hs : s < 0x10000) (hoff : off < 0x1000) (hv : vaddr.toNat = 0xc0100000 + 0x1000 * s + off)
    (hpalloc : palloc m.kernelPool = .ok (p, pool)) (hp : p ≠ 0)
    (hret : pageTableAdd t vaddr p { m with kernelPool := pool } = .ok m') :
    FrameInv m' dirs ∧ Kept dirs m m' := by
  have hspaces := h.tables.spaces
  obtain ⟨hdir, -, -⟩ := heap_fields hoff hv
  have hstep := (OsKernel.heapTurn hspaces hd hs hoff hv hpalloc hp hret).1
  rcases palloc_taken hspaces.pools.ok hpalloc with ⟨hzero, -, -⟩ | ⟨-, htaken⟩
  · exact absurd hzero hp
  have hpools : KernelPools { m.toPools with kernelPool := pool } :=
    ⟨htaken.ok hspaces.pools.ok, htaken.start ▸ hspaces.pools.phyAddrStart,
      hspaces.pools.vaddrStart, hspaces.pools.vaddrSize⟩
  have h₀ : Spaces { m with kernelPool := pool } dirs :=
    hspaces.congr hpools (fun f hf => ((htaken.rest f).mp hf).1) fun _ _ => .refl m.ram
  have hlt := heapDir_lt hs
  have hend : kernelEnd ({ m with kernelPool := pool } : Memory).toPools = kernelEnd m.toPools :=
    congrArg (fun n => poolStart + 0x1000 * n) htaken.area.size
  have hput := pageTableAdd_put h₀ hd (hdir ▸ hlt) (hend ▸ h.tables.dirs_low _ hd)
    (fun hpresent => hend ▸ (h.tables.table_low hd (hdir ▸ hlt) hpresent).1) (fun habsent => by
    rw [hdir, (h₀.heap_dir hd hs).1] at habsent
    cases habsent) hret
  refine h.put .kernel htaken hput (hstep.tables h.tables) hd (hdir ▸ hlt)
    (tableIndex_lt vaddr) fun _ => ?_
  rw [hdir]
  unfold heapDir
  omega

/-- A page of a process. -/
theorem FrameInv.userTurn (h : FrameInv m dirs) (hd : m.cr3 t ∈ dirs)
    (htaken : Taken m.userPool p.toNat pool) (hv : dirIndex vaddr < 768)
    (hroom : present (dirEntry (m.cr3 t) m.ram (dirIndex vaddr)) = false →
      0 < m.kernelPool.freeFrames)
    (hret : pageTableAdd t vaddr p { m with userPool := pool } = .ok m') :
    FrameInv m' dirs ∧ Kept dirs m m' ∧ UserPage t vaddr p { m with userPool := pool } m' ∧
      MapsFrame m' (m.cr3 t) (dirIndex vaddr) (tableIndex vaddr) p.toNat := by
  have h₀ := h.tables.takeUser htaken (htaken.ok h.tables.userOk)
  obtain ⟨haligned, hlow, -⟩ := h.tables.userOk.free htaken.free
  have hhigh := Nat.le_trans h.tables.apart hlow
  obtain ⟨h', hpage⟩ := OsKernel.userTurn h₀ hd hv haligned hhigh hroom hret
  have hi : dirIndex vaddr < 1023 := by omega
  have hput := pageTableAdd_put h₀.spaces hd hi (h₀.dirs_low _ hd)
    (fun hpresent => (h₀.table_low hd hi hpresent).1) hroom hret
  obtain ⟨hframes, hkept⟩ :=
    h.put .user htaken hput h' hd hi (tableIndex_lt vaddr) nofun
  have hself : tableEntry (m.cr3 t) m'.ram (dirIndex vaddr) (tableIndex vaddr) = entryOf p := hpage.self
  refine ⟨hframes, hkept, hpage, hi, tableIndex_lt vaddr, hpage.dir_self, ?_, ?_⟩
  · rw [hself]
    exact present_entryOf haligned
  · rw [hself]
    exact frame_entryOf haligned

/-- **The loop of `malloc_page`** on heap pages. -/
theorem mallocLoop_heapFrames {s : Nat} {complete : Bool} (h : FrameInv m dirs)
    (hd : m.cr3 t ∈ dirs) (hs : s + cnt ≤ 0x10000)
    (hret : mallocLoop t .kernel cnt (heapAddr s) m = .ok (complete, m')) :
    FrameInv m' dirs ∧ Kept dirs m m' := by
  induction cnt generalizing s m with
  | zero =>
    cases hret
    exact ⟨h, .refl _ _⟩
  | succ cnt ih =>
    obtain ⟨⟨p, pool⟩, hpalloc, hret⟩ := bind_eq_ok.mp hret
    dsimp only at hret
    rcases palloc_taken h.tables.spaces.pools.ok hpalloc with ⟨rfl, rfl, -⟩ | ⟨hne, -⟩
    · cases hret
      exact ⟨h, .refl _ _⟩
    · rw [if_neg hne] at hret
      obtain ⟨m₁, hadd, hrest⟩ := bind_eq_ok.mp hret
      have hlt : s < 0x10000 := by omega
      have haddr := heapAddr_toNat hlt
      obtain ⟨h₁, hkept₁⟩ := h.heapTurn hd hlt (Nat.succ_pos 0xfff) haddr hpalloc hne hadd
      have hstep := (OsKernel.heapTurn h.tables.spaces hd hlt (Nat.succ_pos 0xfff) haddr hpalloc hne
        hadd).1
      rw [heapAddr_succ] at hrest
      obtain ⟨h', hkept⟩ := ih h₁ (hstep.cr3 ▸ hd) (by omega) hrest
      exact ⟨h', hkept₁.trans hkept⟩

/-- A page of an area of user addresses is mapped to the frame. -/
def PageMaps (m : Memory) (d : Nat) (vaddr : UInt32) (k f : Nat) : Prop :=
  MapsFrame m d ((vaddr.toNat + 0x1000 * k) / 0x400000)
    ((vaddr.toNat + 0x1000 * k) / 0x1000 % 0x400) f

theorem PageMaps.userBytes {k f : Nat} (haligned : vaddr.toNat % 0x1000 = 0)
    (h : PageMaps m d vaddr (k / 0x1000) f) : userBytes d m.ram vaddr k = f + k % 0x1000 := by
  have hdir : (vaddr.toNat + 0x1000 * (k / 0x1000)) / 0x400000 = (vaddr.toNat + k) / 0x400000 := by
    omega
  have htable : (vaddr.toNat + 0x1000 * (k / 0x1000)) / 0x1000 % 0x400 =
      (vaddr.toNat + k) / 0x1000 % 0x400 := by omega
  rw [PageMaps, hdir, htable] at h
  rw [OsKernel.userBytes, h.frame]

theorem UserRange.pageAddr_aligned {va : VirtualAddr} (h : UserRange va) (start : Nat) :
    (va.pageAddr start).toNat % 0x1000 = 0 := by
  have haligned := h.aligned
  rw [VirtualAddr.pageAddr, UInt32.toNat_add, UInt32.toNat_mul, UInt32.toNat_ofNat']
  show (va.vaddrStart.toNat + start % 2 ^ 32 * 0x1000 % 2 ^ 32) % 2 ^ 32 % 0x1000 = 0
  omega

/-- **The loop of `malloc_page`** on user pages, when there are frames for the tables. The pages get
frames that were free. -/
theorem mallocLoop_userFrames {complete : Bool} (h : FrameInv m dirs) (hd : m.cr3 t ∈ dirs)
    (hbound : vaddr.toNat + 0x1000 * cnt ≤ 0xc0000000)
    (hserved : TablesServed m (m.cr3 t) vaddr (min cnt m.userPool.freeFrames))
    (hret : mallocLoop t .user cnt vaddr m = .ok (complete, m')) :
    FrameInv m' dirs ∧ Kept dirs m m' ∧ (complete = true → ∀ k, k < cnt →
      ∃ f, m.userPool.FreeFrame f ∧ PageMaps m' (m.cr3 t) vaddr k f) := by
  induction cnt generalizing vaddr m with
  | zero =>
    cases hret
    exact ⟨h, .refl _ _, fun _ k hk => absurd hk (Nat.not_lt_zero k)⟩
  | succ cnt ih =>
    obtain ⟨⟨p, pool⟩, hpalloc, hret⟩ := bind_eq_ok.mp hret
    dsimp only at hret
    rcases palloc_taken h.tables.userOk hpalloc with ⟨rfl, rfl, -⟩ | ⟨hne, htaken⟩
    · cases hret
      exact ⟨h, .refl _ _, nofun⟩
    · rw [if_neg hne] at hret
      obtain ⟨m₁, hadd, hrest⟩ := bind_eq_ok.mp hret
      have hmin : min (cnt + 1) m.userPool.freeFrames = min cnt pool.freeFrames + 1 := by
        have hcount := htaken.count
        omega
      rw [hmin] at hserved
      obtain ⟨h₁, hkept₁, hpage, hself⟩ := h.userTurn hd htaken (by unfold dirIndex; omega)
        (fun habsent => hserved.room habsent) hadd
      have hcr3 : m₁.cr3 = m.cr3 := hpage.cr3
      have huser : m₁.userPool = pool := hpage.userPool
      have hnext : (vaddr + pgSize).toNat = vaddr.toNat + 0x1000 := by
        rw [UInt32.toNat_add]
        show (vaddr.toNat + 0x1000) % 2 ^ 32 = _
        omega
      have hserved₀ : TablesServed { m with userPool := pool } (m.cr3 t) vaddr
        (min cnt pool.freeFrames + 1) := hserved
      have hmax : vaddr.toNat + 0x1000 * (min cnt pool.freeFrames + 1) ≤ 0xc0000000 :=
        Nat.le_trans (Nat.add_le_add_left (Nat.mul_le_mul_left 0x1000
          (Nat.succ_le_succ (Nat.min_le_left cnt pool.freeFrames))) _) hbound
      have hserved₁ := hserved₀.rest hpage hmax
      rw [← huser, show ({ m with userPool := pool } : Memory).cr3 t = m₁.cr3 t by rw [hcr3]]
        at hserved₁
      obtain ⟨h', hkept, hpages⟩ := ih h₁ (hcr3 ▸ hd) (by omega) hserved₁ hrest
      refine ⟨h', hkept₁.trans hkept, fun hcomplete k hk => ?_⟩
      cases k with
      | zero => exact ⟨p.toNat, htaken.free, hkept.maps _ hd _ _ _ hself⟩
      | succ k =>
        obtain ⟨f, hfree, hmaps⟩ := hpages hcomplete k (by omega)
        refine ⟨f, hkept₁.free f hfree, ?_⟩
        have hstep : vaddr.toNat + 0x1000 + 0x1000 * k = vaddr.toNat + 0x1000 * (k + 1) := by omega
        rw [PageMaps, hnext, hcr3, hstep] at hmaps
        exact hmaps

/-- `malloc_page` for the kernel. -/
theorem mallocPage_heapFrames (h : FrameInv m dirs) (hd : m.cr3 t ∈ dirs)
    (hret : mallocPage t .kernel n m = .ok (a, m')) : FrameInv m' dirs ∧ Kept dirs m m' := by
  have hpools := h.tables.spaces.pools
  have hpos := (mallocPage_cnt hret).1
  obtain ⟨_, -, hret⟩ := bind_eq_ok.mp hret
  obtain ⟨⟨addrStart, m₁⟩, hvaddr, hret⟩ := bind_eq_ok.mp hret
  obtain ⟨⟨complete, m₂⟩, hloop, hret⟩ := bind_eq_ok.mp hret
  cases hret
  cases hscan : bitmapScan (m.vaddrs t .kernel).vaddrBitmap n.toNat with
  | none =>
    rw [vaddrGet_none hscan] at hvaddr
    cases hvaddr
    have hok : (m.pool .kernel).Ok := hpools.ok
    rw [(mallocLoop_null hok hloop).1]
    exact ⟨h, .refl _ _⟩
  | some s =>
    have hfit := bitmapScan_spec (m.vaddrs t .kernel).vaddrBitmap hpos
    rw [hscan] at hfit
    have hbound : s + n.toNat ≤ m.kernelVaddr.vaddrBitmap.size := hfit.bound
    have hsize := hpools.vaddrSize
    obtain ⟨btmp, harea, -, heq⟩ := vaddrGet_some hpos hscan
    rw [heq] at hvaddr
    cases hvaddr
    have hreserve := HeapStep.reserve hpools harea
    obtain ⟨h₁, hkept₁⟩ := h.sameRam (hreserve.tables h.tables) rfl rfl rfl
    have haddr : (m.vaddrs t .kernel).pageAddr s = heapAddr s := by
      rw [VirtualAddr.pageAddr, heapAddr]
      congr 1
      exact hpools.vaddrStart
    rw [haddr] at hloop
    obtain ⟨h₂, hkept₂⟩ := mallocLoop_heapFrames h₁ hd (by omega) hloop
    exact ⟨h₂, hkept₁.trans hkept₂⟩

/-- **`get_kernel_pages`**. -/
theorem getKernelPages_frames (h : FrameInv m dirs) (hd : m.cr3 t ∈ dirs)
    (hret : getKernelPages t n m = .ok (a, m')) : FrameInv m' dirs ∧ Kept dirs m m' := by
  have hm := h.tables.spaces
  have h' := (getKernelPages_step hm hd hret).1.tables h.tables
  obtain ⟨⟨vaddr, m₁⟩, hmalloc, hret⟩ := bind_eq_ok.mp hret
  have hn := (mallocPage_cnt hmalloc).2
  obtain ⟨hstep, hblock⟩ := mallocPage_step hm hd hmalloc
  obtain ⟨h₁, hkept₁⟩ := mallocPage_heapFrames h hd hmalloc
  dsimp only at hret
  split at hret
  · next hne =>
    obtain ⟨ram', hmemset, hret⟩ := bind_eq_ok.mp hret
    cases hret
    obtain ⟨s, hs, hbound, -, hpages⟩ := hblock hne
    have hsize := hm.pools.vaddrSize
    have hbytes : (n * pgSize).toNat = 0x1000 * n.toNat := by
      rw [UInt32.toNat_mul]
      show n.toNat * 0x1000 % 2 ^ 32 = _
      omega
    -- only the new pages are cleared
    have hmapped := hstep.mapped hm hd (by omega) hpages
    rw [← hbytes] at hmapped
    obtain ⟨ram₂, hfill, hfilled⟩ := memset_filled 0 (hs ▸ hne) hmapped
    rw [hs, hstep.cr3, hfill] at hmemset
    cases hmemset
    rw [hbytes] at hfilled
    have hfills := heapBytes_fillsFree hm.pools hpages hfilled.outside
    obtain ⟨h₂, hkept₂⟩ := h₁.fillFree hm hstep hfills h'
    exact ⟨h₂, hkept₁.trans hkept₂⟩
  · cases hret
    exact ⟨h₁, hkept₁⟩

/-- **`get_user_pages`**, when there are frames for the page tables. -/
theorem getUserPages_frames (h : FrameInv m dirs) (hd : m.cr3 t ∈ dirs)
    (hserved : ∀ start, bitmapScan (m.userprogVaddr t).vaddrBitmap n.toNat = some start →
      TablesServed m (m.cr3 t) ((m.userprogVaddr t).pageAddr start)
        (min n.toNat m.userPool.freeFrames))
    (hret : getUserPages t n m = .ok (a, m')) : FrameInv m' dirs ∧ Kept dirs m m' := by
  rcases getUserPages_inv h.tables hd (Or.inl hserved) hret with
    rfl | ⟨start, btmp, _, m₂, ram, hscan, harea, hbound, hloop, -, rfl, hlow, hout⟩
  · exact ⟨h, .refl _ _⟩
  · obtain ⟨h₁, hkept₁⟩ := h.sameRam (h.tables.setVaddrs t harea) rfl rfl rfl
    obtain ⟨h₂, hkept₂, hpages⟩ := mallocLoop_userFrames h₁ hd hbound (hserved start hscan) hloop
    obtain ⟨h₃, hmaps₃⟩ := h₂.fill hlow
    have hkept := hkept₁.trans hkept₂
    refine ⟨h₃, fun d hd i j f hmaps => ?_, hkept.size, hkept.free, fun x hx hused => ?_⟩
    · exact (hmaps₃ d hd i j f).mpr (hkept.maps d hd i j f hmaps)
    · refine (hout x fun hcomplete i hi heq => hused ?_).trans (hkept.data x hx hused)
      -- only pages are cleared that had just been free
      obtain ⟨f, hfree, hmaps⟩ := hpages hcomplete (i / 0x1000) (by omega)
      have hfree₀ : m.userPool.FreeFrame f := hfree
      have haligned := (h.tables.userOk.free hfree₀).1
      have hplace : userBytes (m.cr3 t) m₂.ram ((m.userprogVaddr t).pageAddr start) i =
          f + i % 0x1000 := hmaps.userBytes ((h.tables.users t).pageAddr_aligned start)
      have hpage : x / 0x1000 * 0x1000 = f := by omega
      exact hpage ▸ hfree₀

/-- **`get_a_page`**, when there is a frame for the page table. -/
theorem getAPage_frames {pf : PoolFlags} (h : FrameInv m dirs) (hd : m.cr3 t ∈ dirs)
    (hserved : pf = .user → TablesServed m (m.cr3 t) vaddr (min 1 m.userPool.freeFrames))
    (hret : getAPage t pf vaddr m = .ok (a, m')) : FrameInv m' dirs ∧ Kept dirs m m' := by
  obtain ⟨_, -, hret⟩ := bind_eq_ok.mp hret
  obtain ⟨_, -, hret⟩ := bind_eq_ok.mp hret
  obtain ⟨btmp, hset, hret⟩ := bind_eq_ok.mp hret
  obtain ⟨⟨p, pool⟩, hpalloc, hret⟩ := bind_eq_ok.mp hret
  obtain ⟨hbit, harea⟩ := bitmapSet_page hset
  have hpage : (pgSize : UInt32).toNat = 0x1000 := rfl
  rw [UInt32.toNat_div, hpage] at hbit
  have hv := vaddr.toNat_lt
  cases pf with
  | kernel =>
    have hpools := h.tables.spaces.pools
    have hstart : (m.vaddrs t .kernel).vaddrStart = kHeapStart := hpools.vaddrStart
    have hheap : kHeapStart.toNat = 0xc0100000 := rfl
    have hsize : (m.vaddrs t .kernel).vaddrBitmap.size < 0x10000 := hpools.vaddrSize
    have hreserve := HeapStep.reserve hpools harea
    obtain ⟨h₁, hkept₁⟩ := h.sameRam (hreserve.tables h.tables) rfl rfl rfl
    rcases palloc_taken hpools.ok hpalloc with ⟨rfl, rfl, -⟩ | ⟨hne, -⟩
    · cases hret
      exact ⟨h₁, hkept₁⟩
    · simp only [if_neg hne] at hret
      obtain ⟨m₂, hadd, hret⟩ := bind_eq_ok.mp hret
      cases hret
      rw [hstart, UInt32.toNat_sub, hheap] at hbit
      have haddr : vaddr.toNat = 0xc0100000 +
          0x1000 * ((2 ^ 32 - 0xc0100000 + vaddr.toNat) % 2 ^ 32 / 0x1000) +
          vaddr.toNat % 0x1000 := by omega
      obtain ⟨h₂, hkept₂⟩ :=
        h₁.heapTurn hd (by omega) (Nat.mod_lt _ (by decide)) haddr hpalloc hne hadd
      exact ⟨h₂, hkept₁.trans hkept₂⟩
  | user =>
    have hrange := h.tables.users t
    have hbound := hrange.bound
    obtain ⟨h₁, hkept₁⟩ := h.sameRam (h.tables.setVaddrs t harea) rfl rfl rfl
    rcases palloc_taken h.tables.userOk hpalloc with ⟨rfl, rfl, -⟩ | ⟨hne, htaken⟩
    · cases hret
      exact ⟨h₁, hkept₁⟩
    · simp only [if_neg hne] at hret
      obtain ⟨m₂, hadd, hret⟩ := bind_eq_ok.mp hret
      cases hret
      have hone : min 1 m.userPool.freeFrames = 0 + 1 := by
        have hpos := Pool.freeFrames_pos htaken.free
        omega
      have hserved₁ := hserved rfl
      rw [hone] at hserved₁
      have hlt : dirIndex vaddr < 768 := by
        have hnat : (vaddr - (m.userprogVaddr t).vaddrStart).toNat / 0x1000 <
          (m.userprogVaddr t).vaddrBitmap.size := hbit
        rw [UInt32.toNat_sub] at hnat
        unfold dirIndex
        omega
      obtain ⟨h₂, hkept₂, -, -⟩ :=
        h₁.userTurn hd htaken hlt (fun habsent => hserved₁.room habsent) hadd
      exact ⟨h₂, hkept₁.trans hkept₂⟩

/-- `create_page_dir` on its way to the new directory. -/
theorem createPageDir_frames (h : FrameInv m dirs) (hd : m.cr3 t ∈ dirs)
    (hret : createPageDir t m = .ok (a, m')) : FrameInv m' dirs ∧ Kept dirs m m' := by
  have hm := h.tables.spaces
  have h' := (createPageDir_step hm hd hret).1.tables h.tables
  obtain ⟨m₁, ram, hpages, rfl, hfills, -⟩ := createPageDir_fills hm hd hret
  obtain ⟨h₁, hkept₁⟩ := getKernelPages_frames h hd hpages
  obtain ⟨h₂, hkept₂⟩ := h₁.fillFree hm (getKernelPages_step hm hd hpages).1 hfills h'
  exact ⟨h₂, hkept₁.trans hkept₂⟩

/-- `create_user_vaddr_bitmap`. -/
theorem createUserVaddrBitmap_frames {userVaddrStart : UInt32}
    (hstart : userVaddrStart.toNat ≤ 0xc0000000) (halign : userVaddrStart.toNat % 0x1000 = 0)
    {userProg : Tid} (h : FrameInv m dirs) (hd : m.cr3 t ∈ dirs)
    (hret : createUserVaddrBitmap userVaddrStart t userProg m = .ok m') :
    FrameInv m' dirs ∧ Kept dirs m m' := by
  have h' := createUserVaddrBitmap_tables hstart halign h.tables hd hret
  obtain ⟨⟨bits, m₁⟩, hpages, hret⟩ := bind_eq_ok.mp hret
  obtain ⟨_, -, hret⟩ := bind_eq_ok.mp hret
  cases hret
  obtain ⟨h₁, hkept₁⟩ := getKernelPages_frames h hd hpages
  obtain ⟨h₂, hkept₂⟩ := h₁.sameRam h' rfl rfl rfl
  exact ⟨h₂, hkept₁.trans hkept₂⟩

/-- **A new directory** shares the entries of the kernel half. -/
theorem FrameInv.newDir (h : FrameInv m dirs) {q : UInt32}
    (h' : TableInv m (q.toNat :: dirs)) (hnew : NewDir m.ram q) :
    FrameInv m (q.toNat :: dirs) := by
  have hzero : present 0 = false := rfl
  have hkernel : ∀ i j f, MapsFrame m q.toNat i j f → 768 ≤ i ∧ MapsFrame m pageDirTablePos i j f ∧
      entryPlace pageDirTablePos m.ram i j = entryPlace q.toNat m.ram i j := by
    intro i j f hmaps
    have hi : 768 ≤ i := by
      by_contra hlt
      have hpresent := hmaps.dir_present
      rw [hnew.user i (by omega), hzero] at hpresent
      cases hpresent
    have hsame : dirEntry pageDirTablePos m.ram i = dirEntry q.toNat m.ram i := by
      rw [hnew.kernel i hi hmaps.dir, h.tables.spaces.kernel _ h.tables.boot i hi hmaps.dir]
    have htable : tableEntry pageDirTablePos m.ram i j = tableEntry q.toNat m.ram i j := by
      rw [tableEntry, hsame, tableEntry]
    refine ⟨hi, ⟨hmaps.dir, hmaps.table, ?_, ?_, ?_⟩, ?_⟩
    · rw [hsame]
      exact hmaps.dir_present
    · rw [htable]
      exact hmaps.present
    · rw [htable]
      exact hmaps.frame
    · rw [entryPlace, hsame, entryPlace]
  refine ⟨h', h.ledger.mono ?_ fun _ hf => hf, ?_, ?_, ?_⟩
  · rintro p f ⟨hlo, d, hd, i, j, hmaps, hplace⟩
    rcases List.mem_cons.mp hd with rfl | hd
    · obtain ⟨-, hboot, hsame⟩ := hkernel i j f hmaps
      exact ⟨hlo, pageDirTablePos, h.tables.boot, i, j, hboot, hsame.trans hplace⟩
    · exact ⟨hlo, d, hd, i, j, hmaps, hplace⟩
  · intro d hd i j f hmade hmaps
    rcases List.mem_cons.mp hd with rfl | hd
    · obtain ⟨hi, -, -⟩ := hkernel i j f hmaps
      have huser := hmade.user
      omega
    · exact h.user d hd i j f hmade hmaps
  · intro d hd i hi hpresent
    rcases List.mem_cons.mp hd with rfl | hd
    · by_cases huser : i < 768
      · rw [hnew.user i huser, hzero] at hpresent
        cases hpresent
      · by_cases hlast : i < 1023
        · have hboot := h.tables.spaces.kernel _ h.tables.boot i (by omega) hlast
          rw [hnew.kernel i (by omega) hlast, ← hboot] at hpresent ⊢
          exact h.dir_bits _ h.tables.boot i hi hpresent
        · have heq : i = 1023 := by omega
          rw [heq, hnew.last]
          exact userBits_entryOf (h'.spaces.aligned hd)
    · exact h.dir_bits d hd i hi hpresent
  · intro d hd i j f hmaps
    rcases List.mem_cons.mp hd with rfl | hd
    · obtain ⟨hi, hboot, -⟩ := hkernel i j f hmaps
      have hlt := hmaps.dir
      have hsame : dirEntry pageDirTablePos m.ram i = dirEntry q.toNat m.ram i := by
        rw [hnew.kernel i hi hlt, h.tables.spaces.kernel _ h.tables.boot i hi hlt]
      rw [tableEntry, ← hsame, ← tableEntry]
      exact h.table_bits _ h.tables.boot i j f hboot
    · exact h.table_bits d hd i j f hmaps

end Calls

/-! ## Runs -/

section Runs

variable {allMem userVaddrStart : UInt32} {m : Memory} {dirs : List Nat} {s s' : SpaceRun}

theorem bootDirEntry_bits {i : Nat} (h : present (bootDirEntry i) = true) :
    UserBits (bootDirEntry i) := by
  unfold bootDirEntry at h ⊢
  split_ifs at h ⊢ with hshared hlast hkernel
  · exact (rfl : (0x101007 : UInt32).toNat % 8 = 7)
  · exact (rfl : (0x100007 : UInt32).toNat % 8 = 7)
  · rw [UserBits, UInt32.toNat_ofNat']
    omega
  · cases h

/-- The boot loader maps no frame of a pool. -/
theorem PageStart.frames (h : PageStart allMem s) (hmem : 0x200000 ≤ allMem.toNat) :
    FrameInv s.mem s.dirs := by
  have htables := h.tables hmem
  have honly : ∀ d ∈ s.dirs, d = pageDirTablePos := by
    intro d hd
    rw [h.dirs] at hd
    exact List.mem_singleton.mp hd
  obtain ⟨ram, -, hram⟩ := h.ram
  refine ⟨htables, .empty ?_, ?_, ?_, ?_⟩
  · rintro p f ⟨hlo, d, hd, i, j, hmaps, -⟩
    have hlow := h.maps_low (honly d hd ▸ hmaps)
    omega
  · intro d hd i j f hmade hmaps
    have hlow := h.maps_low (honly d hd ▸ hmaps)
    -- there is no such table yet
    have hpresent := hmade.present
    rw [honly d hd, h.absent (hmade.made (honly d hd)) hmade.user] at hpresent
    cases hpresent
  · intro d hd i hi hpresent
    rw [honly d hd, hram, setupPage_dir ram hi] at hpresent ⊢
    exact bootDirEntry_bits hpresent
  · intro d hd i j f hmaps
    obtain ⟨hj, hentry⟩ := h.maps_entry (honly d hd ▸ hmaps)
    rw [honly d hd, hentry, UserBits, UInt32.toNat_ofNat']
    omega

/-- cr3 has no part in it. -/
theorem FrameInv.activate (h : FrameInv m dirs) (t : Tid) (d : Nat) :
    FrameInv (m.activate t d) dirs ∧ Kept dirs m (m.activate t d) :=
  h.sameRam (h.tables.activate t d) rfl rfl rfl

/-- **One call** for whose page tables there are frames. -/
theorem PageOp.exec_frames (hstart : userVaddrStart.toNat ≤ 0xc0000000)
    (halign : userVaddrStart.toNat % 0x1000 = 0) {t : Tid} {op : PageOp}
    (h : FrameInv s.mem s.dirs) (ht : s.mem.cr3 t ∈ s.dirs)
    (hserved : op.Served t (s.mem.cr3 t) s.mem) (hret : op.exec userVaddrStart t s = .ok s') :
    FrameInv s'.mem s'.dirs ∧ Kept s.dirs s.mem s'.mem ∧ s.dirs ⊆ s'.dirs := by
  cases op with
  | newDir =>
    have h' := PageOp.exec_tables hstart halign h.tables ht (Or.inl hserved) hret
    obtain ⟨-, hdirs⟩ := newDir_exec h.tables.spaces ht hret
    obtain ⟨⟨a, m⟩, hcreate, hret⟩ := bind_eq_ok.mp hret
    have hmem : s'.mem = m := by
      dsimp only at hret
      split at hret
      · cases hret
        rfl
      · obtain ⟨_, -, hret⟩ := bind_eq_ok.mp hret
        cases hret
        rfl
    obtain ⟨h₁, hkept⟩ := createPageDir_frames h ht hcreate
    rw [← hmem] at h₁ hkept
    rcases hdirs with hsame | ⟨page, q, -, hnew, hdirs⟩
    · rw [hsame]
      exact ⟨h₁, hkept, fun _ hd => hd⟩
    · rw [hdirs] at h' ⊢
      exact ⟨h₁.newDir h' hnew, hkept, List.subset_cons_self _ _⟩
  | newUserVaddr userProg =>
    obtain ⟨m, hcreate, hret⟩ := bind_eq_ok.mp hret
    cases hret
    obtain ⟨h₁, hkept⟩ := createUserVaddrBitmap_frames hstart halign h ht hcreate
    exact ⟨h₁, hkept, fun _ hd => hd⟩
  | kernelPages n =>
    obtain ⟨⟨a, m⟩, hpages, hret⟩ := bind_eq_ok.mp hret
    cases hret
    obtain ⟨h₁, hkept⟩ := getKernelPages_frames h ht hpages
    exact ⟨h₁, hkept, fun _ hd => hd⟩
  | userPages n =>
    obtain ⟨⟨a, m⟩, hpages, hret⟩ := bind_eq_ok.mp hret
    cases hret
    obtain ⟨h₁, hkept⟩ := getUserPages_frames h ht hserved hpages
    exact ⟨h₁, hkept, fun _ hd => hd⟩
  | aPage pf vaddr =>
    obtain ⟨⟨a, m⟩, hpage, hret⟩ := bind_eq_ok.mp hret
    cases hret
    obtain ⟨h₁, hkept⟩ := getAPage_frames h ht (fun hpf => by
      rw [hpf] at hserved
      exact hserved) hpage
    exact ⟨h₁, hkept, fun _ hd => hd⟩

/-- One event of a run. -/
theorem pageRuns_step (hstart : userVaddrStart.toNat ≤ 0xc0000000)
    (halign : userVaddrStart.toNat % 0x1000 = 0) {e : PageEvent} (h : FrameInv s.mem s.dirs)
    (hcall : ServedCall s e) (hret : e.op.exec userVaddrStart e.thread
      { s with mem := s.mem.activate e.thread e.dir } = .ok s') :
    FrameInv s'.mem s'.dirs ∧ Kept s.dirs s.mem s'.mem ∧ s.dirs ⊆ s'.dirs := by
  obtain ⟨hdir, hserved⟩ := hcall
  have hcr3 := activate_cr3 s.mem e.thread e.dir
  obtain ⟨h₁, hkept₁⟩ := h.activate e.thread e.dir
  obtain ⟨h', hkept, hsub⟩ := PageOp.exec_frames
    (s := { s with mem := s.mem.activate e.thread e.dir }) hstart halign
    h₁ (hcr3.symm ▸ hdir) (hcr3.symm ▸ hserved) hret
  exact ⟨h', hkept₁.trans hkept, hsub⟩

/-- **Every run** keeps the frames apart. -/
theorem pageRuns_frames (hmem : 0x200000 ≤ allMem.toNat)
    (hstart : userVaddrStart.toNat ≤ 0xc0000000) (halign : userVaddrStart.toNat % 0x1000 = 0)
    (hs : (pageRuns allMem userVaddrStart).Reach ServedCall s) : FrameInv s.mem s.dirs := by
  induction hs with
  | init h => exact PageStart.frames h hmem
  | step _ hcall hstep ih => exact (pageRuns_step hstart halign ih hcall (Option.some.inj hstep)).1

/-- **Later calls** keep what is mapped. -/
theorem laterCalls_kept (hstart : userVaddrStart.toNat ≤ 0xc0000000)
    (halign : userVaddrStart.toNat % 0x1000 = 0) (h : FrameInv s.mem s.dirs)
    (hs' : ((pageRuns allMem userVaddrStart).startAt s).Reach ServedCall s') :
    FrameInv s'.mem s'.dirs ∧ Kept s.dirs s.mem s'.mem ∧ s.dirs ⊆ s'.dirs := by
  induction hs' with
  | init heq =>
    cases heq
    exact ⟨h, .refl _ _, fun _ hd => hd⟩
  | @step s₁ s₂ e _ hcall hstep ih =>
    obtain ⟨h₁, hkept₁, hsub₁⟩ := ih
    obtain ⟨h₂, hkept₂, hsub₂⟩ := pageRuns_step hstart halign h₁ hcall (Option.some.inj hstep)
    exact ⟨h₂, hkept₁.trans (hkept₂.sub hsub₁), fun _ hd => hsub₂ (hsub₁ hd)⟩

end Runs

/-! ## Isolation -/

/-- An address of a process; the first 4 MB of the boot loader's directory are the kernel's. -/
def UserAddress (d : Nat) (vaddr : UInt32) : Prop :=
  vaddr.toNat < 0xc0000000 ∧ (d = pageDirTablePos → 0x400000 ≤ vaddr.toNat)

/-! ## pgdir and the frames of kernel_pool -/

section Pgdir

variable {t : Tid} {m m' : Memory} {vaddr n a p : UInt32} {pf : PoolFlags} {cnt : Nat}

theorem pageTableAdd_pgdir (hret : pageTableAdd t vaddr p m = .ok m') : m'.pgdir = m.pgdir := by
  obtain ⟨_, -, hret⟩ := bind_eq_ok.mp hret
  obtain ⟨_, -, hret⟩ := bind_eq_ok.mp hret
  obtain ⟨_, -, hret⟩ := bind_eq_ok.mp hret
  split at hret
  · obtain ⟨_, -, hret⟩ := bind_eq_ok.mp hret
    obtain ⟨_, -, hret⟩ := bind_eq_ok.mp hret
    obtain ⟨_, -, hret⟩ := bind_eq_ok.mp hret
    cases hret
    rfl
  · obtain ⟨_, -, hret⟩ := bind_eq_ok.mp hret
    obtain ⟨_, -, hret⟩ := bind_eq_ok.mp hret
    obtain ⟨_, -, hret⟩ := bind_eq_ok.mp hret
    obtain ⟨_, -, hret⟩ := bind_eq_ok.mp hret
    obtain ⟨_, -, hret⟩ := bind_eq_ok.mp hret
    obtain ⟨_, -, hret⟩ := bind_eq_ok.mp hret
    cases hret
    rfl

theorem setPool_pgdir (m : Memory) (pool : Pool) (pf : PoolFlags) :
    (m.setPool pool pf).pgdir = m.pgdir := by
  cases pf <;> rfl

theorem setVaddrs_pgdir (m : Memory) (t : Tid) (va : VirtualAddr) (pf : PoolFlags) :
    (m.setVaddrs t va pf).pgdir = m.pgdir := by
  cases pf <;> rfl

theorem mallocLoop_pgdir {complete : Bool}
    (hret : mallocLoop t pf cnt vaddr m = .ok (complete, m')) : m'.pgdir = m.pgdir := by
  induction cnt generalizing vaddr m with
  | zero =>
    cases hret
    rfl
  | succ cnt ih =>
    obtain ⟨⟨p, pool⟩, -, hret⟩ := bind_eq_ok.mp hret
    dsimp only at hret
    split at hret
    · cases hret
      exact setPool_pgdir m pool pf
    · obtain ⟨m₁, hadd, hrest⟩ := bind_eq_ok.mp hret
      exact ((ih hrest).trans (pageTableAdd_pgdir hadd)).trans (setPool_pgdir m pool pf)

theorem getPages_pgdir (hret : getPages t pf n m = .ok (a, m')) : m'.pgdir = m.pgdir := by
  obtain ⟨⟨addr, m₂⟩, hmalloc, hret⟩ := bind_eq_ok.mp hret
  have hlast : m'.pgdir = m₂.pgdir := by
    dsimp only at hret
    split at hret
    · obtain ⟨_, -, hret⟩ := bind_eq_ok.mp hret
      cases hret
      rfl
    · cases hret
      rfl
  obtain ⟨_, -, hmalloc⟩ := bind_eq_ok.mp hmalloc
  obtain ⟨⟨addrStart, m₁⟩, hvaddr, hmalloc⟩ := bind_eq_ok.mp hmalloc
  obtain ⟨⟨complete, _⟩, hloop, hmalloc⟩ := bind_eq_ok.mp hmalloc
  cases hmalloc
  have hfirst : m₁.pgdir = m.pgdir := by
    unfold vaddrGet at hvaddr
    dsimp only at hvaddr
    split at hvaddr
    · cases hvaddr
      rfl
    · obtain ⟨_, -, hvaddr⟩ := bind_eq_ok.mp hvaddr
      split at hvaddr
      · obtain ⟨_, -, hvaddr⟩ := bind_eq_ok.mp hvaddr
        cases hvaddr
        exact setVaddrs_pgdir m t _ pf
      · cases hvaddr
        exact setVaddrs_pgdir m t _ pf
  exact (hlast.trans (mallocLoop_pgdir hloop)).trans hfirst

theorem getAPage_pgdir (hret : getAPage t pf vaddr m = .ok (a, m')) : m'.pgdir = m.pgdir := by
  obtain ⟨_, -, hret⟩ := bind_eq_ok.mp hret
  obtain ⟨_, -, hret⟩ := bind_eq_ok.mp hret
  obtain ⟨_, -, hret⟩ := bind_eq_ok.mp hret
  obtain ⟨⟨p, pool⟩, -, hret⟩ := bind_eq_ok.mp hret
  have hreserve := fun va => (setPool_pgdir (m.setVaddrs t va pf) pool pf).trans
    (setVaddrs_pgdir m t va pf)
  dsimp only at hret
  split at hret
  · cases hret
    exact hreserve _
  · obtain ⟨_, hadd, hret⟩ := bind_eq_ok.mp hret
    cases hret
    exact (pageTableAdd_pgdir hadd).trans (hreserve _)

theorem createPageDir_pgdir (hret : createPageDir t m = .ok (a, m')) : m'.pgdir = m.pgdir := by
  obtain ⟨⟨_, m₁⟩, hpages, hret⟩ := bind_eq_ok.mp hret
  have hfirst : m₁.pgdir = m.pgdir := getPages_pgdir hpages
  dsimp only at hret
  split at hret
  · cases hret
    exact hfirst
  · obtain ⟨_, -, hret⟩ := bind_eq_ok.mp hret
    obtain ⟨_, -, hret⟩ := bind_eq_ok.mp hret
    obtain ⟨_, -, hret⟩ := bind_eq_ok.mp hret
    cases hret
    exact hfirst

theorem createUserVaddrBitmap_pgdir {userVaddrStart : UInt32} {userProg : Tid}
    (hret : createUserVaddrBitmap userVaddrStart t userProg m = .ok m') : m'.pgdir = m.pgdir := by
  obtain ⟨⟨_, m₁⟩, hpages, hret⟩ := bind_eq_ok.mp hret
  have hfirst : m₁.pgdir = m.pgdir := getPages_pgdir hpages
  obtain ⟨_, -, hret⟩ := bind_eq_ok.mp hret
  cases hret
  exact hfirst

/-- The calls leave `pgdir` alone. -/
theorem PageOp.exec_pgdir {userVaddrStart : UInt32} {op : PageOp} {s s' : SpaceRun}
    (hret : op.exec userVaddrStart t s = .ok s') : s'.mem.pgdir = s.mem.pgdir := by
  cases op with
  | newDir =>
    obtain ⟨⟨_, m⟩, hcreate, hret⟩ := bind_eq_ok.mp hret
    have hpgdir := createPageDir_pgdir hcreate
    dsimp only at hret
    split at hret
    · cases hret
      exact hpgdir
    · obtain ⟨_, -, hret⟩ := bind_eq_ok.mp hret
      cases hret
      exact hpgdir
  | newUserVaddr userProg =>
    obtain ⟨_, hcreate, hret⟩ := bind_eq_ok.mp hret
    cases hret
    exact createUserVaddrBitmap_pgdir hcreate
  | kernelPages n =>
    obtain ⟨⟨_, _⟩, hpages, hret⟩ := bind_eq_ok.mp hret
    cases hret
    exact getPages_pgdir hpages
  | userPages n =>
    obtain ⟨⟨_, _⟩, hpages, hret⟩ := bind_eq_ok.mp hret
    cases hret
    exact getPages_pgdir hpages
  | aPage pf vaddr =>
    obtain ⟨⟨_, _⟩, hpage, hret⟩ := bind_eq_ok.mp hret
    cases hret
    exact getAPage_pgdir hpage

/-- A page table takes one frame of `kernel_pool`. -/
theorem pageTableAdd_freeFrames (hok : m.kernelPool.Ok) (hret : pageTableAdd t vaddr p m = .ok m') :
    m.kernelPool.freeFrames ≤ m'.kernelPool.freeFrames + 1 := by
  obtain ⟨_, -, hret⟩ := bind_eq_ok.mp hret
  obtain ⟨_, -, hret⟩ := bind_eq_ok.mp hret
  obtain ⟨_, -, hret⟩ := bind_eq_ok.mp hret
  split at hret
  · obtain ⟨_, -, hret⟩ := bind_eq_ok.mp hret
    obtain ⟨_, -, hret⟩ := bind_eq_ok.mp hret
    obtain ⟨_, -, hret⟩ := bind_eq_ok.mp hret
    cases hret
    exact Nat.le_succ _
  · obtain ⟨⟨q, pool⟩, hpalloc, hret⟩ := bind_eq_ok.mp hret
    obtain ⟨_, -, hret⟩ := bind_eq_ok.mp hret
    obtain ⟨_, -, hret⟩ := bind_eq_ok.mp hret
    obtain ⟨_, -, hret⟩ := bind_eq_ok.mp hret
    obtain ⟨_, -, hret⟩ := bind_eq_ok.mp hret
    obtain ⟨_, -, hret⟩ := bind_eq_ok.mp hret
    cases hret
    rcases palloc_taken hok hpalloc with ⟨-, rfl, -⟩ | ⟨-, htaken⟩
    · exact Nat.le_succ _
    · exact htaken.count.ge

/-- So does a page of a process. -/
theorem getAPage_freeFrames (hok : m.kernelPool.Ok)
    (hret : getAPage t .user vaddr m = .ok (a, m')) :
    m.kernelPool.freeFrames ≤ m'.kernelPool.freeFrames + 1 := by
  obtain ⟨_, -, hret⟩ := bind_eq_ok.mp hret
  obtain ⟨_, -, hret⟩ := bind_eq_ok.mp hret
  obtain ⟨_, -, hret⟩ := bind_eq_ok.mp hret
  obtain ⟨⟨p, pool⟩, -, hret⟩ := bind_eq_ok.mp hret
  dsimp only at hret
  split at hret
  · cases hret
    exact Nat.le_succ _
  · obtain ⟨_, hadd, hret⟩ := bind_eq_ok.mp hret
    cases hret
    exact @pageTableAdd_freeFrames _ ((m.setVaddrs t _ .user).setPool pool .user) _ _ _ hok hadd

end Pgdir

/-- Nothing that a user address leads to can be reached through another address, of the same process,
of another one, or of the kernel. -/
structure Isolated (m : Memory) (dirs : List Nat) : Prop where
  apart : ∀ d ∈ dirs, ∀ d' ∈ dirs, ∀ v v' a, UserAddress d v → UserAddress d' v' →
    translate d m.ram v = .ok a → translate d' m.ram v' = .ok a → d = d' ∧ v = v'
  /-- the heap and, through the window, directories and page tables -/
  kernel : ∀ d ∈ dirs, ∀ d' ∈ dirs, ∀ v v' a, UserAddress d v → 0xc0000000 ≤ v'.toNat →
    translate d m.ram v = .ok a → translate d' m.ram v' ≠ .ok a
  /-- The frame is not the kernel's, and will not be handed out again. -/
  frame : ∀ d ∈ dirs, ∀ v a, UserAddress d v → translate d m.ram v = .ok a →
    kernelEnd m.toPools ≤ a ∧ ¬ m.userPool.FreeFrame (a / 0x1000 * 0x1000)

section Isolated

variable {allMem userVaddrStart : UInt32} {m : Memory} {dirs : List Nat} {d d' : Nat} {v : UInt32}
  {a : Nat}

/-- The page of an address, outside the window. -/
theorem translate_maps (hv : v.toNat < 0xffc00000) (htrans : translate d m.ram v = .ok a) :
    ∃ f, MapsFrame m d (dirIndex v) (tableIndex v) f ∧ a = f + v.toNat % 0x1000 ∧
      f % 0x1000 = 0 := by
  rcases translate_cases d m.ram v with ⟨hdir, htable, hok⟩ | ⟨-, herror⟩
  · rw [htrans] at hok
    refine ⟨_, ⟨?_, tableIndex_lt v, hdir, htable, rfl⟩, Except.ok.inj hok, frame_aligned _⟩
    unfold dirIndex
    omega
  · rw [htrans] at herror
    cases herror

/-- A user address is behind a table that `page_table_add` has made. -/
theorem UserAddress.made {f : Nat} (h : UserAddress d v)
    (hmaps : MapsFrame m d (dirIndex v) (tableIndex v) f) : MadeTable m d (dirIndex v) := by
  obtain ⟨hlt, hboot⟩ := h
  refine ⟨?_, hmaps.dir_present, fun heq => ?_⟩
  · unfold dirIndex
    omega
  · have hlo := hboot heq
    unfold dirIndex
    omega

/-- The frame of a user address is behind no other entry. -/
theorem FrameInv.alone (h : FrameInv m dirs) (hd : d ∈ dirs) (hd' : d' ∈ dirs)
    (hv : UserAddress d v) {i j f : Nat} (hmaps : MapsFrame m d (dirIndex v) (tableIndex v) f)
    (hmaps' : MapsFrame m d' i j f) : d = d' ∧ dirIndex v = i ∧ tableIndex v = j := by
  have hmade := hv.made hmaps
  have hhigh := h.user d hd _ _ f hmade hmaps
  have hpool : poolStart ≤ f := Nat.le_trans (Nat.le_add_right _ _) hhigh
  have hplace := h.ledger.once _ _ f ⟨hpool, d, hd, _, _, hmaps, rfl⟩ ⟨hpool, d', hd', i, j, hmaps', rfl⟩
  obtain ⟨hj, ⟨heq, hi⟩ | ⟨hboot, -⟩⟩ := h.tables.samePlace hd hd' hmaps.dir hmaps'.dir hmaps.table
    hmaps'.table hmaps.dir_present hmaps'.dir_present hplace
  · exact ⟨heq, hi, hj⟩
  · have huser := hmade.user
    rcases hboot with hboot | ⟨heq, hzero⟩
    · omega
    · exact absurd hzero (hmade.made heq)

/-- The frame of a user address is in use, and not the kernel's. -/
theorem FrameInv.userFrame (h : FrameInv m dirs) (hd : d ∈ dirs) (hv : UserAddress d v)
    (htrans : translate d m.ram v = .ok a) :
    kernelEnd m.toPools ≤ a ∧ ¬ m.userPool.FreeFrame (a / 0x1000 * 0x1000) := by
  have hlt := hv.1
  obtain ⟨f, hmaps, rfl, haligned⟩ := translate_maps (by omega) htrans
  have hhigh := h.user d hd _ _ f (hv.made hmaps) hmaps
  have hpool : poolStart ≤ f := Nat.le_trans (Nat.le_add_right _ _) hhigh
  refine ⟨by omega, fun hfree => ?_⟩
  have heq : (f + v.toNat % 0x1000) / 0x1000 * 0x1000 = f := by omega
  rw [heq] at hfree
  exact h.ledger.taken _ f ⟨hpool, d, hd, _, _, hmaps, rfl⟩ (Or.inr hfree)

theorem FrameInv.isolated (h : FrameInv m dirs) : Isolated m dirs := by
  refine ⟨?_, ?_, fun d hd v a hv htrans => h.userFrame hd hv htrans⟩
  · intro d hd d' hd' v v' a hv hv' htrans htrans'
    have hlt := hv.1
    have hlt' := hv'.1
    obtain ⟨f, hmaps, ha, haligned⟩ := translate_maps (by omega) htrans
    obtain ⟨f', hmaps', ha', haligned'⟩ := translate_maps (by omega) htrans'
    have hf : f = f' := by omega
    subst hf
    obtain ⟨heq, hi, hj⟩ := h.alone hd hd' hv hmaps hmaps'
    refine ⟨heq, UInt32.toNat_inj.mp ?_⟩
    unfold dirIndex at hi
    unfold tableIndex at hj
    omega
  · intro d hd d' hd' v v' a hv hv' htrans htrans'
    have hlt := hv.1
    obtain ⟨f, hmaps, ha, haligned⟩ := translate_maps (by omega) htrans
    have huser := (hv.made hmaps).user
    have hhigh := (h.userFrame hd hv htrans).1
    by_cases hwindow : v'.toNat < 0xffc00000
    · obtain ⟨f', hmaps', ha', haligned'⟩ := translate_maps hwindow htrans'
      have hf : f = f' := by omega
      subst hf
      obtain ⟨-, hi, -⟩ := h.alone hd hd' hv hmaps hmaps'
      unfold dirIndex at hi
      omega
    · -- behind the window are the directory and its tables
      have hrec := h.tables.spaces.last d' hd'
      have hindex : dirIndex v' = 1023 := by
        have hlt' := v'.toNat_lt
        unfold dirIndex
        omega
      rcases translate_cases d' m.ram v' with ⟨-, htable, hok⟩ | ⟨-, herror⟩
      · rw [hindex, hrec.tableEntry] at htable hok
        rw [htrans'] at hok
        have ha' := Except.ok.inj hok
        have hslot := tableIndex_lt v'
        by_cases hlast : tableIndex v' = 1023
        · rw [hlast, hrec.frame] at ha'
          have hlow := h.tables.dirs_low d' hd'
          omega
        · have hlow := (h.tables.table_low hd' (by omega) htable).1
          omega
      · rw [htrans'] at herror
        cases herror

/-- **Address spaces are isolated**: in every run whose calls find the frames for the page tables they
have to make, no byte behind a user address is shared with another process or with the kernel. -/
theorem address_spaces_isolated (hmem : 0x200000 ≤ allMem.toNat)
    (hstart : userVaddrStart.toNat ≤ 0xc0000000) (halign : userVaddrStart.toNat % 0x1000 = 0)
    {s : SpaceRun} (hs : (pageRuns allMem userVaddrStart).Reach ServedCall s) :
    Isolated s.mem s.dirs :=
  (pageRuns_frames hmem hstart halign hs).isolated

/-- `vaddr_start` and the size of the bitmap of a process, with the second page clear. -/
def FirstPages (va : VirtualAddr) : Prop :=
  va.vaddrStart = 0x8048000 ∧ va.vaddrBitmap.size = 0xb7fb8 ∧ va.vaddrBitmap.get 1 = false

theorem noMapping_of_zero (hdir : dirEntry d m.ram 32 = 0) :
    ∀ f, ¬ MapsFrame m d (dirIndex 0x8049000) (tableIndex 0x8049000) f := by
  intro f hmaps
  have hpresent := hmaps.dir_present
  have hindex : dirIndex 0x8049000 = 32 := rfl
  rw [hindex, hdir] at hpresent
  cases hpresent

/-- A process without pages can have its second one. -/
theorem secondPage_free {t : Tid} (hpgdir : m.pgdir t ≠ 0) (hvaddr : FirstPages (m.userprogVaddr t))
    (hunmapped : ∀ f, ¬ MapsFrame m d (dirIndex 0x8049000) (tableIndex 0x8049000) f)
    (huser : 0 < m.userPool.freeFrames) (hkernel : 0 < m.kernelPool.freeFrames) :
    pageIndex (m.activate t d) t .user 0x8049000 = 1 ∧
      FreePage t .user 0x8049000 (m.activate t d) := by
  obtain ⟨hstart, hsize, hclear⟩ := hvaddr
  have hvaddrs : (m.activate t d).vaddrs t .user = m.userprogVaddr t := rfl
  have hindex : pageIndex (m.activate t d) t .user 0x8049000 = 1 := by
    rw [pageIndex, hvaddrs, hstart]
    decide
  refine ⟨hindex, Or.inl ⟨hpgdir, rfl⟩, rfl, ?_, ?_, fun f hmaps => ?_, huser, hkernel⟩
  · rw [hindex, hvaddrs, hsize]
    decide
  · rw [hindex, hvaddrs]
    exact hclear
  · rw [activate_cr3] at hmaps
    exact hunmapped f (hmaps.of_ram (activate_ram m t d).symm)

/-- The page is given by a call of a run. -/
theorem secondPage_call {t : Tid} {s : SpaceRun} (hs : (pageRuns 0x400000 0x8048000).Reach ServedCall s)
    (hd : d ∈ s.dirs) (hpgdir : s.mem.pgdir t ≠ 0) (hvaddr : FirstPages (s.mem.userprogVaddr t))
    (hunmapped : ∀ f, ¬ MapsFrame s.mem d (dirIndex 0x8049000) (tableIndex 0x8049000) f)
    (huser : 0 < s.mem.userPool.freeFrames) (hkernel : 0 < s.mem.kernelPool.freeFrames) :
    ∃ m', getAPage t .user 0x8049000 (s.mem.activate t d) = .ok (0x8049000, m') ∧
      PageGiven t .user 0x8049000 s.dirs (s.mem.activate t d) m' ∧ Kept s.dirs s.mem m' ∧
      (pageRuns 0x400000 0x8048000).Reach ServedCall ⟨m', s.dirs⟩ := by
  obtain ⟨hindex, hpage⟩ := secondPage_free hpgdir hvaddr hunmapped huser hkernel
  have hframes := pageRuns_frames (by decide) (by decide) (by decide) hs
  obtain ⟨m', hret, hgiven⟩ := hpage.given (hframes.tables.activate t d)
    (by rw [activate_cr3]; exact hd) (by rw [hindex]; decide)
  have hcall : ServedCall s ⟨t, d, .aPage .user 0x8049000⟩ := by
    refine ⟨hd, fun hpos => ?_⟩
    have hone : min 1 s.mem.userPool.freeFrames = 1 := by omega
    rw [hone]
    exact Nat.le_trans (missingTables_one d s.mem.ram 32) hkernel
  have hstep : PageOp.exec 0x8048000 t ⟨s.mem.activate t d, s.dirs⟩ (.aPage .user 0x8049000) =
      .ok ⟨m', s.dirs⟩ := by
    rw [PageOp.exec, hret]
    rfl
  obtain ⟨-, hkept, -⟩ := pageRuns_step (by decide) (by decide) hframes hcall hstep
  exact ⟨m', hret, hgiven, hkept, .step hs hcall (congrArg some hstep)⟩

theorem processStart_firstPages (t : Tid) : FirstPages (processStart.mem.userprogVaddr t) :=
  ⟨rfl, rfl, Nat.zero_testBit 1⟩

theorem processStart_userFrames : processStart.mem.userPool.freeFrames = 256 := by
  have hframes : ∀ i, i < 256 → processStart.mem.userPool.poolBitmap.get i = false :=
    fun i hi => bitmapInit_get _ hi
  have hcount := freeCount_eq_total hframes
  exact hcount

/-- The loader's directory is that of the first process. -/
theorem processStart_page : ∃ m', getAPage 1 .user 0x8049000
      (processStart.mem.activate 1 pageDirTablePos) = .ok (0x8049000, m') ∧
    (pageRuns 0x400000 0x8048000).Reach ServedCall ⟨m', processStart.dirs⟩ := by
  obtain ⟨-, hpage⟩ := @processStart_freePage 0x8049000 1 (by decide) rfl
  obtain ⟨m', hret, -, -, hs⟩ := secondPage_call (t := 1) (.init processStart_start) List.mem_cons_self
    (by decide) (processStart_firstPages 1) (fun f hmaps => hpage.unmapped f
      (activate_cr3 processStart.mem 1 pageDirTablePos ▸ hmaps.of_ram (activate_ram _ _ _)))
    hpage.frame hpage.table
  exact ⟨m', hret, hs⟩

/-- Two page directories are made. -/
theorem processStart_dirs : ∃ m q₁ q₂,
    (pageRuns 0x400000 0x8048000).Reach ServedCall ⟨m, [q₂, q₁, pageDirTablePos]⟩ ∧
    q₁ ≠ q₂ ∧ dirEntry q₁ m.ram 32 = 0 ∧ dirEntry q₂ m.ram 32 = 0 ∧
    (∀ t, t ≠ 0 → m.pgdir t ≠ 0) ∧ (∀ t, FirstPages (m.userprogVaddr t)) ∧
    m.userPool.freeFrames = 256 ∧ m.kernelPool.freeFrames = 254 := by
  have hstart := processStart_start
  have hroom : SpaceRoom 0 [pageDirTablePos] 0 256 processStart.mem :=
    ⟨(hstart.tables (by decide)).spaces, rfl, List.mem_cons_self,
      ⟨_, ((hstart.heapStart (by decide)).inv (by decide)).inv⟩, rfl,
      fun i _ hi => bitmapInit_get _ hi, processStart_frames⟩
  obtain ⟨q₁, m₁, hdir₁, hstep₁, -, hnew₁, hroom₁⟩ := hroom.newDir (by decide) (by decide)
  obtain ⟨q₂, m₂, hdir₂, hstep₂, hnot, hnew₂, hroom₂⟩ := hroom₁.newDir (by decide) (by decide)
  have hs₁ : (pageRuns 0x400000 0x8048000).Reach ServedCall ⟨m₁, [q₁.toNat, pageDirTablePos]⟩ := by
    refine .step (e := ⟨0, pageDirTablePos, .newDir⟩) (.init hstart) ⟨List.mem_cons_self, trivial⟩ ?_
    show some (SpaceOp.newDir.exec 0 ⟨processStart.mem.activate 0 pageDirTablePos, _⟩) = _
    rw [activate_self hroom.active]
    exact congrArg some hdir₁
  have hs₂ : (pageRuns 0x400000 0x8048000).Reach ServedCall
      ⟨m₂, [q₂.toNat, q₁.toNat, pageDirTablePos]⟩ := by
    refine .step (e := ⟨0, pageDirTablePos, .newDir⟩) hs₁ ⟨hroom₁.mem, trivial⟩ ?_
    show some (SpaceOp.newDir.exec 0 ⟨m₁.activate 0 pageDirTablePos, _⟩) = _
    rw [activate_self hroom₁.active]
    exact congrArg some hdir₂
  refine ⟨m₂, q₁.toNat, q₂.toNat, hs₂, fun heq => hnot (heq ▸ List.mem_cons_self),
    ?_, hnew₂.user 32 (by decide), fun t ht => ?_, fun t => ?_, ?_, hroom₂.room.frames⟩
  · rw [dirEntry_congr (hstep₂.eqOn_dir hroom₁.spaces List.mem_cons_self)
      (show 32 < 0x400 by decide)]
    exact hnew₁.user 32 (by decide)
  · have hpgdir : processStart.mem.pgdir t = 0xc0118000 := if_neg ht
    rw [hstep₂.pgdir, hstep₁.pgdir, hpgdir]
    decide
  · rw [hstep₂.userprogVaddr, hstep₁.userprogVaddr]
    exact processStart_firstPages t
  · rw [hstep₂.userPool, hstep₁.userPool]
    exact processStart_userFrames

/-- It is a page of no other process. -/
theorem PageGiven.unmapped {t : Tid} {d' f : Nat} {m' : Memory}
    (h : PageGiven t .user 0x8049000 dirs (m.activate t d) m') (hd' : d' ∈ dirs) (hne : d' ≠ d)
    (hdir : dirEntry d' m.ram 32 = 0) :
    ¬ MapsFrame m' d' (dirIndex 0x8049000) (tableIndex 0x8049000) f := by
  intro hmaps
  refine noMapping_of_zero hdir f (((h.mappings d' hd' _ _ f fun hplace => ?_).mp hmaps).of_ram
    (activate_ram m t d).symm)
  obtain ⟨-, ⟨hsame, -⟩ | ⟨-, hregion⟩⟩ := h.alone d' hd' _ _ hmaps.dir hmaps.table
    hmaps.dir_present hplace
  · rw [activate_cr3] at hsame
    exact hne hsame
  · have hindex : dirIndex 0x8049000 = 32 := rfl
    rw [hindex] at hregion
    rcases hregion with hhigh | ⟨-, hzero⟩
    · omega
    · omega

/-- Two processes get a page at the same address. -/
theorem address_spaces_isolated_two : ∃ m q₁ q₂ f₁ f₂, q₁ ≠ q₂ ∧
    MapsFrame m q₁ (dirIndex 0x8049000) (tableIndex 0x8049000) f₁ ∧
    MapsFrame m q₂ (dirIndex 0x8049000) (tableIndex 0x8049000) f₂ ∧
    Isolated m [q₂, q₁, pageDirTablePos] := by
  obtain ⟨m, q₁, q₂, hs, hne, hdir₁, hdir₂, hpgdir, hvaddr, huser, hkernel⟩ := processStart_dirs
  have hq₁ : q₁ ∈ [q₂, q₁, pageDirTablePos] := List.mem_cons_of_mem _ List.mem_cons_self
  have hq₂ : q₂ ∈ [q₂, q₁, pageDirTablePos] := List.mem_cons_self
  have hok := (pageRuns_frames (by decide) (by decide) (by decide) hs).tables.spaces.pools.ok
  -- the first process
  obtain ⟨m₁, hret₁, hgiven₁, -, hs₁⟩ := @secondPage_call q₁ 1 ⟨m, _⟩ hs hq₁ (hpgdir 1 (by decide))
    (hvaddr 1) (noMapping_of_zero hdir₁) (by rw [huser]; decide) (by rw [hkernel]; decide)
  obtain ⟨f₁, htaken, hmaps₁⟩ := hgiven₁.frame
  rw [activate_cr3] at hmaps₁
  have hpgdir₁ : m₁.pgdir 2 = m.pgdir 2 := congrFun (getAPage_pgdir hret₁) 2
  have hvaddr₁ : m₁.userprogVaddr 2 = m.userprogVaddr 2 :=
    hgiven₁.rest 2 .user fun _ => ⟨rfl, by decide⟩
  have hsame : (m.activate 1 q₁).kernelPool = m.kernelPool := rfl
  have huser₁ : m₁.userPool.freeFrames + 1 = m.userPool.freeFrames := htaken.count
  have hkernel₁ := getAPage_freeFrames (hsame ▸ hok) hret₁
  rw [hsame] at hkernel₁
  -- the second one
  obtain ⟨m₂, -, hgiven₂, hkept, hs₂⟩ := @secondPage_call q₂ 2 ⟨m₁, _⟩ hs₁ hq₂
    (by rw [hpgdir₁]; exact hpgdir 2 (by decide)) (by rw [hvaddr₁]; exact hvaddr 2)
    (fun _ => hgiven₁.unmapped hq₂ hne.symm hdir₂) (show 0 < m₁.userPool.freeFrames by omega)
    (show 0 < m₁.kernelPool.freeFrames by omega)
  obtain ⟨f₂, -, hmaps₂⟩ := hgiven₂.frame
  rw [activate_cr3] at hmaps₂
  exact ⟨m₂, q₁, q₂, f₁, f₂, hne, hkept.maps q₁ hq₁ _ _ f₁ hmaps₁, hmaps₂,
    address_spaces_isolated (by decide) (by decide) (by decide) hs₂⟩

/-- The processor lets a program of level 3 read and write what is at the address. -/
def UserMayWrite (cr3 : Nat) (ram : ByteMemory) (vaddr : UInt32) : Prop :=
  UserBits (dirEntry cr3 ram (dirIndex vaddr)) ∧
    UserBits (tableEntry cr3 ram (dirIndex vaddr) (tableIndex vaddr))

theorem FrameInv.userMayWrite (h : FrameInv m dirs) (hd : d ∈ dirs)
    (htrans : translate d m.ram v = .ok a) : UserMayWrite d m.ram v := by
  rcases translate_cases d m.ram v with ⟨hdir, htable, -⟩ | ⟨-, herror⟩
  · refine ⟨h.dir_bits d hd _ (dirIndex_lt v) hdir, ?_⟩
    by_cases hwindow : dirIndex v = 1023
    · -- behind the window are the entries of the directory
      rw [hwindow, (h.tables.spaces.last d hd).tableEntry] at htable ⊢
      exact h.dir_bits d hd _ (tableIndex_lt v) htable
    · have hlt := dirIndex_lt v
      exact h.table_bits d hd _ _ _ ⟨by omega, tableIndex_lt v, hdir, htable, rfl⟩
  · rw [htrans] at herror
    cases herror

/-- **The kernel is open to its users**: every entry ever made has the bits U/S and R/W, so that a
program of level 3 can read and write whatever is mapped, its own page directory included. -/
theorem kernel_open_to_users (hmem : 0x200000 ≤ allMem.toNat)
    (hstart : userVaddrStart.toNat ≤ 0xc0000000) (halign : userVaddrStart.toNat % 0x1000 = 0)
    {s : SpaceRun} (hs : (pageRuns allMem userVaddrStart).Reach ServedCall s) :
    ∀ d ∈ s.dirs, (∀ v a, translate d s.mem.ram v = .ok a → UserMayWrite d s.mem.ram v) ∧
      ∀ v, translate d s.mem.ram (pdePtr v) = .ok (d + 4 * dirIndex v) ∧
        UserMayWrite d s.mem.ram (pdePtr v) := by
  intro d hd
  have h := pageRuns_frames hmem hstart halign hs
  refine ⟨fun v a htrans => h.userMayWrite hd htrans, fun v => ?_⟩
  have hentry : translate d s.mem.ram (pdePtr v) = .ok (d + 4 * dirIndex v) :=
    (h.tables.spaces.last d hd).translate_pdePtr
  exact ⟨hentry, h.userMayWrite hd hentry⟩

theorem kernel_open_to_users_page : ∃ m', getAPage 1 .user 0x8049000
      (processStart.mem.activate 1 pageDirTablePos) = .ok (0x8049000, m') ∧
    UserMayWrite pageDirTablePos m'.ram (pdePtr 0xc0000000) := by
  obtain ⟨m', hret, hreach⟩ := processStart_page
  exact ⟨m', hret, ((kernel_open_to_users (by decide) (by decide) (by decide) hreach _
    List.mem_cons_self).2 0xc0000000).2⟩

end Isolated

end OsKernel
