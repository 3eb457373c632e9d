import OsKernel.Lib.Descriptor

/-!
# boot/loader.S: the segments of the loader

The global descriptor table is the first thing in the loader. The processor sets the accessed bits of
its descriptors when the loader enters protected mode, and the loader moves the video segment when it
turns paging on.

- `loaderGdt`, `LoaderTable`: the table as it is read from the disk.
- `loadSegments`: the far jump and the segment registers; `loadSegments_marks`: what that writes.
- `videoToHigh`: the move of the video segment.
-/

namespace OsKernel

open Lib

/-! ## The table -/

/-- `LOADER_BASE_ADDR`, which is `GDT_BASE` -/
def loaderBaseAddr : Nat := 0x900

/-- `DESC_CODE_HIGH4` -/
def descCodeHigh4 : UInt32 :=
  UInt32.ofNat ((0x00 <<< 24) + (1 <<< 23) + (1 <<< 22) + 0 + 0 + (0xf <<< 16) + (1 <<< 15) + 0 +
    (1 <<< 12) + (8 <<< 8) + 0x00)

/-- `DESC_DATA_HIGH4` -/
def descDataHigh4 : UInt32 :=
  UInt32.ofNat ((0x00 <<< 24) + (1 <<< 23) + (1 <<< 22) + 0 + 0 + (0xf <<< 16) + (1 <<< 15) + 0 +
    (1 <<< 12) + (2 <<< 8) + 0x00)

/-- `DESC_VIDEO_HIGH4` -/
def descVideoHigh4 : UInt32 :=
  UInt32.ofNat ((0x00 <<< 24) + (1 <<< 23) + (1 <<< 22) + 0 + 0 + (0 <<< 16) + (1 <<< 15) + 0 +
    (1 <<< 12) + (2 <<< 8) + 0x0b)

/-- The words from `GDT_BASE` on in the loader. -/
def loaderGdt : List UInt32 :=
  [0x00000000, 0x00000000, 0x0000ffff, descCodeHigh4, 0x0000ffff, descDataHigh4, 0x80000007,
   descVideoHigh4]

/-- The loader's table is in memory. -/
def LoaderTable (ram : ByteMemory) : Prop :=
  ∀ i, (h : i < loaderGdt.length) → ram.read32 (loaderBaseAddr + 4 * i) = loaderGdt[i]

/-- A memory with the table of the loader. -/
def loaderImage : ByteMemory := fun b =>
  UInt8.ofNat ((loaderGdt.getD ((b - loaderBaseAddr) / 4) 0).toNat / 0x100 ^ ((b - loaderBaseAddr) % 4))

/-! ## The segment registers -/

/-- `SELECTOR_CODE`, `SELECTOR_DATA` and `SELECTOR_VIDEO` -/
def loaderSelectorCode : Nat := (0x0001 <<< 3) + 0 + 0

def loaderSelectorData : Nat := (0x0002 <<< 3) + 0 + 0

def loaderSelectorVideo : Nat := (0x0003 <<< 3) + 0 + 0

/-- The start of protected mode, up to `mov gs, ax` -/
def loadSegments (ram : ByteMemory) : Option ByteMemory := do
  -- lgdt [gdt_ptr]
  let gdtr : DescTable := { base := loaderBaseAddr, limit := 4 * loaderGdt.length - 1 }
  -- jmp dword SELECTOR_CODE: p_mode_test
  let ram ← loadSelector gdtr loaderSelectorCode ram
  -- ds, es and ss
  let ram ← loadSelector gdtr loaderSelectorData ram
  let ram ← loadSelector gdtr loaderSelectorData ram
  let ram ← loadSelector gdtr loaderSelectorData ram
  loadSelector gdtr loaderSelectorVideo ram

/-- `or dword [ebx+0x18+4], 0xc0000000` -/
def videoToHigh (ebx : Nat) (ram : ByteMemory) : ByteMemory :=
  ram.write32 (ebx + 0x18 + 4) (ram.read32 (ebx + 0x18 + 4) ||| 0xc0000000)

/-- The access bytes of the three descriptors, as offsets in the loader. -/
def accessBytes : List Nat := [0x0d, 0x15, 0x1d]

section Table

variable {ram : ByteMemory}

/-- The table byte by byte. -/
theorem LoaderTable.image (h : LoaderTable ram) :
    ByteMemory.EqOn loaderBaseAddr 0x20 loaderImage ram := by
  intro b hlo hhi
  obtain ⟨d, rfl⟩ := Nat.exists_eq_add_of_le hlo
  have hi : d / 4 < loaderGdt.length := by
    show d / 4 < 8
    omega
  have hword := h (d / 4) hi
  have hbyte := ByteMemory.byte_read32 ram (loaderBaseAddr + 4 * (d / 4)) (k := d % 4) (by omega)
  have hplace : loaderBaseAddr + 4 * (d / 4) + d % 4 = loaderBaseAddr + d := by omega
  rw [hplace, hword] at hbyte
  rw [hbyte, loaderImage, Nat.add_sub_cancel_left, List.getD_eq_getElem _ _ hi]

/-- A load from the table: the access byte says whether it goes through. -/
theorem loadSelector_loader (ram : ByteMemory) (selector : Nat) (hti : selector / 4 % 2 = 0)
    (hindex : 1 ≤ selector / 8 ∧ selector / 8 ≤ 3)
    (haccess : (ram (loaderBaseAddr + 8 * (selector / 8) + 5)).toNat / 0x10 = 9) :
    loadSelector { base := loaderBaseAddr, limit := 4 * loaderGdt.length - 1 } selector ram =
      some (markAccessed ram (loaderBaseAddr + 8 * (selector / 8))) := by
  have hlimit : 4 * loaderGdt.length - 1 = 0x1f := rfl
  unfold loadSelector
  rw [DescTable.segment, hlimit, if_pos ⟨hindex.1, hti, by dsimp only; omega⟩]
  have hstorage : (segmentAt ram (loaderBaseAddr + 8 * (selector / 8))).isStorage = true :=
    decide_eq_true (by dsimp only [segmentAt]; omega)
  have hpresent : (segmentAt ram (loaderBaseAddr + 8 * (selector / 8))).present = true :=
    decide_eq_true (by dsimp only [segmentAt]; omega)
  simp [hstorage, hpresent]

/-- **The accessed bits**: the loads of the loader change three bytes of its table. -/
theorem loadSegments_marks (h : LoaderTable ram) : ∃ ram', loadSegments ram = some ram' ∧
    ∀ b, ram' b = if b ∈ accessBytes.map (loaderBaseAddr + ·) then ram b ||| 1 else ram b := by
  have hcode : ram 0x90d = 0x98 := h.image 0x90d (by decide) (by decide)
  have hdata : ram 0x915 = 0x92 := h.image 0x915 (by decide) (by decide)
  have hvideo : ram 0x91d = 0x92 := h.image 0x91d (by decide) (by decide)
  -- the far jump, then `ds`, and then everything is marked for `es` and `ss`
  let ram₁ := markAccessed ram 0x908
  let ram₂ := markAccessed ram₁ 0x910
  have hdata₁ : ram₁ 0x915 = 0x92 := (markAccessed_of_ne (by decide)).trans hdata
  have hdata₂ : ram₂ 0x915 = 0x93 := by
    rw [show ram₂ 0x915 = ram₁ 0x915 ||| 1 from markAccessed_self ram₁ 0x910, hdata₁]
    rfl
  have hvideo₂ : ram₂ 0x91d = 0x92 :=
    (markAccessed_of_ne (by decide)).trans ((markAccessed_of_ne (by decide)).trans hvideo)
  have hload₁ := loadSelector_loader ram loaderSelectorCode rfl (by decide)
    (by rw [show loaderBaseAddr + 8 * (loaderSelectorCode / 8) + 5 = 0x90d from rfl, hcode]; rfl)
  have hload₂ := loadSelector_loader ram₁ loaderSelectorData rfl (by decide)
    (by rw [show loaderBaseAddr + 8 * (loaderSelectorData / 8) + 5 = 0x915 from rfl, hdata₁]; rfl)
  have hload₃ := loadSelector_loader ram₂ loaderSelectorData rfl (by decide)
    (by rw [show loaderBaseAddr + 8 * (loaderSelectorData / 8) + 5 = 0x915 from rfl, hdata₂]; rfl)
  have hload₄ := loadSelector_loader ram₂ loaderSelectorVideo rfl (by decide)
    (by rw [show loaderBaseAddr + 8 * (loaderSelectorVideo / 8) + 5 = 0x91d from rfl, hvideo₂]; rfl)
  have hagain : markAccessed ram₂ (loaderBaseAddr + 8 * (loaderSelectorData / 8)) = ram₂ :=
    markAccessed_twice ram₁ 0x910
  rw [hagain] at hload₃
  refine ⟨markAccessed ram₂ 0x918, ?_, fun b => ?_⟩
  · exact Option.bind_eq_some_iff.mpr ⟨ram₁, hload₁, Option.bind_eq_some_iff.mpr ⟨ram₂, hload₂,
      Option.bind_eq_some_iff.mpr ⟨ram₂, hload₃, Option.bind_eq_some_iff.mpr ⟨ram₂, hload₃, hload₄⟩⟩⟩⟩
  · simp only [accessBytes, List.map_cons, List.map_nil, List.mem_cons, List.not_mem_nil, or_false]
    by_cases h₃ : b = 0x91d
    · subst h₃
      rw [if_pos (.inr (.inr rfl))]
      exact (markAccessed_self ram₂ 0x918).trans (by rw [hvideo₂, hvideo])
    · rw [show markAccessed ram₂ 0x918 b = ram₂ b from markAccessed_of_ne h₃]
      by_cases h₂ : b = 0x915
      · subst h₂
        rw [if_pos (.inr (.inl rfl)), hdata₂, hdata]
        rfl
      · rw [show ram₂ b = ram₁ b from markAccessed_of_ne h₂]
        by_cases h₁ : b = 0x90d
        · subst h₁
          rw [if_pos (.inl rfl)]
          exact markAccessed_self ram 0x908
        · rw [show ram₁ b = ram b from markAccessed_of_ne h₁, if_neg]
          rintro (rfl | rfl | rfl)
          · exact h₁ rfl
          · exact h₂ rfl
          · exact h₃ rfl

/-- What the move of the video segment makes of the table only depends on the table. -/
theorem videoToHigh_eqOn {ram' : ByteMemory} (h : ByteMemory.EqOn loaderBaseAddr 0x20 ram ram') :
    ByteMemory.EqOn loaderBaseAddr 0x20 (videoToHigh loaderBaseAddr ram)
      (videoToHigh loaderBaseAddr ram') := by
  have hword : ram'.read32 (loaderBaseAddr + 0x18 + 4) = ram.read32 (loaderBaseAddr + 0x18 + 4) :=
    h.read32 (by omega) (by omega)
  intro b hlo hhi
  rw [videoToHigh, videoToHigh, hword, ByteMemory.write32, ByteMemory.write32]
  split
  · rfl
  · exact h b hlo hhi

end Table

end OsKernel
