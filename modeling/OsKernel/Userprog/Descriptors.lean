import OsKernel.Boot.BootPath
import OsKernel.Userprog.UserEntry

/-!
# userprog/tss.c, boot/loader.S and kernel/interrupt.c: the tables of the processor

The loader gives the kernel its segments, `tss_init` completes the global descriptor table, and
`idt_init` fills the interrupt descriptor table.

- `makeGdtDesc`: right if and only if the attributes leave the bits of the limit alone
  (`makeGdtDesc_right_iff`).
- `loaderGdt`, `videoToHigh`, `tssInit`: the global table on its way through the boot.
- `taskRuns`, `segments_kept`, `user_ports`: the segments that the selectors of the sources name, and
  the ports that user processes may use, in every state after `tss_init`.
- `makeIdtDesc`, `idtInit`, `idt_delivers`: the gates of all vectors.
-/

namespace OsKernel

open Lib Switch

/-! ## Constants of kernel/global.h -/

/-- `SELECTOR_K_STACK`, which is `SELECTOR_K_DATA` -/
def selectorKStack : UInt16 := UInt16.ofNat ((2 <<< 3) + (0 <<< 2) + 0)

/-- `SELECTOR_TSS` -/
def selectorTss : Nat := (4 <<< 3) + (0 <<< 2) + 0

/-- `DESC_G_4K`, `DESC_D_32`, `DESC_L` and `DESC_AVL` at their places -/
def gdtAttrHigh : UInt8 := UInt8.ofNat ((1 <<< 7) + (1 <<< 6) + (0 <<< 5) + (0 <<< 4))

def gdtCodeAttrLowDpl3 : UInt8 := UInt8.ofNat ((1 <<< 7) + (3 <<< 5) + (1 <<< 4) + 8)

def gdtDataAttrLowDpl3 : UInt8 := UInt8.ofNat ((1 <<< 7) + (3 <<< 5) + (1 <<< 4) + 2)

def tssAttrHigh : UInt8 := UInt8.ofNat ((1 <<< 7) + (0 <<< 6) + (0 <<< 5) + (0 <<< 4) + 0x0)

def tssAttrLow : UInt8 := UInt8.ofNat ((1 <<< 7) + (0 <<< 5) + (0 <<< 4) + 9)

/-- The sources give `IDT_DESC_DPL0` the value 1. -/
def idtDescAttrDpl0 : UInt8 := UInt8.ofNat ((1 <<< 7) + (1 <<< 5) + 0xe)

/-! ## make_gdt_desc -/

/-- `struct gdt_desc` -/
structure GdtDesc where
  limitLowWord : UInt16
  baseLowWord : UInt16
  baseMidByte : UInt8
  attrLowByte : UInt8
  limitHighAttrHigh : UInt8
  baseHighByte : UInt8

/-- `make_gdt_desc` -/
def makeGdtDesc (descAddr limit : UInt32) (attrLow attrHigh : UInt8) : GdtDesc where
  limitLowWord := (limit &&& 0x0000ffff).toUInt16
  baseLowWord := (descAddr &&& 0x0000ffff).toUInt16
  baseMidByte := ((descAddr &&& 0x00ff0000) >>> 16).toUInt8
  attrLowByte := attrLow
  limitHighAttrHigh := (((limit &&& 0x000f0000) >>> 16) + attrHigh.toUInt32).toUInt8
  baseHighByte := (descAddr >>> 24).toUInt8

/-- The descriptor is stored at an address. -/
def GdtDesc.store (desc : GdtDesc) (m : ByteMemory) (a : Nat) : ByteMemory :=
  fun b =>
    if b = a + 4 then desc.baseMidByte
    else if b = a + 5 then desc.attrLowByte
    else if b = a + 6 then desc.limitHighAttrHigh
    else if b = a + 7 then desc.baseHighByte
    else ((m.write16 a desc.limitLowWord).write16 (a + 2) desc.baseLowWord) b

/-- What the processor makes of a descriptor. -/
def GdtDesc.segment (desc : GdtDesc) : Segment where
  base := desc.baseLowWord.toNat + 0x10000 * desc.baseMidByte.toNat +
    0x1000000 * desc.baseHighByte.toNat
  rawLimit := desc.limitLowWord.toNat + 0x10000 * (desc.limitHighAttrHigh.toNat % 0x10)
  access := desc.attrLowByte
  flags := desc.limitHighAttrHigh.toNat / 0x10

section MakeGdtDesc

variable {desc : GdtDesc} {m : ByteMemory} {a b : Nat}

theorem GdtDesc.store_outside (h : b < a ∨ a + 8 ≤ b) : desc.store m a b = m b := by
  unfold store
  rw [if_neg (by omega), if_neg (by omega), if_neg (by omega), if_neg (by omega),
    ByteMemory.write16_outside (by omega), ByteMemory.write16_outside (by omega)]

/-- A stored descriptor is read back. -/
theorem GdtDesc.segmentAt_store (desc : GdtDesc) (m : ByteMemory) (a : Nat) :
    segmentAt (desc.store m a) a = desc.segment := by
  have hbody : ByteMemory.EqOn a 4 ((m.write16 a desc.limitLowWord).write16 (a + 2)
      desc.baseLowWord) (desc.store m a) := by
    intro b hlo hhi
    unfold store
    rw [if_neg (by omega), if_neg (by omega), if_neg (by omega), if_neg (by omega)]
  have hlow : (desc.store m a).read16 a = desc.limitLowWord := by
    rw [hbody.read16 (Nat.le_refl a) (by omega), (ByteMemory.eqOn_write16 (by omega)).read16
      (Nat.le_refl a) (Nat.le_refl (a + 2)), ByteMemory.read16_write16]
  have hbase : (desc.store m a).read16 (a + 2) = desc.baseLowWord := by
    rw [hbody.read16 (by omega) (by omega), ByteMemory.read16_write16]
  rw [segmentAt, hlow, hbase]
  simp [store, segment]

end MakeGdtDesc

/-- A field of a word, cut out and moved down. -/
theorem and_shift_field (x : UInt32) {k w : Nat} (hk : k < 32) {mask : UInt32}
    (hmask : mask.toNat = (2 ^ w - 1) * 2 ^ k) :
    ((x &&& mask) >>> UInt32.ofNat k).toNat = x.toNat / 2 ^ k % 2 ^ w := by
  have hshift : (UInt32.ofNat k).toNat % 32 = k := by
    rw [UInt32.toNat_ofNat_of_lt' (Nat.lt_trans hk (by decide)), Nat.mod_eq_of_lt hk]
  rw [UInt32.toNat_shiftRight, UInt32.toNat_and, hshift, hmask, Nat.shiftRight_and_distrib,
    Nat.shiftRight_eq_div_pow, Nat.shiftRight_eq_div_pow, Nat.mul_div_cancel _ (Nat.two_pow_pos k),
    Nat.and_two_pow_sub_one_eq_mod]

section MakeGdtDesc

variable (descAddr limit : UInt32) (attrLow attrHigh : UInt8)

/-- What the processor makes of `make_gdt_desc`: the high attributes are added to the limit's upper
bits, in one byte. -/
theorem makeGdtDesc_segment : (makeGdtDesc descAddr limit attrLow attrHigh).segment =
    { base := descAddr.toNat
      rawLimit := limit.toNat % 0x10000 +
        0x10000 * ((limit.toNat / 0x10000 % 0x10 + attrHigh.toNat) % 0x10)
      access := attrLow
      flags := (limit.toNat / 0x10000 % 0x10 + attrHigh.toNat) % 0x100 / 0x10 } := by
  have hmid : ((descAddr &&& 0x00ff0000) >>> 16).toNat = descAddr.toNat / 2 ^ 16 % 2 ^ 8 :=
    and_shift_field descAddr (by decide) rfl
  have hhigh : ((limit &&& 0x000f0000) >>> 16).toNat = limit.toNat / 2 ^ 16 % 2 ^ 4 :=
    and_shift_field limit (by decide) rfl
  have hlow : ∀ x : UInt32, (x &&& 0x0000ffff).toNat = x.toNat % 2 ^ 16 := fun x =>
    Nat.and_two_pow_sub_one_eq_mod x.toNat 16
  have htop : (descAddr >>> 24).toNat = descAddr.toNat / 2 ^ 24 := by
    rw [UInt32.toNat_shiftRight]
    exact Nat.shiftRight_eq_div_pow _ _
  have hlt := descAddr.toNat_lt
  have hattr := attrHigh.toNat_lt
  unfold GdtDesc.segment makeGdtDesc
  simp only [UInt32.toNat_toUInt16, UInt32.toNat_toUInt8, UInt32.toNat_add, UInt8.toNat_toUInt32,
    hmid, hhigh, hlow, htop]
  refine Segment.ext ?_ ?_ rfl ?_
  · show _ = descAddr.toNat
    dsimp only
    omega
  · dsimp only
    omega
  · dsimp only
    omega

/-- **`make_gdt_desc` is right** for a limit of 20 bits if and only if the high attributes have no bit
in the half of their byte that belongs to the limit. -/
theorem makeGdtDesc_right_iff (hlimit : limit.toNat < 0x100000) (m : ByteMemory) (a : Nat) :
    segmentAt ((makeGdtDesc descAddr limit attrLow attrHigh).store m a) a =
        { base := descAddr.toNat, rawLimit := limit.toNat, access := attrLow
          flags := attrHigh.toNat / 0x10 } ↔
      attrHigh.toNat % 0x10 = 0 := by
  have hattr := attrHigh.toNat_lt
  rw [GdtDesc.segmentAt_store, makeGdtDesc_segment, Segment.ext_iff]
  dsimp only
  constructor
  · rintro ⟨-, hraw, -, hflags⟩
    omega
  · intro hnibble
    refine ⟨rfl, ?_, rfl, ?_⟩
    · omega
    · omega

end MakeGdtDesc

/-! ## The global descriptor table -/

/-- The kernel sees at 0xc0000900 the table that the loader has left at 0x900. -/
def GdtLoaded (m : ByteMemory) : Prop :=
  ∃ ram ram' : ByteMemory, LoaderTable ram ∧ loadSegments ram = some ram' ∧
    ∀ k, k < 0x20 → m (0xc0000900 + k) = videoToHigh loaderBaseAddr ram' (loaderBaseAddr + k)

/-- The memory of the kernel and what `lgdt` and `ltr` have loaded. -/
structure TaskRun where
  mem : ByteMemory
  gdtr : DescTable
  tr : Segment

/-- `sizeof(struct tss)` -/
def tssSize : UInt32 := 27 * 4

/-- The stores of `tss_init`; `tss` is the address of the structure, whose last field is `io_base`. -/
def tssStores (tss : UInt32) (m : ByteMemory) : ByteMemory :=
  -- memset(&tss, 0, tss_size)
  let m : ByteMemory := fun b => if tss.toNat ≤ b ∧ b < tss.toNat + tssSize.toNat then 0 else m b
  let m := m.write32 (tss.toNat + 8) selectorKStack.toUInt32
  let m := m.write32 (tss.toNat + 104) tssSize
  let m := (makeGdtDesc tss (tssSize - 1) tssAttrLow tssAttrHigh).store m 0xc0000920
  let m := (makeGdtDesc 0 0xfffff gdtCodeAttrLowDpl3 gdtAttrHigh).store m 0xc0000928
  (makeGdtDesc 0 0xfffff gdtDataAttrLowDpl3 gdtAttrHigh).store m 0xc0000930

/-- `tss_init` -/
def tssInit (tss : UInt32) (m : ByteMemory) : Option TaskRun := do
  let gdtOperand : UInt64 := (8 * 7 - 1 : UInt64) ||| ((0xc0000900 : UInt32).toUInt64 <<< 16)
  let gdtr := DescTable.ofOperand gdtOperand
  let (tr, m) ← ltr gdtr selectorTss (tssStores tss m)
  return { mem := m, gdtr := gdtr, tr := tr }

/-- `update_tss_esp` -/
def updateTssEsp (tss pthread : UInt32) (m : ByteMemory) : ByteMemory :=
  m.write32 (tss.toNat + 4) (pthread + 4096)

/-! ## The tables over a run -/

inductive TaskEvent where
  | updateTssEsp (pthread : UInt32)
  /-- A program, an interrupt or `iretd` loads a segment register. -/
  | loadSelector (selector : Nat)
  /-- Other code runs. -/
  | elsewhere (m : ByteMemory)

def taskRuns (tss : UInt32) : System TaskRun TaskEvent Empty where
  init s := ∃ m, GdtLoaded m ∧ tssInit tss m = some s
  step
    | .updateTssEsp pthread, s => some (.ok { s with mem := updateTssEsp tss pthread s.mem })
    | .loadSelector selector, s =>
      (loadSelector s.gdtr selector s.mem).map fun m => .ok { s with mem := m }
    | .elsewhere m, s => some (.ok { s with mem := m })

/-- Threads lie at the start of a page, and other code writes neither the table nor the structure: to
the table there are only the accessed bits, which the processor sets. -/
def OnTables (tss : UInt32) (s : TaskRun) : TaskEvent → Prop
  | .updateTssEsp pthread => PageAligned pthread
  | .loadSelector _ => True
  | .elsewhere m => ByteMemory.EqOn 0xc0000900 56 s.mem m ∧ ByteMemory.EqOn tss.toNat 108 s.mem m

/-- The structure lies behind the table. -/
structure TssPlace (tss : UInt32) : Prop where
  behind : 0xc0000938 ≤ tss.toNat
  fits : tss.toNat + 108 ≤ 0x100000000

/-- The descriptors of the table as the loader and `tss_init` store them. -/
def kernelDescriptor (tss : UInt32) : Nat → Option Segment
  | 1 => some { base := 0, rawLimit := 0xfffff, access := 0x98, flags := 0xc }
  | 2 => some { base := 0, rawLimit := 0xfffff, access := 0x92, flags := 0xc }
  | 3 => some { base := 0xc00b8000, rawLimit := 7, access := 0x92, flags := 0xc }
  -- `ltr` has marked it as busy
  | 4 => some { base := tss.toNat, rawLimit := 107, access := 0x8b, flags := 8 }
  | 5 => some { base := 0, rawLimit := 0xfffff, access := 0xf8, flags := 0xc }
  | 6 => some { base := 0, rawLimit := 0xfffff, access := 0xf2, flags := 0xc }
  | _ => none

/-- The segment with an index of the table, when those in `accessed` have been loaded. -/
def kernelSegment (tss : UInt32) (accessed : Nat → Bool) (i : Nat) : Option Segment :=
  (kernelDescriptor tss i).map (Segment.marked (accessed i))

/-- The bytes of the structure after `tss_init`, less those of `esp0`. -/
def tssByte (k : Nat) : UInt8 := if k = 8 then 0x10 else if k = 104 then 0x6c else 0

/-- The tables after `tss_init`. The loader has loaded its three segments. -/
structure TablesReady (tss : UInt32) (accessed : Nat → Bool) (s : TaskRun) : Prop where
  gdtr : s.gdtr = { base := 0xc0000900, limit := 55 }
  tr : some s.tr = kernelDescriptor tss 4
  loaded : ∀ i, 1 ≤ i → i ≤ 3 → accessed i = true
  segment : ∀ i, 1 ≤ i → i ≤ 6 →
    some (segmentAt s.mem (0xc0000900 + 8 * i)) = kernelSegment tss accessed i
  bytes : ∀ k, k < 108 → k < 4 ∨ 8 ≤ k → s.mem (tss.toNat + k) = tssByte k
  esp0 : (s.mem.read32 (tss.toNat + 4)).toNat % 4096 = 0

section Tables

variable {tss : UInt32} {accessed : Nat → Bool} {m : ByteMemory} {s : TaskRun}

/-- The segments that the loader has loaded when `tss_init` is called. -/
def loadedAtStart (i : Nat) : Bool := decide (1 ≤ i ∧ i ≤ 3)

/-- The table after the loads of the loader. -/
def accessedImage : ByteMemory := fun b =>
  if b ∈ accessBytes.map (loaderBaseAddr + ·) then loaderImage b ||| 1 else loaderImage b

/-- The table that the loader leaves: the video segment lies in the upper part of the space. -/
theorem GdtLoaded.segment (h : GdtLoaded m) {i : Nat} (h1 : 1 ≤ i) (h3 : i ≤ 3) :
    some (segmentAt m (0xc0000900 + 8 * i)) = kernelSegment tss loadedAtStart i := by
  obtain ⟨ram, ram', hram, hload, hhigh⟩ := h
  obtain ⟨r, hr, hmarks⟩ := loadSegments_marks hram
  rw [hload, Option.some_inj] at hr
  subst hr
  have hsame : ByteMemory.EqOn loaderBaseAddr 0x20 accessedImage ram' := by
    intro b hlo hhi
    rw [hmarks, accessedImage, hram.image b hlo hhi]
  have hword : ∀ j, j < 8 → m.read32 (0xc0000900 + 4 * j) =
      (videoToHigh loaderBaseAddr accessedImage).read32 (loaderBaseAddr + 4 * j) := by
    intro j hj
    refine ByteMemory.read32_congr fun k hk => ?_
    rw [Nat.add_assoc, Nat.add_assoc, hhigh _ (by omega)]
    exact videoToHigh_eqOn hsame _ (by omega) (by omega)
  have hsegment : ∀ j, j + 1 < 8 → segmentAt m (0xc0000900 + 4 * j) =
      segmentAt (videoToHigh loaderBaseAddr accessedImage) (loaderBaseAddr + 4 * j) := by
    intro j hj
    rw [segmentAt_eq_ofWords, segmentAt_eq_ofWords, hword j (by omega), Nat.add_assoc, ← Nat.mul_succ,
      hword (j + 1) hj, Nat.add_assoc, ← Nat.mul_succ]
  interval_cases i
  · rw [hsegment 2 (by decide)]
    rfl
  · rw [hsegment 4 (by decide)]
    rfl
  · rw [hsegment 6 (by decide)]
    rfl

/-- This is the table that the way of the boot leaves, seen through the page tables of the loader. -/
theorem BootMemory.gdtLoaded {sector : Nat → Nat → UInt16} {idle : UInt16} {size : Nat}
    {ram : ByteMemory} (h : BootMemory sector idle size ram)
    (hgdt : LoaderTable fun b => sectorByte sector 2 (b - 0x900)) :
    GdtLoaded fun b => videoToHigh loaderBaseAddr ram (b - 0xc0000000) := by
  obtain ⟨ram', hload, hmarks⟩ := loadSegments_marks hgdt
  refine ⟨_, ram', hgdt, hload, fun k hk => ?_⟩
  have haddr : 0xc0000900 + k - 0xc0000000 = loaderBaseAddr + k := by
    rw [loaderBaseAddr]
    omega
  dsimp only
  rw [haddr]
  refine videoToHigh_eqOn (fun b hlo hhi => ?_) _ (by omega) (by omega)
  obtain ⟨j, rfl⟩ := Nat.exists_eq_add_of_le hlo
  have hbase : loaderBaseAddr = 0x900 := rfl
  rw [hmarks]
  by_cases haccess : j ∈ accessBytes
  · rw [if_pos (List.mem_map_of_mem haccess), hbase, h.accessed j haccess, Nat.add_sub_cancel_left]
  · have hnot : loaderBaseAddr + j ∉ accessBytes.map (loaderBaseAddr + ·) := by
      intro hin
      obtain ⟨i, hi, heq⟩ := List.mem_map.mp hin
      exact haccess (Nat.add_left_cancel heq ▸ hi)
    rw [if_neg hnot, hbase, h.loader j (by omega) (by omega) haccess, Nat.add_sub_cancel_left,
      Nat.mod_eq_of_lt (by omega), show 2 + j / 512 = 2 by omega]

theorem GdtDesc.store_eqOn {desc : GdtDesc} {a start len : Nat}
    (h : a + 8 ≤ start ∨ start + len ≤ a) : ByteMemory.EqOn start len m (desc.store m a) :=
  fun _ hlo hhi => GdtDesc.store_outside (by omega)

theorem tssStores_outside {start len : Nat} (hplace : TssPlace tss)
    (hhi : start + len ≤ 0xc0000920) : ByteMemory.EqOn start len m (tssStores tss m) := by
  have := hplace.behind
  have hclear : ByteMemory.EqOn start len m
      (fun b => if tss.toNat ≤ b ∧ b < tss.toNat + tssSize.toNat then 0 else m b) := by
    intro b _ hb
    exact if_neg (by omega)
  exact ((((hclear.trans (ByteMemory.eqOn_write32 (by omega))).trans
    (ByteMemory.eqOn_write32 (by omega))).trans (GdtDesc.store_eqOn (by omega))).trans
    (GdtDesc.store_eqOn (by omega))).trans (GdtDesc.store_eqOn (by omega))

theorem tssStores_segment (tss : UInt32) (m : ByteMemory) :
    segmentAt (tssStores tss m) 0xc0000920 =
        { base := tss.toNat, rawLimit := 107, access := 0x89, flags := 8 } ∧
      some (segmentAt (tssStores tss m) 0xc0000928) = kernelSegment tss loadedAtStart 5 ∧
      some (segmentAt (tssStores tss m) 0xc0000930) = kernelSegment tss loadedAtStart 6 := by
  unfold tssStores
  refine ⟨?_, ?_, ?_⟩
  · rw [segmentAt_congr (GdtDesc.store_eqOn (by omega)),
      segmentAt_congr (GdtDesc.store_eqOn (by omega)), GdtDesc.segmentAt_store,
      makeGdtDesc_segment]
    rfl
  · rw [segmentAt_congr (GdtDesc.store_eqOn (by omega)), GdtDesc.segmentAt_store,
      makeGdtDesc_segment]
    rfl
  · rw [GdtDesc.segmentAt_store, makeGdtDesc_segment]
    rfl

theorem tssStores_tss (hplace : TssPlace tss) {k : Nat} (hk : k < 108) :
    tssStores tss m (tss.toNat + k) = tssByte k := by
  have := hplace.behind
  unfold tssStores
  rw [GdtDesc.store_outside (by omega), GdtDesc.store_outside (by omega),
    GdtDesc.store_outside (by omega)]
  by_cases hio : 104 ≤ k
  · obtain ⟨j, rfl⟩ := Nat.exists_eq_add_of_le hio
    refine UInt8.toNat_inj.mp ?_
    rw [← Nat.add_assoc, ByteMemory.write32_byte (by omega)]
    have hj : j < 4 := by omega
    interval_cases j <;> rfl
  · rw [ByteMemory.write32_outside (by omega)]
    by_cases hss : 8 ≤ k ∧ k < 12
    · obtain ⟨j, rfl⟩ := Nat.exists_eq_add_of_le hss.1
      refine UInt8.toNat_inj.mp ?_
      rw [← Nat.add_assoc, ByteMemory.write32_byte (by omega)]
      have hj : j < 4 := by omega
      interval_cases j <;> rfl
    · rw [ByteMemory.write32_outside (by omega), if_pos ⟨by omega, Nat.add_lt_add_left hk _⟩, tssByte,
        if_neg (by omega), if_neg (by omega)]

/-- `ltr` finds the descriptor that has just been stored. -/
theorem tssInit_eq (tss : UInt32) (m : ByteMemory) : tssInit tss m = some
    { mem := Function.update (tssStores tss m) (0xc0000920 + 5) 0x8b
      gdtr := { base := 0xc0000900, limit := 55 }
      tr := { base := tss.toNat, rawLimit := 107, access := 0x8b, flags := 8 } } := by
  have hsegment : ({ base := 0xc0000900, limit := 55 } : DescTable).segment (tssStores tss m)
      selectorTss = some { base := tss.toNat, rawLimit := 107, access := 0x89, flags := 8 } := by
    rw [← (tssStores_segment tss m).1]
    rfl
  have hgdtr : DescTable.ofOperand ((8 * 7 - 1 : UInt64) ||| ((0xc0000900 : UInt32).toUInt64 <<< 16)) =
      { base := 0xc0000900, limit := 55 } := by decide
  unfold tssInit ltr
  simp only [hgdtr, hsegment, Option.bind_eq_bind, Option.bind_some]
  rw [if_pos ⟨by simp [Segment.isStorage], by simp [Segment.type], by simp [Segment.present]⟩]
  rfl

theorem tssInit_ready (hplace : TssPlace tss) (hload : GdtLoaded m) (h : tssInit tss m = some s) :
    TablesReady tss loadedAtStart s := by
  have := hplace.behind
  rw [tssInit_eq, Option.some_inj] at h
  subst h
  have hother : ∀ start len, start + len ≤ 0xc0000925 ∨ 0xc0000926 ≤ start →
      ByteMemory.EqOn start len (tssStores tss m)
        (Function.update (tssStores tss m) (0xc0000920 + 5) 0x8b) := fun start len hout b hlo hhi =>
    Function.update_of_ne (by omega) _ _
  obtain ⟨htss, hcode, hdata⟩ := tssStores_segment tss m
  have hbyte : ∀ k, k < 108 → Function.update (tssStores tss m) (0xc0000920 + 5) 0x8b
      (tss.toNat + k) = tssByte k := fun k hk =>
    (hother tss.toNat 108 (.inr (by omega)) _ (by omega) (by omega)).trans (tssStores_tss hplace hk)
  refine ⟨rfl, rfl, fun i h1 h3 => decide_eq_true ⟨h1, h3⟩, ?_, fun k hk _ => hbyte k hk, ?_⟩
  · intro i h1 h6
    by_cases h3 : i ≤ 3
    · rw [segmentAt_congr (hother _ _ (.inl (by omega))),
        segmentAt_congr (tssStores_outside hplace (by omega)), hload.segment h1 h3]
    · have h4 : 4 ≤ i := by omega
      interval_cases i
      · rw [segmentAt_update, htss]
        rfl
      · rw [segmentAt_congr (hother _ _ (.inr (by omega))), hcode]
      · rw [segmentAt_congr (hother _ _ (.inr (by omega))), hdata]
  · have hzero : ∀ k, k < 4 → Function.update (tssStores tss m) (0xc0000920 + 5) 0x8b
        (tss.toNat + 4 + k) = 0 := by
      intro k hk
      rw [Nat.add_assoc, hbyte (4 + k) (by omega), tssByte, if_neg (by omega), if_neg (by omega)]
    dsimp only
    rw [ByteMemory.read32_zero hzero]
    rfl

/-- The selectors of a state with the tables of the kernel. -/
theorem TablesReady.selector (h : TablesReady tss accessed s) (selector : Nat) :
    s.gdtr.segment s.mem selector =
      if selector / 4 % 2 = 0 then kernelSegment tss accessed (selector / 8) else none := by
  rw [h.gdtr, DescTable.segment]
  by_cases hti : selector / 4 % 2 = 0
  · rw [if_pos hti]
    by_cases hindex : 1 ≤ selector / 8 ∧ selector / 8 ≤ 6
    · rw [if_pos ⟨hindex.1, hti, by dsimp only; omega⟩]
      exact h.segment _ hindex.1 hindex.2
    · rw [if_neg (by dsimp only; omega), kernelSegment, kernelDescriptor.eq_7]
      · rfl
      all_goals omega
  · rw [if_neg hti, if_neg fun hin => hti hin.2.1]

/-- A memory that has the structure as it was, but for `esp0`. -/
theorem TablesReady.congr_mem {m' : ByteMemory} {accessed' : Nat → Bool}
    (h : TablesReady tss accessed s) (hloaded : ∀ i, accessed i = true → accessed' i = true)
    (hsegment : ∀ i, 1 ≤ i → i ≤ 6 →
      some (segmentAt m' (0xc0000900 + 8 * i)) = kernelSegment tss accessed' i)
    (htss : ∀ k, k < 108 → k < 4 ∨ 8 ≤ k → m' (tss.toNat + k) = s.mem (tss.toNat + k))
    (hesp0 : (m'.read32 (tss.toNat + 4)).toNat % 4096 = 0) :
    TablesReady tss accessed' { s with mem := m' } where
  gdtr := h.gdtr
  tr := h.tr
  loaded i h1 h3 := hloaded i (h.loaded i h1 h3)
  segment := hsegment
  bytes k hk hother := (htss k hk hother).trans (h.bytes k hk hother)
  esp0 := hesp0

/-- **The accessed bit**: loading a segment register marks its descriptor and no other. -/
theorem TablesReady.load {selector : Nat} {m' : ByteMemory} (hplace : TssPlace tss)
    (h : TablesReady tss accessed s) (hload : loadSelector s.gdtr selector s.mem = some m') :
    TablesReady tss (Function.update accessed (selector / 8) true) { s with mem := m' } := by
  have := hplace.behind
  obtain ⟨seg, hseg, hstorage, rfl⟩ := loadSelector_cases hload
  have hbase : s.gdtr.base = 0xc0000900 := by rw [h.gdtr]
  rw [h.gdtr, DescTable.segment, Option.ite_none_right_eq_some] at hseg
  obtain ⟨⟨hlow, -, hlimit⟩, hseg⟩ := hseg
  have hhigh : selector / 8 ≤ 6 := by
    have hlimit' : 8 * (selector / 8) + 7 ≤ 55 := hlimit
    omega
  rw [hbase]
  generalize selector / 8 = i at *
  -- only the access byte of this descriptor is written
  have hother : ∀ b, b ≠ 0xc0000900 + 8 * i + 5 →
      markAccessed s.mem (0xc0000900 + 8 * i) b = s.mem b := fun b hb => markAccessed_of_ne hb
  refine h.congr_mem (fun j hj => ?_) (fun j h1 h6 => ?_) (fun k _ _ => hother _ (by omega)) ?_
  · by_cases hji : j = i
    · rw [hji, Function.update_self]
    · rw [Function.update_of_ne hji, hj]
  · by_cases hji : j = i
    · subst hji
      have hat : segmentAt s.mem (0xc0000900 + 8 * j) = seg := Option.some_inj.mp hseg
      have hdesc := h.segment j h1 h6
      rw [hat, kernelSegment] at hdesc
      obtain ⟨desc, hdesc, hmarked⟩ := Option.map_eq_some_iff.mp hdesc.symm
      have hstored : desc.isStorage = true := by
        rw [← Segment.marked_isStorage (accessed j), hmarked, hstorage]
      rw [segmentAt_markAccessed (hat ▸ hstorage), hat, kernelSegment, Function.update_self, hdesc,
        ← hmarked, Segment.marked_marked hstored]
      rfl
    · have heq : ByteMemory.EqOn (0xc0000900 + 8 * j) 8 s.mem
          (markAccessed s.mem (0xc0000900 + 8 * i)) := fun b hlo hhi => hother b (by omega)
      rw [segmentAt_congr heq, h.segment j h1 h6, kernelSegment, kernelSegment,
        Function.update_of_ne hji]
  · have heq : ByteMemory.EqOn (tss.toNat + 4) 4 s.mem
        (markAccessed s.mem (0xc0000900 + 8 * i)) := fun b hlo hhi => hother b (by omega)
    rw [heq.read32 (Nat.le_refl _) (Nat.le_refl _)]
    exact h.esp0

/-- Every code and data segment can be loaded. -/
theorem TablesReady.loads (h : TablesReady tss accessed s) (selector : Nat)
    (hti : selector / 4 % 2 = 0) (hindex : selector / 8 ∈ [1, 2, 3, 5, 6]) :
    ∃ m', loadSelector s.gdtr selector s.mem = some m' := by
  have hseg := h.selector selector
  rw [if_pos hti] at hseg
  obtain ⟨seg, hkernel, hok⟩ : ∃ seg, kernelSegment tss accessed (selector / 8) = some seg ∧
      seg.isStorage = true ∧ seg.present = true := by
    generalize selector / 8 = i at hindex
    simp only [List.mem_cons, List.not_mem_nil, or_false] at hindex
    rcases hindex with rfl | rfl | rfl | rfl | rfl <;>
      exact ⟨_, rfl, by rw [Segment.marked_isStorage]; rfl, by rw [Segment.marked_present]; rfl⟩
  exact ⟨_, Option.bind_eq_some_iff.mpr ⟨seg, hseg.trans hkernel, by rw [if_pos hok]⟩⟩

/-- One step keeps the tables. -/
theorem TablesReady.step {e : TaskEvent} {s' : TaskRun} (hplace : TssPlace tss)
    (h : TablesReady tss accessed s) (hg : OnTables tss s e)
    (hstep : (taskRuns tss).step e s = some (.ok s')) : ∃ accessed', TablesReady tss accessed' s' := by
  have := hplace.behind
  cases e with
  | updateTssEsp pthread =>
    cases hstep
    have hout : ∀ start len, start + len ≤ tss.toNat + 4 ∨ tss.toNat + 8 ≤ start →
        ByteMemory.EqOn start len s.mem (updateTssEsp tss pthread s.mem) := fun start len hlo =>
      ByteMemory.eqOn_write32 (by omega)
    refine ⟨accessed, h.congr_mem (fun _ hi => hi) ?_ ?_ ?_⟩
    · intro i h1 h6
      rw [segmentAt_congr (hout _ _ (.inl (by omega)))]
      exact h.segment i h1 h6
    · intro k hk hother
      exact hout (tss.toNat + k) 1 (by omega) _ (Nat.le_refl _) (by omega)
    · rw [updateTssEsp, ByteMemory.read32_write32, UInt32.toNat_add]
      have hp : pthread.toNat % 4096 = 0 := hg
      have hsize : (4096 : UInt32).toNat = 4096 := rfl
      omega
  | loadSelector selector =>
    obtain ⟨m', hload, hok⟩ := Option.map_eq_some_iff.mp hstep
    cases hok
    exact ⟨_, h.load hplace hload⟩
  | elsewhere m' =>
    cases hstep
    obtain ⟨hgdt, htss⟩ := hg
    refine ⟨accessed, h.congr_mem (fun _ hi => hi) ?_ ?_ ?_⟩
    · intro i h1 h6
      have heq : ByteMemory.EqOn (0xc0000900 + 8 * i) 8 s.mem m' := fun b hlo hhi =>
        hgdt b (by omega) (by omega)
      rw [segmentAt_congr heq]
      exact h.segment i h1 h6
    · intro k hk _
      exact htss _ (by omega) (by omega)
    · rw [htss.read32 (by omega) (by omega)]
      exact h.esp0

theorem taskRuns_ready (hplace : TssPlace tss) (hs : (taskRuns tss).Reach (OnTables tss) s) :
    ∃ accessed, TablesReady tss accessed s := by
  have hinit : ∀ s, (taskRuns tss).init s → ∃ accessed, TablesReady tss accessed s :=
    fun _ ⟨_, hload, h⟩ => ⟨_, tssInit_ready hplace hload h⟩
  have hstep : ∀ s e s', (taskRuns tss).Reach (OnTables tss) s →
      (∃ accessed, TablesReady tss accessed s) → OnTables tss s e →
      (taskRuns tss).step e s = some (.ok s') → ∃ accessed, TablesReady tss accessed s' :=
    fun _ _ _ _ ⟨_, ih⟩ hg hstep => ih.step hplace hg hstep
  exact System.Reach.invariant hinit hstep s hs

/-- The map of the ports is the structure itself: the processor takes the word at offset 102, and
`io_base` lies at offset 104. -/
theorem TablesReady.ioPermitted (h : TablesReady tss accessed s) {port : Nat} (hport : port / 8 < 108) :
    Lib.ioPermitted s.tr s.mem 3 0 port = true ↔
      (s.mem (tss.toNat + port / 8)).toNat.testBit (port % 8) = false := by
  have htr := h.tr
  rw [kernelDescriptor, Option.some_inj] at htr
  have hmap : s.mem.read16 (tss.toNat + 102) = 0 := by
    have h102 : s.mem (tss.toNat + 102) = 0 := h.bytes 102 (by omega) (.inr (by omega))
    have h103 : s.mem (tss.toNat + 103) = 0 := h.bytes 103 (by omega) (.inr (by omega))
    rw [ByteMemory.read16, Nat.add_assoc, h102, h103]
    rfl
  have hlimit : s.tr.limit = 0x6bfff := by
    rw [htr]
    simp [Segment.limit, Segment.granular]
  have hbase : s.tr.base = tss.toNat := by rw [htr]
  unfold Lib.ioPermitted
  rw [hlimit, hbase, hmap, decide_eq_true_iff]
  constructor
  · rintro (hlevel | ⟨-, -, hbit⟩)
    · omega
    · exact hbit
  · intro hbit
    refine .inr ⟨by omega, ?_, hbit⟩
    rw [show (0 : UInt16).toNat = 0 from rfl]
    omega

/-- A bit of a word in the byte that holds it. -/
theorem testBit_read32 (m : ByteMemory) (a : Nat) {k : Nat} (hk : k < 32) :
    (m (a + k / 8)).toNat.testBit (k % 8) = (m.read32 a).toNat.testBit k := by
  have hbyte : (m (a + k / 8)).toNat = (m.read32 a).toNat / 2 ^ (8 * (k / 8)) % 2 ^ 8 := by
    have h0 := (m a).toNat_lt
    have h1 := (m (a + 1)).toNat_lt
    have h2 := (m (a + 2)).toNat_lt
    have h3 := (m (a + 3)).toNat_lt
    have hbytes : k / 8 < 4 := by omega
    rw [read32_toNat]
    interval_cases k / 8
    · rw [Nat.add_zero]
      omega
    · omega
    · omega
    · omega
  rw [hbyte, Nat.testBit_mod_two_pow, Nat.testBit_div_two_pow, Nat.mod_add_div,
    decide_eq_true (Nat.mod_lt k (by omega)), Bool.true_and]

/-- **The selectors of the sources name the segments they are meant for**, whatever has run since
`tss_init`, as they were stored but for the accessed bits: those of the loader's three segments are
set. A user process can load two of the segments, and both span the whole space. -/
theorem segments_kept (hplace : TssPlace tss) (hs : (taskRuns tss).Reach (OnTables tss) s) :
    ∃ accessed : Nat → Bool, (∀ i, 1 ≤ i → i ≤ 3 → accessed i = true) ∧
      (∀ selector, s.gdtr.segment s.mem selector =
        if selector / 4 % 2 = 0 then kernelSegment tss accessed (selector / 8) else none) ∧
      ∀ selector seg, s.gdtr.segment s.mem selector = some seg → seg.isStorage = true →
        (seg.dpl = 3 ↔ selector / 8 = 5 ∨ selector / 8 = 6) ∧
        (seg.dpl = 3 → seg.base = 0 ∧ seg.limit = 0xffffffff) := by
  obtain ⟨accessed, hready⟩ := taskRuns_ready hplace hs
  refine ⟨accessed, hready.loaded, hready.selector, fun selector seg hseg hstorage => ?_⟩
  rw [hready.selector] at hseg
  split at hseg
  · generalize selector / 8 = i at *
    obtain ⟨desc, hdesc, rfl⟩ := Option.map_eq_some_iff.mp hseg
    rw [Segment.marked_isStorage] at hstorage
    rw [Segment.marked_dpl, Segment.marked_base, Segment.marked_limit]
    match i, hdesc with
    | 1, hdesc | 2, hdesc | 3, hdesc | 5, hdesc | 6, hdesc =>
      rw [kernelDescriptor, Option.some_inj] at hdesc
      subst hdesc
      simp [Segment.dpl, Segment.limit, Segment.granular]
    | 4, hdesc =>
      rw [kernelDescriptor, Option.some_inj] at hdesc
      subst hdesc
      simp [Segment.isStorage] at hstorage
  · cases hseg

/-- The bits of the structure, less those of `esp0`. -/
theorem tssByte_testBit {port : Nat} (hport : port < 832) :
    (tssByte (port / 8)).toNat.testBit (port % 8) = false ↔ port ≠ 68 := by
  unfold tssByte
  by_cases hss : port / 8 = 8
  · have hbit : port % 8 < 8 := Nat.mod_lt port (by omega)
    rw [if_pos hss, show (port ≠ 68 ↔ port % 8 ≠ 4) by omega]
    generalize port % 8 = k at *
    interval_cases k <;> decide
  · rw [if_neg hss, if_neg (by omega)]
    have hne : port ≠ 68 := by omega
    simp [hne]

/-- **The ports of user processes**: their level is 3 and that of the flags is 0, and yet all ports
below 832 are open but those that have a bit in the stack pointers of the structure. So a user process
may program both interrupt controllers, the timer, the keyboard and the disk. -/
theorem user_ports (hplace : TssPlace tss) (hs : (taskRuns tss).Reach (OnTables tss) s) :
    (∀ port, port < 832 → (Lib.ioPermitted s.tr s.mem 3 0 port = true ↔ port ≠ 68 ∧
      (32 ≤ port → port < 64 → (tssAt s.mem tss.toNat).esp0.toNat.testBit (port - 32) = false))) ∧
    ∀ port ∈ [0x20, 0x21, 0xa0, 0xa1, 0x40, 0x43, 0x60, 0x1f0, 0x1f7],
      Lib.ioPermitted s.tr s.mem 3 0 port = true := by
  obtain ⟨accessed, hready⟩ := taskRuns_ready hplace hs
  have hports : ∀ port, port < 832 → (Lib.ioPermitted s.tr s.mem 3 0 port = true ↔ port ≠ 68 ∧
      (32 ≤ port → port < 64 → (tssAt s.mem tss.toNat).esp0.toNat.testBit (port - 32) = false)) := by
    intro port hport
    rw [hready.ioPermitted (by omega)]
    by_cases hesp : 32 ≤ port ∧ port < 64
    · obtain ⟨k, rfl⟩ := Nat.exists_eq_add_of_le hesp.1
      have hbit := testBit_read32 s.mem (tss.toNat + 4) (k := k) (by omega)
      rw [show tss.toNat + (32 + k) / 8 = tss.toNat + 4 + k / 8 by omega,
        show (32 + k) % 8 = k % 8 by omega, hbit, Nat.add_sub_cancel_left]
      exact ⟨fun h => ⟨by omega, fun _ _ => h⟩, fun h => h.2 (by omega) hesp.2⟩
    · rw [hready.bytes _ (by omega) (by omega), tssByte_testBit hport]
      exact ⟨fun h => ⟨h, fun hlo hhi => absurd ⟨hlo, hhi⟩ hesp⟩, fun h => h.1⟩
  refine ⟨hports, fun port hport => (hports port ?_).mpr ⟨?_, fun hlo hhi => ?_⟩⟩
  · simp only [List.mem_cons, List.not_mem_nil, or_false] at hport
    omega
  · simp only [List.mem_cons, List.not_mem_nil, or_false] at hport
    omega
  · -- the stack of a thread ends at the end of a page
    have hlow : port - 32 < 12 := by
      simp only [List.mem_cons, List.not_mem_nil, or_false] at hport
      omega
    have hzero : (tssAt s.mem tss.toNat).esp0.toNat % 2 ^ 12 = 0 := hready.esp0
    have hbit := Nat.testBit_mod_two_pow (tssAt s.mem tss.toNat).esp0.toNat 12 (port - 32)
    rw [hzero, Nat.zero_testBit, decide_eq_true hlow, Bool.true_and] at hbit
    exact hbit.symm

/-- A kernel that the loader has left with its table. -/
def loadedMemory : ByteMemory := fun b => videoToHigh loaderBaseAddr accessedImage (b - 0xc0000000)

theorem loaderImage_table : LoaderTable loaderImage := by
  intro i hi
  have hi8 : i < 8 := hi
  interval_cases i <;> rfl

theorem loadedMemory_gdt : GdtLoaded loadedMemory := by
  obtain ⟨ram', hload, hmarks⟩ := loadSegments_marks loaderImage_table
  have hram : ram' = accessedImage := funext hmarks
  refine ⟨loaderImage, ram', loaderImage_table, hload, fun k _ => ?_⟩
  have haddr : 0xc0000900 + k - 0xc0000000 = loaderBaseAddr + k := by
    rw [loaderBaseAddr]
    omega
  rw [loadedMemory, haddr, hram]

/-- The code segments of the kernel and of user processes, when `iretd` has just loaded the second. -/
theorem segments_kept_boot : ∃ s m, tssInit 0xc0010000 loadedMemory = some s ∧
    loadSelector s.gdtr 0x2b s.mem = some m ∧
    s.gdtr.segment m 0x08 = some { base := 0, rawLimit := 0xfffff, access := 0x99, flags := 0xc } ∧
    ∃ accessed : Bool, s.gdtr.segment m 0x2b = some
      { base := 0, rawLimit := 0xfffff, access := if accessed then 0xf9 else 0xf8, flags := 0xc } := by
  obtain ⟨s, hinit⟩ : ∃ s, tssInit 0xc0010000 loadedMemory = some s := ⟨_, tssInit_eq _ _⟩
  have hplace : TssPlace 0xc0010000 := ⟨by decide, by decide⟩
  obtain ⟨m, hload⟩ := (tssInit_ready hplace loadedMemory_gdt hinit).loads 0x2b rfl (by decide)
  have hreach : (taskRuns 0xc0010000).Reach (OnTables 0xc0010000) s :=
    .init ⟨_, loadedMemory_gdt, hinit⟩
  have hstep : (taskRuns 0xc0010000).step (.loadSelector 0x2b) s = some (.ok { s with mem := m }) :=
    Option.map_eq_some_iff.mpr ⟨m, hload, rfl⟩
  have hguard : OnTables 0xc0010000 s (.loadSelector 0x2b) := trivial
  have hnext := hreach.step hguard hstep
  obtain ⟨accessed, hloaded, hselector, -⟩ := segments_kept hplace hnext
  have hkernel := hselector 0x08
  have huser := hselector 0x2b
  refine ⟨_, m, hinit, hload, hkernel.trans ?_, accessed 5, huser.trans ?_⟩
  · show kernelSegment _ accessed 1 = _
    rw [kernelSegment, hloaded 1 (by decide) (by decide)]
    rfl
  · show kernelSegment _ accessed 5 = _
    rw [kernelSegment]
    cases accessed 5 <;> rfl

theorem user_ports_boot : ∃ s, tssInit 0xc0010000 loadedMemory = some s ∧
    Lib.ioPermitted s.tr s.mem 3 0 0x21 = true :=
  ⟨_, tssInit_eq _ _, (user_ports ⟨by decide, by decide⟩
    (.init ⟨_, loadedMemory_gdt, tssInit_eq _ _⟩)).2 0x21 (by decide)⟩

end Tables

/-! ## The interrupt descriptor table -/

/-- `make_idt_desc` -/
def makeIdtDesc (pGdesc : Nat) (attr : UInt8) (function : UInt32) (m : ByteMemory) : ByteMemory :=
  let m := m.write16 pGdesc (function &&& 0x0000ffff).toUInt16
  let m := m.write16 (pGdesc + 2) selectorKCode
  let m : ByteMemory := Function.update m (pGdesc + 4) 0
  let m : ByteMemory := Function.update m (pGdesc + 5) attr
  m.write16 (pGdesc + 6) ((function &&& 0xffff0000) >>> 16).toUInt16

/-- The loop of `idt_desc_init` from `i` on; `intrEntry` is `intr_entry_table`. -/
def idtDescLoop (idt : UInt32) (intrEntry : Nat → UInt32) : Nat → Nat → ByteMemory → ByteMemory
  | 0, _, m => m
  | n + 1, i, m =>
    idtDescLoop idt intrEntry n (i + 1)
      (makeIdtDesc (idt.toNat + 8 * i) idtDescAttrDpl0 (intrEntry i) m)

/-- `IDT_DESC_CNT` -/
def idtDescCnt : Nat := 0x30

/-- The stores of `idt_init` to the table, and what `lidt` loads. The arrays of `exception_init` lie
elsewhere. -/
def idtInit (idt : UInt32) (intrEntry : Nat → UInt32) (m : ByteMemory) : ByteMemory × DescTable :=
  let m := idtDescLoop idt intrEntry idtDescCnt 0 m
  let idtOperand : UInt64 := UInt64.ofNat (8 * idtDescCnt - 1) ||| (idt.toUInt64 <<< 16)
  (m, DescTable.ofOperand idtOperand)

section Gates

variable {idt : UInt32} {intrEntry : Nat → UInt32} {m : ByteMemory} {a i n : Nat}

theorem makeIdtDesc_outside {start len : Nat} (attr : UInt8) (function : UInt32)
    (h : a + 8 ≤ start ∨ start + len ≤ a) :
    ByteMemory.EqOn start len m (makeIdtDesc a attr function m) := by
  intro b hlo hhi
  unfold makeIdtDesc
  rw [ByteMemory.write16_outside (by omega), Function.update_of_ne (by omega),
    Function.update_of_ne (by omega), ByteMemory.write16_outside (by omega),
    ByteMemory.write16_outside (by omega)]

/-- The two halves of the offset make the address of the function. -/
theorem makeIdtDesc_gate (m : ByteMemory) (a : Nat) (attr : UInt8) (function : UInt32) :
    gateAt (makeIdtDesc a attr function m) a = { selector := selectorKCode, offset := function } ∧
      gateAccess (makeIdtDesc a attr function m) a = attr := by
  have hbody : ByteMemory.EqOn a 4 ((m.write16 a (function &&& 0x0000ffff).toUInt16).write16 (a + 2)
      selectorKCode) (makeIdtDesc a attr function m) := by
    intro b hlo hhi
    unfold makeIdtDesc
    rw [ByteMemory.write16_outside (by omega), Function.update_of_ne (by omega),
      Function.update_of_ne (by omega)]
  have hlow : (makeIdtDesc a attr function m).read16 a = (function &&& 0x0000ffff).toUInt16 := by
    rw [hbody.read16 (Nat.le_refl a) (by omega), (ByteMemory.eqOn_write16 (by omega)).read16
      (Nat.le_refl a) (Nat.le_refl (a + 2)), ByteMemory.read16_write16]
  have hselector : (makeIdtDesc a attr function m).read16 (a + 2) = selectorKCode := by
    rw [hbody.read16 (by omega) (by omega), ByteMemory.read16_write16]
  have hhigh : (makeIdtDesc a attr function m).read16 (a + 6) =
      ((function &&& 0xffff0000) >>> 16).toUInt16 := ByteMemory.read16_write16 _ _ _
  have hoffset : UInt32.ofNat ((function &&& 0x0000ffff).toUInt16.toNat +
      0x10000 * ((function &&& 0xffff0000) >>> 16).toUInt16.toNat) = function := by
    have hlt := function.toNat_lt
    have hupper : ((function &&& 0xffff0000) >>> 16).toNat = function.toNat / 2 ^ 16 % 2 ^ 16 :=
      and_shift_field function (by decide) rfl
    have hlower : (function &&& 0x0000ffff).toNat = function.toNat % 2 ^ 16 :=
      Nat.and_two_pow_sub_one_eq_mod function.toNat 16
    refine UInt32.toNat_inj.mp ?_
    rw [UInt32.toNat_toUInt16, UInt32.toNat_toUInt16, hupper, hlower, UInt32.toNat_ofNat_of_lt']
    · omega
    · simp only [UInt32.size]
      omega
  refine ⟨?_, ?_⟩
  · rw [gateAt, hlow, hselector, hhigh, hoffset]
  · unfold gateAccess makeIdtDesc
    rw [ByteMemory.write16_outside (by omega), Function.update_self]

theorem idtDescLoop_outside {start len : Nat} (m : ByteMemory)
    (h : start + len ≤ idt.toNat + 8 * i ∨ idt.toNat + 8 * (i + n) ≤ start) :
    ByteMemory.EqOn start len m (idtDescLoop idt intrEntry n i m) := by
  induction n generalizing i m with
  | zero => exact ByteMemory.EqOn.refl m
  | succ n ih => exact (makeIdtDesc_outside _ _ (by omega)).trans (ih _ (by omega))

/-- The loop fills one gate after the other. -/
theorem idtDescLoop_gate (m : ByteMemory) {k : Nat} (hlo : i ≤ k) (hhi : k < i + n) :
    gateAt (idtDescLoop idt intrEntry n i m) (idt.toNat + 8 * k) =
        { selector := selectorKCode, offset := intrEntry k } ∧
      gateAccess (idtDescLoop idt intrEntry n i m) (idt.toNat + 8 * k) = idtDescAttrDpl0 := by
  induction n generalizing i m with
  | zero => omega
  | succ n ih =>
    by_cases hk : k = i
    · subst hk
      have hrest : ByteMemory.EqOn (idt.toNat + 8 * k) 8
          (makeIdtDesc (idt.toNat + 8 * k) idtDescAttrDpl0 (intrEntry k) m)
          (idtDescLoop idt intrEntry (n + 1) k m) := idtDescLoop_outside _ (.inl (by omega))
      rw [gateAt_congr hrest, gateAccess_congr hrest]
      exact makeIdtDesc_gate m _ _ _
    · exact ih _ (by omega) (by omega)

/-- The operand of `lidt`. -/
theorem idtOperand_table (idt : UInt32) :
    DescTable.ofOperand (UInt64.ofNat (8 * idtDescCnt - 1) ||| (idt.toUInt64 <<< 16)) =
      { base := idt.toNat, limit := 8 * idtDescCnt - 1 } := by
  have hlt := idt.toNat_lt
  have hshift : (idt.toUInt64 <<< 16).toNat = idt.toNat * 2 ^ 16 := by
    rw [UInt64.toNat_shiftLeft, UInt32.toNat_toUInt64, show (16 : UInt64).toNat % 64 = 16 from rfl,
      Nat.shiftLeft_eq, Nat.mod_eq_of_lt (by omega)]
  have hor : (UInt64.ofNat (8 * idtDescCnt - 1) ||| (idt.toUInt64 <<< 16)).toNat =
      0x17f + idt.toNat * 2 ^ 16 := by
    rw [UInt64.toNat_or, hshift, show (UInt64.ofNat (8 * idtDescCnt - 1)).toNat = 0x17f from rfl,
      Nat.lor_comm, Nat.mul_comm, ← Nat.two_pow_add_eq_or_of_lt (by omega), Nat.add_comm]
  rw [DescTable.ofOperand, hor]
  refine congrArg₂ DescTable.mk ?_ ?_
  · omega
  · rw [idtDescCnt]
    omega

/-- **Every vector of the table leads to its entry point**, in the code segment of the kernel and in
every state whose memory still has the table; the other vectors lead nowhere. The privilege level of
the gates is 1, so that no `int` instruction of a user process gets through. -/
theorem idt_delivers (idt : UInt32) (intrEntry : Nat → UInt32) (m m' : ByteMemory)
    (hkept : ByteMemory.EqOn idt.toNat (8 * idtDescCnt) (idtInit idt intrEntry m).1 m')
    (vector : Nat) (cpl : Option Nat) :
    (idtInit idt intrEntry m).2.deliver m' vector cpl =
      if vector < idtDescCnt ∧ cpl.all (fun c => decide (c ≤ 1)) = true then
        some { selector := selectorKCode, offset := intrEntry vector }
      else none := by
  have htable : (idtInit idt intrEntry m).2 = { base := idt.toNat, limit := 8 * idtDescCnt - 1 } :=
    idtOperand_table idt
  have hpos : 0 < idtDescCnt := by decide
  rw [htable, DescTable.deliver]
  by_cases hvector : vector < idtDescCnt
  · have heq : ByteMemory.EqOn (idt.toNat + 8 * vector) 8 (idtInit idt intrEntry m).1 m' :=
      fun b hlo hhi => hkept b (by omega) (by omega)
    have hgate : gateAt (idtInit idt intrEntry m).1 (idt.toNat + 8 * vector) =
          { selector := selectorKCode, offset := intrEntry vector } ∧
        gateAccess (idtInit idt intrEntry m).1 (idt.toNat + 8 * vector) = idtDescAttrDpl0 :=
      idtDescLoop_gate m (Nat.zero_le vector) (by omega)
    have hattr : idtDescAttrDpl0.toNat % 0x20 = 0x0e ∧ idtDescAttrDpl0.toNat / 0x80 = 1 ∧
        idtDescAttrDpl0.toNat / 0x20 % 4 = 1 := by decide
    dsimp only
    rw [gateAt_congr heq, gateAccess_congr heq, hgate.1, hgate.2, hattr.2.2]
    refine if_congr ?_ rfl rfl
    constructor
    · rintro ⟨-, -, -, hlevel⟩
      exact ⟨hvector, hlevel⟩
    · rintro ⟨-, hlevel⟩
      exact ⟨by omega, hattr.1, hattr.2.1, hlevel⟩
  · rw [if_neg (by dsimp only; omega), if_neg fun h => hvector h.1]

theorem idt_delivers_timer :
    (idtInit 0xc0020000 (fun i => UInt32.ofNat (0xc0001500 + 0x20 * i)) fun _ => 0).2.deliver
        (idtInit 0xc0020000 (fun i => UInt32.ofNat (0xc0001500 + 0x20 * i)) fun _ => 0).1 0x20 none =
      some { selector := selectorKCode, offset := 0xc0001900 } :=
  idt_delivers _ _ _ _ (ByteMemory.EqOn.refl _) 0x20 none

end Gates

end OsKernel
