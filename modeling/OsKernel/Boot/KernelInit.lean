import OsKernel.Boot.SetupPage

/-!
# boot/loader.S: kernel_init

With paging on, the loader copies the segments of the kernel to the addresses it is linked for. It
looks at one byte of the type of a program header only, and it takes the size of a segment from
`p_filesz`.

- `kernelInit`, `memCpy`: the routines, with their stack, on any contents of the memory.
- `ProgramHeader`, `ElfImage`: the image that the loader has read from the disk.
- `lastCopy`, `kernelInit_copies`: what every byte of memory holds afterwards.
-/

namespace OsKernel

open Lib

/-! ## The routines -/

/-- `KERNEL_BIN_BASE_ADDR` -/
def kernelBinBaseAddr : UInt32 := 0x70000

/-- The registers that `kernel_init` uses, and physical memory. -/
structure LoaderState where
  eax : UInt32
  ebx : UInt32
  ecx : UInt32
  edx : UInt32
  esi : UInt32
  edi : UInt32
  ebp : UInt32
  esp : UInt32
  ram : ByteMemory

namespace LoaderState

/-- Read two bytes at any address. -/
def loadHalf (a : UInt32) (s : LoaderState) : Except Panic UInt32 := do
  let b₀ ← load8 pageDirTablePos s.ram a
  let b₁ ← load8 pageDirTablePos s.ram (a + 1)
  return UInt32.ofNat (b₀.toNat + 0x100 * b₁.toNat)

/-- Read four bytes at any address. -/
def loadWord (a : UInt32) (s : LoaderState) : Except Panic UInt32 := do
  let b₀ ← load8 pageDirTablePos s.ram a
  let b₁ ← load8 pageDirTablePos s.ram (a + 1)
  let b₂ ← load8 pageDirTablePos s.ram (a + 2)
  let b₃ ← load8 pageDirTablePos s.ram (a + 3)
  return UInt32.ofNat (b₀.toNat + 0x100 * b₁.toNat + 0x10000 * b₂.toNat + 0x1000000 * b₃.toNat)

def push (x : UInt32) (s : LoaderState) : Except Panic LoaderState := do
  let ram ← store32 pageDirTablePos s.ram (s.esp - 4) x
  return { s with esp := s.esp - 4, ram := ram }

def pop (s : LoaderState) : Except Panic (UInt32 × LoaderState) := do
  let x ← load32 pageDirTablePos s.ram s.esp
  return (x, { s with esp := s.esp + 4 })

/-- `ret` to the instruction behind the `call`. -/
def ret (eip : UInt32) (s : LoaderState) : Except Panic LoaderState := do
  let (x, s) ← s.pop
  assert (x = eip) .wildPointer
  return s

/-- `rep movsb` with `ecx` bytes left. -/
def repMovsb : Nat → LoaderState → Except Panic LoaderState
  | 0, s => .ok s
  | ecx + 1, s => do
    let x ← load8 pageDirTablePos s.ram s.esi
    let ram ← store8 pageDirTablePos s.ram s.edi x
    repMovsb ecx { s with esi := s.esi + 1, edi := s.edi + 1, ecx := s.ecx - 1, ram := ram }

end LoaderState

/-- `mem_cpy`, called from the instruction before `eip`. -/
def memCpy (eip : UInt32) (s : LoaderState) : Except Panic LoaderState := do
  let s ← s.push eip
  let s ← s.push s.ebp
  let s := { s with ebp := s.esp }
  let s ← s.push s.ecx
  let edi ← load32 pageDirTablePos s.ram (s.ebp + 8)
  let esi ← load32 pageDirTablePos s.ram (s.ebp + 12)
  let ecx ← load32 pageDirTablePos s.ram (s.ebp + 16)
  let s ← { s with edi := edi, esi := esi, ecx := ecx }.repMovsb ecx.toNat
  let (ecx, s) ← s.pop
  let (ebp, s) ← { s with ecx := ecx }.pop
  { s with ebp := ebp }.ret eip

/-- The body of `.each_segment`, up to `.PTNULL`. -/
def loadSegment (eip : UInt32) (s : LoaderState) : Except Panic LoaderState := do
  let type ← load8 pageDirTablePos s.ram (s.ebx + 0)
  if type = 0 then return s
  let filesz ← s.loadWord (s.ebx + 16)
  let s ← s.push filesz
  let offset ← s.loadWord (s.ebx + 4)
  let s := { s with eax := offset + kernelBinBaseAddr }
  let s ← s.push s.eax
  let vaddr ← s.loadWord (s.ebx + 8)
  let s ← s.push vaddr
  let s ← memCpy eip s
  return { s with esp := s.esp + 12 }

/-- `.each_segment`; `loop` comes back at most 2^32 times. -/
def eachSegment (eip : UInt32) : Nat → LoaderState → Except Panic LoaderState
  | 0, _ => .error .wildPointer
  | turns + 1, s => do
    let s ← loadSegment eip s
    let s := { s with ebx := s.ebx + s.edx, ecx := s.ecx - 1 }
    if s.ecx ≠ 0 then eachSegment eip turns s else return s

/-- `kernel_init`, called from the instruction before `eip`; the one of `mem_cpy` is before
`eipCpy`. -/
def kernelInit (eip eipCpy : UInt32) (s : LoaderState) : Except Panic LoaderState := do
  let s ← s.push eip
  let s := { s with eax := 0, ebx := 0, ecx := 0, edx := 0 }
  let phentsize ← s.loadHalf (kernelBinBaseAddr + 42)
  let s := { s with edx := s.edx &&& 0xffff0000 ||| phentsize }
  let phoff ← s.loadWord (kernelBinBaseAddr + 28)
  let s := { s with ebx := phoff }
  let s := { s with ebx := s.ebx + kernelBinBaseAddr }
  let phnum ← s.loadHalf (kernelBinBaseAddr + 44)
  let s := { s with ecx := s.ecx &&& 0xffff0000 ||| phnum }
  let s ← eachSegment eipCpy (2 ^ 32) s
  s.ret eip

/-! ## The image -/

/-- The fields of a program header. -/
structure ProgramHeader where
  type : UInt32
  offset : UInt32
  vaddr : UInt32
  filesz : UInt32
  memsz : UInt32

/-- The program header at an address. -/
def headerAt (ram : ByteMemory) (p : Nat) : ProgramHeader where
  type := ram.read32 p
  offset := ram.read32 (p + 4)
  vaddr := ram.read32 (p + 8)
  filesz := ram.read32 (p + 16)
  memsz := ram.read32 (p + 20)

def halfAt (ram : ByteMemory) (a : Nat) : Nat := (ram a).toNat + 0x100 * (ram (a + 1)).toNat

def phentsize (ram : ByteMemory) : Nat := halfAt ram (0x70000 + 42)

def phoff (ram : ByteMemory) : Nat := (ram.read32 (0x70000 + 28)).toNat

def phnum (ram : ByteMemory) : Nat := halfAt ram (0x70000 + 44)

/-- `cnt` program headers from `p` on. -/
def headersFrom (ram : ByteMemory) (p : Nat) : Nat → List ProgramHeader
  | 0 => []
  | cnt + 1 => headerAt ram p :: headersFrom ram (p + phentsize ram) cnt

def programHeaders (ram : ByteMemory) : List ProgramHeader :=
  headersFrom ram (0x70000 + phoff ram) (phnum ram)

namespace ProgramHeader

/-- `PT_LOAD` -/
def IsLoad (h : ProgramHeader) : Prop := h.type = 1

/-- The loader's test sees the low byte of the type. -/
def IsCopied (h : ProgramHeader) : Prop := h.type.toNat % 0x100 ≠ 0

/-- The header is not `PT_LOAD`, and copied all the same. -/
def IsStray (h : ProgramHeader) : Prop := h.IsCopied ∧ ¬ h.IsLoad

instance (h : ProgramHeader) : Decidable h.IsLoad := decEq h.type 1

instance (h : ProgramHeader) : Decidable h.IsCopied :=
  inferInstanceAs (Decidable (h.type.toNat % 0x100 ≠ 0))

instance (h : ProgramHeader) : Decidable h.IsStray :=
  inferInstanceAs (Decidable (h.IsCopied ∧ ¬ h.IsLoad))

/-- How many bytes the segment has in memory. -/
def span (h : ProgramHeader) : Nat := max h.filesz.toNat h.memsz.toNat

/-- Where the byte `k` of the segment goes. -/
def place (h : ProgramHeader) (ram : ByteMemory) (k : Nat) : Except Panic Nat :=
  translate pageDirTablePos ram (h.vaddr + UInt32.ofNat k)

/-- The byte `k` of the segment in the file. -/
def fileByte (h : ProgramHeader) (ram : ByteMemory) (k : Nat) : UInt8 :=
  ram (0x70000 + h.offset.toNat + k)

/-- The byte that the first `n` bytes of the segment put at `a`: the last one that goes there. -/
def copied (h : ProgramHeader) (ram : ByteMemory) : Nat → Nat → Option UInt8
  | 0, _ => none
  | n + 1, a =>
    match h.place ram n with
    | .ok b => if b = a then some (h.fileByte ram n) else h.copied ram n a
    | .error _ => h.copied ram n a

end ProgramHeader

/-- The byte that the last of the headers puts at `a`, out of those that `p` selects. -/
def lastCopy (p : ProgramHeader → Bool) (ram : ByteMemory) : List ProgramHeader → Nat → Option UInt8
  | [], _ => none
  | h :: hs, a => (lastCopy p ram hs a).or (if p h then h.copied ram h.filesz.toNat a else none)

/-- An ELF image of `len` bytes at `KERNEL_BIN_BASE_ADDR`. -/
structure ElfImage (len : Nat) (ram : ByteMemory) : Prop where
  header : 52 ≤ len
  bound : 0x70000 + len ≤ 0x100000
  count : 0 < phnum ram
  size : 32 ≤ phentsize ram
  table : phoff ram + phnum ram * phentsize ram ≤ len
  file : ∀ h ∈ programHeaders ram, h.type ≠ 0 → h.offset.toNat + h.filesz.toNat ≤ len

/-- The part of the loader's stack that `kernel_init` uses. -/
def LoaderStack (a : Nat) : Prop := 0x8e4 ≤ a ∧ a < 0x900

/-- The image, the loader with its page tables, and its stack. -/
def Occupied (len a : Nat) : Prop :=
  (0x70000 ≤ a ∧ a < 0x70000 + len) ∨ (0x900 ≤ a ∧ a < 0xe6d) ∨ (0x100000 ≤ a ∧ a < 0x200000) ∨
    LoaderStack a

/-! ## Accesses -/

/-- The image and the page tables are as in `ram₀`. -/
def ImageKept (len : Nat) (ram₀ ram : ByteMemory) : Prop :=
  ∀ a, ((0x70000 ≤ a ∧ a < 0x70000 + len) ∨ (0x100000 ≤ a ∧ a < 0x200000)) → ram a = ram₀ a

section Access

variable {len : Nat} {old ram₀ ram : ByteMemory} {s : LoaderState} {a : UInt32}

/-- All page tables are in the second MB. -/
theorem ImageKept.translate (h : ImageKept len (setupPage old) ram) (v : UInt32) :
    OsKernel.translate pageDirTablePos ram v =
      OsKernel.translate pageDirTablePos (setupPage old) v := by
  have hpos : pageDirTablePos = 0x100000 := rfl
  have hdir : ByteMemory.EqOn pageDirTablePos 0x1000 (setupPage old) ram :=
    fun b hlo hhi => h b (Or.inr (by omega))
  refine translate_congr (dirEntry_congr hdir (dirIndex_lt v)) fun hpresent => ?_
  have hlt := dirIndex_lt v
  have hframe : 0x100000 ≤ frame (dirEntry pageDirTablePos (setupPage old) (dirIndex v)) ∧
      frame (dirEntry pageDirTablePos (setupPage old) (dirIndex v)) + 0x1000 ≤ 0x200000 := by
    rw [setupPage_dir old hlt] at hpresent ⊢
    by_cases hlast : dirIndex v = 1023
    · rw [hlast]
      exact ⟨by decide, by decide⟩
    · have hcase : dirIndex v = 0 ∨ 768 ≤ dirIndex v := by
        by_contra hnone
        rw [bootDirEntry_none (by omega) (by omega)] at hpresent
        cases hpresent
      rw [(bootDirEntry_table (by omega) hcase).2, bootTable]
      split
      · omega
      · omega
  exact tableEntry_congr hdir (fun b hlo hhi => h b (Or.inr (by omega))) hlt (tableIndex_lt v)

/-- The first 1 MB is mapped to itself. -/
theorem ImageKept.low (h : ImageKept len (setupPage old) ram) (ha : a.toNat < 0x100000) :
    OsKernel.translate pageDirTablePos ram a = .ok a.toNat := by
  have hdir : dirIndex a = 0 := by unfold dirIndex; omega
  have htable : tableIndex a = a.toNat / 0x1000 := by unfold tableIndex; omega
  rw [h.translate, setupPage_mapped (Or.inl hdir) (by omega), htable]
  congr 1
  omega

/-- The stack is used at its new address. -/
theorem ImageKept.stack (h : ImageKept len (setupPage old) ram) {x : Nat} (hx : x < 0x1000)
    (ha : a.toNat = 0xc0000000 + x) : OsKernel.translate pageDirTablePos ram a = .ok x := by
  have hdir : dirIndex a = 768 := by unfold dirIndex; omega
  have htable : tableIndex a = 0 := by unfold tableIndex; omega
  rw [h.translate, setupPage_mapped (Or.inr hdir) (by omega), htable]
  congr 1
  omega

theorem ImageKept.load8 (h : ImageKept len (setupPage old) ram) (hlen : 0x70000 + len ≤ 0x100000)
    (hlo : 0x70000 ≤ a.toNat) (hhi : a.toNat < 0x70000 + len) :
    OsKernel.load8 pageDirTablePos ram a = .ok (setupPage old a.toNat) := by
  rw [OsKernel.load8, h.low (by omega), ok_bind, pure_eq_ok, h a.toNat (Or.inl ⟨hlo, hhi⟩)]

theorem toNat_add_ofNat {k : Nat} (ha : a.toNat + k < 2 ^ 32) :
    (a + UInt32.ofNat k).toNat = a.toNat + k := by
  rw [UInt32.toNat_add, UInt32.toNat_ofNat']
  omega

/-- A field of the image. -/
theorem ImageKept.loadWord (h : ImageKept len (setupPage old) s.ram)
    (hlen : 0x70000 + len ≤ 0x100000) (hlo : 0x70000 ≤ a.toNat)
    (hhi : a.toNat + 4 ≤ 0x70000 + len) :
    s.loadWord a = .ok ((setupPage old).read32 a.toNat) := by
  have hone : (a + 1).toNat = a.toNat + 1 := toNat_add_ofNat (k := 1) (by omega)
  have htwo : (a + 2).toNat = a.toNat + 2 := toNat_add_ofNat (k := 2) (by omega)
  have hthree : (a + 3).toNat = a.toNat + 3 := toNat_add_ofNat (k := 3) (by omega)
  rw [LoaderState.loadWord, h.load8 hlen hlo (by omega), h.load8 hlen (by omega) (by omega),
    h.load8 hlen (by omega) (by omega), h.load8 hlen (by omega) (by omega), hone, htwo, hthree]
  rfl

theorem ImageKept.loadHalf (h : ImageKept len (setupPage old) s.ram)
    (hlen : 0x70000 + len ≤ 0x100000) (hlo : 0x70000 ≤ a.toNat)
    (hhi : a.toNat + 2 ≤ 0x70000 + len) :
    s.loadHalf a = .ok (UInt32.ofNat (halfAt (setupPage old) a.toNat)) := by
  have hone : (a + 1).toNat = a.toNat + 1 := toNat_add_ofNat (k := 1) (by omega)
  rw [LoaderState.loadHalf, h.load8 hlen hlo (by omega), h.load8 hlen (by omega) (by omega), hone]
  rfl

end Access

/-! ## One segment -/

namespace ProgramHeader

variable {h : ProgramHeader} {ram : ByteMemory} {n a b : Nat} {x : UInt8}

/-- A byte more. -/
theorem copied_succ (hplace : h.place ram n = .ok b) :
    h.copied ram (n + 1) a = if b = a then some (h.fileByte ram n) else h.copied ram n a := by
  rw [copied, hplace]

theorem copied_none (hnone : ∀ k, k < n → h.place ram k ≠ .ok a) : h.copied ram n a = none := by
  induction n with
  | zero => rfl
  | succ n ih =>
    have hrest := ih fun k hk => hnone k (Nat.lt_succ_of_lt hk)
    cases hplace : h.place ram n with
    | ok b =>
      have hne : b ≠ a := fun heq => hnone n (Nat.lt_succ_self n) (heq ▸ hplace)
      rw [copied_succ hplace, if_neg hne]
      exact hrest
    | error e =>
      rw [copied, hplace]
      exact hrest

theorem copied_some (hcopied : h.copied ram n a = some x) :
    ∃ k, k < n ∧ h.place ram k = .ok a ∧ h.fileByte ram k = x := by
  induction n with
  | zero => cases hcopied
  | succ n ih =>
    have hrest : h.copied ram n a = some x →
        ∃ k, k < n + 1 ∧ h.place ram k = .ok a ∧ h.fileByte ram k = x := by
      intro hsome
      obtain ⟨k, hk, hplace⟩ := ih hsome
      exact ⟨k, Nat.lt_succ_of_lt hk, hplace⟩
    cases hplace : h.place ram n with
    | ok b =>
      rw [copied_succ hplace] at hcopied
      by_cases heq : b = a
      · rw [if_pos heq, Option.some.injEq] at hcopied
        exact ⟨n, Nat.lt_succ_self n, heq ▸ hplace, hcopied⟩
      · rw [if_neg heq] at hcopied
        exact hrest hcopied
    | error e =>
      rw [copied, hplace] at hcopied
      exact hrest hcopied

/-- A byte that no other byte of the segment goes to. -/
theorem copied_of_injective {k : Nat} (hk : k < n) (hplace : h.place ram k = .ok a)
    (hinj : ∀ l, l < n → h.place ram l = .ok a → l = k) :
    h.copied ram n a = some (h.fileByte ram k) := by
  induction n with
  | zero => omega
  | succ n ih =>
    have hrest : k < n → h.copied ram n a = some (h.fileByte ram k) :=
      fun hlt => ih hlt fun l hl => hinj l (Nat.lt_succ_of_lt hl)
    by_cases heq : n = k
    · rw [heq, copied_succ hplace, if_pos rfl]
    · cases hlast : h.place ram n with
      | ok b =>
        have hne : b ≠ a := fun hsame => heq (hinj n (Nat.lt_succ_self n) (hsame ▸ hlast))
        rw [copied_succ hlast, if_neg hne]
        exact hrest (by omega)
      | error e =>
        rw [copied, hlast]
        exact hrest (by omega)

/-- The memory `base` with `n` bytes of the segment copied. -/
def overlay (h : ProgramHeader) (ram base : ByteMemory) (n : Nat) : ByteMemory :=
  fun a => (h.copied ram n a).getD (base a)

/-- The first `n` bytes do not go where the loader has something. -/
def Apart (h : ProgramHeader) (len : Nat) (ram : ByteMemory) (n : Nat) : Prop :=
  ∀ k, k < n → ∀ a, h.place ram k = .ok a → ¬ Occupied len a

/-- The first `n` bytes go somewhere. -/
def Mapped (h : ProgramHeader) (ram : ByteMemory) (n : Nat) : Prop :=
  ∀ k, k < n → ∃ a, h.place ram k = .ok a

theorem Apart.copied {len : Nat} (hapart : h.Apart len ram n) (hocc : Occupied len a) :
    h.copied ram n a = none :=
  copied_none fun k hk hplace => hapart k hk a hplace hocc

theorem Apart.overlay {len : Nat} {base : ByteMemory} (hapart : h.Apart len ram n)
    (hocc : Occupied len a) : h.overlay ram base n a = base a := by
  rw [ProgramHeader.overlay, hapart.copied hocc, Option.getD_none]

theorem Apart.kept {len : Nat} {base : ByteMemory} (hapart : h.Apart len ram n)
    (hbase : ImageKept len ram base) : ImageKept len ram (h.overlay ram base n) := by
  intro a ha
  have hocc : Occupied len a := by
    unfold Occupied
    omega
  exact (hapart.overlay hocc).trans (hbase a ha)

theorem overlay_succ {base : ByteMemory} (hplace : h.place ram n = .ok b) :
    Function.update (h.overlay ram base n) b (h.fileByte ram n) = h.overlay ram base (n + 1) := by
  funext a
  rw [overlay, copied_succ hplace]
  by_cases heq : b = a
  · rw [heq, Function.update_self, if_pos rfl, Option.getD_some]
  · rw [Function.update_of_ne (Ne.symm heq), if_neg heq]
    rfl

end ProgramHeader

section Segment

variable {len : Nat} {old base : ByteMemory} {h : ProgramHeader} {s : LoaderState} {j n : Nat}

/-- `rep movsb` has copied `j` bytes. -/
structure Moving (old base : ByteMemory) (h : ProgramHeader) (j : Nat) (s : LoaderState) : Prop where
  esi : s.esi.toNat = 0x70000 + h.offset.toNat + j
  edi : s.edi = h.vaddr + UInt32.ofNat j
  ram : s.ram = h.overlay (setupPage old) base j

/-- The registers after one byte. -/
def LoaderState.moved (ram : ByteMemory) (s : LoaderState) : LoaderState :=
  { s with esi := s.esi + 1, edi := s.edi + 1, ecx := s.ecx - 1, ram := ram }

/-- One byte is read from the image and goes to its place, if it has one. -/
theorem Moving.step (hmoving : Moving old base h j s) (hlen : 0x70000 + len ≤ 0x100000)
    (hfile : h.offset.toNat + j < len) (hbase : ImageKept len (setupPage old) base)
    (hapart : h.Apart len (setupPage old) j) :
    s.repMovsb (n + 1) = (h.place (setupPage old) j >>= fun _ =>
      (s.moved (h.overlay (setupPage old) base (j + 1))).repMovsb n) := by
  have hkept : ImageKept len (setupPage old) s.ram := hmoving.ram ▸ hapart.kept hbase
  have hread : load8 pageDirTablePos s.ram s.esi = .ok (h.fileByte (setupPage old) j) := by
    rw [hkept.load8 hlen (by rw [hmoving.esi]; omega) (by rw [hmoving.esi]; omega), hmoving.esi,
      ProgramHeader.fileByte]
  have hplace : translate pageDirTablePos s.ram s.edi = h.place (setupPage old) j := by
    rw [hkept.translate, hmoving.edi]
    rfl
  rw [LoaderState.repMovsb, hread, ok_bind, store8, hplace]
  cases hat : h.place (setupPage old) j with
  | ok b =>
    rw [ok_bind, pure_eq_ok, ok_bind, ok_bind, hmoving.ram, ProgramHeader.overlay_succ hat,
      LoaderState.moved]
  | error e => rfl

theorem Moving.next (hmoving : Moving old base h j s) (hlen : 0x70000 + len ≤ 0x100000)
    (hfile : h.offset.toNat + j < len) :
    Moving old base h (j + 1) (s.moved (h.overlay (setupPage old) base (j + 1))) where
  esi := by
    have hat := hmoving.esi
    have hnext : (s.esi + 1).toNat = s.esi.toNat + 1 := toNat_add_ofNat (k := 1) (by omega)
    rw [LoaderState.moved, hnext, hat, Nat.add_assoc]
  edi := by
    rw [LoaderState.moved, hmoving.edi, UInt32.ofNat_add, ← UInt32.add_assoc]
    rfl
  ram := by rw [LoaderState.moved]

/-- **`rep movsb`** copies the rest of the segment. -/
theorem Moving.copies (hmoving : Moving old base h j s) (hlen : 0x70000 + len ≤ 0x100000)
    (hfile : h.offset.toNat + (j + n) ≤ len) (hbase : ImageKept len (setupPage old) base)
    (hapart : h.Apart len (setupPage old) (j + n)) (hmapped : h.Mapped (setupPage old) (j + n)) :
    ∃ esi edi ecx, s.repMovsb n = .ok
      { s with esi := esi, edi := edi, ecx := ecx, ram := h.overlay (setupPage old) base (j + n) } := by
  induction n generalizing j s with
  | zero =>
    refine ⟨s.esi, s.edi, s.ecx, ?_⟩
    rw [Nat.add_zero, ← hmoving.ram]
    rfl
  | succ n ih =>
    have hrest : j + 1 + n = j + (n + 1) := by omega
    obtain ⟨b, hplace⟩ := hmapped j (by omega)
    rw [hmoving.step hlen (by omega) hbase fun k hk => hapart k (by omega), hplace, ok_bind]
    obtain ⟨esi, edi, ecx, hrun⟩ := ih (hmoving.next hlen (by omega)) (hrest ▸ hfile)
      (hrest ▸ hapart) (hrest ▸ hmapped)
    exact ⟨esi, edi, ecx, hrest ▸ hrun⟩

/-- It gets to its end only where everything is mapped. -/
theorem Moving.mapped {s' : LoaderState} (hmoving : Moving old base h j s)
    (hlen : 0x70000 + len ≤ 0x100000) (hfile : h.offset.toNat + (j + n) ≤ len)
    (hbase : ImageKept len (setupPage old) base) (hapart : h.Apart len (setupPage old) (j + n))
    (hdone : h.Mapped (setupPage old) j) (hrun : s.repMovsb n = .ok s') :
    h.Mapped (setupPage old) (j + n) := by
  induction n generalizing j s with
  | zero => exact hdone
  | succ n ih =>
    have hrest : j + 1 + n = j + (n + 1) := by omega
    rw [hmoving.step hlen (by omega) hbase fun k hk => hapart k (by omega)] at hrun
    obtain ⟨b, hplace, hrun⟩ := bind_eq_ok.mp hrun
    have hone : h.Mapped (setupPage old) (j + 1) := by
      intro k hk
      by_cases heq : k = j
      · exact heq ▸ ⟨b, hplace⟩
      · exact hdone k (by omega)
    have hall := ih (hmoving.next hlen (by omega)) (hrest ▸ hfile) (hrest ▸ hapart) hone hrun
    exact hrest ▸ hall

end Segment

/-! ## The stack -/

/-- A byte of the first page, at its new address. -/
def stackAt (x : Nat) : UInt32 := UInt32.ofNat (0xc0000000 + x)

section Stack

variable {len x : Nat} {old ram₀ ram base : ByteMemory} {s : LoaderState} {h : ProgramHeader}

theorem stackAt_toNat (hx : x < 0x1000) : (stackAt x).toNat = 0xc0000000 + x := by
  rw [stackAt, UInt32.toNat_ofNat']
  omega

theorem stackAt_sub : stackAt (x + 4) - 4 = stackAt x := by
  have hsum : stackAt (x + 4) = stackAt x + 4 := by
    rw [stackAt, ← Nat.add_assoc, UInt32.ofNat_add]
    rfl
  rw [hsum, UInt32.add_sub_cancel]

theorem stackAt_add (x k : Nat) : stackAt x + UInt32.ofNat k = stackAt (x + k) := by
  rw [stackAt, stackAt, ← Nat.add_assoc, UInt32.ofNat_add _ k]

/-- The stack is neither image nor page table. -/
theorem ImageKept.write (hkept : ImageKept len ram₀ ram) (hx : x + 4 ≤ 0x900) (v : UInt32) :
    ImageKept len ram₀ (ram.write32 x v) := by
  intro a ha
  rw [ByteMemory.write32_outside (by omega)]
  exact hkept a ha

theorem ImageKept.push (hkept : ImageKept len (setupPage old) s.ram) (hx : x + 4 ≤ 0x900)
    (hesp : s.esp = stackAt (x + 4)) (v : UInt32) :
    s.push v = .ok { s with esp := stackAt x, ram := s.ram.write32 x v } := by
  rw [LoaderState.push, hesp, stackAt_sub, store32,
    hkept.stack (x := x) (by omega) (stackAt_toNat (by omega))]
  rfl

theorem ImageKept.load32 (hkept : ImageKept len (setupPage old) ram) (hx : x < 0x900) :
    OsKernel.load32 pageDirTablePos ram (stackAt x) = .ok (ram.read32 x) := by
  rw [OsKernel.load32, hkept.stack (x := x) (by omega) (stackAt_toNat (by omega))]
  rfl

theorem ImageKept.pop (hkept : ImageKept len (setupPage old) s.ram) (hx : x < 0x900)
    (hesp : s.esp = stackAt x) :
    s.pop = .ok (s.ram.read32 x, { s with esp := stackAt (x + 4) }) := by
  rw [LoaderState.pop, hesp, hkept.load32 hx, ok_bind, pure_eq_ok, ← stackAt_add]
  rfl

/-- `ret` finds the address that `call` has left. -/
theorem ImageKept.ret {eip : UInt32} (hkept : ImageKept len (setupPage old) s.ram) (hx : x < 0x900)
    (hesp : s.esp = stackAt x) (heip : s.ram.read32 x = eip) :
    s.ret eip = .ok { s with esp := stackAt (x + 4) } := by
  rw [LoaderState.ret, hkept.pop hx hesp, ok_bind, heip]
  simp

/-- The copied bytes leave the stack alone. -/
theorem ProgramHeader.Apart.read32 {n : Nat} (hapart : h.Apart len ram₀ n) (hlo : 0x8e4 ≤ x)
    (hhi : x + 4 ≤ 0x900) : (h.overlay ram₀ base n).read32 x = base.read32 x := by
  refine ByteMemory.read32_congr fun k hk => hapart.overlay ?_
  unfold Occupied LoaderStack
  omega

end Stack

/-! ## mem_cpy -/

section MemCpy

variable {len : Nat} {old : ByteMemory} {h : ProgramHeader} {s s' : LoaderState} {eip : UInt32}

/-- Memory with the return address and the two saved registers. -/
def LoaderState.saved (eip : UInt32) (s : LoaderState) : ByteMemory :=
  ((s.ram.write32 0x8ec eip).write32 0x8e8 s.ebp).write32 0x8e4 s.ecx

/-- The arguments of `mem_cpy` for a segment. -/
structure Arguments (h : ProgramHeader) (s : LoaderState) : Prop where
  esp : s.esp = stackAt 0x8f0
  dst : s.ram.read32 0x8f0 = h.vaddr
  src : s.ram.read32 0x8f4 = h.offset + kernelBinBaseAddr
  count : s.ram.read32 0x8f8 = h.filesz

/-- The registers that the loop counts with. -/
structure Restored (s s' : LoaderState) : Prop where
  ebx : s'.ebx = s.ebx
  ecx : s'.ecx = s.ecx
  edx : s'.edx = s.edx
  esp : s'.esp = s.esp

/-- Up to `rep movsb`. -/
def LoaderState.entered (eip : UInt32) (h : ProgramHeader) (s : LoaderState) : LoaderState :=
  { s with
    esp := stackAt 0x8e4, ebp := stackAt 0x8e8, edi := h.vaddr
    esi := h.offset + kernelBinBaseAddr, ecx := h.filesz, ram := s.saved eip }

/-- From there on. -/
def LoaderState.leave (eip : UInt32) (s : LoaderState) : Except Panic LoaderState := do
  let (ecx, s) ← s.pop
  let (ebp, s) ← { s with ecx := ecx }.pop
  { s with ebp := ebp }.ret eip

/-- The words of the stack after the three `push`. -/
theorem saved_read32 (eip : UInt32) (s : LoaderState) :
    (s.saved eip).read32 0x8e4 = s.ecx ∧ (s.saved eip).read32 0x8e8 = s.ebp ∧
      (s.saved eip).read32 0x8ec = eip := by
  unfold LoaderState.saved
  refine ⟨ByteMemory.read32_write32 _ _ _, ?_, ?_⟩
  · rw [ByteMemory.read32_write32_of_disjoint (by omega), ByteMemory.read32_write32]
  · rw [ByteMemory.read32_write32_of_disjoint (by omega),
      ByteMemory.read32_write32_of_disjoint (by omega), ByteMemory.read32_write32]

/-- They are below the arguments. -/
theorem saved_above {a : Nat} (ha : a < 0x8e4 ∨ 0x8f0 ≤ a) (eip : UInt32) (s : LoaderState) :
    s.saved eip a = s.ram a := by
  unfold LoaderState.saved
  rw [ByteMemory.write32_outside (by omega), ByteMemory.write32_outside (by omega),
    ByteMemory.write32_outside (by omega)]

theorem saved_argument {a : Nat} (ha : 0x8f0 ≤ a) (eip : UInt32) (s : LoaderState) :
    (s.saved eip).read32 a = s.ram.read32 a :=
  ByteMemory.read32_congr fun k _ => saved_above (by omega) eip s

theorem ImageKept.saved (hkept : ImageKept len (setupPage old) s.ram) (eip : UInt32) :
    ImageKept len (setupPage old) (s.saved eip) :=
  ((hkept.write (by omega) _).write (by omega) _).write (by omega) _

/-- `mem_cpy` up to `rep movsb`. -/
theorem memCpy_entered (eip : UInt32) (hkept : ImageKept len (setupPage old) s.ram) (hargs : Arguments h s) :
    memCpy eip s = ((s.entered eip h).repMovsb h.filesz.toNat >>= LoaderState.leave eip) := by
  have hsaved := hkept.saved eip
  have hdst : load32 pageDirTablePos (s.saved eip) (stackAt 0x8e8 + 8) = .ok h.vaddr := by
    have hat : stackAt 0x8e8 + 8 = stackAt 0x8f0 := by decide
    rw [hat, hsaved.load32 (by omega), saved_argument (Nat.le_refl _), hargs.dst]
  have hsrc : load32 pageDirTablePos (s.saved eip) (stackAt 0x8e8 + 12) =
      .ok (h.offset + kernelBinBaseAddr) := by
    have hat : stackAt 0x8e8 + 12 = stackAt 0x8f4 := by decide
    rw [hat, hsaved.load32 (by omega), saved_argument (by omega), hargs.src]
  have hcount : load32 pageDirTablePos (s.saved eip) (stackAt 0x8e8 + 16) = .ok h.filesz := by
    have hat : stackAt 0x8e8 + 16 = stackAt 0x8f8 := by decide
    rw [hat, hsaved.load32 (by omega), saved_argument (by omega), hargs.count]
  have hebp := ImageKept.push (x := 0x8e8) (s := { s with
    esp := stackAt 0x8ec, ram := s.ram.write32 0x8ec eip }) (hkept.write (by omega) _) (by omega)
    rfl s.ebp
  have hecx := ImageKept.push (x := 0x8e4) (s := { s with
    esp := stackAt 0x8e8, ebp := stackAt 0x8e8
    ram := (s.ram.write32 0x8ec eip).write32 0x8e8 s.ebp })
    ((hkept.write (by omega) _).write (by omega) _) (by omega) rfl s.ecx
  unfold LoaderState.saved at hdst hsrc hcount
  simp only [memCpy, hkept.push (x := 0x8ec) (by omega) hargs.esp, ok_bind, hebp, hecx, hdst, hsrc,
    hcount]
  rfl

/-- The saved registers come back. -/
theorem leave_eq {ecx ebp : UInt32} (hkept : ImageKept len (setupPage old) s.ram)
    (hesp : s.esp = stackAt 0x8e4) (hecx : s.ram.read32 0x8e4 = ecx)
    (hebp : s.ram.read32 0x8e8 = ebp) (heip : s.ram.read32 0x8ec = eip) :
    s.leave eip = .ok { s with ecx := ecx, ebp := ebp, esp := stackAt 0x8f0 } := by
  have hsecond := ImageKept.pop (s := { s with ecx := ecx, esp := stackAt 0x8e8 }) (x := 0x8e8) hkept
    (by omega) rfl
  have hthird := ImageKept.ret (s := { s with ecx := ecx, ebp := ebp, esp := stackAt 0x8ec })
    (x := 0x8ec) hkept (by omega) rfl heip
  simp only [LoaderState.leave, hkept.pop (x := 0x8e4) (by omega) hesp, ok_bind, hecx, hsecond, hebp,
    hthird]

/-- `rep movsb` starts with no byte copied. -/
theorem entered_moving (hlen : 0x70000 + len ≤ 0x100000)
    (hfile : h.offset.toNat + h.filesz.toNat ≤ len) (eip : UInt32) (s : LoaderState) :
    Moving old (s.saved eip) h 0 (s.entered eip h) where
  esi := by
    have hbase : kernelBinBaseAddr.toNat = 0x70000 := rfl
    rw [LoaderState.entered, UInt32.toNat_add, hbase]
    omega
  edi := by
    rw [LoaderState.entered]
    exact (UInt32.add_zero h.vaddr).symm
  ram := by
    rw [LoaderState.entered]
    rfl

/-- **`mem_cpy`** copies the segment and gives the registers back. -/
theorem memCpy_copies (eip : UInt32) (hkept : ImageKept len (setupPage old) s.ram) (hargs : Arguments h s)
    (hlen : 0x70000 + len ≤ 0x100000) (hfile : h.offset.toNat + h.filesz.toNat ≤ len)
    (hapart : h.Apart len (setupPage old) h.filesz.toNat)
    (hmapped : h.Mapped (setupPage old) h.filesz.toNat) :
    ∃ s', memCpy eip s = .ok s' ∧ Restored s s' ∧
      s'.ram = h.overlay (setupPage old) (s.saved eip) h.filesz.toNat := by
  have hsaved := hkept.saved eip
  obtain ⟨esi, edi, ecx, hrun⟩ := (entered_moving hlen hfile eip s).copies (n := h.filesz.toNat) hlen
    (by rwa [Nat.zero_add]) hsaved (by rwa [Nat.zero_add]) (by rwa [Nat.zero_add])
  rw [Nat.zero_add] at hrun
  obtain ⟨hecx, hebp, heip⟩ := saved_read32 eip s
  have hleave := leave_eq (s := { s.entered eip h with
    esi := esi, edi := edi, ecx := ecx
    ram := h.overlay (setupPage old) (s.saved eip) h.filesz.toNat }) (hapart.kept hsaved)
    (by rw [LoaderState.entered]) ((hapart.read32 (by omega) (by omega)).trans hecx)
    ((hapart.read32 (by omega) (by omega)).trans hebp)
    ((hapart.read32 (by omega) (by omega)).trans heip)
  have hall := memCpy_entered eip hkept hargs
  rw [hrun, ok_bind, hleave] at hall
  exact ⟨_, hall, ⟨rfl, rfl, rfl, hargs.esp.symm⟩, rfl⟩

/-- It comes back only when the segment has a place. -/
theorem memCpy_mapped (hkept : ImageKept len (setupPage old) s.ram) (hargs : Arguments h s)
    (hlen : 0x70000 + len ≤ 0x100000) (hfile : h.offset.toNat + h.filesz.toNat ≤ len)
    (hapart : h.Apart len (setupPage old) h.filesz.toNat) (hrun : memCpy eip s = .ok s') :
    h.Mapped (setupPage old) h.filesz.toNat := by
  rw [memCpy_entered eip hkept hargs] at hrun
  obtain ⟨t, hcopy, -⟩ := bind_eq_ok.mp hrun
  have hall := (entered_moving hlen hfile eip s).mapped (n := h.filesz.toNat) hlen
    (by rwa [Nat.zero_add]) (hkept.saved eip) (by rwa [Nat.zero_add])
    (fun k hk => absurd hk (Nat.not_lt_zero k)) hcopy
  rwa [Nat.zero_add] at hall

end MemCpy

/-! ## One program header -/

/-- The test looks at the low byte of the type. -/
theorem isCopied_iff (ram : ByteMemory) (p : Nat) : (headerAt ram p).IsCopied ↔ ram p ≠ 0 := by
  have h0 := (ram p).toNat_lt
  have h1 := (ram (p + 1)).toNat_lt
  have h2 := (ram (p + 2)).toNat_lt
  have h3 := (ram (p + 3)).toNat_lt
  have hzero : (0 : UInt8).toNat = 0 := rfl
  rw [ProgramHeader.IsCopied, headerAt, ByteMemory.read32, UInt32.toNat_ofNat', ne_eq, ne_eq,
    ← UInt8.toNat_inj, hzero]
  omega

/-- What gets copied is not of type `PT_NULL`. -/
theorem ProgramHeader.IsCopied.type {h : ProgramHeader} (hcopied : h.IsCopied) : h.type ≠ 0 := by
  intro hzero
  rw [ProgramHeader.IsCopied, hzero] at hcopied
  exact hcopied rfl

section Header

variable {len p : Nat} {old : ByteMemory} {h : ProgramHeader} {s s' : LoaderState} {eip : UInt32}

/-- Memory with the three arguments. -/
def LoaderState.argued (h : ProgramHeader) (s : LoaderState) : ByteMemory :=
  ((s.ram.write32 0x8f8 h.filesz).write32 0x8f4 (h.offset + kernelBinBaseAddr)).write32 0x8f0 h.vaddr

/-- Up to the `call` of `mem_cpy`. -/
def LoaderState.called (h : ProgramHeader) (s : LoaderState) : LoaderState :=
  { s with eax := h.offset + kernelBinBaseAddr, esp := stackAt 0x8f0, ram := s.argued h }

theorem called_counters (h : ProgramHeader) (s : LoaderState) :
    (s.called h).ebx = s.ebx ∧ (s.called h).ecx = s.ecx ∧ (s.called h).edx = s.edx := by
  rw [LoaderState.called]
  exact ⟨rfl, rfl, rfl⟩

theorem called_arguments (h : ProgramHeader) (s : LoaderState) : Arguments h (s.called h) where
  esp := by rw [LoaderState.called]
  dst := by
    rw [LoaderState.called, LoaderState.argued]
    exact ByteMemory.read32_write32 _ _ _
  src := by
    simp only [LoaderState.called, LoaderState.argued]
    rw [ByteMemory.read32_write32_of_disjoint (by omega), ByteMemory.read32_write32]
  count := by
    simp only [LoaderState.called, LoaderState.argued]
    rw [ByteMemory.read32_write32_of_disjoint (by omega),
      ByteMemory.read32_write32_of_disjoint (by omega), ByteMemory.read32_write32]

theorem argued_above {a : Nat} (ha : a < 0x8f0 ∨ 0x8fc ≤ a) (h : ProgramHeader) (s : LoaderState) :
    s.argued h a = s.ram a := by
  unfold LoaderState.argued
  rw [ByteMemory.write32_outside (by omega), ByteMemory.write32_outside (by omega),
    ByteMemory.write32_outside (by omega)]

theorem ImageKept.argued (hkept : ImageKept len (setupPage old) s.ram) (h : ProgramHeader) :
    ImageKept len (setupPage old) (s.argued h) :=
  ((hkept.write (by omega) _).write (by omega) _).write (by omega) _

/-- The registers at the head of `.each_segment`. -/
structure AtHeader (len : Nat) (old : ByteMemory) (p : Nat) (s : LoaderState) : Prop where
  ebx : s.ebx.toNat = p
  esp : s.esp = stackAt 0x8fc
  kept : ImageKept len (setupPage old) s.ram
  bound : 0x70000 + len ≤ 0x100000
  low : 0x70000 ≤ p
  high : p + 32 ≤ 0x70000 + len

theorem AtHeader.field (hat : AtHeader len old p s) {k : Nat} (hk : k + 4 ≤ 32) {t : LoaderState}
    (hram : ImageKept len (setupPage old) t.ram) :
    t.loadWord (s.ebx + UInt32.ofNat k) = .ok ((setupPage old).read32 (p + k)) := by
  have hbound := hat.bound
  have hlow := hat.low
  have hhigh := hat.high
  have hebx := hat.ebx
  have haddr : (s.ebx + UInt32.ofNat k).toNat = p + k := by
    rw [toNat_add_ofNat (by omega), hebx]
  rw [hram.loadWord hbound (by omega) (by omega), haddr]

theorem AtHeader.filesz (hat : AtHeader len old p s) {t : LoaderState}
    (hram : ImageKept len (setupPage old) t.ram) :
    t.loadWord (s.ebx + 16) = .ok (headerAt (setupPage old) p).filesz :=
  hat.field (k := 16) (by omega) hram

theorem AtHeader.offset (hat : AtHeader len old p s) {t : LoaderState}
    (hram : ImageKept len (setupPage old) t.ram) :
    t.loadWord (s.ebx + 4) = .ok (headerAt (setupPage old) p).offset :=
  hat.field (k := 4) (by omega) hram

theorem AtHeader.vaddr (hat : AtHeader len old p s) {t : LoaderState}
    (hram : ImageKept len (setupPage old) t.ram) :
    t.loadWord (s.ebx + 8) = .ok (headerAt (setupPage old) p).vaddr :=
  hat.field (k := 8) (by omega) hram

/-- The first byte of the header. -/
theorem AtHeader.type (hat : AtHeader len old p s) :
    load8 pageDirTablePos s.ram (s.ebx + 0) = .ok (setupPage old p) := by
  have hbound := hat.bound
  have hlow := hat.low
  have hhigh := hat.high
  have hebx := hat.ebx
  rw [UInt32.add_zero, hat.kept.load8 hbound (by omega) (by omega), hebx]

theorem loadSegment_skips (hat : AtHeader len old p s)
    (hnot : ¬ (headerAt (setupPage old) p).IsCopied) : loadSegment eip s = .ok s := by
  have hzero : setupPage old p = 0 := by
    by_contra hne
    exact hnot ((isCopied_iff _ _).mpr hne)
  rw [loadSegment, hat.type, ok_bind, if_pos hzero]
  rfl

theorem loadSegment_calls (hat : AtHeader len old p s)
    (hcopied : (headerAt (setupPage old) p).IsCopied) :
    loadSegment eip s = (memCpy eip (s.called (headerAt (setupPage old) p)) >>= fun s =>
      .ok { s with esp := s.esp + 12 }) := by
  have hne : setupPage old p ≠ 0 := (isCopied_iff _ _).mp hcopied
  have hkept := hat.kept
  obtain ⟨h, hheader⟩ : ∃ h, headerAt (setupPage old) p = h := ⟨_, rfl⟩
  have hfilesz := hat.filesz hkept
  have hone := hkept.push (x := 0x8f8) (by omega) hat.esp h.filesz
  have hoffset := hat.offset (t := { s with
    esp := stackAt 0x8f8, ram := s.ram.write32 0x8f8 h.filesz }) (hkept.write (by omega) _)
  have htwo := ImageKept.push (s := { s with
    eax := h.offset + kernelBinBaseAddr, esp := stackAt 0x8f8
    ram := s.ram.write32 0x8f8 h.filesz }) (x := 0x8f4) (hkept.write (by omega) _) (by omega) rfl
    (h.offset + kernelBinBaseAddr)
  have hsecond := (hkept.write (x := 0x8f8) (by omega) h.filesz).write (x := 0x8f4) (by omega)
    (h.offset + kernelBinBaseAddr)
  have hvaddr := hat.vaddr (t := { s with
    eax := h.offset + kernelBinBaseAddr, esp := stackAt 0x8f4
    ram := (s.ram.write32 0x8f8 h.filesz).write32 0x8f4 (h.offset + kernelBinBaseAddr) }) hsecond
  have hthree := ImageKept.push (s := { s with
    eax := h.offset + kernelBinBaseAddr, esp := stackAt 0x8f4
    ram := (s.ram.write32 0x8f8 h.filesz).write32 0x8f4 (h.offset + kernelBinBaseAddr) })
    (x := 0x8f0) hsecond (by omega) rfl h.vaddr
  rw [hheader] at hfilesz hoffset hvaddr ⊢
  simp only [loadSegment, hat.type, ok_bind, if_neg hne, hfilesz, hone, hoffset, htwo, hvaddr, hthree]
  rfl

/-- The copy of the headers `hs` stays in the image and apart from what the loader has. -/
def Contained (len : Nat) (ram : ByteMemory) (hs : List ProgramHeader) : Prop :=
  ∀ h ∈ hs, h.IsCopied → h.offset.toNat + h.filesz.toNat ≤ len ∧ h.Apart len ram h.filesz.toNat

/-- All bytes that are copied have a place. -/
def AllMapped (ram : ByteMemory) (hs : List ProgramHeader) : Prop :=
  ∀ h ∈ hs, h.IsCopied → h.Mapped ram h.filesz.toNat

/-- From `s` to `s'` the bytes `f` have been copied; the counters are the same. -/
structure Copies (f : Nat → Option UInt8) (s s' : LoaderState) : Prop where
  ram : ∀ a, ¬ LoaderStack a → s'.ram a = (f a).getD (s.ram a)
  ret : s'.ram.read32 0x8fc = s.ram.read32 0x8fc
  restored : Restored s s'

/-- One turn of `.each_segment`. -/
theorem loadSegment_copies (eip : UInt32) (hat : AtHeader len old p s)
    (hcont : Contained len (setupPage old) [headerAt (setupPage old) p])
    (hmapped : AllMapped (setupPage old) [headerAt (setupPage old) p]) :
    ∃ s', loadSegment eip s = .ok s' ∧
      Copies (lastCopy (fun h => decide h.IsCopied) (setupPage old) [headerAt (setupPage old) p])
        s s' := by
  by_cases hcopied : (headerAt (setupPage old) p).IsCopied
  · obtain ⟨hfile, hapart⟩ := hcont _ (List.mem_singleton_self _) hcopied
    have hthere := hmapped _ (List.mem_singleton_self _) hcopied
    have hcalled : ImageKept len (setupPage old) (s.called (headerAt (setupPage old) p)).ram :=
      hat.kept.argued _
    obtain ⟨t, hcpy, hrestored, hram⟩ := memCpy_copies eip hcalled (called_arguments _ s)
      hat.bound hfile hapart hthere
    have hbase : ∀ a, a < 0x8e4 ∨ 0x8fc ≤ a →
        (s.called (headerAt (setupPage old) p)).saved eip a = s.ram a :=
      fun a ha => (saved_above (by omega) _ _).trans (argued_above (by omega) _ _)
    have hword : t.ram.read32 0x8fc = s.ram.read32 0x8fc := by
      rw [hram, hapart.read32 (by omega) (by omega)]
      exact ByteMemory.read32_congr fun k _ => hbase (0x8fc + k) (by omega)
    have hstack : stackAt 0x8f0 + 12 = stackAt 0x8fc := by decide
    have hesp : t.esp + 12 = s.esp := by
      rw [hrestored.esp, (called_arguments _ s).esp, hat.esp, hstack]
    obtain ⟨hebx, hecx, hedx⟩ := called_counters (headerAt (setupPage old) p) s
    refine ⟨{ t with esp := t.esp + 12 }, ?_, ?_, hword, ?_⟩
    · rw [loadSegment_calls hat hcopied, hcpy, ok_bind]
    · intro a ha
      unfold LoaderStack at ha
      simp only [lastCopy, hcopied, decide_true, if_true, Option.none_or, hram,
        ProgramHeader.overlay, hbase a (by omega)]
    · exact ⟨hrestored.ebx.trans hebx, hrestored.ecx.trans hecx, hrestored.edx.trans hedx, hesp⟩
  · refine ⟨s, loadSegment_skips hat hcopied, fun a _ => ?_, rfl, rfl, rfl, rfl, rfl⟩
    simp [lastCopy, hcopied]

theorem loadSegment_mapped (hat : AtHeader len old p s)
    (hcont : Contained len (setupPage old) [headerAt (setupPage old) p])
    (hrun : loadSegment eip s = .ok s') :
    AllMapped (setupPage old) [headerAt (setupPage old) p] := by
  intro h hmem hcopied
  rw [List.mem_singleton] at hmem
  subst hmem
  obtain ⟨hfile, hapart⟩ := hcont _ (List.mem_singleton_self _) hcopied
  rw [loadSegment_calls hat hcopied] at hrun
  obtain ⟨t, hcpy, -⟩ := bind_eq_ok.mp hrun
  exact memCpy_mapped (hat.kept.argued _) (called_arguments _ s) hat.bound hfile hapart hcpy

end Header

/-! ## The table of program headers -/

section Table

variable {len p cnt turns : Nat} {old : ByteMemory} {s s' : LoaderState} {eip : UInt32}

/-- What is copied to a place was copied by some header. -/
theorem lastCopy_some {q : ProgramHeader → Bool} {ram : ByteMemory} {hs : List ProgramHeader}
    {a : Nat} {x : UInt8} (h : lastCopy q ram hs a = some x) :
    ∃ hd ∈ hs, q hd = true ∧ ∃ k, k < hd.filesz.toNat ∧ hd.place ram k = .ok a ∧
      hd.fileByte ram k = x := by
  induction hs with
  | nil => cases h
  | cons hd hs ih =>
    rw [lastCopy, Option.or_eq_some_iff] at h
    rcases h with htail | ⟨-, hhead⟩
    · obtain ⟨hd', hmem, hbyte⟩ := ih htail
      exact ⟨hd', List.mem_cons_of_mem _ hmem, hbyte⟩
    · by_cases hq : q hd = true
      · rw [if_pos hq] at hhead
        exact ⟨hd, List.mem_cons_self, hq, ProgramHeader.copied_some hhead⟩
      · rw [if_neg hq] at hhead
        cases hhead

theorem Contained.none {ram : ByteMemory} {hs : List ProgramHeader} {a : Nat}
    (hcont : Contained len ram hs) (hocc : Occupied len a) :
    lastCopy (fun h => decide h.IsCopied) ram hs a = none := by
  cases hcopy : lastCopy (fun h => decide h.IsCopied) ram hs a with
  | none => rfl
  | some x =>
    obtain ⟨hd, hmem, hq, k, hk, hplace, -⟩ := lastCopy_some hcopy
    exact absurd hocc ((hcont hd hmem (of_decide_eq_true hq)).2 k hk a hplace)

/-- The image stays when the headers are contained. -/
theorem Copies.kept {hs : List ProgramHeader} (hcont : Contained len (setupPage old) hs)
    (hcopies : Copies (lastCopy (fun h => decide h.IsCopied) (setupPage old) hs) s s')
    (hkept : ImageKept len (setupPage old) s.ram) : ImageKept len (setupPage old) s'.ram := by
  intro a ha
  have hocc : Occupied len a := by
    unfold Occupied
    omega
  have hstack : ¬ LoaderStack a := by
    unfold LoaderStack
    omega
  rw [hcopies.ram a hstack, hcont.none hocc, Option.getD_none]
  exact hkept a ha

/-- The registers of `.each_segment` with `cnt` headers to go. -/
structure AtTable (len : Nat) (old : ByteMemory) (p cnt : Nat) (s : LoaderState) : Prop where
  ebx : s.ebx.toNat = p
  ecx : s.ecx.toNat = cnt
  edx : s.edx.toNat = phentsize (setupPage old)
  esp : s.esp = stackAt 0x8fc
  kept : ImageKept len (setupPage old) s.ram
  bound : 0x70000 + len ≤ 0x100000
  low : 0x70000 ≤ p
  size : 32 ≤ phentsize (setupPage old)
  high : p + cnt * phentsize (setupPage old) ≤ 0x70000 + len

theorem AtTable.atHeader (hat : AtTable len old p (cnt + 1) s) : AtHeader len old p s where
  ebx := hat.ebx
  esp := hat.esp
  kept := hat.kept
  bound := hat.bound
  low := hat.low
  high := by
    have hhigh := hat.high
    have hsize := hat.size
    rw [Nat.add_mul, Nat.one_mul] at hhigh
    omega

/-- `add ebx, edx` and `loop` -/
def LoaderState.nextHeader (s : LoaderState) : LoaderState :=
  { s with ebx := s.ebx + s.edx, ecx := s.ecx - 1 }

theorem AtTable.next {f : Nat → Option UInt8} (hat : AtTable len old p (cnt + 1) s)
    (hcopies : Copies f s s') (hkept : ImageKept len (setupPage old) s'.ram) :
    AtTable len old (p + phentsize (setupPage old)) cnt s'.nextHeader := by
  have hbound := hat.bound
  have hhigh := hat.high
  have hebx := hat.ebx
  have hecx := hat.ecx
  have hedx := hat.edx
  rw [Nat.add_mul, Nat.one_mul] at hhigh
  have hone : (1 : UInt32).toNat = 1 := rfl
  refine ⟨?_, ?_, ?_, ?_, hkept, hat.bound, Nat.le_add_right_of_le hat.low, hat.size, by omega⟩
  · rw [LoaderState.nextHeader, hcopies.restored.ebx, hcopies.restored.edx, UInt32.toNat_add]
    omega
  · rw [LoaderState.nextHeader, hcopies.restored.ecx, UInt32.toNat_sub_of_le _ _ (by
      rw [UInt32.le_iff_toNat_le, hone]
      omega), hone]
    omega
  · rw [LoaderState.nextHeader, hcopies.restored.edx, hedx]
  · rw [LoaderState.nextHeader, hcopies.restored.esp, hat.esp]

/-- The first header goes before the others. -/
theorem lastCopy_cons (q : ProgramHeader → Bool) (ram : ByteMemory) (h : ProgramHeader)
    (hs : List ProgramHeader) (a : Nat) (x : UInt8) :
    (lastCopy q ram (h :: hs) a).getD x =
      (lastCopy q ram hs a).getD ((lastCopy q ram [h] a).getD x) := by
  simp only [lastCopy, Option.none_or]
  cases lastCopy q ram hs a with
  | none => simp
  | some y => simp

/-- What the loop leaves. -/
structure TableDone (f : Nat → Option UInt8) (s s' : LoaderState) : Prop where
  ram : ∀ a, ¬ LoaderStack a → s'.ram a = (f a).getD (s.ram a)
  ret : s'.ram.read32 0x8fc = s.ram.read32 0x8fc
  esp : s'.esp = stackAt 0x8fc

theorem AtTable.ecx_zero (hat : AtTable len old p cnt s) : s.ecx = 0 ↔ cnt = 0 := by
  have hzero : (0 : UInt32).toNat = 0 := rfl
  rw [← UInt32.toNat_inj, hat.ecx, hzero]

/-- **`.each_segment`** copies the segments one after another. -/
theorem eachSegment_copies (eip : UInt32) (hat : AtTable len old p cnt s) (hcnt : 0 < cnt) (hturns : cnt ≤ turns)
    (hcont : Contained len (setupPage old) (headersFrom (setupPage old) p cnt))
    (hmapped : AllMapped (setupPage old) (headersFrom (setupPage old) p cnt)) :
    ∃ s', eachSegment eip turns s = .ok s' ∧
      TableDone (lastCopy (fun h => decide h.IsCopied) (setupPage old)
        (headersFrom (setupPage old) p cnt)) s s' := by
  induction turns generalizing p cnt s with
  | zero => omega
  | succ turns ih =>
    obtain ⟨cnt, rfl⟩ : ∃ c, cnt = c + 1 := ⟨cnt - 1, by omega⟩
    have hcontHead : Contained len (setupPage old) [headerAt (setupPage old) p] :=
      fun h hmem => hcont h (List.mem_cons.mpr (Or.inl (List.mem_singleton.mp hmem)))
    have hcontTail : Contained len (setupPage old) (headersFrom (setupPage old)
        (p + phentsize (setupPage old)) cnt) := fun h hmem => hcont h (List.mem_cons_of_mem _ hmem)
    obtain ⟨t, hseg, hcopies⟩ := loadSegment_copies eip hat.atHeader hcontHead
      fun h hmem => hmapped h (List.mem_cons.mpr (Or.inl (List.mem_singleton.mp hmem)))
    have hnext := hat.next hcopies (hcopies.kept hcontHead hat.kept)
    have hesp : t.esp = stackAt 0x8fc := hcopies.restored.esp.trans hat.esp
    by_cases hlast : cnt = 0
    · -- the last header
      have hzero : t.nextHeader.ecx = 0 := hnext.ecx_zero.mpr hlast
      refine ⟨t.nextHeader, ?_, ?_, hcopies.ret, hesp⟩
      · rw [eachSegment, hseg, ok_bind]
        exact if_neg (not_not_intro hzero)
      · intro a ha
        subst hlast
        exact hcopies.ram a ha
    · have hmore : t.nextHeader.ecx ≠ 0 := fun hzero => hlast (hnext.ecx_zero.mp hzero)
      obtain ⟨s', hrun, hdone⟩ := ih hnext (by omega) (by omega) hcontTail
        fun h hmem => hmapped h (List.mem_cons_of_mem _ hmem)
      refine ⟨s', ?_, ?_, hdone.ret.trans hcopies.ret, hdone.esp⟩
      · rw [eachSegment, hseg, ok_bind]
        exact (if_pos hmore).trans hrun
      · intro a ha
        rw [hdone.ram a ha, headersFrom, lastCopy_cons]
        exact congrArg _ (hcopies.ram a ha)

/-- It gets to its end only where all segments have a place. -/
theorem eachSegment_mapped (hat : AtTable len old p cnt s) (hcnt : 0 < cnt)
    (hcont : Contained len (setupPage old) (headersFrom (setupPage old) p cnt))
    (hrun : eachSegment eip turns s = .ok s') :
    AllMapped (setupPage old) (headersFrom (setupPage old) p cnt) := by
  induction turns generalizing p cnt s with
  | zero => cases hrun
  | succ turns ih =>
    obtain ⟨cnt, rfl⟩ : ∃ c, cnt = c + 1 := ⟨cnt - 1, by omega⟩
    have hcontHead : Contained len (setupPage old) [headerAt (setupPage old) p] :=
      fun h hmem => hcont h (List.mem_cons.mpr (Or.inl (List.mem_singleton.mp hmem)))
    have hcontTail : Contained len (setupPage old) (headersFrom (setupPage old)
        (p + phentsize (setupPage old)) cnt) := fun h hmem => hcont h (List.mem_cons_of_mem _ hmem)
    rw [eachSegment] at hrun
    obtain ⟨t, hseg, hrun⟩ := bind_eq_ok.mp hrun
    have hhead := loadSegment_mapped hat.atHeader hcontHead hseg
    obtain ⟨t', hseg', hcopies⟩ := loadSegment_copies eip hat.atHeader hcontHead hhead
    obtain rfl : t' = t := by
      rw [hseg] at hseg'
      exact (Except.ok.inj hseg').symm
    have hnext := hat.next hcopies (hcopies.kept hcontHead hat.kept)
    have htail : AllMapped (setupPage old) (headersFrom (setupPage old)
        (p + phentsize (setupPage old)) cnt) := by
      by_cases hlast : cnt = 0
      · intro h hmem
        rw [hlast] at hmem
        cases hmem
      · have hmore : t'.nextHeader.ecx ≠ 0 := fun hzero => hlast (hnext.ecx_zero.mp hzero)
        have hrest : eachSegment eip turns t'.nextHeader = .ok s' := (if_pos hmore).symm.trans hrun
        exact ih hnext (by omega) hcontTail hrest
    intro h hmem
    rcases List.mem_cons.mp hmem with heq | hmem
    · exact hhead h (List.mem_singleton.mpr heq)
    · exact htail h hmem

end Table

/-! ## kernel_init -/

section KernelInit

variable {len : Nat} {old : ByteMemory} {s s' : LoaderState} {eip eipCpy : UInt32}

/-- `kernel_init` is called with paging on, after `setup_page`, on the loader's stack. -/
structure Called (len : Nat) (old : ByteMemory) (s : LoaderState) : Prop where
  ram : s.ram = setupPage old
  esp : s.esp = 0xc0000900
  image : ElfImage len (setupPage old)

/-- Up to `.each_segment`. -/
def LoaderState.counting (eip : UInt32) (old : ByteMemory) (s : LoaderState) : LoaderState :=
  { s with
    eax := 0, ebx := (setupPage old).read32 (0x70000 + 28) + kernelBinBaseAddr
    ecx := UInt32.ofNat (phnum (setupPage old)), edx := UInt32.ofNat (phentsize (setupPage old))
    esp := stackAt 0x8fc, ram := s.ram.write32 0x8fc eip }

theorem halfAt_lt (ram : ByteMemory) (a : Nat) : halfAt ram a < 0x10000 := by
  have h0 := (ram a).toNat_lt
  have h1 := (ram (a + 1)).toNat_lt
  unfold halfAt
  omega

/-- A half goes to the low half of a register that was clear. -/
theorem or_half (x : UInt32) : (0 : UInt32) &&& 0xffff0000 ||| x = x := by
  rw [UInt32.zero_and, UInt32.zero_or]

theorem Called.counts (hcall : Called len old s) (eip : UInt32) :
    AtTable len old (0x70000 + phoff (setupPage old)) (phnum (setupPage old))
      (s.counting eip old) where
  ebx := by
    have hbase : kernelBinBaseAddr.toNat = 0x70000 := rfl
    have hoff : ((setupPage old).read32 (0x70000 + 28)).toNat = phoff (setupPage old) := rfl
    have htable := hcall.image.table
    have hbound := hcall.image.bound
    rw [LoaderState.counting, UInt32.toNat_add, hbase, hoff]
    omega
  ecx := by
    have hlt := halfAt_lt (setupPage old) (0x70000 + 44)
    rw [LoaderState.counting, UInt32.toNat_ofNat']
    exact Nat.mod_eq_of_lt (Nat.lt_trans hlt (by decide))
  edx := by
    have hlt := halfAt_lt (setupPage old) (0x70000 + 42)
    rw [LoaderState.counting, UInt32.toNat_ofNat']
    exact Nat.mod_eq_of_lt (Nat.lt_trans hlt (by decide))
  esp := by rw [LoaderState.counting]
  kept := by
    rw [LoaderState.counting, hcall.ram]
    exact ImageKept.write (fun _ _ => rfl) (by omega) eip
  bound := hcall.image.bound
  low := Nat.le_add_right _ _
  size := hcall.image.size
  high := by
    have htable := hcall.image.table
    omega

/-- `e_phentsize` -/
theorem Called.loadSize (hcall : Called len old s) {t : LoaderState}
    (hkept : ImageKept len (setupPage old) t.ram) :
    t.loadHalf (kernelBinBaseAddr + 42) = .ok (UInt32.ofNat (phentsize (setupPage old))) := by
  have hheader := hcall.image.header
  have hat : (kernelBinBaseAddr + 42).toNat = 0x70000 + 42 := rfl
  rw [hkept.loadHalf hcall.image.bound (by omega) (by omega), hat, phentsize]

/-- `e_phoff` -/
theorem Called.loadOff (hcall : Called len old s) {t : LoaderState}
    (hkept : ImageKept len (setupPage old) t.ram) :
    t.loadWord (kernelBinBaseAddr + 28) = .ok ((setupPage old).read32 (0x70000 + 28)) := by
  have hheader := hcall.image.header
  have hat : (kernelBinBaseAddr + 28).toNat = 0x70000 + 28 := rfl
  rw [hkept.loadWord hcall.image.bound (by omega) (by omega), hat]

/-- `e_phnum` -/
theorem Called.loadNum (hcall : Called len old s) {t : LoaderState}
    (hkept : ImageKept len (setupPage old) t.ram) :
    t.loadHalf (kernelBinBaseAddr + 44) = .ok (UInt32.ofNat (phnum (setupPage old))) := by
  have hheader := hcall.image.header
  have hat : (kernelBinBaseAddr + 44).toNat = 0x70000 + 44 := rfl
  rw [hkept.loadHalf hcall.image.bound (by omega) (by omega), hat, phnum]

/-- `kernel_init` reads the three fields and walks the table. -/
theorem kernelInit_eq (hcall : Called len old s) :
    kernelInit eip eipCpy s =
      (eachSegment eipCpy (2 ^ 32) (s.counting eip old) >>= LoaderState.ret eip) := by
  have hkept : ImageKept len (setupPage old) s.ram := fun a _ => by rw [hcall.ram]
  have htop : (0xc0000900 : UInt32) = stackAt (0x8fc + 4) := by decide
  have hpush := hkept.push (x := 0x8fc) (by omega) (hcall.esp.trans htop) eip
  have hwritten := hkept.write (x := 0x8fc) (by omega) eip
  have hsize := hcall.loadSize (t := { s with
    eax := 0, ebx := 0, ecx := 0, edx := 0, esp := stackAt 0x8fc
    ram := s.ram.write32 0x8fc eip }) hwritten
  have hoff := hcall.loadOff (t := { s with
    eax := 0, ebx := 0, ecx := 0, edx := UInt32.ofNat (phentsize (setupPage old))
    esp := stackAt 0x8fc, ram := s.ram.write32 0x8fc eip }) hwritten
  have hnum := hcall.loadNum (t := { s with
    eax := 0, ebx := (setupPage old).read32 (0x70000 + 28) + kernelBinBaseAddr, ecx := 0
    edx := UInt32.ofNat (phentsize (setupPage old)), esp := stackAt 0x8fc
    ram := s.ram.write32 0x8fc eip }) hwritten
  rw [kernelInit, hpush, ok_bind, LoaderState.counting]
  dsimp only
  rw [hsize, ok_bind, or_half, hoff, ok_bind, hnum, ok_bind, or_half]

/-- **What `kernel_init` does**: every byte outside its stack is the last one that a header put
there, or the old one. -/
theorem kernelInit_copies (eip eipCpy : UInt32) (hcall : Called len old s)
    (hcont : Contained len (setupPage old) (programHeaders (setupPage old)))
    (hmapped : AllMapped (setupPage old) (programHeaders (setupPage old))) :
    ∃ s', kernelInit eip eipCpy s = .ok s' ∧ ∀ a, ¬ LoaderStack a →
      s'.ram a = (lastCopy (fun h => decide h.IsCopied) (setupPage old)
        (programHeaders (setupPage old)) a).getD (setupPage old a) := by
  have hat := hcall.counts eip
  have hnum := halfAt_lt (setupPage old) (0x70000 + 44)
  have hturns : phnum (setupPage old) ≤ 2 ^ 32 := Nat.le_of_lt (Nat.lt_trans hnum (by decide))
  obtain ⟨t, hrun, hdone⟩ := eachSegment_copies eipCpy hat hcall.image.count hturns
    hcont hmapped
  have hstart : (s.counting eip old).ram = (setupPage old).write32 0x8fc eip := by
    rw [LoaderState.counting, hcall.ram]
  have hram : ∀ a, ¬ LoaderStack a → t.ram a = (lastCopy (fun h => decide h.IsCopied)
      (setupPage old) (programHeaders (setupPage old)) a).getD (setupPage old a) := by
    intro a ha
    rw [hdone.ram a ha, hstart]
    unfold LoaderStack at ha
    rw [ByteMemory.write32_outside (by omega)]
    rfl
  have hkept : ImageKept len (setupPage old) t.ram := by
    intro a ha
    have hstack : ¬ LoaderStack a := by
      unfold LoaderStack
      omega
    have hocc : Occupied len a := by
      unfold Occupied
      omega
    rw [hram a hstack, hcont.none hocc, Option.getD_none]
  have heip : t.ram.read32 0x8fc = eip := by
    rw [hdone.ret, hstart, ByteMemory.read32_write32]
  refine ⟨{ t with esp := stackAt (0x8fc + 4) }, ?_, hram⟩
  rw [kernelInit_eq hcall, hrun, ok_bind, hkept.ret (by omega) hdone.esp heip]

theorem kernelInit_mapped (hcall : Called len old s)
    (hcont : Contained len (setupPage old) (programHeaders (setupPage old)))
    (hrun : kernelInit eip eipCpy s = .ok s') :
    AllMapped (setupPage old) (programHeaders (setupPage old)) := by
  rw [kernelInit_eq hcall] at hrun
  obtain ⟨t, hloop, -⟩ := bind_eq_ok.mp hrun
  exact eachSegment_mapped (hcall.counts eip) hcall.image.count hcont hloop

end KernelInit

end OsKernel
