import OsKernel.Lib.X86

/-!
# kernel/kernel.S: interrupt entry and exit

Three descriptions of one stack frame: what the processor and the macro `VECTOR` push, what
`intr_exit` pops, and `struct intr_stack`.

- `intrEntryTable`: the vectors with the variant of the macro that each of them uses.
- `vectorEntry`: an interrupted state up to the call of the handler, `intrExit`: the way back.
- `IntrStack.Matches`: the structure holds the interrupted state field by field.
- `vectorEntry_stack`: the frame as it is pushed.
- `intr_transparent_iff`: for which vectors entry and exit are transparent.
-/

namespace OsKernel

open Lib

/-! ## The code -/

/-- The second argument of `VECTOR`: nothing where an error code has been pushed already, and
`push 0` where none has. -/
inductive ErrorMacro where
  | ERROR_CODE
  | ZERO
  deriving DecidableEq, Repr

def ErrorMacro.code : ErrorMacro → List Instr
  | .ERROR_CODE => []
  | .ZERO => [.pushImm 0]

/-- `intr_entry_table` -/
def intrEntryTable : List (Nat × ErrorMacro) :=
  [(0x00, .ZERO), (0x01, .ZERO), (0x02, .ZERO), (0x03, .ZERO), (0x04, .ZERO), (0x05, .ZERO),
   (0x06, .ZERO), (0x07, .ZERO), (0x08, .ZERO), (0x09, .ZERO), (0x0a, .ZERO), (0x0b, .ZERO),
   (0x0c, .ZERO), (0x0d, .ZERO), (0x0e, .ZERO), (0x0f, .ZERO), (0x10, .ZERO), (0x11, .ZERO),
   (0x12, .ZERO), (0x13, .ZERO), (0x14, .ZERO), (0x15, .ZERO), (0x16, .ZERO), (0x17, .ZERO),
   (0x18, .ZERO), (0x19, .ZERO), (0x1a, .ZERO), (0x1b, .ZERO), (0x1c, .ZERO), (0x1d, .ZERO),
   (0x1e, .ERROR_CODE), (0x1f, .ZERO),
   (0x20, .ZERO), (0x21, .ZERO), (0x22, .ZERO), (0x23, .ZERO), (0x24, .ZERO), (0x25, .ZERO),
   (0x26, .ZERO), (0x27, .ZERO), (0x28, .ZERO), (0x29, .ZERO), (0x2a, .ZERO), (0x2b, .ZERO),
   (0x2c, .ZERO), (0x2d, .ZERO), (0x2e, .ZERO), (0x2f, .ZERO)]

/-- `VECTOR` up to the call of the handler -/
def vectorCode (vec : Nat) (e : ErrorMacro) : List Instr :=
  e.code ++ [.pushSeg .ds, .pushSeg .es, .pushSeg .fs, .pushSeg .gs] ++
    [.pushad, .movAl 0x20, .outAl 0xa0, .outAl 0x20, .pushImm (UInt32.ofNat vec)]

/-- `intr_exit` up to `iretd` -/
def intrExitCode : List Instr :=
  [.addEsp 4, .popad] ++ [.popSeg .gs, .popSeg .fs, .popSeg .es, .popSeg .ds] ++ [.addEsp 4]

def intrExit (c : Cpu) : Cpu := iretd (execAll intrExitCode c)

/-- `SELECTOR_K_CODE` -/
def selectorKCode : UInt16 := UInt16.ofNat ((1 <<< 3) + (0 <<< 2) + 0)

/-- The exceptions for which the processor pushes an error code. -/
def pushesErrorCode (vec : Nat) : Bool := vec == 8 || (10 ≤ vec && vec ≤ 14) || vec == 17

def errorCode (vec : Nat) (code : UInt32) : Option UInt32 :=
  if pushesErrorCode vec then some code else none

/-- A state in which an interrupt can arrive: `cs` never holds a null selector. -/
structure Interrupted where
  cpu : Cpu
  cs_valid : cpu.cs ≠ 0

/-- An interrupt up to the call of its handler. The gate leads to the entry of the table with the
number of the vector. -/
def vectorEntry (tss : Tss) (entry : UInt32) (vec : Nat) (p : Nat × ErrorMacro) (code : UInt32)
    (c : Cpu) : Cpu :=
  execAll (vectorCode p.1 p.2) (interrupt tss ⟨selectorKCode, entry⟩ (errorCode vec code) c)

/-! ## struct intr_stack -/

structure IntrStack where
  vec_no : UInt32
  edi : UInt32
  esi : UInt32
  ebp : UInt32
  esp_dummy : UInt32
  ebx : UInt32
  edx : UInt32
  ecx : UInt32
  eax : UInt32
  gs : UInt32
  fs : UInt32
  es : UInt32
  ds : UInt32
  err_code : UInt32
  eip : UInt32
  cs : UInt32
  eflags : UInt32
  esp : UInt32
  ss : UInt32
  deriving DecidableEq, Repr

/-- The structure that lies at an address, each field at its offset. -/
def IntrStack.read (m : Memory32) (a : UInt32) : IntrStack :=
  let field (i : Nat) : UInt32 := m.read32 (a + UInt32.ofNat (4 * i))
  { vec_no := field 0, edi := field 1, esi := field 2, ebp := field 3, esp_dummy := field 4
    ebx := field 5, edx := field 6, ecx := field 7, eax := field 8
    gs := field 9, fs := field 10, es := field 11, ds := field 12
    err_code := field 13, eip := field 14, cs := field 15, eflags := field 16
    esp := field 17, ss := field 18 }

/-- The structure at `a` describes the interrupted state. Of a field for a segment register the lower
half counts, as it does when the register is popped. `esp` and `ss` belong to the structure when the
privilege level has changed. -/
structure IntrStack.Matches (s : IntrStack) (a : UInt32) (vec : Nat) (code : UInt32) (c : Cpu) :
    Prop where
  vec_no : s.vec_no = UInt32.ofNat vec
  edi : s.edi = c.reg .edi
  esi : s.esi = c.reg .esi
  ebp : s.ebp = c.reg .ebp
  /-- what `pushad` has stored: the stack pointer after the segment registers -/
  esp_dummy : s.esp_dummy = a + UInt32.ofNat (4 * 9)
  ebx : s.ebx = c.reg .ebx
  edx : s.edx = c.reg .edx
  ecx : s.ecx = c.reg .ecx
  eax : s.eax = c.reg .eax
  gs : s.gs.toUInt16 = c.seg .gs
  fs : s.fs.toUInt16 = c.seg .fs
  es : s.es.toUInt16 = c.seg .es
  ds : s.ds.toUInt16 = c.seg .ds
  err_code : s.err_code = (errorCode vec code).getD 0
  eip : s.eip = c.eip
  cs : s.cs = c.cs.toUInt32
  eflags : s.eflags = c.eflags
  outer : c.cpl ≠ 0 → s.esp = c.reg .esp ∧ s.ss = c.ss.toUInt32

/-- Everything the interrupted code can see of the processor is as before. -/
structure Resumed (c d : Cpu) : Prop where
  reg : d.reg = c.reg
  seg : d.seg = c.seg
  eip : d.eip = c.eip
  cs : d.cs = c.cs
  eflags : d.eflags = c.eflags
  ss : d.ss = c.ss

/-! ## The frame -/

/-- What the macro pushes in place of an error code. -/
def ErrorMacro.words : ErrorMacro → List UInt32
  | .ERROR_CODE => []
  | .ZERO => [0]

/-- The words between the saved registers and `eip`. -/
def codeWords (vec : Nat) (e : ErrorMacro) (code : UInt32) : List UInt32 :=
  e.words ++ (errorCode vec code).toList

theorem codeWords_length (vec : Nat) (e : ErrorMacro) (code : UInt32) :
    (codeWords vec e code).length ≤ 2 := by
  unfold codeWords errorCode
  cases e <;> split <;> simp [ErrorMacro.words]

/-- The registers in the order in which they lie in the frame. -/
def frameRegs : List Reg := [.edi, .esi, .ebp, .esp, .ebx, .edx, .ecx, .eax]

def frameSegs : List SegReg := [.gs, .fs, .es, .ds]

/-- The frame above the vector number; `e` is what `pushad` has found, and `g` what lies in the words
of the segment registers. -/
def frameWords (e : Reg → UInt32) (g : SegReg → UInt32) (codes : List UInt32) (c : Cpu) :
    List UInt32 :=
  frameRegs.map e ++ (frameSegs.map g ++
    (codes ++ c.eip :: c.cs.toUInt32 :: c.eflags :: outerStack c))

/-- These words of the frame hold the registers of `c`. -/
structure HoldsRegs (e : Reg → UInt32) (g : SegReg → UInt32) (c : Cpu) : Prop where
  reg : ∀ r, r ≠ .esp → e r = c.reg r
  seg : ∀ s, (g s).toUInt16 = c.seg s

section Frame

variable (tss : Tss) (entry : UInt32) (vec : Nat) (p : Nat × ErrorMacro) (code : UInt32) (c : Cpu)

theorem frameWords_length (e : Reg → UInt32) (g : SegReg → UInt32) (codes : List UInt32) :
    (frameWords e g codes c).length = 15 + codes.length + (outerStack c).length := by
  simp only [frameWords, frameRegs, frameSegs, List.length_append, List.length_map,
    List.length_cons, List.length_nil]
  omega

end Frame

/-! ### The blocks of the macro -/

section Blocks

variable {c : Cpu} {base : UInt32} {ws : List UInt32}

theorem errorMacro_stack (e : ErrorMacro) (h : c.Stack base ws) (hlen : ws.length ≤ 20) :
    (execAll e.code c).Stack base (e.words ++ ws) ∧ (execAll e.code c).seg = c.seg ∧
      ∀ r, r ≠ .esp → (execAll e.code c).reg r = c.reg r := by
  cases e with
  | ERROR_CODE => exact ⟨h, rfl, fun _ _ => rfl⟩
  | ZERO => exact ⟨h.push 0 (by omega), rfl, fun _ hr => Cpu.set_of_ne hr⟩

def saveSegs : List Instr := [.pushSeg .ds, .pushSeg .es, .pushSeg .fs, .pushSeg .gs]

theorem saveSegs_pushes (c : Cpu) :
    ∃ g : SegReg → UInt32, (∀ s, (g s).toUInt16 = c.seg s) ∧
      execAll saveSegs c = c.pushAll (frameSegs.reverse.map g) :=
  @Cpu.execAll_pushSegs frameSegs.reverse (by decide) c

theorem saveSegs_stack (h : c.Stack base ws) (hlen : ws.length ≤ 20) :
    ∃ g : SegReg → UInt32, (∀ s, (g s).toUInt16 = c.seg s) ∧
      (execAll saveSegs c).Stack base (frameSegs.map g ++ ws) ∧
      ∀ r, r ≠ .esp → (execAll saveSegs c).reg r = c.reg r := by
  obtain ⟨g, hg, hcode⟩ := saveSegs_pushes c
  have hfits : 4 * ((frameSegs.reverse.map g).length + ws.length) ≤ 2 ^ 32 := by
    rw [List.length_map, List.length_reverse]
    simp only [frameSegs, List.length_cons, List.length_nil]
    omega
  have hstack := h.pushAll _ hfits
  rw [← List.map_reverse, List.reverse_reverse] at hstack
  rw [hcode]
  exact ⟨g, hg, hstack, fun r hr => Cpu.pushAll_reg _ hr⟩

def signalEOI : List Instr := [.movAl 0x20, .outAl 0xa0, .outAl 0x20]

theorem signalEOI_stack (h : c.Stack base ws) : (execAll signalEOI c).Stack base ws := by
  have hesp : (exec c (.movAl 0x20)).reg .esp = c.reg .esp := Cpu.set_of_ne (by decide)
  exact h.of_eq hesp rfl

def saveRegs (vec : Nat) : List Instr := [.pushad] ++ signalEOI ++ [.pushImm (UInt32.ofNat vec)]

theorem saveRegs_stack (vec : Nat) (h : c.Stack base ws) (hlen : ws.length ≤ 20) :
    (execAll (saveRegs vec) c).Stack base (UInt32.ofNat vec :: (frameRegs.map c.reg ++ ws)) := by
  have hfits : 4 * (([.eax, .ecx, .edx, .ebx, .esp, .ebp, .esi, .edi].map c.reg).length +
      ws.length) ≤ 2 ^ 32 := by
    rw [List.length_map]
    simp only [List.length_cons, List.length_nil]
    omega
  have hpush : (exec c .pushad).Stack base (frameRegs.map c.reg ++ ws) := h.pushAll _ hfits
  have hcode : execAll (saveRegs vec) c =
      (execAll signalEOI (exec c .pushad)).push (UInt32.ofNat vec) := by
    rw [saveRegs, execAll_append, execAll_append, execAll_singleton, execAll_singleton, exec]
  rw [hcode]
  refine (signalEOI_stack hpush).push _ ?_
  rw [List.length_append, List.length_map]
  simp only [frameRegs, List.length_cons, List.length_nil]
  omega

end Blocks

section Frame

variable (tss : Tss) (entry : UInt32) (vec : Nat) (p : Nat × ErrorMacro) (code : UInt32) (c : Cpu)

/-- **The frame as it is pushed.** `e` is what `pushad` finds in the registers. -/
theorem vectorEntry_stack :
    ∃ (e : Reg → UInt32) (g : SegReg → UInt32), HoldsRegs e g c ∧
      e .esp = (vectorEntry tss entry vec p code c).reg .esp + UInt32.ofNat (4 * 9) ∧
      (vectorEntry tss entry vec p code c).Stack (intrBase tss c)
        (UInt32.ofNat p.1 :: frameWords e g (codeWords vec p.2 code) c) := by
  have houter := outerStack_length c
  have hcodes := codeWords_length vec p.2 code
  rw [codeWords, List.length_append] at hcodes
  have hcode : vectorEntry tss entry vec p code c = execAll (saveRegs p.1) (execAll saveSegs
      (execAll p.2.code (interrupt tss ⟨selectorKCode, entry⟩ (errorCode vec code) c))) := by
    rw [vectorEntry, vectorCode, execAll_append, execAll_append]
    rfl
  have hintr := interrupt_stack tss ⟨selectorKCode, entry⟩ (errorCode vec code) c
  have hseg := interrupt_seg tss ⟨selectorKCode, entry⟩ (errorCode vec code) c
  have hreg : ∀ r : Reg, r ≠ .esp →
      (interrupt tss ⟨selectorKCode, entry⟩ (errorCode vec code) c).reg r = c.reg r :=
    fun _ hr => interrupt_reg tss ⟨selectorKCode, entry⟩ (errorCode vec code) c hr
  rw [hcode]
  generalize interrupt tss ⟨selectorKCode, entry⟩ (errorCode vec code) c = i at *
  -- the macro's argument
  obtain ⟨hm, hmseg, hmreg⟩ := errorMacro_stack p.2 hintr (by
    simp only [List.length_append, List.length_cons]
    omega)
  rw [← List.append_assoc] at hm
  generalize execAll p.2.code i = m at *
  -- the segment registers
  obtain ⟨g, hgseg, hg, hgreg⟩ := saveSegs_stack hm (by
    simp only [List.length_append, List.length_cons]
    omega)
  generalize execAll saveSegs m = s at *
  -- the general registers and the vector number
  have hv := saveRegs_stack p.1 hg (by
    simp only [List.length_append, List.length_cons, List.length_map, frameSegs, List.length_nil]
    omega)
  have hholds : HoldsRegs s.reg g c := by
    refine ⟨fun r hr => (hgreg r hr).trans ((hmreg r hr).trans (hreg r hr)), fun q => ?_⟩
    rw [hgseg q, hmseg, hseg]
  refine ⟨s.reg, g, hholds, ?_, hv⟩
  exact @Cpu.Stack.esp_append s _ (UInt32.ofNat p.1 :: frameRegs.map s.reg) _ _ hg hv

/-- In the kernel, without an error code of the processor, 17 words are pushed. -/
theorem vectorEntry_grows (hcpl : c.cpl = 0) (hvec : pushesErrorCode vec = false) (n : Nat) :
    Cpu.Grows 17 c (vectorEntry tss entry vec (n, .ZERO) code c) := by
  have hcode : vectorEntry tss entry vec (n, .ZERO) code c = execAll (saveRegs n) (execAll saveSegs
      (execAll ErrorMacro.ZERO.code
        (interrupt tss ⟨selectorKCode, entry⟩ (errorCode vec code) c))) := by
    rw [vectorEntry, vectorCode, execAll_append, execAll_append]
    rfl
  have hnone : errorCode vec code = none := by
    rw [errorCode, hvec]
    rfl
  have hinner : innerStack tss c = c := if_pos hcpl
  have hintr : Cpu.Grows 3 c (interrupt tss ⟨selectorKCode, entry⟩ none c) := by
    have hpush := Cpu.grows_pushAll (c := c) [c.eflags, c.cs.toUInt32, c.eip]
      (show 4 * 3 < 2 ^ 32 by decide)
    unfold interrupt
    rw [hinner]
    exact ⟨hpush.esp, hpush.mem⟩
  rw [hcode, hnone]
  generalize interrupt tss ⟨selectorKCode, entry⟩ none c = i at *
  have hmacro : Cpu.Grows 1 i (execAll ErrorMacro.ZERO.code i) :=
    Cpu.grows_pushAll [0] (by decide)
  generalize execAll ErrorMacro.ZERO.code i = m at *
  have hsegs : Cpu.Grows 4 m (execAll saveSegs m) := by
    obtain ⟨q, -, hpush⟩ := saveSegs_pushes m
    rw [hpush]
    exact Cpu.grows_pushAll (frameSegs.reverse.map q) (show 4 * 4 < 2 ^ 32 by decide)
  generalize execAll saveSegs m = g at *
  have hpushad : exec g .pushad = g.pushAll
      ([.eax, .ecx, .edx, .ebx, .esp, .ebp, .esi, .edi].map g.reg) := rfl
  have hregs : Cpu.Grows 8 g (exec g .pushad) := by
    have hpush := Cpu.grows_pushAll (c := g)
      ([.eax, .ecx, .edx, .ebx, .esp, .ebp, .esi, .edi].map g.reg) (show 4 * 8 < 2 ^ 32 by decide)
    rw [← hpushad, List.length_map] at hpush
    exact hpush
  have hsave : execAll (saveRegs n) g =
      (execAll signalEOI (exec g .pushad)).pushAll [UInt32.ofNat n] := by
    rw [saveRegs, execAll_append, execAll_append, execAll_singleton, execAll_singleton, exec]
    rfl
  rw [hsave]
  generalize exec g .pushad = a at *
  have hal : (exec a (.movAl 0x20)).reg .esp = a.reg .esp := Cpu.set_of_ne (by decide)
  have heoi : Cpu.Grows 0 a (execAll signalEOI a) := Cpu.Grows.of_eq hal rfl
  have hlast := Cpu.grows_pushAll (c := execAll signalEOI a) [UInt32.ofNat n]
    (show 4 * 1 < 2 ^ 32 by decide)
  exact ((((hintr.trans hmacro (by decide)).trans hsegs (by decide)).trans hregs
    (by decide)).trans heoi (by decide)).trans hlast (show 4 * 17 < 2 ^ 32 by decide)

end Frame

/-! ## Field by field -/

section Fields

variable {m : Memory32} {a : UInt32} {vec : Nat} {x code : UInt32} {e : Reg → UInt32}
  {g : SegReg → UInt32} {c : Cpu}

/-- With one word in the place of the error code the frame is the structure. -/
theorem matches_of_stacked (he : HoldsRegs e g c) (hesp : e .esp = a + UInt32.ofNat (4 * 9))
    (hx : x = (errorCode vec code).getD 0)
    (h : Stacked m a (UInt32.ofNat vec :: frameWords e g [x] c)) :
    (IntrStack.read m a).Matches a vec code c where
  vec_no := h.read (i := 0) rfl
  edi := (h.read (i := 1) rfl).trans (he.reg .edi (by decide))
  esi := (h.read (i := 2) rfl).trans (he.reg .esi (by decide))
  ebp := (h.read (i := 3) rfl).trans (he.reg .ebp (by decide))
  esp_dummy := (h.read (i := 4) rfl).trans hesp
  ebx := (h.read (i := 5) rfl).trans (he.reg .ebx (by decide))
  edx := (h.read (i := 6) rfl).trans (he.reg .edx (by decide))
  ecx := (h.read (i := 7) rfl).trans (he.reg .ecx (by decide))
  eax := (h.read (i := 8) rfl).trans (he.reg .eax (by decide))
  gs := (congrArg UInt32.toUInt16 (h.read (i := 9) rfl)).trans (he.seg .gs)
  fs := (congrArg UInt32.toUInt16 (h.read (i := 10) rfl)).trans (he.seg .fs)
  es := (congrArg UInt32.toUInt16 (h.read (i := 11) rfl)).trans (he.seg .es)
  ds := (congrArg UInt32.toUInt16 (h.read (i := 12) rfl)).trans (he.seg .ds)
  err_code := (h.read (i := 13) rfl).trans hx
  eip := h.read (i := 14) rfl
  cs := h.read (i := 15) rfl
  eflags := h.read (i := 16) rfl
  outer := by
    intro hcpl
    have houter : outerStack c = [c.reg .esp, c.ss.toUInt32] := if_neg hcpl
    rw [frameWords, houter] at h
    exact ⟨h.read (i := 17) rfl, h.read (i := 18) rfl⟩

/-- No word there: the structure is read four bytes too high. -/
theorem not_matches_of_missing (hcs : c.cs ≠ 0) (hcode : errorCode vec code = none)
    (h : Stacked m a (UInt32.ofNat vec :: frameWords e g [] c)) :
    ¬ (IntrStack.read m a).Matches a vec code c := by
  intro hm
  have herr := hm.err_code
  have heip := hm.eip
  have hread13 : (IntrStack.read m a).err_code = c.eip := h.read (i := 13) rfl
  have hread14 : (IntrStack.read m a).eip = c.cs.toUInt32 := h.read (i := 14) rfl
  rw [hread13, hcode] at herr
  rw [hread14, herr] at heip
  exact hcs (UInt16.toUInt32_inj.mp heip)

/-- Two words there: the structure is read four bytes too low. -/
theorem not_matches_of_extra (hcs : c.cs ≠ 0) (hcode : errorCode vec code = some x)
    (h : Stacked m a (UInt32.ofNat vec :: frameWords e g [0, x] c)) :
    ¬ (IntrStack.read m a).Matches a vec code c := by
  intro hm
  have herr := hm.err_code
  have heip := hm.eip
  have hcs' := hm.cs
  have hread13 : (IntrStack.read m a).err_code = 0 := h.read (i := 13) rfl
  have hread14 : (IntrStack.read m a).eip = x := h.read (i := 14) rfl
  have hread15 : (IntrStack.read m a).cs = c.eip := h.read (i := 15) rfl
  rw [hread13, hcode, Option.getD_some] at herr
  rw [hread14] at heip
  rw [hread15, ← heip, ← herr] at hcs'
  exact hcs (UInt16.toUInt32_inj.mp hcs'.symm)

end Fields

/-! ## The way back -/

/-- `intr_exit` on a frame with one word in the place of the error code. -/
theorem intrExit_resumed {tss : Tss} {x : UInt32} {e : Reg → UInt32} {g : SegReg → UInt32}
    {c c' : Cpu} (he : HoldsRegs e g c)
    (hstack : (c'.drop 4).Stack (intrBase tss c) (frameWords e g [x] c)) (hcpl : c'.cpl = 0)
    (hss : c.cpl = 0 → c'.ss = c.ss) : Resumed c (intrExit c') := by
  have hcode : intrExit c' = iretd
      ((execAll (frameSegs.map .popSeg) ((c'.drop 4).popAll frameRegs)).drop 4) := rfl
  obtain ⟨hregs, hrest, hseg, hreg⟩ := Cpu.Stack.popAll hstack
  rw [hcode]
  generalize (c'.drop 4).popAll frameRegs = d at *
  obtain ⟨hsegs, hrest', hreg', hseg'⟩ := Cpu.Stack.popSegs hregs
  generalize execAll (frameSegs.map .popSeg) d = q at *
  have htail : (q.drop 4).Stack (intrBase tss c)
      (c.eip :: c.cs.toUInt32 :: c.eflags :: outerStack c) :=
    @Cpu.Stack.drop q _ [x] _ hsegs
  have hallregs : ∀ r : Reg, r ∈ frameRegs := by intro r; cases r <;> decide
  have hallsegs : ∀ r : SegReg, r ∈ frameSegs := by intro r; cases r <;> decide
  have hsame := hrest.trans hrest'
  have hqreg : ∀ r : Reg, r ≠ .esp → q.reg r = c.reg r := by
    intro r hr
    rw [hreg' r hr, hreg r hr, if_pos (hallregs r), he.reg r hr]
  have hqseg : q.seg = c.seg := by
    funext r
    rw [hseg' r, if_pos (hallsegs r), he.seg r]
  have hqcpl : (q.drop 4).cpl = 0 := by
    have hcs : (q.drop 4).cs = c'.cs := hsame.cs
    rw [Cpu.cpl, hcs]
    exact hcpl
  have hreg'' : ∀ r : Reg, r ≠ .esp → (q.drop 4).reg r = c.reg r := fun r hr =>
    (Cpu.set_of_ne hr).trans (hqreg r hr)
  by_cases hc : c.cpl = 0
  · -- the same stack is used on
    have houter : outerStack c = [] := if_pos hc
    have hbase : intrBase tss c = c.reg .esp := if_pos hc
    have hsame : ¬ (q.drop 4).cpl < c.cs &&& 3 := by
      have hcs : c.cs &&& 3 = 0 := hc
      rw [hqcpl, hcs]
      decide
    rw [houter, hbase] at htail
    rw [iretd_same htail hsame]
    refine ⟨?_, hqseg, rfl, rfl, rfl, hrest'.ss.trans (hrest.ss.trans (hss hc))⟩
    funext r
    by_cases hr : r = .esp
    · subst hr
      exact Cpu.set_self (q.drop 4) .esp (c.reg .esp)
    · exact (Cpu.set_of_ne hr).trans (hreg'' r hr)
  · -- the stack of the outer level is loaded
    have houter : outerStack c = [c.reg .esp, c.ss.toUInt32] := if_neg hc
    have hlower : (q.drop 4).cpl < c.cs &&& 3 := by
      rw [hqcpl]
      exact UInt16.pos_iff_ne_zero.mpr hc
    rw [houter] at htail
    rw [iretd_outer htail hlower]
    refine ⟨?_, hqseg, rfl, rfl, rfl, rfl⟩
    funext r
    by_cases hr : r = .esp
    · subst hr
      exact Cpu.set_self (q.drop 4) .esp (c.reg .esp)
    · exact (Cpu.set_of_ne hr).trans (hreg'' r hr)

/-- The way back writes nothing. -/
theorem intrExit_mem (c : Cpu) : (intrExit c).mem = c.mem := by
  have hpops : (execAll intrExitCode c).mem = c.mem := execAll_mem (by decide) c
  have hiretd : ∀ d : Cpu, (iretd d).mem = d.mem := by
    intro d
    unfold iretd
    dsimp only
    split
    · rfl
    · rfl
  exact (hiretd _).trans hpops

/-! ## Which vectors are transparent -/

/-- The vectors whose variant of the macro does not fit what the processor does. -/
def shiftedVectors : List Nat := [8, 10, 11, 12, 13, 14, 17, 0x1e]

/-- Every entry has its own number, and the variants are right outside `shiftedVectors`. -/
theorem intrEntryTable_entry {vec : Nat} {p : Nat × ErrorMacro}
    (hp : intrEntryTable[vec]? = some p) :
    p.1 = vec ∧ (vec ∉ shiftedVectors ↔ (p.2 = .ERROR_CODE ↔ pushesErrorCode vec = true)) := by
  have htable : ∀ i : Fin 48, ∀ q : Nat × ErrorMacro, intrEntryTable[i.val]? = some q →
      q.1 = i.val ∧
        (i.val ∉ shiftedVectors ↔ (q.2 = .ERROR_CODE ↔ pushesErrorCode i.val = true)) := by
    intro i q hq
    have hall : ∀ i : Fin 48, (intrEntryTable[i.val]?).all (fun q => decide (q.1 = i.val ∧
        (i.val ∉ shiftedVectors ↔ (q.2 = .ERROR_CODE ↔ pushesErrorCode i.val = true)))) = true := by
      decide
    have h := hall i
    rw [hq] at h
    exact of_decide_eq_true h
  have hlt : vec < 48 := (List.getElem?_eq_some_iff.mp hp).1
  exact htable ⟨vec, hlt⟩ p hp

/-- The three contents that the place of the error code can have. -/
theorem codeWords_cases (vec : Nat) (e : ErrorMacro) (code : UInt32) :
    ((e = .ERROR_CODE ↔ pushesErrorCode vec = true) ∧
        codeWords vec e code = [(errorCode vec code).getD 0]) ∨
      (¬ (e = .ERROR_CODE ↔ pushesErrorCode vec = true) ∧ errorCode vec code = none ∧
        codeWords vec e code = []) ∨
      (¬ (e = .ERROR_CODE ↔ pushesErrorCode vec = true) ∧ errorCode vec code = some code ∧
        codeWords vec e code = [0, code]) := by
  cases e <;> by_cases hpush : pushesErrorCode vec = true <;>
    simp [codeWords, errorCode, ErrorMacro.words, hpush]

/-- The words of the caller's frame that a handler must leave alone. -/
def keptWords (c : Cpu) : Nat := 16 + (outerStack c).length

/-- A handler has been called at the end of the entry code and has returned. -/
def HandlerReturned (handler retAddr : UInt32) (c d c' : Cpu) : Prop :=
  Cdecl 1 (keptWords c) (call handler { d with eip := retAddr }) c'

theorem handlerReturned_stack {handler retAddr v x : UInt32} {e : Reg → UInt32}
    {g : SegReg → UInt32} {base : UInt32} {c d c' : Cpu}
    (hd : d.Stack base (v :: frameWords e g [x] c))
    (h : HandlerReturned handler retAddr c d c') :
    (c'.drop 4).Stack base (frameWords e g [x] c) ∧ c'.cs = d.cs ∧ c'.ss = d.ss := by
  have houter := outerStack_length c
  have hlen : (frameWords e g [x] c).length = keptWords c := frameWords_length c e g [x]
  have hcall : (call handler { d with eip := retAddr }).Stack base
      (retAddr :: ([v] ++ frameWords e g [x] c)) := by
    have hpush : (({ d with eip := retAddr } : Cpu).push retAddr).Stack base
        (retAddr :: ([v] ++ frameWords e g [x] c)) :=
      (hd.of_eq (d := { d with eip := retAddr }) rfl rfl).push retAddr (by
        rw [List.length_cons, hlen, keptWords]
        omega)
    exact hpush.of_eq rfl rfl
  unfold HandlerReturned at h
  rw [← hlen] at h
  exact ⟨@Cdecl.stack _ _ _ _ [v] _ h hcall, h.cs, h.ss⟩

/-- **Interrupt entry and exit are transparent for exactly the vectors whose macro variant fits.**
For every interrupted state and every handler that returns as the calling convention has it, the
frame at the call is `struct intr_stack`, and the state after `intr_exit` is the interrupted one,
if and only if the vector is not one of `shiftedVectors`. -/
theorem intr_transparent_iff {vec : Nat} {p : Nat × ErrorMacro} (hp : intrEntryTable[vec]? = some p)
    (tss : Tss) (entry code handler retAddr : UInt32) (i : Interrupted) {c' : Cpu}
    (hret : HandlerReturned handler retAddr i.cpu (vectorEntry tss entry vec p code i.cpu) c') :
    ((IntrStack.read (vectorEntry tss entry vec p code i.cpu).mem
        ((vectorEntry tss entry vec p code i.cpu).reg .esp)).Matches
        ((vectorEntry tss entry vec p code i.cpu).reg .esp) vec code i.cpu ∧
      Resumed i.cpu (intrExit c')) ↔ vec ∉ shiftedVectors := by
  obtain ⟨hvec, htable⟩ := intrEntryTable_entry hp
  obtain ⟨e, g, he, hesp, hstack⟩ := vectorEntry_stack tss entry vec p code i.cpu
  have hcs : (vectorEntry tss entry vec p code i.cpu).cs = selectorKCode :=
    (execAll_segments _ _).1
  have hss : i.cpu.cpl = 0 → (vectorEntry tss entry vec p code i.cpu).ss = i.cpu.ss :=
    fun h0 => (execAll_segments _ _).2.trans (interrupt_ss tss _ _ h0)
  rw [htable]
  generalize vectorEntry tss entry vec p code i.cpu = d at *
  rw [hvec] at hstack
  rcases codeWords_cases vec p.2 code with ⟨hfits, hwords⟩ | ⟨hfits, hcode, hwords⟩ |
    ⟨hfits, hcode, hwords⟩ <;> rw [hwords] at hstack
  · -- one word: the frame is the structure
    obtain ⟨hback, hcs', hss'⟩ := handlerReturned_stack hstack hret
    have hcpl : c'.cpl = 0 := by
      rw [Cpu.cpl, hcs', hcs]
      decide
    have hmatch := matches_of_stacked he hesp rfl hstack.words
    have hres := intrExit_resumed he hback hcpl fun h0 => hss'.trans (hss h0)
    exact iff_of_true ⟨hmatch, hres⟩ hfits
  · -- none
    exact iff_of_false (fun h => not_matches_of_missing i.cs_valid hcode hstack.words h.1) hfits
  · -- two
    exact iff_of_false (fun h => not_matches_of_extra i.cs_valid hcode hstack.words h.1) hfits

/-- A kernel thread in its loop, with its stack in the page of its PCB. -/
def kernelLoop : Interrupted where
  cpu :=
    { reg := fun r => if r = .esp then 0xc009ef00 else 7
      seg := fun _ => 0x10
      cs := selectorKCode
      ss := 0x10
      eip := 0xc0001500
      eflags := 0x202
      mem := fun _ => 0xa5
      ports := [] }
  cs_valid := by decide

/-- The timer interrupts the loop. -/
theorem intr_transparent_timer :
    let d := vectorEntry ⟨0, 0⟩ 0xc0001800 0x20 (0x20, .ZERO) 0 kernelLoop.cpu
    (IntrStack.read d.mem (d.reg .esp)).Matches (d.reg .esp) 0x20 0 kernelLoop.cpu ∧
      Resumed kernelLoop.cpu (intrExit (ret (call 0xc0001900 { d with eip := 0xc0001860 }))) :=
  (@intr_transparent_iff 0x20 (0x20, .ZERO) rfl ⟨0, 0⟩ 0xc0001800 0 0xc0001900 0xc0001860 kernelLoop
    _ (cdecl_ret 1 _ _)).mpr (by decide)

/-- A page fault with the error code 2 in the loop: the structure has the error code in the place of
`eip`, and `iretd` takes it for the return address. -/
theorem intr_pageFault_shifted :
    let d := vectorEntry ⟨0, 0⟩ 0xc0001800 14 (14, .ZERO) 2 kernelLoop.cpu
    let c' := ret (call 0xc0001900 { d with eip := 0xc0001860 })
    intrEntryTable[14]? = some (14, .ZERO) ∧
      HandlerReturned 0xc0001900 0xc0001860 kernelLoop.cpu d c' ∧
      ¬ (IntrStack.read d.mem (d.reg .esp)).Matches (d.reg .esp) 14 2 kernelLoop.cpu ∧
      (intrExit c').eip = 2 ∧ ¬ Resumed kernelLoop.cpu (intrExit c') := by
  intro d c'
  have hfield : (IntrStack.read d.mem (d.reg .esp)).eip = 2 := by decide +kernel
  have heip : (intrExit c').eip = 2 := by decide +kernel
  have hne : (2 : UInt32) ≠ kernelLoop.cpu.eip := by decide
  refine ⟨rfl, cdecl_ret 1 _ _, ?_, heip, ?_⟩
  · intro h
    exact hne (hfield.symm.trans h.eip)
  · intro h
    exact hne (heip.symm.trans h.eip)

end OsKernel
