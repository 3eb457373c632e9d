import OsKernel.Lib.X86
import OsKernel.Lib.TransitionSystem

/-!
# thread/switch.S and the stacks of new threads

`switch_to` stores four registers and the stack pointer of the running thread and loads those of
the next one. A thread that has never run is given a stack on which the same instructions start
`kernel_thread`.

- `switchTo`, `initThread`, `threadCreate`: the code.
- `Context`: what a thread that does not run has to find when it is switched to.
- `Saved`: a page that holds a context; it is kept by everything that leaves the page alone.
- `saveHalf_saved`, `restoreHalf_resumes`: the two halves of `switch_to`.
- `switchRuns`: any number of threads, each in its own page, and any sequence of switches.
- `switch_resumes`: every thread finds its context.
-/

namespace OsKernel.Switch

open Lib

/-! ## The code -/

/-- `switch_to` up to `ret` -/
def switchToCode : List Instr :=
  [.push .esi, .push .edi, .push .ebx, .push .ebp] ++ [.load .eax .esp 20, .store .eax .esp] ++
    ([.load .eax .esp 24, .load .esp .eax 0] ++ [.pop .ebp, .pop .ebx, .pop .edi, .pop .esi])

def switchTo (c : Cpu) : Cpu := ret (execAll switchToCode c)

/-- `sizeof(struct task_struct)` -/
def sizeofTaskStruct : Nat := 68

/-- `sizeof(struct intr_stack)` -/
def sizeofIntrStack : UInt32 := 76

/-- `sizeof(struct thread_stack)` -/
def sizeofThreadStack : UInt32 := 32

/-- `init_thread`. The fields of the PCB are written at their offsets; `strcpy` copies the characters
of the name without the terminating zero. -/
def initThread (mainThread pthread : UInt32) (name : List UInt8) (prio : UInt8) (m : Memory32) :
    Memory32 :=
  let m := m.clear pthread sizeofTaskStruct
  let m := m.storeBytes (pthread + 9) name
  -- TASK_RUNNING and TASK_READY
  let m := m.write32 (pthread + 4) (if pthread = mainThread then 0 else 1)
  let m := m.write8 (pthread + 8) prio
  let m := m.write32 pthread (pthread + 4096)
  let m := m.write8 (pthread + 25) 0
  let m := m.write32 (pthread + 28) 0
  let m := m.write32 (pthread + 48) 0
  m.write32 (pthread + 64) 0x12345678

/-- `thread_create`. `self_kstack` points to words, so that a subtraction moves it by four times as
many bytes. -/
def threadCreate (kernelThread pthread function funcArg : UInt32) (m : Memory32) : Memory32 :=
  let m := m.write32 pthread (m.read32 pthread - 4 * sizeofIntrStack)
  let m := m.write32 pthread (m.read32 pthread - 4 * sizeofThreadStack)
  let kthreadStack := m.read32 pthread
  let m := m.write32 (kthreadStack + 16) kernelThread
  let m := m.write32 (kthreadStack + 24) function
  let m := m.write32 (kthreadStack + 28) funcArg
  let m := m.write32 (kthreadStack + 12) 0
  let m := m.write32 (kthreadStack + 8) 0
  let m := m.write32 (kthreadStack + 4) 0
  m.write32 kthreadStack 0

/-! ## Pages -/

/-- The byte lies in the page at `p`. -/
def InPage (p b : UInt32) : Prop := p.toNat ≤ b.toNat ∧ b.toNat < p.toNat + 4096

def PageAligned (p : UInt32) : Prop := p.toNat % 4096 = 0

section Pages

variable {p q b : UInt32}

theorem PageAligned.bound (h : PageAligned p) : p.toNat + 4096 ≤ 2 ^ 32 := by
  have hlt := p.toNat_lt
  unfold PageAligned at h
  omega

theorem PageAligned.toNat_add (h : PageAligned p) {k : Nat} (hk : k < 4096) :
    (p + UInt32.ofNat k).toNat = p.toNat + k := by
  have hbound := h.bound
  rw [UInt32.toNat_add, Memory32.toNat_ofNat_lt (by omega)]
  omega

theorem PageAligned.inPage (h : PageAligned p) {k : Nat} (hk : k < 4096) :
    InPage p (p + UInt32.ofNat k) := by
  rw [InPage, h.toNat_add hk]
  omega

/-- Different pages have no byte in common. -/
theorem InPage.disjoint (hp : PageAligned p) (hq : PageAligned q) (hne : p ≠ q) (hb : InPage p b) :
    ¬ InPage q b := by
  intro hb'
  have hne' : p.toNat ≠ q.toNat := fun h => hne (UInt32.toNat_inj.mp h)
  unfold PageAligned at hp hq
  unfold InPage at hb hb'
  omega

end Pages

/-! ## Contexts -/

/-- What a thread that does not run has to find: the registers with which it called `switch_to`, or
the start of its function. -/
inductive Context where
  | suspended (c : Cpu)
  | fresh (function funcArg : UInt32)

/-- The words of the frame on which `switch_to` continues. -/
inductive Context.Frame (kernelThread : UInt32) : Context → List UInt32 → Prop where
  | suspended (c : Cpu) : Frame kernelThread (.suspended c)
      [c.reg .ebp, c.reg .ebx, c.reg .edi, c.reg .esi, c.eip]
  | fresh (function funcArg retaddr : UInt32) : Frame kernelThread (.fresh function funcArg)
      [0, 0, 0, 0, kernelThread, retaddr, function, funcArg]

/-- The stack pointer above the frame. -/
def Context.base (p : UInt32) : Context → UInt32
  | .suspended c => c.reg .esp
  | .fresh _ _ => p + 3696

/-- The processor after a switch to a thread with this context. -/
def Context.Resumes (kernelThread : UInt32) (d : Cpu) : Context → Prop
  | .suspended c => d.eip = c.eip ∧ d.reg .esp = c.reg .esp ∧ d.reg .ebp = c.reg .ebp ∧
      d.reg .ebx = c.reg .ebx ∧ d.reg .edi = c.reg .edi ∧ d.reg .esi = c.reg .esi
  | .fresh function funcArg => d.eip = kernelThread ∧ d.mem.read32 (d.reg .esp + 4) = function ∧
      d.mem.read32 (d.reg .esp + 8) = funcArg ∧ d.reg .ebp = 0 ∧ d.reg .ebx = 0 ∧
      d.reg .edi = 0 ∧ d.reg .esi = 0

/-- The page at `p` holds a context. -/
def Saved (kernelThread : UInt32) (m : Memory32) (p : UInt32) (ctx : Context) : Prop :=
  ∃ ws, ctx.Frame kernelThread ws ∧ Stacked m (m.read32 p) ws ∧
    m.read32 p + UInt32.ofNat (4 * ws.length) = ctx.base p ∧
    ∀ k, k < 4 * ws.length → InPage p (m.read32 p + UInt32.ofNat k)

/-- **Frame rule**: who leaves the page alone leaves the context alone. -/
theorem Saved.congr {kernelThread p : UInt32} {m m' : Memory32} {ctx : Context}
    (h : Saved kernelThread m p ctx) (hp : PageAligned p) (heq : ∀ b, InPage p b → m' b = m b) :
    Saved kernelThread m' p ctx := by
  obtain ⟨ws, hframe, hwords, hbase, hpage⟩ := h
  have hslot : m'.read32 p = m.read32 p := by
    refine Memory32.read32_congr fun k hk => heq _ (hp.inPage (by omega))
  rw [Saved, hslot]
  exact ⟨ws, hframe, hwords.congr fun k hk => heq _ (hpage k hk), hbase, hpage⟩

/-! ## The second half of switch_to -/

/-- From the load of the next thread's stack pointer on. -/
def restoreHalf (c : Cpu) : Cpu :=
  ret (execAll ([.load .eax .esp 24, .load .esp .eax 0] ++
    [.pop .ebp, .pop .ebx, .pop .edi, .pop .esi]) c)

/-- The registers that are popped, in this order. -/
def savedRegs : List Reg := [.ebp, .ebx, .edi, .esi]

/-- The pops bring back the stored registers, and `ret` goes to the stored address. -/
theorem popAll_ret {c : Cpu} {base eip : UInt32} {f : Reg → UInt32} {ws : List UInt32}
    (h : c.Stack base (savedRegs.map f ++ eip :: ws)) :
    (ret (c.popAll savedRegs)).Stack base ws ∧ (ret (c.popAll savedRegs)).eip = eip ∧
      (ret (c.popAll savedRegs)).mem = c.mem ∧
      ∀ r ∈ savedRegs, (ret (c.popAll savedRegs)).reg r = f r := by
  obtain ⟨hstack, hrest, -, hreg⟩ := Cpu.Stack.popAll h
  generalize c.popAll savedRegs = d at *
  refine ⟨hstack.tail.of_eq rfl rfl, hstack.top, hrest.mem, ?_⟩
  intro r hr
  have hne : r ≠ .esp := by
    rintro rfl
    revert hr
    decide
  have hret : (ret d).reg r = d.reg r := Cpu.set_of_ne hne
  rw [hret, hreg r hne, if_pos hr]

/-- **The second half**: from a saved context its thread goes on. -/
theorem restoreHalf_resumes {kernelThread next : UInt32} {c : Cpu} {ctx : Context}
    (hnext : c.mem.read32 (c.reg .esp + 24) = next) (h : Saved kernelThread c.mem next ctx) :
    ctx.Resumes kernelThread (restoreHalf c) ∧ (restoreHalf c).mem = c.mem := by
  obtain ⟨ws, hframe, hwords, hbase, -⟩ := h
  let d : Cpu := execAll [.load .eax .esp 24, .load .esp .eax 0] c
  have hcode : restoreHalf c = ret (d.popAll savedRegs) := rfl
  have hmem : d.mem = c.mem := rfl
  have hesp : d.reg .esp = c.mem.read32 next := by
    have hload : d.reg .esp = c.mem.read32 (c.mem.read32 (c.reg .esp + 24) + 0) := rfl
    rw [hload, hnext, UInt32.add_zero]
  have hstack : d.Stack (ctx.base next) ws := by
    constructor
    · rw [hesp]
      exact hbase
    · rw [hesp, hmem]
      exact hwords
  rw [hcode]
  clear_value d
  cases hframe with
  | suspended s =>
    have hpop := @popAll_ret d _ _ s.reg [] hstack
    obtain ⟨hempty, heip, hmem', hreg⟩ := hpop
    refine ⟨⟨heip, hempty.esp_eq, hreg .ebp (by decide), hreg .ebx (by decide),
      hreg .edi (by decide), hreg .esi (by decide)⟩, hmem'.trans hmem⟩
  | fresh function funcArg retaddr =>
    have hpop := @popAll_ret d _ _ (fun _ => 0) [retaddr, function, funcArg] hstack
    obtain ⟨hargs, heip, hmem', hreg⟩ := hpop
    have hfunction := hargs.words.read (i := 1) rfl
    have harg := hargs.words.read (i := 2) rfl
    exact ⟨⟨heip, hfunction, harg, hreg .ebp (by decide), hreg .ebx (by decide),
      hreg .edi (by decide), hreg .esi (by decide)⟩, hmem'.trans hmem⟩

/-! ## The first half of switch_to -/

/-- The call, and the code up to the store of the stack pointer. -/
def saveHalf (entry : UInt32) (c : Cpu) : Cpu :=
  execAll ([.push .esi, .push .edi, .push .ebx, .push .ebp] ++
    [.load .eax .esp 20, .store .eax .esp]) (call entry c)

theorem switchTo_eq (entry : UInt32) (c : Cpu) :
    switchTo (call entry c) = restoreHalf (saveHalf entry c) := by
  rw [switchTo, switchToCode, execAll_append, restoreHalf, saveHalf]

/-- The thread with the page `cur` is about to call `switch_to(cur, next)`. Its stack lies in the
page, and the frame that will be pushed does not reach `self_kstack`. -/
structure AtSwitch (c : Cpu) (cur next : UInt32) : Prop where
  arg0 : c.mem.read32 (c.reg .esp) = cur
  arg1 : c.mem.read32 (c.reg .esp + 4) = next
  low : cur.toNat + 24 ≤ (c.reg .esp).toNat
  high : (c.reg .esp).toNat + 8 ≤ cur.toNat + 4096

/-- The five words that the first half pushes, and the store to `self_kstack`. -/
theorem saveHalf_stores {cur next : UInt32} {c : Cpu} (entry : UInt32) (h : AtSwitch c cur next) :
    ∃ f : Cpu, Cpu.Grows 5 c f ∧ f.Stack (c.reg .esp + 8)
        [c.reg .ebp, c.reg .ebx, c.reg .edi, c.reg .esi, c.eip, cur, next] ∧
      (saveHalf entry c).mem = f.mem.write32 cur (f.reg .esp) ∧
      (saveHalf entry c).reg .esp = f.reg .esp := by
  let f : Cpu := c.pushAll [c.eip, c.reg .esi, c.reg .edi, c.reg .ebx, c.reg .ebp]
  have hcall : execAll [.push .esi, .push .edi, .push .ebx, .push .ebp] (call entry c) =
      { f with eip := entry } := rfl
  have hargs : c.Stack (c.reg .esp + 8) [cur, next] := ⟨rfl, h.arg0, h.arg1, trivial⟩
  have hgrows : Cpu.Grows 5 c f :=
    Cpu.grows_pushAll [c.eip, c.reg .esi, c.reg .edi, c.reg .ebx, c.reg .ebp]
      (show 4 * 5 < 2 ^ 32 by decide)
  have hstack : f.Stack (c.reg .esp + 8)
      [c.reg .ebp, c.reg .ebx, c.reg .edi, c.reg .esi, c.eip, cur, next] :=
    hargs.pushAll _ (show 4 * (5 + 2) ≤ 2 ^ 32 by decide)
  clear_value f
  have harg : f.mem.read32 (f.reg .esp + 20) = cur := hstack.words.read (i := 5) rfl
  refine ⟨f, hgrows, hstack, ?_, ?_⟩
  · rw [saveHalf, execAll_append, hcall, ← harg]
    rfl
  · rw [saveHalf, execAll_append, hcall]
    rfl

/-- **The first half**: the context is in the page of the caller, nothing else has changed, and the
second argument is at hand. -/
theorem saveHalf_saved {kernelThread entry cur next : UInt32} {c : Cpu} (hcur : PageAligned cur)
    (h : AtSwitch c cur next) :
    (saveHalf entry c).mem.read32 ((saveHalf entry c).reg .esp + 24) = next ∧
      Saved kernelThread (saveHalf entry c).mem cur (.suspended c) ∧
      ∀ b, ¬ InPage cur b → (saveHalf entry c).mem b = c.mem b := by
  have hbound := hcur.bound
  have hlow := h.low
  have hhigh := h.high
  have hcesp := (c.reg .esp).toNat_lt
  have htwenty : (20 : UInt32).toNat = 20 := rfl
  obtain ⟨f, hgrows, hstack, hsave, hsaveEsp⟩ := saveHalf_stores entry h
  have hf : f.reg .esp = c.reg .esp - 20 := hgrows.esp
  have hesp : c.reg .esp = f.reg .esp + 20 := by rw [hf, UInt32.sub_add_cancel]
  have hfesp : (f.reg .esp).toNat + 20 = (c.reg .esp).toNat := by
    rw [hf, UInt32.toNat_sub, htwenty]
    omega
  have hwords : Stacked (saveHalf entry c).mem (f.reg .esp)
      [c.reg .ebp, c.reg .ebx, c.reg .edi, c.reg .esi, c.eip, cur, next] := by
    refine hstack.words.congr fun k hk => ?_
    have hk' : k < 28 := hk
    rw [hsave]
    refine Memory32.write32_outside ?_
    rw [UInt32.toNat_sub, UInt32.toNat_add, Memory32.toNat_ofNat_lt (by omega)]
    omega
  refine ⟨?_, ⟨_, .suspended c, ?_, ?_, ?_⟩, ?_⟩
  · rw [hsaveEsp]
    exact hwords.read (i := 6) rfl
  · rw [hsave, Memory32.read32_write32, ← hsave]
    exact ((@stacked_append _ _ [_, _, _, _, _] [cur, next]).mp hwords).1
  · rw [hsave, Memory32.read32_write32]
    exact hesp.symm
  · intro k hk
    have hk' : k < 20 := hk
    rw [hsave, Memory32.read32_write32, InPage, UInt32.toNat_add,
      Memory32.toNat_ofNat_lt (by omega)]
    omega
  · intro b hb
    have hblt := b.toNat_lt
    unfold InPage at hb
    have hpush : f.mem b = c.mem b := by
      refine hgrows.mem b ?_
      rw [UInt32.toNat_sub]
      omega
    rw [hsave, ← hpush]
    refine Memory32.write32_outside ?_
    rw [UInt32.toNat_sub]
    omega

/-- The stack of the caller stays as it is, above the frame. -/
theorem saveHalf_above {entry cur next b : UInt32} {c : Cpu} (hcur : PageAligned cur)
    (h : AtSwitch c cur next) (hlo : (c.reg .esp).toNat ≤ b.toNat)
    (hhi : b.toNat < cur.toNat + 4096) : (saveHalf entry c).mem b = c.mem b := by
  have hbound := hcur.bound
  have hlow := h.low
  have hcesp := (c.reg .esp).toNat_lt
  have hblt := b.toNat_lt
  have htwenty : (20 : UInt32).toNat = 20 := rfl
  obtain ⟨f, hgrows, -, hsave, -⟩ := saveHalf_stores entry h
  have hf : f.reg .esp = c.reg .esp - 20 := hgrows.esp
  have hpush : f.mem b = c.mem b := by
    refine hgrows.mem b ?_
    rw [hf, UInt32.toNat_sub, UInt32.toNat_sub, htwenty]
    omega
  rw [hsave, ← hpush]
  refine Memory32.write32_outside ?_
  rw [UInt32.toNat_sub]
  omega

/-- What `self_kstack` holds then. -/
theorem saveHalf_kstack {entry cur next : UInt32} {c : Cpu} (h : AtSwitch c cur next) :
    (saveHalf entry c).mem.read32 cur = c.reg .esp - 20 := by
  obtain ⟨f, hgrows, -, hsave, -⟩ := saveHalf_stores entry h
  rw [hsave, Memory32.read32_write32]
  exact hgrows.esp

/-- The second half writes nothing. -/
theorem restoreHalf_mem (c : Cpu) : (restoreHalf c).mem = c.mem := by
  have hret : ∀ d : Cpu, (ret d).mem = d.mem := fun _ => rfl
  rw [restoreHalf, hret]
  exact execAll_mem (by decide) c

/-- The stack pointer of the next thread, behind the five words of its frame. -/
theorem restoreHalf_esp (c : Cpu) :
    (restoreHalf c).reg .esp = c.mem.read32 (c.mem.read32 (c.reg .esp + 24)) + 20 := by
  let d : Cpu := execAll [.load .eax .esp 24, .load .esp .eax 0] c
  have hcode : restoreHalf c = ret (d.popAll savedRegs) := rfl
  have hload : d.reg .esp = c.mem.read32 (c.mem.read32 (c.reg .esp + 24) + 0) := rfl
  have hret : ∀ e : Cpu, (ret e).reg .esp = e.reg .esp + 4 := fun e => Cpu.set_self e .esp _
  have hsum : ∀ x : UInt32, x + UInt32.ofNat (4 * 4) + 4 = x + 20 := fun x => add_ofNat_add x 16 4
  clear_value d
  rw [hcode, hret, Cpu.popAll_esp, hload, UInt32.add_zero]
  exact hsum _

/-! ## New threads -/

section NewThread

variable {p b : UInt32} {m : Memory32}

/-- A word of the page is written. -/
theorem PageAligned.write32_outside (hp : PageAligned p) (hb : ¬ InPage p b) {n : Nat}
    (hn : n + 4 ≤ 4096) (x : UInt32) : m.write32 (p + UInt32.ofNat n) x b = m b := by
  have hbound := hp.bound
  have hblt := b.toNat_lt
  refine Memory32.write32_outside ?_
  rw [UInt32.toNat_sub, hp.toNat_add (by omega)]
  unfold InPage at hb
  omega

theorem PageAligned.write32_slot (hp : PageAligned p) (hb : ¬ InPage p b) (x : UInt32) :
    m.write32 p x b = m b := by
  have h := hp.write32_outside (m := m) hb (n := 0) (by decide) x
  rwa [show p + UInt32.ofNat 0 = p from UInt32.add_zero p] at h

/-- A byte of the page is written. -/
theorem PageAligned.write8_outside (hp : PageAligned p) (hb : ¬ InPage p b) {n : Nat}
    (hn : n < 4096) (x : UInt8) : m.write8 (p + UInt32.ofNat n) x b = m b := by
  refine Memory32.write8_outside fun he => hb ?_
  rw [he]
  exact hp.inPage hn

/-- `init_thread` writes to the page only. -/
theorem initThread_outside {mainThread : UInt32} {name : List UInt8} {prio : UInt8}
    (hp : PageAligned p) (hname : name.length ≤ 4087) (hb : ¬ InPage p b) :
    initThread mainThread p name prio m b = m b := by
  have hbound := hp.bound
  have hblt := b.toNat_lt
  have hclear : ∀ m : Memory32, m.clear p sizeofTaskStruct b = m b := by
    intro m
    have hnot : ¬ (b - p).toNat < sizeofTaskStruct := by
      rw [UInt32.toNat_sub, sizeofTaskStruct]
      unfold InPage at hb
      omega
    exact if_neg hnot
  have hcopy : ∀ m : Memory32, m.storeBytes (p + UInt32.ofNat 9) name b = m b := by
    intro m
    refine Memory32.storeBytes_outside (by omega) ?_
    rw [UInt32.toNat_sub, hp.toNat_add (by decide)]
    unfold InPage at hb
    omega
  unfold initThread
  refine (hp.write32_outside hb (n := 64) (by decide) _).trans ?_
  refine (hp.write32_outside hb (n := 48) (by decide) _).trans ?_
  refine (hp.write32_outside hb (n := 28) (by decide) _).trans ?_
  refine (hp.write8_outside hb (n := 25) (by decide) _).trans ?_
  refine (hp.write32_slot hb _).trans ?_
  refine (hp.write8_outside hb (n := 8) (by decide) _).trans ?_
  refine (hp.write32_outside hb (n := 4) (by decide) _).trans ?_
  exact (hcopy _).trans (hclear m)

theorem read32_slot {n : Nat} (hn : 4 ≤ n) (hn' : n < 2 ^ 31) (x : UInt32) :
    (m.write32 (p + UInt32.ofNat n) x).read32 p = m.read32 p := by
  have h := Memory32.read32_write32_offset (m := m) (a := p) (x := x) (i := n) (j := 0) hn'
    (by decide) (Or.inr hn)
  rwa [show p + UInt32.ofNat 0 = p from UInt32.add_zero p] at h

/-- The stack of a new thread starts at the end of its page. -/
theorem initThread_kstack (mainThread : UInt32) (name : List UInt8) (prio : UInt8) (m : Memory32) :
    (initThread mainThread p name prio m).read32 p = p + 4096 := by
  have hskip8 : ∀ (m : Memory32) (x : UInt8), (m.write8 (p + 25) x).read32 p = m.read32 p := by
    intro m x
    refine Memory32.read32_congr fun k hk => Memory32.write8_outside ?_
    intro heq
    have hoff := congrArg UInt32.toNat ((UInt32.add_right_inj p).mp heq)
    rw [Memory32.toNat_ofNat_lt (by omega)] at hoff
    have h25 : (25 : UInt32).toNat = 25 := rfl
    omega
  unfold initThread
  refine (read32_slot (n := 64) (by decide) (by decide) _).trans ?_
  refine (read32_slot (n := 48) (by decide) (by decide) _).trans ?_
  refine (read32_slot (n := 28) (by decide) (by decide) _).trans ?_
  refine (hskip8 _ _).trans ?_
  exact Memory32.read32_write32 _ p _

/-- `self_kstack` has been moved down by 432 bytes. -/
theorem threadCreate_eq {kernelThread function funcArg : UInt32} (hslot : m.read32 p = p + 4096) :
    ∃ x, threadCreate kernelThread p function funcArg m = (((((((((m.write32 p x).write32 p
      (p + UInt32.ofNat 3664)).write32 (p + UInt32.ofNat 3680) kernelThread).write32
      (p + UInt32.ofNat 3688) function).write32 (p + UInt32.ofNat 3692) funcArg).write32
      (p + UInt32.ofNat 3676) 0).write32 (p + UInt32.ofNat 3672) 0).write32
      (p + UInt32.ofNat 3668) 0).write32 (p + UInt32.ofNat 3664) 0) := by
  have hstack : p + 4096 - 4 * sizeofIntrStack - 4 * sizeofThreadStack = p + UInt32.ofNat 3664 := by
    have hsum : p + 4096 = p + UInt32.ofNat 3664 + 4 * sizeofThreadStack + 4 * sizeofIntrStack := by
      rw [UInt32.add_assoc, UInt32.add_assoc]
      rfl
    rw [hsum, UInt32.add_sub_cancel, UInt32.add_sub_cancel]
  have h4 : p + UInt32.ofNat 3664 + 4 = p + UInt32.ofNat 3668 := add_ofNat_add p 3664 4
  have h8 : p + UInt32.ofNat 3664 + 8 = p + UInt32.ofNat 3672 := add_ofNat_add p 3664 8
  have h12 : p + UInt32.ofNat 3664 + 12 = p + UInt32.ofNat 3676 := add_ofNat_add p 3664 12
  have h16 : p + UInt32.ofNat 3664 + 16 = p + UInt32.ofNat 3680 := add_ofNat_add p 3664 16
  have h24 : p + UInt32.ofNat 3664 + 24 = p + UInt32.ofNat 3688 := add_ofNat_add p 3664 24
  have h28 : p + UInt32.ofNat 3664 + 28 = p + UInt32.ofNat 3692 := add_ofNat_add p 3664 28
  refine ⟨p + 4096 - 4 * sizeofIntrStack, ?_⟩
  unfold threadCreate
  simp only [Memory32.read32_write32, hslot, hstack]
  rw [h4, h8, h12, h16, h24, h28]

/-- **A new thread** finds its function when it is switched to, and only its page has changed. -/
theorem threadCreate_saved {kernelThread function funcArg : UInt32} (hp : PageAligned p)
    (hslot : m.read32 p = p + 4096) :
    Saved kernelThread (threadCreate kernelThread p function funcArg m) p
        (.fresh function funcArg) ∧
      ∀ b, ¬ InPage p b → threadCreate kernelThread p function funcArg m b = m b := by
  obtain ⟨x, hm⟩ := @threadCreate_eq p m kernelThread function funcArg hslot
  have hplace : (threadCreate kernelThread p function funcArg m).read32 p = p + UInt32.ofNat 3664 := by
    rw [hm]
    simp (disch := decide) only [read32_slot, Memory32.read32_write32]
  have hword : ∀ n, (threadCreate kernelThread p function funcArg m).read32
      (p + UInt32.ofNat 3664 + UInt32.ofNat (4 * n)) =
        (threadCreate kernelThread p function funcArg m).read32 (p + UInt32.ofNat (3664 + 4 * n)) := by
    intro n
    rw [add_ofNat_add]
  refine ⟨⟨[0, 0, 0, 0, kernelThread, (threadCreate kernelThread p function funcArg m).read32
    (p + UInt32.ofNat 3684), function, funcArg], .fresh function funcArg _, ?_, ?_, ?_⟩, ?_⟩
  · rw [hplace]
    refine Stacked.of_read fun i w hi => (hword i).trans ?_
    have hlt : i < 8 := (List.getElem?_eq_some_iff.mp hi).1
    by_cases h5 : i = 5
    · -- nobody has written the place of the return address
      subst h5
      exact Option.some.inj hi
    · rw [hm]
      interval_cases i <;> rw [← Option.some.inj hi] <;>
        first
        | exact absurd rfl h5
        | simp (disch := decide) only [Memory32.read32_write32_offset, Memory32.read32_write32]
  · rw [hplace]
    exact add_ofNat_add p 3664 32
  · intro k hk
    have hk' : k < 32 := hk
    rw [hplace, add_ofNat_add]
    exact hp.inPage (by omega)
  · intro b hb
    rw [hm]
    simp (disch := decide) only [hp.write32_outside hb, hp.write32_slot hb]

end NewThread

/-! ## Any number of threads -/

/-- The processor with the threads that it is switched between. A thread is known by its page. -/
structure SwitchRun where
  cpu : Cpu
  current : UInt32
  threads : List UInt32
  /-- What each thread has to find when it is switched to: recorded when it calls `switch_to`, and
  when it is created. -/
  waiting : UInt32 → Context

inductive SwitchEvent where
  /-- The running thread computes. -/
  | run (d : Cpu)
  /-- The running thread calls `init_thread` and `thread_create`. -/
  | create (pthread : UInt32) (name : List UInt8) (prio : UInt8) (function funcArg : UInt32)
  /-- The running thread calls `switch_to`. -/
  | switchTo (next : UInt32)

/-- Who may do what: every page is written by its own thread only. -/
def OwnPages (s : SwitchRun) : SwitchEvent → Prop
  | .run d => ∀ p ∈ s.threads, p ≠ s.current → ∀ b, InPage p b → d.mem b = s.cpu.mem b
  | .create p name _ _ _ => PageAligned p ∧ p ∉ s.threads ∧ name.length ≤ 4087
  | .switchTo next => next ∈ s.threads ∧ AtSwitch s.cpu s.current next

section Runs

variable (kernelThread entry mainThread : UInt32)

def SwitchEvent.exec (s : SwitchRun) : SwitchEvent → SwitchRun
  | .run d => { s with cpu := d }
  | .create p name prio function funcArg =>
    let m := initThread mainThread p name prio s.cpu.mem
    { s with
      cpu := { s.cpu with mem := threadCreate kernelThread p function funcArg m }
      threads := p :: s.threads
      waiting := Function.update s.waiting p (.fresh function funcArg) }
  | .switchTo next =>
    { s with
      cpu := Switch.switchTo (call entry s.cpu)
      current := next
      waiting := Function.update s.waiting s.current (.suspended s.cpu) }

/-- One thread runs at first. -/
def switchRuns : System SwitchRun SwitchEvent Empty where
  init s := PageAligned s.current ∧ s.threads = [s.current]
  step e s := some (.ok (e.exec kernelThread entry mainThread s))

/-- Every thread that does not run has its context in its page. -/
structure SwitchInv (s : SwitchRun) : Prop where
  aligned : ∀ p ∈ s.threads, PageAligned p
  current : s.current ∈ s.threads
  saved : ∀ p ∈ s.threads, p ≠ s.current → Saved kernelThread s.cpu.mem p (s.waiting p)

variable {kernelThread entry mainThread}

/-- When the first half is done, every thread has its context in its page. -/
theorem SwitchInv.saveHalf {s : SwitchRun} {next : UInt32} (h : SwitchInv kernelThread s)
    (hat : AtSwitch s.cpu s.current next) : ∀ p ∈ s.threads,
    Saved kernelThread (saveHalf entry s.cpu).mem p
      (Function.update s.waiting s.current (.suspended s.cpu) p) := by
  have hcur := h.aligned _ h.current
  obtain ⟨-, hsaved, hother⟩ := @saveHalf_saved kernelThread entry _ _ _ hcur hat
  intro p hp
  by_cases hpc : p = s.current
  · subst hpc
    rw [Function.update_self]
    exact hsaved
  · rw [Function.update_of_ne hpc]
    have halign := h.aligned p hp
    exact (h.saved p hp hpc).congr halign fun b hb =>
      hother b (InPage.disjoint halign hcur hpc hb)

/-- **The step of a switch.** -/
theorem SwitchInv.switchTo {s : SwitchRun} {next : UInt32} (h : SwitchInv kernelThread s)
    (hnext : next ∈ s.threads) (hat : AtSwitch s.cpu s.current next) :
    Context.Resumes kernelThread (Switch.switchTo (call entry s.cpu))
        (Function.update s.waiting s.current (.suspended s.cpu) next) ∧
      SwitchInv kernelThread ((SwitchEvent.switchTo next).exec kernelThread entry mainThread s) := by
  have hcur := h.aligned _ h.current
  have hsaved := @SwitchInv.saveHalf kernelThread entry _ _ h hat
  obtain ⟨harg, -, -⟩ := @saveHalf_saved kernelThread entry _ _ _ hcur hat
  obtain ⟨hres, hmem⟩ := restoreHalf_resumes harg (hsaved next hnext)
  rw [switchTo_eq]
  refine ⟨hres, h.aligned, hnext, fun p hp _ => ?_⟩
  have hcpu : ((SwitchEvent.switchTo next).exec kernelThread entry mainThread s).cpu.mem =
      (Switch.saveHalf entry s.cpu).mem := by
    show (Switch.switchTo (call entry s.cpu)).mem = _
    rw [switchTo_eq, hmem]
  rw [hcpu]
  exact hsaved p hp

theorem SwitchInv.create {s : SwitchRun} {p function funcArg : UInt32} {name : List UInt8}
    {prio : UInt8} (h : SwitchInv kernelThread s) (hp : PageAligned p) (hnew : p ∉ s.threads)
    (hname : name.length ≤ 4087) : SwitchInv kernelThread
      ((SwitchEvent.create p name prio function funcArg).exec kernelThread entry mainThread s) := by
  obtain ⟨hsaved, hother⟩ := @threadCreate_saved _ _ kernelThread function
    funcArg hp (initThread_kstack mainThread name prio s.cpu.mem)
  refine ⟨?_, List.mem_cons_of_mem p h.current, ?_⟩
  · intro q hq
    rcases List.mem_cons.mp hq with rfl | hq
    · exact hp
    · exact h.aligned q hq
  · intro q hq hqc
    by_cases hqp : q = p
    · subst hqp
      show Saved _ _ q (Function.update s.waiting q _ q)
      rw [Function.update_self]
      exact hsaved
    · have hq' : q ∈ s.threads := (List.mem_cons.mp hq).resolve_left hqp
      have halign := h.aligned q hq'
      show Saved _ _ q (Function.update s.waiting p _ q)
      rw [Function.update_of_ne hqp]
      refine (h.saved q hq' hqc).congr halign fun b hb => ?_
      have hout := InPage.disjoint halign hp hqp hb
      exact (hother b hout).trans (initThread_outside hp hname hout)

/-- **Every run** keeps the contexts. -/
theorem switchRuns_inv {s : SwitchRun}
    (hs : (switchRuns kernelThread entry mainThread).Reach OwnPages s) :
    SwitchInv kernelThread s := by
  refine @System.Reach.invariant _ _ _ (switchRuns kernelThread entry mainThread) OwnPages
    (SwitchInv kernelThread) ?_ ?_ s hs
  · intro s ⟨halign, hthreads⟩
    have honly : ∀ p ∈ s.threads, p = s.current := by
      intro p hp
      rw [hthreads] at hp
      exact List.mem_singleton.mp hp
    refine ⟨fun p hp => honly p hp ▸ halign, ?_, fun p hp hne => absurd (honly p hp) hne⟩
    rw [hthreads]
    exact List.mem_singleton_self _
  · intro s e s' _ h hg hstep
    cases hstep
    cases e with
    | run d => exact ⟨h.aligned, h.current, fun p hp hpc =>
        (h.saved p hp hpc).congr (h.aligned p hp) (hg p hp hpc)⟩
    | create p name prio function funcArg => exact h.create hg.1 hg.2.1 hg.2.2
    | switchTo next => exact (h.switchTo hg.1 hg.2).2

/-- **Every thread has its own uninterrupted execution.** Whenever a thread is switched to, in any
run, it goes on where it called `switch_to`, with the registers it had there; if it has never run,
it starts `kernel_thread` with its function and its argument. -/
theorem switch_resumes {s : SwitchRun} {next : UInt32}
    (hs : (switchRuns kernelThread entry mainThread).Reach OwnPages s)
    (hg : OwnPages s (.switchTo next)) :
    Context.Resumes kernelThread
      ((SwitchEvent.switchTo next).exec kernelThread entry mainThread s).cpu
      (((SwitchEvent.switchTo next).exec kernelThread entry mainThread s).waiting next) :=
  (@SwitchInv.switchTo kernelThread entry mainThread _ _ (switchRuns_inv hs) hg.1 hg.2).1

/-- `main` runs alone. -/
def mainAlone : SwitchRun where
  cpu :=
    { reg := fun r => if r = .esp then 0xc009ef00 else 0
      seg := fun _ => 0x10
      cs := 8
      ss := 0x10
      eip := 0xc0001500
      eflags := 0x202
      mem := fun _ => 0
      ports := [] }
  current := 0xc009e000
  threads := [0xc009e000]
  waiting := fun _ => .fresh 0 0

/-- `main` creates a thread and puts the arguments of `switch_to` on its stack. -/
def mainAtSwitch : SwitchRun :=
  let s := (SwitchEvent.create 0xc0100000 [] 8 0xc0001600 5).exec 0xc0002000 0xc0003000 0xc009e000
    mainAlone
  (SwitchEvent.run { s.cpu with
    mem := (s.cpu.mem.write32 (0xc009e000 + UInt32.ofNat 0xf00) 0xc009e000).write32
      (0xc009e000 + UInt32.ofNat 0xf04) 0xc0100000 }).exec 0xc0002000 0xc0003000 0xc009e000 s

/-- The new thread starts with its function and its argument. -/
theorem switch_resumes_first :
    Context.Resumes 0xc0002000 ((SwitchEvent.switchTo 0xc0100000).exec 0xc0002000 0xc0003000
      0xc009e000 mainAtSwitch).cpu (.fresh 0xc0001600 5) := by
  have hmain : PageAligned 0xc009e000 := rfl
  have hnew : PageAligned 0xc0100000 := rfl
  refine @switch_resumes 0xc0002000 0xc0003000 0xc009e000 mainAtSwitch 0xc0100000 ?_ ?_
  · refine .step (.step (e := .create 0xc0100000 [] 8 0xc0001600 5) (.init (s := mainAlone)
      ⟨hmain, rfl⟩) ⟨hnew, by decide, by decide⟩ rfl) (e := .run _) ?_ rfl
    intro p hp hpc b hb
    have hp' : p = 0xc0100000 := by
      rcases List.mem_cons.mp hp with h | h
      · exact h
      · exact absurd (List.mem_singleton.mp h) hpc
    subst hp'
    have hout : ¬ InPage 0xc009e000 b := InPage.disjoint hnew hmain (by decide) hb
    exact (hmain.write32_outside hout (n := 0xf04) (by decide) _).trans
      (hmain.write32_outside hout (n := 0xf00) (by decide) _)
  · refine ⟨List.mem_cons_self, ?_, Memory32.read32_write32 _ _ _, by decide, by decide⟩
    exact (Memory32.read32_write32_offset (i := 0xf04) (j := 0xf00) (by decide) (by decide)
      (by decide)).trans (Memory32.read32_write32 _ _ _)

end Runs

end OsKernel.Switch
