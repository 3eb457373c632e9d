import OsKernel.Kernel.InterruptFrame
import OsKernel.Memory.Paging
import OsKernel.Thread.Switch

/-!
# userprog/process.c: from kernel_thread to intr_exit

A new process starts as a thread of the kernel. `start_process` fills in the frame from which
`intr_exit` goes to user mode, and it finds the place of this frame through `self_kstack`, which
`switch_to` overwrites whenever the thread is switched out. Interrupts are on by then.

- `ProcessRun`, `ProcessEvent`: the new thread, instruction by instruction where it matters, with
  interrupts and with whatever the other threads do.
- `EntryInv`: the contexts and frames on the stack of the thread, and what `self_kstack` holds.
- `frame_in_place`: without a switch in the critical places the frame is the reserved one.
- `frame_misplaced`: after one it is another one.
-/

namespace OsKernel.Switch

open Lib

/-! ## The thread of a new process -/

/-- How far `kernel_thread` and `start_process` have got. -/
inductive Progress where
  /-- before the first access to `self_kstack` -/
  | kernelThread
  /-- `cur->self_kstack` has been loaded for `+=` -/
  | loaded (cur kstack : UInt32)
  /-- `cur->self_kstack += sizeof(struct thread_stack)` is done -/
  | moved (cur : UInt32)
  /-- `proc_stack` has its value -/
  | taken (procStack : UInt32)
  /-- the fields up to `eflags` are filled in; `get_a_page` is called -/
  | filling (procStack : UInt32)
  /-- all fields are filled in -/
  | filled (procStack : UInt32)

/-- The value of `proc_stack`. -/
def Progress.procStack : Progress → Option UInt32
  | .taken a | .filling a | .filled a => some a
  | _ => none

/-- `self_kstack` will still be loaded, and has not been loaded for the store to come. -/
def Progress.Exposed : Progress → Bool
  | .kernelThread | .moved _ => true
  | _ => false

/-- What the thread is doing. -/
inductive Mode where
  /-- It has never run. -/
  | waiting
  | running
  /-- An interrupt has arrived in the state `c`. -/
  | handler (c : Cpu)
  /-- It has called `switch_to` in the state `d`, in the handler of an interrupt or on its own. -/
  | suspended (c : Option Cpu) (d : Cpu)
  /-- It has jumped to `intr_exit`. -/
  | exiting

structure ProcessRun where
  cpu : Cpu
  progress : Progress
  mode : Mode
  /-- The thread was switched out while its progress was exposed. -/
  preempted : Bool

inductive ProcessEvent where
  /-- Other threads run. -/
  | elsewhere (d : Cpu)
  /-- Another thread, `cur`, switches to this one. -/
  | switchIn (cur : UInt32)
  /-- The thread executes code that does not use `self_kstack`. -/
  | compute (d : Cpu)
  /-- The timer or the keyboard interrupts it. -/
  | interrupt (keyboard : Bool)
  /-- The handler runs. -/
  | handle (d : Cpu)
  /-- The thread switches to another one. -/
  | switchOut (next : UInt32)
  /-- The handler is done. -/
  | intrExit
  | load
  | store
  | take
  | fill
  /-- `get_a_page` has returned the page of the user stack. -/
  | fillStack (page : UInt32)
  | enter

/-- `running_thread` -/
def runningThread (esp : UInt32) : UInt32 := esp &&& 0xfffff000

/-- `SELECTOR_U_CODE`, `SELECTOR_U_DATA` -/
def selectorUCode : UInt32 := UInt32.ofNat ((5 <<< 3) + (0 <<< 2) + 3)

def selectorUData : UInt32 := UInt32.ofNat ((6 <<< 3) + (0 <<< 2) + 3)

/-- The assignments to the fields of `proc_stack`, up to `eflags`. -/
def fillProcStack (procStack function : UInt32) (m : Memory32) : Memory32 :=
  let m := m.write32 (procStack + 16) 0
  let m := m.write32 (procStack + 12) 0
  let m := m.write32 (procStack + 8) 0
  let m := m.write32 (procStack + 4) 0
  let m := m.write32 (procStack + 32) 0
  let m := m.write32 (procStack + 28) 0
  let m := m.write32 (procStack + 24) 0
  let m := m.write32 (procStack + 20) 0
  let m := m.write32 (procStack + 36) 0
  let m := m.write32 (procStack + 40) selectorUData
  let m := m.write32 (procStack + 44) selectorUData
  let m := m.write32 (procStack + 48) selectorUData
  let m := m.write32 (procStack + 56) function
  let m := m.write32 (procStack + 60) selectorUCode
  -- EFLAGS_IOPL_0 | EFLAGS_MBS | EFLAGS_IF_1
  m.write32 (procStack + 64) (0 ||| 2 ||| 0x200)

/-- The user stack. -/
def fillUserStack (procStack page : UInt32) (m : Memory32) : Memory32 :=
  (m.write32 (procStack + 68) (page + 4096)).write32 (procStack + 72) selectorUData

section System

/- `entry` is the address of `switch_to`, `intrEntry` the one of the interrupt entries, and
`function` the argument of `start_process`. -/
variable (kernelThread entry startProcess function : UInt32) (tss : Tss)
  (intrEntry : Bool → UInt32) (p : UInt32)

/-- The vectors that the interrupt controller lets through. -/
def hardwareVector (keyboard : Bool) : Nat := if keyboard then 0x21 else 0x20

/-- `switch_to(cur, next)`. When no other thread is ready, `next` is the caller itself. -/
def ProcessRun.switchOut (s : ProcessRun) (next : UInt32) (c : Option Cpu) : ProcessRun :=
  { s with
    cpu := switchTo (call entry s.cpu)
    mode := if next = p then s.mode else .suspended c s.cpu
    preempted := s.preempted || s.progress.Exposed }

def ProcessEvent.step (s : ProcessRun) : ProcessEvent → Option ProcessRun
  | .elsewhere d =>
    match s.mode with
    | .waiting | .suspended _ _ => some { s with cpu := d }
    | _ => none
  | .switchIn _ =>
    match s.mode with
    | .waiting | .suspended none _ =>
      some { s with cpu := switchTo (call entry s.cpu), mode := .running }
    | .suspended (some c) _ => some { s with cpu := switchTo (call entry s.cpu), mode := .handler c }
    | _ => none
  | .compute d =>
    match s.mode with
    | .running => some { s with cpu := d }
    | _ => none
  | .interrupt keyboard =>
    match s.mode with
    | .running =>
      -- the flag IF
      if s.cpu.eflags &&& 0x200 ≠ 0 then
        some { s with
          cpu := vectorEntry tss (intrEntry keyboard) (hardwareVector keyboard)
            (hardwareVector keyboard, .ZERO) 0 s.cpu
          mode := .handler s.cpu }
      else none
    | _ => none
  | .handle d =>
    match s.mode with
    | .handler _ => some { s with cpu := d }
    | _ => none
  | .switchOut next =>
    match s.mode, s.progress with
    | .handler c, _ => some (s.switchOut entry p next (some c))
    -- `get_a_page` may have to wait for a lock
    | .running, .filling _ => some (s.switchOut entry p next none)
    | _, _ => none
  | .intrExit =>
    match s.mode with
    | .handler _ => some { s with cpu := OsKernel.intrExit s.cpu, mode := .running }
    | _ => none
  | .load =>
    match s.mode, s.progress with
    | .running, .kernelThread =>
      let cur := runningThread (s.cpu.reg .esp)
      some { s with progress := .loaded cur (s.cpu.mem.read32 cur) }
    | _, _ => none
  | .store =>
    match s.mode, s.progress with
    | .running, .loaded cur kstack =>
      some { s with
        cpu := { s.cpu with mem := s.cpu.mem.write32 cur (kstack + 4 * sizeofThreadStack) }
        progress := .moved cur }
    | _, _ => none
  | .take =>
    match s.mode, s.progress with
    | .running, .moved cur => some { s with progress := .taken (s.cpu.mem.read32 cur) }
    | _, _ => none
  | .fill =>
    match s.mode, s.progress with
    | .running, .taken a =>
      some { s with
        cpu := { s.cpu with mem := fillProcStack a function s.cpu.mem }, progress := .filling a }
    | _, _ => none
  | .fillStack page =>
    match s.mode, s.progress with
    | .running, .filling a =>
      some { s with
        cpu := { s.cpu with mem := fillUserStack a page s.cpu.mem }, progress := .filled a }
    | _, _ => none
  | .enter =>
    match s.mode, s.progress with
    | .running, .filled a => some { s with cpu := s.cpu.set .esp a, mode := .exiting }
    | _, _ => none

/-- `process_execute` has made the thread. -/
structure NewProcess (s : ProcessRun) : Prop where
  aligned : PageAligned p
  created : ∃ (mainThread : UInt32) (name : List UInt8) (prio : UInt8) (m : Memory32),
    s.cpu.mem = threadCreate kernelThread p startProcess function
      (initThread mainThread p name prio m)
  progress : s.progress = .kernelThread
  mode : s.mode = .waiting
  preempted : s.preempted = false

def processRuns : System ProcessRun ProcessEvent Empty where
  init := NewProcess kernelThread startProcess function p
  step e s := (e.step entry function tss intrEntry p s).map .ok

end System

/-! ## What the surrounding code keeps to -/

/-- The bytes of its page that only the thread itself writes: `self_kstack`, and the stack above the
PCB. -/
def OwnByte (p b : UInt32) : Prop :=
  InPage p b ∧ (b.toNat < p.toNat + 4 ∨ p.toNat + sizeofTaskStruct ≤ b.toNat)

/-- The stack pointer is below the start of `kernel_thread`, with room for an interrupt. -/
def OnStack (p : UInt32) (c : Cpu) : Prop :=
  p.toNat + 512 ≤ (c.reg .esp).toNat ∧ (c.reg .esp).toNat ≤ p.toNat + 3684

/-- The stack pointer of the handler of an interrupt in the state `c`. -/
def BelowFrame (p : UInt32) (c d : Cpu) : Prop :=
  p.toNat + 100 ≤ (d.reg .esp).toNat ∧ (d.reg .esp).toNat + 68 ≤ (c.reg .esp).toNat

/-- The functions of the kernel keep to their own part of the stack, and none of them writes to
`self_kstack`; the PCB of a thread is open to the others. -/
def Rules (p : UInt32) (s : ProcessRun) : ProcessEvent → Prop
  | .elsewhere d => ∀ b, OwnByte p b → d.mem b = s.cpu.mem b
  | .switchIn cur => PageAligned cur ∧ cur ≠ p ∧ AtSwitch s.cpu cur p
  | .compute d => OnStack p d ∧ d.mem.read32 p = s.cpu.mem.read32 p
  | .interrupt _ => s.cpu.cpl = 0
  | .handle d => ∀ c, s.mode = .handler c → BelowFrame p c d ∧
      d.mem.read32 p = s.cpu.mem.read32 p ∧
      ∀ b : UInt32, (c.reg .esp).toNat ≤ b.toNat + 68 → b.toNat < (c.reg .esp).toNat →
        d.mem b = s.cpu.mem b
  | .switchOut next => AtSwitch s.cpu p next
  | .intrExit => ∀ c, s.mode = .handler c →
      s.cpu.reg .esp = c.reg .esp - 68 ∧ s.cpu.cpl = 0 ∧ s.cpu.ss = c.ss
  | _ => True

/-! ## The invariant -/

/-- The frame of an interrupt in the state `c`, above the vector number. -/
def Framed (c : Cpu) (m : Memory32) : Prop :=
  ∃ (e : Reg → UInt32) (g : SegReg → UInt32), HoldsRegs e g c ∧
    Stacked m (c.reg .esp - 64) (frameWords e g [0] c)

/-- The stack pointers and the frames on the stack. -/
def ModeInv (kernelThread startProcess function p : UInt32) (progress : Progress) (cpu : Cpu) :
    Mode → Prop
  | .waiting => Saved kernelThread cpu.mem p (.fresh startProcess function)
  | .running => OnStack p cpu
  | .handler c => OnStack p c ∧ c.cpl = 0 ∧ Framed c cpu.mem ∧ BelowFrame p c cpu
  | .suspended none d => OnStack p d ∧ Saved kernelThread cpu.mem p (.suspended d)
  | .suspended (some c) d => OnStack p c ∧ c.cpl = 0 ∧ Framed c cpu.mem ∧ BelowFrame p c d ∧
      Saved kernelThread cpu.mem p (.suspended d)
  | .exiting => ∃ a, progress = .filled a ∧ cpu.reg .esp = a

/-- `n` bytes above the start of the page, or below that after a switch. -/
def KstackIs (p : UInt32) (n : Nat) (preempted : Bool) (v : UInt32) : Prop :=
  (preempted = false → v = p + UInt32.ofNat n) ∧ (preempted = true → v.toNat < p.toNat + n)

/-- What `start_process` has got from `self_kstack`, or will get. -/
def ProgressInv (p : UInt32) (preempted : Bool) (m : Memory32) : Progress → Prop
  | .kernelThread => KstackIs p 3664 preempted (m.read32 p)
  | .loaded cur kstack => cur = p ∧ KstackIs p 3664 preempted kstack
  | .moved cur => cur = p ∧ KstackIs p 3792 preempted (m.read32 p)
  | .taken a | .filling a | .filled a => KstackIs p 3792 preempted a

structure EntryInv (kernelThread startProcess function p : UInt32) (s : ProcessRun) : Prop where
  aligned : PageAligned p
  mode : ModeInv kernelThread startProcess function p s.progress s.cpu s.mode
  progress : ProgressInv p s.preempted s.cpu.mem s.progress

/-! ## Stacks and frames -/

section Stacks

variable {kernelThread p cur next : UInt32} {c d : Cpu} {m m' : Memory32} {ctx : Context}

/-- `self_kstack` belongs to the thread. -/
theorem OwnByte.slot (hp : PageAligned p) {k : Nat} (hk : k < 4) : OwnByte p (p + UInt32.ofNat k) := by
  refine ⟨hp.inPage (by omega), Or.inl ?_⟩
  rw [hp.toNat_add (by omega)]
  omega

theorem kstack_congr (hp : PageAligned p) (heq : ∀ b, OwnByte p b → m' b = m b) :
    m'.read32 p = m.read32 p :=
  Memory32.read32_congr fun _ hk => heq _ (OwnByte.slot hp hk)

theorem Context.Frame.length_le {ws : List UInt32} (h : ctx.Frame kernelThread ws) :
    ws.length ≤ 8 := by
  cases h with
  | suspended c => exact (by decide : 5 ≤ 8)
  | fresh function funcArg retaddr => exact (by decide : 8 ≤ 8)

/-- **Frame rule** for a context on the stack: it does not depend on the PCB. -/
theorem Saved.own (h : Saved kernelThread m p ctx) (hp : PageAligned p)
    (hlo : p.toNat + 100 ≤ (ctx.base p).toNat) (heq : ∀ b, OwnByte p b → m' b = m b) :
    Saved kernelThread m' p ctx := by
  obtain ⟨ws, hframe, hwords, hbase, hpage⟩ := h
  have hlen := hframe.length_le
  have hslot := kstack_congr hp heq
  have hbound := hp.bound
  have hm := (m.read32 p).toNat_lt
  have hplace : (ctx.base p).toNat = ((m.read32 p).toNat + 4 * ws.length) % 2 ^ 32 := by
    rw [← hbase, UInt32.toNat_add, Memory32.toNat_ofNat_lt (by omega)]
  rw [Saved, hslot]
  refine ⟨ws, hframe, hwords.congr fun k hk => heq _ ⟨hpage k hk, Or.inr ?_⟩, hbase, hpage⟩
  have hin := hpage k hk
  rw [InPage, UInt32.toNat_add, Memory32.toNat_ofNat_lt (by omega)] at hin
  rw [UInt32.toNat_add, Memory32.toNat_ofNat_lt (by omega), sizeofTaskStruct]
  omega

theorem frameWords_inner (hcpl : c.cpl = 0) (e : Reg → UInt32) (g : SegReg → UInt32) :
    (frameWords e g [0] c).length = 16 := by
  have houter : outerStack c = [] := if_pos hcpl
  rw [frameWords_length, houter]
  rfl

/-- **Frame rule** for the frame of an interrupt. -/
theorem Framed.congr (h : Framed c m) (hcpl : c.cpl = 0) (hlo : 68 ≤ (c.reg .esp).toNat)
    (heq : ∀ b : UInt32, (c.reg .esp).toNat ≤ b.toNat + 68 → b.toNat < (c.reg .esp).toNat →
      m' b = m b) : Framed c m' := by
  obtain ⟨e, g, he, hwords⟩ := h
  refine ⟨e, g, he, hwords.congr fun k hk => ?_⟩
  rw [frameWords_inner hcpl] at hk
  have hesp := (c.reg .esp).toNat_lt
  have hsub : (64 : UInt32).toNat = 64 := rfl
  have hplace : (c.reg .esp - 64 + UInt32.ofNat k).toNat = (c.reg .esp).toNat - 64 + k := by
    rw [UInt32.toNat_add, UInt32.toNat_sub, Memory32.toNat_ofNat_lt (by omega), hsub]
    omega
  exact heq _ (by omega) (by omega)

/-- It lies in the part of the page that is the thread's own. -/
theorem OnStack.ownFrame (h : OnStack p c) {b : UInt32} (hlo : (c.reg .esp).toNat ≤ b.toNat + 68)
    (hhi : b.toNat < (c.reg .esp).toNat) : OwnByte p b := by
  unfold OnStack at h
  unfold OwnByte InPage sizeofTaskStruct
  omega

/-- `running_thread` finds the page. -/
theorem OnStack.runningThread (h : OnStack p c) (hp : PageAligned p) :
    runningThread (c.reg .esp) = p := by
  unfold OnStack at h
  unfold PageAligned at hp
  rw [Switch.runningThread, ← UInt32.toNat_inj, and_frame, frame]
  omega

/-- A switch from another thread leaves the page alone. -/
theorem saveHalf_other {entry b : UInt32} (hp : PageAligned p) (hcur : PageAligned cur)
    (hne : cur ≠ p) (hat : AtSwitch c cur next) (hb : InPage p b) :
    (saveHalf entry c).mem b = c.mem b :=
  (@saveHalf_saved 0 entry _ _ _ hcur hat).2.2 b (InPage.disjoint hp hcur (Ne.symm hne) hb)

/-- What comes back from `switch_to`: the stack pointer, and memory as the first half left it. -/
theorem switchTo_back {entry : UInt32} (hnext : (saveHalf entry c).mem.read32
      ((saveHalf entry c).reg .esp + 24) = p)
    (hsaved : Saved kernelThread (saveHalf entry c).mem p (.suspended d)) :
    (switchTo (call entry c)).reg .esp = d.reg .esp ∧
      (switchTo (call entry c)).mem = (saveHalf entry c).mem := by
  obtain ⟨hres, hmem⟩ := restoreHalf_resumes hnext hsaved
  rw [switchTo_eq]
  exact ⟨hres.2.1, hmem⟩

theorem switchTo_mem (entry : UInt32) (c : Cpu) :
    (switchTo (call entry c)).mem = (saveHalf entry c).mem := by
  rw [switchTo_eq, restoreHalf_mem]

end Stacks

/-! ## The steps -/

section Steps

variable {kernelThread entry startProcess function p : UInt32} {tss : Tss}
  {intrEntry : Bool → UInt32} {s : ProcessRun}

/-- Of the memory, what is to come depends on `self_kstack` only. -/
theorem ProgressInv.congr {progress : Progress} {pre : Bool} {m m' : Memory32}
    (h : ProgressInv p pre m progress) (hslot : m'.read32 p = m.read32 p) :
    ProgressInv p pre m' progress := by
  cases progress with
  | kernelThread | moved cur =>
    simp only [ProgressInv, hslot]
    exact h
  | loaded cur kstack | taken a | filling a | filled a => exact h

/-- **New thread**: `self_kstack` is where `start_process` expects it. -/
theorem NewProcess.inv (h : NewProcess kernelThread startProcess function p s) :
    EntryInv kernelThread startProcess function p s := by
  obtain ⟨mainThread, name, prio, m, hmem⟩ := h.created
  have hslot := @initThread_kstack p mainThread name prio m
  obtain ⟨hsaved, -⟩ := @threadCreate_saved _ _ kernelThread startProcess function h.aligned hslot
  rw [← hmem] at hsaved
  refine ⟨h.aligned, ?_, ?_⟩
  · rw [h.mode]
    exact hsaved
  · rw [h.progress, h.preempted]
    refine ⟨fun _ => ?_, nofun⟩
    obtain ⟨ws, hframe, -, hbase, -⟩ := hsaved
    cases hframe with
    | fresh function funcArg retaddr =>
      have hsum : p + 3696 = p + UInt32.ofNat 3664 + UInt32.ofNat (4 * 8) :=
        (add_ofNat_add p 3664 32).symm
      exact (UInt32.add_left_inj _).mp (hbase.trans hsum)

theorem fresh_base (hp : PageAligned p) :
    ((Context.fresh startProcess function).base p).toNat = p.toNat + 3696 :=
  hp.toNat_add (k := 3696) (by decide)

/-- What the other threads do to the rest of the memory does not matter. -/
theorem ModeInv.own {progress : Progress} {c : Option Cpu} {cpu d d' : Cpu}
    (h : ModeInv kernelThread startProcess function p progress cpu (.suspended c d'))
    (hp : PageAligned p) (hown : ∀ b, OwnByte p b → d.mem b = cpu.mem b) :
    ModeInv kernelThread startProcess function p progress d (.suspended c d') := by
  cases c with
  | none =>
    obtain ⟨hstack, hsaved⟩ := h
    refine ⟨hstack, hsaved.own hp ?_ hown⟩
    unfold OnStack at hstack
    rw [Context.base]
    omega
  | some c =>
    obtain ⟨hstack, hcpl, hframed, hbelow, hsaved⟩ := h
    have hroom := hstack.1
    exact ⟨hstack, hcpl, hframed.congr hcpl (by omega) fun b hlo hhi =>
      hown b (hstack.ownFrame hlo hhi), hbelow, hsaved.own hp hbelow.1 hown⟩

variable {s' : ProcessRun}

theorem EntryInv.elsewhere {d : Cpu} (h : EntryInv kernelThread startProcess function p s)
    (hd : Rules p s (.elsewhere d))
    (hstep : (ProcessEvent.elsewhere d).step entry function tss intrEntry p s = some s') :
    EntryInv kernelThread startProcess function p s' := by
  obtain ⟨hp, hmode, hprogress⟩ := h
  obtain ⟨cpu, progress, mode, pre⟩ := s
  have hown : ∀ b, OwnByte p b → d.mem b = cpu.mem b := hd
  have hnext := hprogress.congr (kstack_congr hp hown)
  cases mode with
  | waiting =>
    cases hstep
    have hbase := @fresh_base startProcess function p hp
    exact ⟨hp, Saved.own hmode hp (by omega) hown, hnext⟩
  | suspended c d' =>
    cases hstep
    exact ⟨hp, ModeInv.own hmode hp hown, hnext⟩
  | running | handler | exiting => cases hstep

/-- **Another thread switches to this one.** It goes on at its own stack pointer. -/
theorem EntryInv.switchIn {cur : UInt32} (h : EntryInv kernelThread startProcess function p s)
    (hcur : Rules p s (.switchIn cur))
    (hstep : (ProcessEvent.switchIn cur).step entry function tss intrEntry p s = some s') :
    EntryInv kernelThread startProcess function p s' := by
  obtain ⟨hp, hmode, hprogress⟩ := h
  obtain ⟨cpu, progress, mode, pre⟩ := s
  obtain ⟨hcurp, hne, hat⟩ := hcur
  have hpage : ∀ b, InPage p b → (saveHalf entry cpu).mem b = cpu.mem b :=
    fun b hb => saveHalf_other hp hcurp hne hat hb
  have harg := (@saveHalf_saved 0 entry _ _ _ hcurp hat).1
  have hmem := switchTo_mem entry cpu
  have hnext : ProgressInv p pre (switchTo (call entry cpu)).mem progress := by
    refine hprogress.congr (kstack_congr hp fun b hb => ?_)
    rw [hmem]
    exact hpage b hb.1
  have hown : ∀ b, OwnByte p b → (saveHalf entry cpu).mem b = cpu.mem b := fun b hb => hpage b hb.1
  cases mode with
  | waiting =>
    cases hstep
    refine ⟨hp, ?_, hnext⟩
    have hsaved : Saved kernelThread (saveHalf entry cpu).mem p (.fresh startProcess function) :=
      Saved.congr hmode hp hpage
    -- the stack pointer behind the five words of the frame
    obtain ⟨ws, hframe, -, hbase, -⟩ := hsaved
    cases hframe with
    | fresh function funcArg retaddr =>
      have hsum : p + 3696 = p + UInt32.ofNat 3664 + UInt32.ofNat (4 * 8) :=
        (add_ofNat_add p 3664 32).symm
      have hslot := (UInt32.add_left_inj _).mp (hbase.trans hsum)
      have hesp : (switchTo (call entry cpu)).reg .esp = p + UInt32.ofNat 3684 := by
        rw [switchTo_eq, restoreHalf_esp, harg, hslot]
        exact add_ofNat_add p 3664 20
      show OnStack p _
      rw [OnStack, hesp, hp.toNat_add (by decide)]
      omega
  | suspended c d =>
    have hkept := ModeInv.own (d := saveHalf entry cpu) hmode hp hown
    cases c with
    | none =>
      cases hstep
      obtain ⟨hstack, hsaved⟩ := hkept
      refine ⟨hp, ?_, hnext⟩
      show OnStack p _
      rw [OnStack, (switchTo_back harg hsaved).1]
      exact hstack
    | some c =>
      cases hstep
      obtain ⟨hstack, hcpl, hframed, hbelow, hsaved⟩ := hkept
      refine ⟨hp, ⟨hstack, hcpl, hmem ▸ hframed, ?_⟩, hnext⟩
      show BelowFrame p c _
      rw [BelowFrame, (switchTo_back harg hsaved).1]
      exact hbelow
  | running | handler | exiting => cases hstep

theorem EntryInv.compute {d : Cpu} (h : EntryInv kernelThread startProcess function p s)
    (hd : Rules p s (.compute d))
    (hstep : (ProcessEvent.compute d).step entry function tss intrEntry p s = some s') :
    EntryInv kernelThread startProcess function p s' := by
  obtain ⟨hp, hmode, hprogress⟩ := h
  obtain ⟨cpu, progress, mode, pre⟩ := s
  obtain ⟨hstack, hslot⟩ := hd
  cases mode with
  | running =>
    cases hstep
    exact ⟨hp, hstack, hprogress.congr hslot⟩
  | waiting | handler | suspended | exiting => cases hstep

/-- The bytes of `self_kstack` are far from the stack. -/
theorem kstack_far (hp : PageAligned p) {esp : UInt32} (hlo : p.toNat + 80 ≤ esp.toNat)
    (hhi : esp.toNat ≤ p.toNat + 4096) {k : Nat} (hk : k < 4) :
    4 * 17 ≤ (p + UInt32.ofNat k - esp).toNat := by
  have hbound := hp.bound
  have hesp := esp.toNat_lt
  rw [UInt32.toNat_sub, hp.toNat_add (by omega)]
  omega

/-- **An interrupt** leaves its frame on the stack. -/
theorem EntryInv.interrupt {keyboard : Bool}
    (h : EntryInv kernelThread startProcess function p s) (hcpl : Rules p s (.interrupt keyboard))
    (hstep : (ProcessEvent.interrupt keyboard).step entry function tss intrEntry p s = some s') :
    EntryInv kernelThread startProcess function p s' := by
  obtain ⟨hp, hmode, hprogress⟩ := h
  obtain ⟨cpu, progress, mode, pre⟩ := s
  have hzero : cpu.cpl = 0 := hcpl
  cases mode with
  | running =>
    have hstack : OnStack p cpu := hmode
    rw [ProcessEvent.step] at hstep
    dsimp only at hstep
    split at hstep
    · cases hstep
      have hvec : pushesErrorCode (hardwareVector keyboard) = false := by cases keyboard <;> decide
      have hgrows := vectorEntry_grows tss (intrEntry keyboard) (hardwareVector keyboard) 0 cpu hzero
        hvec (hardwareVector keyboard)
      obtain ⟨e, g, he, -, hwords⟩ := vectorEntry_stack tss (intrEntry keyboard)
        (hardwareVector keyboard) (hardwareVector keyboard, .ZERO) 0 cpu
      have hcodes : codeWords (hardwareVector keyboard) .ZERO 0 = [0] := by
        rw [codeWords, errorCode, hvec]
        rfl
      have hroom := hstack.1
      have hesp := hgrows.esp
      have hlow : (4 * 17 : Nat) = 68 := rfl
      have hcesp := (cpu.reg .esp).toNat_lt
      rw [hlow] at hesp
      generalize vectorEntry tss (intrEntry keyboard) (hardwareVector keyboard)
        (hardwareVector keyboard, .ZERO) 0 cpu = d at *
      have hdesp : (d.reg .esp).toNat + 68 = (cpu.reg .esp).toNat := by
        rw [hesp, UInt32.toNat_sub, Memory32.toNat_ofNat_lt (by omega)]
        omega
      have hslot : d.mem.read32 p = cpu.mem.read32 p := by
        refine Memory32.read32_congr fun k hk => hgrows.mem _ ?_
        exact kstack_far hp (by omega) (by have := hstack.2; omega) hk
      refine ⟨hp, ⟨hstack, hzero, ⟨e, g, he, ?_⟩, ?_⟩, hprogress.congr hslot⟩
      · have hplace : cpu.reg .esp - 64 = d.reg .esp + 4 := by
          rw [hesp]
          grind
        rw [hplace, ← hcodes]
        exact hwords.words.2
      · show p.toNat + 100 ≤ (d.reg .esp).toNat ∧
          (d.reg .esp).toNat + 68 ≤ (cpu.reg .esp).toNat
        omega
    · cases hstep
  | waiting | handler | suspended | exiting => cases hstep

theorem EntryInv.handle {d : Cpu} (h : EntryInv kernelThread startProcess function p s)
    (hd : Rules p s (.handle d))
    (hstep : (ProcessEvent.handle d).step entry function tss intrEntry p s = some s') :
    EntryInv kernelThread startProcess function p s' := by
  obtain ⟨hp, hmode, hprogress⟩ := h
  obtain ⟨cpu, progress, mode, pre⟩ := s
  cases mode with
  | handler c =>
    cases hstep
    obtain ⟨hbelow, hslot, hframe⟩ := hd c rfl
    obtain ⟨hstack, hcpl, hframed, -⟩ := hmode
    have hroom := hstack.1
    exact ⟨hp, ⟨hstack, hcpl, hframed.congr hcpl (by omega) hframe, hbelow⟩, hprogress.congr hslot⟩
  | waiting | running | suspended | exiting => cases hstep

/-- `intr_exit` gives the stack pointer back. -/
theorem EntryInv.intrExit (h : EntryInv kernelThread startProcess function p s)
    (hd : Rules p s .intrExit)
    (hstep : ProcessEvent.intrExit.step entry function tss intrEntry p s = some s') :
    EntryInv kernelThread startProcess function p s' := by
  obtain ⟨hp, hmode, hprogress⟩ := h
  obtain ⟨cpu, progress, mode, pre⟩ := s
  cases mode with
  | handler c =>
    cases hstep
    obtain ⟨hesp, hcpl', hss⟩ := hd c rfl
    obtain ⟨hstack, hcpl, ⟨e, g, he, hwords⟩, -⟩ := hmode
    have hespc : cpu.reg .esp = c.reg .esp - 68 := hesp
    have hdrop : (cpu.drop 4).reg .esp = c.reg .esp - 64 := by
      rw [Cpu.drop_esp, hespc]
      grind
    have hframe : (cpu.drop 4).Stack (intrBase tss c) (frameWords e g [0] c) := by
      constructor
      · have hbase : intrBase tss c = c.reg .esp := if_pos hcpl
        rw [hdrop, frameWords_inner hcpl, hbase]
        exact UInt32.sub_add_cancel _ _
      · rw [hdrop]
        exact hwords
    have hresumed := intrExit_resumed he hframe hcpl' fun _ => hss
    refine ⟨hp, ?_, hprogress.congr (by rw [intrExit_mem])⟩
    show OnStack p _
    rw [OnStack, hresumed.reg]
    exact hstack
  | waiting | running | suspended | exiting => cases hstep

/-- **Only here `self_kstack` is overwritten**: with a stack pointer below the start of the thread. -/
theorem ProgressInv.switchOut {next : UInt32} {cpu : Cpu} {progress : Progress} {pre : Bool}
    (h : ProgressInv p pre cpu.mem progress) (hat : AtSwitch cpu p next)
    (hstack : progress.Exposed = true → (cpu.reg .esp).toNat ≤ p.toNat + 3616) :
    ProgressInv p (pre || progress.Exposed) (switchTo (call entry cpu)).mem progress := by
  have hlow := hat.low
  have hcesp := (cpu.reg .esp).toNat_lt
  have hslot : (switchTo (call entry cpu)).mem.read32 p = cpu.reg .esp - 20 := by
    rw [switchTo_mem, saveHalf_kstack hat]
  have htwenty : (20 : UInt32).toNat = 20 := rfl
  have hvalue : (cpu.reg .esp - 20).toNat = (cpu.reg .esp).toNat - 20 := by
    rw [UInt32.toNat_sub, htwenty]
    omega
  cases progress with
  | kernelThread =>
    have hle := hstack rfl
    refine ⟨fun hpre => ?_, fun _ => ?_⟩
    · rw [Progress.Exposed, Bool.or_true] at hpre
      cases hpre
    · rw [hslot, hvalue]
      omega
  | moved cur =>
    have hle := hstack rfl
    refine ⟨h.1, fun hpre => ?_, fun _ => ?_⟩
    · rw [Progress.Exposed, Bool.or_true] at hpre
      cases hpre
    · rw [hslot, hvalue]
      omega
  | loaded cur kstack | taken a | filling a | filled a =>
    show ProgressInv p (pre || false) _ _
    rw [Bool.or_false]
    exact h

/-- **The thread is switched out.** -/
theorem EntryInv.switchOut {next : UInt32} (h : EntryInv kernelThread startProcess function p s)
    (hat : Rules p s (.switchOut next))
    (hstep : (ProcessEvent.switchOut next).step entry function tss intrEntry p s = some s') :
    EntryInv kernelThread startProcess function p s' := by
  obtain ⟨hp, hmode, hprogress⟩ := h
  obtain ⟨cpu, progress, mode, pre⟩ := s
  replace hat : AtSwitch cpu p next := hat
  obtain ⟨harg, hsaved, -⟩ := @saveHalf_saved kernelThread entry _ _ _ hp hat
  have hmem := switchTo_mem entry cpu
  have hsaved' : Saved kernelThread (switchTo (call entry cpu)).mem p (.suspended cpu) :=
    hmem ▸ hsaved
  cases mode with
  | handler c =>
    cases hstep
    obtain ⟨hstack, hcpl, hframed, hbelow⟩ := hmode
    have hhi : (cpu.reg .esp).toNat + 68 ≤ (c.reg .esp).toNat := hbelow.2
    have htop := hstack.2
    have hroom := hstack.1
    have hframed' : Framed c (switchTo (call entry cpu)).mem := by
      refine hframed.congr hcpl (by omega) fun b hblo hbhi => ?_
      rw [hmem]
      exact saveHalf_above hp hat (by omega) (by omega)
    have hdeep : (cpu.reg .esp).toNat ≤ p.toNat + 3616 := by omega
    refine ⟨hp, ?_, hprogress.switchOut hat fun _ => hdeep⟩
    by_cases hself : next = p
    · -- it goes on at once
      have hback := switchTo_back (harg.trans hself) hsaved
      have hgoal : OnStack p c ∧ c.cpl = 0 ∧ Framed c (switchTo (call entry cpu)).mem ∧
          BelowFrame p c (switchTo (call entry cpu)) := by
        refine ⟨hstack, hcpl, hframed', ?_⟩
        rw [BelowFrame, hback.1]
        exact hbelow
      show ModeInv _ _ _ _ progress _ (if next = p then _ else _)
      rw [if_pos hself]
      exact hgoal
    · have hgoal : OnStack p c ∧ c.cpl = 0 ∧ Framed c (switchTo (call entry cpu)).mem ∧
          BelowFrame p c cpu ∧ Saved kernelThread (switchTo (call entry cpu)).mem p
            (.suspended cpu) := ⟨hstack, hcpl, hframed', hbelow, hsaved'⟩
      show ModeInv _ _ _ _ progress _ (if next = p then _ else _)
      rw [if_neg hself]
      exact hgoal
  | running =>
    cases progress with
    | filling a =>
      cases hstep
      refine ⟨hp, ?_, hprogress.switchOut hat nofun⟩
      by_cases hself : next = p
      · have hback := switchTo_back (harg.trans hself) hsaved
        have hgoal : OnStack p (switchTo (call entry cpu)) := by
          rw [OnStack, hback.1]
          exact hmode
        show ModeInv _ _ _ _ _ _ (if next = p then _ else _)
        rw [if_pos hself]
        exact hgoal
      · have hgoal : OnStack p cpu ∧ Saved kernelThread (switchTo (call entry cpu)).mem p
            (.suspended cpu) := ⟨hmode, hsaved'⟩
        show ModeInv _ _ _ _ _ _ (if next = p then _ else _)
        rw [if_neg hself]
        exact hgoal
    | kernelThread | loaded | moved | taken | filled => cases hstep
  | waiting | suspended | exiting => cases hstep

/-- The two accesses to `self_kstack`, and the rest of `start_process`. -/
theorem EntryInv.ownCode {e : ProcessEvent}
    (he : e = .load ∨ e = .store ∨ e = .take ∨ e = .fill ∨ (∃ page, e = .fillStack page) ∨ e = .enter)
    (h : EntryInv kernelThread startProcess function p s)
    (hstep : e.step entry function tss intrEntry p s = some s') :
    EntryInv kernelThread startProcess function p s' := by
  obtain ⟨hp, hmode, hprogress⟩ := h
  obtain ⟨cpu, progress, mode, pre⟩ := s
  rcases he with rfl | rfl | rfl | rfl | ⟨page, rfl⟩ | rfl
  · cases mode with
    | running =>
      cases progress with
      | kernelThread =>
        cases hstep
        have hcur := OnStack.runningThread hmode hp
        refine ⟨hp, hmode, hcur, ?_⟩
        rw [hcur]
        exact hprogress
      | loaded | moved | taken | filling | filled => cases hstep
    | waiting | handler | suspended | exiting => cases hstep
  · cases mode with
    | running =>
      cases progress with
      | loaded cur kstack =>
        cases hstep
        obtain ⟨rfl, hfresh, hswitched⟩ := hprogress
        have hsize : (4 * sizeofThreadStack : UInt32) = UInt32.ofNat 128 := rfl
        refine ⟨hp, hmode, rfl, fun hpre => ?_, fun hpre => ?_⟩
        · rw [Memory32.read32_write32, hfresh hpre, hsize, add_ofNat_add]
        · have hlt := hswitched hpre
          have hbound := hp.bound
          rw [Memory32.read32_write32, hsize, UInt32.toNat_add, Memory32.toNat_ofNat_lt (by omega)]
          omega
      | kernelThread | moved | taken | filling | filled => cases hstep
    | waiting | handler | suspended | exiting => cases hstep
  · cases mode with
    | running =>
      cases progress with
      | moved cur =>
        cases hstep
        obtain ⟨rfl, hvalue⟩ := hprogress
        exact ⟨hp, hmode, hvalue⟩
      | kernelThread | loaded | taken | filling | filled => cases hstep
    | waiting | handler | suspended | exiting => cases hstep
  · cases mode with
    | running =>
      cases progress with
      | taken a =>
        cases hstep
        exact ⟨hp, hmode, hprogress⟩
      | kernelThread | loaded | moved | filling | filled => cases hstep
    | waiting | handler | suspended | exiting => cases hstep
  · cases mode with
    | running =>
      cases progress with
      | filling a =>
        cases hstep
        exact ⟨hp, hmode, hprogress⟩
      | kernelThread | loaded | moved | taken | filled => cases hstep
    | waiting | handler | suspended | exiting => cases hstep
  · cases mode with
    | running =>
      cases progress with
      | filled a =>
        cases hstep
        exact ⟨hp, ⟨a, rfl, Cpu.set_self _ _ _⟩, hprogress⟩
      | kernelThread | loaded | moved | taken | filling => cases hstep
    | waiting | handler | suspended | exiting => cases hstep

/-- **Every run** keeps the invariant. -/
theorem processRuns_inv (hs : (processRuns kernelThread entry startProcess function tss intrEntry
    p).Reach (Rules p) s) : EntryInv kernelThread startProcess function p s := by
  refine System.Reach.invariant (fun s h => @NewProcess.inv kernelThread startProcess function p s h)
    ?_ s hs
  intro s e s' _ h hg hstep
  have hstep' : e.step entry function tss intrEntry p s = some s' := by
    obtain ⟨t, ht, hok⟩ := Option.map_eq_some_iff.mp hstep
    cases hok
    exact ht
  cases e with
  | elsewhere d => exact h.elsewhere hg hstep'
  | switchIn cur => exact h.switchIn hg hstep'
  | compute d => exact h.compute hg hstep'
  | interrupt keyboard => exact h.interrupt hg hstep'
  | handle d => exact h.handle hg hstep'
  | switchOut next => exact h.switchOut hg hstep'
  | intrExit => exact h.intrExit hg hstep'
  | load => exact h.ownCode (by simp) hstep'
  | store => exact h.ownCode (by simp) hstep'
  | take => exact h.ownCode (by simp) hstep'
  | fill => exact h.ownCode (by simp) hstep'
  | fillStack page => exact h.ownCode (by simp) hstep'
  | enter => exact h.ownCode (by simp) hstep'

end Steps

/-! ## The frame of the new process -/

/-- Where `thread_create` has reserved space for `struct intr_stack`. -/
def reservedFrame (p : UInt32) : UInt32 := p + 4096 - 4 * sizeofIntrStack

/-- The frame that `start_process` fills in is the reserved one, it does not overlap what is on the
stack meanwhile, and `intr_exit` gets it. -/
structure FrameInPlace (p : UInt32) (s : ProcessRun) : Prop where
  reserved : ∀ a, s.progress.procStack = some a → a = reservedFrame p
  apart : ∀ a, s.progress.procStack = some a → s.mode = .running → ∀ b : UInt32,
    (s.cpu.reg .esp).toNat ≤ b.toNat → b.toNat < p.toNat + 3696 →
      ¬ (a.toNat ≤ b.toNat ∧ b.toNat < a.toNat + sizeofIntrStack.toNat)
  exit : s.mode = .exiting → s.cpu.reg .esp = reservedFrame p

/-- The thread is not switched out while `self_kstack` is still to be loaded. -/
def Undisturbed (s : ProcessRun) : ProcessEvent → Prop
  | .switchOut _ => s.progress.Exposed = false
  | _ => True

section Placement

variable {kernelThread entry startProcess function p : UInt32} {tss : Tss}
  {intrEntry : Bool → UInt32} {s : ProcessRun}

theorem reservedFrame_eq (p : UInt32) : reservedFrame p = p + UInt32.ofNat 3792 := by
  have hsum : p + 4096 = p + UInt32.ofNat 3792 + 4 * sizeofIntrStack := by
    rw [UInt32.add_assoc]
    rfl
  rw [reservedFrame, hsum, UInt32.add_sub_cancel]

theorem EntryInv.procStack {a : UInt32} (h : EntryInv kernelThread startProcess function p s)
    (ha : s.progress.procStack = some a) : KstackIs p 3792 s.preempted a := by
  have hprogress := h.progress
  cases hat : s.progress with
  | taken b | filling b | filled b =>
    rw [hat] at ha hprogress
    cases ha
    exact hprogress
  | kernelThread | loaded | moved =>
    rw [hat] at ha
    cases ha

/-- **The frame is misplaced** after a switch in the critical places. -/
theorem frame_misplaced {a : UInt32} (hs : (processRuns kernelThread entry startProcess function tss
    intrEntry p).Reach (Rules p) s) (ha : s.progress.procStack = some a)
    (hpre : s.preempted = true) : a ≠ reservedFrame p := by
  have h := processRuns_inv hs
  have hlt := (h.procStack ha).2 hpre
  intro heq
  rw [heq, reservedFrame_eq, h.aligned.toNat_add (by decide)] at hlt
  omega

/-- A switch in the critical places is remembered. -/
theorem step_preempted {e : ProcessEvent} {s' : ProcessRun}
    (hstep : e.step entry function tss intrEntry p s = some s') :
    s'.preempted = s.preempted ∨
      (∃ next, e = .switchOut next) ∧ s'.preempted = (s.preempted || s.progress.Exposed) := by
  cases e with
  | switchOut next =>
    rw [ProcessEvent.step] at hstep
    refine Or.inr ⟨⟨next, rfl⟩, ?_⟩
    split at hstep
    · cases hstep
      rfl
    · cases hstep
      rfl
    · cases hstep
  | interrupt keyboard =>
    rw [ProcessEvent.step] at hstep
    split at hstep
    · split at hstep
      · cases hstep
        exact Or.inl rfl
      · cases hstep
    · cases hstep
  | switchIn cur =>
    rw [ProcessEvent.step] at hstep
    split at hstep
    all_goals
      cases hstep
      try exact Or.inl rfl
  | elsewhere | compute | handle | intrExit | load | store | take | fill | fillStack | enter =>
    rw [ProcessEvent.step] at hstep
    split at hstep
    all_goals
      cases hstep
      try exact Or.inl rfl

theorem not_preempted (hs : (processRuns kernelThread entry startProcess function tss intrEntry
    p).Reach (fun s e => Rules p s e ∧ Undisturbed s e) s) : s.preempted = false := by
  refine @System.Reach.invariant _ _ _ _ _ (fun s => s.preempted = false)
    (fun s h => @NewProcess.preempted kernelThread startProcess function p s h) ?_ s hs
  intro s e s' _ h hg hstep
  obtain ⟨t, ht, hok⟩ := Option.map_eq_some_iff.mp hstep
  cases hok
  rcases step_preempted ht with hsame | ⟨⟨next, rfl⟩, hor⟩
  · exact hsame.trans h
  · have hexposed : s.progress.Exposed = false := hg.2
    rw [hor, h, hexposed]
    rfl

/-- **The frame of a new process is in place** in every run in which the thread is not switched out
while `self_kstack` is still to be loaded. -/
theorem frame_in_place (hs : (processRuns kernelThread entry startProcess function tss intrEntry
    p).Reach (fun s e => Rules p s e ∧ Undisturbed s e) s) : FrameInPlace p s := by
  have h := processRuns_inv (hs.mono fun _ _ hg => hg.1)
  have hpre := not_preempted hs
  have hvalue : ∀ a, s.progress.procStack = some a → a = reservedFrame p := by
    intro a ha
    rw [reservedFrame_eq]
    exact (h.procStack ha).1 hpre
  refine ⟨hvalue, ?_, ?_⟩
  · intro a ha _ b _ htop hb
    have hplace : a.toNat = p.toNat + 3792 := by
      rw [hvalue a ha, reservedFrame_eq, h.aligned.toNat_add (by decide)]
    omega
  · intro hexit
    have hmode := h.mode
    rw [hexit] at hmode
    obtain ⟨a, ha, hesp⟩ := hmode
    rw [hesp]
    exact hvalue a (by rw [ha]; rfl)

end Placement

/-! ## Two runs -/

/-- The thread with the page `q` is about to switch to `next`, with its stack `n` bytes above the
start of the page. -/
def atSwitch (q next : UInt32) (n : Nat) (c : Cpu) : Cpu :=
  { c.set .esp (q + UInt32.ofNat n) with
    mem := (c.mem.write32 (q + UInt32.ofNat n) q).write32 (q + UInt32.ofNat (n + 4)) next }

section Runs

variable {kernelThread entry startProcess function p q next : UInt32} {tss : Tss}
  {intrEntry : Bool → UInt32} {guard : ProcessRun → ProcessEvent → Prop} {s : ProcessRun} {n : Nat}

theorem atSwitch_esp (c : Cpu) : (atSwitch q next n c).reg .esp = q + UInt32.ofNat n :=
  Cpu.set_self c .esp (q + UInt32.ofNat n)

theorem atSwitch_ready (hq : PageAligned q) (hlo : 24 ≤ n) (hhi : n + 8 ≤ 4096) (c : Cpu) :
    AtSwitch (atSwitch q next n c) q next where
  arg0 := by
    rw [atSwitch_esp]
    exact (Memory32.read32_write32_offset (by omega) (by omega) (by omega)).trans
      (Memory32.read32_write32 _ _ _)
  arg1 := by
    have hfour : q + UInt32.ofNat n + 4 = q + UInt32.ofNat (n + 4) := add_ofNat_add q n 4
    rw [atSwitch_esp, hfour]
    exact Memory32.read32_write32 _ _ _
  low := by
    rw [atSwitch_esp, hq.toNat_add (by omega)]
    omega
  high := by
    rw [atSwitch_esp, hq.toNat_add (by omega)]
    omega

theorem atSwitch_mem (hq : PageAligned q) (hhi : n + 8 ≤ 4096) {b : UInt32}
    (hb : b.toNat < q.toNat + n ∨ q.toNat + n + 8 ≤ b.toNat) (c : Cpu) :
    (atSwitch q next n c).mem b = c.mem b := by
  have hbound := hq.bound
  have hblt := b.toNat_lt
  refine (Memory32.write32_outside ?_).trans (Memory32.write32_outside ?_)
  · rw [UInt32.toNat_sub, hq.toNat_add (by omega)]
    omega
  · rw [UInt32.toNat_sub, hq.toNat_add (by omega)]
    omega

/-- Another thread gets ready to switch to this one. -/
theorem atSwitch_other (hp : PageAligned p) (hq : PageAligned q) (hne : q ≠ p) :
    Rules p s (.elsewhere (atSwitch q p 0xf00 s.cpu)) := by
  intro b hb
  have hout : ¬ InPage q b := InPage.disjoint hp hq (Ne.symm hne) hb.1
  unfold InPage at hout
  exact atSwitch_mem hq (by omega) (by omega) _

/-- The thread has run for the first time. -/
theorem reach_first (hq : PageAligned q) (hne : q ≠ p)
    (hguard : ∀ s e, Rules p s e → (∀ m, e ≠ .switchOut m) → guard s e)
    (h : NewProcess kernelThread startProcess function p s) :
    ∃ s', (processRuns kernelThread entry startProcess function tss intrEntry p).Reach guard s' ∧
      s'.mode = .running ∧ s'.progress = .kernelThread := by
  have hp := h.aligned
  have hprogress := h.progress
  have hmode := h.mode
  obtain ⟨cpu, progress, mode, pre⟩ := s
  cases hmode
  cases hprogress
  have hready : AtSwitch (atSwitch q p 0xf00 cpu) q p := atSwitch_ready hq (by omega) (by omega) cpu
  refine ⟨_, .step (.step (.init h) (hguard _ (.elsewhere (atSwitch q p 0xf00 cpu)) ?_ nofun) rfl)
    (hguard _ (.switchIn q) ⟨hq, hne, hready⟩ nofun) rfl, rfl, rfl⟩
  exact atSwitch_other hp hq hne

/-- It goes through the accesses to `self_kstack`. -/
theorem reach_taken (hguard : ∀ s e, Rules p s e → (∀ m, e ≠ .switchOut m) → guard s e)
    (hs : (processRuns kernelThread entry startProcess function tss intrEntry p).Reach guard s)
    (hmode : s.mode = .running) (hprogress : s.progress = .kernelThread) :
    ∃ s' a, (processRuns kernelThread entry startProcess function tss intrEntry p).Reach guard s' ∧
      s'.preempted = s.preempted ∧ s'.progress.procStack = some a := by
  obtain ⟨cpu, progress, mode, pre⟩ := s
  cases hmode
  cases hprogress
  exact ⟨_, _, .step (.step (.step hs (hguard _ .load trivial nofun) rfl)
    (hguard _ .store trivial nofun) rfl) (hguard _ .take trivial nofun) rfl, rfl, rfl⟩

theorem reach_step {s' : ProcessRun} {e : ProcessEvent}
    (hs : (processRuns kernelThread entry startProcess function tss intrEntry p).Reach (Rules p) s)
    (hg : Rules p s e) (hstep : e.step entry function tss intrEntry p s = some s') :
    (processRuns kernelThread entry startProcess function tss intrEntry p).Reach (Rules p) s' :=
  .step hs hg (congrArg (Option.map Except.ok) hstep)

/-- **An unlucky tick**: the timer interrupts the thread, the handler switches to `q`, and `q`
switches back. -/
theorem reach_preempted (hq : PageAligned q) (hne : q ≠ p)
    (hs : (processRuns kernelThread entry startProcess function tss intrEntry p).Reach (Rules p) s)
    (hmode : s.mode = .running) (hprogress : s.progress = .kernelThread) :
    ∃ s', (processRuns kernelThread entry startProcess function tss intrEntry p).Reach (Rules p) s' ∧
      s'.mode = .running ∧ s'.progress = .kernelThread ∧ s'.preempted = true := by
  have hp := (processRuns_inv hs).aligned
  have hbound := hp.bound
  have hstack := (processRuns_inv hs).mode
  rw [hmode] at hstack
  obtain ⟨cpu, progress, mode, pre⟩ := s
  cases hmode
  cases hprogress
  replace hstack : OnStack p cpu := hstack
  -- `kernel_thread` turns the interrupts on
  let c : Cpu := { cpu with cs := selectorKCode, eflags := 0x202 }
  have hc : OnStack p c := hstack
  have hroom := hc.1
  have hkernel : selectorKCode &&& 3 = 0 := by decide
  have hcpl : c.cpl = 0 := hkernel
  have hflag : (0x202 : UInt32) &&& 0x200 ≠ 0 := by decide
  have henabled : c.eflags &&& 0x200 ≠ 0 := hflag
  have hsti : (processRuns kernelThread entry startProcess function tss intrEntry p).Reach (Rules p)
      ⟨c, .kernelThread, .running, pre⟩ := reach_step (e := .compute c) hs ⟨hstack, rfl⟩ rfl
  -- the tick
  have htick : ∃ d, (processRuns kernelThread entry startProcess function tss intrEntry p).Reach
      (Rules p) ⟨d, .kernelThread, .handler c, pre⟩ :=
    ⟨_, reach_step (e := .interrupt false) hsti hcpl (if_pos henabled)⟩
  clear_value c
  obtain ⟨d, hd⟩ := htick
  -- the handler calls `schedule`
  have hready : AtSwitch (atSwitch p q 300 d) p q := atSwitch_ready hp (by omega) (by omega) d
  have hcall : (processRuns kernelThread entry startProcess function tss intrEntry p).Reach (Rules p)
      ⟨atSwitch p q 300 d, .kernelThread, .handler c, pre⟩ := by
    refine reach_step (e := .handle (atSwitch p q 300 d)) hd ?_ rfl
    rintro c' ⟨⟩
    refine ⟨?_, ?_, ?_⟩
    · rw [BelowFrame, atSwitch_esp, hp.toNat_add (by omega)]
      omega
    · refine Memory32.read32_congr fun k hk => atSwitch_mem hp (by omega) (Or.inl ?_) d
      rw [hp.toNat_add (by omega)]
      omega
    · intro b hlo _
      exact atSwitch_mem hp (by omega) (Or.inr (by omega)) d
  have hout : (processRuns kernelThread entry startProcess function tss intrEntry p).Reach (Rules p)
      ⟨switchTo (call entry (atSwitch p q 300 d)), .kernelThread,
        .suspended (some c) (atSwitch p q 300 d), true⟩ := by
    refine reach_step (e := .switchOut q) hcall hready ?_
    simp only [ProcessEvent.step, ProcessRun.switchOut, if_neg hne, Progress.Exposed, Bool.or_true]
  generalize switchTo (call entry (atSwitch p q 300 d)) = o at hout
  generalize atSwitch p q 300 d = d' at hout
  -- the other thread comes to its own call of `switch_to`
  have helse : (processRuns kernelThread entry startProcess function tss intrEntry p).Reach (Rules p)
      ⟨atSwitch q p 0xf00 o, .kernelThread, .suspended (some c) d', true⟩ :=
    reach_step (e := .elsewhere (atSwitch q p 0xf00 o)) hout (atSwitch_other hp hq hne) rfl
  have hback : ∃ i, (processRuns kernelThread entry startProcess function tss intrEntry p).Reach
      (Rules p) ⟨i, .kernelThread, .handler c, true⟩ :=
    ⟨_, reach_step (e := .switchIn q) helse ⟨hq, hne, atSwitch_ready hq (by omega) (by omega) o⟩ rfl⟩
  obtain ⟨i, hi⟩ := hback
  -- the handler returns
  have hesp : (c.reg .esp - 68).toNat + 68 = (c.reg .esp).toNat := by
    have hsize : (68 : UInt32).toNat = 68 := rfl
    have hlt := (c.reg .esp).toNat_lt
    rw [UInt32.toNat_sub, hsize]
    omega
  let r : Cpu := { i.set .esp (c.reg .esp - 68) with cs := selectorKCode, ss := c.ss }
  have hresp : r.reg .esp = c.reg .esp - 68 := Cpu.set_self i .esp _
  have hreturn : (processRuns kernelThread entry startProcess function tss intrEntry p).Reach (Rules p)
      ⟨r, .kernelThread, .handler c, true⟩ := by
    refine reach_step (e := .handle r) hi ?_ rfl
    rintro c' ⟨⟩
    refine ⟨?_, rfl, fun _ _ _ => rfl⟩
    rw [BelowFrame, hresp]
    omega
  refine ⟨_, reach_step (e := .intrExit) hreturn ?_ rfl, rfl, rfl, rfl⟩
  rintro c' ⟨⟩
  exact ⟨hresp, hkernel, rfl⟩

/-- A process just made, in the page at `p`. -/
def newProcess (kernelThread startProcess function p : UInt32) : ProcessRun where
  cpu :=
    { reg := fun _ => 0
      seg := fun _ => 0x10
      cs := selectorKCode
      ss := 0x10
      eip := 0
      eflags := 2
      mem := threadCreate kernelThread p startProcess function (initThread 0 p [] 31 fun _ => 0)
      ports := [] }
  progress := .kernelThread
  mode := .waiting
  preempted := false

theorem newProcess_new (hp : PageAligned p) : NewProcess kernelThread startProcess function p
    (newProcess kernelThread startProcess function p) where
  aligned := hp
  created := ⟨0, [], 31, fun _ => 0, rfl⟩
  progress := rfl
  mode := rfl
  preempted := rfl

/-- A run without an interrupt. -/
theorem frame_in_place_undisturbed : ∃ s a, s.progress.procStack = some a ∧
    FrameInPlace 0xc0100000 s := by
  have hguard : ∀ s e, Rules 0xc0100000 s e → (∀ m, e ≠ .switchOut m) →
      Rules 0xc0100000 s e ∧ Undisturbed s e := by
    intro s e hrules hno
    refine ⟨hrules, ?_⟩
    cases e with
    | switchOut next => exact absurd rfl (hno next)
    | _ => trivial
  obtain ⟨s, hs, hmode, hprogress⟩ := @reach_first 0xc0002000 0xc0003000 0xc0004000 0x8048000
    0xc0100000 0xc009e000 ⟨0, 0⟩ (fun _ => 0xc0005000) _ _ rfl (by decide) hguard (newProcess_new rfl)
  obtain ⟨s', a, hs', -, ha⟩ := reach_taken hguard hs hmode hprogress
  exact ⟨s', a, ha, frame_in_place hs'⟩

/-- A tick between `intr_enable` and the first access to `self_kstack`. -/
theorem frame_misplaced_tick : ∃ s a,
    (processRuns 0xc0002000 0xc0003000 0xc0004000 0x8048000 ⟨0, 0⟩ (fun _ => 0xc0005000)
      0xc0100000).Reach (Rules 0xc0100000) s ∧
    s.progress.procStack = some a ∧ a ≠ reservedFrame 0xc0100000 ∧ ¬ FrameInPlace 0xc0100000 s := by
  have hguard : ∀ s e, Rules 0xc0100000 s e → (∀ m, e ≠ .switchOut m) → Rules 0xc0100000 s e :=
    fun _ _ hrules _ => hrules
  obtain ⟨s, hs, hmode, hprogress⟩ := @reach_first 0xc0002000 0xc0003000 0xc0004000 0x8048000
    0xc0100000 0xc009e000 ⟨0, 0⟩ (fun _ => 0xc0005000) _ _ rfl (by decide) hguard (newProcess_new rfl)
  have hq : PageAligned 0xc009e000 := rfl
  obtain ⟨t, ht, htmode, htprogress, hpre⟩ := reach_preempted hq (by decide) hs hmode hprogress
  obtain ⟨s', a, hs', hsame, ha⟩ := reach_taken hguard ht htmode htprogress
  have hne := frame_misplaced hs' ha (hsame.trans hpre)
  exact ⟨s', a, hs', ha, hne, fun h => hne (h.reserved a ha)⟩

end Runs

end OsKernel.Switch
