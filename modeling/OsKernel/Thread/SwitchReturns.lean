import OsKernel.Userprog.Descriptors
import OsKernel.Userprog.UserEntry

/-!
# Switches seen from the thread

For its caller `switch_to` is a function like any other: it returns, and registers and stack are as the
calling convention has them, although any number of other threads have run in between.

- `KernelRules`: `OwnPages`, and the selectors at a call of `switch_to`.
- `Waits`: what holds of a thread from its call on; every event of the others keeps it.
- `switch_to_returns`: the convention, at the end of any run that comes back to the thread.
-/

namespace OsKernel.Switch

open Lib

/-! ## The rules -/

/-- Every thread writes to its own page, and `switch_to` is called by code of the kernel. -/
structure KernelRules (s : SwitchRun) (e : SwitchEvent) : Prop where
  pages : OwnPages s e
  cs : ∀ next, e = .switchTo next → s.cpu.cs = selectorKCode
  ss : ∀ next, e = .switchTo next → s.cpu.ss = selectorKStack

/-- An event of another thread -/
def ByOthers (t : UInt32) (s : SwitchRun) (e : SwitchEvent) : Prop :=
  KernelRules s e ∧ s.current ≠ t

section Waiting

variable {kernelThread entry mainThread : UInt32} {s s' : SwitchRun} {next t : UInt32} {c : Cpu}

theorem switchTo_cs (entry : UInt32) (c : Cpu) : (switchTo (call entry c)).cs = c.cs := by
  have hret : ∀ d : Cpu, (ret d).cs = d.cs := fun _ => rfl
  have hcall : (call entry c).cs = c.cs := rfl
  rw [switchTo, hret, (execAll_segments _ _).1, hcall]

theorem switchTo_ss (entry : UInt32) (c : Cpu) : (switchTo (call entry c)).ss = c.ss := by
  have hret : ∀ d : Cpu, (ret d).ss = d.ss := fun _ => rfl
  have hcall : (call entry c).ss = c.ss := rfl
  rw [switchTo, hret, (execAll_segments _ _).2, hcall]

theorem call_esp (entry : UInt32) (c : Cpu) : (call entry c).reg .esp = c.reg .esp - 4 :=
  Cpu.set_self c .esp (c.reg .esp - 4)

/-! ## The thread waits -/

/-- The thread `t` has called `switch_to` in the state `c`, and may have come back. -/
structure Waits (kernelThread entry : UInt32) (c : Cpu) (t : UInt32) (s : SwitchRun) : Prop where
  inv : SwitchInv kernelThread s
  thread : t ∈ s.threads
  context : s.waiting t = .suspended c
  page : ∀ b, InPage t b → s.cpu.mem b = (saveHalf entry c).mem b
  back : s.current = t → Context.Resumes kernelThread s.cpu (.suspended c)
  cs : s.current = t → s.cpu.cs = selectorKCode
  ss : s.current = t → s.cpu.ss = selectorKStack

/-- **The call.** The next thread can be the thread itself. -/
theorem SwitchInv.waits (h : SwitchInv kernelThread s) (hg : KernelRules s (.switchTo next)) :
    Waits kernelThread entry s.cpu s.current
      ((SwitchEvent.switchTo next).exec kernelThread entry mainThread s) := by
  obtain ⟨hnext, hat⟩ := hg.pages
  obtain ⟨hres, hinv⟩ := @SwitchInv.switchTo kernelThread entry mainThread _ _ h hnext hat
  refine ⟨hinv, h.current, Function.update_self _ _ _, ?_, ?_, ?_, ?_⟩
  · intro b _
    exact congrFun (switchTo_mem entry s.cpu) b
  · -- it has switched to itself
    intro hback
    have hnext' : next = s.current := hback
    rw [hnext', Function.update_self] at hres
    rw [hnext']
    exact hres
  · intro _
    exact (switchTo_cs entry s.cpu).trans (hg.cs next rfl)
  · intro _
    exact (switchTo_ss entry s.cpu).trans (hg.ss next rfl)

/-- Another thread computes. -/
theorem Waits.run {d : Cpu} (h : Waits kernelThread entry c t s) (hinv : SwitchInv kernelThread
      ((SwitchEvent.run d).exec kernelThread entry mainThread s))
    (hg : OwnPages s (.run d)) (hne : s.current ≠ t) :
    Waits kernelThread entry c t ((SwitchEvent.run d).exec kernelThread entry mainThread s) where
  inv := hinv
  thread := h.thread
  context := h.context
  page := fun b hb => (hg t h.thread (Ne.symm hne) b hb).trans (h.page b hb)
  back := fun hback => absurd hback hne
  cs := fun hback => absurd hback hne
  ss := fun hback => absurd hback hne

/-- Another thread makes a thread. -/
theorem Waits.create {p function funcArg : UInt32} {name : List UInt8} {prio : UInt8}
    (h : Waits kernelThread entry c t s) (hg : OwnPages s (.create p name prio function funcArg))
    (hne : s.current ≠ t) : Waits kernelThread entry c t
      ((SwitchEvent.create p name prio function funcArg).exec kernelThread entry mainThread s) := by
  obtain ⟨hp, hnew, hname⟩ := hg
  have htp : t ≠ p := by
    rintro rfl
    exact hnew h.thread
  obtain ⟨-, hother⟩ := @threadCreate_saved _ _ kernelThread function funcArg hp
    (initThread_kstack mainThread name prio s.cpu.mem)
  refine ⟨h.inv.create hp hnew hname, List.mem_cons_of_mem p h.thread, ?_, ?_, ?_, ?_, ?_⟩
  · show Function.update s.waiting p _ t = _
    rw [Function.update_of_ne htp]
    exact h.context
  · intro b hb
    -- both functions write to the page of the new thread only
    have hout := InPage.disjoint (h.inv.aligned t h.thread) hp htp hb
    exact ((hother b hout).trans (initThread_outside hp hname hout)).trans (h.page b hb)
  · exact fun hback => absurd hback hne
  · exact fun hback => absurd hback hne
  · exact fun hback => absurd hback hne

/-- **Another thread calls `switch_to`**, perhaps with `t` as the next one. -/
theorem Waits.switchTo (h : Waits kernelThread entry c t s) (hg : KernelRules s (.switchTo next))
    (hne : s.current ≠ t) : Waits kernelThread entry c t
      ((SwitchEvent.switchTo next).exec kernelThread entry mainThread s) := by
  obtain ⟨hnext, hat⟩ := hg.pages
  obtain ⟨hres, hinv⟩ := @SwitchInv.switchTo kernelThread entry mainThread _ _ h.inv hnext hat
  have hcur := h.inv.aligned _ h.inv.current
  have hcontext : Function.update s.waiting s.current (.suspended s.cpu) t = .suspended c := by
    rw [Function.update_of_ne (Ne.symm hne)]
    exact h.context
  refine ⟨hinv, h.thread, hcontext, ?_, ?_, ?_, ?_⟩
  · intro b hb
    -- the frame is pushed in the page of the thread that calls
    have hout := InPage.disjoint (h.inv.aligned t h.thread) hcur (Ne.symm hne) hb
    obtain ⟨-, -, hother⟩ := @saveHalf_saved kernelThread entry _ _ _ hcur hat
    calc (Switch.switchTo (call entry s.cpu)).mem b
        = (saveHalf entry s.cpu).mem b := congrFun (switchTo_mem entry s.cpu) b
      _ = s.cpu.mem b := hother b hout
      _ = (saveHalf entry c).mem b := h.page b hb
  · -- the thread comes back
    intro hback
    have hnext' : next = t := hback
    rw [hnext', hcontext] at hres
    rw [hnext']
    exact hres
  · intro _
    exact (switchTo_cs entry s.cpu).trans (hg.cs next rfl)
  · intro _
    exact (switchTo_ss entry s.cpu).trans (hg.ss next rfl)

theorem Waits.step {e : SwitchEvent} (h : Waits kernelThread entry c t s) (hg : ByOthers t s e) :
    Waits kernelThread entry c t (e.exec kernelThread entry mainThread s) := by
  obtain ⟨hrules, hne⟩ := hg
  cases e with
  | run d =>
    refine h.run ⟨h.inv.aligned, h.inv.current, ?_⟩ hrules.pages hne
    intro p hp hpc
    exact (h.inv.saved p hp hpc).congr (h.inv.aligned p hp) (hrules.pages p hp hpc)
  | create p name prio function funcArg => exact h.create hrules.pages hne
  | switchTo next => exact h.switchTo hrules hne

/-- **Every run of the others.** -/
theorem waits_run (h : Waits kernelThread entry c t s)
    (hrun : ((switchRuns kernelThread entry mainThread).startAt s).Reach (ByOthers t) s') :
    Waits kernelThread entry c t s' := by
  refine @System.Reach.invariant _ _ _ ((switchRuns kernelThread entry mainThread).startAt s)
    (ByOthers t) (Waits kernelThread entry c t) ?_ ?_ s' hrun
  · intro s₁ hs₁
    have heq : s₁ = s := hs₁
    rw [heq]
    exact h
  · intro s₁ e s₂ _ hwaits hg hstep
    cases hstep
    exact hwaits.step hg

/-! ## The thread comes back -/

/-- The words above the arguments are those that the caller has left. -/
theorem Waits.frame {n : Nat} (h : Waits kernelThread entry c t s) (hat : AtSwitch c t next)
    (hroom : (c.reg .esp).toNat + 8 + 4 * n ≤ t.toNat + 4096) {k : Nat} (hlo : 12 ≤ k)
    (hhi : k < 12 + 4 * n) : s.cpu.mem ((call entry c).reg .esp + UInt32.ofNat k) =
      (call entry c).mem ((call entry c).reg .esp + UInt32.ofNat k) := by
  have halign := h.inv.aligned t h.thread
  have hbound := halign.bound
  have hlow := hat.low
  have hfour : (4 : UInt32).toNat = 4 := rfl
  have hespNat : (c.reg .esp - 4).toNat = (c.reg .esp).toNat - 4 := by
    have hlt := (c.reg .esp).toNat_lt
    rw [UInt32.toNat_sub, hfour]
    omega
  rw [call_esp]
  have hplace : (c.reg .esp - 4 + UInt32.ofNat k).toNat = (c.reg .esp).toNat - 4 + k := by
    rw [UInt32.toNat_add, hespNat, Memory32.toNat_ofNat_lt (by omega)]
    omega
  -- `call` stores the return address below
  have hpush : (call entry c).mem (c.reg .esp - 4 + UInt32.ofNat k) =
      c.mem (c.reg .esp - 4 + UInt32.ofNat k) := by
    refine Memory32.write32_outside ?_
    rw [UInt32.toNat_sub, hplace, hespNat]
    omega
  calc s.cpu.mem (c.reg .esp - 4 + UInt32.ofNat k)
      = (saveHalf entry c).mem (c.reg .esp - 4 + UInt32.ofNat k) :=
        h.page _ (by rw [InPage, hplace]; omega)
    _ = c.mem (c.reg .esp - 4 + UInt32.ofNat k) :=
        saveHalf_above halign hat (by omega) (by omega)
    _ = (call entry c).mem (c.reg .esp - 4 + UInt32.ofNat k) := hpush.symm

/-- The thread runs again. -/
theorem Waits.cdecl {n : Nat} (h : Waits kernelThread entry c t s) (hat : AtSwitch c t next)
    (hcs : c.cs = selectorKCode) (hss : c.ss = selectorKStack)
    (hroom : (c.reg .esp).toNat + 8 + 4 * n ≤ t.toNat + 4096) (hback : s.current = t) :
    Cdecl 2 n (call entry c) s.cpu := by
  obtain ⟨heip, hesp, hebp, hebx, hedi, hesi⟩ := h.back hback
  refine ⟨?_, ?_, ?_, (h.cs hback).trans hcs.symm, (h.ss hback).trans hss.symm, ?_⟩
  · rw [heip, Cpu.top, call_esp]
    exact (Memory32.read32_write32 _ _ _).symm
  · rw [hesp, call_esp, UInt32.sub_add_cancel]
  · intro r hr
    have hne : r ≠ .esp := by
      rintro rfl
      rcases hr with h | h | h | h <;> cases h
    have hkept : (call entry c).reg r = c.reg r := Cpu.set_of_ne hne
    rw [hkept]
    rcases hr with rfl | rfl | rfl | rfl
    · exact hebx
    · exact hebp
    · exact hesi
    · exact hedi
  · intro k hlo hhi
    exact h.frame hat hroom (by omega) (by omega)

/-- **`switch_to` returns as a function.** A thread calls it in any state of any run, the others do
what they like, and some later switch leads back: the caller finds its return address, its registers and
its stack as the calling convention says. -/
theorem switch_to_returns {n : Nat}
    (hs : (switchRuns kernelThread entry mainThread).Reach KernelRules s)
    (hg : KernelRules s (.switchTo next))
    (hroom : (s.cpu.reg .esp).toNat + 8 + 4 * n ≤ s.current.toNat + 4096)
    (hrun : ((switchRuns kernelThread entry mainThread).startAt
      ((SwitchEvent.switchTo next).exec kernelThread entry mainThread s)).Reach
        (ByOthers s.current) s')
    (hback : s'.current = s.current) : Cdecl 2 n (call entry s.cpu) s'.cpu := by
  have hinv := switchRuns_inv (hs.mono fun _ _ hrules => hrules.pages)
  exact (waits_run (hinv.waits hg) hrun).cdecl hg.pages.2 (hg.cs next rfl) (hg.ss next rfl) hroom
    hback

theorem atSwitch_cs {q : UInt32} {n : Nat} : (atSwitch q next n c).cs = c.cs := rfl

theorem atSwitch_ss {q : UInt32} {n : Nat} : (atSwitch q next n c).ss = c.ss := rfl

/-- The running thread puts the arguments of `switch_to` on its stack. -/
theorem atSwitch_rules (h : SwitchInv kernelThread s) {n : Nat} (hn : n + 8 ≤ 4096) :
    KernelRules s (.run (atSwitch s.current next n s.cpu)) where
  pages := by
    intro p hp hpc b hb
    have hcur := h.aligned _ h.current
    have hout := InPage.disjoint (h.aligned p hp) hcur hpc hb
    unfold InPage at hout
    exact atSwitch_mem hcur hn (by omega) _
  cs := fun _ heq => nomatch heq
  ss := fun _ heq => nomatch heq

end Waiting

/-- `main` has made a thread. -/
def mainWithThread : SwitchRun :=
  (SwitchEvent.create 0xc0100000 [] 8 0xc0001600 5).exec 0xc0002000 0xc0003000 0xc009e000 mainAlone

/-- It is about to switch to it. -/
def mainAsks : SwitchRun :=
  { mainWithThread with cpu := atSwitch 0xc009e000 0xc0100000 0xf00 mainWithThread.cpu }

/-- The thread runs. -/
def threadRuns : SwitchRun :=
  (SwitchEvent.switchTo 0xc0100000).exec 0xc0002000 0xc0003000 0xc009e000 mainAsks

/-- It is about to switch back. -/
def threadAsks : SwitchRun :=
  { threadRuns with cpu := atSwitch 0xc0100000 0xc009e000 0xf00 threadRuns.cpu }

theorem mainAsks_reach :
    (switchRuns 0xc0002000 0xc0003000 0xc009e000).Reach KernelRules mainAsks := by
  have hmain : PageAligned 0xc009e000 := rfl
  have hnew : PageAligned 0xc0100000 := rfl
  have hcreate : (switchRuns 0xc0002000 0xc0003000 0xc009e000).Reach KernelRules mainWithThread :=
    .step (e := .create 0xc0100000 [] 8 0xc0001600 5) (.init (s := mainAlone) ⟨hmain, rfl⟩)
      ⟨⟨hnew, by decide, by decide⟩, fun _ heq => (nomatch heq), fun _ heq => (nomatch heq)⟩ rfl
  have hinv := switchRuns_inv (hcreate.mono fun _ _ hrules => hrules.pages)
  exact .step hcreate (@atSwitch_rules 0xc0002000 mainWithThread 0xc0100000 hinv 0xf00 (by decide)) rfl

/-- The thread switches back at once. -/
theorem switch_to_returns_main : Cdecl 2 62 (call 0xc0003000 mainAsks.cpu)
    ((SwitchEvent.switchTo 0xc009e000).exec 0xc0002000 0xc0003000 0xc009e000 threadAsks).cpu := by
  have hmain : PageAligned 0xc009e000 := rfl
  have hnew : PageAligned 0xc0100000 := rfl
  have hesp : mainAsks.cpu.reg .esp = 0xc009e000 + UInt32.ofNat 0xf00 :=
    @atSwitch_esp 0xc009e000 0xc0100000 0xf00 mainWithThread.cpu
  have hasks : KernelRules mainAsks (.switchTo 0xc0100000) :=
    ⟨⟨List.mem_cons_self, atSwitch_ready hmain (by decide) (by decide) _⟩, fun _ _ => rfl,
      fun _ _ => rfl⟩
  have hinv := switchRuns_inv (mainAsks_reach.mono fun _ _ hrules => hrules.pages)
  have hthread : SwitchInv 0xc0002000 threadRuns :=
    (@SwitchInv.switchTo 0xc0002000 0xc0003000 0xc009e000 _ _ hinv hasks.pages.1 hasks.pages.2).2
  have hcs : threadAsks.cpu.cs = selectorKCode := by
    rw [threadAsks, atSwitch_cs]
    exact (switchTo_cs 0xc0003000 mainAsks.cpu).trans (hasks.cs _ rfl)
  have hss : threadAsks.cpu.ss = selectorKStack := by
    rw [threadAsks, atSwitch_ss]
    exact (switchTo_ss 0xc0003000 mainAsks.cpu).trans (hasks.ss _ rfl)
  have hback : KernelRules threadAsks (.switchTo 0xc009e000) :=
    ⟨⟨List.mem_cons_of_mem _ List.mem_cons_self, atSwitch_ready hnew (by decide) (by decide) _⟩,
      fun _ _ => hcs, fun _ _ => hss⟩
  refine @switch_to_returns 0xc0002000 0xc0003000 0xc009e000 mainAsks _ 0xc0100000 62 mainAsks_reach
    hasks (by rw [hesp]; decide) (.step (e := .switchTo 0xc009e000) (.step (e := .run _) (.init rfl)
      ⟨@atSwitch_rules 0xc0002000 threadRuns 0xc009e000 hthread 0xf00 (by decide), ?_⟩ rfl)
      ⟨hback, ?_⟩ rfl) rfl
  · decide
  · decide

end OsKernel.Switch
