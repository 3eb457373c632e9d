import OsKernel.Thread.Refinement

/-!
# Threads that only the timer switches

A program may keep its shared data consistent by running every critical section with interrupts
off and by never sleeping in one. Then a thread that does not run is parked in one of two ways:
the timer interrupted it outside its sections, or it has not run yet. A `Discipline` names what a
program promises, and this module turns the promises into an invariant rule.

- `Quiet`: nobody sleeps, and every other thread is parked.
- `Phase`: where the running thread is, outside a section, coming back from a switch, or inside.
- `Discipline.Sound`: what the program has to show about its own statements.
- `Discipline.Sound.reach`, `Discipline.Sound.no_fault`: every run keeps the invariant, and no
  event stops the machine.
-/

namespace OsKernel

open Lib

variable {P : Program}

/-! ## The promises -/

/-- The fields of `struct lock`, with the value of its semaphore. -/
structure LockState where
  value : UInt8
  holder : Option Tid
  nr : UInt32
deriving DecidableEq

/-- The locks of a kernel. -/
def Kernel.locks {H : Type} (k : Kernel H) (plock : Nat) : LockState :=
  ⟨k.value (.inLock plock), k.holder plock, k.holderRepeatNr plock⟩

theorem SyncUnchanged.locks {H : Type} {k k' : Kernel H} (h : SyncUnchanged k k') :
    k'.locks = k.locks := by
  funext plock
  simp only [Kernel.locks, h.value, h.holder, h.holderRepeatNr]

/-- How a program divides its code into critical sections. -/
structure Discipline (P : Program) where
  /-- the stack of a thread outside its sections -/
  Base : List (Frame P.Loc) → Prop
  /-- the functions threads are started with -/
  Entry : P.Loc → Prop
  /-- what holds of the shared data and the locks outside the sections -/
  Rest : P.Mem → (Nat → LockState) → Prop
  /-- what holds inside a section of the running thread -/
  Inside : Config Queues P → Prop

namespace Discipline

variable (D : Discipline P)

/-- A thread that does not run: interrupted outside its sections, or new. -/
def Parked (st : List (Frame P.Loc)) : Prop :=
  (∃ base, D.Base base ∧ st = .intrExit .on :: base) ∨
  ∃ l, D.Entry l ∧ st = [.kernelThread, .prog l]

/-- Nobody sleeps, and every thread but the running one is parked. -/
structure Quiet (c : Config Queues P) : Prop where
  sched : SchedInv c
  nobody : ∀ s t, c.history.waiting s t = false
  awake : ∀ t, c.history.created t = true → c.kernel.Awake t
  parked : ∀ t, c.history.created t = true → t ≠ c.kernel.running → D.Parked (c.stack t)

/-- Where the running thread is. -/
inductive Phase (c : Config Queues P) : Prop where
  /-- outside its sections -/
  | outside (hon : c.kernel.intr = .on) (hbase : D.Base c.top) (hrest : D.Rest c.mem c.kernel.locks)
  /-- just switched to -/
  | resumed (hoff : c.kernel.intr = .off) (hparked : D.Parked c.top)
      (hrest : D.Rest c.mem c.kernel.locks)
  /-- in a section -/
  | inside (hoff : c.kernel.intr = .off) (h : D.Inside c)

/-- The invariant. -/
structure Inv (c : Config Queues P) : Prop extends D.Quiet c where
  phase : D.Phase c

/-- What the program shows about its own statements, as long as `guard` allows the event. -/
structure Sound (guard : Config Queues P → Event P → Prop) : Prop where
  sched : ∀ c e, guard c e → SchedGuard c e
  entry : ∀ l, D.Entry l → D.Base [.prog l]
  outside : ∀ c input f rest, D.Quiet c → c.kernel.intr = .on → c.top = f :: rest →
    D.Base (f :: rest) → D.Rest c.mem c.kernel.locks → guard c (.exec input) →
    ∃ c', exec input f rest c = .ok c' ∧ D.Inv c'
  inside : ∀ c input f rest, D.Quiet c → c.kernel.intr = .off → c.top = f :: rest →
    D.Inside c → guard c (.exec input) → ∃ c', exec input f rest c = .ok c' ∧ D.Inv c'
  /-- an interrupt of a device enters a section -/
  device : ∀ c input l, D.Quiet c → D.Rest c.mem c.kernel.locks →
    P.handler input = some l → ∀ base, D.Base base → c.top = .prog l :: .intrExit .on :: base →
    D.Inside c

/-! ## Steps that keep the other threads parked -/

namespace Quiet

variable {D} {c c' : Config Queues P}

/-- A statement that changes no status, no record of who waits and no other stack. -/
theorem keep (h : D.Quiet c) (hsched : SchedInv c') (htask : c'.kernel.task = c.kernel.task)
    (hrun : c'.kernel.running = c.kernel.running)
    (hcreated : c'.history.created = c.history.created)
    (hwaiting : c'.history.waiting = c.history.waiting)
    (hstack : ∀ t, t ≠ c.kernel.running → c'.stack t = c.stack t) : D.Quiet c' where
  sched := hsched
  nobody := by
    rw [hwaiting]
    exact h.nobody
  awake t ht := by
    unfold Kernel.Awake Kernel.status
    rw [htask]
    exact h.awake t (hcreated ▸ ht)
  parked t ht hne := by
    rw [hrun] at hne
    rw [hstack t hne]
    exact h.parked t (hcreated ▸ ht) hne

/-- A statement that stays within its thread. -/
theorem keep_local (h : D.Quiet c) (hsched : SchedInv c') (hl : LocalStep c c') : D.Quiet c' :=
  h.keep hsched hl.task hl.running hl.created hl.waiting hl.stack

/-- A statement of the program. -/
theorem prog (h : D.Quiet c) {input : P.Input} {l : P.Loc} {rest : List (Frame P.Loc)}
    (htop : c.top = .prog l :: rest) (he : exec input (.prog l) rest c = .ok c') : D.Quiet c' :=
  h.keep_local (h.sched.exec htop trivial he) (exec_local rfl he)

/-- The timer interrupt outside the sections: whoever runs next is parked. -/
theorem timer (h : D.Quiet c) (hon : c.kernel.intr = .on) (hbase : D.Base c.top) :
    ∃ c', timerInterrupt c = .ok c' ∧ D.Quiet c' ∧ D.Parked c'.top ∧ c'.kernel.intr = .off ∧
      c'.mem = c.mem ∧ c'.kernel.locks = c.kernel.locks := by
  obtain ⟨k, hk, hd, hsched⟩ := h.sched.timer hon
  let stack := Function.update c.stack c.kernel.running (.intrExit c.kernel.intr :: c.top)
  have hself : stack c.kernel.running = .intrExit .on :: c.top := by
    rw [← hon]
    exact Function.update_self ..
  have hother : ∀ t, t ≠ c.kernel.running → stack t = c.stack t :=
    fun t ht => Function.update_of_ne ht _ _
  have hparked : ∀ t, c.history.created t = true → D.Parked (stack t) := by
    intro t ht
    by_cases hrun : t = c.kernel.running
    · left
      exact ⟨c.top, hbase, hrun ▸ hself⟩
    · rw [hother t hrun]
      exact h.parked t ht hrun
  refine ⟨{ c with kernel := k, stack := stack }, ?_, ?_, hparked _ hd.running_created,
    hd.sync.intr, rfl, hd.sync.locks⟩
  · unfold timerInterrupt
    rw [hk, ok_bind]
    rfl
  · exact ⟨hsched, h.nobody, fun t ht => hd.awake t (h.awake t ht), fun t ht _ => hparked t ht⟩

/-- `thread_start` on the page of no thread. -/
theorem threadStart (h : D.Quiet c) (input : P.Input) {u : Tid} {prio : UInt8} {fn : P.Loc}
    {rest : List (Frame P.Loc)} (htop : c.top = .threadStart u prio fn :: rest)
    (hg : FrameGuard c (.threadStart u prio fn)) (hentry : D.Entry fn) :
    ∃ c', exec input (.threadStart u prio fn) rest c = .ok c' ∧ D.Quiet c' ∧ c'.top = rest ∧
      c'.kernel.intr = c.kernel.intr ∧ c'.mem = c.mem ∧ c'.kernel.locks = c.kernel.locks := by
  have hne := h.sched.running_ne hg.1
  obtain ⟨k, hk, hsync, hrun, hstat, -, -⟩ :=
    threadStart_spec prio h.sched.partition hg.1 (fun heq => hne (Option.some.inj heq))
  have hawake := Kernel.Awake.update hstat (.inl rfl)
  let stack : Tid → List (Frame P.Loc) :=
    Function.update (Function.update c.stack c.kernel.running rest) u [.kernelThread, .prog fn]
  have hnew : stack u = [.kernelThread, .prog fn] := Function.update_self ..
  have hself : stack c.kernel.running = rest := by
    show Function.update _ _ _ _ = _
    rw [Function.update_of_ne hne, Function.update_self]
  let c' : Config Queues P := { c with
    kernel := k
    stack := stack
    history := { c.history with created := Function.update c.history.created u true } }
  have hexec : exec input (.threadStart u prio fn) rest c = .ok c' := by
    show (OsKernel.threadStart u prio c.kernel >>= _) = _
    rw [hk, ok_bind]
    rfl
  refine ⟨c', hexec, ⟨h.sched.threadStart htop hg hk, h.nobody, ?_, ?_⟩,
    ?_, hsync.intr, rfl, hsync.locks⟩
  · intro t ht
    change Function.update c.history.created u true t = true at ht
    by_cases htu : t = u
    · left
      show k.status t = .ready
      rw [hstat, htu, Function.update_self]
    · rw [Function.update_of_ne htu] at ht
      exact hawake t (h.awake t ht)
  · intro t ht hner
    change Function.update c.history.created u true t = true at ht
    change t ≠ k.running at hner
    rw [hrun] at hner
    show D.Parked (stack t)
    by_cases htu : t = u
    · right
      exact ⟨fn, hentry, htu ▸ hnew⟩
    · have hstack : stack t = c.stack t := by
        show Function.update _ _ _ _ = _
        rw [Function.update_of_ne htu, Function.update_of_ne hner]
      rw [Function.update_of_ne htu] at ht
      rw [hstack]
      exact h.parked t ht hner
  · show stack k.running = rest
    rw [hrun, hself]

/-- After `thread_init` there is only the running thread. -/
theorem boot (hb : Booted c) : D.Quiet c where
  sched := SchedInv.boot hb
  nobody := hb.waiting
  awake t ht := by
    rw [hb.created] at ht
    rw [of_decide_eq_true ht]
    exact Or.inr (SchedInv.boot hb).running_status
  parked t ht hne := by
    rw [hb.created] at ht
    exact absurd (of_decide_eq_true ht) hne

end Quiet

/-! ## The rule -/

namespace Sound

variable {D} {guard : Config Queues P → Event P → Prop} {c c' : Config Queues P}

/-- A thread that was switched to goes on with interrupts on. -/
private theorem resume (hs : D.Sound guard) (h : D.Quiet c) {input : P.Input} {f : Frame P.Loc}
    {rest : List (Frame P.Loc)} (htop : c.top = f :: rest) (hparked : D.Parked (f :: rest))
    (hrest : D.Rest c.mem c.kernel.locks) :
    ∃ c', exec input f rest c = .ok c' ∧ D.Inv c' := by
  have hself : ∀ k : Kernel Queues, ({ c with kernel := k }.setStack rest).top = rest :=
    fun k => Function.update_self ..
  have hquiet : ∀ c', (f = .intrExit .on ∨ f = .kernelThread) → exec input f rest c = .ok c' →
      D.Quiet c' := by
    intro c' hf he
    have hlocal : f.isLocal = true := by rcases hf with rfl | rfl <;> rfl
    have hg : FrameGuard c f := by rcases hf with rfl | rfl <;> trivial
    exact h.keep_local (h.sched.exec htop hg he) (exec_local hlocal he)
  rcases hparked with ⟨base, hbase, heq⟩ | ⟨l, hl, heq⟩
  · cases heq
    refine ⟨_, rfl, hquiet _ (.inl rfl) rfl, .outside rfl ?_ hrest⟩
    exact (hself _).symm ▸ hbase
  · cases heq
    refine ⟨_, rfl, hquiet _ (.inr rfl) rfl, .outside rfl ?_ hrest⟩
    exact (hself _).symm ▸ hs.entry l hl

/-- **One event** that the guard allows does not stop the machine, and keeps the invariant. -/
theorem event (hs : D.Sound guard) (h : D.Inv c) {e : Event P} (hg : guard c e)
    {out : Except Panic (Config Queues P)} (he : machineStep e c = some out) :
    ∃ c', out = .ok c' ∧ D.Inv c' := by
  cases e with
  | exec input =>
    unfold machineStep at he
    cases htop : c.top with
    | nil => rw [htop] at he; cases he
    | cons f rest =>
      rw [htop] at he
      cases he
      cases h.phase with
      | outside hon hbase hrest =>
        exact hs.outside c input f rest h.toQuiet hon htop (htop ▸ hbase) hrest hg
      | resumed hoff hparked hrest => exact hs.resume h.toQuiet htop (htop ▸ hparked) hrest
      | inside hoff hin => exact hs.inside c input f rest h.toQuiet hoff htop hin hg
  | timer =>
    unfold machineStep at he
    dsimp only at he
    split at he
    · next hon =>
      cases h.phase with
      | outside _ hbase hrest =>
        obtain ⟨c', hc', hquiet, hparked, hoff, hmem, hlocks⟩ := h.toQuiet.timer hon hbase
        refine ⟨c', Option.some.inj (he.symm.trans (congrArg some hc')), hquiet,
          .resumed hoff hparked ?_⟩
        rw [hmem, hlocks]
        exact hrest
      | resumed hoff => rw [hoff] at hon; cases hon
      | inside hoff => rw [hoff] at hon; cases hon
    · cases he
  | device input =>
    unfold machineStep at he
    dsimp only at he
    split at he
    · next hon =>
      split at he
      · cases he
      · next l hl =>
        cases he
        cases h.phase with
        | outside _ hbase hrest =>
          have hlocal : LocalStep c ({ c with kernel := { c.kernel with intr := .off } }.setStack
              (.prog l :: .intrExit c.kernel.intr :: c.top)) :=
            setStack_local rfl rfl rfl rfl rfl rfl rfl rfl
          have hquiet := h.toQuiet.keep_local (h.sched.device hon l) hlocal
          refine ⟨_, rfl, hquiet, .inside rfl (hs.device _ input l hquiet hrest hl c.top hbase ?_)⟩
          rw [← hon]
          exact Function.update_self ..
        | resumed hoff => rw [hoff] at hon; cases hon
        | inside hoff => rw [hoff] at hon; cases hon
    · cases he

/-- **Every run** from states with the invariant keeps it. -/
theorem reach (hs : D.Sound guard) {init : Config Queues P → Prop} (hinit : ∀ c, init c → D.Inv c) :
    ∀ c, (machine init).Reach guard c → D.Inv c := by
  refine System.Reach.invariant hinit ?_
  intro c e c' _ hinv hg hstep
  obtain ⟨c₁, hc₁, hinv'⟩ := hs.event hinv hg hstep
  cases hc₁
  exact hinv'

/-- **No event stops the machine.** -/
theorem no_fault (hs : D.Sound guard) (h : D.Inv c) {e : Event P} (hg : guard c e) {p : Panic} :
    machineStep e c ≠ some (.error p) := by
  intro he
  obtain ⟨c', hc', -⟩ := hs.event h hg he
  cases hc'

/-- The rule on list.c's pointers: a reachable state represents one with the invariant, and no
event stops the machine there. -/
theorem heap (hs : D.Sound guard) {guardC : Config (LinkHeap ElemAddr) P → Event P → Prop}
    (hguard : ∀ a h e, guardC (a.withLists h) e → guard a e)
    {initC : Config (LinkHeap ElemAddr) P → Prop} {initA : Config Queues P → Prop}
    (hinit : ∀ c, initC c → ∃ a, initA a ∧ ConfigRel c a) (hbooted : ∀ a, initA a → D.Inv a)
    {c : Config (LinkHeap ElemAddr) P} (hc : (machine initC).Reach guardC c) :
    (∃ a h, c = a.withLists h ∧ D.Inv a) ∧
      ∀ e p, guardC c e → machineStep e c ≠ some (.error p) := by
  obtain ⟨a, hreach, hsched, hrel⟩ :=
    heap_reach guard hguard hs.sched hinit (fun a ha => (hbooted a ha).sched) hc
  have hinv := hs.reach hbooted a hreach
  obtain ⟨h, rfl, hr⟩ := id hrel
  refine ⟨⟨a, h, rfl, hinv⟩, ?_⟩
  intro e p hg he
  have hga := hguard a h e hg
  exact hs.no_fault hinv hga (heap_fault hrel hsched (hs.sched a e hga) he)

end Sound

end Discipline

end OsKernel
