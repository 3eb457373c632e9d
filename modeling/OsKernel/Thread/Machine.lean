import OsKernel.Thread.Scheduler
import OsKernel.Lib.TransitionSystem

/-!
# One processor, many threads, interrupts

The machine that runs thread.c and sync.c under any program on top of them. Every thread has a
call stack of frames; a step of the running thread executes the statement its top frame stands
at. Code that runs with interrupts off is cut only where it calls `schedule`; code that runs with
interrupts on is cut at every access to shared data, so an interrupt can fall between any two of
them. While the interrupt flag is on, the timer interrupt can come at any time; it may switch
threads. A device interrupt enters a handler of the program on the stack of the running thread.

- `Program`: the code above thread.c and sync.c, with its own memory and control points. Its step
  function takes an input, so a program may leave choices to its environment.
- `Frame`: the control points of the functions of thread.c and sync.c.
- `exec`: one statement of the running thread; `machine`: the transition system.
- `History`: auxiliary variables that record what the calls have done so far. No statement of the
  kernel reads them.
-/

namespace OsKernel

open Lib

/-! ## Programs -/

/-- The calls a program makes into thread.c and sync.c. The semaphore inside a lock is reached
through the lock only, as in the sources. -/
inductive Call (Loc : Type) where
  | lockAcquire (plock : Nat)
  | lockRelease (plock : Nat)
  | semaDown (psema : Nat)
  | semaUp (psema : Nat)
  | threadBlock (stat : TaskStatus)
  | threadUnblock (pthread : Tid)
  | threadStart (thread : Tid) (prio : UInt8) (function : Loc)

/-- What one statement of a program does. -/
inductive Action (Mem Loc : Type) where
  /-- change the program's memory and go on at a control point -/
  | goto (m : Mem) (l : Loc)
  /-- `intr_enable`, `intr_disable` or `intr_set_status` -/
  | setIntr (status : IntrStatus) (l : Loc)
  /-- call the kernel and go on at `l` after the return -/
  | call (m : Mem) (c : Call Loc) (l : Loc)
  /-- call a function of the program itself -/
  | enter (m : Mem) (callee l : Loc)
  /-- return to the caller -/
  | ret (m : Mem)
  /-- a failed assertion -/
  | panic (p : Panic)

/-- A call with other names for the control points. -/
def Call.map {L L' : Type} (loc : L → L') : Call L → Call L'
  | .lockAcquire l => .lockAcquire l
  | .lockRelease l => .lockRelease l
  | .semaDown s => .semaDown s
  | .semaUp s => .semaUp s
  | .threadBlock stat => .threadBlock stat
  | .threadUnblock t => .threadUnblock t
  | .threadStart t prio fn => .threadStart t prio (loc fn)

/-- A statement of a part of a program, as a statement of the whole: `put` stores the part's memory
and `loc` names its control points. -/
def Action.embed {M M' L L' : Type} (put : M → M') (loc : L → L') : Action M L → Action M' L'
  | .goto m l => .goto (put m) (loc l)
  | .setIntr status l => .setIntr status (loc l)
  | .call m f l => .call (put m) (f.map loc) (loc l)
  | .enter m callee l => .enter (put m) (loc callee) (loc l)
  | .ret m => .ret (put m)
  | .panic p => .panic p

/-- A program on top of thread.c and sync.c. -/
structure Program where
  Mem : Type
  Loc : Type
  Input : Type
  /-- the statement at a control point, for the running thread and the interrupt flag it sees -/
  step : Input → Tid → IntrStatus → Mem → Loc → Action Mem Loc
  /-- the first control point of the handler of a device interrupt -/
  handler : Input → Option Loc

/-- A program without data: at control point `n` it makes the `n`-th of the given calls and goes
on at the next one; behind the last one it spins. -/
def scripted (calls : List (Call Nat)) : Program where
  Mem := Unit
  Loc := Nat
  Input := Unit
  step _ _ _ _ n :=
    match calls[n]? with
    | some f => .call () f (n + 1)
    | none => .goto () n
  handler _ := none

/-! ## Call stacks -/

/-- Control points of `lock_acquire`. -/
inductive AcquirePc where
  /-- `if (plock->holder != running_thread())` -/
  | test
  /-- `plock->holder = running_thread()`, after `sema_down` -/
  | setHolder
  /-- `ASSERT(plock->holder_repeat_nr == 0)` -/
  | assertRepeatNr
  /-- `plock->holder_repeat_nr = 1` -/
  | setRepeatNr
  /-- the read of `plock->holder_repeat_nr++` -/
  | loadRepeatNr
  /-- the write of `plock->holder_repeat_nr++` -/
  | storeRepeatNr (nr : UInt32)
deriving DecidableEq, Repr

/-- Control points of `lock_release`. -/
inductive ReleasePc where
  /-- `ASSERT(plock->holder == running_thread())` -/
  | assertHolder
  /-- `if (plock->holder_repeat_nr > 1)` -/
  | test
  /-- the read of `plock->holder_repeat_nr--` -/
  | loadRepeatNr
  /-- the write of `plock->holder_repeat_nr--` -/
  | storeRepeatNr (nr : UInt32)
  /-- `ASSERT(plock->holder_repeat_nr == 1)` -/
  | assertRepeatNr
  /-- `plock->holder = NULL` -/
  | clearHolder
  /-- `plock->holder_repeat_nr = 0`, then the call of `sema_up` -/
  | clearRepeatNr
deriving DecidableEq, Repr

/-- One frame of a thread's kernel stack. -/
inductive Frame (Loc : Type) where
  /-- code of the program -/
  | prog (l : Loc)
  /-- `kernel_thread` before its `intr_enable()` -/
  | kernelThread
  /-- the end of an interrupt: `iretd` restores the interrupted flags -/
  | intrExit (eflags : IntrStatus)
  /-- `thread_block` at its start -/
  | threadBlockCall (stat : TaskStatus)
  /-- `thread_block` after `schedule()`: `intr_set_status(old_status)` -/
  | threadBlock (oldStatus : IntrStatus)
  | threadUnblock (pthread : Tid)
  | threadStart (thread : Tid) (prio : UInt8) (function : Loc)
  /-- `sema_down` at its `intr_disable()` -/
  | semaDownCall (psema : SemaRef)
  /-- `sema_down` at the test of its loop -/
  | semaDown (psema : SemaRef) (oldStatus : IntrStatus)
  | semaUp (psema : SemaRef)
  | lockAcquire (plock : Nat) (pc : AcquirePc)
  | lockRelease (plock : Nat) (pc : ReleasePc)

/-- The frame a call starts with. -/
def Call.frame {Loc : Type} : Call Loc → Frame Loc
  | .lockAcquire l => .lockAcquire l .test
  | .lockRelease l => .lockRelease l .assertHolder
  | .semaDown s => .semaDownCall (.bare s)
  | .semaUp s => .semaUp (.bare s)
  | .threadBlock stat => .threadBlockCall stat
  | .threadUnblock t => .threadUnblock t
  | .threadStart t prio fn => .threadStart t prio fn

/-! ## Configurations -/

/-- Auxiliary variables. -/
structure History where
  /-- the main thread and the threads started so far -/
  created : Tid → Bool
  /-- returned `lock_acquire`s of a thread on a lock, minus its calls of `lock_release` -/
  acquired : Tid → Nat → Nat
  /-- completed `sema_down`s of a thread on a semaphore, minus its `sema_up`s -/
  downs : SemaRef → Tid → Nat
  /-- the thread blocked in `sema_down` and has not been popped since -/
  waiting : SemaRef → Tid → Bool
  /-- `sema_up` popped the thread and it has not tested the value again -/
  woken : SemaRef → Tid → Bool

/-- A state of the machine. -/
structure Config (H : Type) (P : Program) where
  kernel : Kernel H
  mem : P.Mem
  stack : Tid → List (Frame P.Loc)
  history : History

variable {H : Type} {P : Program}

namespace Config

/-- Replace the stack of the running thread. -/
def setStack (c : Config H P) (st : List (Frame P.Loc)) : Config H P :=
  { c with stack := Function.update c.stack c.kernel.running st }

/-- The stack of the running thread. -/
def top (c : Config H P) : List (Frame P.Loc) := c.stack c.kernel.running

end Config

/-! ## One statement -/

variable [TaskLists H]

/-- One turn of the loop in `sema_down`: block, or take the semaphore and return. -/
def semaDownTest (psema : SemaRef) (oldStatus : IntrStatus) (rest : List (Frame P.Loc))
    (c : Config H P) : Except Panic (Config H P) := do
  let k := c.kernel
  let t := k.running
  let history := { c.history with woken := update₂ c.history.woken psema t false }
  if k.value psema = 0 then
    let found ← TaskLists.elemFind (.waiters psema) (.generalTag t) k.lists
    assert (!found) .semaDownNotWaiting
    let lists ← TaskLists.listAppend (.waiters psema) (.generalTag t) k.lists
    let k' ← OsKernel.threadBlock .blocked { k with lists := lists }
    return { c with
      kernel := k'
      stack := Function.update c.stack t (.threadBlock k.intr :: .semaDown psema oldStatus :: rest)
      history := { history with waiting := update₂ history.waiting psema t true } }
  else
    let v := k.value psema - 1
    assert (v = 0) .semaDownValue
    return { c with
      kernel := { k with value := Function.update k.value psema v, intr := oldStatus }
      stack := Function.update c.stack t rest
      history := { history with
        downs := update₂ history.downs psema t (history.downs psema t + 1) } }

/-- The `if` in `sema_up`: the first waiter is made ready. -/
def semaUpWake (psema : SemaRef) (k : Kernel H) (history : History) :
    Except Panic (Kernel H × History) :=
  if !TaskLists.listEmpty (.waiters psema) k.lists then do
    let (elem, lists) ← TaskLists.listPop (.waiters psema) k.lists
    let threadBlocked ← elem2entry elem
    let k ← OsKernel.threadUnblock threadBlocked { k with lists := lists }
    return (k, { history with
      waiting := update₂ history.waiting psema threadBlocked false
      woken := update₂ history.woken psema threadBlocked true })
  else
    return (k, history)

/-- `sema_up`; it runs with interrupts off throughout. -/
def semaUp (psema : SemaRef) (rest : List (Frame P.Loc)) (c : Config H P) :
    Except Panic (Config H P) := do
  let t := c.kernel.running
  let history := { c.history with
    downs := update₂ c.history.downs psema t (c.history.downs psema t - 1) }
  assert (c.kernel.value psema = 0) .semaUpZero
  let (k, history) ← semaUpWake psema c.kernel history
  let v := k.value psema + 1
  assert (v = 1) .semaUpOne
  return { c with
    kernel := { k with value := Function.update k.value psema v }
    stack := Function.update c.stack t rest
    history := history }

/-- A statement of `lock_acquire`. -/
def lockAcquire (plock : Nat) (pc : AcquirePc) (rest : List (Frame P.Loc)) (c : Config H P) :
    Except Panic (Config H P) := do
  let k := c.kernel
  let t := k.running
  let returned : History := { c.history with
    acquired := update₂ c.history.acquired t plock (c.history.acquired t plock + 1) }
  match pc with
  | .test =>
    if k.holder plock ≠ some t then
      return c.setStack (.semaDownCall (.inLock plock) :: .lockAcquire plock .setHolder :: rest)
    else
      return c.setStack (.lockAcquire plock .loadRepeatNr :: rest)
  | .setHolder =>
    let k := { k with holder := Function.update k.holder plock (some t) }
    return { c with kernel := k }.setStack (.lockAcquire plock .assertRepeatNr :: rest)
  | .assertRepeatNr =>
    assert (k.holderRepeatNr plock = 0) .lockAcquireRepeatNr
    return c.setStack (.lockAcquire plock .setRepeatNr :: rest)
  | .setRepeatNr =>
    let k := { k with holderRepeatNr := Function.update k.holderRepeatNr plock 1 }
    return { c with kernel := k, history := returned }.setStack rest
  | .loadRepeatNr =>
    return c.setStack (.lockAcquire plock (.storeRepeatNr (k.holderRepeatNr plock)) :: rest)
  | .storeRepeatNr nr =>
    let k := { k with holderRepeatNr := Function.update k.holderRepeatNr plock (nr + 1) }
    return { c with kernel := k, history := returned }.setStack rest

/-- A statement of `lock_release`. -/
def lockRelease (plock : Nat) (pc : ReleasePc) (rest : List (Frame P.Loc)) (c : Config H P) :
    Except Panic (Config H P) := do
  let k := c.kernel
  let t := k.running
  let called : History := { c.history with
    acquired := update₂ c.history.acquired t plock (c.history.acquired t plock - 1) }
  match pc with
  | .assertHolder =>
    assert (k.holder plock = some t) .lockReleaseHolder
    return { c with history := called }.setStack (.lockRelease plock .test :: rest)
  | .test =>
    if k.holderRepeatNr plock > 1 then
      return c.setStack (.lockRelease plock .loadRepeatNr :: rest)
    else
      return c.setStack (.lockRelease plock .assertRepeatNr :: rest)
  | .loadRepeatNr =>
    return c.setStack (.lockRelease plock (.storeRepeatNr (k.holderRepeatNr plock)) :: rest)
  | .storeRepeatNr nr =>
    let k := { k with holderRepeatNr := Function.update k.holderRepeatNr plock (nr - 1) }
    return { c with kernel := k }.setStack rest
  | .assertRepeatNr =>
    assert (k.holderRepeatNr plock = 1) .lockReleaseRepeatNr
    return c.setStack (.lockRelease plock .clearHolder :: rest)
  | .clearHolder =>
    let k := { k with holder := Function.update k.holder plock none }
    return { c with kernel := k }.setStack (.lockRelease plock .clearRepeatNr :: rest)
  | .clearRepeatNr =>
    -- `sema_up` is the last statement, so its frame takes this one's place
    let k := { k with holderRepeatNr := Function.update k.holderRepeatNr plock 0 }
    return { c with kernel := k }.setStack (.semaUp (.inLock plock) :: rest)

/-- A statement of the program. -/
def execProg (act : Action P.Mem P.Loc) (rest : List (Frame P.Loc)) (c : Config H P) :
    Except Panic (Config H P) :=
  match act with
  | .goto m l => .ok ({ c with mem := m }.setStack (.prog l :: rest))
  | .setIntr status l =>
    .ok ({ c with kernel := { c.kernel with intr := status } }.setStack (.prog l :: rest))
  | .call m f l => .ok ({ c with mem := m }.setStack (f.frame :: .prog l :: rest))
  | .enter m callee l => .ok ({ c with mem := m }.setStack (.prog callee :: .prog l :: rest))
  | .ret m => .ok ({ c with mem := m }.setStack rest)
  | .panic p => .error p

/-- The statement the running thread stands at: its top frame `f`, above `rest`. -/
def exec (input : P.Input) (f : Frame P.Loc) (rest : List (Frame P.Loc)) (c : Config H P) :
    Except Panic (Config H P) := do
  let k := c.kernel
  match f with
  | .prog l => execProg (P.step input k.running k.intr c.mem l) rest c
  | .kernelThread => return { c with kernel := { k with intr := .on } }.setStack rest
  | .intrExit eflags => return { c with kernel := { k with intr := eflags } }.setStack rest
  | .threadBlockCall stat =>
    let k' ← OsKernel.threadBlock stat k
    return { c with
      kernel := k'
      stack := Function.update c.stack k.running (.threadBlock k.intr :: rest) }
  | .threadBlock oldStatus =>
    return { c with kernel := { k with intr := oldStatus } }.setStack rest
  | .threadUnblock pthread =>
    let k' ← OsKernel.threadUnblock pthread k
    return { c with kernel := k' }.setStack rest
  | .threadStart thread prio function =>
    let k' ← OsKernel.threadStart thread prio k
    return { c with
      kernel := k'
      stack := Function.update (Function.update c.stack k.running rest) thread
        [.kernelThread, .prog function]
      history := { c.history with created := Function.update c.history.created thread true } }
  | .semaDownCall psema =>
    return { c with kernel := { k with intr := .off } }.setStack (.semaDown psema k.intr :: rest)
  | .semaDown psema oldStatus => semaDownTest psema oldStatus rest c
  | .semaUp psema => semaUp psema rest c
  | .lockAcquire plock pc => lockAcquire plock pc rest c
  | .lockRelease plock pc => lockRelease plock pc rest c

/-! ## The transition system -/

/-- What can happen next. -/
inductive Event (P : Program) where
  /-- the running thread executes a statement -/
  | exec (input : P.Input)
  /-- the timer interrupt -/
  | timer
  /-- an interrupt of a device the program handles -/
  | device (input : P.Input)

/-- The timer interrupt: the flags are saved, the handler runs with interrupts off, and if it
switches threads the rest of the interrupt waits on the old thread's stack. -/
def timerInterrupt (c : Config H P) : Except Panic (Config H P) := do
  let k' ← intrTimerHandler { c.kernel with intr := .off }
  return { c with
    kernel := k'
    stack := Function.update c.stack c.kernel.running (.intrExit c.kernel.intr :: c.top) }

/-- One event. -/
def machineStep (e : Event P) (c : Config H P) : Option (Except Panic (Config H P)) :=
  match e with
  | .exec input =>
    match c.top with
    | [] => none
    | f :: rest => some (exec input f rest c)
  | .timer => if c.kernel.intr = .on then some (timerInterrupt c) else none
  | .device input =>
    if c.kernel.intr = .on then
      match P.handler input with
      | none => none
      | some l =>
        some (.ok ({ c with kernel := { c.kernel with intr := .off } }.setStack
          (.prog l :: .intrExit c.kernel.intr :: c.top)))
    else none

/-- The state after `thread_init`: the lists are empty but for the main thread, and nothing has
been called yet. The values of the semaphores and locks are the program's choice. -/
structure Booted (c : Config H P) : Prop where
  kernel : ∃ k : Kernel H, k.lists = TaskLists.start ∧ threadInit k = .ok c.kernel
  stack : ∃ l, c.stack = Function.update (fun _ => []) c.kernel.running [.prog l]
  created : c.history.created = fun t => decide (t = c.kernel.running)
  acquired : ∀ t l, c.history.acquired t l = 0
  downs : ∀ s t, c.history.downs s t = 0
  waiting : ∀ s t, c.history.waiting s t = false
  woken : ∀ s t, c.history.woken s t = false

/-- The state before `thread_init`, with free locks. -/
def bootKernel (main : Tid) (intr : IntrStatus) (value : SemaRef → UInt8) : Kernel H :=
  { intr := intr, running := main, task := fun _ => initThread false 0, lists := TaskLists.start,
    value := value, holder := fun _ => none, holderRepeatNr := fun _ => 0, ticks := 0 }

/-- The state after `thread_init`, with the main thread about to run `l`. -/
def bootConfig (main : Tid) (intr : IntrStatus) (value : SemaRef → UInt8) (m : P.Mem)
    (l : P.Loc) : Except Panic (Config H P) := do
  let k ← threadInit (bootKernel main intr value)
  return {
    kernel := k
    mem := m
    stack := Function.update (fun _ => []) k.running [.prog l]
    history := {
      created := fun t => decide (t = k.running), acquired := fun _ _ => 0
      downs := fun _ _ => 0, waiting := fun _ _ => false, woken := fun _ _ => false } }

theorem bootConfig_booted (main : Tid) (intr : IntrStatus) (value : SemaRef → UInt8) (m : P.Mem)
    (l : P.Loc) {c : Config H P} (h : bootConfig main intr value m l = .ok c) : Booted c := by
  obtain ⟨k, hk, hc⟩ := bind_eq_ok.mp h
  cases hc
  exact ⟨⟨_, rfl, hk⟩, ⟨l, rfl⟩, rfl, fun _ _ => rfl, fun _ _ => rfl, fun _ _ => rfl, fun _ _ => rfl⟩

/-- The machine started in one of the given states. -/
def machine (init : Config H P → Prop) : System (Config H P) (Event P) Panic where
  init := init
  step := machineStep

end OsKernel
