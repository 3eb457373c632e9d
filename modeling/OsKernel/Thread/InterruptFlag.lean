import OsKernel.Lib.SavedFlag
import OsKernel.Thread.Machine

/-!
# The interrupt flag, statement by statement

A second machine for list.c, sync.c, thread.c, timer.c and the last part of `process_execute`. Here
no block is atomic: each statement that reads or writes shared data is a step of its own, whether
interrupts are on or off, so the flag itself decides where another thread can come between two of
them. Every call pushes a frame that keeps the flag as it is at the call, for the record only.

- `Pc`: the control points, with the arguments and locals that the rest of the function uses.
- `intrEnable`, `intrDisable`, `intrSetStatus`: kernel/interrupt.c.
- `FlagConfig.stmt`: one statement; `FlagConfig.apply`: what it does to the stacks.
- `flagMachine`: the transition system. The processor enters handlers with the flag clear, and
  `iretd` restores what it saved.
- `Pc.writes`: the statements that write a link, a semaphore's value or a wait list.
- `listInsertBefore_executes`, `listRemove_executes`: without an interrupt the statements add up to
  the functions of Kernel/IntrusiveList.
-/

namespace OsKernel.InterruptFlag

open Lib

/-- The state of thread.c and sync.c over the cells of list.c. -/
abbrev LinkKernel := Kernel (LinkHeap ElemAddr)

/-! ## kernel/interrupt.c -/

/-- `intr_enable`: the flag afterwards, and the status before -/
def intrEnable : IntrStatus → IntrStatus × IntrStatus
  | .on => (.on, .on)
  | .off => (.on, .off)

/-- `intr_disable`: the flag afterwards, and the status before. Between the test of the flag and the
`cli` an interrupt may come; it leaves the flag set, so the two are one step. -/
def intrDisable : IntrStatus → IntrStatus × IntrStatus
  | .on => (.off, .on)
  | .off => (.off, .off)

/-- `intr_set_status` -/
def intrSetStatus (status intr : IntrStatus) : IntrStatus × IntrStatus :=
  if status = .on then intrEnable intr else intrDisable intr

@[simp] theorem intrEnable_flag (intr : IntrStatus) : (intrEnable intr).1 = .on := by
  cases intr <;> rfl

@[simp] theorem intrDisable_flag (intr : IntrStatus) : (intrDisable intr).1 = .off := by
  cases intr <;> rfl

@[simp] theorem intrDisable_old (intr : IntrStatus) : (intrDisable intr).2 = intr := by
  cases intr <;> rfl

theorem intrDisable_eq (intr : IntrStatus) : intrDisable intr = (.off, intr) :=
  Prod.ext (intrDisable_flag intr) (intrDisable_old intr)

@[simp] theorem intrSetStatus_flag (status intr : IntrStatus) :
    (intrSetStatus status intr).1 = status := by
  cases status <;> simp [intrSetStatus]

/-! ## Control points -/

/-- Control points of `list_init`: its four writes. -/
inductive InitPc where
  | headPrev
  | headNext
  | tailPrev
  | tailNext

/-- Control points of `list_insert_before`. -/
inductive InsertPc where
  /-- `ASSERT(before != NULL && before->prev != NULL && elem != NULL)` -/
  | assertArgs
  /-- `old_status = intr_disable()` -/
  | disable
  /-- `before->prev->next = elem` -/
  | prevNext (oldStatus : IntrStatus)
  /-- `elem->prev = before->prev` -/
  | elemPrev (oldStatus : IntrStatus)
  /-- `elem->next = before` -/
  | elemNext (oldStatus : IntrStatus)
  /-- `before->prev = elem` -/
  | beforePrev (oldStatus : IntrStatus)
  /-- `intr_set_status(old_status)` -/
  | restore (oldStatus : IntrStatus)

/-- Control points of `list_remove`. -/
inductive RemovePc where
  /-- `ASSERT(elem != NULL)` -/
  | assertElem
  /-- `old_status = intr_disable()` -/
  | disable
  /-- `if (elem->prev != NULL) elem->prev->next = elem->next` -/
  | prevNext (oldStatus : IntrStatus)
  /-- `if (elem->next != NULL) elem->next->prev = elem->prev` -/
  | nextPrev (oldStatus : IntrStatus)
  /-- `intr_set_status(old_status)` -/
  | restore (oldStatus : IntrStatus)

/-- Control points of `list_pop`. -/
inductive PopPc where
  /-- `temp = plist->head.next` -/
  | readHead
  /-- `list_remove(temp)` -/
  | remove (temp : Option ElemAddr)
  /-- `return temp` -/
  | result (temp : Option ElemAddr)

/-- Control points of `elem_find`. -/
inductive FindPc where
  /-- `temp = plist->head.next` -/
  | readHead
  /-- the tests of the loop -/
  | test (temp : Option ElemAddr)
  /-- `temp = temp->next` -/
  | advance (temp : ElemAddr)

/-- Control points of `sema_init`. -/
inductive SemaInitPc where
  /-- `psema->value = value` -/
  | setValue
  /-- `list_init(&psema->waiters)` -/
  | initWaiters

/-- Control points of `lock_init`. -/
inductive LockInitPc where
  /-- `plock->holder = NULL` -/
  | clearHolder
  /-- `plock->holder_repeat_nr = 0` -/
  | clearRepeatNr
  /-- `sema_init(&plock->semaphore, 1)` -/
  | initSema

/-- Control points of `schedule`. -/
inductive SchedulePc where
  /-- `ASSERT(intr_get_status() == INTR_OFF)` -/
  | assertOff
  /-- `if (cur->status == TASK_RUNNING)` -/
  | testStatus
  /-- `elem_find(&thread_ready_list, &cur->general_tag)` -/
  | findReady
  /-- the test of its result -/
  | assertNotReady
  /-- `list_append(&thread_ready_list, &cur->general_tag)` -/
  | append
  /-- `cur->ticks = cur->priority` -/
  | resetTicks
  /-- `cur->status = TASK_READY` -/
  | setReady
  /-- `ASSERT(!list_empty(&thread_ready_list))` -/
  | assertNotEmpty
  /-- `list_pop(&thread_ready_list)` -/
  | pop
  /-- `thread_tag = ..., next = elem2entry(thread_tag)` -/
  | gotTag
  /-- `next->status = TASK_RUNNING` -/
  | setRunning (next : Tid)
  /-- `switch_to(cur, next)` -/
  | switchTo (next : Tid)

/-- Control points of `thread_block`. -/
inductive BlockPc where
  /-- `ASSERT` of the three statuses -/
  | assertStat
  /-- `old_status = intr_disable()` -/
  | disable
  /-- `cur_thread->status = stat` -/
  | setStatus (oldStatus : IntrStatus)
  /-- `schedule()` -/
  | schedule (oldStatus : IntrStatus)
  /-- `intr_set_status(old_status)` -/
  | restore (oldStatus : IntrStatus)

/-- Control points of `thread_unblock`. -/
inductive UnblockPc where
  /-- `old_status = intr_disable()` -/
  | disable
  /-- `ASSERT` of the three statuses -/
  | assertStat (oldStatus : IntrStatus)
  /-- `if (pthread->status != TASK_READY)` -/
  | testStatus (oldStatus : IntrStatus)
  /-- `elem_find(&thread_ready_list, &pthread->general_tag)` -/
  | findReady (oldStatus : IntrStatus)
  /-- the test of its result -/
  | assertNotReady (oldStatus : IntrStatus)
  /-- `list_push(&thread_ready_list, &pthread->general_tag)` -/
  | push (oldStatus : IntrStatus)
  /-- `pthread->status = TASK_READY` -/
  | setReady (oldStatus : IntrStatus)
  /-- `intr_set_status(old_status)` -/
  | restore (oldStatus : IntrStatus)

/-- Control points of `init_thread`. -/
inductive InitThreadPc where
  /-- `memset(pthread, 0, sizeof(*pthread))` -/
  | clear
  /-- the assignments to the fields -/
  | setFields

/-- Control points of `thread_start`, for the page that `get_kernel_pages(1)` returned. -/
inductive StartPc where
  /-- `init_thread(thread, name, prio)` -/
  | init
  /-- `thread_create(thread, function, func_arg)` -/
  | create
  /-- `elem_find(&thread_ready_list, &thread->general_tag)` -/
  | findReady
  | assertNotReady
  /-- `elem_find(&thread_all_list, &thread->general_tag)` -/
  | findAll
  | assertNotAll
  /-- `list_append(&thread_ready_list, &thread->general_tag)` -/
  | appendReady
  /-- `list_append(&thread_all_list, &thread->all_list_tag)` -/
  | appendAll

/-- Control points of `process_execute`, without its work on memory. -/
inductive ExecutePc where
  /-- `init_thread(thread, name, default_prio)` -/
  | init
  /-- `thread_create(thread, start_process, filename)` -/
  | create
  /-- `old_status = intr_disable()` -/
  | disable
  /-- `elem_find(&thread_ready_list, &thread->general_tag)` -/
  | findReady (oldStatus : IntrStatus)
  | assertNotReady (oldStatus : IntrStatus)
  /-- `list_append(&thread_ready_list, &thread->general_tag)` -/
  | appendReady (oldStatus : IntrStatus)
  /-- `elem_find(&thread_all_list, &thread->all_list_tag)` -/
  | findAll (oldStatus : IntrStatus)
  | assertNotAll (oldStatus : IntrStatus)
  /-- `list_append(&thread_all_list, &thread->all_list_tag)` -/
  | appendAll (oldStatus : IntrStatus)
  /-- `intr_set_status(old_status)` -/
  | restore (oldStatus : IntrStatus)

/-- Control points of `kernel_thread`. -/
inductive KernelThreadPc where
  /-- `intr_enable()` -/
  | enable
  /-- `function(func_arg)` -/
  | call
  /-- `function` has returned -/
  | returned

/-- Control points of `sema_down`. -/
inductive DownPc where
  /-- `old_status = intr_disable()` -/
  | disable
  /-- `while (psema->value == 0)` -/
  | test (oldStatus : IntrStatus)
  /-- `elem_find(&psema->waiters, &running_thread()->general_tag)` -/
  | findWaiter (oldStatus : IntrStatus)
  /-- the test of its result -/
  | assertNotWaiting (oldStatus : IntrStatus)
  /-- `list_append(&psema->waiters, &running_thread()->general_tag)` -/
  | append (oldStatus : IntrStatus)
  /-- `thread_block(TASK_BLOCKED)` -/
  | block (oldStatus : IntrStatus)
  /-- `psema->value--` -/
  | decrement (oldStatus : IntrStatus)
  /-- `ASSERT(psema->value == 0)` -/
  | assertZero (oldStatus : IntrStatus)
  /-- `intr_set_status(old_status)` -/
  | restore (oldStatus : IntrStatus)

/-- Control points of `sema_up`. -/
inductive UpPc where
  /-- `old_status = intr_disable()` -/
  | disable
  /-- `ASSERT(psema->value == 0)` -/
  | assertZero (oldStatus : IntrStatus)
  /-- `if (!list_empty(&psema->waiters))` -/
  | testWaiters (oldStatus : IntrStatus)
  /-- `list_pop(&psema->waiters)` -/
  | pop (oldStatus : IntrStatus)
  /-- `thread_unblock(thread_blocked)` -/
  | unblock (oldStatus : IntrStatus)
  /-- `psema->value++` -/
  | increment (oldStatus : IntrStatus)
  /-- `ASSERT(psema->value == 1)` -/
  | assertOne (oldStatus : IntrStatus)
  /-- `intr_set_status(old_status)` -/
  | restore (oldStatus : IntrStatus)

/-- Control points of `intr_timer_handler`. -/
inductive TimerPc where
  /-- `ASSERT(cur_thread->stack_magic == 0x12345678)` -/
  | assertMagic
  /-- `cur_thread->elapsed_ticks++` -/
  | elapsed
  /-- `ticks++` -/
  | total
  /-- `if (cur_thread->ticks == 0) schedule()` -/
  | test
  /-- `cur_thread->ticks--` -/
  | decrement

/-- What a function returns in `eax`. -/
inductive RetVal where
  | void
  | bool (b : Bool)
  | elem (p : Option ElemAddr)

/-- A control point of a function, with the values of its arguments. -/
inductive Pc (Loc : Type) where
  /-- code of the program -/
  | prog (l : Loc)
  /-- the closing brace of a function of the kernel -/
  | ret
  /-- `intr_exit`: `popad` and `iretd` with what the interrupt has saved -/
  | intrExit (eflags : IntrStatus) (eax : RetVal)
  | listInit (plist : ListRef) (pc : InitPc)
  | listInsertBefore (before : Option ElemAddr) (elem : ElemAddr) (pc : InsertPc)
  | listRemove (elem : Option ElemAddr) (pc : RemovePc)
  | listPop (plist : ListRef) (pc : PopPc)
  | elemFind (plist : ListRef) (elem : ElemAddr) (pc : FindPc)
  | semaInit (psema : SemaRef) (value : UInt8) (pc : SemaInitPc)
  | lockInit (plock : Nat) (pc : LockInitPc)
  | schedule (pc : SchedulePc)
  | threadBlock (stat : TaskStatus) (pc : BlockPc)
  | threadUnblock (pthread : Tid) (pc : UnblockPc)
  | initThread (pthread : Tid) (prio : UInt8) (pc : InitThreadPc)
  | threadStart (thread : Tid) (prio : UInt8) (function : Loc) (pc : StartPc)
  | processExecute (thread : Tid) (prio : UInt8) (startProcess : Loc) (pc : ExecutePc)
  | kernelThread (function : Loc) (pc : KernelThreadPc)
  | semaDown (psema : SemaRef) (pc : DownPc)
  | semaUp (psema : SemaRef) (pc : UpPc)
  | lockAcquire (plock : Nat) (pc : AcquirePc)
  | lockRelease (plock : Nat) (pc : ReleasePc)
  | timer (pc : TimerPc)

/-- The page of the thread that a function makes. -/
def Pc.page {Loc : Type} : Pc Loc → Option Tid
  | .threadStart thread _ _ _ => some thread
  | .processExecute thread _ _ _ => some thread
  | _ => none

/-- What a statement does to the call stack. -/
inductive Effect (Loc : Type) where
  /-- go on in the same function -/
  | goto (pc : Pc Loc)
  /-- call a function and go on at `pc` after its return -/
  | call (callee pc : Pc Loc)
  /-- the last statement of a function of the kernel -/
  | done (eax : RetVal)
  /-- return to the caller -/
  | ret
  /-- `popad` and `iretd` -/
  | iret (eax : RetVal)
  /-- `thread_create`: a stack on which `kernel_thread` starts -/
  | create (thread : Tid) (function : Loc) (pc : Pc Loc)

/-! ## Statements -/

/-- Follow a pointer. -/
def deref (p : Option ElemAddr) : Except Panic ElemAddr :=
  match p with
  | some a => .ok a
  | none => .error .wildPointer

/-- A boolean that a function returned. -/
def RetVal.toBool : RetVal → Bool
  | .bool b => b
  | _ => false

/-- A pointer that a function returned. -/
def RetVal.toElem : RetVal → Option ElemAddr
  | .elem p => p
  | _ => none

section Statements

variable {Loc : Type} (k : LinkKernel) (eax : RetVal)

/-- `list_append(plist, elem)`: it only calls `list_insert_before`. -/
def listAppendCall (plist : ListRef) (elem : ElemAddr) : Pc Loc :=
  .listInsertBefore (some (.tail plist)) elem .assertArgs

/-- `list_push(plist, elem)`: it only calls `list_insert_before`. -/
def listPushCall (plist : ListRef) (elem : ElemAddr) : Pc Loc :=
  .listInsertBefore (k.lists.get (.head plist)).next elem .assertArgs

/-- The statements of `list_init`. -/
def listInitStmt (plist : ListRef) (pc : InitPc) : LinkKernel × Effect Loc :=
  let goOn pc' : Effect Loc := .goto (.listInit plist pc')
  match pc with
  | .headPrev => ({ k with lists := k.lists.setPrev (.head plist) none }, goOn .headNext)
  | .headNext =>
    ({ k with lists := k.lists.setNext (.head plist) (some (.tail plist)) }, goOn .tailPrev)
  | .tailPrev =>
    ({ k with lists := k.lists.setPrev (.tail plist) (some (.head plist)) }, goOn .tailNext)
  | .tailNext => ({ k with lists := k.lists.setNext (.tail plist) none }, .done .void)

/-- The statements of `list_insert_before`. -/
def listInsertBeforeStmt (before : Option ElemAddr) (elem : ElemAddr) (pc : InsertPc) :
    Except Panic (LinkKernel × Effect Loc) := do
  let goOn pc' : Effect Loc := .goto (.listInsertBefore before elem pc')
  match pc with
  | .assertArgs =>
    match before with
    | none => .error .listInsertBefore
    | some b =>
      assert (k.lists.get b).prev.isSome .listInsertBefore
      return (k, goOn .disable)
  | .disable =>
    let (intr, oldStatus) := intrDisable k.intr
    return ({ k with intr := intr }, goOn (.prevNext oldStatus))
  | .prevNext oldStatus =>
    let b ← deref before
    let p ← deref (k.lists.get b).prev
    return ({ k with lists := k.lists.setNext p (some elem) }, goOn (.elemPrev oldStatus))
  | .elemPrev oldStatus =>
    let b ← deref before
    return ({ k with lists := k.lists.setPrev elem (k.lists.get b).prev },
      goOn (.elemNext oldStatus))
  | .elemNext oldStatus =>
    return ({ k with lists := k.lists.setNext elem before }, goOn (.beforePrev oldStatus))
  | .beforePrev oldStatus =>
    let b ← deref before
    return ({ k with lists := k.lists.setPrev b (some elem) }, goOn (.restore oldStatus))
  | .restore oldStatus =>
    return ({ k with intr := (intrSetStatus oldStatus k.intr).1 }, .done .void)

/-- The statements of `list_remove`. -/
def listRemoveStmt (elem : Option ElemAddr) (pc : RemovePc) :
    Except Panic (LinkKernel × Effect Loc) := do
  let goOn pc' : Effect Loc := .goto (.listRemove elem pc')
  match pc with
  | .assertElem =>
    assert elem.isSome .listRemove
    return (k, goOn .disable)
  | .disable =>
    let (intr, oldStatus) := intrDisable k.intr
    return ({ k with intr := intr }, goOn (.prevNext oldStatus))
  | .prevNext oldStatus =>
    let e ← deref elem
    let lists := match (k.lists.get e).prev with
      | some p => k.lists.setNext p (k.lists.get e).next
      | none => k.lists
    return ({ k with lists := lists }, goOn (.nextPrev oldStatus))
  | .nextPrev oldStatus =>
    let e ← deref elem
    let lists := match (k.lists.get e).next with
      | some n => k.lists.setPrev n (k.lists.get e).prev
      | none => k.lists
    return ({ k with lists := lists }, goOn (.restore oldStatus))
  | .restore oldStatus =>
    return ({ k with intr := (intrSetStatus oldStatus k.intr).1 }, .done .void)

/-- The statements of `list_pop`. -/
def listPopStmt (plist : ListRef) (pc : PopPc) : LinkKernel × Effect Loc :=
  match pc with
  | .readHead => (k, .goto (.listPop plist (.remove (k.lists.get (.head plist)).next)))
  | .remove temp => (k, .call (.listRemove temp .assertElem) (.listPop plist (.result temp)))
  | .result temp => (k, .done (.elem temp))

/-- The statements of `elem_find`. -/
def elemFindStmt (plist : ListRef) (elem : ElemAddr) (pc : FindPc) :
    Except Panic (LinkKernel × Effect Loc) := do
  let goOn pc' : Effect Loc := .goto (.elemFind plist elem pc')
  match pc with
  | .readHead => return (k, goOn (.test (k.lists.get (.head plist)).next))
  | .test temp =>
    if temp = some (.tail plist) then return (k, .done (.bool false))
    else if temp = some elem then return (k, .done (.bool true))
    else
      let a ← deref temp
      return (k, goOn (.advance a))
  | .advance temp => return (k, goOn (.test (k.lists.get temp).next))

/-- The statements of `sema_init`. -/
def semaInitStmt (psema : SemaRef) (value : UInt8) (pc : SemaInitPc) : LinkKernel × Effect Loc :=
  match pc with
  | .setValue =>
    ({ k with value := Function.update k.value psema value },
      .goto (.semaInit psema value .initWaiters))
  | .initWaiters => (k, .call (.listInit (.waiters psema) .headPrev) .ret)

/-- The statements of `lock_init`. -/
def lockInitStmt (plock : Nat) (pc : LockInitPc) : LinkKernel × Effect Loc :=
  match pc with
  | .clearHolder =>
    ({ k with holder := Function.update k.holder plock none },
      .goto (.lockInit plock .clearRepeatNr))
  | .clearRepeatNr =>
    ({ k with holderRepeatNr := Function.update k.holderRepeatNr plock 0 },
      .goto (.lockInit plock .initSema))
  | .initSema => (k, .call (.semaInit (.inLock plock) 1 .setValue) .ret)

/-- Change the PCB of a thread. -/
def setTask (t : Tid) (pcb : TaskStruct) : LinkKernel :=
  { k with task := Function.update k.task t pcb }

/-- The statements of `schedule`. -/
def scheduleStmt (pc : SchedulePc) : Except Panic (LinkKernel × Effect Loc) := do
  let cur := k.running
  let goOn pc' : Effect Loc := .goto (.schedule pc')
  match pc with
  | .assertOff =>
    assert (k.intr = .off) .scheduleIntrOff
    return (k, goOn .testStatus)
  | .testStatus =>
    if (k.task cur).status = .running then return (k, goOn .findReady)
    else return (k, goOn .assertNotEmpty)
  | .findReady =>
    return (k, .call (.elemFind .ready (.generalTag cur) .readHead) (.schedule .assertNotReady))
  | .assertNotReady =>
    assert (!eax.toBool) .scheduleNotReady
    return (k, goOn .append)
  | .append =>
    return (k, .call (listAppendCall .ready (.generalTag cur)) (.schedule .resetTicks))
  | .resetTicks =>
    return (setTask k cur { k.task cur with ticks := (k.task cur).priority }, goOn .setReady)
  | .setReady => return (k.setStatus cur .ready, goOn .assertNotEmpty)
  | .assertNotEmpty =>
    assert (!OsKernel.listEmpty ListRef.ready.ends k.lists) .scheduleReadyEmpty
    return (k, goOn .pop)
  | .pop => return (k, .call (.listPop .ready .readHead) (.schedule .gotTag))
  | .gotTag =>
    let next ← elem2entry eax.toElem
    return (k, goOn (.setRunning next))
  | .setRunning next => return (k.setStatus next .running, goOn (.switchTo next))
  -- the frame of `cur` goes on behind the call when `cur` is switched to again
  | .switchTo next => return ({ k with running := next }, .done .void)

/-- The statements of `thread_block`. -/
def threadBlockStmt (stat : TaskStatus) (pc : BlockPc) :
    Except Panic (LinkKernel × Effect Loc) := do
  let goOn pc' : Effect Loc := .goto (.threadBlock stat pc')
  match pc with
  | .assertStat =>
    assert stat.isBlocked .threadBlockStat
    return (k, goOn .disable)
  | .disable =>
    let (intr, oldStatus) := intrDisable k.intr
    return ({ k with intr := intr }, goOn (.setStatus oldStatus))
  | .setStatus oldStatus => return (k.setStatus k.running stat, goOn (.schedule oldStatus))
  | .schedule oldStatus =>
    return (k, .call (.schedule .assertOff) (.threadBlock stat (.restore oldStatus)))
  | .restore oldStatus =>
    return ({ k with intr := (intrSetStatus oldStatus k.intr).1 }, .done .void)

/-- The statements of `thread_unblock`. -/
def threadUnblockStmt (pthread : Tid) (pc : UnblockPc) :
    Except Panic (LinkKernel × Effect Loc) := do
  let goOn pc' : Effect Loc := .goto (.threadUnblock pthread pc')
  match pc with
  | .disable =>
    let (intr, oldStatus) := intrDisable k.intr
    return ({ k with intr := intr }, goOn (.assertStat oldStatus))
  | .assertStat oldStatus =>
    assert (k.task pthread).status.isBlocked .threadUnblockStat
    return (k, goOn (.testStatus oldStatus))
  | .testStatus oldStatus =>
    if (k.task pthread).status ≠ .ready then return (k, goOn (.findReady oldStatus))
    else return (k, goOn (.restore oldStatus))
  | .findReady oldStatus =>
    return (k, .call (.elemFind .ready (.generalTag pthread) .readHead)
      (.threadUnblock pthread (.assertNotReady oldStatus)))
  | .assertNotReady oldStatus =>
    assert (!eax.toBool) .threadUnblockNotReady
    return (k, goOn (.push oldStatus))
  | .push oldStatus =>
    return (k, .call (listPushCall k .ready (.generalTag pthread))
      (.threadUnblock pthread (.setReady oldStatus)))
  | .setReady oldStatus => return (k.setStatus pthread .ready, goOn (.restore oldStatus))
  | .restore oldStatus =>
    return ({ k with intr := (intrSetStatus oldStatus k.intr).1 }, .done .void)

/-- The statements of `init_thread`, for a page that is not the PCB of the main thread. `memset`
clears the two tags as well. -/
def initThreadStmt (pthread : Tid) (prio : UInt8) (pc : InitThreadPc) : LinkKernel × Effect Loc :=
  match pc with
  | .clear =>
    let lists := (k.lists.set (.generalTag pthread) ⟨none, none⟩).set (.allListTag pthread)
      ⟨none, none⟩
    ({ k with lists := lists }, .goto (.initThread pthread prio .setFields))
  | .setFields => (setTask k pthread (initThread false prio), .done .void)

/-- The statements of `thread_start`. -/
def threadStartStmt (thread : Tid) (prio : UInt8) (function : Loc) (pc : StartPc) :
    Except Panic (LinkKernel × Effect Loc) := do
  let self pc' : Pc Loc := .threadStart thread prio function pc'
  match pc with
  | .init => return (k, .call (.initThread thread prio .clear) (self .create))
  | .create => return (k, .create thread function (self .findReady))
  | .findReady =>
    return (k, .call (.elemFind .ready (.generalTag thread) .readHead) (self .assertNotReady))
  | .assertNotReady =>
    assert (!eax.toBool) .threadStartNotReady
    return (k, .goto (self .findAll))
  | .findAll =>
    return (k, .call (.elemFind .all (.generalTag thread) .readHead) (self .assertNotAll))
  | .assertNotAll =>
    assert (!eax.toBool) .threadStartNotAll
    return (k, .goto (self .appendReady))
  | .appendReady => return (k, .call (listAppendCall .ready (.generalTag thread)) (self .appendAll))
  | .appendAll => return (k, .call (listAppendCall .all (.allListTag thread)) .ret)

/-- The statements of `process_execute`. -/
def processExecuteStmt (thread : Tid) (prio : UInt8) (startProcess : Loc) (pc : ExecutePc) :
    Except Panic (LinkKernel × Effect Loc) := do
  let self pc' : Pc Loc := .processExecute thread prio startProcess pc'
  match pc with
  | .init => return (k, .call (.initThread thread prio .clear) (self .create))
  | .create => return (k, .create thread startProcess (self .disable))
  | .disable =>
    let (intr, oldStatus) := intrDisable k.intr
    return ({ k with intr := intr }, .goto (self (.findReady oldStatus)))
  | .findReady oldStatus =>
    return (k, .call (.elemFind .ready (.generalTag thread) .readHead)
      (self (.assertNotReady oldStatus)))
  | .assertNotReady oldStatus =>
    assert (!eax.toBool) .processExecuteNotReady
    return (k, .goto (self (.appendReady oldStatus)))
  | .appendReady oldStatus =>
    return (k, .call (listAppendCall .ready (.generalTag thread)) (self (.findAll oldStatus)))
  | .findAll oldStatus =>
    return (k, .call (.elemFind .all (.allListTag thread) .readHead)
      (self (.assertNotAll oldStatus)))
  | .assertNotAll oldStatus =>
    assert (!eax.toBool) .processExecuteNotAll
    return (k, .goto (self (.appendAll oldStatus)))
  | .appendAll oldStatus =>
    return (k, .call (listAppendCall .all (.allListTag thread)) (self (.restore oldStatus)))
  | .restore oldStatus =>
    return ({ k with intr := (intrSetStatus oldStatus k.intr).1 }, .done .void)

/-- The statements of `kernel_thread`. Nothing stands behind the call of `function`: the return
address of the frame is no code. -/
def kernelThreadStmt (function : Loc) (pc : KernelThreadPc) :
    Except Panic (LinkKernel × Effect Loc) :=
  match pc with
  | .enable =>
    .ok ({ k with intr := (intrEnable k.intr).1 }, .goto (.kernelThread function .call))
  | .call => .ok (k, .call (.prog function) (.kernelThread function .returned))
  | .returned => .error .wildPointer

/-- The statements of `sema_down`. -/
def semaDownStmt (psema : SemaRef) (pc : DownPc) : Except Panic (LinkKernel × Effect Loc) := do
  let t := k.running
  let self pc' : Pc Loc := .semaDown psema pc'
  match pc with
  | .disable =>
    let (intr, oldStatus) := intrDisable k.intr
    return ({ k with intr := intr }, .goto (self (.test oldStatus)))
  | .test oldStatus =>
    if k.value psema = 0 then return (k, .goto (self (.findWaiter oldStatus)))
    else return (k, .goto (self (.decrement oldStatus)))
  | .findWaiter oldStatus =>
    return (k, .call (.elemFind (.waiters psema) (.generalTag t) .readHead)
      (self (.assertNotWaiting oldStatus)))
  | .assertNotWaiting oldStatus =>
    assert (!eax.toBool) .semaDownNotWaiting
    return (k, .goto (self (.append oldStatus)))
  | .append oldStatus =>
    return (k, .call (listAppendCall (.waiters psema) (.generalTag t)) (self (.block oldStatus)))
  | .block oldStatus =>
    return (k, .call (.threadBlock .blocked .assertStat) (self (.test oldStatus)))
  | .decrement oldStatus =>
    return ({ k with value := Function.update k.value psema (k.value psema - 1) },
      .goto (self (.assertZero oldStatus)))
  | .assertZero oldStatus =>
    assert (k.value psema = 0) .semaDownValue
    return (k, .goto (self (.restore oldStatus)))
  | .restore oldStatus =>
    return ({ k with intr := (intrSetStatus oldStatus k.intr).1 }, .done .void)

/-- The statements of `sema_up`. -/
def semaUpStmt (psema : SemaRef) (pc : UpPc) : Except Panic (LinkKernel × Effect Loc) := do
  let self pc' : Pc Loc := .semaUp psema pc'
  match pc with
  | .disable =>
    let (intr, oldStatus) := intrDisable k.intr
    return ({ k with intr := intr }, .goto (self (.assertZero oldStatus)))
  | .assertZero oldStatus =>
    assert (k.value psema = 0) .semaUpZero
    return (k, .goto (self (.testWaiters oldStatus)))
  | .testWaiters oldStatus =>
    if !OsKernel.listEmpty (ListRef.waiters psema).ends k.lists then
      return (k, .goto (self (.pop oldStatus)))
    else return (k, .goto (self (.increment oldStatus)))
  | .pop oldStatus =>
    return (k, .call (.listPop (.waiters psema) .readHead) (self (.unblock oldStatus)))
  | .unblock oldStatus =>
    let threadBlocked ← elem2entry eax.toElem
    return (k, .call (.threadUnblock threadBlocked .disable) (self (.increment oldStatus)))
  | .increment oldStatus =>
    return ({ k with value := Function.update k.value psema (k.value psema + 1) },
      .goto (self (.assertOne oldStatus)))
  | .assertOne oldStatus =>
    assert (k.value psema = 1) .semaUpOne
    return (k, .goto (self (.restore oldStatus)))
  | .restore oldStatus =>
    return ({ k with intr := (intrSetStatus oldStatus k.intr).1 }, .done .void)

/-- The statements of `lock_acquire`. -/
def lockAcquireStmt (plock : Nat) (pc : AcquirePc) : Except Panic (LinkKernel × Effect Loc) := do
  let t := k.running
  let self pc' : Pc Loc := .lockAcquire plock pc'
  match pc with
  | .test =>
    if k.holder plock ≠ some t then
      return (k, .call (.semaDown (.inLock plock) .disable) (self .setHolder))
    else return (k, .goto (self .loadRepeatNr))
  | .setHolder =>
    return ({ k with holder := Function.update k.holder plock (some t) },
      .goto (self .assertRepeatNr))
  | .assertRepeatNr =>
    assert (k.holderRepeatNr plock = 0) .lockAcquireRepeatNr
    return (k, .goto (self .setRepeatNr))
  | .setRepeatNr =>
    return ({ k with holderRepeatNr := Function.update k.holderRepeatNr plock 1 }, .done .void)
  | .loadRepeatNr => return (k, .goto (self (.storeRepeatNr (k.holderRepeatNr plock))))
  | .storeRepeatNr nr =>
    return ({ k with holderRepeatNr := Function.update k.holderRepeatNr plock (nr + 1) },
      .done .void)

/-- The statements of `lock_release`. -/
def lockReleaseStmt (plock : Nat) (pc : ReleasePc) : Except Panic (LinkKernel × Effect Loc) := do
  let t := k.running
  let self pc' : Pc Loc := .lockRelease plock pc'
  match pc with
  | .assertHolder =>
    assert (k.holder plock = some t) .lockReleaseHolder
    return (k, .goto (self .test))
  | .test =>
    if k.holderRepeatNr plock > 1 then return (k, .goto (self .loadRepeatNr))
    else return (k, .goto (self .assertRepeatNr))
  | .loadRepeatNr => return (k, .goto (self (.storeRepeatNr (k.holderRepeatNr plock))))
  | .storeRepeatNr nr =>
    return ({ k with holderRepeatNr := Function.update k.holderRepeatNr plock (nr - 1) },
      .done .void)
  | .assertRepeatNr =>
    assert (k.holderRepeatNr plock = 1) .lockReleaseRepeatNr
    return (k, .goto (self .clearHolder))
  | .clearHolder =>
    return ({ k with holder := Function.update k.holder plock none }, .goto (self .clearRepeatNr))
  | .clearRepeatNr =>
    return ({ k with holderRepeatNr := Function.update k.holderRepeatNr plock 0 },
      .call (.semaUp (.inLock plock) .disable) .ret)

/-- The statements of `intr_timer_handler`. -/
def timerStmt (pc : TimerPc) : Except Panic (LinkKernel × Effect Loc) := do
  let cur := k.running
  match pc with
  | .assertMagic =>
    assert ((k.task cur).stackMagic = 0x12345678) .timerStackMagic
    return (k, .goto (.timer .elapsed))
  | .elapsed =>
    return (setTask k cur { k.task cur with elapsedTicks := (k.task cur).elapsedTicks + 1 },
      .goto (.timer .total))
  | .total => return ({ k with ticks := k.ticks + 1 }, .goto (.timer .test))
  | .test =>
    if (k.task cur).ticks = 0 then return (k, .call (.schedule .assertOff) .ret)
    else return (k, .goto (.timer .decrement))
  | .decrement =>
    return (setTask k cur { k.task cur with ticks := (k.task cur).ticks - 1 }, .done .void)

end Statements

/-! ## Programs -/

/-- Calls of a program that `Call` does not have: list.c, the initialisers and `process_execute`. -/
inductive DirectCall (Loc : Type) where
  | listInit (plist : ListRef)
  | listInsertBefore (before : Option ElemAddr) (elem : ElemAddr)
  | listRemove (elem : Option ElemAddr)
  | listPop (plist : ListRef)
  | elemFind (plist : ListRef) (elem : ElemAddr)
  | semaInit (psema : SemaRef) (value : UInt8)
  | lockInit (plock : Nat)
  | processExecute (thread : Tid) (prio : UInt8) (startProcess : Loc)

/-- A program with such calls. Where `direct` is `some (f, l)` it calls `f` and goes on at `l`;
everywhere else `step` says what it does. -/
structure DirectProgram extends Program where
  direct : Input → Mem → Loc → Option (DirectCall Loc × Loc)

/-- The first control point of a call. -/
def DirectCall.start {Loc : Type} : DirectCall Loc → Pc Loc
  | .listInit q => .listInit q .headPrev
  | .listInsertBefore before elem => .listInsertBefore before elem .assertArgs
  | .listRemove elem => .listRemove elem .assertElem
  | .listPop q => .listPop q .readHead
  | .elemFind q elem => .elemFind q elem .readHead
  | .semaInit s v => .semaInit s v .setValue
  | .lockInit l => .lockInit l .clearHolder
  | .processExecute t prio fn => .processExecute t prio fn .init

/-- The first control point of a call of thread.c or sync.c. -/
def callStart {Loc : Type} : Call Loc → Pc Loc
  | .lockAcquire l => .lockAcquire l .test
  | .lockRelease l => .lockRelease l .assertHolder
  | .semaDown s => .semaDown (.bare s) .disable
  | .semaUp s => .semaUp (.bare s) .disable
  | .threadBlock stat => .threadBlock stat .assertStat
  | .threadUnblock t => .threadUnblock t .disable
  | .threadStart t prio fn => .threadStart t prio fn .init

/-! ## The machine -/

/-- A state of the machine. `entry` of a frame is the flag at its call; no statement reads it. -/
structure FlagConfig (P : DirectProgram) where
  kernel : LinkKernel
  mem : P.Mem
  eax : Tid → RetVal
  stack : Tid → List (Activation IntrStatus (Pc P.Loc))

variable {P : DirectProgram}

namespace FlagConfig

/-- The stack of the running thread. -/
def top (c : FlagConfig P) : List (Activation IntrStatus (Pc P.Loc)) := c.stack c.kernel.running

/-- Replace the stack of the running thread. -/
def setTop (c : FlagConfig P) (st : List (Activation IntrStatus (Pc P.Loc))) : FlagConfig P :=
  { c with stack := Function.update c.stack c.kernel.running st }

/-- A statement of the program. -/
def progStmt (input : P.Input) (l : P.Loc) (c : FlagConfig P) :
    Except Panic (P.Mem × LinkKernel × Effect P.Loc) :=
  let k := c.kernel
  match P.direct input c.mem l with
  | some (f, l') => .ok (c.mem, k, .call f.start (.prog l'))
  | none =>
    match P.step input k.running k.intr c.mem l with
    | .goto m l' => .ok (m, k, .goto (.prog l'))
    | .setIntr status l' => .ok (c.mem, { k with intr := status }, .goto (.prog l'))
    | .call m f l' => .ok (m, k, .call (callStart f) (.prog l'))
    | .enter m callee l' => .ok (m, k, .call (.prog callee) (.prog l'))
    | .ret m => .ok (m, k, .ret)
    | .panic p => .error p

/-- A statement of the kernel. -/
def kernelStmt {Loc : Type} (k : LinkKernel) (eax : RetVal) :
    Pc Loc → Except Panic (LinkKernel × Effect Loc)
  | .prog _ => .error .wildPointer
  | .ret => .ok (k, .ret)
  | .intrExit eflags eax' => .ok ({ k with intr := eflags }, .iret eax')
  | .listInit q pc => .ok (listInitStmt k q pc)
  | .listInsertBefore before elem pc => listInsertBeforeStmt k before elem pc
  | .listRemove elem pc => listRemoveStmt k elem pc
  | .listPop q pc => .ok (listPopStmt k q pc)
  | .elemFind q elem pc => elemFindStmt k q elem pc
  | .semaInit s v pc => .ok (semaInitStmt k s v pc)
  | .lockInit l pc => .ok (lockInitStmt k l pc)
  | .schedule pc => scheduleStmt k eax pc
  | .threadBlock stat pc => threadBlockStmt k stat pc
  | .threadUnblock t pc => threadUnblockStmt k eax t pc
  | .initThread t prio pc => .ok (initThreadStmt k t prio pc)
  | .threadStart t prio fn pc => threadStartStmt k eax t prio fn pc
  | .processExecute t prio fn pc => processExecuteStmt k eax t prio fn pc
  | .kernelThread fn pc => kernelThreadStmt k fn pc
  | .semaDown s pc => semaDownStmt k eax s pc
  | .semaUp s pc => semaUpStmt k eax s pc
  | .lockAcquire l pc => lockAcquireStmt k l pc
  | .lockRelease l pc => lockReleaseStmt k l pc
  | .timer pc => timerStmt k pc

/-- The statement at a control point: the memory, the kernel and what happens to the stacks. -/
def stmt (input : P.Input) (pc : Pc P.Loc) (c : FlagConfig P) :
    Except Panic (P.Mem × LinkKernel × Effect P.Loc) :=
  match pc with
  | .prog l => progStmt input l c
  | pc => (kernelStmt c.kernel (c.eax c.kernel.running) pc).map fun r => (c.mem, r)

/-- The state after a statement of the frame `a` above `rest`. A call records the flag as it is. -/
def apply (c : FlagConfig P) (a : Activation IntrStatus (Pc P.Loc))
    (rest : List (Activation IntrStatus (Pc P.Loc))) (m : P.Mem) (k : LinkKernel) :
    Effect P.Loc → FlagConfig P
  | .goto pc => { c.setTop (⟨a.entry, pc⟩ :: rest) with mem := m, kernel := k }
  | .call callee pc =>
    { c.setTop (⟨k.intr, callee⟩ :: ⟨a.entry, pc⟩ :: rest) with mem := m, kernel := k }
  | .done eax =>
    { c.setTop (⟨a.entry, .ret⟩ :: rest) with
      mem := m, kernel := k, eax := Function.update c.eax c.kernel.running eax }
  | .ret => { c.setTop rest with mem := m, kernel := k }
  | .iret eax =>
    { c.setTop rest with
      mem := m, kernel := k, eax := Function.update c.eax c.kernel.running eax }
  | .create thread function pc =>
    { c with
      stack := Function.update (Function.update c.stack thread
        [⟨.off, .kernelThread function .enable⟩]) c.kernel.running (⟨a.entry, pc⟩ :: rest)
      mem := m, kernel := k }

/-- An interrupt: the processor saves the flags and clears the interrupt flag, the entry code saves
the registers and calls the handler. -/
def interrupt (c : FlagConfig P) (handler : Pc P.Loc) : FlagConfig P :=
  { c.setTop (⟨.off, handler⟩ ::
      ⟨c.kernel.intr, .intrExit c.kernel.intr (c.eax c.kernel.running)⟩ :: c.top) with
    kernel := { c.kernel with intr := .off } }

/-- One event. -/
def flagStep (e : Event P.toProgram) (c : FlagConfig P) : Option (Except Panic (FlagConfig P)) :=
  match e with
  | .exec input =>
    match c.top with
    | [] => none
    | a :: rest => some ((c.stmt input a.pc).map fun r => c.apply a rest r.1 r.2.1 r.2.2)
  | .timer => if c.kernel.intr = .on then some (.ok (c.interrupt (.timer .assertMagic))) else none
  | .device input =>
    if c.kernel.intr = .on then
      (P.handler input).map fun l => .ok (c.interrupt (.prog l))
    else none

/-- The state after `thread_init`: the main thread is about to run the program. -/
structure Started (c : FlagConfig P) : Prop where
  kernel : ∃ k : LinkKernel, k.lists = TaskLists.start ∧ threadInit k = .ok c.kernel
  stack : ∃ entry l, c.stack = Function.update (fun _ => []) c.kernel.running [⟨entry, .prog l⟩]

/-- The state after `thread_init`, as a function of what `thread_init` starts from. -/
def boot (main : Tid) (value : SemaRef → UInt8) (m : P.Mem) (l : P.Loc) :
    Except Panic (FlagConfig P) := do
  let k ← threadInit (bootKernel main .off value)
  return {
    kernel := k
    mem := m
    eax := fun _ => .void
    stack := Function.update (fun _ => []) k.running [⟨.off, .prog l⟩] }

theorem boot_started {main : Tid} {value : SemaRef → UInt8} {m : P.Mem} {l : P.Loc}
    {c : FlagConfig P} (h : boot main value m l = .ok c) : c.Started := by
  obtain ⟨k, hk, hc⟩ := bind_eq_ok.mp h
  cases hc
  exact ⟨⟨_, rfl, hk⟩, .off, l, rfl⟩

/-- A page in which `thread_create` builds a stack is not the one that holds the running thread:
`get_kernel_pages` has returned it. -/
def newPage (c : FlagConfig P) : Bool :=
  match c.top with
  | [] => true
  | a :: _ => a.pc.page ≠ some c.kernel.running

end FlagConfig

/-- The machine. -/
def flagMachine (P : DirectProgram) : System (FlagConfig P) (Event P.toProgram) Panic where
  init := FlagConfig.Started
  step := FlagConfig.flagStep

/-- The states of all runs from the start. -/
def Reachable (c : FlagConfig P) : Prop :=
  (flagMachine P).Reach (fun c _ => c.newPage = true) c

/-- The state after some statements of the main thread, from the start. -/
theorem Reachable.of_boot {main : Tid} {value : SemaRef → UInt8} {m : P.Mem} {l : P.Loc}
    {c₀ c : FlagConfig P} {es : List (Event P.toProgram)}
    (hboot : FlagConfig.boot main value m l = .ok c₀)
    (hrun : (flagMachine P).run (fun c _ => c.newPage) es c₀ = some (.ok c)) : Reachable c :=
  System.Reach.run (fun _ _ h => h) (.init (FlagConfig.boot_started hboot)) hrun

/-- A program that enables interrupts, makes one call and spins. -/
def stiThen (f : Call Nat) : DirectProgram where
  Mem := Unit
  Loc := Nat
  Input := Unit
  step _ _ _ _ l :=
    match l with
    | 0 => .setIntr .on 1
    | 1 => .call () f 2
    | _ => .goto () l
  handler _ := none
  direct _ _ _ := none

/-- The same after `thread_init`; thread 0 is the main thread and every semaphore is free. -/
def stiThenBoot (f : Call Nat) : Except Panic (FlagConfig (stiThen f)) :=
  FlagConfig.boot 0 (fun _ => 1) () (0 : Nat)

/-! ## The writes -/

/-- The statement writes a link of a list element, the value of a semaphore or a wait list. -/
def Pc.writes {Loc : Type} : Pc Loc → Bool
  | .listInit _ _ => true
  | .listInsertBefore _ _ (.prevNext _) => true
  | .listInsertBefore _ _ (.elemPrev _) => true
  | .listInsertBefore _ _ (.elemNext _) => true
  | .listInsertBefore _ _ (.beforePrev _) => true
  | .listRemove _ (.prevNext _) => true
  | .listRemove _ (.nextPrev _) => true
  | .semaInit _ _ .setValue => true
  | .initThread _ _ .clear => true
  | .semaDown _ (.decrement _) => true
  | .semaUp _ (.increment _) => true
  | _ => false

/-- The statement is one of `list_init` or `sema_init`. -/
def Pc.inInit {Loc : Type} : Pc Loc → Bool
  | .listInit _ _ => true
  | .semaInit _ _ _ => true
  | _ => false

/-- The statement is the `memset` of `init_thread`. -/
def Pc.clearsPcb {Loc : Type} : Pc Loc → Bool
  | .initThread _ _ .clear => true
  | _ => false

/-! ## The functions of list.c, statement by statement -/

section Uninterrupted

variable {input : P.Input} {entry : IntrStatus} {rest : List (Activation IntrStatus (Pc P.Loc))}
  {pc pc' : Pc P.Loc} {k k' : LinkKernel}

/-- The running thread gets from one control point of a function to another one without an
interrupt; the pairs are the control points with the kernel there. -/
def Executes (input : P.Input) (entry : IntrStatus) (rest : List (Activation IntrStatus (Pc P.Loc)))
    (x y : Pc P.Loc × LinkKernel) : Prop :=
  ∀ c : FlagConfig P, c.top = ⟨entry, x.1⟩ :: rest → c.kernel = x.2 →
    ∃ c', Relation.ReflTransGen (fun c c' => c.flagStep (.exec input) = some (.ok c')) c c' ∧
      c'.top = ⟨entry, y.1⟩ :: rest ∧ c'.kernel = y.2

theorem Executes.trans {x y z : Pc P.Loc × LinkKernel} (h : Executes input entry rest x y)
    (h' : Executes input entry rest y z) : Executes input entry rest x z := by
  intro c htop hk
  obtain ⟨c₁, hrun, htop, hk⟩ := h c htop hk
  obtain ⟨c₂, hrun', htop, hk⟩ := h' c₁ htop hk
  exact ⟨c₂, hrun.trans hrun', htop, hk⟩

/-- A statement of the kernel. -/
theorem FlagConfig.stmt_eq {c : FlagConfig P} {eff : Effect P.Loc}
    (h : ∀ eax, FlagConfig.kernelStmt c.kernel eax pc = .ok (k', eff)) :
    c.stmt input pc = .ok (c.mem, k', eff) := by
  cases pc with
  | prog l => cases h .void
  | _ => exact congrArg (Except.map fun r => (c.mem, r)) (h (c.eax c.kernel.running))

theorem Executes.goto (h : ∀ eax, FlagConfig.kernelStmt k eax pc = .ok (k', .goto pc'))
    (hrunning : k'.running = k.running) : Executes input entry rest (pc, k) (pc', k') := by
  intro c htop hk
  subst hk
  refine ⟨c.apply ⟨entry, pc⟩ rest c.mem k' (.goto pc'), .single ?_, ?_, rfl⟩
  · have hstmt : c.stmt input pc = _ := FlagConfig.stmt_eq h
    simp [FlagConfig.flagStep, htop, hstmt, Except.map]
  · show Function.update c.stack c.kernel.running _ k'.running = _
    rw [hrunning, Function.update_self]

theorem Executes.done {v : RetVal} (h : ∀ eax, FlagConfig.kernelStmt k eax pc = .ok (k', .done v))
    (hrunning : k'.running = k.running) : Executes input entry rest (pc, k) (.ret, k') := by
  intro c htop hk
  subst hk
  refine ⟨c.apply ⟨entry, pc⟩ rest c.mem k' (.done v), .single ?_, ?_, rfl⟩
  · have hstmt : c.stmt input pc = _ := FlagConfig.stmt_eq h
    simp [FlagConfig.flagStep, htop, hstmt, Except.map]
  · show Function.update c.stack c.kernel.running _ k'.running = _
    rw [hrunning, Function.update_self]

/-- The statements of `list_insert_before` in a row are the function of the list model. -/
theorem listInsertBefore_executes {before : Option ElemAddr} {elem : ElemAddr}
    {h' : LinkHeap ElemAddr} (h : listInsertBefore before elem k.lists = .ok h') :
    Executes input entry rest (.listInsertBefore before elem .assertArgs, k)
      (.ret, { k with lists := h' }) := by
  cases before with
  | none => cases h
  | some b =>
    cases hp : (k.lists.get b).prev with
    | none => simp [listInsertBefore, hp] at h
    | some p =>
      have hassert : listInsertBeforeStmt k (some b) elem .assertArgs = .ok
          (k, .goto (.listInsertBefore (some b) elem .disable : Pc P.Loc)) := by
        simp [listInsertBeforeStmt, hp]
      have hdisable : listInsertBeforeStmt k (some b) elem .disable = .ok ({ k with intr := .off },
          .goto (.listInsertBefore (some b) elem (.prevNext k.intr) : Pc P.Loc)) := by
        simp [listInsertBeforeStmt, intrDisable_eq]
      have hprev : listInsertBeforeStmt { k with intr := .off } (some b) elem (.prevNext k.intr) =
          .ok ({ k with intr := .off, lists := k.lists.setNext p (some elem) },
            .goto (.listInsertBefore (some b) elem (.elemPrev k.intr) : Pc P.Loc)) := by
        simp [listInsertBeforeStmt, deref, hp]
      refine Executes.trans (.goto (fun _ => hassert) rfl) ?_
      refine Executes.trans (.goto (fun _ => hdisable) rfl) ?_
      refine Executes.trans (.goto (fun _ => hprev) rfl) ?_
      refine Executes.trans (.goto (fun _ => rfl) rfl) ?_
      refine Executes.trans (.goto (fun _ => rfl) rfl) ?_
      refine Executes.trans (.goto (fun _ => rfl) rfl) ?_
      refine .done (v := .void) (fun _ => ?_) rfl
      simp only [listInsertBefore, hp, Except.ok.injEq] at h
      simp [FlagConfig.kernelStmt, listInsertBeforeStmt, ← h]

/-- The statements of `list_remove` in a row are the function of the list model. -/
theorem listRemove_executes {elem : Option ElemAddr} {h' : LinkHeap ElemAddr}
    (h : listRemove elem k.lists = .ok h') :
    Executes input entry rest (.listRemove elem .assertElem, k) (.ret, { k with lists := h' }) := by
  cases elem with
  | none => cases h
  | some e =>
    have hdisable : listRemoveStmt k (some e) .disable = .ok ({ k with intr := .off },
        .goto (.listRemove (some e) (.prevNext k.intr) : Pc P.Loc)) := by
      simp [listRemoveStmt, intrDisable_eq]
    refine Executes.trans (.goto (fun _ => rfl) rfl) ?_
    refine Executes.trans (.goto (fun _ => hdisable) rfl) ?_
    refine Executes.trans (.goto (fun _ => rfl) rfl) ?_
    refine Executes.trans (.goto (fun _ => rfl) rfl) ?_
    refine .done (v := .void) (fun _ => ?_) rfl
    cases h
    simp only [FlagConfig.kernelStmt, listRemoveStmt, intrSetStatus_flag]
    cases (k.lists.get e).prev with
    | none => cases (k.lists.get e).next <;> rfl
    | some p => cases ((k.lists.setNext p (k.lists.get e).next).get e).next <;> rfl

end Uninterrupted

end OsKernel.InterruptFlag
