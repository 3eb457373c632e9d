import OsKernel.Thread.Basic

/-!
# thread/thread.c

The scheduler over any store of lists. `switch_to` saves the registers of one thread and loads
those of another; the machine keeps every thread's call stack, so here it only changes which
thread is running. A function that calls `schedule` is cut at that call: `threadBlock` is what
happens before the switch, the rest of `thread_block` (`intr_set_status(old_status)`) runs when
the thread is switched to again.
-/

namespace OsKernel

variable {H : Type} [TaskLists H]

/-- `init_thread` for the fields of the model. -/
def initThread (isMain : Bool) (prio : UInt8) : TaskStruct where
  status := if isMain then .running else .ready
  priority := prio
  ticks := 0
  elapsedTicks := 0
  stackMagic := 0x12345678

/-- `thread_init`: the code that runs becomes the main thread. -/
def threadInit (k : Kernel H) : Except Panic (Kernel H) := do
  let mainThread := k.running
  let k := { k with task := Function.update k.task mainThread (initThread true 8) }
  let found ← TaskLists.elemFind .all (.allListTag mainThread) k.lists
  assert (!found) .makeMainThreadNotAll
  let lists ← TaskLists.listAppend .all (.allListTag mainThread) k.lists
  return { k with lists := lists }

/-- First half of `schedule`: a thread whose time slice is used up goes to the end of the ready
list; a thread that has blocked itself stays off it. -/
def scheduleRequeue (k : Kernel H) : Except Panic (Kernel H) :=
  let cur := k.running
  if (k.task cur).status = .running then do
    let found ← TaskLists.elemFind .ready (.generalTag cur) k.lists
    assert (!found) .scheduleNotReady
    let lists ← TaskLists.listAppend .ready (.generalTag cur) k.lists
    let pcb := { k.task cur with ticks := (k.task cur).priority, status := .ready }
    return { k with lists := lists, task := Function.update k.task cur pcb }
  else
    return k

/-- Second half of `schedule`: the head of the ready list gets the processor. -/
def scheduleNext (k : Kernel H) : Except Panic (Kernel H) := do
  assert (!TaskLists.listEmpty .ready k.lists) .scheduleReadyEmpty
  let (threadTag, lists) ← TaskLists.listPop .ready k.lists
  let next ← elem2entry threadTag
  let pcb := { k.task next with status := .running }
  return { k with lists := lists, task := Function.update k.task next pcb, running := next }

/-- `schedule`, up to and including the change of stacks in `switch_to`. -/
def schedule (k : Kernel H) : Except Panic (Kernel H) := do
  assert (k.intr = .off) .scheduleIntrOff
  let k ← scheduleRequeue k
  scheduleNext k

/-- `thread_block` up to the switch. -/
def threadBlock (stat : TaskStatus) (k : Kernel H) : Except Panic (Kernel H) := do
  assert stat.isBlocked .threadBlockStat
  schedule ({ k with intr := .off }.setStatus k.running stat)

/-- `thread_unblock` -/
def threadUnblock (pthread : Tid) (k : Kernel H) : Except Panic (Kernel H) := do
  assert (k.task pthread).status.isBlocked .threadUnblockStat
  if (k.task pthread).status != .ready then
    let found ← TaskLists.elemFind .ready (.generalTag pthread) k.lists
    assert (!found) .threadUnblockNotReady
    let lists ← TaskLists.listPush .ready (.generalTag pthread) k.lists
    return { k with lists := lists }.setStatus pthread .ready
  else
    return k

/-- `thread_start` for the page that `get_kernel_pages(1)` returned. -/
def threadStart (thread : Tid) (prio : UInt8) (k : Kernel H) : Except Panic (Kernel H) := do
  let k := { k with task := Function.update k.task thread (initThread false prio) }
  let found ← TaskLists.elemFind .ready (.generalTag thread) k.lists
  assert (!found) .threadStartNotReady
  let found ← TaskLists.elemFind .all (.generalTag thread) k.lists
  assert (!found) .threadStartNotAll
  let lists ← TaskLists.listAppend .ready (.generalTag thread) k.lists
  let lists ← TaskLists.listAppend .all (.allListTag thread) lists
  return { k with lists := lists }

/-- `intr_timer_handler` -/
def intrTimerHandler (k : Kernel H) : Except Panic (Kernel H) := do
  let cur := k.running
  assert ((k.task cur).stackMagic = 0x12345678) .timerStackMagic
  let pcb := { k.task cur with elapsedTicks := (k.task cur).elapsedTicks + 1 }
  let k := { k with task := Function.update k.task cur pcb, ticks := k.ticks + 1 }
  if pcb.ticks == 0 then
    schedule k
  else
    return { k with task := Function.update k.task cur { pcb with ticks := pcb.ticks - 1 } }

end OsKernel
