import OsKernel.Thread.Refinement

/-!
# Two ways to create a thread

`thread_start` (thread.c) and `process_execute` (process.c) both put a new thread into the ready
list and into the list of all threads with two calls of `list_append`. Only `process_execute`
disables interrupts around the two. Here both run statement by statement, and the timer may come
between any two statements with interrupts on; the rest of the kernel is the machine of
`Thread.Machine`.

- `createStep`: the machine with the two functions taken apart.
- `CreationLaw`: what creation owes to the scheduler's lists.
- `CreateInv`, `CreateInv.step`: the invariant, and one event.
- `creation_atomic`: the law holds when the functions are entered with interrupts off.
- `creation_exposed`: it breaks at once when one of them is entered with interrupts on.
-/

namespace OsKernel

open Lib

variable {P : Program}

/-! ## The two functions -/

/-- Control points of `thread_start` behind `get_kernel_pages(1)`, each named by its next
statement. -/
inductive ThreadStartPc where
  /-- `init_thread(thread, name, prio)` -/
  | initThread
  /-- `thread_create(thread, function, func_arg)` -/
  | threadCreate
  /-- `ASSERT(!elem_find(&thread_ready_list, &thread->general_tag))` -/
  | assertReady
  /-- `ASSERT(!elem_find(&thread_all_list, &thread->general_tag))` -/
  | assertAll
  /-- `list_append(&thread_ready_list, &thread->general_tag)` -/
  | appendReady
  /-- `list_append(&thread_all_list, &thread->all_list_tag)` -/
  | appendAll
deriving DecidableEq, Repr

/-- Control points of `process_execute` behind `get_kernel_pages(1)`. -/
inductive ProcessExecutePc where
  /-- `init_thread(thread, name, default_prio)` -/
  | initThread
  /-- `create_user_vaddr_bitmap(thread)` -/
  | createUserVaddrBitmap
  /-- `thread_create(thread, start_process, filename)` -/
  | threadCreate
  /-- `thread->pgdir = create_page_dir()` -/
  | createPageDir
  /-- `block_desc_init(thread->u_block_desc)` -/
  | blockDescInit
  /-- `old_status = intr_disable()` -/
  | intrDisable
  /-- `ASSERT(!elem_find(&thread_ready_list, &thread->general_tag))` -/
  | assertReady
  /-- `list_append(&thread_ready_list, &thread->general_tag)` -/
  | appendReady
  /-- `ASSERT(!elem_find(&thread_all_list, &thread->all_list_tag))` -/
  | assertAll
  /-- `list_append(&thread_all_list, &thread->all_list_tag)` -/
  | appendAll
  /-- `intr_set_status(old_status)` -/
  | intrSetStatus
deriving DecidableEq, Repr

/-- A control point of one of them. -/
inductive CreatePc where
  | threadStart (pc : ThreadStartPc)
  | processExecute (pc : ProcessExecutePc)
deriving DecidableEq, Repr

/-- A call in progress. The page of the new thread belongs to its creator until `list_append`
hands it to the scheduler: until then the PCB in it and the frames that `thread_create` lays out
stand here. -/
structure Creation (Loc : Type) where
  thread : Tid
  page : TaskStruct
  kstack : List (Frame Loc)
  oldStatus : IntrStatus
  pc : CreatePc

/-- The machine's state and the call each thread is in. -/
structure CreateState (H : Type) (P : Program) where
  config : Config H P
  creating : Tid → Option (Creation P.Loc)

namespace CreateState

variable {H : Type}

/-- The running thread goes on in its call. -/
def stay (s : CreateState H P) (call : Creation P.Loc) : CreateState H P :=
  { s with creating := Function.update s.creating s.config.kernel.running (some call) }

/-- The running thread's call returns to `rest`. -/
def leave (s : CreateState H P) (rest : List (Frame P.Loc)) : CreateState H P where
  config := s.config.setStack rest
  creating := Function.update s.creating s.config.kernel.running none

end CreateState

/-- The new thread's page becomes visible to the scheduler. -/
def Config.handOver {H : Type} (c : Config H P) (thread : Tid) (page : TaskStruct)
    (kstack : List (Frame P.Loc)) : Config H P :=
  { c with
    kernel := { c.kernel with task := Function.update c.kernel.task thread page }
    stack := Function.update c.stack thread kstack }

section Statements

variable {H : Type} [TaskLists H]

/-- `list_append(&thread_ready_list, &thread->general_tag)` -/
def appendReady (call : Creation P.Loc) (c : Config H P) : Except Panic (Config H P) := do
  let lists ← TaskLists.listAppend .ready (.generalTag call.thread) c.kernel.lists
  return { c with kernel := { c.kernel with lists := lists } }.handOver call.thread call.page
    call.kstack

/-- `list_append(&thread_all_list, &thread->all_list_tag)` -/
def appendAll (call : Creation P.Loc) (c : Config H P) : Except Panic (Config H P) := do
  let lists ← TaskLists.listAppend .all (.allListTag call.thread) c.kernel.lists
  return { c with
    kernel := { c.kernel with lists := lists }
    history := { c.history with
      created := Function.update c.history.created call.thread true } }

/-- A statement of `thread_start`. -/
def threadStartStmt (prio : UInt8) (function : P.Loc) (rest : List (Frame P.Loc))
    (call : Creation P.Loc) (s : CreateState H P) : ThreadStartPc → Except Panic (CreateState H P)
  | .initThread =>
    return s.stay { call with page := initThread false prio, pc := .threadStart .threadCreate }
  | .threadCreate =>
    return s.stay { call with
      kstack := [.kernelThread, .prog function], pc := .threadStart .assertReady }
  | .assertReady => do
    let found ← TaskLists.elemFind .ready (.generalTag call.thread) s.config.kernel.lists
    assert (!found) .threadStartNotReady
    return s.stay { call with pc := .threadStart .assertAll }
  | .assertAll => do
    let found ← TaskLists.elemFind .all (.generalTag call.thread) s.config.kernel.lists
    assert (!found) .threadStartNotAll
    return s.stay { call with pc := .threadStart .appendReady }
  | .appendReady => do
    let c ← appendReady call s.config
    return { s with config := c }.stay { call with pc := .threadStart .appendAll }
  | .appendAll => do
    let c ← appendAll call s.config
    return { s with config := c }.leave rest

/-- A statement of `process_execute`. The three that fill in the page and the new address space
touch nothing of this state. -/
def processExecuteStmt (prio : UInt8) (function : P.Loc) (rest : List (Frame P.Loc))
    (call : Creation P.Loc) (s : CreateState H P) :
    ProcessExecutePc → Except Panic (CreateState H P)
  | .initThread =>
    return s.stay { call with
      page := initThread false prio, pc := .processExecute .createUserVaddrBitmap }
  | .createUserVaddrBitmap => return s.stay { call with pc := .processExecute .threadCreate }
  | .threadCreate =>
    return s.stay { call with
      kstack := [.kernelThread, .prog function], pc := .processExecute .createPageDir }
  | .createPageDir => return s.stay { call with pc := .processExecute .blockDescInit }
  | .blockDescInit => return s.stay { call with pc := .processExecute .intrDisable }
  | .intrDisable =>
    return { s with
      config := { s.config with kernel := { s.config.kernel with intr := .off } } }.stay { call with
        oldStatus := s.config.kernel.intr, pc := .processExecute .assertReady }
  | .assertReady => do
    let found ← TaskLists.elemFind .ready (.generalTag call.thread) s.config.kernel.lists
    assert (!found) .processExecuteNotReady
    return s.stay { call with pc := .processExecute .appendReady }
  | .appendReady => do
    let c ← appendReady call s.config
    return { s with config := c }.stay { call with pc := .processExecute .assertAll }
  | .assertAll => do
    let found ← TaskLists.elemFind .all (.allListTag call.thread) s.config.kernel.lists
    assert (!found) .processExecuteNotAll
    return s.stay { call with pc := .processExecute .appendAll }
  | .appendAll => do
    let c ← appendAll call s.config
    return { s with config := c }.stay { call with pc := .processExecute .intrSetStatus }
  | .intrSetStatus =>
    return { s with
      config := { s.config with
        kernel := { s.config.kernel with intr := call.oldStatus } } }.leave rest

/-- The next statement of the running thread's call. -/
def createStmt (prio : UInt8) (function : P.Loc) (rest : List (Frame P.Loc))
    (call : Creation P.Loc) (s : CreateState H P) : Except Panic (CreateState H P) :=
  match call.pc with
  | .threadStart pc => threadStartStmt prio function rest call s pc
  | .processExecute pc => processExecuteStmt prio function rest call s pc

/-- A call at its first statement; `process` tells the functions that are the start of a process.
The page holds what it held before. -/
def enterCreation (process : P.Loc → Bool) (thread : Tid) (function : P.Loc)
    (s : CreateState H P) : Creation P.Loc where
  thread := thread
  page := s.config.kernel.task thread
  kstack := []
  oldStatus := s.config.kernel.intr
  pc := if process function then .processExecute .initThread else .threadStart .initThread

/-- One event of the threads under the timer: a statement of a creation where one is on top of the
running thread's stack, else a step of the machine. -/
def createStep (process : P.Loc → Bool) (e : Event P) (s : CreateState H P) :
    Option (Except Panic (CreateState H P)) :=
  let machine (e : Event P) : Option (Except Panic (CreateState H P)) :=
    match machineStep e s.config with
    | none => none
    | some (.error p) => some (.error p)
    | some (.ok c) => some (.ok { s with config := c })
  match e with
  | .exec input =>
    match s.config.top with
    | .threadStart thread prio function :: rest =>
      let call :=
        (s.creating s.config.kernel.running).getD (enterCreation process thread function s)
      some (createStmt prio function rest call s)
    | _ => machine (.exec input)
  | .timer => machine .timer
  | .device _ => none

/-- The threads start right after `thread_init`. -/
def createMachine (process : P.Loc → Bool) : System (CreateState H P) (Event P) Panic where
  init s := Booted s.config ∧ s.creating = fun _ => none
  step := createStep process

end Statements

/-! ## The law -/

section Law

variable {H : Type}

/-- The page of the thread is already the scheduler's. -/
def CreatePc.handedOver : CreatePc → Bool
  | .threadStart pc => pc == .appendAll
  | .processExecute pc => pc == .assertAll || pc == .appendAll || pc == .intrSetStatus

namespace CreateState

/-- The field `status` of a thread: in the page of its creator until that is handed over. -/
def HasStatus (s : CreateState H P) (t : Tid) (stat : TaskStatus) : Prop :=
  (s.config.history.created t = true ∧ s.config.kernel.status t = stat) ∨
  ∃ w call, s.creating w = some call ∧ call.thread = t ∧
    (if call.pc.handedOver then s.config.kernel.status t else call.page.status) = stat

/-- The thread is in an interrupts-off section of its creator. -/
def Shielded (s : CreateState H P) (t : Tid) : Prop :=
  s.config.kernel.intr = .off ∧
    ∃ call, s.creating s.config.kernel.running = some call ∧ call.thread = t

/-- `process_execute` fills in the page of the thread and has not come to its `intr_disable`. -/
def Private (s : CreateState H P) (t : Tid) : Prop :=
  ∃ w call pc, s.creating w = some call ∧ call.thread = t ∧ call.pc = .processExecute pc ∧
    pc ∈ [.createUserVaddrBitmap, .threadCreate, .createPageDir, .blockDescInit, .intrDisable]

end CreateState

/-- **The law of creation**, for the threads outside an interrupts-off section of their creator:
who is in the ready list or runs is in the list of all threads exactly once, and who is
`TASK_READY` is in the ready list, unless it is one of the `exempt`. -/
def CreationLaw (s : CreateState (LinkHeap ElemAddr) P) (exempt : Tid → Prop) : Prop :=
  ∃ Q, Holds s.config.kernel.lists Q ∧ ∀ t, ¬ s.Shielded t →
    (.generalTag t ∈ Q .ready ∨ t = s.config.kernel.running →
      (Q .all).count (.allListTag t) = 1) ∧
    (s.HasStatus t .ready → .generalTag t ∈ Q .ready ∨ exempt t)

/-! ## The promises of the callers -/

/-- The page of a new thread is no other thread's, and `thread_unblock` gets a thread in no wait
list. -/
def PageGuard (s : CreateState H P) : Event P → Prop
  | .exec _ => ∀ f ∈ s.config.top.head?, match f with
    | .threadUnblock pthread => FrameGuard s.config (.threadUnblock pthread)
    | .threadStart thread _ _ => s.creating s.config.kernel.running = none →
        s.config.history.created thread = false ∧
        ∀ w call, s.creating w = some call → call.thread ≠ thread
    | _ => True
  | _ => True

/-- The two functions are entered with interrupts off; with `lenient`, only `thread_start` has
to be. -/
def EntryOff (process : P.Loc → Bool) (lenient : Bool) (s : CreateState H P) : Event P → Prop
  | .exec _ => ∀ f ∈ s.config.top.head?, match f with
    | .threadStart _ _ function => s.creating s.config.kernel.running = none →
        (lenient && process function) = false → s.config.kernel.intr = .off
    | _ => True
  | _ => True

end Law

/-! ## What the other statements leave alone -/

section Others

variable {H : Type} [TaskLists H] {c c' : Config H P}

/-- Threads are created by `thread_start` only, and a statement changes no stack but its own
thread's. -/
structure OwnStack (c c' : Config H P) : Prop where
  created : c'.history.created = c.history.created
  stack : ∀ t, t ≠ c.kernel.running → c'.stack t = c.stack t

omit [TaskLists H] in
theorem OwnStack.of_update {st : List (Frame P.Loc)}
    (hstack : c'.stack = Function.update c.stack c.kernel.running st)
    (hcreated : c'.history.created = c.history.created) : OwnStack c c' where
  created := hcreated
  stack t ht := by rw [hstack, Function.update_of_ne ht]

theorem threadUnblock_running {k k' : Kernel H} {u : Tid} (h : threadUnblock u k = .ok k') :
    k'.running = k.running := by
  obtain ⟨_, _, h⟩ := bind_eq_ok.mp h
  split at h
  · obtain ⟨_, _, h⟩ := bind_eq_ok.mp h
    obtain ⟨_, _, h⟩ := bind_eq_ok.mp h
    obtain ⟨_, _, h⟩ := bind_eq_ok.mp h
    cases h
    rfl
  · cases h
    rfl

theorem semaUpWake_created {s : SemaRef} {k : Kernel H} {hist : History} {r : Kernel H × History}
    (h : semaUpWake s k hist = .ok r) : r.2.created = hist.created := by
  unfold semaUpWake at h
  split at h
  · obtain ⟨_, _, h⟩ := bind_eq_ok.mp h
    obtain ⟨_, _, h⟩ := bind_eq_ok.mp h
    obtain ⟨_, _, h⟩ := bind_eq_ok.mp h
    cases h
    rfl
  · cases h
    rfl

theorem exec_ownStack {input : P.Input} {f : Frame P.Loc} {rest : List (Frame P.Loc)}
    (hf : ∀ u prio fn, f ≠ .threadStart u prio fn) (he : exec input f rest c = .ok c') :
    OwnStack c c' := by
  cases hlocal : f.isLocal with
  | true =>
    have hl := exec_local hlocal he
    exact ⟨hl.created, hl.stack⟩
  | false =>
    cases f with
    | threadStart u prio fn => exact absurd rfl (hf u prio fn)
    | threadBlockCall stat =>
      obtain ⟨_, _, he⟩ := bind_eq_ok.mp he
      cases he
      exact .of_update rfl rfl
    | threadUnblock pthread =>
      obtain ⟨k, hk, he⟩ := bind_eq_ok.mp he
      cases he
      have hstack : Function.update c.stack k.running rest =
          Function.update c.stack c.kernel.running rest := by rw [threadUnblock_running hk]
      exact .of_update hstack rfl
    | semaDown psema oldStatus =>
      change semaDownTest psema oldStatus rest c = .ok c' at he
      unfold semaDownTest at he
      dsimp only at he
      split at he
      · obtain ⟨_, _, he⟩ := bind_eq_ok.mp he
        obtain ⟨_, _, he⟩ := bind_eq_ok.mp he
        obtain ⟨_, _, he⟩ := bind_eq_ok.mp he
        obtain ⟨_, _, he⟩ := bind_eq_ok.mp he
        cases he
        exact .of_update rfl rfl
      · obtain ⟨_, _, he⟩ := bind_eq_ok.mp he
        cases he
        exact .of_update rfl rfl
    | semaUp psema =>
      obtain ⟨_, _, he⟩ := bind_eq_ok.mp he
      obtain ⟨⟨k, hist⟩, hwake, he⟩ := bind_eq_ok.mp he
      obtain ⟨_, _, he⟩ := bind_eq_ok.mp he
      cases he
      exact .of_update rfl (semaUpWake_created hwake)
    | _ => cases hlocal

end Others

/-- A state on list.c's pointers that satisfies the scheduler's invariant. -/
def Represented (c : Config (LinkHeap ElemAddr) P) : Prop :=
  ∃ a, SchedInv a ∧ ConfigRel c a

namespace Represented

variable {c c' : Config (LinkHeap ElemAddr) P}

/-- One event of the machine. -/
theorem step (h : Represented c) {e : Event P} (hg : SchedGuard c e)
    (hs : machineStep e c = some (.ok c')) : Represented c' := by
  obtain ⟨a, hinv, x, rfl, hr⟩ := h
  have hm := machineStep_agree e hr hinv hg
  rw [hs] at hm
  cases ha : machineStep e a with
  | none =>
    rw [ha] at hm
    cases hm
  | some out =>
    rw [ha] at hm
    cases hm with
    | some hag =>
      cases hag with
      | ok hrel => exact ⟨_, hinv.step hg ha, hrel⟩

theorem boot (hb : Booted c) : Represented c := by
  obtain ⟨a, ha, hrel⟩ := booted_agree hb
  exact ⟨a, SchedInv.boot ha, hrel⟩

/-- A statement that changes the flag and the running thread's stack. -/
theorem setStack (h : Represented c) {st : List (Frame P.Loc)} {intr : IntrStatus}
    (hcalls : st.IsChain Calls) (hoff : ∀ f ∈ st.head?, f.runsOff = true → intr = .off) :
    Represented ({ c with kernel := { c.kernel with intr := intr } }.setStack st) := by
  obtain ⟨a, hinv, x, rfl, hr⟩ := h
  exact ⟨({ a with kernel := { a.kernel with intr := intr } }.setStack st),
    hinv.setStack (k := { a.kernel with intr := intr }) rfl rfl rfl rfl rfl hcalls hoff, x, rfl, hr⟩

/-- A statement that changes the flag. -/
theorem setIntr (h : Represented c) {intr : IntrStatus}
    (hoff : ∀ f ∈ c.top.head?, f.runsOff = true → intr = .off) :
    Represented { c with kernel := { c.kernel with intr := intr } } := by
  obtain ⟨a, hinv, x, rfl, hr⟩ := h
  exact ⟨{ a with kernel := { a.kernel with intr := intr } },
    ⟨hinv.partition, hinv.running_created, hinv.magic, hinv.fresh, hinv.calls, hoff,
      hinv.waiting_sleeps, hinv.sleeps_waiting⟩, x, rfl, hr⟩

theorem calls (h : Represented c) : c.top.IsChain Calls := by
  obtain ⟨a, hinv, x, rfl, _⟩ := h
  exact hinv.calls a.kernel.running

/-- A thread with a stack has been created. -/
theorem stack_fresh (h : Represented c) {t : Tid} (ht : c.history.created t = false) :
    c.stack t = [] := by
  obtain ⟨a, hinv, x, rfl, _⟩ := h
  exact hinv.fresh t ht

theorem running_created (h : Represented c) : c.history.created c.kernel.running = true := by
  obtain ⟨a, hinv, x, rfl, _⟩ := h
  exact hinv.running_created

end Represented

/-! ## The invariant -/

namespace CreatePc

/-- The first statement has run. -/
def begun : CreatePc → Bool
  | .threadStart pc => pc != .initThread
  | .processExecute pc => pc != .initThread

/-- `thread_create` has run. -/
def laidOut : CreatePc → Bool
  | .threadStart pc => pc != .initThread && pc != .threadCreate
  | .processExecute pc =>
    pc != .initThread && pc != .createUserVaddrBitmap && pc != .threadCreate

/-- Interrupts are off here: in `thread_start` because of its caller, in `process_execute` because
of its own `intr_disable`. -/
def shut : CreatePc → Bool
  | .threadStart _ => true
  | .processExecute pc =>
    pc == .assertReady || pc == .appendReady || pc == .assertAll || pc == .appendAll ||
      pc == .intrSetStatus

/-- Between the two calls of `list_append`. -/
def half : CreatePc → Bool
  | .threadStart pc => pc == .appendAll
  | .processExecute pc => pc == .assertAll || pc == .appendAll

/-- Behind both of them. -/
def done (pc : CreatePc) : Bool := pc == .processExecute .intrSetStatus

end CreatePc

/-- The thread stands at `f`, or at an interrupt of it. -/
def StandsIn {Loc : Type} (f : Frame Loc) : List (Frame Loc) → Prop
  | .intrExit _ :: st => StandsIn f st
  | g :: _ => g = f
  | [] => False

/-- What holds of a call of the thread `w`. -/
structure CallInv (lenient : Bool) (c : Config (LinkHeap ElemAddr) P) (w : Tid)
    (call : Creation P.Loc) : Prop where
  begun : call.pc.begun = true
  stands : ∃ prio fn, StandsIn (.threadStart call.thread prio fn) (c.stack w) ∧
    call.page = initThread false prio ∧
    (call.pc.laidOut = true → call.kstack = [.kernelThread, .prog fn])
  /-- a call that runs with interrupts off is not interrupted -/
  shut : (lenient && !call.pc.shut) = false →
    w = c.kernel.running ∧ c.kernel.intr = .off ∧ ∀ eflags, c.top.head? ≠ some (.intrExit eflags)
  fresh : call.pc.done = false → c.history.created call.thread = false

/-- The state between the two calls of `list_append`, seen from the state `a` before them. -/
structure Halfway (call : Creation P.Loc) (c : Config (LinkHeap ElemAddr) P)
    (a : Config Queues P) : Prop where
  sched : SchedInv a
  entry : ∃ prio fn rest x, a.top = .threadStart call.thread prio fn :: rest ∧
    Holds x (Function.update a.kernel.lists .ready
      (a.kernel.lists .ready ++ [.generalTag call.thread])) ∧
    c = (a.handOver call.thread (initThread false prio) [.kernelThread, .prog fn]).withLists x
  fresh : a.history.created call.thread = false
  off : a.kernel.intr = .off

/-- Where the running thread is. -/
inductive Stage (s : CreateState (LinkHeap ElemAddr) P) : Prop where
  /-- not between two calls of `list_append` -/
  | whole (hrep : Represented s.config)
      (hpc : ∀ call, s.creating s.config.kernel.running = some call → call.pc.half = false)
  /-- between two -/
  | half {call : Creation P.Loc} {a : Config Queues P}
      (hcall : s.creating s.config.kernel.running = some call) (hpc : call.pc.half = true)
      (h : Halfway call s.config a)

/-- The invariant. -/
structure CreateInv (lenient : Bool) (s : CreateState (LinkHeap ElemAddr) P) : Prop where
  calls : ∀ w call, s.creating w = some call → CallInv lenient s.config w call
  unique : ∀ w w' call call', s.creating w = some call → s.creating w' = some call' →
    call.thread = call'.thread → w = w'
  stage : Stage s

/-- What holds when the running thread executes the statement of `call`, on top of `rest`. -/
structure Current (lenient : Bool) (s : CreateState (LinkHeap ElemAddr) P)
    (call : Creation P.Loc) (prio : UInt8) (fn : P.Loc) (rest : List (Frame P.Loc)) : Prop where
  top : s.config.top = .threadStart call.thread prio fn :: rest
  others : ∀ w call', w ≠ s.config.kernel.running → s.creating w = some call' →
    call'.thread ≠ call.thread
  page : call.pc.begun = true → call.page = initThread false prio
  kstack : call.pc.laidOut = true → call.kstack = [.kernelThread, .prog fn]
  off : (lenient && !call.pc.shut) = false → s.config.kernel.intr = .off
  fresh : call.pc.done = false → s.config.history.created call.thread = false
  whole : call.pc.half = false → Represented s.config
  halfway : call.pc.half = true → ∃ a, Halfway call s.config a

namespace CreateInv

variable {lenient : Bool} {s s' : CreateState (LinkHeap ElemAddr) P} {call call' : Creation P.Loc}
variable {prio : UInt8} {fn : P.Loc} {rest : List (Frame P.Loc)} {thread : Tid}

/-- The call the running thread is in. -/
theorem current (h : CreateInv lenient s)
    (htop : s.config.top = .threadStart thread prio fn :: rest)
    (hcall : s.creating s.config.kernel.running = some call) :
    Current lenient s call prio fn rest := by
  have hinv := h.calls _ _ hcall
  obtain ⟨prio', fn', hstands, hpage, hkstack⟩ := hinv.stands
  change StandsIn _ s.config.top at hstands
  rw [htop] at hstands
  cases (show Frame.threadStart thread prio fn = .threadStart call.thread prio' fn' from hstands)
  refine ⟨htop, ?_, fun _ => hpage, hkstack, fun hs => (hinv.shut hs).2.1, hinv.fresh, ?_, ?_⟩
  · intro w call' hw hc heq
    exact hw (h.unique _ _ _ _ hc hcall heq)
  · intro hpc
    cases h.stage with
    | whole hrep _ => exact hrep
    | half hcall' hpc' _ =>
      rw [hcall] at hcall'
      cases hcall'
      rw [hpc] at hpc'
      cases hpc'
  · intro hpc
    cases h.stage with
    | whole _ hnot =>
      rw [hnot _ hcall] at hpc
      cases hpc
    | half hcall' _ hhalf =>
      rw [hcall] at hcall'
      cases hcall'
      exact ⟨_, hhalf⟩

/-- A call that begins. -/
theorem enter (h : CreateInv lenient s) {process : P.Loc → Bool}
    (htop : s.config.top = .threadStart thread prio fn :: rest)
    (hnone : s.creating s.config.kernel.running = none)
    (hfresh : s.config.history.created thread = false)
    (hpage : ∀ w call, s.creating w = some call → call.thread ≠ thread)
    (hoff : (lenient && process fn) = false → s.config.kernel.intr = .off) :
    Current lenient s (enterCreation process thread fn s) prio fn rest := by
  have hrep : Represented s.config := by
    cases h.stage with
    | whole hrep _ => exact hrep
    | half hcall' _ _ =>
      rw [hnone] at hcall'
      cases hcall'
  cases hp : process fn with
  | false =>
    have hpc : (enterCreation process thread fn s).pc = .threadStart .initThread := by
      simp [enterCreation, hp]
    refine ⟨htop, fun w call' _ hc => hpage w call' hc, ?_, ?_, ?_, fun _ => hfresh,
      fun _ => hrep, ?_⟩ <;> rw [hpc]
    · exact nofun
    · exact nofun
    · exact fun _ => hoff (by rw [hp, Bool.and_false])
    · exact nofun
  | true =>
    have hpc : (enterCreation process thread fn s).pc = .processExecute .initThread := by
      simp [enterCreation, hp]
    refine ⟨htop, fun w call' _ hc => hpage w call' hc, ?_, ?_, ?_, fun _ => hfresh,
      fun _ => hrep, ?_⟩ <;> rw [hpc]
    · exact nofun
    · exact nofun
    · exact fun hl => hoff (by rw [hp]; exact hl)
    · exact nofun

/-- **The step lemma.** The calls of the other threads are as they were. -/
theorem next (h : CreateInv lenient s) {new : Option (Creation P.Loc)}
    (hcreating : s'.creating = Function.update s.creating s.config.kernel.running new)
    (hstack : ∀ w call, w ≠ s.config.kernel.running → s.creating w = some call →
      s'.config.stack w = s.config.stack w)
    (hcreated : ∀ w call, w ≠ s.config.kernel.running → s.creating w = some call →
      s'.config.history.created call.thread = s.config.history.created call.thread)
    (hnew : ∀ call, new = some call → CallInv lenient s'.config s.config.kernel.running call ∧
      ∀ w call', w ≠ s.config.kernel.running → s.creating w = some call' →
        call'.thread ≠ call.thread)
    (hstage : Stage s') : CreateInv lenient s' where
  calls w call hc := by
    rw [hcreating, Function.update_apply] at hc
    split at hc
    · next hw => exact hw ▸ (hnew call hc).1
    · next hw =>
      have hold := h.calls w call hc
      refine ⟨hold.begun, ?_, fun hs => absurd (hold.shut hs).1 hw, fun hd => ?_⟩
      · rw [hstack w call hw hc]
        exact hold.stands
      · rw [hcreated w call hw hc]
        exact hold.fresh hd
  unique w w' call call' hc hc' heq := by
    rw [hcreating, Function.update_apply] at hc hc'
    split at hc
    · next hw =>
      split at hc'
      · next hw' => rw [hw, hw']
      · next hw' => exact absurd heq.symm ((hnew call hc).2 w' call' hw' hc')
    · next hw =>
      split at hc'
      · next hw' => exact absurd heq ((hnew call' hc').2 w call hw hc)
      · exact h.unique w w' call call' hc hc' heq
  stage := hstage

/-- A statement that changes nothing but the flag and the call itself. -/
theorem goOn (h : CreateInv lenient s) (k : Current lenient s call prio fn rest)
    {intr : IntrStatus} (hbegun : call'.pc.begun = true) (hthread : call'.thread = call.thread)
    (hpage : call'.page = initThread false prio)
    (hkstack : call'.pc.laidOut = true → call'.kstack = [.kernelThread, .prog fn])
    (hoff : (lenient && !call'.pc.shut) = false → intr = .off)
    (hdone : call.pc.done = false) (hhalf : call'.pc.half = call.pc.half)
    (hintr : call.pc.half = true → intr = s.config.kernel.intr) :
    CreateInv lenient ({ s with
      config := { s.config with
        kernel := { s.config.kernel with intr := intr } } }.stay call') := by
  refine h.next rfl ?_ ?_ ?_ ?_
  · exact fun _ _ _ _ => rfl
  · exact fun _ _ _ _ => rfl
  · intro call₁ heq
    cases heq
    refine ⟨⟨hbegun, ⟨prio, fn, ?_, hpage, hkstack⟩, fun hs => ⟨rfl, hoff hs, ?_⟩, fun _ => ?_⟩, ?_⟩
    · change StandsIn _ s.config.top
      rw [k.top, hthread]
      exact rfl
    · intro eflags heq
      change s.config.top.head? = _ at heq
      rw [k.top] at heq
      cases heq
    · rw [hthread]
      exact k.fresh hdone
    · rw [hthread]
      exact k.others
  · have hself : Function.update s.creating s.config.kernel.running (some call')
        s.config.kernel.running = some call' := Function.update_self ..
    cases hpc : call.pc.half with
    | false =>
      apply Stage.whole
      · refine (k.whole hpc).setIntr fun f hf hr => ?_
        rw [k.top] at hf
        cases hf
        cases hr
      · intro call₁ hc
        cases hself.symm.trans hc
        exact hhalf.trans hpc
    | true =>
      obtain ⟨a, ha⟩ := k.halfway hpc
      obtain ⟨prio', fn', rest', x, htop, hx, hconfig⟩ := ha.entry
      refine .half hself (hhalf.trans hpc) (a := a)
        ⟨ha.sched, ⟨prio', fn', rest', x, ?_, ?_, ?_⟩, ?_, ha.off⟩
      · rw [hthread]
        exact htop
      · rw [hthread]
        exact hx
      · rw [hthread, hintr hpc]
        exact hconfig
      · rw [hthread]
        exact ha.fresh

/-- The first `list_append`. -/
theorem appendReady (h : CreateInv lenient s) (k : Current lenient s call prio fn rest)
    {c' : Config (LinkHeap ElemAddr) P} (hlaid : call.pc.laidOut = true)
    (hshut : call.pc.shut = true) (hbegun : call.pc.begun = true) (hhalf : call.pc.half = false)
    (hdone : call.pc.done = false) (hthread : call'.thread = call.thread)
    (hpage : call'.page = call.page) (hkstack : call'.kstack = call.kstack)
    (hbegun' : call'.pc.begun = true) (hhalf' : call'.pc.half = true)
    (he : OsKernel.appendReady call s.config = .ok c') :
    CreateInv lenient ({ s with config := c' }.stay call') := by
  have hrep := k.whole hhalf
  have hfresh := k.fresh hdone
  have hoff := k.off (by rw [hshut]; exact Bool.and_false _)
  obtain ⟨c, creating⟩ := s
  obtain ⟨a, hinv, x, rfl, hr⟩ := id hrep
  obtain ⟨x', hx', hr'⟩ := listAppend_spec hr .ready
    (generalTag_not_node (generalTag_new hinv.partition hfresh))
  have heq : TaskLists.listAppend .ready (.generalTag call.thread) x = .ok x' := hx'
  unfold OsKernel.appendReady at he
  change (TaskLists.listAppend .ready (.generalTag call.thread) x >>= _) = _ at he
  rw [heq, ok_bind] at he
  cases he
  have hne := hinv.running_ne hfresh
  have hself : Function.update a.stack call.thread call.kstack a.kernel.running =
      .threadStart call.thread prio fn :: rest := (Function.update_of_ne hne ..).trans k.top
  refine h.next rfl ?_ ?_ ?_ ?_
  · -- a thread in a call has a stack, the new one has none
    intro w call₁ hw hc
    show Function.update a.stack call.thread call.kstack w = a.stack w
    apply Function.update_of_ne
    intro heq
    obtain ⟨_, _, hstands, _⟩ := (h.calls w call₁ hc).stands
    rw [heq, hrep.stack_fresh hfresh] at hstands
    exact hstands
  · exact fun _ _ _ _ => rfl
  · intro call₁ heq
    cases heq
    refine ⟨⟨hbegun', ⟨prio, fn, ?_, hpage.trans (k.page hbegun), fun _ => ?_⟩,
      fun _ => ⟨rfl, hoff, ?_⟩, fun _ => ?_⟩, ?_⟩
    · show StandsIn _ (Function.update a.stack call.thread call.kstack a.kernel.running)
      rw [hself, hthread]
      exact rfl
    · exact hkstack.trans (k.kstack hlaid)
    · intro eflags heq
      change (Function.update a.stack call.thread call.kstack a.kernel.running).head? = _ at heq
      rw [hself] at heq
      cases heq
    · rw [hthread]
      exact hfresh
    · rw [hthread]
      exact k.others
  · refine .half (Function.update_self ..) hhalf' (a := a)
      ⟨hinv, ⟨prio, fn, rest, x', ?_, ?_, ?_⟩, ?_, hoff⟩
    · rw [hthread]
      exact k.top
    · rw [hthread]
      exact hr'
    · rw [hthread, ← k.page hbegun, ← k.kstack hlaid]
      rfl
    · rw [hthread]
      exact hfresh

end CreateInv

/-- The second `list_append` completes what `thread_start` does in the machine. -/
theorem Halfway.appendAll {call : Creation P.Loc} {c c' : Config (LinkHeap ElemAddr) P}
    {a : Config Queues P} {f : Frame P.Loc} {rest : List (Frame P.Loc)} (ha : Halfway call c a)
    (htop : c.top = f :: rest) (he : OsKernel.appendAll call c = .ok c') :
    Represented (c'.setStack rest) ∧ Represented c' ∧
      c'.kernel.running = c.kernel.running ∧ c'.kernel.intr = c.kernel.intr ∧ c'.stack = c.stack ∧
      c'.history.created = Function.update c.history.created call.thread true := by
  obtain ⟨prio, fn, rest', x, htopa, hx, rfl⟩ := ha.entry
  have hinv := ha.sched
  have hne := hinv.running_ne ha.fresh
  -- the top of the stack is still that of the caller
  have hself : Function.update a.stack call.thread [.kernelThread, .prog fn] a.kernel.running =
      .threadStart call.thread prio fn :: rest' := (Function.update_of_ne hne ..).trans htopa
  cases (hself.symm.trans htop : Frame.threadStart call.thread prio fn :: rest' = f :: rest)
  obtain ⟨x', hx', hr'⟩ := listAppend_spec hx .all (allListTag_not_node hinv.partition ha.fresh)
  rw [Function.update_of_ne (by simp)] at hr'
  have heq : TaskLists.listAppend .all (.allListTag call.thread) x = .ok x' := hx'
  unfold OsKernel.appendAll at he
  change (TaskLists.listAppend .all (.allListTag call.thread) x >>= _) = _ at he
  rw [heq, ok_bind] at he
  cases he
  let k : Kernel Queues := { a.kernel with
    task := Function.update a.kernel.task call.thread (initThread false prio)
    lists := Function.update (Function.update a.kernel.lists .ready
        (a.kernel.lists .ready ++ [.generalTag call.thread]))
      .all (a.kernel.lists .all ++ [.allListTag call.thread]) }
  have hk : OsKernel.threadStart call.thread prio a.kernel = .ok k :=
    threadStart_eq prio hinv.partition ha.fresh
  have hstart := hinv.threadStart htopa ⟨ha.fresh, ha.off⟩ hk
  let stack : Tid → List (Frame P.Loc) :=
    Function.update a.stack call.thread [.kernelThread, .prog fn]
  have hcomm : Function.update (Function.update a.stack a.kernel.running rest) call.thread
      [.kernelThread, .prog fn] = Function.update stack a.kernel.running rest :=
    Function.update_comm hne _ _ _
  rw [hcomm] at hstart
  refine ⟨⟨_, hstart, x', rfl, hr'⟩, ?_, rfl, rfl, rfl, rfl⟩
  -- with the caller's frame still there
  have hcalls : (Frame.threadStart call.thread prio fn :: rest).IsChain Calls := by
    rw [← htopa]
    exact hinv.calls a.kernel.running
  have hpush := hstart.setStack (k := k) (m := a.mem) rfl rfl rfl rfl rfl hcalls fun f hf hr => by
    cases hf
    cases hr
  refine ⟨_, hpush, x', ?_, hr'⟩
  have hsame : Function.update (Function.update stack a.kernel.running rest) a.kernel.running
      (Frame.threadStart call.thread prio fn :: rest) = stack := by
    rw [Function.update_idem, ← hself, Function.update_eq_self]
  unfold Config.setStack Config.withLists
  rw [hsame]
  rfl

namespace CreateInv

variable {lenient : Bool} {s s' : CreateState (LinkHeap ElemAddr) P} {call call' : Creation P.Loc}
variable {prio : UInt8} {fn : P.Loc} {rest : List (Frame P.Loc)}

/-- A statement that changes the call only. -/
theorem goAhead (h : CreateInv lenient s) (k : Current lenient s call prio fn rest)
    (hbegun : call'.pc.begun = true) (hthread : call'.thread = call.thread)
    (hpage : call'.page = initThread false prio)
    (hkstack : call'.pc.laidOut = true → call'.kstack = [.kernelThread, .prog fn])
    (hshut : call'.pc.shut = call.pc.shut) (hdone : call.pc.done = false)
    (hhalf : call'.pc.half = call.pc.half) : CreateInv lenient (s.stay call') :=
  h.goOn k hbegun hthread hpage hkstack (fun hs => k.off (hshut ▸ hs)) hdone hhalf fun _ => rfl

/-- The call returns. -/
theorem finish (h : CreateInv lenient s) {c : Config (LinkHeap ElemAddr) P}
    (hrep : Represented (c.setStack rest)) (hrun : c.kernel.running = s.config.kernel.running)
    (hstack : c.stack = s.config.stack)
    (hcreated : ∀ w call', w ≠ s.config.kernel.running → s.creating w = some call' →
      c.history.created call'.thread = s.config.history.created call'.thread) :
    CreateInv lenient ({ s with config := c }.leave rest) := by
  have hleave : ({ s with config := c }.leave rest).creating =
      Function.update s.creating s.config.kernel.running none := by
    show Function.update s.creating c.kernel.running none = _
    rw [hrun]
  refine h.next hleave ?_ hcreated (fun _ => nofun) ?_
  · intro w _ hw _
    show Function.update c.stack c.kernel.running rest w = _
    rw [hrun, Function.update_of_ne hw, hstack]
  · refine .whole hrep fun call' hc => ?_
    change Function.update s.creating c.kernel.running none c.kernel.running = _ at hc
    rw [Function.update_self] at hc
    cases hc

/-- A statement of `thread_start`. -/
theorem threadStartStmt (h : CreateInv lenient s) {pc : ThreadStartPc}
    (k : Current lenient s call prio fn rest) (hpc : call.pc = .threadStart pc)
    (he : OsKernel.threadStartStmt prio fn rest call s pc = .ok s') : CreateInv lenient s' := by
  obtain ⟨thread, page, kstack, oldStatus, _⟩ := call
  cases hpc
  cases pc with
  | initThread =>
    cases he
    exact h.goAhead k rfl rfl rfl nofun rfl rfl rfl
  | threadCreate =>
    cases he
    exact h.goAhead k rfl rfl (k.page rfl) (fun _ => rfl) rfl rfl rfl
  | assertReady =>
    obtain ⟨_, _, he⟩ := bind_eq_ok.mp he
    obtain ⟨_, _, he⟩ := bind_eq_ok.mp he
    cases he
    exact h.goAhead k rfl rfl (k.page rfl) (fun _ => k.kstack rfl) rfl rfl rfl
  | assertAll =>
    obtain ⟨_, _, he⟩ := bind_eq_ok.mp he
    obtain ⟨_, _, he⟩ := bind_eq_ok.mp he
    cases he
    exact h.goAhead k rfl rfl (k.page rfl) (fun _ => k.kstack rfl) rfl rfl rfl
  | appendReady =>
    obtain ⟨c, hc, he⟩ := bind_eq_ok.mp he
    cases he
    exact h.appendReady k rfl rfl rfl rfl rfl rfl rfl rfl rfl rfl hc
  | appendAll =>
    obtain ⟨c, hc, he⟩ := bind_eq_ok.mp he
    cases he
    obtain ⟨a, ha⟩ := k.halfway rfl
    obtain ⟨hrep, _, hrun, _, hstack, hcreated⟩ := ha.appendAll k.top hc
    refine h.finish hrep hrun hstack fun w call' hw hcall => ?_
    rw [hcreated, Function.update_of_ne (k.others w call' hw hcall)]

/-- A statement of `process_execute`. -/
theorem processExecuteStmt (h : CreateInv lenient s) {pc : ProcessExecutePc}
    (k : Current lenient s call prio fn rest) (hpc : call.pc = .processExecute pc)
    (he : OsKernel.processExecuteStmt prio fn rest call s pc = .ok s') : CreateInv lenient s' := by
  obtain ⟨thread, page, kstack, oldStatus, _⟩ := call
  cases hpc
  cases pc with
  | initThread =>
    cases he
    exact h.goAhead k rfl rfl rfl nofun rfl rfl rfl
  | createUserVaddrBitmap =>
    cases he
    exact h.goAhead k rfl rfl (k.page rfl) nofun rfl rfl rfl
  | threadCreate =>
    cases he
    exact h.goAhead k rfl rfl (k.page rfl) (fun _ => rfl) rfl rfl rfl
  | createPageDir =>
    cases he
    exact h.goAhead k rfl rfl (k.page rfl) (fun _ => k.kstack rfl) rfl rfl rfl
  | blockDescInit =>
    cases he
    exact h.goAhead k rfl rfl (k.page rfl) (fun _ => k.kstack rfl) rfl rfl rfl
  | intrDisable =>
    cases he
    exact h.goOn k rfl rfl (k.page rfl) (fun _ => k.kstack rfl) (fun _ => rfl) rfl rfl nofun
  | assertReady =>
    obtain ⟨_, _, he⟩ := bind_eq_ok.mp he
    obtain ⟨_, _, he⟩ := bind_eq_ok.mp he
    cases he
    exact h.goAhead k rfl rfl (k.page rfl) (fun _ => k.kstack rfl) rfl rfl rfl
  | appendReady =>
    obtain ⟨c, hc, he⟩ := bind_eq_ok.mp he
    cases he
    exact h.appendReady k rfl rfl rfl rfl rfl rfl rfl rfl rfl rfl hc
  | assertAll =>
    obtain ⟨_, _, he⟩ := bind_eq_ok.mp he
    obtain ⟨_, _, he⟩ := bind_eq_ok.mp he
    cases he
    exact h.goAhead k rfl rfl (k.page rfl) (fun _ => k.kstack rfl) rfl rfl rfl
  | appendAll =>
    obtain ⟨c, hc, he⟩ := bind_eq_ok.mp he
    cases he
    obtain ⟨a, ha⟩ := k.halfway rfl
    obtain ⟨_, hrep, hrun, hintr, hstack, hcreated⟩ := ha.appendAll k.top hc
    let done : Creation P.Loc := ⟨thread, page, kstack, oldStatus, .processExecute .intrSetStatus⟩
    have hstay : ({ s with config := c }.stay done).creating =
        Function.update s.creating s.config.kernel.running (some done) := by
      show Function.update s.creating c.kernel.running _ = _
      rw [hrun]
    refine h.next hstay ?_ ?_ ?_ ?_
    · intro w _ _ _
      show c.stack w = _
      rw [hstack]
    · intro w call' hw hcall
      show c.history.created _ = _
      rw [hcreated, Function.update_of_ne (k.others w call' hw hcall)]
    · intro call₁ heq
      cases heq
      refine ⟨⟨rfl, ⟨prio, fn, ?_, k.page rfl, fun _ => k.kstack rfl⟩, fun _ => ⟨hrun.symm, ?_, ?_⟩,
        nofun⟩, k.others⟩
      · show StandsIn _ (c.stack s.config.kernel.running)
        rw [hstack]
        change StandsIn _ s.config.top
        rw [k.top]
        exact rfl
      · exact hintr.trans (k.off (Bool.and_false _))
      · intro eflags heq
        change (c.stack c.kernel.running).head? = _ at heq
        rw [hstack, hrun] at heq
        change s.config.top.head? = _ at heq
        rw [k.top] at heq
        cases heq
    · refine .whole hrep fun call₁ heq => ?_
      change Function.update s.creating c.kernel.running _ c.kernel.running = _ at heq
      rw [Function.update_self] at heq
      cases heq
      rfl
  | intrSetStatus =>
    cases he
    have hrep := k.whole rfl
    have hcalls := hrep.calls
    rw [k.top] at hcalls
    refine h.finish ?_ rfl rfl fun _ _ _ _ => rfl
    exact hrep.setStack hcalls.tail (not_runsOff_of_return hcalls nofun)

/-- An event outside the calls finds the running thread in none, or in one that may be
interrupted. -/
theorem outside (h : CreateInv lenient s) {c' : Config (LinkHeap ElemAddr) P}
    (hopen : ∀ call, s.creating s.config.kernel.running = some call →
      (lenient && !call.pc.shut) = true)
    (hrep : Represented s.config → Represented c') (hown : OwnStack s.config c')
    (hself : ∀ u prio fn, StandsIn (.threadStart u prio fn) s.config.top →
      StandsIn (.threadStart u prio fn) (c'.stack s.config.kernel.running)) :
    CreateInv lenient { s with config := c' } := by
  have hnone : ∀ w call, s.creating w = some call → (lenient && !call.pc.shut) = true := by
    intro w call hc
    cases hs : lenient && !call.pc.shut with
    | true => rfl
    | false =>
      have hw := ((h.calls w call hc).shut hs).1
      rw [hw] at hc
      exact hs.symm.trans (hopen call hc)
  have hhalf : ∀ w call, s.creating w = some call → call.pc.half = false := by
    intro w call hc
    have hs := (Bool.and_eq_true_iff.mp (hnone w call hc)).2
    cases hpc : call.pc with
    | threadStart pc =>
      rw [hpc] at hs
      cases hs
    | processExecute pc => cases pc <;> first | rfl | (rw [hpc] at hs; cases hs)
  refine ⟨fun w call hc => ?_, h.unique, .whole ?_ fun call hc => hhalf _ call hc⟩
  · have hold := h.calls w call hc
    refine ⟨hold.begun, ?_, fun hs => ?_, fun hd => ?_⟩
    · obtain ⟨prio, fn, hstands, hdata⟩ := hold.stands
      refine ⟨prio, fn, ?_, hdata⟩
      by_cases hw : w = s.config.kernel.running
      · subst hw
        exact hself _ _ _ hstands
      · show StandsIn _ (c'.stack w)
        rw [hown.stack w hw]
        exact hstands
    · rw [hnone w call hc] at hs
      cases hs
    · exact (congrFun hown.created _).trans (hold.fresh hd)
  · cases h.stage with
    | whole hrep₀ _ => exact hrep hrep₀
    | half hcall hpc _ =>
      rw [hhalf _ _ hcall] at hpc
      cases hpc

/-- A statement of a thread outside the two functions. -/
theorem execOther (h : CreateInv lenient s) {input : P.Input} {f : Frame P.Loc}
    {c' : Config (LinkHeap ElemAddr) P} (htop : s.config.top = f :: rest)
    (hf : ∀ u prio fn, f ≠ .threadStart u prio fn) (hg : FrameGuard s.config f)
    (he : exec input f rest s.config = .ok c') : CreateInv lenient { s with config := c' } := by
  have hstep : machineStep (.exec input) s.config = some (.ok c') := by
    unfold machineStep
    rw [htop]
    exact congrArg some he
  have hguard : SchedGuard s.config (.exec input) := by
    intro g hg'
    rw [htop] at hg'
    cases hg'
    exact hg
  refine h.outside ?_ (fun hrep => hrep.step hguard hstep) (exec_ownStack hf he) ?_
  · intro call hc
    have hinv := h.calls _ call hc
    cases hs : lenient && !call.pc.shut with
    | true => rfl
    | false =>
      -- such a call is on top of its stack
      obtain ⟨_, _, hnot⟩ := hinv.shut hs
      obtain ⟨prio, fn, hstands, _⟩ := hinv.stands
      change StandsIn _ s.config.top at hstands
      rw [htop] at hstands hnot
      cases f with
      | intrExit eflags => exact absurd rfl (hnot eflags)
      | _ => exact absurd hstands (hf _ _ _)
  · intro u prio fn hstands
    rw [htop] at hstands
    cases f with
    | intrExit eflags =>
      cases he
      show StandsIn _ (Function.update s.config.stack s.config.kernel.running rest _)
      rw [Function.update_self]
      exact hstands
    | _ => exact absurd hstands (hf _ _ _)

/-- The timer interrupt. -/
theorem timer (h : CreateInv lenient s) {c' : Config (LinkHeap ElemAddr) P}
    (hs : machineStep .timer s.config = some (.ok c')) :
    CreateInv lenient { s with config := c' } := by
  have hon : s.config.kernel.intr = .on := by
    unfold machineStep at hs
    dsimp only at hs
    split at hs
    · next hon => exact hon
    · cases hs
  have hstack : c'.history.created = s.config.history.created ∧
      c'.stack = Function.update s.config.stack s.config.kernel.running
        (.intrExit s.config.kernel.intr :: s.config.top) := by
    unfold machineStep at hs
    dsimp only at hs
    rw [if_pos hon] at hs
    obtain ⟨k, _, he⟩ := bind_eq_ok.mp (Option.some.inj hs)
    cases he
    exact ⟨rfl, rfl⟩
  refine h.outside ?_ (fun hrep => hrep.step (e := .timer) trivial hs)
    (.of_update hstack.2 hstack.1) ?_
  · intro call hc
    cases hshut : lenient && !call.pc.shut with
    | true => rfl
    | false =>
      have := ((h.calls _ call hc).shut hshut).2.1
      rw [hon] at this
      cases this
  · intro u prio fn hstands
    rw [hstack.2, Function.update_self]
    exact hstands

/-- **One event keeps the invariant.** -/
theorem step (h : CreateInv lenient s) {process : P.Loc → Bool} {e : Event P}
    (hpage : PageGuard s e) (hoff : EntryOff process lenient s e)
    (hs : createStep process e s = some (.ok s')) : CreateInv lenient s' := by
  cases e with
  | device input => cases hs
  | timer =>
    unfold createStep at hs
    dsimp only at hs
    cases hm : machineStep .timer s.config with
    | none =>
      rw [hm] at hs
      cases hs
    | some out =>
      rw [hm] at hs
      cases out with
      | error p => cases hs
      | ok c =>
        cases hs
        exact h.timer hm
  | exec input =>
    unfold createStep at hs
    dsimp only at hs
    cases htop : s.config.top with
    | nil =>
      rw [htop] at hs
      unfold machineStep at hs
      rw [htop] at hs
      cases hs
    | cons f rest =>
      rw [htop] at hs
      have hpage' := hpage f (by rw [htop]; rfl)
      have hoff' := hoff f (by rw [htop]; rfl)
      by_cases hstart : ∃ u prio fn, f = .threadStart u prio fn
      · obtain ⟨thread, prio, fn, rfl⟩ := hstart
        have he := Option.some.inj hs
        have hcur : Current lenient s ((s.creating s.config.kernel.running).getD
            (enterCreation process thread fn s)) prio fn rest := by
          cases hc : s.creating s.config.kernel.running with
          | none => exact h.enter htop hc (hpage' hc).1 (hpage' hc).2 (hoff' hc)
          | some call => exact h.current htop hc
        generalize (s.creating s.config.kernel.running).getD _ = call at he hcur
        unfold createStmt at he
        split at he
        · next pc hpc => exact h.threadStartStmt hcur hpc he
        · next pc hpc => exact h.processExecuteStmt hcur hpc he
      · have hf : ∀ u prio fn, f ≠ .threadStart u prio fn :=
          fun u prio fn heq => hstart ⟨u, prio, fn, heq⟩
        have hg : FrameGuard s.config f := by
          cases f with
          | threadStart u prio fn => exact absurd rfl (hf u prio fn)
          | threadUnblock pthread => exact hpage'
          | _ => trivial
        have hm : machineStep (.exec input) s.config = some (exec input f rest s.config) := by
          unfold machineStep
          rw [htop]
        rw [hm] at hs
        cases he : exec input f rest s.config with
        | error p =>
          rw [he] at hs
          cases f with
          | threadStart u prio fn => exact absurd rfl (hf u prio fn)
          | _ => cases hs
        | ok c =>
          have hs' : s' = { s with config := c } := by
            rw [he] at hs
            cases f with
            | threadStart u prio fn => exact absurd rfl (hf u prio fn)
            | _ =>
              cases hs
              rfl
          rw [hs']
          exact h.execOther htop hf hg he

/-- Right after `thread_init`. -/
theorem boot {process : P.Loc → Bool} (hb : (createMachine process).init s) :
    CreateInv lenient s := by
  have hnone : ∀ w, s.creating w = none := congrFun hb.2
  refine ⟨fun w call hc => ?_, fun w _ call _ hc => ?_, .whole (.boot hb.1) fun call hc => ?_⟩
  · rw [hnone] at hc
    cases hc
  · rw [hnone] at hc
    cases hc
  · rw [hnone] at hc
    cases hc

/-- **Every reachable state satisfies the invariant.** -/
theorem reach {process : P.Loc → Bool} : ∀ s : CreateState (LinkHeap ElemAddr) P,
    (createMachine process).Reach (fun s e => PageGuard s e ∧ EntryOff process lenient s e) s →
      CreateInv lenient s :=
  System.Reach.invariant (fun _ hb => boot hb) fun _ _ _ _ hinv hg hs => hinv.step hg.1 hg.2 hs

/-! ### The law -/

/-- A thread that is being created is shielded, or `process_execute` still owns its page. -/
theorem private_of_call (h : CreateInv lenient s) {w : Tid} (hc : s.creating w = some call)
    (hnot : ¬ s.Shielded call.thread) : lenient = true ∧ s.Private call.thread := by
  have hinv := h.calls w call hc
  cases hs : lenient && !call.pc.shut with
  | false =>
    obtain ⟨hw, hoff, _⟩ := hinv.shut hs
    exact absurd ⟨hoff, call, hw ▸ hc, rfl⟩ hnot
  | true =>
    obtain ⟨hl, hshut⟩ := Bool.and_eq_true_iff.mp hs
    have hbegun := hinv.begun
    refine ⟨hl, ?_⟩
    cases hpc : call.pc with
    | threadStart pc =>
      rw [hpc] at hshut
      cases hshut
    | processExecute pc =>
      refine ⟨w, call, pc, hc, rfl, hpc, ?_⟩
      rw [hpc] at hshut hbegun
      cases pc with
      | initThread => cases hbegun
      | createUserVaddrBitmap => simp
      | threadCreate => simp
      | createPageDir => simp
      | blockDescInit => simp
      | intrDisable => simp
      | _ => cases hshut

/-- The invariant gives the law. -/
theorem law (h : CreateInv lenient s) :
    CreationLaw s fun t => lenient = true ∧ s.Private t := by
  have hstatus : ∀ t (Q : Queues), ¬ s.Shielded t →
      (s.config.history.created t = true → s.config.kernel.status t = .ready →
        .generalTag t ∈ Q .ready) →
      s.HasStatus t .ready → .generalTag t ∈ Q .ready ∨ lenient = true ∧ s.Private t := by
    intro t Q hnot hcreated hstat
    rcases hstat with ⟨hc, hready⟩ | ⟨w, call, hc, rfl, _⟩
    · exact Or.inl (hcreated hc hready)
    · exact Or.inr (h.private_of_call hc hnot)
  cases h.stage with
  | whole hrep _ =>
    obtain ⟨a, hinv, x, hconfig, hr⟩ := hrep
    have hp := hinv.partition
    have hall : ∀ t, a.history.created t = true →
        (a.kernel.lists .all).count (.allListTag t) = 1 := by
      intro t ht
      exact List.count_eq_one_of_mem (hp.nodup .all) ((hp.all_iff _).mpr ⟨t, rfl, ht⟩)
    refine ⟨a.kernel.lists, by rw [hconfig]; exact hr, fun t hnot => ⟨fun ht => ?_, ?_⟩⟩
    · rcases ht with hready | hrun
      · exact hall t (hp.mem_ready hready).1
      · rw [hconfig] at hrun
        exact hall t (hrun ▸ hinv.running_created)
    · refine hstatus t _ hnot fun hc hready => ?_
      rw [hconfig] at hc hready
      exact (hp.ready_iff _).mpr ⟨t, rfl, hc, hready⟩
  | @half call a hcall _ ha =>
    obtain ⟨prio, fn, rest, x, _, hr, hconfig⟩ := ha.entry
    have hp := ha.sched.partition
    have hne : ∀ t, ¬ s.Shielded t → t ≠ call.thread := by
      intro t hnot heq
      refine hnot ⟨?_, call, hcall, heq.symm⟩
      rw [hconfig]
      exact ha.off
    have hmem : ∀ t, t ≠ call.thread →
        (ElemAddr.generalTag t ∈ Function.update a.kernel.lists .ready
          (a.kernel.lists .ready ++ [.generalTag call.thread]) .ready ↔
            .generalTag t ∈ a.kernel.lists .ready) := by
      intro t ht
      simp [ht]
    refine ⟨_, by rw [hconfig]; exact hr, fun t hnot => ⟨fun ht => ?_, ?_⟩⟩
    · rw [Function.update_of_ne (by simp)]
      refine List.count_eq_one_of_mem (hp.nodup .all) ((hp.all_iff _).mpr ⟨t, rfl, ?_⟩)
      rcases ht with hready | hrun
      · exact (hp.mem_ready ((hmem t (hne t hnot)).mp hready)).1
      · rw [hconfig] at hrun
        exact hrun ▸ ha.sched.running_created
    · refine hstatus t _ hnot fun hc hready => (hmem t (hne t hnot)).mpr ?_
      rw [hconfig] at hc hready
      refine (hp.ready_iff _).mpr ⟨t, rfl, hc, ?_⟩
      -- the other threads' PCBs are as they were
      change (Function.update a.kernel.task call.thread _ t).status = _ at hready
      rw [Function.update_of_ne (hne t hnot)] at hready
      exact hready

end CreateInv

theorem CreationLaw.mono {s : CreateState (LinkHeap ElemAddr) P} {exempt exempt' : Tid → Prop}
    (h : CreationLaw s exempt) (hle : ∀ t, exempt t → exempt' t) : CreationLaw s exempt' := by
  obtain ⟨Q, hr, hlaw⟩ := h
  exact ⟨Q, hr, fun t hnot => ⟨(hlaw t hnot).1, fun hs => ((hlaw t hnot).2 hs).imp id (hle t)⟩⟩

/-- **Creation is atomic for the scheduler's lists** in every run in which the two functions are
entered with interrupts off. If `process_execute` may be entered with interrupts on, the one
exception are the threads whose pages it still fills in: they are `TASK_READY` and in no list. -/
theorem creation_atomic (process : P.Loc → Bool) (s : CreateState (LinkHeap ElemAddr) P) :
    ((createMachine process).Reach (fun s e => PageGuard s e ∧ EntryOff process false s e) s →
      CreationLaw s fun _ => False) ∧
    ((createMachine process).Reach (fun s e => PageGuard s e ∧ EntryOff process true s e) s →
      CreationLaw s s.Private) := by
  refine ⟨fun h => ?_, fun h => ?_⟩
  · exact (CreateInv.reach s h).law.mono fun _ hex => Bool.noConfusion hex.1
  · exact (CreateInv.reach s h).law.mono fun _ hex => hex.2

/-- The main thread as the caller, right after `thread_init`. -/
private theorem creating_booted {process : Nat → Bool} {calls : List (Call Nat)} (intr : IntrStatus)
    {c : Config (LinkHeap ElemAddr) (scripted calls)}
    (h : bootConfig (P := scripted calls) 1 intr (fun _ => 1) () (0 : Nat) = .ok c) :
    (createMachine (P := scripted calls) process).init ⟨c, fun _ => none⟩ :=
  ⟨bootConfig_booted _ _ _ _ _ h, rfl⟩

/-- `thread_start` between its two calls of `list_append` with interrupts off, and
`process_execute` interrupted by the timer while it fills in the page. -/
theorem creation_atomic_two :
    (∃ s : CreateState (LinkHeap ElemAddr) (scripted [.threadStart 2 31 1]),
      s.Shielded 2 ∧ CreationLaw s fun _ => False) ∧
    ∃ s : CreateState (LinkHeap ElemAddr) (scripted [.threadStart 2 31 1]),
      s.Private 2 ∧ CreationLaw s s.Private := by
  refine ⟨?_, ?_⟩
  · have h : (createMachine (P := scripted [.threadStart 2 31 1]) fun _ => false).Reach
        (fun s e => PageGuard s e ∧ EntryOff (fun _ => false) false s e) _ :=
      .init (creating_booted .off rfl)
    have h := h.step (e := .exec ())
      (by exact ⟨by rintro f ⟨⟩; trivial, by rintro f ⟨⟩; trivial⟩) rfl
    have h := h.step (e := .exec ())
      (by exact ⟨by rintro f ⟨⟩ _; exact ⟨rfl, fun _ _ => nofun⟩, by rintro f ⟨⟩ _ _; rfl⟩) rfl
    have h := h.step (e := .exec ())
      (by exact ⟨by rintro f ⟨⟩ ⟨⟩, by rintro f ⟨⟩ ⟨⟩⟩) rfl
    have h := h.step (e := .exec ())
      (by exact ⟨by rintro f ⟨⟩ ⟨⟩, by rintro f ⟨⟩ ⟨⟩⟩) rfl
    have h := h.step (e := .exec ())
      (by exact ⟨by rintro f ⟨⟩ ⟨⟩, by rintro f ⟨⟩ ⟨⟩⟩) rfl
    have h := h.step (e := .exec ())
      (by exact ⟨by rintro f ⟨⟩ ⟨⟩, by rintro f ⟨⟩ ⟨⟩⟩) rfl
    exact ⟨_, ⟨rfl, _, rfl, rfl⟩, (creation_atomic _ _).1 h⟩
  · have h : (createMachine (P := scripted [.threadStart 2 31 1]) fun _ => true).Reach
        (fun s e => PageGuard s e ∧ EntryOff (fun _ => true) true s e) _ :=
      .init (creating_booted .on rfl)
    have h := h.step (e := .exec ())
      (by exact ⟨by rintro f ⟨⟩; trivial, by rintro f ⟨⟩; trivial⟩) rfl
    have h := h.step (e := .exec ())
      (by exact ⟨by rintro f ⟨⟩ _; exact ⟨rfl, fun _ _ => nofun⟩, by rintro f ⟨⟩ _ ⟨⟩⟩) rfl
    have h := h.step (e := .timer) (by exact ⟨trivial, trivial⟩) rfl
    exact ⟨_, ⟨1, _, _, rfl, rfl, rfl, by simp⟩, (creation_atomic _ _).2 h⟩

/-- **Interrupts on break the law at once**: after the first statement of either function the new
thread is `TASK_READY`, nobody shields it, and it is in no list. -/
theorem creation_exposed {process : P.Loc → Bool} {s s' : CreateState (LinkHeap ElemAddr) P}
    (hs : (createMachine process).Reach (fun s e => PageGuard s e ∧ EntryOff process true s e) s)
    {thread : Tid} {prio : UInt8} {fn : P.Loc} {rest : List (Frame P.Loc)} {input : P.Input}
    (htop : s.config.top = .threadStart thread prio fn :: rest)
    (hnone : s.creating s.config.kernel.running = none) (hpage : PageGuard s (.exec input))
    (hon : s.config.kernel.intr = .on) (he : createStep process (.exec input) s = some (.ok s')) :
    ¬ CreationLaw s' fun _ => False := by
  have hhead : Frame.threadStart thread prio fn ∈ s.config.top.head? := by rw [htop]; rfl
  have hfresh : s.config.history.created thread = false := (hpage _ hhead hnone).1
  -- the statement is `init_thread`: it writes the page and nothing else
  obtain ⟨call, hstay, hthread, hstat⟩ : ∃ call, s' = s.stay call ∧ call.thread = thread ∧
      (call.pc.handedOver = false ∧ call.page.status = .ready) := by
    unfold createStep at he
    dsimp only at he
    rw [htop, hnone] at he
    cases hp : process fn with
    | false =>
      simp [createStmt, enterCreation, hp, threadStartStmt] at he
      exact ⟨_, he.symm, rfl, rfl, rfl⟩
    | true =>
      simp [createStmt, enterCreation, hp, processExecuteStmt] at he
      exact ⟨_, he.symm, rfl, rfl, rfl⟩
  subst hstay
  intro ⟨Q, hr, hlaw⟩
  have hcall : (s.stay call).creating s.config.kernel.running = some call := Function.update_self ..
  have hready := (hlaw thread fun hsh => by
    have hoff : s.config.kernel.intr = .off := hsh.1
    rw [hon] at hoff
    cases hoff).2 (.inr ⟨_, call, hcall, hthread, by rw [hstat.1]; exact hstat.2⟩)
  -- but the thread is in no list of the scheduler
  have hrep : Represented s.config := by
    cases (CreateInv.reach s hs).stage with
    | whole hrep _ => exact hrep
    | half hcall' _ _ =>
      rw [hnone] at hcall'
      cases hcall'
  obtain ⟨a, hinv, x, hconfig, hr'⟩ := hrep
  have hQ : Q = a.kernel.lists := by
    have hr'' : Holds s.config.kernel.lists a.kernel.lists := by
      rw [hconfig]
      exact hr'
    exact Represents.unique hr hr''
  rw [hQ] at hready
  rw [hconfig] at hfresh
  exact hready.elim (generalTag_new hinv.partition hfresh .ready) id

/-- The law fails where a thread runs whose tag was never linked. -/
theorem not_law_of_unlinked {s : CreateState (LinkHeap ElemAddr) P} {exempt : Tid → Prop}
    (hnone : s.creating s.config.kernel.running = none)
    (hfree : (s.config.kernel.lists.get (.allListTag s.config.kernel.running)).next = none) :
    ¬ CreationLaw s exempt := by
  intro ⟨Q, hr, hlaw⟩
  have hnot : ¬ s.Shielded s.config.kernel.running := by
    intro ⟨_, call, hcall, _⟩
    rw [hnone] at hcall
    cases hcall
  have hmem : ElemAddr.allListTag s.config.kernel.running ∈ Q .all := by
    apply List.count_pos_iff.mp
    rw [(hlaw _ hnot).1 (.inr rfl)]
    exact Nat.one_pos
  obtain ⟨z, hz⟩ := (hr.dlist .all).next_of_mem hmem
  have hz' : (s.config.kernel.lists.get (.allListTag s.config.kernel.running)).next = some z := hz
  rw [hfree] at hz'
  cases hz'

/-- Thread 2 is started with interrupts on, and the timer comes between the two calls of
`list_append`: thread 2 runs and is not in the list of all threads. -/
theorem creation_preempted :
    ∃ s : CreateState (LinkHeap ElemAddr) (scripted [.threadStart 2 31 1]),
      (createMachine fun _ => false).Reach PageGuard s ∧ s.config.kernel.running = 2 ∧
      ¬ CreationLaw s fun _ => False := by
  have h : (createMachine (P := scripted [.threadStart 2 31 1]) fun _ => false).Reach
      PageGuard _ := .init (creating_booted .on rfl)
  have h := h.step (e := .exec ()) (by rintro f ⟨⟩; trivial) rfl
  have h := h.step (e := .exec ()) (by rintro f ⟨⟩ _; exact ⟨rfl, fun _ _ => nofun⟩) rfl
  have h := h.step (e := .exec ()) (by rintro f ⟨⟩ ⟨⟩) rfl
  have h := h.step (e := .exec ()) (by rintro f ⟨⟩ ⟨⟩) rfl
  have h := h.step (e := .exec ()) (by rintro f ⟨⟩ ⟨⟩) rfl
  have h := h.step (e := .exec ()) (by rintro f ⟨⟩ ⟨⟩) rfl
  have h := h.step (e := .timer) (by trivial) rfl
  exact ⟨_, h, rfl, not_law_of_unlinked rfl rfl⟩

end OsKernel
