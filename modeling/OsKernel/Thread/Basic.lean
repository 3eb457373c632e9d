import OsKernel.Kernel.IntrusiveList

/-!
# Threads and the lists they stand in

The data of thread/thread.h and thread/sync.h that the scheduler and the semaphores work on. A
thread is named by the address of its PCB page. The lists of the kernel (the ready list, the list
of all threads and one wait list per semaphore) share the two `struct list_elem`s of each PCB.

The functions of thread.c and sync.c are written once, over any store of lists that offers the
operations of list.c (`TaskLists`). Two stores are used: `LinkHeap ElemAddr`, the pointers that
list.c really works on, and `Queues`, which keeps each list as the sequence of its members.
-/

namespace OsKernel

open Lib

/-- `enum intr_status` -/
inductive IntrStatus where
  | on
  | off
deriving DecidableEq, Repr

/-- `enum task_status` -/
inductive TaskStatus where
  | running
  | ready
  | blocked
  | waiting
  | hanging
  | died
deriving DecidableEq, Repr

/-- The three statuses in which a thread may block itself and from which it may be unblocked. -/
def TaskStatus.isBlocked : TaskStatus → Bool
  | .blocked | .waiting | .hanging => true
  | _ => false

/-- A `struct task_struct*`: the address of the PCB page. -/
abbrev Tid := Nat

/-- The fields of `struct task_struct` that the scheduler, the semaphores and the timer use. The
kernel stack is modelled by the machine's call stacks. -/
structure TaskStruct where
  status : TaskStatus
  priority : UInt8
  ticks : UInt8
  elapsedTicks : UInt32
  stackMagic : UInt32
deriving DecidableEq, Repr

/-- A `struct semaphore*`: the semaphore inside a lock, or one that stands alone. -/
inductive SemaRef where
  | inLock (plock : Nat)
  | bare (psema : Nat)
deriving DecidableEq, Repr

/-- The lists of the kernel. -/
inductive ListRef where
  /-- `thread_ready_list` -/
  | ready
  /-- `thread_all_list` -/
  | all
  /-- `psema->waiters` -/
  | waiters (psema : SemaRef)
deriving DecidableEq, Repr

/-- The addresses of `struct list_elem`s: the sentinels of the lists and the two tags of a PCB. -/
inductive ElemAddr where
  | head (q : ListRef)
  | tail (q : ListRef)
  | generalTag (t : Tid)
  | allListTag (t : Tid)
deriving DecidableEq, Repr

/-- The sentinels of a list. -/
def ListRef.ends (q : ListRef) : ListEnds ElemAddr := ⟨.head q, .tail q⟩

/-- At the start every list is as `list_init` leaves it and no tag is linked. -/
instance : StartLinks ElemAddr where
  startLink
    | .head q => ⟨none, some (.tail q)⟩
    | .tail q => ⟨some (.head q), none⟩
    | .generalTag _ | .allListTag _ => ⟨none, none⟩

/-- The cells of a list before the first write are what `list_init` writes into them. -/
theorem startLink_listInit (q : ListRef) (h : LinkHeap ElemAddr) :
    (listInit q.ends h).get (.head q) = StartLinks.startLink (.head q) ∧
      (listInit q.ends h).get (.tail q) = StartLinks.startLink (.tail q) := by
  have hl := listInit_spec (p := q.ends) (by simp [ListRef.ends]) h
  have hlink : Linked (listInit q.ends h) (.head q) (.tail q) := by
    simpa [ListRef.ends] using hl.chain
  exact ⟨congrArg₂ Link.mk hl.head_prev hlink.1, congrArg₂ Link.mk hlink.2 hl.tail_next⟩

/-- `elem2entry(struct task_struct, general_tag, p)`. For a pointer to anything else than a
`general_tag` the result is the address of no PCB. -/
def elem2entry : Option ElemAddr → Except Panic Tid
  | some (.generalTag t) => .ok t
  | _ => .error .wildPointer

/-! ## Stores of lists -/

/-- A store of the kernel's lists with the operations of list.c. -/
class TaskLists (H : Type) where
  /-- every list as `list_init` leaves it -/
  start : H
  listAppend : ListRef → ElemAddr → H → Except Panic H
  listPush : ListRef → ElemAddr → H → Except Panic H
  listPop : ListRef → H → Except Panic (Option ElemAddr × H)
  elemFind : ListRef → ElemAddr → H → Except Panic Bool
  listEmpty : ListRef → H → Bool

/-- The code's own store: linked cells and list.c. -/
instance : TaskLists (LinkHeap ElemAddr) where
  start := ⟨[]⟩
  listAppend q := OsKernel.listAppend q.ends
  listPush q := OsKernel.listPush q.ends
  listPop q := OsKernel.listPop q.ends
  elemFind q := OsKernel.elemFind q.ends
  listEmpty q := OsKernel.listEmpty q.ends

/-- The abstract store: each list is the sequence of its members. -/
abbrev Queues := ListRef → List ElemAddr

instance : TaskLists Queues where
  start := fun _ => []
  listAppend q e Q := .ok (Function.update Q q (Q q ++ [e]))
  listPush q e Q := .ok (Function.update Q q (e :: Q q))
  listPop q Q :=
    match Q q with
    | [] => .ok (some (.tail q), Q)
    | e :: es => .ok (some e, Function.update Q q es)
  elemFind q e Q := .ok (decide (e ∈ Q q))
  listEmpty q Q := decide (Q q = [])

section QueuesLemmas

variable (q : ListRef) (e : ElemAddr) (Q : Queues)

@[simp] theorem Queues.listAppend_eq :
    TaskLists.listAppend q e Q = .ok (Function.update Q q (Q q ++ [e])) := rfl

@[simp] theorem Queues.listPush_eq :
    TaskLists.listPush q e Q = .ok (Function.update Q q (e :: Q q)) := rfl

@[simp] theorem Queues.elemFind_eq :
    TaskLists.elemFind q e Q = .ok (decide (e ∈ Q q)) := rfl

@[simp] theorem Queues.listEmpty_eq : TaskLists.listEmpty q Q = decide (Q q = []) := rfl

theorem Queues.listPop_cons {q : ListRef} {Q : Queues} {e : ElemAddr} {es : List ElemAddr}
    (h : Q q = e :: es) :
    TaskLists.listPop q Q = .ok (some e, Function.update Q q es) := by
  simp [TaskLists.listPop, h]

end QueuesLemmas

/-! ## Semaphores, locks and the state of the thread code -/

/-- Write one entry of a function of two arguments. -/
def update₂ {α β γ : Type} [DecidableEq α] [DecidableEq β] (f : α → β → γ) (a : α) (b : β)
    (v : γ) : α → β → γ :=
  Function.update f a (Function.update (f a) b v)

theorem update₂_apply {α β γ : Type} [DecidableEq α] [DecidableEq β] (f : α → β → γ)
    (a x : α) (b y : β) (v : γ) :
    update₂ f a b v x y = if x = a ∧ y = b then v else f x y := by
  unfold update₂
  by_cases hx : x = a
  · subst hx
    by_cases hy : y = b
    · simp [hy]
    · simp [hy]
  · simp [hx]

theorem update₂_of_ne {α β γ : Type} [DecidableEq α] [DecidableEq β] (f : α → β → γ)
    {a x : α} (h : x ≠ a) (b : β) (v : γ) : update₂ f a b v x = f x :=
  Function.update_of_ne h _ _

/-- What thread.c and sync.c read and write: the interrupt flag, the thread whose kernel stack
`esp` points into (`running_thread()`), the PCBs, the lists, the semaphores' values, the locks'
other two fields, and the timer's `ticks`. -/
structure Kernel (H : Type) where
  intr : IntrStatus
  running : Tid
  task : Tid → TaskStruct
  lists : H
  value : SemaRef → UInt8
  holder : Nat → Option Tid
  holderRepeatNr : Nat → UInt32
  ticks : UInt32

variable {H : Type}

/-- `t->status = stat` -/
def Kernel.setStatus (k : Kernel H) (t : Tid) (stat : TaskStatus) : Kernel H :=
  { k with task := Function.update k.task t { k.task t with status := stat } }

@[simp] theorem Kernel.setStatus_running (k : Kernel H) (t : Tid) (stat : TaskStatus) :
    (k.setStatus t stat).running = k.running := rfl

@[simp] theorem Kernel.setStatus_lists (k : Kernel H) (t : Tid) (stat : TaskStatus) :
    (k.setStatus t stat).lists = k.lists := rfl

@[simp] theorem Kernel.setStatus_intr (k : Kernel H) (t : Tid) (stat : TaskStatus) :
    (k.setStatus t stat).intr = k.intr := rfl

theorem Kernel.setStatus_status (k : Kernel H) (t u : Tid) (stat : TaskStatus) :
    ((k.setStatus t stat).task u).status = if u = t then stat else (k.task u).status := by
  by_cases h : u = t
  · subst h; simp [setStatus]
  · simp [setStatus, h]

end OsKernel
