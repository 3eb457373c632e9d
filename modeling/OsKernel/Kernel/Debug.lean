import Mathlib

/-!
# Ways the kernel stops

`ASSERT(c)` calls `panic_spin` when `c` is false: interrupts go off, a message is printed and the
machine spins for ever. Each assertion site of the modelled sources is one constructor, named by
the function and the condition it tests. More constructors stand for what the machine does when
code leaves its defined behaviour: following a pointer that leads nowhere, and the exceptions,
whose handlers spin as well.
-/

namespace OsKernel

/-- Reasons for which a run of the kernel ends. -/
inductive Panic where
  -- lib/kernel/list.c
  /-- `list_insert_before`: `before != NULL && before->prev != NULL && elem != NULL` -/
  | listInsertBefore
  /-- `list_remove`: `elem != NULL` -/
  | listRemove
  -- thread/thread.c
  /-- `schedule`: `intr_get_status() == INTR_OFF` -/
  | scheduleIntrOff
  /-- `schedule`: `!elem_find(&thread_ready_list, &cur->general_tag)` -/
  | scheduleNotReady
  /-- `schedule`: `!list_empty(&thread_ready_list)` -/
  | scheduleReadyEmpty
  /-- `thread_block`: the status is one of the three blocked ones -/
  | threadBlockStat
  /-- `thread_unblock`: the status is one of the three blocked ones -/
  | threadUnblockStat
  /-- `thread_unblock`: `!elem_find(&thread_ready_list, &pthread->general_tag)` -/
  | threadUnblockNotReady
  /-- `thread_start`: `!elem_find(&thread_ready_list, &thread->general_tag)` -/
  | threadStartNotReady
  /-- `thread_start`: `!elem_find(&thread_all_list, &thread->general_tag)` -/
  | threadStartNotAll
  /-- `make_main_thread`: `!elem_find(&thread_all_list, &main_thread->all_list_tag)` -/
  | makeMainThreadNotAll
  -- thread/sync.c
  /-- `sema_down`: `!elem_find(&psema->waiters, &running_thread()->general_tag)` -/
  | semaDownNotWaiting
  /-- `sema_down`: `psema->value == 0` after the decrement -/
  | semaDownValue
  /-- `sema_up`: `psema->value == 0` before the increment -/
  | semaUpZero
  /-- `sema_up`: `psema->value == 1` after the increment -/
  | semaUpOne
  /-- `lock_acquire`: `plock->holder_repeat_nr == 0` -/
  | lockAcquireRepeatNr
  /-- `lock_release`: `plock->holder == running_thread()` -/
  | lockReleaseHolder
  /-- `lock_release`: `plock->holder_repeat_nr == 1` -/
  | lockReleaseRepeatNr
  -- device/timer.c
  /-- `intr_timer_handler`: `cur_thread->stack_magic == 0x12345678` -/
  | timerStackMagic
  -- device/ioqueue.c
  /-- `ioq_full`: `intr_get_status() == INTR_OFF` -/
  | ioqFullIntrOff
  /-- `ioq_empty`: `intr_get_status() == INTR_OFF` -/
  | ioqEmptyIntrOff
  /-- `ioq_wait`: `waiter != NULL && *waiter != NULL` -/
  | ioqWaitWaiter
  /-- `wakeup`: `waiter != NULL && *waiter != NULL` -/
  | wakeupWaiter
  /-- `ioq_getchar`: `intr_get_status() == INTR_OFF` -/
  | ioqGetcharIntrOff
  /-- `ioq_putchar`: `intr_get_status() == INTR_OFF` -/
  | ioqPutcharIntrOff
  -- lib/kernel/bitmap.c and kernel/memory.c
  /-- `bitmap_set`: `val == 0 || val == 1` -/
  | bitmapSetVal
  /-- `bitmap_set`: `byte_idx < btmp->btmp_bytes_len` -/
  | bitmapSetIndex
  /-- `vaddr_get`: `(uint32_t)vaddr_start < (0xc0000000 - PG_SIZE)` -/
  | vaddrGetUser
  /-- `page_table_add`: `_vaddr != NULL` -/
  | pageTableAddVaddr
  /-- `page_table_add`: `_page_phyaddr != NULL` -/
  | pageTableAddPhyaddr
  /-- `page_table_add`: `!(*pte & 0x01)` -/
  | pageTableAddPte
  /-- `malloc_page`: `pg_cnt > 0 && pg_cnt < 3840` -/
  | mallocPageCnt
  /-- `get_a_page`: its `PANIC` -/
  | getAPageKind
  /-- `get_a_page`: `bit_idx > 0` -/
  | getAPageBitIdx
  /-- `memset`: `dst_ != NULL` -/
  | memsetDst
  /-- `memcpy`: `dst_ != NULL && src_ != NULL` -/
  | memcpyArgs
  -- lib/string.c
  /-- `strcpy`: `dst_ != NULL && src_ != NULL` -/
  | strcpyArgs
  /-- `strlen`: `str != NULL` -/
  | strlenStr
  /-- `strcmp`: `a != NULL && b != NULL` -/
  | strcmpArgs
  /-- `strchr`: `str != NULL` -/
  | strchrStr
  /-- `strrchr`: `str != NULL` -/
  | strrchrStr
  /-- `strcat`: `dst_ != NULL && src != NULL` -/
  | strcatArgs
  /-- `strchrs`: `str != NULL` -/
  | strchrsStr
  -- userprog/process.c
  /-- `process_execute`: `!elem_find(&thread_ready_list, &thread->general_tag)` -/
  | processExecuteNotReady
  /-- `process_execute`: `!elem_find(&thread_all_list, &thread->all_list_tag)` -/
  | processExecuteNotAll
  -- outside the defined behaviour of the C code
  /-- A pointer that leads nowhere is followed, or a list or the memory is walked for ever. -/
  | wildPointer
  /-- A virtual address without a mapping is accessed. -/
  | pageFault
  /-- An offset beyond the limit of its segment is accessed. -/
  | generalProtection
deriving DecidableEq, Repr

/-- `ASSERT(c)`. -/
def assert (c : Bool) (p : Panic) : Except Panic Unit :=
  if c then .ok () else .error p

@[simp] theorem assert_true (p : Panic) : assert true p = .ok () := rfl

@[simp] theorem assert_false (p : Panic) : assert false p = .error p := rfl

/-! ## Peeling computations apart -/

section Bind

variable {α β : Type}

@[simp] theorem pure_eq_ok (a : α) : (pure a : Except Panic α) = .ok a := rfl

@[simp] theorem ok_bind (a : α) (f : α → Except Panic β) : (Except.ok a >>= f) = f a := rfl

@[simp] theorem error_bind (p : Panic) (f : α → Except Panic β) :
    (Except.error p >>= f) = .error p := rfl

theorem bind_eq_ok {x : Except Panic α} {f : α → Except Panic β} {b : β} :
    (x >>= f) = .ok b ↔ ∃ a, x = .ok a ∧ f a = .ok b := by
  cases x with
  | error p => simp
  | ok a => simp

theorem bind_eq_error {x : Except Panic α} {f : α → Except Panic β} {p : Panic} :
    (x >>= f) = .error p ↔ x = .error p ∨ ∃ a, x = .ok a ∧ f a = .error p := by
  cases x with
  | error q => simp
  | ok a => simp

end Bind

end OsKernel
