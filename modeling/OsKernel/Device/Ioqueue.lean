import OsKernel.Thread.Machine

/-!
# device/ioqueue.c

The ring buffer between the keyboard handler and its readers, as a fragment of a program:
`ioqStep` is the statement at each control point of `ioq_getchar` and `ioq_putchar`, with
`ioq_full`, `ioq_empty`, `ioq_wait` and `wakeup` where they are called. `ioqRun` executes a call
that does not have to wait.

- `Contents`: the bytes in the buffer, as a list; what storing and taking do to it.
- `ioqEmpty_iff`, `ioqFull_iff`: the two tests in terms of the number of bytes. The test for a full
  buffer compares the position after `tail` with `head`, so it holds with exactly one byte.
- `ioqCalls_idle`: calls that do not wait; `capacity_iff`: after which of them the tests are those
  of a queue for `bufsize - 1` bytes.
- `ioqReplies_idle`, `ring_fifo`: what such calls return.
-/

namespace OsKernel

/-! ## The data -/

/-- `struct ioqueue` without its lock, which the kernel keeps. -/
structure IoQueue where
  producer : Option Tid
  consumer : Option Tid
  buffer : Nat → UInt8
  head : UInt32
  tail : UInt32

/-- `bufsize` -/
def bufsize : UInt32 := 64

/-- `ioqueue_init` -/
def ioqueueInit (buffer : Nat → UInt8) : IoQueue :=
  { producer := none, consumer := none, buffer := buffer, head := 0, tail := 0 }

/-- `next_pos` -/
def nextPos (pos : UInt32) : UInt32 := (pos + 1) % bufsize

/-- `ioq_full` -/
def ioqFull (intr : IntrStatus) (ioq : IoQueue) : Except Panic Bool := do
  assert (intr = .off) .ioqFullIntrOff
  return nextPos ioq.tail == ioq.head

/-- `ioq_empty` -/
def ioqEmpty (intr : IntrStatus) (ioq : IoQueue) : Except Panic Bool := do
  assert (intr = .off) .ioqEmptyIntrOff
  return ioq.head == ioq.tail

/-- `ioq->buffer[ioq->tail]` and the step of `tail`. -/
def IoQueue.take (ioq : IoQueue) : UInt8 × IoQueue :=
  (ioq.buffer ioq.tail.toNat, { ioq with tail := nextPos ioq.tail })

/-- The write to `ioq->buffer[ioq->head]` and the step of `head`. -/
def IoQueue.store (ioq : IoQueue) (byte : UInt8) : IoQueue :=
  { ioq with
    buffer := Function.update ioq.buffer ioq.head.toNat byte
    head := nextPos ioq.head }

/-! ## The functions -/

/-- Control points of `ioq_getchar` and `ioq_putchar`. -/
inductive IoqPc where
  /-- `ioq_getchar` at its assertion -/
  | getchar
  /-- `while (ioq_empty(ioq))` -/
  | getTest
  /-- `ioq_wait(&ioq->consumer)`, with the lock -/
  | getWait
  /-- `lock_release(&ioq->lock)` after the sleep -/
  | getRelease
  /-- the read of the buffer, up to `if (ioq->producer != NULL)` -/
  | getTake
  /-- `wakeup(&ioq->producer)` -/
  | getWakeup (byte : UInt8)
  /-- `*waiter = NULL` in `wakeup`, then `return byte` -/
  | getClear (byte : UInt8)
  /-- `ioq_putchar` at its assertion -/
  | putchar (byte : UInt8)
  /-- `while (ioq_full(ioq))` -/
  | putTest (byte : UInt8)
  /-- `ioq_wait(&ioq->producer)`, with the lock -/
  | putWait (byte : UInt8)
  /-- `lock_release(&ioq->lock)` after the sleep -/
  | putRelease (byte : UInt8)
  /-- the write to the buffer, up to `if (ioq->consumer != NULL)` -/
  | putStore (byte : UInt8)
  /-- `wakeup(&ioq->consumer)` -/
  | putWakeup
  /-- `*waiter = NULL` in `wakeup` -/
  | putClear
deriving DecidableEq, Repr

/-- The queue and the register in which a function returns its value, one for each thread. -/
structure IoqMem where
  ioq : IoQueue
  eax : Tid → UInt8

/-- `ioq_wait`: the assertion looks at the slot the caller is about to fill. -/
def ioqWait (waiter : Option Tid) (sleep : Action IoqMem IoqPc) : Action IoqMem IoqPc :=
  match waiter with
  | none => .panic .ioqWaitWaiter
  | some _ => sleep

/-- `wakeup`, up to the call of `thread_unblock`. -/
def ioqWakeup (waiter : Option Tid) (m : IoqMem) (pc : IoqPc) : Action IoqMem IoqPc :=
  match waiter with
  | none => .panic .wakeupWaiter
  | some t => .call m (.threadUnblock t) pc

/-- The statement at a control point, for the queue whose lock is `lock`, executed by thread `t`
with the interrupt flag `intr`. -/
def ioqStep (lock : Nat) (t : Tid) (intr : IntrStatus) (m : IoqMem) :
    IoqPc → Action IoqMem IoqPc
  | .getchar => if intr = .off then .goto m .getTest else .panic .ioqGetcharIntrOff
  | .getTest =>
    match ioqEmpty intr m.ioq with
    | .error p => .panic p
    | .ok true => .call m (.lockAcquire lock) .getWait
    | .ok false => .goto m .getTake
  | .getWait =>
    ioqWait m.ioq.consumer
      (.call { m with ioq := { m.ioq with consumer := some t } } (.threadBlock .blocked) .getRelease)
  | .getRelease => .call m (.lockRelease lock) .getTest
  | .getTake =>
    let (byte, ioq) := m.ioq.take
    if ioq.producer ≠ none then .goto { m with ioq := ioq } (.getWakeup byte)
    else .ret { ioq := ioq, eax := Function.update m.eax t byte }
  | .getWakeup byte => ioqWakeup m.ioq.producer m (.getClear byte)
  | .getClear byte =>
    .ret { ioq := { m.ioq with producer := none }, eax := Function.update m.eax t byte }
  | .putchar byte => if intr = .off then .goto m (.putTest byte) else .panic .ioqPutcharIntrOff
  | .putTest byte =>
    match ioqFull intr m.ioq with
    | .error p => .panic p
    | .ok true => .call m (.lockAcquire lock) (.putWait byte)
    | .ok false => .goto m (.putStore byte)
  | .putWait byte =>
    ioqWait m.ioq.producer
      (.call { m with ioq := { m.ioq with producer := some t } } (.threadBlock .blocked)
        (.putRelease byte))
  | .putRelease byte => .call m (.lockRelease lock) (.putTest byte)
  | .putStore byte =>
    let ioq := m.ioq.store byte
    if ioq.consumer ≠ none then .goto { m with ioq := ioq } .putWakeup
    else .ret { m with ioq := ioq }
  | .putWakeup => ioqWakeup m.ioq.consumer m .putClear
  | .putClear => .ret { m with ioq := { m.ioq with consumer := none } }

/-- How a call executed alone ends. -/
inductive IoqOutcome where
  | returned (m : IoqMem)
  | panicked (p : Panic)
  /-- the call needs the lock or the scheduler: it has to wait or to wake somebody -/
  | calls
  | outOfFuel

/-- Execute statements from a control point on. -/
def ioqRun (lock : Nat) (t : Tid) (intr : IntrStatus) : Nat → IoqMem → IoqPc → IoqOutcome
  | 0, _, _ => .outOfFuel
  | fuel + 1, m, pc =>
    match ioqStep lock t intr m pc with
    | .goto m pc => ioqRun lock t intr fuel m pc
    | .ret m => .returned m
    | .panic p => .panicked p
    | _ => .calls

/-- The two calls. -/
inductive IoqOp where
  | put (byte : UInt8)
  | get
deriving DecidableEq, Repr

/-- The control point a call starts at. -/
def IoqOp.entry : IoqOp → IoqPc
  | .put byte => .putchar byte
  | .get => .getchar

/-- A call with interrupts off, executed alone. -/
def ioqCall (lock : Nat) (t : Tid) (m : IoqMem) (op : IoqOp) : IoqOutcome :=
  ioqRun lock t .off 4 m op.entry

/-- Calls of several threads one after another; the result is `none` unless all of them return. -/
def ioqCalls (lock : Nat) : List (Tid × IoqOp) → IoqMem → Option IoqMem
  | [], m => some m
  | (t, op) :: ops, m =>
    match ioqCall lock t m op with
    | .returned m => ioqCalls lock ops m
    | _ => none

/-! ## The bytes in the buffer -/

/-- The buffer holds the bytes `xs`, the first one at `tail`. -/
structure Contents (ioq : IoQueue) (xs : List UInt8) : Prop where
  tail_lt : ioq.tail.toNat < 64
  head_eq : ioq.head.toNat = (ioq.tail.toNat + xs.length) % 64
  length_lt : xs.length < 64
  bytes : ∀ i (_ : i < xs.length), ioq.buffer ((ioq.tail.toNat + i) % 64) = xs[i]

theorem nextPos_toNat (pos : UInt32) : (nextPos pos).toNat = (pos.toNat + 1) % 64 := by
  unfold nextPos bufsize
  rw [UInt32.toNat_mod, UInt32.toNat_add]
  show (pos.toNat + 1) % 2 ^ 32 % 64 = _
  omega

namespace Contents

variable {ioq : IoQueue} {xs : List UInt8}

theorem init (buffer : Nat → UInt8) : Contents (ioqueueInit buffer) [] where
  tail_lt := Nat.zero_lt_succ _
  head_eq := rfl
  length_lt := by decide
  bytes i h := absurd h (Nat.not_lt_zero i)

theorem empty_iff (h : Contents ioq xs) : (ioq.head == ioq.tail) = true ↔ xs = [] := by
  have hlt := h.tail_lt
  have heq := h.head_eq
  have hlen := h.length_lt
  rw [beq_iff_eq, ← UInt32.toNat_inj, ← List.length_eq_zero_iff]
  omega

/-- The position after `tail` is `head` exactly when one byte is in the buffer. -/
theorem full_iff (h : Contents ioq xs) :
    (nextPos ioq.tail == ioq.head) = true ↔ xs.length = 1 := by
  have hlt := h.tail_lt
  have heq := h.head_eq
  have hlen := h.length_lt
  rw [beq_iff_eq, ← UInt32.toNat_inj, nextPos_toNat]
  omega

/-- A byte is stored behind the others, as long as one cell stays free. -/
theorem store (h : Contents ioq xs) (byte : UInt8) (hroom : xs.length + 1 < 64) :
    Contents (ioq.store byte) (xs ++ [byte]) where
  tail_lt := h.tail_lt
  head_eq := by
    have heq := h.head_eq
    show (nextPos ioq.head).toNat = (ioq.tail.toNat + (xs ++ [byte]).length) % 64
    rw [nextPos_toNat, List.length_append, List.length_singleton, heq]
    omega
  length_lt := by
    rw [List.length_append, List.length_singleton]
    exact hroom
  bytes i hi := by
    have heq := h.head_eq
    have hlt := h.tail_lt
    show Function.update ioq.buffer ioq.head.toNat byte ((ioq.tail.toNat + i) % 64) = _
    rw [List.length_append, List.length_singleton] at hi
    by_cases hlast : i = xs.length
    · subst hlast
      rw [heq, Function.update_self, List.getElem_concat_length rfl]
    · have hi' : i < xs.length := by omega
      rw [Function.update_of_ne (by omega), List.getElem_append_left hi']
      exact h.bytes i hi'

/-- The first byte is taken. -/
theorem take {x : UInt8} (h : Contents ioq (x :: xs)) :
    ioq.take.1 = x ∧ Contents ioq.take.2 xs := by
  have hlt := h.tail_lt
  have heq := h.head_eq
  have hlen := h.length_lt
  rw [List.length_cons] at heq hlen
  have htail : (nextPos ioq.tail).toNat = (ioq.tail.toNat + 1) % 64 := nextPos_toNat _
  refine ⟨?_, ?_, ?_, ?_, ?_⟩
  · have hfirst := h.bytes 0 (Nat.succ_pos _)
    rw [Nat.add_zero, Nat.mod_eq_of_lt hlt] at hfirst
    exact hfirst
  · show (nextPos ioq.tail).toNat < 64
    omega
  · show ioq.head.toNat = ((nextPos ioq.tail).toNat + xs.length) % 64
    omega
  · omega
  · intro i hi
    show ioq.buffer (((nextPos ioq.tail).toNat + i) % 64) = _
    have hnext := h.bytes (i + 1) (Nat.succ_lt_succ hi)
    rw [List.getElem_cons_succ] at hnext
    rw [← hnext, htail]
    congr 1
    omega

end Contents

theorem ioqEmpty_iff {ioq : IoQueue} {xs : List UInt8} (h : Contents ioq xs) :
    ioqEmpty .off ioq = .ok true ↔ xs = [] := by
  rw [← h.empty_iff]
  simp [ioqEmpty]

theorem ioqFull_iff {ioq : IoQueue} {xs : List UInt8} (h : Contents ioq xs) :
    ioqFull .off ioq = .ok true ↔ xs.length = 1 := by
  rw [← h.full_iff]
  simp [ioqFull]

/-! ## Calls that do not wait -/

/-- The bytes in a queue nobody is recorded in. -/
structure Idle (ioq : IoQueue) (xs : List UInt8) : Prop extends Contents ioq xs where
  producer : ioq.producer = none
  consumer : ioq.consumer = none

theorem Idle.ioqEmpty {ioq : IoQueue} {xs : List UInt8} (h : Idle ioq xs) :
    OsKernel.ioqEmpty .off ioq = .ok (decide (xs = [])) := by
  simp only [OsKernel.ioqEmpty, decide_true, assert_true, ok_bind, pure_eq_ok, Except.ok.injEq]
  rw [Bool.eq_iff_iff, h.empty_iff, decide_eq_true_iff]

theorem Idle.ioqFull {ioq : IoQueue} {xs : List UInt8} (h : Idle ioq xs) :
    OsKernel.ioqFull .off ioq = .ok (decide (xs.length = 1)) := by
  simp only [OsKernel.ioqFull, decide_true, assert_true, ok_bind, pure_eq_ok, Except.ok.injEq]
  rw [Bool.eq_iff_iff, h.full_iff, decide_eq_true_iff]

section

variable {m : IoqMem} {xs : List UInt8} (lock : Nat) (t : Tid)

theorem Idle.getTest (h : Idle m.ioq xs) :
    ioqStep lock t .off m .getTest =
      if xs = [] then .call m (.lockAcquire lock) .getWait else .goto m .getTake := by
  by_cases hnil : xs = []
  · simp [ioqStep, h.ioqEmpty, hnil]
  · simp [ioqStep, h.ioqEmpty, hnil]

theorem Idle.getTake (h : Idle m.ioq xs) :
    ioqStep lock t .off m .getTake =
      .ret { ioq := m.ioq.take.2, eax := Function.update m.eax t m.ioq.take.1 } := by
  exact if_neg (not_not_intro h.producer)

theorem Idle.putTest (h : Idle m.ioq xs) (byte : UInt8) :
    ioqStep lock t .off m (.putTest byte) =
      if xs.length = 1 then .call m (.lockAcquire lock) (.putWait byte)
      else .goto m (.putStore byte) := by
  by_cases hone : xs.length = 1
  · simp [ioqStep, h.ioqFull, hone]
  · simp [ioqStep, h.ioqFull, hone]

theorem Idle.putStore (h : Idle m.ioq xs) (byte : UInt8) :
    ioqStep lock t .off m (.putStore byte) = .ret { m with ioq := m.ioq.store byte } := by
  exact if_neg (not_not_intro h.consumer)

end

/-- Nobody is recorded in the queue, and it holds at most one byte. -/
def Unwaited (ioq : IoQueue) (xs : List UInt8) : Prop := Idle ioq xs ∧ xs.length ≤ 1

/-- Four statements take a call to its end or to a call of the kernel. -/
theorem ioqCall_ends (lock : Nat) (t : Tid) (m : IoqMem) (op : IoqOp) :
    ioqCall lock t m op ≠ .outOfFuel := by
  cases op with
  | put byte =>
    cases hf : ioqFull .off m.ioq with
    | error p => simp [ioqCall, IoqOp.entry, ioqRun, ioqStep, hf]
    | ok full =>
      cases full with
      | true => simp [ioqCall, IoqOp.entry, ioqRun, ioqStep, hf]
      | false =>
        by_cases hc : m.ioq.consumer = none
        · simp [ioqCall, IoqOp.entry, ioqRun, ioqStep, hf, IoQueue.store, hc]
        · obtain ⟨u, hu⟩ := Option.ne_none_iff_exists'.mp hc
          simp [ioqCall, IoqOp.entry, ioqRun, ioqStep, hf, IoQueue.store, hu, ioqWakeup]
  | get =>
    cases he : ioqEmpty .off m.ioq with
    | error p => simp [ioqCall, IoqOp.entry, ioqRun, ioqStep, he]
    | ok empty =>
      cases empty with
      | true => simp [ioqCall, IoqOp.entry, ioqRun, ioqStep, he]
      | false =>
        by_cases hp : m.ioq.producer = none
        · simp [ioqCall, IoqOp.entry, ioqRun, ioqStep, he, IoQueue.take, hp]
        · obtain ⟨u, hu⟩ := Option.ne_none_iff_exists'.mp hp
          simp [ioqCall, IoqOp.entry, ioqRun, ioqStep, he, IoQueue.take, hu, ioqWakeup]

section

variable {m : IoqMem} {xs : List UInt8} (lock : Nat) (t : Tid)

/-- `ioq_putchar` on a queue nobody waits in: it has to wait when one byte is there. -/
theorem ioqCall_put (h : Idle m.ioq xs) (byte : UInt8) :
    ioqCall lock t m (.put byte) =
      if xs.length = 1 then .calls else .returned { m with ioq := m.ioq.store byte } := by
  have hentry : ioqStep lock t .off m (.putchar byte) = .goto m (.putTest byte) := rfl
  by_cases hlen : xs.length = 1
  · simp [ioqCall, IoqOp.entry, ioqRun, hentry, h.putTest, hlen]
  · simp [ioqCall, IoqOp.entry, ioqRun, hentry, h.putTest, h.putStore, hlen]

/-- `ioq_getchar` on a queue nobody waits in. -/
theorem ioqCall_get (h : Idle m.ioq xs) :
    ioqCall lock t m .get =
      if xs = [] then .calls
      else .returned { ioq := m.ioq.take.2, eax := Function.update m.eax t m.ioq.take.1 } := by
  have hentry : ioqStep lock t .off m .getchar = .goto m .getTest := rfl
  by_cases hnil : xs = []
  · simp [ioqCall, IoqOp.entry, ioqRun, hentry, h.getTest, hnil]
  · simp [ioqCall, IoqOp.entry, ioqRun, hentry, h.getTest, h.getTake, hnil]

end

theorem Idle.store {ioq : IoQueue} {xs : List UInt8} (h : Idle ioq xs) (byte : UInt8)
    (hroom : xs.length + 1 < 64) : Idle (ioq.store byte) (xs ++ [byte]) :=
  ⟨h.toContents.store byte hroom, h.producer, h.consumer⟩

theorem Idle.take {ioq : IoQueue} {x : UInt8} {xs : List UInt8} (h : Idle ioq (x :: xs)) :
    Idle ioq.take.2 xs :=
  ⟨h.toContents.take.2, h.producer, h.consumer⟩

/-- Bytes put minus bytes got. -/
def pending (ops : List (Tid × IoqOp)) : Int :=
  ops.countP (fun op => decide (op.2 ≠ .get)) - ops.countP (fun op => decide (op.2 = .get))

/-- Calls that all return leave their bytes behind, and never more than one. -/
theorem ioqCalls_idle {lock : Nat} {ops : List (Tid × IoqOp)} {m m' : IoqMem} {xs : List UInt8}
    (h : Idle m.ioq xs) (hlen : xs.length ≤ 1) (hrun : ioqCalls lock ops m = some m') :
    ∃ ys, Idle m'.ioq ys ∧ ys.length ≤ 1 ∧ (ys.length : Int) = xs.length + pending ops := by
  induction ops generalizing m xs with
  | nil =>
    cases hrun
    exact ⟨xs, h, hlen, by simp [pending]⟩
  | cons op ops ih =>
    obtain ⟨t, op⟩ := op
    cases op with
    | put byte =>
      rw [ioqCalls, ioqCall_put lock t h] at hrun
      by_cases hone : xs.length = 1
      · simp [hone] at hrun
      · simp only [hone, if_false] at hrun
        have hnil : xs.length = 0 := by omega
        obtain ⟨ys, hys, hle, heq⟩ := ih (h.store byte (by omega)) (by simp [hnil]) hrun
        refine ⟨ys, hys, hle, ?_⟩
        rw [List.length_append, List.length_singleton] at heq
        simp [pending] at heq ⊢
        omega
    | get =>
      rw [ioqCalls, ioqCall_get lock t h] at hrun
      cases xs with
      | nil => simp at hrun
      | cons x xs =>
        simp only [reduceCtorEq, if_false] at hrun
        rw [List.length_cons] at hlen
        obtain ⟨ys, hys, hle, heq⟩ := ih h.take (by omega) hrun
        refine ⟨ys, hys, hle, ?_⟩
        simp [pending] at heq ⊢
        omega

/-- The tests, and the refusal of a further byte, of a queue for `bufsize - 1` bytes. -/
def FullCapacity (lock : Nat) (ops : List (Tid × IoqOp)) (m : IoqMem) : Prop :=
  (ioqEmpty .off m.ioq = .ok true ↔ pending ops = 0) ∧
  (ioqFull .off m.ioq = .ok true ↔ pending ops = bufsize.toNat - 1) ∧
  ∀ t byte, ioqCall lock t m (.put byte) = .calls → pending ops = bufsize.toNat - 1

/-- **Capacity.** After calls on a fresh queue that all return, its tests are those of a queue
for `bufsize - 1` bytes exactly when no byte is pending. -/
theorem capacity_iff {lock : Nat} {ops : List (Tid × IoqOp)} {buffer : Nat → UInt8}
    {eax : Tid → UInt8} {m : IoqMem}
    (hrun : ioqCalls lock ops { ioq := ioqueueInit buffer, eax := eax } = some m) :
    FullCapacity lock ops m ↔ pending ops = 0 := by
  have hstart : Idle (ioqueueInit buffer) [] := ⟨.init buffer, rfl, rfl⟩
  obtain ⟨xs, hidle, hle, hlen⟩ := ioqCalls_idle hstart (Nat.zero_le _) hrun
  have hpending : pending ops = xs.length := by simpa using hlen.symm
  have hbuf : (bufsize.toNat : Int) - 1 = 63 := rfl
  rw [FullCapacity, ioqEmpty_iff hidle.toContents, ioqFull_iff hidle.toContents, hbuf, hpending]
  constructor
  · rintro ⟨-, hfull, -⟩
    -- one byte would make the queue full
    omega
  · intro h
    have hnil : xs.length = 0 := by omega
    refine ⟨?_, ?_, ?_⟩
    · simp [List.length_eq_zero_iff.mp hnil]
    · omega
    · intro t byte hcall
      rw [ioqCall_put lock t hidle, if_neg (by omega)] at hcall
      cases hcall

/-- A byte put and got again. -/
theorem capacity_iff_drained :
    ∃ m, ioqCalls 0 [(1, .put 97), (2, .get)] ⟨ioqueueInit fun _ => 0, fun _ => 0⟩ = some m ∧
      FullCapacity 0 [(1, .put 97), (2, .get)] m :=
  ⟨_, rfl, (capacity_iff rfl).mpr rfl⟩

/-- One byte fills the fresh queue: `ioq_full` holds and the next byte has to wait. -/
theorem capacity_one_byte :
    ∃ m, ioqCalls 0 [(1, .put 97)] ⟨ioqueueInit fun _ => 0, fun _ => 0⟩ = some m ∧
      ioqCall 0 1 m (.put 98) = .calls ∧ ¬ FullCapacity 0 [(1, .put 97)] m := by
  refine ⟨_, rfl, rfl, ?_⟩
  intro h
  exact absurd (h.2.1.mp rfl) (by decide)

/-! ## First in, first out -/

/-- What the gets return when all calls do, and the queue behind them. -/
def ioqReplies (lock : Nat) : List (Tid × IoqOp) → IoqMem → Option (List UInt8 × IoqMem)
  | [], m => some ([], m)
  | (t, op) :: ops, m =>
    match ioqCall lock t m op with
    | .returned m =>
      match ioqReplies lock ops m with
      | some (replies, m') => some (if op = .get then m.eax t :: replies else replies, m')
      | none => none
    | _ => none

/-- These are the calls of `ioqCalls`. -/
theorem ioqReplies_calls (lock : Nat) (ops : List (Tid × IoqOp)) (m : IoqMem) :
    (ioqReplies lock ops m).map Prod.snd = ioqCalls lock ops m := by
  induction ops generalizing m with
  | nil => rfl
  | cons op ops ih =>
    obtain ⟨t, op⟩ := op
    rw [ioqReplies, ioqCalls]
    cases ioqCall lock t m op with
    | returned m' =>
      dsimp only
      rw [← ih m']
      cases ioqReplies lock ops m' with
      | none => rfl
      | some r => rfl
    | panicked p => rfl
    | calls => rfl
    | outOfFuel => rfl

/-- The bytes of the puts. -/
def bytesPut : List (Tid × IoqOp) → List UInt8
  | [] => []
  | (_, .put byte) :: ops => byte :: bytesPut ops
  | (_, .get) :: ops => bytesPut ops

/-- The number of gets. -/
def getsMade : List (Tid × IoqOp) → Nat
  | [] => 0
  | (_, .put _) :: ops => getsMade ops
  | (_, .get) :: ops => getsMade ops + 1

/-- **The run**: the replies and the bytes left in the buffer are those that were there, followed
by those of the puts. -/
theorem ioqReplies_idle {lock : Nat} {ops : List (Tid × IoqOp)} {m m' : IoqMem}
    {xs replies : List UInt8} (h : Idle m.ioq xs) (hlen : xs.length ≤ 1)
    (hrun : ioqReplies lock ops m = some (replies, m')) :
    ∃ ys, Idle m'.ioq ys ∧ replies ++ ys = xs ++ bytesPut ops ∧ replies.length = getsMade ops := by
  induction ops generalizing m xs replies with
  | nil =>
    cases hrun
    exact ⟨xs, h, by simp [bytesPut], rfl⟩
  | cons op ops ih =>
    obtain ⟨t, op⟩ := op
    rw [ioqReplies] at hrun
    cases op with
    | put byte =>
      rw [ioqCall_put lock t h] at hrun
      by_cases hone : xs.length = 1
      · -- the buffer counts as full
        simp [hone] at hrun
      · rw [if_neg hone] at hrun
        dsimp only at hrun
        cases hrest : ioqReplies lock ops { m with ioq := m.ioq.store byte } with
        | none => simp [hrest] at hrun
        | some r =>
          obtain ⟨rest, m''⟩ := r
          simp only [hrest, reduceCtorEq, if_false, Option.some.injEq, Prod.mk.injEq] at hrun
          obtain ⟨rfl, rfl⟩ := hrun
          have hnil : xs.length = 0 := by omega
          obtain ⟨ys, hys, heq, hgets⟩ := ih (h.store byte (by omega)) (by simp [hnil]) hrest
          exact ⟨ys, hys, by rw [heq, bytesPut, List.append_assoc, List.singleton_append], hgets⟩
    | get =>
      rw [ioqCall_get lock t h] at hrun
      cases xs with
      | nil => simp at hrun
      | cons x xs =>
        rw [if_neg (List.cons_ne_nil x xs)] at hrun
        dsimp only at hrun
        rw [List.length_cons] at hlen
        cases hrest : ioqReplies lock ops
            { ioq := m.ioq.take.2, eax := Function.update m.eax t m.ioq.take.1 } with
        | none => simp [hrest] at hrun
        | some r =>
          obtain ⟨rest, m''⟩ := r
          simp only [hrest, if_true, Option.some.injEq, Prod.mk.injEq, Function.update_self] at hrun
          obtain ⟨rfl, rfl⟩ := hrun
          obtain ⟨ys, hys, heq, hgets⟩ := ih h.take (by omega) hrest
          refine ⟨ys, hys, ?_, by rw [List.length_cons, hgets, getsMade]⟩
          rw [h.toContents.take.1, List.cons_append, heq, bytesPut, List.cons_append]

/-- The bytes in the buffer, counted by the two positions. -/
theorem Contents.distance {ioq : IoQueue} {xs : List UInt8} (h : Contents ioq xs) :
    ((ioq.head - ioq.tail) % bufsize).toNat = xs.length := by
  have hlt := h.tail_lt
  have heq := h.head_eq
  have hlen := h.length_lt
  rw [UInt32.toNat_mod, UInt32.toNat_sub]
  show (2 ^ 32 - ioq.tail.toNat + ioq.head.toNat) % 2 ^ 32 % 64 = _
  omega

/-- **The ring buffer is a FIFO.** When all calls on a fresh queue return, the gets have returned
the first bytes that were put, the positions are inside the buffer, and their distance is the number
of bytes put and not yet got. -/
theorem ring_fifo {lock : Nat} {ops : List (Tid × IoqOp)} {buffer : Nat → UInt8}
    {eax : Tid → UInt8} {m : IoqMem} {replies : List UInt8}
    (hrun : ioqReplies lock ops { ioq := ioqueueInit buffer, eax := eax } = some (replies, m)) :
    replies = (bytesPut ops).take (getsMade ops) ∧ replies.length = getsMade ops ∧
      m.ioq.head < bufsize ∧ m.ioq.tail < bufsize ∧
      getsMade ops + ((m.ioq.head - m.ioq.tail) % bufsize).toNat = (bytesPut ops).length := by
  have hstart : Idle (ioqueueInit buffer) [] := ⟨.init buffer, rfl, rfl⟩
  obtain ⟨ys, hidle, heq, hgets⟩ := ioqReplies_idle hstart (Nat.zero_le _) hrun
  rw [List.nil_append] at heq
  have hbuf : bufsize.toNat = 64 := rfl
  have hhead := hidle.head_eq
  refine ⟨?_, hgets, ?_, ?_, ?_⟩
  · rw [← heq, ← hgets, List.take_left]
  · rw [UInt32.lt_iff_toNat_lt, hbuf]
    omega
  · rw [UInt32.lt_iff_toNat_lt, hbuf]
    exact hidle.tail_lt
  · rw [hidle.toContents.distance, ← hgets, ← heq, List.length_append]

/-- Two bytes put and got in turn, and a third one put. -/
theorem ring_fifo_three :
    ∃ m, ioqReplies 0 [(1, .put 97), (2, .get), (1, .put 98), (2, .get), (1, .put 99)]
        ⟨ioqueueInit fun _ => 0, fun _ => 0⟩ = some ([97, 98], m) ∧
      m.ioq.head < bufsize ∧ m.ioq.tail < bufsize ∧
      2 + ((m.ioq.head - m.ioq.tail) % bufsize).toNat = 3 := by
  obtain ⟨m, hrun⟩ : ∃ m, ioqReplies 0 [(1, .put 97), (2, .get), (1, .put 98), (2, .get), (1, .put 99)]
      ⟨ioqueueInit fun _ => 0, fun _ => 0⟩ = some ([97, 98], m) := ⟨_, rfl⟩
  obtain ⟨-, -, hhead, htail, hcount⟩ := ring_fifo hrun
  exact ⟨m, hrun, hhead, htail, hcount⟩

end OsKernel
