import OsKernel.Device.Ioqueue
import OsKernel.Device.Keyboard
import OsKernel.Sync.Lock
import OsKernel.Sync.Uncontended

/-!
# kernel/main.c

The whole kernel after `init_all`: `main` starts the two consumers and turns interrupts on; the
consumers take characters from the keyboard's buffer and print them; timer and keyboard interrupts
come whenever interrupts are on.

- `kernelMain`: the program, with the console's lock and the lock of `kbd_buf`.
- `MainInside`: the statements that run with interrupts off, with the characters on their way from
  the buffer to the screen.
- `main_safe`: no assertion fails, the buffer is never read while it is empty, and the characters
  printed are a prefix of those accepted.
-/

namespace OsKernel

open Lib

/-! ## device/console.c -/

/-- What is written to the screen. -/
inductive Write where
  | putStr (str : String)
  | putChar (charAsci : UInt8)
deriving DecidableEq, Repr

/-- Control points of `console_put_str` and `console_put_char`. -/
inductive ConsolePc where
  /-- `console_acquire()` -/
  | acquire (w : Write)
  /-- `put_str(str)` or `put_char(char_asci)` -/
  | print (w : Write)
  /-- `console_release()` -/
  | release
  /-- the return -/
  | done
deriving DecidableEq, Repr

/-- `console_lock`, and the lock in `kbd_buf`. -/
def consoleLock : Nat := 0
def kbdLock : Nat := 1

/-! ## The program -/

/-- The two consumers. -/
inductive Consumer where
  | a
  | b
deriving DecidableEq, Repr

/-- The string `main` passes to the consumer. -/
def Consumer.arg : Consumer → String
  | .a => " a_"
  | .b => " b_"

/-- Control points of `k_thread_a` and `k_thread_b`. -/
inductive ConsumerPc where
  /-- `intr_disable()` -/
  | loop
  /-- `if (!ioq_empty(&kbd_buf))` -/
  | test (oldStatus : IntrStatus)
  /-- `console_put_str(arg)` -/
  | putStr (oldStatus : IntrStatus)
  /-- `ioq_getchar(&kbd_buf)` -/
  | getchar (oldStatus : IntrStatus)
  /-- `console_put_char(byte)` -/
  | putChar (oldStatus : IntrStatus)
  /-- `intr_set_status(old_status)` -/
  | restore (oldStatus : IntrStatus)
deriving DecidableEq, Repr

/-- Control points of `intr_keyboard_handler`. -/
inductive KeyboardPc where
  /-- the read of the port, and the decoding -/
  | scan
  /-- `if (!ioq_full(&kbd_buf))` -/
  | test (curChar : UInt8)
  /-- the return from `ioq_putchar` -/
  | done (curChar : UInt8)
deriving DecidableEq, Repr

/-- Control points of the kernel. -/
inductive MainLoc where
  /-- `thread_start("consumer_a", ..)` -/
  | startA
  /-- `thread_start("consumer_b", ..)` -/
  | startB
  /-- `sti` -/
  | sti
  /-- `while (1)` in `main` -/
  | mainLoop
  | consumer (w : Consumer) (pc : ConsumerPc)
  | keyboard (pc : KeyboardPc)
  | console (pc : ConsolePc)
  | ioq (pc : IoqPc)
deriving DecidableEq, Repr

/-- The data of the kernel. `accepted` is auxiliary: the characters the handler has put into the
buffer. -/
structure MainMem where
  kbdBuf : IoqMem
  keyboard : KeyboardStatus
  screen : List Write
  accepted : List UInt8

/-- The characters printed by the consumers. -/
def MainMem.printed (m : MainMem) : List UInt8 :=
  m.screen.filterMap fun
    | .putChar c => some c
    | .putStr _ => none

/-- A statement of console.c. -/
def consoleStep (m : MainMem) : ConsolePc → Action MainMem MainLoc
  | .acquire w => .call m (.lockAcquire consoleLock) (.console (.print w))
  | .print w => .goto { m with screen := m.screen ++ [w] } (.console .release)
  | .release => .call m (.lockRelease consoleLock) (.console .done)
  | .done => .ret m

/-- A statement of `k_thread_a` or `k_thread_b`, executed by thread `t`. -/
def consumerStep (t : Tid) (intr : IntrStatus) (m : MainMem) (w : Consumer) :
    ConsumerPc → Action MainMem MainLoc
  | .loop => .setIntr .off (.consumer w (.test intr))
  | .test old =>
    match ioqEmpty intr m.kbdBuf.ioq with
    | .error p => .panic p
    | .ok true => .goto m (.consumer w (.restore old))
    | .ok false => .goto m (.consumer w (.putStr old))
  | .putStr old =>
    .enter m (.console (.acquire (.putStr w.arg))) (.consumer w (.getchar old))
  | .getchar old => .enter m (.ioq .getchar) (.consumer w (.putChar old))
  | .putChar old =>
    .enter m (.console (.acquire (.putChar (m.kbdBuf.eax t)))) (.consumer w (.restore old))
  | .restore old => .setIntr old (.consumer w .loop)

/-- A statement of `intr_keyboard_handler`, with `port` at the keyboard's port. -/
def keyboardStep (port : UInt8) (intr : IntrStatus) (m : MainMem) :
    KeyboardPc → Action MainMem MainLoc
  | .scan =>
    let (status, outcome) := keyboardScan m.keyboard port
    let m := { m with keyboard := status }
    match outcome with
    | .done => .ret m
    | .char c => .goto m (.keyboard (.test c))
    | .unknown => .ret { m with screen := m.screen ++ [.putStr "unknown key\n"] }
  | .test c =>
    match ioqFull intr m.kbdBuf.ioq with
    | .error p => .panic p
    | .ok true => .ret m
    | .ok false => .enter m (.ioq (.putchar c)) (.keyboard (.done c))
  | .done c => .ret { m with accepted := m.accepted ++ [c] }

/-- The kernel whose consumers get the pages `a` and `b`. The environment decides which byte is at
the keyboard's port. -/
def kernelMain (a b : Tid) : Program where
  Mem := MainMem
  Loc := MainLoc
  Input := UInt8
  step port t intr m
    | .startA => .call m (.threadStart a 31 (.consumer .a .loop)) .startB
    | .startB => .call m (.threadStart b 31 (.consumer .b .loop)) .sti
    | .sti => .setIntr .on .mainLoop
    | .mainLoop => .goto m .mainLoop
    | .consumer w pc => consumerStep t intr m w pc
    | .keyboard pc => keyboardStep port intr m pc
    | .console pc => consoleStep m pc
    | .ioq pc =>
      (ioqStep kbdLock t intr m.kbdBuf pc).embed (fun q => { m with kbdBuf := q }) .ioq
  handler _ := some (.keyboard .scan)

/-- The state after `init_all`. -/
structure MainInit {H : Type} [TaskLists H] {a b : Tid} (c : Config H (kernelMain a b)) : Prop where
  booted : Booted c
  locks : LocksFree c
  intr : c.kernel.intr = .off
  main : c.top = [.prog .startA]
  kbdBuf : ∃ buffer, c.mem.kbdBuf.ioq = ioqueueInit buffer
  keyboard : c.mem.keyboard = .start
  printed : c.mem.printed = []
  accepted : c.mem.accepted = []

/-! ## The sections -/

/-- The accepted characters: printed, taken from the buffer (`ys`), and in the buffer (`xs`). -/
def InFlight (m : MainMem) (xs ys : List UInt8) : Prop := m.accepted = m.printed ++ (ys ++ xs)

/-- The stacks outside the sections. -/
def MainBase (st : List (Frame MainLoc)) : Prop :=
  st = [.prog .mainLoop] ∨ ∃ w, st = [.prog (.consumer w .loop)]

/-- `main` before `sti`. -/
inductive StartAt (a b : Tid) : List (Frame MainLoc) → Prop where
  | startA : StartAt a b [.prog .startA]
  | startingA : StartAt a b [.threadStart a 31 (.consumer .a .loop), .prog .startB]
  | startB : StartAt a b [.prog .startB]
  | startingB : StartAt a b [.threadStart b 31 (.consumer .b .loop), .prog .sti]
  | sti : StartAt a b [.prog .sti]

/-- A consumer `t` outside console.c, with `ys` taken from the buffer and not printed. -/
inductive ConsumerAt (t : Tid) (m : MainMem) (xs : List UInt8) :
    List UInt8 → List (Frame MainLoc) → Prop where
  | test (w : Consumer) : ConsumerAt t m xs [] [.prog (.consumer w (.test .on))]
  | putStr (w : Consumer) (hne : xs ≠ []) :
      ConsumerAt t m xs [] [.prog (.consumer w (.putStr .on))]
  | getchar (w : Consumer) (hne : xs ≠ []) :
      ConsumerAt t m xs [] [.prog (.consumer w (.getchar .on))]
  | ioqGetchar (w : Consumer) (hne : xs ≠ []) :
      ConsumerAt t m xs [] [.prog (.ioq .getchar), .prog (.consumer w (.putChar .on))]
  | ioqGetTest (w : Consumer) (hne : xs ≠ []) :
      ConsumerAt t m xs [] [.prog (.ioq .getTest), .prog (.consumer w (.putChar .on))]
  | ioqGetTake (w : Consumer) (hne : xs ≠ []) :
      ConsumerAt t m xs [] [.prog (.ioq .getTake), .prog (.consumer w (.putChar .on))]
  | putChar (w : Consumer) :
      ConsumerAt t m xs [m.kbdBuf.eax t] [.prog (.consumer w (.putChar .on))]
  | restore (w : Consumer) : ConsumerAt t m xs [] [.prog (.consumer w (.restore .on))]

/-- Where a consumer goes on after a call of console.c. -/
inductive ConsoleReturn (xs : List UInt8) : MainLoc → Prop where
  | getchar (w : Consumer) (hne : xs ≠ []) : ConsoleReturn xs (.consumer w (.getchar .on))
  | restore (w : Consumer) : ConsoleReturn xs (.consumer w (.restore .on))

/-- A call of console.c with `ys` not printed yet. -/
inductive ConsoleJob (xs : List UInt8) : Write → MainLoc → List UInt8 → Prop where
  | str (s : String) (w : Consumer) (hne : xs ≠ []) :
      ConsoleJob xs (.putStr s) (.consumer w (.getchar .on)) []
  | char (c : UInt8) (w : Consumer) :
      ConsoleJob xs (.putChar c) (.consumer w (.restore .on)) [c]

/-- A consumer `t` in console.c. -/
inductive ConsoleAt (t : Tid) (xs : List UInt8) (lock : LockState) :
    List UInt8 → List (Frame MainLoc) → Prop where
  | acquire {w : Write} {l : MainLoc} {ys : List UInt8} (job : ConsoleJob xs w l ys)
      (hlock : lock = .free) : ConsoleAt t xs lock ys [.prog (.console (.acquire w)), .prog l]
  | acquiring {w : Write} {l : MainLoc} {ys : List UInt8} {fs : List (Frame MainLoc)}
      (job : ConsoleJob xs w l ys) (hat : LockCallAt consoleLock t (.taken t) fs lock) :
      ConsoleAt t xs lock ys (fs ++ [.prog (.console (.print w)), .prog l])
  | print {w : Write} {l : MainLoc} {ys : List UInt8} (job : ConsoleJob xs w l ys)
      (hlock : lock = .taken t) : ConsoleAt t xs lock ys [.prog (.console (.print w)), .prog l]
  | release {l : MainLoc} (hl : ConsoleReturn xs l) (hlock : lock = .taken t) :
      ConsoleAt t xs lock [] [.prog (.console .release), .prog l]
  | releasing {l : MainLoc} {fs : List (Frame MainLoc)} (hl : ConsoleReturn xs l)
      (hat : LockCallAt consoleLock t .free fs lock) :
      ConsoleAt t xs lock [] (fs ++ [.prog (.console .done), .prog l])
  | done {l : MainLoc} (hl : ConsoleReturn xs l) (hlock : lock = .free) :
      ConsoleAt t xs lock [] [.prog (.console .done), .prog l]

/-- The keyboard's handler, before the character is accepted. -/
inductive KeyboardAt (xs : List UInt8) : List (Frame MainLoc) → Prop where
  | scan : KeyboardAt xs [.prog (.keyboard .scan)]
  | test (c : UInt8) : KeyboardAt xs [.prog (.keyboard (.test c))]
  | putchar (c : UInt8) (hnil : xs = []) :
      KeyboardAt xs [.prog (.ioq (.putchar c)), .prog (.keyboard (.done c))]
  | putTest (c : UInt8) (hnil : xs = []) :
      KeyboardAt xs [.prog (.ioq (.putTest c)), .prog (.keyboard (.done c))]
  | putStore (c : UInt8) (hnil : xs = []) :
      KeyboardAt xs [.prog (.ioq (.putStore c)), .prog (.keyboard (.done c))]

/-- The statements that run with interrupts off, except at a switch. -/
inductive MainInside (a b t : Tid) (m : MainMem) (xs : List UInt8) (lock : LockState) :
    List (Frame MainLoc) → Prop where
  | start {st : List (Frame MainLoc)} (hat : StartAt a b st) (hlock : lock = .free)
      (hflow : InFlight m xs []) : MainInside a b t m xs lock st
  | consumer {st : List (Frame MainLoc)} {ys : List UInt8} (hat : ConsumerAt t m xs ys st)
      (hlock : lock = .free) (hflow : InFlight m xs ys) : MainInside a b t m xs lock st
  | console {st : List (Frame MainLoc)} {ys : List UInt8} (hat : ConsoleAt t xs lock ys st)
      (hflow : InFlight m xs ys) : MainInside a b t m xs lock st
  | keyboard {st base : List (Frame MainLoc)} (hat : KeyboardAt xs st) (hbase : MainBase base)
      (hlock : lock = .free) (hflow : InFlight m xs []) :
      MainInside a b t m xs lock (st ++ .intrExit .on :: base)
  | accepting {base : List (Frame MainLoc)} (c : UInt8) (hbuf : xs = [c]) (hbase : MainBase base)
      (hlock : lock = .free) (hflow : m.accepted = m.printed) :
      MainInside a b t m xs lock (.prog (.keyboard (.done c)) :: .intrExit .on :: base)

/-- The consumers' turns, the handler and the start of the threads are sections. -/
def mainDiscipline (a b : Tid) : Discipline (kernelMain a b) where
  Base := MainBase
  Entry l := ∃ w, l = MainLoc.consumer w .loop
  Rest m locks := locks consoleLock = .free ∧ ∃ xs, Unwaited m.kbdBuf.ioq xs ∧ InFlight m xs []
  Inside c := ∃ xs, Unwaited c.mem.kbdBuf.ioq xs ∧
    MainInside a b c.kernel.running c.mem xs (c.kernel.locks consoleLock) c.top

section Steps

variable {a b : Tid} {c : Config Queues (kernelMain a b)} {l : MainLoc}
  {rest : List (Frame MainLoc)} {input : UInt8} {xs : List UInt8}

/-- The conclusion of the step lemmas. -/
def MainStep (c : Config Queues (kernelMain a b)) (input : UInt8) (f : Frame MainLoc)
    (rest : List (Frame MainLoc)) : Prop :=
  ∃ c', exec (P := kernelMain a b) input f rest c = .ok c' ∧ (mainDiscipline a b).Inv c'

/-- A statement of the program that ends inside a section. -/
theorem main_inside (hq : (mainDiscipline a b).Quiet c) (htop : c.top = .prog l :: rest)
    {k : Kernel Queues} {m : MainMem} {st : List (Frame MainLoc)} (hoff : k.intr = .off)
    (he : exec (P := kernelMain a b) input (.prog l) rest c =
      .ok ({ c with kernel := k, mem := m }.setStack st))
    (hu : Unwaited m.kbdBuf.ioq xs)
    (hin : MainInside a b k.running m xs (k.locks consoleLock) st) :
    MainStep c input (.prog l) rest := by
  have hself : ({ c with kernel := k, mem := m }.setStack st).top = st := Function.update_self ..
  exact ⟨_, he, hq.prog htop he, .inside hoff ⟨xs, hu, hself.symm ▸ hin⟩⟩

/-- A statement of the program that ends outside the sections. -/
theorem main_outside (hq : (mainDiscipline a b).Quiet c) (htop : c.top = .prog l :: rest)
    {k : Kernel Queues} {m : MainMem} {st : List (Frame MainLoc)} (hon : k.intr = .on)
    (he : exec (P := kernelMain a b) input (.prog l) rest c =
      .ok ({ c with kernel := k, mem := m }.setStack st))
    (hu : Unwaited m.kbdBuf.ioq xs) (hlock : k.locks consoleLock = .free)
    (hflow : InFlight m xs []) (hbase : MainBase st) :
    MainStep c input (.prog l) rest := by
  have hself : ({ c with kernel := k, mem := m }.setStack st).top = st := Function.update_self ..
  exact ⟨_, he, hq.prog htop he, .outside hon (hself.symm ▸ hbase) ⟨hlock, xs, hu, hflow⟩⟩

/-- The return from the keyboard's handler. -/
theorem main_iret (hq : (mainDiscipline a b).Quiet c) (hoff : c.kernel.intr = .off)
    {base : List (Frame MainLoc)} (htop : c.top = .prog l :: .intrExit .on :: base) {m : MainMem}
    (he : exec (P := kernelMain a b) input (.prog l) (.intrExit .on :: base) c =
      .ok ({ c with mem := m }.setStack (.intrExit .on :: base)))
    (hu : Unwaited m.kbdBuf.ioq xs) (hlock : c.kernel.locks consoleLock = .free)
    (hflow : InFlight m xs []) (hbase : MainBase base) :
    MainStep c input (.prog l) (.intrExit .on :: base) := by
  have hself : ({ c with mem := m }.setStack (.intrExit .on :: base)).top = .intrExit .on :: base :=
    Function.update_self ..
  refine ⟨_, he, hq.prog htop he, .resumed hoff ?_ ⟨hlock, xs, hu, hflow⟩⟩
  exact hself.symm ▸ Or.inl ⟨base, hbase, rfl⟩

/-- A statement of ioqueue.c that stays in the same call. -/
theorem main_ioq_goto {pc pc' : IoqPc} {q : IoqMem} (hoff : c.kernel.intr = .off)
    (hstep : ioqStep kbdLock c.kernel.running .off c.mem.kbdBuf pc = .goto q pc') :
    exec (P := kernelMain a b) input (.prog (.ioq pc)) rest c =
      .ok ({ c with mem := { c.mem with kbdBuf := q } }.setStack (.prog (.ioq pc') :: rest)) := by
  show execProg ((ioqStep kbdLock c.kernel.running c.kernel.intr c.mem.kbdBuf pc).embed
    (fun q => { c.mem with kbdBuf := q }) MainLoc.ioq) rest c = _
  rw [hoff, hstep]
  rfl

/-- A statement of ioqueue.c that returns. -/
theorem main_ioq_ret {pc : IoqPc} {q : IoqMem} (hoff : c.kernel.intr = .off)
    (hstep : ioqStep kbdLock c.kernel.running .off c.mem.kbdBuf pc = .ret q) :
    exec (P := kernelMain a b) input (.prog (.ioq pc)) rest c =
      .ok ({ c with mem := { c.mem with kbdBuf := q } }.setStack rest) := by
  show execProg ((ioqStep kbdLock c.kernel.running c.kernel.intr c.mem.kbdBuf pc).embed
    (fun q => { c.mem with kbdBuf := q }) MainLoc.ioq) rest c = _
  rw [hoff, hstep]
  rfl

/-! ### One lemma for each kind of section -/

variable {f : Frame MainLoc} {st : List (Frame MainLoc)} {ys : List UInt8}

/-- `main` starts the consumers. -/
theorem main_start (hq : (mainDiscipline a b).Quiet c) (hoff : c.kernel.intr = .off)
    (htop : c.top = f :: rest) (hg : SchedGuard c (.exec input))
    (hu : Unwaited c.mem.kbdBuf.ioq xs) (hat : StartAt a b (f :: rest))
    (hlock : c.kernel.locks consoleLock = .free) (hflow : InFlight c.mem xs []) :
    MainStep c input f rest := by
  have hstart : ∀ u w l, f = .threadStart u 31 (.consumer w .loop) → rest = [.prog l] →
      StartAt a b [.prog l] → MainStep c input f rest := by
    intro u w l hf hrest hnext
    subst hf hrest
    obtain ⟨c', he, hquiet, htop', hintr, hmem, hlocks⟩ :=
      hq.threadStart input htop (hg _ (by rw [htop]; rfl)) ⟨w, rfl⟩
    refine ⟨c', he, hquiet, .inside (hintr.trans hoff) ⟨xs, ?_, ?_⟩⟩
    · rw [hmem]
      exact hu
    · rw [hmem, hlocks, htop']
      exact .start hnext hlock hflow
  cases hat with
  | startA => exact main_inside hq htop hoff rfl hu (.start .startingA hlock hflow)
  | startingA => exact hstart a .a .startB rfl rfl .startB
  | startB => exact main_inside hq htop hoff rfl hu (.start .startingB hlock hflow)
  | startingB => exact hstart b .b .sti rfl rfl .sti
  | sti =>
    exact main_outside hq htop (k := { c.kernel with intr := .on }) rfl rfl hu hlock hflow (.inl rfl)

/-- A consumer outside console.c: it reads the buffer only when a character is there. -/
theorem main_consumer (hq : (mainDiscipline a b).Quiet c) (hoff : c.kernel.intr = .off)
    (htop : c.top = f :: rest) (hu : Unwaited c.mem.kbdBuf.ioq xs)
    (hat : ConsumerAt c.kernel.running c.mem xs ys (f :: rest))
    (hlock : c.kernel.locks consoleLock = .free) (hflow : InFlight c.mem xs ys) :
    MainStep c input f rest := by
  obtain ⟨hidle, hle⟩ := id hu
  cases hat with
  | test w =>
    have hexec : ∀ act, consumerStep c.kernel.running .off c.mem w (.test .on) = act →
        exec (P := kernelMain a b) input (.prog (.consumer w (.test .on))) [] c =
          execProg act [] c := by
      intro act hact
      rw [← hact, ← hoff]
      rfl
    by_cases hnil : xs = []
    · refine main_inside hq htop hoff (m := c.mem) (hexec (.goto c.mem (.consumer w (.restore .on))) ?_)
        hu (.consumer (.restore w) hlock hflow)
      simp [consumerStep, hidle.ioqEmpty, hnil]
    · refine main_inside hq htop hoff (m := c.mem) (hexec (.goto c.mem (.consumer w (.putStr .on))) ?_)
        hu (.consumer (.putStr w hnil) hlock hflow)
      simp [consumerStep, hidle.ioqEmpty, hnil]
  | putStr w hne =>
    exact main_inside hq htop hoff rfl hu (.console (.acquire (.str w.arg w hne) hlock) hflow)
  | getchar w hne =>
    exact main_inside hq htop hoff rfl hu (.consumer (.ioqGetchar w hne) hlock hflow)
  | ioqGetchar w hne =>
    exact main_inside hq htop hoff (main_ioq_goto hoff rfl) hu
      (.consumer (.ioqGetTest w hne) hlock hflow)
  | ioqGetTest w hne =>
    exact main_inside hq htop hoff (main_ioq_goto hoff ((hidle.getTest ..).trans (if_neg hne))) hu
      (.consumer (.ioqGetTake w hne) hlock hflow)
  | ioqGetTake w hne =>
    obtain ⟨x, xs, rfl⟩ := List.exists_cons_of_ne_nil hne
    have hnil : xs = [] := by simpa using hle
    have hu' : Unwaited c.mem.kbdBuf.ioq.take.2 xs := ⟨hidle.take, by simp [hnil]⟩
    refine main_inside hq htop hoff (main_ioq_ret hoff (hidle.getTake ..)) hu'
      (.consumer (.putChar w) hlock ?_)
    -- the byte has moved from the buffer to the register
    unfold InFlight
    dsimp only
    rw [Function.update_self, hidle.toContents.take.1]
    exact hflow
  | putChar w =>
    exact main_inside hq htop hoff rfl hu (.console (.acquire (.char _ w) hlock) hflow)
  | restore w =>
    exact main_outside hq htop (k := { c.kernel with intr := .on }) rfl rfl hu hlock hflow
      (.inr ⟨w, rfl⟩)

/-- A statement of a call on the console's lock. -/
theorem main_lock (hq : (mainDiscipline a b).Quiet c) (hoff : c.kernel.intr = .off)
    (hu : Unwaited c.mem.kbdBuf.ioq xs) {after : LockState} {fs : List (Frame MainLoc)}
    (htop : c.top = fs ++ st) (hcons : f :: rest = fs ++ st)
    (hat : LockCallAt consoleLock c.kernel.running after fs (c.kernel.locks consoleLock))
    (hnext : ∀ fs' lock, LockCallAt consoleLock c.kernel.running after fs' lock →
      MainInside a b c.kernel.running c.mem xs lock (fs' ++ st))
    (hret : MainInside a b c.kernel.running c.mem xs after st) : MainStep c input f rest := by
  obtain ⟨g, gs, rfl⟩ := hat.exists_cons
  cases hcons
  obtain ⟨c', he, hquiet, honly, hend⟩ :=
    LockCallAt.exec (P := kernelMain a b) hq hoff hat htop input
  refine ⟨c', he, hquiet, .inside (honly.intr.trans hoff) ⟨xs, ?_, ?_⟩⟩
  · rw [honly.mem]
    exact hu
  · rw [honly.mem, honly.running]
    rcases hend with ⟨fs', hat', htop'⟩ | ⟨hlock, htop'⟩
    · rw [htop']
      exact hnext fs' _ hat'
    · rw [htop', hlock]
      exact hret

theorem ConsoleJob.return {w : Write} (job : ConsoleJob xs w l ys) : ConsoleReturn xs l := by
  cases job with
  | str s w hne => exact .getchar w hne
  | char c w => exact .restore w

/-- What a call of console.c prints is no longer in flight. -/
theorem ConsoleJob.flow {w : Write} (job : ConsoleJob xs w l ys) {m : MainMem}
    (hflow : InFlight m xs ys) : InFlight { m with screen := m.screen ++ [w] } xs [] := by
  unfold InFlight MainMem.printed at *
  cases job with
  | str s w hne => simpa using hflow
  | char c w => simpa using hflow

/-- A consumer in console.c. -/
theorem main_console (hq : (mainDiscipline a b).Quiet c) (hoff : c.kernel.intr = .off)
    (htop : c.top = f :: rest) (hu : Unwaited c.mem.kbdBuf.ioq xs)
    (hat : ConsoleAt c.kernel.running xs (c.kernel.locks consoleLock) ys st) (hst : f :: rest = st)
    (hflow : InFlight c.mem xs ys) : MainStep c input f rest := by
  cases hat with
  | acquire job hlock =>
    cases hst
    exact main_inside hq htop hoff rfl hu (.console (.acquiring job (.acquire hlock)) hflow)
  | acquiring job hat =>
    exact main_lock hq hoff hu (htop.trans hst) hst hat
      (fun fs' lock hat' => .console (.acquiring job hat') hflow) (.console (.print job rfl) hflow)
  | print job hlock =>
    cases hst
    exact main_inside hq htop hoff rfl hu (.console (.release job.return hlock) (job.flow hflow))
  | release hl hlock =>
    cases hst
    exact main_inside hq htop hoff rfl hu (.console (.releasing hl (.release hlock)) hflow)
  | releasing hl hat =>
    exact main_lock hq hoff hu (htop.trans hst) hst hat
      (fun fs' lock hat' => .console (.releasing hl hat') hflow) (.console (.done hl rfl) hflow)
  | done hl hlock =>
    cases hst
    cases hl with
    | getchar w hne => exact main_inside hq htop hoff rfl hu (.consumer (.getchar w hne) hlock hflow)
    | restore w => exact main_inside hq htop hoff rfl hu (.consumer (.restore w) hlock hflow)

/-- The keyboard's handler: a character is accepted only into an empty buffer. -/
theorem main_keyboard (hq : (mainDiscipline a b).Quiet c) (hoff : c.kernel.intr = .off)
    (htop : c.top = f :: rest) (hu : Unwaited c.mem.kbdBuf.ioq xs) {base : List (Frame MainLoc)}
    (hat : KeyboardAt xs st) (hst : f :: rest = st ++ .intrExit .on :: base) (hbase : MainBase base)
    (hlock : c.kernel.locks consoleLock = .free) (hflow : InFlight c.mem xs []) :
    MainStep c input f rest := by
  obtain ⟨hidle, hle⟩ := id hu
  have hexec : ∀ pc act, keyboardStep input .off c.mem pc = act →
      exec (P := kernelMain a b) input (.prog (.keyboard pc)) (.intrExit .on :: base) c =
        execProg act (.intrExit .on :: base) c := by
    intro pc act hact
    rw [← hact, ← hoff]
    rfl
  cases hat with
  | scan =>
    cases hst
    let m : MainMem := { c.mem with keyboard := (keyboardScan c.mem.keyboard input).1 }
    cases hout : (keyboardScan c.mem.keyboard input).2 with
    | done =>
      refine main_iret hq hoff htop (m := m) (hexec .scan (.ret m) ?_) hu hlock hflow hbase
      simp [keyboardStep, hout, m]
    | char ch =>
      refine main_inside hq htop hoff (m := m) (hexec .scan (.goto m (.keyboard (.test ch))) ?_) hu
        (.keyboard (.test ch) hbase hlock hflow)
      simp [keyboardStep, hout, m]
    | unknown =>
      let m' : MainMem := { m with screen := m.screen ++ [.putStr "unknown key\n"] }
      refine main_iret hq hoff htop (m := m') (hexec .scan (.ret m') ?_) hu hlock ?_ hbase
      · simp [keyboardStep, hout, m, m']
      · simpa [InFlight, MainMem.printed, m, m'] using hflow
  | test ch =>
    cases hst
    by_cases hone : xs.length = 1
    · refine main_iret hq hoff htop (m := c.mem) (hexec (.test ch) (.ret c.mem) ?_) hu hlock hflow
        hbase
      simp [keyboardStep, hidle.ioqFull, hone]
    · have hnil : xs = [] := List.length_eq_zero_iff.mp (by omega)
      refine main_inside hq htop hoff (m := c.mem)
        (hexec (.test ch) (.enter c.mem (.ioq (.putchar ch)) (.keyboard (.done ch))) ?_) hu
        (.keyboard (.putchar ch hnil) hbase hlock hflow)
      simp [keyboardStep, hidle.ioqFull, hone]
  | putchar ch hnil =>
    cases hst
    exact main_inside hq htop hoff (main_ioq_goto hoff rfl) hu
      (.keyboard (.putTest ch hnil) hbase hlock hflow)
  | putTest ch hnil =>
    cases hst
    have hne : xs.length ≠ 1 := by simp [hnil]
    exact main_inside hq htop hoff (main_ioq_goto hoff ((hidle.putTest ..).trans (if_neg hne))) hu
      (.keyboard (.putStore ch hnil) hbase hlock hflow)
  | putStore ch hnil =>
    cases hst
    subst hnil
    have hu' : Unwaited (c.mem.kbdBuf.ioq.store ch) [ch] := ⟨hidle.store ch (by decide), le_refl 1⟩
    have hprinted : c.mem.accepted = c.mem.printed := by simpa [InFlight] using hflow
    exact main_inside hq htop hoff (main_ioq_ret hoff (hidle.putStore ..)) hu'
      (.accepting ch rfl hbase hlock hprinted)

/-- A statement in a section. -/
theorem main_inside_exec (hq : (mainDiscipline a b).Quiet c) (hoff : c.kernel.intr = .off)
    (htop : c.top = f :: rest) (hg : SchedGuard c (.exec input))
    (hu : Unwaited c.mem.kbdBuf.ioq xs)
    (hin : MainInside a b c.kernel.running c.mem xs (c.kernel.locks consoleLock) st)
    (hst : f :: rest = st) : MainStep c input f rest := by
  cases hin with
  | start hat hlock hflow => exact main_start hq hoff htop hg hu (hst ▸ hat) hlock hflow
  | consumer hat hlock hflow => exact main_consumer hq hoff htop hu (hst ▸ hat) hlock hflow
  | console hat hflow => exact main_console hq hoff htop hu hat hst hflow
  | keyboard hat hbase hlock hflow =>
    exact main_keyboard hq hoff htop hu hat hst hbase hlock hflow
  | accepting ch hbuf hbase hlock hflow =>
    cases hst
    let m : MainMem := { c.mem with accepted := c.mem.accepted ++ [ch] }
    refine main_iret hq hoff htop (m := m) rfl hu hlock ?_ hbase
    show c.mem.accepted ++ [ch] = c.mem.printed ++ ([] ++ xs)
    rw [hbuf, hflow, List.nil_append]

/-- A statement outside the sections. -/
theorem main_outside_exec (hq : (mainDiscipline a b).Quiet c) (hon : c.kernel.intr = .on)
    (htop : c.top = f :: rest) (hbase : MainBase (f :: rest)) (hu : Unwaited c.mem.kbdBuf.ioq xs)
    (hlock : c.kernel.locks consoleLock = .free) (hflow : InFlight c.mem xs []) :
    MainStep c input f rest := by
  rcases hbase with heq | ⟨w, heq⟩
  · cases heq
    exact main_outside hq htop hon rfl hu hlock hflow (.inl rfl)
  · cases heq
    refine main_inside hq htop (k := { c.kernel with intr := .off }) (m := c.mem) rfl ?_ hu
      (.consumer (.test w) hlock hflow)
    show execProg (.setIntr .off (MainLoc.consumer w (.test c.kernel.intr))) [] c = _
    rw [hon]
    rfl

end Steps

/-- **The kernel keeps to the discipline.** -/
theorem main_sound (a b : Tid) : (mainDiscipline a b).Sound SchedGuard where
  sched _ _ hg := hg
  entry l hl := by
    obtain ⟨w, rfl⟩ := hl
    exact Or.inr ⟨w, rfl⟩
  outside c input f rest hq hon htop hbase hrest _ := by
    obtain ⟨hlock, xs, hu, hflow⟩ := hrest
    exact main_outside_exec hq hon htop hbase hu hlock hflow
  inside c input f rest hq hoff htop hin hg := by
    obtain ⟨xs, hu, hin⟩ := hin
    exact main_inside_exec hq hoff htop hg hu hin htop.symm
  device c input l hq hrest hl base hbase htop := by
    obtain ⟨hlock, xs, hu, hflow⟩ := hrest
    cases hl
    refine ⟨xs, hu, ?_⟩
    rw [htop]
    exact .keyboard .scan hbase hlock hflow

/-! ## Runs -/

/-- `main` starts in a section. -/
theorem MainInit.inv {a b : Tid} {c : Config Queues (kernelMain a b)} (h : MainInit c) :
    (mainDiscipline a b).Inv c := by
  obtain ⟨buffer, hbuf⟩ := h.kbdBuf
  refine ⟨Discipline.Quiet.boot h.booted, .inside h.intr ⟨[], ⟨?_, Nat.zero_le _⟩, ?_⟩⟩
  · rw [hbuf]
    exact ⟨.init buffer, rfl, rfl⟩
  · obtain ⟨hvalue, hholder, hnr⟩ := h.locks consoleLock
    have hlock : c.kernel.locks consoleLock = .free := by
      simp only [Kernel.locks, hvalue, hholder, hnr, LockState.free]
    have hflow : InFlight c.mem [] [] := by
      unfold InFlight
      rw [h.printed, h.accepted]
      rfl
    rw [h.main]
    exact .start .startA hlock hflow

/-- In every phase the printed characters are the first of the accepted ones. -/
theorem main_printed {a b : Tid} {c : Config Queues (kernelMain a b)}
    (h : (mainDiscipline a b).Inv c) : c.mem.printed <+: c.mem.accepted := by
  have hflow : ∀ xs ys, InFlight c.mem xs ys → c.mem.printed <+: c.mem.accepted :=
    fun xs ys hf => ⟨ys ++ xs, hf.symm⟩
  cases h.phase with
  | outside _ _ hrest =>
    obtain ⟨-, xs, -, hf⟩ := hrest
    exact hflow xs [] hf
  | resumed _ _ hrest =>
    obtain ⟨-, xs, -, hf⟩ := hrest
    exact hflow xs [] hf
  | inside _ hin =>
    obtain ⟨xs, -, hin⟩ := hin
    generalize c.top = st at hin
    cases hin with
    | start _ _ hf => exact hflow xs [] hf
    | consumer _ _ hf => exact hflow xs _ hf
    | console _ hf => exact hflow xs _ hf
    | keyboard _ _ _ hf => exact hflow xs [] hf
    | accepting _ _ _ _ hf => exact hf ▸ List.prefix_rfl

/-- Whoever is about to call `ioq_getchar` has found a character in the buffer. -/
theorem main_getchar {a b : Tid} {c : Config Queues (kernelMain a b)}
    (h : (mainDiscipline a b).Inv c) {rest : List (Frame MainLoc)}
    (htop : c.top = .prog (.ioq .getchar) :: rest) : ioqEmpty .off c.mem.kbdBuf.ioq = .ok false := by
  cases h.phase with
  | outside _ hbase =>
    rcases hbase with heq | ⟨w, heq⟩
    · rw [htop] at heq
      cases heq
    · rw [htop] at heq
      cases heq
  | resumed _ hparked =>
    rcases hparked with ⟨base, -, heq⟩ | ⟨l, -, heq⟩
    · rw [htop] at heq
      cases heq
    · rw [htop] at heq
      cases heq
  | inside _ hin =>
    obtain ⟨xs, hu, hin⟩ := hin
    generalize hst : c.top = st at hin
    generalize c.kernel.locks consoleLock = lock at hin
    rw [htop] at hst
    cases hin with
    | start hat => subst hst; cases hat
    | consumer hat =>
      subst hst
      cases hat with
      | ioqGetchar w hne =>
        rw [hu.1.ioqEmpty, decide_eq_false hne]
    | console hat =>
      cases hat with
      | acquiring job hat => cases hat <;> cases hst
      | releasing hl hat => cases hat <;> cases hst
      | _ => cases hst
    | keyboard hat => cases hat <;> cases hst
    | accepting => cases hst

/-- **The kernel is safe.** Whatever the order of timer and keyboard interrupts, no event stops the
machine, `ioq_getchar` is called only when a character is there, and the characters the consumers
print are the first of those the keyboard's handler accepted, in order. -/
theorem main_safe {a b : Tid} {c : Config (LinkHeap ElemAddr) (kernelMain a b)}
    (hc : (machine MainInit).Reach SchedGuard c) :
    (∀ e p, SchedGuard c e → machineStep e c ≠ some (.error p)) ∧
    (∀ rest, c.top = .prog (.ioq .getchar) :: rest → ioqEmpty .off c.mem.kbdBuf.ioq = .ok false) ∧
    c.mem.printed <+: c.mem.accepted := by
  have hinit : ∀ c : Config (LinkHeap ElemAddr) (kernelMain a b), MainInit c →
      ∃ d : Config Queues (kernelMain a b), MainInit d ∧ ConfigRel c d := by
    intro c h
    obtain ⟨d, hd, hrel⟩ := booted_agree h.booted
    obtain ⟨hp, rfl, -⟩ := id hrel
    exact ⟨d, ⟨hd, h.locks, h.intr, h.main, h.kbdBuf, h.keyboard, h.printed, h.accepted⟩, hrel⟩
  obtain ⟨⟨d, h, rfl, hinv⟩, hfault⟩ :=
    (main_sound a b).heap (fun _ _ _ hg => hg) hinit (fun _ hd => hd.inv) hc
  exact ⟨hfault, fun rest htop => main_getchar hinv htop, main_printed hinv⟩

/-- The key A is pressed while `main` spins; the first consumer prints the character. -/
private def pressA : List (Event (kernelMain 2 3)) :=
  List.replicate 5 (.exec (0 : UInt8)) ++ [.device (0x1e : UInt8)] ++
    List.replicate 7 (.exec (0x1e : UInt8)) ++ [.timer] ++ List.replicate 50 (.exec (0 : UInt8))

theorem main_safe_key :
    ∃ c : Config (LinkHeap ElemAddr) (kernelMain 2 3),
      c.mem.printed = [97] ∧ c.mem.printed <+: c.mem.accepted := by
  have hinit : ∃ c : Config (LinkHeap ElemAddr) (kernelMain 2 3),
      bootConfig 1 .off (fun _ => 1)
        (⟨⟨ioqueueInit fun _ => 0, fun _ => 0⟩, .start, [], []⟩ : MainMem) MainLoc.startA = .ok c ∧
      ∃ c', (machine MainInit).run schedCheck pressA c = some (.ok c') ∧ c'.mem.printed = [97] :=
    ⟨_, rfl, _, rfl, rfl⟩
  obtain ⟨c, hboot, c', hrun, hprinted⟩ := hinit
  have hb := bootConfig_booted _ _ _ _ _ hboot
  cases hboot
  have hstart : (machine MainInit).Reach SchedGuard _ :=
    .init ⟨hb, fun _ => ⟨rfl, rfl, rfl⟩, rfl, rfl, ⟨_, rfl⟩, rfl, rfl, rfl⟩
  exact ⟨c', hprinted, (main_safe (hstart.run schedCheck_guard hrun)).2.2⟩

end OsKernel
