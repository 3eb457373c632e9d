import OsKernel.Kernel.Main
import OsKernel.Kernel.Terminal

/-!
# device/console.c

Threads print under `console_lock`, one `put_char` after another. The handler of the keyboard prints
its message about an unknown key as well, and it cannot ask for the lock.

- `consoleThreads`: the program of the threads; `put_char` is cut at every access to the hardware.
- `consoleMachine`: the machine with the keyboard's interrupt. The handler runs with interrupts off,
  so it is one event. The characters that it puts into `kbd_buf` are not part of the state, because
  no thread here reads them.
- `NothingLost`: the screen is what the characters make of it in some order of the sources.
- `ConsoleInv.step`: what one event keeps.
- `console_nothing_lost`: no character is lost in any run in which the handler's message does not come
  while a thread is inside `put_char`.
-/

namespace OsKernel

open Lib

/-! ## The threads -/

/-- Who prints. -/
inductive PrintSource where
  | thread (t : Tid)
  | keyboard
deriving DecidableEq

/-- What the threads and the handler share. `printed` is auxiliary: the bytes whose `put_char` has
returned, by who called it. -/
structure ConsoleMem where
  vga : Vga
  kbd : KeyboardStatus
  printed : PrintSource → List UInt8

/-- `put_char` has returned. -/
def ConsoleMem.print (m : ConsoleMem) (src : PrintSource) (v : Vga) (bytes : List UInt8) :
    ConsoleMem :=
  { m with vga := v, printed := Function.update m.printed src (m.printed src ++ bytes) }

/-- The calls of console.c; a string is the bytes from the pointer on. -/
inductive ConsoleCall where
  | consolePutStr (str : List UInt8)
  | consolePutChar (charAsci : UInt8)

/-- The bytes that are passed to `put_char`. -/
def ConsoleCall.bytes : ConsoleCall → List UInt8
  | .consolePutStr str => str.takeWhile (· ≠ 0)
  | .consolePutChar charAsci => [charAsci]

/-- What the environment decides. -/
structure ConsoleInput where
  /-- the next thread to be started -/
  start : Option Tid
  /-- what the running thread prints now -/
  prints : Option ConsoleCall

/-- Control points of the threads. -/
inductive ConsoleLoc where
  /-- the main thread, while it starts the others with interrupts off -/
  | main
  /-- outside console.c -/
  | caller
  /-- with the lock, in `put_char` for the first of the bytes -/
  | put (bytes : List UInt8) (pc : PutCharPc)

/-- Threads that call `console_put_str` and `console_put_char`, the main thread among them. -/
def consoleThreads : Program where
  Mem := ConsoleMem
  Loc := ConsoleLoc
  Input := ConsoleInput
  step i t _ m
    | .main =>
      match i.start with
      | some u => .call m (.threadStart u 31 .caller) .main
      | none => .setIntr .on .caller
    | .caller =>
      match i.prints with
      | some f => .call m (.lockAcquire consoleLock) (.put f.bytes .start)
      | none => .goto m .caller
    | .put [] _ => .call m (.lockRelease consoleLock) .caller
    | .put (cl :: bytes) pc =>
      match putCharStep cl m.vga pc with
      | .goto v pc => .goto { m with vga := v } (.put (cl :: bytes) pc)
      | .ret v => .goto (m.print (.thread t) v [cl]) (.put bytes .start)
      | .fault _ => .panic .generalProtection
  handler _ := none

/-! ## The keyboard -/

/-- `"unknown key\n"` -/
def unknownKey : List UInt8 := [117, 110, 107, 110, 111, 119, 110, 32, 107, 101, 121, 10]

/-- `intr_keyboard_handler` for one byte from the keyboard's port. -/
def keyboardHandler (port : UInt8) (m : ConsoleMem) : Except Panic ConsoleMem :=
  let (kbd, outcome) := keyboardScan m.kbd port
  let m := { m with kbd := kbd }
  match outcome with
  | .unknown =>
    match putStr unknownKey m.vga with
    | .returned v => .ok (m.print .keyboard v unknownKey)
    | _ => .error .generalProtection
  | _ => .ok m

variable {H : Type}

/-- The keyboard's interrupt, from its entry to `iretd`. -/
def keyboardInterrupt (port : UInt8) (c : Config H consoleThreads) :
    Except Panic (Config H consoleThreads) := do
  let m ← keyboardHandler port c.mem
  return { c with mem := m }

/-- What can happen next. -/
inductive ConsoleEvent where
  | machine (e : Event consoleThreads)
  | keyboard (port : UInt8)

/-- One event. -/
def consoleMachineStep [TaskLists H] (e : ConsoleEvent) (c : Config H consoleThreads) :
    Option (Except Panic (Config H consoleThreads)) :=
  match e with
  | .machine e => machineStep e c
  | .keyboard port => if c.kernel.intr = .on then some (keyboardInterrupt port c) else none

/-- The state after `thread_init` and `console_init`, with `v` on the screen. -/
structure ConsoleInit [TaskLists H] (v : Vga) (c : Config H consoleThreads) : Prop where
  booted : Booted c
  locks : LocksFree c
  intr : c.kernel.intr = .off
  main : c.top = [.prog ConsoleLoc.main]
  vga : ConsoleMem.vga c.mem = v
  printed : ∀ src, ConsoleMem.printed c.mem src = []

/-- The threads with the keyboard. -/
def consoleMachine [TaskLists H] (v : Vga) :
    System (Config H consoleThreads) ConsoleEvent Panic where
  init := ConsoleInit v
  step := consoleMachineStep

/-! ## What is promised -/

/-- The character a thread at this control point is printing: `put_char` has begun with it. -/
def ConsoleLoc.printing : ConsoleLoc → Option (UInt8 × PutCharPc)
  | .put (cl :: _) pc => if pc = .start then none else some (cl, pc)
  | _ => none

/-- The character a thread is printing; the program has one frame, at the bottom of the stack. -/
def printing (st : List (Frame ConsoleLoc)) : Option (UInt8 × PutCharPc) :=
  match st.getLast? with
  | some (.prog l) => l.printing
  | _ => none

/-- The bytes of all sources in one order that keeps each source's own. -/
def Interleaves (order : List (PrintSource × UInt8)) (printed : PrintSource → List UInt8) : Prop :=
  ∀ src, (order.filter (·.1 = src)).map (·.2) = printed src

/-- **No character is lost**: what is on the screen has been printed in some order of the sources,
one character after another, and a thread inside `put_char` will add its character to that. -/
def NothingLost (v₀ : Vga) (c : Config H consoleThreads) : Prop :=
  ∃ order v, Interleaves order (ConsoleMem.printed c.mem) ∧
    putBytes (order.map (·.2)) v₀ = .returned v ∧
    ((∀ t, printing (c.stack t) = none) → ConsoleMem.vga c.mem = v) ∧
    ∀ t cl pc, printing (c.stack t) = some (cl, pc) →
      putCharRest cl (ConsoleMem.vga c.mem) pc = putChar cl v

/-- The environment starts threads on pages of their own. -/
def ConsoleGuard (c : Config H consoleThreads) : ConsoleEvent → Prop
  | .machine e => SchedGuard c e
  | .keyboard _ => True

/-- Moreover the handler does not print while a thread is inside `put_char`. -/
def NoKeyInside (c : Config H consoleThreads) : ConsoleEvent → Prop
  | .machine e => SchedGuard c e
  | .keyboard port =>
    (keyboardScan (ConsoleMem.kbd c.mem) port).2 = .unknown → ∀ t, printing (c.stack t) = none

/-! ## Calls of sync.c -/

section Calls

variable {P : Program} {c c' : Config Queues P} {s : SemaRef} {old : IntrStatus}
  {rest : List (Frame P.Loc)}

/-- One turn of the loop in `sema_down`: the thread returns or sleeps. -/
theorem semaDownTest_stack (hsched : SchedInv c) (he : semaDownTest s old rest c = .ok c') :
    c'.mem = c.mem ∧ c'.history.acquired = c.history.acquired ∧
      (c'.stack = Function.update c.stack c.kernel.running rest ∨
        c'.stack = Function.update c.stack c.kernel.running
          (.threadBlock c.kernel.intr :: .semaDown s old :: rest)) := by
  by_cases hv : c.kernel.value s = 0
  · rcases semaDownTest_zero s old rest hsched hv with ⟨-, herr⟩ | ⟨k, hk, -⟩
    · rw [herr] at he
      cases he
    · rw [hk] at he
      cases he
      exact ⟨rfl, rfl, .inr rfl⟩
  · rw [semaDownTest_pos s old rest hv] at he
    split at he
    · cases he
      exact ⟨rfl, rfl, .inl rfl⟩
    · cases he

theorem semaUp_stack (hsched : SchedInv c) (he : semaUp s rest c = .ok c') :
    c'.mem = c.mem ∧ c'.history.acquired = c.history.acquired ∧
      c'.stack = Function.update c.stack c.kernel.running rest := by
  by_cases hv : c.kernel.value s = 0
  · rcases semaUp_zero s rest hsched hv with ⟨-, hok⟩ | ⟨u, k, -, hok, -⟩
    · rw [hok] at he
      cases he
      exact ⟨rfl, rfl, rfl⟩
    · rw [hok] at he
      cases he
      exact ⟨rfl, rfl, rfl⟩
  · rw [semaUp_pos s rest hv] at he
    cases he

end Calls

/-! ## The lock -/

/-- Where a thread with `n` unmatched acquires of the lock can be. -/
inductive PrinterAt : Nat → List (Frame ConsoleLoc) → Prop where
  | none : PrinterAt 0 []
  | main : PrinterAt 0 [.prog .main]
  | caller : PrinterAt 0 [.prog .caller]
  | put (bytes : List UInt8) (pc : PutCharPc) : PrinterAt 1 [.prog (.put bytes pc)]
  | created : PrinterAt 0 [.kernelThread, .prog .caller]
  | start (u : Tid) : PrinterAt 0 [.threadStart u 31 .caller, .prog .main]
  -- `console_acquire`
  | acquire (pc : AcquirePc) (bytes : List UInt8) :
      PrinterAt 0 [.lockAcquire consoleLock pc, .prog (.put bytes .start)]
  | downCall (bytes : List UInt8) :
      PrinterAt 0 [.semaDownCall (.inLock consoleLock), .lockAcquire consoleLock .setHolder,
        .prog (.put bytes .start)]
  | down (old : IntrStatus) (bytes : List UInt8) :
      PrinterAt 0 [.semaDown (.inLock consoleLock) old, .lockAcquire consoleLock .setHolder,
        .prog (.put bytes .start)]
  | block (old old' : IntrStatus) (bytes : List UInt8) :
      PrinterAt 0 [.threadBlock old', .semaDown (.inLock consoleLock) old,
        .lockAcquire consoleLock .setHolder, .prog (.put bytes .start)]
  -- `console_release`
  | releaseCall : PrinterAt 1 [.lockRelease consoleLock .assertHolder, .prog .caller]
  | release (pc : ReleasePc) (h : pc ≠ .assertHolder) :
      PrinterAt 0 [.lockRelease consoleLock pc, .prog .caller]
  | up : PrinterAt 0 [.semaUp (.inLock consoleLock), .prog .caller]
  | intr {n : Nat} {st : List (Frame ConsoleLoc)} (old : IntrStatus) (h : PrinterAt n st) :
      PrinterAt n (.intrExit old :: st)

section Positions

variable {n : Nat} {st rest : List (Frame ConsoleLoc)} {f : Frame ConsoleLoc}

theorem printing_cons (f g : Frame ConsoleLoc) (rest : List (Frame ConsoleLoc)) :
    printing (f :: g :: rest) = printing (g :: rest) := by
  rw [printing, printing, List.getLast?_cons_cons]

theorem printing_intr (old : IntrStatus) : printing (.intrExit old :: st) = printing st := by
  cases st with
  | nil => rfl
  | cons g rest => exact printing_cons _ g rest

/-- Before the first access no character is being printed. -/
theorem printing_start (bytes : List UInt8) : ConsoleLoc.printing (.put bytes .start) = none := by
  cases bytes with
  | nil => rfl
  | cons cl bytes => rfl

/-- Whoever is inside `put_char` has the lock. -/
theorem PrinterAt.of_printing (h : PrinterAt n st) {cl : UInt8} {pc : PutCharPc}
    (hp : printing st = some (cl, pc)) : n = 1 := by
  induction h with
  | put bytes pc => rfl
  | releaseCall => rfl
  | intr old h ih => exact ih (printing_intr old ▸ hp)
  | acquire pc bytes => exact absurd (hp.symm.trans (printing_start bytes)) nofun
  | downCall bytes => exact absurd (hp.symm.trans (printing_start bytes)) nofun
  | down old bytes => exact absurd (hp.symm.trans (printing_start bytes)) nofun
  | block old old' bytes => exact absurd (hp.symm.trans (printing_start bytes)) nofun
  | _ => cases hp

theorem PrinterAt.of_put {bytes : List UInt8} {pc : PutCharPc}
    (h : PrinterAt n [.prog (.put bytes pc)]) : n = 1 := by
  cases h
  rfl

theorem PrinterAt.of_start {u : Tid} (h : PrinterAt n [.threadStart u 31 .caller, .prog .main]) :
    n = 0 := by
  cases h
  rfl

theorem PrinterAt.of_nil (h : PrinterAt n []) : n = 0 := by
  cases h
  rfl

/-- A thread that is about to release the lock has it. -/
theorem PrinterAt.of_release {plock : Nat}
    (h : PrinterAt n (.lockRelease plock .assertHolder :: rest)) : n = 1 ∧ plock = consoleLock := by
  cases h with
  | releaseCall => exact ⟨rfl, rfl⟩
  | release pc hpc => exact absurd rfl hpc

theorem PrinterAt.of_acquire {plock : Nat} {pc : AcquirePc}
    (h : PrinterAt n (.lockAcquire plock pc :: rest)) : n = 0 ∧ plock = consoleLock := by
  cases h
  exact ⟨rfl, rfl⟩

end Positions

section Steps

variable {c c' : Config Queues consoleThreads} {st rest : List (Frame ConsoleLoc)}
  {f : Frame ConsoleLoc}

/-- The number of unmatched acquires of a thread. -/
def Config.acquires {H : Type} (c : Config H consoleThreads) (t : Tid) : Nat :=
  c.history.acquired t consoleLock

/-- A step of the running thread in thread.c or sync.c: it ends on the stack `st`. -/
structure KernelStep (c c' : Config Queues consoleThreads) (st : List (Frame ConsoleLoc)) : Prop
    where
  mem : c'.mem = c.mem
  stack : c'.stack c.kernel.running = st
  others : ∀ t, t ≠ c.kernel.running → c'.stack t = c.stack t ∧ c'.acquires t = c.acquires t
  self : PrinterAt (c'.acquires c.kernel.running) st
  printing : printing st = OsKernel.printing c.top

/-- A step that counts no acquire. -/
theorem KernelStep.silent (hmem : c'.mem = c.mem)
    (hstack : c'.stack = Function.update c.stack c.kernel.running st)
    (hacq : c'.history.acquired = c.history.acquired)
    (hself : PrinterAt (c.acquires c.kernel.running) st)
    (hprint : OsKernel.printing st = OsKernel.printing c.top) : KernelStep c c' st := by
  refine ⟨hmem, ?_, fun t ht => ⟨?_, ?_⟩, ?_, hprint⟩
  · rw [hstack]
    exact Function.update_self ..
  · rw [hstack]
    exact Function.update_of_ne ht ..
  · rw [Config.acquires, hacq]
    rfl
  · rw [Config.acquires, hacq]
    exact hself

/-- The printing character is that of the frames below. -/
theorem printing_below {g : Frame ConsoleLoc} (htop : c.top = f :: g :: rest) :
    printing (g :: rest) = printing c.top := by
  rw [htop, printing_cons]

/-- A return from `lock_acquire`. -/
theorem KernelStep.acquired (hmem : c'.mem = c.mem)
    (hstack : c'.stack = Function.update c.stack c.kernel.running st)
    (hacq : c'.history.acquired = update₂ c.history.acquired c.kernel.running consoleLock
      (c.acquires c.kernel.running + 1))
    (hself : PrinterAt (c.acquires c.kernel.running + 1) st)
    (hprint : OsKernel.printing st = OsKernel.printing c.top) : KernelStep c c' st := by
  refine ⟨hmem, ?_, fun t ht => ⟨?_, ?_⟩, ?_, hprint⟩
  · rw [hstack]
    exact Function.update_self ..
  · rw [hstack]
    exact Function.update_of_ne ht ..
  · rw [Config.acquires, hacq, update₂_of_ne _ ht]
    rfl
  · have hself' : c'.acquires c.kernel.running = c.acquires c.kernel.running + 1 := by
      rw [Config.acquires, hacq, update₂_apply, if_pos ⟨rfl, rfl⟩]
    rw [hself']
    exact hself

/-- A statement of `lock_acquire`. -/
theorem lockAcquire_step {pc : AcquirePc} {bytes : List UInt8}
    (hn : c.acquires c.kernel.running = 0)
    (htop : c.top = [.lockAcquire consoleLock pc, .prog (.put bytes .start)])
    (he : lockAcquire (P := consoleThreads) consoleLock pc [.prog (.put bytes .start)] c = .ok c') :
    ∃ st, KernelStep c c' st := by
  have hreturn : PrinterAt (c.acquires c.kernel.running + 1) [.prog (.put bytes .start)] := by
    rw [hn]
    exact .put bytes .start
  cases pc with
  | test =>
    unfold lockAcquire at he
    dsimp only at he
    split at he
    · cases he
      exact ⟨_, .silent rfl rfl rfl (hn ▸ .downCall bytes) (htop ▸ rfl)⟩
    · cases he
      exact ⟨_, .silent rfl rfl rfl (hn ▸ .acquire .loadRepeatNr bytes) (htop ▸ rfl)⟩
  | setHolder =>
    cases he
    exact ⟨_, .silent rfl rfl rfl (hn ▸ .acquire .assertRepeatNr bytes) (htop ▸ rfl)⟩
  | assertRepeatNr =>
    obtain ⟨-, -, he⟩ := bind_eq_ok.mp he
    cases he
    exact ⟨_, .silent rfl rfl rfl (hn ▸ .acquire .setRepeatNr bytes) (htop ▸ rfl)⟩
  | loadRepeatNr =>
    cases he
    exact ⟨_, .silent rfl rfl rfl (hn ▸ .acquire (.storeRepeatNr _) bytes) (htop ▸ rfl)⟩
  | setRepeatNr =>
    cases he
    exact ⟨_, .acquired rfl rfl rfl hreturn (printing_below htop)⟩
  | storeRepeatNr nr =>
    cases he
    exact ⟨_, .acquired rfl rfl rfl hreturn (printing_below htop)⟩

/-- A statement of `lock_release`. -/
theorem lockRelease_step {n : Nat} {pc : ReleasePc} (hn : c.acquires c.kernel.running = n)
    (htop : c.top = [.lockRelease consoleLock pc, .prog .caller])
    (hpc : n = 1 ∧ pc = .assertHolder ∨ n = 0 ∧ pc ≠ .assertHolder)
    (he : lockRelease (P := consoleThreads) consoleLock pc [.prog .caller] c = .ok c') :
    ∃ st, KernelStep c c' st := by
  have hat : ∀ pc' : ReleasePc, pc' ≠ .assertHolder →
      PrinterAt 0 [.lockRelease consoleLock pc', .prog .caller] := fun pc' h => .release pc' h
  rcases hpc with ⟨rfl, rfl⟩ | ⟨rfl, hpc⟩
  · -- the release is counted as soon as it is called
    obtain ⟨-, -, he⟩ := bind_eq_ok.mp he
    cases he
    refine ⟨_, rfl, Function.update_self .., fun t ht => ⟨Function.update_of_ne ht .., ?_⟩, ?_,
      htop ▸ rfl⟩
    · exact congrFun (update₂_of_ne _ ht _ _) consoleLock
    · have hself : update₂ c.history.acquired c.kernel.running consoleLock
          (c.acquires c.kernel.running - 1) c.kernel.running consoleLock = 0 := by
        rw [update₂_apply, if_pos ⟨rfl, rfl⟩, hn]
      exact (congrArg (PrinterAt · _) hself).mpr (hat .test nofun)
  · cases pc with
    | assertHolder => exact absurd rfl hpc
    | test =>
      unfold lockRelease at he
      dsimp only at he
      split at he
      · cases he
        exact ⟨_, .silent rfl rfl rfl (hn ▸ hat .loadRepeatNr nofun) (htop ▸ rfl)⟩
      · cases he
        exact ⟨_, .silent rfl rfl rfl (hn ▸ hat .assertRepeatNr nofun) (htop ▸ rfl)⟩
    | assertRepeatNr =>
      obtain ⟨-, -, he⟩ := bind_eq_ok.mp he
      cases he
      exact ⟨_, .silent rfl rfl rfl (hn ▸ hat .clearHolder nofun) (htop ▸ rfl)⟩
    | loadRepeatNr =>
      cases he
      exact ⟨_, .silent rfl rfl rfl (hn ▸ hat (.storeRepeatNr _) nofun) (htop ▸ rfl)⟩
    | storeRepeatNr nr =>
      cases he
      exact ⟨_, .silent rfl rfl rfl (hn ▸ .caller) (printing_below htop)⟩
    | clearHolder =>
      cases he
      exact ⟨_, .silent rfl rfl rfl (hn ▸ hat .clearRepeatNr nofun) (htop ▸ rfl)⟩
    | clearRepeatNr =>
      cases he
      exact ⟨_, .silent rfl rfl rfl (hn ▸ .up) (htop ▸ rfl)⟩

/-- **One statement of thread.c or sync.c.** -/
theorem PrinterAt.exec (h : PrinterAt (c.acquires c.kernel.running) (f :: rest))
    (hsched : SchedInv c) (htop : c.top = f :: rest) {input : ConsoleInput}
    (hprog : ∀ l, f ≠ .prog l) (hstart : ∀ u prio fn, f ≠ .threadStart u prio fn)
    (he : OsKernel.exec (P := consoleThreads) input f rest c = .ok c') :
    ∃ st, KernelStep c c' st := by
  generalize hn : c.acquires c.kernel.running = n at h
  cases h with
  | main => exact absurd rfl (hprog _)
  | caller => exact absurd rfl (hprog _)
  | put bytes pc => exact absurd rfl (hprog _)
  | start u => exact absurd rfl (hstart _ _ _)
  | created =>
    cases he
    exact ⟨_, .silent rfl rfl rfl (hn ▸ .caller) (printing_below htop)⟩
  | downCall bytes =>
    cases he
    exact ⟨_, .silent rfl rfl rfl (hn ▸ .down _ bytes) (htop ▸ rfl)⟩
  | block old old' bytes =>
    cases he
    exact ⟨_, .silent rfl rfl rfl (hn ▸ .down _ bytes) (printing_below htop)⟩
  | intr old h =>
    cases he
    exact ⟨_, .silent rfl rfl rfl (hn ▸ h) (by rw [htop, printing_intr])⟩
  | down old bytes =>
    obtain ⟨hmem, hacq, hstack | hstack⟩ := semaDownTest_stack hsched he
    · exact ⟨_, .silent hmem hstack hacq (hn ▸ .acquire .setHolder bytes) (printing_below htop)⟩
    · exact ⟨_, .silent hmem hstack hacq (hn ▸ .block old _ bytes) (by rw [htop]; rfl)⟩
  | up =>
    obtain ⟨hmem, hacq, hstack⟩ := semaUp_stack hsched he
    exact ⟨_, .silent hmem hstack hacq (hn ▸ .caller) (printing_below htop)⟩
  | acquire pc bytes => exact lockAcquire_step hn htop he
  | releaseCall => exact lockRelease_step hn htop (.inl ⟨rfl, rfl⟩) he
  | release pc hpc => exact lockRelease_step hn htop (.inr ⟨rfl, hpc⟩) he

end Steps

/-! ## The invariant -/

/-- What holds in every state: the lock, where the threads are, and what is on the screen. -/
structure ConsoleInv (v₀ : Vga) (c : Config Queues consoleThreads) : Prop where
  sched : SchedInv c
  lock : LockInv consoleLock c
  printers : ∀ t, PrinterAt (c.acquires t) (c.stack t)
  screen : NothingLost v₀ c

section Screen

variable {v₀ : Vga} {c c' : Config Queues consoleThreads}

/-- At most one thread is inside `put_char`. -/
theorem ConsoleInv.unique (h : ConsoleInv v₀ c) {t u : Tid} (ht : c.acquires t = 1)
    (hu : c.acquires u = 1) : t = u := by
  have hclaim : ∀ w, c.acquires w = 1 → ∃ x, c.claim consoleLock w = some x := by
    intro w hw
    cases hcl : c.claim consoleLock w with
    | none =>
      have hzero : c.acquires w = 0 := claim_none hcl
      omega
    | some x => exact ⟨x, rfl⟩
  obtain ⟨x, hx⟩ := hclaim t ht
  obtain ⟨y, hy⟩ := hclaim u hu
  exact h.lock.unique hx hy

/-- A step after which every thread prints what it printed before. -/
theorem NothingLost.congr {c c' : Config Queues consoleThreads} (h : NothingLost v₀ c)
    (hvga : ConsoleMem.vga c'.mem = ConsoleMem.vga c.mem)
    (hprinted : ConsoleMem.printed c'.mem = ConsoleMem.printed c.mem)
    (hthreads : ∀ t, printing (c'.stack t) = printing (c.stack t)) : NothingLost v₀ c' := by
  obtain ⟨order, v, horder, hput, hidle, hinside⟩ := h
  refine ⟨order, v, hprinted ▸ horder, hput, fun hnone => ?_, fun t cl pc hp => ?_⟩
  · rw [hvga]
    exact hidle fun t => hthreads t ▸ hnone t
  · rw [hvga]
    exact hinside t cl pc (hthreads t ▸ hp)

/-- More bytes of a source behind the others. -/
theorem Interleaves.append {order : List (PrintSource × UInt8)}
    {printed : PrintSource → List UInt8} (h : Interleaves order printed) (src : PrintSource)
    (bytes : List UInt8) :
    Interleaves (order ++ bytes.map (src, ·)) (Function.update printed src (printed src ++ bytes)) := by
  intro src'
  rw [List.filter_append, List.map_append, h src']
  by_cases heq : src' = src
  · subst heq
    have hall : (bytes.map ((src', ·) : UInt8 → PrintSource × UInt8)).filter (·.1 = src') =
        bytes.map (src', ·) := by
      rw [List.filter_eq_self]
      simp
    rw [hall, Function.update_self, List.map_map]
    simp [Function.comp_def]
  · have hnone : (bytes.map ((src, ·) : UInt8 → PrintSource × UInt8)).filter (·.1 = src') = [] := by
      rw [List.filter_eq_nil_iff]
      simpa using fun _ _ => Ne.symm heq
    rw [hnone, Function.update_of_ne heq, List.map_nil, List.append_nil]

theorem putBytes_snoc {bytes more : List UInt8} {v : Vga} (h : putBytes bytes v₀ = .returned v) :
    putBytes (bytes ++ more) v₀ = putBytes more v := by
  rw [putBytes_append, h]

/-- A string without zero bytes is printed byte by byte. -/
theorem putStr_eq_putBytes {str : List UInt8} (hstr : 0 ∉ str) (v : Vga) :
    putStr str v = putBytes str v := by
  induction str generalizing v with
  | nil => rfl
  | cons cl str ih =>
    rw [List.mem_cons, not_or] at hstr
    rw [putStr, putBytes, if_neg (Ne.symm hstr.1)]
    cases putChar cl v with
    | returned v' => exact ih hstr.2 v'
    | faulted v' => rfl
    | outOfFuel => rfl

/-- Sources whose bytes are on the screen print more. -/
theorem NothingLost.print {order : List (PrintSource × UInt8)} {v v' : Vga} {src : PrintSource}
    {bytes : List UInt8} (horder : Interleaves order (ConsoleMem.printed c.mem))
    (hput : putBytes (order.map (·.2)) v₀ = .returned v) (hmore : putBytes bytes v = .returned v')
    (hmem : ConsoleMem.vga c'.mem = v' ∧ ConsoleMem.printed c'.mem =
      Function.update (ConsoleMem.printed c.mem) src (ConsoleMem.printed c.mem src ++ bytes))
    (hnone : ∀ t, printing (c'.stack t) = none) : NothingLost v₀ c' := by
  refine ⟨order ++ bytes.map (src, ·), v', ?_, ?_, fun _ => hmem.1, fun t cl pc hp => ?_⟩
  · rw [hmem.2]
    exact horder.append src bytes
  · have hbytes : (bytes.map ((src, ·) : UInt8 → PrintSource × UInt8)).map (·.2) = bytes := by
      simp [Function.comp_def]
    rw [List.map_append, hbytes, putBytes_snoc hput]
    exact hmore
  · rw [hnone t] at hp
    cases hp

end Screen

section OtherMemory

variable {P : Program} {c : Config Queues P}

/-- The program's memory is not the scheduler's business. -/
theorem SchedInv.withMem (h : SchedInv c) (m : P.Mem) : SchedInv { c with mem := m } :=
  ⟨h.partition, h.running_created, h.magic, h.fresh, h.calls, h.top_off, h.waiting_sleeps,
    h.sleeps_waiting⟩

theorem LockInv.withMem {plock : Nat} (h : LockInv plock c) (m : P.Mem) :
    LockInv plock { c with mem := m } :=
  ⟨⟨h.sema.permit, h.sema.woken_created, h.sema.woken_awake, h.sema.woken_retests, h.sema.wakeup⟩,
    h.noHandler, h.ok, h.owner, h.free, h.held⟩

end OtherMemory

/-! ### One event -/

section Events

variable {v₀ : Vga} {c c' : Config Queues consoleThreads}

/-- The keyboard's interrupt. -/
theorem ConsoleInv.keyboard (h : ConsoleInv v₀ c) {port : UInt8}
    (hg : NoKeyInside c (.keyboard port)) (he : keyboardInterrupt port c = .ok c') :
    ConsoleInv v₀ c' := by
  obtain ⟨m, hm, he⟩ := bind_eq_ok.mp he
  cases he
  refine ⟨h.sched.withMem m, h.lock.withMem m, h.printers, ?_⟩
  obtain ⟨order, v, horder, hput, hidle, -⟩ := id h.screen
  unfold keyboardHandler at hm
  dsimp only at hm
  split at hm
  · next hunknown =>
    have hnone := hg hunknown
    have hvga := hidle hnone
    split at hm
    · next v' hstr =>
      cases hm
      refine .print horder hput ?_ ⟨rfl, rfl⟩ hnone
      rw [← hvga, ← putStr_eq_putBytes (by decide)]
      exact hstr
    · cases hm
  · cases hm
    exact h.screen.congr rfl rfl fun _ => rfl

/-- A step in thread.c or sync.c. -/
theorem ConsoleInv.of_kernelStep (h : ConsoleInv v₀ c) {st : List (Frame ConsoleLoc)}
    (hk : KernelStep c c' st) (hsched : SchedInv c') (hlock : LockInv consoleLock c') :
    ConsoleInv v₀ c' := by
  refine ⟨hsched, hlock, fun t => ?_, h.screen.congr ?_ ?_ fun t => ?_⟩
  · by_cases ht : t = c.kernel.running
    · rw [ht, hk.stack]
      exact hk.self
    · rw [(hk.others t ht).1, (hk.others t ht).2]
      exact h.printers t
  · rw [hk.mem]
  · rw [hk.mem]
  · by_cases ht : t = c.kernel.running
    · rw [ht, hk.stack]
      exact hk.printing
    · rw [(hk.others t ht).1]

/-- `thread_start` -/
theorem ConsoleInv.threadStart (h : ConsoleInv v₀ c) {input : ConsoleInput} {u : Tid}
    (htop : c.top = [.threadStart u 31 .caller, .prog .main])
    (hg : FrameGuard c (.threadStart u 31 ConsoleLoc.caller))
    (he : exec (P := consoleThreads) input (.threadStart u 31 ConsoleLoc.caller)
      [.prog ConsoleLoc.main] c = .ok c')
    (hsched : SchedInv c') (hlock : LockInv consoleLock c') : ConsoleInv v₀ c' := by
  obtain ⟨k, -, he⟩ := bind_eq_ok.mp he
  have hc : _ = c' := Except.ok.inj he
  have hne := h.sched.running_ne hg.1
  have hnew : c'.stack u = [.kernelThread, .prog ConsoleLoc.caller] := by
    rw [← hc]
    exact Function.update_self ..
  have hself : c'.stack c.kernel.running = [.prog ConsoleLoc.main] := by
    rw [← hc]
    exact (Function.update_of_ne hne ..).trans (Function.update_self ..)
  have hother : ∀ t, t ≠ u → t ≠ c.kernel.running → c'.stack t = c.stack t := by
    intro t htu htr
    rw [← hc]
    exact (Function.update_of_ne htu ..).trans (Function.update_of_ne htr ..)
  have hacq : ∀ t, c'.acquires t = c.acquires t := by
    intro t
    rw [← hc]
    rfl
  have hmem : c'.mem = c.mem := by rw [← hc]
  have hfresh : c.stack u = [] := h.sched.fresh u hg.1
  -- the new thread has had no stack so far
  have hzero : c.acquires u = 0 := (hfresh ▸ h.printers u).of_nil
  have hrun : c.acquires c.kernel.running = 0 := by
    have hat : PrinterAt (c.acquires c.kernel.running) c.top := h.printers c.kernel.running
    rw [htop] at hat
    exact hat.of_start
  refine ⟨hsched, hlock, fun t => ?_, h.screen.congr ?_ ?_ fun t => ?_⟩
  · rw [hacq]
    by_cases htu : t = u
    · rw [htu, hnew, hzero]
      exact .created
    · by_cases htr : t = c.kernel.running
      · rw [htr, hself, hrun]
        exact .main
      · rw [hother t htu htr]
        exact h.printers t
  · rw [hmem]
  · rw [hmem]
  · by_cases htu : t = u
    · rw [htu, hnew, hfresh]
      rfl
    · by_cases htr : t = c.kernel.running
      · rw [htr, hself, show c.stack c.kernel.running = _ from htop]
        rfl
      · rw [hother t htu htr]

/-- What the screen is to a thread with the lock: nobody else is inside `put_char`, and its own
character comes behind those of `order`. -/
theorem ConsoleInv.putChar_at (h : ConsoleInv v₀ c) {cl : UInt8} {bytes : List UInt8}
    {pc : PutCharPc} (htop : c.top = [.prog (ConsoleLoc.put (cl :: bytes) pc)]) :
    (∀ t, t ≠ c.kernel.running → printing (c.stack t) = none) ∧
    ∃ order v, Interleaves order (ConsoleMem.printed c.mem) ∧
      putBytes (order.map (·.2)) v₀ = .returned v ∧
      putCharRest cl (ConsoleMem.vga c.mem) pc = putChar cl v := by
  have hone : c.acquires c.kernel.running = 1 := by
    have hat : PrinterAt (c.acquires c.kernel.running) c.top := h.printers c.kernel.running
    rw [htop] at hat
    exact hat.of_put
  have hnone : ∀ t, t ≠ c.kernel.running → printing (c.stack t) = none := by
    intro t ht
    cases hp : printing (c.stack t) with
    | none => rfl
    | some x => exact absurd (h.unique ((h.printers t).of_printing hp) hone) ht
  obtain ⟨order, v, horder, hput, hidle, hinside⟩ := id h.screen
  refine ⟨hnone, order, v, horder, hput, ?_⟩
  by_cases hpc : pc = .start
  · -- the call is about to begin
    have hall : ∀ t, printing (c.stack t) = none := by
      intro t
      by_cases ht : t = c.kernel.running
      · rw [ht, show c.stack c.kernel.running = _ from htop, hpc]
        rfl
      · exact hnone t ht
    rw [hidle hall, hpc]
    exact putCharRest_start
  · apply hinside c.kernel.running
    rw [show c.stack c.kernel.running = _ from htop]
    exact if_neg hpc

/-- A statement of a thread with the lock that leaves it in `put_char`'s caller: the memory and the
stack change, and nothing else. -/
theorem ConsoleInv.put_step (h : ConsoleInv v₀ c) {b b' : List UInt8} {pc pc' : PutCharPc}
    {m : ConsoleMem} (htop : c.top = [.prog (ConsoleLoc.put b pc)])
    (hc : c' = ({ c with mem := m } : Config Queues consoleThreads).setStack
      [.prog (ConsoleLoc.put b' pc')])
    (hsched : SchedInv c') (hlock : LockInv consoleLock c')
    (hscreen : c'.stack c.kernel.running = [.prog (ConsoleLoc.put b' pc')] →
      (∀ t, t ≠ c.kernel.running → c'.stack t = c.stack t) → NothingLost v₀ c') :
    ConsoleInv v₀ c' := by
  have hself : c'.stack c.kernel.running = [.prog (ConsoleLoc.put b' pc')] := by
    rw [hc]
    exact Function.update_self ..
  have hother : ∀ t, t ≠ c.kernel.running → c'.stack t = c.stack t := by
    intro t ht
    rw [hc]
    exact Function.update_of_ne ht ..
  have hacq : ∀ t, c'.acquires t = c.acquires t := by
    intro t
    rw [hc]
    rfl
  have hone : c.acquires c.kernel.running = 1 := by
    have hat : PrinterAt (c.acquires c.kernel.running) c.top := h.printers c.kernel.running
    rw [htop] at hat
    exact hat.of_put
  refine ⟨hsched, hlock, fun t => ?_, hscreen hself hother⟩
  rw [hacq]
  by_cases ht : t = c.kernel.running
  · rw [ht, hself, hone]
    exact .put b' pc'
  · rw [hother t ht]
    exact h.printers t

/-- `put_char`, one access further. -/
theorem ConsoleInv.goto (h : ConsoleInv v₀ c) {cl : UInt8} {bytes : List UInt8} {pc pc' : PutCharPc}
    {v' : Vga} (htop : c.top = [.prog (ConsoleLoc.put (cl :: bytes) pc)])
    (hstep : putCharStep cl (ConsoleMem.vga c.mem) pc = .goto v' pc')
    (hc : c' = ({ c with mem := { (c.mem : ConsoleMem) with vga := v' } } :
      Config Queues consoleThreads).setStack [.prog (ConsoleLoc.put (cl :: bytes) pc')])
    (hsched : SchedInv c') (hlock : LockInv consoleLock c') : ConsoleInv v₀ c' := by
  obtain ⟨hnone, order, v, horder, hput, hrest⟩ := h.putChar_at htop
  refine h.put_step htop hc hsched hlock fun hself hother => ?_
  have hvga : ConsoleMem.vga c'.mem = v' := by
    rw [hc]
    rfl
  have hprinted : ConsoleMem.printed c'.mem = ConsoleMem.printed c.mem := by
    rw [hc]
    rfl
  have hpc : pc' ≠ .start := putCharStep_ne_start hstep
  have hprinting : printing (c'.stack c.kernel.running) = some (cl, pc') := by
    rw [hself]
    exact if_neg hpc
  refine ⟨order, v, hprinted ▸ horder, hput, fun hall => ?_, fun t cl' pc'' hp => ?_⟩
  · rw [hall] at hprinting
    cases hprinting
  · by_cases ht : t = c.kernel.running
    · rw [ht, hprinting] at hp
      cases hp
      rw [hvga, ← hrest]
      exact (putCharRest_goto hstep).symm
    · rw [hother t ht, hnone t ht] at hp
      cases hp

/-- `put_char` returns. -/
theorem ConsoleInv.ret (h : ConsoleInv v₀ c) {cl : UInt8} {bytes : List UInt8} {pc : PutCharPc}
    {v' : Vga} (htop : c.top = [.prog (ConsoleLoc.put (cl :: bytes) pc)])
    (hstep : putCharStep cl (ConsoleMem.vga c.mem) pc = .ret v')
    (hc : c' = ({ c with
        mem := ConsoleMem.print c.mem (.thread c.kernel.running) v' [cl] } :
      Config Queues consoleThreads).setStack [.prog (ConsoleLoc.put bytes .start)])
    (hsched : SchedInv c') (hlock : LockInv consoleLock c') : ConsoleInv v₀ c' := by
  obtain ⟨hnone, order, v, horder, hput, hrest⟩ := h.putChar_at htop
  refine h.put_step htop hc hsched hlock fun hself hother => ?_
  have hcall : putBytes [cl] v = .returned v' := by
    have hret : putChar cl v = .returned v' := hrest.symm.trans (putCharRest_ret hstep)
    rw [putBytes, hret]
    rfl
  refine @NothingLost.print v₀ c c' order v v' (.thread c.kernel.running) [cl] horder hput hcall ?_
    fun t => ?_
  · rw [hc]
    exact ⟨rfl, rfl⟩
  · by_cases ht : t = c.kernel.running
    · rw [ht, hself]
      exact printing_start bytes
    · rw [hother t ht]
      exact hnone t ht

/-- A statement of the program. -/
theorem ConsoleInv.prog (h : ConsoleInv v₀ c) {input : ConsoleInput} {l : ConsoleLoc}
    {rest : List (Frame ConsoleLoc)} (htop : c.top = .prog l :: rest)
    (he : exec (P := consoleThreads) input (.prog l) rest c = .ok c')
    (hsched : SchedInv c') (hlock : LockInv consoleLock c') : ConsoleInv v₀ c' := by
  have hat : PrinterAt (c.acquires c.kernel.running) c.top := h.printers c.kernel.running
  rw [htop] at hat
  generalize hn : c.acquires c.kernel.running = n at hat
  change execProg (consoleThreads.step input c.kernel.running c.kernel.intr c.mem l) rest c = .ok c'
    at he
  cases hat with
  | main =>
    cases hstart : input.start with
    | some u =>
      simp only [consoleThreads, hstart] at he
      cases he
      exact h.of_kernelStep (.silent rfl rfl rfl (hn ▸ .start u) (by rw [htop]; rfl)) hsched hlock
    | none =>
      simp only [consoleThreads, hstart] at he
      cases he
      exact h.of_kernelStep (.silent rfl rfl rfl (hn ▸ .caller) (htop ▸ rfl)) hsched hlock
  | caller =>
    cases hprints : input.prints with
    | some f =>
      simp only [consoleThreads, hprints] at he
      cases he
      refine h.of_kernelStep (.silent rfl rfl rfl (hn ▸ .acquire .test f.bytes) ?_) hsched hlock
      rw [htop]
      exact printing_start f.bytes
    | none =>
      simp only [consoleThreads, hprints] at he
      cases he
      exact h.of_kernelStep (.silent rfl rfl rfl (hn ▸ .caller) (htop ▸ rfl)) hsched hlock
  | put bytes pc =>
    cases bytes with
    | nil =>
      cases he
      exact h.of_kernelStep (.silent rfl rfl rfl (hn ▸ .releaseCall) (htop ▸ rfl)) hsched hlock
    | cons cl bytes =>
      cases hstep : putCharStep cl (ConsoleMem.vga c.mem) pc with
      | goto v pc' =>
        simp only [consoleThreads, hstep] at he
        exact h.goto htop hstep (Except.ok.inj he).symm hsched hlock
      | ret v =>
        simp only [consoleThreads, hstep] at he
        exact h.ret htop hstep (Except.ok.inj he).symm hsched hlock
      | fault v =>
        simp only [consoleThreads, hstep] at he
        cases he

/-- The threads use the lock as lock.c asks. -/
theorem ConsoleInv.lockOk (h : ConsoleInv v₀ c) {e : Event consoleThreads}
    (hdev : ∀ input, e ≠ .device input) : LockOk c e := by
  have hat : PrinterAt (c.acquires c.kernel.running) c.top := h.printers c.kernel.running
  cases e with
  | exec input =>
    constructor
    · intro plock rest htop
      rw [htop] at hat
      obtain ⟨hone, rfl⟩ := hat.of_release
      exact Nat.lt_of_lt_of_eq Nat.one_pos hone.symm
    · intro plock rest htop
      rw [htop] at hat
      obtain ⟨hzero, rfl⟩ := hat.of_acquire
      have hacq : c.history.acquired c.kernel.running consoleLock = 0 := hzero
      rw [hacq]
      decide
  | timer => trivial
  | device input => exact absurd rfl (hdev input)

/-- An event of the machine. -/
theorem ConsoleInv.machine (h : ConsoleInv v₀ c) {e : Event consoleThreads} (hg : SchedGuard c e)
    (hs : machineStep e c = some (.ok c')) : ConsoleInv v₀ c' := by
  have hdev : ∀ input, e ≠ .device input := by
    rintro input rfl
    unfold machineStep at hs
    dsimp only at hs
    split at hs
    · cases hs
    · cases hs
  have hsched := h.sched.step hg hs
  have hlock := h.lock.step h.sched hg (h.lockOk hdev) hs
  cases e with
  | device input => exact absurd rfl (hdev input)
  | timer =>
    unfold machineStep at hs
    dsimp only at hs
    split at hs
    · have he : timerInterrupt c = .ok c' := Option.some.inj hs
      obtain ⟨k, -, he⟩ := bind_eq_ok.mp he
      cases he
      refine h.of_kernelStep (.silent rfl rfl rfl (.intr _ (h.printers c.kernel.running)) ?_)
        hsched hlock
      exact printing_intr _
    · cases hs
  | exec input =>
    unfold machineStep at hs
    cases htop : c.top with
    | nil => rw [htop] at hs; cases hs
    | cons f rest =>
      rw [htop] at hs
      have he := Option.some.inj hs
      have hat : PrinterAt (c.acquires c.kernel.running) (f :: rest) :=
        htop ▸ h.printers c.kernel.running
      by_cases hprog : ∃ l, f = .prog l
      · obtain ⟨l, rfl⟩ := hprog
        exact h.prog htop he hsched hlock
      · by_cases hstart : ∃ u prio fn, f = .threadStart u prio fn
        · obtain ⟨u, prio, fn, rfl⟩ := hstart
          have hframe := hg _ (by rw [htop]; rfl)
          generalize c.acquires c.kernel.running = n at hat
          cases hat
          exact h.threadStart htop hframe he hsched hlock
        · obtain ⟨st, hk⟩ := hat.exec h.sched htop (fun l hl => hprog ⟨l, hl⟩)
            (fun u prio fn hf => hstart ⟨u, prio, fn, hf⟩) he
          exact h.of_kernelStep hk hsched hlock

/-- **One event.** -/
theorem ConsoleInv.step (h : ConsoleInv v₀ c) {e : ConsoleEvent} (hg : NoKeyInside c e)
    (hs : consoleMachineStep e c = some (.ok c')) : ConsoleInv v₀ c' := by
  cases e with
  | machine e => exact h.machine hg hs
  | keyboard port =>
    unfold consoleMachineStep at hs
    dsimp only at hs
    split at hs
    · exact h.keyboard hg (Option.some.inj hs)
    · cases hs

/-- Before the first event nothing has been printed. -/
theorem ConsoleInit.inv (h : ConsoleInit v₀ c) : ConsoleInv v₀ c := by
  obtain ⟨l, hstack⟩ := h.booted.stack
  have htop : c.stack c.kernel.running = [.prog ConsoleLoc.main] := h.main
  have hother : ∀ t, t ≠ c.kernel.running → c.stack t = [] := by
    intro t ht
    rw [hstack]
    exact Function.update_of_ne ht ..
  have hacq : ∀ t, c.acquires t = 0 := fun t => h.booted.acquired t consoleLock
  have hfree := h.locks consoleLock
  refine ⟨SchedInv.boot h.booted, LockInv.boot h.booted hfree.1 hfree.2.1 hfree.2.2, fun t => ?_,
    [], v₀, fun src => (h.printed src).symm, rfl, fun _ => h.vga, fun t cl pc hp => ?_⟩
  · rw [hacq]
    by_cases ht : t = c.kernel.running
    · rw [ht, htop]
      exact .main
    · rw [hother t ht]
      exact .none
  · by_cases ht : t = c.kernel.running
    · rw [ht, htop] at hp
      cases hp
    · rw [hother t ht] at hp
      cases hp

end Events

/-! ## On list.c's pointers -/

section Runs

variable {v₀ : Vga}

/-- The handler does not look at the lists. -/
theorem keyboardInterrupt_agree {h : LinkHeap ElemAddr} {a : Config Queues consoleThreads}
    (port : UInt8) (hr : Holds h a.kernel.lists) :
    Agree ConfigRel (keyboardInterrupt port (a.withLists h)) (keyboardInterrupt port a) := by
  apply Agree.bind (.of_eq rfl)
  rintro m _ _ rfl
  exact .ok ⟨h, rfl, hr⟩

/-- The threads on list.c's pointers are simulated by those on sequences. -/
theorem console_simulation {guard : Config Queues consoleThreads → ConsoleEvent → Prop}
    (hguard : ∀ a e, guard a e → ConsoleGuard a e) :
    Simulation (consoleMachine (H := LinkHeap ElemAddr) v₀) (consoleMachine v₀) ConfigRel
      SchedInv guard where
  init c hc := by
    obtain ⟨a, ha, hrel⟩ := booted_agree hc.booted
    obtain ⟨h, rfl, hr⟩ := hrel
    exact ⟨a, ⟨ha, hc.locks, hc.intr, hc.main, hc.vga, hc.printed⟩, h, rfl, hr⟩
  step := by
    rintro _ a e ⟨h, rfl, hr⟩ hinv hg
    cases e with
    | machine e => exact machineStep_agree e hr hinv (hguard a (.machine e) hg)
    | keyboard port =>
      show Matches ConfigRel (if a.kernel.intr = .on then _ else _)
        (if a.kernel.intr = .on then _ else _)
      split
      · exact .some (keyboardInterrupt_agree port hr)
      · exact .none

/-- The promise does not depend on the lists. -/
theorem consoleGuard_withLists {a : Config Queues consoleThreads} {h : LinkHeap ElemAddr}
    {e : ConsoleEvent} (hg : ConsoleGuard (a.withLists h) e) : ConsoleGuard a e := by
  cases e with
  | machine e => cases e <;> exact hg
  | keyboard port => trivial

theorem NoKeyInside.guard {H : Type} {c : Config H consoleThreads} {e : ConsoleEvent}
    (hg : NoKeyInside c e) : ConsoleGuard c e := by
  cases e with
  | machine e => exact hg
  | keyboard port => trivial

/-- **No character is lost** in any run in which the handler's message does not come while a thread
is inside `put_char`. -/
theorem console_nothing_lost (v₀ : Vga) (c : Config (LinkHeap ElemAddr) consoleThreads)
    (hc : (consoleMachine v₀).Reach NoKeyInside c) : NothingLost v₀ c := by
  have hinv : ∀ a : Config Queues consoleThreads, (consoleMachine v₀).Reach NoKeyInside a →
      ConsoleInv v₀ a :=
    System.Reach.invariant (fun a ha => ConsoleInit.inv ha)
      fun a e a' _ hinv hg hs => hinv.step hg hs
  obtain ⟨a, ha, h, rfl, -⟩ := (console_simulation fun _ _ hg => hg.guard).reach
    (by
      rintro _ a e ⟨h, rfl, -⟩ hg
      cases e with
      | machine e => exact @consoleGuard_withLists a h (.machine e) hg
      | keyboard port => exact hg) (fun a ha => (hinv a ha).sched) hc
  exact (hinv a ha).screen

/-- A thread that has not been started has no stack. -/
theorem console_fresh {c : Config (LinkHeap ElemAddr) consoleThreads}
    (hc : (consoleMachine v₀).Reach ConsoleGuard c) {t : Tid} (ht : c.history.created t = false) :
    c.stack t = [] := by
  have hinv : ∀ a : Config Queues consoleThreads, (consoleMachine v₀).Reach ConsoleGuard a →
      SchedInv a := by
    refine System.Reach.invariant (fun a ha => SchedInv.boot ha.booted) fun a e a' _ hinv hg hs => ?_
    cases e with
    | machine e => exact hinv.step hg hs
    | keyboard port =>
      change (if a.kernel.intr = .on then some (keyboardInterrupt port a) else none) = _ at hs
      split at hs
      · obtain ⟨m, -, he⟩ := bind_eq_ok.mp (Option.some.inj hs)
        cases he
        exact hinv.withMem m
      · cases hs
  obtain ⟨a, ha, h, rfl, -⟩ := (console_simulation fun _ _ hg => hg).reach
    (by
      rintro _ a e ⟨h, rfl, -⟩ hg
      exact consoleGuard_withLists hg) hinv hc
  exact (hinv a ha).fresh t ht

end Runs

/-! ## Two runs -/

/-- The main thread prints, does nothing else, or a key without a character is pressed. -/
def consolePrints (str : List UInt8) : ConsoleEvent :=
  .machine (.exec (⟨none, some (.consolePutStr str)⟩ : ConsoleInput))
def consoleGoesOn : ConsoleEvent := .machine (.exec (⟨none, none⟩ : ConsoleInput))
def keyF1 : ConsoleEvent := .keyboard 0x3b

/-- A test for `ConsoleGuard`. -/
def consoleCheck (c : Config (LinkHeap ElemAddr) consoleThreads) : ConsoleEvent → Bool
  | .machine e => schedCheck c e
  | .keyboard _ => true

private theorem consoleCheck_guard (c : Config (LinkHeap ElemAddr) consoleThreads)
    (e : ConsoleEvent) (h : consoleCheck c e = true) : ConsoleGuard c e := by
  cases e with
  | machine e => exact schedCheck_guard c e h
  | keyboard port => trivial

/-- An empty screen. -/
def emptyConsole : ConsoleMem := ⟨blankScreen 0, .start, fun _ => []⟩

/-- A machine right after `console_init`. -/
private theorem console_booted {c : Config (LinkHeap ElemAddr) consoleThreads}
    (h : bootConfig (P := consoleThreads) 1 .off (fun _ => 1) emptyConsole ConsoleLoc.main = .ok c) :
    ConsoleInit (blankScreen 0) c := by
  have hb := bootConfig_booted _ _ _ _ _ h
  cases h
  exact ⟨hb, fun _ => ⟨rfl, rfl, rfl⟩, rfl, rfl, rfl, fun _ => rfl⟩

/-- The main thread asks for the lock, and reads the cursor for its character. -/
def asksAndReads : List ConsoleEvent :=
  [consoleGoesOn, consolePrints [97]] ++ List.replicate 10 consoleGoesOn

/-- In a run that starts nobody, only the main thread can be inside `put_char`. -/
private theorem printing_main {c : Config (LinkHeap ElemAddr) consoleThreads}
    (hc : (consoleMachine (blankScreen 0)).Reach ConsoleGuard c)
    (hstack : c.stack 1 = [.prog (ConsoleLoc.put [] .start)])
    (hcreated : c.history.created = fun t => decide (t = 1)) (t : Tid) :
    printing (c.stack t) = none := by
  by_cases ht : t = 1
  · rw [ht, hstack]
    rfl
  · rw [console_fresh hc (by rw [hcreated]; exact decide_eq_false ht)]
    rfl

/-- The same test, for runs without keys. -/
private def noKeyCheck (c : Config (LinkHeap ElemAddr) consoleThreads) : ConsoleEvent → Bool
  | .machine e => schedCheck c e
  | .keyboard _ => false

private theorem noKeyCheck_guard (c : Config (LinkHeap ElemAddr) consoleThreads)
    (e : ConsoleEvent) (h : noKeyCheck c e = true) : NoKeyInside c e := by
  cases e with
  | machine e => exact schedCheck_guard c e h
  | keyboard port => cases h

/-- The key is pressed when the character is on the screen. -/
theorem console_nothing_lost_after : ∃ c : Config (LinkHeap ElemAddr) consoleThreads,
    NothingLost (blankScreen 0) c ∧ (ConsoleMem.vga c.mem).cursor = 80 := by
  have hrun : ∃ c, bootConfig (H := LinkHeap ElemAddr) (P := consoleThreads) 1 .off (fun _ => 1)
        emptyConsole ConsoleLoc.main = .ok c ∧
      ∃ c', (consoleMachine (blankScreen 0)).run noKeyCheck
          (asksAndReads ++ List.replicate 6 consoleGoesOn) c = some (.ok c') ∧
        c'.stack 1 = [.prog (ConsoleLoc.put [] .start)] ∧
        (c'.history.created = fun t => decide (t = 1)) ∧
        ∃ c'', (consoleMachine (blankScreen 0)).step keyF1 c' = some (.ok c'') ∧
          (ConsoleMem.vga c''.mem).cursor = 80 :=
    ⟨_, rfl, _, rfl, rfl, rfl, _, rfl, rfl⟩
  obtain ⟨c, hboot, c', hrun, hstack, hcreated, c'', hkey, hcursor⟩ := hrun
  have hreach : (consoleMachine (blankScreen 0)).Reach NoKeyInside c' :=
    (System.Reach.init (console_booted hboot)).run noKeyCheck_guard hrun
  have hnone := printing_main (hreach.mono fun _ _ hg => hg.guard) hstack hcreated
  have hreach' := hreach.step (e := keyF1) (fun _ => hnone) hkey
  exact ⟨c'', console_nothing_lost (blankScreen 0) c'' hreach', hcursor⟩

/-- The bytes of an order are those that have been printed. -/
theorem Interleaves.mem {order : List (PrintSource × UInt8)} {printed : PrintSource → List UInt8}
    (h : Interleaves order printed) {byte : UInt8} :
    byte ∈ order.map (·.2) ↔ ∃ src, byte ∈ printed src := by
  have hsrc : ∀ src, (order.filter (·.1 = src)).map (·.2) = printed src := h
  simp only [List.mem_map, ← hsrc, List.mem_filter, decide_eq_true_eq]
  constructor
  · rintro ⟨p, hp, rfl⟩
    exact ⟨p.1, p, ⟨hp, rfl⟩, rfl⟩
  · rintro ⟨src, p, ⟨hp, -⟩, rfl⟩
    exact ⟨p, hp, rfl⟩

/-- The key is pressed between the read of the cursor and its update. -/
def keyInside : List ConsoleEvent := asksAndReads ++ keyF1 :: List.replicate 6 consoleGoesOn

/-- The message ends below the first row, but the thread sets the cursor behind its own character. -/
theorem console_character_lost : ∃ c c' : Config (LinkHeap ElemAddr) consoleThreads,
    ConsoleInit (blankScreen 0) c ∧
    (consoleMachine (blankScreen 0)).run consoleCheck keyInside c = some (.ok c') ∧
    (consoleMachine (blankScreen 0)).Reach ConsoleGuard c' ∧ ¬ NothingLost (blankScreen 0) c' := by
  have hrun : ∃ c, bootConfig (H := LinkHeap ElemAddr) (P := consoleThreads) 1 .off (fun _ => 1)
        emptyConsole ConsoleLoc.main = .ok c ∧
      ∃ c', (consoleMachine (blankScreen 0)).run consoleCheck keyInside c = some (.ok c') ∧
        (ConsoleMem.vga c'.mem).cursor = 1 ∧ c'.stack 1 = [.prog (ConsoleLoc.put [] .start)] ∧
        (c'.history.created = fun t => decide (t = 1)) ∧
        ConsoleMem.printed c'.mem =
          Function.update (Function.update (fun _ => []) .keyboard unknownKey) (.thread 1) [97] :=
    ⟨_, rfl, _, rfl, rfl, rfl, rfl, rfl⟩
  obtain ⟨c, hboot, c', hrun, hcursor, hstack, hcreated, hprinted⟩ := hrun
  have hreach : (consoleMachine (blankScreen 0)).Reach ConsoleGuard c' :=
    (System.Reach.init (console_booted hboot)).run consoleCheck_guard hrun
  refine ⟨c, c', console_booted hboot, hrun, hreach, ?_⟩
  rintro ⟨order, v, horder, hput, hidle, -⟩
  -- the thread has finished, so the screen is the one of some order
  rw [hidle (printing_main hreach hstack hcreated)] at hcursor
  have hbyte : ∀ byte, byte ∈ order.map (·.2) ↔ byte ∈ unknownKey ∨ byte ∈ [97] := by
    intro byte
    rw [horder.mem, hprinted]
    constructor
    · rintro ⟨src, hb⟩
      cases src with
      | keyboard => exact .inl hb
      | thread t =>
        by_cases ht : t = 1
        · subst ht
          exact .inr hb
        · rw [Function.update_of_ne (fun heq => ht (PrintSource.thread.inj heq))] at hb
          exact absurd hb List.not_mem_nil
    · rintro (hb | hb)
      · exact ⟨.keyboard, hb⟩
      · exact ⟨.thread 1, hb⟩
  have hback : 0x08 ∉ order.map (·.2) := by
    rw [hbyte]
    decide
  obtain ⟨v', hput', hshows⟩ := putBytes_shows (blankScreen_shows 0) hback
  obtain rfl : v = v' := PutCharOutcome.returned.inj (hput.symm.trans hput')
  have hbelow := Terminal.foldl_print_below (t := ⟨fun _ => .blank, 0⟩)
    (.inr ((hbyte 0x0a).mpr (.inl (by decide))))
  rw [← hshows.cursor, hcursor] at hbelow
  exact absurd hbelow (by decide)

end OsKernel
