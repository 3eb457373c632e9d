import OsKernel.Thread.Quiet

/-!
# Lock calls that find the lock free

With interrupts off and nobody asleep, `lock_acquire` on a free lock takes it without a switch, and
`lock_release` by a thread that acquired it once gives it back. `LockCallAt` lists the statements
of the two calls with the fields the lock has before each of them.

- `LockCallAt.exec`: each statement returns, leads to the next one or to the caller, and touches
  nothing but this lock.
-/

namespace OsKernel

open Lib

variable {P : Program}

/-- A lock nobody has. -/
def LockState.free : LockState := ⟨1, none, 0⟩

/-- A lock that `t` has acquired once. -/
def LockState.taken (t : Tid) : LockState := ⟨0, some t, 1⟩

/-- The frames of a call of thread `t` on a lock, and the lock's fields before the next statement.
The first index is what the call leaves behind. -/
inductive LockCallAt {Loc : Type} (plock : Nat) (t : Tid) :
    LockState → List (Frame Loc) → LockState → Prop where
  -- `lock_acquire`
  | test : LockCallAt plock t (.taken t) [.lockAcquire plock .test] .free
  | downCall : LockCallAt plock t (.taken t)
      [.semaDownCall (.inLock plock), .lockAcquire plock .setHolder] .free
  | down : LockCallAt plock t (.taken t)
      [.semaDown (.inLock plock) .off, .lockAcquire plock .setHolder] .free
  | setHolder : LockCallAt plock t (.taken t) [.lockAcquire plock .setHolder] ⟨0, none, 0⟩
  | assertRepeatNr :
      LockCallAt plock t (.taken t) [.lockAcquire plock .assertRepeatNr] ⟨0, some t, 0⟩
  | setRepeatNr : LockCallAt plock t (.taken t) [.lockAcquire plock .setRepeatNr] ⟨0, some t, 0⟩
  -- `lock_release`
  | assertHolder : LockCallAt plock t .free [.lockRelease plock .assertHolder] (.taken t)
  | testNr : LockCallAt plock t .free [.lockRelease plock .test] (.taken t)
  | assertOne : LockCallAt plock t .free [.lockRelease plock .assertRepeatNr] (.taken t)
  | clearHolder : LockCallAt plock t .free [.lockRelease plock .clearHolder] (.taken t)
  | clearRepeatNr : LockCallAt plock t .free [.lockRelease plock .clearRepeatNr] ⟨0, none, 1⟩
  | up : LockCallAt plock t .free [.semaUp (.inLock plock)] ⟨0, none, 0⟩

/-- A call has at least one frame. -/
theorem LockCallAt.exists_cons {Loc : Type} {plock : Nat} {t : Tid} {after st : LockState}
    {fs : List (Frame Loc)} (h : LockCallAt plock t after fs st) : ∃ f fs', fs = f :: fs' := by
  cases h with
  | _ => exact ⟨_, _, rfl⟩

/-- A step of the running thread that changes nothing but its stack, the lock `plock` and the
record of its calls. -/
structure OnlyLock (plock : Nat) (c c' : Config Queues P) : Prop where
  intr : c'.kernel.intr = c.kernel.intr
  running : c'.kernel.running = c.kernel.running
  task : c'.kernel.task = c.kernel.task
  mem : c'.mem = c.mem
  created : c'.history.created = c.history.created
  waiting : c'.history.waiting = c.history.waiting
  stack : ∀ t, t ≠ c.kernel.running → c'.stack t = c.stack t
  locks : ∀ l, l ≠ plock → c'.kernel.locks l = c.kernel.locks l

/-- The step as a new kernel, a new history and a new stack. -/
private theorem OnlyLock.of {c : Config Queues P} {plock : Nat} {k : Kernel Queues}
    {hist : History} {st : List (Frame P.Loc)} (hintr : k.intr = c.kernel.intr)
    (hrun : k.running = c.kernel.running) (htask : k.task = c.kernel.task)
    (hcreated : hist.created = c.history.created) (hwaiting : hist.waiting = c.history.waiting)
    (hlocks : ∀ l, l ≠ plock → k.locks l = c.kernel.locks l) :
    OnlyLock plock c { c with
      kernel := k, history := hist, stack := Function.update c.stack c.kernel.running st } where
  intr := hintr
  running := hrun
  task := htask
  mem := rfl
  created := hcreated
  waiting := hwaiting
  stack _ ht := Function.update_of_ne ht _ _
  locks := hlocks

/-- How a statement of a lock call ends: at the next one, or back in the caller. -/
def LockCallAt.Next (plock : Nat) (t : Tid) (after : LockState) (rest : List (Frame P.Loc))
    (c' : Config Queues P) : Prop :=
  (∃ fs, LockCallAt plock t after fs (c'.kernel.locks plock) ∧ c'.top = fs ++ rest) ∨
  (c'.kernel.locks plock = after ∧ c'.top = rest)

theorem LockCallAt.Next.goto {plock : Nat} {t : Tid} {after st : LockState}
    {fs rest : List (Frame P.Loc)} {c' : Config Queues P} (hat : LockCallAt plock t after fs st)
    (hst : c'.kernel.locks plock = st) (htop : c'.top = fs ++ rest) :
    LockCallAt.Next plock t after rest c' :=
  Or.inl ⟨fs, hst ▸ hat, htop⟩

/-- **A lock call that finds the lock free** neither blocks nor fails. -/
theorem LockCallAt.exec {D : Discipline P} {c : Config Queues P} {plock : Nat} {after : LockState}
    {f : Frame P.Loc} {fs rest : List (Frame P.Loc)} (h : D.Quiet c) (hoff : c.kernel.intr = .off)
    (hat : LockCallAt plock c.kernel.running after (f :: fs) (c.kernel.locks plock))
    (htop : c.top = f :: fs ++ rest) (input : P.Input) :
    ∃ c', OsKernel.exec input f (fs ++ rest) c = .ok c' ∧ D.Quiet c' ∧ OnlyLock plock c c' ∧
      LockCallAt.Next plock c.kernel.running after rest c' := by
  -- it is enough to name the state after the statement
  have hdone : ∀ c', FrameGuard c f → OsKernel.exec input f (fs ++ rest) c = .ok c' →
      OnlyLock plock c c' → LockCallAt.Next plock c.kernel.running after rest c' →
      ∃ c', OsKernel.exec input f (fs ++ rest) c = .ok c' ∧ D.Quiet c' ∧ OnlyLock plock c c' ∧
        LockCallAt.Next plock c.kernel.running after rest c' := by
    intro c' hg he honly hnext
    exact ⟨c', he, h.keep (h.sched.exec htop hg he) honly.task honly.running honly.created
      honly.waiting honly.stack, honly, hnext⟩
  generalize hst : c.kernel.locks plock = st at hat
  have hv : c.kernel.value (.inLock plock) = st.value := congrArg LockState.value hst
  have hh : c.kernel.holder plock = st.holder := congrArg LockState.holder hst
  have hn : c.kernel.holderRepeatNr plock = st.nr := congrArg LockState.nr hst
  cases hat with
  | test =>
    have hne : c.kernel.holder plock ≠ some c.kernel.running := by
      rw [hh]
      exact nofun
    have he : OsKernel.exec input (.lockAcquire plock .test) rest c = .ok (c.setStack
        (.semaDownCall (.inLock plock) :: .lockAcquire plock .setHolder :: rest)) := if_pos hne
    apply hdone _ trivial he (.of rfl rfl rfl rfl rfl fun _ _ => rfl)
    exact .goto .downCall hst (Function.update_self ..)
  | downCall =>
    apply hdone _ trivial rfl (.of hoff.symm rfl rfl rfl rfl fun _ _ => rfl)
    refine .goto .down hst ?_
    rw [← hoff]
    exact Function.update_self ..
  | down =>
    have hone : c.kernel.value (.inLock plock) = 1 := hv
    have hne : c.kernel.value (.inLock plock) ≠ 0 := by
      rw [hone]
      decide
    have he := semaDownTest_pos (.inLock plock) .off (.lockAcquire plock .setHolder :: rest) hne
    rw [if_pos hone] at he
    refine hdone _ trivial he (.of hoff.symm rfl rfl rfl rfl ?_) ?_
    · intro l hl
      simp [Kernel.locks, Function.update_of_ne, hl]
    · refine .goto .setHolder ?_ (Function.update_self ..)
      simp [Kernel.locks, Config.lowered, hh, hn, LockState.free]
  | setHolder =>
    refine hdone _ trivial rfl (.of rfl rfl rfl rfl rfl ?_) ?_
    · intro l hl
      simp [Kernel.locks, Function.update_of_ne, hl]
    · refine .goto .assertRepeatNr ?_ (Function.update_self ..)
      simp [Config.setStack, Kernel.locks, hv, hn]
  | assertRepeatNr =>
    have he : OsKernel.exec input (.lockAcquire plock .assertRepeatNr) rest c =
        .ok (c.setStack (.lockAcquire plock .setRepeatNr :: rest)) := by
      show (assert _ _ >>= _) = _
      simp [hn]
    apply hdone _ trivial he (.of rfl rfl rfl rfl rfl fun _ _ => rfl)
    exact .goto .setRepeatNr hst (Function.update_self ..)
  | setRepeatNr =>
    refine hdone _ trivial rfl (.of rfl rfl rfl rfl rfl ?_) (.inr ⟨?_, Function.update_self ..⟩)
    · intro l hl
      simp [Kernel.locks, Function.update_of_ne, hl]
    · simp [Config.setStack, Kernel.locks, hv, hh, LockState.taken]
  | assertHolder =>
    have he : OsKernel.exec input (.lockRelease plock .assertHolder) rest c =
        .ok ({ c with history := { c.history with
          acquired := update₂ c.history.acquired c.kernel.running plock
            (c.history.acquired c.kernel.running plock - 1) } }.setStack
          (.lockRelease plock .test :: rest)) := by
      show (assert _ _ >>= _) = _
      simp [hh, LockState.taken]
    apply hdone _ trivial he (.of rfl rfl rfl rfl rfl fun _ _ => rfl)
    exact .goto .testNr hst (Function.update_self ..)
  | testNr =>
    have hle : ¬ c.kernel.holderRepeatNr plock > 1 := by
      rw [hn]
      exact (by decide : ¬ (1 : UInt32) > 1)
    have he : OsKernel.exec input (.lockRelease plock .test) rest c =
        .ok (c.setStack (.lockRelease plock .assertRepeatNr :: rest)) := if_neg hle
    apply hdone _ trivial he (.of rfl rfl rfl rfl rfl fun _ _ => rfl)
    exact .goto .assertOne hst (Function.update_self ..)
  | assertOne =>
    have he : OsKernel.exec input (.lockRelease plock .assertRepeatNr) rest c =
        .ok (c.setStack (.lockRelease plock .clearHolder :: rest)) := by
      show (assert _ _ >>= _) = _
      simp [hn, LockState.taken]
    apply hdone _ trivial he (.of rfl rfl rfl rfl rfl fun _ _ => rfl)
    exact .goto .clearHolder hst (Function.update_self ..)
  | clearHolder =>
    refine hdone _ trivial rfl (.of rfl rfl rfl rfl rfl ?_) ?_
    · intro l hl
      simp [Kernel.locks, Function.update_of_ne, hl]
    · refine .goto .clearRepeatNr ?_ (Function.update_self ..)
      simp [Config.setStack, Kernel.locks, hv, hn, LockState.taken]
  | clearRepeatNr =>
    refine hdone _ trivial rfl (.of rfl rfl rfl rfl rfl ?_) ?_
    · intro l hl
      simp [Kernel.locks, Function.update_of_ne, hl]
    · refine .goto .up ?_ (Function.update_self ..)
      simp [Config.setStack, Kernel.locks, hv, hh]
  | up =>
    have he : OsKernel.exec input (.semaUp (.inLock plock)) rest c =
        .ok (c.raised (.inLock plock) rest) := by
      rcases semaUp_zero (.inLock plock) rest h.sched hv with ⟨-, hok⟩ | ⟨u, k, hw, -⟩
      · exact hok
      · -- nobody sleeps, so there is no waiter to pop
        rw [h.nobody] at hw
        cases hw
    refine hdone _ trivial he (.of rfl rfl rfl rfl rfl ?_) (.inr ⟨?_, Function.update_self ..⟩)
    · intro l hl
      simp [Kernel.locks, Function.update_of_ne, hl]
    · simp [Kernel.locks, Config.raised, hh, hn, LockState.free]

/-- The frame a call of `lock_acquire` starts with. -/
theorem LockCallAt.acquire {Loc : Type} {plock : Nat} {t : Tid} {st : LockState} (h : st = .free) :
    LockCallAt plock t (.taken t) [(Call.lockAcquire plock : Call Loc).frame] st :=
  h ▸ .test

/-- The frame a call of `lock_release` starts with. -/
theorem LockCallAt.release {Loc : Type} {plock : Nat} {t : Tid} {st : LockState}
    (h : st = .taken t) :
    LockCallAt plock t .free [(Call.lockRelease plock : Call Loc).frame] st :=
  h ▸ .assertHolder

end OsKernel
