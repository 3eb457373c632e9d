import OsKernel.Thread.InterruptFlag

/-!
# The interrupt flag across thread switches

Every function of list.c, sync.c and thread.c gives the interrupt flag back as it got it, whichever
threads run in between. The flag is one bit of the processor; the saved statuses lie on the stacks
of all threads. What a frame knows about them (`Pc.flagUse`) makes an instance of `Lib.FlagRule`,
whose rules carry the invariant through calls, returns and switches.

- `StmtSpec`: what one statement does to the flag; one lemma a function, put together in
  `kernelStmt_spec`.
- `FlagConfig.Inv`: the invariant; `Inv.apply` and `Inv.interrupt` are its step lemmas.
- `interrupt_discipline`: the flag at returns, at the start of `schedule` and at writes.
-/

namespace OsKernel.InterruptFlag

open Lib

variable {Loc : Type} {P : DirectProgram}

/-! ## The flag at the control points -/

/-- How the code at a control point treats the flag. -/
inductive FlagUse where
  /-- the flag can be any, and the function may return with another one -/
  | free
  /-- the flag is as at the call -/
  | keeps
  /-- the flag is off, and at the call it was `old` -/
  | masked (old : IntrStatus)
  /-- the flag can be any, and at the call it was `old` -/
  | restores (old : IntrStatus)
  /-- the flag is off, and the function may return with another one -/
  | starting

namespace FlagUse

/-- The flag is as the code asks, and what the code has saved is right. -/
def Holds (entry flag : IntrStatus) : FlagUse → Prop
  | .free => True
  | .keeps => flag = entry
  | .masked old => flag = .off ∧ old = entry
  | .restores old => old = entry
  | .starting => flag = .off

/-- The function may return with another flag. -/
def isFree : FlagUse → Bool
  | .free | .starting => true
  | .keeps | .masked _ | .restores _ => false

end FlagUse

/-- Where `old_status` is saved the flag is off. `schedule` and the timer handler are called with
the flag off. -/
def Pc.flagUse : Pc Loc → FlagUse
  | .prog _ | .kernelThread _ .call | .kernelThread _ .returned => .free
  | .kernelThread _ .enable => .starting
  | .intrExit eflags _ => .restores eflags
  | .listInsertBefore _ _ pc =>
    match pc with
    | .assertArgs | .disable => .keeps
    | .prevNext old | .elemPrev old | .elemNext old | .beforePrev old | .restore old => .masked old
  | .listRemove _ pc =>
    match pc with
    | .assertElem | .disable => .keeps
    | .prevNext old | .nextPrev old | .restore old => .masked old
  | .schedule _ | .timer _ => .masked .off
  | .threadBlock _ pc =>
    match pc with
    | .assertStat | .disable => .keeps
    | .setStatus old | .schedule old | .restore old => .masked old
  | .threadUnblock _ pc =>
    match pc with
    | .disable => .keeps
    | .assertStat old | .testStatus old | .findReady old | .assertNotReady old | .push old
    | .setReady old | .restore old => .masked old
  | .processExecute _ _ _ pc =>
    match pc with
    | .init | .create | .disable => .keeps
    | .findReady old | .assertNotReady old | .appendReady old | .findAll old | .assertNotAll old
    | .appendAll old | .restore old => .masked old
  | .semaDown _ pc =>
    match pc with
    | .disable => .keeps
    | .test old | .findWaiter old | .assertNotWaiting old | .append old | .block old
    | .decrement old | .assertZero old | .restore old => .masked old
  | .semaUp _ pc =>
    match pc with
    | .disable => .keeps
    | .assertZero old | .testWaiters old | .pop old | .unblock old | .increment old
    | .assertOne old | .restore old => .masked old
  | _ => .keeps

/-- The rule of the kernel's functions. -/
def flagRule (Loc : Type) : FlagRule IntrStatus (Pc Loc) where
  flagAt entry pc :=
    match pc.flagUse with
    | .free | .restores _ => none
    | .keeps => some entry
    | .masked _ | .starting => some .off
  Knows entry pc :=
    match pc.flagUse with
    | .masked old | .restores old => old = entry
    | .free | .keeps | .starting => True
  Free pc := pc.flagUse.isFree = true

theorem holds_iff {entry flag : IntrStatus} {pc : Pc Loc} :
    pc.flagUse.Holds entry flag ↔
      (flagRule Loc).Fits flag ⟨entry, pc⟩ ∧ (flagRule Loc).Knows entry pc := by
  simp only [FlagRule.Fits, flagRule]
  cases pc.flagUse with
  | free => simp [FlagUse.Holds]
  | keeps => simp [FlagUse.Holds]
  | masked old => simp [FlagUse.Holds]
  | restores old => simp [FlagUse.Holds]
  | starting => simp [FlagUse.Holds]

/-- A write of a link, a value or a wait list stands between `intr_disable` and `intr_set_status`,
but for the initialisers. -/
theorem writes_masked {pc : Pc Loc} (hwrites : pc.writes = true) (hinit : pc.inInit = false)
    (hclear : pc.clearsPcb = false) : ∃ old, pc.flagUse = .masked old := by
  unfold Pc.writes at hwrites
  split at hwrites <;> simp_all [Pc.inInit, Pc.clearsPcb, Pc.flagUse]

/-! ## One statement -/

/-- The flag after a statement at `pc` of a function that was called with the flag `entry`: it is as
the next control point asks, and a callee gets it as it asks, too. Only `schedule` changes the
running thread; it has been called with interrupts off. -/
def KeepsFlag (entry : IntrStatus) (pc : Pc Loc) (k k' : LinkKernel) : Effect Loc → Prop
  | .goto pc' =>
    k'.running = k.running ∧ pc'.flagUse.Holds entry k'.intr ∧
      (pc'.flagUse.isFree = true → pc.flagUse.isFree = true)
  | .call callee pc' =>
    k'.running = k.running ∧ callee.flagUse.Holds k'.intr k'.intr ∧
      pc'.flagUse.Holds entry k'.intr ∧
      (pc'.flagUse.isFree = true → pc.flagUse.isFree = true) ∧
      (callee.flagUse.isFree = true → pc'.flagUse = .free)
  | .done _ => (k'.running = k.running ∨ entry = .off) ∧ k'.intr = entry
  | .ret => k'.running = k.running ∧ (k'.intr = entry ∨ pc.flagUse.isFree = true)
  | .iret _ => k'.running = k.running ∧ k'.intr = entry
  | .create thread _ pc' =>
    k'.running = k.running ∧ pc'.flagUse.Holds entry k'.intr ∧
      (pc'.flagUse.isFree = true → pc.flagUse.isFree = true) ∧ pc.page = some thread

/-- What a statement does to the flag, the links and the values. -/
structure StmtSpec (entry : IntrStatus) (pc : Pc Loc) (k k' : LinkKernel) (eff : Effect Loc) :
    Prop where
  flag : KeepsFlag entry pc k k' eff
  frame : pc.writes = false → k'.lists = k.lists ∧ k'.value = k.value

/-! ### Kinds of statements -/

/-- The statement leaves the flag, the running thread, the links and the values alone. -/
structure SameShared (k k' : LinkKernel) : Prop where
  running : k'.running = k.running
  intr : k'.intr = k.intr
  lists : k'.lists = k.lists
  value : k'.value = k.value

section Kinds

variable {entry old : IntrStatus} {pc pc' callee : Pc Loc} {k k' : LinkKernel} {v : RetVal}

/-- A statement inside a function that does not write. -/
theorem StmtSpec.goto (hflag : pc.flagUse.Holds entry k.intr) (hsame : SameShared k k')
    (huse : pc'.flagUse = pc.flagUse) : StmtSpec entry pc k k' (.goto pc') := by
  refine ⟨⟨hsame.running, ?_, ?_⟩, fun _ => ⟨hsame.lists, hsame.value⟩⟩
  · rw [huse, hsame.intr]
    exact hflag
  · rw [huse]
    exact id

/-- A write inside a function. -/
theorem StmtSpec.write (hflag : pc.flagUse.Holds entry k.intr) (hwrites : pc.writes = true)
    (hrunning : k'.running = k.running) (hintr : k'.intr = k.intr)
    (huse : pc'.flagUse = pc.flagUse) : StmtSpec entry pc k k' (.goto pc') := by
  refine ⟨⟨hrunning, ?_, ?_⟩, fun hno => ?_⟩
  · rw [huse, hintr]
    exact hflag
  · rw [huse]
    exact id
  · rw [hwrites] at hno
    cases hno

/-- A call. The caller asks for the same flag behind it. -/
theorem StmtSpec.call (hflag : pc.flagUse.Holds entry k.intr) (hsame : SameShared k k')
    (hcallee : callee.flagUse.Holds k.intr k.intr) (hfree : callee.flagUse.isFree = false)
    (huse : pc'.flagUse = pc.flagUse) : StmtSpec entry pc k k' (.call callee pc') := by
  refine ⟨⟨hsame.running, ?_, ?_, ?_, fun h => ?_⟩, fun _ => ⟨hsame.lists, hsame.value⟩⟩
  · rw [hsame.intr]
    exact hcallee
  · rw [huse, hsame.intr]
    exact hflag
  · rw [huse]
    exact id
  · rw [hfree] at h
    cases h

/-- The last statement of a function that has not touched the flag. -/
theorem StmtSpec.finish (hflag : pc.flagUse.Holds entry k.intr) (hsame : SameShared k k')
    (huse : pc.flagUse = .keeps) : StmtSpec entry pc k k' (.done v) := by
  rw [huse] at hflag
  exact ⟨⟨.inl hsame.running, hsame.intr.trans hflag⟩, fun _ => ⟨hsame.lists, hsame.value⟩⟩

/-- `old_status = intr_disable()` -/
theorem StmtSpec.disable (hflag : pc.flagUse.Holds entry k.intr) (huse : pc.flagUse = .keeps)
    (huse' : pc'.flagUse = .masked (intrDisable k.intr).2) :
    StmtSpec entry pc k { k with intr := (intrDisable k.intr).1 } (.goto pc') := by
  rw [huse] at hflag
  refine ⟨⟨rfl, ?_, ?_⟩, fun _ => ⟨rfl, rfl⟩⟩
  · rw [huse']
    exact ⟨intrDisable_flag k.intr, (intrDisable_old k.intr).trans hflag⟩
  · rw [huse']
    exact nofun

/-- `intr_set_status(old_status)` -/
theorem StmtSpec.restore (hflag : pc.flagUse.Holds entry k.intr) (huse : pc.flagUse = .masked old) :
    StmtSpec entry pc k { k with intr := (intrSetStatus old k.intr).1 } (.done v) := by
  rw [huse] at hflag
  exact ⟨⟨.inl rfl, (intrSetStatus_flag old k.intr).trans hflag.2⟩, fun _ => ⟨rfl, rfl⟩⟩

end Kinds

/-! ### The functions -/

section Functions

variable {entry : IntrStatus} {k k' : LinkKernel} {eff : Effect Loc} {eax : RetVal}

theorem listInitStmt_spec {plist : ListRef} {pc : InitPc}
    (hflag : (Pc.listInit plist pc : Pc Loc).flagUse.Holds entry k.intr)
    (h : listInitStmt k plist pc = (k', eff)) : StmtSpec entry (.listInit plist pc) k k' eff := by
  cases pc with
  | headPrev =>
    cases h
    exact .write hflag rfl rfl rfl rfl
  | headNext =>
    cases h
    exact .write hflag rfl rfl rfl rfl
  | tailPrev =>
    cases h
    exact .write hflag rfl rfl rfl rfl
  | tailNext =>
    cases h
    exact ⟨⟨.inl rfl, hflag⟩, nofun⟩

theorem listInsertBeforeStmt_spec {before : Option ElemAddr} {elem : ElemAddr} {pc : InsertPc}
    (hflag : (Pc.listInsertBefore before elem pc : Pc Loc).flagUse.Holds entry k.intr)
    (h : listInsertBeforeStmt k before elem pc = .ok (k', eff)) :
    StmtSpec entry (.listInsertBefore before elem pc) k k' eff := by
  cases pc with
  | assertArgs =>
    cases before with
    | none => cases h
    | some b =>
      obtain ⟨-, -, h⟩ := bind_eq_ok.mp h
      cases h
      exact .goto hflag ⟨rfl, rfl, rfl, rfl⟩ rfl
  | disable =>
    cases h
    exact .disable hflag rfl rfl
  | prevNext old =>
    obtain ⟨b, -, h⟩ := bind_eq_ok.mp h
    obtain ⟨p, -, h⟩ := bind_eq_ok.mp h
    cases h
    exact .write hflag rfl rfl rfl rfl
  | elemPrev old =>
    obtain ⟨b, -, h⟩ := bind_eq_ok.mp h
    cases h
    exact .write hflag rfl rfl rfl rfl
  | elemNext old =>
    cases h
    exact .write hflag rfl rfl rfl rfl
  | beforePrev old =>
    obtain ⟨b, -, h⟩ := bind_eq_ok.mp h
    cases h
    exact .write hflag rfl rfl rfl rfl
  | restore old =>
    cases h
    exact .restore hflag rfl

theorem listRemoveStmt_spec {elem : Option ElemAddr} {pc : RemovePc}
    (hflag : (Pc.listRemove elem pc : Pc Loc).flagUse.Holds entry k.intr)
    (h : listRemoveStmt k elem pc = .ok (k', eff)) :
    StmtSpec entry (.listRemove elem pc) k k' eff := by
  cases pc with
  | assertElem =>
    obtain ⟨-, -, h⟩ := bind_eq_ok.mp h
    cases h
    exact .goto hflag ⟨rfl, rfl, rfl, rfl⟩ rfl
  | disable =>
    cases h
    exact .disable hflag rfl rfl
  | prevNext old =>
    obtain ⟨e, -, h⟩ := bind_eq_ok.mp h
    cases h
    exact .write hflag rfl rfl rfl rfl
  | nextPrev old =>
    obtain ⟨e, -, h⟩ := bind_eq_ok.mp h
    cases h
    exact .write hflag rfl rfl rfl rfl
  | restore old =>
    cases h
    exact .restore hflag rfl

theorem listPopStmt_spec {plist : ListRef} {pc : PopPc}
    (hflag : (Pc.listPop plist pc : Pc Loc).flagUse.Holds entry k.intr)
    (h : listPopStmt k plist pc = (k', eff)) : StmtSpec entry (.listPop plist pc) k k' eff := by
  cases pc with
  | readHead =>
    cases h
    exact .goto hflag ⟨rfl, rfl, rfl, rfl⟩ rfl
  | remove temp =>
    cases h
    exact .call hflag ⟨rfl, rfl, rfl, rfl⟩ rfl rfl rfl
  | result temp =>
    cases h
    exact .finish hflag ⟨rfl, rfl, rfl, rfl⟩ rfl

theorem elemFindStmt_spec {plist : ListRef} {elem : ElemAddr} {pc : FindPc}
    (hflag : (Pc.elemFind plist elem pc : Pc Loc).flagUse.Holds entry k.intr)
    (h : elemFindStmt k plist elem pc = .ok (k', eff)) :
    StmtSpec entry (.elemFind plist elem pc) k k' eff := by
  cases pc with
  | readHead =>
    cases h
    exact .goto hflag ⟨rfl, rfl, rfl, rfl⟩ rfl
  | test temp =>
    simp only [elemFindStmt] at h
    split at h
    · cases h
      exact .finish hflag ⟨rfl, rfl, rfl, rfl⟩ rfl
    split at h
    · cases h
      exact .finish hflag ⟨rfl, rfl, rfl, rfl⟩ rfl
    · obtain ⟨a, -, h⟩ := bind_eq_ok.mp h
      cases h
      exact .goto hflag ⟨rfl, rfl, rfl, rfl⟩ rfl
  | advance temp =>
    cases h
    exact .goto hflag ⟨rfl, rfl, rfl, rfl⟩ rfl

theorem semaInitStmt_spec {psema : SemaRef} {value : UInt8} {pc : SemaInitPc}
    (hflag : (Pc.semaInit psema value pc : Pc Loc).flagUse.Holds entry k.intr)
    (h : semaInitStmt k psema value pc = (k', eff)) :
    StmtSpec entry (.semaInit psema value pc) k k' eff := by
  cases pc with
  | setValue =>
    cases h
    exact .write hflag rfl rfl rfl rfl
  | initWaiters =>
    cases h
    exact .call hflag ⟨rfl, rfl, rfl, rfl⟩ rfl rfl rfl

theorem lockInitStmt_spec {plock : Nat} {pc : LockInitPc}
    (hflag : (Pc.lockInit plock pc : Pc Loc).flagUse.Holds entry k.intr)
    (h : lockInitStmt k plock pc = (k', eff)) : StmtSpec entry (.lockInit plock pc) k k' eff := by
  cases pc with
  | clearHolder =>
    cases h
    exact .goto hflag ⟨rfl, rfl, rfl, rfl⟩ rfl
  | clearRepeatNr =>
    cases h
    exact .goto hflag ⟨rfl, rfl, rfl, rfl⟩ rfl
  | initSema =>
    cases h
    exact .call hflag ⟨rfl, rfl, rfl, rfl⟩ rfl rfl rfl

theorem scheduleStmt_spec  {pc : SchedulePc}
    (hflag : (Pc.schedule pc : Pc Loc).flagUse.Holds entry k.intr)
    (h : scheduleStmt k eax pc = .ok (k', eff)) : StmtSpec entry (.schedule pc) k k' eff := by
  cases pc with
  | assertOff =>
    obtain ⟨-, -, h⟩ := bind_eq_ok.mp h
    cases h
    exact .goto hflag ⟨rfl, rfl, rfl, rfl⟩ rfl
  | testStatus =>
    simp only [scheduleStmt] at h
    split at h
    · cases h
      exact .goto hflag ⟨rfl, rfl, rfl, rfl⟩ rfl
    · cases h
      exact .goto hflag ⟨rfl, rfl, rfl, rfl⟩ rfl
  | findReady =>
    cases h
    exact .call hflag ⟨rfl, rfl, rfl, rfl⟩ rfl rfl rfl
  | assertNotReady =>
    obtain ⟨-, -, h⟩ := bind_eq_ok.mp h
    cases h
    exact .goto hflag ⟨rfl, rfl, rfl, rfl⟩ rfl
  | append =>
    cases h
    exact .call hflag ⟨rfl, rfl, rfl, rfl⟩ rfl rfl rfl
  | resetTicks =>
    cases h
    exact .goto hflag ⟨rfl, rfl, rfl, rfl⟩ rfl
  | setReady =>
    cases h
    exact .goto hflag ⟨rfl, rfl, rfl, rfl⟩ rfl
  | assertNotEmpty =>
    obtain ⟨-, -, h⟩ := bind_eq_ok.mp h
    cases h
    exact .goto hflag ⟨rfl, rfl, rfl, rfl⟩ rfl
  | pop =>
    cases h
    exact .call hflag ⟨rfl, rfl, rfl, rfl⟩ rfl rfl rfl
  | gotTag =>
    obtain ⟨next, -, h⟩ := bind_eq_ok.mp h
    cases h
    exact .goto hflag ⟨rfl, rfl, rfl, rfl⟩ rfl
  | setRunning next =>
    cases h
    exact .goto hflag ⟨rfl, rfl, rfl, rfl⟩ rfl
  | switchTo next =>
    cases h
    -- the only change of the running thread
    exact ⟨⟨.inr hflag.2.symm, hflag.1.trans hflag.2⟩, fun _ => ⟨rfl, rfl⟩⟩

theorem threadBlockStmt_spec {stat : TaskStatus} {pc : BlockPc}
    (hflag : (Pc.threadBlock stat pc : Pc Loc).flagUse.Holds entry k.intr)
    (h : threadBlockStmt k stat pc = .ok (k', eff)) :
    StmtSpec entry (.threadBlock stat pc) k k' eff := by
  cases pc with
  | assertStat =>
    obtain ⟨-, -, h⟩ := bind_eq_ok.mp h
    cases h
    exact .goto hflag ⟨rfl, rfl, rfl, rfl⟩ rfl
  | disable =>
    cases h
    exact .disable hflag rfl rfl
  | setStatus old =>
    cases h
    exact .goto hflag ⟨rfl, rfl, rfl, rfl⟩ rfl
  | schedule old =>
    cases h
    exact .call hflag ⟨rfl, rfl, rfl, rfl⟩ ⟨hflag.1, hflag.1.symm⟩ rfl rfl
  | restore old =>
    cases h
    exact .restore hflag rfl

theorem threadUnblockStmt_spec {pthread : Tid} {pc : UnblockPc}
    (hflag : (Pc.threadUnblock pthread pc : Pc Loc).flagUse.Holds entry k.intr)
    (h : threadUnblockStmt k eax pthread pc = .ok (k', eff)) :
    StmtSpec entry (.threadUnblock pthread pc) k k' eff := by
  cases pc with
  | disable =>
    cases h
    exact .disable hflag rfl rfl
  | assertStat old =>
    obtain ⟨-, -, h⟩ := bind_eq_ok.mp h
    cases h
    exact .goto hflag ⟨rfl, rfl, rfl, rfl⟩ rfl
  | testStatus old =>
    simp only [threadUnblockStmt] at h
    split at h
    · cases h
      exact .goto hflag ⟨rfl, rfl, rfl, rfl⟩ rfl
    · cases h
      exact .goto hflag ⟨rfl, rfl, rfl, rfl⟩ rfl
  | findReady old =>
    cases h
    exact .call hflag ⟨rfl, rfl, rfl, rfl⟩ rfl rfl rfl
  | assertNotReady old =>
    obtain ⟨-, -, h⟩ := bind_eq_ok.mp h
    cases h
    exact .goto hflag ⟨rfl, rfl, rfl, rfl⟩ rfl
  | push old =>
    cases h
    exact .call hflag ⟨rfl, rfl, rfl, rfl⟩ rfl rfl rfl
  | setReady old =>
    cases h
    exact .goto hflag ⟨rfl, rfl, rfl, rfl⟩ rfl
  | restore old =>
    cases h
    exact .restore hflag rfl

theorem initThreadStmt_spec {pthread : Tid} {prio : UInt8} {pc : InitThreadPc}
    (hflag : (Pc.initThread pthread prio pc : Pc Loc).flagUse.Holds entry k.intr)
    (h : initThreadStmt k pthread prio pc = (k', eff)) :
    StmtSpec entry (.initThread pthread prio pc) k k' eff := by
  cases pc with
  | clear =>
    cases h
    exact .write hflag rfl rfl rfl rfl
  | setFields =>
    cases h
    exact .finish hflag ⟨rfl, rfl, rfl, rfl⟩ rfl

theorem threadStartStmt_spec {thread : Tid} {prio : UInt8} {function : Loc} {pc : StartPc}
    (hflag : (Pc.threadStart thread prio function pc : Pc Loc).flagUse.Holds entry k.intr)
    (h : threadStartStmt k eax thread prio function pc = .ok (k', eff)) :
    StmtSpec entry (.threadStart thread prio function pc) k k' eff := by
  cases pc with
  | init =>
    cases h
    exact .call hflag ⟨rfl, rfl, rfl, rfl⟩ rfl rfl rfl
  | create =>
    cases h
    exact ⟨⟨rfl, hflag, id, rfl⟩, fun _ => ⟨rfl, rfl⟩⟩
  | findReady =>
    cases h
    exact .call hflag ⟨rfl, rfl, rfl, rfl⟩ rfl rfl rfl
  | assertNotReady =>
    obtain ⟨-, -, h⟩ := bind_eq_ok.mp h
    cases h
    exact .goto hflag ⟨rfl, rfl, rfl, rfl⟩ rfl
  | findAll =>
    cases h
    exact .call hflag ⟨rfl, rfl, rfl, rfl⟩ rfl rfl rfl
  | assertNotAll =>
    obtain ⟨-, -, h⟩ := bind_eq_ok.mp h
    cases h
    exact .goto hflag ⟨rfl, rfl, rfl, rfl⟩ rfl
  | appendReady =>
    cases h
    exact .call hflag ⟨rfl, rfl, rfl, rfl⟩ rfl rfl rfl
  | appendAll =>
    cases h
    exact .call hflag ⟨rfl, rfl, rfl, rfl⟩ rfl rfl rfl

theorem processExecuteStmt_spec {thread : Tid} {prio : UInt8} {startProcess : Loc} {pc : ExecutePc}
    (hflag : (Pc.processExecute thread prio startProcess pc : Pc Loc).flagUse.Holds entry k.intr)
    (h : processExecuteStmt k eax thread prio startProcess pc = .ok (k', eff)) :
    StmtSpec entry (.processExecute thread prio startProcess pc) k k' eff := by
  cases pc with
  | init =>
    cases h
    exact .call hflag ⟨rfl, rfl, rfl, rfl⟩ rfl rfl rfl
  | create =>
    cases h
    exact ⟨⟨rfl, hflag, id, rfl⟩, fun _ => ⟨rfl, rfl⟩⟩
  | disable =>
    cases h
    exact .disable hflag rfl rfl
  | findReady old =>
    cases h
    exact .call hflag ⟨rfl, rfl, rfl, rfl⟩ rfl rfl rfl
  | assertNotReady old =>
    obtain ⟨-, -, h⟩ := bind_eq_ok.mp h
    cases h
    exact .goto hflag ⟨rfl, rfl, rfl, rfl⟩ rfl
  | appendReady old =>
    cases h
    exact .call hflag ⟨rfl, rfl, rfl, rfl⟩ rfl rfl rfl
  | findAll old =>
    cases h
    exact .call hflag ⟨rfl, rfl, rfl, rfl⟩ rfl rfl rfl
  | assertNotAll old =>
    obtain ⟨-, -, h⟩ := bind_eq_ok.mp h
    cases h
    exact .goto hflag ⟨rfl, rfl, rfl, rfl⟩ rfl
  | appendAll old =>
    cases h
    exact .call hflag ⟨rfl, rfl, rfl, rfl⟩ rfl rfl rfl
  | restore old =>
    cases h
    exact .restore hflag rfl

theorem kernelThreadStmt_spec {function : Loc} {pc : KernelThreadPc}
    (hflag : (Pc.kernelThread function pc : Pc Loc).flagUse.Holds entry k.intr)
    (h : kernelThreadStmt k function pc = .ok (k', eff)) :
    StmtSpec entry (.kernelThread function pc) k k' eff := by
  cases pc with
  | enable =>
    cases h
    exact ⟨⟨rfl, trivial, fun _ => rfl⟩, fun _ => ⟨rfl, rfl⟩⟩
  | call =>
    cases h
    exact ⟨⟨rfl, trivial, trivial, id, fun _ => rfl⟩, fun _ => ⟨rfl, rfl⟩⟩
  | returned =>
    cases h

theorem semaDownStmt_spec {psema : SemaRef} {pc : DownPc}
    (hflag : (Pc.semaDown psema pc : Pc Loc).flagUse.Holds entry k.intr)
    (h : semaDownStmt k eax psema pc = .ok (k', eff)) :
    StmtSpec entry (.semaDown psema pc) k k' eff := by
  cases pc with
  | disable =>
    cases h
    exact .disable hflag rfl rfl
  | test old =>
    simp only [semaDownStmt] at h
    split at h
    · cases h
      exact .goto hflag ⟨rfl, rfl, rfl, rfl⟩ rfl
    · cases h
      exact .goto hflag ⟨rfl, rfl, rfl, rfl⟩ rfl
  | findWaiter old =>
    cases h
    exact .call hflag ⟨rfl, rfl, rfl, rfl⟩ rfl rfl rfl
  | assertNotWaiting old =>
    obtain ⟨-, -, h⟩ := bind_eq_ok.mp h
    cases h
    exact .goto hflag ⟨rfl, rfl, rfl, rfl⟩ rfl
  | append old =>
    cases h
    exact .call hflag ⟨rfl, rfl, rfl, rfl⟩ rfl rfl rfl
  | block old =>
    cases h
    exact .call hflag ⟨rfl, rfl, rfl, rfl⟩ rfl rfl rfl
  | decrement old =>
    cases h
    exact .write hflag rfl rfl rfl rfl
  | assertZero old =>
    obtain ⟨-, -, h⟩ := bind_eq_ok.mp h
    cases h
    exact .goto hflag ⟨rfl, rfl, rfl, rfl⟩ rfl
  | restore old =>
    cases h
    exact .restore hflag rfl

theorem semaUpStmt_spec {psema : SemaRef} {pc : UpPc}
    (hflag : (Pc.semaUp psema pc : Pc Loc).flagUse.Holds entry k.intr)
    (h : semaUpStmt k eax psema pc = .ok (k', eff)) :
    StmtSpec entry (.semaUp psema pc) k k' eff := by
  cases pc with
  | disable =>
    cases h
    exact .disable hflag rfl rfl
  | assertZero old =>
    obtain ⟨-, -, h⟩ := bind_eq_ok.mp h
    cases h
    exact .goto hflag ⟨rfl, rfl, rfl, rfl⟩ rfl
  | testWaiters old =>
    simp only [semaUpStmt] at h
    split at h
    · cases h
      exact .goto hflag ⟨rfl, rfl, rfl, rfl⟩ rfl
    · cases h
      exact .goto hflag ⟨rfl, rfl, rfl, rfl⟩ rfl
  | pop old =>
    cases h
    exact .call hflag ⟨rfl, rfl, rfl, rfl⟩ rfl rfl rfl
  | unblock old =>
    obtain ⟨t, -, h⟩ := bind_eq_ok.mp h
    cases h
    exact .call hflag ⟨rfl, rfl, rfl, rfl⟩ rfl rfl rfl
  | increment old =>
    cases h
    exact .write hflag rfl rfl rfl rfl
  | assertOne old =>
    obtain ⟨-, -, h⟩ := bind_eq_ok.mp h
    cases h
    exact .goto hflag ⟨rfl, rfl, rfl, rfl⟩ rfl
  | restore old =>
    cases h
    exact .restore hflag rfl

theorem lockAcquireStmt_spec {plock : Nat} {pc : AcquirePc}
    (hflag : (Pc.lockAcquire plock pc : Pc Loc).flagUse.Holds entry k.intr)
    (h : lockAcquireStmt k plock pc = .ok (k', eff)) :
    StmtSpec entry (.lockAcquire plock pc) k k' eff := by
  cases pc with
  | test =>
    simp only [lockAcquireStmt] at h
    split at h
    · cases h
      exact .call hflag ⟨rfl, rfl, rfl, rfl⟩ rfl rfl rfl
    · cases h
      exact .goto hflag ⟨rfl, rfl, rfl, rfl⟩ rfl
  | setHolder =>
    cases h
    exact .goto hflag ⟨rfl, rfl, rfl, rfl⟩ rfl
  | assertRepeatNr =>
    obtain ⟨-, -, h⟩ := bind_eq_ok.mp h
    cases h
    exact .goto hflag ⟨rfl, rfl, rfl, rfl⟩ rfl
  | setRepeatNr =>
    cases h
    exact .finish hflag ⟨rfl, rfl, rfl, rfl⟩ rfl
  | loadRepeatNr =>
    cases h
    exact .goto hflag ⟨rfl, rfl, rfl, rfl⟩ rfl
  | storeRepeatNr nr =>
    cases h
    exact .finish hflag ⟨rfl, rfl, rfl, rfl⟩ rfl

theorem lockReleaseStmt_spec {plock : Nat} {pc : ReleasePc}
    (hflag : (Pc.lockRelease plock pc : Pc Loc).flagUse.Holds entry k.intr)
    (h : lockReleaseStmt k plock pc = .ok (k', eff)) :
    StmtSpec entry (.lockRelease plock pc) k k' eff := by
  cases pc with
  | assertHolder =>
    obtain ⟨-, -, h⟩ := bind_eq_ok.mp h
    cases h
    exact .goto hflag ⟨rfl, rfl, rfl, rfl⟩ rfl
  | test =>
    simp only [lockReleaseStmt] at h
    split at h
    · cases h
      exact .goto hflag ⟨rfl, rfl, rfl, rfl⟩ rfl
    · cases h
      exact .goto hflag ⟨rfl, rfl, rfl, rfl⟩ rfl
  | loadRepeatNr =>
    cases h
    exact .goto hflag ⟨rfl, rfl, rfl, rfl⟩ rfl
  | storeRepeatNr nr =>
    cases h
    exact .finish hflag ⟨rfl, rfl, rfl, rfl⟩ rfl
  | assertRepeatNr =>
    obtain ⟨-, -, h⟩ := bind_eq_ok.mp h
    cases h
    exact .goto hflag ⟨rfl, rfl, rfl, rfl⟩ rfl
  | clearHolder =>
    cases h
    exact .goto hflag ⟨rfl, rfl, rfl, rfl⟩ rfl
  | clearRepeatNr =>
    cases h
    exact .call hflag ⟨rfl, rfl, rfl, rfl⟩ rfl rfl rfl

theorem timerStmt_spec  {pc : TimerPc}
    (hflag : (Pc.timer pc : Pc Loc).flagUse.Holds entry k.intr)
    (h : timerStmt k pc = .ok (k', eff)) : StmtSpec entry (.timer pc) k k' eff := by
  cases pc with
  | assertMagic =>
    obtain ⟨-, -, h⟩ := bind_eq_ok.mp h
    cases h
    exact .goto hflag ⟨rfl, rfl, rfl, rfl⟩ rfl
  | elapsed =>
    cases h
    exact .goto hflag ⟨rfl, rfl, rfl, rfl⟩ rfl
  | total =>
    cases h
    exact .goto hflag ⟨rfl, rfl, rfl, rfl⟩ rfl
  | test =>
    simp only [timerStmt] at h
    split at h
    · cases h
      -- the closing brace is all that is left
      exact ⟨⟨rfl, ⟨hflag.1, hflag.1.symm⟩, hflag.1.trans hflag.2, nofun, nofun⟩,
        fun _ => ⟨rfl, rfl⟩⟩
    · cases h
      exact .goto hflag ⟨rfl, rfl, rfl, rfl⟩ rfl
  | decrement =>
    cases h
    exact ⟨⟨.inl rfl, hflag.1.trans hflag.2⟩, fun _ => ⟨rfl, rfl⟩⟩

/-- A statement of any function of the kernel. -/
theorem kernelStmt_spec {pc : Pc Loc} (hflag : pc.flagUse.Holds entry k.intr)
    (h : FlagConfig.kernelStmt k eax pc = .ok (k', eff)) : StmtSpec entry pc k k' eff := by
  cases pc with
  | prog l => cases h
  | ret =>
    cases h
    exact ⟨⟨rfl, .inl hflag⟩, fun _ => ⟨rfl, rfl⟩⟩
  | intrExit eflags eax' =>
    cases h
    exact ⟨⟨rfl, hflag⟩, fun _ => ⟨rfl, rfl⟩⟩
  | listInit q pc => exact listInitStmt_spec hflag (Except.ok.inj h)
  | listInsertBefore before elem pc => exact listInsertBeforeStmt_spec hflag h
  | listRemove elem pc => exact listRemoveStmt_spec hflag h
  | listPop q pc => exact listPopStmt_spec hflag (Except.ok.inj h)
  | elemFind q elem pc => exact elemFindStmt_spec hflag h
  | semaInit s v pc => exact semaInitStmt_spec hflag (Except.ok.inj h)
  | lockInit l pc => exact lockInitStmt_spec hflag (Except.ok.inj h)
  | schedule pc => exact scheduleStmt_spec hflag h
  | threadBlock stat pc => exact threadBlockStmt_spec hflag h
  | threadUnblock t pc => exact threadUnblockStmt_spec hflag h
  | initThread t prio pc => exact initThreadStmt_spec hflag (Except.ok.inj h)
  | threadStart t prio fn pc => exact threadStartStmt_spec hflag h
  | processExecute t prio fn pc => exact processExecuteStmt_spec hflag h
  | kernelThread fn pc => exact kernelThreadStmt_spec hflag h
  | semaDown s pc => exact semaDownStmt_spec hflag h
  | semaUp s pc => exact semaUpStmt_spec hflag h
  | lockAcquire l pc => exact lockAcquireStmt_spec hflag h
  | lockRelease l pc => exact lockReleaseStmt_spec hflag h
  | timer pc => exact timerStmt_spec hflag h

end Functions

/-! ### The program -/

section Program

variable {entry : IntrStatus} {c : FlagConfig P} {input : P.Input} {m : P.Mem} {k : LinkKernel}
  {eff : Effect P.Loc}

/-- A call of the program: every function may be called with any flag. -/
theorem progCall_spec {callee : Pc P.Loc} {l l' : P.Loc} {k : LinkKernel}
    (h : callee.flagUse = .keeps ∨ callee.flagUse = .free) :
    StmtSpec entry (.prog l) k k (.call callee (.prog l')) := by
  refine ⟨⟨rfl, ?_, trivial, fun _ => rfl, fun _ => rfl⟩, fun _ => ⟨rfl, rfl⟩⟩
  rcases h with h | h
  · rw [h]
    rfl
  · rw [h]
    trivial

theorem DirectCall.start_keeps (f : DirectCall Loc) : f.start.flagUse = .keeps := by
  cases f <;> rfl

theorem callStart_keeps (f : Call Loc) : (callStart f).flagUse = .keeps := by
  cases f <;> rfl

/-- A statement of the program changes the flag at most. -/
theorem progStmt_spec {l : P.Loc} (h : FlagConfig.progStmt input l c = .ok (m, k, eff)) :
    StmtSpec entry (.prog l) c.kernel k eff := by
  simp only [FlagConfig.progStmt] at h
  split at h
  · cases h
    exact progCall_spec (.inl (DirectCall.start_keeps _))
  · split at h
    · cases h
      exact .goto trivial ⟨rfl, rfl, rfl, rfl⟩ rfl
    · cases h
      exact ⟨⟨rfl, trivial, fun _ => rfl⟩, fun _ => ⟨rfl, rfl⟩⟩
    · cases h
      exact progCall_spec (.inl (callStart_keeps _))
    · cases h
      exact progCall_spec (.inr rfl)
    · cases h
      exact ⟨⟨rfl, .inr rfl⟩, fun _ => ⟨rfl, rfl⟩⟩
    · cases h

theorem map_eq_ok {α β : Type} {x : Except Panic α} {f : α → β} {b : β} :
    x.map f = .ok b ↔ ∃ a, x = .ok a ∧ f a = b := by
  cases x with
  | error p => simp [Except.map]
  | ok a => simp [Except.map]

/-- Any statement. -/
theorem stmt_spec {pc : Pc P.Loc} (hflag : pc.flagUse.Holds entry c.kernel.intr)
    (h : c.stmt input pc = .ok (m, k, eff)) : StmtSpec entry pc c.kernel k eff := by
  unfold FlagConfig.stmt at h
  split at h
  · exact progStmt_spec h
  · obtain ⟨r, hr, hc⟩ := map_eq_ok.mp h
    cases hc
    exact kernelStmt_spec hflag hr

end Program

/-! ## The invariant -/

namespace FlagConfig

variable {c : FlagConfig P} {a : Activation IntrStatus (Pc P.Loc)}
  {rest : List (Activation IntrStatus (Pc P.Loc))} {m : P.Mem} {k : LinkKernel} {eff : Effect P.Loc}

/-- Every frame of every stack is as its function asks; the threads that do not run stand where the
flag is off. -/
def Inv (c : FlagConfig P) : Prop :=
  (flagRule P.Loc).FlagInv .off c.kernel.intr c.kernel.running c.stack

/-- The running frame. -/
theorem Inv.holds (h : c.Inv) (htop : c.top = a :: rest) :
    a.pc.flagUse.Holds a.entry c.kernel.intr := by
  have hhead : a ∈ (c.stack c.kernel.running).head? := by
    rw [show c.stack c.kernel.running = a :: rest from htop]
    rfl
  have hmem : a ∈ c.stack c.kernel.running := List.mem_of_mem_head? hhead
  exact holds_iff.mpr ⟨h.top a hhead, (h.stackOk _).knows a hmem⟩

/-- The running thread goes on with the stack `st`. -/
theorem Inv.stay (h : c.Inv) {st : List (Activation IntrStatus (Pc P.Loc))} {eax : Tid → RetVal}
    (hrunning : k.running = c.kernel.running) (hst : (flagRule P.Loc).StackOk st)
    (hfits : ∀ b ∈ st.head?, (flagRule P.Loc).Fits k.intr b) :
    ({ c.setTop st with mem := m, kernel := k, eax := eax } : FlagConfig P).Inv := by
  show (flagRule P.Loc).FlagInv .off k.intr k.running
    (Function.update c.stack c.kernel.running st)
  rw [hrunning]
  exact FlagRule.FlagInv.stay h hst hfits

/-- Behind the last statement of a function its caller gets what it asks for. -/
theorem ret_fits {x : IntrStatus} (hst : (flagRule P.Loc).StackOk (a :: rest))
    (hx : x = a.entry ∨ a.pc.flagUse.isFree = true) :
    ∀ b ∈ rest.head?, (flagRule P.Loc).Fits x b := by
  cases rest with
  | nil => simp
  | cons b rest =>
    intro b' hb
    cases hb
    exact hst.ret hx

/-- **One statement** keeps the invariant. -/
theorem Inv.apply (h : c.Inv) (htop : c.top = a :: rest) (hpage : c.newPage = true)
    (hok : KeepsFlag a.entry a.pc c.kernel k eff) : (c.apply a rest m k eff).Inv := by
  have hst : (flagRule P.Loc).StackOk (a :: rest) := htop ▸ h.stackOk c.kernel.running
  cases eff with
  | goto pc =>
    obtain ⟨hrunning, hholds, hfree⟩ := hok
    have hboth := holds_iff.mp hholds
    exact h.stay hrunning (hst.goto hboth.2 hfree) (by simpa using hboth.1)
  | call callee pc =>
    obtain ⟨hrunning, hcallee, hholds, hfree, hcalleeFree⟩ := hok
    have hboth := holds_iff.mp hholds
    have hnew := holds_iff.mp hcallee
    refine h.stay hrunning (hst.call hboth.2 hfree hnew.2 ⟨hboth.1, fun hf => ?_⟩)
      (by simpa using hnew.1)
    -- a caller that lets go of the flag may call one that does
    simp [flagRule, hcalleeFree hf]
  | done eax =>
    obtain ⟨hrunning, hintr⟩ := hok
    have hret : (flagRule P.Loc).StackOk (⟨a.entry, .ret⟩ :: rest) := hst.goto trivial nofun
    rcases hrunning with hrunning | hoff
    · refine h.stay hrunning hret ?_
      simpa [FlagRule.Fits, flagRule, Pc.flagUse] using hintr
    · -- the end of `schedule`: another thread goes on where the flag is off
      show (flagRule P.Loc).FlagInv .off k.intr k.running _
      rw [hintr, hoff]
      exact FlagRule.FlagInv.switch h hret (by simpa [flagRule, Pc.flagUse] using hoff)
  | ret =>
    obtain ⟨hrunning, hintr⟩ := hok
    exact h.stay hrunning hst.tail (ret_fits hst hintr)
  | iret eax =>
    obtain ⟨hrunning, hintr⟩ := hok
    exact h.stay hrunning hst.tail (ret_fits hst (.inl hintr))
  | create thread function pc =>
    obtain ⟨hrunning, hholds, hfree, hthread⟩ := hok
    have hboth := holds_iff.mp hholds
    have hne : thread ≠ c.kernel.running := by
      simpa [newPage, htop, hthread] using hpage
    have hstart : (flagRule P.Loc).StackOk [⟨.off, .kernelThread function .enable⟩] :=
      FlagRule.stackOk_nil.push trivial (by simp)
    have hcreate := FlagRule.FlagInv.create h hne hstart
      (by simp [flagRule, Pc.flagUse])
    show (flagRule P.Loc).FlagInv .off k.intr k.running _
    rw [hrunning]
    exact hcreate.stay (hst.goto hboth.2 hfree) (by simpa using hboth.1)

/-- An interrupt keeps the invariant. -/
theorem Inv.interrupt (h : c.Inv) {handler : Pc P.Loc}
    (hhandler : handler.flagUse.Holds .off .off) : (c.interrupt handler).Inv := by
  have hboth := holds_iff.mp hhandler
  have hexit : (flagRule P.Loc).StackOk
      (⟨c.kernel.intr, .intrExit c.kernel.intr (c.eax c.kernel.running)⟩ :: c.top) := by
    refine (h.stackOk c.kernel.running).push rfl fun b hb => ⟨h.top b hb, nofun⟩
  have hst := hexit.push hboth.2 (a := ⟨.off, handler⟩) fun b hb => by
    cases hb
    exact ⟨FlagRule.fits_of_none rfl, fun _ => rfl⟩
  refine FlagRule.FlagInv.stay h hst fun b hb => ?_
  cases hb
  exact hboth.1

/-- **The step lemma.** -/
theorem Inv.step (h : c.Inv) (hpage : c.newPage = true) {e : Event P.toProgram} {c' : FlagConfig P}
    (hstep : c.flagStep e = some (.ok c')) : c'.Inv := by
  cases e with
  | exec input =>
    simp only [flagStep] at hstep
    split at hstep
    · cases hstep
    · next a rest htop =>
      obtain ⟨⟨m, k, eff⟩, hstmt, rfl⟩ := map_eq_ok.mp (Option.some.inj hstep)
      have hspec := stmt_spec (h.holds htop) hstmt
      exact h.apply htop hpage hspec.flag
  | timer =>
    simp only [flagStep] at hstep
    split at hstep
    · cases hstep
      exact h.interrupt ⟨rfl, rfl⟩
    · cases hstep
  | device input =>
    simp only [flagStep] at hstep
    split at hstep
    · obtain ⟨l, -, hl⟩ := Option.map_eq_some_iff.mp hstep
      cases hl
      exact h.interrupt trivial
    · cases hstep

theorem Started.inv (h : c.Started) : c.Inv := by
  obtain ⟨entry, l, hstack⟩ := h.stack
  show (flagRule P.Loc).FlagInv .off c.kernel.intr c.kernel.running c.stack
  rw [hstack]
  have hempty : (flagRule P.Loc).FlagInv .off c.kernel.intr c.kernel.running fun _ => [] :=
    FlagRule.FlagInv.empty
  refine hempty.stay (FlagRule.stackOk_nil.push trivial (by simp)) fun b hb => ?_
  cases hb
  exact FlagRule.fits_of_none rfl

end FlagConfig

/-- **The run lemma.** -/
theorem Reachable.inv {c : FlagConfig P} (h : Reachable c) : c.Inv :=
  System.Reach.invariant (fun _ => FlagConfig.Started.inv)
    (fun _ _ _ _ hinv hpage hstep => hinv.step hpage hstep) c h

/-! ## The discipline -/

/-- An event that is not a statement which writes leaves the links, the values and the wait lists
alone. -/
theorem flagStep_frame {c c' : FlagConfig P} {e : Event P.toProgram} (hinv : c.Inv)
    (hstep : c.flagStep e = some (.ok c'))
    (hwrites : ∀ input, e = .exec input → ∀ a rest, c.top = a :: rest → a.pc.writes = false) :
    c'.kernel.lists = c.kernel.lists ∧ c'.kernel.value = c.kernel.value := by
  cases e with
  | exec input =>
    simp only [FlagConfig.flagStep] at hstep
    split at hstep
    · cases hstep
    · next a rest htop =>
      obtain ⟨⟨m, k, eff⟩, hstmt, rfl⟩ := map_eq_ok.mp (Option.some.inj hstep)
      have hframe := (stmt_spec (hinv.holds htop) hstmt).frame (hwrites input rfl a rest htop)
      cases eff <;> exact hframe
  | timer =>
    simp only [FlagConfig.flagStep] at hstep
    split at hstep
    · cases hstep
      exact ⟨rfl, rfl⟩
    · cases hstep
  | device input =>
    simp only [FlagConfig.flagStep] at hstep
    split at hstep
    · obtain ⟨l, -, hl⟩ := Option.map_eq_some_iff.mp hstep
      cases hl
      exact ⟨rfl, rfl⟩
    · cases hstep

/-- `thread_start` with interrupts on: the `memset` of `init_thread` writes the links of the new
PCB. -/
theorem memset_unmasked :
    ∃ c : FlagConfig (stiThen (.threadStart 1 8 5)), Reachable c ∧
      ∃ a rest, c.top = a :: rest ∧ a.pc.writes = true ∧ a.pc.inInit = false ∧
        c.kernel.intr = .on := by
  obtain ⟨c₀, hboot, c, hrun, hc⟩ :
      ∃ c₀ : FlagConfig (stiThen (.threadStart 1 8 5)),
        stiThenBoot _ = .ok c₀ ∧
        ∃ c, (flagMachine _).run (fun c _ => c.newPage) (List.replicate 3 (.exec ())) c₀ =
            some (.ok c) ∧
          ∃ a rest, c.top = a :: rest ∧ a.pc.writes = true ∧ a.pc.inInit = false ∧
            c.kernel.intr = .on :=
    ⟨_, rfl, _, rfl, _, _, rfl, rfl, rfl, rfl⟩
  exact ⟨c, .of_boot hboot hrun, hc⟩

/-- **Interrupt discipline.** In every run, whichever threads come in between: at the end of a
function of the kernel the flag is as at its call; `schedule` starts with interrupts off; a
statement that writes a link, a semaphore's value or a wait list is executed with interrupts off,
unless it is one of `list_init` and `sema_init` or clears the page of a new PCB; and nothing else
changes them. -/
theorem interrupt_discipline {c : FlagConfig P} (h : Reachable c) :
    (∀ a rest, c.top = a :: rest →
      (a.pc = .ret → c.kernel.intr = a.entry) ∧
      (a.pc = .schedule .assertOff → c.kernel.intr = .off) ∧
      (a.pc.writes = true → a.pc.inInit = false → a.pc.clearsPcb = false → c.kernel.intr = .off)) ∧
    ∀ e c', c.flagStep e = some (.ok c') →
      (∀ input, e = .exec input → ∀ a rest, c.top = a :: rest → a.pc.writes = false) →
      c'.kernel.lists = c.kernel.lists ∧ c'.kernel.value = c.kernel.value := by
  refine ⟨fun a rest htop => ?_, fun e c' => flagStep_frame h.inv⟩
  have hholds := h.inv.holds htop
  refine ⟨fun hret => ?_, fun hstart => ?_, fun hwrites hinit hclear => ?_⟩
  · rw [hret] at hholds
    exact hholds
  · rw [hstart] at hholds
    exact hholds.1
  · obtain ⟨old, huse⟩ := writes_masked hwrites hinit hclear
    rw [huse] at hholds
    exact hholds.1

/-- A `sema_down` called with interrupts on, at its end. -/
theorem interrupt_discipline_semaDown :
    ∃ c : FlagConfig (stiThen (.semaDown 0)), Reachable c ∧
      (∃ rest, c.top = ⟨.on, .ret⟩ :: rest) ∧ c.kernel.intr = .on := by
  obtain ⟨c₀, hboot, c, hrun, rest, htop⟩ :
      ∃ c₀ : FlagConfig (stiThen (.semaDown 0)), stiThenBoot _ = .ok c₀ ∧
        ∃ c, (flagMachine _).run (fun c _ => c.newPage) (List.replicate 7 (.exec ())) c₀ =
            some (.ok c) ∧
          ∃ rest, c.top = ⟨.on, .ret⟩ :: rest :=
    ⟨_, rfl, _, rfl, _, rfl⟩
  have hreach : Reachable c := .of_boot hboot hrun
  exact ⟨c, hreach, ⟨rest, htop⟩, ((interrupt_discipline hreach).1 _ _ htop).1 rfl⟩

end OsKernel.InterruptFlag
