import Simterpose.Dispatch

/-! # When in_syscall follows the tracee

The flag is right at a dispatch when it is down exactly at the entry of a call. What a
handler owes the next dispatch is `Ready`: if the tracee is resumed from an exit the flag
must be down, otherwise up. The handlers with a function for each side keep this by one
argument; what is left are the four ways in which a round fails.
-/

namespace Simterpose

open Lib

def Stop.isEvent : Stop → Bool
  | .event _ => true
  | _ => false

namespace Tracee

/-- The flag says on which side of a call the tracee stands. -/
def Tracked (t : Tracee) : Prop := t.inSyscall = false ↔ t.stop = .entry

/-- The flag will be right at the dispatch that follows. -/
def Ready : Tracee × Returned → Prop
  | (t, .nested) => t.Tracked
  | (_, .processDead) => True
  | (t, .processContinue) | (t, .processTaskFound) => t.inSyscall = false ↔ t.stop = .exit

/-- A handler's part for the entry of a call. -/
def Enters (pre : Handler) : Prop := Ensures (pre ⟨.entry, true⟩) Ready

/-- A handler's part for the exit; it only lowers the flag. -/
def Leaves (post : Handler) : Prop :=
  ∀ stop, Ensures (post ⟨stop, false⟩) (· = (⟨stop, false⟩, .processContinue))

theorem enters_done : Enters done :=
  .ok (by simp [Ready])

theorem enters_neutralised : Enters (neutralised .processContinue) :=
  .ok (by simp [Ready, ptraceNeutralizeSyscall, procOutside])

theorem enters_taskFound : Enters (neutralised .processTaskFound) :=
  .ok (by simp [Ready, ptraceNeutralizeSyscall, procOutside])

theorem enters_error {halt : Halt} : Enters fun _ => .error halt := .error

theorem Enters.after {α : Type} {x : Result α} {rest : α → Handler} (enters : ∀ a, Enters (rest a)) :
    Enters fun t => x >>= fun a => rest a t :=
  Ensures.after enters

theorem Enters.ite {c : Prop} [Decidable c] {yes no : Handler} (entersYes : Enters yes)
    (entersNo : Enters no) : Enters fun t => if c then yes t else no t := by
  unfold Enters
  split
  · exact entersYes
  · exact entersNo

theorem enters_answered {α : Type} {answer : Option α} : Enters (answered answer) := by
  unfold answered
  split
  · exact enters_neutralised
  · exact enters_done

theorem leaves_done : Leaves done := fun _ => .ok rfl

theorem leaves_error {halt : Halt} : Leaves fun _ => .error halt := fun _ => .error

theorem Leaves.after {α : Type} {x : Result α} {rest : α → Handler} (leaves : ∀ a, Leaves (rest a)) :
    Leaves fun t => x >>= fun a => rest a t :=
  fun stop => Ensures.after fun a => leaves a stop

theorem Leaves.ite {c : Prop} [Decidable c] {yes no : Handler} (leavesYes : Leaves yes)
    (leavesNo : Leaves no) : Leaves fun t => if c then yes t else no t := by
  intro stop
  split
  · exact leavesYes stop
  · exact leavesNo stop

theorem Tracked.cases {t : Tracee} (tracked : t.Tracked) :
    t = ⟨.entry, false⟩ ∨ t = ⟨.exit, true⟩ ∨ ∃ e, t = ⟨.event e, true⟩ := by
  obtain ⟨stop, flag⟩ := t
  cases stop with
  | entry => simpa [Tracked] using tracked
  | event e => simpa [Tracked] using tracked
  | exit => simpa [Tracked] using tracked

theorem Tracked.sides {t : Tracee} (tracked : t.Tracked) (syscallStop : t.stop.isEvent = false) :
    t = ⟨.entry, false⟩ ∨ t = ⟨.exit, true⟩ := by
  rcases tracked.cases with entry | exit | ⟨e, rfl⟩
  · exact .inl entry
  · exact .inr exit
  · cases syscallStop

/-- A handler of two sides fails only at an event, which it takes for the exit. -/
theorem ready_bySide {pre post : Handler} {t : Tracee} {outcome : Tracee × Returned}
    (tracked : t.Tracked) (enters : Enters pre) (leaves : Leaves post)
    (handled : bySide pre post t = .ok outcome) : Ready outcome ↔ t.stop.isEvent = false := by
  rcases tracked.cases with rfl | rfl | ⟨e, rfl⟩
  · simpa [Stop.isEvent] using enters outcome handled
  · cases leaves .exit outcome handled
    simp [Ready, Stop.isEvent]
  · cases leaves (.event e) outcome handled
    simp [Ready, Stop.isEvent]

section

variable {H : Type} {w : World H} {proc : Pid}

theorem enters_readPre {fd : Int} : Enters (syscallReadPre w proc fd) := by
  unfold Enters syscallReadPre
  split
  · exact .error
  · exact Enters.ite (Enters.after fun _ => enters_neutralised) (.ite enters_error enters_done)

theorem enters_recvmsgPre {fd : Int} : Enters (syscallRecvmsgPre w proc fd) := by
  unfold Enters syscallRecvmsgPre
  split
  · exact .error
  · exact Enters.ite (Enters.after fun _ => enters_neutralised) enters_done

theorem enters_getpeername {sockfd : Int} :
    Enters fun t =>
      match w.getInfosSocket proc sockfd with
      | none => done t
      | some is =>
          if w.socketNetwork proc sockfd then
            if (w.socket is).comm = none then neutralised .processContinue t else .error .segfault
          else done t := by
  unfold Enters
  split
  · exact enters_done
  · exact Enters.ite (.ite enters_neutralised enters_error) enters_done

theorem leaves_acceptPost {sockfd : Int} : Leaves (syscallAcceptPost w proc sockfd) := by
  intro stop
  unfold syscallAcceptPost
  split
  · exact .error
  · exact Ensures.after fun _ => leaves_done stop

theorem leaves_writePost {fd : Int} : Leaves (syscallWritePost w proc fd) := by
  intro stop
  unfold syscallWritePost
  split
  · exact .error
  · split
    · split
      · exact .error
      · split
        · exact .error
        · exact leaves_done stop
    · exact leaves_done stop

variable [DecidableEq H]

theorem enters_sendPre {fd : Int} {data beyond : List UInt8} :
    Enters (sendPre w proc fd data beyond) :=
  .after fun _ => .ite enters_taskFound enters_done

/-- A call to connect that is `PF_INET` gets its result from Simterpose. -/
theorem connectTo_ret {sockfd : Int} {port : Nat} {host : H} {device : Nat} {ip : UInt32} :
    Ensures (w.connectTo proc sockfd port host device ip) fun o => o.ret.isSome := by
  refine Ensures.after ?_
  rintro ⟨w', accProc⟩
  cases accProc with
  | none => exact .ok rfl
  | some listener =>
      dsimp only
      split
      · exact .error
      · refine Ensures.after fun w'' => ?_
        split
        · exact .ok rfl
        · exact .ok rfl

theorem processConnectInCall_ret {sockfd : Int} {sai : SockaddrIn}
    (inet : w.getDomainSocket proc sockfd = 2) :
    Ensures (w.processConnectInCall proc sockfd sai) fun o => o.ret.isSome := by
  unfold World.processConnectInCall
  rw [if_pos inet]
  split
  · exact connectTo_ret
  · split
    · exact .ok rfl
    · exact connectTo_ret

/-- On any other domain the flag is lowered although the kernel runs the call. -/
theorem ready_connectPre {sockfd : Int} {sai : SockaddrIn} :
    Ensures (syscallConnectPre w proc sockfd sai ⟨.entry, true⟩) fun outcome =>
      Ready outcome ↔ w.getDomainSocket proc sockfd = 2 := by
  by_cases inet : w.getDomainSocket proc sockfd = 2
  · refine Ensures.bind (processConnectInCall_ret inet) ?_
    intro o given
    dsimp only
    rw [if_pos given]
    split
    · exact Ensures.after fun _ => .ok (by simp [Ready, Tracked, ptraceNeutralizeSyscall, inet])
    · exact .ok (by simp [Ready, procOutside, ptraceNeutralizeSyscall, inet])
  · unfold syscallConnectPre World.processConnectInCall
    rw [if_neg inet]
    exact .ok (by simp [Ready, procOutside, inet])

theorem ready_connect {sockfd : Int} {sai : SockaddrIn} {t : Tracee} {outcome : Tracee × Returned}
    (tracked : t.Tracked) (syscallStop : t.stop.isEvent = false)
    (handled : syscallConnect w proc sockfd sai t = .ok outcome) :
    Ready outcome ↔ (t.stop = .entry → w.getDomainSocket proc sockfd = 2) := by
  rcases tracked.sides syscallStop with rfl | rfl
  · simpa using ready_connectPre outcome handled
  · have leaves : Leaves fun t => w.syscallConnectPost proc sockfd >>= fun _ => done t :=
      Leaves.after fun _ => leaves_done
    cases leaves .exit outcome handled
    simp [Ready]

/-- A descriptor the kernel did not close leaves the flag up. -/
theorem ready_close {fd ret : Int} {t : Tracee} {outcome : Tracee × Returned}
    (tracked : t.Tracked) (syscallStop : t.stop.isEvent = false)
    (handled : syscallClose w proc fd ret t = .ok outcome) :
    Ready outcome ↔ (t.stop = .exit → ret = 0) := by
  rcases tracked.sides syscallStop with rfl | rfl
  · simpa using enters_done outcome handled
  · by_cases closed : ret = 0
    · have leaves : Leaves fun t => w.processCloseCall proc fd >>= fun _ => done t :=
        Leaves.after fun _ => leaves_done
      have handled : (w.processCloseCall proc fd >>= fun _ => done ⟨.exit, false⟩) = .ok outcome := by
        simpa [syscallClose, procEntering, procOutside, closed] using handled
      cases leaves .exit outcome handled
      simp [Ready, closed]
    · have kept : done ⟨.exit, true⟩ = .ok outcome := by
        simpa [syscallClose, procEntering, closed] using handled
      cases kept
      simp [Ready, closed]

end

/-- Every stop passes the test for a regular one. -/
theorem syscallClone_eq : syscallClone = bySide done done := by
  funext t
  obtain ⟨stop, flag⟩ := t
  cases stop with
  | entry | event | exit => simp [syscallClone, Stop.wstopsig, sigtrap]

/-- At an exit `SYS_pipe` and `SYS_brk` lower and raise the flag, at an entry the other way
    round. -/
theorem not_ready_pipe {t : Tracee} {outcome : Tracee × Returned} (tracked : t.Tracked)
    (syscallStop : t.stop.isEvent = false)
    (handled : (syscallPipe t >>= fun p => syscallBrk p.1) = .ok outcome) : ¬ Ready outcome := by
  rcases tracked.sides syscallStop with rfl | rfl
  · cases handled
    simp [Ready, procOutside, procInside]
  · cases handled
    simp [Ready, procOutside, procInside]

theorem ready_execve {t : Tracee} {outcome : Tracee × Returned} (tracked : t.Tracked)
    (possible : t.stop.possible .execve = true) (handled : syscallExecve t = .ok outcome) :
    Ready outcome := by
  rcases tracked.cases with rfl | rfl | ⟨e, rfl⟩
  · exact enters_done outcome handled
  · cases handled
    simp [Ready, procOutside]
  · have exec : e = .exec := by simpa [Stop.possible, Syscall.reports] using possible
    subst exec
    cases handled
    simp [Ready]

theorem ready_exit {t : Tracee} {outcome : Tracee × Returned}
    (handled : syscallExit t = .ok outcome) : Ready outcome := by
  unfold syscallExit at handled
  split at handled
  · cases handled
    trivial
  · cases handled

end Tracee

namespace Moment

open Tracee

variable {H : Type} (proc : Pid)

/-- The rounds that leave the flag right: none of `SYS_pipe`, none for the event of a fork,
    `connect` only on a socket that is known and `PF_INET`, and no `close` that failed. -/
def Steady (m : Moment) (r : Round H) : Prop :=
  match m.call with
  | .pipe => False
  | .clone | .other _ => m.tracee.stop.isEvent = false
  | .connect sockfd _ => m.tracee.stop = .entry → r.world.getDomainSocket proc sockfd = 2
  | .close _ => m.tracee.stop = .exit → r.ret = 0
  | _ => True

instance (m : Moment) (r : Round H) : Decidable (m.Steady proc r) := by
  unfold Steady
  split <;> infer_instance

theorem isEvent_eq_false {stop : Stop} {call : Syscall} (possible : stop.possible call = true)
    (silent : ∀ e, call.reports e = false) : stop.isEvent = false := by
  cases stop with
  | event e => exact absurd possible (by simp [Stop.possible, silent])
  | entry | exit => rfl

theorem tracked_arrive {call : Syscall} {t : Tracee} {m : Moment} (arrived : arrive call t = some m) :
    m.tracee = t := by
  unfold arrive at arrived
  split at arrived
  · cases arrived
    rfl
  · cases arrived

theorem tracked_resume {call : Syscall} {t : Tracee} {motion : Motion} {m : Moment}
    (resumed : resume call t motion = some m) :
    m.tracee.Tracked ↔ (t.inSyscall = false ↔ t.stop = .exit) := by
  cases motion with
  | event e =>
      obtain ⟨entered, arrived⟩ : t.stop = .entry ∧ arrive call { t with stop := .event e } = some m := by
        simpa [resume] using resumed
      simp [tracked_arrive arrived, Tracked, entered]
  | exit =>
      obtain ⟨inside, arrived⟩ : t.stop ≠ .exit ∧ arrive call { t with stop := .exit } = some m := by
        simpa [resume] using resumed
      simp [tracked_arrive arrived, Tracked, inside]
  | entry next =>
      obtain ⟨outside, arrived⟩ : t.stop = .exit ∧ arrive next { t with stop := .entry } = some m := by
        simpa [resume] using resumed
      simp [tracked_arrive arrived, Tracked, outside]

/-- The next dispatch finds the flag right when the handler was ready for it. -/
theorem tracked_after {call : Syscall} {outcome : Tracee × Returned} {motion : Option Motion}
    {m : Moment} (next : after call outcome motion = some m) : m.tracee.Tracked ↔ Ready outcome := by
  obtain ⟨t, returned⟩ := outcome
  cases returned with
  | processContinue | processTaskFound =>
      cases motion with
      | none => cases next
      | some motion => exact tracked_resume next
  | processDead => cases motion <;> cases next
  | nested =>
      cases motion with
      | none =>
          rw [tracked_arrive next]
          rfl
      | some motion => cases next

variable [DecidableEq H]

theorem ready_dispatch {m : Moment} {r : Round H} {outcome : Tracee × Returned}
    (tracked : m.tracee.Tracked)
    (handled : m.tracee.dispatch r.world proc r.ret m.call = .ok outcome) :
    Ready outcome ↔ m.Steady proc r := by
  obtain ⟨call, t, possible⟩ := m
  have quiet := isEvent_eq_false possible
  have kept : ∀ {pre post : Handler}, (∀ e, call.reports e = false) → Enters pre → Leaves post →
      bySide pre post t = .ok outcome → (Ready outcome ↔ True) := by
    intro pre post silent enters leaves handled
    exact iff_of_true ((ready_bySide tracked enters leaves handled).mpr (quiet silent)) trivial
  cases call with
  | creat | openFile | brk | getpid | tuxcall =>
      exact kept (fun _ => rfl) enters_done leaves_done handled
  | shutdown | getsockopt | setsockopt =>
      exact kept (fun _ => rfl) enters_neutralised leaves_done handled
  | clone =>
      have handled : bySide done done t = .ok outcome := by rwa [← syscallClone_eq]
      exact ready_bySide tracked enters_done leaves_done handled
  | other nr => exact ready_bySide tracked enters_done leaves_done handled
  | pipe => exact iff_of_false (not_ready_pipe tracked (quiet fun _ => rfl) handled) id
  | close fd => exact ready_close tracked (quiet fun _ => rfl) handled
  | connect sockfd sai => exact ready_connect tracked (quiet fun _ => rfl) handled
  | execve => exact iff_of_true (ready_execve tracked possible handled) trivial
  | exit | exitGroup => exact iff_of_true (ready_exit handled) trivial
  | select => exact kept (fun _ => rfl) enters_error leaves_done handled
  | read fd => exact kept (fun _ => rfl) enters_readPre leaves_done handled
  | recvmsg fd => exact kept (fun _ => rfl) enters_recvmsgPre leaves_done handled
  | sendto fd data beyond | sendmsg fd data beyond =>
      exact kept (fun _ => rfl) enters_sendPre leaves_done handled
  | write fd data beyond =>
      exact kept (fun _ => rfl) (.ite enters_sendPre enters_done) leaves_writePost handled
  | bind sockfd sai =>
      exact kept (fun _ => rfl) (.after fun _ => enters_answered) leaves_done handled
  | accept sockfd newfd =>
      exact kept (fun _ => rfl) (.after fun _ => enters_answered) leaves_acceptPost handled
  | recvfrom fd lenBuf addrlen =>
      exact kept (fun _ => rfl) (.after fun _ => enters_answered)
        (.ite (.after fun _ => leaves_done) leaves_done) handled
  | listen sockfd =>
      exact kept (fun _ => rfl) (.after fun _ => enters_neutralised) leaves_error handled
  | getpeername sockfd => exact kept (fun _ => rfl) enters_getpeername leaves_done handled
  | lseek fd | poll fd =>
      exact kept (fun _ => rfl) (.ite enters_error enters_done) leaves_done handled
  | fcntl => exact kept (fun _ => rfl) enters_done (.ite leaves_error leaves_done) handled
  | dup oldfd | dup2 oldfd newfd | socket domain type protocol =>
      exact kept (fun _ => rfl) enters_done (.after fun _ => leaves_done) handled

theorem Step.exists_outcome {m m' : Moment} {r : Round H} (step : Step proc m r m') :
    ∃ outcome, m.tracee.dispatch r.world proc r.ret m.call = .ok outcome ∧
      after m.call outcome r.motion = some m' := by
  obtain ⟨outcome, handled, next⟩ := Option.bind_eq_some_iff.mp step
  exact ⟨outcome, eq_ok_of_mem_toOption handled, next⟩

/-- A round that finds the flag right leaves it right exactly when it is steady. -/
theorem Step.tracked_iff {m m' : Moment} {r : Round H} (tracked : m.tracee.Tracked)
    (step : Step proc m r m') : m'.tracee.Tracked ↔ m.Steady proc r := by
  obtain ⟨outcome, handled, next⟩ := step.exists_outcome
  calc
    m'.tracee.Tracked ↔ Ready outcome := tracked_after next
    _ ↔ m.Steady proc r := ready_dispatch proc tracked handled

theorem Step.functional (m : Moment) (r : Round H) (m₁ m₂ : Moment) (step₁ : Step proc m r m₁)
    (step₂ : Step proc m r m₂) : m₁ = m₂ :=
  Option.some.inj (step₁.symm.trans step₂)

/-- What can be computed of some rounds holds after some run. -/
theorem exists_run (guard : Moment → Round H → Prop) [∀ m r, Decidable (guard m r)] (call : Syscall)
    (rounds : List (Round H)) {P : List (Round H) × Moment → Prop}
    (found : ∃ r ∈ perform (fun m r => (round proc m r).map fun m' => (r, m')) guard (start call)
      rounds, P r) :
    ∃ rounds m, Run (Guarded guard (Step proc)) (start call) rounds m ∧ P (rounds, m) := by
  refine Run.exists_of_perform (P := fun rounds m => P (rounds, m)) ?_ found
  intro m r r' m' done
  obtain ⟨_, next, same⟩ := Option.map_eq_some_iff.mp done
  cases same
  exact next

/-- In a run the flag is down exactly at the entries of calls, at every dispatch, if and
    only if all its rounds are steady. -/
theorem in_syscall_follows_tracee {call : Syscall} {rounds : List (Round H)} {m : Moment}
    (run : Run (Step proc) (start call) rounds m) :
    Run (Guarded (Steady proc) (Step proc)) (start call) rounds m ↔
      ∀ rounds' m', rounds' <+: rounds → Run (Step proc) (start call) rounds' m' →
        (m'.tracee.inSyscall = false ↔ m'.tracee.stop = .entry) :=
  run.guarded_iff (fun _ m => m.tracee.Tracked) (Step.functional proc) (by simp [start, Tracked])
    fun _ _ _ _ _ tracked step => Step.tracked_iff proc tracked step

/-- A file is opened by `openat`, which has no handler, and closed, a call is neutralised, and
    a program is executed. -/
theorem in_syscall_follows_tracee_openat :
    ∃ (rounds : List (Round (Fin 3))) (m : Moment), Run (Step 0) (start (.other 257)) rounds m ∧
      (rounds.length = 7 ∧ m.tracee.stop = .exit) ∧
      ∀ rounds' m', rounds' <+: rounds → Run (Step 0) (start (.other 257)) rounds' m' →
        (m'.tracee.inSyscall = false ↔ m'.tracee.stop = .entry) := by
  obtain ⟨rounds, m, run, reached⟩ := exists_run 0 (Steady 0) (.other 257)
    [⟨.threeHosts, -38, some .exit⟩, ⟨.threeHosts, 3, some (.entry (.close 3))⟩,
      ⟨.threeHosts, -38, some .exit⟩, ⟨.threeHosts, 0, some (.entry .shutdown)⟩,
      ⟨.threeHosts, -38, some (.entry .execve)⟩, ⟨.threeHosts, -38, some (.event .exec)⟩,
      ⟨.threeHosts, 0, some .exit⟩]
    (P := fun r => r.1.length = 7 ∧ r.2.tracee.stop = .exit) (by decide)
  have plain : Run (Step 0) (start (.other 257)) rounds m := run.mono fun _ _ _ step => step.2
  exact ⟨rounds, m, plain, reached, (in_syscall_follows_tracee 0 plain).mp run⟩

/-- The kernel refuses to close descriptor 7 (`EBADF`), and the next call is entered with the
    flag up. -/
theorem flag_up_after_failed_close :
    ∃ (rounds : List (Round (Fin 3))) (m : Moment), Run (Step 0) (start (.close 7)) rounds m ∧
      m.tracee.stop = .entry ∧ m.tracee.inSyscall = true := by
  obtain ⟨rounds, m, run, reached⟩ := exists_run 0 (fun _ _ => True) (.close 7)
    [⟨.threeHosts, -38, some .exit⟩, ⟨.threeHosts, -9, some (.entry .getpid)⟩]
    (P := fun r => r.2.tracee.stop = .entry ∧ r.2.tracee.inSyscall = true) (by decide)
  exact ⟨rounds, m, run.mono fun _ _ _ step => step.2, reached⟩

end Moment

end Simterpose
