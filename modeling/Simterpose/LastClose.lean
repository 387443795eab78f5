import Simterpose.References

/-! # Closing one of several descriptors

A communication should go down with the last descriptor of one of its sockets. The
closing path does not ask whether a descriptor is the last: it counts closes, so a
duplicate that is closed, or `dup2` of a descriptor onto itself, already takes a
reference and moves the communication on. Only the closing of a last descriptor, or of
no socket at all, is as it should be.
-/

namespace Simterpose

open Lib

namespace Links

/-- A communication is marked closed or leaves the list. -/
def TornDown (l l' : Links) (k : CommId) : Prop :=
  (l.state k ≠ .closed ∧ l'.state k = .closed) ∨ (k ∈ l.commList ∧ k ∉ l'.commList)

theorem TornDown.of_close {l l' : Links} {proc : Pid} {fd : Int} {k : CommId}
    (closed : l.Close proc fd l') (torn : l.TornDown l' k) :
    ∃ is, l.opened proc fd = some is ∧ l.comm is = some k := by
  have erased : ∀ {m}, k ∈ l.commList ∧ k ∉ l.commList.erase m → k = m := by
    rintro m ⟨member, gone⟩
    by_contra other
    exact gone ((List.mem_erase_of_ne other).mpr member)
  cases closed with
  | noSocket | alone =>
      rcases torn with ⟨before, after⟩ | ⟨member, gone⟩
      · exact absurd after before
      · exact absurd member gone
  | listening here _ comm | second here _ comm =>
      rcases torn with ⟨before, after⟩ | gone
      · exact absurd after before
      · rw [erased gone]
        exact ⟨_, here, comm⟩
  | @first is m here _ comm =>
      rcases torn with ⟨before, after⟩ | ⟨member, gone⟩
      · refine ⟨is, here, ?_⟩
        by_cases same : k = m
        · rw [same, comm]
        · simp only [setOpened, setState, Function.update_apply, if_neg same] at after
          exact absurd after before
      · exact absurd member gone

/-- A communication goes down only when a descriptor of a socket that refers to it is closed. -/
theorem TornDown.of_step {H : Type} {label : Op × Event H} {l l' : Links} {k : CommId}
    (step : l.Step label l') (torn : l.TornDown l' k) :
    ∃ target is, label.1.closes = some target ∧ l.opened target.1 target.2 = some is ∧
      l.comm is = some k := by
  have grows : ∀ {all : List CommId}, ¬ (k ∈ l.commList ∧ k ∉ l.commList ++ all) :=
    fun gone => gone.2 (List.mem_append_left _ gone.1)
  have kept : ∀ {s : CommState}, s ≠ .closed →
      ¬ (l.state k ≠ .closed ∧ Function.update l.state l.nextComm s k = .closed) := by
    rintro s notClosed ⟨before, after⟩
    rw [Function.update_apply] at after
    split at after
    · exact notClosed after
    · exact before after
  cases step with
  | quiet | socket | join | dup =>
      rcases torn with ⟨before, after⟩ | ⟨member, gone⟩
      · exact absurd after before
      · exact absurd member gone
  | listen =>
      rcases torn with closed | gone
      · refine absurd ⟨closed.1, ?_⟩ (kept (s := .listening) (by decide))
        simpa [Links.listen, setState, Links.commNew] using closed.2
      · exact absurd gone grows
  | ask =>
      rcases torn with closed | gone
      · exact absurd closed (kept (s := .opened) (by decide))
      · exact absurd gone grows
  | close closed =>
      obtain ⟨is, here, comm⟩ := TornDown.of_close closed torn
      exact ⟨_, is, rfl, here, comm⟩
  | dup2 closed =>
      obtain ⟨is, here, comm⟩ := TornDown.of_close closed torn
      exact ⟨_, is, rfl, here, comm⟩

end Links

namespace World

variable {H : Type} {w w' : World H}

/-- Closing lowers references and never adds any. -/
theorem refNb_commDestroy_le (k : CommId) (j : SockId) : (w.commDestroy k).refNb j ≤ w.refNb j := by
  rw [refNb_commDestroy]
  omega

variable [DecidableEq H]

theorem refNb_releaseSocket_le (is j : SockId) : (w.releaseSocket is).refNb j ≤ w.refNb j := by
  rw [(w.releaseSocket_counts is j).1, refNb_deleteSocket, refNb_unsetSocket]
  split <;> split <;> omega

theorem refNb_commClose_le {is : SockId} (done : w.commClose is = .ok w') (j : SockId) :
    w'.refNb j ≤ w.refNb j := by
  rcases commClose_ok done with ⟨-, rfl⟩ | ⟨k, -, ⟨s, -, -, rfl⟩ | ⟨s, t, -, -, -, rfl⟩ |
      ⟨-, -, rfl⟩⟩
  · exact Int.le_refl _
  · exact Int.le_trans (refNb_commDestroy_le k j) (refNb_releaseSocket_le s j)
  · exact Int.le_trans (refNb_commDestroy_le k j)
      (Int.le_trans (refNb_releaseSocket_le t j) (refNb_releaseSocket_le s j))
  · exact Int.le_refl _

/-- The socket of a closed descriptor loses a reference. -/
theorem refNb_processCloseCall_lt {proc : Pid} {fd : Int} {is : SockId}
    (found : w.getInfosSocket proc fd = some is) (done : w.processCloseCall proc fd = .ok w') :
    w'.refNb is < w.refNb is := by
  rw [getInfosSocket_eq_some] at found
  have begun : (w.beginClose is).refNb is = w.refNb is - 1 := by
    simp [beginClose]
    omega
  have ended : ∀ v : World H, (v.endClose proc fd is).refNb is = v.refNb is := by
    intro v
    simp [endClose]
  rcases processCloseCall_ok done with ⟨absent, -⟩ | ⟨d, -, plain, -⟩ |
      ⟨is', w₁, found', rfl, closing⟩
  · simp [found] at absent
  · simp [found] at plain
  · obtain rfl : is = is' := by simpa [found] using found'
    rw [ended]
    have lower : w₁.refNb is ≤ (w.beginClose is).refNb is := by
      rcases closing with ⟨-, rfl⟩ | ⟨-, closed⟩
      · exact Int.le_refl _
      · exact refNb_commClose_le closed is
    omega

theorem Step.closed_lt {label : Op × Event H} {target : Pid × Int} {is : SockId}
    (step : w.Step label w') (closes : label.1.closes = some target)
    (found : w.getInfosSocket target.1 target.2 = some is) : w'.refNb is < w.refNb is := by
  obtain ⟨op, ev⟩ := label
  cases op with
  | close proc fd =>
      cases closes
      obtain ⟨w₁, done, rest⟩ := bind_eq_ok.mp step
      obtain ⟨rfl, -⟩ := Prod.mk.inj (pure_eq_ok.mp rest)
      exact refNb_processCloseCall_lt found done
  | dup2 proc oldfd newfd =>
      cases closes
      obtain ⟨w₁, done, rest⟩ := bind_eq_ok.mp step
      obtain ⟨rfl, -⟩ := Prod.mk.inj (pure_eq_ok.mp rest)
      obtain ⟨ref, w₂, pipes, -, closed, rfl⟩ := syscallDup2Post_ok done
      have lower : w₂.refNb is < w.refNb is := by
        rw [getInfosSocket_eq_some] at found
        have found' : (w.addRefcount ref 1).processDescriptorGetFd proc newfd = some (.socket is) := by
          cases ref <;> exact found
        simp only [closeTarget, found'] at closed
        have still : ((w.addRefcount ref 1).addRefcount (.socket is) (-1)).getInfosSocket proc newfd =
            some is := (getInfosSocket_eq_some _).mpr found'
        simpa using refNb_processCloseCall_lt still closed
      exact lower
  | socket | bind | listen | connect | accept | send | dup => cases closes

/-- The descriptor is the only open one of its socket. -/
def LastDescriptor (w : World H) (proc : Pid) (fd : Int) (is : SockId) : Prop :=
  w.getInfosSocket proc fd = some is ∧
    ∀ proc' fd', w.getInfosSocket proc' fd' = some is → proc' = proc ∧ fd' = fd

/-- A communication is marked closed or destroyed. -/
def TornDown (w w' : World H) (k : CommId) : Prop :=
  ((w.comm k).state ≠ .closed ∧ (w'.comm k).state = .closed) ∨ (k ∈ w.commList ∧ k ∉ w'.commList)

/-- Communications, sockets, lists and port tables are as they were; a socket may have
    another number of descriptors. -/
structure Untouched (w w' : World H) : Prop where
  comms : w'.comms = w.comms
  commList : w'.commList = w.commList
  allSockets : w'.allSockets = w.allSockets
  hosts : w'.hosts = w.hosts
  freed : w'.sockets.freed = w.sockets.freed
  sockets : ∀ is, ∃ n,
    w'.socket is = { w.socket is with fd := { (w.socket is).fd with refcount := n } }

/-- What is expected of a call: a communication goes down only with the last descriptor of one
    of its sockets, and closing another descriptor, or `dup2` of one onto itself, touches
    nothing. -/
structure LastCloseOnly (w : World H) (label : Op × Event H) (w' : World H) : Prop where
  tornDown : ∀ k, w.TornDown w' k → ∃ target is, label.1.closes = some target ∧
    w.LastDescriptor target.1 target.2 is ∧
    ((w.comm k).info0.socket = some is ∨ (w.comm k).info1.socket = some is)
  duplicate : ∀ target is, label.1.closes = some target →
    w.getInfosSocket target.1 target.2 = some is → ¬ w.LastDescriptor target.1 target.2 is →
    w.Untouched w'
  itself : ∀ proc fd, label.1 = .dup2 proc fd fd → w.Untouched w'

/-- A socket descriptor that the call closes is the last of its socket, and not at the same
    time the one that is duplicated. -/
def ClosesLast (w : World H) (op : Op) : Prop :=
  ∀ target is, op.closes = some target → w.getInfosSocket target.1 target.2 = some is →
    w.LastDescriptor target.1 target.2 is ∧ ∀ proc fd, op ≠ .dup2 proc fd fd

/-- `dup2` of a descriptor that is not a socket onto itself. -/
theorem untouched_of_dup2_plain {proc : Pid} {fd : Int} {ev : Event H}
    (plain : w.getInfosSocket proc fd = none) (step : w.Step (.dup2 proc fd fd, ev) w') :
    w.Untouched w' := by
  obtain ⟨w₁, done, rest⟩ := bind_eq_ok.mp step
  obtain ⟨rfl, -⟩ := Prod.mk.inj (pure_eq_ok.mp rest)
  obtain ⟨ref, w₂, pipes, found, closed, rfl⟩ := syscallDup2Post_ok done
  cases ref with
  | socket is => simp [(w.getInfosSocket_eq_some).mpr found] at plain
  | plain d =>
      have found' : (w.addRefcount (.plain d) 1).processDescriptorGetFd proc fd = some (.plain d) :=
        found
      simp only [closeTarget, found'] at closed
      rcases processCloseCall_ok closed with ⟨absent, -⟩ | ⟨d', pipes', -, rfl⟩ |
          ⟨is, w₃, other, -⟩
      · cases absent.symm.trans found
      · exact ⟨rfl, rfl, rfl, rfl, rfl, fun is => ⟨(w.socket is).fd.refcount, rfl⟩⟩
      · cases other.symm.trans found

variable {w₀ : World H} {es : List (Op × Event H)} {label : Op × Event H}

/-- In every reachable state, a call does what is expected if and only if each socket
    descriptor it closes is the last one. -/
theorem last_close_only_iff (initial : w₀.Initial) (run : Run Step w₀ es w) (step : w.Step label w') :
    w.LastCloseOnly label w' ↔ w.ClosesLast label.1 := by
  have sound := sound_of_run initial run
  have links := step.links sound
  constructor
  · rintro ⟨-, duplicate, itself⟩ target is closes found
    have lower := step.closed_lt closes found
    have touched : ¬ w.Untouched w' := by
      rintro ⟨-, -, -, -, -, sockets⟩
      obtain ⟨n, same⟩ := sockets is
      have kept : w'.refNb is = w.refNb is := by rw [refNb, same, refNb]
      omega
    constructor
    · by_contra shared
      exact touched (duplicate target is closes found shared)
    · exact fun proc fd self => touched (itself proc fd self)
  · intro last
    refine ⟨fun k torn => ?_, fun target is closes found shared => ?_, fun proc fd self => ?_⟩
    · obtain ⟨target, is, closes, here, comm⟩ := Links.TornDown.of_step links torn
      rw [← getInfosSocket_eq_opened] at here
      refine ⟨target, is, closes, (last target is closes here).1, ?_⟩
      rcases sound.slot comm with first | ⟨second, -⟩
      · exact .inl first
      · exact .inr second
    · exact absurd (last target is closes found).1 shared
    · obtain ⟨op, ev⟩ := label
      obtain rfl : op = .dup2 proc fd fd := self
      refine untouched_of_dup2_plain ?_ step
      cases found : w.getInfosSocket proc fd with
      | none => rfl
      | some is => exact absurd rfl ((last (proc, fd) is rfl found).2 proc fd)

/-- A client without duplicates closes its side of a connection. -/
theorem last_close_marks_closed : ∃ es w w', Run Step threeHosts es w ∧
    w.Step (.close 1 3, .silent) w' ∧ (w.comm 1).state = .opened ∧ (w'.comm 1).state = .closed ∧
    w.LastCloseOnly (.close 1 3, .silent) w' := by
  obtain ⟨es, w, run, before, ⟨w', ev⟩, done, rfl, after⟩ := exists_run PlainCall threeHosts
    [.socket 0 2 1 0 3, .bind 0 3 ⟨0, 80⟩, .listen 0 3, .socket 1 2 1 0 3, .connect 1 3 ⟨10, 80⟩,
      .accept 0 3 4]
    (P := fun w => (w.comm 1).state = .opened ∧ ∃ o ∈ (w.step (.close 1 3)).toOption,
      o.2 = .silent ∧ (o.1.comm 1).state = .closed) (by decide)
  have live := live_of_run (fun _ _ plain => plain.1) (boot_initial _ _ _) run
  have step := Step.of_result done
  have free := run.mono fun _ _ _ step => step.2
  refine ⟨es, w, w', free, step, before, after,
    (last_close_only_iff (boot_initial _ _ _) free step).mpr ?_⟩
  intro target is closes found
  cases closes
  refine ⟨⟨found, fun proc' fd' there => ?_⟩, by simp⟩
  rw [getInfosSocket_eq_opened] at found there
  exact live.single found there

/-- The same connection after `dup`: closing the duplicate closes the communication, while
    the other descriptor is still open. -/
theorem duplicate_close_marks_closed : ∃ es w w', Run Step threeHosts es w ∧
    w.Step (.close 1 5, .silent) w' ∧ w.getInfosSocket 1 3 = some 1 ∧ w'.getInfosSocket 1 3 = some 1 ∧
    (w.comm 1).state = .opened ∧ (w'.comm 1).state = .closed ∧
    ¬ w.LastCloseOnly (.close 1 5, .silent) w' := by
  obtain ⟨es, w, run, before, opened, twice, ⟨w', ev⟩, done, rfl, after, still⟩ :=
    exists_run (fun _ _ => True) threeHosts
      [.socket 0 2 1 0 3, .bind 0 3 ⟨0, 80⟩, .listen 0 3, .socket 1 2 1 0 3, .connect 1 3 ⟨10, 80⟩,
        .accept 0 3 4, .dup 1 3 5]
      (P := fun w => (w.comm 1).state = .opened ∧ w.getInfosSocket 1 3 = some 1 ∧
        w.getInfosSocket 1 5 = some 1 ∧ ∃ o ∈ (w.step (.close 1 5)).toOption,
          o.2 = .silent ∧ (o.1.comm 1).state = .closed ∧ o.1.getInfosSocket 1 3 = some 1) (by decide)
  have step := Step.of_result done
  refine ⟨es, w, w', run.mono fun _ _ _ step => step.2, step, opened, still, before, after, ?_⟩
  intro expected
  obtain ⟨target, is, closes, last, -⟩ := expected.tornDown 1 (.inl ⟨by simp [before], after⟩)
  cases closes
  obtain rfl : 1 = is := Option.some.inj (twice.symm.trans last.1)
  exact absurd (last.2 1 3 opened).2 (by decide)

end World

end Simterpose
