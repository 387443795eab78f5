import Simterpose.Clone
import Simterpose.Owners

/-! # Calls about other things than sockets

`open`, `creat`, `pipe`, `fcntl` and the part of `clone` for a child make plain records only.
All that they can do to the sockets is to take descriptors of them away: the kernel may give
a number that the tables still have for a socket, and the entry is written over.
-/

namespace Simterpose

open Lib

/-- The commands of `fcntl` that make a descriptor. -/
def FcntlCmd.duplicates : FcntlCmd → Bool
  | .dupfd | .dupfdCloexec => true
  | _ => false

namespace World

variable {H : Type} {w w' w'' : World H}

/-- Sockets, communications and ports are as they were, but for descriptors of sockets that
    are gone. A process that has such a descriptor left is on the host it was on. -/
structure Overwrites (w w' : World H) : Prop where
  links : w'.links = { w.links with opened := w'.links.opened }
  opened : ∀ {proc fd is}, w'.links.opened proc fd = some is → w.links.opened proc fd = some is
  ledger : w'.ledger = { w.ledger with home := w'.ledger.home }
  home : ∀ {proc fd is}, w'.links.opened proc fd = some is →
    w'.ledger.home proc = w.ledger.home proc
  owner : w'.owner = w.owner

namespace Overwrites

theorem of_views (links : w'.links = w.links) (ledger : w'.ledger = w.ledger)
    (owner : w'.owner = w.owner) : w.Overwrites w' where
  links := by rw [links]
  opened here := links ▸ here
  ledger := by rw [ledger]
  home _ := by rw [ledger]
  owner := owner

theorem refl (w : World H) : w.Overwrites w := of_views rfl rfl rfl

theorem trans (first : w.Overwrites w') (second : w'.Overwrites w'') : w.Overwrites w'' where
  links := by rw [second.links, first.links]
  opened here := first.opened (second.opened here)
  ledger := by rw [second.ledger, first.ledger]
  home here := (second.home here).trans (first.home (second.opened here))
  owner := second.owner.trans first.owner

theorem live (overwrites : w.Overwrites w') (live : w.links.Live) : w'.links.Live := by
  rw [overwrites.links]
  exact live.fewer overwrites.opened

end Overwrites

/-! ## New plain records -/

theorem overwrites_setFd (w : World H) (proc : Pid) (fd : Int) (d : DescId) :
    w.Overwrites (w.processDescriptorSetFd proc fd (some (.plain d))) := by
  have links := w.links_setFd proc fd (some (.plain d))
  have ledger := w.ledger_setFd proc fd (some (.plain d))
  refine ⟨?_, fun {proc' fd' is} here => ?_, ?_, fun _ => ?_, rfl⟩
  · rw [links]
    rfl
  · rw [links] at here
    simp only [Links.setOpened] at here
    split at here
    · cases here
    · exact here
  · rw [ledger]
  · rw [ledger]

theorem overwrites_enterDesc (w : World H) (proc : Pid) (fd : Int) (desc : FdDescriptor) :
    w.Overwrites (w.enterDesc proc fd desc) :=
  (w.overwrites_setFd proc fd w.descs.next).trans (.of_views rfl rfl rfl)

/-- `open` and `creat` -/
theorem overwrites_opened (w : World H) (proc : Pid) (ret : Int) (desc : FdDescriptor) :
    w.Overwrites (if ret ≥ 0 then w.enterDesc proc ret desc else w) := by
  split
  · exact w.overwrites_enterDesc proc ret desc
  · exact .refl w

theorem overwrites_syscallPipePost (w : World H) (proc : Pid) (filedes : Int × Int) (ret : Int) :
    w.Overwrites (w.syscallPipePost proc filedes ret) := by
  unfold syscallPipePost
  split
  · have piped : ∀ pipes : Heap Pipe, w.Overwrites { w with pipes := pipes } :=
      fun _ => .of_views rfl rfl rfl
    exact (piped _).trans ((overwrites_enterDesc ..).trans (overwrites_enterDesc ..))
  · exact .refl w

/-! ## `fcntl` -/

/-- What is stored into a record leaves its pipe and its process alone. -/
def KeepsOrigin (f : FdDescriptor → FdDescriptor) : Prop :=
  ∀ desc, (f desc).pipe = desc.pipe ∧ (f desc).proc = desc.proc

theorem keepsOrigin_setRange {f : FdDescriptor → FdDescriptor} (kept : KeepsOrigin f) (lock : Flock) :
    KeepsOrigin fun desc => (f desc).setRange lock := by
  intro desc
  simp only [FdDescriptor.setRange]
  split <;> exact kept desc

theorem keepsOrigin_setlkw (lock : Flock) : KeepsOrigin (·.setlkw lock) :=
  keepsOrigin_setRange (f := fun desc => { desc with lock := true, procLocker := lock.lPid, ltype := lock.lType })
    (fun _ => ⟨rfl, rfl⟩) lock

theorem fcntlStore_ok {proc : Pid} {fd : Int} {f : FdDescriptor → FdDescriptor}
    (done : w.fcntlStore proc fd f = .ok w') (kept : KeepsOrigin f) :
    w' = w ∨ ∃ ref f, KeepsOrigin f ∧ w' = w.modifyDesc ref f := by
  unfold fcntlStore at done
  split at done
  · cases done
  · rename_i ref _
    cases done
    exact .inr ⟨ref, f, kept, rfl⟩

theorem processFcntlCall_cases {proc : Pid} {fd ret : Int} {cmd : FcntlCmd}
    (done : w.processFcntlCall proc fd cmd ret = .ok w') :
    cmd.duplicates = true ∧ (∃ flags, w.fcntlDup proc fd ret flags = .ok w') ∨
      cmd.duplicates = false ∧ (w' = w ∨ ∃ ref f, KeepsOrigin f ∧ w' = w.modifyDesc ref f) := by
  unfold processFcntlCall at done
  split at done
  · cases done
  · cases cmd with
    | dupfd => exact .inl ⟨rfl, _, done⟩
    | dupfdCloexec => exact .inl ⟨rfl, _, done⟩
    | getfd | getfl | other =>
        cases done
        exact .inr ⟨rfl, .inl rfl⟩
    | setfd arg =>
        dsimp only at done
        split at done
        · exact .inr ⟨rfl, fcntlStore_ok done fun _ => ⟨rfl, rfl⟩⟩
        · cases done
    | setfl arg =>
        dsimp only at done
        split at done
        · exact .inr ⟨rfl, fcntlStore_ok done fun _ => ⟨rfl, rfl⟩⟩
        · cases done
          exact .inr ⟨rfl, .inl rfl⟩
    | getlk lock =>
        refine .inr ⟨rfl, fcntlStore_ok done fun desc => ?_⟩
        unfold FdDescriptor.getlk
        split
        · exact ⟨rfl, rfl⟩
        · exact keepsOrigin_setRange (f := fun desc => { desc with ltype := lock.lType, procLocker := lock.lPid })
            (fun _ => ⟨rfl, rfl⟩) lock desc
    | setlk lock =>
        dsimp only at done
        split at done
        · refine .inr ⟨rfl, fcntlStore_ok done fun desc => ?_⟩
          unfold FdDescriptor.setlk
          split
          · exact keepsOrigin_setlkw lock desc
          · exact ⟨rfl, rfl⟩
        · cases done
          exact .inr ⟨rfl, .inl rfl⟩
    | setlkw lock =>
        dsimp only at done
        split at done
        · exact .inr ⟨rfl, fcntlStore_ok done (keepsOrigin_setlkw lock)⟩
        · cases done
          exact .inr ⟨rfl, .inl rfl⟩
    | getown | setown => exact .inr ⟨rfl, fcntlStore_ok done fun _ => ⟨rfl, rfl⟩⟩

theorem overwrites_modifyDesc (w : World H) {f : FdDescriptor → FdDescriptor} (kept : KeepsOrigin f)
    (ref : DescRef) : w.Overwrites (w.modifyDesc ref f) := by
  cases ref with
  | plain => exact .of_views rfl rfl rfl
  | socket is =>
      refine .of_views ?_ ?_ ?_
      · rw [modifyDesc, links_modifySocket]
        simp [World.links, InetLike]
      · exact w.ledger_modifySocket (f := fun s => { s with fd := { f s.fd with type := s.fd.type } })
          (fun _ => rfl) (fun _ => rfl) is
      · exact w.owner_modifySocket (fun s => (kept s.fd).2) is

theorem overwrites_processFcntlCall {proc : Pid} {fd ret : Int} {cmd : FcntlCmd}
    (done : w.processFcntlCall proc fd cmd ret = .ok w') : w.Overwrites w' := by
  rcases processFcntlCall_cases done with ⟨-, flags, done⟩ | ⟨-, rfl | ⟨ref, f, kept, rfl⟩⟩
  · obtain ⟨ref, -, rfl⟩ := fcntlDup_ok done
    exact w.overwrites_enterDesc ..
  · exact .refl _
  · exact w.overwrites_modifyDesc kept ref

/-! ## `clone` -/

/-- The table of a new process starts out empty. -/
theorem overwrites_processDescriptorNew (w : World H) (host : H) (pid : Pid) (own : List Int) :
    w.Overwrites (w.processDescriptorNew host pid own) := by
  let start : World H := { w with procs := Function.update w.procs pid { host := host, fdMap := ∅ } }
  have opened : ∀ {proc fd is}, start.links.opened proc fd = some is →
      proc ≠ pid ∧ w.links.opened proc fd = some is := by
    intro proc fd is here
    by_cases same : proc = pid
    · subst same
      simp [start, World.links, processDescriptorGetFd] at here
    · exact ⟨same, by simpa [start, World.links, processDescriptorGetFd, same] using here⟩
  have first : w.Overwrites start := by
    refine ⟨rfl, fun here => (opened here).2, rfl, fun here => ?_, rfl⟩
    simp [start, World.ledger, (opened here).1]
  have rest : ∀ v : World H, w.Overwrites v → w.Overwrites
      (own.foldl (fun w fd => w.registerFileDescriptor pid fd (ownType fd)) v) := by
    induction own with
    | nil => exact fun _ before => before
    | cons fd own ih => exact fun v before => ih _ (before.trans (v.overwrites_enterDesc ..))
  exact rest start first

theorem overwrites_cloneDescs {clone : Pid} {entries : List (Sigma fun _ : Int => DescRef)}
    (done : cloneDescs clone entries w = .ok w') : w.Overwrites w' := by
  induction entries generalizing w with
  | nil =>
      cases done
      exact .refl _
  | cons entry entries ih =>
      obtain ⟨w₁, first, rest⟩ := bind_eq_ok.mp done
      obtain ⟨-, same, -⟩ := cloneDesc_ok first
      have entered : w.Overwrites w₁ := by
        rw [same]
        exact (w.overwrites_enterDesc clone entry.1 (clonedDesc clone (w.fileDesc entry.2))).trans
          (.of_views rfl rfl rfl)
      exact entered.trans (ih rest)

theorem overwrites_cloneProcess {parent clone : Pid} {own : List Int}
    (done : w.cloneProcess parent clone own = .ok w') : w.Overwrites w' :=
  (w.overwrites_processDescriptorNew ..).trans (overwrites_cloneDescs done)

end World

end Simterpose
