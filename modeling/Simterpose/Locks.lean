import Simterpose.Files
import Simterpose.Lib.Run
import Simterpose.Network

/-! # Record locks

The cases `F_SETLK` and `F_SETLKW` of `process_fcntl_call` record what a process has locked of
a file. They are copies of each other, but for the unlocking, which only the first one knows.
Both take `l_whence` for the number of bytes to add to `l_start`.
-/

namespace Simterpose

open Lib

/-- The part of a record that describes a lock. -/
def FdDescriptor.lockState (desc : FdDescriptor) : Bool × Int × Int × Int × Int :=
  (desc.lock, desc.ltype, desc.lockBegin, desc.lockEnd, desc.procLocker)

namespace Flock

/-- The kernel knows three types of locks. -/
def Typed (lock : Flock) : Prop :=
  lock.lType = fRdlck ∨ lock.lType = fWrlck ∨ lock.lType = fUnlck

instance (lock : Flock) : Decidable lock.Typed := inferInstanceAs (Decidable (_ ∨ _ ∨ _))

theorem Typed.locks_iff {lock : Flock} (typed : lock.Typed) :
    lock.lType = fRdlck ∨ lock.lType = fWrlck ↔ lock.lType ≠ fUnlck := by
  unfold Typed at typed
  unfold fRdlck fWrlck fUnlck at *
  omega

/-- `F_SETLKW` if the process is ready to wait for the lock, `F_SETLK` otherwise. -/
def request (lock : Flock) (waits : Bool) : FcntlCmd := if waits then .setlkw lock else .setlk lock

end Flock

theorem FdDescriptor.lock_setRange (desc : FdDescriptor) (lock : Flock) :
    (desc.setRange lock).lock = desc.lock := by
  simp only [setRange]
  split <;> rfl

theorem FdDescriptor.lock_setlkw (desc : FdDescriptor) (lock : Flock) :
    (desc.setlkw lock).lock = true := by
  rw [setlkw, lock_setRange]

theorem FdDescriptor.lock_setlk {desc : FdDescriptor} {lock : Flock} (typed : lock.Typed) :
    (desc.setlk lock).lock = true ↔ lock.lType ≠ fUnlck := by
  unfold setlk
  split
  · rename_i locks
    exact iff_of_true (desc.lock_setlkw lock) (typed.locks_iff.mp locks)
  · rename_i unlocks
    exact iff_of_false Bool.false_ne_true fun locks => unlocks (typed.locks_iff.mpr locks)

/-- The two commands record the same, except for an unlock. -/
theorem FdDescriptor.lockState_setlk_iff {desc : FdDescriptor} {lock : Flock} (typed : lock.Typed) :
    (desc.setlk lock).lockState = (desc.setlkw lock).lockState ↔ lock.lType ≠ fUnlck := by
  constructor
  · intro same
    have flags : (desc.setlk lock).lock = (desc.setlkw lock).lock := congrArg Prod.fst same
    rw [lock_setlkw] at flags
    exact (lock_setlk typed).mp flags
  · intro locks
    rw [setlk, if_pos (typed.locks_iff.mpr locks)]

namespace World

section

variable {H : Type} {w w' : World H} {proc : Pid} {fd : Int} {ref : DescRef}

theorem lockState_modifyDesc (ref : DescRef) (f : FdDescriptor → FdDescriptor) :
    ((w.modifyDesc ref f).fileDesc ref).lockState = (f (w.fileDesc ref)).lockState := by
  rw [fileDesc_modifyDesc, if_pos rfl]
  rfl

theorem processFcntlCall_request (found : w.processDescriptorGetFd proc fd = some ref) (lock : Flock)
    (waits : Bool) : w.processFcntlCall proc fd (lock.request waits) 0 =
      .ok (w.modifyDesc ref fun desc => if waits then desc.setlkw lock else desc.setlk lock) := by
  cases waits with
  | false =>
      have store := fcntlStore_of_found found (·.setlk lock)
      simpa [processFcntlCall, Flock.request] using store
  | true =>
      have store := fcntlStore_of_found found (·.setlkw lock)
      simpa [processFcntlCall, Flock.request] using store

/-- A lock or unlock request of a known type for which the kernel returned 0. -/
def LockStep (proc : Pid) (fd : Int) (w : World H) (request : Flock × Bool) (w' : World H) : Prop :=
  request.1.Typed ∧ w.processFcntlCall proc fd (request.1.request request.2) 0 = .ok w'

theorem exists_lockRun (found : w.processDescriptorGetFd proc fd = some ref)
    {requests : List (Flock × Bool)} (typed : ∀ request ∈ requests, request.1.Typed) :
    ∃ w', Run (LockStep proc fd) w requests w' ∧ w'.processDescriptorGetFd proc fd = some ref := by
  apply Run.exists_history (fun _ (v : World H) => v.processDescriptorGetFd proc fd = some ref) found
  intro _ v request member here
  have done := processFcntlCall_request here request.1 request.2
  refine ⟨_, ⟨typed request member, done⟩, ?_⟩
  rw [getFd_modifyDesc]
  exact here

/-- The two commands agree on a request unless it is an unlock, and after any requests the flag
    is right unless the last one is an unlock through `F_SETLKW`. -/
theorem setlk_setlkw_iff (w : World H) {proc : Pid} {fd : Int} {ref : DescRef}
    (found : w.processDescriptorGetFd proc fd = some ref) :
    (∀ lock : Flock, lock.Typed → ∃ w₁ w₂, w.processFcntlCall proc fd (.setlk lock) 0 = .ok w₁ ∧
      w.processFcntlCall proc fd (.setlkw lock) 0 = .ok w₂ ∧
        ((w₁.fileDesc ref).lockState = (w₂.fileDesc ref).lockState ↔ lock.lType ≠ fUnlck)) ∧
    ∀ (requests : List (Flock × Bool)) (lock : Flock) (waits : Bool),
      (∀ request ∈ requests ++ [(lock, waits)], request.1.Typed) →
      ∃ w', Run (LockStep proc fd) w (requests ++ [(lock, waits)]) w' ∧
        (((w'.fileDesc ref).lock = true ↔ lock.lType ≠ fUnlck) ↔
          ¬ (waits = true ∧ lock.lType = fUnlck)) := by
  constructor
  · intro lock typed
    refine ⟨_, _, processFcntlCall_request found lock false, processFcntlCall_request found lock true, ?_⟩
    rw [lockState_modifyDesc, lockState_modifyDesc]
    exact FdDescriptor.lockState_setlk_iff typed
  · intro requests lock waits typed
    obtain ⟨v, run, here⟩ := exists_lockRun found fun request member =>
      typed request (List.mem_append_left _ member)
    have last := typed (lock, waits) (List.mem_append_right _ (List.mem_singleton_self _))
    refine ⟨_, run.next ⟨last, processFcntlCall_request here lock waits⟩, ?_⟩
    rw [fileDesc_modifyDesc, if_pos rfl]
    cases waits with
    | false => simpa using FdDescriptor.lock_setlk last
    | true => simp [FdDescriptor.lock_setlkw]

end

/-- A file that process `0` has opened for reading and writing, as descriptor `3`. -/
def withFile : World (Fin 3) := threeHosts.syscallOpen 0 oRdwr 0 3

theorem read_lock_agrees : withFile.processDescriptorGetFd 0 3 = some (.plain 0) ∧
    ∃ w₁ w₂, withFile.processFcntlCall 0 3 (.setlk ⟨fRdlck, 0, 0, 15, 42⟩) 0 = .ok w₁ ∧
      withFile.processFcntlCall 0 3 (.setlkw ⟨fRdlck, 0, 0, 15, 42⟩) 0 = .ok w₂ ∧
        ((w₁.fileDesc (.plain 0)).lockState = (w₂.fileDesc (.plain 0)).lockState ↔ fRdlck ≠ fUnlck) :=
  have found : withFile.processDescriptorGetFd 0 3 = some (.plain 0) := by decide +kernel
  ⟨found, (setlk_setlkw_iff withFile found).1 ⟨fRdlck, 0, 0, 15, 42⟩ (by decide)⟩

/-- Giving a lock back with `F_SETLKW` leaves it recorded. -/
theorem unlock_through_setlkw : ∃ w₁ w₂ w₃,
    withFile.processFcntlCall 0 3 (.setlkw ⟨fWrlck, 0, 0, 15, 42⟩) 0 = .ok w₁ ∧
    w₁.processFcntlCall 0 3 (.setlk ⟨fUnlck, 0, 0, 15, 42⟩) 0 = .ok w₂ ∧
    w₁.processFcntlCall 0 3 (.setlkw ⟨fUnlck, 0, 0, 15, 42⟩) 0 = .ok w₃ ∧
    (w₂.fileDesc (.plain 0)).lock = false ∧ (w₃.fileDesc (.plain 0)).lock = true :=
  ⟨_, _, _, rfl, rfl, rfl, rfl, rfl⟩

end World

/-! ## Which bytes are locked -/

namespace Flock

/-- Where `l_start` is counted from, with the offset and the size of the file. -/
def base (lock : Flock) (offset size : Int) : Int :=
  if lock.lWhence = 1 then offset else if lock.lWhence = 2 then size else 0

/-- The bytes that a request is about. -/
def Covers (lock : Flock) (offset size x : Int) : Prop :=
  let first := lock.base offset size + lock.lStart
  0 < lock.lLen ∧ first ≤ x ∧ x ≤ first + lock.lLen - 1 ∨
    lock.lLen < 0 ∧ first + lock.lLen ≤ x ∧ x ≤ first - 1 ∨ lock.lLen = 0 ∧ first ≤ x

instance (lock : Flock) (offset size x : Int) : Decidable (lock.Covers offset size x) :=
  inferInstanceAs (Decidable (_ ∨ _ ∨ _))

/-- The kernel refuses a request that reaches before the start of the file or past the largest
    offset. The fields of the structure are numbers of 64 bits. -/
structure Accepted (lock : Flock) (offset size : Int) : Prop where
  typed : lock.lType = fRdlck ∨ lock.lType = fWrlck
  whence : lock.lWhence = 0 ∨ lock.lWhence = 1 ∨ lock.lWhence = 2
  start : -0x8000000000000000 ≤ lock.lStart ∧ lock.lStart < 0x8000000000000000
  len : -0x8000000000000000 ≤ lock.lLen ∧ lock.lLen < 0x8000000000000000
  place : 0 ≤ offset ∧ offset < 0x8000000000000000 ∧ 0 ≤ size ∧ size < 0x8000000000000000
  first : 0 ≤ lock.base offset size + lock.lStart ∧
    lock.base offset size + lock.lStart < 0x8000000000000000
  behind : 0 < lock.lLen → lock.base offset size + lock.lStart + lock.lLen ≤ 0x8000000000000000
  before : lock.lLen < 0 → 0 ≤ lock.base offset size + lock.lStart + lock.lLen

theorem Accepted.base_range {lock : Flock} {offset size : Int} (accepted : lock.Accepted offset size) :
    0 ≤ lock.base offset size ∧ lock.base offset size < 0x8000000000000000 := by
  have place := accepted.place
  unfold base
  split
  · omega
  · split <;> omega

end Flock

namespace FdDescriptor

/-- A byte within the recorded range. -/
def Records (desc : FdDescriptor) (x : Int) : Prop := desc.lockBegin ≤ x ∧ x ≤ desc.lockEnd

instance (desc : FdDescriptor) (x : Int) : Decidable (desc.Records x) :=
  inferInstanceAs (Decidable (_ ∧ _))

theorem records_setRange (desc : FdDescriptor) (lock : Flock) (x : Int) :
    (desc.setRange lock).Records x ↔
      if lock.lLen > 0 then toOff (lock.lStart + lock.lWhence) ≤ x ∧
        x ≤ toOff (toOff (lock.lStart + lock.lWhence) + lock.lLen - 1)
      else toOff (toOff (lock.lStart + lock.lWhence) + lock.lLen) ≤ x ∧
        x ≤ toOff (toOff (lock.lStart + lock.lWhence) - 1) := by
  unfold Records setRange
  split <;> exact Iff.rfl

/-- Two ranges with the same bytes end at the same one. They also start at the same one, unless
    both start at the start of the file or before it. -/
theorem range_unique {first last first' last' : Int} (nonneg : 0 ≤ first') (some_ : first' ≤ last')
    (same : ∀ x : Nat, first ≤ x ∧ x ≤ last ↔ first' ≤ x ∧ x ≤ last') :
    last = last' ∧ (first = first' ∨ first < 0 ∧ first' = 0) := by
  have atFirst := same first'.toNat
  have before := same (first' - 1).toNat
  have atLast := same last'.toNat
  have behind := same (last' + 1).toNat
  omega

theorem toOff_eq_self {n : Int} (low : -0x8000000000000000 ≤ n) (high : n < 0x8000000000000000) :
    toOff n = n := by
  unfold toOff
  omega

theorem records_positive {start len base whence : Int} (positive : 0 < len)
    (small : len < 0x8000000000000000) (seek : 0 ≤ whence ∧ whence ≤ 2)
    (place : 0 ≤ base ∧ base < 0x8000000000000000) (first : 0 ≤ base + start)
    (behind : base + start + len ≤ 0x8000000000000000) :
    (∀ x : Nat, toOff (start + whence) ≤ x ∧ x ≤ toOff (toOff (start + whence) + len - 1) ↔
        base + start ≤ x ∧ x ≤ base + start + len - 1) ↔ base = whence := by
  constructor
  · intro same
    obtain ⟨last, starts⟩ := range_unique first (by omega) same
    unfold toOff at last starts
    omega
  · rintro rfl x
    rw [toOff_eq_self (by omega) (by omega), toOff_eq_self (by omega) (by omega)]
    omega

theorem records_negative {start len base whence : Int} (negative : len < 0)
    (seek : 0 ≤ whence ∧ whence ≤ 2) (place : 0 ≤ base ∧ base < 0x8000000000000000)
    (high : base + start < 0x8000000000000000) (before : 0 ≤ base + start + len) :
    (∀ x : Nat, toOff (toOff (start + whence) + len) ≤ x ∧ x ≤ toOff (toOff (start + whence) - 1) ↔
        base + start + len ≤ x ∧ x ≤ base + start - 1) ↔ base = whence := by
  constructor
  · intro same
    obtain ⟨last, -⟩ := range_unique before (by omega) same
    unfold toOff at last
    omega
  · rintro rfl x
    rw [toOff_eq_self (n := start + base) (by omega) (by omega), toOff_eq_self (by omega) (by omega),
      toOff_eq_self (by omega) (by omega)]
    omega

theorem records_setRange_iff (desc : FdDescriptor) {lock : Flock} {offset size : Int}
    (accepted : lock.Accepted offset size) :
    (∀ x : Nat, (desc.setRange lock).Records x ↔ lock.Covers offset size x) ↔
      lock.lLen ≠ 0 ∧ lock.base offset size = lock.lWhence := by
  have place := accepted.base_range
  obtain ⟨-, seek, -, len, -, first, behind, before⟩ := accepted
  have whence : 0 ≤ lock.lWhence ∧ lock.lWhence ≤ 2 := by omega
  simp only [records_setRange, Flock.Covers]
  rcases Int.lt_trichotomy lock.lLen 0 with negative | zero | positive
  · simp only [negative, Int.not_lt.mpr (Int.le_of_lt negative), Int.ne_of_lt negative,
      if_false, false_and, true_and, false_or, or_false]
    rw [records_negative negative whence place first.2 (before negative)]
    exact ⟨fun same => ⟨Int.ne_of_lt negative, same⟩, And.right⟩
  · -- nothing is recorded past the largest offset
    refine iff_of_false (fun same => ?_) fun both => both.1 zero
    have past := same (lock.base offset size + lock.lStart + 0x8000000000000000).toNat
    simp only [zero, gt_iff_lt, Int.lt_irrefl, if_false, false_and, true_and, false_or] at past
    unfold toOff at past
    omega
  · simp only [positive, Int.not_lt.mpr (Int.le_of_lt positive), Int.ne_of_gt positive,
      if_true, false_and, true_and, or_false]
    rw [records_positive positive len.2 whence place first.1 (behind positive)]
    exact ⟨fun same => ⟨Int.ne_of_gt positive, same⟩, And.right⟩

/-- The three commands record a range in the same way. -/
theorem exists_setRange (desc : FdDescriptor) {lock : Flock}
    (typed : lock.lType = fRdlck ∨ lock.lType = fWrlck) :
    (∃ d : FdDescriptor, desc.getlk lock = d.setRange lock) ∧
      (∃ d : FdDescriptor, desc.setlk lock = d.setRange lock) ∧
      ∃ d : FdDescriptor, desc.setlkw lock = d.setRange lock := by
  have known : lock.Typed := typed.imp_right .inl
  have locks := known.locks_iff.mp typed
  refine ⟨?_, ?_, _, rfl⟩
  · rw [getlk, if_neg locks]
    exact ⟨_, rfl⟩
  · rw [setlk, if_pos typed]
    exact ⟨_, rfl⟩

end FdDescriptor

namespace World

theorem records_modifyDesc {H : Type} (w : World H) (ref : DescRef) (f : FdDescriptor → FdDescriptor)
    (x : Int) : ((w.modifyDesc ref f).fileDesc ref).Records x ↔ (f (w.fileDesc ref)).Records x := by
  rw [fileDesc_modifyDesc, if_pos rfl]
  exact Iff.rfl

/-- The recorded range is the locked one exactly if the length is not zero and the number of
    `l_whence` happens to be the place it stands for. -/
theorem recorded_range_iff {H : Type} (w : World H) {proc : Pid} {fd : Int} {ref : DescRef}
    (found : w.processDescriptorGetFd proc fd = some ref) {lock : Flock} {offset size : Int}
    (accepted : lock.Accepted offset size) {cmd : FcntlCmd}
    (locks : cmd = .getlk lock ∨ cmd = .setlk lock ∨ cmd = .setlkw lock) :
    ∃ w', w.processFcntlCall proc fd cmd 0 = .ok w' ∧
      ((∀ x : Nat, (w'.fileDesc ref).Records x ↔ lock.Covers offset size x) ↔
        lock.lLen ≠ 0 ∧ lock.base offset size = lock.lWhence) := by
  obtain ⟨⟨d₁, getlk⟩, ⟨d₂, setlk⟩, d₃, setlkw⟩ :=
    (w.fileDesc ref).exists_setRange accepted.typed
  rcases locks with rfl | rfl | rfl
  · refine ⟨_, fcntlStore_of_found found _, ?_⟩
    simp only [records_modifyDesc, getlk]
    exact d₁.records_setRange_iff accepted
  · refine ⟨_, processFcntlCall_request found lock false, ?_⟩
    simp only [records_modifyDesc, Bool.false_eq_true, if_false, setlk]
    exact d₂.records_setRange_iff accepted
  · refine ⟨_, processFcntlCall_request found lock true, ?_⟩
    simp only [records_modifyDesc, if_true, setlkw]
    exact d₃.records_setRange_iff accepted

/-- The lock of `fcntl_big.c`: the first 15 bytes of a file. -/
theorem first_bytes_recorded : ∃ w',
    withFile.processFcntlCall 0 3 (.setlk ⟨fRdlck, 0, 0, 15, 42⟩) 0 = .ok w' ∧
    ∀ x : Nat, (w'.fileDesc (.plain 0)).Records x ↔ Flock.Covers ⟨fRdlck, 0, 0, 15, 42⟩ 7 100 x := by
  have found : withFile.processDescriptorGetFd 0 3 = some (.plain 0) := by decide +kernel
  have accepted : Flock.Accepted ⟨fRdlck, 0, 0, 15, 42⟩ 7 100 :=
    { typed := by decide, whence := by decide, start := by decide, len := by decide
      place := by decide, first := by decide, behind := by decide, before := by decide }
  obtain ⟨w', done, right⟩ := recorded_range_iff withFile found accepted (.inr (.inl rfl))
  exact ⟨w', done, right.mpr (by decide)⟩

/-- A lock on the whole file is recorded as a lock on nothing. -/
theorem whole_file_unrecorded : ∃ w',
    withFile.processFcntlCall 0 3 (.setlk ⟨fWrlck, 0, 0, 0, 42⟩) 0 = .ok w' ∧
    Flock.Covers ⟨fWrlck, 0, 0, 0, 42⟩ 0 100 0 ∧ ¬ (w'.fileDesc (.plain 0)).Records 0 := by
  refine ⟨_, rfl, ?_, ?_⟩
  · decide
  · decide

end World

end Simterpose
