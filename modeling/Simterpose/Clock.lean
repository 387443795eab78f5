import Simterpose.Lib.Rounding
import Simterpose.Mediation

/-! # The simulated time

The library that is loaded into each application answers its questions for the time from a clock,
which is a `double` of seconds. `clock_gettime` goes by what `MSG_get_clock` returns; `ftime` and
`time` ask the tracer for its clock with `tuxcall`, and go by what they find behind the pointer
they gave it.

A `double` that is neither negative nor infinite is a number of units of 2^-1074, and its
arithmetic is that of natural numbers, rounded to 53 digits. `pow(10, 9)` is taken to be exact, and
the clocks to be such numbers.
-/

namespace Simterpose

open Lib

structure Double where
  bits : Nat
  finite : bits < 0x7ff0000000000000
  deriving DecidableEq

namespace Double

/-- The number, in units of 2^-1074. -/
def magnitude (x : Double) : Nat :=
  if x.bits / 2 ^ 52 = 0 then x.bits % 2 ^ 52
  else (2 ^ 52 + x.bits % 2 ^ 52) * 2 ^ (x.bits / 2 ^ 52 - 1)

/-- The digit of one. -/
def digits : Nat := 1074

def one : Nat := 2 ^ digits

def bytes (x : Double) : List UInt8 := toLittleEndian 8 x.bits

/-- The number in eight bytes of memory, if it is one of those meant here. -/
def ofBytes (bytes : List UInt8) : Option Double :=
  if finite : littleEndian bytes < 0x7ff0000000000000 then some ⟨littleEndian bytes, finite⟩ else none

/-- `floor` -/
def floor (x : Double) : Nat := x.magnitude / one

/-- `x - floor(x)` -/
def fraction (x : Double) : Nat := roundTo 53 (x.magnitude - x.floor * one)

/-- `(x - floor(x)) * scale`, as an integer. -/
def part (scale : Nat) (x : Double) : Nat := roundTo 53 (x.fraction * scale) / one

/-- How many of the parts of a second have passed. -/
def ticks (scale : Nat) (x : Double) : Nat := x.magnitude * scale / one

/-- A number of parts that is less than one below what has passed, and at most one above. -/
def Near (scale : Nat) (x : Double) (n : Nat) : Prop :=
  x.magnitude * scale < (n + 1) * one ∧ n * one ≤ x.magnitude * scale + one

end Double

/-- How a function of the library may end the application. -/
inductive Stopped where
  /-- `ABORT` -/
  | abort (message : String)
  /-- a conversion to an integer that is too large, of which C says nothing -/
  | undefined
  /-- a number that is negative, infinite or none, with which the library is not followed -/
  | noClock
  deriving Repr, DecidableEq

/-- `struct timespec` -/
structure Timespec where
  tvSec : Nat
  tvNsec : Nat
  deriving Repr, DecidableEq

/-- `struct timeb` -/
structure Timeb where
  time : Nat
  millitm : Nat
  timezone : Int
  dstflag : Int
  deriving Repr, DecidableEq

def Timespec.nanos (tp : Timespec) : Nat := tp.tvSec * 1000000000 + tp.tvNsec

def Timeb.millis (tp : Timeb) : Nat := tp.time * 1000 + tp.millitm

/-- The conversion to `time_t`. -/
def timeT (sec : Double) : Except Stopped Nat :=
  if sec.floor < 2 ^ 63 then .ok sec.floor else .error .undefined

def clockRealtime : Int := 0

def clockMonotonic : Int := 1

def clockProcessCputimeId : Int := 2

def clockThreadCputimeId : Int := 3

/-- `clock_gettime`; `sec` is what `MSG_get_clock` returns. -/
def clockGettime (clkId : Int) (sec : Double) : Except Stopped (Int × Timespec) := do
  if clkId = clockRealtime then
    let tvSec ← timeT sec
    return (0, ⟨tvSec, sec.part 1000000000⟩)
  else if clkId = clockMonotonic ∨ clkId = clockProcessCputimeId ∨ clkId = clockThreadCputimeId then
    .error (.abort "clock_gettime: Unhandled clock.")
  else .error (.abort "clock_gettime: This clock does not exist.")

/-- What a call finds when the clock is `sec`, in an application whose pointers are good. -/
def Found.at {H : Type} (f : Found H) (sec : Double) : Found H :=
  { f with mapped := fun _ => true, clock := sec.bytes, clockSize := length_toLittleEndian .. }

namespace Guest

variable {K : Type} (kernel : Kernel K) (g : Guest K) (sec : Double)

/-- The application when its `tuxcall` returns; the clock of the tracer is `sec`. -/
def told : Guest K :=
  { g.execute kernel with mem := (g.execute kernel).mem.write g.regs.rsi.toNat sec.bytes }

/-- What `get_simulation_time` finds behind the pointer it gave as the first argument. -/
def getSimulationTime : Option Double := Double.ofBytes ((g.told kernel sec).mem.read g.regs.rdi.toNat 8)

/-- `ftime`, from its `tuxcall` on. -/
def ftime : Except Stopped (Int × Timeb) :=
  match g.getSimulationTime kernel sec with
  | none => .error .noClock
  | some found => do
      let time ← timeT found
      return (0, ⟨time, found.part 1000, 0, 0⟩)

/-- `time`, from its `tuxcall` on. The pointer is overwritten in place of what it points to, so that
    `t` remains. -/
def time (t : Option Int) : Except Stopped (Nat × Option Int) :=
  match g.getSimulationTime kernel sec with
  | none => .error .noClock
  | some found => do
      let time ← timeT found
      return (time, t)

end Guest

/-! ## What is reported -/

namespace Double

variable {x y : Double} {scale : Nat}

theorem one_pos : 0 < one := Nat.two_pow_pos digits

theorem hasDigits (x : Double) : HasDigits 53 x.magnitude := by
  have low : x.bits % 2 ^ 52 < 2 ^ 52 := Nat.mod_lt _ (Nat.two_pow_pos 52)
  unfold magnitude
  split
  · exact ⟨x.bits % 2 ^ 52, 0, by omega, (Nat.mul_one _).symm⟩
  · exact HasDigits.mul_two_pow (by omega)

/-- The difference is exact. -/
theorem fraction_eq (x : Double) : x.fraction = x.magnitude % one := by
  have rest : x.magnitude - x.floor * one = x.magnitude % one := by
    rw [floor, Nat.mul_comm, Nat.mod_eq_sub_mul_div]
  rw [fraction, rest]
  exact x.hasDigits.mod.roundTo_eq

theorem fraction_lt (x : Double) : x.fraction < one := by
  rw [fraction_eq]
  exact Nat.mod_lt _ one_pos

/-- What the largest fraction lacks to one. -/
def lastDigit : Nat := 2 ^ (digits - 53)

theorem fraction_le (x : Double) : x.fraction ≤ one - lastDigit := by
  have few : HasDigits 53 x.fraction := by
    rw [fraction_eq]
    exact x.hasDigits.mod
  apply Nat.le_sub_of_add_le
  exact few.add_le (by decide) (by decide) x.fraction_lt

/-- A product with the largest fraction is not rounded up to the whole. -/
def Divides (scale : Nat) : Prop := roundTo 53 ((one - lastDigit) * scale) < one * scale

theorem part_lt (divides : Divides scale) (x : Double) : x.part scale < scale := by
  apply Nat.div_lt_of_lt_mul
  calc roundTo 53 (x.fraction * scale) ≤ roundTo 53 ((one - lastDigit) * scale) :=
        roundTo_mono (by decide) (Nat.mul_le_mul_right scale x.fraction_le)
    _ < one * scale := divides

theorem ticks_eq (scale : Nat) (x : Double) :
    x.ticks scale = x.floor * scale + x.fraction * scale / one := by
  have whole : x.magnitude * scale = x.fraction * scale + x.floor * scale * one := by
    rw [fraction_eq, floor, Nat.mul_right_comm, ← Nat.add_mul, Nat.mul_comm _ one, Nat.mod_add_div]
  rw [ticks, whole, Nat.add_mul_div_right _ _ one_pos, Nat.add_comm]

theorem ticks_le (scale : Nat) (small : scale < 2 ^ 53) (x : Double) :
    x.ticks scale ≤ x.floor * scale + x.part scale ∧
      x.floor * scale + x.part scale ≤ x.ticks scale + 1 := by
  rcases Nat.eq_zero_or_pos scale with rfl | positive
  · simp [ticks, part, roundTo_of_lt]
  · have few : x.fraction * scale / one < scale :=
      Nat.div_lt_of_lt_mul (Nat.mul_lt_mul_of_pos_right x.fraction_lt positive)
    have moved := div_roundTo (p := 53) (n := x.fraction * scale) (k := digits) (by decide)
      (Nat.lt_of_le_of_lt few small)
    have moved' : x.fraction * scale / one ≤ x.part scale ∧
        x.part scale ≤ x.fraction * scale / one + 1 := moved
    rw [ticks_eq]
    omega

/-- A later clock is not reported as an earlier one. -/
theorem report_mono (divides : Divides scale) (le : x.magnitude ≤ y.magnitude) :
    x.floor * scale + x.part scale ≤ y.floor * scale + y.part scale := by
  have seconds : x.floor ≤ y.floor := Nat.div_le_div_right le
  rcases Nat.lt_or_ge x.floor y.floor with less | equal
  · have next : (x.floor + 1) * scale ≤ y.floor * scale := Nat.mul_le_mul_right scale less
    have below := part_lt divides x
    rw [Nat.add_mul, Nat.one_mul] at next
    omega
  · -- within one second the fractions are in order
    have same : x.floor = y.floor := Nat.le_antisymm seconds equal
    have fractions : x.fraction ≤ y.fraction := by
      have first := Nat.div_add_mod x.magnitude one
      have second := Nat.div_add_mod y.magnitude one
      rw [fraction_eq, fraction_eq]
      unfold floor at same
      rw [same] at first
      omega
    rw [same]
    apply Nat.add_le_add_left
    apply Nat.div_le_div_right
    exact roundTo_mono (by decide) (Nat.mul_le_mul_right scale fractions)

/-- What is reported is less than one part early, and at most one part late. -/
theorem near_report (scale : Nat) (small : scale < 2 ^ 53) (x : Double) :
    x.Near scale (x.floor * scale + x.part scale) := by
  obtain ⟨early, late⟩ := ticks_le scale small x
  have passed := Nat.div_add_mod (x.magnitude * scale) one
  have rest := Nat.mod_lt (x.magnitude * scale) one_pos
  unfold ticks at early late
  constructor
  · calc x.magnitude * scale < (x.magnitude * scale / one + 1) * one := by
          rw [Nat.add_mul, Nat.one_mul, Nat.mul_comm _ one]
          omega
      _ ≤ (x.floor * scale + x.part scale + 1) * one := Nat.mul_le_mul_right one (by omega)
  · calc (x.floor * scale + x.part scale) * one ≤ (x.magnitude * scale / one + 1) * one :=
          Nat.mul_le_mul_right one late
      _ ≤ x.magnitude * scale + one := by
          rw [Nat.add_mul, Nat.one_mul, Nat.mul_comm _ one]
          omega

theorem divides_milli : Divides 1000 := by
  unfold Divides
  decide +kernel

theorem divides_nano : Divides 1000000000 := by
  unfold Divides
  decide +kernel

theorem timeT_eq (small : x.floor < 2 ^ 63) : timeT x = .ok x.floor := if_pos small

end Double

theorem clockGettime_eq {sec : Double} (small : sec.floor < 2 ^ 63) :
    clockGettime clockRealtime sec = .ok (0, ⟨sec.floor, sec.part 1000000000⟩) := by
  simp only [clockGettime, if_true, Double.timeT_eq small]
  rfl

theorem nanos_clockGettime {sec : Double} {r : Int × Timespec}
    (answered : clockGettime clockRealtime sec = .ok r) :
    r.2.nanos = sec.floor * 1000000000 + sec.part 1000000000 := by
  simp only [clockGettime, timeT, if_true] at answered
  split at answered
  · cases answered
    rfl
  · cases answered

namespace Guest

variable {K : Type} {kernel : Kernel K} {g : Guest K} {sec found : Double}

theorem ftime_eq (reads : g.getSimulationTime kernel sec = some found) (small : found.floor < 2 ^ 63) :
    g.ftime kernel sec = .ok (0, ⟨found.floor, found.part 1000, 0, 0⟩) := by
  simp only [ftime, reads, Double.timeT_eq small]
  rfl

theorem time_eq (reads : g.getSimulationTime kernel sec = some found) (small : found.floor < 2 ^ 63)
    (t : Option Int) : g.time kernel sec t = .ok (found.floor, t) := by
  simp only [time, reads, Double.timeT_eq small]
  rfl

theorem millis_ftime (reads : g.getSimulationTime kernel sec = some found) {r : Int × Timeb}
    (answered : g.ftime kernel sec = .ok r) : r.2.millis = found.floor * 1000 + found.part 1000 := by
  simp only [ftime, reads, timeT] at answered
  split at answered
  · cases answered
    rfl
  · cases answered

end Guest

/-- Whatever number of seconds a function of the library reads, it reports a proper time: less than a
    second in the parts, less than one part early and at most one part late, as the product with the
    number of parts is rounded before it is cut off. `clock_gettime` reads what `MSG_get_clock`
    returns, `ftime` and `time` read what `tuxcall` left behind their pointer. -/
theorem reported_time_proper {sec : Double} (small : sec.floor < 2 ^ 63) :
    ∃ tp, clockGettime clockRealtime sec = .ok (0, tp) ∧ tp.tvNsec < 1000000000 ∧
      sec.Near 1000000000 tp.nanos ∧
      ∀ {K : Type} (kernel : Kernel K) (g : Guest K) (clock : Double),
        g.getSimulationTime kernel clock = some sec →
        ∃ tb, g.ftime kernel clock = .ok (0, tb) ∧ tb.time = tp.tvSec ∧ tb.millitm < 1000 ∧
          sec.Near 1000 tb.millis ∧ ∀ t, g.time kernel clock t = .ok (tp.tvSec, t) := by
  refine ⟨_, clockGettime_eq small, Double.part_lt Double.divides_nano sec,
    Double.near_report 1000000000 (by decide) sec, ?_⟩
  intro K kernel g clock reads
  exact ⟨_, Guest.ftime_eq reads small, rfl, Double.part_lt Double.divides_milli sec,
    Double.near_report 1000 (by decide) sec, Guest.time_eq reads small⟩

/-- The `double` next to 0.3, which is below it. -/
def threeTenths : Double := ⟨0x3fd3333333333333, by decide⟩

theorem three_tenths_reported_late :
    (∃ tp, clockGettime clockRealtime threeTenths = .ok (0, tp) ∧ tp.tvNsec < 1000000000 ∧
      threeTenths.Near 1000000000 tp.nanos) ∧
      threeTenths.ticks 1000000000 = 299999999 ∧ threeTenths.part 1000000000 = 300000000 := by
  have small : threeTenths.floor < 2 ^ 63 := by decide +kernel
  obtain ⟨tp, answered, proper, near, -⟩ := reported_time_proper small
  exact ⟨⟨tp, answered, proper, near⟩, by decide +kernel, by decide +kernel⟩

/-! ## Where the library finds the clock -/

namespace Double

theorem littleEndian_bytes (x : Double) : littleEndian x.bytes = x.bits := by
  have finite := x.finite
  rw [bytes, littleEndian_toLittleEndian, Nat.mod_eq_of_lt (by omega)]

theorem ofBytes_eq_some {bytes : List UInt8} (eight : bytes.length = 8) {x : Double} :
    ofBytes bytes = some x ↔ bytes = x.bytes := by
  constructor
  · intro found
    unfold ofBytes at found
    split at found
    · cases found
      rw [Double.bytes, ← eight, toLittleEndian_littleEndian]
    · cases found
  · intro same
    have finite := x.finite
    simp only [ofBytes, same, littleEndian_bytes, finite, dif_pos]

end Double

theorem UserRegs.origRax_of_tuxcall {regs : UserRegs} (known : regs.call = some .tuxcall) :
    regs.origRax = sysTuxcall := by
  unfold UserRegs.call at known
  split at known
  · cases known
  · repeat' split at known
    all_goals first | assumption | cases known

namespace Guest

variable {K : Type} {kernel : Kernel K} {g : Guest K} (sec : Double)

theorem mem_told :
    (g.told kernel sec).mem = (g.execute kernel).mem.write g.regs.rsi.toNat sec.bytes := rfl

theorem getSimulationTime_of_eq (same : g.regs.rsi = g.regs.rdi) : g.getSimulationTime kernel sec = some sec := by
  have eight : sec.bytes.length = 8 := length_toLittleEndian ..
  rw [getSimulationTime, Double.ofBytes_eq_some (Memory.length_read ..), mem_told, same,
    Memory.read_write _ _ _ (Nat.le_of_eq eight.symm), ← eight, List.take_length]

/-- Next to the clock nothing is changed, so that the clock is not found there. -/
theorem getSimulationTime_of_outside {i : Nat} (inside : i < 8)
    (outside : g.regs.rdi.toNat + i < g.regs.rsi.toNat ∨ g.regs.rsi.toNat + 8 ≤ g.regs.rdi.toNat + i)
    (found : g.getSimulationTime kernel sec = some sec) :
    sec.bytes[i]? = some ((g.execute kernel).mem (g.regs.rdi.toNat + i)) := by
  rw [getSimulationTime, Double.ofBytes_eq_some (Memory.length_read ..)] at found
  rw [← found, Memory.getElem?_read, if_pos inside, mem_told, Memory.write_outside]
  rwa [Double.bytes, length_toLittleEndian]

end Guest

/-- While a clock does not go back, neither does the time that an application is told, however often
    it asks: by `clock_gettime` in any case, and by `ftime` as long as the register of the second
    argument, which the library does not set, is that of the first whenever it asks. -/
theorem reported_time_forward {K : Type} (kernel : Kernel K) {clocks : List Double}
    (forward : clocks.Pairwise fun x y => x.magnitude ≤ y.magnitude) :
    (∀ tps, clocks.mapM (clockGettime clockRealtime) = .ok tps →
      (tps.map (·.2.nanos)).Pairwise (· ≤ ·)) ∧
    ∀ (asked : List (Guest K × Double)) (tbs : List (Int × Timeb)), asked.map Prod.snd = clocks →
      (∀ a ∈ asked, a.1.regs.rsi = a.1.regs.rdi) →
      asked.mapM (fun a => a.1.ftime kernel a.2) = .ok tbs → (tbs.map (·.2.millis)).Pairwise (· ≤ ·) := by
  constructor
  · intro tps answered
    rw [map_of_mapM (fun _ _ _ => nanos_clockGettime) answered, List.pairwise_map]
    exact forward.imp (Double.report_mono Double.divides_nano)
  · rintro asked tbs rfl found answered
    rw [List.pairwise_map] at forward
    have reports : ∀ a ∈ asked, ∀ r, a.1.ftime kernel a.2 = .ok r →
        r.2.millis = a.2.floor * 1000 + a.2.part 1000 := by
      intro a here r told
      exact Guest.millis_ftime (Guest.getSimulationTime_of_eq a.2 (found a here)) told
    rw [map_of_mapM reports answered, List.pairwise_map]
    exact forward.imp (Double.report_mono Double.divides_milli)

/-- An application whose two registers are the same by chance. -/
def luckyTime : Guest (List KernelFile) where
  regs := { Ptraced.accepting.regs with origRax := sysTuxcall, rdi := 64, rsi := 64 }
  mem := fun _ => 0
  kernel := []
  executed := []

theorem two_asked_forward :
    [300000000, 300000000].Pairwise (fun n m : Nat => n ≤ m) ∧
      [300, 300].Pairwise (fun n m : Nat => n ≤ m) := by
  have forward : [threeTenths, threeTenths].Pairwise fun x y => x.magnitude ≤ y.magnitude := by simp
  have small : threeTenths.floor < 2 ^ 63 := by decide +kernel
  have told : luckyTime.ftime tableKernel.execute threeTenths = .ok (0, ⟨0, 300, 0, 0⟩) := by
    rw [Guest.ftime_eq (Guest.getSimulationTime_of_eq threeTenths rfl) small]
    decide +kernel
  obtain ⟨nanos, millis⟩ := reported_time_forward tableKernel.execute forward
  refine ⟨nanos [(0, ⟨0, 300000000⟩), (0, ⟨0, 300000000⟩)] (by decide +kernel),
    millis [(luckyTime, threeTenths), (luckyTime, threeTenths)] [(0, ⟨0, 300, 0, 0⟩), (0, ⟨0, 300, 0, 0⟩)]
      rfl (by simp [luckyTime]) ?_⟩
  simp only [List.mapM_cons, List.mapM_nil, told]
  rfl

/-- The clock zero, and one with other bytes at both ends. -/
def zeroClock : Double := ⟨0, by decide⟩

def otherClock : Double := ⟨0x3f00000000000001, by decide⟩

section

variable {K H : Type} [DecidableEq H]

/-- The tracer stores the clock where the second argument points to, and the library reads it where
    the first one does. It finds the clock, whatever it is, just if the register of the second
    argument, which it does not set, happens to be that of the first; if the second points to
    somewhere else entirely, then what it finds does not depend on the clock. -/
theorem simulation_time_found_iff (user : UserCode) (kernel : SocketKernel K) (proc : Pid)
    (f₁ f₂ : Found H) (g : Guest K) (asks : g.regs.call = some .tuxcall) :
    (∀ sec, g.interposed.serve user kernel.execute proc f₁ (f₂.at sec) =
      .ok ([f₁.world, f₂.world], ((g.told kernel.execute sec).enter user).interposed)) ∧
    ((∀ sec, g.getSimulationTime kernel.execute sec = some sec) ↔ g.regs.rsi = g.regs.rdi) ∧
    (g.regs.rsi.toNat + 8 ≤ g.regs.rdi.toNat ∨ g.regs.rdi.toNat + 8 ≤ g.regs.rsi.toNat →
      ∀ sec, g.getSimulationTime kernel.execute sec =
        Double.ofBytes (g.mem.read g.regs.rdi.toNat 8)) := by
  have idle : (g.execute kernel.execute).mem = g.mem := by
    have number := UserRegs.origRax_of_tuxcall asks
    simp only [Guest.execute, number]
    exact (kernel.tuxcall ..).2
  refine ⟨?_, ⟨?_, ?_⟩, ?_⟩
  · intro sec
    have stored : (f₂.at sec).leave proc (g.execute kernel.execute).regs
        (g.execute kernel.execute).mem .tuxcall = .ok (f₂.world, (g.told kernel.execute sec).mem) := by
      have mapped : ∀ mem a n, ((f₂.at sec).view mem).Mapped a n := fun _ _ _ _ _ => Option.some_ne_none _
      have poked : ∀ mem dst, (f₂.at sec).store mem dst (f₂.at sec).clock 8 = .ok (mem.write dst sec.bytes) :=
        fun mem dst => Found.store_of_mapped (mapped mem dst _) rfl (f₂.at sec).clockSize
      simp only [Found.leave, poked]
      rfl
    rw [Interposed.serve_kernel asks rfl rfl, Guest.left]
    simp only [stored]
    rfl
  · intro found
    by_contra other
    have apart : g.regs.rsi.toNat ≠ g.regs.rdi.toNat := fun same => other (UInt64.toNat_inj.mp same)
    -- the first or the last byte is not part of what was stored
    rcases Nat.lt_or_gt_of_ne apart with below | above
    · have first := Guest.getSimulationTime_of_outside (i := 7) _ (by decide) (.inr (by omega)) (found zeroClock)
      have second := Guest.getSimulationTime_of_outside (i := 7) _ (by decide) (.inr (by omega)) (found otherClock)
      exact absurd (first.trans second.symm) (by decide)
    · have first := Guest.getSimulationTime_of_outside (i := 0) _ (by decide) (.inl (by omega)) (found zeroClock)
      have second := Guest.getSimulationTime_of_outside (i := 0) _ (by decide) (.inl (by omega)) (found otherClock)
      exact absurd (first.trans second.symm) (by decide)
  · intro same sec
    exact Guest.getSimulationTime_of_eq sec same
  · intro apart sec
    rw [Guest.getSimulationTime, Guest.mem_told, Memory.read_write_of_disjoint, idle]
    rw [Double.bytes, length_toLittleEndian]
    exact apart.symm

/-- Two pointers to different places: the clock is stored for nobody. -/
def askingTime : Guest (List KernelFile) where
  regs := { Ptraced.accepting.regs with origRax := sysTuxcall, rdi := 64, rsi := 128 }
  mem := fun _ => 0
  kernel := []
  executed := []

end

theorem time_not_found :
    ¬ (∀ sec, askingTime.getSimulationTime tableKernel.execute sec = some sec) ∧
      ∀ sec, askingTime.getSimulationTime tableKernel.execute sec = some zeroClock := by
  obtain ⟨-, right, apart⟩ := simulation_time_found_iff Interposed.askingOption tableKernel 0
    Interposed.onePage Interposed.onePage askingTime (by decide)
  exact ⟨fun always => absurd (right.mp always) (by decide), fun sec => (apart (by decide) sec).trans (by decide)⟩

end Simterpose
