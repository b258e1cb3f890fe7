/-
The conversions between `Timespec` and `Duration` of `rw_ulib_types/src/time.rs`
and `sys_nanosleep`, which uses both.  The range check of the conversion is the
wrong way round: it refuses the valid times.
-/
import Mathlib

namespace Redwing.Time

def nanosPerSec : Nat := 1000000000

def maxTvNsec : Int := 1000000000

structure Timespec where
  tvSec : Int64
  tvNsec : Int64
deriving DecidableEq

/-- `core::time::Duration`. -/
structure Duration where
  secs : Nat
  nanos : Nat
  secs_lt : secs < 2 ^ 64
  nanos_lt : nanos < nanosPerSec
deriving DecidableEq

namespace Duration

def zero : Duration := ⟨0, 0, by decide, by decide⟩

/-- `Duration::new`, which carries into the seconds and panics at their overflow. -/
def new (secs nanos : Nat) : Option Duration :=
  if h : secs + nanos / nanosPerSec < 2 ^ 64 then
    some ⟨_, nanos % nanosPerSec, h, Nat.mod_lt _ (by decide)⟩
  else none

/-- The time in nanoseconds. -/
def total (d : Duration) : Nat := d.secs * nanosPerSec + d.nanos

def saturatingSub (d e : Duration) : Duration where
  secs := (d.total - e.total) / nanosPerSec
  nanos := (d.total - e.total) % nanosPerSec
  secs_lt := by
    have := d.secs_lt
    have := d.nanos_lt
    simp only [total, nanosPerSec] at *
    omega
  nanos_lt := Nat.mod_lt _ (by decide)

end Duration

namespace Timespec

/-- What the comment on the field `tv_nsec` asks for. -/
def Valid (ts : Timespec) : Prop := 0 ≤ ts.tvNsec.toInt ∧ ts.tvNsec.toInt < maxTvNsec
deriving Decidable

/-- `Timespec::from`. -/
def ofDuration (dur : Duration) : Timespec := ⟨.ofNat dur.secs, .ofNat dur.nanos⟩

lemma ofDuration_valid (dur : Duration) : (ofDuration dur).Valid := by
  have hlt := dur.nanos_lt
  rw [nanosPerSec] at hlt
  have hnsec : (Int64.ofNat dur.nanos).toInt = dur.nanos := Int64.toInt_ofNat_of_lt (by omega)
  simp only [Valid, ofDuration, hnsec, maxTvNsec]
  omega

end Timespec

namespace Duration

/-- `Duration::try_from`; `none` is the panic of `Duration::new`. -/
def tryFrom (ts : Timespec) : Option (Except Unit Duration) :=
  if 0 ≤ ts.tvNsec.toInt ∧ ts.tvNsec.toInt < maxTvNsec then some (.error ())
  else
    let secs := (max ts.tvSec.toInt 0).toNat
    let nanos := (max ts.tvNsec.toInt 0).toNat % 2 ^ 32
    (new secs nanos).map .ok

lemma tryFrom_of_valid {ts : Timespec} (h : ts.Valid) : tryFrom ts = some (.error ()) :=
  if_pos h

/-- An invalid time is taken: a negative number of nanoseconds as none, a large
one with its low 32 bits. -/
lemma tryFrom_of_not_valid {ts : Timespec} (h : ¬ ts.Valid) : ∃ dur, tryFrom ts = some (.ok dur) ∧
    dur.total = ts.tvSec.toInt.toNat * nanosPerSec + ts.tvNsec.toInt.toNat % 2 ^ 32 := by
  have hsec := ts.tvSec.toInt_lt
  have hmax : ∀ x : Int, (max x 0).toNat = x.toNat := by omega
  rw [tryFrom, if_neg (by exact h)]
  simp only [hmax, new]
  rw [dif_pos (by rw [nanosPerSec]; omega)]
  refine ⟨_, rfl, ?_⟩
  rw [total, Nat.add_mul, Nat.add_assoc, Nat.div_add_mod']

end Duration

inductive SysErrorKind
  | invalidArgument
  | interrupted
deriving DecidableEq

/-- How a sleep goes: a signal is there before it, it ends in time, or a signal
ends it after `elapsed`. -/
inductive Sleep
  | signaled
  | inTime
  | woken (elapsed : Duration)

/-- `task::sleep_rem`, with the value of its `rem` that the caller set to zero. -/
def sleepRem (dur : Duration) : Sleep → Except SysErrorKind Unit × Duration
  | .signaled => (.error .interrupted, .zero)
  | .inTime => (.ok (), .zero)
  | .woken elapsed => (.error .interrupted, dur.saturatingSub elapsed)

/-- `_sys_nanosleep`: its result and what then stands in the caller's `rem`. -/
def sysNanosleep (req : Timespec) (rem : Option Timespec) (sleep : Sleep) :
    Option (Except SysErrorKind Nat × Option Timespec) :=
  match Duration.tryFrom req with
  | none => none
  | some (.error ()) => some (.error .invalidArgument, rem)
  | some (.ok dur) =>
    match sleepRem dur sleep with
    | (.ok (), _) => some (.ok 0, rem)
    | (.error e, durRem) => some (.error e, rem.map fun _ => .ofDuration durRem)

lemma sysNanosleep_of_not_valid {req : Timespec} (h : ¬ req.Valid) (rem : Option Timespec)
    (sleep : Sleep) : ∃ result rem', sysNanosleep req rem sleep = some (result, rem') ∧
      result ≠ .error .invalidArgument ∧
      (result = .error .interrupted → ∃ left, rem' = rem.map fun _ => .ofDuration left) := by
  obtain ⟨dur, hdur, -⟩ := Duration.tryFrom_of_not_valid h
  rw [sysNanosleep, hdur]
  cases sleep with
  | signaled => exact ⟨_, _, rfl, nofun, fun _ => ⟨_, rfl⟩⟩
  | inTime => exact ⟨_, _, rfl, nofun, nofun⟩
  | woken elapsed => exact ⟨_, _, rfl, nofun, fun _ => ⟨_, rfl⟩⟩

/-- The conversion fails exactly for the valid times: no `Duration` comes back,
`nanosleep` refuses exactly the valid requests, and the remaining time that it
reports after an invalid one does not convert back. -/
theorem nanosleep_refuses_valid (dur : Duration) (req : Timespec) (rem : Option Timespec)
    (sleep : Sleep) :
    Duration.tryFrom (.ofDuration dur) = some (.error ()) ∧
    (Duration.tryFrom req = some (.error ()) ↔ req.Valid) ∧
    (¬ req.Valid → ∃ dur, Duration.tryFrom req = some (.ok dur) ∧ dur.total =
      req.tvSec.toInt.toNat * nanosPerSec + req.tvNsec.toInt.toNat % 2 ^ 32) ∧
    ∃ result rem', sysNanosleep req rem sleep = some (result, rem') ∧
      (result = .error .invalidArgument ↔ req.Valid) ∧
      ∀ ts, result = .error .interrupted → rem' = some ts →
        Duration.tryFrom ts = some (.error ()) := by
  have hback : ∀ dur, Duration.tryFrom (.ofDuration dur) = some (.error ()) :=
    fun dur => Duration.tryFrom_of_valid (Timespec.ofDuration_valid dur)
  refine ⟨hback dur, ⟨fun hfail => ?_, Duration.tryFrom_of_valid⟩,
    Duration.tryFrom_of_not_valid, ?_⟩
  · by_contra hvalid
    obtain ⟨dur, hdur, -⟩ := Duration.tryFrom_of_not_valid hvalid
    rw [hdur] at hfail
    cases hfail
  by_cases hvalid : req.Valid
  · refine ⟨.error .invalidArgument, rem, ?_, iff_of_true rfl hvalid, nofun⟩
    rw [sysNanosleep, Duration.tryFrom_of_valid hvalid]
  · obtain ⟨result, rem', hrun, hresult, hrem⟩ := sysNanosleep_of_not_valid hvalid rem sleep
    refine ⟨result, rem', hrun, iff_of_false hresult hvalid, fun ts hint hts => ?_⟩
    obtain ⟨left, hleft⟩ := hrem hint
    obtain ⟨_, _, rfl⟩ := Option.map_eq_some_iff.mp (hleft.symm.trans hts)
    exact hback left

/-- One second and a half is refused. -/
theorem one_and_a_half_refused :
    Duration.tryFrom (.ofDuration ⟨1, 500000000, by decide, by decide⟩) = some (.error ()) ∧
      sysNanosleep ⟨1, 500000000⟩ none .inTime = some (.error .invalidArgument, none) :=
  ⟨rfl, rfl⟩

end Redwing.Time
