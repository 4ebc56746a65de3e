import Rtsched.RBTree.Basic

/-!
The timer entities of `src/ktimer.rs`, without their tree node, and the saturating arithmetic of
the source on `u32` and `u64` values.
-/

namespace Rtsched

/-- `u32::MAX`. -/
def u32Max : ℕ := 2 ^ 32 - 1

/-- `u64::MAX`. -/
def u64Max : ℕ := 2 ^ 64 - 1

/-- `u32::saturating_add`. -/
def satAdd32 (a b : ℕ) : ℕ := min (a + b) u32Max

/-- `u32::saturating_mul`. -/
def satMul32 (a b : ℕ) : ℕ := min (a * b) u32Max

/-- `u64::saturating_add`. -/
def satAdd64 (a b : ℕ) : ℕ := min (a + b) u64Max

/-- `KTIMER_EXPIRE_NEVER`. -/
def ktimerExpireNever : ℕ := u64Max

/-- `SCHEDULER_TIMER_RELOAD_MIN` of the Cortex-M port. -/
def schedulerTimerReloadMin : ℕ := 1

/-- `SCHEDULER_TIMER_RELOAD_MAX` of the Cortex-M port. -/
def schedulerTimerReloadMax : ℕ := 2 ^ 24 - 1

/-- The timing parameters of a timer. -/
structure RtTiming where
  periodTicks : ℕ
  relativeDeadlineTicks : ℕ
  budgetTicks : ℕ
  deriving DecidableEq, Repr

/-- A timer entity: its absolute expiration, whether it is eligible for selection, and its
timing. -/
structure KTimerEntity where
  expireAt : ℕ
  active : Bool
  timing : RtTiming
  deriving DecidableEq, Repr

namespace KTimerEntity

/-- `KTimerEntity::new_with_timing`. -/
def newWithTiming (expireTicks : ℕ) (timing : RtTiming) : KTimerEntity :=
  ⟨expireTicks, true, timing⟩

def periodTicks (e : KTimerEntity) : ℕ := e.timing.periodTicks

def relativeDeadlineTicks (e : KTimerEntity) : ℕ := e.timing.relativeDeadlineTicks

def budgetTicks (e : KTimerEntity) : ℕ := e.timing.budgetTicks

def setExpireAt (expireAt : ℕ) (e : KTimerEntity) : KTimerEntity := { e with expireAt := expireAt }

/-- `set_expire_after`: the expiration `ticks` after `now_ticks`, saturating. -/
def setExpireAfter (nowTicks ticks : ℕ) (e : KTimerEntity) : KTimerEntity :=
  { e with expireAt := satAdd64 nowTicks ticks }

def remainingAt (e : KTimerEntity) (nowTicks : ℕ) : ℕ :=
  if e.expireAt = ktimerExpireNever then schedulerTimerReloadMax
  else min (e.expireAt - nowTicks) schedulerTimerReloadMax

def isExpiredAt (e : KTimerEntity) (nowTicks : ℕ) : Bool := e.expireAt ≤ nowTicks

end KTimerEntity

end Rtsched
