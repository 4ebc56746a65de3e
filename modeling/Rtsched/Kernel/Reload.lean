import Rtsched.Kernel.KtimerSpec
import Rtsched.Kernel.Step

/-!
The hardware timer counts 24 bits, so a far deadline is reached in several intervals: at each
interrupt the clock advances by the programmed reload plus one, and the reload of the first timer
is computed again.

* `KTimers.reload_le`: the interval never passes a deadline that is two or more ticks away.
* `KTimers.chunk`: one such interval; it leaves the timers alone (`KTimers.chunk_spec`).
* `KTimers.reloads_reach`: **the chunks reach the first deadline**, at most one tick late.
-/

namespace Rtsched

namespace KTimers

variable {q : KTimers} {k j : Timer} {r : ℕ}

/-- The value `KTIMER_EXPIRE_NEVER` in the CFS timer asks for the longest interval that its slice
allows, whatever the clock shows. -/
def CfsNever (q : KTimers) (k : Timer) : Prop :=
  k = .cfs ∧ (q.entity .cfs).expireAt = ktimerExpireNever

/-! ### One reload value -/

lemma writableReload_bounds (n : ℕ) :
    schedulerTimerReloadMin ≤ writableReload n ∧ writableReload n ≤ schedulerTimerReloadMax := by
  have hbounds : schedulerTimerReloadMin ≤ schedulerTimerReloadMax := by decide
  rw [writableReload]
  omega

/-- A reload has at most the ticks it is made for, unless these are fewer than two. -/
lemma writableReload_succ_le {n m : ℕ} (h : n + 1 ≤ m) (hm : 2 ≤ m) : writableReload n + 1 ≤ m := by
  have hmin : schedulerTimerReloadMin = 1 := rfl
  rw [writableReload]
  omega

lemma programmableReloadFromTicks_succ_le {ticks m : ℕ} (h : ticks ≤ m) (hm : 2 ≤ m)
    (hmax : ticks ≤ schedulerTimerReloadMax) : programmableReloadFromTicks ticks + 1 ≤ m := by
  rw [programmableReloadFromTicks, reloadFromTicks]
  by_cases hzero : ticks = 0
  · simp only [hzero, if_true, Option.getD_none]
    exact writableReload_succ_le (by omega) hm
  · rw [if_neg hzero, if_pos (by omega), Option.getD_some]
    exact writableReload_succ_le (by omega) hm

/-- The reload for a timer exists and can be programmed. -/
lemma reload_bounds (q : KTimers) (k : Timer) :
    ∃ r, q.schedulerTimerReloadForEntity (some k) = some r ∧
      schedulerTimerReloadMin ≤ r ∧ r ≤ schedulerTimerReloadMax := by
  cases k with
  | cfs => exact ⟨_, rfl, writableReload_bounds _⟩
  | wait => exact ⟨_, rfl, writableReload_bounds _⟩
  | rt t => exact ⟨_, rfl, writableReload_bounds _⟩

/-- The interval of a timer ends at its deadline at the latest, if that is two or more ticks
away. -/
lemma reload_le (hr : q.schedulerTimerReloadForEntity (some k) = some r) (hk : ¬ q.CfsNever k)
    {m : ℕ} (hm : 2 ≤ m) (hle : (q.entity k).expireAt - q.nowTicks ≤ m) : r + 1 ≤ m := by
  -- the wait timer and the timers of RT threads have the same formula
  have hplain : ∀ n, n ≤ m → writableReload (min (n - 1) schedulerTimerReloadMax) + 1 ≤ m :=
    fun n hn => writableReload_succ_le (by omega) hm
  cases k with
  | cfs =>
      have hnever : (q.entity .cfs).expireAt ≠ ktimerExpireNever := fun h => hk ⟨rfl, h⟩
      obtain rfl := Option.some.inj hr
      refine programmableReloadFromTicks_succ_le ?_ hm ?_
      · rw [KTimerEntity.remainingAt, if_neg hnever]
        omega
      · rw [KTimerEntity.remainingAt, if_neg hnever]
        omega
  | wait =>
      obtain rfl := Option.some.inj hr
      exact hplain _ hle
  | rt t =>
      obtain rfl := Option.some.inj hr
      exact hplain _ hle

/-! ### Chunks of time -/

/-- The clock at the next interrupt, if nothing else happens: a reload of `r` wraps after `r + 1`
ticks. -/
def chunk (q : KTimers) : KTimers :=
  match q.nextKtimerReload with
  | none => q
  | some r => q.advanceTime (r + 1)

/-- A chunk moves the clock and nothing else: by at least two ticks, and to the deadline of the
first timer at the latest, or one tick past it if it is the next tick. -/
lemma chunk_spec (hk : q.first = some k) (hnow : q.nowTicks < (q.entity k).expireAt)
    (hmax : (q.entity k).expireAt ≤ u64Max - 2) :
    ∃ n, q.chunk = { q with nowTicks := n } ∧ q.nowTicks + 2 ≤ n ∧
      n ≤ (q.entity k).expireAt + 1 ∧ (q.nowTicks + 2 ≤ (q.entity k).expireAt →
        n ≤ (q.entity k).expireAt) := by
  obtain ⟨r, hr, hlow, hhigh⟩ := q.reload_bounds k
  have hbound : 2 ≤ u64Max := by decide
  have hmin : schedulerTimerReloadMin = 1 := rfl
  have hnever : ¬ q.CfsNever k := by
    rintro ⟨rfl, hexp⟩
    rw [hexp, ktimerExpireNever] at hmax
    omega
  have hle : r + 1 ≤ max 2 ((q.entity k).expireAt - q.nowTicks) :=
    reload_le hr hnever (le_max_left _ _) (le_max_right _ _)
  have hchunk : q.chunk = q.advanceTime (r + 1) := by rw [chunk, nextKtimerReload, hk, hr]
  refine ⟨satAdd64 q.nowTicks (r + 1), hchunk, ?_, ?_, fun htwo => ?_⟩
  · rw [satAdd64]
    omega
  · rw [satAdd64]
    omega
  · rw [satAdd64]
    omega

/-- The chunks until the first timer is due: it stays the first one, no chunk before the last ends
at its deadline, and the last ends there or one tick later. -/
lemma chunks_reach (hk : q.first = some k) (hnow : q.nowTicks < (q.entity k).expireAt)
    (hmax : (q.entity k).expireAt ≤ u64Max - 2) :
    ∃ n, (∀ i < n, (chunk^[i] q).expired k = false) ∧ (chunk^[n] q).expired k = true ∧
      (chunk^[n] q).first = some k ∧ (q.entity k).expireAt ≤ (chunk^[n] q).nowTicks ∧
      (chunk^[n] q).nowTicks ≤ (q.entity k).expireAt + 1 := by
  -- by induction on the ticks that remain
  induction hd : (q.entity k).expireAt - q.nowTicks using Nat.strong_induction_on
    generalizing q with
  | _ d ih =>
      have hfresh : q.expired k = false := by
        simpa [expired, KTimerEntity.isExpiredAt] using hnow
      obtain ⟨now, hchunk, hlow, hhigh, -⟩ := chunk_spec hk hnow hmax
      by_cases hdue : (q.entity k).expireAt ≤ now
      · refine ⟨1, ?_, ?_, ?_, ?_, ?_⟩
        · intro i hi
          obtain rfl : i = 0 := by omega
          exact hfresh
        · simpa [hchunk, expired, KTimerEntity.isExpiredAt] using hdue
        · rw [Function.iterate_one, hchunk]
          exact hk
        · simpa [hchunk] using hdue
        · simpa [hchunk] using hhigh
      · have hrest := ih ((q.entity k).expireAt - now) (by omega)
          (q := { q with nowTicks := now }) hk (not_le.mp hdue) hmax rfl
        obtain ⟨n, hbefore, hend⟩ := hrest
        refine ⟨n + 1, fun i hi => ?_, ?_⟩
        · cases i with
          | zero => exact hfresh
          | succ i =>
              rw [Function.iterate_succ_apply, hchunk]
              exact hbefore i (by omega)
        · rw [Function.iterate_succ_apply, hchunk]
          exact hend

/-- **Timer chunking.**  The reload for the first timer of a queue can be programmed.  Its interval
is no longer than the time that remains to any queued timer, if that is at least two ticks and the
first timer is not a CFS timer that never expires.  A first timer whose deadline lies ahead is
reached by intervals of this kind alone: it is not expired before the last of them and at most one
tick late after it. -/
theorem reloads_reach (q : KTimers) (h : q.Wf) (k : Timer) (hk : q.first = some k) :
    (∃ r, q.schedulerTimerReloadForEntity q.first = some r ∧
      schedulerTimerReloadMin ≤ r ∧ r ≤ schedulerTimerReloadMax ∧
      (¬ q.CfsNever k → ∀ j, q.Linked j → 2 ≤ (q.entity j).expireAt - q.nowTicks →
        r + 1 ≤ (q.entity j).expireAt - q.nowTicks)) ∧
    (q.nowTicks < (q.entity k).expireAt → (q.entity k).expireAt ≤ u64Max - 2 →
      ∃ n, (∀ i < n, (chunk^[i] q).expired k = false) ∧ (chunk^[n] q).expired k = true ∧
        (chunk^[n] q).first = some k ∧ (q.entity k).expireAt ≤ (chunk^[n] q).nowTicks ∧
        (chunk^[n] q).nowTicks ≤ (q.entity k).expireAt + 1) := by
  refine ⟨?_, chunks_reach hk⟩
  obtain ⟨r, hr, hlow, hhigh⟩ := q.reload_bounds k
  rw [hk]
  refine ⟨r, hr, hlow, hhigh, fun hnever j hj htwo => ?_⟩
  have hle := h.first_le hk hj
  exact reload_le hr hnever htwo (by omega)

/-- A queue with the CFS timer alone, of 500 ticks in 1000, that is active and expires at a given
time. -/
def cfsAlone (nowTicks expireAt : ℕ) : KTimers where
  layout := .packed
  entity _ := ⟨expireAt, true, ⟨1000, 500, 500⟩⟩
  active := [.cfs]
  inactive := []
  nowTicks := nowTicks
  next := some .cfs
  runtime _ := 0
  missCnt _ := 0

lemma wf_cfsAlone {now expireAt : ℕ} (h : now ≤ u64Max) : (cfsAlone now expireAt).Wf where
  active := List.pairwise_singleton _ _
  inactive := .nil
  flag_active _ _ := rfl
  flag_inactive _ hk := by cases hk
  wait_notMem := by simp [cfsAlone]
  now_le := h

/-- A deadline that has been cut to `u64::MAX` five ticks before the end of time is taken for one
that never comes: the CFS timer asks for its slice of 500 ticks. -/
theorem reload_passes_never :
    ∃ q : KTimers, q.Wf ∧ q.first = some .cfs ∧ q.Linked .cfs ∧
      (q.entity .cfs).expireAt = satAdd64 q.nowTicks (q.entity .cfs).periodTicks ∧
      ∃ r, q.schedulerTimerReloadForEntity q.first = some r ∧
        2 ≤ (q.entity .cfs).expireAt - q.nowTicks ∧
        (q.entity .cfs).expireAt - q.nowTicks < r + 1 :=
  ⟨cfsAlone (u64Max - 5) u64Max, wf_cfsAlone (by decide), rfl, Or.inl (by decide), by decide, 499,
    by decide, by decide, by decide⟩

/-- A CFS deadline 40000000 ticks away, more than the 24 bits of the counter. -/
theorem reloads_reach_far : ∃ n, (chunk^[n] (cfsAlone 7 40000007)).expired .cfs = true ∧
    (chunk^[n] (cfsAlone 7 40000007)).nowTicks ≤ 40000008 := by
  have hend := (reloads_reach (cfsAlone 7 40000007) (wf_cfsAlone (by decide)) .cfs rfl).2
    (by decide) (by decide)
  obtain ⟨n, -, hexp, -, -, hle⟩ := hend
  exact ⟨n, hexp, hle⟩

end KTimers

end Rtsched
