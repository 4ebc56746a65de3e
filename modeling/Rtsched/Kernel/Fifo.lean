import Rtsched.Kernel.Reach

/-!
A message queue is a bounded queue, in every run.

* `History`: a run with the messages committed to each queue and those taken from it, in order.
* `History.Refines`: **the messages taken, followed by those in the ring, are the messages
  committed**.
* `History.reachable_fifo`: every history of a run does so, `Full` and `Empty` tell the number of
  buffered messages, and no index is wrong.
-/

namespace Rtsched

open Outcome

variable {α : Type}

/-- The messages that a turn commits to a queue. -/
def committed (i : ℕ) : Option (Call α) → Reply α → List α
  | some (.send j x), .done => if j = i then [x] else []
  | _, _ => []

/-- The messages that a turn takes from a queue. -/
def taken (i : ℕ) : Option (Call α) → Reply α → List α
  | some (.receive j), .message x => if j = i then [x] else []
  | _, _ => []

namespace Kernel

variable {k k' : Kernel α} {reply : Reply α} {ev : Event α}

/-- **One turn of a queue operation on the messages of every queue.** -/
theorem Turn.messages {elapsed : ℕ} {call : Call α} (ht : Turn elapsed k call k' reply) (i : ℕ)
    {l : List α} (hl : (k.queue i).Holds l) :
    (k'.queue i).cap = (k.queue i).cap ∧ ∃ l', (k'.queue i).Holds l' ∧
      l ++ committed i (some call) reply = taken i (some call) reply ++ l' := by
  cases ht with
  | @sent j x l₁ _ hl₁ _ hs _ =>
      obtain ⟨hcap, hself, hother⟩ := hs.queue_eq i
      refine ⟨hcap, ?_⟩
      by_cases hij : i = j
      · subst hij
        rw [hl.unique hl₁]
        exact ⟨_, hself rfl, by simp [committed, taken]⟩
      · rw [hother hij]
        exact ⟨l, hl, by simp [committed, taken, Ne.symm hij]⟩
  | @received j x l₁ _ hl₁ hs _ =>
      obtain ⟨hcap, hself, hother⟩ := hs.queue_eq i
      refine ⟨hcap, ?_⟩
      by_cases hij : i = j
      · subst hij
        rw [hl.unique hl₁]
        exact ⟨_, hself rfl, by simp [committed, taken]⟩
      · rw [hother hij]
        exact ⟨l, hl, by simp [committed, taken, Ne.symm hij]⟩
  | sendParked _ _ hp =>
      rw [hp.queue]
      exact ⟨rfl, l, hl, by simp [committed, taken]⟩
  | receiveParked _ hp =>
      rw [hp.queue]
      exact ⟨rfl, l, hl, by simp [committed, taken]⟩
  | sendFails _ _ => exact ⟨rfl, l, hl, by simp [committed, taken]⟩
  | receiveFails _ => exact ⟨rfl, l, hl, by simp [committed, taken]⟩

/-- **One step on the messages of every queue.** -/
theorem Does.messages (hd : k.Does ev k' reply) (i : ℕ) {l : List α}
    (hl : (k.queue i).Holds l) :
    (k'.queue i).cap = (k.queue i).cap ∧ ∃ l', (k'.queue i).Holds l' ∧
      l ++ committed i (k.turnCall ev) reply = taken i (k.turnCall ev) reply ++ l' := by
  cases hd with
  | @turn _ call _ _ hcall _ ht =>
      rw [turnCall_of_queueCall hcall]
      exact ht.messages i hl
  | @retry port t call _ _ hc _ hcall ht =>
      have hturn : k.turnCall (.retry port) = some call := by
        rw [turnCall, hc]
        exact hcall
      rw [hturn]
      exact ht.messages i hl
  | plain hq hp =>
      rw [turnCall_of_not_queueOp hq, hp.queue]
      exact ⟨rfl, l, hl, by simp [committed, taken]⟩

/-- No step computes a wrong index or reads a slot that holds no message. -/
lemma StepFault.index {f : Fault} (hf : k.StepFault ev f) : f ≠ .badIndex ∧ f ≠ .uninitialized := by
  have hbenign : f.Benign → f ≠ .badIndex ∧ f ≠ .uninitialized := by
    rintro (rfl | rfl | rfl) <;> decide
  cases ev with
  | schedule _ =>
      rcases hf with rfl | ⟨-, rfl | rfl⟩ <;> decide
  | _ => exact hbenign hf

end Kernel

/-- A run with the messages each queue has accepted and given out. -/
structure History (α : Type) where
  kernel : Kernel α
  cap : ℕ → Capacity
  sent : ℕ → List α
  received : ℕ → List α

namespace History

variable {h h' : History α}

/-- One step of a run; none if the step cannot come next or fails. -/
def next (h : History α) (ev : Event α) : Option (History α) :=
  if h.kernel.Enabled ev then
    match h.kernel.exec ev with
    | .ok (k, reply) => some
        { h with
          kernel := k
          sent := fun i => h.sent i ++ committed i (h.kernel.turnCall ev) reply
          received := fun i => h.received i ++ taken i (h.kernel.turnCall ev) reply }
    | .error _ => none
  else none

/-- At the start nothing has been sent. -/
structure Initial (h : History α) : Prop where
  kernel : h.kernel.Initial
  cap : ∀ i, (h.kernel.queue i).cap = h.cap i
  sent : ∀ i, h.sent i = []
  received : ∀ i, h.received i = []

/-- The histories of runs. -/
abbrev Reachable (h : History α) : Prop :=
  Runs.Reach Initial (fun h h' => ∃ ev, h.next ev = some h') h

/-- The messages taken, followed by the buffered ones, are the messages committed. -/
def Refines (h : History α) : Prop :=
  ∀ i, (h.kernel.queue i).cap = h.cap i ∧
    ∃ l, (h.kernel.queue i).Holds l ∧ h.received i ++ l = h.sent i

lemma Initial.refines (hi : h.Initial) : h.Refines := by
  intro i
  obtain ⟨cap, hq⟩ := hi.kernel.queue_eq i
  refine ⟨hi.cap i, [], ?_, by rw [hi.sent, hi.received, List.append_nil]⟩
  rw [hq]
  exact Ring.holds_new cap

/-- A step of a history is a step of the kernel. -/
lemma next_eq_some {ev : Event α} (hn : h.next ev = some h') :
    ∃ reply, h.kernel.Enabled ev ∧ h.kernel.exec ev = .ok (h'.kernel, reply) ∧ h'.cap = h.cap ∧
      (∀ i, h'.sent i = h.sent i ++ committed i (h.kernel.turnCall ev) reply) ∧
      ∀ i, h'.received i = h.received i ++ taken i (h.kernel.turnCall ev) reply := by
  unfold next at hn
  split at hn
  · rename_i hen
    split at hn
    · rename_i k reply hrun
      obtain rfl := Option.some.inj hn
      exact ⟨reply, hen, hrun, rfl, fun _ => rfl, fun _ => rfl⟩
    · cases hn
  · cases hn

/-- A history is the history of a run. -/
lemma Reachable.kernel (hr : h.Reachable) : h.kernel.Reachable := by
  induction hr with
  | start hi => exact .start hi.kernel
  | step _ hs ih =>
      obtain ⟨ev, hn⟩ := hs
      obtain ⟨reply, hen, hrun, -⟩ := next_eq_some hn
      exact .step ih ⟨ev, reply, hen, hrun⟩

/-- **One step of a history.** -/
lemma Refines.next (hinv : h.kernel.Inv) (hr : h.Refines) {ev : Event α}
    (hn : h.next ev = some h') : h'.Refines := by
  obtain ⟨reply, hen, hrun, hcap, hsent, hreceived⟩ := next_eq_some hn
  intro i
  obtain ⟨hcap₀, l, hl, heq⟩ := hr i
  obtain ⟨hcap₁, l', hl', hmove⟩ := (hinv.does hen hrun).messages i hl
  refine ⟨by rw [hcap₁, hcap₀, hcap], l', hl', ?_⟩
  calc h'.received i ++ l'
      = h.received i ++ (taken i (h.kernel.turnCall ev) reply ++ l') := by
        rw [hreceived, List.append_assoc]
    _ = h.received i ++ (l ++ committed i (h.kernel.turnCall ev) reply) := by rw [hmove]
    _ = h'.sent i := by rw [← List.append_assoc, heq, hsent]

lemma Reachable.refines (hr : h.Reachable) : h.Refines := by
  induction hr with
  | start hi => exact hi.refines
  | step hr hs ih =>
      obtain ⟨ev, hn⟩ := hs
      exact ih.next (Kernel.reachable_inv (Reachable.kernel hr)) hn

/-- **A message queue is a bounded queue.**  In every run, for every queue: the messages taken,
followed by the buffered ones, are the messages committed; the head and the length stay in their
bounds; `try_send` fails with `Full` exactly if the queue is full and `try_receive` with `Empty`
exactly if it is empty, and then nothing changes; and no step computes a wrong index or reads a
slot that holds no message. -/
theorem reachable_fifo (hr : h.Reachable) (i : ℕ) :
    (∃ l, (h.kernel.queue i).Holds l ∧ h.received i ++ l = h.sent i) ∧
    (h.kernel.queue i).head < (h.cap i).n ∧ (h.kernel.queue i).len ≤ (h.cap i).n ∧
    (∀ x, Ends Fault.Benign (h.kernel.trySend i x) fun r =>
      (r.2 = .err .full ↔ (h.kernel.queue i).len = (h.cap i).n) ∧
        (r.2 = .err .full → r.1 = h.kernel)) ∧
    (Ends Fault.Benign (h.kernel.tryReceive i) fun r =>
      (r.2 = .err .empty ↔ (h.kernel.queue i).len = 0) ∧ (r.2 = .err .empty → r.1 = h.kernel)) ∧
    (∀ ev f, h.kernel.Enabled ev → h.kernel.exec ev = .error f →
      f ≠ .badIndex ∧ f ≠ .uninitialized) := by
  have hinv := Kernel.reachable_inv hr.kernel
  obtain ⟨hcap, l, hl, heq⟩ := hr.refines i
  rw [← hcap]
  refine ⟨⟨l, hl, heq⟩, hl.head_lt, hl.len_eq.trans_le hl.len_le, fun x => ?_, ?_,
    fun ev f hen hrun => ((Kernel.exec_spec hinv.sched hinv.rings hen).error hrun).index⟩
  · refine (Kernel.trySend_spec hinv.sched hl x 0).imp ?_
    rintro r ⟨-, ⟨hr, hne⟩ | ⟨rfl, hlen⟩⟩
    · have hnot : r.2 ≠ .err .full := by
        rw [hr]
        exact fun h => by cases h
      exact ⟨iff_of_false hnot (by rwa [hl.len_eq]), fun h => absurd h hnot⟩
    · exact ⟨iff_of_true rfl (hl.len_eq.trans hlen), fun _ => rfl⟩
  · refine (Kernel.tryReceive_spec hinv.sched hl 0).imp ?_
    rintro r ⟨-, ⟨x, hr, hhead⟩ | ⟨rfl, hlen⟩⟩
    · have hnot : r.2 ≠ .err .empty := by
        rw [hr]
        exact fun h => by cases h
      refine ⟨iff_of_false hnot ?_, fun h => absurd h hnot⟩
      rw [hl.len_eq, List.length_eq_zero_iff]
      rintro rfl
      cases hhead
    · exact ⟨iff_of_true rfl (by rw [hl.len_eq, hlen]; rfl), fun _ => rfl⟩

/-- A history of a kernel in which nothing has been sent. -/
def ofKernel (k : Kernel α) : History α :=
  ⟨k, fun i => (k.queue i).cap, fun _ => [], fun _ => []⟩

/-- Three messages to a queue of one slot; the second finds the queue full. -/
def fullTrial : Option (History ℕ) := do
  let k ← Kernel.trial Kernel.next []
  [.trySend 0 7, .trySend 0 8, .tryReceive 0, .trySend 0 9].foldlM next (ofKernel k)

theorem reachable_fifo_full : ∃ h, fullTrial = some h ∧ h.sent 0 = [7, 9] ∧ h.received 0 = [7] ∧
    (∃ l, (h.kernel.queue 0).Holds l ∧ h.received 0 ++ l = h.sent 0) ∧
    (∀ x, Ends Fault.Benign (h.kernel.trySend 0 x) fun r =>
      (r.2 = .err .full ↔ (h.kernel.queue 0).len = (h.cap 0).n) ∧
        (r.2 = .err .full → r.1 = h.kernel)) := by
  have htest : fullTrial.any (fun h => h.sent 0 == [7, 9] && h.received 0 == [7]) = true := by
    decide +kernel
  obtain ⟨h, hh, htest⟩ := (Option.any_eq_true ..).mp htest
  simp only [Bool.and_eq_true, beq_iff_eq] at htest
  have hreach : h.Reachable := by
    simp only [fullTrial, Kernel.trial, List.foldlM_nil, Option.bind_eq_bind,
      Option.bind_eq_some_iff] at hh
    obtain ⟨k, ⟨k₀, hboot, hk⟩, hrun⟩ := hh
    obtain rfl := Option.some.inj hk
    exact Runs.Reach.foldlM (fun _ ev _ hn => ⟨ev, hn⟩)
      (.start ⟨Kernel.booted_initial hboot, fun _ => rfl, fun _ => rfl, fun _ => rfl⟩) hrun
  obtain ⟨hrefines, -, -, hfull, -⟩ := reachable_fifo hreach 0
  exact ⟨h, hh, htest.1, htest.2, hrefines, hfull⟩

end History

end Rtsched
