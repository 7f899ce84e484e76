import NitroCloud.Libuv.Requests

/-!
# The thread pool makes progress

`post` signals one thread, and only when some thread is idle; a worker waits when it finds the queue
empty, and passes `exit_message` on.  As long as a thread waits that no one has woken there are as
many threads on their way to the queue as it has entries (`no_lost_wakeup`).  The queue of a loop is
empty, or its `uv__work_done` is still to come.

Each step of the workers and of the loops lowers a measure, so they come to rest.  Then every
request was done, or the threads have exited and the requests that are left stand behind
`exit_message` (`drained`).
-/

namespace NitroCloud.Libuv.Pool

open Machine

variable {ρ : Type} [DecidableEq ρ] {loopOf : ρ → ℕ} {p p' : Pool ρ} {nthreads : ℕ}

/-! ## The threads that wait -/

/-- `idle_threads` counts the threads that wait, those that wait unwoken leave enough others for the
queue, and a thread exits when `exit_message` has come to the head of the queue. -/
structure Alert (nthreads : ℕ) (p : Pool ρ) : Prop where
  length : p.threads.length = nthreads
  idle : p.idle_threads = p.threads.count (.waiting true) + p.threads.count (.waiting false)
  wakeup : 0 < p.threads.count (.waiting false) →
    p.wq.length ≤ p.threads.count .ready + p.threads.count (.waiting true)
  exited : 0 < p.threads.count .exited → ∃ wq, p.wq = .exit_message :: wq

theorem alert_init (nthreads loops : ℕ) : (init_once nthreads loops : Pool ρ).Alert nthreads := by
  constructor
  · exact List.length_replicate
  · simp [init_once, List.count_replicate]
  · simp [init_once, List.count_replicate]
  · simp [init_once, List.count_replicate]

theorem signal_cases {threads threads' : List (Worker ρ)} {k : ℕ}
    (h : signal threads k = some threads') :
    (threads.count (.waiting false) = 0 ∧ threads' = threads) ∨
      (threads[k]? = some (.waiting false) ∧ threads' = threads.set k (.waiting true)) := by
  unfold signal at h
  split_ifs at h with hwaiting hk
  · cases h
    exact .inr ⟨hk, rfl⟩
  · cases h
    exact .inl ⟨List.count_eq_zero.2 hwaiting, rfl⟩

/-- What becomes of the counts when one thread changes. -/
theorem counts_set {threads : List (Worker ρ)} {j : ℕ} {old : Worker ρ} (new : Worker ρ)
    (h : threads[j]? = some old) :
    (threads.set j new).count .ready + (if old = .ready then 1 else 0) =
        threads.count .ready + (if new = .ready then 1 else 0) ∧
      (threads.set j new).count (.waiting true) + (if old = .waiting true then 1 else 0) =
        threads.count (.waiting true) + (if new = .waiting true then 1 else 0) ∧
      (threads.set j new).count (.waiting false) + (if old = .waiting false then 1 else 0) =
        threads.count (.waiting false) + (if new = .waiting false then 1 else 0) ∧
      (threads.set j new).count .exited + (if old = .exited then 1 else 0) =
        threads.count .exited + if new = .exited then 1 else 0 :=
  ⟨Weights.count_set_add _ h, Weights.count_set_add _ h, Weights.count_set_add _ h,
    Weights.count_set_add _ h⟩

/-- A thread that waits is woken. -/
theorem counts_woken {threads : List (Worker ρ)} {k : ℕ} (h : threads[k]? = some (.waiting false)) :
    (threads.set k (.waiting true)).count .ready = threads.count .ready ∧
      (threads.set k (.waiting true)).count (.waiting true) = threads.count (.waiting true) + 1 ∧
      (threads.set k (.waiting true)).count (.waiting false) + 1 = threads.count (.waiting false) ∧
      (threads.set k (.waiting true)).count .exited = threads.count .exited := by
  simpa using counts_set (.waiting true) h

/-- `post`. -/
theorem Alert.post (h : p.Alert nthreads) {q : Node ρ} {k : ℕ} {threads : List (Worker ρ)}
    (hthreads : p.Posted k threads) (hwq : p'.wq = p.wq ++ [q]) (hthreads' : p'.threads = threads)
    (hidle : p'.idle_threads = p.idle_threads) : p'.Alert nthreads := by
  have hexited (hpos : 0 < p.threads.count .exited) : ∃ wq, p'.wq = .exit_message :: wq := by
    obtain ⟨wq, hwq'⟩ := h.exited hpos
    exact ⟨wq ++ [q], by rw [hwq, hwq', List.cons_append]⟩
  have hpidle := h.idle
  have hwakeup := h.wakeup
  have hcases : (p.threads.count (.waiting false) = 0 ∧ threads = p.threads) ∨
      (p.threads[k]? = some (.waiting false) ∧ threads = p.threads.set k (.waiting true)) := by
    rcases hthreads with ⟨-, hsignal⟩ | ⟨hidle₀, rfl⟩
    · exact signal_cases hsignal
    · exact .inl ⟨by omega, rfl⟩
  rcases hcases with ⟨hnone, rfl⟩ | ⟨hk, rfl⟩
  · refine ⟨hthreads' ▸ h.length, by rw [hthreads', hidle, hpidle], ?_, ?_⟩
    · rw [hthreads', hnone]
      exact fun hpos => absurd hpos (Nat.lt_irrefl 0)
    · rw [hthreads']
      exact hexited
  · obtain ⟨hready, htrue, hfalse, hexit⟩ := counts_woken hk
    refine ⟨?_, ?_, ?_, ?_⟩
    · rw [hthreads', List.length_set]
      exact h.length
    · rw [hthreads', hidle]
      omega
    · intro hpos
      rw [hthreads', hwq, List.length_append, List.length_singleton]
      have hle := hwakeup (by omega)
      omega
    · rw [hthreads', hexit]
      exact hexited

/-- A worker that gets the lock leaves those that are on their way to the queue, and
`idle_threads` with it. -/
theorem counts_awake (h : p.Alert nthreads) {j idle : ℕ} (hj : p.Awake j idle) (new : Worker ρ) :
    ∃ ready woken,
      ready + woken + 1 = p.threads.count .ready + p.threads.count (.waiting true) ∧
      idle = woken + p.threads.count (.waiting false) ∧
      (p.threads.set j new).count .ready = ready + (if new = .ready then 1 else 0) ∧
      (p.threads.set j new).count (.waiting true) =
        woken + (if new = .waiting true then 1 else 0) ∧
      (p.threads.set j new).count (.waiting false) =
        p.threads.count (.waiting false) + (if new = .waiting false then 1 else 0) ∧
      (p.threads.set j new).count .exited =
        p.threads.count .exited + if new = .exited then 1 else 0 := by
  have hidle := h.idle
  rcases hj with ⟨hj, rfl⟩ | ⟨hj, rfl⟩
  · obtain ⟨hready, htrue, hfalse, hexited⟩ := counts_set new hj
    have hpos := List.count_pos_iff.2 (List.mem_of_getElem? hj)
    simp only [reduceCtorEq, if_true, if_false] at hready htrue hfalse hexited
    refine ⟨p.threads.count .ready - 1, p.threads.count (.waiting true), ?_⟩
    omega
  · obtain ⟨hready, htrue, hfalse, hexited⟩ := counts_set new hj
    have hpos := List.count_pos_iff.2 (List.mem_of_getElem? hj)
    simp only [reduceCtorEq, Worker.waiting.injEq, if_true, if_false] at hready htrue hfalse hexited
    refine ⟨p.threads.count .ready, p.threads.count (.waiting true) - 1, ?_⟩
    omega

theorem Alert.take {j k : ℕ} (h : p.Alert nthreads) (hstep : Change loopOf p (.take j k) p') :
    p'.Alert nthreads := by
  have hwakeup := h.wakeup
  cases hstep with
  | wait hj hwq =>
    obtain ⟨ready, woken, hsum, hidle, hready, htrue, hfalse, hexited⟩ :=
      counts_awake h hj (.waiting false)
    simp only [reduceCtorEq, Worker.waiting.injEq, if_true, if_false] at hready htrue hfalse hexited
    refine ⟨by simpa using h.length, ?_, ?_, ?_⟩
    · simp only
      omega
    · simp [hwq]
    · rw [hexited]
      exact h.exited
  | @exit _ _ _ wq threads hj hwq hthreads =>
    obtain ⟨ready, woken, hsum, hidle, hready, htrue, hfalse, -⟩ := counts_awake h hj .exited
    simp only [reduceCtorEq, if_false] at hready htrue hfalse
    rcases signal_cases hthreads with ⟨hnone, rfl⟩ | ⟨hk, rfl⟩
    · refine ⟨by simpa using h.length, ?_, ?_, fun _ => ⟨wq, hwq⟩⟩
      · simp only
        omega
      · simp only
        omega
    · -- the thread that is woken takes the place of the one that exits
      obtain ⟨hready', htrue', hfalse', -⟩ := counts_woken hk
      refine ⟨by simpa using h.length, ?_, ?_, fun _ => ⟨wq, hwq⟩⟩
      · simp only
        omega
      · intro hpos
        simp only at hpos ⊢
        have hle := hwakeup (by omega)
        omega
  | @start _ _ _ w wq hj hwq =>
    obtain ⟨ready, woken, hsum, hidle, hready, htrue, hfalse, hexited⟩ :=
      counts_awake h hj (.executing w)
    simp only [reduceCtorEq, if_false] at hready htrue hfalse hexited
    refine ⟨by simpa using h.length, ?_, ?_, ?_⟩
    · simp only
      omega
    · intro hpos
      simp only at hpos ⊢
      have hle := hwakeup (by omega)
      rw [hwq, List.length_cons] at hle
      omega
    · intro hpos
      simp only at hpos
      obtain ⟨wq', hwq'⟩ := h.exited (by omega)
      simp [hwq] at hwq'

/-- A step that leaves the threads alone, and may shorten the queue. -/
theorem Alert.frame (h : p.Alert nthreads) (hidle : p'.idle_threads = p.idle_threads)
    (hthreads : p'.threads = p.threads) (hwq : p'.wq.length ≤ p.wq.length)
    (hexit : ∀ wq, p.wq = .exit_message :: wq → ∃ wq', p'.wq = .exit_message :: wq') :
    p'.Alert nthreads := by
  refine ⟨hthreads ▸ h.length, by rw [hidle, hthreads, h.idle], ?_, ?_⟩
  · rw [hthreads]
    exact fun hpos => hwq.trans (h.wakeup hpos)
  · rw [hthreads]
    intro hpos
    obtain ⟨wq, hhead⟩ := h.exited hpos
    exact hexit wq hhead

theorem Alert.step {e : Event ρ} (h : p.Alert nthreads) (hstep : Change loopOf p e p') :
    p'.Alert nthreads := by
  cases e with
  | take j k => exact h.take hstep
  | submit w k =>
    cases hstep with
    | submit hl hw hthreads => exact h.post hthreads rfl rfl rfl
  | cleanup k =>
    cases hstep with
    | cleanup hexit hthreads => exact h.post hthreads rfl rfl rfl
  | finish j =>
    cases hstep with
    | @finish _ w l hj hl =>
      obtain ⟨hready, htrue, hfalse, hexited⟩ := counts_set .ready hj
      simp only [reduceCtorEq, if_true, if_false, Nat.add_zero] at hready htrue hfalse hexited
      refine ⟨by simpa using h.length, ?_, ?_, ?_⟩
      · rw [htrue, hfalse]
        exact h.idle
      · intro hpos
        rw [hfalse] at hpos
        have hle := h.wakeup hpos
        simp only
        omega
      · rw [hexited]
        exact h.exited
  | wake j =>
    cases hstep with
    | wake hj =>
      obtain ⟨hready, htrue, hfalse, hexited⟩ := counts_woken hj
      have hidle := h.idle
      refine ⟨by simpa using h.length, ?_, ?_, ?_⟩
      · simp only
        omega
      · intro _
        have hle := h.wakeup (by omega)
        simp only
        omega
      · rw [hexited]
        exact h.exited
  | cancel w =>
    cases hstep with
    | busy => exact h
    | cancel hl hw hfree hlinked hwork =>
      refine h.frame rfl rfl List.length_erase_le ?_
      intro wq hwq
      exact ⟨wq.erase (.work w), by simp [hwq]⟩
  | cancelled i =>
    cases hstep
    exact h.frame rfl rfl le_rfl fun wq hwq => ⟨wq, hwq⟩
  | async i =>
    cases hstep
    exact h.frame rfl rfl le_rfl fun wq hwq => ⟨wq, hwq⟩
  | move i =>
    cases hstep
    exact h.frame rfl rfl le_rfl fun wq hwq => ⟨wq, hwq⟩
  | done i =>
    cases hstep
    exact h.frame rfl rfl le_rfl fun wq hwq => ⟨wq, hwq⟩

theorem Reachable.alert {loops : ℕ} (h : Reachable loopOf nthreads loops p) : p.Alert nthreads :=
  Machine.Reachable.invariant (Alert nthreads) (alert_init nthreads loops)
    (fun _ _ _ hp hstep => hp.step (step_cases hstep)) h

/-- While a thread waits that no one has woken, at least as many threads are on their way to the
queue as it has entries. -/
theorem no_lost_wakeup {loops : ℕ} (h : Reachable loopOf nthreads loops p)
    (hwaiting : .waiting false ∈ p.threads) :
    p.wq.length ≤ p.threads.count .ready + p.threads.count (.waiting true) :=
  h.alert.wakeup (List.count_pos_iff.2 hwaiting)

theorem no_lost_wakeup_twoThreads : ∃ p : Pool Bool, Reachable (fun _ => 0) 2 1 p ∧
    .waiting false ∈ p.threads ∧
    p.wq.length = 1 ∧ p.wq.length ≤ p.threads.count .ready + p.threads.count (.waiting true) := by
  have hrun : ∃ p : Pool Bool, run (step fun _ => 0) (init_once 2 1)
      [.take 0 0, .take 1 0, .submit false 1] = some p ∧ .waiting false ∈ p.threads ∧
      p.wq.length = 1 := ⟨_, rfl, by decide, rfl⟩
  obtain ⟨p, hp, hwaiting, hwq⟩ := hrun
  exact ⟨p, ⟨_, hp⟩, hwaiting, hwq, no_lost_wakeup ⟨_, hp⟩ hwaiting⟩

/-! ## The loops -/

/-- The queue of a loop is empty, or its `uv__work_done` is still to come to it. -/
def Asked (p : Pool ρ) : Prop :=
  ∀ (i : ℕ) (l : Loop ρ), p.loops[i]? = some l → l.wq ≠ [] →
    l.wq_async = true ∨ l.thread = .moving

omit [DecidableEq ρ] in
theorem Asked.setLoop (h : p.Asked) {i : ℕ} {l' : Loop ρ} (hloops : p'.loops = p.loops.set i l')
    (hl' : l'.wq ≠ [] → l'.wq_async = true ∨ l'.thread = .moving) : p'.Asked := by
  intro i' l hl
  rw [hloops] at hl
  by_cases hii : i = i'
  · rw [List.getElem?_set, if_pos hii] at hl
    split_ifs at hl
    cases hl
    exact hl'
  · rw [List.getElem?_set_ne hii] at hl
    exact h i' l hl

theorem Asked.step {e : Event ρ} (h : p.Asked) (hstep : Change loopOf p e p') : p'.Asked := by
  cases hstep with
  | finish hj hl => exact h.setLoop rfl fun _ => .inl rfl
  | cancel hl hw hfree hlinked hwork =>
    refine h.setLoop rfl fun hne => .inl ?_
    have hasync := h _ _ hl fun hnil => hne (by simp [hnil])
    simpa [hfree] using hasync
  | cancelled hl hthread => exact h.setLoop rfl fun _ => .inl rfl
  | async hl hasync hfree htaken => exact h.setLoop rfl fun _ => .inr rfl
  | move hl hmoving => exact h.setLoop rfl fun hne => absurd rfl hne
  | @done i l w taken hl htaken hfree => exact h.setLoop rfl (h i l hl)
  | submit => exact h
  | wait => exact h
  | exit => exact h
  | start => exact h
  | wake => exact h
  | busy => exact h
  | cleanup => exact h

theorem Reachable.asked {loops : ℕ} (h : Reachable loopOf nthreads loops p) : p.Asked := by
  refine Machine.Reachable.invariant Asked ?_ (fun _ _ _ hp hstep => hp.step (step_cases hstep)) h
  intro i l hl hne
  rw [(List.mem_replicate.1 (List.mem_of_getElem? hl)).2] at hne
  exact absurd rfl hne

/-! ## The measure -/

/-- The steps of the workers and the loops themselves: no request is submitted, none is cancelled,
and no thread wakes for no reason. -/
def Event.internal : Event ρ → Bool
  | .take _ _ | .finish _ | .cancelled _ | .async _ | .move _ | .done _ => true
  | .submit _ _ | .wake _ | .cancel _ | .cleanup _ => false

def proceed (loopOf : ρ → ℕ) (p : Pool ρ) (e : Event ρ) : Option (Pool ρ) :=
  if e.internal then step loopOf p e else none

def Worker.weight : Worker ρ → ℕ
  | .ready => 2
  | .waiting signalled => if signalled then 2 else 1
  | .executing _ => 6
  | .exited => 0

def LoopThread.weight : LoopThread ρ → ℕ
  | .free => 0
  | .moving => 1
  | .cancelling _ => 4

def Loop.weight (l : Loop ρ) : ℕ :=
  l.wq.length + l.taken.length + (if l.wq_async then 2 else 0) + LoopThread.weight l.thread

/-- How many steps the workers and the loops can take. -/
def weight (p : Pool ρ) : ℕ :=
  5 * p.wq.length + Weights.total Worker.weight p.threads + Weights.total Loop.weight p.loops

/-- A signal costs no more than one step. -/
theorem total_signal_le {threads threads' : List (Worker ρ)} {k : ℕ}
    (h : signal threads k = some threads') :
    Weights.total Worker.weight threads' ≤ Weights.total Worker.weight threads + 1 := by
  rcases signal_cases h with ⟨-, rfl⟩ | ⟨hk, rfl⟩
  · omega
  · have htotal := Weights.total_set (w := Worker.weight) (b := .waiting true) hk
    simp only [Worker.weight, if_true, Bool.false_eq_true, if_false] at htotal
    omega

omit [DecidableEq ρ] in
theorem weight_awake {j idle : ℕ} (hj : p.Awake j idle) (new : Worker ρ) :
    Weights.total Worker.weight (p.threads.set j new) + 2 =
      Weights.total Worker.weight p.threads + Worker.weight new := by
  rcases hj with ⟨hj, -⟩ | ⟨hj, -⟩
  · exact Weights.total_set (w := Worker.weight) (b := new) hj
  · exact Weights.total_set (w := Worker.weight) (b := new) hj

theorem proceed_lt (p : Pool ρ) (e : Event ρ) (p' : Pool ρ) (h : proceed loopOf p e = some p') :
    weight p' < weight p := by
  rw [proceed, Option.ite_none_right_eq_some] at h
  obtain ⟨hinternal, hstep⟩ := h
  cases step_cases hstep with
  | wait hj hwq =>
    have htotal := weight_awake hj (.waiting false)
    simp only [Worker.weight, Bool.false_eq_true, if_false] at htotal
    simp only [weight]
    omega
  | exit hj hwq hthreads =>
    have htotal := weight_awake hj .exited
    have hsignal := total_signal_le hthreads
    simp only [Worker.weight] at htotal
    simp only [weight]
    omega
  | @start _ _ _ w _ hj hwq =>
    have htotal := weight_awake hj (.executing w)
    simp only [Worker.weight] at htotal
    simp only [weight, hwq, List.length_cons]
    omega
  | @finish _ w l hj hl =>
    have htotal := Weights.total_set (w := Worker.weight) (b := .ready) hj
    have hloop := Weights.total_set (w := Loop.weight)
      (b := { l with wq := l.wq ++ [w], wq_async := true }) hl
    simp only [Worker.weight] at htotal
    simp only [Loop.weight, List.length_append, List.length_singleton, if_true] at hloop
    simp only [weight]
    omega
  | @cancelled _ l w hl hthread =>
    have hloop := Weights.total_set (w := Loop.weight)
      (b := { l with wq := l.wq ++ [w], wq_async := true, thread := .free }) hl
    simp only [Loop.weight, LoopThread.weight, hthread, List.length_append, List.length_singleton,
      if_true] at hloop
    simp only [weight]
    omega
  | @async _ l hl hasync hfree htaken =>
    have hloop := Weights.total_set (w := Loop.weight)
      (b := { l with wq_async := false, thread := .moving }) hl
    simp only [Loop.weight, LoopThread.weight, hasync, hfree, Bool.false_eq_true, if_false,
      if_true] at hloop
    simp only [weight]
    omega
  | @move _ l hl hmoving =>
    have hloop := Weights.total_set (w := Loop.weight)
      (b := { l with wq := [], thread := .free, taken := l.wq }) hl
    simp only [Loop.weight, LoopThread.weight, hmoving, List.length_nil] at hloop
    simp only [weight]
    omega
  | @done _ l w taken hl htaken hfree =>
    have hloop := Weights.total_set (w := Loop.weight) (b := { l with taken := taken }) hl
    simp only [Loop.weight, htaken, List.length_cons] at hloop
    simp only [weight]
    omega
  | submit => cases hinternal
  | wake => cases hinternal
  | cancel => cases hinternal
  | busy => cases hinternal
  | cleanup => cases hinternal

/-! ## At rest -/

/-- `uv_cond_signal` can always be called. -/
theorem exists_signal (threads : List (Worker ρ)) :
    ∃ k threads', signal threads k = some threads' := by
  by_cases hwaiting : .waiting false ∈ threads
  · obtain ⟨k, hk⟩ := List.mem_iff_getElem?.1 hwaiting
    exact ⟨k, _, by rw [signal, if_pos hwaiting, if_pos hk]⟩
  · exact ⟨0, threads, by rw [signal, if_neg hwaiting]⟩

/-- A worker that has got the lock can go on. -/
theorem exists_worker (p : Pool ρ) (j : ℕ) : ∃ k p', p.worker j k = some p' := by
  unfold worker
  split
  · exact ⟨0, _, rfl⟩
  · obtain ⟨k, threads, hk⟩ := exists_signal (p.threads.set j .exited)
    exact ⟨k, _, by rw [hk, Option.map_some]⟩
  · exact ⟨0, _, rfl⟩

theorem step_of_stuck (h : Stuck (proceed loopOf) p) {e : Event ρ} (he : e.internal = true) :
    step loopOf p e = none := by
  simpa only [proceed, if_pos he] using h e

/-- At rest, every thread waits or has exited. -/
theorem thread_of_stuck (hp : p.Located loopOf) (h : Stuck (proceed loopOf) p) {t : Worker ρ}
    (ht : t ∈ p.threads) : t = .waiting false ∨ t = .exited := by
  obtain ⟨j, hj⟩ := List.mem_iff_getElem?.1 ht
  rcases t with _ | signalled | w | _
  · obtain ⟨k, p', hk⟩ := exists_worker p j
    have hnone := step_of_stuck h (e := .take j k) rfl
    simp [step, hj, hk] at hnone
  · rcases signalled with _ | _
    · exact .inl rfl
    · obtain ⟨k, p', hk⟩ := exists_worker { p with idle_threads := p.idle_threads - 1 } j
      have hnone := step_of_stuck h (e := .take j k) rfl
      simp [step, hj, hk] at hnone
  · have hloop := hp.loop w (hp.of_executing ht).1
    have hnone := step_of_stuck h (e := .finish j) rfl
    simp [step, hj, hloop] at hnone
  · exact .inr rfl

theorem count_of_stuck (hp : p.Located loopOf) (h : Stuck (proceed loopOf) p) {t : Worker ρ}
    (hwaiting : t ≠ .waiting false) (hexited : t ≠ .exited) : p.threads.count t = 0 := by
  rw [List.count_eq_zero]
  intro ht
  rcases thread_of_stuck hp h ht with heq | heq
  · exact hwaiting heq
  · exact hexited heq

/-- At rest, the loops have nothing to do. -/
theorem loop_of_stuck (h : Stuck (proceed loopOf) p) {i : ℕ} {l : Loop ρ}
    (hl : p.loops[i]? = some l) : l.thread = .free ∧ l.taken = [] ∧ l.wq_async = false := by
  rcases hthread : l.thread with _ | _ | w
  · rcases htaken : l.taken with _ | ⟨w, taken⟩
    · rcases hasync : l.wq_async with _ | _
      · exact ⟨rfl, rfl, rfl⟩
      · have hnone := step_of_stuck h (e := .async i) rfl
        simp [step, hl, hthread, htaken, hasync] at hnone
    · have hnone := step_of_stuck h (e := .done i) rfl
      simp [step, hl, hthread, htaken] at hnone
  · have hnone := step_of_stuck h (e := .move i) rfl
    simp [step, hl, hthread] at hnone
  · have hnone := step_of_stuck h (e := .cancelled i) rfl
    simp [step, hl, hthread] at hnone

/-- At rest, a registered request is in the queue of the pool. -/
theorem queued_of_stuck (hp : p.Located loopOf) (hasked : p.Asked) (h : Stuck (proceed loopOf) p)
    {w : ρ} (hw : p.registered w = true) : .work w ∈ p.wq := by
  have hexecuting : p.threads.count (.executing w) = 0 :=
    count_of_stuck hp h (by simp) (by simp)
  have hsettled : p.settled loopOf w = 0 := by
    obtain ⟨l, hl⟩ : ∃ l, p.loops[loopOf w]? = some l :=
      ⟨_, List.getElem?_eq_getElem (hp.loop w hw)⟩
    obtain ⟨hthread, htaken, hasync⟩ := loop_of_stuck h hl
    have hwq : l.wq = [] := by
      by_contra hne
      simpa [hthread, hasync] using hasked _ _ hl hne
    rw [settled_eq hl rfl]
    simp [requests, hwq, htaken, hthread, cancelling]
  have hcount := hp.count w
  rw [hw, Bool.toNat_true] at hcount
  rw [← List.count_pos_iff]
  omega

/-- The workers and the loops come to rest, whatever order they take their steps in, and then every
request was done, or `exit_message` is at the head of the queue, all threads have exited, and the
requests that are left were submitted after it. -/
theorem drained {loops : ℕ} (h : Reachable loopOf nthreads loops p) (hn : 0 < nthreads) :
    ∃ n, ∀ es p', run (proceed loopOf) p es = some p' → es.length ≤ n ∧
      (Stuck (proceed loopOf) p' →
        (p'.wq = [] ∧ ∀ w, p'.registered w = false) ∨
          ∃ wq, p'.wq = .exit_message :: wq ∧ (∀ t ∈ p'.threads, t = .exited) ∧
            ∀ w, p'.registered w = true ↔ .work w ∈ wq) := by
  refine ⟨weight p, fun es p' hrun => ⟨?_, ?_⟩⟩
  · have hle := length_run_add_le proceed_lt hrun
    omega
  · intro hstuck
    have hreach : Reachable loopOf nthreads loops p' := by
      refine invariant_run (Reachable loopOf nthreads loops) ?_ es h hrun
      intro s e s' hs hstep
      rw [proceed, Option.ite_none_right_eq_some] at hstep
      exact Machine.Reachable.trans hs (.single hstep.2)
    have hp := hreach.located
    have halert := hreach.alert
    have hqueued {w : ρ} := queued_of_stuck (w := w) hp hreach.asked hstuck
    have hready : p'.threads.count .ready = 0 := count_of_stuck hp hstuck (by simp) (by simp)
    have hwoken : p'.threads.count (.waiting true) = 0 :=
      count_of_stuck hp hstuck (by simp) (by simp)
    rcases hwq : p'.wq with _ | ⟨q, wq⟩
    · refine .inl ⟨rfl, fun w => ?_⟩
      by_contra hw
      simpa [hwq] using hqueued (Bool.eq_true_of_not_eq_false hw)
    · -- no one is on the way to the queue, so no thread waits
      have hexited (t : Worker ρ) (ht : t ∈ p'.threads) : t = .exited := by
        rcases thread_of_stuck hp hstuck ht with rfl | rfl
        · have hle := halert.wakeup (List.count_pos_iff.2 ht)
          rw [hwq, List.length_cons] at hle
          omega
        · rfl
      obtain ⟨t, ht⟩ := List.exists_mem_of_length_pos (halert.length ▸ hn)
      have hpos := List.count_pos_iff.2 (hexited t ht ▸ ht)
      obtain ⟨wq', hwq'⟩ := halert.exited hpos
      obtain ⟨rfl, rfl⟩ := List.cons.inj (hwq.symm.trans hwq')
      refine .inr ⟨wq, rfl, hexited, fun w => ⟨fun hw => ?_, fun hw => ?_⟩⟩
      · simpa [hwq] using hqueued hw
      · exact (hp.of_queued (by simp [hwq, hw])).1

theorem drained_oneRequest : ∃ p : Pool Bool, Reachable (fun _ => 0) 1 1 p ∧
    p.registered true = true ∧ 0 < 1 ∧ ∃ n, ∀ es p', run (proceed fun _ => 0) p es = some p' →
      es.length ≤ n ∧ (Stuck (proceed fun _ => 0) p' →
        (p'.wq = [] ∧ ∀ w, p'.registered w = false) ∨
          ∃ wq, p'.wq = .exit_message :: wq ∧ (∀ t ∈ p'.threads, t = .exited) ∧
            ∀ w, p'.registered w = true ↔ .work w ∈ wq) := by
  have hrun : ∃ p : Pool Bool, run (step fun _ => 0) (init_once 1 1) [.submit true 0] = some p ∧
      p.registered true = true := ⟨_, rfl, rfl⟩
  obtain ⟨p, hp, hw⟩ := hrun
  exact ⟨p, ⟨_, hp⟩, hw, Nat.one_pos, drained ⟨_, hp⟩ Nat.one_pos⟩

end NitroCloud.Libuv.Pool
