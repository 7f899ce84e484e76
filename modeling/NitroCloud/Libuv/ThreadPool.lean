import NitroCloud.Foundations.Machine
import NitroCloud.Foundations.Weights

/-!
# The thread pool of libuv

`src/threadpool.c` of the vendored libuv, which runs `SomeWorkHandleStat` for the servers of
`boost_cloud` and for `libuv_cloud`.  Requests go from the queue of the pool to a worker, from there
to the queue of their loop, and from there to their `done` callback, which may submit them again; a
request that no worker has taken can be cancelled.

A section of code under `mutex` or under the mutex of a loop is one step; `uv_cond_wait` ends such a
section, and the thread goes on with a new one when it was woken.  `uv_cond_signal` wakes one of the
threads that wait, if there are any, and a thread may wake for no reason.  A request is submitted by
the thread of its loop when it is not registered, and is cancelled by that thread while it is.
-/

namespace NitroCloud.Libuv

/-! ## The life of a request -/

/-- Where a request is, as its owner sees it. -/
inductive Phase where
  | idle | queued | executing | executed | cancelled
deriving DecidableEq, Repr

/-- What happens to a request. -/
inductive LifeEvent where
  | submit
  /-- A worker calls `w->work`. -/
  | start
  | finish
  /-- `uv__work_cancel` takes it out of its queue, and then returns 0. -/
  | cancel
  /-- The loop calls `w->done`, with `UV_ECANCELED` or with 0. -/
  | done (cancelled : Bool)
deriving DecidableEq, Repr

/-- A request is executed once and then done, or cancelled and then done, and may then be submitted
again. -/
def Phase.step : Phase → LifeEvent → Option Phase
  | .idle, .submit => some .queued
  | .queued, .start => some .executing
  | .queued, .cancel => some .cancelled
  | .cancelled, .cancel => some .cancelled
  | .executing, .finish => some .executed
  | .executed, .done false => some .idle
  | .cancelled, .done true => some .idle
  | _, _ => none

/-! ## The pool -/

/-- What `w->work` points to. -/
inductive WorkPtr where
  | work | null | cancelled
deriving DecidableEq, Repr

/-- An entry of the queue of the pool. -/
inductive Node (ρ : Type) where
  | exit_message
  | work (w : ρ)
deriving DecidableEq, Repr

/-- Where the code of `worker` is. -/
inductive Worker (ρ : Type) where
  /-- In front of the lock of `mutex`. -/
  | ready
  /-- In `uv_cond_wait`. -/
  | waiting (signalled : Bool)
  | executing (w : ρ)
  | exited
deriving DecidableEq, Repr

/-- Where the thread of a loop is. -/
inductive LoopThread (ρ : Type) where
  /-- In `uv_run`, or in a callback that it called. -/
  | free
  /-- In `uv__work_done`, in front of `QUEUE_MOVE`. -/
  | moving
  /-- In `uv__work_cancel`, with a request that it took out of its queue. -/
  | cancelling (w : ρ)
deriving DecidableEq, Repr

/-- A loop: its queue, whether its callback `uv__work_done` was asked for, its thread, and what
`uv__work_done` took from the queue and has still to do. -/
structure Loop (ρ : Type) where
  wq : List ρ
  wq_async : Bool
  thread : LoopThread ρ
  taken : List ρ
deriving DecidableEq, Repr

/-- The pool, the loops and the requests. -/
structure Pool (ρ : Type) where
  wq : List (Node ρ)
  idle_threads : ℕ
  threads : List (Worker ρ)
  loops : List (Loop ρ)
  work : ρ → WorkPtr
  /-- The request is registered with its loop. -/
  registered : ρ → Bool
  /-- What happened to the requests. -/
  trace : List (ρ × LifeEvent)
  /-- `w->work` was called and is not the function that was submitted. -/
  aborted : Bool

namespace Pool

variable {ρ : Type} [DecidableEq ρ]

/-- `init_once`, with the number of threads that it settles on, and the loops. -/
def init_once (nthreads loops : ℕ) : Pool ρ where
  wq := []
  idle_threads := 0
  threads := List.replicate nthreads .ready
  loops := List.replicate loops ⟨[], false, .free, []⟩
  work _ := .null
  registered _ := false
  trace := []
  aborted := false

/-- `uv_cond_signal`, which wakes the `k`-th thread, or no one when none waits. -/
def signal (threads : List (Worker ρ)) (k : ℕ) : Option (List (Worker ρ)) :=
  if .waiting false ∈ threads then
    if threads[k]? = some (.waiting false) then some (threads.set k (.waiting true)) else none
  else some threads

/-- `post`. -/
def post (p : Pool ρ) (q : Node ρ) (k : ℕ) : Option (Pool ρ) :=
  let p := { p with wq := p.wq ++ [q] }
  if 0 < p.idle_threads then
    (signal p.threads k).map fun threads => { p with threads := threads }
  else some p

/-- `worker` with `mutex` locked: the rest of the section, up to the call of `w->work`. -/
def worker (p : Pool ρ) (j k : ℕ) : Option (Pool ρ) :=
  match p.wq with
  | [] =>
    some { p with
      idle_threads := p.idle_threads + 1
      threads := p.threads.set j (.waiting false) }
  | .exit_message :: _ =>
    (signal (p.threads.set j .exited) k).map fun threads => { p with threads := threads }
  | .work w :: wq =>
    some { p with
      wq := wq
      threads := p.threads.set j (.executing w)
      trace := p.trace ++ [(w, .start)]
      aborted := p.aborted || p.work w ≠ .work }

/-- What the pool, its workers and the loops can do. -/
inductive Event (ρ : Type) where
  /-- `uv__work_submit`; `k` is the thread to wake. -/
  | submit (w : ρ) (k : ℕ)
  /-- The `j`-th thread gets `mutex`, from the top of its loop or from `uv_cond_wait`. -/
  | take (j k : ℕ)
  /-- `w->work` returns, and the `j`-th thread hands the request to its loop. -/
  | finish (j : ℕ)
  /-- The `j`-th thread wakes for no reason. -/
  | wake (j : ℕ)
  /-- `uv__work_cancel` decides, and takes the request out of its queue. -/
  | cancel (w : ρ)
  /-- It hands the request to the `i`-th loop. -/
  | cancelled (i : ℕ)
  /-- The callback of `wq_async` of the `i`-th loop starts. -/
  | async (i : ℕ)
  /-- `QUEUE_MOVE` in it. -/
  | move (i : ℕ)
  /-- It calls the next `w->done`. -/
  | done (i : ℕ)
  /-- `cleanup` posts `exit_message`. -/
  | cleanup (k : ℕ)
deriving DecidableEq

/-- `loopOf w` is the index of `w->loop`. -/
def step (loopOf : ρ → ℕ) (p : Pool ρ) : Event ρ → Option (Pool ρ)
  | .submit w k =>
    (p.loops[loopOf w]?).bind fun l =>
      if p.registered w = false ∧ l.thread = .free then
        post { p with
          work := Function.update p.work w .work
          registered := Function.update p.registered w true
          trace := p.trace ++ [(w, .submit)] } (.work w) k
      else none
  | .take j k =>
    match p.threads[j]? with
    | some .ready => p.worker j k
    | some (.waiting true) => { p with idle_threads := p.idle_threads - 1 }.worker j k
    | _ => none
  | .finish j =>
    match p.threads[j]? with
    | some (.executing w) =>
      (p.loops[loopOf w]?).map fun l =>
        { p with
          threads := p.threads.set j .ready
          loops := p.loops.set (loopOf w) { l with wq := l.wq ++ [w], wq_async := true }
          work := Function.update p.work w .null
          trace := p.trace ++ [(w, .finish)] }
    | _ => none
  | .wake j =>
    if p.threads[j]? = some (.waiting false) then
      some { p with threads := p.threads.set j (.waiting true) }
    else none
  | .cancel w =>
    (p.loops[loopOf w]?).bind fun l =>
      if p.registered w = true ∧ l.thread = .free then
        if (.work w ∈ p.wq ∨ w ∈ l.wq ∨ w ∈ l.taken) ∧ p.work w ≠ .null then
          some { p with
            wq := p.wq.erase (.work w)
            loops := p.loops.set (loopOf w) { l with
              wq := l.wq.erase w, taken := l.taken.erase w, thread := .cancelling w }
            work := Function.update p.work w .cancelled
            trace := p.trace ++ [(w, .cancel)] }
        else some p
      else none
  | .cancelled i =>
    (p.loops[i]?).bind fun l =>
      match l.thread with
      | .cancelling w =>
        some { p with
          loops := p.loops.set i { l with wq := l.wq ++ [w], wq_async := true, thread := .free } }
      | _ => none
  | .async i =>
    (p.loops[i]?).bind fun l =>
      if l.wq_async = true ∧ l.thread = .free ∧ l.taken = [] then
        some { p with loops := p.loops.set i { l with wq_async := false, thread := .moving } }
      else none
  | .move i =>
    (p.loops[i]?).bind fun l =>
      if l.thread = .moving then
        some { p with loops := p.loops.set i { l with wq := [], thread := .free, taken := l.wq } }
      else none
  | .done i =>
    (p.loops[i]?).bind fun l =>
      match l.taken with
      | [] => none
      | w :: taken =>
        if l.thread = .free then
          some { p with
            loops := p.loops.set i { l with taken := taken }
            registered := Function.update p.registered w false
            trace := p.trace ++ [(w, .done (p.work w = .cancelled))] }
        else none
  | .cleanup k => if .exit_message ∈ p.wq then none else p.post .exit_message k

/-- The states that the pool can reach. -/
def Reachable (loopOf : ρ → ℕ) (nthreads loops : ℕ) (p : Pool ρ) : Prop :=
  Machine.Reachable (step loopOf) (init_once nthreads loops) p

/-- The phase of a request, as the pool has it. -/
def phase (p : Pool ρ) (w : ρ) : Phase :=
  if p.registered w = true then
    match p.work w with
    | .cancelled => .cancelled
    | .null => .executed
    | .work => if .executing w ∈ p.threads then .executing else .queued
  else .idle

/-- What happened to a request. -/
def life (p : Pool ρ) (w : ρ) : List LifeEvent := (p.trace.filter (·.1 = w)).map Prod.snd

/-! ## What a step can do -/

/-- The threads after `post`: one was woken, or none is idle. -/
def Posted (p : Pool ρ) (k : ℕ) (threads : List (Worker ρ)) : Prop :=
  (0 < p.idle_threads ∧ signal p.threads k = some threads) ∨
    (p.idle_threads = 0 ∧ threads = p.threads)

/-- The `j`-th thread is in front of `mutex`, and `idle` is the number of idle threads once it has
got it. -/
def Awake (p : Pool ρ) (j idle : ℕ) : Prop :=
  (p.threads[j]? = some .ready ∧ idle = p.idle_threads) ∨
    (p.threads[j]? = some (.waiting true) ∧ idle = p.idle_threads - 1)

/-- The steps, one by one. -/
inductive Change (loopOf : ρ → ℕ) (p : Pool ρ) : Event ρ → Pool ρ → Prop
  | submit {w : ρ} {k : ℕ} {l : Loop ρ} {threads : List (Worker ρ)}
      (hl : p.loops[loopOf w]? = some l) (hw : p.registered w = false)
      (hthreads : p.Posted k threads) :
      Change loopOf p (.submit w k) { p with
        wq := p.wq ++ [.work w]
        threads := threads
        work := Function.update p.work w .work
        registered := Function.update p.registered w true
        trace := p.trace ++ [(w, .submit)] }
  | wait {j k idle : ℕ} (hj : p.Awake j idle) (hwq : p.wq = []) :
      Change loopOf p (.take j k) { p with
        idle_threads := idle + 1
        threads := p.threads.set j (.waiting false) }
  | exit {j k idle : ℕ} {wq : List (Node ρ)} {threads : List (Worker ρ)} (hj : p.Awake j idle)
      (hwq : p.wq = .exit_message :: wq)
      (hthreads : signal (p.threads.set j .exited) k = some threads) :
      Change loopOf p (.take j k) { p with idle_threads := idle, threads := threads }
  | start {j k idle : ℕ} {w : ρ} {wq : List (Node ρ)} (hj : p.Awake j idle)
      (hwq : p.wq = .work w :: wq) :
      Change loopOf p (.take j k) { p with
        wq := wq
        idle_threads := idle
        threads := p.threads.set j (.executing w)
        trace := p.trace ++ [(w, .start)]
        aborted := p.aborted || p.work w ≠ .work }
  | finish {j : ℕ} {w : ρ} {l : Loop ρ} (hj : p.threads[j]? = some (.executing w))
      (hl : p.loops[loopOf w]? = some l) :
      Change loopOf p (.finish j) { p with
        threads := p.threads.set j .ready
        loops := p.loops.set (loopOf w) { l with wq := l.wq ++ [w], wq_async := true }
        work := Function.update p.work w .null
        trace := p.trace ++ [(w, .finish)] }
  | wake {j : ℕ} (hj : p.threads[j]? = some (.waiting false)) :
      Change loopOf p (.wake j) { p with threads := p.threads.set j (.waiting true) }
  | cancel {w : ρ} {l : Loop ρ} (hl : p.loops[loopOf w]? = some l) (hw : p.registered w = true)
      (hfree : l.thread = .free) (hlinked : .work w ∈ p.wq ∨ w ∈ l.wq ∨ w ∈ l.taken)
      (hwork : p.work w ≠ .null) :
      Change loopOf p (.cancel w) { p with
        wq := p.wq.erase (.work w)
        loops := p.loops.set (loopOf w) { l with
          wq := l.wq.erase w, taken := l.taken.erase w, thread := .cancelling w }
        work := Function.update p.work w .cancelled
        trace := p.trace ++ [(w, .cancel)] }
  | busy {w : ρ} : Change loopOf p (.cancel w) p
  | cancelled {i : ℕ} {l : Loop ρ} {w : ρ} (hl : p.loops[i]? = some l)
      (hthread : l.thread = .cancelling w) :
      Change loopOf p (.cancelled i) { p with
        loops := p.loops.set i { l with wq := l.wq ++ [w], wq_async := true, thread := .free } }
  | async {i : ℕ} {l : Loop ρ} (hl : p.loops[i]? = some l) (hasync : l.wq_async = true)
      (hfree : l.thread = .free) (htaken : l.taken = []) :
      Change loopOf p (.async i) { p with
        loops := p.loops.set i { l with wq_async := false, thread := .moving } }
  | move {i : ℕ} {l : Loop ρ} (hl : p.loops[i]? = some l) (hmoving : l.thread = .moving) :
      Change loopOf p (.move i) { p with
        loops := p.loops.set i { l with wq := [], thread := .free, taken := l.wq } }
  | done {i : ℕ} {l : Loop ρ} {w : ρ} {taken : List ρ} (hl : p.loops[i]? = some l)
      (htaken : l.taken = w :: taken) (hfree : l.thread = .free) :
      Change loopOf p (.done i) { p with
        loops := p.loops.set i { l with taken := taken }
        registered := Function.update p.registered w false
        trace := p.trace ++ [(w, .done (p.work w = .cancelled))] }
  | cleanup {k : ℕ} {threads : List (Worker ρ)} (hexit : .exit_message ∉ p.wq)
      (hthreads : p.Posted k threads) :
      Change loopOf p (.cleanup k) { p with wq := p.wq ++ [.exit_message], threads := threads }

variable {loopOf : ρ → ℕ} {p p' : Pool ρ}

/-- What `post` does. -/
theorem post_cases {q : Node ρ} {k : ℕ} (h : p.post q k = some p') :
    ∃ threads, p.Posted k threads ∧ p' = { p with wq := p.wq ++ [q], threads := threads } := by
  simp only [post] at h
  split_ifs at h with hidle
  · obtain ⟨threads, hthreads, rfl⟩ := Option.map_eq_some_iff.1 h
    exact ⟨threads, .inl ⟨hidle, hthreads⟩, rfl⟩
  · cases h
    exact ⟨p.threads, .inr ⟨by omega, rfl⟩, rfl⟩

/-- What a worker does that has got the lock: it waits, or exits, or takes a request. -/
theorem worker_cases {j k idle : ℕ} (hj : p.Awake j idle)
    (h : worker { p with idle_threads := idle } j k = some p') :
    Change loopOf p (.take j k) p' := by
  simp only [worker] at h
  split at h
  case h_1 hwq =>
    cases h
    exact .wait hj hwq
  case h_2 wq hwq =>
    obtain ⟨threads, hthreads, rfl⟩ := Option.map_eq_some_iff.1 h
    exact .exit hj hwq hthreads
  case h_3 w wq hwq =>
    cases h
    exact .start hj hwq

theorem step_cases {e : Event ρ} (h : step loopOf p e = some p') : Change loopOf p e p' := by
  cases e with
  | submit w k =>
    simp only [step, Option.bind_eq_some_iff, Option.ite_none_right_eq_some] at h
    obtain ⟨l, hl, ⟨hw, -⟩, hpost⟩ := h
    obtain ⟨threads, hthreads, rfl⟩ := post_cases hpost
    exact .submit hl hw hthreads
  | take j k =>
    simp only [step] at h
    split at h
    case h_1 hj => exact worker_cases (.inl ⟨hj, rfl⟩) h
    case h_2 hj => exact worker_cases (.inr ⟨hj, rfl⟩) h
    case h_3 => cases h
  | finish j =>
    simp only [step] at h
    split at h
    case h_1 w hj =>
      obtain ⟨l, hl, rfl⟩ := Option.map_eq_some_iff.1 h
      exact .finish hj hl
    case h_2 => cases h
  | wake j =>
    simp only [step, Option.ite_none_right_eq_some, Option.some.injEq] at h
    obtain ⟨hj, rfl⟩ := h
    exact .wake hj
  | cancel w =>
    simp only [step, Option.bind_eq_some_iff, Option.ite_none_right_eq_some] at h
    obtain ⟨l, hl, ⟨hw, hfree⟩, h⟩ := h
    split_ifs at h with hlinked
    · cases h
      exact .cancel hl hw hfree hlinked.1 hlinked.2
    · cases h
      exact .busy
  | cancelled i =>
    simp only [step, Option.bind_eq_some_iff] at h
    obtain ⟨l, hl, h⟩ := h
    split at h
    case h_1 w hthread =>
      cases h
      exact .cancelled hl hthread
    case h_2 => cases h
  | async i =>
    simp only [step, Option.bind_eq_some_iff, Option.ite_none_right_eq_some,
      Option.some.injEq] at h
    obtain ⟨l, hl, ⟨hasync, hfree, htaken⟩, rfl⟩ := h
    exact .async hl hasync hfree htaken
  | move i =>
    simp only [step, Option.bind_eq_some_iff, Option.ite_none_right_eq_some,
      Option.some.injEq] at h
    obtain ⟨l, hl, hmoving, rfl⟩ := h
    exact .move hl hmoving
  | done i =>
    simp only [step, Option.bind_eq_some_iff] at h
    obtain ⟨l, hl, h⟩ := h
    split at h
    case h_1 => cases h
    case h_2 w taken htaken =>
      simp only [Option.ite_none_right_eq_some, Option.some.injEq] at h
      obtain ⟨hfree, rfl⟩ := h
      exact .done hl htaken hfree
  | cleanup k =>
    simp only [step, Option.ite_none_left_eq_some] at h
    obtain ⟨hexit, hpost⟩ := h
    obtain ⟨threads, hthreads, rfl⟩ := post_cases hpost
    exact .cleanup hexit hthreads

end Pool

end NitroCloud.Libuv
