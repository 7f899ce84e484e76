import Mathlib.Data.Int.Notation
import NitroCloud.Foundations.Machine
import NitroCloud.Foundations.Weights

/-!
# The number of tasks

`TaskCounter` of `nitro_cloud/include/io_helper/server_task.hpp`, with the `ServerTask`s that keep
one each in `m_taskCounter`.  The last statement of `StartListen` constructs a new `TaskCounter`,
exchanges it with the one in `m_taskCounter`, and destroys what it got in exchange; the destructor
of a task destroys the one that is left.  The constructor counts up and the destructor down, each
under a lock, and `GetTaskCount` reads the counter in between.

Tasks are created at any time, and any number of calls of `StartListen` may be under way on each of
them.  A call holds a reference to its task, so the destructor starts when there is none.  The
counter is an integer, since it counts objects in memory.
-/

namespace NitroCloud.Pipe.TaskCounter

open Machine Weights

/-- How far the life of a task has come. -/
inductive Life where
  | alive
  /-- In `~ServerTask`. -/
  | destructing
  | destroyed
deriving DecidableEq, Repr

/-- `ServerTask`, with the calls of `StartListen` under way on it. -/
structure ServerTask where
  life : Life
  /-- `m_taskCounter` is not null. -/
  m_taskCounter : Bool
  /-- The calls that have still to construct a `TaskCounter`. -/
  starting : ℕ
  /-- The calls that have constructed a `TaskCounter` and not assigned it. -/
  assigning : ℕ
  /-- The calls that have assigned a `TaskCounter` and not destroyed the one assigned before. -/
  releasing : ℕ
  /-- The calls with nothing left to do but to return. -/
  returning : ℕ
  /-- A call has returned. -/
  completed : Bool
deriving DecidableEq, Repr

namespace ServerTask

/-- A task just constructed. -/
def new : ServerTask := ⟨.alive, false, 0, 0, 0, 0, false⟩

/-- The calls of `StartListen` in progress. -/
def inStartListen (task : ServerTask) : ℕ :=
  task.starting + task.assigning + task.releasing + task.returning

/-- The `TaskCounter` objects of a task. -/
def counters (task : ServerTask) : ℕ :=
  task.assigning + task.m_taskCounter.toNat + task.releasing

/-- The task is live and has completed a `StartListen`. -/
def isListening (task : ServerTask) : Bool := decide (task.life = .alive) && task.completed

/-- What a thread can do to a task. -/
inductive Action where
  | startListen
  /-- `TaskCounter()`. -/
  | construct
  /-- The exchange in the assignment to `m_taskCounter`. -/
  | assign
  /-- `~TaskCounter()` of the object that `m_taskCounter` held before. -/
  | release
  /-- `StartListen` returns. -/
  | finish
  /-- `~ServerTask()` starts. -/
  | destruct
  /-- `~TaskCounter()` of the object that `m_taskCounter` holds. -/
  | destroyCounter
  /-- `~ServerTask()` returns. -/
  | destroyed
deriving DecidableEq, Repr

/-- The task after an action, and what the action adds to the counter. -/
def step (task : ServerTask) : Action → Option (ServerTask × ℤ)
  | .startListen =>
    if task.life = .alive then some ({ task with starting := task.starting + 1 }, 0) else none
  | .construct =>
    if task.starting = 0 then none
    else some ({ task with
      starting := task.starting - 1, assigning := task.assigning + 1 }, 1)
  | .assign =>
    if task.assigning = 0 then none
    else if task.m_taskCounter then
      some ({ task with
        assigning := task.assigning - 1, releasing := task.releasing + 1 }, 0)
    else
      some ({ task with
        assigning := task.assigning - 1
        m_taskCounter := true
        returning := task.returning + 1 }, 0)
  | .release =>
    if task.releasing = 0 then none
    else some ({ task with
      releasing := task.releasing - 1, returning := task.returning + 1 }, -1)
  | .finish =>
    if task.returning = 0 then none
    else some ({ task with returning := task.returning - 1, completed := true }, 0)
  | .destruct =>
    if task.life = .alive ∧ task.inStartListen = 0 then
      some ({ task with life := .destructing }, 0)
    else none
  | .destroyCounter =>
    if task.life = .destructing ∧ task.m_taskCounter then
      some ({ task with m_taskCounter := false }, -1)
    else none
  | .destroyed =>
    if task.life = .destructing ∧ ¬ task.m_taskCounter then
      some ({ task with life := .destroyed }, 0)
    else none

/-! ## One task -/

/-- What holds of a task at any time. -/
structure Ok (task : ServerTask) : Prop where
  /-- `m_taskCounter` is filled from the first assignment on. -/
  held : task.life = .alive →
    (task.m_taskCounter = true ↔ task.completed = true ∨ 0 < task.releasing + task.returning)
  idle : task.life ≠ .alive → task.inStartListen = 0
  gone : task.life = .destroyed → task.m_taskCounter = false

variable {task task' : ServerTask} {action : Action} {change : ℤ}

/-- An action adds to the counter what it adds to the `TaskCounter` objects of the task. -/
theorem counters_step (h : task.step action = some (task', change)) :
    (task'.counters : ℤ) = task.counters + change := by
  cases action with
  | startListen | finish | destruct | destroyed =>
    simp only [step] at h
    split_ifs at h
    cases h
    simp [counters]
  | construct | release =>
    simp only [step] at h
    split_ifs at h
    cases h
    simp only [counters]
    omega
  | assign =>
    simp only [step] at h
    split_ifs at h with hassigning hheld
    · cases h
      simp only [counters]
      omega
    · cases h
      simp only [counters, hheld, Bool.toNat_true, Bool.toNat_false]
      omega
  | destroyCounter =>
    simp only [step] at h
    split_ifs at h with hheld
    cases h
    simp only [counters, hheld.2, Bool.toNat_true, Bool.toNat_false]
    omega

theorem ok_new : new.Ok := by
  refine ⟨fun _ => ?_, fun h => absurd rfl h, fun _ => rfl⟩
  simp [new]

/-- A call of `StartListen` in progress is one on a live task. -/
theorem Ok.alive (h : task.Ok) (hcall : 0 < task.inStartListen) : task.life = .alive := by
  by_contra hlife
  have hidle := h.idle hlife
  omega

theorem Ok.step (hok : task.Ok) (h : task.step action = some (task', change)) : task'.Ok := by
  cases action with
  | startListen =>
    simp only [ServerTask.step] at h
    split_ifs at h with halive
    cases h
    exact ⟨hok.held, fun hlife => absurd halive hlife, hok.gone⟩
  | construct =>
    simp only [ServerTask.step] at h
    split_ifs at h with hstarting
    cases h
    have halive : task.life = .alive := hok.alive (by rw [inStartListen]; omega)
    exact ⟨hok.held, fun hlife => absurd halive hlife, hok.gone⟩
  | assign =>
    simp only [ServerTask.step] at h
    split_ifs at h with hassigning hheld
    all_goals
      have halive : task.life = .alive := hok.alive (by rw [inStartListen]; omega)
      cases h
    · refine ⟨fun _ => ⟨fun _ => .inr ?_, fun _ => hheld⟩, fun hlife => absurd halive hlife,
        hok.gone⟩
      show 0 < task.releasing + 1 + task.returning
      omega
    · refine ⟨fun _ => ⟨fun _ => .inr ?_, fun _ => rfl⟩, fun hlife => absurd halive hlife, ?_⟩
      · show 0 < task.releasing + (task.returning + 1)
        omega
      · intro hlife
        cases halive.symm.trans hlife
  | release =>
    simp only [ServerTask.step] at h
    split_ifs at h with hreleasing
    cases h
    have halive : task.life = .alive := hok.alive (by rw [inStartListen]; omega)
    refine ⟨fun _ => ?_, fun hlife => absurd halive hlife, hok.gone⟩
    show task.m_taskCounter = true ↔
      task.completed = true ∨ 0 < task.releasing - 1 + (task.returning + 1)
    have hsum : task.releasing - 1 + (task.returning + 1) = task.releasing + task.returning := by
      omega
    rw [hsum]
    exact hok.held halive
  | finish =>
    simp only [ServerTask.step] at h
    split_ifs at h with hreturning
    cases h
    have halive : task.life = .alive := hok.alive (by rw [inStartListen]; omega)
    have hheld : task.m_taskCounter = true := (hok.held halive).2 (.inr (by omega))
    exact ⟨fun _ => ⟨fun _ => .inl rfl, fun _ => hheld⟩, fun hlife => absurd halive hlife, hok.gone⟩
  | destruct =>
    simp only [ServerTask.step] at h
    split_ifs at h with hidle
    cases h
    refine ⟨fun hlife => ?_, fun _ => hidle.2, fun hlife => ?_⟩
    · cases hlife
    · cases hlife
  | destroyCounter =>
    simp only [ServerTask.step] at h
    split_ifs at h with hheld
    cases h
    refine ⟨fun hlife => ?_, hok.idle, fun _ => rfl⟩
    cases hheld.1.symm.trans hlife
  | destroyed =>
    simp only [ServerTask.step] at h
    split_ifs at h with hheld
    cases h
    refine ⟨fun hlife => ?_, fun _ => ?_, fun _ => ?_⟩
    · cases hlife
    · apply hok.idle
      rw [hheld.1]
      decide
    · simpa using hheld.2

/-- A live task that has completed a `StartListen` has a `TaskCounter`. -/
theorem Ok.isListening_le (h : task.Ok) : task.isListening.toNat ≤ task.counters := by
  by_cases hlistening : task.isListening = true
  · simp only [isListening, Bool.and_eq_true, decide_eq_true_eq] at hlistening
    have hheld : task.m_taskCounter = true := (h.held hlistening.1).2 (.inl hlistening.2)
    rw [counters, hheld]
    have hle := Bool.toNat_le task.isListening
    simp only [Bool.toNat_true]
    omega
  · rw [Bool.not_eq_true] at hlistening
    rw [hlistening]
    exact Nat.zero_le _

/-- With nothing in progress a task has no other `TaskCounter`. -/
theorem Ok.isListening_eq (h : task.Ok) (hcalls : task.inStartListen = 0)
    (hlife : task.life ≠ .destructing) : task.isListening.toNat = task.counters := by
  simp only [inStartListen] at hcalls
  have hcounters : task.counters = task.m_taskCounter.toNat := by
    rw [counters]
    omega
  rw [hcounters]
  congr 1
  cases hcase : task.life with
  | alive =>
    have hheld := h.held hcase
    have hnone : ¬ 0 < task.releasing + task.returning := by omega
    simp only [hnone, or_false] at hheld
    rw [isListening, hcase, Bool.eq_iff_iff, hheld]
    simp
  | destructing => exact absurd hcase hlife
  | destroyed => simp [isListening, hcase, h.gone hcase]

end ServerTask

/-- The tasks, with those destroyed, and `TaskCounter::m_counter`. -/
structure System where
  tasks : List ServerTask
  m_counter : ℤ
deriving DecidableEq, Repr

inductive Event where
  | create
  | task (i : ℕ) (action : ServerTask.Action)
deriving DecidableEq, Repr

namespace System

def new : System := ⟨[], 0⟩

/-- `GetTaskCount`. -/
def getTaskCount (s : System) : ℤ := s.m_counter

/-- The number of live tasks that have completed a `StartListen`. -/
def listening (s : System) : ℕ := s.tasks.countP ServerTask.isListening

/-- No `StartListen` and no destructor is in progress. -/
def Quiet (s : System) : Prop :=
  ∀ task ∈ s.tasks, task.inStartListen = 0 ∧ task.life ≠ .destructing

instance (s : System) : Decidable s.Quiet :=
  inferInstanceAs (Decidable (∀ task ∈ s.tasks, _ ∧ _))

def step (s : System) : Event → Option System
  | .create => some { s with tasks := s.tasks ++ [.new] }
  | .task i action => do
    let task ← s.tasks[i]?
    let (task', change) ← task.step action
    some { tasks := s.tasks.set i task', m_counter := s.m_counter + change }

/-! ## All tasks -/

/-- What holds at any time: the counter is the number of `TaskCounter` objects. -/
structure Ok (s : System) : Prop where
  tasks : ∀ task ∈ s.tasks, task.Ok
  counter : s.m_counter = total ServerTask.counters s.tasks

variable {s s' : System} {e : Event}

theorem ok_new : new.Ok := ⟨fun _ h => absurd h List.not_mem_nil, rfl⟩

theorem Ok.create (h : s.Ok) : Ok { s with tasks := s.tasks ++ [.new] } := by
  refine ⟨?_, ?_⟩
  · intro task htask
    rcases List.mem_append.1 htask with hmem | hnew
    · exact h.tasks task hmem
    · rw [List.mem_singleton.1 hnew]
      exact ServerTask.ok_new
  · show s.m_counter = total ServerTask.counters (s.tasks ++ [.new])
    rw [total_concat, h.counter]
    rfl

theorem Ok.set {i : ℕ} {task task' : ServerTask} {action : ServerTask.Action} {change : ℤ}
    (h : s.Ok) (htask : s.tasks[i]? = some task) (hstep : task.step action = some (task', change)) :
    Ok { tasks := s.tasks.set i task', m_counter := s.m_counter + change } := by
  have hok : task.Ok := h.tasks task (List.mem_of_getElem? htask)
  refine ⟨?_, ?_⟩
  · intro other hother
    rcases List.mem_or_eq_of_mem_set hother with hmem | heq
    · exact h.tasks other hmem
    · rw [heq]
      exact hok.step hstep
  · have htotal := total_set (w := ServerTask.counters) (b := task') htask
    have hcounters := ServerTask.counters_step hstep
    have hbefore := h.counter
    show s.m_counter + change = total ServerTask.counters (s.tasks.set i task')
    omega

theorem Ok.step (hok : s.Ok) (h : System.step s e = some s') : s'.Ok := by
  cases e with
  | create =>
    cases h
    exact hok.create
  | task i action =>
    obtain ⟨task, htask, h⟩ := Option.bind_eq_some_iff.1 h
    obtain ⟨⟨task', change⟩, hstep, h⟩ := Option.bind_eq_some_iff.1 h
    cases h
    exact hok.set htask hstep

/-- For every interleaving of any number of tasks: the count is at least the number of live tasks
that have completed a `StartListen`, it is that number when no `StartListen` and no destructor is in
progress, and it is never negative. -/
theorem getTaskCount_run (events : List Event) (s : System)
    (h : run step new events = some s) :
    (s.listening : ℤ) ≤ s.getTaskCount ∧ (s.Quiet → s.getTaskCount = s.listening) ∧
      0 ≤ s.getTaskCount := by
  have hok : s.Ok := invariant_run Ok (fun _ _ _ hok hstep => hok.step hstep) events ok_new h
  have hcount : s.getTaskCount = total ServerTask.counters s.tasks := hok.counter
  have hlistening : s.listening = total (fun task => task.isListening.toNat) s.tasks :=
    countP_eq_total _
  have hle : s.listening ≤ total ServerTask.counters s.tasks := by
    rw [hlistening]
    exact total_le_total fun task htask => (hok.tasks task htask).isListening_le
  refine ⟨by omega, ?_, by omega⟩
  intro hquiet
  rw [hcount, hlistening]
  have hsame := total_congr fun task htask =>
    (hok.tasks task htask).isListening_eq (hquiet task htask).1 (hquiet task htask).2
  rw [hsame]

/-- One task listens anew while another one, that listened as well, is destroyed. -/
def restarting : List Event :=
  [.create, .create, .task 0 .startListen, .task 1 .startListen, .task 1 .construct,
    .task 0 .construct, .task 0 .assign, .task 1 .assign, .task 0 .finish, .task 1 .finish,
    .task 0 .startListen, .task 1 .destruct, .task 0 .construct, .task 0 .assign,
    .task 1 .destroyCounter, .task 0 .release, .task 1 .destroyed, .task 0 .finish]

/-- The two tasks of `restarting` at its end. -/
def restarted : System :=
  ⟨[⟨.alive, true, 0, 0, 0, 0, true⟩, ⟨.destroyed, false, 0, 0, 0, 0, true⟩], 1⟩

/-- The task that is left is counted. -/
theorem getTaskCount_restarted :
    (restarted.listening : ℤ) ≤ restarted.getTaskCount ∧
      restarted.getTaskCount = restarted.listening ∧ 0 ≤ restarted.getTaskCount := by
  obtain ⟨hle, heq, hnonneg⟩ := getTaskCount_run restarting restarted rfl
  exact ⟨hle, heq (by decide), hnonneg⟩

end System

end NitroCloud.Pipe.TaskCounter
