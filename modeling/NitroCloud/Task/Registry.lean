import NitroCloud.Foundations.Machine
import NitroCloud.Task.Protocol
import NitroCloud.Task.Finish

/-!
# The registry of running tasks

`SwigMain` launches tasks of the class `TaskSimple` and of the two classes derived from it.  A task
puts itself into a `Vector` that all tasks share (`Register`), and takes itself out of it in
`OnFinished`; the main thread waits until the `Vector` is empty.

The thread of a task makes the calls of `Task::Run`, one at a time and interleaved with the calls of
the other threads and with the main thread.  `contains` and `remove` of the `Vector` compare objects
by identity, and are made with its lock held.
-/

namespace NitroCloud

open Bytes

/-! ## The calls of a thread end with `OnFinished` -/

namespace Task

/-- How code may end that starts before any call of `OnFinished`, when `OnFinished` returns. -/
inductive EndsLast : EStateM.Result Bytes Thread Bool → Prop where
  | goesOn {thread : Thread} (h : finishes thread.calls = 0) : EndsLast (.ok false thread)
  | finished {thread : Thread} (h : FinishedLast thread.calls) : EndsLast (.ok true thread)

/-- How a `try` block may end then. -/
inductive TryLast : EStateM.Result Bytes Thread Bool → Prop where
  | ends {result : EStateM.Result Bytes Thread Bool} (h : EndsLast result) : TryLast result
  | threw {what : Bytes} {thread : Thread} (h : finishes thread.calls = 0) :
    TryLast (.error what thread)

theorem endsLast_goesOn_iff (thread : Thread) :
    EndsLast (.ok false thread) ↔ finishes thread.calls = 0 := by
  constructor
  · intro h
    cases h with
    | goesOn h => exact h
  · exact .goesOn

section Last

variable {task : Task} {cb : Callbacks} (threadId : ThreadId)
  (hfinished : ∀ k, cb.onFinished k = .ok ())

theorem finishedLast_of_finishes {calls : List Call} (h : finishes calls = 0)
    (taskResult : TaskResult) (someMessage : Bytes) :
    FinishedLast (calls ++ [.onFinished taskResult someMessage]) := by
  refine ⟨calls, taskResult, someMessage, rfl, fun call hcall => ?_⟩
  simpa using List.countP_eq_zero.1 h call hcall

include hfinished

theorem report_last {thread : Thread} (h : finishes thread.calls = 0) (text : Bytes)
    (taskResult : TaskResult) :
    EndsLast ((clear >>= fun _ => write text >>= fun _ => onFinished cb taskResult >>= fun _ =>
      pure true : Body Bool) thread) := by
  rw [report_apply]
  simp only [hfinished]
  exact .finished (finishedLast_of_finishes h taskResult text)

theorem tryBlock_last (step : ℕ) {thread : Thread} (h : finishes thread.calls = 0) :
    TryLast (tryBlock task cb threadId step thread) := by
  have hcalled (call : Call) (hcall : call.isFinished = false) :
      finishes (thread.calls ++ [call]) = 0 := by
    rw [finishes_append_singleton, h, hcall]
    rfl
  unfold tryBlock
  split_ifs with hstep
  · rw [bind_apply]
    rcases hfail : cb.handleFail with what | _
    · simp only [handleFail, upcall, hfail]
      exact .threw (hcalled _ rfl)
    · simp only [handleFail, upcall, hfail]
      exact .ends (report_last hfinished (hcalled .handleFail rfl) _ _)
  · rw [bind_apply]
    rcases hprogress : cb.onProgress step with what | command
    · simp only [onProgress, upcall, hprogress]
      exact .threw (hcalled _ rfl)
    · simp only [onProgress, upcall, hprogress]
      split_ifs
      · exact .ends (report_last hfinished
          (hcalled (.onProgress step task.m_sleepCount.toInt thread.javeMessageCreator) rfl) _ _)
      · exact .ends (.goesOn (hcalled _ rfl))

theorem stepBody_last (step : ℕ) {thread : Thread} (h : finishes thread.calls = 0) :
    EndsLast (stepBody task cb threadId step thread) := by
  unfold stepBody
  rw [bind_apply, write_apply]
  apply clear_rule endsLast_goesOn_iff
  rw [tryCatch_apply]
  have htry : TryLast (tryBlock task cb threadId step
      ⟨thread.javeMessageCreator ++ progressMessage threadId, thread.calls⟩) :=
    tryBlock_last threadId hfinished step h
  generalize tryBlock task cb threadId step _ = result at htry ⊢
  cases htry with
  | ends hends =>
    cases hends with
    | goesOn h => exact .goesOn h
    | finished h => exact .finished h
  | threw h => exact report_last hfinished h _ _

theorem loop_last (left step : ℕ) {thread : Thread} (h : finishes thread.calls = 0) :
    EndsLast (loop task cb threadId left step thread) :=
  loop_rule task cb threadId endsLast_goesOn_iff
    (fun step _ h => stepBody_last threadId hfinished step h) left step h

/-- When `OnStarted` and `OnFinished` return, the thread returns, whatever `OnProgress` and
`HandleFail` do, and its calls end with one of `OnFinished`, the only one. -/
theorem run_finishedLast {command : TaskCallbackCommnad} (hstarted : cb.onStarted = .ok command) :
    ∃ thread, run task cb threadId = .ok () thread ∧ FinishedLast thread.calls := by
  have hcalled : finishes (startedThread threadId).calls = 0 := rfl
  rw [run_of_started task threadId hstarted]
  split_ifs with hcancel
  · simp only [bind_apply, write_apply, onFinished, upcall, hfinished]
    exact ⟨_, rfl, finishedLast_of_finishes hcalled _ _⟩
  · have hloop : EndsLast (loop task cb threadId task.stepCount 0 (startedThread threadId)) :=
      loop_last threadId hfinished task.stepCount 0 hcalled
    rw [bind_apply]
    generalize loop task cb threadId task.stepCount 0 _ = result at hloop ⊢
    cases hloop with
    | goesOn h =>
      simp only [Bool.false_eq_true, if_false, bind_apply, write_apply, onFinished, upcall,
        hfinished]
      exact ⟨_, rfl, finishedLast_of_finishes h _ _⟩
    | finished h => exact ⟨_, rfl, h⟩

end Last

end Task

/-! ## The classes of tasks -/

/-- An object of the class `TaskSimple` or of a class derived from it, whose `OnStarted` and
`OnFinished` return. -/
structure TaskSimple where
  task : Task
  callbacks : Callbacks
  threadId : ThreadId
  started : ∃ command, callbacks.onStarted = .ok command
  finished : ∀ k, callbacks.onFinished k = .ok ()

namespace TaskSimple

/-- The callbacks of `TaskSimple`; `HandleFail` is that of `TaskSwig`. -/
def simpleCallbacks : Callbacks where
  onStarted := .ok .taskContinue
  onProgress _ := .ok .taskContinue
  handleFail := .ok ()
  onFinished _ := .ok ()

/-- The callbacks of `TaskCancelFromJava`. -/
def cancelCallbacks (taskCancelStep : Int32) : Callbacks where
  onStarted := simpleCallbacks.onStarted
  onProgress progress :=
    if (progress : ℤ) = taskCancelStep.toInt then .ok .taskCancel
    else simpleCallbacks.onProgress progress
  handleFail := simpleCallbacks.handleFail
  onFinished := simpleCallbacks.onFinished

/-- The callbacks of `TaskThrowFromJava`; the director turns the exception into one with the given
`what()`. -/
def throwCallbacks (taskThrowStep : Int32) (what : Bytes) : Callbacks where
  onStarted := simpleCallbacks.onStarted
  onProgress progress :=
    if (progress : ℤ) = taskThrowStep.toInt then .error what
    else simpleCallbacks.onProgress progress
  handleFail := simpleCallbacks.handleFail
  onFinished := simpleCallbacks.onFinished

/-- An object of `TaskSimple` itself. -/
def simple (task : Task) (threadId : ThreadId) : TaskSimple :=
  ⟨task, simpleCallbacks, threadId, ⟨_, rfl⟩, fun _ => rfl⟩

/-- An object of `TaskCancelFromJava`. -/
def cancelFromJava (taskCancelStep : Int32) (task : Task) (threadId : ThreadId) : TaskSimple :=
  ⟨task, cancelCallbacks taskCancelStep, threadId, ⟨_, rfl⟩, fun _ => rfl⟩

/-- An object of `TaskThrowFromJava`. -/
def throwFromJava (taskThrowStep : Int32) (what : Bytes) (task : Task) (threadId : ThreadId) :
    TaskSimple :=
  ⟨task, throwCallbacks taskThrowStep what, threadId, ⟨_, rfl⟩, fun _ => rfl⟩

/-- The calls that the thread of the task makes. -/
def calls (this : TaskSimple) : List Call :=
  match this.task.run this.callbacks this.threadId with
  | .ok _ thread => thread.calls
  | .error _ thread => thread.calls

theorem finishedLast_calls (this : TaskSimple) : Task.FinishedLast this.calls := by
  obtain ⟨command, hstarted⟩ := this.started
  obtain ⟨thread, hrun, hlast⟩ := Task.run_finishedLast this.threadId this.finished hstarted
  rw [calls, hrun]
  exact hlast

end TaskSimple

/-! ## The registry -/

namespace Registry

variable {ι : Type} [DecidableEq ι]

/-- `Register`: what it makes of the shared `Vector`. -/
def register (registerTaskCollection : List ι) (this : ι) : List ι :=
  if this ∈ registerTaskCollection then registerTaskCollection else registerTaskCollection ++ [this]

/-- `OnFinished`: what it makes of the shared `Vector`; the task holds no reference to the `Vector`
before it is registered. -/
def onFinished (registered : Bool) (registerTaskCollection : List ι) (this : ι) : List ι :=
  if registered then registerTaskCollection.erase this else registerTaskCollection

/-- The thread of a task: not started, or with the calls it has made and those still to come. -/
inductive TaskThread where
  | created
  | running (made todo : List Call)
deriving DecidableEq

/-- Where the main thread is in `SwigMain.Run`. -/
inductive MainPhase where
  | launching | waiting | exited
deriving DecidableEq

structure State (ι : Type) where
  taskCollection : List ι
  /-- The task has a reference to the `Vector`. -/
  registered : ι → Bool
  threads : ι → TaskThread
  main : MainPhase

inductive Event (ι : Type) where
  | register (i : ι)
  | run (i : ι)
  | launched
  /-- The next call of the thread of the task. -/
  | callback (i : ι)
  | poll
deriving DecidableEq

namespace State

def new : State ι := ⟨[], fun _ => false, fun _ => .created, .launching⟩

/-- The main thread registers tasks, any number of times before it runs them, and runs each at most
once; then it polls the `Vector`. -/
def step (tasks : ι → TaskSimple) (s : State ι) : Event ι → Option (State ι)
  | .register i =>
    if s.main = .launching ∧ s.threads i = .created then
      some { s with
        taskCollection := register s.taskCollection i
        registered := Function.update s.registered i true }
    else none
  | .run i =>
    if s.main = .launching ∧ s.threads i = .created then
      some { s with threads := Function.update s.threads i (.running [] (tasks i).calls) }
    else none
  | .launched => if s.main = .launching then some { s with main := .waiting } else none
  | .callback i =>
    match s.threads i with
    | .running made (call :: todo) =>
      some { s with
        taskCollection :=
          if call.isFinished then onFinished (s.registered i) s.taskCollection i
          else s.taskCollection
        threads := Function.update s.threads i (.running (made ++ [call]) todo) }
    | _ => none
  | .poll =>
    if s.main = .waiting then
      some (if s.taskCollection.isEmpty then { s with main := .exited } else s)
    else none

/-- The states that the program can reach. -/
def Reachable (tasks : ι → TaskSimple) (s : State ι) : Prop := Machine.Reachable (step tasks) new s

end State

/-! ## What the `Vector` holds -/

/-- The thread has called `OnFinished`. -/
def TaskThread.finished : TaskThread → Bool
  | .created => false
  | .running made _ => made.any Call.isFinished

theorem TaskThread.finished_append (made todo : List Call) (call : Call) (todo' : List Call) :
    (TaskThread.running (made ++ [call]) todo).finished =
      ((TaskThread.running made todo').finished || call.isFinished) := by
  simp [finished]

/-- A thread whose calls end with the only one of `OnFinished` has made all of them once it has made
that one. -/
theorem todo_eq_nil {made todo calls : List Call} (hcalls : made ++ todo = calls)
    (hlast : Task.FinishedLast calls) (hfinished : made.any Call.isFinished = true) :
    todo = [] := by
  obtain ⟨before, taskResult, someMessage, rfl, hbefore⟩ := hlast
  rcases List.eq_nil_or_concat todo with rfl | ⟨todo', call, rfl⟩
  · rfl
  · have hsplit : made ++ todo' = before := by
      have h : (made ++ todo') ++ [call] = before ++ [.onFinished taskResult someMessage] := by
        simpa using hcalls
      exact (List.append_inj' h rfl).1
    obtain ⟨call', hmem, hcall'⟩ := List.any_eq_true.1 hfinished
    have hnot := hbefore call' (hsplit ▸ List.mem_append_left todo' hmem)
    rw [hcall'] at hnot
    cases hnot

/-- The thread of a task that has made all its calls has called `OnFinished`. -/
theorem finished_calls (task : TaskSimple) :
    (TaskThread.running task.calls []).finished = true := by
  obtain ⟨before, taskResult, someMessage, hcalls, -⟩ := task.finishedLast_calls
  simp [TaskThread.finished, hcalls, Call.isFinished]

section Vector

variable {registerTaskCollection : List ι} {i j : ι}

theorem mem_register :
    j ∈ register registerTaskCollection i ↔ j ∈ registerTaskCollection ∨ j = i := by
  unfold register
  split_ifs with hmem
  · refine ⟨.inl, ?_⟩
    rintro (hj | rfl)
    · exact hj
    · exact hmem
  · rw [List.mem_append, List.mem_singleton]

theorem nodup_register (h : registerTaskCollection.Nodup) :
    (register registerTaskCollection i).Nodup := by
  unfold register
  split_ifs with hmem
  · exact h
  · exact h.append (List.nodup_singleton i) (by simpa using hmem)

theorem nodup_onFinished (h : registerTaskCollection.Nodup) (registered : Bool) :
    (onFinished registered registerTaskCollection i).Nodup := by
  unfold onFinished
  split_ifs
  · exact h.erase i
  · exact h

/-- `OnFinished` takes out the task, which is not in the `Vector` when it was not registered. -/
theorem mem_onFinished (h : registerTaskCollection.Nodup) {registered : Bool}
    (hi : i ∈ registerTaskCollection → registered = true) :
    j ∈ onFinished registered registerTaskCollection i ↔ j ∈ registerTaskCollection ∧ j ≠ i := by
  unfold onFinished
  by_cases hregistered : registered = true
  · rw [if_pos hregistered, h.mem_erase_iff]
    exact and_comm
  · rw [if_neg hregistered]
    refine ⟨fun hj => ⟨hj, ?_⟩, And.left⟩
    rintro rfl
    exact hregistered (hi hj)

end Vector

namespace State

/-- The `Vector` holds exactly the registered tasks that have not finished, each once. -/
structure Ok (tasks : ι → TaskSimple) (s : State ι) : Prop where
  nodup : s.taskCollection.Nodup
  mem : ∀ i, i ∈ s.taskCollection ↔ s.registered i = true ∧ (s.threads i).finished = false
  calls : ∀ i made todo, s.threads i = .running made todo → made ++ todo = (tasks i).calls
  exited : s.main = .exited → s.taskCollection = []

variable {tasks : ι → TaskSimple} {s s' : State ι}

omit [DecidableEq ι] in
theorem ok_new : (new : State ι).Ok tasks where
  nodup := List.nodup_nil
  mem i := by simp [new]
  calls i made todo h := by cases h
  exited h := by cases h

/-- A thread whose calls, made and to come, are those of its task. -/
theorem Ok.calls_update {i : ι} {made todo : List Call} (hok : s.Ok tasks)
    (h : made ++ todo = (tasks i).calls) (j : ι) (made' todo' : List Call)
    (hj : Function.update s.threads i (.running made todo) j = .running made' todo') :
    made' ++ todo' = (tasks j).calls := by
  by_cases hji : j = i
  · subst hji
    rw [Function.update_self] at hj
    cases hj
    exact h
  · rw [Function.update_of_ne hji] at hj
    exact hok.calls j made' todo' hj

theorem Ok.register {i : ι} (hok : s.Ok tasks) (h : step tasks s (.register i) = some s') :
    s'.Ok tasks := by
  simp only [step] at h
  split_ifs at h with hguard
  obtain ⟨hmain, hcreated⟩ := hguard
  cases h
  have hfinished : (s.threads i).finished = false := by
    rw [hcreated]
    rfl
  refine ⟨nodup_register hok.nodup, fun j => ?_, hok.calls, fun h => by simp [hmain] at h⟩
  show j ∈ Registry.register s.taskCollection i ↔
    Function.update s.registered i true j = true ∧ (s.threads j).finished = false
  rw [mem_register, hok.mem]
  by_cases hj : j = i
  · subst hj
    simp [hfinished]
  · simp [hj]

theorem Ok.run {i : ι} (hok : s.Ok tasks) (h : step tasks s (.run i) = some s') : s'.Ok tasks := by
  simp only [step] at h
  split_ifs at h with hguard
  obtain ⟨hmain, hcreated⟩ := hguard
  cases h
  refine ⟨hok.nodup, fun j => ?_, hok.calls_update rfl, hok.exited⟩
  show j ∈ s.taskCollection ↔ s.registered j = true ∧
    (Function.update s.threads i (.running [] (tasks i).calls) j).finished = false
  rw [hok.mem]
  by_cases hj : j = i
  · subst hj
    simp [hcreated, TaskThread.finished]
  · simp [hj]

/-- A call that is not `OnFinished` leaves the `Vector` as it is. -/
theorem Ok.mem_callback (hok : s.Ok tasks) (i j : ι) (call : Call) :
    (j ∈ if call.isFinished then onFinished (s.registered i) s.taskCollection i
        else s.taskCollection) ↔
      j ∈ s.taskCollection ∧ (call.isFinished = true → j ≠ i) := by
  by_cases hcall : call.isFinished = true
  · simp only [hcall, if_true, forall_const]
    exact mem_onFinished hok.nodup fun hi => ((hok.mem i).1 hi).1
  · simp [hcall]

theorem Ok.callback {i : ι} (hok : s.Ok tasks) (h : step tasks s (.callback i) = some s') :
    s'.Ok tasks := by
  simp only [step] at h
  split at h
  case h_2 => cases h
  case h_1 made call todo hthread =>
    cases h
    have hcalls := hok.calls i made (call :: todo) hthread
    refine ⟨?_, fun j => ?_, hok.calls_update (by simpa using hcalls), fun hexited => ?_⟩
    · dsimp only
      split_ifs
      · exact nodup_onFinished hok.nodup _
      · exact hok.nodup
    · refine (hok.mem_callback i j call).trans ?_
      show _ ↔ s.registered j = true ∧
        (Function.update s.threads i (.running (made ++ [call]) todo) j).finished = false
      rw [hok.mem]
      by_cases hj : j = i
      · subst hj
        rw [Function.update_self, TaskThread.finished_append made todo call (call :: todo), hthread]
        simp [and_assoc]
      · simp [hj]
    · apply List.eq_nil_iff_forall_not_mem.2
      intro j hj
      have hmem := ((hok.mem_callback i j call).1 hj).1
      rw [hok.exited hexited] at hmem
      cases hmem

theorem Ok.step {e : Event ι} (hok : s.Ok tasks) (h : step tasks s e = some s') : s'.Ok tasks := by
  cases e with
  | register i => exact hok.register h
  | run i => exact hok.run h
  | callback i => exact hok.callback h
  | launched =>
    simp only [State.step] at h
    split_ifs at h
    cases h
    exact ⟨hok.nodup, hok.mem, hok.calls, fun h => by cases h⟩
  | poll =>
    simp only [State.step] at h
    split_ifs at h with hwaiting hempty
    · cases h
      exact ⟨hok.nodup, hok.mem, hok.calls, fun _ => List.isEmpty_iff.1 hempty⟩
    · cases h
      exact hok

/-- The invariant holds in every reachable state. -/
theorem Reachable.ok (h : Reachable tasks s) : s.Ok tasks :=
  Machine.Reachable.invariant (Ok tasks) ok_new (fun _ _ _ hok h => hok.step h) h

omit [DecidableEq ι] in
/-- A thread has called `OnFinished` exactly when it has made all its calls. -/
theorem Ok.finished_iff (hok : s.Ok tasks) (i : ι) :
    (s.threads i).finished = true ↔ s.threads i = .running (tasks i).calls [] := by
  constructor
  · intro hfinished
    rcases hthread : s.threads i with _ | ⟨made, todo⟩
    · rw [hthread] at hfinished
      cases hfinished
    · rw [hthread] at hfinished
      have hcalls := hok.calls i made todo hthread
      have htodo := todo_eq_nil hcalls (tasks i).finishedLast_calls hfinished
      rw [htodo, List.append_nil] at hcalls
      rw [htodo, hcalls]
  · intro hthread
    rw [hthread]
    exact finished_calls (tasks i)

omit [DecidableEq ι] in
/-- The `Vector` is empty exactly when every registered task has made all its calls, of which
`OnFinished` is the last. -/
theorem Ok.taskCollection_eq_nil_iff (hok : s.Ok tasks) :
    s.taskCollection = [] ↔
      ∀ i, s.registered i = true → s.threads i = .running (tasks i).calls [] := by
  rw [List.eq_nil_iff_forall_not_mem]
  refine forall_congr' fun i => ?_
  rw [hok.mem, ← hok.finished_iff, not_and, Bool.not_eq_false]

/-- In every reachable state the `Vector` holds each registered task that has not called
`OnFinished` exactly once, and no other task.  So the main thread sees it empty exactly when every
registered task has made all its calls, the last of which is `OnFinished`, and it has left its loop
only then. -/
theorem taskCollection_registered (tasks : ι → TaskSimple) {s : State ι} (h : Reachable tasks s) :
    (∀ i, s.taskCollection.count i =
        if s.registered i = true ∧ (s.threads i).finished = false then 1 else 0) ∧
      (s.taskCollection = [] ↔
        ∀ i, s.registered i = true → s.threads i = .running (tasks i).calls []) ∧
      (s.main = .exited →
        ∀ i, s.registered i = true → s.threads i = .running (tasks i).calls []) := by
  have hok := Reachable.ok h
  refine ⟨fun i => ?_, hok.taskCollection_eq_nil_iff, fun hexited => ?_⟩
  · split_ifs with hi
    · exact List.count_eq_one_of_mem hok.nodup ((hok.mem i).2 hi)
    · exact List.count_eq_zero_of_not_mem fun hmem => hi ((hok.mem i).1 hmem)
  · exact hok.taskCollection_eq_nil_iff.1 (hok.exited hexited)

/-- A task of each class, with one step. -/
def threeTasks : Fin 3 → TaskSimple
  | 0 => .simple ⟨1, -1⟩ ⟨ascii "5", 5⟩
  | 1 => .cancelFromJava 0 ⟨1, -1⟩ ⟨ascii "6", 6⟩
  | 2 => .throwFromJava 0 (ascii "java.lang.RuntimeException") ⟨1, -1⟩ ⟨ascii "7", 7⟩

/-- The tasks are launched, one of them registered twice, and their threads take turns. -/
def threeFinished : List (Event (Fin 3)) :=
  [.register 0, .register 0, .run 0, .register 1, .callback 0, .run 1, .register 2, .callback 1,
    .run 2, .launched, .poll, .callback 2, .callback 2, .callback 2, .callback 0, .callback 1,
    .poll, .callback 1, .callback 0, .poll]

theorem taskCollection_registered_threeTasks :
    ∃ s, Reachable threeTasks s ∧ s.main = .exited ∧
      ∀ i, s.registered i = true → s.threads i = .running (threeTasks i).calls [] := by
  have hmain : (Machine.run (step threeTasks) new threeFinished).map State.main = some .exited := by
    decide
  obtain ⟨s, hs, hexited⟩ := Option.map_eq_some_iff.1 hmain
  have hreachable : Reachable threeTasks s := ⟨threeFinished, hs⟩
  obtain ⟨-, -, hdone⟩ := taskCollection_registered threeTasks hreachable
  exact ⟨s, hreachable, hexited, hdone hexited⟩

end State

end Registry

end NitroCloud
