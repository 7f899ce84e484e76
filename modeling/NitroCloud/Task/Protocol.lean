import NitroCloud.Task.Run

/-!
# The callback protocol of a task

What the callbacks of a task see, when `OnStarted`, `HandleFail` and `OnFinished` return normally:
the calls of a run are those of `protocol`, which says them from the first step that ends the task.
-/

namespace NitroCloud

open Bytes

namespace Task

section Protocol

variable (task : Task) (cb : Callbacks) (threadId : ThreadId)

/-- The call of `OnProgress` in a step. -/
def progressCall (step : ℕ) : Call :=
  .onProgress step task.m_sleepCount.toInt (progressMessage threadId)

/-- The step ends the task: it is the one to fail, or `OnProgress` cancels or throws. -/
def stops (step : ℕ) : Bool :=
  task.m_failedStep.toInt = step ||
    match cb.onProgress step with
    | .ok command => command = .taskCancel
    | .error _ => true

/-- The calls of a step that ends the task. -/
def lastCalls (step : ℕ) : List Call :=
  if task.m_failedStep.toInt = step then
    [.handleFail, .onFinished .failed (failedMessage threadId)]
  else
    match cb.onProgress step with
    | .ok _ => [progressCall task threadId step, .onFinished .canceled canceledMessage]
    | .error what =>
      [progressCall task threadId step, .onFinished .failed (caughtMessage threadId what)]

/-- The calls of the loop and after it. -/
def loopCalls : List Call :=
  match (List.range task.stepCount).find? (stops task cb) with
  | some step =>
    (List.range step).map (progressCall task threadId) ++ lastCalls task cb threadId step
  | none =>
    (List.range task.stepCount).map (progressCall task threadId) ++
      [.onFinished .succeeded (succeededMessage threadId)]

/-- The calls of a task whose `OnStarted` returns the given command. -/
def protocol (command : TaskCallbackCommnad) : List Call :=
  .onStarted (Int32.ofNat threadId.hash) (startMessage threadId) ::
    if command = .taskCancel then [.onFinished .canceled startupCanceledMessage]
    else loopCalls task cb threadId

end Protocol

/-! ## The steps -/

variable {task : Task} {cb : Callbacks} (threadId : ThreadId)

/-- A step that does not end the task calls `OnProgress` and leaves the stream empty. -/
theorem stepBody_of_not_stops (calls : List Call) {step : ℕ} (hstops : stops task cb step = false) :
    stepBody task cb threadId step ⟨[], calls⟩ =
      .ok false ⟨[], calls ++ [progressCall task threadId step]⟩ := by
  simp only [stops, Bool.or_eq_false_iff, decide_eq_false_iff_not] at hstops
  obtain ⟨hstep, hprogress⟩ := hstops
  rcases hcommand : cb.onProgress step with what | command
  · simp [hcommand] at hprogress
  · simp only [hcommand, decide_eq_false_iff_not] at hprogress
    simp [stepBody, tryBlock, hstep, onProgress, upcall, hcommand, hprogress, progressCall]

/-- A step that ends the task. -/
theorem stepBody_of_stops (calls : List Call) {step : ℕ} (hstops : stops task cb step = true)
    (hfail : cb.handleFail = .ok ()) (hfinished : ∀ k, cb.onFinished k = .ok ()) :
    ∃ text, stepBody task cb threadId step ⟨[], calls⟩ =
      .ok true ⟨text, calls ++ lastCalls task cb threadId step⟩ := by
  by_cases hstep : task.m_failedStep.toInt = step
  · simp [stepBody, tryBlock, lastCalls, hstep, handleFail, onFinished, upcall, hfail, hfinished]
  · rcases hcommand : cb.onProgress step with what | command
    · simp [stepBody, tryBlock, catchBlock, lastCalls, hstep, onProgress, onFinished, upcall,
        hcommand, hfinished, progressCall]
    · have hcancel : command = .taskCancel := by
        simpa [stops, hstep, hcommand] using hstops
      simp [stepBody, tryBlock, lastCalls, hstep, onProgress, onFinished, upcall, hcommand, hcancel,
        hfinished, progressCall]

/-! ## The loop -/

/-- A loop in which no step ends the task runs to its end. -/
theorem loop_of_find?_none (calls : List Call) {left step : ℕ}
    (hfind : (List.range' step left).find? (stops task cb) = none) :
    loop task cb threadId left step ⟨[], calls⟩ =
      .ok false ⟨[], calls ++ (List.range' step left).map (progressCall task threadId)⟩ := by
  induction left generalizing step calls with
  | zero => simp [loop]
  | succ left ih =>
    rw [List.range'_succ, List.find?_cons] at hfind
    rcases hstops : stops task cb step with _ | _
    · simp only [hstops] at hfind
      simp only [loop, bind_apply, stepBody_of_not_stops threadId _ hstops, Bool.false_eq_true,
        if_false, ih _ hfind, List.range'_succ, List.map_cons, List.append_assoc,
        List.singleton_append]
    · simp [hstops] at hfind

/-- A loop ends with the first step that ends the task. -/
theorem loop_of_find?_some (calls : List Call) {left step stop : ℕ}
    (hfail : cb.handleFail = .ok ()) (hfinished : ∀ k, cb.onFinished k = .ok ())
    (hfind : (List.range' step left).find? (stops task cb) = some stop) :
    ∃ text, loop task cb threadId left step ⟨[], calls⟩ =
      .ok true ⟨text, calls ++ ((List.range' step (stop - step)).map (progressCall task threadId) ++
        lastCalls task cb threadId stop)⟩ := by
  induction left generalizing step calls with
  | zero => simp at hfind
  | succ left ih =>
    rw [List.range'_succ, List.find?_cons] at hfind
    rcases hstops : stops task cb step with _ | _
    · simp only [hstops] at hfind
      obtain ⟨text, hrest⟩ := ih (calls ++ [progressCall task threadId step]) hfind
      have hlt : step + 1 ≤ stop := (List.mem_range'_1.1 (List.mem_of_find?_eq_some hfind)).1
      have hsub : stop - step = (stop - (step + 1)) + 1 := by omega
      refine ⟨text, ?_⟩
      simp only [loop, bind_apply, stepBody_of_not_stops threadId _ hstops, Bool.false_eq_true,
        if_false, hrest, hsub, List.range'_succ, List.map_cons, List.append_assoc, List.cons_append,
        List.nil_append]
    · simp only [hstops, Option.some.injEq] at hfind
      subst hfind
      obtain ⟨text, hlast⟩ := stepBody_of_stops threadId calls hstops hfail hfinished
      refine ⟨text, ?_⟩
      simp only [loop, bind_apply, hlast, if_true, pure_apply, Nat.sub_self, List.range'_zero,
        List.map_nil, List.nil_append]

/-! ## The protocol -/

/-- The calls end with one of `OnFinished`, the only one. -/
def FinishedLast (calls : List Call) : Prop :=
  ∃ before taskResult someMessage,
    calls = before ++ [.onFinished taskResult someMessage] ∧
      ∀ call ∈ before, call.isFinished = false

theorem finishedLast_append {before calls : List Call}
    (hbefore : ∀ call ∈ before, call.isFinished = false) (h : FinishedLast calls) :
    FinishedLast (before ++ calls) := by
  obtain ⟨before', taskResult, someMessage, rfl, hbefore'⟩ := h
  refine ⟨before ++ before', taskResult, someMessage, by rw [List.append_assoc], ?_⟩
  exact List.forall_mem_append.2 ⟨hbefore, hbefore'⟩

theorem finishedLast_singleton (taskResult : TaskResult) (someMessage : Bytes) :
    FinishedLast [.onFinished taskResult someMessage] := ⟨[], _, _, rfl, by simp⟩

theorem finishedLast_lastCalls (step : ℕ) : FinishedLast (lastCalls task cb threadId step) := by
  unfold lastCalls
  split_ifs
  · exact ⟨[.handleFail], _, _, rfl, by simp [Call.isFinished]⟩
  · split
    · exact ⟨[progressCall task threadId step], _, _, rfl, by simp [Call.isFinished, progressCall]⟩
    · exact ⟨[progressCall task threadId step], _, _, rfl, by simp [Call.isFinished, progressCall]⟩

theorem finishedLast_protocol (command : TaskCallbackCommnad) :
    FinishedLast (protocol task cb threadId command) := by
  have hprogress (steps : List ℕ) :
      ∀ call ∈ steps.map (progressCall task threadId), call.isFinished = false := by
    simp [progressCall, Call.isFinished]
  rw [protocol, ← List.singleton_append]
  apply finishedLast_append (by simp [Call.isFinished])
  split_ifs
  · exact finishedLast_singleton _ _
  · unfold loopCalls
    split
    · exact finishedLast_append (hprogress _) (finishedLast_lastCalls threadId _)
    · exact finishedLast_append (hprogress _) (finishedLast_singleton _ _)

/-- When `OnStarted` returns any command, `OnProgress` returns anything or throws in each step, and
`HandleFail` and `OnFinished` return, the thread returns, its calls with their messages are those of
the protocol, and `OnFinished` is called once, last. -/
theorem run_protocol (task : Task) (cb : Callbacks) (threadId : ThreadId)
    {command : TaskCallbackCommnad} (hstarted : cb.onStarted = .ok command)
    (hfail : cb.handleFail = .ok ()) (hfinished : ∀ k, cb.onFinished k = .ok ()) :
    (∃ text, run task cb threadId = .ok () ⟨text, protocol task cb threadId command⟩) ∧
      FinishedLast (protocol task cb threadId command) := by
  refine ⟨?_, finishedLast_protocol threadId command⟩
  rw [run_of_started task threadId hstarted]
  by_cases hcancel : command = .taskCancel
  · simp [startedThread, startedCall, onFinished, upcall, hcancel, hfinished, protocol]
  · let started : List Call := [.onStarted (Int32.ofNat threadId.hash) (startMessage threadId)]
    rcases hfind : (List.range' 0 task.stepCount).find? (stops task cb) with _ | stop
    · have hloop := loop_of_find?_none threadId started hfind
      simp [startedThread, startedCall, onFinished, upcall, hcancel, hfinished, protocol, loopCalls,
        List.range_eq_range', hfind, hloop, started]
    · obtain ⟨text, hloop⟩ := loop_of_find?_some threadId started hfail hfinished hfind
      refine ⟨text, ?_⟩
      simp [startedThread, startedCall, hcancel, protocol, loopCalls, List.range_eq_range', hfind,
        hloop, started]

/-- Callbacks that cancel the task in step 1. -/
def cancelsAtOne : Callbacks where
  onStarted := .ok .taskContinue
  onProgress step := .ok (if step = 1 then .taskCancel else .taskContinue)
  handleFail := .ok ()
  onFinished _ := .ok ()

theorem run_protocol_cancelsAtOne :
    ∃ text, run ⟨3, -1⟩ cancelsAtOne ⟨ascii "5", 5⟩ = .ok () ⟨text,
      [.onStarted 5 (ascii "Java: Start. task id = 5"),
        .onProgress 0 3 (ascii "Java: In progress task id = 5"),
        .onProgress 1 3 (ascii "Java: In progress task id = 5"),
        .onFinished .canceled (ascii "Java: TaskSwig canceled in progress.")]⟩ :=
  (run_protocol ⟨3, -1⟩ cancelsAtOne ⟨ascii "5", 5⟩ rfl rfl fun _ => rfl).1

end Task

end NitroCloud
