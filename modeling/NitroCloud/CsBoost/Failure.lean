import NitroCloud.CsBoost.Accounting

/-!
# Work for failed connections

After an error the handler of a task clears its busy flag, and the task stays in the pull.  The next
`SendCommands` closure hands it a command like any other idle task, as long as the generator has
more commands than there are idle tasks in front of it.
-/

namespace NitroCloud

namespace CsBoost

namespace Server

/-- A `HandleWrite` or `HandleRead` of the `i`-th task has completed with an error. -/
def Failed (es : List Event) (i : ℕ) : Prop :=
  ∃ k, .write i k true ∈ es ∨ .read i k none ∈ es

/-- A `SendCommands` closure takes a command from the generator for the `i`-th task. -/
def TakesFor (s : Server) (i : ℕ) : Prop :=
  ∃ task command, s.m_taskPull[i]? = some task ∧
    s.sendCommands.m_taskPull[i]? = some (task.sendCommad command)

/-- The tasks in front of the `i`-th one that are not busy. -/
def idleBefore (tasks : List ServerTask) (i : ℕ) : ℕ :=
  (tasks.take i).countP fun task => !task.m_isBusy

theorem idleBefore_cons (task : ServerTask) (tasks : List ServerTask) (i : ℕ) :
    idleBefore (task :: tasks) (i + 1) =
      idleBefore tasks i + if task.m_isBusy then 0 else 1 := by
  cases hb : task.m_isBusy <;> simp [idleBefore, hb]

/-! ## What the dispatch loop does to one task -/

/-- A task gets a command exactly when it is idle and the tasks in front of it leave one. -/
theorem dispatch_getElem? (g : CommandGenerator) (tasks : List ServerTask) {i : ℕ}
    {task : ServerTask} (h : tasks[i]? = some task) :
    (task.m_isBusy = false ∧ idleBefore tasks i < g.m_iteration ∧
        ∃ command, (dispatch g tasks).1[i]? = some (task.sendCommad command)) ∨
      ((task.m_isBusy = true ∨ g.m_iteration ≤ idleBefore tasks i) ∧
        (dispatch g tasks).1[i]? = some task) := by
  induction tasks generalizing g i with
  | nil => simp at h
  | cons task₀ tasks ih =>
    rw [dispatch]
    cases i with
    | zero =>
      rw [List.getElem?_cons_zero, Option.some.injEq] at h
      subst h
      rcases hb : task₀.m_isBusy with _ | _
      · rcases g.nextCommand_cases with ⟨hzero, hnext⟩ | ⟨command, g', hnext, hsucc⟩
        · exact .inr ⟨.inr (by omega), by simp [hnext]⟩
        · exact .inl ⟨rfl, by simp [idleBefore, hsucc], command, by simp [hnext]⟩
      · exact .inr ⟨.inl rfl, by simp⟩
    | succ i =>
      rw [List.getElem?_cons_succ] at h
      rw [idleBefore_cons]
      rcases hb : task₀.m_isBusy with _ | _
      · rcases g.nextCommand_cases with ⟨hzero, hnext⟩ | ⟨command, g', hnext, hsucc⟩
        · simpa [hnext, hzero] using ih g h
        · simpa [hnext, hsucc] using ih g' h
      · simpa using ih g h

theorem sendCommad_ne (task : ServerTask) (command : Count) : task.sendCommad command ≠ task := by
  intro h
  have hlength := congrArg (fun task => task.pending.length) h
  simp [ServerTask.sendCommad] at hlength

/-- A closure takes a command for a task exactly when it is idle and the tasks in front of it leave
one. -/
theorem takesFor_iff {s : Server} {i : ℕ} {task : ServerTask} (h : s.m_taskPull[i]? = some task) :
    s.TakesFor i ↔
      task.m_isBusy = false ∧ idleBefore s.m_taskPull i < s.commandGenerator.m_iteration := by
  have hsend : s.sendCommands.m_taskPull = (dispatch s.commandGenerator s.m_taskPull).1 := rfl
  rcases dispatch_getElem? s.commandGenerator s.m_taskPull h with
    ⟨hbusy, hlt, command, hget⟩ | ⟨hnot, hget⟩
  · exact iff_of_true ⟨task, command, h, hsend ▸ hget⟩ ⟨hbusy, hlt⟩
  · refine iff_of_false ?_ ?_
    · rintro ⟨task', command, htask', hget'⟩
      obtain rfl : task' = task := Option.some.inj (htask'.symm.trans h)
      rw [hsend, hget, Option.some.injEq] at hget'
      exact sendCommad_ne task' command hget'.symm
    · rintro ⟨hbusy, hlt⟩
      rcases hnot with hb | hle
      · rw [hbusy] at hb
        cases hb
      · omega

/-! ## Failed tasks along a run -/

/-- The events of a run before which a `SendCommands` closure takes no command for a task that has
failed. -/
def NoWorkForFailed (before : List Event) (s : Server) (e : Event) : Prop :=
  e = .sendCommands → ∀ i, Failed before i → ¬ s.TakesFor i

/-- What a failed task is while it gets no more work. -/
structure FailedIdle (before : List Event) (s : Server) : Prop where
  accounted : s.Accounted
  idle : ∀ i, Failed before i → s.m_taskPull[i]? = some ⟨false, []⟩

theorem failed_concat {es : List Event} {e : Event} {i : ℕ} (h : Failed (es ++ [e]) i) :
    Failed es i ∨ ∃ k, e = .write i k true ∨ e = .read i k none := by
  obtain ⟨k, h | h⟩ := h
  · rcases List.mem_append.1 h with h | h
    · exact .inl ⟨k, .inl h⟩
    · exact .inr ⟨k, .inl (List.mem_singleton.1 h).symm⟩
  · rcases List.mem_append.1 h with h | h
    · exact .inl ⟨k, .inr h⟩
    · exact .inr ⟨k, .inr (List.mem_singleton.1 h).symm⟩

/-- The task whose operation completes is not idle, and the others stay as they are. -/
theorem getElem?_of_takeOp {s : Server} {i j k : ℕ} {task task' : ServerTask} {op : AsyncOp}
    (hop : s.takeOp j k = some (task, op)) (hi : s.m_taskPull[i]? = some ⟨false, []⟩) :
    (s.m_taskPull.set j task')[i]? = some ⟨false, []⟩ := by
  have hne : j ≠ i := by
    rintro rfl
    simp [takeOp, hi] at hop
  rw [List.getElem?_set_ne hne, hi]

/-- A task that is idle stays so in a step that gives it no command. -/
theorem step_idle {s s' : Server} {e : Event} {i : ℕ} (hi : s.m_taskPull[i]? = some ⟨false, []⟩)
    (hwork : e = .sendCommands → ¬ s.TakesFor i) (hstep : step s e = some s') :
    s'.m_taskPull[i]? = some ⟨false, []⟩ := by
  cases e with
  | run =>
    cases hstep
    exact hi
  | accept error =>
    simp only [step] at hstep
    split_ifs at hstep
    cases hstep
    unfold handleAccept
    split_ifs
    · exact hi
    · exact hi
    · exact List.getElem?_append_left (List.getElem?_eq_some_iff.1 hi).1 ▸ hi
  | sendCommands =>
    cases hstep
    rcases dispatch_getElem? s.commandGenerator s.m_taskPull hi with
      ⟨hbusy, hlt, -⟩ | ⟨-, hget⟩
    · exact absurd ((takesFor_iff hi).2 ⟨hbusy, hlt⟩) (hwork rfl)
    · exact hget
  | write j k error =>
    simp only [step] at hstep
    split at hstep
    · next hop =>
      cases hstep
      exact getElem?_of_takeOp hop hi
    · cases hstep
  | read j k received =>
    simp only [step] at hstep
    split at hstep
    · next hop =>
      split_ifs at hstep
      cases hstep
      exact getElem?_of_takeOp hop hi
    · next hop =>
      cases hstep
      exact getElem?_of_takeOp hop hi
    · cases hstep
  | stop =>
    cases hstep
    exact hi

/-- A task whose operation completes with an error is idle. -/
theorem idle_of_failed {s s' : Server} {e : Event} {i k : ℕ} (hacc : s.Accounted)
    (he : e = .write i k true ∨ e = .read i k none) (hstep : step s e = some s') :
    s'.m_taskPull[i]? = some ⟨false, []⟩ := by
  have hset {task task' : ServerTask} {op : AsyncOp} (hop : s.takeOp i k = some (task, op)) :
      (s.m_taskPull.set i task')[i]? = some task' := by
    obtain ⟨-, -, htask⟩ := takeOp_eq hacc.tasks hop
    exact List.getElem?_set_self (List.getElem?_eq_some_iff.1 htask).1
  rcases he with rfl | rfl
  · simp only [step] at hstep
    split at hstep
    · next task result buffer hop =>
      cases hstep
      obtain ⟨rfl, -, -⟩ := takeOp_eq hacc.tasks hop
      exact hset hop
    · cases hstep
  · simp only [step] at hstep
    split at hstep
    · next hnone =>
      cases hnone
    · next task result buffer hop _ =>
      cases hstep
      obtain ⟨rfl, -, -⟩ := takeOp_eq hacc.tasks hop
      exact hset hop
    · cases hstep

theorem FailedIdle.step {before : List Event} {s s' : Server} {e : Event} (h : FailedIdle before s)
    (hwork : NoWorkForFailed before s e) (hstep : step s e = some s') :
    FailedIdle (before ++ [e]) s' := by
  refine ⟨h.accounted.step hstep, fun i hi => ?_⟩
  rcases failed_concat hi with hi | ⟨k, he⟩
  · exact step_idle (h.idle i hi) (fun he => hwork he i hi) hstep
  · exact idle_of_failed h.accounted he hstep

end Server

end CsBoost

end NitroCloud
