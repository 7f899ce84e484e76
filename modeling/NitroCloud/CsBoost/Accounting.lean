import NitroCloud.CsBoost.Server
import NitroCloud.Foundations.Weights
import Mathlib.Data.Multiset.Basic
import Mathlib.Algebra.Order.Group.Multiset
import Mathlib.Tactic.Abel

/-!
# No command is lost or duplicated

The invariant of the dispatcher (`Accounted`): a task is busy exactly while it has an outstanding
operation, it never has two, and the requests of the commands handed out are, with multiplicity,
the requests of the results collected, of the operations outstanding and of the operations that
ended in an error.  The steps that complete an operation change one task, which `Accounted.replace`
covers; the dispatch loop is an induction over the tasks.
-/

namespace NitroCloud

namespace CsBoost

/-- The task is busy exactly while it has an outstanding operation, and has at most one. -/
structure ServerTask.Ok (task : ServerTask) : Prop where
  busy_iff : task.m_isBusy = true ↔ task.pending ≠ []
  single : task.pending.length ≤ 1

/-- The requests of the operations outstanding on some tasks, with multiplicity. -/
def requests (tasks : List ServerTask) : Multiset Bytes :=
  ↑(tasks.flatMap fun task => task.pending.map fun op => op.result.request)

theorem requests_nil : requests [] = 0 := rfl

theorem requests_cons (task : ServerTask) (tasks : List ServerTask) :
    requests (task :: tasks) =
      ↑(task.pending.map fun op => op.result.request) + requests tasks := by
  simp [requests]

theorem requests_append (ts us : List ServerTask) :
    requests (ts ++ us) = requests ts + requests us := by
  simp [requests]

theorem requests_eq_zero_iff {tasks : List ServerTask} :
    requests tasks = 0 ↔ ∀ task ∈ tasks, task.pending = [] := by
  simp only [requests, Multiset.coe_eq_zero, List.flatMap_eq_nil_iff, List.map_eq_nil_iff]

theorem requests_eq_total (tasks : List ServerTask) :
    requests tasks = Weights.total (fun task => requests [task]) tasks := by
  induction tasks with
  | nil => rfl
  | cons task tasks ih => rw [Weights.total_cons, ← ih, ← requests_append, List.singleton_append]

/-- Replacing one task exchanges its requests. -/
theorem requests_set {tasks : List ServerTask} {i : ℕ} {task task' : ServerTask}
    (h : tasks[i]? = some task) :
    requests (tasks.set i task') + requests [task] = requests tasks + requests [task'] := by
  rw [requests_eq_total (tasks.set i task'), requests_eq_total tasks]
  exact Weights.total_set h

@[simp] theorem requests_idle (busy : Bool) : requests [⟨busy, []⟩] = 0 := rfl

@[simp] theorem requests_single (busy : Bool) (op : AsyncOp) :
    requests [⟨busy, [op]⟩] = {op.result.request} := rfl

theorem coe_map_request_append (rs : List Result) (r : Result) :
    (↑((rs ++ [r]).map Result.request) : Multiset Bytes) =
      ↑(rs.map Result.request) + {r.request} := by
  rw [List.map_append, ← Multiset.coe_add]
  rfl

namespace ServerTask

theorem ok_new : ServerTask.new.Ok := ⟨by simp [new], by simp [new]⟩

theorem Ok.idle {task : ServerTask} (h : task.Ok) (hb : ¬ task.m_isBusy = true) :
    task.pending = [] := by
  by_contra hne
  exact hb (h.busy_iff.2 hne)

theorem Ok.sendCommad {task : ServerTask} (h : task.Ok) (hb : ¬ task.m_isBusy = true)
    (command : Count) : (task.sendCommad command).Ok := by
  constructor <;> simp [ServerTask.sendCommad, h.idle hb]

/-- With the invariant, an outstanding operation is the only one. -/
theorem Ok.eq_singleton {task : ServerTask} (h : task.Ok) {k : ℕ} {op : AsyncOp}
    (hop : task.pending[k]? = some op) : task = ⟨true, [op]⟩ ∧ k = 0 := by
  obtain ⟨busy, pending⟩ := task
  have hk : k < pending.length := (List.getElem?_eq_some_iff.1 hop).1
  have hk0 : k = 0 := by
    have := h.single
    simp only at this
    omega
  subst hk0
  match pending, h, hop with
  | [op'], h, hop =>
    simp only [List.getElem?_cons_zero, Option.some.injEq] at hop
    have hbusy : busy = true := h.busy_iff.2 (by simp)
    simp [hop, hbusy]
  | _ :: _ :: _, h, _ =>
    have := h.single
    simp at this

end ServerTask

/-! ## The dispatch loop -/

namespace Server

theorem dispatch_ok (g : CommandGenerator) (tasks : List ServerTask) (h : ∀ t ∈ tasks, t.Ok) :
    ∀ t ∈ (dispatch g tasks).1, t.Ok := by
  induction tasks generalizing g with
  | nil => simp [dispatch]
  | cons task tasks ih =>
    have hrest : ∀ t ∈ tasks, t.Ok := fun t ht => h t (by simp [ht])
    have htask : task.Ok := h task (by simp)
    rw [dispatch]
    split_ifs with hb
    · simpa using ⟨htask, ih g hrest⟩
    · rcases hnext : g.nextCommand with ⟨_ | command, g'⟩
      · simpa using ⟨htask, ih g' hrest⟩
      · simpa using ⟨htask.sendCommad hb command, ih g' hrest⟩

/-- The loop adds to the outstanding requests those of the commands it hands out. -/
theorem dispatch_requests (g : CommandGenerator) (tasks : List ServerTask)
    (h : ∀ t ∈ tasks, t.Ok) :
    requests (dispatch g tasks).1 =
      requests tasks + ↑((dispatch g tasks).2.2.map Count.message) := by
  induction tasks generalizing g with
  | nil => simp [dispatch, requests]
  | cons task tasks ih =>
    have hrest : ∀ t ∈ tasks, t.Ok := fun t ht => h t (by simp [ht])
    have htask : task.Ok := h task (by simp)
    rw [dispatch]
    split_ifs with hb
    · simp only [requests_cons, ih g hrest, add_assoc]
    · rcases hnext : g.nextCommand with ⟨_ | command, g'⟩
      · simp only [requests_cons, ih g' hrest, add_assoc]
      · have hidle := htask.idle hb
        simp only [requests_cons, ih g' hrest, ServerTask.sendCommad, hidle, List.map_nil,
          List.nil_append, List.map_cons, AsyncOp.result, Multiset.coe_nil, zero_add,
          ← Multiset.cons_coe, ← Multiset.singleton_add]
        rw [add_left_comm]
        rfl

/-- The loop hands out the next commands of the generator, in order. -/
theorem dispatch_commands (g : CommandGenerator) (tasks : List ServerTask) :
    (dispatch g tasks).2.2 ++ (dispatch g tasks).2.1.commands = g.commands := by
  induction tasks generalizing g with
  | nil => rfl
  | cons task tasks ih =>
    rw [dispatch]
    split_ifs with hb
    · exact ih g
    · have hcommands := g.commands_eq
      rcases hnext : g.nextCommand with ⟨_ | command, g'⟩
      · rw [hnext] at hcommands
        simpa using (ih g').trans hcommands.symm
      · rw [hnext] at hcommands
        simpa [ih g'] using hcommands.symm

/-- Only a `SendCommands` closure takes commands. -/
theorem step_generator {s s' : Server} {e : Event} (he : e ≠ .sendCommands)
    (hstep : step s e = some s') :
    s'.commandGenerator = s.commandGenerator ∧ s'.taken = s.taken := by
  cases e with
  | run => cases hstep; exact ⟨rfl, rfl⟩
  | accept error =>
    simp only [step] at hstep
    split_ifs at hstep
    cases hstep
    unfold handleAccept
    split_ifs <;> exact ⟨rfl, rfl⟩
  | sendCommands => exact absurd rfl he
  | write i k error =>
    simp only [step] at hstep
    split at hstep <;> cases hstep
    exact ⟨rfl, rfl⟩
  | read i k received =>
    simp only [step] at hstep
    split at hstep
    · split_ifs at hstep
      cases hstep
      exact ⟨rfl, rfl⟩
    · cases hstep
      exact ⟨rfl, rfl⟩
    · cases hstep
  | stop => cases hstep; exact ⟨rfl, rfl⟩

/-! ## The invariant -/

/-- Every command handed out is accounted for. -/
structure Accounted (s : Server) : Prop where
  tasks : ∀ t ∈ s.m_taskPull, t.Ok
  commands : (↑(s.taken.map Count.message) : Multiset Bytes) =
    ↑(s.m_collection.map Result.request) + requests s.m_taskPull + ↑(s.lost.map Result.request)

/-- An operation that completes belongs to a task whose only operation it is. -/
theorem takeOp_eq {s : Server} (h : ∀ t ∈ s.m_taskPull, t.Ok) {i k : ℕ} {task : ServerTask}
    {op : AsyncOp} (hop : s.takeOp i k = some (task, op)) :
    task = ⟨true, []⟩ ∧ k = 0 ∧ s.m_taskPull[i]? = some ⟨true, [op]⟩ := by
  simp only [takeOp, Option.bind_eq_some_iff, Option.map_eq_some_iff, Prod.mk.injEq] at hop
  obtain ⟨task₀, htask₀, op', hop', rfl, rfl⟩ := hop
  obtain ⟨rfl, rfl⟩ := (h _ (List.mem_of_getElem? htask₀)).eq_singleton hop'
  exact ⟨rfl, rfl, htask₀⟩

/-- Replacing one task keeps the invariant when its requests go over to the results or to the
errors. -/
theorem Accounted.replace {s s' : Server} (h : s.Accounted) {i : ℕ} {task task' : ServerTask}
    (hs : s.m_taskPull[i]? = some task) (hs' : s'.m_taskPull = s.m_taskPull.set i task')
    (htask' : task'.Ok) (htaken : s'.taken = s.taken)
    (hmoved : (↑(s'.m_collection.map Result.request) : Multiset Bytes) + requests [task'] +
        ↑(s'.lost.map Result.request) =
      ↑(s.m_collection.map Result.request) + requests [task] + ↑(s.lost.map Result.request)) :
    s'.Accounted := by
  constructor
  · intro t ht
    rw [hs'] at ht
    rcases List.mem_or_eq_of_mem_set ht with ht | rfl
    · exact h.tasks t ht
    · exact htask'
  · refine add_right_cancel (b := requests [task]) ?_
    have hbefore : (↑(s.taken.map Count.message) : Multiset Bytes) + requests [task] =
        (↑(s.m_collection.map Result.request) + requests [task] + ↑(s.lost.map Result.request)) +
          requests s.m_taskPull := by
      rw [h.commands]
      abel
    have hafter : (↑(s'.m_collection.map Result.request) : Multiset Bytes) +
        requests s'.m_taskPull + ↑(s'.lost.map Result.request) + requests [task] =
        (↑(s'.m_collection.map Result.request) + requests [task'] +
          ↑(s'.lost.map Result.request)) + requests s.m_taskPull := by
      rw [hs', add_right_comm, add_assoc _ (requests (s.m_taskPull.set i task')), requests_set hs]
      abel
    rw [htaken, hbefore, hafter, hmoved]

theorem accounted_new (g : CommandGenerator) : (new g).Accounted :=
  ⟨by simp [new], by simp [new, requests]⟩

theorem Accounted.sendCommands {s : Server} (h : s.Accounted) : s.sendCommands.Accounted := by
  constructor
  · exact dispatch_ok _ _ h.tasks
  · simp only [Server.sendCommands, List.map_append, ← Multiset.coe_add, h.commands,
      dispatch_requests _ _ h.tasks]
    abel

theorem Accounted.accept {s : Server} (h : s.Accounted) (error : Bool) :
    (handleAccept { s with accepting := s.accepting - 1 } error).Accounted := by
  unfold handleAccept
  split_ifs
  · exact ⟨h.tasks, h.commands⟩
  · exact ⟨h.tasks, h.commands⟩
  · constructor
    · intro t ht
      rcases List.mem_append.1 ht with ht | ht
      · exact h.tasks t ht
      · rw [List.mem_singleton.1 ht]
        exact ServerTask.ok_new
    · simpa [requests_append, requests_cons, requests_nil, ServerTask.new] using h.commands

theorem ok_handleWrite (result : Result) (error : Bool) :
    (ServerTask.handleWrite ⟨true, []⟩ result error).Ok := by
  cases error <;> constructor <;> simp [ServerTask.handleWrite]

theorem ok_handleRead (result : Result) (buffer : Bytes) (error : Bool) :
    (ServerTask.handleRead ⟨true, []⟩ result buffer error).1.Ok := by
  cases error <;> constructor <;> simp [ServerTask.handleRead]

/-- A completed write turns into a read with the same request, or into an error. -/
theorem Accounted.write {s s' : Server} {i k : ℕ} {error : Bool} (h : s.Accounted)
    (hstep : step s (.write i k error) = some s') : s'.Accounted := by
  simp only [Server.step] at hstep
  split at hstep
  case h_2 => cases hstep
  case h_1 task result buffer hop =>
    obtain ⟨rfl, rfl, htask⟩ := takeOp_eq h.tasks hop
    cases hstep
    refine h.replace htask rfl (ok_handleWrite result error) rfl ?_
    cases error with
    | false => simp [ServerTask.handleWrite, AsyncOp.result]
    | true =>
      simp only [ServerTask.handleWrite, if_true, requests_idle, requests_single, AsyncOp.result,
        coe_map_request_append]
      abel

/-- A completed read turns into a result, or into an error. -/
theorem Accounted.read {s s' : Server} {i k : ℕ} {received : Option Bytes} (h : s.Accounted)
    (hstep : step s (.read i k received) = some s') : s'.Accounted := by
  simp only [Server.step] at hstep
  split at hstep
  case h_3 => cases hstep
  case h_1 task result buffer bs hop =>
    obtain ⟨rfl, rfl, htask⟩ := takeOp_eq h.tasks hop
    split_ifs at hstep
    cases hstep
    refine h.replace htask rfl (ok_handleRead result (buffer.store bs) false) rfl ?_
    simp only [ServerTask.handleRead, Bool.false_eq_true, if_false, Option.toList_some,
      coe_map_request_append, requests_idle, requests_single, AsyncOp.result]
    abel
  case h_2 task result buffer hop =>
    obtain ⟨rfl, rfl, htask⟩ := takeOp_eq h.tasks hop
    cases hstep
    refine h.replace htask rfl (ok_handleRead result buffer true) rfl ?_
    simp only [ServerTask.handleRead, if_true, Option.toList_none, List.append_nil,
      coe_map_request_append, requests_idle, requests_single, AsyncOp.result]
    abel

theorem Accounted.step {s s' : Server} {e : Event} (h : s.Accounted) (hstep : step s e = some s') :
    s'.Accounted := by
  cases e with
  | run =>
    cases hstep
    exact ⟨h.tasks, h.commands⟩
  | accept error =>
    simp only [Server.step] at hstep
    split_ifs at hstep
    cases hstep
    exact h.accept error
  | sendCommands =>
    cases hstep
    exact h.sendCommands
  | write i k error => exact h.write hstep
  | read i k received => exact h.read hstep
  | stop =>
    cases hstep
    exact ⟨h.tasks, h.commands⟩

/-- Every reachable state is accounted for. -/
theorem Reachable.accounted {g : CommandGenerator} {s : Server} (h : Reachable g s) :
    s.Accounted :=
  Machine.Reachable.invariant Accounted (accounted_new g) (fun _ _ _ => Accounted.step) h

theorem commands_step {s s' : Server} {e : Event} (hstep : step s e = some s') :
    s'.taken ++ s'.commandGenerator.commands = s.taken ++ s.commandGenerator.commands := by
  by_cases he : e = .sendCommands
  · subst he
    cases hstep
    simp only [Server.sendCommands, List.append_assoc, dispatch_commands]
  · obtain ⟨hgenerator, htaken⟩ := step_generator he hstep
    rw [hgenerator, htaken]

/-- The commands handed out and those still to come are those of the generator, in order. -/
theorem Reachable.commands {g : CommandGenerator} {s : Server} (h : Reachable g s) :
    s.taken ++ s.commandGenerator.commands = g.commands :=
  Machine.Reachable.invariant (fun s => s.taken ++ s.commandGenerator.commands = g.commands) rfl
    (fun _ _ _ hs hstep => (commands_step hstep).trans hs) h

/-- The number of requests outstanding is the number of tasks with an outstanding operation. -/
theorem card_requests (tasks : List ServerTask) (h : ∀ t ∈ tasks, t.Ok) :
    (requests tasks).card = tasks.countP fun task => task.pending ≠ [] := by
  induction tasks with
  | nil => rfl
  | cons task tasks ih =>
    have hsingle := (h task (by simp)).single
    rw [requests_cons, Multiset.card_add, ih fun t ht => h t (by simp [ht]), List.countP_cons,
      Multiset.coe_card, List.length_map, Nat.add_comm]
    by_cases hp : task.pending = []
    · simp [hp]
    · have := List.length_pos_iff.2 hp
      simp only [hp, ne_eq, not_false_eq_true, decide_true, if_true]
      omega

/-- In every reachable state, errors included: a task is busy exactly while it has an outstanding
operation and has at most one, and the commands handed out are the results, the tasks with an
outstanding operation and the errors. -/
theorem commands_accounted {g : CommandGenerator} {s : Server} (h : Reachable g s) :
    (∀ task ∈ s.m_taskPull, task.pending.length ≤ 1 ∧
      (task.m_isBusy = true ↔ task.pending ≠ [])) ∧
    s.taken.length = s.m_collection.length +
      (s.m_taskPull.countP fun task => task.pending ≠ []) + s.lost.length := by
  have hacc := h.accounted
  refine ⟨fun task htask => ⟨(hacc.tasks task htask).single, (hacc.tasks task htask).busy_iff⟩, ?_⟩
  have hcard := congrArg Multiset.card hacc.commands
  simpa [card_requests _ hacc.tasks] using hcard

/-- One connection, whose first write failed and that was given another command. -/
def afterFailedWrite : Server where
  m_stopLoop := false
  accepting := 1
  m_taskPull := [⟨true, [.write ⟨Count.message ⟨7⟩, []⟩ (Count.message ⟨7⟩)]⟩]
  commandGenerator := ⟨0, fun _ => 7⟩
  m_collection := []
  taken := [⟨7⟩, ⟨7⟩]
  lost := [⟨Count.message ⟨7⟩, []⟩]

theorem reachable_afterFailedWrite : Reachable ⟨2, fun _ => 7⟩ afterFailedWrite :=
  ⟨[.run, .accept false, .sendCommands, .write 0 0 true, .sendCommands], rfl⟩

theorem commands_accounted_afterFailedWrite :
    afterFailedWrite.taken.length = afterFailedWrite.m_collection.length +
      (afterFailedWrite.m_taskPull.countP fun task => task.pending ≠ []) +
        afterFailedWrite.lost.length :=
  (commands_accounted reachable_afterFailedWrite).2

end Server

end CsBoost

end NitroCloud
