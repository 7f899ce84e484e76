import NitroCloud.CsBoost.Accounting
import NitroCloud.CsBoost.MainTest

/-!
# What the dump of the test server contains

The accounting of the dispatcher carries over to `ServerMainTest` through `view`, which sees the
held results as collected and the held command as lost.  The loop of the main thread ends when the
generator has handed out everything, which says nothing about the responses: the dump is complete
exactly when nothing is outstanding or held.
-/

namespace NitroCloud.CsBoost

open Bytes

namespace MainTest

/-! ## Accounting -/

/-- The server as the dispatcher's accounting sees it. -/
def view (s : MainTest) : Server :=
  { s.server with
    m_collection := s.server.m_collection ++ s.adding
    lost := s.held.toList.map fun command => ⟨command.message, []⟩ }

/-- The invariant of the test server: every command is accounted for, and the task for which the
closure holds a command is still idle. -/
structure Accounted (s : MainTest) : Prop where
  view : s.view.Accounted
  idle : ∀ i command, s.closure = some ⟨i, some command⟩ →
    ∃ task, s.server.m_taskPull[i]? = some task ∧ task.m_isBusy = false

theorem accounted_new (g : CommandGenerator) : (new g).Accounted :=
  ⟨Server.accounted_new g, by simp [new]⟩

theorem Accounted.main {s s' : MainTest} (h : s.Accounted) (hstep : s.mainStep = some s') :
    s'.Accounted := by
  unfold mainStep at hstep
  split at hstep
  all_goals cases hstep
  all_goals exact ⟨⟨h.view.tasks, h.view.commands⟩, h.idle⟩

/-- A closure that goes on, or ends, with no command in hand and the tasks untouched. -/
theorem Accounted.skip {s : MainTest} (h : s.Accounted) {i : ℕ} (hc : s.closure = some ⟨i, none⟩)
    (g : CommandGenerator) {closure : Option Closure}
    (hclosure : closure.bind Closure.command = none) :
    Accounted { s with server := { s.server with commandGenerator := g }, closure := closure } := by
  have hheld : s.held = none := by simp [held, hc]
  refine ⟨⟨h.view.tasks, ?_⟩, ?_⟩
  · have hcommands := h.view.commands
    simp only [MainTest.view, hheld] at hcommands
    simp only [MainTest.view, held, hclosure]
    exact hcommands
  · intro j command hj
    cases hj
    cases hclosure

/-- `NextCommand` hands out a command, which the closure now holds. -/
theorem Accounted.next {s : MainTest} (h : s.Accounted) {i : ℕ} (hc : s.closure = some ⟨i, none⟩)
    {task : ServerTask} (htask : s.server.m_taskPull[i]? = some task)
    (hidle : task.m_isBusy = false) (g : CommandGenerator) (command : Count) :
    Accounted { s with
      server := { s.server with commandGenerator := g, taken := s.server.taken ++ [command] }
      closure := some ⟨i, some command⟩ } := by
  have hheld : s.held = none := by simp [held, hc]
  refine ⟨⟨h.view.tasks, ?_⟩, ?_⟩
  · have hcommands := h.view.commands
    simp only [MainTest.view, hheld, Option.toList_none, List.map_nil, Multiset.coe_nil,
      add_zero] at hcommands
    simp only [MainTest.view, held, Option.bind_some, Option.toList_some, List.map_append,
      List.map_cons, List.map_nil, ← Multiset.coe_add, hcommands]
  · intro j command' hj
    simp only [Option.some.injEq, Closure.mk.injEq] at hj
    exact ⟨task, hj.1 ▸ htask, hidle⟩

/-- `SendCommad` of the held command. -/
theorem Accounted.send {s : MainTest} (h : s.Accounted) {i : ℕ} {command : Count}
    (hc : s.closure = some ⟨i, some command⟩) {task : ServerTask}
    (htask : s.server.m_taskPull[i]? = some task) :
    Accounted { s with
      server := { s.server with
        m_taskPull := s.server.m_taskPull.set i (task.sendCommad command) }
      closure := some ⟨i + 1, none⟩ } := by
  obtain ⟨task', htask', hbusy⟩ := h.idle i command hc
  obtain rfl : task = task' := Option.some.inj (htask.symm.trans htask')
  have hok : task.Ok := h.view.tasks task (List.mem_of_getElem? htask)
  have hnot : ¬ task.m_isBusy = true := by simp [hbusy]
  have hidle : task = ⟨false, []⟩ := by
    rw [← hbusy, ← hok.idle hnot]
  refine ⟨h.view.replace htask rfl (hok.sendCommad hnot command) rfl ?_, by simp⟩
  subst hidle
  simp [MainTest.view, held, hc, ServerTask.sendCommad, AsyncOp.result]

/-- The closure takes its next step. -/
theorem Accounted.closure {s : MainTest} (h : s.Accounted) {closure : Closure}
    (hc : s.closure = some closure) :
    Accounted { s with
      server := (closureStep s.server closure).1
      closure := (closureStep s.server closure).2 } := by
  obtain ⟨i, command⟩ := closure
  rcases command with _ | command
  · rcases htask : s.server.m_taskPull[i]? with _ | task
    · simpa [closureStep, htask] using h.skip hc s.server.commandGenerator rfl
    · rcases hbusy : task.m_isBusy with _ | _
      · rcases hnext : s.server.commandGenerator.nextCommand with ⟨_ | command, g⟩
        · simpa [closureStep, htask, hbusy, hnext] using h.skip hc g rfl
        · simpa [closureStep, htask, hbusy, hnext] using h.next hc htask hbusy g command
      · simpa [closureStep, htask, hbusy] using h.skip hc s.server.commandGenerator rfl
  · obtain ⟨task, htask, -⟩ := h.idle i command hc
    simpa [closureStep, htask] using h.send hc htask

/-- A step of the server that is a step of the view keeps the invariant when it leaves alone the
task for which the closure holds a command. -/
theorem Accounted.server {s s' : MainTest} (h : s.Accounted) {e : Server.Event}
    (hview : s.view.step e = some s'.view) (hclosure : s'.closure = s.closure)
    (hidle : ∀ (i : ℕ) (task : ServerTask), s.server.m_taskPull[i]? = some task →
      task.m_isBusy = false → s'.server.m_taskPull[i]? = some task) : s'.Accounted := by
  refine ⟨h.view.step hview, ?_⟩
  intro i command hc
  obtain ⟨task, htask, hbusy⟩ := h.idle i command (hclosure ▸ hc)
  exact ⟨task, hidle i task htask hbusy, hbusy⟩

/-- A completion changes no idle task. -/
theorem getElem?_set_of_takeOp {server : Server} (h : ∀ t ∈ server.m_taskPull, t.Ok) {i k j : ℕ}
    {task : ServerTask} {op : AsyncOp} (hop : server.takeOp i k = some (task, op)) (t : ServerTask)
    {idle : ServerTask} (hj : server.m_taskPull[j]? = some idle) (hidle : idle.m_isBusy = false) :
    (server.m_taskPull.set i t)[j]? = some idle := by
  obtain ⟨-, -, htask⟩ := Server.takeOp_eq h hop
  have hne : i ≠ j := by
    rintro rfl
    rw [htask, Option.some.injEq] at hj
    simp [← hj] at hidle
  rw [List.getElem?_set_ne hne, hj]

theorem Accounted.read {s s' : MainTest} {i k : ℕ} {received : Bytes} (h : s.Accounted)
    (hstep : step s (.read i k received) = some s') : s'.Accounted := by
  simp only [MainTest.step] at hstep
  split at hstep
  case h_2 => cases hstep
  case h_1 task result buffer hop =>
    split_ifs at hstep with hlength
    cases hstep
    have hop' : s.view.takeOp i k = some (task, .read result buffer) := hop
    refine h.server (e := .read i k (some received)) ?_ rfl fun j idle hj hidle =>
      getElem?_set_of_takeOp h.view.tasks hop _ hj hidle
    simp only [Server.step, hop', hlength, if_true]
    simp [MainTest.view, held, ServerTask.handleRead]

theorem Accounted.write {s s' : MainTest} {i k : ℕ} (h : s.Accounted)
    (hstep : step s (.write i k) = some s') : s'.Accounted := by
  simp only [MainTest.step, Server.step] at hstep
  split at hstep
  case h_2 => cases hstep
  case h_1 task result buffer hop =>
    cases hstep
    have hop' : s.view.takeOp i k = some (task, .write result buffer) := hop
    refine h.server (e := .write i k false) ?_ rfl fun j idle hj hidle =>
      getElem?_set_of_takeOp h.view.tasks hop _ hj hidle
    simp only [Server.step, hop']
    rfl

/-- `AddResult` moves a held result into the collection. -/
theorem Accounted.addResult {s : MainTest} (h : s.Accounted) {k : ℕ} {result : Result}
    (hk : s.adding[k]? = some result) :
    Accounted { s with
      server := { s.server with m_collection := s.server.m_collection ++ [result] }
      adding := s.adding.eraseIdx k } := by
  obtain ⟨hlt, rfl⟩ := List.getElem?_eq_some_iff.1 hk
  have hperm : (s.server.m_collection ++ [s.adding[k]] ++ s.adding.eraseIdx k).Perm
      (s.server.m_collection ++ s.adding) := by
    rw [List.append_assoc, List.singleton_append]
    exact (List.getElem_cons_eraseIdx_perm hlt).append_left _
  have hcoe : (↑((s.server.m_collection ++ [s.adding[k]] ++ s.adding.eraseIdx k).map
      Result.request) : Multiset Bytes) = ↑(s.view.m_collection.map Result.request) :=
    Multiset.coe_eq_coe.2 (hperm.map _)
  refine ⟨⟨h.view.tasks, ?_⟩, h.idle⟩
  have hcommands := h.view.commands
  rw [← hcoe] at hcommands
  exact hcommands

theorem Accounted.step {s s' : MainTest} {e : Event} (h : s.Accounted)
    (hstep : step s e = some s') : s'.Accounted := by
  cases e with
  | main => exact h.main hstep
  | start =>
    simp only [MainTest.step] at hstep
    split_ifs at hstep with hposted
    cases hstep
    have hc : s.closure = none := by simpa using (not_or.1 hposted).2
    refine ⟨⟨h.view.tasks, ?_⟩, by simp⟩
    simpa [MainTest.view, held, hc] using h.view.commands
  | closure =>
    simp only [MainTest.step, Option.map_eq_some_iff] at hstep
    obtain ⟨closure, hc, rfl⟩ := hstep
    exact h.closure hc
  | run =>
    cases hstep
    exact ⟨⟨h.view.tasks, h.view.commands⟩, h.idle⟩
  | accept =>
    simp only [MainTest.step] at hstep
    split_ifs at hstep with hc
    rw [Option.map_eq_some_iff] at hstep
    obtain ⟨server, hserver, rfl⟩ := hstep
    simp only [Server.step] at hserver
    split_ifs at hserver
    cases hserver
    refine ⟨?_, by simp [Option.not_isSome_iff_eq_none.1 hc]⟩
    have haccept := h.view.accept false
    rcases hstop : s.server.m_stopLoop with _ | _
    · simpa [Server.handleAccept, MainTest.view, hstop, held] using haccept
    · simpa [Server.handleAccept, MainTest.view, hstop, held] using haccept
  | write i k => exact h.write hstep
  | read i k received => exact h.read hstep
  | addResult k =>
    simp only [MainTest.step, Option.map_eq_some_iff] at hstep
    obtain ⟨result, hk, rfl⟩ := hstep
    exact h.addResult hk

theorem Reachable.accounted {g : CommandGenerator} {s : MainTest} (h : Reachable g s) :
    s.Accounted :=
  Machine.Reachable.invariant Accounted (accounted_new g) (fun _ _ _ => Accounted.step) h

/-! ## When the dump is complete -/

/-- The commands handed out and those still to come are the generator's, and the main thread leaves
the loop only when none is to come. -/
structure Handed (g : CommandGenerator) (s : MainTest) : Prop where
  commands : s.server.taken ++ s.server.commandGenerator.commands = g.commands
  exhausted : s.main = .dump ∨ s.main = .dumped → s.server.commandGenerator.hasCommands = false

theorem handed_new (g : CommandGenerator) : Handed g (new g) :=
  ⟨by simp [new, Server.new], by simp [new]⟩

/-- A step that takes no command and does not move the main thread. -/
theorem Handed.frame {g : CommandGenerator} {s s' : MainTest} (h : Handed g s)
    (hmain : s'.main = s.main)
    (hserver : s'.server.commandGenerator = s.server.commandGenerator ∧
      s'.server.taken = s.server.taken) : Handed g s' :=
  ⟨by rw [hserver.1, hserver.2, h.commands], by rw [hserver.1, hmain]; exact h.exhausted⟩

theorem Handed.main {g : CommandGenerator} {s s' : MainTest} (h : Handed g s)
    (hstep : s.mainStep = some s') : Handed g s' := by
  unfold mainStep at hstep
  split at hstep
  case h_1 =>
    cases hstep
    refine ⟨h.commands, ?_⟩
    rcases hhas : s.server.commandGenerator.hasCommands <;> simp
  case h_2 =>
    cases hstep
    exact ⟨h.commands, by simp⟩
  case h_3 hmain =>
    cases hstep
    exact ⟨h.commands, fun _ => h.exhausted (.inl hmain)⟩
  case h_4 => cases hstep

theorem Handed.closure {g : CommandGenerator} {s : MainTest} (h : Handed g s) (closure : Closure) :
    Handed g { s with
      server := (closureStep s.server closure).1
      closure := (closureStep s.server closure).2 } := by
  unfold closureStep
  split
  · exact h.frame rfl ⟨rfl, rfl⟩
  · exact h.frame rfl ⟨rfl, rfl⟩
  · split_ifs
    · exact h.frame rfl ⟨rfl, rfl⟩
    · -- after the loop has ended no command is left to take
      have hstays (hmain : s.main = .dump ∨ s.main = .dumped) :=
        (CommandGenerator.exhausted (h.exhausted hmain)).1
      have hcommands := h.commands
      rw [s.server.commandGenerator.commands_eq] at hcommands
      rcases hnext : s.server.commandGenerator.nextCommand with ⟨_ | command, g'⟩
      · rw [hnext] at hcommands hstays
        refine ⟨hcommands, fun hmain => ?_⟩
        have hg' : g' = s.server.commandGenerator := (Prod.mk.inj (hstays hmain)).2
        exact hg' ▸ h.exhausted hmain
      · rw [hnext] at hcommands hstays
        refine ⟨by simpa using hcommands, fun hmain => ?_⟩
        exact absurd (hstays hmain) (by simp)

theorem Handed.step {g : CommandGenerator} {s s' : MainTest} {e : Event} (h : Handed g s)
    (hstep : step s e = some s') : Handed g s' := by
  cases e with
  | main => exact h.main hstep
  | start =>
    simp only [MainTest.step] at hstep
    split_ifs at hstep
    cases hstep
    exact h.frame rfl ⟨rfl, rfl⟩
  | closure =>
    simp only [MainTest.step, Option.map_eq_some_iff] at hstep
    obtain ⟨closure, -, rfl⟩ := hstep
    exact h.closure closure
  | run =>
    simp only [MainTest.step, Option.map_eq_some_iff] at hstep
    obtain ⟨server, hserver, rfl⟩ := hstep
    exact h.frame rfl (Server.step_generator (by simp) hserver)
  | accept =>
    simp only [MainTest.step] at hstep
    split_ifs at hstep
    rw [Option.map_eq_some_iff] at hstep
    obtain ⟨server, hserver, rfl⟩ := hstep
    exact h.frame rfl (Server.step_generator (by simp) hserver)
  | write i k =>
    simp only [MainTest.step, Option.map_eq_some_iff] at hstep
    obtain ⟨server, hserver, rfl⟩ := hstep
    exact h.frame rfl (Server.step_generator (by simp) hserver)
  | read i k received =>
    simp only [MainTest.step] at hstep
    split at hstep
    · split_ifs at hstep
      cases hstep
      exact h.frame rfl ⟨rfl, rfl⟩
    · cases hstep
  | addResult k =>
    simp only [MainTest.step, Option.map_eq_some_iff] at hstep
    obtain ⟨result, -, rfl⟩ := hstep
    exact h.frame rfl ⟨rfl, rfl⟩

theorem Reachable.handed {g : CommandGenerator} {s : MainTest} (h : Reachable g s) : Handed g s :=
  Machine.Reachable.invariant (Handed g) (handed_new g) (fun _ _ _ => Handed.step) h

/-- The collection holds exactly one result for each command handed out. -/
def Complete (s : MainTest) : Prop :=
  (↑(s.server.m_collection.map Result.request) : Multiset Bytes) =
    ↑(s.server.taken.map Count.message)

/-- Whenever `Dump` is about to run, all commands of the generator have been handed out, and the
collection is complete exactly when no task is busy, no closure holds a command it took, and no
`HandleRead` holds a result that it has still to add. -/
theorem complete_dump_iff {g : CommandGenerator} {s : MainTest} (h : Reachable g s)
    (hmain : s.main = .dump) :
    s.server.taken = g.commands ∧
      (s.Complete ↔ (∀ task ∈ s.server.m_taskPull, task.m_isBusy = false) ∧ s.held = none ∧
        s.adding = []) := by
  have hacc := h.accounted.view
  constructor
  · have hhanded := h.handed
    have hcommands := hhanded.commands
    rw [(CommandGenerator.exhausted (hhanded.exhausted (.inl hmain))).2, List.append_nil]
      at hcommands
    exact hcommands
  · have hcommands := hacc.commands
    simp only [view, List.map_append, ← Multiset.coe_add, add_assoc] at hcommands
    have hidle : requests s.server.m_taskPull = 0 ↔
        ∀ task ∈ s.server.m_taskPull, task.m_isBusy = false := by
      refine requests_eq_zero_iff.trans (forall₂_congr fun task htask => ?_)
      rw [← not_iff_not, Bool.not_eq_false]
      exact (hacc.tasks task htask).busy_iff.symm
    rw [Complete, hcommands, left_eq_add, ← hidle]
    simp only [requests, Multiset.coe_add, Multiset.coe_eq_zero, List.append_eq_nil_iff,
      List.map_eq_nil_iff, Option.toList_eq_nil_iff]
    tauto

/-- The loop has ended and the only command, for the given tasks, has the given results. -/
def atDump (task : ServerTask) (m_collection : List Result) : MainTest where
  server :=
    { m_stopLoop := false
      accepting := 1
      m_taskPull := [task]
      commandGenerator := ⟨0, fun _ => 7⟩
      m_collection := m_collection
      taken := [⟨7⟩]
      lost := [] }
  posted := 0
  closure := none
  adding := []
  main := .dump
  file := []

/-- The command is with the client. -/
def dumpBeforeResponse : MainTest :=
  atDump ⟨true, [.write ⟨Count.message ⟨7⟩, []⟩ (Count.message ⟨7⟩)]⟩ []

/-- The client has answered `3`. -/
def dumpAfterResponse : MainTest :=
  atDump ⟨false, []⟩ [⟨Count.message ⟨7⟩, ascii "3"⟩]

theorem reachable_dumpBeforeResponse : Reachable ⟨1, fun _ => 7⟩ dumpBeforeResponse :=
  ⟨[.run, .accept, .main, .main, .start, .closure, .closure, .closure, .main], rfl⟩

theorem reachable_dumpAfterResponse : Reachable ⟨1, fun _ => 7⟩ dumpAfterResponse := by
  have hwrite : Reachable ⟨1, fun _ => 7⟩
      (atDump ⟨true, [.read ⟨Count.message ⟨7⟩, []⟩ (List.replicate MESSAGE_SIZE 0)]⟩ []) :=
    reachable_dumpBeforeResponse.trans (.single (e := .write 0 0) rfl)
  have hresponse : cStr (store (List.replicate MESSAGE_SIZE 0) (ascii "3")) = ascii "3" :=
    cStr_store_replicate (by decide)
  have hread : step
      (atDump ⟨true, [.read ⟨Count.message ⟨7⟩, []⟩ (List.replicate MESSAGE_SIZE 0)]⟩ [])
      (.read 0 0 (ascii "3")) =
        some { atDump ⟨false, []⟩ [] with adding := [⟨Count.message ⟨7⟩, ascii "3"⟩] } := by
    have hlength : (ascii "3").length ≤ (List.replicate MESSAGE_SIZE (0 : UInt8)).length := by
      rw [List.length_replicate]
      decide
    simp only [step, Server.takeOp, atDump, List.getElem?_cons_zero, Option.bind_some,
      Option.map_some, if_pos hlength, ServerTask.handleRead, hresponse]
    rfl
  exact (hwrite.trans (.single hread)).trans (.single (e := .addResult 0) rfl)

theorem complete_dump_iff_dumpAfterResponse : dumpAfterResponse.Complete :=
  (complete_dump_iff reachable_dumpAfterResponse rfl).2.2
    ⟨by simp [dumpAfterResponse, atDump], rfl, rfl⟩

/-- `Dump` can run before the last response has come. -/
theorem not_complete_dump :
    ¬ ∀ (g : CommandGenerator) (s : MainTest), Reachable g s → s.main = .dump → s.Complete := by
  intro h
  have hcomplete := h _ _ reachable_dumpBeforeResponse rfl
  have hcard := congrArg Multiset.card hcomplete
  simp [dumpBeforeResponse, atDump] at hcard

end MainTest

end NitroCloud.CsBoost
