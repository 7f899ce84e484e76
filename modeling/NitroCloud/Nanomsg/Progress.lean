import NitroCloud.Nanomsg.Accounting

/-!
# How the pair socket server comes to rest

Every step of the system moves a command or a response on, so the system comes to rest.  With
unbounded channels it rests when the server has returned.
-/

namespace NitroCloud.Nanomsg

open Bytes Stream

theorem ClientPhase.held_le_one (phase : ClientPhase) : phase.held ≤ 1 := by
  cases phase with
  | receiving => exact Nat.zero_le 1
  | sending => exact le_rfl
  | stopped => exact Nat.zero_le 1

/-! ## Termination -/

/-- The steps that the messages of an item have still to take. -/
def ServerItem.steps (item : ServerItem) : ℕ :=
  3 * item.down.queue.length + 2 * item.client.phase.held + item.up.queue.length

/-- The steps that the server has still to take in its phase. -/
def Phase.steps : Phase → ℕ
  | .sendNext => 1
  | .sending _ => 5
  | .receiving _ _ => 0
  | .returned => 0

@[simp] theorem Phase.steps_afterItem (kept todo : List (Fin processCount)) :
    (Phase.afterItem kept todo).steps = 0 := by
  unfold Phase.afterItem
  split <;> rfl

namespace System

/-- A measure that every step lowers. -/
def steps (s : System) : ℕ :=
  5 * s.commands.length + s.phase.steps + ∑ i, (s.serverItems i).steps

variable {capacity : Option ℕ} {answers : Answers} {commands : List Base} {s s' : System}

theorem sum_update (items : Fin processCount → ServerItem) (i : Fin processCount)
    (item : ServerItem) :
    ∑ j, (Function.update items i item j).steps + (items i).steps =
      ∑ j, (items j).steps + item.steps := by
  have hsteps : (fun j => (Function.update items i item j).steps) =
      Function.update (fun j => (items j).steps) i item.steps :=
    Function.comp_update ServerItem.steps items i item
  rw [hsteps, Finset.sum_update_of_mem (Finset.mem_univ i), Finset.sdiff_singleton_eq_erase,
    ← Finset.add_sum_erase _ (fun j => (items j).steps) (Finset.mem_univ i)]
  omega

theorem steps_sendCommand {item item' : ServerItem} {buf : Bytes}
    (h : item.sendCommand capacity buf = some item') : item'.steps = item.steps + 3 := by
  obtain ⟨down, hdown, rfl⟩ := Option.map_eq_some_iff.1 h
  obtain ⟨-, hqueue, -, -⟩ := Channel.of_send hdown
  simp only [ServerItem.steps, hqueue, List.length_append, List.length_singleton]
  omega

theorem steps_receiveCommandResponse {item item' : ServerItem} {more : Bool}
    (h : item.receiveCommandResponse = some (more, item')) : item'.steps + 1 = item.steps := by
  obtain ⟨⟨buf, up⟩, hup, heq⟩ := Option.map_eq_some_iff.1 h
  obtain ⟨hqueue, -, -⟩ := Channel.of_recv hup
  cases heq
  simp only [ServerItem.steps, hqueue, List.length_cons]
  omega

theorem steps_clientStep {item item' : ServerItem}
    (h : item.clientStep capacity answers = some item') : item'.steps < item.steps := by
  unfold ServerItem.clientStep at h
  rcases hphase : item.client.phase with _ | runResult | _
  · simp only [hphase] at h
    obtain ⟨⟨buf, down⟩, hdown, rfl⟩ := Option.map_eq_some_iff.1 h
    obtain ⟨hqueue, -, -⟩ := Channel.of_recv hdown
    have hheld := (item.client.received answers buf).phase.held_le_one
    simp only [ServerItem.steps, hqueue, List.length_cons]
    omega
  · simp only [hphase] at h
    obtain ⟨up, hup, rfl⟩ := Option.map_eq_some_iff.1 h
    obtain ⟨-, hqueue, -, -⟩ := Channel.of_send hup
    simp only [ServerItem.steps, hqueue, List.length_append, List.length_singleton, hphase,
      ClientPhase.held, Client.wasSend]
    omega
  · simp [hphase] at h

theorem steps_lt (s : System) (e : Event) (s' : System) (h : step capacity answers s e = some s') :
    s'.steps < s.steps := by
  cases e with
  | client i =>
    obtain ⟨item, hitem, rfl⟩ := Option.map_eq_some_iff.1 h
    have hlt := steps_clientStep hitem
    have hsum := sum_update s.serverItems i item
    simp only [steps]
    omega
  | server =>
    have h : s.serverStep capacity = some s' := h
    unfold serverStep at h
    split at h
    · next hphase =>
      split at h
      · next hcommands =>
        cases h
        simp only [steps, hphase, hcommands, List.length_cons, Phase.steps]
        omega
      · next hcommands =>
        cases h
        simp only [steps, hphase, hcommands, Phase.steps_afterItem]
        simp only [Phase.steps]
        omega
    · next buf hphase =>
      obtain ⟨item, hitem, rfl⟩ := Option.map_eq_some_iff.1 h
      have heq := steps_sendCommand hitem
      have hsum := sum_update s.serverItems s.currentItem item
      simp only [steps, hphase, Phase.steps]
      omega
    · next kept i todo hphase =>
      obtain ⟨⟨more, item⟩, hitem, rfl⟩ := Option.map_eq_some_iff.1 h
      have heq := steps_receiveCommandResponse hitem
      have hsum := sum_update s.serverItems i item
      simp only [steps, hphase, Phase.steps_afterItem]
      simp only [Phase.steps]
      omega
    · cases h
    · cases h

theorem steps_new : (new commands).steps = 5 * commands.length + 1 := by
  have hitem : ServerItem.new.steps = 0 := rfl
  simp [steps, new, Phase.steps, hitem]

end System

/-! ## Where an item rests -/

namespace ServerItem

variable {capacity : Option ℕ} {answers : Answers} {item : ServerItem}

/-- A client that cannot go on has no message to receive, or no room for its response. -/
theorem Ok.of_clientStep_none (hok : item.Ok capacity)
    (h : item.clientStep capacity answers = none) :
    (item.client.phase.held = 0 ∧ item.down.queue = []) ∨
      (item.client.phase.held = 1 ∧ ∃ c, capacity = some c ∧ c ≤ item.up.queue.length) := by
  unfold clientStep at h
  rcases hphase : item.client.phase with _ | runResult | _
  · simp only [hphase] at h
    exact .inl ⟨rfl, Channel.recv_eq_none_iff.1 (Option.map_eq_none_iff.1 h)⟩
  · simp only [hphase] at h
    exact .inr ⟨rfl, Channel.send_eq_none_iff.1 (Option.map_eq_none_iff.1 h)⟩
  · exact absurd hphase hok.running

/-- When the server waits for a response and the client cannot go on, there is none to come. -/
theorem Ok.received_eq (hok : item.Ok capacity) (hcapacity : ∀ c ∈ capacity, 0 < c)
    (hserver : item.receiveCommandResponse = none)
    (hclient : item.clientStep capacity answers = none) :
    item.up.received = item.down.sent := by
  have hup : item.up.queue = [] := Channel.recv_eq_none_iff.1 (Option.map_eq_none_iff.1 hserver)
  have hdownBalance := item.down.balance
  have hupBalance := item.up.balance
  have hflow := hok.flow
  rw [hup, List.length_nil] at hupBalance
  rcases hok.of_clientStep_none hclient with ⟨hheld, hdown⟩ | ⟨-, c, hc, hle⟩
  · rw [hdown, List.length_nil] at hdownBalance
    omega
  · rw [hup, List.length_nil] at hle
    have hpos := hcapacity c hc
    omega

/-- When the server waits to send a command and the client cannot go on, both directions are full
and the client holds a response. -/
theorem Ok.le_sent (hok : item.Ok capacity) (hcapacity : ∀ c ∈ capacity, 0 < c) {buf : Bytes}
    (hserver : item.sendCommand capacity buf = none)
    (hclient : item.clientStep capacity answers = none) :
    ∃ c, capacity = some c ∧ item.up.received + (2 * c + 1) ≤ item.down.sent := by
  obtain ⟨c, hc, hdown⟩ := Channel.send_eq_none_iff.1 (Option.map_eq_none_iff.1 hserver)
  have hpos := hcapacity c hc
  have hdownBalance := item.down.balance
  have hupBalance := item.up.balance
  have hflow := hok.flow
  refine ⟨c, hc, ?_⟩
  rcases hok.of_clientStep_none hclient with ⟨-, hempty⟩ | ⟨hheld, c', hc', hup⟩
  · rw [hempty, List.length_nil] at hdown
    omega
  · have hcc : c = c' := Option.some.inj (hc.symm.trans hc')
    omega

/-- An item holds no more than both directions and the client can. -/
theorem Ok.sent_le {c : ℕ} (hok : item.Ok (some c)) :
    item.down.sent ≤ item.up.received + (2 * c + 1) := by
  have hdownBalance := item.down.balance
  have hupBalance := item.up.balance
  have hflow := hok.flow
  have hdown := hok.down c rfl
  have hup := hok.up c rfl
  have hheld := item.client.phase.held_le_one
  omega

end ServerItem

/-! ## Where the system rests -/

namespace System

variable {capacity : Option ℕ} {answers : Answers} {commands : List Base} {total : ℕ} {s : System}

/-- A system at rest has returned, waits for a response from an item that owes none, or waits for
room in the channel of an item that is full. -/
theorem Ok.of_stuck (hok : s.Ok capacity total) (hcapacity : ∀ c ∈ capacity, 0 < c)
    (hstuck : s.Stuck capacity answers) :
    s.phase = .returned ∨
      (∃ kept i todo, s.phase = .receiving kept (i :: todo) ∧ s.received i = s.sent i) ∨
      ∃ buf c, s.phase = .sending buf ∧ capacity = some c ∧
        s.received s.currentItem + (2 * c + 1) ≤ s.sent s.currentItem := by
  have hclient (i : Fin processCount) : (s.serverItems i).clientStep capacity answers = none :=
    Option.map_eq_none_iff.1 (hstuck (.client i))
  have hserver : s.serverStep capacity = none := hstuck .server
  rcases hphase : s.phase with _ | buf | ⟨kept, todo⟩ | _
  · rcases hcommands : s.commands with _ | ⟨command, commands⟩
    · simp [System.serverStep, hphase, hcommands] at hserver
    · simp [System.serverStep, hphase, hcommands] at hserver
  · simp only [System.serverStep, hphase] at hserver
    obtain ⟨c, hc, hle⟩ := (hok.items s.currentItem).le_sent hcapacity
      (Option.map_eq_none_iff.1 hserver) (hclient s.currentItem)
    exact .inr (.inr ⟨buf, c, rfl, hc, hle⟩)
  · rcases todo with _ | ⟨i, todo⟩
    · have hphaseOk := hok.phase
      rw [hphase] at hphaseOk
      exact absurd rfl hphaseOk.2.2.1
    · simp only [System.serverStep, hphase] at hserver
      refine .inr (.inl ⟨kept, i, todo, rfl, ?_⟩)
      exact (hok.items i).received_eq hcapacity (Option.map_eq_none_iff.1 hserver) (hclient i)
  · exact .inl rfl

/-! ## Unbounded channels -/

/-- The item on which `server()` calls `nn_recv`. -/
def receivingFrom (s : System) : Option (Fin processCount) :=
  match s.phase with
  | .receiving _ todo => todo.head?
  | _ => none

/-- The server is in its second loop, or behind it. -/
def InReceiveLoop (s : System) : Prop :=
  match s.phase with
  | .receiving _ _ => True
  | .returned => True
  | _ => False

/-- The items that the second loop has not erased. -/
def remaining (s : System) : List (Fin processCount) :=
  match s.phase with
  | .receiving kept todo => kept ++ todo
  | .returned => []
  | _ => List.finRange processCount

theorem Ok.received_le_sent (hok : s.Ok capacity total) (i : Fin processCount) :
    s.received i ≤ s.sent i := (hok.items i).received_le

theorem Ok.mem_remaining_iff (hok : s.Ok capacity total) (htotal : 4 ≤ total)
    (hloop : s.InReceiveLoop) (i : Fin processCount) :
    i ∈ s.remaining ↔ s.received i < s.sent i := by
  have hphaseOk := hok.phase
  rcases hphase : s.phase with _ | buf | ⟨kept, todo⟩ | _
  · simp [InReceiveLoop, hphase] at hloop
  · simp [InReceiveLoop, hphase] at hloop
  · rw [hphase] at hphaseOk
    obtain ⟨-, hindex, -, hpass⟩ := hphaseOk
    have hsent : ∀ i, 0 < s.sent i := by
      intro i
      rw [hok.share, hindex]
      exact share_pos htotal i
    simp only [remaining, hphase]
    exact hpass.mem_iff hsent i
  · rw [hphase] at hphaseOk
    obtain ⟨-, -, heq⟩ := hphaseOk
    simp [remaining, hphase, heq i]

/-- The server receives only from an item that awaits a response. -/
theorem Ok.lt_of_receivingFrom (hok : s.Ok capacity total) (htotal : 4 ≤ total)
    {i : Fin processCount} (hi : s.receivingFrom = some i) : s.received i < s.sent i := by
  rcases hphase : s.phase with _ | buf | ⟨kept, todo⟩ | _
  · simp [receivingFrom, hphase] at hi
  · simp [receivingFrom, hphase] at hi
  · simp only [receivingFrom, hphase] at hi
    rw [← hok.mem_remaining_iff htotal (by simp [InReceiveLoop, hphase])]
    simp [remaining, hphase, List.mem_of_mem_head? hi]
  · simp [receivingFrom, hphase] at hi

/-- When the server returns, it has received one response for each command. -/
theorem Ok.sum_received (hok : s.Ok capacity total) (hphase : s.phase = .returned) :
    ∑ i, s.received i = total := by
  have hphaseOk := hok.phase
  rw [hphase] at hphaseOk
  obtain ⟨-, hindex, heq⟩ := hphaseOk
  calc ∑ i, s.received i = ∑ i, Nanomsg.share total i :=
        Finset.sum_congr rfl fun i _ => by rw [heq i, hok.share, hindex]
    _ = total := sum_share total

/-- Unbounded channels come to rest only when the server has returned. -/
theorem Ok.returned_of_stuck (hok : s.Ok none total) (htotal : 4 ≤ total)
    (hstuck : s.Stuck none answers) : s.phase = .returned := by
  rcases hok.of_stuck (by simp) hstuck with hphase | ⟨kept, i, todo, hphase, heq⟩ | h
  · exact hphase
  · have hlt := hok.lt_of_receivingFrom htotal (i := i) (by simp [receivingFrom, hphase])
    omega
  · obtain ⟨_, c, -, hnone, -⟩ := h
    cases hnone

/-- With unbounded channels and at least four commands: the counter of each item is what was sent on
it less what was received from it, the server receives only from items that await a response, its
second loop has erased exactly the items that await none, it has received one response for each
command when it returns, and it does return, since every run is bounded and one that cannot go on
has returned. -/
theorem server_accounting (answers : Answers) (commands : List Base)
    (hcommands : 4 ≤ commands.length) :
    (∀ s, Reachable none answers commands s →
      (∀ i, (s.serverItems i).m_commandsAtPull = s.sent i - s.received i ∧
        0 ≤ (s.serverItems i).m_commandsAtPull) ∧
      (∀ i, s.receivingFrom = some i → 0 < (s.serverItems i).m_commandsAtPull) ∧
      (s.InReceiveLoop → ∀ i, i ∈ s.remaining ↔ s.received i < s.sent i) ∧
      (s.phase = .returned → ∑ i, s.received i = commands.length) ∧
      (s.Stuck none answers → s.phase = .returned)) ∧
    ∀ es s, Machine.run (step none answers) (new commands) es = some s →
      es.length ≤ 5 * commands.length + 1 := by
  constructor
  · intro s hs
    have hok := hs.ok
    have hpull (i : Fin processCount) :
        (s.serverItems i).m_commandsAtPull = s.sent i - s.received i := (hok.items i).pull
    refine ⟨fun i => ⟨hpull i, ?_⟩, fun i hi => ?_, hok.mem_remaining_iff hcommands,
      hok.sum_received, hok.returned_of_stuck hcommands⟩
    · have hle := hok.received_le_sent i
      rw [hpull]
      omega
    · have hlt := hok.lt_of_receivingFrom hcommands hi
      rw [hpull]
      omega
  · intro es s hrun
    have hle := Machine.length_run_add_le steps_lt hrun
    rw [steps_new] at hle
    omega

/-- Five commands without parameters. -/
def fiveCommands : List Base := List.replicate 5 ⟨0, []⟩

/-- The server sends five commands, the clients answer them, and the server receives the answers. -/
def fiveAnswered : List Event :=
  List.replicate 11 .server ++
    [.client 0, .client 1, .client 2, .client 3, .client 0, .client 1, .client 2, .client 3,
      .client 0, .client 0] ++
    List.replicate 5 .server

theorem server_accounting_fiveCommands :
    ∃ s, Reachable none (fun _ _ => none) fiveCommands s ∧ s.phase = .returned ∧
      ∑ i, s.received i = 5 := by
  have hphase : (Machine.run (step none fun _ _ => none) (new fiveCommands) fiveAnswered).map
      System.phase = some .returned := by decide
  obtain ⟨s, hs, hreturned⟩ := Option.map_eq_some_iff.1 hphase
  have hreachable : Reachable none (fun _ _ => none) fiveCommands s := ⟨fiveAnswered, hs⟩
  obtain ⟨-, -, -, htotal, -⟩ :=
    (server_accounting (fun _ _ => none) fiveCommands (by decide)).1 s hreachable
  exact ⟨s, hreachable, hreturned, htotal hreturned⟩

end System

end NitroCloud.Nanomsg
