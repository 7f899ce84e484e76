import NitroCloud.Nanomsg.Progress

/-!
# Back-pressure

The server receives nothing before it has sent every command, and a client receives nothing while
its response is not taken.  With channels for `c` messages an item takes `2 c + 1` commands before
the server receives: `c` in each direction and one whose response the client holds.  The next
command for it leaves the server and that client waiting for each other.
-/

namespace NitroCloud.Nanomsg

namespace System

/-- Commands are still unsent, or responses still unreceived. -/
def Unfinished (s : System) : Prop :=
  s.commands ≠ [] ∨ (∃ buf, s.phase = .sending buf) ∨ ∃ i, s.received i < s.sent i

variable {capacity : Option ℕ} {answers : Answers} {commands : List Base} {total c : ℕ}
  {s s' : System}

/-- No item is sent more than it can take before the server receives. -/
theorem Ok.total_le (hok : s.Ok (some c) total) (hphase : s.phase = .sendNext)
    (hcommands : s.commands = []) : total ≤ 8 * c + 4 := by
  have hphaseOk := hok.phase
  rw [hphase] at hphaseOk
  obtain ⟨htotal, hzero⟩ := hphaseOk
  have hle : s.sent 0 ≤ s.received 0 + (2 * c + 1) := (hok.items 0).sent_le
  have hindex : s.commandIndex = total := by simpa [hcommands] using htotal
  rw [hzero 0, hok.share, hindex] at hle
  simp only [Nanomsg.share, processCount, Fin.isValue, Fin.coe_ofNat_eq_mod] at hle
  omega

/-- The second loop is reached only with a total that the channels can take. -/
theorem Reachable.total_le (h : Reachable (some c) answers commands s) (hloop : s.InReceiveLoop) :
    commands.length ≤ 8 * c + 4 := by
  have hinv : s.Ok (some c) commands.length ∧
      (s.InReceiveLoop → commands.length ≤ 8 * c + 4) := by
    refine Machine.Reachable.invariant
      (fun s => s.Ok (some c) commands.length ∧ (s.InReceiveLoop → commands.length ≤ 8 * c + 4))
      ⟨ok_new, False.elim⟩ ?_ h
    rintro s e s' ⟨hok, hle⟩ hstep
    refine ⟨hok.step hstep, fun hloop => ?_⟩
    by_cases hbefore : s.InReceiveLoop
    · exact hle hbefore
    · cases e with
      | client i =>
        obtain ⟨item, -, rfl⟩ := Option.map_eq_some_iff.1 hstep
        exact absurd hloop hbefore
      | server =>
        have hstep : s.serverStep (some c) = some s' := hstep
        rcases hphase : s.phase with _ | buf | ⟨kept, todo⟩ | _
        · rcases hcommands : s.commands with _ | ⟨command, commands⟩
          · exact hok.total_le hphase hcommands
          · simp only [serverStep, hphase, hcommands, Option.some.injEq] at hstep
            subst hstep
            exact hloop.elim
        · simp only [serverStep, hphase] at hstep
          obtain ⟨item, -, rfl⟩ := Option.map_eq_some_iff.1 hstep
          exact hloop.elim
        · exact absurd (by simp [InReceiveLoop, hphase]) hbefore
        · exact absurd (by simp [InReceiveLoop, hphase]) hbefore
  exact hinv.2 hloop

/-- An item that is asked without having been sent a command is asked when every response has been
received: the items before it were sent at most one command, and those behind it none. -/
theorem Ok.received_of_sent_zero {kept todo : List (Fin processCount)} {i : Fin processCount}
    (hok : s.Ok capacity total) (hphase : s.phase = .receiving kept (i :: todo))
    (hzero : s.sent i = 0) (j : Fin processCount) : s.received j = s.sent j := by
  have hphaseOk := hok.phase
  rw [hphase] at hphaseOk
  obtain ⟨-, -, -, hpass⟩ := hphaseOk
  have hi : i.val < 4 := i.isLt
  have hj : j.val < 4 := j.isLt
  have hsenti := hok.share i
  have hsentj := hok.share j
  unfold Nanomsg.share at hsenti hsentj
  have hle := hok.received_le_sent j
  by_cases hmem : j ∈ kept ++ i :: todo
  · rcases List.mem_append.1 hmem with hkept | htodo
    · have hlt := hpass.kept j hkept
      omega
    · have hij : i ≤ j := by
        rcases List.mem_cons.1 htodo with rfl | htodo
        · exact le_rfl
        · exact ((List.pairwise_cons.1 (List.pairwise_append.1 hpass.ordered).2.1).1 j htodo).le
      have hval : i.val ≤ j.val := hij
      omega
  · exact hpass.erased j hmem

/-- Where the channels can take all commands, a system at rest has sent them all and received all
responses. -/
theorem Ok.not_unfinished (hok : s.Ok (some c) total) (hc : 0 < c) (htotal : total ≤ 8 * c + 4)
    (hstuck : s.Stuck (some c) answers) : ¬ s.Unfinished := by
  have hphaseOk := hok.phase
  rcases hok.of_stuck (by simpa using hc) hstuck with
    hphase | ⟨kept, i, todo, hphase, heq⟩ | ⟨buf, c', hphase, hc', hle⟩
  · rw [hphase] at hphaseOk
    obtain ⟨hcommands, -, hreceived⟩ := hphaseOk
    simp [Unfinished, hcommands, hphase, hreceived]
  · rw [hphase] at hphaseOk
    obtain ⟨hcommands, -, -, hpass⟩ := hphaseOk
    have hzero : s.sent i = 0 := (hpass.todo i (by simp)).resolve_left (by omega)
    simp [Unfinished, hcommands, hphase, hok.received_of_sent_zero hphase hzero]
  · rw [hphase] at hphaseOk
    obtain ⟨hindex, hreceived, -⟩ := hphaseOk
    obtain rfl : c = c' := Option.some.inj hc'
    have hcurrent : s.currentItem.val = s.commandIndex % 4 := rfl
    rw [hreceived, hok.share] at hle
    unfold Nanomsg.share at hle
    omega

/-- For every number of commands and every capacity: no reachable state has unsent commands or
unreceived responses while no process can go on, exactly when there are at most `8 c + 4`
commands. -/
theorem no_deadlock_iff (answers : Answers) (commands : List Base) {c : ℕ} (hc : 1 ≤ c) :
    (∀ s, Reachable (some c) answers commands s → ¬ (s.Unfinished ∧ s.Stuck (some c) answers)) ↔
      commands.length ≤ 8 * c + 4 := by
  constructor
  · intro h
    by_contra hlt
    obtain ⟨s, hs, hstuck⟩ := Machine.exists_stuck steps_lt (new commands)
    have hloop : ¬ s.InReceiveLoop := fun hloop => hlt (Reachable.total_le hs hloop)
    apply h s hs
    refine ⟨?_, hstuck⟩
    have hcapacity : ∀ c' ∈ some c, 0 < c' := by
      rintro c' ⟨rfl⟩
      exact hc
    rcases (Reachable.ok hs).of_stuck hcapacity hstuck with
      hphase | ⟨kept, i, todo, hphase, -⟩ | ⟨buf, -, hphase, -⟩
    · exact absurd (by simp [InReceiveLoop, hphase]) hloop
    · exact absurd (by simp [InReceiveLoop, hphase]) hloop
    · exact .inr (.inl ⟨buf, hphase⟩)
  · rintro hle s hs ⟨hunfinished, hstuck⟩
    exact (Reachable.ok hs).not_unfinished hc hle hstuck hunfinished

theorem no_deadlock_iff_one :
    fiveCommands.length ≤ 8 * 1 + 4 ∧
      ∀ s, Reachable (some 1) (fun _ _ => none) fiveCommands s →
        ¬ (s.Unfinished ∧ s.Stuck (some 1) fun _ _ => none) := by
  have hlength : fiveCommands.length ≤ 8 * 1 + 4 := by decide
  exact ⟨hlength, (no_deadlock_iff (fun _ _ => none) fiveCommands le_rfl).2 hlength⟩

/-- Thirteen commands without parameters. -/
def thirteenCommands : List Base := List.replicate 13 ⟨0, []⟩

/-- Each client takes two commands and has its first response sent, a third command waits for each,
and the server has taken the thirteenth command. -/
def thirteenTaken : List Event :=
  (List.finRange processCount).flatMap (fun i => [.server, .server, .client i, .client i]) ++
    (List.finRange processCount).flatMap (fun i => [.server, .server, .client i]) ++
    List.replicate 9 .server

/-- Thirteen commands deadlock over channels for one message. -/
theorem deadlock_thirteen :
    ∃ s, Reachable (some 1) (fun _ _ => none) thirteenCommands s ∧ s.Unfinished ∧
      s.Stuck (some 1) fun _ _ => none := by
  have hrun : (Machine.run (step (some 1) fun _ _ => none) (new thirteenCommands)
      thirteenTaken).any (fun s => s.phase = .sending (Base.serialize ⟨0, []⟩) ∧
        s.serverStep (some 1) = none ∧
        ∀ i, (s.serverItems i).clientStep (some 1) (fun _ _ => none) = none) = true := by decide
  obtain ⟨s, hs, hrest⟩ := (Option.any_eq_true _ _).1 hrun
  simp only [decide_eq_true_eq] at hrest
  obtain ⟨hphase, hserver, hclients⟩ := hrest
  refine ⟨s, ⟨thirteenTaken, hs⟩, .inr (.inl ⟨_, hphase⟩), fun e => ?_⟩
  cases e with
  | server => exact hserver
  | client i => exact Option.map_eq_none_iff.2 (hclients i)

end System

end NitroCloud.Nanomsg
