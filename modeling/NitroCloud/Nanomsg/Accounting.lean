import NitroCloud.Nanomsg.PairSocket
import Mathlib.Algebra.BigOperators.Fin

/-!
# The accounting of the pair socket server

`m_commandsAtPull` of an item is what was sent on its socket less what was received from it.  The
items that a pass of `remove_if` still holds are those that await a response, so with at least four
commands the server never receives from an item that awaits none.  The invariant holds for channels
of any capacity.
-/

namespace NitroCloud.Nanomsg

open Bytes Stream

/-! ## One item -/

/-- The responses that a client holds. -/
def ClientPhase.held : ClientPhase → ℕ
  | .sending _ => 1
  | _ => 0

namespace ServerItem

/-- What holds of an item in every state: its counter, and where its commands and responses are. -/
structure Ok (capacity : Option ℕ) (item : ServerItem) : Prop where
  pull : item.m_commandsAtPull = item.down.sent - item.up.received
  flow : item.down.received = item.up.sent + item.client.phase.held
  running : item.client.phase ≠ .stopped
  nonempty : ∀ buf ∈ item.down.queue, buf ≠ []
  down : item.down.Within capacity
  up : item.up.Within capacity

variable {capacity : Option ℕ} {answers : Answers} {item item' : ServerItem}

theorem ok_new : ServerItem.new.Ok capacity where
  pull := rfl
  flow := rfl
  running := by decide
  nonempty := by simp [new]
  down := Channel.within_empty
  up := Channel.within_empty

/-- What was received was sent. -/
theorem Ok.received_le (h : item.Ok capacity) : item.up.received ≤ item.down.sent := by
  have hdown := item.down.balance
  have hup := item.up.balance
  have hflow := h.flow
  omega

theorem of_sendCommand {buf : Bytes} (h : item.sendCommand capacity buf = some item')
    (hok : item.Ok capacity) (hbuf : buf ≠ []) :
    item'.Ok capacity ∧ item'.down.sent = item.down.sent + 1 ∧
      item'.up.received = item.up.received := by
  obtain ⟨down, hdown, rfl⟩ := Option.map_eq_some_iff.1 h
  obtain ⟨-, hqueue, hsent, hreceived⟩ := Channel.of_send hdown
  refine ⟨⟨?_, ?_, hok.running, ?_, Channel.Within.send hdown, hok.up⟩, hsent, rfl⟩
  · have hpull := hok.pull
    show item.m_commandsAtPull + 1 = (down.sent : ℤ) - item.up.received
    omega
  · show down.received = item.up.sent + item.client.phase.held
    rw [hreceived, hok.flow]
  · show ∀ buf ∈ down.queue, buf ≠ []
    rw [hqueue]
    exact List.forall_mem_append.2 ⟨hok.nonempty, by simpa using hbuf⟩

theorem of_receiveCommandResponse {more : Bool}
    (h : item.receiveCommandResponse = some (more, item')) (hok : item.Ok capacity) :
    item'.Ok capacity ∧ item'.down.sent = item.down.sent ∧
      item'.up.received = item.up.received + 1 ∧
      (more = true ↔ item'.up.received < item'.down.sent) := by
  obtain ⟨⟨buf, up⟩, hup, heq⟩ := Option.map_eq_some_iff.1 h
  obtain ⟨-, hsent, hreceived⟩ := Channel.of_recv hup
  have hpull := hok.pull
  have hpull' : item.m_commandsAtPull - 1 = (item.down.sent : ℤ) - up.received := by omega
  cases heq
  refine ⟨⟨hpull', ?_, hok.running, hok.nonempty, hok.down, hok.up.recv hup⟩, rfl, hreceived, ?_⟩
  · show item.down.received = up.sent + item.client.phase.held
    rw [hsent, hok.flow]
  · show decide (0 < item.m_commandsAtPull - 1) = true ↔ up.received < item.down.sent
    rw [decide_eq_true_iff, hpull']
    omega

/-- A step of the client touches neither end of the server. -/
theorem of_clientStep (h : item.clientStep capacity answers = some item')
    (hok : item.Ok capacity) :
    item'.Ok capacity ∧ item'.down.sent = item.down.sent ∧
      item'.up.received = item.up.received := by
  unfold clientStep at h
  have hflow := hok.flow
  rcases hphase : item.client.phase with _ | runResult | _
  · simp only [hphase] at h
    obtain ⟨⟨buf, down⟩, hdown, rfl⟩ := Option.map_eq_some_iff.1 h
    obtain ⟨hqueue, hsent, hreceived⟩ := Channel.of_recv hdown
    have hnonempty := hok.nonempty
    rw [hqueue, List.forall_mem_cons] at hnonempty
    have hclient : (item.client.received answers buf).phase =
        .sending ((answers item.client.commandNumber (cStr buf)).getD []) := by
      rw [Client.received, if_pos (List.length_pos_iff.2 hnonempty.1)]
    refine ⟨⟨?_, ?_, ?_, hnonempty.2, hok.down.recv hdown, hok.up⟩, hsent, rfl⟩
    · show item.m_commandsAtPull = (down.sent : ℤ) - item.up.received
      rw [hsent, hok.pull]
    · show down.received = item.up.sent + (item.client.received answers buf).phase.held
      rw [hclient, hreceived, hflow, hphase]
      rfl
    · show (item.client.received answers buf).phase ≠ .stopped
      rw [hclient]
      exact ClientPhase.noConfusion
  · simp only [hphase] at h
    obtain ⟨up, hup, rfl⟩ := Option.map_eq_some_iff.1 h
    obtain ⟨-, -, hsent, hreceived⟩ := Channel.of_send hup
    refine ⟨⟨?_, ?_, ClientPhase.noConfusion, hok.nonempty, hok.down, .send hup⟩, rfl, hreceived⟩
    · show item.m_commandsAtPull = (item.down.sent : ℤ) - up.received
      rw [hreceived, hok.pull]
    · show item.down.received = up.sent + 0
      rw [hphase] at hflow
      rw [hsent, hflow]
      rfl
  · exact absurd hphase hok.running

end ServerItem

/-! ## The phases of the server -/

/-- How many of the first `n` commands go to the item. -/
def share (n : ℕ) (i : Fin processCount) : ℕ := (n + 3 - i) / 4

theorem share_zero (i : Fin processCount) : share 0 i = 0 := by
  have hi : i.val < 4 := i.isLt
  unfold share
  omega

theorem share_succ (n : ℕ) (i : Fin processCount) :
    share (n + 1) i = share n i + if n % processCount = i then 1 else 0 := by
  have hi : i.val < 4 := i.isLt
  unfold share processCount
  split_ifs with h <;> omega

theorem share_pos {n : ℕ} (h : 4 ≤ n) (i : Fin processCount) : 0 < share n i := by
  have hi : i.val < 4 := i.isLt
  unfold share
  omega

theorem sum_share (n : ℕ) : ∑ i, share n i = n := by
  rw [show (∑ i, share n i) = _ from Fin.sum_univ_four (share n)]
  simp only [share, processCount, Fin.isValue, Fin.coe_ofNat_eq_mod]
  omega

/-- The items that are still in the vector, in a pass of `remove_if`: those that were asked and kept
await more responses, as do those not yet asked, unless no command was sent to them. -/
structure Pass (sent received : Fin processCount → ℕ) (kept todo : List (Fin processCount)) :
    Prop where
  ordered : (kept ++ todo).Pairwise (· < ·)
  erased : ∀ i, i ∉ kept ++ todo → received i = sent i
  kept : ∀ i ∈ kept, 0 < received i ∧ received i < sent i
  todo : ∀ i ∈ todo, received i < sent i ∨ sent i = 0

/-- What holds in each phase of the server that sends `total` commands. -/
def Phase.Ok (total : ℕ) (commands : List Base) (commandIndex : ℕ)
    (sent received : Fin processCount → ℕ) : Phase → Prop
  | .sendNext => commandIndex + commands.length = total ∧ ∀ i, received i = 0
  | .sending serializeBuffer =>
    commandIndex + commands.length + 1 = total ∧ (∀ i, received i = 0) ∧ serializeBuffer ≠ []
  | .receiving kept todo =>
    commands = [] ∧ commandIndex = total ∧ todo ≠ [] ∧ Pass sent received kept todo
  | .returned => commands = [] ∧ commandIndex = total ∧ ∀ i, received i = sent i

theorem Base.serialize_ne_nil (command : Base) : command.serialize ≠ [] := by
  simp [serialize]

/-- The first pass asks all items. -/
theorem pass_first {sent received : Fin processCount → ℕ} (h : ∀ i, received i = 0) :
    Pass sent received [] (List.finRange processCount) where
  ordered := by
    rw [List.nil_append]
    exact List.pairwise_lt_finRange processCount
  erased i hi := absurd (List.mem_finRange i) hi
  kept := by simp
  todo i _ := by
    rw [h i]
    exact (Nat.eq_zero_or_pos (sent i)).symm

section Pass

variable {sent received : Fin processCount → ℕ} {kept todo : List (Fin processCount)}
  {i : Fin processCount}

/-- The phase after the pass asked an item. -/
theorem Pass.afterItem {total : ℕ} (h : Pass sent received kept todo) :
    (Phase.afterItem kept todo).Ok total [] total sent received := by
  unfold Phase.afterItem
  split
  · exact ⟨rfl, rfl, List.cons_ne_nil _ _, h⟩
  · exact ⟨rfl, rfl, fun i => h.erased i (by simp)⟩
  · next j kept =>
    refine ⟨rfl, rfl, List.cons_ne_nil _ _, ?_, ?_, by simp, fun i hi => .inl (h.kept i hi).2⟩
    · simpa using h.ordered
    · intro i hi
      exact h.erased i (by simpa using hi)

/-- The item that was asked has given one more response; it is kept when more are awaited. -/
theorem Pass.next {received' : Fin processCount → ℕ} {more : Bool}
    (h : Pass sent received kept (i :: todo)) (hi : received' i = received i + 1)
    (hothers : ∀ j, j ≠ i → received' j = received j) (hle : received' i ≤ sent i)
    (hmore : more = true ↔ received' i < sent i) :
    Pass sent received' (if more then kept ++ [i] else kept) todo := by
  have hsplit := List.pairwise_append.1 h.ordered
  have hkept : ∀ j ∈ kept, j ≠ i := fun j hj => (hsplit.2.2 j hj i (by simp)).ne
  have htodo : ∀ j ∈ todo, j ≠ i := fun j hj => ((List.pairwise_cons.1 hsplit.2.1).1 j hj).ne'
  have hkept' : ∀ j ∈ kept, 0 < received' j ∧ received' j < sent j := by
    intro j hj
    rw [hothers j (hkept j hj)]
    exact h.kept j hj
  have htodo' : ∀ j ∈ todo, received' j < sent j ∨ sent j = 0 := by
    intro j hj
    rw [hothers j (htodo j hj)]
    exact h.todo j (by simp [hj])
  rcases more with _ | _
  · have hlast : received' i = sent i := by
      have hnot : ¬ received' i < sent i := fun hlt => Bool.false_ne_true (hmore.2 hlt)
      omega
    refine ⟨?_, ?_, hkept', htodo'⟩
    · exact h.ordered.sublist ((List.sublist_cons_self i todo).append_left kept)
    · intro j hj
      by_cases hji : j = i
      · rw [hji, hlast]
      · rw [hothers j hji]
        apply h.erased
        simpa [hji] using hj
  · refine ⟨?_, ?_, ?_, htodo'⟩
    · simpa using h.ordered
    · intro j hj
      have hji : j ≠ i := by
        rintro rfl
        simp at hj
      rw [hothers j hji]
      apply h.erased
      simpa using hj
    · rw [if_pos rfl, List.forall_mem_append]
      exact ⟨hkept', by simpa [hi] using hi ▸ hmore.1 rfl⟩

/-- An item in the vector awaits a response, when every item was sent a command. -/
theorem Pass.mem_iff (h : Pass sent received kept todo) (hsent : ∀ i, 0 < sent i)
    (i : Fin processCount) : i ∈ kept ++ todo ↔ received i < sent i := by
  constructor
  · intro hi
    rcases List.mem_append.1 hi with hi | hi
    · exact (h.kept i hi).2
    · have hpos := hsent i
      exact (h.todo i hi).resolve_right (by omega)
  · intro hlt
    by_contra hi
    have heq := h.erased i hi
    omega

end Pass

/-! ## The system -/

namespace System

/-- The commands sent on the socket of each item. -/
def sent (s : System) (i : Fin processCount) : ℕ := (s.serverItems i).down.sent

/-- The responses received from each item. -/
def received (s : System) (i : Fin processCount) : ℕ := (s.serverItems i).up.received

/-- The invariant of a system that sends `total` commands. -/
structure Ok (capacity : Option ℕ) (total : ℕ) (s : System) : Prop where
  items : ∀ i, (s.serverItems i).Ok capacity
  share : ∀ i, s.sent i = Nanomsg.share s.commandIndex i
  phase : s.phase.Ok total s.commands s.commandIndex s.sent s.received

variable {capacity : Option ℕ} {answers : Answers} {commands : List Base} {total : ℕ}
  {s s' : System}

theorem ok_new : (new commands).Ok capacity commands.length where
  items _ := ServerItem.ok_new
  share i := (share_zero i).symm
  phase := ⟨Nat.zero_add _, fun _ => rfl⟩

section Update

variable {item : ServerItem} {i : Fin processCount}

/-- Replacing an item by one that is the same as far as `f` can tell. -/
theorem comp_update_eq {β : Type} (f : ServerItem → β) {items : Fin processCount → ServerItem}
    (h : f item = f (items i)) : f ∘ Function.update items i item = f ∘ items := by
  rw [Function.comp_update, h]
  exact Function.update_eq_self i (f ∘ items)

theorem sent_of_update (h : s'.serverItems = Function.update s.serverItems i item)
    (hsent : item.down.sent = (s.serverItems i).down.sent) : s'.sent = s.sent := by
  show (fun item => item.down.sent) ∘ s'.serverItems = (fun item => item.down.sent) ∘ s.serverItems
  rw [h]
  exact comp_update_eq _ hsent

theorem received_of_update (h : s'.serverItems = Function.update s.serverItems i item)
    (hreceived : item.up.received = (s.serverItems i).up.received) : s'.received = s.received := by
  show (fun item => item.up.received) ∘ s'.serverItems =
    (fun item => item.up.received) ∘ s.serverItems
  rw [h]
  exact comp_update_eq _ hreceived

theorem ok_update (hitem : item.Ok capacity) (h : ∀ i, (s.serverItems i).Ok capacity) :
    ∀ j, (Function.update s.serverItems i item j).Ok capacity :=
  (Function.forall_update_iff s.serverItems fun _ item => ServerItem.Ok capacity item).2
    ⟨hitem, fun j _ => h j⟩

end Update

theorem Ok.clientStep {i : Fin processCount} (hok : s.Ok capacity total)
    (h : step capacity answers s (.client i) = some s') : s'.Ok capacity total := by
  obtain ⟨item, hitem, rfl⟩ := Option.map_eq_some_iff.1 h
  obtain ⟨hitem, hsent, hreceived⟩ := ServerItem.of_clientStep hitem (hok.items i)
  refine ⟨ok_update hitem hok.items, ?_, ?_⟩
  · rw [sent_of_update rfl hsent]
    exact hok.share
  · rw [sent_of_update rfl hsent, received_of_update rfl hreceived]
    exact hok.phase

theorem Ok.sending {buf : Bytes} (hok : s.Ok capacity total) (hphase : s.phase = .sending buf)
    (h : s.serverStep capacity = some s') : s'.Ok capacity total := by
  have hphaseOk := hok.phase
  rw [hphase] at hphaseOk
  obtain ⟨htotal, hzero, hbuf⟩ := hphaseOk
  simp only [serverStep, hphase] at h
  obtain ⟨item, hitem, rfl⟩ := Option.map_eq_some_iff.1 h
  obtain ⟨hitem, hsent, hreceived⟩ := ServerItem.of_sendCommand hitem (hok.items _) hbuf
  refine ⟨ok_update hitem hok.items, fun j => ?_, ?_, ?_⟩
  · rw [share_succ, ← hok.share j]
    by_cases hj : j = s.currentItem
    · subst hj
      simp [sent, hsent, currentItem]
    · have hne : ¬ s.commandIndex % processCount = j := fun h => hj (Fin.ext h.symm)
      simp [sent, hj, hne]
  · show s.commandIndex + 1 + s.commands.length = total
    omega
  · rw [received_of_update rfl hreceived]
    exact hzero

theorem Ok.receiving {kept todo : List (Fin processCount)} {i : Fin processCount}
    (hok : s.Ok capacity total) (hphase : s.phase = .receiving kept (i :: todo))
    (h : s.serverStep capacity = some s') : s'.Ok capacity total := by
  have hphaseOk := hok.phase
  rw [hphase] at hphaseOk
  obtain ⟨hcommands, hindex, -, hpass⟩ := hphaseOk
  simp only [serverStep, hphase] at h
  obtain ⟨⟨more, item⟩, hitem, rfl⟩ := Option.map_eq_some_iff.1 h
  obtain ⟨hitem, hsent, hreceived, hmore⟩ :=
    ServerItem.of_receiveCommandResponse hitem (hok.items i)
  let s₁ : System := { s with
    phase := .afterItem (if more then kept ++ [i] else kept) todo
    serverItems := Function.update s.serverItems i item }
  have hsent' : s₁.sent = s.sent := sent_of_update rfl hsent
  have hreceivedi : s₁.received i = item.up.received := by simp [received, s₁]
  have hsenti : s₁.sent i = item.down.sent := by simp [sent, s₁]
  have hpass' : Pass s₁.sent s₁.received (if more then kept ++ [i] else kept) todo := by
    rw [hsent']
    apply hpass.next
    · rw [hreceivedi, hreceived]
      rfl
    · intro j hj
      simp [received, s₁, hj]
    · rw [← hsent', hreceivedi, hsenti]
      exact hitem.received_le
    · rw [← hsent', hreceivedi, hsenti]
      exact hmore
  refine ⟨ok_update hitem hok.items, ?_, ?_⟩
  · show ∀ j, s₁.sent j = Nanomsg.share s.commandIndex j
    rw [hsent']
    exact hok.share
  · show (Phase.afterItem (if more then kept ++ [i] else kept) todo).Ok total s.commands
      s.commandIndex s₁.sent s₁.received
    rw [hcommands, hindex]
    exact hpass'.afterItem

theorem Ok.serverStep (hok : s.Ok capacity total) (h : s.serverStep capacity = some s') :
    s'.Ok capacity total := by
  have hphaseOk := hok.phase
  rcases hphase : s.phase with _ | buf | ⟨kept, todo⟩ | _
  · rw [hphase] at hphaseOk
    obtain ⟨htotal, hzero⟩ := hphaseOk
    rcases hcommands : s.commands with _ | ⟨command, commands⟩
    · simp only [System.serverStep, hphase, hcommands, Option.some.injEq] at h
      subst h
      refine ⟨hok.items, hok.share, ?_⟩
      have hindex : s.commandIndex = total := by simpa [hcommands] using htotal
      show (Phase.afterItem [] (List.finRange processCount)).Ok total [] s.commandIndex s.sent
        s.received
      rw [hindex]
      exact (pass_first hzero).afterItem
    · simp only [System.serverStep, hphase, hcommands, Option.some.injEq] at h
      subst h
      rw [hcommands, List.length_cons] at htotal
      exact ⟨hok.items, hok.share, htotal, hzero, command.serialize_ne_nil⟩
  · exact hok.sending hphase h
  · rcases todo with _ | ⟨i, todo⟩
    · simp [System.serverStep, hphase] at h
    · exact hok.receiving hphase h
  · simp [System.serverStep, hphase] at h

theorem Ok.step {e : Event} (hok : s.Ok capacity total) (h : step capacity answers s e = some s') :
    s'.Ok capacity total := by
  cases e with
  | server => exact hok.serverStep h
  | client i => exact hok.clientStep h

/-- The invariant holds in every reachable state. -/
theorem Reachable.ok (h : Reachable capacity answers commands s) :
    s.Ok capacity commands.length :=
  Machine.Reachable.invariant (Ok capacity commands.length) ok_new
    (fun _ _ _ hok h => hok.step h) h

end System

end NitroCloud.Nanomsg
