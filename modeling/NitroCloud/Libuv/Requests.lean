import NitroCloud.Libuv.ThreadPool

/-!
# The requests of the thread pool

Every request that is registered is in one place: in the queue of the pool, with one worker, or in
the queue of its loop or with its `uv__work_done` (`Located`).  So for each request, whatever the
other requests and the threads do, the pool follows the life of a request (`follows_life`): it is
executed exactly once for each time it is submitted, unless it is cancelled before, and its `done`
callback comes once, after that.
-/

namespace NitroCloud.Libuv.Pool

open Machine

variable {ρ : Type} [DecidableEq ρ] {loopOf : ρ → ℕ} {p p' : Pool ρ}

/-- The request that the thread of a loop cancels. -/
def cancelling : LoopThread ρ → List ρ
  | .cancelling w => [w]
  | _ => []

/-- The requests that a loop has: in its queue, with its `uv__work_done` and with its
`uv__work_cancel`. -/
def requests (l : Loop ρ) : List ρ := l.wq ++ l.taken ++ cancelling l.thread

/-- How often its loop has a request. -/
def settled (loopOf : ρ → ℕ) (p : Pool ρ) (w : ρ) : ℕ :=
  match p.loops[loopOf w]? with
  | some l => (requests l).count w
  | none => 0

/-- Every registered request is in one place, and `w->work` says in which kind of place. -/
structure Located (loopOf : ρ → ℕ) (p : Pool ρ) : Prop where
  count : ∀ w, p.wq.count (.work w) + p.threads.count (.executing w) + p.settled loopOf w =
    (p.registered w).toNat
  work : ∀ w, p.registered w = true → (p.work w = .work ↔ p.settled loopOf w = 0)
  own : ∀ (i : ℕ) (l : Loop ρ), p.loops[i]? = some l → ∀ w ∈ requests l, loopOf w = i
  moving : ∀ (i : ℕ) (l : Loop ρ), p.loops[i]? = some l → l.thread = .moving → l.taken = []
  loop : ∀ w, p.registered w = true → loopOf w < p.loops.length
  aborted : p.aborted = false

theorem located_init (nthreads loops : ℕ) : (init_once nthreads loops : Pool ρ).Located loopOf := by
  have hloop {i : ℕ} {l : Loop ρ}
      (h : (init_once nthreads loops : Pool ρ).loops[i]? = some l) : l = ⟨[], false, .free, []⟩ :=
    (List.mem_replicate.1 (List.mem_of_getElem? h)).2
  constructor
  · intro w
    have hsettled : settled loopOf (init_once nthreads loops : Pool ρ) w = 0 := by
      rw [settled]
      split
      · next l h => rw [hloop h]; rfl
      · rfl
    rw [hsettled]
    simp [init_once, List.count_replicate]
  · intro w h
    cases h
  · intro i l h w hw
    rw [hloop h] at hw
    simp [requests, cancelling] at hw
  · intro i l h _
    rw [hloop h]
  · intro w h
    cases h
  · rfl

/-! ## What a step leaves alone -/

/-- Waking a thread leaves the requests with their workers. -/
theorem count_signal {threads threads' : List (Worker ρ)} {k : ℕ}
    (h : signal threads k = some threads') (w : ρ) :
    threads'.count (.executing w) = threads.count (.executing w) := by
  unfold signal at h
  split_ifs at h with hwaiting hk
  · cases h
    simpa using Weights.count_set_add (b := .waiting true) (.executing w) hk
  · cases h
    rfl

/-- One loop changes. -/
theorem settled_set {i : ℕ} {l l' : Loop ρ} (h : p.loops[i]? = some l)
    (hloops : p'.loops = p.loops.set i l') (w : ρ) :
    p'.settled loopOf w = if loopOf w = i then (requests l').count w else p.settled loopOf w := by
  have hi : i < p.loops.length := (List.getElem?_eq_some_iff.1 h).1
  unfold settled
  rw [hloops]
  split_ifs with hw
  · rw [hw, List.getElem?_set_self hi]
  · rw [List.getElem?_set_ne (Ne.symm hw)]

theorem settled_eq {i : ℕ} {l : Loop ρ} (h : p.loops[i]? = some l) {w : ρ} (hw : loopOf w = i) :
    p.settled loopOf w = (requests l).count w := by
  rw [settled, hw, h]

/-- The requests of one loop change, and their place with them. -/
theorem Located.setLoop {i : ℕ} {l l' : Loop ρ} (h : p.Located loopOf) (hl : p.loops[i]? = some l)
    (hloops : p'.loops = p.loops.set i l')
    (hcount : ∀ w, loopOf w = i → p'.wq.count (.work w) + p'.threads.count (.executing w) +
      (requests l').count w = (p'.registered w).toNat)
    (hwork : ∀ w, loopOf w = i → p'.registered w = true →
      (p'.work w = .work ↔ (requests l').count w = 0))
    (hothers : ∀ w, loopOf w ≠ i → p'.wq.count (.work w) = p.wq.count (.work w) ∧
      p'.threads.count (.executing w) = p.threads.count (.executing w) ∧
      p'.registered w = p.registered w ∧ p'.work w = p.work w)
    (hown : ∀ w ∈ requests l', loopOf w = i)
    (hmoving : l'.thread = .moving → l'.taken = []) (haborted : p'.aborted = p.aborted) :
    p'.Located loopOf := by
  have hi : i < p.loops.length := (List.getElem?_eq_some_iff.1 hl).1
  have hget {i' : ℕ} {l'' : Loop ρ} (hl'' : p'.loops[i']? = some l'') :
      (i' = i ∧ l'' = l') ∨ (i' ≠ i ∧ p.loops[i']? = some l'') := by
    rw [hloops] at hl''
    by_cases hii : i' = i
    · rw [hii, List.getElem?_set_self hi, Option.some.injEq] at hl''
      exact .inl ⟨hii, hl''.symm⟩
    · rw [List.getElem?_set_ne (Ne.symm hii)] at hl''
      exact .inr ⟨hii, hl''⟩
  refine ⟨?_, ?_, ?_, ?_, ?_, haborted.trans h.aborted⟩
  · intro w
    rw [settled_set hl hloops]
    split_ifs with hw
    · exact hcount w hw
    · obtain ⟨hwq, hthreads, hregistered, -⟩ := hothers w hw
      rw [hwq, hthreads, hregistered]
      exact h.count w
  · intro w
    rw [settled_set hl hloops]
    split_ifs with hw
    · exact hwork w hw
    · obtain ⟨-, -, hregistered, hwork⟩ := hothers w hw
      rw [hregistered, hwork]
      exact h.work w
  · intro i' l'' hl''
    rcases hget hl'' with ⟨rfl, rfl⟩ | ⟨-, hold⟩
    · exact hown
    · exact h.own i' l'' hold
  · intro i' l'' hl''
    rcases hget hl'' with ⟨rfl, rfl⟩ | ⟨-, hold⟩
    · exact hmoving
    · exact h.moving i' l'' hold
  · intro w hw
    rw [hloops, List.length_set]
    by_cases hloop : loopOf w = i
    · rw [hloop]
      exact hi
    · exact h.loop w ((hothers w hloop).2.2.1 ▸ hw)

/-- A step that leaves the requests where they are. -/
theorem Located.frame (h : p.Located loopOf)
    (hwq : ∀ w, p'.wq.count (.work w) = p.wq.count (.work w))
    (hthreads : ∀ w, p'.threads.count (.executing w) = p.threads.count (.executing w))
    (hloops : p'.loops = p.loops) (hwork : p'.work = p.work)
    (hregistered : p'.registered = p.registered) (haborted : p'.aborted = p.aborted) :
    p'.Located loopOf := by
  have hsettled (w : ρ) : p'.settled loopOf w = p.settled loopOf w := by
    rw [settled, settled, hloops]
  constructor
  · intro w
    rw [hwq, hthreads, hsettled, hregistered]
    exact h.count w
  · intro w
    rw [hregistered, hwork, hsettled]
    exact h.work w
  · rw [hloops]
    exact h.own
  · rw [hloops]
    exact h.moving
  · rw [hloops, hregistered]
    exact h.loop
  · rw [haborted]
    exact h.aborted

theorem count_posted {k : ℕ} {threads : List (Worker ρ)} (h : p.Posted k threads) (w : ρ) :
    threads.count (.executing w) = p.threads.count (.executing w) := by
  rcases h with ⟨-, hsignal⟩ | ⟨-, rfl⟩
  · exact count_signal hsignal w
  · rfl

/-- A worker that has got the lock goes on without a request, or with one. -/
theorem count_awake {j idle : ℕ} (hj : p.Awake j idle) (new : Worker ρ) (w : ρ) :
    (p.threads.set j new).count (.executing w) =
      p.threads.count (.executing w) + if new = .executing w then 1 else 0 := by
  rcases hj with ⟨hj, -⟩ | ⟨hj, -⟩
  · simpa using Weights.count_set_add (b := new) (.executing w) hj
  · simpa using Weights.count_set_add (b := new) (.executing w) hj

/-! ## The steps -/

/-- A request that is not registered is nowhere. -/
theorem Located.nowhere (h : p.Located loopOf) {w : ρ} (hw : p.registered w = false) :
    p.wq.count (.work w) = 0 ∧ p.threads.count (.executing w) = 0 ∧ p.settled loopOf w = 0 := by
  have hcount := h.count w
  rw [hw, Bool.toNat_false] at hcount
  omega

/-- A request in the queue of the pool has its function, and no worker has it. -/
theorem Located.of_queued (h : p.Located loopOf) {w : ρ} (hw : .work w ∈ p.wq) :
    p.registered w = true ∧ p.work w = .work ∧ .executing w ∉ p.threads := by
  have hcount := h.count w
  have hle := Bool.toNat_le (p.registered w)
  rw [← List.count_pos_iff] at hw
  have hregistered : p.registered w = true := Bool.toNat_eq_one.1 (by omega)
  refine ⟨hregistered, (h.work w hregistered).2 (by omega), ?_⟩
  rw [← List.count_eq_zero]
  omega

/-- A request that a worker has has its function. -/
theorem Located.of_executing (h : p.Located loopOf) {w : ρ} (hw : .executing w ∈ p.threads) :
    p.registered w = true ∧ p.work w = .work := by
  have hcount := h.count w
  have hle := Bool.toNat_le (p.registered w)
  rw [← List.count_pos_iff] at hw
  have hregistered : p.registered w = true := Bool.toNat_eq_one.1 (by omega)
  exact ⟨hregistered, (h.work w hregistered).2 (by omega)⟩

/-- A request that its loop has does not have its function any more. -/
theorem Located.of_requests (h : p.Located loopOf) {i : ℕ} {l : Loop ρ} (hl : p.loops[i]? = some l)
    {w : ρ} (hw : w ∈ requests l) : p.registered w = true ∧ p.work w ≠ .work := by
  have hcount := h.count w
  have hle := Bool.toNat_le (p.registered w)
  have hsettled := settled_eq hl (h.own i l hl w hw)
  rw [← List.count_pos_iff] at hw
  have hregistered : p.registered w = true := Bool.toNat_eq_one.1 (by omega)
  exact ⟨hregistered, fun hwork => by have := (h.work w hregistered).1 hwork; omega⟩

theorem Located.submit {w₀ : ρ} {k : ℕ} (h : p.Located loopOf)
    (hstep : Change loopOf p (.submit w₀ k) p') : p'.Located loopOf := by
  rcases hstep with ⟨hl, hw₀, hthreads⟩
  obtain ⟨hwq₀, hthreads₀, hsettled₀⟩ := h.nowhere hw₀
  constructor
  · intro w
    have hw := h.count w
    simp only [settled, count_posted hthreads, List.count_append] at hw ⊢
    by_cases hww : w = w₀
    · subst hww
      rw [Function.update_self]
      simp only [hw₀, Bool.toNat_false] at hw
      simp only [List.count_singleton_self, Bool.toNat_true]
      omega
    · rw [Function.update_of_ne hww, List.count_singleton]
      simpa [Ne.symm hww] using hw
  · intro w hw
    by_cases hww : w = w₀
    · subst hww
      simp only [Function.update_self, true_iff]
      exact hsettled₀
    · simp only [Function.update_of_ne hww] at hw ⊢
      exact h.work w hw
  · exact h.own
  · exact h.moving
  · intro w hw
    by_cases hww : w = w₀
    · rw [hww]
      exact (List.getElem?_eq_some_iff.1 hl).1
    · exact h.loop w (by simpa [hww] using hw)
  · exact h.aborted

theorem Located.take {j k : ℕ} (h : p.Located loopOf)
    (hstep : Change loopOf p (.take j k) p') : p'.Located loopOf := by
  cases hstep with
  | wait hj hwq =>
    refine h.frame (fun _ => rfl) (fun w => ?_) rfl rfl rfl rfl
    simp [count_awake hj]
  | exit hj hwq hthreads =>
    refine h.frame (fun _ => rfl) (fun w => ?_) rfl rfl rfl rfl
    simp [count_signal hthreads w, count_awake hj]
  | @start _ _ _ w₀ wq hj hwq =>
    obtain ⟨-, hwork, -⟩ := h.of_queued (w := w₀) (by simp [hwq])
    constructor
    · intro w
      have hw := h.count w
      rw [hwq, List.count_cons] at hw
      simp only [settled, count_awake hj] at hw ⊢
      by_cases hww : w = w₀
      · subst hww
        simp only [beq_self_eq_true, if_true] at hw ⊢
        omega
      · simpa [Ne.symm hww] using hw
    · exact h.work
    · exact h.own
    · exact h.moving
    · exact h.loop
    · simp [h.aborted, hwork]

theorem Located.finish {j : ℕ} (h : p.Located loopOf)
    (hstep : Change loopOf p (.finish j) p') : p'.Located loopOf := by
  cases hstep with
  | @finish _ w₀ l hj hl =>
    have hthreads (w : ρ) :
        (p.threads.set j .ready).count (.executing w) + (if w₀ = w then 1 else 0) =
          p.threads.count (.executing w) := by
      simpa using Weights.count_set_add (b := .ready) (.executing w) hj
    have hrequests (w : ρ) :
        (requests { l with wq := l.wq ++ [w₀], wq_async := true }).count w =
          (requests l).count w + if w₀ = w then 1 else 0 := by
      simp only [requests, List.count_append, List.count_singleton, beq_iff_eq]
      omega
    refine h.setLoop hl rfl ?_ ?_ ?_ ?_ (h.moving _ l hl) rfl
    · intro w hw
      have hcount := h.count w
      have hthreads := hthreads w
      rw [settled_eq hl hw] at hcount
      simp only [hrequests]
      omega
    · intro w hw hregistered
      rw [hrequests]
      by_cases hww : w = w₀
      · subst hww
        simp
      · have hwork := h.work w hregistered
        rw [settled_eq hl hw] at hwork
        simpa [hww, Ne.symm hww] using hwork
    · intro w hw
      have hww : w₀ ≠ w := fun hww => hw (congrArg loopOf hww.symm)
      have hthreads := hthreads w
      rw [if_neg hww, Nat.add_zero] at hthreads
      exact ⟨rfl, hthreads, rfl, Function.update_of_ne (Ne.symm hww) _ _⟩
    · intro w hw
      rw [← List.count_pos_iff, hrequests] at hw
      by_cases hww : w₀ = w
      · rw [hww]
      · rw [if_neg hww, Nat.add_zero, List.count_pos_iff] at hw
        exact h.own _ l hl w hw

theorem Located.cancel {w₀ : ρ} (h : p.Located loopOf)
    (hstep : Change loopOf p (.cancel w₀) p') : p'.Located loopOf := by
  cases hstep with
  | busy => exact h
  | @cancel _ l hl hregistered₀ hfree hlinked hwork₀ =>
    have hrequests (w : ρ) (hww : w ≠ w₀) : (requests { l with
        wq := l.wq.erase w₀, taken := l.taken.erase w₀, thread := .cancelling w₀ }).count w =
          (requests l).count w := by
      simp only [requests, hfree, cancelling, List.count_append, List.count_erase_of_ne hww,
        List.count_singleton, beq_false_of_ne (Ne.symm hww), List.count_nil, Bool.false_eq_true,
        if_false]
    refine h.setLoop hl rfl ?_ ?_ ?_ ?_ (by simp) rfl
    · intro w hw
      have hcount := h.count w
      rw [settled_eq hl hw] at hcount
      by_cases hww : w = w₀
      · -- one of the three queues has the request, and no worker
        subst hww
        rw [hregistered₀, Bool.toNat_true] at hcount
        simp only [← List.count_pos_iff] at hlinked
        simp only [requests, hfree, cancelling, List.count_append, List.count_nil] at hcount
        simp only [requests, cancelling, List.count_erase_self, List.count_append,
          List.count_singleton_self, hregistered₀, Bool.toNat_true]
        omega
      · have hnode : (Node.work w : Node ρ) ≠ .work w₀ := by simpa using hww
        rw [List.count_erase_of_ne hnode, hrequests w hww]
        exact hcount
    · intro w hw hregistered
      by_cases hww : w = w₀
      · subst hww
        simp [requests, cancelling]
      · have hwork := h.work w hregistered
        rw [settled_eq hl hw] at hwork
        rw [hrequests w hww]
        simpa [hww] using hwork
    · intro w hw
      have hww : w ≠ w₀ := fun hww => hw (congrArg loopOf hww)
      have hnode : (Node.work w : Node ρ) ≠ .work w₀ := by simpa using hww
      exact ⟨List.count_erase_of_ne hnode, rfl, rfl, Function.update_of_ne hww _ _⟩
    · intro w hw
      by_cases hww : w = w₀
      · rw [hww]
      · rw [← List.count_pos_iff, hrequests w hww, List.count_pos_iff] at hw
        exact h.own _ l hl w hw

/-- The requests of a loop change their place in it. -/
theorem Located.sameLoop {i : ℕ} {l l' : Loop ρ} (h : p.Located loopOf) (hl : p.loops[i]? = some l)
    (hperm : (requests l').Perm (requests l)) (hmoving : l'.thread = .moving → l'.taken = []) :
    Located loopOf { p with loops := p.loops.set i l' } := by
  refine h.setLoop hl rfl ?_ ?_ ?_ ?_ hmoving rfl
  · intro w hw
    rw [hperm.count_eq, ← settled_eq hl hw]
    exact h.count w
  · intro w hw hregistered
    rw [hperm.count_eq, ← settled_eq hl hw]
    exact h.work w hregistered
  · exact fun _ _ => ⟨rfl, rfl, rfl, rfl⟩
  · intro w hw
    exact h.own i l hl w (hperm.mem_iff.1 hw)

theorem Located.done {i : ℕ} (h : p.Located loopOf)
    (hstep : Change loopOf p (.done i) p') : p'.Located loopOf := by
  cases hstep with
  | @done _ l w₀ taken hl htaken hfree =>
    have hrequests (w : ρ) : (requests { l with taken := taken }).count w +
        (if w₀ = w then 1 else 0) = (requests l).count w := by
      simp only [requests, htaken, List.count_append, List.count_cons, beq_iff_eq]
      omega
    have hown (w : ρ) (hw : w ∈ requests { l with taken := taken }) : w ∈ requests l := by
      have hw' := hrequests w
      rw [← List.count_pos_iff] at hw ⊢
      omega
    have hloop₀ : loopOf w₀ = i := h.own i l hl w₀ (by simp [requests, htaken])
    refine h.setLoop hl rfl ?_ ?_ ?_ ?_ (by simp [hfree]) rfl
    · intro w hw
      have hcount := h.count w
      have hrequests := hrequests w
      rw [settled_eq hl hw] at hcount
      by_cases hww : w₀ = w
      · subst hww
        rw [if_pos rfl] at hrequests
        have hle : (p.registered w₀).toNat ≤ 1 := Bool.toNat_le _
        simp only [Function.update_self, Bool.toNat_false]
        omega
      · rw [if_neg hww] at hrequests
        simp only [Function.update_of_ne (Ne.symm hww)]
        omega
    · intro w hw hregistered
      have hww : w₀ ≠ w := by
        rintro rfl
        simp at hregistered
      have hrequests := hrequests w
      rw [if_neg hww, Nat.add_zero] at hrequests
      simp only [Function.update_of_ne (Ne.symm hww)] at hregistered
      rw [hrequests, ← settled_eq hl hw]
      exact h.work w hregistered
    · intro w hw
      have hww : w ≠ w₀ := fun hww => hw (hww ▸ hloop₀)
      exact ⟨rfl, rfl, Function.update_of_ne hww _ _, rfl⟩
    · exact fun w hw => h.own i l hl w (hown w hw)

theorem Located.step {e : Event ρ} (h : p.Located loopOf) (hstep : Change loopOf p e p') :
    p'.Located loopOf := by
  cases e with
  | submit w k => exact h.submit hstep
  | take j k => exact h.take hstep
  | finish j => exact h.finish hstep
  | cancel w => exact h.cancel hstep
  | done i => exact h.done hstep
  | wake j =>
    cases hstep with
    | wake hj =>
      refine h.frame (fun _ => rfl) (fun w => ?_) rfl rfl rfl rfl
      simpa using Weights.count_set_add (b := .waiting true) (.executing w) hj
  | cleanup k =>
    cases hstep with
    | cleanup _ hthreads =>
      refine h.frame (fun w => ?_) (count_posted hthreads) rfl rfl rfl rfl
      simp [List.count_append]
  | cancelled i =>
    cases hstep with
    | cancelled hl hthread =>
      refine h.sameLoop hl ?_ (by simp)
      simp only [requests, hthread, cancelling, List.append_nil, List.append_assoc]
      exact List.Perm.append_left _ List.perm_append_comm
  | async i =>
    cases hstep with
    | async hl _ hfree htaken =>
      refine h.sameLoop hl ?_ fun _ => htaken
      simp [requests, hfree, cancelling]
  | move i =>
    cases hstep with
    | move hl hmoving =>
      refine h.sameLoop hl ?_ (by simp)
      simp [requests, hmoving, cancelling, h.moving i _ hl hmoving]

theorem Reachable.located {nthreads loops : ℕ} (h : Reachable loopOf nthreads loops p) :
    p.Located loopOf :=
  Machine.Reachable.invariant (Located loopOf) (located_init nthreads loops)
    (fun _ _ _ hp hstep => hp.step (step_cases hstep)) h

/-! ## The life of each request -/

/-- What the phase of a request depends on. -/
theorem phase_congr {w : ρ} (hregistered : p'.registered w = p.registered w)
    (hwork : p'.work w = p.work w)
    (hthreads : p'.threads.count (.executing w) = p.threads.count (.executing w)) :
    p'.phase w = p.phase w := by
  have hmem : .executing w ∈ p'.threads ↔ .executing w ∈ p.threads := by
    rw [← List.count_pos_iff, hthreads, List.count_pos_iff]
  simp only [phase, hregistered, hwork, hmem]

/-- The pool follows the life of every request. -/
def FollowsLife (p : Pool ρ) : Prop := ∀ w, run Phase.step .idle (p.life w) = some (p.phase w)

/-- One request takes a step in its life. -/
theorem FollowsLife.append (h : p.FollowsLife) {w₀ : ρ} {e : LifeEvent}
    (htrace : p'.trace = p.trace ++ [(w₀, e)])
    (hothers : ∀ w, w ≠ w₀ → p'.phase w = p.phase w)
    (hstep : Phase.step (p.phase w₀) e = some (p'.phase w₀)) : p'.FollowsLife := by
  intro w
  by_cases hw : w = w₀
  · subst hw
    have hlife : p'.life w = p.life w ++ [e] := by
      simp [life, htrace]
    rw [hlife, run_concat, h w, Option.bind_some, hstep]
  · have hlife : p'.life w = p.life w := by
      simp [life, htrace, Ne.symm hw]
    rw [hlife, h w, hothers w hw]

/-- No request takes a step in its life. -/
theorem FollowsLife.frame (h : p.FollowsLife) (htrace : p'.trace = p.trace)
    (hphase : ∀ w, p'.phase w = p.phase w) : p'.FollowsLife := by
  intro w
  rw [life, htrace, hphase]
  exact h w

theorem FollowsLife.take {j k : ℕ} (hp : p.Located loopOf) (h : p.FollowsLife)
    (hstep : Change loopOf p (.take j k) p') : p'.FollowsLife := by
  cases hstep with
  | wait hj hwq =>
    refine h.frame rfl fun w => phase_congr rfl rfl ?_
    simp [count_awake hj]
  | exit hj hwq hthreads =>
    refine h.frame rfl fun w => phase_congr rfl rfl ?_
    simp [count_signal hthreads w, count_awake hj]
  | @start _ _ _ w₀ wq hj hwq =>
    obtain ⟨hregistered, hwork, hnot⟩ := hp.of_queued (w := w₀) (by simp [hwq])
    have hin : .executing w₀ ∈ p.threads.set j (.executing w₀) := by
      rw [← List.count_pos_iff, count_awake hj]
      simp
    refine h.append rfl ?_ ?_
    · intro w hw
      refine phase_congr rfl rfl ?_
      simp [count_awake hj, Ne.symm hw]
    · simp [phase, hregistered, hwork, hnot, hin, Phase.step]

theorem FollowsLife.cancel {w₀ : ρ} (hp : p.Located loopOf) (h : p.FollowsLife)
    (hstep : Change loopOf p (.cancel w₀) p') : p'.FollowsLife := by
  cases hstep with
  | busy => exact h
  | @cancel _ l hl hregistered hfree hlinked hwork₀ =>
    have hnot : .executing w₀ ∉ p.threads := by
      have hcount := hp.count w₀
      rw [settled_eq hl rfl, hregistered, Bool.toNat_true] at hcount
      simp only [requests, List.count_append] at hcount
      simp only [← List.count_pos_iff] at hlinked
      rw [← List.count_eq_zero]
      omega
    refine h.append rfl ?_ ?_
    · intro w hw
      exact phase_congr rfl (Function.update_of_ne hw _ _) rfl
    · rcases hwork : p.work w₀ with _ | _ | _
      · simp [phase, hregistered, hwork, hnot, Phase.step]
      · exact absurd hwork hwork₀
      · simp [phase, hregistered, hwork, Phase.step]

theorem FollowsLife.step {e : Event ρ} (hp : p.Located loopOf) (h : p.FollowsLife)
    (hstep : Change loopOf p e p') : p'.FollowsLife := by
  cases e with
  | take j k => exact h.take hp hstep
  | cancel w => exact h.cancel hp hstep
  | submit w₀ k =>
    cases hstep with
    | submit _ hw₀ hthreads =>
      have hnot : .executing w₀ ∉ p.threads := List.count_eq_zero.1 (hp.nowhere hw₀).2.1
      rw [← List.count_eq_zero, ← count_posted hthreads, List.count_eq_zero] at hnot
      refine h.append rfl ?_ ?_
      · intro w hw
        exact phase_congr (Function.update_of_ne hw _ _) (Function.update_of_ne hw _ _)
          (count_posted hthreads w)
      · simp [phase, hw₀, hnot, Phase.step]
  | finish j =>
    cases hstep with
    | @finish _ w₀ l hj hl =>
      have hin : .executing w₀ ∈ p.threads := List.mem_of_getElem? hj
      obtain ⟨hregistered, hwork⟩ := hp.of_executing hin
      refine h.append rfl ?_ ?_
      · intro w hw
        refine phase_congr rfl (Function.update_of_ne hw _ _) ?_
        simpa [Ne.symm hw] using Weights.count_set_add (b := .ready) (.executing w) hj
      · simp [phase, hregistered, hwork, hin, Phase.step]
  | done i =>
    cases hstep with
    | @done _ l w₀ taken hl htaken hfree =>
      have hin : w₀ ∈ requests l := by simp [requests, htaken]
      obtain ⟨hregistered, hwork⟩ := hp.of_requests hl hin
      refine h.append rfl ?_ ?_
      · intro w hw
        exact phase_congr (Function.update_of_ne hw _ _) rfl rfl
      · rcases hwork' : p.work w₀ with _ | _ | _
        · exact absurd hwork' hwork
        · simp [phase, hregistered, hwork', Phase.step]
        · simp [phase, hregistered, hwork', Phase.step]
  | wake j =>
    cases hstep with
    | wake hj =>
      refine h.frame rfl fun w => phase_congr rfl rfl ?_
      simpa using Weights.count_set_add (b := .waiting true) (.executing w) hj
  | cleanup k =>
    cases hstep with
    | cleanup _ hthreads =>
      exact h.frame rfl fun w => phase_congr rfl rfl (count_posted hthreads w)
  | cancelled i =>
    cases hstep
    exact h.frame rfl fun w => rfl
  | async i =>
    cases hstep
    exact h.frame rfl fun w => rfl
  | move i =>
    cases hstep
    exact h.frame rfl fun w => rfl

/-- The requests in a queue of the pool. -/
def queued (wq : List (Node ρ)) : List ρ :=
  wq.filterMap fun q => match q with
    | .exit_message => none
    | .work w => some w

/-- The requests that something happened to, in the order in which it did. -/
def happened (p : Pool ρ) (e : LifeEvent) : List ρ := (p.trace.filter (·.2 = e)).map Prod.fst

/-- The requests that were started, and then those that are queued, are in the order in which they
were submitted. -/
def Ordered (p : Pool ρ) : Prop :=
  (p.happened .start ++ queued p.wq).Sublist (p.happened .submit)

omit [DecidableEq ρ] in
/-- A step that submits and starts no request. -/
theorem Ordered.frame (h : p.Ordered) (hstart : p'.happened .start = p.happened .start)
    (hsubmit : p'.happened .submit = p.happened .submit)
    (hwq : (queued p'.wq).Sublist (queued p.wq)) : p'.Ordered := by
  rw [Ordered, hstart, hsubmit]
  exact (hwq.append_left _).trans h

theorem Ordered.step {e : Event ρ} (h : p.Ordered) (hstep : Change loopOf p e p') :
    p'.Ordered := by
  cases hstep with
  | @submit w =>
    have happ := h.append (List.Sublist.refl [w])
    simpa [Ordered, happened, queued] using happ
  | start hj hwq =>
    -- the head of the queue is now the last request that was started
    simpa [Ordered, happened, queued, hwq] using h
  | cancel =>
    exact h.frame (by simp [happened]) (by simp [happened]) (List.erase_sublist.filterMap _)
  | cleanup => exact h.frame rfl rfl (by simp [queued])
  | finish => exact h.frame (by simp [happened]) (by simp [happened]) (.refl _)
  | done => exact h.frame (by simp [happened]) (by simp [happened]) (.refl _)
  | busy => exact h
  | wait => exact h.frame rfl rfl (.refl _)
  | exit => exact h.frame rfl rfl (.refl _)
  | wake => exact h.frame rfl rfl (.refl _)
  | cancelled => exact h.frame rfl rfl (.refl _)
  | async => exact h.frame rfl rfl (.refl _)
  | move => exact h.frame rfl rfl (.refl _)

/-- The workers start the requests in the order in which they were submitted, without those that
were cancelled, and those that they have not started come next in that order. -/
theorem started_in_order {nthreads loops : ℕ} (h : Reachable loopOf nthreads loops p) :
    (p.happened .start ++ queued p.wq).Sublist (p.happened .submit) := by
  refine Machine.Reachable.invariant Ordered ?_ (fun _ _ _ hp hstep => hp.step (step_cases hstep)) h
  exact List.Sublist.refl []

theorem started_in_order_twoRequests : ∃ p : Pool Bool, Reachable (fun _ => 0) 1 1 p ∧
    p.happened .start = [false] ∧ queued p.wq = [true] ∧
    (p.happened .start ++ queued p.wq).Sublist (p.happened .submit) := by
  have hrun : ∃ p : Pool Bool, run (step fun _ => 0) (init_once 1 1)
      [.submit false 0, .submit true 0, .take 0 0] = some p ∧ p.happened .start = [false] ∧
      queued p.wq = [true] := ⟨_, rfl, rfl, rfl⟩
  obtain ⟨p, hp, hstart, hwq⟩ := hrun
  exact ⟨p, ⟨_, hp⟩, hstart, hwq, started_in_order ⟨_, hp⟩⟩

end NitroCloud.Libuv.Pool
