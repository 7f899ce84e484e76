import NitroCloud.Command.Codec

/-!
# The in-process loop

`main` of `cloud_prototypes/inproc`: the commands of the generator are serialized into a queue, and
each request of the queue is decoded, run and recorded.  It says what the answers of the
client-server programs should be.
-/

namespace NitroCloud.Inproc

/-- The first loop: the serialized commands. -/
def requestQueue (commandGenerator : CommandGenerator) : List Bytes :=
  if commandGenerator.hasCommands then
    match _h : commandGenerator.nextCommand with
    | (some command, commandGenerator) => command.message :: requestQueue commandGenerator
    | (none, _) => []
  else []
termination_by commandGenerator.m_iteration
decreasing_by exact CommandGenerator.m_iteration_nextCommand _h

/-- The second loop: the results added to the collection. -/
def results (t : Target) (file : Bytes) (requestQueue : List Bytes) : List Result :=
  requestQueue.filterMap fun request =>
    (answer t file request).map fun response => ⟨request, response⟩

/-- `main`: the collection it dumps. -/
def main (t : Target) (file : Bytes) (commandGenerator : CommandGenerator) : List Result :=
  results t file (requestQueue commandGenerator)

theorem requestQueue_eq (g : CommandGenerator) : requestQueue g = g.commands.map Count.message := by
  induction g using requestQueue.induct with
  | case1 g hhas command g' hnext ih =>
    rw [requestQueue, if_pos hhas, g.commands_eq, hnext]
    simp only [ih, Option.toList_some, List.singleton_append, List.map_cons]
  | case2 g hhas g' hnext =>
    -- a generator that has commands hands one out
    obtain ⟨n, rowIndex⟩ := g
    cases n with
    | zero => cases hhas
    | succ n => cases hnext
  | case3 g hhas =>
    rw [requestQueue, if_neg hhas, (CommandGenerator.exhausted (Bool.not_eq_true _ ▸ hhas)).2]
    rfl

/-- The loop records each command's message with its answer, in the generator's order. -/
theorem main_eq (t : Target) (file : Bytes) (g : CommandGenerator) :
    main t file g = g.commands.map fun c => ⟨c.message, c.run t file⟩ := by
  rw [main, results, requestQueue_eq, List.filterMap_map, ← List.filterMap_eq_map]
  exact List.filterMap_congr fun c _ => by simp [answer_self]

end NitroCloud.Inproc
