import NitroCloud.CloudPrototypes.OneProcess

/-!
# Errors of the synchronous client

The synchronous loop of `pdf_box` passes an error code to `read_some` and looks at it no more.
After an error the buffer is as it was, so the loop decodes it again and runs the last command once
more, or, before the first one, the command for row `-1` that `FromStream` makes of an empty text.
It runs what it received, and nothing else, exactly when no call fails (`ran_iff`).
-/

namespace NitroCloud

open Bytes

namespace PdfBox

/-- The buffer after `read_some` has returned the given bytes, or an error. -/
def readSome (bufferRecv : Bytes) : Option Bytes → Bytes
  | some received => store bufferRecv received
  | none => bufferRecv

/-- The command that an iteration of the loop runs, with the given content of the buffer: none when
`FromStream` returns null. -/
def receivedCommand (bufferRecv : Bytes) : Option Count :=
  (fromStream { data := cStr bufferRecv }).1

/-- The commands that the iterations of the loop run, one iteration for each outcome of
`read_some`. -/
def ran : Bytes → List (Option Bytes) → List (Option Count)
  | _, [] => []
  | bufferRecv, outcome :: outcomes =>
    let bufferRecv := readSome bufferRecv outcome
    receivedCommand bufferRecv :: ran bufferRecv outcomes

/-- The response that an iteration writes is the result of the command that it runs. -/
theorem handleRead_eq (t : Target) (file : Bytes) (client : PdfBox) (received : Bytes) :
    client.handleRead t file received =
      let bufferRecv := readSome client.bufferRecv (some received)
      let response := ((receivedCommand bufferRecv).map (Count.run t file)).getD []
      (⟨bufferRecv, .writing response⟩, response) := rfl

/-- The commands that are run when each error repeats the last one. -/
def repeatLast : Count → List (Option Count) → List Count
  | _, [] => []
  | _, some command :: outcomes => command :: repeatLast command outcomes
  | last, none :: outcomes => last :: repeatLast last outcomes

theorem receivedCommand_store (bufferRecv : Bytes) (c : Count) :
    receivedCommand (store bufferRecv c.message) = some c :=
  fromStream_store bufferRecv c

/-- An empty text is taken for the command with the row index of `CountImpl()`. -/
theorem receivedCommand_zero :
    receivedCommand (List.replicate MESSAGE_SIZE 0) = some ⟨-1⟩ := by
  have hempty : cStr (List.replicate MESSAGE_SIZE 0) = [] :=
    @cStr_store_replicate [] MESSAGE_SIZE List.not_mem_nil
  rw [receivedCommand, hempty]
  decide

/-- The loop runs a command in every iteration: the one that it received, or the last one again. -/
theorem ran_eq {bufferRecv : Bytes} {last : Count} (outcomes : List (Option Count))
    (h : receivedCommand bufferRecv = some last) :
    ran bufferRecv (outcomes.map (Option.map Count.message)) =
      (repeatLast last outcomes).map some := by
  induction outcomes generalizing bufferRecv last with
  | nil => rfl
  | cons outcome outcomes ih =>
    cases outcome with
    | none =>
      simp only [List.map_cons, Option.map_none, ran, readSome, repeatLast, h, ih h]
    | some command =>
      have hstored := receivedCommand_store bufferRecv command
      simp only [List.map_cons, Option.map_some, ran, readSome, repeatLast, hstored, ih hstored]

theorem repeatLast_eq_iff (last : Count) (outcomes : List (Option Count)) :
    (repeatLast last outcomes).map some = outcomes ↔ none ∉ outcomes := by
  induction outcomes generalizing last with
  | nil => simp [repeatLast]
  | cons outcome outcomes ih =>
    cases outcome with
    | none => simp [repeatLast]
    | some command => simp [repeatLast, ih command]

/-- For every sequence of outcomes of `read_some`, each the whole message of a command or an error:
the loop runs in each iteration the command that was delivered, and none where none was, if and only
if no outcome is an error. -/
theorem ran_iff (outcomes : List (Option Count)) :
    ran (List.replicate MESSAGE_SIZE 0) (outcomes.map (Option.map Count.message)) = outcomes ↔
      none ∉ outcomes := by
  rw [ran_eq outcomes receivedCommand_zero]
  exact repeatLast_eq_iff ⟨-1⟩ outcomes

/-- After the connection was closed, the last command is run again. -/
theorem ran_closed :
    ran (List.replicate MESSAGE_SIZE 0) [some (Count.message ⟨7⟩), none] = [some ⟨7⟩, some ⟨7⟩] ∧
      ran (List.replicate MESSAGE_SIZE 0) [some (Count.message ⟨7⟩), none] ≠ [some ⟨7⟩, none] := by
  have hran : ran (List.replicate MESSAGE_SIZE 0) [some (Count.message ⟨7⟩), none] =
      [some ⟨7⟩, some ⟨7⟩] :=
    ran_eq [some ⟨7⟩, none] receivedCommand_zero
  rw [hran]
  decide

end PdfBox

end NitroCloud
