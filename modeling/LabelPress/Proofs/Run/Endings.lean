import LabelPress.Proofs.Run.World

/-!
# All ways in which a run can end

`Ends` lists every way in which a run can end, with the world that it leaves: what had been settled
before, what was done, and what has changed.  `ends_executed` says that there is no other way, so
that a property of all runs is one case for each entry of the list.
-/

namespace LabelPress.Run

open CommandLine

/-- Bytes are written to a place. -/
def Action.write : OutputTarget → List UInt8 → Action
  | .file path, bytes => save path bytes
  | .standardOutput, bytes => print bytes

/-- Bytes have replaced a file or were added to standard output, and nothing else has changed. -/
def Delivered (target : OutputTarget) (bytes : List UInt8) (before after : World) : Prop :=
  match target with
  | .file path =>
    after.files path = some bytes ∧ (∀ other, other ≠ path → after.files other = before.files other) ∧
      after.output = before.output
  | .standardOutput => after.files = before.files ∧ after.output = before.output ++ bytes

/-- Only the place to which bytes were to be written may have changed. -/
def Spoiled (target : OutputTarget) (bytes : List UInt8) (before after : World) : Prop :=
  match target with
  | .file path =>
    (∀ other, other ≠ path → after.files other = before.files other) ∧ after.output = before.output
  | .standardOutput =>
    after.files = before.files ∧ ∃ arrived, arrived <+: bytes ∧ after.output = before.output ++ arrived

namespace Surroundings

variable (surroundings : Surroundings)

/-- The outcome of rendering, with the files that there are. -/
def rendered (files : Files) (markup : List UInt8) (configuration : Configuration) :
    Except RunError (List UInt8) :=
  let stages : Stages Id := ⟨surroundings.reader, surroundings.drawer files⟩
  Id.run (render stages markup configuration)

/-- What is called while markup is rendered. -/
def renderActions (markup : List UInt8) (configuration : Configuration) : List Action :=
  match (surroundings.reader markup).map List.head? with
  | .ok (some label) => [.readMarkup markup, .drawLabel label configuration.drawOptions]
  | _ => [.readMarkup markup]

/-- A run in a world: its result, and the world afterwards. -/
def executed (arguments : List String) (before : World) : Except RunError Outcome × World :=
  (execute surroundings.host surroundings.stages arguments).run before

/-- The whole program in a world: its exit status, and the world afterwards. -/
def completed (arguments : List String) (before : World) : UInt32 × World :=
  (program surroundings.host surroundings.stages arguments).run before

/-! ## Stages -/

theorem run_picture (label : Label) (configuration : Configuration) (world : World) :
    (picture surroundings.stages label configuration).run world =
      (Id.run (picture ⟨surroundings.reader, surroundings.drawer world.files⟩ label configuration),
        world.did [.drawLabel label configuration.drawOptions]) := by
  have drawing : (surroundings.stages.draw label configuration.drawOptions).run world =
      (surroundings.drawer world.files label configuration.drawOptions,
        world.did [.drawLabel label configuration.drawOptions]) := rfl
  rw [picture, picture, run_bind_of drawing, Id.run_bind]
  dsimp only [Id.run]
  cases surroundings.drawer world.files label configuration.drawOptions with
  | error error =>
      rfl
  | ok bytes =>
      dsimp only
      cases Png.turn configuration.turn bytes <;> rfl

/-- Of the labels only the first one matters. -/
theorem rendered_eq (files : Files) (markup : List UInt8) (configuration : Configuration) :
    surroundings.rendered files markup configuration =
      match (surroundings.reader markup).map List.head? with
      | .error error => .error (.markup error)
      | .ok none => .error .noLabels
      | .ok (some label) =>
        Id.run (picture ⟨surroundings.reader, surroundings.drawer files⟩ label configuration) := by
  rw [rendered, render, Id.run_bind]
  dsimp only [Id.run]
  cases surroundings.reader markup with
  | error error =>
      rfl
  | ok labels =>
      cases labels <;> rfl

/-- Rendering changes nothing. -/
theorem run_render (markup : List UInt8) (configuration : Configuration) (world : World) :
    (render surroundings.stages markup configuration).run world =
      (surroundings.rendered world.files markup configuration,
        world.did (surroundings.renderActions markup configuration)) := by
  have reading : (surroundings.stages.read markup).run world =
      (surroundings.reader markup, world.did [.readMarkup markup]) := rfl
  rw [rendered_eq, renderActions, render, run_bind_of reading]
  cases surroundings.reader markup with
  | error error =>
      rfl
  | ok labels =>
      cases labels with
      | nil =>
          rfl
      | cons label rest =>
          have drawn := surroundings.run_picture label configuration (world.did [.readMarkup markup])
          rw [World.did_did] at drawn
          exact drawn

/-- Writes to a place. -/
def put : OutputTarget → List UInt8 → World → Except String Unit × World
  | .file path, bytes => surroundings.save path bytes
  | .standardOutput, bytes => surroundings.print bytes

theorem run_write (target : OutputTarget) (bytes : List UInt8) (world : World) :
    (write surroundings.host target bytes).run world =
      ((surroundings.put target bytes world).1.mapError (.output target),
        (surroundings.put target bytes world).2) := by
  unfold write put
  cases target with
  | file path =>
      have saving : (surroundings.host.save path bytes).run world =
          ((surroundings.save path bytes world).1, (surroundings.save path bytes world).2) := rfl
      dsimp only
      rw [run_bind_of saving]
      cases (surroundings.save path bytes world).1 <;> rfl
  | standardOutput =>
      have printing : (surroundings.host.print bytes).run world =
          ((surroundings.print bytes world).1, (surroundings.print bytes world).2) := rfl
      dsimp only
      rw [run_bind_of printing]
      cases (surroundings.print bytes world).1 <;> rfl

/-- A place takes bytes without a failure. -/
def Takes : OutputTarget → List UInt8 → Prop
  | .file path, bytes => surroundings.saving path bytes = .ok ()
  | .standardOutput, bytes => surroundings.printing bytes = .ok ()

/-- Bytes are delivered, or a failure is reported and only their place may have changed. -/
theorem put_cases (target : OutputTarget) (bytes : List UInt8) (before : World) :
    ∃ after, after.actions = before.actions ++ [Action.write target bytes] ∧
      (surroundings.put target bytes before = (.ok (), after) ∧
          Delivered target bytes before after ∨
        ∃ reason, surroundings.put target bytes before = (.error reason, after) ∧
          ¬ surroundings.Takes target bytes ∧ Spoiled target bytes before after) := by
  cases target with
  | file path =>
      rw [put, save, Takes]
      cases surroundings.saving path bytes with
      | ok _ =>
          refine ⟨_, rfl, Or.inl ⟨rfl, if_pos rfl, ?_, rfl⟩⟩
          intro other differs
          exact if_neg differs
      | error failure =>
          refine ⟨_, rfl, Or.inr ⟨_, rfl, by simp, ?_, rfl⟩⟩
          intro other differs
          exact if_neg differs
  | standardOutput =>
      rw [put, print, Takes]
      cases surroundings.printing bytes with
      | ok _ =>
          exact ⟨_, rfl, Or.inl ⟨rfl, rfl, rfl⟩⟩
      | error failure =>
          exact ⟨_, rfl, Or.inr ⟨_, rfl, by simp, rfl, _, List.take_prefix _ _, rfl⟩⟩

/-! ## All ways in which a run can end -/

/-- How a run ends: with which result, and in which world. -/
inductive Ends (arguments : List String) (before : World) :
    Except RunError Outcome → World → Prop
  | refused {error : RequestError} (request : resolve arguments = .error error) :
      Ends arguments before (.error (.request error)) before
  | help (request : resolve arguments = .ok .help) : Ends arguments before (.ok .help) before
  | version (request : resolve arguments = .ok .version) :
      Ends arguments before (.ok .version) before
  | noInput {configuration : Configuration} {output : Option String} {reason : String}
      (request : resolve arguments = .ok (.print configuration output))
      (input : surroundings.input = .error reason) :
      Ends arguments before (.error (.input reason)) (before.did [.readInput])
  | notRendered {configuration : Configuration} {output : Option String} {markup : List UInt8}
      {error : RunError} (request : resolve arguments = .ok (.print configuration output))
      (input : surroundings.input = .ok markup)
      (failed : surroundings.rendered before.files markup configuration = .error error) :
      Ends arguments before (.error error)
        (before.did (.readInput :: surroundings.renderActions markup configuration))
  | notWritten {configuration : Configuration} {output : Option String} {markup bytes : List UInt8}
      {reason : String} {after : World}
      (request : resolve arguments = .ok (.print configuration output))
      (input : surroundings.input = .ok markup)
      (rendered : surroundings.rendered before.files markup configuration = .ok bytes)
      (actions : after.actions = before.actions ++ (.readInput ::
        (surroundings.renderActions markup configuration ++ [.write (.ofPath output) bytes])))
      (failed : ¬ surroundings.Takes (.ofPath output) bytes)
      (spoiled : Spoiled (.ofPath output) bytes before after) :
      Ends arguments before (.error (.output (.ofPath output) reason)) after
  | written {configuration : Configuration} {output : Option String} {markup bytes : List UInt8}
      {after : World} (request : resolve arguments = .ok (.print configuration output))
      (input : surroundings.input = .ok markup)
      (rendered : surroundings.rendered before.files markup configuration = .ok bytes)
      (actions : after.actions = before.actions ++ (.readInput ::
        (surroundings.renderActions markup configuration ++ [.write (.ofPath output) bytes])))
      (delivered : Delivered (.ofPath output) bytes before after) :
      Ends arguments before (.ok .printed) after

theorem run_print (configuration : Configuration) (output : Option String) (world : World) :
    (Run.print surroundings.host surroundings.stages configuration output).run world =
      match surroundings.input with
      | .error reason => (.error (.input reason), world.did [.readInput])
      | .ok markup =>
        let rendering := world.did (.readInput :: surroundings.renderActions markup configuration)
        match surroundings.rendered world.files markup configuration with
        | .error error => (.error error, rendering)
        | .ok bytes =>
          ((surroundings.put (.ofPath output) bytes rendering).1.mapError (.output (.ofPath output)),
            (surroundings.put (.ofPath output) bytes rendering).2) := by
  have reading : surroundings.host.input.run world =
      (surroundings.input, world.did [.readInput]) := rfl
  rw [Run.print, run_bind_of reading]
  cases surroundings.input with
  | error reason =>
      rfl
  | ok markup =>
      have rendering := surroundings.run_render markup configuration (world.did [.readInput])
      rw [World.did_did, World.files_did] at rendering
      dsimp only
      rw [run_bind_of rendering]
      cases surroundings.rendered world.files markup configuration with
      | error error =>
          rfl
      | ok bytes =>
          exact surroundings.run_write _ _ _

/-- A run ends in one of these ways. -/
theorem ends_executed (arguments : List String) (before : World) :
    surroundings.Ends arguments before (surroundings.executed arguments before).1
      (surroundings.executed arguments before).2 := by
  rw [executed, execute]
  cases request : resolve arguments with
  | error error =>
      exact .refused request
  | ok asked =>
      cases asked with
      | help =>
          exact .help request
      | version =>
          exact .version request
      | print configuration output =>
          dsimp only
          rw [StateT.run_bind, run_print]
          cases input : surroundings.input with
          | error reason =>
              exact .noInput request input
          | ok markup =>
              dsimp only
              cases rendered : surroundings.rendered before.files markup configuration with
              | error error =>
                  exact .notRendered request input rendered
              | ok bytes =>
                  dsimp only
                  obtain ⟨after, actions, ⟨put, delivered⟩ | ⟨reason, put, failed, spoiled⟩⟩ :=
                    surroundings.put_cases (.ofPath output) bytes
                      (before.did (.readInput :: surroundings.renderActions markup configuration))
                  · rw [put]
                    exact .written request input rendered
                      (actions.trans (List.append_assoc _ _ _)) delivered
                  · rw [put]
                    exact .notWritten request input rendered
                      (actions.trans (List.append_assoc _ _ _)) failed spoiled

end Surroundings

end LabelPress.Run
