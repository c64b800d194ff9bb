import LabelPress.Proofs.CommandLine.Settings
import LabelPress.Proofs.Run.Endings

/-!
# A picture is delivered whole, or nothing is

What holds for all runs is read off the ways in which a run can end: a run without a picture leaves
files and standard output as they were (`Ends.unchanged`), a picture arrives whole in one place
(`Ends.delivered`), and the reader and the drawer are called in order, at most once
(`Ends.orderly`).  `completed_eq` says what the program adds to a run: it tells the user about it,
and its exit status says how the run ended, unless the user cannot be told (`completed_status`).
The main statement (`executed_delivers`) joins these for all arguments and all surroundings.
-/

namespace LabelPress.Run

open CommandLine

namespace Action

/-- Whether markup is read. -/
def readsMarkup : Action → Bool
  | readMarkup _ => true
  | _ => false

/-- Whether a label is drawn. -/
def drawsLabel : Action → Bool
  | drawLabel .. => true
  | _ => false

theorem readsMarkup_write (target : OutputTarget) (bytes : List UInt8) :
    (write target bytes).readsMarkup = false := by
  cases target <;> rfl

theorem drawsLabel_write (target : OutputTarget) (bytes : List UInt8) :
    (write target bytes).drawsLabel = false := by
  cases target <;> rfl

end Action

namespace Surroundings

variable (surroundings : Surroundings)

/-! ## What follows for a run -/

/-- Rendering does not report that a picture cannot be written. -/
theorem ne_output_of_rendered {files : Files} {markup : List UInt8} {configuration : Configuration}
    {error : RunError} (failed : surroundings.rendered files markup configuration = .error error)
    (target : OutputTarget) (reason : String) : error ≠ .output target reason := by
  rintro rfl
  rw [rendered_eq] at failed
  split at failed
  · cases failed
  · cases failed
  · rw [picture, Id.run_bind] at failed
    split at failed
    · cases failed
    · split at failed <;> cases failed

section Endings

variable {surroundings} {arguments : List String} {before after : World}
  {result : Except RunError Outcome}

/-- Unless bytes are written, nothing changes. -/
theorem Ends.unchanged (ends : surroundings.Ends arguments before result after)
    (notPrinted : result ≠ .ok .printed)
    (notFailed : ∀ target reason, result ≠ .error (.output target reason)) :
    after.files = before.files ∧ after.output = before.output := by
  cases ends with
  | refused | help | version | noInput | notRendered =>
      exact ⟨rfl, rfl⟩
  | notWritten =>
      exact absurd rfl (notFailed _ _)
  | written =>
      exact absurd rfl notPrinted

/-- A picture is delivered whole. -/
theorem Ends.delivered (ends : surroundings.Ends arguments before (.ok .printed) after) :
    ∃ configuration output markup bytes, resolve arguments = .ok (.print configuration output) ∧
      surroundings.input = .ok markup ∧
      surroundings.rendered before.files markup configuration = .ok bytes ∧
      Delivered (.ofPath output) bytes before after := by
  cases ends with
  | written request input rendered actions delivered =>
      exact ⟨_, _, _, _, request, input, rendered, delivered⟩

/-- Once a picture is rendered, only the write decides how the run ends. -/
theorem Ends.of_rendered {configuration : Configuration} {output : Option String}
    {markup bytes : List UInt8} (ends : surroundings.Ends arguments before result after)
    (request : resolve arguments = .ok (.print configuration output))
    (input : surroundings.input = .ok markup)
    (rendered : surroundings.rendered before.files markup configuration = .ok bytes) :
    result = .ok .printed ∧ Delivered (.ofPath output) bytes before after ∨
      result ≠ .ok .printed ∧ ¬ surroundings.Takes (.ofPath output) bytes := by
  cases ends with
  | refused other | help other | version other =>
      rw [request] at other
      cases other
  | noInput other failed =>
      rw [input] at failed
      cases failed
  | notRendered other otherInput failed =>
      rw [request] at other
      cases other
      rw [input] at otherInput
      cases otherInput
      rw [rendered] at failed
      cases failed
  | notWritten other otherInput otherRendered actions failed =>
      rw [request] at other
      cases other
      rw [input] at otherInput
      cases otherInput
      rw [rendered] at otherRendered
      cases otherRendered
      exact Or.inr ⟨by simp, failed⟩
  | written other otherInput otherRendered actions delivered =>
      rw [request] at other
      cases other
      rw [input] at otherInput
      cases otherInput
      rw [rendered] at otherRendered
      cases otherRendered
      exact Or.inl ⟨rfl, delivered⟩

/-- A write that fails can change only the place for which the picture was meant. -/
theorem Ends.spoiled {target : OutputTarget} {reason : String}
    (ends : surroundings.Ends arguments before (.error (.output target reason)) after) :
    ∃ configuration output markup bytes, resolve arguments = .ok (.print configuration output) ∧
      surroundings.input = .ok markup ∧
      surroundings.rendered before.files markup configuration = .ok bytes ∧
      target = .ofPath output ∧ Spoiled target bytes before after := by
  cases ends with
  | notRendered request input failed =>
      exact absurd rfl (surroundings.ne_output_of_rendered failed target reason)
  | notWritten request input rendered actions failed spoiled =>
      exact ⟨_, _, _, _, request, input, rendered, rfl, spoiled⟩

/-- A run does nothing, or reads the input, and then goes on up to what is written. -/
theorem Ends.performed (ends : surroundings.Ends arguments before result after) :
    ∃ performed, after.actions = before.actions ++ performed ∧
      (performed = [] ∨ performed = [.readInput] ∨
        ∃ configuration output markup writes,
          resolve arguments = .ok (.print configuration output) ∧
            surroundings.input = .ok markup ∧
            performed = .readInput :: (surroundings.renderActions markup configuration ++ writes) ∧
            ∀ action ∈ writes, action.readsMarkup = false ∧ action.drawsLabel = false) := by
  cases ends with
  | refused | help | version =>
      exact ⟨[], (List.append_nil _).symm, Or.inl rfl⟩
  | noInput request input =>
      exact ⟨_, rfl, Or.inr (Or.inl rfl)⟩
  | notRendered request input failed =>
      exact ⟨_, rfl, Or.inr (Or.inr ⟨_, _, _, [], request, input, by rw [List.append_nil],
        List.forall_mem_nil _⟩)⟩
  | notWritten request input rendered actions | written request input rendered actions =>
      refine ⟨_, actions, Or.inr (Or.inr ⟨_, _, _, _, request, input, rfl, ?_⟩)⟩
      intro action member
      rw [List.mem_singleton.mp member]
      exact ⟨Action.readsMarkup_write _ _, Action.drawsLabel_write _ _⟩

end Endings

/-! ## Calls -/

/-- Calls of the reader and the drawer, as they may stand in what a run did. -/
structure Orderly (arguments : List String) (performed : List Action) : Prop where
  /-- Markup is read at most once. -/
  readOnce : performed.countP Action.readsMarkup ≤ 1
  /-- A label is drawn at most once. -/
  drawnOnce : performed.countP Action.drawsLabel ≤ 1
  /-- Only after the arguments were resolved and all the input was read, its bytes are read. -/
  read : ∀ markup, .readMarkup markup ∈ performed →
    (∃ configuration output, resolve arguments = .ok (.print configuration output)) ∧
      surroundings.input = .ok markup ∧ [.readInput, .readMarkup markup] <+: performed
  /-- Only the first label is drawn, after the markup was read. -/
  drawn : ∀ label options, .drawLabel label options ∈ performed →
    ∃ markup rest, surroundings.reader markup = .ok (label :: rest) ∧
      [.readInput, .readMarkup markup, .drawLabel label options] <+: performed

section Calls

variable {surroundings} {arguments : List String} {before after : World}
  {result : Except RunError Outcome}

theorem renderActions_cases (markup : List UInt8) (configuration : Configuration) :
    surroundings.renderActions markup configuration = [.readMarkup markup] ∨
      ∃ label rest, surroundings.reader markup = .ok (label :: rest) ∧
        surroundings.renderActions markup configuration =
          [.readMarkup markup, .drawLabel label configuration.drawOptions] := by
  rw [renderActions]
  cases surroundings.reader markup with
  | error error =>
      exact Or.inl rfl
  | ok labels =>
      cases labels with
      | nil =>
          exact Or.inl rfl
      | cons label rest =>
          exact Or.inr ⟨label, rest, rfl, rfl⟩

/-- What is called while markup is rendered is in order, whatever is written afterwards. -/
theorem orderly_of_rendering {configuration : Configuration} {output : Option String}
    {markup : List UInt8} {writes : List Action}
    (request : resolve arguments = .ok (.print configuration output))
    (input : surroundings.input = .ok markup)
    (others : ∀ action ∈ writes, action.readsMarkup = false ∧ action.drawsLabel = false) :
    surroundings.Orderly arguments
      (.readInput :: (surroundings.renderActions markup configuration ++ writes)) := by
  have notRead (other : List UInt8) : .readMarkup other ∉ writes := by
    intro member
    cases (others _ member).1
  have notDrawn (label : Label) (options : DrawOptions) : .drawLabel label options ∉ writes := by
    intro member
    cases (others _ member).2
  have noneReads : writes.countP Action.readsMarkup = 0 :=
    List.countP_eq_zero.mpr fun action member => Bool.not_eq_true _ ▸ (others action member).1
  have noneDraws : writes.countP Action.drawsLabel = 0 :=
    List.countP_eq_zero.mpr fun action member => Bool.not_eq_true _ ▸ (others action member).2
  rcases surroundings.renderActions_cases markup configuration with
    calls | ⟨label, rest, labels, calls⟩
  · rw [calls]
    refine ⟨?_, ?_, ?_, ?_⟩
    · simp [List.countP_cons, noneReads, Action.readsMarkup]
    · simp [noneDraws, Action.drawsLabel]
    · intro other member
      obtain rfl : other = markup := by simpa [notRead] using member
      exact ⟨⟨_, _, request⟩, input, List.prefix_append _ _⟩
    · intro other options member
      simp [notDrawn] at member
  · rw [calls]
    refine ⟨?_, ?_, ?_, ?_⟩
    · simp [List.countP_cons, noneReads, Action.readsMarkup]
    · simp [List.countP_cons, noneDraws, Action.drawsLabel]
    · intro other member
      obtain rfl : other = markup := by simpa [notRead] using member
      exact ⟨⟨_, _, request⟩, input, _, rfl⟩
    · intro other options member
      obtain ⟨rfl, rfl⟩ : other = label ∧ options = configuration.drawOptions := by
        simpa [notDrawn] using member
      exact ⟨markup, rest, labels, List.prefix_append _ _⟩

theorem Ends.orderly (ends : surroundings.Ends arguments before result after) :
    ∃ performed, after.actions = before.actions ++ performed ∧
      surroundings.Orderly arguments performed := by
  obtain ⟨performed, actions, rfl | rfl |
    ⟨configuration, output, markup, writes, request, input, rfl, others⟩⟩ := ends.performed
  · exact ⟨[], actions, by decide, by decide, by simp, by simp⟩
  · exact ⟨[.readInput], actions, by decide, by decide, by simp, by simp⟩
  · exact ⟨_, actions, orderly_of_rendering request input others⟩

/-- A reader with the same first label leads to the same run. -/
theorem executed_congr {reader : List UInt8 → Except Markup.MarkupError (List Label)}
    (same : ∀ markup, surroundings.input = .ok markup →
      (reader markup).map List.head? = (surroundings.reader markup).map List.head?) :
    ({ surroundings with reader } : Surroundings).executed arguments before =
      surroundings.executed arguments before := by
  rw [executed, executed, execute, execute]
  cases resolve arguments with
  | error error =>
      rfl
  | ok asked =>
      cases asked with
      | help | version =>
          rfl
      | print configuration output =>
          dsimp only
          rw [StateT.run_bind, StateT.run_bind, run_print, run_print]
          cases input : surroundings.input with
          | error reason =>
              rfl
          | ok markup =>
              dsimp only
              rw [renderActions, renderActions, rendered_eq, rendered_eq, same markup input]
              rfl

/-- The same picture arrives in a file and on standard output. -/
theorem executed_agree {others : List String} {configuration : Configuration} {path : String}
    (toFile : resolve arguments = .ok (.print configuration (some path)))
    (toOutput : resolve others = .ok (.print configuration none))
    (saved : (surroundings.executed arguments before).1 = .ok .printed)
    (printed : (surroundings.executed others before).1 = .ok .printed) :
    ∃ bytes, (surroundings.executed arguments before).2.files path = some bytes ∧
      (surroundings.executed others before).2.output = before.output ++ bytes := by
  have first := surroundings.ends_executed arguments before
  have second := surroundings.ends_executed others before
  rw [saved] at first
  rw [printed] at second
  obtain ⟨_, _, markup, bytes, request, input, rendered, delivered⟩ := first.delivered
  rw [toFile] at request
  cases request
  rw [OutputTarget.ofPath, if_neg (ne_empty_of_resolve toFile)] at delivered
  rcases second.of_rendered toOutput input rendered with ⟨-, arrived⟩ | ⟨failed, -⟩
  · exact ⟨bytes, delivered.1, arrived.2⟩
  · exact absurd rfl failed

end Calls

/-! ## The program -/

/-- The program breaks off: its exit status, and the world afterwards. -/
def brokenOff (stream reason : String) (world : World) : UInt32 × World :=
  (101, (surroundings.complain ("failed printing to " ++ stream ++ ": " ++ reason ++ "\n") world).2)

/-- Text that was asked for is written: the exit status, and the world afterwards. -/
def answered (text : String) (world : World) : UInt32 × World :=
  match surroundings.print (Text.encode text.toList) world with
  | (.ok _, after) => (0, after)
  | (.error reason, after) => surroundings.brokenOff "stdout" reason after

/-- An error is reported: the exit status, and the world afterwards. -/
def reported (error : RunError) (world : World) : UInt32 × World :=
  match surroundings.complain ("Error: " ++ error.message ++ "\n") world with
  | (.ok _, after) =>
    (error.exitCode,
      if error.showsUsage then (surroundings.print (Text.encode usage.toList) after).2 else after)
  | (.error reason, after) => surroundings.brokenOff "stderr" reason after

theorem run_answer (text : String) (world : World) :
    (answer surroundings.host text).run world = surroundings.answered text world := by
  have printing : (surroundings.host.print (Text.encode text.toList)).run world =
      ((surroundings.print (Text.encode text.toList) world).1,
        (surroundings.print (Text.encode text.toList) world).2) := rfl
  rw [answered, answer, run_bind_of printing]
  rcases surroundings.print (Text.encode text.toList) world with ⟨_ | _, after⟩ <;> rfl

theorem run_report (error : RunError) (world : World) :
    (report surroundings.host error).run world = surroundings.reported error world := by
  have complaining : (surroundings.host.complain ("Error: " ++ error.message ++ "\n")).run world =
      ((surroundings.complain ("Error: " ++ error.message ++ "\n") world).1,
        (surroundings.complain ("Error: " ++ error.message ++ "\n") world).2) := rfl
  rw [reported, report, run_bind_of complaining]
  rcases surroundings.complain ("Error: " ++ error.message ++ "\n") world with ⟨_ | _, after⟩
  · rfl
  · cases shown : error.showsUsage <;> rfl

/-- What the program does behind its run. -/
theorem completed_eq (arguments : List String) (before : World) :
    surroundings.completed arguments before =
      match surroundings.executed arguments before with
      | (.ok .printed, after) => (0, after)
      | (.ok .help, after) => surroundings.answered usage after
      | (.ok .version, after) => surroundings.answered version after
      | (.error error, after) => surroundings.reported error after := by
  have running : (execute surroundings.host surroundings.stages arguments).run before =
      ((surroundings.executed arguments before).1, (surroundings.executed arguments before).2) :=
    rfl
  rw [completed, program, run_bind_of running]
  rcases surroundings.executed arguments before with ⟨error | outcome, after⟩
  · exact surroundings.run_report error after
  · cases outcome with
    | printed =>
        rfl
    | help =>
        exact surroundings.run_answer usage after
    | version =>
        exact surroundings.run_answer version after

/-- What the user is told about the result of a run, besides a picture, is taken. -/
def Told : Except RunError Outcome → Prop
  | .ok .printed => True
  | .ok .help => surroundings.printing (Text.encode usage.toList) = .ok ()
  | .ok .version => surroundings.printing (Text.encode version.toList) = .ok ()
  | .error error =>
    surroundings.complaining (Text.encode ("Error: " ++ error.message ++ "\n").toList) = .ok ()

/-- Text that was asked for is written, or the program breaks off. -/
theorem answered_cases (text : String) (world : World) :
    surroundings.printing (Text.encode text.toList) = .ok () ∧
        (surroundings.answered text world).1 = 0 ∨
      surroundings.printing (Text.encode text.toList) ≠ .ok () ∧
        (surroundings.answered text world).1 = 101 := by
  rw [answered, print]
  cases surroundings.printing (Text.encode text.toList) with
  | error failure =>
      exact Or.inr ⟨by simp, rfl⟩
  | ok _ =>
      exact Or.inl ⟨rfl, rfl⟩

/-- A message changes neither files nor standard output, whether or not it is taken. -/
theorem complain_cases (text : String) (before : World) :
    ∃ after, (surroundings.complain text before = (.ok (), after) ∧
          surroundings.complaining (Text.encode text.toList) = .ok () ∨
        ∃ reason, surroundings.complain text before = (.error reason, after) ∧
          surroundings.complaining (Text.encode text.toList) ≠ .ok ()) ∧
      after.files = before.files ∧ after.output = before.output := by
  rw [complain]
  cases surroundings.complaining (Text.encode text.toList) with
  | error failure =>
      exact ⟨_, Or.inr ⟨_, rfl, by simp⟩, rfl, rfl⟩
  | ok _ =>
      exact ⟨_, Or.inl ⟨rfl, rfl⟩, rfl, rfl⟩

theorem brokenOff_quiet (stream reason : String) (before : World) :
    (surroundings.brokenOff stream reason before).2.files = before.files ∧
      (surroundings.brokenOff stream reason before).2.output = before.output := by
  obtain ⟨after, ⟨said, -⟩ | ⟨_, said, -⟩, files, output⟩ := surroundings.complain_cases
    ("failed printing to " ++ stream ++ ": " ++ reason ++ "\n") before
  · rw [brokenOff, said]
    exact ⟨files, output⟩
  · rw [brokenOff, said]
    exact ⟨files, output⟩

/-- An error is reported, or the program breaks off. -/
theorem reported_cases (error : RunError) (world : World) :
    surroundings.Told (.error error) ∧ (surroundings.reported error world).1 = error.exitCode ∨
      ¬ surroundings.Told (.error error) ∧ (surroundings.reported error world).1 = 101 := by
  obtain ⟨after, ⟨said, told⟩ | ⟨reason, said, untold⟩, -⟩ :=
    surroundings.complain_cases ("Error: " ++ error.message ++ "\n") world
  · rw [reported, said]
    exact Or.inl ⟨told, rfl⟩
  · rw [reported, said]
    exact Or.inr ⟨untold, rfl⟩

end Surroundings

/-- The configuration is missing, or an argument is wrong. -/
def WrongArguments : RunError → Prop
  | .request .configMissing | .request (.unknownArgument _) | .request (.valueMissing _) => True
  | _ => False

theorem exitCode_cases (error : RunError) :
    WrongArguments error ∧ error.exitCode = 2 ∨ ¬ WrongArguments error ∧ error.exitCode = 1 := by
  cases error with
  | request error =>
      cases error with
      | config => exact Or.inr ⟨id, rfl⟩
      | configMissing | unknownArgument | valueMissing => exact Or.inl ⟨trivial, rfl⟩
  | input | markup | noLabels | drawing | turning | output =>
      exact Or.inr ⟨id, rfl⟩

namespace Surroundings

variable (surroundings : Surroundings)

/-- The exit status tells how the run ended, unless the user cannot be told about it. -/
theorem completed_status (arguments : List String) (before : World) :
    let result := (surroundings.executed arguments before).1
    let status := (surroundings.completed arguments before).1
    ¬ surroundings.Told result ∧ status = 101 ∨
      surroundings.Told result ∧
        ((∃ outcome, result = .ok outcome) ∧ status = 0 ∨
          ∃ error, result = .error error ∧ status = error.exitCode) := by
  rw [completed_eq]
  rcases surroundings.executed arguments before with ⟨error | outcome, after⟩
  · rcases surroundings.reported_cases error after with ⟨told, status⟩ | ⟨untold, status⟩
    · exact Or.inr ⟨told, Or.inr ⟨error, rfl, status⟩⟩
    · exact Or.inl ⟨untold, status⟩
  · cases outcome with
    | printed =>
        exact Or.inr ⟨trivial, Or.inl ⟨⟨.printed, rfl⟩, rfl⟩⟩
    | help =>
        rcases surroundings.answered_cases usage after with ⟨told, status⟩ | ⟨untold, status⟩
        · exact Or.inr ⟨told, Or.inl ⟨⟨.help, rfl⟩, status⟩⟩
        · exact Or.inl ⟨untold, status⟩
    | version =>
        rcases surroundings.answered_cases version after with ⟨told, status⟩ | ⟨untold, status⟩
        · exact Or.inr ⟨told, Or.inl ⟨⟨.version, rfl⟩, status⟩⟩
        · exact Or.inl ⟨untold, status⟩

/-- If the user is told how the run ended, each way of ending has its own exit status. -/
theorem completed_status_iff {arguments : List String} {before : World}
    (told : surroundings.Told (surroundings.executed arguments before).1) :
    let result := (surroundings.executed arguments before).1
    let status := (surroundings.completed arguments before).1
    (status = 0 ↔ ∃ outcome, result = .ok outcome) ∧
      (status = 2 ↔ ∃ error, result = .error error ∧ WrongArguments error) ∧
      (status = 1 ↔ ∃ error, result = .error error ∧ ¬ WrongArguments error) := by
  intro result status
  rcases surroundings.completed_status arguments before with
    ⟨untold, -⟩ | ⟨-, ⟨⟨outcome, ended⟩, found⟩ | ⟨error, ended, found⟩⟩
  · exact absurd told untold
  · simp [result, status, ended, found]
  · rcases exitCode_cases error with ⟨wrong, code⟩ | ⟨other, code⟩
    · simp [result, status, ended, found, code, wrong]
    · simp [result, status, ended, found, code, other]

theorem showsUsage_iff (error : RunError) :
    error.showsUsage = true ↔ error = .request .configMissing := by
  cases error with
  | request error =>
      cases error <;> simp [RunError.showsUsage]
  | input | markup | noLabels | drawing | turning | output =>
      simp [RunError.showsUsage]

/-- What is printed, or the part of it that arrives, comes behind what was there. -/
theorem print_cases (bytes : List UInt8) (before : World) :
    (surroundings.print bytes before).2.files = before.files ∧
      ∃ arrived, arrived <+: bytes ∧ (surroundings.printing bytes = .ok () → arrived = bytes) ∧
        (surroundings.print bytes before).2.output = before.output ++ arrived := by
  have put : surroundings.put .standardOutput bytes before = surroundings.print bytes before := rfl
  obtain ⟨after, -, ⟨printed, files, output⟩ |
    ⟨reason, printed, refused, files, arrived, front, output⟩⟩ :=
    surroundings.put_cases .standardOutput bytes before
  · rw [← put, printed]
    exact ⟨files, bytes, List.prefix_rfl, fun _ => rfl, output⟩
  · rw [← put, printed]
    exact ⟨files, arrived, front, fun taken => absurd taken refused, output⟩

/-- An error is reported without a picture, and only a missing configuration brings the help. -/
theorem reported_output (error : RunError) (before : World) :
    (surroundings.reported error before).2.files = before.files ∧
      (error ≠ .request .configMissing →
        (surroundings.reported error before).2.output = before.output) ∧
      (error = .request .configMissing →
        ∃ arrived, arrived <+: Text.encode usage.toList ∧
          (surroundings.Told (.error error) → surroundings.Told (.ok .help) →
            arrived = Text.encode usage.toList) ∧
          (surroundings.reported error before).2.output = before.output ++ arrived) := by
  obtain ⟨after, ⟨said, -⟩ | ⟨reason, said, untold⟩, files, output⟩ :=
    surroundings.complain_cases ("Error: " ++ error.message ++ "\n") before
  · rw [reported, said, ← files, ← output]
    cases shown : error.showsUsage with
    | false =>
        refine ⟨rfl, fun _ => rfl, ?_⟩
        intro missing
        rw [(showsUsage_iff error).mpr missing] at shown
        cases shown
    | true =>
        dsimp only
        rw [if_pos rfl]
        obtain ⟨kept, arrived, front, whole, shownBehind⟩ :=
          surroundings.print_cases (Text.encode usage.toList) after
        refine ⟨kept, fun other => absurd ((showsUsage_iff error).mp shown) other, ?_⟩
        exact fun _ => ⟨arrived, front, fun _ => whole, shownBehind⟩
  · rw [reported, said, ← files, ← output]
    obtain ⟨kept, silent⟩ := surroundings.brokenOff_quiet "stderr" reason after
    refine ⟨kept, fun _ => silent, ?_⟩
    exact fun _ => ⟨[], List.nil_prefix, fun told => absurd told untold,
      silent.trans (List.append_nil _).symm⟩

/-- A picture arrives whole, in the file that is named last or on standard output. -/
theorem delivered_of_printed {arguments : List String} {before after : World}
    (printed : surroundings.executed arguments before = (.ok .printed, after)) :
    ∃ settings text configuration markup bytes,
      Spells arguments settings ∧ lastValue .config settings = some text ∧
        Configuration.ofText text = .ok configuration ∧ surroundings.input = .ok markup ∧
        surroundings.rendered before.files markup configuration = .ok bytes ∧
        match (lastValue .output settings).filter (· ≠ "") with
        | some path => Delivered (.file path) bytes before after
        | none => Delivered .standardOutput bytes before after := by
  have ends := surroundings.ends_executed arguments before
  rw [printed] at ends
  obtain ⟨configuration, output, markup, bytes, request, input, rendered, delivered⟩ :=
    ends.delivered
  obtain ⟨settings, text, spells, config, read, target⟩ := resolve_eq_print request
  refine ⟨settings, text, configuration, markup, bytes, spells, config, read, input, rendered, ?_⟩
  rw [← target]
  cases output with
  | none =>
      exact delivered
  | some path =>
      rw [OutputTarget.ofPath, if_neg (ne_empty_of_resolve request)] at delivered
      exact delivered

/--
A picture is delivered whole, or nothing is, whatever the arguments and the surroundings are.

* A run without a picture leaves all files and standard output as they were, unless the picture
  could not be written; then only the place for it may have changed.
* A run with a picture has put all bytes of the rendering into one place, the file that is named
  last or standard output, and changed nothing else; so both places get the same bytes.  What can be
  rendered and written is printed.
* The markup is read at most once, when the arguments are resolved and the input has been read, and
  at most one label is drawn, which is the first; readers with the same first label lead to the
  same run.
* If the help, the version or the error that the user is told about can be written, the program ends
  with 0 exactly if the run succeeds, with 2 exactly for wrong arguments and with 1 for all other
  errors.  After an error it changes no file and writes nothing to standard output, but for the help
  if the configuration is missing.
-/
theorem executed_delivers (arguments : List String) (before : World) :
    let result := (surroundings.executed arguments before).1
    let after := (surroundings.executed arguments before).2
    let status := (surroundings.completed arguments before).1
    let final := (surroundings.completed arguments before).2
    ((result ≠ .ok .printed → (∀ target reason, result ≠ .error (.output target reason)) →
          after.files = before.files ∧ after.output = before.output) ∧
        ∀ target reason, result = .error (.output target reason) →
          ∃ configuration output markup bytes,
            resolve arguments = .ok (.print configuration output) ∧
              surroundings.input = .ok markup ∧
              surroundings.rendered before.files markup configuration = .ok bytes ∧
              target = .ofPath output ∧ Spoiled target bytes before after) ∧
      ((result = .ok .printed →
          ∃ settings text configuration markup bytes,
            Spells arguments settings ∧ lastValue .config settings = some text ∧
              Configuration.ofText text = .ok configuration ∧ surroundings.input = .ok markup ∧
              surroundings.rendered before.files markup configuration = .ok bytes ∧
              match (lastValue .output settings).filter (· ≠ "") with
              | some path => Delivered (.file path) bytes before after
              | none => Delivered .standardOutput bytes before after) ∧
        (∀ configuration output markup bytes,
          resolve arguments = .ok (.print configuration output) →
          surroundings.input = .ok markup →
          surroundings.rendered before.files markup configuration = .ok bytes →
          surroundings.Takes (.ofPath output) bytes → result = .ok .printed) ∧
        ∀ others configuration path,
          resolve arguments = .ok (.print configuration (some path)) →
          resolve others = .ok (.print configuration none) →
          result = .ok .printed → (surroundings.executed others before).1 = .ok .printed →
          ∃ bytes, after.files path = some bytes ∧
            (surroundings.executed others before).2.output = before.output ++ bytes) ∧
      ((∃ performed, after.actions = before.actions ++ performed ∧
          surroundings.Orderly arguments performed) ∧
        ∀ reader, (∀ markup, surroundings.input = .ok markup →
            (reader markup).map List.head? = (surroundings.reader markup).map List.head?) →
          ({ surroundings with reader } : Surroundings).executed arguments before =
            (result, after)) ∧
      ((surroundings.Told result →
          (status = 0 ↔ ∃ outcome, result = .ok outcome) ∧
            (status = 2 ↔ ∃ error, result = .error error ∧ WrongArguments error) ∧
            (status = 1 ↔ ∃ error, result = .error error ∧ ¬ WrongArguments error)) ∧
        ∀ error, result = .error error →
          final.files = after.files ∧
            (error ≠ .request .configMissing → final.output = after.output) ∧
            (error = .request .configMissing →
              ∃ arrived, arrived <+: Text.encode usage.toList ∧
                (surroundings.Told result → surroundings.Told (.ok .help) →
                  arrived = Text.encode usage.toList) ∧
                final.output = after.output ++ arrived)) := by
  intro result after status final
  have ends := surroundings.ends_executed arguments before
  refine ⟨⟨ends.unchanged, ?_⟩, ⟨?_, ?_, ?_⟩, ⟨ends.orderly, ?_⟩,
    surroundings.completed_status_iff, ?_⟩
  · intro target reason failed
    have ends : surroundings.Ends arguments before result after := ends
    rw [failed] at ends
    exact ends.spoiled
  · intro printed
    exact surroundings.delivered_of_printed (Prod.ext printed rfl)
  · intro configuration output markup bytes request input rendered takes
    rcases ends.of_rendered request input rendered with ⟨printed, -⟩ | ⟨-, failed⟩
    · exact printed
    · exact absurd takes failed
  · intro others configuration path toFile toOutput
    exact executed_agree toFile toOutput
  · intro reader same
    exact executed_congr same
  · intro error failed
    have completed : (surroundings.completed arguments before).2 =
        (surroundings.reported error after).2 := by
      rw [completed_eq, show surroundings.executed arguments before = (.error error, after) from
        Prod.ext failed rfl]
    rw [show final = (surroundings.reported error after).2 from completed, failed]
    exact surroundings.reported_output error after

/--
Two labels, of which the first is printed over the file that is named last; and no arguments, for
which the help is shown.
-/
theorem executed_delivers_over_last_file :
    let surroundings : Surroundings :=
      { input := .ok [94], reader := fun _ => .ok [{}, { inverted := true }]
        drawer := fun _ label _ => .ok (if label.inverted then [1] else [7, 8])
        isFile := fun _ _ => false, loading := fun _ _ => .error "missing"
        saving := fun _ _ => .ok (), printing := fun _ => .ok (), complaining := fun _ => .ok () }
    let before : World := ⟨fun _ => some [9, 9, 9], [], [], []⟩
    let arguments := ["-c\x7b\x7d", "--output=first.png", "-o", "second.png"]
    let others := ["--config", "\x7b\x7d"]
    (surroundings.executed arguments before).1 = .ok .printed ∧
      (surroundings.completed arguments before).1 = 0 ∧
      (∃ bytes, (surroundings.executed arguments before).2.files "second.png" = some bytes ∧
        (surroundings.executed others before).2.output = [] ++ bytes) ∧
      (surroundings.executed others before).2.output = [7, 8] ∧
      (surroundings.executed [] before).1 = .error (.request .configMissing) ∧
      (surroundings.completed [] before).1 = 2 ∧
      (surroundings.completed [] before).2.output = [] ++ Text.encode usage.toList := by
  intro surroundings before arguments others
  have settings : resolve arguments =
      Settings.request ⟨some "\x7b\x7d", some "second.png"⟩ := by
    simp [arguments, resolve, resolveFrom, Argument.ofText, meaning?, Settings.assign]
  have otherSettings : resolve others = Settings.request ⟨some "\x7b\x7d", none⟩ := by
    simp [others, resolve, resolveFrom, Argument.ofText, meaning?, Settings.assign]
  have asked : resolve arguments = .ok (.print {} (some "second.png")) :=
    settings.trans (by with_unfolding_all rfl)
  have otherAsked : resolve others = .ok (.print {} none) :=
    otherSettings.trans (by with_unfolding_all rfl)
  have printed : (surroundings.executed arguments before).1 = .ok .printed := by
    rw [executed, execute, asked]
    with_unfolding_all rfl
  have otherPrinted : (surroundings.executed others before).1 = .ok .printed := by
    rw [executed, execute, otherAsked]
    with_unfolding_all rfl
  have otherOutput : (surroundings.executed others before).2.output = [7, 8] := by
    rw [executed, execute, otherAsked]
    with_unfolding_all rfl
  obtain ⟨-, ⟨-, -, agree⟩, -, status, -⟩ := surroundings.executed_delivers arguments before
  have told : surroundings.Told (surroundings.executed arguments before).1 := by
    rw [printed]
    trivial
  have missing : surroundings.executed [] before = (.error (.request .configMissing), before) := rfl
  obtain ⟨-, -, -, missingStatus, missingOutput⟩ := surroundings.executed_delivers [] before
  obtain ⟨-, -, shown⟩ := missingOutput _ rfl
  obtain ⟨arrived, -, whole, output⟩ := shown rfl
  refine ⟨printed, (status told).1.mpr ⟨.printed, printed⟩,
    agree others {} "second.png" asked otherAsked printed otherPrinted, otherOutput, rfl,
    (missingStatus rfl).2.1.mpr ⟨_, rfl, trivial⟩, ?_⟩
  rw [output, whole rfl rfl, missing]

/--
The exit status does not tell how a run ended if the user cannot be told about it: help was asked
for with success and does not arrive, or an argument is missing and the message about it does not
arrive, and the program breaks off.  And a run may fail and put something on standard output: the
help, if no configuration was given.
-/
theorem completed_of_lost_text_and_no_arguments :
    let surroundings (printing complaining : List UInt8 → Except (String × Nat) Unit) :
        Surroundings :=
      { input := .ok [], reader := fun _ => .ok [], drawer := fun _ _ _ => .ok []
        isFile := fun _ _ => false, loading := fun _ _ => .error "missing"
        saving := fun _ _ => .ok (), printing, complaining }
    let lost : List UInt8 → Except (String × Nat) Unit := fun _ => .error ("no space left", 0)
    let taken : List UInt8 → Except (String × Nat) Unit := fun _ => .ok ()
    let before : World := ⟨fun _ => none, [], [], []⟩
    (((surroundings lost taken).executed ["--help"] before).1 = .ok .help ∧
        ((surroundings lost taken).completed ["--help"] before).1 = 101) ∧
      (((surroundings taken lost).executed [] before).1 = .error (.request .configMissing) ∧
        ((surroundings taken lost).completed [] before).1 = 101) ∧
      ((surroundings taken taken).executed [] before).1 = .error (.request .configMissing) ∧
        ((surroundings taken taken).completed [] before).2.output = Text.encode usage.toList ∧
        Text.encode usage.toList ≠ [] := by
  intro surroundings lost taken before
  have asked : resolve ["--help"] = .ok .help := by
    simp [resolve, resolveFrom, Argument.ofText, meaning?]
  have helped : (surroundings lost taken).executed ["--help"] before = (.ok .help, before) := by
    rw [executed, execute, asked]
    rfl
  have missing (printing complaining) :
      (surroundings printing complaining).executed [] before =
        (.error (.request .configMissing), before) := rfl
  refine ⟨⟨by rw [helped], ?_⟩, ⟨by rw [missing], ?_⟩, by rw [missing], ?_, ?_⟩
  · rw [completed_eq, helped]
    rfl
  · rw [completed_eq, missing]
    rfl
  · obtain ⟨-, -, shown⟩ :=
      (surroundings taken taken).reported_output (.request .configMissing) before
    obtain ⟨arrived, -, whole, output⟩ := shown rfl
    rw [completed_eq, missing]
    exact output.trans (by rw [whole rfl rfl]; exact List.nil_append _)
  · intro empty
    have noText : usage = "" := by
      rw [← String.toList_eq_nil_iff, List.eq_nil_iff_forall_not_mem]
      intro character member
      exact String.utf8EncodeChar_ne_nil (List.flatMap_eq_nil_iff.mp empty character member)
    unfold usage at noText
    exact absurd (String.append_eq_empty_iff.mp noText).2 (by decide)

end Surroundings

end LabelPress.Run
