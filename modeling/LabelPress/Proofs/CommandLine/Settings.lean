import LabelPress.CommandLine

/-!
# Settings that are spelled on the command line

`Spells` says which settings arguments spell, without the loop that reads them; the spelling is
unique (`Spells.unique`).  A command line that asks for a label spells settings only, and of each of
them the last value counts (`resolve_eq_print`).
-/

namespace LabelPress.CommandLine

/-- Settings that arguments spell, one behind the other: a value follows its flag, or is joined. -/
inductive Spells : List String → List (Setting × String) → Prop
  | nothing : Spells [] []
  | joined {argument : String} {flag value : List Char} {setting : Setting}
      {arguments : List String} {settings : List (Setting × String)}
      (parts : Argument.ofText argument.toList = ⟨flag, some value⟩)
      (means : meaning? flag = some (.setting setting)) (rest : Spells arguments settings) :
      Spells (argument :: arguments) ((setting, String.ofList value) :: settings)
  | apart {argument value : String} {flag : List Char} {setting : Setting}
      {arguments : List String} {settings : List (Setting × String)}
      (parts : Argument.ofText argument.toList = ⟨flag, none⟩)
      (means : meaning? flag = some (.setting setting)) (rest : Spells arguments settings) :
      Spells (argument :: value :: arguments) ((setting, value) :: settings)

/-- Arguments spell their settings in one way only. -/
theorem Spells.unique {arguments : List String} {first second : List (Setting × String)}
    (one : Spells arguments first) (other : Spells arguments second) : first = second := by
  induction one generalizing second with
  | nothing =>
      cases other
      rfl
  | joined parts means rest ih =>
      cases other with
      | joined otherParts otherMeans otherRest =>
          rw [parts] at otherParts
          cases otherParts
          rw [means] at otherMeans
          cases otherMeans
          rw [ih otherRest]
      | apart otherParts otherMeans otherRest =>
          rw [parts] at otherParts
          cases otherParts
  | apart parts means rest ih =>
      cases other with
      | joined otherParts otherMeans otherRest =>
          rw [parts] at otherParts
          cases otherParts
      | apart otherParts otherMeans otherRest =>
          rw [parts] at otherParts
          cases otherParts
          rw [means] at otherMeans
          cases otherMeans
          rw [ih otherRest]

/-- The last value that is given to a setting. -/
def lastValue (setting : Setting) (settings : List (Setting × String)) : Option String :=
  ((settings.filter (·.1 = setting)).map (·.2)).getLast?

theorem lastValue_cons (setting : Setting) (first : Setting × String)
    (settings : List (Setting × String)) :
    lastValue setting (first :: settings) =
      (lastValue setting settings).or (if first.1 = setting then some first.2 else none) := by
  rw [lastValue, lastValue, List.filter_cons]
  by_cases same : first.1 = setting
  · rw [if_pos (decide_eq_true same), if_pos same, List.map_cons, List.getLast?_cons]
    cases ((settings.filter (·.1 = setting)).map (·.2)).getLast? <;> rfl
  · rw [if_neg (by rw [decide_eq_true_eq]; exact same), if_neg same, Option.or_none]

/-- The value of a setting. -/
def Settings.value (settings : Settings) : Setting → Option String
  | .config => settings.config
  | .output => settings.output

theorem Settings.value_assign (settings : Settings) (assigned setting : Setting) (value : String) :
    (settings.assign assigned value).value setting =
      if assigned = setting then some value else settings.value setting := by
  cases assigned <;> cases setting <;> rfl

/-- Settings that are assigned one after another keep their last values. -/
theorem Settings.value_foldl_assign (spelled : List (Setting × String)) (settings : Settings)
    (setting : Setting) :
    (spelled.foldl (fun settings given => settings.assign given.1 given.2) settings).value setting =
      (lastValue setting spelled).or (settings.value setting) := by
  induction spelled generalizing settings with
  | nil =>
      rfl
  | cons given spelled ih =>
      rw [List.foldl_cons, ih, value_assign, lastValue_cons]
      by_cases same : given.1 = setting
      · rw [if_pos same, if_pos same, Option.or_assoc]
        rfl
      · rw [if_neg same, if_neg same, Option.or_none]

/-- A label is asked for by settings, which are all read before. -/
theorem resolveFrom_eq_print {settings : Settings} {arguments : List String}
    {configuration : Configuration} {output : Option String}
    (resolved : resolveFrom settings arguments = .ok (.print configuration output)) :
    ∃ spelled, Spells arguments spelled ∧
      (spelled.foldl (fun settings given => settings.assign given.1 given.2) settings).request =
        .ok (.print configuration output) := by
  fun_induction resolveFrom settings arguments with
  | case1 settings =>
      exact ⟨[], .nothing, resolved⟩
  | case2 settings argument arguments parts unknown =>
      cases resolved
  | case3 settings argument arguments parts help =>
      cases resolved
  | case4 settings argument arguments parts version =>
      cases resolved
  | case5 settings argument arguments parts setting means value joined ih =>
      obtain ⟨spelled, spells, request⟩ := ih resolved
      exact ⟨_, .joined (show Argument.ofText argument.toList = ⟨parts.flag, some value⟩ by
        rw [← joined]) means spells, request⟩
  | case6 settings argument parts setting means apart value arguments ih =>
      obtain ⟨spelled, spells, request⟩ := ih resolved
      exact ⟨_, .apart (show Argument.ofText argument.toList = ⟨parts.flag, none⟩ by
        rw [← apart]) means spells, request⟩
  | case7 settings argument parts setting means missing =>
      cases resolved

/--
A command line that asks for a label spells settings.  The configuration is in the last value for
it, and the file is the last one that is named, unless that name is empty.
-/
theorem resolve_eq_print {arguments : List String} {configuration : Configuration}
    {output : Option String} (resolved : resolve arguments = .ok (.print configuration output)) :
    ∃ settings text, Spells arguments settings ∧ lastValue .config settings = some text ∧
      Configuration.ofText text = .ok configuration ∧
      output = (lastValue .output settings).filter (· ≠ "") := by
  obtain ⟨spelled, spells, request⟩ := resolveFrom_eq_print resolved
  have value (setting : Setting) : Settings.value _ setting = lastValue setting spelled :=
    (Settings.value_foldl_assign spelled {} setting).trans (by cases setting <;> exact Option.or_none)
  have config : Settings.config _ = _ := value .config
  have target : Settings.output _ = _ := value .output
  rw [Settings.request, config, target] at request
  split at request
  · cases request
  · next text found =>
      split at request
      · cases request
      · next read =>
          cases request
          exact ⟨spelled, text, spells, (Option.filter_eq_some_iff.mp found).1, read, rfl⟩

/-- A file that is named for a picture has a name. -/
theorem ne_empty_of_resolve {arguments : List String} {configuration : Configuration}
    {path : String} (resolved : resolve arguments = .ok (.print configuration (some path))) :
    path ≠ "" := by
  obtain ⟨settings, text, -, -, -, target⟩ := resolve_eq_print resolved
  simpa using (Option.filter_eq_some_iff.mp target.symm).2

end LabelPress.CommandLine
