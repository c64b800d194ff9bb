import Mathlib.Data.List.TakeWhile
import LabelPress.Proofs.CommandLine.Settings
import LabelPress.Text.Utf8

/-!
# Command lines that are spelled in different ways

A value is given to a setting in four ways: behind the long or the short flag of the setting, or
joined to one of them (`Setting.Spelling`).  Taking an argument apart undoes the joining, whatever
the value holds, so that all spellings of a list of settings are read alike
(`SpelledOut.resolve_append`).

Behind such a list stands what ends the reading: a request for help or for the version, an argument
whose flag nobody knows, or a flag that lacks its value.  The flag of an argument is what it opens
with up to a sign, or its first two bytes (`HasFlag`).  The main statement is `resolve_spelledOut`.
-/

namespace LabelPress.CommandLine

/-! ## Spellings of settings -/

/-- The long flag of a setting. -/
def Setting.long : Setting → String
  | .config => "--config"
  | .output => "--output"

/-- The short flag of a setting. -/
def Setting.short : Setting → String
  | .config => "-c"
  | .output => "-o"

/-- The arguments that give a value to a setting; only a value that is not empty joins a letter. -/
inductive Setting.Spelling (setting : Setting) (value : String) : List String → Prop where
  | behindLong : Spelling setting value [setting.long, value]
  | behindShort : Spelling setting value [setting.short, value]
  | joinedLong : Spelling setting value [setting.long ++ "=" ++ value]
  | joinedShort
      (nonempty : value ≠ "") :
      Spelling setting value [setting.short ++ value]

/-- The arguments spell the settings in their order, each in one of the ways. -/
inductive SpelledOut : List (Setting × String) → List String → Prop where
  | nil : SpelledOut [] []
  | cons {setting : Setting} {value : String} {first arguments : List String}
      {settings : List (Setting × String)}
      (spelling : setting.Spelling value first)
      (later : SpelledOut settings arguments) :
      SpelledOut ((setting, value) :: settings) (first ++ arguments)

/-! ## Arguments taken apart -/

theorem bne_of_not_mem
    {name : List Char}
    (unsigned : '=' ∉ name) :
    ∀ character ∈ name, (character != '=') = true := by
  intro character member
  rw [bne_iff_ne]
  rintro rfl
  exact unsigned member

/-- A long argument is cut at its first sign. -/
theorem ofText_long
    {name : List Char}
    (unsigned : '=' ∉ name)
    (value : List Char) :
    Argument.ofText ('-' :: '-' :: (name ++ '=' :: value)) =
      ⟨'-' :: '-' :: name, some value⟩ := by
  have plain := bne_of_not_mem unsigned
  rw [Argument.ofText]
  simp only [List.takeWhile_append_of_pos plain, List.dropWhile_append_of_pos plain]
  simp

/-- A long argument without a sign is not cut. -/
theorem ofText_long_whole
    {name : List Char}
    (unsigned : '=' ∉ name) :
    Argument.ofText ('-' :: '-' :: name) = ⟨'-' :: '-' :: name, none⟩ := by
  rw [Argument.ofText]
  simp only [List.dropWhile_eq_nil_iff.mpr (bne_of_not_mem unsigned)]

/-- A short argument is cut behind its letter. -/
theorem ofText_short
    {letter first : Char}
    (notLong : letter ≠ '-')
    (single : letter.toNat < 128)
    (rest : List Char) :
    Argument.ofText ('-' :: letter :: first :: rest) = ⟨['-', letter], some (first :: rest)⟩ := by
  unfold Argument.ofText
  split
  · next same =>
      cases same
      exact absurd rfl notLong
  · next same =>
      cases same
      rw [if_pos single]
  · next other => exact absurd rfl (other letter first rest)

/-- An argument that is neither long nor cut behind a letter is a flag as a whole. -/
theorem ofText_whole
    {text : List Char}
    (notLong : ¬ ['-', '-'] <+: text)
    (undivided : ∀ letter first rest, text = '-' :: letter :: first :: rest →
      ¬ letter.toNat < 128) :
    Argument.ofText text = ⟨text, none⟩ := by
  unfold Argument.ofText
  split
  · next rest => exact absurd (List.prefix_append ['-', '-'] rest) notLong
  · next letter first rest _ => rw [if_neg (undivided letter first rest rfl)]
  · rfl

/-! ## Flags of arguments -/

/-- A place behind the first two bytes of a text, which open with a dash, and not at its end. -/
def CutBehind (text front behind : List Char) : Prop :=
  text = front ++ behind ∧ ['-'] <+: front ∧ (Text.encode front).length = 2 ∧ behind ≠ []

/--
The flag with which an argument opens: of a long argument all up to its first sign, of another one
with a dash its first two bytes, if more follow and no character stands across their end, and else
the whole argument.
-/
inductive HasFlag : (argument flag : List Char) → Prop where
  | long {name : List Char}
      (unsigned : '=' ∉ name)
      (value : List Char) :
      HasFlag ('-' :: '-' :: (name ++ '=' :: value)) ('-' :: '-' :: name)
  | longWhole {name : List Char}
      (unsigned : '=' ∉ name) :
      HasFlag ('-' :: '-' :: name) ('-' :: '-' :: name)
  | short {text front behind : List Char}
      (notLong : ¬ ['-', '-'] <+: text)
      (cut : CutBehind text front behind) :
      HasFlag text front
  | whole {text : List Char}
      (notLong : ¬ ['-', '-'] <+: text)
      (undivided : ∀ front behind, ¬ CutBehind text front behind) :
      HasFlag text text

theorem length_encode_cons (character : Char) (text : List Char) :
    (Text.encode (character :: text)).length =
      character.utf8Size + (Text.encode text).length := by
  rw [Text.encode_cons, List.length_append, String.length_utf8EncodeChar]

/-- A text of one byte is a character of one byte. -/
theorem length_encode_eq_one_iff {text : List Char} :
    (Text.encode text).length = 1 ↔ ∃ letter, text = [letter] ∧ letter.toNat < 128 := by
  constructor
  · intro one
    cases text with
    | nil => cases one
    | cons letter others =>
        rw [length_encode_cons] at one
        have letterPos := letter.utf8Size_pos
        cases others with
        | nil =>
            have single : letter.utf8Size = 1 := one
            exact ⟨letter, rfl, Nat.lt_succ_of_le (Char.utf8Size_eq_one_iff.mp single)⟩
        | cons other others =>
            rw [length_encode_cons] at one
            have otherPos := other.utf8Size_pos
            omega
  · rintro ⟨letter, rfl, single⟩
    rw [length_encode_cons, Char.utf8Size_eq_one_iff.mpr (Nat.le_of_lt_succ single)]
    rfl

/-- The first two bytes, with a dash in front, are the dash and a character of one byte. -/
theorem cutBehind_iff {text front behind : List Char} :
    CutBehind text front behind ↔
      ∃ letter first rest, text = '-' :: letter :: first :: rest ∧ letter.toNat < 128 ∧
        front = ['-', letter] ∧ behind = first :: rest := by
  constructor
  · rintro ⟨rfl, ⟨letters, rfl⟩, bytes, more⟩
    obtain ⟨first, rest, rfl⟩ := List.exists_cons_of_ne_nil more
    have dash : '-'.utf8Size = 1 := rfl
    rw [List.singleton_append, length_encode_cons, dash] at bytes
    obtain ⟨letter, rfl, single⟩ := length_encode_eq_one_iff.mp (Nat.add_left_cancel bytes)
    exact ⟨letter, first, rest, rfl, single, rfl, rfl⟩
  · rintro ⟨letter, first, rest, rfl, single, rfl, rfl⟩
    have one := length_encode_eq_one_iff.mpr ⟨letter, rfl, single⟩
    refine ⟨rfl, List.prefix_append ['-'] [letter], ?_, List.cons_ne_nil first rest⟩
    rw [length_encode_cons, one]
    rfl

theorem HasFlag.flag_ofText {text flag : List Char} (opens : HasFlag text flag) :
    (Argument.ofText text).flag = flag := by
  cases opens with
  | long unsigned value =>
      rw [ofText_long unsigned value]
  | longWhole unsigned =>
      rw [ofText_long_whole unsigned]
  | short notLong cut =>
      obtain ⟨letter, first, rest, rfl, single, rfl, rfl⟩ := cutBehind_iff.mp cut
      have noDash : letter ≠ '-' := by
        rintro rfl
        exact notLong (List.prefix_append ['-', '-'] (first :: rest))
      rw [ofText_short noDash single]
  | whole notLong undivided =>
      rw [ofText_whole notLong]
      intro letter first rest same single
      exact undivided _ _ (cutBehind_iff.mpr ⟨letter, first, rest, same, single, rfl, rfl⟩)

theorem HasFlag.opens {text flag : List Char} (hasFlag : HasFlag text flag) : flag <+: text := by
  cases hasFlag with
  | long unsigned value => exact List.prefix_append ('-' :: '-' :: _) ('=' :: value)
  | longWhole unsigned => exact List.prefix_rfl
  | short notLong cut => exact ⟨_, cut.1.symm⟩
  | whole notLong undivided => exact List.prefix_rfl

theorem exists_hasFlag (text : List Char) : ∃ flag, HasFlag text flag := by
  by_cases long : ['-', '-'] <+: text
  · obtain ⟨name, rfl⟩ := long
    by_cases signed : '=' ∈ name
    · obtain ⟨front, value, rfl, unsigned⟩ := List.eq_append_cons_of_mem signed
      exact ⟨_, .long unsigned value⟩
    · exact ⟨_, .longWhole signed⟩
  · by_cases cut : ∃ front behind, CutBehind text front behind
    · obtain ⟨front, behind, cut⟩ := cut
      exact ⟨front, .short long cut⟩
    · exact ⟨text, .whole long fun front behind here => cut ⟨front, behind, here⟩⟩

/-- Every argument has one flag, which is the one that taking it apart finds. -/
theorem hasFlag_iff {text flag : List Char} :
    HasFlag text flag ↔ (Argument.ofText text).flag = flag := by
  constructor
  · exact HasFlag.flag_ofText
  · rintro rfl
    obtain ⟨flag, opens⟩ := exists_hasFlag text
    rwa [opens.flag_ofText]

/-- The flags that have a meaning. -/
def knownFlags : List String :=
  ["--help", "-h", "--version", "-V", "--config", "-c", "--output", "-o"]

theorem meaning?_eq_none {flag : String} (unknown : flag ∉ knownFlags) :
    meaning? flag.toList = none := by
  simp only [knownFlags, List.mem_cons, List.not_mem_nil, or_false, not_or] at unknown
  obtain ⟨help, h, version, v, config, c, output, o⟩ := unknown
  rw [meaning?, String.ofList_toList]
  split
  case h_9 => rfl
  all_goals contradiction

theorem meaning?_long (setting : Setting) :
    meaning? setting.long.toList = some (.setting setting) := by
  cases setting <;> rfl

theorem meaning?_short (setting : Setting) :
    meaning? setting.short.toList = some (.setting setting) := by
  cases setting <;> rfl

/-! ## Settings that are spelled out -/

/-- A value that is joined to a long flag is taken off again, whatever it holds. -/
theorem ofText_joinedLong (setting : Setting) (value : String) :
    Argument.ofText (setting.long ++ "=" ++ value).toList =
      ⟨setting.long.toList, some value.toList⟩ := by
  rw [String.toList_append, String.toList_append, List.append_assoc]
  cases setting with
  | config => exact @ofText_long "config".toList (by decide) value.toList
  | output => exact @ofText_long "output".toList (by decide) value.toList

theorem ofText_joinedShort (setting : Setting) {value : String} (nonempty : value ≠ "") :
    Argument.ofText (setting.short ++ value).toList =
      ⟨setting.short.toList, some value.toList⟩ := by
  obtain ⟨first, rest, characters⟩ :=
    List.exists_cons_of_ne_nil (mt String.toList_eq_nil_iff.mp nonempty)
  rw [String.toList_append, characters]
  cases setting with
  | config => exact @ofText_short 'c' first (by decide) (by decide) rest
  | output => exact @ofText_short 'o' first (by decide) (by decide) rest

theorem ofText_long_flag (setting : Setting) :
    Argument.ofText setting.long.toList = ⟨setting.long.toList, none⟩ := by
  cases setting <;> rfl

theorem ofText_short_flag (setting : Setting) :
    Argument.ofText setting.short.toList = ⟨setting.short.toList, none⟩ := by
  cases setting <;> rfl

/-- Settings that are spelled out are read as these settings. -/
theorem SpelledOut.spells
    {settings : List (Setting × String)}
    {arguments : List String}
    (spelledOut : SpelledOut settings arguments) :
    Spells arguments settings := by
  induction spelledOut with
  | nil =>
      exact .nothing
  | @cons setting value first arguments settings spelling later ih =>
      cases spelling with
      | behindLong =>
          exact .apart (ofText_long_flag setting) (meaning?_long setting) ih
      | behindShort =>
          exact .apart (ofText_short_flag setting) (meaning?_short setting) ih
      | joinedLong =>
          have joined := Spells.joined (ofText_joinedLong setting value) (meaning?_long setting) ih
          rwa [String.ofList_toList] at joined
      | joinedShort nonempty =>
          have joined :=
            Spells.joined (ofText_joinedShort setting nonempty) (meaning?_short setting) ih
          rwa [String.ofList_toList] at joined

/-! ## Reading behind settings -/

/-- Settings are assigned one by one, and reading goes on behind them. -/
theorem Spells.resolveFrom_append
    {settings : List (Setting × String)}
    {arguments : List String}
    (spells : Spells arguments settings)
    (start : Settings)
    (behind : List String) :
    resolveFrom start (arguments ++ behind) =
      resolveFrom (settings.foldl (fun settings given => settings.assign given.1 given.2) start)
        behind := by
  induction spells generalizing start with
  | nothing =>
      rfl
  | joined parts means rest ih =>
      rw [List.cons_append, resolveFrom, parts]
      simp only [means]
      exact ih _
  | apart parts means rest ih =>
      rw [List.cons_append, List.cons_append, resolveFrom, parts]
      simp only [means]
      exact ih _

/-- Behind settings that are spelled out each of them has its last value. -/
theorem SpelledOut.resolve_append
    {settings : List (Setting × String)}
    {arguments : List String}
    (spelledOut : SpelledOut settings arguments)
    (behind : List String) :
    resolve (arguments ++ behind) =
      resolveFrom ⟨lastValue .config settings, lastValue .output settings⟩ behind := by
  have values (setting : Setting) :=
    (Settings.value_foldl_assign settings {} setting).trans
      (show _ = lastValue setting settings by cases setting <;> exact Option.or_none)
  rw [resolve, spelledOut.spells.resolveFrom_append]
  congr 1
  exact congrArg₂ Settings.mk (values .config) (values .output)

section Ends

variable (start : Settings) (behind : List String)

theorem resolveFrom_help {flag : String} (help : flag = "--help" ∨ flag = "-h") :
    resolveFrom start (flag :: behind) = .ok .help := by
  have means : meaning? (Argument.ofText flag.toList).flag = some .help := by
    rcases help with rfl | rfl <;> rfl
  rw [resolveFrom]
  simp only [means]

theorem resolveFrom_version {flag : String} (version : flag = "--version" ∨ flag = "-V") :
    resolveFrom start (flag :: behind) = .ok .version := by
  have means : meaning? (Argument.ofText flag.toList).flag = some .version := by
    rcases version with rfl | rfl <;> rfl
  rw [resolveFrom]
  simp only [means]

theorem resolveFrom_flag (setting : Setting) {flag : String}
    (bare : flag = setting.long ∨ flag = setting.short) :
    resolveFrom start [flag] = .error (.valueMissing flag) := by
  rcases bare with rfl | rfl
  · rw [resolveFrom, ofText_long_flag]
    simp only [meaning?_long, String.ofList_toList]
  · rw [resolveFrom, ofText_short_flag]
    simp only [meaning?_short, String.ofList_toList]

theorem resolveFrom_unknown {argument flag : String}
    (opens : HasFlag argument.toList flag.toList)
    (unknown : flag ∉ knownFlags) :
    resolveFrom start (argument :: behind) = .error (.unknownArgument argument) := by
  rw [resolveFrom, opens.flag_ofText]
  simp only [meaning?_eq_none unknown]

end Ends

/-! ## What settings ask for -/

section Requests

variable {settings : Settings} {text : String}

theorem request_of_blank
    (blank : ∀ given ∈ settings.config,
      ∀ character ∈ given.toList, Text.isBlank character = true) :
    settings.request = .error .configMissing := by
  have none : (settings.config.filter fun text => text.toList.any fun c => !Text.isBlank c) =
      none := by
    rw [Option.filter_eq_none_iff]
    intro given found
    simpa using blank given found
  rw [Settings.request, none]

theorem request_of_text
    (given : settings.config = some text)
    (printed : ∃ character ∈ text.toList, Text.isBlank character = false) :
    settings.request =
      match Configuration.ofText text with
      | .error fault => .error (.config fault)
      | .ok configuration =>
        .ok (.print configuration (settings.output.filter (· ≠ ""))) := by
  have kept : (settings.config.filter fun text => text.toList.any fun c => !Text.isBlank c) =
      some text := by
    rw [given, Option.filter_eq_some_iff]
    simpa using printed
  cases read : Configuration.ofText text with
  | error fault =>
      rw [Settings.request, kept]
      simp only [read]
  | ok configuration =>
      rw [Settings.request, kept]
      simp only [read]

end Requests

/--
Command lines whose arguments spell the same last value of each setting ask for the same.  They
lack a configuration if there is no value for it or a blank one, fail with the fault of a value that
is no configuration, and else ask for a label with this configuration and with the last file that is
named, if it has a name.  Behind such arguments help and the version are asked for whatever follows;
a flag of a setting that lacks its value, and an argument whose flag is not known, are errors that
name them.
-/
theorem resolve_spelledOut
    {settings : List (Setting × String)}
    {arguments : List String}
    (spelledOut : SpelledOut settings arguments) :
    (∀ otherSettings otherArguments, SpelledOut otherSettings otherArguments →
        (∀ setting, lastValue setting otherSettings = lastValue setting settings) →
          resolve otherArguments = resolve arguments) ∧
      ((∀ text ∈ lastValue .config settings,
          ∀ character ∈ text.toList, Text.isBlank character = true) →
        resolve arguments = .error .configMissing) ∧
      (∀ text, lastValue .config settings = some text →
        (∃ character ∈ text.toList, Text.isBlank character = false) →
          (∀ fault, Configuration.ofText text = .error fault →
            resolve arguments = .error (.config fault)) ∧
          (∀ configuration, Configuration.ofText text = .ok configuration →
            resolve arguments =
              .ok (.print configuration ((lastValue .output settings).filter (· ≠ ""))))) ∧
      (∀ flag behind, flag = "--help" ∨ flag = "-h" →
        resolve (arguments ++ flag :: behind) = .ok .help) ∧
      (∀ flag behind, flag = "--version" ∨ flag = "-V" →
        resolve (arguments ++ flag :: behind) = .ok .version) ∧
      (∀ flag (setting : Setting), flag = setting.long ∨ flag = setting.short →
        resolve (arguments ++ [flag]) = .error (.valueMissing flag) ∧
          (RequestError.valueMissing flag).message = flag ++ " requires a value") ∧
      (∀ argument flag behind, HasFlag argument.toList flag.toList → flag ∉ knownFlags →
        resolve (arguments ++ argument :: behind) = .error (.unknownArgument argument) ∧
          (RequestError.unknownArgument argument).message =
              "unknown argument '" ++ argument ++ "'" ∧
            flag.toList <+: argument.toList) := by
  have whole {otherSettings : List (Setting × String)} {otherArguments : List String}
      (others : SpelledOut otherSettings otherArguments) :
      resolve otherArguments =
        Settings.request ⟨lastValue .config otherSettings, lastValue .output otherSettings⟩ := by
    have read := others.resolve_append []
    rwa [List.append_nil] at read
  refine ⟨?_, ?_, ?_, ?_, ?_, ?_, ?_⟩
  · intro otherSettings otherArguments others same
    rw [whole others, whole spelledOut, same .config, same .output]
  · intro blank
    rw [whole spelledOut, request_of_blank blank]
  · intro text given printed
    rw [whole spelledOut, request_of_text given printed]
    constructor
    · intro fault failed
      rw [failed]
    · intro configuration read
      rw [read]
  · intro flag behind help
    rw [spelledOut.resolve_append, resolveFrom_help _ behind help]
  · intro flag behind version
    rw [spelledOut.resolve_append, resolveFrom_version _ behind version]
  · intro flag setting bare
    refine ⟨?_, rfl⟩
    rw [spelledOut.resolve_append, resolveFrom_flag _ setting bare]
  · intro argument flag behind hasFlag unknown
    refine ⟨?_, rfl, hasFlag.opens⟩
    rw [spelledOut.resolve_append, resolveFrom_unknown _ behind hasFlag unknown]

/-- Values that look like flags, an empty one, and each way of spelling but one. -/
theorem resolve_spelledOut_of_odd_values :
    let settings : List (Setting × String) :=
      [(.config, "--help"), (.output, ""), (.output, "-o=x"), (.config, "\x7b\x7d")]
    let arguments := ["-c", "--help", "--output=", "-o-o=x", "--config=\x7b\x7d"]
    SpelledOut settings arguments ∧
      resolve arguments = .ok (.print {} (some "-o=x")) ∧
      resolve (arguments ++ ["-V", "?"]) = .ok .version ∧
      resolve (arguments ++ ["-o"]) = .error (.valueMissing "-o") ∧
      resolve (arguments ++ ["--out=x", "-h"]) = .error (.unknownArgument "--out=x") ∧
      resolve (arguments ++ ["-é", "-h"]) = .error (.unknownArgument "-é") := by
  intro settings arguments
  have spelledOut : SpelledOut settings arguments :=
    .cons .behindShort (.cons .joinedLong (.cons (.joinedShort (by decide))
      (.cons .joinedLong .nil)))
  have read : Configuration.ofText "\x7b\x7d" = .ok {} := by
    with_unfolding_all rfl
  have long : HasFlag "--out=x".toList "--out".toList :=
    @HasFlag.long ['o', 'u', 't'] (by decide) ['x']
  have across : HasFlag "-é".toList "-é".toList := by
    rw [hasFlag_iff]
    rfl
  obtain ⟨-, -, last, -, version, bare, unknown⟩ := resolve_spelledOut spelledOut
  refine ⟨spelledOut, ?_, version _ _ (.inr rfl), (bare _ .output (.inr rfl)).1,
    (unknown _ _ _ long (by decide)).1, (unknown _ _ _ across (by decide)).1⟩
  exact (last _ rfl ⟨'\x7b', by decide, by decide⟩).2 _ read

end LabelPress.CommandLine
