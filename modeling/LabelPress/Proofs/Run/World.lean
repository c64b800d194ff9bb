import LabelPress.Run

/-!
# The world around a run

A `World` is what a run can change: files, standard output and the messages for the user, and the
list of what was done in it.  `Surroundings` say how a run finds the world: what stands in standard
input, how the markup is read and labels are drawn, and whether writes succeed.  None of it is
fixed, and a write that fails may leave anything in its file, or any part of what was to be printed
on standard output or said to the user.  Reading and drawing can look at files, but change nothing
(`Surroundings.quietStages_standard` for the stages of this library).
-/

namespace LabelPress.Run

/-- Files by their paths. -/
abbrev Files := String → Option (List UInt8)

/-- What a run can do. -/
inductive Action where
  | readInput
  | readMarkup (markup : List UInt8)
  | drawLabel (label : Label) (options : DrawOptions)
  | save (path : String) (bytes : List UInt8)
  | print (bytes : List UInt8)
  | complain (text : String)

/-- What a run can change, and what it did. -/
structure World where
  /-- The contents of files. -/
  files : Files
  /-- All bytes that have arrived on standard output. -/
  output : List UInt8
  /-- All bytes of messages that have reached the user. -/
  messages : List UInt8
  /-- What was done, the first action in front. -/
  actions : List Action

namespace World

/-- The world in which some actions have been carried out that change nothing. -/
def did (world : World) (actions : List Action) : World :=
  { world with actions := world.actions ++ actions }

/-- The world in which a path has another content. -/
def withFile (world : World) (path : String) (content : Option (List UInt8)) : World :=
  { world with files := fun name => if name = path then content else world.files name }

/-- The world in which bytes have arrived on standard output. -/
def withOutput (world : World) (bytes : List UInt8) : World :=
  { world with output := world.output ++ bytes }

/-- The world in which bytes of a message have reached the user. -/
def withMessage (world : World) (bytes : List UInt8) : World :=
  { world with messages := world.messages ++ bytes }

@[simp]
theorem did_did (world : World) (first later : List Action) :
    (world.did first).did later = world.did (first ++ later) := by
  rw [did, did, did, List.append_assoc]

@[simp]
theorem files_did (world : World) (actions : List Action) :
    (world.did actions).files = world.files :=
  rfl

end World

/-- What a computation does in a world, its continuation goes on with. -/
theorem run_bind_of {First Second : Type} {first : StateM World First}
    {next : First → StateM World Second} {world after : World} {found : First}
    (run : first.run world = (found, after)) :
    (first >>= next).run world = (next found).run after := by
  rw [StateT.run_bind, run]
  rfl

/-- How a run finds the world. -/
structure Surroundings where
  /-- Standard input, or the reason for which it cannot be read. -/
  input : Except String (List UInt8)
  /-- How markup is read. -/
  reader : List UInt8 → Except Markup.MarkupError (List Label)
  /-- How a label is drawn, with the files that there are. -/
  drawer : Files → Label → DrawOptions → Except DrawError (List UInt8)
  /-- Whether there is a file at a path, with the files that there are. -/
  isFile : Files → String → Bool
  /-- The bytes of a file, with the files that there are. -/
  loading : Files → String → Except String (List UInt8)
  /-- Whether bytes can be saved; a failure leaves a content in the file, or no file. -/
  saving : String → List UInt8 → Except (String × Option (List UInt8)) Unit
  /-- Whether bytes can be printed; with a failure some of the first bytes have arrived. -/
  printing : List UInt8 → Except (String × Nat) Unit
  /-- Whether the user can be told; with a failure some of the first bytes have arrived. -/
  complaining : List UInt8 → Except (String × Nat) Unit

namespace Surroundings

variable (surroundings : Surroundings)

/-- Replaces a file. -/
def save (path : String) (bytes : List UInt8) (world : World) : Except String Unit × World :=
  match surroundings.saving path bytes with
  | .ok _ => (.ok (), (world.did [.save path bytes]).withFile path (some bytes))
  | .error (reason, content) =>
    (.error reason, (world.did [.save path bytes]).withFile path content)

/-- Writes to standard output. -/
def print (bytes : List UInt8) (world : World) : Except String Unit × World :=
  match surroundings.printing bytes with
  | .ok _ => (.ok (), (world.did [.print bytes]).withOutput bytes)
  | .error (reason, arrived) =>
    (.error reason, (world.did [.print bytes]).withOutput (bytes.take arrived))

/-- Writes a message for the user. -/
def complain (text : String) (world : World) : Except String Unit × World :=
  let bytes := Text.encode text.toList
  match surroundings.complaining bytes with
  | .ok _ => (.ok (), (world.did [.complain text]).withMessage bytes)
  | .error (reason, arrived) =>
    (.error reason, (world.did [.complain text]).withMessage (bytes.take arrived))

/-- What lies outside of a run, in a world with these surroundings. -/
def host : Host (StateM World) where
  input := modifyGet fun world => (surroundings.input, world.did [.readInput])
  isFile path := modifyGet fun world => (surroundings.isFile world.files path, world)
  load path := modifyGet fun world => (surroundings.loading world.files path, world)
  save path bytes := modifyGet (surroundings.save path bytes)
  print bytes := modifyGet (surroundings.print bytes)
  complain text := modifyGet (surroundings.complain text)

/-- The reading of markup and the drawing of labels, which change nothing. -/
def quietStages : Stages (StateM World) where
  read markup := pure (surroundings.reader markup)
  draw label options := modifyGet fun world =>
    (surroundings.drawer world.files label options, world)

/-- Stages that also say when they are called. -/
def watched (stages : Stages (StateM World)) : Stages (StateM World) where
  read markup := do
    modify (·.did [.readMarkup markup])
    stages.read markup
  draw label options := do
    modify (·.did [.drawLabel label options])
    stages.draw label options

/-- The reading and the drawing, with a note of each call. -/
def stages : Stages (StateM World) :=
  watched surroundings.quietStages

/-- The fonts in the files that there are. -/
def fontsWith (fallbacks : List String) (files : Files) : FontSource Id where
  isFile path := pure (surroundings.isFile files path)
  load path := pure (surroundings.loading files path)
  fallbacks

theorem run_isFile_fontsWith (fallbacks : List String) (files : Files) (path : String) :
    Id.run ((surroundings.fontsWith fallbacks files).isFile path) =
      surroundings.isFile files path :=
  rfl

theorem run_load_fontsWith (fallbacks : List String) (files : Files) (path : String) :
    Id.run ((surroundings.fontsWith fallbacks files).load path) =
      surroundings.loading files path :=
  rfl

/-- Surroundings with the reading and the drawing of this library. -/
def standard (fallbacks : List String) : Surroundings :=
  { surroundings with
    reader := Markup.readBytes
    drawer := fun files label options =>
      Id.run (Drawing.drawFile (surroundings.fontsWith fallbacks files) label options) }

section Standard

variable (fallbacks : List String)

/-- Looking for a font changes nothing. -/
theorem run_firstFont? (paths : List String) (world : World) :
    (Drawing.firstFont? (surroundings.host.fonts fallbacks) paths).run world =
      (Id.run (Drawing.firstFont? (surroundings.fontsWith fallbacks world.files) paths),
        world) := by
  induction paths with
  | nil =>
      rfl
  | cons path paths ih =>
      have looking : ((surroundings.host.fonts fallbacks).isFile path).run world =
          (surroundings.isFile world.files path, world) := rfl
      have loading : ((surroundings.host.fonts fallbacks).load path).run world =
          (surroundings.loading world.files path, world) := rfl
      rw [Drawing.firstFont?, Drawing.firstFont?, run_bind_of looking, Id.run_bind,
        run_isFile_fontsWith]
      cases surroundings.isFile world.files path with
      | false =>
          exact ih
      | true =>
          rw [if_pos rfl, if_pos rfl, run_bind_of loading, Id.run_bind, run_load_fontsWith]
          cases Drawing.readFont path (surroundings.loading world.files path) with
          | error error =>
              exact ih
          | ok font =>
              rfl

/-- Loading a font changes nothing. -/
theorem run_loadFont (fontPath : Option String) (world : World) :
    (Drawing.loadFont (surroundings.host.fonts fallbacks) fontPath).run world =
      (Id.run (Drawing.loadFont (surroundings.fontsWith fallbacks world.files) fontPath),
        world) := by
  cases fontPath with
  | none =>
      rw [Drawing.loadFont, Drawing.loadFont, Id.run_bind,
        run_bind_of (surroundings.run_firstFont? fallbacks _ world)]
      rfl
  | some path =>
      rfl

/-- Drawing a label loads its font from the files of the world, and changes nothing. -/
theorem run_draw (label : Label) (options : DrawOptions) (world : World) :
    (Drawing.draw (surroundings.host.fonts fallbacks) label options).run world =
      (Id.run (Drawing.draw (surroundings.fontsWith fallbacks world.files) label options),
        world) := by
  rw [Drawing.draw, Drawing.draw]
  cases Drawing.canvasSize label options with
  | error error =>
      rfl
  | ok sides =>
      dsimp only
      rw [run_bind_of (surroundings.run_loadFont fallbacks options.fontPath world), Id.run_bind]
      cases Id.run (Drawing.loadFont (surroundings.fontsWith fallbacks world.files)
        options.fontPath) <;> rfl

/-- So does drawing a label and writing its picture. -/
theorem drawFile_host (label : Label) (options : DrawOptions) :
    Drawing.drawFile (surroundings.host.fonts fallbacks) label options = (modifyGet fun world =>
      (Id.run (Drawing.drawFile (surroundings.fontsWith fallbacks world.files) label options),
        world) : StateM World _) := by
  apply StateT.ext
  intro world
  show _ = (Id.run (Drawing.drawFile (surroundings.fontsWith fallbacks world.files) label
    options), world)
  rw [Drawing.drawFile, Drawing.drawFile,
    run_bind_of (surroundings.run_draw fallbacks label options world), Id.run_bind]
  cases Id.run (Drawing.draw (surroundings.fontsWith fallbacks world.files) label options) <;>
    rfl

/-- The stages of this library, with fonts from the files of the world, are of this kind. -/
theorem quietStages_standard :
    (surroundings.standard fallbacks).quietStages =
      Stages.standard (surroundings.host.fonts fallbacks) := by
  have draws : Drawing.drawFile (surroundings.host.fonts fallbacks) =
      (surroundings.standard fallbacks).quietStages.draw := by
    funext label options
    exact surroundings.drawFile_host fallbacks label options
  rw [Stages.standard, draws]
  rfl

end Standard

end Surroundings

end LabelPress.Run
