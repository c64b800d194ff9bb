import LabelPress.Proofs.Drawing.Cells
import Mathlib.Algebra.Group.Int.Defs
import Mathlib.Algebra.Group.Nat.Defs
import Mathlib.Data.List.Nodup

/-!
# Steps that have to stay in range

On a machine, a number has a fixed width, a difference of two sizes must not be negative, and a dot
that is written has to be there.  A checked computation is one that has no result as soon as one of
its steps leaves its range.

Pictures are drawn in loops.  `Changes` says what a checked step does to the entries of a store,
wherever it stands in the loop; `Changes.loop` and `exists_foldlM_of_apart` say what the whole loop
does.  A store is a grid here, or the bytes of a grid in a row.
-/

namespace LabelPress.Checked

/-! ## Numbers -/

/-- A number that has to fit a word of so many bits. -/
def unsigned (bits number : Nat) : Option Nat :=
  if number < 2 ^ bits then some number else none

/-- A number that has to fit a word of so many bits, one of which is its sign. -/
def signed (bits : Nat) (number : Int) : Option Int :=
  if -2 ^ (bits - 1) ≤ number ∧ number < 2 ^ (bits - 1) then some number else none

/-- A difference that must not be negative. -/
def minus (number taken : Nat) : Option Nat :=
  if taken ≤ number then some (number - taken) else none

/-- A quotient and a remainder; the divisor must not be zero. -/
def divide (number divisor : Nat) : Option (Nat × Nat) :=
  if divisor = 0 then none else some (number / divisor, number % divisor)

theorem bind_of_eq_some {Result Other : Type} {step : Option Result} {result : Result}
    {next : Result → Option Other} (done : step = some result) : (step >>= next) = next result := by
  rw [done]
  rfl

theorem unsigned_of_lt {bits number : Nat} (fits : number < 2 ^ bits) :
    unsigned bits number = some number :=
  if_pos fits

theorem signed_of_bounds {bits : Nat} {number : Int} (least : -2 ^ (bits - 1) ≤ number)
    (greatest : number < 2 ^ (bits - 1)) : signed bits number = some number :=
  if_pos ⟨least, greatest⟩

theorem exists_of_bind {Result Other : Type} {step : Option Result}
    {next : Result → Option Other} {found : Other} (done : (step >>= next) = some found) :
    ∃ result, step = some result ∧ next result = some found :=
  Option.bind_eq_some_iff.mp done

theorem eq_of_signed {bits : Nat} {number found : Int}
    (inRange : signed bits number = some found) : found = number := by
  unfold signed at inRange
  split at inRange
  · exact (Option.some.inj inRange).symm
  · cases inRange

theorem minus_of_le {number taken : Nat} (fits : taken ≤ number) :
    minus number taken = some (number - taken) :=
  if_pos fits

theorem divide_of_pos {number divisor : Nat} (divisorPos : 0 < divisor) :
    divide number divisor = some (number / divisor, number % divisor) :=
  if_neg (Nat.ne_of_gt divisorPos)

/-! ## Grids -/

section Grids

variable {Entry : Type}

/-- A mask that covers nothing; its sides are words. -/
def blank (width height : Nat) : Option Mask := do
  let width ← unsigned 32 width
  let height ← unsigned 32 height
  return Mask.blank width height

/-- Changes the cell at column `x` and row `y`, which has to be there. -/
def put (grid : Grid Entry) (x y : Nat) (change : Entry → Entry) : Option (Grid Entry) :=
  if x < grid.width ∧ y < grid.height then
    some (grid.updateRect x y 1 1 fun _ _ => change)
  else none

/-- Changes the entry at an index, which has to be there. -/
def putAt (cells : Array Entry) (index : Nat) (change : Entry → Entry) : Option (Array Entry) :=
  if index < cells.size then some (cells.modify index change) else none

/-- The places from column `left` to `right` and from row `top` to `bottom`, row by row. -/
def places (left top right bottom : Nat) : List (Nat × Nat) :=
  (List.range' top (bottom - top)).flatMap fun y =>
    (List.range' left (right - left)).map fun x => (x, y)

theorem blank_of_lt {width height : Nat} (widthLt : width < 2 ^ 32) (heightLt : height < 2 ^ 32) :
    blank width height = some (Mask.blank width height) := by
  rw [blank, unsigned_of_lt widthLt, unsigned_of_lt heightLt]
  rfl

theorem mem_places_iff {left top right bottom : Nat} {place : Nat × Nat} :
    place ∈ places left top right bottom ↔
      (left ≤ place.1 ∧ place.1 < right) ∧ top ≤ place.2 ∧ place.2 < bottom := by
  obtain ⟨x, y⟩ := place
  simp only [places, List.mem_flatMap, List.mem_map, List.mem_range'_1, Prod.mk.injEq]
  constructor
  · rintro ⟨row, rowBounds, column, columnBounds, rfl, rfl⟩
    omega
  · rintro ⟨columnBounds, rowBounds⟩
    exact ⟨y, by omega, x, by omega, rfl, rfl⟩

theorem nodup_places (left top right bottom : Nat) : (places left top right bottom).Nodup := by
  have columns : (List.range' left (right - left)).Nodup := List.nodup_range'
  have rows : (List.range' top (bottom - top)).Nodup := List.nodup_range'
  refine List.nodup_flatMap.mpr ⟨?_, ?_⟩
  · intro row _
    refine columns.map ?_
    intro first second same
    exact (Prod.mk.inj same).1
  · refine rows.imp ?_
    intro first second apart place inFirst inSecond
    rcases List.mem_map.mp inFirst with ⟨column, -, rfl⟩
    rcases List.mem_map.mp inSecond with ⟨other, -, same⟩
    exact apart (Prod.mk.inj same).2.symm

end Grids

/-! ## Loops -/

section Loops

variable {Store Item Place Entry : Type} {look : Store → Place → Option Entry}
  {sound : Store → Prop}

/--
A step that succeeds on every sound store, changes the entries at the places that it covers, and
leaves all others alone.
-/
def Changes (look : Store → Place → Option Entry) (sound : Store → Prop)
    (step : Store → Option Store) (covers : Place → Prop) (change : Entry → Entry) : Prop :=
  ∀ store, sound store → ∃ next, step store = some next ∧ sound next ∧
    ∀ place, (covers place → look next place = (look store place).map change) ∧
      (¬covers place → look next place = look store place)

theorem changes_nothing (change : Entry → Entry) {covers : Place → Prop}
    (nowhere : ∀ place, ¬covers place) : Changes look sound some covers change := by
  intro store isSound
  refine ⟨store, rfl, isSound, ?_⟩
  intro place
  exact ⟨fun covered => absurd covered (nowhere place), fun _ => rfl⟩

theorem Changes.congr_step {step other : Store → Option Store} {covers : Place → Prop}
    {change : Entry → Entry} (changes : Changes look sound step covers change)
    (same : ∀ store, sound store → other store = step store) :
    Changes look sound other covers change := by
  intro store isSound
  rw [same store isSound]
  exact changes store isSound

/-- Steps that write the same everywhere may overlap. -/
theorem Changes.loop {step : Store → Item → Option Store} {covers : Item → Place → Prop}
    {value : Entry} {items : List Item}
    (each : ∀ item ∈ items, Changes look sound (step · item) (covers item) fun _ => value) :
    Changes look sound (items.foldlM step) (fun place => ∃ item ∈ items, covers item place)
      fun _ => value := by
  induction items with
  | nil =>
      refine changes_nothing _ ?_
      rintro place ⟨item, member, -⟩
      cases member
  | cons item items ih =>
      intro store isSound
      rcases each item List.mem_cons_self store isSound with ⟨next, first, nextSound, firstLook⟩
      rcases ih (fun other member => each other (List.mem_cons_of_mem item member)) next nextSound
        with ⟨last, later, lastSound, laterLook⟩
      have whole : (item :: items).foldlM step store = some last := by
        rw [List.foldlM_cons, show step store item = some next from first]
        exact later
      refine ⟨last, whole, lastSound, ?_⟩
      intro place
      have laterCovered := (laterLook place).1
      have laterElsewhere := (laterLook place).2
      by_cases here : covers item place
      · refine ⟨fun _ => ?_, fun nowhere => absurd ⟨item, List.mem_cons_self, here⟩ nowhere⟩
        by_cases covered : ∃ other ∈ items, covers other place
        · rw [laterCovered covered, (firstLook place).1 here, Option.map_map]
          rfl
        · rw [laterElsewhere covered, (firstLook place).1 here]
      · constructor
        · rintro ⟨other, member, covered⟩
          rcases List.mem_cons.mp member with rfl | member
          · exact absurd covered here
          · rw [laterCovered ⟨other, member, covered⟩, (firstLook place).2 here]
        · intro nowhere
          rw [laterElsewhere fun ⟨other, member, covered⟩ =>
              nowhere ⟨other, List.mem_cons_of_mem item member, covered⟩,
            (firstLook place).2 here]

/-- Steps that do not overlap change each entry once. -/
theorem exists_foldlM_of_apart {step : Store → Item → Option Store}
    {covers : Item → Place → Prop} {change : Item → Entry → Entry} {items : List Item}
    (each : ∀ item ∈ items, Changes look sound (step · item) (covers item) (change item))
    (apart : items.Pairwise fun first second =>
      ∀ place, covers first place → ¬covers second place)
    {store : Store} (isSound : sound store) :
    ∃ last, items.foldlM step store = some last ∧ sound last ∧ ∀ place,
      (∀ item ∈ items, covers item place →
        look last place = (look store place).map (change item)) ∧
      ((∀ item ∈ items, ¬covers item place) → look last place = look store place) := by
  induction items generalizing store with
  | nil =>
      refine ⟨store, rfl, isSound, fun place => ⟨?_, fun _ => rfl⟩⟩
      intro item member
      cases member
  | cons item items ih =>
      rcases each item List.mem_cons_self store isSound with ⟨next, first, nextSound, firstLook⟩
      rcases ih (fun other member => each other (List.mem_cons_of_mem item member))
        apart.of_cons nextSound with ⟨last, later, lastSound, laterLook⟩
      have whole : (item :: items).foldlM step store = some last := by
        rw [List.foldlM_cons, show step store item = some next from first]
        exact later
      refine ⟨last, whole, lastSound, ?_⟩
      intro place
      constructor
      · intro other member covered
        rcases List.mem_cons.mp member with rfl | member
        -- The first item covers the place, so that the later ones leave it as it became.
        · have elsewhere : ∀ behind ∈ items, ¬covers behind place := by
            intro behind behindMember
            exact List.rel_of_pairwise_cons apart behindMember place covered
          rw [(laterLook place).2 elsewhere, (firstLook place).1 covered]
        · have notFirst : ¬covers item place := by
            intro here
            exact List.rel_of_pairwise_cons apart member place here covered
          rw [(laterLook place).1 other member covered, (firstLook place).2 notFirst]
      · intro nowhere
        rw [(laterLook place).2 fun other member =>
            nowhere other (List.mem_cons_of_mem item member),
          (firstLook place).2 (nowhere item List.mem_cons_self)]

end Loops

/-! ## Loops over the cells of a grid -/

section GridLoops

variable {Item Entry : Type}

/-- The cell at a place. -/
def cellAt (grid : Grid Entry) (place : Nat × Nat) : Option Entry :=
  grid.cell? place.1 place.2

/-- A grid has the given sides. -/
def HasSides (width height : Nat) (grid : Grid Entry) : Prop :=
  grid.width = width ∧ grid.height = height

theorem changes_put {width height x y : Nat} (change : Entry → Entry) (column : x < width)
    (row : y < height) :
    Changes cellAt (HasSides width height) (put · x y change) (· = (x, y)) change := by
  rintro grid ⟨rfl, rfl⟩
  refine ⟨grid.updateRect x y 1 1 fun _ _ => change, if_pos ⟨column, row⟩, ⟨rfl, rfl⟩, ?_⟩
  rintro ⟨otherX, otherY⟩
  rw [cellAt, cellAt, Grid.cell?_updateRect]
  constructor
  · rintro ⟨⟩
    rw [if_pos (by omega)]
  · intro elsewhere
    rw [if_neg]
    intro inside
    apply elsewhere
    rw [Prod.mk.injEq]
    omega

/-- Outside the grid nothing can be changed, whether a step covers it or not. -/
theorem Changes.congr_inside {width height : Nat} {step : Grid Entry → Option (Grid Entry)}
    {covers others : Nat × Nat → Prop} {change : Entry → Entry}
    (changes : Changes cellAt (HasSides width height) step covers change)
    (same : ∀ x y, x < width → y < height → (others (x, y) ↔ covers (x, y))) :
    Changes cellAt (HasSides width height) step others change := by
  intro grid sides
  rcases changes grid sides with ⟨next, result, nextSides, look⟩
  refine ⟨next, result, nextSides, ?_⟩
  rintro ⟨x, y⟩
  by_cases inside : x < width ∧ y < height
  · rw [same x y inside.1 inside.2]
    exact look (x, y)
  · have before : cellAt grid (x, y) = none := by
      rw [cellAt, Grid.cell?_eq_none_iff, sides.1, sides.2]
      exact inside
    have after : cellAt next (x, y) = none := by
      rw [cellAt, Grid.cell?_eq_none_iff, nextSides.1, nextSides.2]
      exact inside
    rw [before, after]
    exact ⟨fun _ => rfl, fun _ => rfl⟩

/-- A cell that is looked for before it is changed need not be there. -/
theorem changes_put_inside {width height : Nat} (x y : Nat) (change : Entry → Entry) :
    Changes cellAt (HasSides width height)
      (fun grid => if x < grid.width ∧ y < grid.height then put grid x y change else some grid)
      (· = (x, y)) change := by
  by_cases inside : x < width ∧ y < height
  · refine (changes_put change inside.1 inside.2).congr_step ?_
    rintro grid ⟨rfl, rfl⟩
    exact if_pos inside
  · have nothing : Changes cellAt (HasSides width height) some (fun _ => False) change :=
      changes_nothing change fun _ => not_false
    refine (nothing.congr_inside ?_).congr_step ?_
    · intro column row columnLt rowLt
      rw [iff_false, Prod.mk.injEq]
      omega
    · rintro grid ⟨rfl, rfl⟩
      exact if_neg inside

/-- A cell whose signed place is compared with the sides need not be there either. -/
theorem changes_put_clipped {width height : Nat} (column row : Int) (change : Entry → Entry) :
    Changes cellAt (HasSides width height)
      (fun grid =>
        if column < 0 ∨ row < 0 ∨ grid.width ≤ column ∨ grid.height ≤ row then some grid
        else put grid column.toNat row.toNat change)
      (fun place => (place.1 : Int) = column ∧ (place.2 : Int) = row) change := by
  by_cases outside : column < 0 ∨ row < 0 ∨ (width : Int) ≤ column ∨ (height : Int) ≤ row
  · have nothing : Changes cellAt (HasSides width height) some (fun _ => False) change :=
      changes_nothing change fun _ => not_false
    refine (nothing.congr_inside ?_).congr_step ?_
    · intro x y columnLt rowLt
      rw [iff_false]
      omega
    · rintro grid ⟨rfl, rfl⟩
      exact if_pos outside
  · have cell := changes_put change (show column.toNat < width by omega)
      (show row.toNat < height by omega)
    refine (cell.congr_inside ?_).congr_step ?_
    · intro x y _ _
      rw [Prod.mk.injEq]
      omega
    · rintro grid ⟨rfl, rfl⟩
      exact if_neg outside

/-- A step is known by what it does to the cells. -/
theorem Changes.eq_some {step : Grid Entry → Option (Grid Entry)} {covers : Nat × Nat → Prop}
    {change : Entry → Entry} {grid expected : Grid Entry}
    (changes : Changes cellAt (HasSides grid.width grid.height) step covers change)
    (sides : HasSides grid.width grid.height expected)
    (covered : ∀ x y, x < grid.width → y < grid.height → covers (x, y) →
      expected.cell? x y = (grid.cell? x y).map change)
    (elsewhere : ∀ x y, x < grid.width → y < grid.height → ¬covers (x, y) →
      expected.cell? x y = grid.cell? x y) :
    step grid = some expected := by
  rcases changes grid ⟨rfl, rfl⟩ with ⟨last, result, lastSides, look⟩
  have same : last = expected := by
    refine Grid.eq_of_cell? (lastSides.1.trans sides.1.symm) (lastSides.2.trans sides.2.symm) ?_
    intro x y column row
    rw [sides.1] at column
    rw [sides.2] at row
    by_cases here : covers (x, y)
    · rw [covered x y column row here]
      exact (look (x, y)).1 here
    · rw [elsewhere x y column row here]
      exact (look (x, y)).2 here
  rw [result, same]

/-- A loop whose steps do not overlap is known by what each step does to the cells. -/
theorem foldlM_eq_some_of_apart {step : Grid Entry → Item → Option (Grid Entry)}
    {covers : Item → Nat × Nat → Prop} {change : Item → Entry → Entry} {items : List Item}
    {grid expected : Grid Entry}
    (each : ∀ item ∈ items, Changes cellAt (HasSides grid.width grid.height) (step · item)
      (covers item) (change item))
    (apart : items.Pairwise fun first second =>
      ∀ place, covers first place → ¬covers second place)
    (sides : HasSides grid.width grid.height expected)
    (covered : ∀ item ∈ items, ∀ x y, x < grid.width → y < grid.height → covers item (x, y) →
      expected.cell? x y = (grid.cell? x y).map (change item))
    (elsewhere : ∀ x y, x < grid.width → y < grid.height →
      (∀ item ∈ items, ¬covers item (x, y)) → expected.cell? x y = grid.cell? x y) :
    items.foldlM step grid = some expected := by
  rcases exists_foldlM_of_apart each apart ⟨rfl, rfl⟩ with ⟨last, result, lastSides, look⟩
  have same : last = expected := by
    refine Grid.eq_of_cell? (lastSides.1.trans sides.1.symm) (lastSides.2.trans sides.2.symm) ?_
    intro x y column row
    rw [sides.1] at column
    rw [sides.2] at row
    by_cases here : ∃ item ∈ items, covers item (x, y)
    · rcases here with ⟨item, member, here⟩
      rw [covered item member x y column row here]
      exact (look (x, y)).1 item member here
    · have nowhere : ∀ item ∈ items, ¬covers item (x, y) := by
        intro item member covers
        exact here ⟨item, member, covers⟩
      rw [elsewhere x y column row nowhere]
      exact (look (x, y)).2 nowhere
  rw [result, same]

end GridLoops

end LabelPress.Checked
