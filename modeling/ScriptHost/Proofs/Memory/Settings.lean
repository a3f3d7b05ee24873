/-
Compiler settings reach the engine unmixed (`CompilerBuffer.read?_make`). While the record is made, the row of
the texts moves again and again, but no text does: each stays behind the pointer that was handed out for it
(`Making.Extends`). A step of the making is told by what it adds, and the fields of the record are six such steps
after one another. Once made, all that the record points at belongs to the buffer, and what the rest of the
program does elsewhere leaves it.
-/
import ScriptHost.CompilerOptions
import ScriptHost.Proofs.Memory.Rows
import ScriptHost.Proofs.Text.CString
import Mathlib.Data.List.Forall2

namespace ScriptHost

/-! ## The texts of settings -/

namespace CompilerOptions

def texts (o : CompilerOptions) : List String :=
  o.vectorLib.toList ++ o.vectorCtor.toList ++ o.vectorType.toList ++ o.mutableGlobals ++ o.userdataTypes ++
    o.disabledBuiltins

/-- Settings as they arrive: every text without its NULs. -/
def stripped (o : CompilerOptions) : CompilerOptions :=
  { o with
    vectorLib := o.vectorLib.map Text.stripped
    vectorCtor := o.vectorCtor.map Text.stripped
    vectorType := o.vectorType.map Text.stripped
    mutableGlobals := o.mutableGlobals.map Text.stripped
    userdataTypes := o.userdataTypes.map Text.stripped
    disabledBuiltins := o.disabledBuiltins.map Text.stripped }

def WithoutNul (o : CompilerOptions) : Prop :=
  ∀ t ∈ o.texts, '\x00' ∉ t.toList

theorem stripped_of_withoutNul {o : CompilerOptions} (without : o.WithoutNul) : o.stripped = o := by
  have list : ∀ ts : List String, ts ⊆ o.texts → ts.map Text.stripped = ts := by
    intro ts part
    rw [List.map_congr_left fun t mem => Text.stripped_eq_self.mpr (without t (part mem)), List.map_id']
  have option : ∀ t : Option String, t.toList ⊆ o.texts → t.map Text.stripped = t := by
    intro t part
    cases t with
    | none => rfl
    | some t => rw [Option.map_some, Text.stripped_eq_self.mpr (without t (part (.head _)))]
  have all : o.texts ⊆ o.texts := List.Subset.refl _
  simp only [texts, List.append_subset] at all option list
  obtain ⟨⟨⟨⟨⟨lib, ctor⟩, type⟩, globals⟩, types⟩, builtins⟩ := all
  simp only [stripped, option _ lib, option _ ctor, option _ type, list _ globals, list _ types, list _ builtins]

end CompilerOptions

/-! ## Pointers to texts -/

namespace Memory

variable {m m' : Memory} {pointers : List Address} {texts : List String}

/-- Some pointers lead to some texts, one by one. -/
def Shows (m : Memory) (pointers : List Address) (texts : List String) : Prop :=
  List.Forall₂ (fun a t => m.text? a = some (.ofText t)) pointers texts

theorem Shows.imp (shows : m.Shows pointers texts)
    (kept : ∀ a ∈ pointers, ∀ s, m.text? a = some s → m'.text? a = some s) : m'.Shows pointers texts := by
  induction shows with
  | nil => exact .nil
  | cons there _ ih => exact .cons (kept _ (.head _) _ there) (ih fun a mem => kept a (.tail _ mem))

/-- Texts stay behind their pointers in a step that may not write where texts are. -/
theorem Shows.of_confined {before after : Set Address} (shows : m.Shows pointers texts)
    (step : Confined before after m m') (apart : ∀ a s, m.text? a = some s → a ∉ before) : m'.Shows pointers texts :=
  shows.imp fun a _ s there => step.text? (apart a s there) there

end Memory

/-- Where each question has an answer, all of them do. -/
theorem mapM_eq_some_map {α β : Type} {f : α → Option β} {g : α → β} {xs : List α}
    (each : ∀ x ∈ xs, f x = some (g x)) : xs.mapM f = some (xs.map g) := by
  induction xs with
  | nil => rfl
  | cons x xs ih =>
    rw [List.mapM_cons, each x (.head _), ih fun y mem => each y (.tail _ mem)]
    rfl

namespace CompilerLayout

variable {m : Memory}

theorem optionAt?_eq_some {pointer : Option Address} {text : Option String}
    (shows : m.Shows pointer.toList text.toList) : optionAt? m pointer = some (text.map Text.stripped) := by
  cases pointer with
  | none =>
    cases text with
    | none => rfl
    | some t => nomatch shows
  | some a =>
    cases text with
    | none => nomatch shows
    | some t =>
      obtain ⟨there, -⟩ := List.forall₂_cons.mp shows
      simp [optionAt?, textAt?, there]

theorem rowAt?_borrow {row : Row} {pointers : List Address} {texts : List String} (holds : row.Holds pointers m)
    (shows : m.Shows pointers texts) : rowAt? m (CompilerBuffer.borrow row) = some (texts.map Text.stripped) := by
  have count : row.length = texts.length := holds.length.trans shows.length_eq
  have each : ∀ i ∈ List.range row.length,
      (do textAt? m (← (← row.block.bind m.row?)[i]?)) = some (Text.stripped (texts.getD i "")) := by
    intro i mem
    have inside : i < row.length := List.mem_range.mp mem
    have there := shows.get (holds.length ▸ inside) (count ▸ inside)
    cases place : row.block with
    | none =>
      rw [holds.length, holds.bare place] at inside
      exact absurd inside (Nat.not_lt_zero i)
    | some b =>
      have pointer : pointers[i]? = some (pointers.get ⟨i, holds.length ▸ inside⟩) :=
        List.getElem?_eq_getElem _
      have text : texts.getD i "" = texts.get ⟨i, count ▸ inside⟩ := by simp [count ▸ inside]
      simp only [Option.bind_some, Option.bind_eq_bind, holds.stored b place, pointer, textAt?, there, text,
        Option.map_some, CString.text_ofText]
  rw [rowAt?, CompilerBuffer.borrow, mapM_eq_some_map each]
  refine congrArg some (List.ext_getElem (by simp [count]) fun i _ inside => ?_)
  rw [List.length_map] at inside
  simp [inside]

end CompilerLayout

namespace CompilerBuffer

/-! ## Steps of the making -/

namespace Making

variable {s s' s'' : Making} {pointers more : List Address} {texts : List String}

def kept (s : Making) : List Address :=
  s.strings.contents s.memory

/-- The row of the texts is in memory. -/
def Sound (s : Making) : Prop :=
  s.strings.Holds s.kept s.memory

theorem sound_iff : s.Sound ↔ ∃ ks, s.strings.Holds ks s.memory :=
  ⟨fun sound => ⟨_, sound⟩, fun ⟨_, holds⟩ => by rwa [Sound, kept, holds.contents]⟩

theorem Sound.not_text (sound : s.Sound) (a : Address) (text : CString) (there : s.memory.text? a = some text) :
    a ∉ s.strings.blocks :=
  Row.Holds.not_text sound there

/-- Texts are kept, and pointers lead to them. -/
structure Shows (s : Making) (pointers : List Address) (texts : List String) : Prop where
  shows : s.memory.Shows pointers texts
  kept : pointers ⊆ s.kept

/-- A row of its own holds pointers to texts that are kept. -/
structure ShowsRow (s : Making) (row : Row) (texts : List String) (pointers : List Address) : Prop where
  holds : row.Holds pointers s.memory
  shows : s.Shows pointers texts
  apart : Disjoint s.strings.blocks row.blocks

/-- Some more texts are kept, and their row may have moved. -/
structure Extends (s s' : Making) : Prop where
  sound : s'.Sound
  confined : Memory.Confined s.strings.blocks s'.strings.blocks s.memory s'.memory
  more : s.kept ⊆ s'.kept

theorem Extends.refl (sound : s.Sound) : Extends s s :=
  ⟨sound, .refl _ _, List.Subset.refl _⟩

theorem Extends.trans (first : Extends s s') (next : Extends s' s'') : Extends s s'' :=
  ⟨next.sound, first.confined.trans next.confined, List.Subset.trans first.more next.more⟩

theorem Shows.extend (shows : s.Shows pointers texts) (sound : s.Sound) (longer : Extends s s') :
    s'.Shows pointers texts :=
  ⟨shows.shows.of_confined longer.confined sound.not_text, List.Subset.trans shows.kept longer.more⟩

theorem ShowsRow.extend {row : Row} (shows : s.ShowsRow row texts pointers) (sound : s.Sound) (longer : Extends s s') :
    s'.ShowsRow row texts pointers :=
  ⟨shows.holds.of_confined longer.confined shows.apart, shows.shows.extend sound longer,
    shows.holds.disjoint longer.confined shows.apart⟩

end Making

open Making

variable {s : Making}

theorem keep_spec (sound : s.Sound) (text : String) :
    Extends s ((keep text).run s).2 ∧ ((keep text).run s).2.Shows [((keep text).run s).1] [text] := by
  let a := s.memory.vacant
  let m := s.memory.grown (.text (.ofText text))
  have run : (keep text).run s = (a, ⟨((s.strings.push a).run m).1, ((s.strings.push a).run m).2⟩) := rfl
  have written : Memory.Confined ∅ ∅ s.memory m := (s.memory.confined_grown _).mono (Set.empty_subset _)
  have there : m.text? a = some (.ofText text) := Memory.text?_eq_some.mpr (s.memory.block?_grown_vacant _)
  have holds : s.strings.Holds s.kept m := Row.Holds.of_confined sound written (Set.empty_disjoint _)
  obtain ⟨pushed, confined⟩ := Row.push_spec holds a
  have beside : Memory.Confined s.strings.blocks s.strings.blocks s.memory m := by
    simpa using written.frame s.strings.blocks
  rw [run]
  have contents : kept ⟨((s.strings.push a).run m).1, ((s.strings.push a).run m).2⟩ = s.kept ++ [a] := pushed.contents
  refine ⟨⟨sound_iff.mpr ⟨_, pushed⟩, beside.trans confined, ?_⟩, .cons ?_ .nil, ?_⟩
  · rw [contents]
    exact List.subset_append_left _ _
  · -- Where the new text is, the row of the texts is not.
    exact confined.text? (holds.not_text there) there
  · rw [contents]
    exact List.subset_append_right _ _

theorem keepOption_spec (sound : s.Sound) (text : Option String) :
    Extends s ((keepOption text).run s).2 ∧
      ((keepOption text).run s).2.Shows ((keepOption text).run s).1.toList text.toList := by
  cases text with
  | none => exact ⟨.refl sound, .nil, List.nil_subset _⟩
  | some t => exact keep_spec sound t

/-- A row takes one more pointer to a text that is kept. The texts and their row stay where they are. -/
theorem push_spec {row : Row} {done : List String} {pointers : List Address} {a : Address} {text : String}
    (sound : s.Sound) (shows : s.ShowsRow row done pointers) (new : s.Shows [a] [text]) :
    let pushed := (row.push a).run s.memory
    Sound { s with memory := pushed.2 } ∧ kept { s with memory := pushed.2 } = s.kept ∧
      ShowsRow { s with memory := pushed.2 } pushed.1 (done ++ [text]) (pointers ++ [a]) ∧
      Memory.Confined row.blocks pushed.1.blocks s.memory pushed.2 := by
  intro pushed
  obtain ⟨holds, confined⟩ := Row.push_spec shows.holds a
  have strings : s.strings.Holds s.kept pushed.2 := Row.Holds.of_confined sound confined shows.apart.symm
  have same : kept { s with memory := pushed.2 } = s.kept := strings.contents
  have texts : s.memory.Shows (pointers ++ [a]) (done ++ [text]) := List.rel_append shows.shows.shows new.shows
  refine ⟨sound_iff.mpr ⟨_, strings⟩, same, ⟨holds, ⟨?_, ?_⟩, ?_⟩, confined⟩
  · exact texts.of_confined confined fun a s there => shows.holds.not_text there
  · rw [same]
    exact List.append_subset.mpr ⟨shows.shows.kept, new.kept⟩
  · exact (Row.Holds.disjoint sound confined shows.apart.symm).symm

/-- The row of the texts and a row of pointers to some of them grow in turn. -/
theorem keepOnto_spec {row : Row} {done : List String} {pointers : List Address} (texts : List String)
    (sound : s.Sound) (shows : s.ShowsRow row done pointers) :
    let r := (keepOnto row texts).run s
    r.2.Sound ∧ s.kept ⊆ r.2.kept ∧ (∃ more, r.2.ShowsRow r.1 (done ++ texts) more) ∧
      Memory.Confined (s.strings.blocks ∪ row.blocks) (r.2.strings.blocks ∪ r.1.blocks) s.memory r.2.memory := by
  induction texts generalizing s row done pointers with
  | nil =>
    rw [List.append_nil]
    exact ⟨sound, List.Subset.refl _, ⟨_, shows⟩, .refl _ _⟩
  | cons t ts ih =>
    obtain ⟨longer, new⟩ := keep_spec sound t
    obtain ⟨sound', same, shows', confined⟩ := push_spec longer.sound (shows.extend sound longer) new
    obtain ⟨last, more, whole, rest⟩ := ih sound' shows'
    rw [same] at more
    rw [List.append_assoc] at whole
    have first := longer.confined.frame row.blocks
    have second := confined.frame ((keep t).run s).2.strings.blocks
    rw [Set.union_comm, Set.union_comm _ ((keep t).run s).2.strings.blocks] at second
    exact ⟨last, List.Subset.trans longer.more more, whole, (first.trans second).trans rest⟩

theorem keepAll_spec (sound : s.Sound) (texts : List String) :
    Extends s ((keepAll texts).run s).2 ∧
      ∃ pointers, ((keepAll texts).run s).2.ShowsRow ((keepAll texts).run s).1 texts pointers := by
  obtain ⟨holds, confined⟩ := Row.withRoom_spec texts.length s.memory
  let empty := (Row.withRoom texts.length).run s.memory
  have strings : s.strings.Holds s.kept empty.2 := Row.Holds.of_confined sound confined (Set.empty_disjoint _)
  have same : kept { s with memory := empty.2 } = s.kept := strings.contents
  have apart : Disjoint s.strings.blocks empty.1.blocks :=
    (Row.Holds.disjoint sound confined (Set.empty_disjoint _)).symm
  obtain ⟨last, more, whole, rest⟩ := keepOnto_spec (s := { s with memory := empty.2 }) texts
    (sound_iff.mpr ⟨_, strings⟩) ⟨holds, ⟨.nil, List.nil_subset _⟩, apart⟩
  rw [same] at more
  have first := confined.frame s.strings.blocks
  rw [Set.empty_union, Set.union_comm] at first
  exact ⟨⟨last, (first.trans rest).mono Set.subset_union_left, more⟩, whole⟩

/-! ## The whole buffer -/

/-- The blocks that a buffer owns: its rows, and the texts that it keeps. -/
def owned (buffer : CompilerBuffer) (m : Memory) : List Address :=
  buffer.strings.block.toList ++ buffer.strings.contents m ++ buffer.lists.filterMap Row.block

/-- A later memory while the buffer is alive. Nobody else writes what it owns. -/
def Alive (buffer : CompilerBuffer) (made later : Memory) : Prop :=
  Relation.ReflTransGen (Memory.Elsewhere (buffer.owned made)) made later

/-- A pointer leads to a text in a block that is owned, or is null if there is no text. -/
structure PointsAt (m : Memory) (owned : List Address) (pointer : Option Address) (text : Option String) : Prop where
  shows : m.Shows pointer.toList text.toList
  own : pointer.toList ⊆ owned

/-- A borrowed row leads to some texts. Its block is owned, and so are those of the texts. -/
def Lists (m : Memory) (owned : List Address) (row : TextRow) (texts : List String) : Prop :=
  ∃ (whole : Row) (pointers : List Address), row = borrow whole ∧ whole.Holds pointers m ∧
    m.Shows pointers texts ∧ pointers ⊆ owned ∧ whole.block.toList ⊆ owned

/-- A layout says just what some settings say, by pointers into blocks that are owned. -/
structure Stands (m : Memory) (owned : List Address) (layout : CompilerLayout) (o : CompilerOptions) : Prop where
  optimizationLevel : layout.optimizationLevel = o.optimizationLevel
  debugLevel : layout.debugLevel = o.debugLevel
  typeInfoLevel : layout.typeInfoLevel = o.typeInfoLevel
  coverageLevel : layout.coverageLevel = o.coverageLevel
  vectorLib : PointsAt m owned layout.vectorLib o.vectorLib
  vectorCtor : PointsAt m owned layout.vectorCtor o.vectorCtor
  vectorType : PointsAt m owned layout.vectorType o.vectorType
  mutableGlobals : Lists m owned layout.mutableGlobals o.mutableGlobals
  userdataTypes : Lists m owned layout.userdataTypes o.userdataTypes
  disabledBuiltins : Lists m owned layout.disabledBuiltins o.disabledBuiltins

theorem Making.Shows.pointsAt {owned : List Address} {pointer : Option Address} {text : Option String}
    (shows : s.Shows pointer.toList text.toList) (own : s.kept ⊆ owned) : PointsAt s.memory owned pointer text :=
  ⟨shows.shows, List.Subset.trans shows.kept own⟩

theorem Making.ShowsRow.lists {owned : List Address} {row : Row} {texts : List String} {pointers : List Address}
    (shows : s.ShowsRow row texts pointers) (own : s.kept ⊆ owned) (block : row.block.toList ⊆ owned) :
    Lists s.memory owned (borrow row) texts :=
  ⟨row, pointers, rfl, shows.holds, shows.shows.shows, List.Subset.trans shows.shows.kept own, block⟩

section Later

variable {m later : Memory} {owned : List Address}

theorem PointsAt.stay {pointer : Option Address} {text : Option String} (points : PointsAt m owned pointer text)
    (same : ∀ a ∈ owned, m.block? a ≠ none → later.block? a = m.block? a) : PointsAt later owned pointer text :=
  ⟨points.shows.imp fun a mem _ => Memory.text?_of_block? (same a (points.own mem)), points.own⟩

theorem Lists.stay {row : TextRow} {texts : List String} (lists : Lists m owned row texts)
    (same : ∀ a ∈ owned, m.block? a ≠ none → later.block? a = m.block? a) : Lists later owned row texts := by
  obtain ⟨whole, pointers, borrowed, holds, shows, own, block⟩ := lists
  refine ⟨whole, pointers, borrowed, ?_, ?_, own, block⟩
  · exact holds.of_block? fun a inside => same a (block (Option.mem_toList.mpr inside)) (holds.live inside)
  · exact shows.imp fun a mem _ => Memory.text?_of_block? (same a (own mem))

theorem Stands.stay {layout : CompilerLayout} {o : CompilerOptions} (stands : Stands m owned layout o)
    (same : ∀ a ∈ owned, m.block? a ≠ none → later.block? a = m.block? a) : Stands later owned layout o :=
  { stands with
    vectorLib := stands.vectorLib.stay same
    vectorCtor := stands.vectorCtor.stay same
    vectorType := stands.vectorType.stay same
    mutableGlobals := stands.mutableGlobals.stay same
    userdataTypes := stands.userdataTypes.stay same
    disabledBuiltins := stands.disabledBuiltins.stay same }

end Later

section Reading

variable {m : Memory} {owned : List Address}

theorem PointsAt.isNone {pointer : Option Address} {text : Option String} (points : PointsAt m owned pointer text) :
    pointer = none ↔ text = none := by
  have count := points.shows.length_eq
  cases pointer <;> cases text <;> simp_all

theorem PointsAt.optionAt? {pointer : Option Address} {text : Option String} (points : PointsAt m owned pointer text) :
    CompilerLayout.optionAt? m pointer = some (text.map Text.stripped) :=
  CompilerLayout.optionAt?_eq_some points.shows

theorem Lists.length {row : TextRow} {texts : List String} (lists : Lists m owned row texts) :
    row.length = texts.length := by
  obtain ⟨whole, pointers, rfl, holds, shows, -⟩ := lists
  exact holds.length.trans shows.length_eq

theorem Lists.rowAt? {row : TextRow} {texts : List String} (lists : Lists m owned row texts) :
    CompilerLayout.rowAt? m row = some (texts.map Text.stripped) := by
  obtain ⟨whole, pointers, rfl, holds, shows, -⟩ := lists
  exact CompilerLayout.rowAt?_borrow holds shows

theorem Stands.read? {layout : CompilerLayout} {o : CompilerOptions} (stands : Stands m owned layout o) :
    layout.read? m = some o.stripped := by
  simp only [CompilerLayout.read?, stands.vectorLib.optionAt?, stands.vectorCtor.optionAt?,
    stands.vectorType.optionAt?, stands.mutableGlobals.rowAt?, stands.userdataTypes.rowAt?,
    stands.disabledBuiltins.rowAt?, stands.optimizationLevel, stands.debugLevel, stands.typeInfoLevel,
    stands.coverageLevel, Option.bind_eq_bind, Option.bind_some]
  rfl

end Reading

theorem make_stands (o : CompilerOptions) (m : Memory) :
    let made := (make o).run m
    Stands made.2 (made.1.owned made.2) made.1.layout o := by
  intro made
  obtain ⟨g₁, lib⟩ := keepOption_spec (s := { memory := m }) (sound_iff.mpr ⟨_, Row.holds_empty m⟩) o.vectorLib
  obtain ⟨g₂, ctor⟩ := keepOption_spec g₁.sound o.vectorCtor
  obtain ⟨g₃, type⟩ := keepOption_spec g₂.sound o.vectorType
  obtain ⟨g₄, _, globals⟩ := keepAll_spec g₃.sound o.mutableGlobals
  obtain ⟨g₅, _, types⟩ := keepAll_spec g₄.sound o.userdataTypes
  obtain ⟨g₆, _, builtins⟩ := keepAll_spec g₅.sound o.disabledBuiltins
  -- What a step adds stays in all that follow it.
  have rest₅ := g₆
  have rest₄ := g₅.trans rest₅
  have rest₃ := g₄.trans rest₄
  have rest₂ := g₃.trans rest₃
  have rest₁ := g₂.trans rest₂
  have lib := lib.extend g₁.sound rest₁
  have ctor := ctor.extend g₂.sound rest₂
  have type := type.extend g₃.sound rest₃
  have globals := globals.extend g₄.sound rest₄
  have types := types.extend g₅.sound rest₅
  have kept : made.1.strings.contents made.2 ⊆ made.1.owned made.2 :=
    List.Subset.trans (List.subset_append_right _ _) (List.subset_append_left _ _)
  have block : ∀ row ∈ made.1.lists, row.block.toList ⊆ made.1.owned made.2 := by
    intro row mem a inside
    refine List.mem_append_right _ (List.mem_filterMap.mpr ⟨row, mem, ?_⟩)
    simpa using inside
  exact ⟨rfl, rfl, rfl, rfl, lib.pointsAt kept, ctor.pointsAt kept, type.pointsAt kept,
    globals.lists kept (block _ (.head _)), types.lists kept (block _ (.tail _ (.head _))),
    builtins.lists kept (block _ (.tail _ (.tail _ (.head _))))⟩

theorem stands_of_alive {o : CompilerOptions} {m later : Memory}
    (alive : ((make o).run m).1.Alive ((make o).run m).2 later) :
    Stands later (((make o).run m).1.owned ((make o).run m).2) ((make o).run m).1.layout o :=
  (make_stands o m).stay fun _ => Memory.block?_of_elsewhere alive

/-- **Compiler settings reach the engine unmixed.** Whatever happens elsewhere while the buffer is alive, the
record reads as the settings it was made from, with every text less its NULs. A pointer to a text is null just
if there is none, and a list is as long as it was. Of settings without NULs no two read the same. -/
theorem read?_make (o : CompilerOptions) (m later : Memory)
    (alive : ((make o).run m).1.Alive ((make o).run m).2 later) :
    let layout := ((make o).run m).1.layout
    layout.read? later = some o.stripped ∧
      (layout.vectorLib = none ↔ o.vectorLib = none) ∧
      (layout.vectorCtor = none ↔ o.vectorCtor = none) ∧
      (layout.vectorType = none ↔ o.vectorType = none) ∧
      layout.mutableGlobals.length = o.mutableGlobals.length ∧
      layout.userdataTypes.length = o.userdataTypes.length ∧
      layout.disabledBuiltins.length = o.disabledBuiltins.length ∧
      ∀ (o' : CompilerOptions) (m' later' : Memory), ((make o').run m').1.Alive ((make o').run m').2 later' →
        o.WithoutNul → o'.WithoutNul → layout.read? later = ((make o').run m').1.layout.read? later' → o = o' := by
  intro layout
  have stands := stands_of_alive alive
  refine ⟨stands.read?, stands.vectorLib.isNone, stands.vectorCtor.isNone, stands.vectorType.isNone,
    stands.mutableGlobals.length, stands.userdataTypes.length, stands.disabledBuiltins.length, ?_⟩
  intro o' m' later' alive' without without' same
  have stands' := stands_of_alive alive'
  rw [stands.read?, stands'.read?, CompilerOptions.stripped_of_withoutNul without,
    CompilerOptions.stripped_of_withoutNul without'] at same
  exact Option.some.inj same

/-- Five texts in a list make their row move, and its old block is given out again. Somebody else frees a block. -/
theorem read?_make_of_reuse :
    let o : CompilerOptions := {
      vectorType := some "vec\x003", mutableGlobals := ["a", "b", "c", "d", "e"], disabledBuiltins := ["tonumber"] }
    let before : Memory := ⟨[some (.text (.ofText "x"))]⟩
    ((make o).run before).1.Alive ((make o).run before).2 (((make o).run before).2.changed ⟨0⟩ none) ∧
      ((make o).run before).1.layout.read? (((make o).run before).2.changed ⟨0⟩ none) =
        some { o with vectorType := some "vec3" } := by
  intro o before
  have foreign : ⟨0⟩ ∉ ((make o).run before).1.owned ((make o).run before).2 := by decide +kernel
  have alive : ((make o).run before).1.Alive ((make o).run before).2 (((make o).run before).2.changed ⟨0⟩ none) :=
    .single (.change ⟨0⟩ none foreign)
  have stripped : o.stripped = { o with vectorType := some "vec3" } := by decide +kernel
  have read := (read?_make o before _ alive).1
  rw [stripped] at read
  exact ⟨alive, read⟩

end CompilerBuffer

/-- The engine reads what was set, less the NULs. -/
theorem CompilerRecord.read_make (o : CompilerOptions) : (CompilerRecord.make o).read = o.stripped := by
  have stands := (CompilerBuffer.make_stands o {}).read?
  exact congrArg (Option.getD · {}) stands

end ScriptHost
