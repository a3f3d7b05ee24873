/-
A move that fails leaves its cursor as it was. One that gets somewhere leaves it on the two files that
the two spellings of its place resolve to, each behind the drive if it is absolute. No file system has to
be what it should for that, no cursor has to be anywhere in particular, and the files may be other ones at
every move.
-/
import ScriptHost.Proofs.Cursor.Agreement

namespace ScriptHost.Cursor

/-! ## Moves -/

/-- A cursor on the files that both spellings of its place resolve to. The file from the root has the
drive before it, the other one only if it is absolute as well. -/
def Resolved (fs : FileSystem) (c : Cursor) : Prop :=
  ∃ file absoluteFile, realPath fs c.modulePath = .ok file ∧
    realPath fs c.absoluteModulePath = .ok absoluteFile ∧
    c.absoluteFilePath = c.drive ++ absoluteFile ∧
    (fs.isAbsolute file = true → c.filePath = c.drive ++ file) ∧
    (fs.isAbsolute file = false → c.filePath = file)

/-- How a walk from a cursor may end: it fails and the cursor is the one it was, or it gets to where both
spellings resolve. -/
def Atomic (fs : FileSystem) (before : Cursor) : NavigationResult → Cursor → Prop
  | .error _, after => after = before
  | .ok (), after => after.Resolved fs

theorem resolved_of_land {fs : FileSystem} {t : Target} {c : Cursor} (h : land fs t = .ok c) :
    c.Resolved fs := by
  obtain ⟨file, absoluteFile, resolved, resolved', rfl⟩ := land_eq_ok_iff.mp h
  exact ⟨file, absoluteFile, resolved, resolved', rfl, fun absolute => by simp [absolute],
    fun relative => by simp [relative]⟩

/-- Only what came from no file is not resolved. -/
theorem resolved_of_destination {fs : FileSystem} {c c' : Cursor} {m : Move} (walks : m ≠ .stdin)
    (h : destination fs c m = .ok c') : c'.Resolved fs := by
  obtain ⟨t, -, landed⟩ := exists_leads_of_destination walks h
  exact resolved_of_land landed

theorem move_of_destination {fs : FileSystem} {c c' : Cursor} {m : Move}
    (h : destination fs c m = .ok c') : c.move fs m = (.ok (), c') := by
  rw [move, h]

theorem destination_of_move {fs : FileSystem} {c c' : Cursor} {m : Move}
    (h : c.move fs m = (.ok (), c')) : destination fs c m = .ok c' := by
  unfold move at h
  split at h
  · next e => rw [e, (Prod.mk.inj h).2]
  · simp at h

theorem move_atomic (fs : FileSystem) (c : Cursor) {m : Move} (walks : m ≠ .stdin) :
    Atomic fs c (c.move fs m).1 (c.move fs m).2 := by
  unfold move
  split
  · next h => exact resolved_of_destination walks h
  · exact rfl

/-- The cursor after some moves, failed ones among them. -/
def after (fs : FileSystem) (moves : List Move) (c : Cursor) : Cursor :=
  moves.foldl (fun c m => (c.move fs m).2) c

/-- What every move keeps is kept by all of them. -/
theorem invariant_after {fs : FileSystem} (kept : Cursor → Prop)
    (step : ∀ c m, kept c → kept (c.move fs m).2) {c : Cursor} (h : kept c) (moves : List Move) :
    kept (c.after fs moves) := by
  induction moves generalizing c with
  | nil => exact h
  | cons m moves ih => exact ih (step c m h)

/-! ## Moves over files that change -/

/-- A move, and the files that are there when it is made. -/
structure Step where
  files : FileSystem
  move : Move

/-- The results of some moves one after the other, and the cursor they leave. -/
def run : List Step → Cursor → List NavigationResult × Cursor
  | [], c => ([], c)
  | step :: steps, c =>
    let later := run steps (c.move step.files step.move).2
    ((c.move step.files step.move).1 :: later.1, later.2)

/-- A cursor where moves over some files can have left it. -/
def Left (files : List FileSystem) (c : Cursor) : Prop :=
  c = start ∨ c = stdin ∨ ∃ fs ∈ files, c.Resolved fs

theorem Left.move {files : List FileSystem} {fs : FileSystem} {c : Cursor} (left : c.Left files)
    (among : fs ∈ files) (m : Move) : (c.move fs m).2.Left files :=
  kept_by_move (Left files) left (.inr (.inl rfl))
    (fun _ _ _ landed => .inr (.inr ⟨fs, among, resolved_of_land landed⟩)) m

theorem Left.run {files : List FileSystem} {steps : List Step} (among : ∀ step ∈ steps, step.files ∈ files)
    {c : Cursor} (left : c.Left files) : (c.run steps).2.Left files := by
  induction steps generalizing c with
  | nil => exact left
  | cons step steps ih =>
    exact ih (fun later mem => among later (List.mem_cons_of_mem _ mem))
      (left.move (among step List.mem_cons_self) step.move)

end ScriptHost.Cursor
