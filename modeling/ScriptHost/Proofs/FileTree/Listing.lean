/-
What the names in a directory are. A name is listed exactly if there is an entry right below the directory
under it (`mem_names_iff`), and the names are in the order of their bytes, each once
(`pairwise_lt_names`).
-/
import ScriptHost.Proofs.FileTree.Storing
import ScriptHost.Proofs.Text.ByteOrder

namespace ScriptHost.FileTree

/-! ## The order of names -/

theorem nameLe_cons_iff {a b : Char} {as bs : Text} :
    nameLe (a :: as) (b :: bs) = true ↔ a.toNat < b.toNat ∨ a = b ∧ nameLe as bs = true := by
  simp [nameLe]

theorem nameLe_total (a b : Text) : (nameLe a b || nameLe b a) = true := by
  rw [Bool.or_eq_true]
  induction a generalizing b with
  | nil => exact .inl rfl
  | cons c as ih =>
    cases b with
    | nil => exact .inr rfl
    | cons d bs =>
      rw [nameLe_cons_iff, nameLe_cons_iff]
      rcases Nat.lt_trichotomy c.toNat d.toNat with lt | eq | gt
      · exact .inl (.inl lt)
      · have same : c = d := Char.toNat_inj.mp eq
        exact (ih bs).imp (fun le => .inr ⟨same, le⟩) fun le => .inr ⟨same.symm, le⟩
      · exact .inr (.inl gt)

theorem nameLe_trans (a b c : Text) (first : nameLe a b = true) (second : nameLe b c = true) :
    nameLe a c = true := by
  induction a generalizing b c with
  | nil => rfl
  | cons x as ih =>
    cases b with
    | nil => cases first
    | cons y bs =>
      cases c with
      | nil => cases second
      | cons z cs =>
        rw [nameLe_cons_iff] at *
        rcases first with lt | ⟨rfl, first⟩
        · rcases second with lt' | ⟨rfl, -⟩
          · exact .inl (Nat.lt_trans lt lt')
          · exact .inl lt
        · exact second.imp_right fun ⟨same, second⟩ => ⟨same, ih bs cs first second⟩

/-- Names in order have their bytes in order. -/
theorem encode_lt_of_nameLe {a b : Text} (le : nameLe a b = true) (ne : a ≠ b) :
    Utf8.encode a < Utf8.encode b := by
  induction a generalizing b with
  | nil =>
    cases b with
    | nil => exact absurd rfl ne
    | cons d bs =>
      rw [Utf8.encode_nil, Utf8.encode_cons, Utf8.encodeChar_eq]
      exact List.nil_lt_cons _ _
  | cons c as ih =>
    cases b with
    | nil => cases le
    | cons d bs =>
      rw [Utf8.encode_cons, Utf8.encode_cons]
      rcases nameLe_cons_iff.mp le with lt | ⟨rfl, rest⟩
      · exact Utf8.encodeChar_append_lt lt _ _
      · exact Utf8.append_lt_append (ih rest fun e => ne (by rw [e])) _

/-! ## Names once and in order -/

/-- Erasing duplicates leaves none. -/
theorem nodup_eraseDups : ∀ names : List Text, names.eraseDups.Nodup
  | [] => List.Pairwise.nil
  | name :: rest => by
    rw [List.eraseDups_cons, List.nodup_cons]
    exact ⟨by simp, nodup_eraseDups (rest.filter fun other => !other == name)⟩
termination_by names => names.length
decreasing_by exact Nat.lt_succ_of_le (List.length_filter_le _ _)

/-- **The names in a directory are in order,** by their bytes and each once. -/
theorem pairwise_lt_names (tree : FileTree) (directory : FileKey) :
    (tree.names directory).Pairwise fun a b => Utf8.encode a < Utf8.encode b := by
  have sorted := fun l => List.pairwise_mergeSort nameLe_trans nameLe_total (l := l)
  have distinct : (tree.names directory).Nodup :=
    (List.mergeSort_perm _ _).nodup_iff.mpr (nodup_eraseDups _)
  exact (sorted _).imp₂ (fun a b le ne => encode_lt_of_nameLe le ne) distinct

/-! ## What is listed -/

theorem nameIn_eq_some_iff {directory entry : FileKey} {name : Text} :
    nameIn directory entry = some name ↔ entry = directory ++ [name] := by
  constructor
  · intro found
    obtain ⟨⟨length, under⟩, last⟩ := Option.ite_none_right_eq_some.mp found
    obtain ⟨rest, rfl⟩ := List.isPrefixOf_iff_prefix.mp under
    obtain ⟨only, rfl⟩ : ∃ only, rest = [only] :=
      List.length_eq_one_iff.mp (by rw [List.length_append] at length; omega)
    simp only [List.getLast?_append, List.getLast?_singleton, Option.some_or, Option.some.injEq] at last
    rw [last]
  · rintro rfl
    simp [nameIn]

theorem mem_files_iff {tree : FileTree} {key : FileKey} :
    key ∈ tree.files.map (·.1) ↔ (tree.contents? key).isSome = true := by
  rw [contents?, List.lookup_isSome_iff, List.mem_map]
  exact exists_congr fun entry => and_congr_right fun _ => by rw [beq_iff_eq, eq_comm]

theorem mem_names_iff {tree : FileTree} {directory : FileKey} {name : Text} :
    name ∈ tree.names directory ↔
      (tree.contents? (directory ++ [name])).isSome = true ∨
        directory ++ [name] ∈ tree.directories := by
  simp only [names, List.mem_mergeSort, List.mem_eraseDups, List.mem_filterMap, nameIn_eq_some_iff,
    exists_eq_right, List.mem_append, mem_files_iff]

end ScriptHost.FileTree
