/-
The endings of module files. With an ending a name is plain (`endsPlainly_moduleFile`), and only `init`
makes an `init` file. From a path one ending goes, so what it starts with stays, and a `.` before a path
from the root makes no difference.
-/
import ScriptHost.Proofs.Cursor.RealPath
import ScriptHost.Proofs.FileTree.Spelling

namespace ScriptHost.Cursor

open ScriptHost.Path

/-! ## Names of module files -/

/-- The names of the files that stand for their directory. -/
def initNames : List Text :=
  ["init.luau".toList, "init.lua".toList]

theorem initSuffixes_eq : initSuffixes = initNames.map ('/' :: ·) := rfl

theorem endsPlainly_initName {name : Text} (mem : name ∈ initNames) : FileKey.EndsPlainly name := by
  simp only [initNames, List.mem_cons, List.not_mem_nil, or_false] at mem
  rcases mem with rfl | rfl
  · exact .of_getLast? (c := 'u') (by decide) rfl (by decide) (by decide)
  · exact .of_getLast? (c := 'a') (by decide) rfl (by decide) (by decide)

theorem endsPlainly_moduleFile {last ending : Text} (unbroken : Unbroken (last ++ ending))
    (mem : ending ∈ suffixes) : FileKey.EndsPlainly (last ++ ending) := by
  simp only [suffixes, List.mem_cons, List.not_mem_nil, or_false] at mem
  rcases mem with rfl | rfl
  · exact .of_getLast? (c := 'u') unbroken (by simp [List.getLast?_append]) (by decide) (by decide)
  · exact .of_getLast? (c := 'a') unbroken (by simp [List.getLast?_append]) (by decide) (by decide)

theorem unbroken_suffix {ending : Text} (mem : ending ∈ suffixes) : Unbroken ending := by
  simp only [suffixes, List.mem_cons, List.not_mem_nil, or_false] at mem
  rcases mem with rfl | rfl <;> decide

theorem suffix_ne_nil {ending : Text} (mem : ending ∈ suffixes) : ending ≠ [] := by
  simp only [suffixes, List.mem_cons, List.not_mem_nil, or_false] at mem
  rcases mem with rfl | rfl <;> decide

/-- Only the name `init` makes an `init` file of a module file. -/
theorem eq_init_of_append {last ending : Text} (mem : ending ∈ suffixes)
    (init : last ++ ending ∈ initNames) : last = "init".toList := by
  simp only [suffixes, initNames, List.mem_cons, List.not_mem_nil, or_false] at mem init
  rcases mem with rfl | rfl <;> rcases init with init | init
  · exact List.append_cancel_right (init.trans (by decide : _ = "init".toList ++ ".luau".toList))
  · exact absurd (congrArg List.getLast? init) (by simp [List.getLast?_append])
  · exact absurd (congrArg List.getLast? init) (by simp [List.getLast?_append])
  · exact List.append_cancel_right (init.trans (by decide : _ = "init".toList ++ ".lua".toList))

/-! ## Without an ending -/

/-- All endings that a module file can have. -/
def endings : List Text :=
  initSuffixes ++ suffixes

theorem stripSuffix?_eq_some_iff {path ending m : Text} :
    stripSuffix? path ending = some m ↔ path = m ++ ending := by
  unfold stripSuffix?
  rw [← Bool.cond_eq_ite]
  cases h : ending.isSuffixOf path with
  | true =>
    obtain ⟨front, rfl⟩ := List.isSuffixOf_iff_suffix.mp h
    simp [List.append_cancel_right_eq, eq_comm]
  | false =>
    have no : ¬ ending <:+ path := fun hs => by simp [List.isSuffixOf_iff_suffix.mpr hs] at h
    simp only [cond_false, reduceCtorEq, false_iff]
    rintro rfl
    exact no (List.suffix_append m ending)

/-! ### Which ending goes -/

theorem stripSuffix?_append (path ending : Text) : stripSuffix? (path ++ ending) ending = some path :=
  stripSuffix?_eq_some_iff.mpr rfl

theorem stripSuffix?_eq_none {path ending : Text} (other : ¬ ending <:+ path) :
    stripSuffix? path ending = none :=
  if_neg fun ends => other (List.isSuffixOf_iff_suffix.mp ends)

/-- A path does not have two endings that end in different characters. -/
theorem stripSuffix?_of_getLast? (path : Text) {ending other : Text} {c d : Char}
    (ends : ending.getLast? = some c) (ends' : other.getLast? = some d) (ne : c ≠ d) :
    stripSuffix? (path ++ ending) other = none := by
  refine stripSuffix?_eq_none ?_
  rintro ⟨front, eq⟩
  have last := congrArg List.getLast? eq
  rw [List.getLast?_append, List.getLast?_append, ends, ends', Option.some_or, Option.some_or,
    Option.some.injEq] at last
  exact ne last.symm

/-- The longer endings come first. -/
theorem stripModuleSuffix_eq (path : Text) :
    stripModuleSuffix path = ((stripSuffix? path "/init.luau".toList).or <|
      (stripSuffix? path "/init.lua".toList).or <| (stripSuffix? path ".luau".toList).or <|
        stripSuffix? path ".lua".toList).getD path := by
  simp only [stripModuleSuffix, initSuffixes, suffixes, List.cons_append, List.nil_append,
    List.findSome?_cons, List.findSome?_nil]
  cases stripSuffix? path "/init.luau".toList <;> cases stripSuffix? path "/init.lua".toList <;>
    cases stripSuffix? path ".luau".toList <;> cases stripSuffix? path ".lua".toList <;> rfl

/-- From an `init` file the whole name goes. -/
theorem stripModuleSuffix_init (path : Text) {name : Text} (mem : name ∈ initNames) :
    stripModuleSuffix (path ++ '/' :: name) = path := by
  simp only [initNames, List.mem_cons, List.not_mem_nil, or_false] at mem
  rcases mem with rfl | rfl
  · have goes : stripSuffix? (path ++ '/' :: "init.luau".toList) "/init.luau".toList = some path :=
      stripSuffix?_append path "/init.luau".toList
    rw [stripModuleSuffix_eq, goes, Option.some_or, Option.getD_some]
  · have stays : stripSuffix? (path ++ '/' :: "init.lua".toList) "/init.luau".toList = none :=
      stripSuffix?_of_getLast? path (c := 'a') (d := 'u') rfl rfl (by decide)
    have goes : stripSuffix? (path ++ '/' :: "init.lua".toList) "/init.lua".toList = some path :=
      stripSuffix?_append path "/init.lua".toList
    rw [stripModuleSuffix_eq, stays, goes, Option.none_or, Option.some_or, Option.getD_some]

/-- A file that is not named `init` does not end like one that is. -/
theorem not_init_suffix {path : Text} (notInit : lastComponent path ≠ "init".toList) (ending : Text) :
    ¬ "/init".toList ++ ending <:+ path ++ ending := by
  rw [List.suffix_append_self_iff]
  rintro ⟨front, rfl⟩
  exact notInit (lastComponent_append_slash front (by decide))

/-- From any other module file the module ending goes. -/
theorem stripModuleSuffix_append {path ending : Text} (notInit : lastComponent path ≠ "init".toList)
    (mem : ending ∈ suffixes) : stripModuleSuffix (path ++ ending) = path := by
  simp only [suffixes, List.mem_cons, List.not_mem_nil, or_false] at mem
  rcases mem with rfl | rfl
  · have stays : stripSuffix? (path ++ ".luau".toList) "/init.luau".toList = none :=
      stripSuffix?_eq_none (not_init_suffix notInit ".luau".toList)
    have stays' : stripSuffix? (path ++ ".luau".toList) "/init.lua".toList = none :=
      stripSuffix?_of_getLast? path (c := 'u') (d := 'a') rfl rfl (by decide)
    rw [stripModuleSuffix_eq, stays, stays', stripSuffix?_append, Option.none_or, Option.none_or,
      Option.some_or, Option.getD_some]
  · have stays : stripSuffix? (path ++ ".lua".toList) "/init.luau".toList = none :=
      stripSuffix?_of_getLast? path (c := 'a') (d := 'u') rfl rfl (by decide)
    have stays' : stripSuffix? (path ++ ".lua".toList) "/init.lua".toList = none :=
      stripSuffix?_eq_none (not_init_suffix notInit ".lua".toList)
    have stays'' : stripSuffix? (path ++ ".lua".toList) ".luau".toList = none :=
      stripSuffix?_of_getLast? path (c := 'a') (d := 'u') rfl rfl (by decide)
    rw [stripModuleSuffix_eq, stays, stays', stays'', stripSuffix?_append, Option.none_or, Option.none_or,
      Option.none_or, Option.getD_some]

/-- A path is its module path and the ending that was stripped, if there was one. -/
theorem exists_ending (path : Text) :
    ∃ ending, path = stripModuleSuffix path ++ ending ∧ (ending = [] ∨ ending ∈ endings) := by
  unfold stripModuleSuffix
  cases h : (initSuffixes ++ suffixes).findSome? (stripSuffix? path) with
  | none => exact ⟨[], by simp, .inl rfl⟩
  | some m =>
    obtain ⟨ending, mem, found⟩ := List.exists_of_findSome?_eq_some h
    exact ⟨ending, stripSuffix?_eq_some_iff.mp found, .inr mem⟩

/-- Without a module ending a path is its module path, since `init` files have one. -/
theorem stripModuleSuffix_of_no_suffix {path : Text} (none : ∀ ending ∈ suffixes, ¬ ending <:+ path) :
    stripModuleSuffix path = path := by
  obtain ⟨ending, eq, rfl | mem⟩ := exists_ending path
  · simpa using eq.symm
  · have ends : ending <:+ path := ⟨_, eq.symm⟩
    have known : ∀ ending ∈ endings, ∃ short ∈ suffixes, short <:+ ending := by decide
    obtain ⟨short, mem, shorter⟩ := known ending mem
    exact absurd (shorter.trans ends) (none short mem)

/-- From the root a path stays one, or nothing is left of it. -/
theorem stripModuleSuffix_slash (rest : Text) :
    stripModuleSuffix ('/' :: rest) = [] ∨ ∃ m, stripModuleSuffix ('/' :: rest) = '/' :: m := by
  obtain ⟨ending, eq, -⟩ := exists_ending ('/' :: rest)
  cases h : stripModuleSuffix ('/' :: rest) with
  | nil => exact .inl rfl
  | cons c m =>
    rw [h, List.cons_append, List.cons.injEq] at eq
    exact .inr ⟨m, by rw [← eq.1]⟩

/-- A path that leads above its start still does without its ending. -/
theorem stripModuleSuffix_climbing (rest : Text) :
    stripModuleSuffix ('.' :: '.' :: '/' :: rest) = up ∨
      ∃ m, stripModuleSuffix ('.' :: '.' :: '/' :: rest) = '.' :: '.' :: '/' :: m := by
  obtain ⟨ending, eq, known⟩ := exists_ending ('.' :: '.' :: '/' :: rest)
  have short : ∀ more, ending ≠ '.' :: '.' :: more ∧ ending ≠ '.' :: '/' :: more := by
    rintro more
    rcases known with rfl | known
    · simp
    · simp only [endings, initSuffixes, suffixes, List.cons_append, List.nil_append, List.mem_cons,
        List.not_mem_nil, or_false] at known
      rcases known with rfl | rfl | rfl | rfl <;> simp
  rcases h : stripModuleSuffix ('.' :: '.' :: '/' :: rest) with _ | ⟨a, _ | ⟨b, _ | ⟨c, m⟩⟩⟩ <;>
    simp only [h, List.nil_append, List.cons_append, List.cons.injEq] at eq
  · exact absurd eq.symm (short _).1
  · exact absurd eq.2.symm (short _).2
  · obtain ⟨rfl, rfl, -⟩ := eq
    exact .inl rfl
  · obtain ⟨rfl, rfl, rfl, -⟩ := eq
    exact .inr ⟨m, rfl⟩

/-- An ending with no slash but one in front does not reach over a slash, so what stands before it stays. -/
theorem stripSuffix?_append_slash {ending : Text} (short : '/' ∉ ending.tail) (lead rest : Text) :
    stripSuffix? (lead ++ '/' :: rest) ending =
      (stripSuffix? ('/' :: rest) ending).map (lead ++ ·) := by
  ext m
  rw [stripSuffix?_eq_some_iff, Option.map_eq_some_iff]
  simp only [stripSuffix?_eq_some_iff]
  constructor
  · intro h
    rcases List.append_eq_append_iff.mp h with ⟨more, rfl, e⟩ | ⟨more, rfl, e⟩
    · exact ⟨more, e, rfl⟩
    · cases more with
      | nil => exact ⟨[], by simpa using e.symm, by simp⟩
      | cons c more => exact absurd (by simp [e]) short
  · rintro ⟨m', h, rfl⟩
    rw [h, List.append_assoc]

theorem findSome?_eq_map {l : List Text} {f g : Text → Option Text} {h : Text → Text}
    (each : ∀ ending ∈ l, f ending = (g ending).map h) :
    l.findSome? f = (l.findSome? g).map h := by
  induction l with
  | nil => rfl
  | cons ending l ih =>
    rw [List.findSome?_cons, List.findSome?_cons, each ending List.mem_cons_self,
      ih fun e mem => each e (List.mem_cons_of_mem _ mem)]
    cases g ending <;> rfl

/-- What stands before a path from the root stays before its module path. -/
theorem stripModuleSuffix_append_slash (lead rest : Text) :
    stripModuleSuffix (lead ++ '/' :: rest) = lead ++ stripModuleSuffix ('/' :: rest) := by
  have each : ∀ ending ∈ initSuffixes ++ suffixes, stripSuffix? (lead ++ '/' :: rest) ending =
      (stripSuffix? ('/' :: rest) ending).map (lead ++ ·) := by
    intro ending mem
    refine stripSuffix?_append_slash ?_ lead rest
    simp only [initSuffixes, suffixes, List.cons_append, List.nil_append, List.mem_cons,
      List.not_mem_nil, or_false] at mem
    rcases mem with rfl | rfl | rfl | rfl <;> decide
  rw [stripModuleSuffix, stripModuleSuffix, findSome?_eq_map each]
  cases (initSuffixes ++ suffixes).findSome? (stripSuffix? ('/' :: rest)) <;> rfl

theorem stripModuleSuffix_dot_slash (rest : Text) :
    stripModuleSuffix ('.' :: '/' :: rest) = '.' :: stripModuleSuffix ('/' :: rest) :=
  stripModuleSuffix_append_slash ['.'] rest

end ScriptHost.Cursor
