/-
What the interface makes of a resolver's answers. A caller across it gets what the resolver answers when
it is asked for the same without NULs: flags, walks, keys and contents as they are but for NULs in
texts, failures and panics as their text, and a loaded function in a wrapper of the caller's own
(`Resolver.foreign_eq`).
-/
import ScriptHost.Proofs.Text.CString
import ScriptHost.Resolver.Foreign

namespace ScriptHost

variable {σ : Type}

/-- The operation with every text it mentions stripped of NULs. -/
def Operation.stripped : Operation → Operation
  | isAllowed name => isAllowed (Text.withoutNul name)
  | reset name => reset (Text.withoutNul name)
  | jumpToAlias path => jumpToAlias (Text.withoutNul path)
  | toChild name => toChild (Text.withoutNul name)
  | toParent => toParent
  | hasModule => hasModule
  | cacheKey => cacheKey
  | hasConfig => hasConfig
  | config => config
  | load loader => load loader

/-! ## Answers across the interface -/

/-- A panic answers no. -/
def crossedFlag : Except CallbackPanic Bool → Bool
  | .ok flag => flag
  | .error _ => false

/-- A message of its own loses its NULs, and a panic becomes such a message. -/
def crossedWalk (name : OperationName) : Except CallbackPanic NavigationResult → NavigationResult
  | .ok (.error (.other message)) => .error (.other (Text.stripped message))
  | .ok result => result
  | .error p => .error (.other (Text.stripped (Resolver.panicText name p)))

/-- A panic answers the empty key. -/
def crossedKey : Except CallbackPanic Text → Text
  | .ok key => Text.withoutNul key
  | .error _ => []

/-- Contents stay what they are; a failure keeps its text. -/
def crossedConfig : Except CallbackPanic (Except IoError Bytes) → Except IoError Bytes
  | .ok (.ok contents) => .ok contents
  | .ok (.error e) => .error (.other (Text.stripped e.message))
  | .error p => .error (.other (Text.stripped (Resolver.panicText .config p)))

/-- A loaded function is taken out of its wrapper and wrapped anew for the VM of the loader; a failure
keeps its text, also that of a wrapper that does not give its function away. -/
def crossedLoad (loader : ChunkLoader) :
    Except CallbackPanic (Except Error HandleId) → HostState → Except Error HandleId × HostState
  | .ok (.ok h), host =>
    match Host.disarm h host with
    | .ok ref host => (.ok host.wrappers.length,
        { host with wrappers := host.wrappers ++ [⟨loader.vm, .arm ref (.ofObject .function)⟩] })
    | .error e host => (.error (.native (Text.stripped e.message)), host)
  | .ok (.error e), host => (.error (.native (Text.stripped e.message)), host)
  | .error p, host => (.error (.native (Text.stripped (Resolver.panicText .load p))), host)

/-- What a caller across the interface gets of an answer, and the scene it leaves. -/
def crossed : (op : Operation) → Except CallbackPanic op.stripped.Answer × Scene σ →
    op.Answer × Scene σ
  | .isAllowed _, (asked, s) | .hasModule, (asked, s) | .hasConfig, (asked, s) =>
    (crossedFlag asked, s)
  | .reset _, (asked, s) => (crossedWalk .reset asked, s)
  | .jumpToAlias _, (asked, s) => (crossedWalk .jumpToAlias asked, s)
  | .toParent, (asked, s) => (crossedWalk .toParent asked, s)
  | .toChild _, (asked, s) => (crossedWalk .toChild asked, s)
  | .cacheKey, (asked, s) => (crossedKey asked, s)
  | .config, (asked, s) => (crossedConfig asked, s)
  | .load loader, (asked, s) =>
    let (answer, host) := crossedLoad loader asked s.host
    (answer, { s with host })

/-- What crosses leaves the resolver's own state as it is. -/
theorem own_crossed (op : Operation) (asked : Except CallbackPanic op.stripped.Answer × Scene σ) :
    (crossed op asked).2.own = asked.2.own := by
  cases op <;> rfl

/-! ## Through the records -/

namespace Resolver

theorem exportWalk_toResult (name : OperationName) (asked : Except CallbackPanic NavigationResult) :
    (exportWalk name asked).toResult = crossedWalk name asked := by
  have other : ∀ message, (NavigationRecord.ofResult (.error (.other message))).toResult =
      .error (.other (Text.stripped message)) := by
    intro message
    simp [NavigationRecord.ofResult, NavigationRecord.toResult, NavigationRecord.success]
  rcases asked with p | (_ | _ | message) | _
  · exact other _
  · rfl
  · rfl
  · exact other message
  · rfl

theorem exportFlag_eq (asked : Except CallbackPanic Bool) : exportFlag asked = crossedFlag asked := by
  cases asked <;> rfl

theorem exportCacheKey_text (asked : Except CallbackPanic Text) :
    (exportCacheKey asked).text.toList = crossedKey asked := by
  cases asked with
  | ok key => exact CString.toList_text_ofText_ofList key
  | error p =>
    show (CString.ofText "").text.toList = []
    decide +kernel

theorem takeConfig_exportConfig (r : Resolver σ) (s : Scene σ) :
    CallbackTable.takeConfig (r.exportConfig {} s).1 = crossedConfig (r.ask .config s).1 ∧
      (r.exportConfig {} s).2 = (r.ask .config s).2 := by
  unfold exportConfig
  rcases r.ask .config s with ⟨p | e | contents, t⟩
  · simp [CallbackTable.takeConfig, CString.taken, crossedConfig]
  · simp [CallbackTable.takeConfig, CString.taken, crossedConfig]
  · simp [CallbackTable.takeConfig, CString.taken, crossedConfig, RawBytes.toBytes?, RawBytes.ofBytes]

theorem takeFunction_failed (loader : ChunkLoader) (message : String) (host : HostState) :
    CallbackTable.takeFunction { loader, error := some (.ofText message) } host =
      .error (.native (Text.stripped message)) host := by
  rw [← CString.text_ofText]
  rfl

theorem takeFunction_handed (loader : ChunkLoader) (ref : ReferenceId) (host : HostState) :
    CallbackTable.takeFunction { loader, function := some ref } host =
      .ok host.wrappers.length
        { host with wrappers := host.wrappers ++ [⟨loader.vm, .arm ref (.ofObject .function)⟩] } :=
  rfl

theorem take_exportLoad (r : Resolver σ) (loader : ChunkLoader) (s : Scene σ) :
    CallbackTable.take (.load loader) (r.exportLoad { loader } s).1 (r.exportLoad { loader } s).2 =
      crossed (.load loader) (r.ask (.load loader) s) := by
  have failed : ∀ message (t : Scene σ),
      CallbackTable.take (.load loader)
        ({ loader, error := some (.ofText message) } : LoadRecord) t =
        (.error (.native (Text.stripped message)), t) := by
    intro message t
    simp only [CallbackTable.take, takeFunction_failed]
  cases asked : r.ask (.load loader) s with
  | mk answer t =>
    rcases answer with p | e | h
    · simp only [exportLoad, asked]
      exact failed _ t
    · simp only [exportLoad, asked]
      exact failed _ t
    · cases taken : Host.disarm h t.host with
      | ok ref host =>
        simp only [exportLoad, asked, taken, crossed, crossedLoad, CallbackTable.take,
          takeFunction_handed]
      | error e host =>
        simp only [exportLoad, asked, taken, crossed, crossedLoad]
        exact failed _ { t with host }

theorem fill_exported (r : Resolver σ) (name : OperationName) (record : name.Record) (s : Scene σ) :
    r.exported.fill name record s = r.fillRecord name record s := by
  have nothing : ∀ t : Scene σ, t.report [] = t := by simp [Scene.report]
  simp only [CallbackTable.fill, exported, ForeignCallback.new, ForeignCallback.fill,
    Outcome.recover_returned, nothing]

theorem foreign_of_fillRecord (r : Resolver σ) (op : Operation) (s : Scene σ) :
    r.foreign op s =
      (.returned (CallbackTable.take op (r.fillRecord op.name op.record s).1
        (r.fillRecord op.name op.record s).2).1,
      (CallbackTable.take op (r.fillRecord op.name op.record s).1
        (r.fillRecord op.name op.record s).2).2) := by
  simp only [foreign, CallbackTable.driven, fill_exported]

theorem foreign_eq (r : Resolver σ) (op : Operation) (s : Scene σ) :
    r.foreign op s =
      (.returned (crossed op (r.ask op.stripped s)).1, (crossed op (r.ask op.stripped s)).2) := by
  rw [foreign_of_fillRecord]
  cases op with
  | isAllowed name =>
    have text := CString.toList_text_ofText_ofList name
    show (Outcome.returned (exportFlag (r.ask (.isAllowed (CString.ofText (String.ofList name)).text.toList) s).1),
      (r.ask (.isAllowed (CString.ofText (String.ofList name)).text.toList) s).2) = _
    rw [text]
    exact congrArg (fun answer => (Outcome.returned answer, _)) (exportFlag_eq _)
  | reset name =>
    have text := CString.toList_text_ofText_ofList name
    show (Outcome.returned ((exportWalk .reset (r.ask (.reset (CString.ofText (String.ofList name)).text.toList) s).1).toResult),
      (r.ask (.reset (CString.ofText (String.ofList name)).text.toList) s).2) = _
    rw [text]
    exact congrArg (fun answer => (Outcome.returned answer, _)) (exportWalk_toResult .reset _)
  | jumpToAlias path =>
    have text := CString.toList_text_ofText_ofList path
    show (Outcome.returned ((exportWalk .jumpToAlias (r.ask (.jumpToAlias (CString.ofText (String.ofList path)).text.toList) s).1).toResult),
      (r.ask (.jumpToAlias (CString.ofText (String.ofList path)).text.toList) s).2) = _
    rw [text]
    exact congrArg (fun answer => (Outcome.returned answer, _)) (exportWalk_toResult .jumpToAlias _)
  | toChild name =>
    have text := CString.toList_text_ofText_ofList name
    show (Outcome.returned ((exportWalk .toChild (r.ask (.toChild (CString.ofText (String.ofList name)).text.toList) s).1).toResult),
      (r.ask (.toChild (CString.ofText (String.ofList name)).text.toList) s).2) = _
    rw [text]
    exact congrArg (fun answer => (Outcome.returned answer, _)) (exportWalk_toResult .toChild _)
  | toParent =>
    exact congrArg (fun answer => (Outcome.returned answer, _)) (exportWalk_toResult .toParent _)
  | hasModule => exact congrArg (fun answer => (Outcome.returned answer, _)) (exportFlag_eq _)
  | hasConfig => exact congrArg (fun answer => (Outcome.returned answer, _)) (exportFlag_eq _)
  | cacheKey => exact congrArg (fun answer => (Outcome.returned answer, _)) (exportCacheKey_text _)
  | config =>
    obtain ⟨answer, scene⟩ := r.takeConfig_exportConfig s
    show (Outcome.returned (CallbackTable.takeConfig (r.exportConfig {} s).1), (r.exportConfig {} s).2) = _
    rw [answer, scene]
    rfl
  | load loader =>
    exact congrArg (fun taken => (Outcome.returned taken.1, taken.2)) (r.take_exportLoad loader s)

end Resolver
end ScriptHost
