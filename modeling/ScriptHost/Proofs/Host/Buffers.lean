/-
Buffers are arrays of bytes (`Host.Buffer.buffer_is_byte_array`). A buffer is told by the writes to it since it
was made (`Host.Buffer.History`): every byte is that of the last write that covers it, or zero. An access that
stays within the buffer is done, every other is refused and changes nothing. The engine panics where it is asked
for what is outside (`Host.Buffer.asking_panics_iff`), and reading and writing never panic. Between one write and
the next the host may do whatever leaves the buffer alone.
-/
import ScriptHost.Host.Buffer
import ScriptHost.Host.Vm
import ScriptHost.Proofs.Host.Crossing

namespace ScriptHost.Host.Buffer

/-! ## Writes -/

/-- Bytes that were written from an offset on. -/
structure Write where
  offset : Nat
  data : Bytes
  deriving DecidableEq, Repr

/-- The byte for a position, none if the write does not cover it. -/
def Write.at? (w : Write) (i : Nat) : Option UInt8 :=
  if i < w.offset then none else w.data[i - w.offset]?

/-- The byte of the last write that covers a position, zero if none does. -/
def byteAt (writes : List Write) (i : Nat) : UInt8 :=
  (writes.reverse.findSome? (·.at? i)).getD 0

/-- The bytes from an offset on. -/
def bytesAt (writes : List Write) (offset length : Nat) : Bytes :=
  (List.range' offset length).map (byteAt writes)

theorem byteAt_concat (writes : List Write) (w : Write) (i : Nat) :
    byteAt (writes ++ [w]) i = if w.offset ≤ i ∧ i < w.offset + w.data.length then w.data.getD (i - w.offset) 0
      else byteAt writes i := by
  rw [byteAt, List.reverse_append, List.reverse_singleton, List.singleton_append, List.findSome?_cons, Write.at?]
  by_cases before : i < w.offset
  · rw [if_pos before, if_neg (by omega)]
    rfl
  · rw [if_neg before, List.getD_eq_getElem?_getD]
    by_cases after : i < w.offset + w.data.length
    · rw [if_pos (by omega), List.getElem?_eq_getElem (by omega)]
    · rw [if_neg (by omega), List.getElem?_eq_none (by omega), byteAt]

@[simp] theorem length_bytesAt (writes : List Write) (offset length : Nat) :
    (bytesAt writes offset length).length = length := by
  simp [bytesAt]

theorem getElem?_bytesAt {writes : List Write} {offset length i : Nat} (small : i < length) :
    (bytesAt writes offset length)[i]? = some (byteAt writes (offset + i)) := by
  simp [bytesAt, small]

theorem take_drop_bytesAt (writes : List Write) {offset length size : Nat} (within : offset + length ≤ size) :
    ((bytesAt writes 0 size).drop offset).take length = bytesAt writes offset length := by
  refine List.ext_getElem? fun i => ?_
  by_cases small : i < length
  · rw [List.getElem?_take_of_lt small, List.getElem?_drop, getElem?_bytesAt (by omega), getElem?_bytesAt small,
      Nat.zero_add]
  · rw [List.getElem?_eq_none (by simp; omega), List.getElem?_eq_none (by simp; omega)]

/-- A write puts its bytes in the place of those that it covers. -/
theorem bytesAt_concat (writes : List Write) {w : Write} {size : Nat} (within : w.offset + w.data.length ≤ size) :
    bytesAt (writes ++ [w]) 0 size =
      (bytesAt writes 0 size).take w.offset ++ w.data ++ (bytesAt writes 0 size).drop (w.offset + w.data.length) := by
  have whole := length_bytesAt writes 0 size
  refine List.ext_getElem (by simp; omega) fun i inside _ => ?_
  rw [length_bytesAt] at inside
  have new : (bytesAt (writes ++ [w]) 0 size)[i] = byteAt (writes ++ [w]) i := by simp [bytesAt]
  rw [new, byteAt_concat]
  by_cases before : i < w.offset
  · rw [if_neg (by omega), List.getElem_append_left (by simp; omega), List.getElem_append_left (by simp; omega)]
    simp [bytesAt]
  · by_cases after : i < w.offset + w.data.length
    · rw [if_pos (by omega), List.getElem_append_left (by simp; omega), List.getElem_append_right (by simp; omega)]
      have start : min w.offset size = w.offset := by omega
      simp [start, List.getElem?_eq_getElem (show i - w.offset < w.data.length by omega)]
    · rw [if_neg (by omega), List.getElem_append_right (by simp; omega)]
      have stop : w.offset + w.data.length + (i - (min w.offset size + w.data.length)) = i := by omega
      simp [bytesAt, stop]

/-! ## Ranges -/

theorem inRange_eq_true {offset length : UInt64} {size : Nat} : inRange offset length size = true ↔
    offset.toNat + length.toNat < UInt64.size ∧ offset.toNat + length.toNat ≤ size := by
  simp only [inRange, Bool.and_eq_true, decide_eq_true_eq]

theorem inRange_iff {offset length : UInt64} {size : Nat} (word : size < UInt64.size) :
    inRange offset length size = true ↔ offset.toNat + length.toNat ≤ size :=
  inRange_eq_true.trans ⟨And.right, fun within => ⟨Nat.lt_of_le_of_lt within word, within⟩⟩

theorem rangePanic?_of_within {offset length size : Nat} (word : offset + length < UInt64.size)
    (within : offset + length ≤ size) : Engine.rangePanic? offset length size = none := by
  rw [Engine.rangePanic?, if_neg (by omega), if_neg (by omega)]

/-- The end of a range that is within a buffer is a word, for the size is. -/
theorem rangePanic?_eq_none_iff {offset length size : Nat} (word : size < UInt64.size) :
    Engine.rangePanic? offset length size = none ↔ offset + length ≤ size := by
  refine ⟨fun quiet => ?_, fun within => rangePanic?_of_within (Nat.lt_of_le_of_lt within word) within⟩
  rw [Engine.rangePanic?] at quiet
  split at quiet
  · cases quiet
  · split at quiet
    · cases quiet
    · omega

theorem checkRange_run (ref : ReferenceId) (offset length : UInt64) (s : HostState) :
    checkRange ref offset length s = if inRange offset length (s.engine.bufferLength ref) then .ok () s
      else .error (.outOfBounds offset.toNat length.toNat (s.engine.bufferLength ref)) s := by
  simp only [checkRange, bind_run, get_run]
  split <;> rfl

/-! ## What the engine is asked for -/

section Asked

variable {e : Engine} {ref : ReferenceId} {id : ObjectId} {bytes : Bytes}

theorem bufferLength_of_there (target : e.target? ref = some id) (there : e.object? id = some (.buffer bytes)) :
    e.bufferLength ref = bytes.length := by
  simp only [Engine.bufferLength, Engine.deref?, target, Option.bind_some, there]

theorem bufferRead_of_there (target : e.target? ref = some id) (there : e.object? id = some (.buffer bytes))
    (offset length : Nat) :
    e.bufferRead ref offset length = match Engine.rangePanic? offset length bytes.length with
      | some p => .error p
      | none => .ok ((bytes.drop offset).take length) := by
  cases panics : Engine.rangePanic? offset length bytes.length <;>
    simp only [Engine.bufferRead, Engine.deref?, target, Option.bind_some, there, panics]

theorem bufferWrite_of_there (target : e.target? ref = some id) (there : e.object? id = some (.buffer bytes))
    (offset : Nat) (data : Bytes) :
    e.bufferWrite ref offset data = match Engine.rangePanic? offset data.length bytes.length with
      | some p => (.error p, e)
      | none => (.ok (), e.setObject id
        (.buffer (bytes.take offset ++ data ++ bytes.drop (offset + data.length)))) := by
  cases panics : Engine.rangePanic? offset data.length bytes.length <;>
    simp only [Engine.bufferWrite, Engine.deref?, target, Option.bind_some, there, panics]

/-- The engine panics exactly where it is asked for what is not all within the buffer. -/
theorem asking_panics_iff (target : e.target? ref = some id) (there : e.object? id = some (.buffer bytes))
    (word : bytes.length < UInt64.size) :
    (∀ offset length, (∃ p, e.bufferRead ref offset length = .error p) ↔ bytes.length < offset + length) ∧
      ∀ offset data, (∃ p, (e.bufferWrite ref offset data).1 = .error p) ↔ bytes.length < offset + data.length := by
  refine ⟨fun offset length => ?_, fun offset data => ?_⟩
  · rw [bufferRead_of_there target there, ← Nat.not_le, ← rangePanic?_eq_none_iff word]
    cases Engine.rangePanic? offset length bytes.length <;> simp
  · rw [bufferWrite_of_there target there, ← Nat.not_le, ← rangePanic?_eq_none_iff word]
    cases Engine.rangePanic? offset data.length bytes.length <;> simp

/-- Whatever object it is: within its length there is no panic. -/
theorem bufferRead_of_within {offset length : Nat} (word : offset + length < UInt64.size)
    (within : offset + length ≤ e.bufferLength ref) : ∃ copied, e.bufferRead ref offset length = .ok copied := by
  unfold Engine.bufferLength at within
  unfold Engine.bufferRead
  split
  · next found =>
    rw [found] at within
    exact ⟨_, by rw [rangePanic?_of_within word within]⟩
  · exact ⟨_, rfl⟩

theorem bufferWrite_of_within {offset : Nat} {data : Bytes} (word : offset + data.length < UInt64.size)
    (within : offset + data.length ≤ e.bufferLength ref) : (e.bufferWrite ref offset data).1 = .ok () := by
  unfold Engine.bufferLength at within
  unfold Engine.bufferWrite
  split
  · next found =>
    rw [found] at within
    rw [rangePanic?_of_within word within]
  · rfl

end Asked

/-- Work that ends with a value or an error. -/
def Completes {α : Type} (work : Host α) : Prop :=
  ∀ s how t, work s ≠ .error (.abort how) t

/-- After the check there is only work within the buffer. -/
theorem checkRange_bind_completes {α : Type} {ref : ReferenceId} {offset length : UInt64} {work : Host α}
    (quiet : ∀ s how t, offset.toNat + length.toNat < UInt64.size →
      offset.toNat + length.toNat ≤ s.engine.bufferLength ref → work s ≠ .error (.abort how) t) :
    Completes (checkRange ref offset length >>= fun _ => work) := by
  intro s how t
  rw [bind_run, checkRange_run]
  by_cases within : inRange offset length (s.engine.bufferLength ref) = true
  · rw [if_pos within]
    obtain ⟨word, within⟩ := inRange_eq_true.mp within
    exact quiet s how t word within
  · rw [if_neg within]
    exact nofun

theorem withObject_completes {α : Type} {action : String} {object : HandleId}
    {work : VmId → MachineId → ReferenceId → Host α} (quiet : ∀ vm machine ref, Completes (work vm machine ref)) :
    Completes (withObject action object work) := by
  intro s how t failed
  obtain closed | closed | ⟨vm, machine, ref, s', t', failed⟩ := withObject_eq_error failed
  · cases closed
  · cases closed
  · exact quiet vm machine ref s' how t' failed

theorem read_completes (buffer : HandleId) (offset length : UInt64) : Completes (read buffer offset length) := by
  refine withObject_completes fun vm machine ref => checkRange_bind_completes fun s how t word within => ?_
  obtain ⟨copied, done⟩ := bufferRead_of_within word within
  rw [tryInEngine_run, done]
  exact nofun

theorem write_completes (buffer : HandleId) (offset : UInt64) {data : Bytes} (small : data.length < UInt64.size) :
    Completes (write buffer offset data) := by
  refine withObject_completes fun vm machine ref => checkRange_bind_completes fun s how t word within => ?_
  rw [UInt64.toNat_ofNat_of_lt' small] at word within
  rw [tryInEngine_run, bufferWrite_of_within word within]
  exact nofun

theorem length_completes (buffer : HandleId) : Completes (length buffer) :=
  withObject_completes fun _ _ _ _ _ _ => nofun

theorem toBytes_completes (buffer : HandleId) : Completes (toBytes buffer) := by
  intro s how t failed
  rw [toBytes] at failed
  obtain failed | ⟨size, u, -, failed⟩ := bind_eq_error.mp failed
  · exact length_completes buffer s how t failed
  · exact read_completes buffer 0 (.ofNat size) u how t failed

/-! ## Access -/

section Access

variable {s t : HostState} {vm : VmId} {buffer : HandleId} {id : ObjectId} {bytes : Bytes}

theorem length_run (behind : s.Behind vm buffer id) (there : s.engine.object? id = some (.buffer bytes)) :
    length buffer s = .ok bytes.length s := by
  obtain ⟨machine, ref, target, -, guarded⟩ := behind.exists_guarded
  rw [length, guarded]
  show EStateM.Result.ok (s.engine.bufferLength ref) _ = _
  rw [bufferLength_of_there target there]
  exact congrArg _ (s.unread_read ..)

theorem read_run (behind : s.Behind vm buffer id) (there : s.engine.object? id = some (.buffer bytes))
    (word : bytes.length < UInt64.size) (offset length : UInt64) :
    read buffer offset length s = if offset.toNat + length.toNat ≤ bytes.length
      then .ok ((bytes.drop offset.toNat).take length.toNat) s
      else .error (.outOfBounds offset.toNat length.toNat bytes.length) s := by
  obtain ⟨machine, ref, target, -, guarded⟩ := behind.exists_guarded
  have size : ((s.readVm vm).readObject buffer).engine.bufferLength ref = bytes.length :=
    bufferLength_of_there target there
  rw [read, guarded]
  simp only [bind_run, checkRange_run, size]
  by_cases within : offset.toNat + length.toNat ≤ bytes.length
  · have copied : ((s.readVm vm).readObject buffer).engine.bufferRead ref offset.toNat length.toNat =
        .ok ((bytes.drop offset.toNat).take length.toNat) := by
      refine (bufferRead_of_there target there offset.toNat length.toNat).trans ?_
      rw [(rangePanic?_eq_none_iff word).mpr within]
    rw [if_pos ((inRange_iff word).mpr within), if_pos within]
    simp only [tryInEngine_run, copied]
    exact congrArg _ (s.unread_read ..)
  · rw [if_neg (mt (inRange_iff word).mp within), if_neg within]
    exact congrArg _ (s.unread_read ..)

theorem write_run (behind : s.Behind vm buffer id) (there : s.engine.object? id = some (.buffer bytes))
    (word : bytes.length < UInt64.size) (offset : UInt64) {data : Bytes} (small : data.length < UInt64.size) :
    write buffer offset data s = if offset.toNat + data.length ≤ bytes.length
      then .ok () { s with engine := s.engine.setObject id (.buffer
        (bytes.take offset.toNat ++ data ++ bytes.drop (offset.toNat + data.length))) }
      else .error (.outOfBounds offset.toNat data.length bytes.length) s := by
  obtain ⟨machine, ref, target, -, guarded⟩ := behind.exists_guarded
  have size : ((s.readVm vm).readObject buffer).engine.bufferLength ref = bytes.length :=
    bufferLength_of_there target there
  have counted : (UInt64.ofNat data.length).toNat = data.length := UInt64.toNat_ofNat_of_lt' small
  rw [write, guarded]
  simp only [bind_run, checkRange_run, size, counted]
  by_cases within : offset.toNat + data.length ≤ bytes.length
  · have stored : ((s.readVm vm).readObject buffer).engine.bufferWrite ref offset.toNat data =
        (.ok (), s.engine.setObject id
          (.buffer (bytes.take offset.toNat ++ data ++ bytes.drop (offset.toNat + data.length)))) := by
      refine (bufferWrite_of_there target there offset.toNat data).trans ?_
      rw [(rangePanic?_eq_none_iff word).mpr within]
    rw [if_pos ((inRange_iff word).mpr (by rwa [counted])), if_pos within]
    simp only [tryInEngine_run, stored]
    exact congrArg _ (s.unread_read ..)
  · rw [if_neg (mt (inRange_iff word).mp (by rwa [counted])), if_neg within]
    exact congrArg _ (s.unread_read ..)

end Access

/-! ## Buffers are arrays -/

variable {size : Nat} {id : ObjectId} {writes : List Write} {s t : HostState} {vm : VmId} {buffer : HandleId}

/-- What was written to a buffer since it was made, one write after the other. -/
inductive History (size : Nat) (id : ObjectId) : List Write → HostState → Prop where
  | created {s : HostState} (zeroed : s.engine.object? id = some (.buffer (List.replicate size 0))) :
    History size id [] s
  | write {s t : HostState} {writes : List Write} {vm : VmId} {buffer : HandleId} {offset : UInt64} {data : Bytes}
    (before : History size id writes s) (behind : s.Behind vm buffer id) (small : data.length < UInt64.size)
    (done : Buffer.write buffer offset data s = .ok () t) : History size id (writes ++ [⟨offset.toNat, data⟩]) t
  | elsewhere {s t : HostState} {writes : List Write} (before : History size id writes s)
    (same : t.engine.object? id = s.engine.object? id) : History size id writes t

/-- The buffer holds what the writes make of it. -/
theorem History.object? (history : History size id writes s) (word : size < UInt64.size) :
    s.engine.object? id = some (.buffer (bytesAt writes 0 size)) := by
  induction history with
  | created zeroed =>
    have zeros : bytesAt [] 0 size = List.replicate size 0 := by
      simp [bytesAt, byteAt, List.eq_replicate_iff]
    rw [zeroed, zeros]
  | @write s t writes vm buffer offset data before behind small done ih =>
    have wrote := write_run behind ih (by rwa [length_bytesAt]) offset small
    rw [length_bytesAt, done] at wrote
    split at wrote
    · next within =>
      obtain ⟨-, rfl⟩ := EStateM.Result.ok.inj wrote
      rw [Engine.object?_setObject ih, bytesAt_concat writes within]
    · cases wrote
  | elsewhere before same ih => exact same.trans ih

/-- A new buffer is all zeros. -/
theorem createBuffer_run (isOpen : s.machine? vm ≠ none) (faultless : s.engine.faults = []) (size : Nat) :
    ∃ t, createBuffer vm size s = .ok (.object .buffer s.wrappers.length) t ∧
      t.Behind vm s.wrappers.length s.engine.objects.length ∧ History size s.engine.objects.length [] t := by
  obtain ⟨t, made, behind, there, -⟩ := create_run isOpen faultless "create buffer" "buffer" .createBuffer .buffer
    (.buffer (List.replicate size 0))
  exact ⟨t, made, behind, .created there⟩

/-- **A buffer is an array of bytes with checked bounds.** An access succeeds exactly if its end is not beyond
the buffer, as a whole number that does not wrap; any other is refused with the offset and the length that
were given and the size, and changes nothing. What is read is for every position the byte of the last write
that covers it, or zero. A write changes the bytes that it covers and nothing else. The size stays what it was,
and all bytes are the whole array. The engine is not asked for what is outside: it would panic, and there is no
buffer and no range for which reading, writing or taking all bytes does. -/
theorem buffer_is_byte_array (history : History size id writes s) (word : size < UInt64.size)
    (behind : s.Behind vm buffer id) :
    (∀ offset length : UInt64, read buffer offset length s =
      if offset.toNat + length.toNat ≤ size then .ok (bytesAt writes offset.toNat length.toNat) s
      else .error (.outOfBounds offset.toNat length.toNat size) s) ∧
    (∀ (offset : UInt64) (data : Bytes), data.length < UInt64.size →
      let written := writes ++ [⟨offset.toNat, data⟩]
      let t : HostState := { s with engine := s.engine.setObject id (.buffer (bytesAt written 0 size)) }
      if offset.toNat + data.length ≤ size then
        write buffer offset data s = .ok () t ∧ History size id written t ∧ t.Behind vm buffer id ∧
          ∀ i, byteAt written i = if offset.toNat ≤ i ∧ i < offset.toNat + data.length
            then data.getD (i - offset.toNat) 0 else byteAt writes i
      else write buffer offset data s = .error (.outOfBounds offset.toNat data.length size) s) ∧
    length buffer s = .ok size s ∧ toBytes buffer s = .ok (bytesAt writes 0 size) s ∧
    (∀ ref, s.engine.target? ref = some id →
      (∀ offset length, (∃ p, s.engine.bufferRead ref offset length = .error p) ↔ size < offset + length) ∧
      ∀ offset data, (∃ p, (s.engine.bufferWrite ref offset data).1 = .error p) ↔ size < offset + data.length) ∧
    ∀ buffer, (∀ offset length, Completes (read buffer offset length)) ∧
      (∀ offset (data : Bytes), data.length < UInt64.size → Completes (write buffer offset data)) ∧
      Completes (toBytes buffer) := by
  have there := history.object? word
  have counted := length_bytesAt writes 0 size
  have reads : ∀ offset length : UInt64, read buffer offset length s =
      if offset.toNat + length.toNat ≤ size then .ok (bytesAt writes offset.toNat length.toNat) s
      else .error (.outOfBounds offset.toNat length.toNat size) s := by
    intro offset length
    rw [read_run behind there (counted.symm ▸ word), counted]
    split
    · next within => rw [take_drop_bytesAt writes within]
    · rfl
  have sized : length buffer s = .ok size s := by
    rw [length_run behind there, counted]
  refine ⟨reads, fun offset data small => ?_, sized, ?_, fun ref target => ?_, fun buffer =>
    ⟨read_completes buffer, fun offset _ => write_completes buffer offset, toBytes_completes buffer⟩⟩
  · have wrote := write_run behind there (counted.symm ▸ word) offset small
    rw [counted] at wrote
    dsimp only
    split
    · next within =>
      rw [if_pos within, ← bytesAt_concat (w := ⟨offset.toNat, data⟩) writes within] at wrote
      exact ⟨wrote, history.write behind small wrote, ⟨behind.isFor, behind.isOpen, behind.leads⟩,
        fun i => byteAt_concat writes _ i⟩
    · next beyond => rwa [if_neg beyond] at wrote
  · rw [toBytes, bind_run, sized]
    dsimp only
    rw [reads, UInt64.toNat_ofNat_of_lt' word]
    simp
  · have panics := asking_panics_iff target there (counted.symm ▸ word)
    rwa [counted] at panics

/-- A VM and a buffer of four bytes. -/
def fourBytes : HostState :=
  after (do
    let _ ← newVm
    createBuffer 0 4) {}

/-- Two bytes are written, and read with their neighbours; the empty range at the end may be read, and a range
whose end wraps may not. -/
theorem buffer_is_byte_array_of_four :
    let s := fourBytes
    s.Behind 0 0 1 ∧ History 4 1 [] s ∧ ∃ t, write 0 1 [7, 8] s = .ok () t ∧ read 0 0 4 t = .ok [0, 7, 8, 0] t ∧
      read 0 4 0 t = .ok [] t ∧
      read 0 0xffffffffffffffff 2 t = .error (.outOfBounds 18446744073709551615 2 4) t := by
  intro s
  have behind : s.Behind 0 0 1 := ⟨rfl, nofun, rfl⟩
  have created : History 4 1 [] s := .created rfl
  obtain ⟨-, writes, -⟩ := buffer_is_byte_array created (by decide) behind
  obtain ⟨wrote, history, behind', -⟩ := writes 1 [7, 8] (by decide)
  obtain ⟨reads, -⟩ := buffer_is_byte_array history (by decide) behind'
  exact ⟨behind, created, _, wrote, reads 0 4, reads 4 0, reads 0xffffffffffffffff 2⟩

end ScriptHost.Host.Buffer
